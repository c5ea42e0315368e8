import EmbeddedJsx.Cursor
import EmbeddedJsx.Name

/-!
# Productions

A production reads one construct of the grammar: it takes a cursor, and either answers with what
it read and the cursor after it, or is interrupted.  It leaves a cursor behind in both cases.

Two conventions hold throughout.  Productions for names and attributes end on the token after
the construct, for they cannot know where it ends without reading on.  Productions for elements,
fragments and expressions end on the last token of the construct, for it is up to the caller
whether tokens or raw text come next.

Loops are bounded by a number of steps.  A loop that is given more steps than there are
characters left never uses them up.

A cursor carries the characters that are read from it, so that a production looks nothing up and
takes nothing for granted.  Readers that keep offsets only, and check what they take for granted, are
the subject of `EmbeddedJsx.Checked`.
-/

namespace EmbeddedJsx

/-- Why a production ends without an answer. -/
inductive Interruption where
  /-- The text is at fault. -/
  | fault (error : SyntaxError)
  /-- The steps allowed for a loop are used up. -/
  | exhausted
deriving DecidableEq, Repr

/-- A reader of one construct. -/
abbrev Production (α : Type) := EStateM Interruption Cursor α

/-- The token on which a cursor stands, with its text. -/
def Cursor.excerpt (c : Cursor) : Excerpt := ⟨c.span, String.ofList c.lexeme⟩

namespace Production

/-- Ends with a fault that lies at the given span. -/
def rejectAt {α : Type} (fault : Fault) (span : Span) : Production α := fun c =>
  .error (.fault ⟨fault, span⟩) c

/-- Ends with a fault that lies at the current token. -/
def reject {α : Type} (fault : Fault) : Production α := fun c =>
  .error (.fault ⟨fault, c.span⟩) c

/-- Ends because the steps allowed are used up. -/
def exhaust {α : Type} : Production α := fun c => .error .exhausted c

/-- The kind of the current token. -/
def current : Production (Option TokenKind) := fun c => .ok c.token c

/-- Whether the current token is of the given kind. -/
def sees (kind : TokenKind) : Production Bool := fun c => .ok (c.token == some kind) c

/-- The current token, which has to be of the given kind. -/
def expect (kind : TokenKind) (what : Expectation) : Production Excerpt := fun c =>
  if c.token = some kind then .ok c.excerpt c else .error (.fault ⟨.expected what, c.span⟩) c

/-- Goes where a step of the cursor leads, the end of the input being the given fault. -/
def ofStep {α : Type} (construct : Fault) (step : Cursor → Cursor.Step α) : Production α := fun c =>
  match step c with
  | .ok a c' => .ok a c'
  | .error error c' => .error (.fault (error.inside construct)) c'

/-- Goes to the next token, which the construct needs. -/
def advance : Production Unit := do
  let _ ← ofStep .unfinished Cursor.next

/-- Goes to the next token after raw text, which the construct needs. -/
def advanceChild : Production TokenKind := ofStep .unclosed Cursor.nextChild

/-- Takes the current token, which has to be of the given kind, and goes on to the next. -/
def take (kind : TokenKind) (what : Expectation) : Production Excerpt := do
  let token ← expect kind what
  advance
  return token

/-! ## What a sequence of productions does -/

section Laws

variable {α β : Type} {first : Production α} {next : α → Production β} {c c' : Cursor}

@[simp] theorem pure_apply (a : α) : (pure a : Production α) c = .ok a c := rfl

@[simp] theorem get_apply : (get : Production Cursor) c = .ok c c := rfl

@[simp] theorem current_apply : current c = .ok c.token c := rfl

@[simp] theorem sees_apply (kind : TokenKind) : sees kind c = .ok (c.token == some kind) c := rfl

@[simp] theorem reject_apply (fault : Fault) :
    (reject fault : Production α) c = .error (.fault ⟨fault, c.span⟩) c := rfl

/-- Two productions in sequence succeed exactly if the first does and the second does from
where the first ends. -/
theorem bind_eq_ok {b : β} :
    (first >>= next) c = .ok b c' ↔ ∃ a c₁, first c = .ok a c₁ ∧ next a c₁ = .ok b c' := by
  simp only [bind, EStateM.bind]
  cases first c <;> simp [and_assoc]

/-- Two productions in sequence are interrupted exactly if the first is, or if it succeeds and
the second is interrupted from where the first ends. -/
theorem bind_eq_error {interruption : Interruption} :
    (first >>= next) c = .error interruption c' ↔
      first c = .error interruption c' ∨
        ∃ a c₁, first c = .ok a c₁ ∧ next a c₁ = .error interruption c' := by
  simp only [bind, EStateM.bind]
  cases first c <;> simp [and_assoc]

theorem expect_eq_ok {kind : TokenKind} {what : Expectation} {e : Excerpt} :
    expect kind what c = .ok e c' ↔ c.token = some kind ∧ e = c.excerpt ∧ c' = c := by
  unfold expect
  split <;> simp_all [eq_comm]

theorem advance_eq_ok {u : Unit} :
    advance c = .ok u c' ↔ ∃ kind, c.next = .ok kind c' := by
  simp only [advance, ofStep, bind, EStateM.bind]
  cases c.next <;> simp [pure, EStateM.pure]

theorem advanceChild_eq_ok {kind : TokenKind} :
    advanceChild c = .ok kind c' ↔ c.nextChild = .ok kind c' := by
  simp only [advanceChild, ofStep]
  cases c.nextChild <;> simp

end Laws

end Production

end EmbeddedJsx
