import EmbeddedJsx.Checked.Productions
import EmbeddedJsx.Session

/-!
# Reading a whole text with checks

A reading is a mark in a text with the markup collected so far.  It is to a mark what a session is
to a cursor.
-/

namespace EmbeddedJsx

/-- A mark and the markup collected so far. -/
structure Reading where
  /-- What has been read last. -/
  mark : Mark
  /-- The markup collected, in the order of the text. -/
  body : Array Node
deriving Repr

/-- A session without the characters that its cursor carries. -/
def Session.reading (s : Session) : Reading := ⟨s.cursor.mark, s.body⟩

namespace Reading

/-- What an operation on a reading leads to. -/
abbrev Step (α : Type) := EStateM.Result Halt Reading α

/-- The reading that is left behind. -/
def Step.reading {α : Type} : Step α → Reading
  | .ok _ r => r
  | .error _ r => r

/-- A construct of the grammar, given the production for markup in it and the bound of loops. -/
abbrev Rule (α : Type) := (nested : Checked Node) → (steps : Nat) → Checked α

/-- The reading before the first token of a text. -/
def beginning : Reading := ⟨.beginning, #[]⟩

variable (text : List Char)

/-- The steps with which no loop that begins at the mark ends early. -/
def steps (r : Reading) : Nat := (r.mark.cursor text).steps

/-- Goes where a step of the cursor leads. -/
def goOn (step : Cursor → Cursor.Step TokenKind) (r : Reading) : Step TokenKind :=
  match step (r.mark.cursor text) with
  | .ok kind c => .ok kind ⟨c.mark, r.body⟩
  | .error error c => .error (.interrupted (.fault error)) ⟨c.mark, r.body⟩

/-- Reads a construct, in which markup may be nested the given number of levels deep. -/
def read {α : Type} (rule : Rule α) (levels : Nat) (r : Reading) : Step α :=
  match rule (Checked.markup (r.steps text) levels) (r.steps text) text r.mark with
  | .ok a m => .ok a ⟨m, r.body⟩
  | .error halt m => .error halt ⟨m, r.body⟩

/-- Collects all top-level markup up to the end of the input, in at most the given number of
steps.  Other tokens are skipped. -/
def collect (markup : Checked Node) : (steps : Nat) → Reading → Step Program
  | 0, r => .error (.interrupted .exhausted) r
  | steps + 1, r =>
    match (r.mark.cursor text).next with
    | .error error c =>
      if error.fault.family = .boundary then .ok ⟨r.body.toList⟩ ⟨c.mark, r.body⟩
      else .error (.interrupted (.fault error)) ⟨c.mark, r.body⟩
    | .ok kind c =>
      if kind.opensMarkup then
        match markup text c.mark with
        | .ok node m => collect markup steps ⟨m, r.body.push node⟩
        | .error halt m => .error halt ⟨m, r.body⟩
      else
        collect markup steps ⟨c.mark, r.body⟩

/-- Collects all top-level markup, nested at most the given number of levels deep. -/
def parse (levels : Nat) (r : Reading) : Step Program :=
  r.collect text (Checked.markup (r.steps text) levels) (r.steps text)

end Reading

end EmbeddedJsx
