import EmbeddedJsx.Checked
import EmbeddedJsx.Proofs.Runs.Constructs

/-!
# Readers that mirror productions

A reader with checks mirrors a production if both lead to the same, wherever the production stays
within the text (`Checked.Mirrors`).  Then none of the checks of the reader fails, for a production
has none.  What is known of an answer and of the cursor left behind with it goes on to what is read
next: that the parts of a name can be looked up, or that a token stands right after raw text.

Sequences of readers mirror sequences of productions (`Mirrors.bind`), and the single steps out of
which readers are made mirror those out of which productions are made.
-/

namespace EmbeddedJsx

/-- All parts of the name are slices of the text. -/
def Name.Sliced (text : List Char) (name : Name) : Prop := ∀ e ∈ name.parts, e.Sliced text

/-! ### Cursors without the characters that they carry -/

namespace Cursor

variable {text : List Char} {c c' : Cursor} {kind : TokenKind}

lemma Within.cursor_mark (h : c.Within text) : c.mark.cursor text = c.emptied := by
  simp only [Mark.cursor, mark, h.drop_stop, Cursor.emptied]

lemma emptied_emptied (c : Cursor) : c.emptied.emptied = c.emptied := by simp [emptied, stop]

/-- What the token of a cursor reads has no influence on what comes next. -/
lemma next_emptied (c : Cursor) : c.emptied.next = c.next := by
  have htoken : c.emptied.token = c.token := rfl
  have hproceed : c.emptied.proceed (scan c.rest) = c.proceed (scan c.rest) := by
    rcases scan c.rest with ⟨skipped, found⟩
    cases found <;> simp only [proceed, stop_emptied, htoken]
  simp only [next, emptied_emptied]
  exact congrArg (ite _ _) hproceed

lemma nextChild_emptied (c : Cursor) : c.emptied.nextChild = c.nextChild := by
  have hskip : c.emptied.skipRaw = c.skipRaw := by simp [skipRaw, raw, emptied, stop]
  rw [nextChild, hskip, nextChild]

/-- What a cursor in a text spans is looked up there. -/
lemma Within.slice_span (h : c.Within text) : Text.slice text c.start c.stop = c.lexeme := by
  have hslice := h.orderedSlice_span
  rw [Text.orderedSlice] at hslice
  split at hslice
  · cases hslice
  · exact Except.ok.inj hslice

lemma Within.sliced_excerpt (h : c.Within text) : c.excerpt.Sliced text := by
  have hslice := h.orderedSlice_span
  rwa [← String.toList_ofList (l := c.lexeme)] at hslice

/-- What lies between two cursors in a text is looked up there. -/
lemma Within.slice_between (h : c.Within text) (h' : c'.Within text) :
    Text.slice text c.stop c'.start = c.rest.take (c'.start - c.stop) := by
  rw [Text.slice, Text.resolveBound_natCast h.stop_le, Text.resolveBound_natCast h'.start_le,
    h.drop_stop]

/-- The token after raw text begins where that text ends. -/
lemma start_of_nextChild (h : c.nextChild = .ok kind c') : c'.start = c.stop + c.raw.length := by
  obtain ⟨-, -, horigin⟩ := nextChild_eq_ok_iff.1 h
  exact (congrArg Place.offset horigin).trans c.raw_passes.2

end Cursor

namespace Checked

/-! ### What mirrors what -/

/-- The same result, its ends and places put in other terms. -/
def restate {ε ε' σ σ' α : Type} (halt : ε → ε') (place : σ → σ') :
    EStateM.Result ε σ α → EStateM.Result ε' σ' α
  | .ok a s => .ok a (place s)
  | .error e s => .error (halt e) (place s)

/-- At the cursor the reader leads to just what the production leads to, and an answer is of the
given kind and leaves a cursor within the text behind. -/
structure Mirrors {α : Type} (text : List Char) (reader : Checked α) (production : Production α)
    (good : α → Cursor → Prop) (c : Cursor) : Prop where
  same : reader text c.mark = restate .interrupted Cursor.mark (production c)
  answers : ∀ a c', production c = .ok a c' → c'.Within text ∧ good a c'

/-- Wherever a cursor stands within the text, the reader mirrors the production. -/
def MirrorsWithin {α : Type} (text : List Char) (reader : Checked α) (production : Production α) :
    Prop :=
  ∀ ⦃c : Cursor⦄, c.Within text → Mirrors text reader production (fun _ _ => True) c

section Steps

variable {α β : Type} {text : List Char} {first reader : Checked α} {next : α → Checked β}
  {first' production : Production α} {next' : α → Production β} {good : α → Cursor → Prop}
  {good' : β → Cursor → Prop} {c : Cursor} {kind : TokenKind} {what : Expectation} {e : Excerpt}

lemma bind_apply (m : Mark) :
    (first >>= next) text m =
      match first text m with
      | .ok a m' => next a text m'
      | .error halt m' => .error halt m' := by
  simp only [Bind.bind, ReaderT.bind, EStateM.bind]
  cases first text m <;> rfl

lemma bind_of_ok {a : α} {m m' : Mark} (h : first text m = .ok a m') :
    (first >>= next) text m = next a text m' := by
  rw [bind_apply, h]

lemma Mirrors.bind (h : Mirrors text first first' good c)
    (h' : ∀ a c', c'.Within text → good a c' → Mirrors text (next a) (next' a) good' c') :
    Mirrors text (first >>= next) (first' >>= next') good' c := by
  constructor
  · rw [bind_apply, h.same]
    simp only [Bind.bind, EStateM.bind]
    cases hfirst : first' c with
    | ok a c' =>
      obtain ⟨hc', hgood⟩ := h.answers a c' hfirst
      exact (h' a c' hc' hgood).same
    | error interruption c' => rfl
  · intro b c'' hok
    obtain ⟨a, c', hfirst, hnext⟩ := Production.bind_eq_ok.1 hok
    obtain ⟨hc', hgood⟩ := h.answers a c' hfirst
    exact (h' a c' hc' hgood).answers b c'' hnext

lemma Mirrors.congr {production' : Production α} (h : Mirrors text reader production good c)
    (heq : production' c = production c) : Mirrors text reader production' good c :=
  ⟨heq ▸ h.same, heq ▸ h.answers⟩

lemma Mirrors.any (h : Mirrors text reader production good c) :
    Mirrors text reader production (fun _ _ => True) c :=
  ⟨h.same, fun a c' hok => ⟨(h.answers a c' hok).1, trivial⟩⟩

/-- To ask for the mark leads to no other place. -/
lemma Mirrors.mark {next : Mark → Checked α} (h : Mirrors text (next c.mark) production good c) :
    Mirrors text (mark >>= next) production good c :=
  ⟨h.same, h.answers⟩

lemma Mirrors.mark_get {next : Mark → Checked α} {next' : Cursor → Production α}
    (h : Mirrors text (next c.mark) (next' c) good c) :
    Mirrors text (Checked.mark >>= next) (get >>= next') good c :=
  ⟨h.same, h.answers⟩

/-- Nor does it lead to another place to ask for the text. -/
lemma Mirrors.read {next : List Char → Checked α} (h : Mirrors text (next text) production good c) :
    Mirrors text (read >>= next) production good c :=
  ⟨h.same, h.answers⟩

/-- What is read without going on may come first. -/
lemma Mirrors.of_ok {a : α} {production : Production β} (hfirst : first text c.mark = .ok a c.mark)
    (h : Mirrors text (next a) production good' c) :
    Mirrors text (first >>= next) production good' c :=
  ⟨(bind_of_ok hfirst).trans h.same, h.answers⟩

lemma mirrors_pure {a : α} (hc : c.Within text) (ha : good a c) :
    Mirrors text (pure a) (pure a) good c := by
  refine ⟨rfl, fun a' c' hok => ?_⟩
  obtain ⟨rfl, rfl⟩ := EStateM.Result.ok.inj hok
  exact ⟨hc, ha⟩

lemma mirrors_reject (fault : Fault) :
    Mirrors text (reject fault : Checked α) (Production.reject fault) good c :=
  ⟨rfl, fun _ _ hok => nomatch hok⟩

lemma mirrors_rejectAt (fault : Fault) (span : Span) :
    Mirrors text (rejectAt fault span : Checked α) (Production.rejectAt fault span) good c :=
  ⟨rfl, fun _ _ hok => nomatch hok⟩

lemma mirrors_exhaust : Mirrors text (exhaust : Checked α) Production.exhaust good c :=
  ⟨rfl, fun _ _ hok => nomatch hok⟩

lemma mirrors_kind (hc : c.Within text) :
    Mirrors text Checked.kind Production.current (fun token c' => token = c.token ∧ c' = c) c := by
  refine ⟨rfl, fun token c' hok => ?_⟩
  obtain ⟨rfl, rfl⟩ := EStateM.Result.ok.inj hok
  exact ⟨hc, rfl, rfl⟩

lemma mirrors_sees (hc : c.Within text) (kind : TokenKind) :
    Mirrors text (sees kind) (Production.sees kind)
      (fun found c' => found = (c.token == some kind) ∧ c' = c) c := by
  refine ⟨rfl, fun found c' hok => ?_⟩
  obtain ⟨rfl, rfl⟩ := EStateM.Result.ok.inj hok
  exact ⟨hc, rfl, rfl⟩

/-- Where there is a token, it can be asked for. -/
lemma current_mark (hc : c.Within text) (htoken : c.token = some kind) :
    current text c.mark = .ok c.excerpt c.mark := by
  have hmark : c.mark.token = some kind := htoken
  simp only [current, hmark]
  exact congrArg (EStateM.Result.ok · c.mark)
    (congrArg (Excerpt.mk c.span) (congrArg String.ofList hc.slice_span))

example : current [] .beginning = .error (.broken .noToken) .beginning := rfl

lemma expect_mark (hc : c.Within text) :
    expect kind what text c.mark =
      restate .interrupted Cursor.mark (Production.expect kind what c) := by
  by_cases htoken : c.token = some kind
  · have hsees : sees kind text c.mark = .ok true c.mark := by
      simp [sees, Cursor.mark, htoken]
    rw [expect, bind_of_ok hsees, Production.expect, if_pos htoken]
    exact current_mark hc htoken
  · have hsees : sees kind text c.mark = .ok false c.mark := by
      simpa [sees, Cursor.mark] using htoken
    rw [expect, bind_of_ok hsees, Production.expect, if_neg htoken]
    rfl

lemma mirrors_expect (hc : c.Within text) :
    Mirrors text (expect kind what) (Production.expect kind what)
      (fun e c' => e = c.excerpt ∧ c' = c) c := by
  refine ⟨expect_mark hc, fun e c' hok => ?_⟩
  obtain ⟨-, rfl, rfl⟩ := Production.expect_eq_ok.1 hok
  exact ⟨hc, rfl, rfl⟩

/-- A token of the given kind need not be compared with it once more. -/
lemma mirrors_current (hc : c.Within text) (htoken : c.token = some kind) :
    Mirrors text current (Production.expect kind what) (fun e c' => e = c.excerpt ∧ c' = c) c := by
  refine ⟨?_, (mirrors_expect hc).answers⟩
  rw [current_mark hc htoken, Production.expect, if_pos htoken]
  rfl

lemma mirrors_ofStep (hc : c.Within text) {step : Cursor → Cursor.Step α} {construct : Fault}
    (hempty : step c.emptied = step c) (hstep : (step c).cursor.Within text) :
    Mirrors text (ofStep construct step) (Production.ofStep construct step)
      (fun a c' => step c = .ok a c') c := by
  constructor
  · rw [ofStep, hc.cursor_mark, hempty, Production.ofStep]
    cases step c <;> rfl
  · intro a c' hok
    unfold Production.ofStep at hok
    split at hok
    · next a' c₁ hfound =>
      obtain ⟨rfl, rfl⟩ := EStateM.Result.ok.inj hok
      rw [hfound] at hstep
      exact ⟨hstep, hfound⟩
    · cases hok

lemma mirrors_advance (hc : c.Within text) :
    Mirrors text advance Production.advance (fun _ _ => True) c :=
  (mirrors_ofStep hc c.next_emptied hc.next).bind fun _ _ hc' _ => mirrors_pure hc' trivial

lemma mirrors_advanceChild (hc : c.Within text) :
    Mirrors text advanceChild Production.advanceChild
      (fun kind c' => c.nextChild = .ok kind c') c :=
  mirrors_ofStep hc c.nextChild_emptied hc.nextChild

lemma mirrors_take (hc : c.Within text) :
    Mirrors text (take kind what) (Production.take kind what) (fun e _ => e = c.excerpt) c := by
  refine (mirrors_expect hc).bind ?_
  rintro e c' hc' ⟨rfl, rfl⟩
  exact (mirrors_advance hc').bind fun _ _ hc'' _ => mirrors_pure hc'' rfl

end Steps

end Checked

end EmbeddedJsx
