import EmbeddedJsx.Cursor.Within
import EmbeddedJsx.Text.Slice
import EmbeddedJsx.Proofs.Lexical.Scan

/-!
# Calls on a cursor

Whoever reads a text token by token chooses at each token whether raw text is passed over first,
and may go on after a failure.  A run is any sequence of such calls.

`Cursor.Outcome` lists all that one call can do to a cursor: there are four outcomes, and in each
of them the cursor stays in the text and goes forward, until it has come to the end of the input
and stays there.  The main statement is `lawful_run`: it is so after any run.
-/

namespace EmbeddedJsx

namespace Cursor

/-- A way of going on to the next token. -/
inductive Call where
  /-- The next token is read. -/
  | next
  /-- Raw text is passed over, and the next token after it is read. -/
  | nextChild
deriving DecidableEq, Repr

/-- What a call leads to. -/
def Call.perform : Call → Cursor → Step TokenKind
  | next, c => c.next
  | nextChild, c => c.nextChild

/-- The cursor that is left behind by calls made one after the other, each of which may have
failed. -/
def run (c : Cursor) (calls : List Call) : Cursor :=
  calls.foldl (fun c call => (call.perform c).cursor) c

/-- What a call can do to a cursor in a text. -/
inductive Outcome (text : List Char) (c : Cursor) : Step TokenKind → Prop where
  /-- The cursor has gone on to a token. -/
  | token {kind : TokenKind} {c' : Cursor} :
      c'.token = some kind → kind ≠ .endOfInput → c.stop ≤ c'.start → c'.start < c'.stop →
      c'.stop ≤ text.length → Outcome text c (.ok kind c')
  /-- The cursor has gone on to something that is no token. -/
  | malformed {error : SyntaxError} {c' : Cursor} :
      error.fault.family = .unexpected → error.span = c'.span → c'.token = some .malformed →
      c.stop ≤ c'.start → c'.start < c'.stop → c'.stop ≤ text.length →
      Outcome text c (.error error c')
  /-- The cursor has gone over a construct that the end of the input cuts short, and does not say
  of what kind it is. -/
  | truncated {error : SyntaxError} {c' : Cursor} :
      error.fault.family = .truncated → error.span = c'.span → c'.token = c.token →
      c.stop ≤ c'.start → c'.start < c'.stop → c'.stop = text.length →
      Outcome text c (.error error c')
  /-- The cursor is at the end of the input. -/
  | ended {error : SyntaxError} {c' : Cursor} :
      error.fault.family = .boundary → error.span = c'.span → c'.token = some .endOfInput →
      c'.start = text.length → c'.stop = text.length → Outcome text c (.error error c')

variable {text : List Char} {c : Cursor} {step : Step TokenKind}

/-! ### One call -/

/-- A cursor that can be come by: it stands in the text, and if it has come to the end of the
input, then nothing is left to be read and it spans nothing. -/
structure Valid (text : List Char) (c : Cursor) : Prop where
  within : c.Within text
  ended : c.token = some .endOfInput → c.lexeme = [] ∧ c.rest = []

lemma valid_ofText (text : List Char) : (ofText text).Valid text :=
  ⟨within_ofText text, by simp [ofText]⟩

lemma Valid.stop_of_rest (h : c.Valid text) (hrest : c.rest = []) : c.stop = text.length := by
  have hlen := h.within.length_rest
  have hle := h.within.stop_le
  rw [hrest, List.length_nil] at hlen
  omega

/-- At the end of the input there is nothing left to be emptied. -/
lemma Valid.emptied_eq (h : c.Valid text) (htoken : c.token = some .endOfInput) :
    c.emptied = c := by
  obtain ⟨token, start, lexeme, rest⟩ := c
  obtain ⟨rfl, -⟩ := h.ended htoken
  simp [emptied, stop]

lemma Valid.skipRaw_eq (h : c.Valid text) (htoken : c.token = some .endOfInput) :
    c.skipRaw = c := by
  obtain ⟨token, start, lexeme, rest⟩ := c
  obtain ⟨rfl, rfl⟩ := h.ended htoken
  simp [skipRaw, raw, stop]

lemma Valid.skipRaw (h : c.Valid text) : c.skipRaw.Valid text := by
  refine ⟨h.within.skipRaw, fun htoken => ?_⟩
  have heq := h.skipRaw_eq htoken
  rw [heq]
  exact h.ended htoken

lemma stop_le_skipRaw (c : Cursor) : c.stop ≤ c.skipRaw.stop := by
  simp [Cursor.skipRaw, stop]

/-- What can happen to a cursor that has gone forward can happen to the one that it was. -/
lemma Outcome.of_stop_le {c₀ : Cursor} (h : Outcome text c step) (hstop : c₀.stop ≤ c.stop)
    (htoken : c.token = c₀.token) : Outcome text c₀ step := by
  cases h with
  | token hkind hne hstart hlt hle => exact .token hkind hne (hstop.trans hstart) hlt hle
  | malformed hfamily hspan hkind hstart hlt hle =>
    exact .malformed hfamily hspan hkind (hstop.trans hstart) hlt hle
  | truncated hfamily hspan hkind hstart hlt hle =>
    exact .truncated hfamily hspan (hkind.trans htoken) (hstop.trans hstart) hlt hle
  | ended hfamily hspan hkind hstart hend => exact .ended hfamily hspan hkind hstart hend

/-- What is found in a text has characters, unless nothing is. -/
lemma Valid.outcome_proceed (h : c.Valid text) : Outcome text c (c.proceed (scan c.rest)) := by
  obtain ⟨skipped, hrest, hlen, -, hfits⟩ := scan_fits c.rest
  have hwithin := h.within.proceed
  have htotal := h.within.length_rest
  have hle := h.within.stop_le
  rcases hscan : scan c.rest with ⟨n, found⟩
  rw [hscan] at hrest hlen hfits hwithin
  have hstop := hwithin.stop_le
  cases found with
  | token kind lexeme rest =>
    have hpos := Lexeme.length_pos hfits
    exact .token rfl (Lexeme.kind_ne_endOfInput hfits) (Nat.le_add_right _ _)
      (Nat.lt_add_of_pos_right hpos) hstop
  | truncated cause lexeme =>
    obtain ⟨d, more, rfl, -⟩ := Breaks.exists_cons hfits
    refine .truncated rfl rfl rfl (Nat.le_add_right _ _) (by simp [stop]) ?_
    -- a construct that is cut short takes all that is left
    have htext := congrArg List.length hrest
    simp only [Found.text, List.length_append] at htext
    change c.stop + n + (d :: more).length = text.length
    omega
  | loneSlash lexeme rest =>
    obtain ⟨d, more, rfl, -⟩ := Breaks.exists_cons hfits
    exact .malformed rfl rfl rfl (Nat.le_add_right _ _) (by simp [stop]) hstop
  | nothing =>
    have htext := congrArg List.length hrest
    simp only [Found.text, List.append_nil] at htext
    have hend : c.stop + n = text.length := by omega
    exact .ended rfl rfl rfl hend (by simpa [stop] using hend)

lemma Valid.outcome_next (h : c.Valid text) : Outcome text c c.next := by
  unfold next
  split
  · next htoken =>
    have hstop := h.stop_of_rest (h.ended htoken).2
    exact .ended rfl rfl htoken hstop (by rw [stop_emptied, hstop])
  · exact h.outcome_proceed

/-- A call fails because no token is left, or with a fault of the table of tokens. -/
lemma fault_cases_of_perform {call : Call} {error : SyntaxError} {c' : Cursor}
    (h : call.perform c = .error error c') :
    error.fault = .noTokensLeft ∨ error.fault = .endOfInput ∨ error.fault = .loneSlash ∨
      ∃ cause, error.fault = .truncated cause := by
  have hnext {b : Cursor} (h : b.next = .error error c') :
      error.fault = .noTokensLeft ∨ error.fault = .endOfInput ∨ error.fault = .loneSlash ∨
        ∃ cause, error.fault = .truncated cause := by
    unfold next at h
    split at h
    · simp only [fail, EStateM.Result.error.injEq] at h
      simp [← h.1]
    · generalize scan b.rest = found at h
      obtain ⟨skipped, found⟩ := found
      cases found with
      | token kind lexeme rest => simp [proceed] at h
      | truncated cause lexeme | loneSlash lexeme rest | nothing =>
        simp only [proceed, fail, EStateM.Result.error.injEq] at h
        simp [← h.1]
  cases call with
  | next => exact hnext h
  | nextChild => exact hnext h

/-- A call on a cursor has one of the four outcomes. -/
lemma Valid.outcome (h : c.Valid text) (call : Call) : Outcome text c (call.perform c) := by
  cases call with
  | next => exact h.outcome_next
  | nextChild => exact h.skipRaw.outcome_next.of_stop_le c.stop_le_skipRaw rfl

/-- The end of the input is never left. -/
lemma Valid.perform_ended (h : c.Valid text) (htoken : c.token = some .endOfInput) (call : Call) :
    call.perform c = .error ⟨.noTokensLeft, c.span⟩ c := by
  have hnext : c.next = .error ⟨.noTokensLeft, c.span⟩ c := by
    rw [Cursor.next, if_pos htoken, h.emptied_eq htoken, fail]
  cases call with
  | next => exact hnext
  | nextChild => rw [Call.perform, nextChild, h.skipRaw_eq htoken, hnext]

lemma Within.perform (h : c.Within text) (call : Call) :
    (call.perform c).cursor.Within text := by
  cases call with
  | next => exact h.next
  | nextChild => exact h.nextChild

lemma Valid.perform (h : c.Valid text) (call : Call) : (call.perform c).cursor.Valid text := by
  have hwithin := h.within.perform call
  by_cases htoken : c.token = some .endOfInput
  · rw [h.perform_ended htoken]
    exact h
  refine ⟨hwithin, fun htoken' => ?_⟩
  have hlen := hwithin.length_rest
  have houtcome := h.outcome call
  generalize call.perform c = step at htoken' hlen houtcome ⊢
  cases houtcome with
  | token hkind hne => exact absurd (Option.some.inj (hkind.symm.trans htoken')) hne
  | malformed _ _ hkind => exact absurd (hkind.symm.trans htoken') (by simp)
  | truncated _ _ hkind => exact absurd (hkind.symm.trans htoken') htoken
  | @ended _ c' _ _ _ hstart hstop =>
    -- nothing lies between the end of the text and itself
    change c'.rest.length = text.length - c'.stop at hlen
    have hlexeme : c'.start + c'.lexeme.length = text.length := hstop
    change c'.lexeme = [] ∧ c'.rest = []
    exact ⟨List.eq_nil_of_length_eq_zero (by omega), List.eq_nil_of_length_eq_zero (by omega)⟩

/-! ### Runs -/

lemma run_cons (c : Cursor) (call : Call) (calls : List Call) :
    c.run (call :: calls) = (call.perform c).cursor.run calls := rfl

lemma run_append (c : Cursor) (calls calls' : List Call) :
    c.run (calls ++ calls') = (c.run calls).run calls' :=
  List.foldl_append

/-- What can be come by can be come by after any run. -/
lemma Valid.run (h : c.Valid text) (calls : List Call) : (c.run calls).Valid text := by
  induction calls generalizing c with
  | nil => exact h
  | cons call calls ih => exact ih (h.perform call)

lemma Valid.run_ended (h : c.Valid text) (htoken : c.token = some .endOfInput)
    (calls : List Call) : c.run calls = c := by
  induction calls with
  | nil => rfl
  | cons call calls ih =>
    rw [run_cons, h.perform_ended htoken]
    exact ih

/-- A call that does not come to the end of the input goes forward. -/
lemma Outcome.stop_lt (h : Outcome text c step) (htoken : step.cursor.token ≠ some .endOfInput) :
    c.stop < step.cursor.stop := by
  cases h with
  | token _ _ hstart hlt => exact hstart.trans_lt hlt
  | malformed _ _ _ hstart hlt => exact hstart.trans_lt hlt
  | truncated _ _ _ hstart hlt => exact hstart.trans_lt hlt
  | ended _ _ hkind => exact absurd hkind htoken

/-- More calls than there are characters left come to the end of the input. -/
lemma Valid.run_to_end (h : c.Valid text) {calls : List Call}
    (hcalls : text.length - c.stop < calls.length) : (c.run calls).token = some .endOfInput := by
  induction calls generalizing c with
  | nil => exact absurd hcalls (Nat.not_lt_zero _)
  | cons call calls ih =>
    rw [run_cons]
    by_cases htoken : (call.perform c).cursor.token = some .endOfInput
    · rw [(h.perform call).run_ended htoken, htoken]
    · have hlt := (h.outcome call).stop_lt htoken
      have hle := (h.perform call).within.stop_le
      rw [List.length_cons] at hcalls
      exact ih (h.perform call) (by omega)

/-- What a cursor spans is a slice of the text. -/
lemma Within.orderedSlice_span (h : c.Within text) :
    Text.orderedSlice text c.start c.stop = .ok c.lexeme := by
  have hstart := h.start_le
  have hstop := h.stop_le
  have hle : ¬ (c.stop : ℤ) < c.start := by
    have := c.start_le_stop
    omega
  rw [Text.orderedSlice, if_neg hle, Text.slice, Text.resolveBound_natCast hstart,
    Text.resolveBound_natCast hstop, h.drop_start]
  simp [stop]

/-- What holds of a cursor in a text, whatever has been called before. -/
structure Lawful (text : List Char) (c : Cursor) : Prop where
  /-- The cursor stands in the text. -/
  bounds : c.start ≤ c.stop ∧ c.stop ≤ text.length
  /-- What the cursor spans is the slice of the text between its offsets. -/
  spans : Text.orderedSlice text c.start c.stop = .ok c.lexeme
  /-- The next call has one of the four outcomes. -/
  outcome : ∀ call : Call, Outcome text c (call.perform c)
  /-- The end of the input is not left. -/
  absorbed : c.token = some .endOfInput → ∀ call : Call, ∃ error : SyntaxError,
    error.fault.family = .boundary ∧ call.perform c = .error error c
  /-- More calls than the text has characters come to the end of the input. -/
  ends : ∀ calls : List Call, text.length < calls.length →
    (c.run calls).token = some .endOfInput

lemma Valid.lawful (h : c.Valid text) : c.Lawful text := by
  refine ⟨⟨start_le_stop _, h.within.stop_le⟩, h.within.orderedSlice_span, h.outcome,
    fun htoken call => ?_, fun calls hcalls => ?_⟩
  · exact ⟨_, rfl, h.perform_ended htoken call⟩
  · exact h.run_to_end (by omega)

/-- **Runs.**  Whatever calls are made on a cursor, the laws of cursors hold after them. -/
theorem lawful_run (text : List Char) (calls : List Call) :
    ((ofText text).run calls).Lawful text :=
  ((valid_ofText text).run calls).lawful

end Cursor

end EmbeddedJsx
