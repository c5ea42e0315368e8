import EmbeddedJsx.Proofs.Extension.Shift
import EmbeddedJsx.Proofs.Lexical.Raw
import EmbeddedJsx.Proofs.Runs.Calls

/-!
# Texts in longer texts

A text is embedded in a longer one: some characters stand in front of it and some come after it.
What is read in the text is then read in the longer one, moved forward, as long as the end of the
text has not been seen.  Three things come near that end.

* An identifier that ends with the text may grow.  `Embedding.cursor` says on which cursor of the
  longer text one stands where a cursor of the text was.
* A dot at the end may become part of another token if dots come after it.  Embeddings leave that
  case out.
* What fails because the text ends may go on in the longer one.  What fails for another reason
  fails there in the same way.

The main statements are `Embedding.perform_ok` and `Embedding.perform_error`.
-/

namespace EmbeddedJsx

open Text

/-- A text with characters in front of it and after it. -/
structure Embedding where
  /-- The number of characters in front of the text. -/
  front : ℕ
  /-- The text. -/
  text : List Char
  /-- The characters after the text. -/
  more : List Char
  /-- No dot comes after a dot at the end of the text. -/
  dots : text.getLast? = some '.' → more.head? ≠ some '.'

/-! ### Tokens before more text -/

section Tokens

variable {kind : TokenKind} {lexeme after more : List Char}

lemma Ahead.append {c : Char} (h : Ahead c after) (more : List Char) : Ahead c (after ++ more) := by
  obtain ⟨space, rest, hspace, hc, rfl⟩ := h
  exact ⟨space, rest ++ more, hspace, hc, by simp⟩

/-- The dots that could make another token of a dot stand in the text, but for those after its
end. -/
lemma dot_append (htwo : ¬ ['.', '.'] <+: after) (hone : after ≠ ['.'])
    (hmore : after = [] → more.head? ≠ some '.') : Lexeme .dot ['.'] (after ++ more) := by
  rcases after with _ | ⟨d, _ | ⟨d', after⟩⟩
  · have hhead := hmore rfl
    refine .dot ?_ ?_
    · rintro ⟨rest, rfl⟩
      exact hhead rfl
    · rintro rfl
      exact hhead rfl
  · have hd : d ≠ '.' := by
      rintro rfl
      exact hone rfl
    refine .dot ?_ ?_
    · rintro ⟨rest, hrest⟩
      exact hd (List.cons.inj hrest).1.symm
    · intro hrest
      exact hd (List.cons.inj hrest).1
  · refine .dot ?_ (by simp)
    rintro ⟨rest, hrest⟩
    obtain ⟨rfl, htail⟩ := List.cons.inj hrest
    obtain ⟨rfl, -⟩ := List.cons.inj htail
    exact htwo ⟨after, rfl⟩

/-- A token stays what it is before more text, but for an identifier that ends with the text. -/
lemma Lexeme.append (h : Lexeme kind lexeme after)
    (hgrows : ¬ (kind = .identifier ∧ after = []))
    (hdots : kind = .dot → after = [] → more.head? ≠ some '.') :
    Lexeme kind lexeme (after ++ more) := by
  cases h with
  | tagOpen hahead hslash hclose => exact .tagOpen (hahead.append more) hslash hclose
  | tagClose => exact .tagClose
  | selfClose hspace => exact .selfClose hspace
  | closingOpen hspace hahead hclose => exact .closingOpen hspace (hahead.append more) hclose
  | fragmentOpen hspace => exact .fragmentOpen hspace
  | fragmentClose hspace hspace' => exact .fragmentClose hspace hspace'
  | identifier hstart hmore hend =>
    cases after with
    | nil => exact absurd ⟨rfl, rfl⟩ hgrows
    | cons d after => exact .identifier hstart hmore hend
  | string hquote hinside => exact .string hquote hinside
  | assign => exact .assign
  | colon => exact .colon
  | dot htwo hone => exact dot_append htwo hone (hdots rfl)
  | comma => exact .comma
  | spread => exact .spread
  | braceOpen => exact .braceOpen
  | braceClose => exact .braceClose

/-- An identifier at the end of the text takes in what continues it. -/
lemma Lexeme.identifier_append (h : Lexeme .identifier lexeme []) (more : List Char) :
    Lexeme .identifier (lexeme ++ more.takeWhile isIdentifierContinue)
      (more.dropWhile isIdentifierContinue) := by
  cases h with
  | identifier hstart hrun _ =>
    refine .identifier hstart (fun d hd => ?_) fun d hd => eq_false_of_mem_head?_dropWhile hd
    rcases List.mem_append.1 hd with hd | hd
    · exact hrun d hd
    · exact List.mem_takeWhile_imp hd

/-- A slash that is no token stays one before more text. -/
lemma Breaks.append {fault : Fault} (h : Breaks fault lexeme after)
    (hfamily : fault.family = .unexpected) (more : List Char) :
    Breaks fault lexeme (after ++ more) := by
  cases h with
  | loneSlash hspace hc hclose => exact .loneSlash hspace hc hclose
  | _ => simp [Fault.family] at hfamily

/-- Before a fault there are characters. -/
lemma Place.Faults.rest_ne_nil {p : Place} {error : SyntaxError} (h : p.Faults error) :
    p.rest ≠ [] := by
  intro hnil
  exact h.not_ends (by simp [Place.Ends, hnil, insignificant_nil])

end Tokens

/-! ### Cursors of the longer text -/

/-- The cursor stands on an identifier with which the text ends. -/
def Cursor.AtGrowingEnd (c : Cursor) : Prop := c.token = some .identifier ∧ c.rest = []

instance (c : Cursor) : Decidable c.AtGrowingEnd := inferInstanceAs (Decidable (_ ∧ _))

namespace Embedding

variable (E : Embedding)

/-- The place of the longer text. -/
def place (p : Place) : Place := ⟨p.offset + E.front, p.rest ++ E.more⟩

/-- The cursor of the longer text. -/
def cursor (c : Cursor) : Cursor :=
  if c.AtGrowingEnd then
    ⟨c.token, c.start + E.front, c.lexeme ++ E.more.takeWhile isIdentifierContinue,
      E.more.dropWhile isIdentifierContinue⟩
  else ⟨c.token, c.start + E.front, c.lexeme, c.rest ++ E.more⟩

/-- The second error is the first in the longer text.  It may end later if the first ends with the
text. -/
structure Moves (error error' : SyntaxError) : Prop where
  fault_eq : error'.fault = error.fault
  start_eq : error'.span.start = error.span.start + E.front
  stop_eq : error'.span.stop = error.span.stop + E.front ∨
    E.more ≠ [] ∧ error.span.stop = E.text.length

/-- The end of the text does not matter to the error. -/
def Keeps (error : SyntaxError) : Prop := error.fault.family = .unexpected ∨ E.more = []

variable {E} {c c' : Cursor} {p q : Place} {kind : TokenKind} {error error' : SyntaxError}

@[simp] lemma cursor_token (c : Cursor) : (E.cursor c).token = c.token := by
  unfold cursor
  split <;> rfl

@[simp] lemma cursor_start (c : Cursor) : (E.cursor c).start = c.start + E.front := by
  unfold cursor
  split <;> rfl

lemma cursor_of_not_growing (h : ¬ c.AtGrowingEnd) :
    E.cursor c = ⟨c.token, c.start + E.front, c.lexeme, c.rest ++ E.more⟩ := if_neg h

lemma cursor_of_growing (h : c.AtGrowingEnd) :
    E.cursor c = ⟨c.token, c.start + E.front, c.lexeme ++ E.more.takeWhile isIdentifierContinue,
      E.more.dropWhile isIdentifierContinue⟩ := if_pos h

/-- With nothing after the text, nothing grows. -/
lemma cursor_of_more_eq_nil (h : E.more = []) :
    E.cursor c = ⟨c.token, c.start + E.front, c.lexeme, c.rest⟩ := by
  by_cases hgrows : c.AtGrowingEnd
  · rw [cursor_of_growing hgrows, h, hgrows.2]
    simp
  · rw [cursor_of_not_growing hgrows, h, List.append_nil]

/-- Wherever nothing grows, the end of a token is moved forward. -/
lemma cursor_stop (h : ¬ c.AtGrowingEnd ∨ E.more = []) : (E.cursor c).stop = c.stop + E.front := by
  rcases h with h | h
  · rw [cursor_of_not_growing h]
    simp only [Cursor.stop]
    omega
  · rw [cursor_of_more_eq_nil h]
    simp only [Cursor.stop]
    omega

lemma cursor_place (h : ¬ c.AtGrowingEnd ∨ E.more = []) : (E.cursor c).place = E.place c.place := by
  refine Place.ext (cursor_stop h) ?_
  rcases h with h | h
  · rw [cursor_of_not_growing h]
    rfl
  · rw [cursor_of_more_eq_nil h]
    simp [Cursor.place, place, h]

lemma cursor_excerpt (h : ¬ c.AtGrowingEnd ∨ E.more = []) :
    (E.cursor c).excerpt = c.excerpt.shift E.front := by
  have hlexeme : (E.cursor c).lexeme = c.lexeme := by
    rcases h with h | h
    · rw [cursor_of_not_growing h]
    · rw [cursor_of_more_eq_nil h]
  simp only [Cursor.excerpt, Cursor.span, cursor_start, cursor_stop h, hlexeme]
  rfl

lemma cursor_origin (c : Cursor) : (E.cursor c).origin = E.place c.origin := by
  refine Place.ext (cursor_start c) ?_
  by_cases hgrows : c.AtGrowingEnd
  · simp [cursor_of_growing hgrows, Cursor.origin, place, hgrows.2,
      List.takeWhile_append_dropWhile]
  · simp [cursor_of_not_growing hgrows, Cursor.origin, place]

lemma place_passes {run : List Char} (h : p.Passes run q) : (E.place p).Passes run (E.place q) := by
  obtain ⟨hrest, hoff⟩ := h
  refine ⟨?_, ?_⟩
  · simp only [place, hrest, List.append_assoc]
  · simp only [place, hoff]
    omega

lemma place_skips (h : p.Skips q) : (E.place p).Skips (E.place q) := by
  obtain ⟨run, hrun, hpass⟩ := h
  exact ⟨run, hrun, place_passes hpass⟩

/-! ### Reading on -/

/-- The table has the same fault in the longer text, if the end of the text does not matter. -/
lemma place_faults (h : p.Faults error) (hkeeps : E.Keeps error) :
    (E.place p).Faults (error.shift E.front) := by
  obtain ⟨m, lexeme, after, hskip, hrest, hbreaks, hspan⟩ := h
  refine ⟨E.place m, lexeme, after ++ E.more, place_skips hskip, ?_, ?_, ?_⟩
  · simp only [place, hrest, List.append_assoc]
  · rcases hkeeps with hfamily | hmore
    · exact hbreaks.append hfamily E.more
    · rwa [hmore, List.append_nil]
  · simp only [SyntaxError.shift, hspan, Span.shift, place, Span.mk.injEq, true_and]
    omega

/-- Where nothing comes after the text, its end stays the end. -/
lemma place_ends (h : p.Ends) (hmore : E.more = []) : (E.place p).Ends := by
  simpa [Place.Ends, place, hmore] using h

lemma moves_shift (error : SyntaxError) : E.Moves error (error.shift E.front) := ⟨rfl, rfl, .inl rfl⟩

lemma Moves.eq_shift (h : E.Moves error error') (hmore : E.more = []) :
    error' = error.shift E.front := by
  obtain ⟨hfault, hstart, hstop⟩ := h
  have hstop := hstop.resolve_right fun hmore' => hmore'.1 hmore
  obtain ⟨fault, start, stop⟩ := error
  obtain ⟨fault', start', stop'⟩ := error'
  simp only at hfault hstart hstop
  rw [hfault, hstart, hstop]
  rfl

/-- What spans a cursor spans the cursor of the longer text. -/
lemma moves_span (hc : c.Within E.text) (fault : Fault) :
    E.Moves ⟨fault, c.span⟩ ⟨fault, (E.cursor c).span⟩ := by
  refine ⟨rfl, cursor_start c, ?_⟩
  by_cases hmore : E.more = []
  · exact .inl (cursor_stop (.inr hmore))
  by_cases hgrows : c.AtGrowingEnd
  · -- nothing is left of the text after a token that grows
    have hlen := hc.length_rest
    have hle := hc.stop_le
    rw [hgrows.2, List.length_nil] at hlen
    refine .inr ⟨hmore, ?_⟩
    change c.stop = E.text.length
    omega
  · exact .inl (cursor_stop (.inl hgrows))

/-- The last token of a text ends as the text does. -/
lemma getLast?_of_within {text : List Char} (hc : c.Within text) (hrest : c.rest = [])
    (hlexeme : c.lexeme ≠ []) : text.getLast? = c.lexeme.getLast? := by
  have hdrop := hc.drop_start
  rw [hrest, List.append_nil] at hdrop
  rw [← List.take_append_drop c.start text, hdrop, List.getLast?_append,
    Option.or_of_isSome (by simpa using hlexeme)]

/-- Where a token stands in the text, one of its kind stands in the longer text. -/
lemma cursor_on (hc : c.Within E.text) (h : c.On kind) : (E.cursor c).On kind := by
  refine ⟨by rw [cursor_token, h.token_eq], ?_⟩
  by_cases hgrows : c.AtGrowingEnd
  · obtain rfl : kind = .identifier := Option.some.inj (h.token_eq.symm.trans hgrows.1)
    have hlexeme := h.2
    rw [hgrows.2] at hlexeme
    rw [cursor_of_growing hgrows]
    exact hlexeme.identifier_append E.more
  · rw [cursor_of_not_growing hgrows]
    refine h.2.append (fun hidentifier => hgrows ?_) fun hdot hrest => E.dots ?_
    · exact ⟨by rw [h.token_eq, hidentifier.1], hidentifier.2⟩
    · subst hdot
      have hlexeme : c.lexeme = ['.'] := by
        have := h.2
        generalize c.lexeme = lexeme at this
        cases this
        rfl
      rw [getLast?_of_within hc hrest (by simp [hlexeme]), hlexeme]
      rfl

/-- Where a token comes next, the text has not ended. -/
lemma rest_ne_nil_of_next (h : c.next = .ok kind c') : c.rest ≠ [] := by
  intro hnil
  have hlt := (Cursor.next_eq_ok_iff.1 h).2.next.length_lt
  simp [Cursor.place, hnil] at hlt

lemma next_ok (hc : c.Within E.text) (h : c.next = .ok kind c') :
    (E.cursor c).next = .ok kind (E.cursor c') := by
  have hwithin := hc.next
  rw [h] at hwithin
  obtain ⟨htoken, hafter⟩ := Cursor.next_eq_ok_iff.1 h
  have hgrows : ¬ c.AtGrowingEnd := fun hgrows => rest_ne_nil_of_next h hgrows.2
  refine Cursor.next_eq_ok_iff.2 ⟨by simpa using htoken, ?_, cursor_on hwithin hafter.2⟩
  rw [cursor_place (.inl hgrows), cursor_origin]
  exact place_skips hafter.1

lemma next_error_of_ended (h : c.next = .error error c') (htoken : c.token = some .endOfInput)
    (hkeeps : E.Keeps error) :
    ∃ error' c₁, (E.cursor c).next = .error error' c₁ ∧ E.Moves error error' := by
  simp only [Cursor.next, if_pos htoken, Cursor.fail, EStateM.Result.error.injEq] at h
  obtain ⟨rfl, -⟩ := h
  have hmore : E.more = [] := hkeeps.resolve_left (by simp [Fault.family])
  have hstop := cursor_stop (c := c) (.inr hmore)
  have hnext : (E.cursor c).next = .error ⟨.noTokensLeft, (E.cursor c).emptied.span⟩
      (E.cursor c).emptied := by
    rw [Cursor.next, if_pos (by simpa using htoken), Cursor.fail]
  refine ⟨_, _, hnext, rfl, hstop, .inl ?_⟩
  change (E.cursor c).emptied.stop = c.emptied.stop + E.front
  rw [Cursor.stop_emptied, Cursor.stop_emptied, hstop]

lemma next_error (h : c.next = .error error c') (hkeeps : E.Keeps error) :
    ∃ error' c₁, (E.cursor c).next = .error error' c₁ ∧ E.Moves error error' := by
  by_cases htoken : c.token = some .endOfInput
  · exact next_error_of_ended h htoken hkeeps
  have htoken' : (E.cursor c).token ≠ some .endOfInput := by simpa using htoken
  rcases (Cursor.next_eq_error_iff htoken).1 ⟨c', h⟩ with hfaults | ⟨hends, rfl⟩
  · have hgrows : ¬ c.AtGrowingEnd := fun hgrows => hfaults.rest_ne_nil hgrows.2
    have hfaults' := place_faults hfaults hkeeps
    rw [← cursor_place (.inl hgrows)] at hfaults'
    obtain ⟨c₁, hc₁⟩ := (Cursor.next_eq_error_iff htoken').2 (.inl hfaults')
    exact ⟨_, c₁, hc₁, moves_shift error⟩
  · have hmore : E.more = [] := hkeeps.resolve_left (by simp [Fault.family])
    have hends' := place_ends hends hmore
    rw [← cursor_place (.inr hmore)] at hends'
    obtain ⟨c₁, hc₁⟩ := (Cursor.next_eq_error_iff htoken').2 (.inr ⟨hends', rfl⟩)
    have hstop : (E.cursor c).stop + (E.cursor c).rest.length =
        c.stop + c.rest.length + E.front := by
      rw [cursor_stop (.inr hmore), cursor_of_more_eq_nil hmore]
      simp only
      omega
    exact ⟨_, c₁, hc₁, rfl, hstop, .inl hstop⟩

/-- With nothing left to be read, what fails is the end of the text. -/
lemma family_of_rest_eq_nil (h : c.next = .error error c') (hrest : c.rest = []) :
    error.fault.family = .boundary := by
  by_cases htoken : c.token = some .endOfInput
  · simp only [Cursor.next, if_pos htoken, Cursor.fail, EStateM.Result.error.injEq] at h
    obtain ⟨rfl, -⟩ := h
    rfl
  · rcases (Cursor.next_eq_error_iff htoken).1 ⟨c', h⟩ with hfaults | ⟨-, rfl⟩
    · exact absurd hrest hfaults.rest_ne_nil
    · rfl

/-! ### Reading on after raw text -/

/-- Where raw text ends before the text does, it ends there in the longer text. -/
lemma raw_append (h : c.skipRaw.rest ≠ []) (more : List Char) :
    (c.rest ++ more).takeWhile Cursor.isRaw = c.raw ∧
      (c.rest ++ more).dropWhile Cursor.isRaw = c.skipRaw.rest ++ more := by
  have hsplit : c.rest = c.raw ++ c.skipRaw.rest := c.raw_passes.1
  have hwhole : c.rest ++ more = c.raw ++ (c.skipRaw.rest ++ more) := by
    rw [← List.append_assoc, ← hsplit]
  have hhead : ∀ d ∈ (c.skipRaw.rest ++ more).head?, Cursor.isRaw d = false := by
    intro d hd
    refine c.notRaw_skipRaw d ?_
    obtain ⟨x, rest, hcons⟩ := List.exists_cons_of_ne_nil h
    simpa [Cursor.place, hcons] using hd
  have htake : (c.rest ++ more).takeWhile Cursor.isRaw = c.raw := by
    rw [hwhole]
    exact takeWhile_append_of_head? (fun d hd => List.mem_takeWhile_imp hd) hhead
  refine ⟨htake, ?_⟩
  have hcut := List.takeWhile_append_dropWhile (p := Cursor.isRaw) (l := c.rest ++ more)
  rw [htake] at hcut
  exact List.append_cancel_left (hcut.trans hwhole)

/-- Raw text is passed over in the longer text as it is in the text. -/
lemma skipRaw_cursor (h : c.skipRaw.rest ≠ [] ∨ E.more = []) :
    (E.cursor c).skipRaw = E.cursor c.skipRaw := by
  rcases h with h | h
  · have hrest : c.rest ≠ [] := by
      intro hnil
      simp [Cursor.skipRaw, hnil] at h
    obtain ⟨htake, hdrop⟩ := raw_append h E.more
    have hgrows : ¬ c.AtGrowingEnd := fun hgrows => hrest hgrows.2
    rw [cursor_of_not_growing (c := c.skipRaw) fun hgrows => h hgrows.2,
      cursor_of_not_growing hgrows]
    simp only [Cursor.raw] at htake
    simp only [Cursor.skipRaw, Cursor.raw, Cursor.stop, htake, hdrop, Cursor.mk.injEq, true_and,
      and_true]
    omega
  · rw [cursor_of_more_eq_nil h, cursor_of_more_eq_nil h]
    simp only [Cursor.skipRaw, Cursor.raw, Cursor.stop, Cursor.mk.injEq, true_and, and_true]
    omega

lemma nextChild_ok (hc : c.Within E.text) (h : c.nextChild = .ok kind c') :
    (E.cursor c).nextChild = .ok kind (E.cursor c') := by
  rw [Cursor.nextChild, skipRaw_cursor (.inl (rest_ne_nil_of_next h))]
  exact next_ok hc.skipRaw h

lemma nextChild_error (h : c.nextChild = .error error c') (hkeeps : E.Keeps error) :
    ∃ error' c₁, (E.cursor c).nextChild = .error error' c₁ ∧ E.Moves error error' := by
  have hrest : c.skipRaw.rest ≠ [] ∨ E.more = [] := by
    by_cases hnil : c.skipRaw.rest = []
    · have hfamily := family_of_rest_eq_nil h hnil
      exact .inr (hkeeps.resolve_left (by simp [hfamily]))
    · exact .inl hnil
  rw [Cursor.nextChild, skipRaw_cursor hrest]
  exact next_error h hkeeps

/-- **A call in the longer text.**  A call that answers answers there with the same token. -/
theorem perform_ok {call : Cursor.Call} (hc : c.Within E.text)
    (h : call.perform c = .ok kind c') : call.perform (E.cursor c) = .ok kind (E.cursor c') := by
  cases call with
  | next => exact next_ok hc h
  | nextChild => exact nextChild_ok hc h

/-- A call that fails, and not because the text ends, fails in the longer text in the same way. -/
theorem perform_error {call : Cursor.Call} (h : call.perform c = .error error c')
    (hkeeps : E.Keeps error) :
    ∃ error' c₁, call.perform (E.cursor c) = .error error' c₁ ∧ E.Moves error error' := by
  cases call with
  | next => exact next_error h hkeeps
  | nextChild => exact nextChild_error h hkeeps

end Embedding

end EmbeddedJsx
