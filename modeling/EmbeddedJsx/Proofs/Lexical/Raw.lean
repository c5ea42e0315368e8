import EmbeddedJsx.Proofs.Lexical.Standing

/-!
# Raw text

Among the children of an element or a fragment, a run of raw text is passed over as far as it
goes.  What comes after it is the end of the text or one of the two characters that are not raw,
and with each of them a token begins at once.
-/

namespace EmbeddedJsx

variable {c c' : Cursor} {p q : Place} {kind : TokenKind} {e : Excerpt} {run : List Char}

/-- The tokens that are looked for among children. -/
def BeginsChild (kind : TokenKind) : Prop :=
  kind = .tagOpen ∨ kind = .fragmentOpen ∨ kind = .braceOpen ∨ kind = .closingOpen ∨
    kind = .fragmentClose

/-- No raw text stands at the place. -/
def Place.NotRaw (p : Place) : Prop := ∀ d ∈ p.rest.head?, Cursor.isRaw d = false

lemma Place.Passes.unique {q' : Place} (h : p.Passes run q) (h' : p.Passes run q') : q = q' := by
  obtain ⟨hrest, hoff⟩ := h
  obtain ⟨hrest', hoff'⟩ := h'
  refine Place.ext (by rw [hoff, hoff']) ?_
  rw [hrest] at hrest'
  exact List.append_cancel_left hrest'

/-- Where one of those tokens stands, there is no raw text. -/
lemma Place.Reads.notRaw (h : p.Reads kind e q) (hkind : BeginsChild kind) : p.NotRaw := by
  obtain ⟨lexeme, ⟨hrest, -⟩, hlex, -⟩ := h
  rw [NotRaw, hrest]
  rcases hkind with rfl | rfl | rfl | rfl | rfl <;> cases hlex <;> simp [Cursor.isRaw]

namespace Cursor

/-- The raw text after a cursor. -/
lemma raw_passes (c : Cursor) : c.place.Passes c.raw c.skipRaw.place := by
  refine ⟨?_, ?_⟩
  · exact (List.takeWhile_append_dropWhile (p := isRaw) (l := c.rest)).symm
  · simp [place, skipRaw, stop]

/-- After raw text comes a character that is not raw, if any. -/
lemma notRaw_skipRaw (c : Cursor) : c.skipRaw.place.NotRaw := fun _ hd =>
  eq_false_of_mem_head?_dropWhile hd

/-- A run of raw text that cannot be longer is what is passed over. -/
lemma raw_of_passes (hpass : c.place.Passes run q) (hrun : ∀ d ∈ run, isRaw d = true)
    (hq : q.NotRaw) : c.raw = run ∧ c.skipRaw.place = q := by
  have hraw : c.raw = run := by
    have hrest : c.rest = run ++ q.rest := hpass.1
    rw [raw, hrest, takeWhile_append_of_head? hrun hq]
  have hpass' := c.raw_passes
  rw [hraw] at hpass'
  exact ⟨hraw, hpass'.unique hpass⟩

/-- After raw text a token of five kinds can stand. -/
lemma On.beginsChild (h : c.On kind) (hraw : c.origin.NotRaw) : BeginsChild kind := by
  obtain ⟨d, rest, hlexeme, -⟩ := h.2.exists_cons
  have hlex := h.2
  rw [hlexeme] at hlex
  refine hlex.kind_of_not_isRaw (hraw d ?_)
  rw [origin, hlexeme]
  rfl

/-- To read a token after raw text is to go to the token that stands right after that text. -/
theorem nextChild_eq_ok_iff :
    c.nextChild = .ok kind c' ↔
      c.token ≠ some .endOfInput ∧ c'.On kind ∧ c'.origin = c.skipRaw.place := by
  rw [nextChild, next_eq_ok_iff]
  refine and_congr_right fun _ => ⟨?_, ?_⟩
  · rintro ⟨⟨run, hrun, hpass⟩, hon⟩
    refine ⟨hon, ?_⟩
    cases run with
    | nil => exact (Place.passes_nil.1 hpass).symm
    | cons x run =>
      -- what is not raw belongs to a token, so that nothing can be passed over
      have hx : isSignificant x = false := hrun x List.mem_cons_self
      have hhead : isRaw x = false := by
        refine c.notRaw_skipRaw x ?_
        rw [hpass.1]
        rfl
      have hchar : x = '<' ∨ x = '{' := by
        simpa [isRaw, imp_iff_not_or] using hhead
      rcases hchar with rfl | rfl <;> exact absurd hx (by decide)
  · rintro ⟨hon, horigin⟩
    exact ⟨horigin ▸ .refl _, hon⟩

end Cursor

end EmbeddedJsx
