import EmbeddedJsx.Proofs.Lexical.Place

/-!
# The places of a text

A place is one of a text if the text has, at the offset of the place, what the place says comes
after it.  Between two places of a text lies the slice of the text that their offsets span, so that
what the relations between places say can be read off the text.
-/

namespace EmbeddedJsx

/-- The part of a text that a span covers. -/
def Span.slice (span : Span) (text : List Char) : List Char :=
  (text.drop span.start).take (span.stop - span.start)

/-- The offset is that of a character which the span covers. -/
def Span.Covers (span : Span) (i : ℕ) : Prop := span.start ≤ i ∧ i < span.stop

lemma Span.getElem?_slice (span : Span) (text : List Char) (j : ℕ) :
    (span.slice text)[j]? = if j < span.stop - span.start then text[span.start + j]? else none := by
  rw [slice, List.getElem?_take]
  split
  · rw [List.getElem?_drop]
  · rfl

namespace Place

/-- The place is one of the text. -/
structure InText (text : List Char) (p : Place) : Prop where
  /-- The place is not after the end of the text. -/
  offset_le : p.offset ≤ text.length
  /-- What comes after the place is what the text has there. -/
  rest_eq : p.rest = text.drop p.offset

variable {text run : List Char} {p q : Place} {kind : TokenKind} {e : Excerpt}

lemma inText_ofText (text : List Char) : (ofText text).InText text := ⟨by simp [ofText], rfl⟩

lemma inText_of_le {i : ℕ} (h : i ≤ text.length) : InText text ⟨i, text.drop i⟩ := ⟨h, rfl⟩

lemma InText.offset_add_length (h : p.InText text) : p.offset + p.rest.length = text.length := by
  have := h.offset_le
  rw [h.rest_eq, List.length_drop]
  omega

lemma InText.passes (h : p.InText text) (hpass : p.Passes run q) : q.InText text := by
  obtain ⟨hrest, hoff⟩ := hpass
  have hlen := h.offset_add_length
  refine ⟨?_, ?_⟩
  · rw [hrest, List.length_append] at hlen
    omega
  · rw [hoff, ← List.drop_drop, ← h.rest_eq, hrest, List.drop_left]

lemma InText.reaches (h : p.InText text) (hreach : p.Reaches q) : q.InText text := by
  obtain ⟨run, hpass⟩ := hreach
  exact h.passes hpass

/-- What lies between two places of a text is the slice that their offsets span. -/
lemma InText.passes_iff (hp : p.InText text) (hq : q.InText text) (hle : p.offset ≤ q.offset) :
    p.Passes run q ↔ run = Span.slice ⟨p.offset, q.offset⟩ text := by
  have hlen : q.offset - p.offset ≤ (text.drop p.offset).length := by
    have := hq.offset_le
    rw [List.length_drop]
    omega
  have hsplit : q.rest = (text.drop p.offset).drop (q.offset - p.offset) := by
    rw [hq.rest_eq, List.drop_drop, Nat.add_sub_cancel' hle]
  constructor
  · rintro ⟨hrest, hoff⟩
    have hrun : q.offset - p.offset = run.length := by omega
    rw [Span.slice, hrun, ← hp.rest_eq, hrest, List.take_left]
  · rintro rfl
    refine ⟨?_, ?_⟩
    · rw [hsplit, Span.slice, List.take_append_drop, hp.rest_eq]
    · simp only [Span.slice, List.length_take, Nat.min_eq_left hlen]
      omega

/-- Between two places of a text lies nothing but characters that belong to no token exactly if
the text has no others there. -/
lemma InText.skips_iff (hp : p.InText text) (hq : q.InText text) (hle : p.offset ≤ q.offset) :
    p.Skips q ↔
      ∀ i c, Span.Covers ⟨p.offset, q.offset⟩ i → text[i]? = some c → isSignificant c = false := by
  have hskip : p.Skips q ↔ Insignificant (Span.slice ⟨p.offset, q.offset⟩ text) := by
    constructor
    · rintro ⟨run, hrun, hpass⟩
      rwa [← (hp.passes_iff hq hle).1 hpass]
    · exact fun h => ⟨_, h, (hp.passes_iff hq hle).2 rfl⟩
  rw [hskip]
  constructor
  · rintro h i c ⟨hlow, hhigh⟩ hc
    refine h c (List.mem_iff_getElem?.2 ⟨i - p.offset, ?_⟩)
    change p.offset ≤ i at hlow
    change i < q.offset at hhigh
    rw [Span.getElem?_slice, if_pos (by simp only; omega)]
    simpa [Nat.add_sub_cancel' hlow] using hc
  · intro h c hc
    obtain ⟨j, hj⟩ := List.mem_iff_getElem?.1 hc
    rw [Span.getElem?_slice] at hj
    split at hj
    · next hlt =>
      refine h (p.offset + j) c ⟨by simp, ?_⟩ hj
      simp only at hlt ⊢
      omega
    · simp at hj

/-- Between two places of a text lies a token exactly if the table says so of the slice. -/
lemma InText.reads_iff (hp : p.InText text) (hq : q.InText text) (hle : p.offset ≤ q.offset) :
    p.Reads kind e q ↔
      Lexeme kind (Span.slice ⟨p.offset, q.offset⟩ text) (text.drop q.offset) ∧
        e = ⟨⟨p.offset, q.offset⟩,
          String.ofList (Span.slice ⟨p.offset, q.offset⟩ text)⟩ := by
  constructor
  · rintro ⟨lexeme, hpass, hlex, rfl⟩
    obtain rfl := (hp.passes_iff hq hle).1 hpass
    exact ⟨hq.rest_eq ▸ hlex, rfl⟩
  · rintro ⟨hlex, rfl⟩
    exact ⟨_, (hp.passes_iff hq hle).2 rfl, hq.rest_eq ▸ hlex, rfl⟩

end Place

end EmbeddedJsx
