import EmbeddedJsx.Proofs.Geometry.Phrases

/-!
# The delimiters of elements and fragments

What stands in an element besides its parts can be found in the text without the grammar.  The
element begins with a `<`, from which only insignificant characters lead to its name, and from its
last attribute only such characters lead to the `>` or `/>` of the tag.  The closing tag begins
with the last `<` of the element, for no angle bracket stands in the name of a tag.
-/

namespace EmbeddedJsx

open Text

section Texts

variable (text : List Char)

/-- A tag that begins at the one offset has a `<` there, and its name begins at the other. -/
def TagBegins (start first : ℕ) : Prop :=
  ∃ gap, Insignificant gap ∧ Span.slice ⟨start, first⟩ text = '<' :: gap

/-- A tag, the last part of which ends at the one offset, ends with its `/>` at the other. -/
def TagSelfCloses (last stop : ℕ) : Prop :=
  ∃ gap space, Insignificant gap ∧ TagSpace space ∧
    Span.slice ⟨last, stop⟩ text = gap ++ '/' :: space ++ ['>']

/-- A tag, the last part of which ends at the one offset, ends with its `>` at the other. -/
def TagEnds (last stop : ℕ) : Prop :=
  ∃ gap, Insignificant gap ∧ Span.slice ⟨last, stop⟩ text = gap ++ ['>']

/-- Between the offsets stands the `<>` that opens a fragment. -/
def FragmentOpens (start stop : ℕ) : Prop :=
  ∃ space, TagSpace space ∧ Span.slice ⟨start, stop⟩ text = '<' :: space ++ ['>']

/-- Between the offsets stands what closes an element or a fragment: a `<` and a slash, and up to
a `>` no other angle brackets. -/
def MarkupCloses (start stop : ℕ) : Prop :=
  ∃ space inside, TagSpace space ∧ (∀ c ∈ inside, c ≠ '<' ∧ c ≠ '>') ∧
    Span.slice ⟨start, stop⟩ text = '<' :: space ++ '/' :: inside ++ ['>']

end Texts

/-! ### Angle brackets -/

lemma ne_angle_of_not_significant {c : Char} (h : isSignificant c = false) : c ≠ '<' ∧ c ≠ '>' := by
  constructor <;> rintro rfl <;> exact absurd h (by decide)

lemma ne_angle_of_identifierContinue {c : Char} (h : isIdentifierContinue c = true) :
    c ≠ '<' ∧ c ≠ '>' := by
  constructor <;> rintro rfl <;> exact absurd h (by decide)

namespace Place

/-- No angle brackets lie between the places. -/
def Clear (p q : Place) : Prop := ∃ run, p.Passes run q ∧ ∀ c ∈ run, c ≠ '<' ∧ c ≠ '>'

variable {p q r : Place} {kind : TokenKind} {e : Excerpt}

lemma Clear.refl (p : Place) : p.Clear p := ⟨[], passes_nil.2 rfl, by simp⟩

lemma Clear.trans (h : p.Clear q) (h' : q.Clear r) : p.Clear r := by
  obtain ⟨run, hpass, hrun⟩ := h
  obtain ⟨run', hpass', hrun'⟩ := h'
  refine ⟨run ++ run', hpass.trans hpass', fun c hc => ?_⟩
  rcases List.mem_append.1 hc with hc | hc
  · exact hrun c hc
  · exact hrun' c hc

lemma Skips.clear (h : p.Skips q) : p.Clear q := by
  obtain ⟨run, hrun, hpass⟩ := h
  exact ⟨run, hpass, fun c hc => ne_angle_of_not_significant (hrun c hc)⟩

/-- Tokens of names have no angle brackets. -/
lemma Next.clear (h : p.Next kind e q)
    (hkind : kind = .identifier ∨ kind = .dot ∨ kind = .colon) : p.Clear q := by
  obtain ⟨m, hskip, lexeme, hpass, hlex, -⟩ := h
  refine hskip.clear.trans ⟨lexeme, hpass, ?_⟩
  rcases hkind with rfl | rfl | rfl
  · cases hlex with
    | identifier hstart hmore _ =>
      refine List.forall_mem_cons.2 ⟨?_, fun c hc => ne_angle_of_identifierContinue (hmore c hc)⟩
      exact ne_angle_of_identifierContinue (isIdentifierContinue_of_start hstart)
  · cases hlex
    simp
  · cases hlex
    simp

end Place

namespace Grammar

variable {text : List Char} {p q a b : Place} {name : Name} {parts : List Excerpt} {e e' : Excerpt}

lemma Members.clear (h : Members p parts q) : p.Clear q := by
  induction h with
  | nil p => exact .refl p
  | cons hdot hpart _ ih =>
    exact (hdot.clear (.inr (.inl rfl))).trans ((hpart.clear (.inl rfl)).trans ih)

lemma AttributeName.clear (h : AttributeName p name q) : p.Clear q := by
  cases h with
  | plain h => exact h.clear (.inl rfl)
  | namespaced h hcolon h' =>
    exact (h.clear (.inl rfl)).trans ((hcolon.clear (.inr (.inr rfl))).trans (h'.clear (.inl rfl)))

lemma ElementName.clear (h : ElementName p name q) : p.Clear q := by
  cases h with
  | simple h => exact h.clear
  | member h hdot h' hmore =>
    exact (h.clear (.inl rfl)).trans ((hdot.clear (.inr (.inl rfl))).trans
      ((h'.clear (.inl rfl)).trans hmore.clear))

lemma ElementName.exists_start (h : ElementName p name q) :
    ∃ m, p.Skips m ∧ name.span.start = m.offset := by
  cases h with
  | simple h =>
    obtain ⟨m, hskip, -, hspan⟩ := h.exists_span
    exact ⟨m, hskip, by rw [hspan]⟩
  | member h _ _ _ =>
    obtain ⟨m, hskip, hread⟩ := h
    exact ⟨m, hskip, hread.span_start⟩

/-! ### Delimiters in derivations -/

lemma tagBegins_of_reads (h : p.Reads .tagOpen e a) (hname : ElementName a name b)
    (hp : p.InText text) : TagBegins text p.offset name.span.start := by
  obtain ⟨m, hskip, hstart⟩ := hname.exists_start
  have hreach := h.reaches.trans hskip.reaches
  obtain ⟨lexeme, hpass, hlex, -⟩ := h
  obtain ⟨gap, hgap, hpass'⟩ := hskip
  cases hlex
  rw [hstart]
  exact ⟨gap, hgap,
    ((hp.passes_iff (hp.reaches hreach) hreach.offset_le).1 (hpass.trans hpass')).symm⟩

lemma tagSelfCloses_of_next (h : p.Next .selfClose e q) (hp : p.InText text) :
    TagSelfCloses text p.offset q.offset := by
  have hle := h.reaches.offset_le
  have hq := hp.reaches h.reaches
  obtain ⟨m, ⟨gap, hgap, hpass⟩, lexeme, hpass', hlex, -⟩ := h
  cases hlex with
  | @selfClose space _ hspace =>
    refine ⟨gap, space, hgap, hspace, ?_⟩
    rw [← (hp.passes_iff hq hle).1 (hpass.trans hpass'), List.append_assoc]

lemma tagEnds_of_next (h : p.Next .tagClose e q) (hp : p.InText text) :
    TagEnds text p.offset q.offset := by
  have hle := h.reaches.offset_le
  have hq := hp.reaches h.reaches
  obtain ⟨m, ⟨gap, hgap, hpass⟩, lexeme, hpass', hlex, -⟩ := h
  cases hlex
  exact ⟨gap, hgap, ((hp.passes_iff hq hle).1 (hpass.trans hpass')).symm⟩

lemma fragmentOpens_of_reads (h : p.Reads .fragmentOpen e q) (hp : p.InText text) :
    FragmentOpens text p.offset q.offset := by
  have hle := h.reaches.offset_le
  have hq := hp.reaches h.reaches
  obtain ⟨lexeme, hpass, hlex, -⟩ := h
  cases hlex with
  | fragmentOpen hspace => exact ⟨_, hspace, ((hp.passes_iff hq hle).1 hpass).symm⟩

lemma markupCloses_of_element (hopen : p.Reads .closingOpen e a) (hname : ElementName a name b)
    (hclose : b.Next .tagClose e' q) (hp : p.InText text) :
    MarkupCloses text p.offset q.offset := by
  have hreach := hopen.reaches.trans (hname.reaches.trans hclose.reaches)
  obtain ⟨lexeme, hpass, hlex, -⟩ := hopen
  obtain ⟨m, hskip, lexeme', hpass'', hlex', -⟩ := hclose
  obtain ⟨inside, hpass', hinside⟩ := hname.clear.trans hskip.clear
  cases hlex'
  cases hlex with
  | closingOpen hspace _ _ =>
    refine ⟨_, inside, hspace, hinside, ?_⟩
    have hall := hpass.trans (hpass'.trans hpass'')
    rw [← (hp.passes_iff (hp.reaches hreach) hreach.offset_le).1 hall]
    simp

lemma markupCloses_of_fragment (h : p.Reads .fragmentClose e q) (hp : p.InText text) :
    MarkupCloses text p.offset q.offset := by
  have hle := h.reaches.offset_le
  have hq := hp.reaches h.reaches
  obtain ⟨lexeme, hpass, hlex, -⟩ := h
  cases hlex with
  | @fragmentClose space space' _ hspace hspace' =>
    refine ⟨space, space', hspace, fun c hc => ?_, ((hp.passes_iff hq hle).1 hpass).symm⟩
    exact ne_angle_of_not_significant (isSignificant_of_isTagSpace (hspace' c hc))

end Grammar

end EmbeddedJsx
