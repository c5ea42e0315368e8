import EmbeddedJsx.Proofs.Grammar.Derivation
import EmbeddedJsx.Proofs.Lexical.Extent
import EmbeddedJsx.Proofs.Lexical.Raw
import EmbeddedJsx.Proofs.Runs.Calls

/-!
# What is read, piece by piece

Whoever reads a text goes through it piece by piece, and it matters of every piece how it is
read: the next token may be asked for, with any characters that belong to none before it, or a
token may be read that stands at the very place, as it is done after raw text.  A `Visit` records
one such step, by offsets alone, and a `Walk` is a sequence of visits, each of which begins where
the one before it ends.
-/

namespace EmbeddedJsx

/-- One step of reading a text. -/
inductive Visit where
  /-- At the offset a call is made, and it leads to the token with the given span. -/
  | token (call : Cursor.Call) (origin : ℕ) (kind : TokenKind) (span : Span)
  /-- Raw text is passed over. -/
  | raw (span : Span)
  /-- At the offset the next token is asked for, and there is none. -/
  | finish (origin : ℕ)
deriving DecidableEq, Repr

namespace Visit

/-- The offset at which a visit begins. -/
def origin : Visit → ℕ
  | token _ origin _ _ => origin
  | raw span => span.start
  | finish origin => origin

/-- The offset at which a visit ends. -/
def stop : Visit → ℕ
  | token _ _ _ span => span.stop
  | raw span => span.stop
  | finish origin => origin

end Visit

/-- The excerpt reads what stands in the text where it says. -/
def Excerpt.IsOf (e : Excerpt) (text : List Char) : Prop :=
  e.text = String.ofList (e.span.slice text)

lemma Excerpt.IsOf.eq {text : List Char} {e e' : Excerpt} (h : e.IsOf text) (h' : e'.IsOf text)
    (hspan : e.span = e'.span) : e = e' := by
  obtain ⟨span, content⟩ := e
  obtain ⟨span', content'⟩ := e'
  obtain rfl : span = span' := hspan
  rw [Excerpt.mk.injEq]
  exact ⟨rfl, h.trans h'.symm⟩

/-- What the visit records happens between the two places. -/
inductive Place.Makes : Place → Visit → Place → Prop where
  | next {p q : Place} {kind : TokenKind} {e : Excerpt} :
      p.Next kind e q → Makes p (.token .next p.offset kind e.span) q
  | nextChild {p q : Place} {kind : TokenKind} {e : Excerpt} :
      p.NotRaw → p.Reads kind e q → Makes p (.token .nextChild p.offset kind e.span) q
  | raw {p q : Place} {run : List Char} :
      p.Passes run q → run ≠ [] → (∀ c ∈ run, Cursor.isRaw c = true) → q.NotRaw →
      Makes p (.raw ⟨p.offset, q.offset⟩) q
  | finish {p : Place} : p.Ends → Makes p (.finish p.offset) p

/-- From the first place to the second, the visits follow one another. -/
inductive Walk : Place → List Visit → Place → Prop where
  | nil (p : Place) : Walk p [] p
  | cons {p a q : Place} {visit : Visit} {visits : List Visit} :
      p.Makes visit a → Walk a visits q → Walk p (visit :: visits) q

variable {text : List Char} {p a q r : Place} {visit : Visit} {visits visits' : List Visit}
  {kind : TokenKind} {e : Excerpt} {call : Cursor.Call} {origin : ℕ} {span : Span}

/-! ### Single visits -/

namespace Place

lemma Makes.reaches (h : p.Makes visit q) : p.Reaches q := by
  cases h with
  | next h => exact h.reaches
  | nextChild _ h => exact h.reaches
  | raw h _ _ _ => exact ⟨_, h⟩
  | finish _ => exact .refl p

lemma Makes.origin_eq (h : p.Makes visit q) : visit.origin = p.offset := by
  cases h <;> rfl

lemma Makes.stop_eq (h : p.Makes visit q) : visit.stop = q.offset := by
  cases h with
  | next h => exact h.span_stop
  | nextChild _ h => exact h.next.span_stop
  | raw h _ _ _ => rfl
  | finish _ => rfl

/-- Where no raw text stands, none is passed over. -/
lemma NotRaw.not_passes {run : List Char} (h : p.NotRaw) (hpass : p.Passes run q)
    (hne : run ≠ []) : ¬ ∀ c ∈ run, Cursor.isRaw c = true := by
  intro hraw
  obtain ⟨c, run, rfl⟩ := List.exists_cons_of_ne_nil hne
  have hhead := h c (by rw [hpass.1]; rfl)
  simp [hraw c List.mem_cons_self] at hhead

/-- Where a token stands with which a child may begin, or the children end, there is no raw
text. -/
lemma Reads.makes (h : p.Reads kind e q) (hkind : BeginsChild kind) :
    p.Makes (.token .nextChild p.offset kind e.span) q :=
  .nextChild (h.notRaw hkind) h

/-- Where a token is visited, it is the next one. -/
lemma Makes.next_of_token (h : p.Makes (.token call origin kind span) q) :
    ∃ e, p.Next kind e q ∧ e.span = span := by
  cases h with
  | next h => exact ⟨_, h, rfl⟩
  | nextChild _ h => exact ⟨_, h.next, rfl⟩

/-- A token that is visited stands in the text between its offsets. -/
lemma Makes.exists_reads (h : p.Makes (.token call origin kind span) q) :
    ∃ m e, p.Skips m ∧ m.Reads kind e q ∧ e.span = span ∧ m.offset = span.start := by
  obtain ⟨e, ⟨m, hskip, hread⟩, rfl⟩ := h.next_of_token
  exact ⟨m, e, hskip, hread, rfl, hread.span_start.symm⟩

lemma Makes.origin_lt_of_token (h : p.Makes (.token call origin kind span) q) :
    origin ≤ span.start ∧ span.start < span.stop := by
  obtain ⟨m, e, hskip, hread, rfl, hm⟩ := h.exists_reads
  have horigin : origin = p.offset := h.origin_eq
  have hle := hskip.reaches.offset_le
  have hlt := hread.offset_lt
  rw [hread.span_eq]
  simp only
  omega

/-- Where the end of the input is visited, no token comes any more. -/
lemma Makes.ends (h : p.Makes (.finish origin) q) : p.Ends ∧ p = q := by
  cases h with
  | finish h => exact ⟨h, rfl⟩

/-- A token that is visited after raw text is one of those that are looked for among children. -/
lemma Makes.beginsChild (h : p.Makes (.token .nextChild origin kind span) q) :
    BeginsChild kind := by
  cases h with
  | nextChild hraw h =>
    obtain ⟨lexeme, ⟨hrest, -⟩, hlex, -⟩ := h
    obtain ⟨c, rest, rfl, -⟩ := hlex.exists_cons
    exact hlex.kind_of_not_isRaw (hraw c (by rw [hrest]; rfl))

/-- Raw text that is visited is a run of raw characters that cannot be longer. -/
lemma Makes.exists_passes (h : p.Makes (.raw span) q) :
    ∃ run, p.Passes run q ∧ run ≠ [] ∧ (∀ c ∈ run, Cursor.isRaw c = true) ∧ q.NotRaw := by
  cases h with
  | raw hpass hne hraw hend => exact ⟨_, hpass, hne, hraw, hend⟩

lemma Makes.start_lt_of_raw (h : p.Makes (.raw span) q) : span.start < span.stop := by
  obtain ⟨run, ⟨-, hoff⟩, hne, -⟩ := h.exists_passes
  have hlen := List.length_pos_iff.2 hne
  have hstart : span.start = p.offset := h.origin_eq
  have hstop : span.stop = q.offset := h.stop_eq
  omega

lemma InText.isOf_of_reads (hp : p.InText text) (h : p.Reads kind e q) : e.IsOf text := by
  have he := ((hp.reads_iff (hp.reaches h.reaches) h.offset_lt.le).1 h).2
  rw [he]
  rfl

/-- A token reads what stands in the text where it says. -/
lemma InText.isOf_of_next (hp : p.InText text) (h : p.Next kind e q) : e.IsOf text := by
  obtain ⟨m, hskip, hread⟩ := h
  exact (hp.reaches hskip.reaches).isOf_of_reads hread

end Place

/-! ### Sequences of visits -/

namespace Walk

lemma reaches (h : Walk p visits q) : p.Reaches q := by
  induction h with
  | nil p => exact .refl p
  | cons hmakes _ ih => exact hmakes.reaches.trans ih

lemma append (h : Walk p visits a) (h' : Walk a visits' q) : Walk p (visits ++ visits') q := by
  induction h with
  | nil p => exact h'
  | cons hmakes _ ih => exact .cons hmakes (ih h')

lemma of_makes (h : p.Makes visit q) : Walk p [visit] q := .cons h (.nil q)

lemma of_next (h : p.Next kind e q) : Walk p [.token .next p.offset kind e.span] q :=
  of_makes (.next h)

lemma nil_iff : Walk p [] q ↔ p = q := by
  refine ⟨fun h => ?_, fun h => h ▸ .nil p⟩
  cases h
  rfl

lemma cons_iff : Walk p (visit :: visits) q ↔ ∃ a, p.Makes visit a ∧ Walk a visits q := by
  refine ⟨fun h => ?_, fun ⟨a, hmakes, hrest⟩ => .cons hmakes hrest⟩
  cases h with
  | cons hmakes hrest => exact ⟨_, hmakes, hrest⟩

lemma append_iff : Walk p (visits ++ visits') q ↔ ∃ a, Walk p visits a ∧ Walk a visits' q := by
  induction visits generalizing p with
  | nil => simp [nil_iff]
  | cons visit visits ih =>
    rw [List.cons_append, cons_iff]
    simp only [ih, cons_iff]
    constructor
    · rintro ⟨a, hmakes, b, hleft, hright⟩
      exact ⟨b, ⟨a, hmakes, hleft⟩, hright⟩
    · rintro ⟨b, ⟨a, hmakes, hleft⟩, hright⟩
      exact ⟨a, hmakes, b, hleft, hright⟩

lemma concat_iff : Walk p (visits ++ [visit]) q ↔ ∃ a, Walk p visits a ∧ a.Makes visit q := by
  simp [append_iff, cons_iff, nil_iff]

/-- A visit of a walk begins and ends at places between the ends of the walk. -/
lemma exists_makes (h : Walk p visits q) (hmem : visit ∈ visits) :
    ∃ a b, p.Reaches a ∧ a.Makes visit b ∧ b.Reaches q := by
  obtain ⟨left, right, rfl⟩ := List.append_of_mem hmem
  obtain ⟨a, hleft, hrest⟩ := append_iff.1 h
  obtain ⟨b, hmakes, hright⟩ := cons_iff.1 hrest
  exact ⟨a, b, hleft.reaches, hmakes, hright.reaches⟩

end Walk

end EmbeddedJsx
