import EmbeddedJsx.Proofs.Lexical.Extent

/-!
# Spans in a row

Spans may stand in order, with gaps between them (`Span.InOrder`), or leave no gap in a stretch of
text (`Span.Tiles`).  What lies in a stretch that is tiled is what the tiles cover, one after the
other.
-/

namespace EmbeddedJsx.Span

/-- Spans with characters stand between two offsets, in order and apart. -/
structure InOrder (start : ℕ) (spans : List Span) (stop : ℕ) : Prop where
  /-- Every span has a character and lies between the offsets. -/
  inside : ∀ s ∈ spans, start ≤ s.start ∧ s.start < s.stop ∧ s.stop ≤ stop
  /-- Every span ends before the later ones begin. -/
  apart : spans.Pairwise fun s t => s.stop ≤ t.start

/-- Spans with characters fill the stretch between two offsets: the first begins where the stretch
does, each other one where the one before it ends, and the stretch ends with the last. -/
def Tiles : (start : ℕ) → List Span → (stop : ℕ) → Prop
  | start, [], stop => start = stop
  | start, s :: spans, stop => s.start = start ∧ s.start < s.stop ∧ Tiles s.stop spans stop

variable {start middle stop start' stop' : ℕ} {s : Span} {spans left right : List Span}
  {text : List Char}

@[simp] lemma inOrder_nil : InOrder start [] stop := ⟨by simp, .nil⟩

lemma inOrder_singleton (h : start ≤ s.start) (h' : s.start < s.stop) (h'' : s.stop ≤ stop) :
    InOrder start [s] stop :=
  ⟨by simp [h, h', h''], List.pairwise_singleton _ _⟩

lemma InOrder.mono (h : InOrder start spans stop) (hstart : start' ≤ start) (hstop : stop ≤ stop') :
    InOrder start' spans stop' := by
  refine ⟨fun s hs => ?_, h.apart⟩
  obtain ⟨hlow, hlt, hhigh⟩ := h.inside s hs
  exact ⟨hstart.trans hlow, hlt, hhigh.trans hstop⟩

/-- Spans up to an offset stand in order with spans from there on. -/
lemma InOrder.append (h : InOrder start left middle) (h' : InOrder middle right stop)
    (hle : start ≤ middle) (hle' : middle ≤ stop) : InOrder start (left ++ right) stop := by
  refine ⟨fun s hs => ?_, List.pairwise_append.2 ⟨h.apart, h'.apart, fun s hs t ht => ?_⟩⟩
  · rcases List.mem_append.1 hs with hs | hs
    · exact (h.mono le_rfl hle').inside s hs
    · exact (h'.mono hle le_rfl).inside s hs
  · exact (h.inside s hs).2.2.trans (h'.inside t ht).1

lemma Tiles.le (h : Tiles start spans stop) : start ≤ stop := by
  induction spans generalizing start with
  | nil => exact le_of_eq h
  | cons s spans ih =>
    obtain ⟨rfl, hlt, htiles⟩ := h
    exact hlt.le.trans (ih htiles)

lemma Tiles.inOrder (h : Tiles start spans stop) : InOrder start spans stop := by
  induction spans generalizing start with
  | nil => exact inOrder_nil
  | cons s spans ih =>
    obtain ⟨rfl, hlt, htiles⟩ := h
    exact (inOrder_singleton le_rfl hlt le_rfl).append (ih htiles) hlt.le htiles.le

lemma slice_append_slice (h : start ≤ middle) (h' : middle ≤ stop) :
    slice ⟨start, middle⟩ text ++ slice ⟨middle, stop⟩ text = slice ⟨start, stop⟩ text := by
  have hsum : stop - start = (middle - start) + (stop - middle) := by omega
  simp only [slice, hsum, List.take_add, List.drop_drop, Nat.add_sub_cancel' h]

/-- What the tiles of a stretch cover is, one after the other, what lies in the stretch. -/
lemma Tiles.flatten_slice (h : Tiles start spans stop) :
    (spans.map (slice · text)).flatten = slice ⟨start, stop⟩ text := by
  induction spans generalizing start with
  | nil =>
    obtain rfl : start = stop := h
    simp [slice]
  | cons s spans ih =>
    obtain ⟨rfl, hlt, htiles⟩ := h
    rw [List.map_cons, List.flatten_cons, ih htiles]
    exact slice_append_slice hlt.le htiles.le

end EmbeddedJsx.Span
