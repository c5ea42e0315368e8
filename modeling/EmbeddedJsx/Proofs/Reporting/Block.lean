import EmbeddedJsx.Proofs.Reporting.Lines
import EmbeddedJsx.Report

/-!
# What a block shows

The place in a block is that of the first character of the span, and the carets are under the
characters of the span.  The line between them is the one on which the span begins, as long as
nothing but line feeds ends a line up to there.  The main statement is `Report.blockAs_shows_line`.
-/

namespace EmbeddedJsx

open Text

variable {text before line after tail : List Char} {offset : Nat}

/-! ### Places -/

lemma Position.after_append (hbefore : before = [] ∨ ∃ front, before = front ++ ['\n'])
    (htail : '\n' ∉ tail) :
    Position.after (before ++ tail) =
      ⟨before.count '\n' + 1, tail.length + 1, before.length + tail.length⟩ := by
  have hreverse : ∀ c ∈ tail.reverse, (c != '\n') = true := by
    intro c hc
    rw [bne_iff_ne]
    rintro rfl
    exact htail (List.mem_reverse.1 hc)
  have hcolumn : (before ++ tail).reverse.takeWhile (· != '\n') = tail.reverse := by
    rw [List.reverse_append, List.takeWhile_append_of_pos hreverse]
    rcases hbefore with rfl | ⟨front, rfl⟩ <;> simp
  rw [Position.after, hcolumn]
  simp [List.count_eq_zero_of_not_mem htail]

namespace Text.IsLineAt

lemma take_eq (h : IsLineAt text offset before line after) :
    text.take offset = before ++ line.take (offset - before.length) := by
  rw [h.text_eq, List.append_assoc, List.take_append, List.take_of_length_le h.le_offset,
    List.take_append_of_le_length]
  have := h.offset_le
  omega

/-- The place at an offset, counted from the line that it is on. -/
lemma ofOffset_eq (h : IsLineAt text offset before line after) :
    Position.ofOffset text offset =
      ⟨before.count '\n' + 1, offset - before.length + 1, offset⟩ := by
  have hlength : offset ≤ text.length := by
    have := h.offset_le
    rw [h.text_eq]
    simp only [List.length_append]
    omega
  have hclamp : Position.clamp text.length offset = offset := by
    simp [Position.clamp, hlength]
  have htail : '\n' ∉ line.take (offset - before.length) :=
    fun hmem => h.not_mem (List.mem_of_mem_take hmem)
  have hlow := h.le_offset
  have hhigh := h.offset_le
  rw [Position.ofOffset, hclamp, h.take_eq, Position.after_append h.before_eq htail,
    List.length_take_of_le (by omega), Nat.add_sub_cancel' hlow]

/-- Behind the line of a place, another line begins. -/
lemma line_lt (h : IsLineAt text offset before line after) {later : Nat}
    (hlater : before.length + line.length < later) (hlength : later ≤ text.length) :
    before.count '\n' + 1 < (Position.ofOffset text later).line := by
  have hclamp : Position.clamp text.length later = later := by
    simp [Position.clamp, hlength]
  rw [Position.ofOffset, hclamp, Position.after]
  have htext := h.text_eq
  rcases h.after_eq with rfl | ⟨rest, rfl⟩
  · rw [htext, List.append_nil, List.length_append] at hlength
    omega
  · have htake : text.take later =
        before ++ line ++ '\n' :: rest.take (later - (before.length + line.length) - 1) := by
      rw [htext, List.take_append, List.take_of_length_le (by simp; omega), List.length_append,
        List.take_cons (by omega)]
    rw [htake]
    simp only [List.count_append, List.count_cons_self]
    omega

end Text.IsLineAt

/-! ### Blocks -/

namespace Report

variable {r : Report} {start stop : Nat}

lemma position_eq (hline : IsLineAt r.source.toList start before line after)
    (hstart : r.start = start) :
    r.position = ⟨before.count '\n' + 1, start - before.length + 1, start⟩ := by
  rw [position, hstart, hline.ofOffset_eq]

lemma caretCount_eq (hline : IsLineAt r.source.toList start before line after)
    (hstart : r.start = start) (hstop : r.stop = stop) (h : start ≤ stop)
    (hlength : stop ≤ r.source.toList.length) :
    r.caretCount =
      if stop ≤ before.length + line.length then max 1 (stop - start)
      else max 1 (before.length + r.sourceLine.length - start) := by
  have hlow := hline.le_offset
  rw [caretCount, endPosition, hstop, position_eq hline hstart]
  by_cases hstopLine : stop ≤ before.length + line.length
  · have hend : IsLineAt r.source.toList stop before line after :=
      { hline with le_offset := hlow.trans h, offset_le := hstopLine }
    rw [hend.ofOffset_eq, if_pos rfl, if_pos hstopLine]
    dsimp only
    congr 1
    omega
  · have hlater := hline.line_lt (Nat.lt_of_not_le hstopLine) hlength
    rw [if_neg hlater.ne', if_neg hstopLine]
    dsimp only
    congr 1
    omega

/-- **Blocks.**  The place that a block names is that of the first character of the span, and the
carets are under the characters that the span has on the line of that place, or under what is
shown of the line where the span goes on behind it.  What is shown is that line, if nothing but
line feeds ends a line up to there. -/
theorem blockAs_shows_line (r : Report) (filename : String) {start stop : Nat}
    (hstart : r.start = start) (hstop : r.stop = stop) (h : start ≤ stop)
    (hlength : stop ≤ r.source.length) :
    ∃ before line after row, IsLineAt r.source.toList start before line after ∧
      row = shown r.source.toList (before.count '\n') ∧
      (EndsAtLineFeeds (before ++ line) → row = withoutReturn line) ∧
      r.blockAs filename =
        rows r.message filename (before.count '\n' + 1) (start - before.length + 1) row
          (if stop ≤ before.length + line.length then max 1 (stop - start)
            else max 1 (before.length + row.length - start)) := by
  have hsource : stop ≤ r.source.toList.length := by rwa [String.length_toList]
  obtain ⟨before, line, after, hline⟩ := exists_isLineAt (h.trans hsource)
  have hposition := position_eq hline hstart
  have hrow : r.sourceLine = shown r.source.toList (before.count '\n') := by
    rw [sourceLine, hposition]
    rfl
  refine ⟨before, line, after, r.sourceLine, hline, hrow, fun hends => ?_, ?_⟩
  · rw [hrow, hline.text_eq]
    exact shown_eq_of_endsAtLineFeeds hends hline.before_eq hline.not_mem hline.after_eq
  · rw [blockAs, hposition, caretCount_eq hline hstart hstop h hsource]

/-- A closing tag on the second line of a text. -/
theorem blockAs_shows_line_closing :
    let r : Report := ⟨"m", 2, 6, "x\n</b>", defaultFilename⟩
    r.start = (2 : Nat) ∧ r.stop = (6 : Nat) ∧
      ∃ before line after row, IsLineAt r.source.toList 2 before line after ∧
        (EndsAtLineFeeds (before ++ line) → row = withoutReturn line) ∧
        r.blockAs "a.jsx" =
          rows r.message "a.jsx" (before.count '\n' + 1) (2 - before.length + 1) row
            (if 6 ≤ before.length + line.length then max 1 (6 - 2)
              else max 1 (before.length + row.length - 2)) := by
  intro r
  obtain ⟨before, line, after, row, hline, -, hrow, hblock⟩ :=
    @blockAs_shows_line r "a.jsx" 2 6 rfl rfl (by decide) (by decide)
  exact ⟨rfl, rfl, before, line, after, row, hline, hrow, hblock⟩

/-- A form feed ends a line when a text is cut, but it is not counted: behind one, a line that is
not that of the span is shown. -/
theorem not_forall_sourceLine_eq :
    ¬ ∀ (r : Report) (start stop : Nat) (before line after : List Char),
      r.start = start → r.stop = stop → start ≤ stop → stop ≤ r.source.length →
      IsLineAt r.source.toList start before line after → r.sourceLine = withoutReturn line := by
  intro h
  let r : Report :=
    ⟨"closing tag '</b>' does not match '<a>'", 8, 9, "x\x0c\n<a></b>", defaultFilename⟩
  have hline : IsLineAt r.source.toList 8 ['x', '\x0c', '\n'] "<a></b>".toList [] :=
    ⟨by decide, .inr ⟨['x', '\x0c'], rfl⟩, by decide, .inl rfl, by decide, by decide⟩
  have hshown := h r 8 9 _ _ _ rfl rfl (by decide) (by decide) hline
  have hempty : r.sourceLine = [] := by decide
  rw [hempty] at hshown
  exact absurd hshown (by decide)

end Report

end EmbeddedJsx
