import EmbeddedJsx.Cursor

/-!
# Cursors within a text

A cursor stands within a text if its token and what comes after it are what the text has at the
offset of the cursor.  A cursor that begins at the beginning of a text stands within it, and
goes on standing within it whatever is read and whether reading succeeds or fails.
-/

namespace EmbeddedJsx.Cursor

/-- The cursor that an operation leaves behind. -/
def Step.cursor {α : Type} : Step α → Cursor
  | .ok _ c => c
  | .error _ c => c

/-- The cursor stands within the text. -/
structure Within (text : List Char) (c : Cursor) : Prop where
  /-- The token begins in the text. -/
  start_le : c.start ≤ text.length
  /-- The token and what comes after it are what the text has there. -/
  drop_start : text.drop c.start = c.lexeme ++ c.rest

theorem within_ofText (text : List Char) : (ofText text).Within text :=
  ⟨by simp [ofText], by simp [ofText]⟩

namespace Within

variable {text : List Char} {c : Cursor}

theorem drop_stop (h : c.Within text) : text.drop c.stop = c.rest := by
  rw [stop, ← List.drop_drop, h.drop_start, List.drop_left]

theorem stop_le (h : c.Within text) : c.stop ≤ text.length := by
  have total := congrArg List.length h.drop_start
  have inside := h.start_le
  simp only [List.length_drop, List.length_append] at total
  simp only [stop]
  omega

theorem length_rest (h : c.Within text) : c.rest.length = text.length - c.stop := by
  rw [← h.drop_stop, List.length_drop]

theorem emptied (h : c.Within text) : c.emptied.Within text :=
  ⟨h.stop_le, by simp [Cursor.emptied, h.drop_stop]⟩

theorem proceed (h : c.Within text) : (c.proceed (scan c.rest)).cursor.Within text := by
  have found_at := drop_scan c.rest
  have skipped_le := scan_le c.rest
  have stop_le := h.stop_le
  rw [← h.drop_stop, List.drop_drop, h.drop_stop] at found_at
  have start_le : c.stop + (scan c.rest).1 ≤ text.length := by
    have := h.length_rest
    omega
  generalize scan c.rest = result at *
  obtain ⟨skipped, found⟩ := result
  cases found <;>
    exact ⟨start_le, by simpa [Found.text, Cursor.proceed, Step.cursor, fail] using found_at⟩

/-- Reading a token stays within the text. -/
theorem next (h : c.Within text) : c.next.cursor.Within text := by
  unfold Cursor.next
  split
  · exact h.emptied
  · exact h.proceed

theorem skipRaw (h : c.Within text) : c.skipRaw.Within text := by
  have cut := List.takeWhile_append_dropWhile (p := isRaw) (l := c.rest)
  have total := congrArg List.length cut
  have stop_le := h.stop_le
  have rest_eq := h.length_rest
  rw [List.length_append] at total
  refine ⟨?_, ?_⟩
  · simp only [Cursor.skipRaw, raw]
    omega
  · have dropped : c.rest.drop c.raw.length = c.rest.dropWhile isRaw := by
      have left : (c.raw ++ c.rest.dropWhile isRaw).drop c.raw.length = _ := List.drop_left
      rwa [raw, cut] at left
    simp only [Cursor.skipRaw, List.nil_append]
    rw [← List.drop_drop, h.drop_stop, dropped]

/-- Reading a token after raw text stays within the text. -/
theorem nextChild (h : c.Within text) : c.nextChild.cursor.Within text := h.skipRaw.next

end Within

end EmbeddedJsx.Cursor
