import Mathlib
import EmbeddedJsx.Text.Lines

/-!
# The line of a place

A place in a text is on one line, with a line feed on either side of it where the text goes on.
Among the lines that a text is cut into, that line has the number of line feeds before it as long
as nothing else ends a line up to there.  The main statement is `shown_eq_of_endsAtLineFeeds`.
-/

namespace EmbeddedJsx.Text

variable {text before line after front rest chars : List Char} {c : Char} {offset : Nat}

/-! ### The line of a place -/

/-- A text is cut around the line on which the place at an offset is: what is before the line ends
with a line feed, and what is after it begins with one. -/
structure IsLineAt (text : List Char) (offset : Nat) (before line after : List Char) : Prop where
  /-- Nothing is lost. -/
  text_eq : text = before ++ line ++ after
  /-- The line begins the text or is behind a line feed. -/
  before_eq : before = [] ∨ ∃ front, before = front ++ ['\n']
  /-- It is one line. -/
  not_mem : '\n' ∉ line
  /-- The line ends the text or is in front of a line feed. -/
  after_eq : after = [] ∨ ∃ rest, after = '\n' :: rest
  /-- The place is not before the line. -/
  le_offset : before.length ≤ offset
  /-- The place is not after the line. -/
  offset_le : offset ≤ before.length + line.length

/-- A list is cut in front of the first element that has a property. -/
lemma exists_eq_append_of_first (p : Char → Bool) (chars : List Char) :
    ∃ front rest, chars = front ++ rest ∧ (∀ c ∈ front, p c = false) ∧
      (rest = [] ∨ ∃ c more, rest = c :: more ∧ p c = true) := by
  induction chars with
  | nil => exact ⟨[], [], rfl, by simp, .inl rfl⟩
  | cons c chars ih =>
    by_cases hc : p c = true
    · exact ⟨[], c :: chars, rfl, by simp, .inr ⟨c, chars, rfl, hc⟩⟩
    · obtain ⟨front, rest, rfl, hfront, hrest⟩ := ih
      exact ⟨c :: front, rest, rfl, by simpa [hc] using hfront, hrest⟩

/-- Every place is on a line. -/
lemma exists_isLineAt (h : offset ≤ text.length) :
    ∃ before line after, IsLineAt text offset before line after := by
  induction text generalizing offset with
  | nil => exact ⟨[], [], [], rfl, .inl rfl, by simp, .inl rfl, by simp, by simpa using h⟩
  | cons c text ih =>
    cases offset with
    | zero =>
      obtain ⟨line, after, heq, hline, hafter⟩ := exists_eq_append_of_first (· == '\n') (c :: text)
      refine ⟨[], line, after, heq, .inl rfl, fun h => by simpa using hline _ h, ?_, by simp,
        by simp⟩
      exact hafter.imp_right fun ⟨d, rest, hrest, hd⟩ => ⟨rest, by rw [hrest, beq_iff_eq.1 hd]⟩
    | succ offset =>
      obtain ⟨before, line, after, rfl, hbefore, hline, hafter, hlow, hhigh⟩ :=
        ih (Nat.le_of_succ_le_succ h)
      rcases hbefore with rfl | ⟨front, rfl⟩
      · by_cases hc : c = '\n'
        · exact ⟨['\n'], line, after, by rw [hc]; rfl, .inr ⟨[], rfl⟩, hline, hafter, by simp,
            by simpa [Nat.add_comm] using hhigh⟩
        · refine ⟨[], c :: line, after, rfl, .inl rfl, ?_, hafter, by simp, ?_⟩
          · simpa [Ne.symm hc] using hline
          · simpa using hhigh
      · refine ⟨c :: front ++ ['\n'], line, after, rfl, .inr ⟨c :: front, rfl⟩, hline, hafter,
          ?_, ?_⟩
        · simpa using hlow
        · simp only [List.length_append, List.length_cons, List.length_nil] at hhigh ⊢
          omega

/-! ### Cutting at line terminators -/

lemma lines_cons_of_not_terminator (h : ¬ isLineTerminator c) :
    lines (c :: rest) = consLine c (lines rest) := by
  have hreturn : c ≠ '\r' := by
    rintro rfl
    exact h (by decide)
  rw [lines.eq_3 _ _ (by simp [hreturn]), if_neg h]

lemma lines_cons_of_terminator (h : isLineTerminator c) (hreturn : c = '\r' → rest = []) :
    lines (c :: rest) = [c] :: lines rest := by
  rw [lines.eq_3 _ _ (by simp +contextual [hreturn]), if_pos h]

lemma foldr_consLine_nil (h : chars ≠ []) : chars.foldr consLine [] = [chars] := by
  induction chars with
  | nil => exact absurd rfl h
  | cons c chars ih =>
    cases chars with
    | nil => rfl
    | cons d chars => rw [List.foldr_cons, ih (by simp), consLine]

lemma foldr_consLine_cons (chars line : List Char) (ls : List (List Char)) :
    chars.foldr consLine (line :: ls) = (chars ++ line) :: ls := by
  induction chars with
  | nil => rfl
  | cons c chars ih => rw [List.foldr_cons, ih, consLine, List.cons_append]

/-- Characters that end no line are put in front of the first line after them. -/
lemma lines_append (h : ∀ c ∈ chars, ¬ isLineTerminator c) :
    lines (chars ++ rest) = chars.foldr consLine (lines rest) := by
  induction chars with
  | nil => rfl
  | cons c chars ih =>
    rw [List.cons_append, lines_cons_of_not_terminator (h c List.mem_cons_self),
      ih fun d hd => h d (List.mem_cons_of_mem _ hd), List.foldr_cons]

/-- Up to the last character, lines are ended by line feeds only, in front of which there may be a
carriage return. -/
def EndsAtLineFeeds (chars : List Char) : Prop :=
  ∀ front c rest, chars = front ++ c :: rest → rest ≠ [] → isLineTerminator c →
    c = '\n' ∨ c = '\r' ∧ rest.head? = some '\n'

lemma EndsAtLineFeeds.of_append (h : EndsAtLineFeeds (front ++ chars)) : EndsAtLineFeeds chars :=
  fun front' c rest heq => h (front ++ front') c rest (by rw [heq, List.append_assoc])

/-- A line holds no line terminator, but for one as its last character, which is a carriage return
if more follows. -/
lemma EndsAtLineFeeds.exists_eq (h : EndsAtLineFeeds (line ++ rest)) (hline : '\n' ∉ line) :
    ∃ chars, (∀ c ∈ chars, ¬ isLineTerminator c) ∧
      (line = chars ∨ ∃ c, isLineTerminator c ∧ (rest ≠ [] → c = '\r') ∧ line = chars ++ [c]) := by
  obtain ⟨chars, more, rfl, hchars, hmore⟩ := exists_eq_append_of_first isLineTerminator line
  refine ⟨chars, by simpa using hchars, ?_⟩
  rcases hmore with rfl | ⟨c, more, rfl, hc⟩
  · exact .inl (List.append_nil _)
  · have hne : c ≠ '\n' := by
      rintro rfl
      simp at hline
    have hterminator : more ++ rest ≠ [] → c = '\r' ∧ (more ++ rest).head? = some '\n' :=
      fun hrest => (h chars c (more ++ rest) (by simp) hrest hc).resolve_left hne
    -- the line feed behind the terminator would be on the line
    have hmore : more = [] := by
      cases more with
      | nil => rfl
      | cons d more =>
        obtain ⟨-, hd⟩ := hterminator (by simp)
        obtain rfl : d = '\n' := by simpa using hd
        simp at hline
    subst hmore
    exact .inr ⟨c, hc, fun hrest => (hterminator hrest).1, rfl⟩

lemma lines_append_lineFeed (h : ∀ c ∈ chars, ¬ isLineTerminator c) :
    lines (chars ++ '\n' :: rest) = (chars ++ ['\n']) :: lines rest := by
  rw [lines_append h, lines_cons_of_terminator (by decide) (by simp), foldr_consLine_cons]

lemma lines_append_return_lineFeed (h : ∀ c ∈ chars, ¬ isLineTerminator c) :
    lines (chars ++ '\r' :: '\n' :: rest) = (chars ++ ['\r', '\n']) :: lines rest := by
  rw [lines_append h, lines.eq_2, foldr_consLine_cons]

/-- A line feed ends one line in both ways to count lines. -/
lemma EndsAtLineFeeds.exists_lines_eq (h : EndsAtLineFeeds (line ++ '\n' :: rest))
    (hline : '\n' ∉ line) (more : List Char) :
    ∃ first, lines (line ++ '\n' :: more) = first :: lines more := by
  obtain ⟨chars, hchars, rfl | ⟨c, -, hc, rfl⟩⟩ := h.exists_eq hline
  · exact ⟨_, lines_append_lineFeed hchars⟩
  · obtain rfl : c = '\r' := hc (by simp)
    rw [List.append_assoc]
    exact ⟨_, lines_append_return_lineFeed hchars⟩

/-! ### The line that is shown -/

/-- The line of a number that counts from zero, as it is shown; it is empty where the text has no
line of that number. -/
def shown (text : List Char) (number : Nat) : List Char := (lines text)[number]?.elim [] dropNewline

/-- A line without the carriage return at its end. -/
def withoutReturn (line : List Char) : List Char :=
  if line.getLast? = some '\r' then line.dropLast else line

lemma dropNewline_append_lineFeed (line : List Char) :
    dropNewline (line ++ ['\n']) = dropNewline line := by
  simp [dropNewline]

lemma dropNewline_of_getLast? (h : ∀ c ∈ line.getLast?, c ≠ '\n' ∧ c ≠ '\r') :
    dropNewline line = line := by
  rcases List.eq_nil_or_concat line with rfl | ⟨front, c, rfl⟩
  · rfl
  · obtain ⟨hfeed, hreturn⟩ := h c (by simp)
    simp [dropNewline, hfeed, hreturn]

lemma dropNewline_append_return (h : ∀ c ∈ line.getLast?, c ≠ '\n' ∧ c ≠ '\r') :
    dropNewline (line ++ ['\r']) = line := by
  rw [← dropNewline_of_getLast? h]
  rcases List.eq_nil_or_concat line with rfl | ⟨front, c, rfl⟩
  · rfl
  · obtain ⟨hfeed, hreturn⟩ := h c (by simp)
    simp [dropNewline, hfeed, hreturn]

/-- The first line of a text is shown as it is. -/
lemma shown_zero (h : EndsAtLineFeeds line) (hline : '\n' ∉ line)
    (hafter : after = [] ∨ ∃ rest, after = '\n' :: rest) :
    shown (line ++ after) 0 = withoutReturn line := by
  have hends : EndsAtLineFeeds (line ++ []) := by rwa [List.append_nil]
  obtain ⟨chars, hchars, heq⟩ := hends.exists_eq hline
  have hlast : ∀ c ∈ chars.getLast?, c ≠ '\n' ∧ c ≠ '\r' := by
    intro c hc
    have hnot := hchars c (List.mem_of_mem_getLast? hc)
    constructor <;> rintro rfl <;> exact hnot (by decide)
  rcases heq with rfl | ⟨c, hc, -, rfl⟩
  · have hwithout : withoutReturn line = line := if_neg fun hreturn => (hlast _ hreturn).2 rfl
    rw [hwithout, shown]
    rcases hafter with rfl | ⟨rest, rfl⟩
    · rw [lines_append hchars]
      by_cases hnil : line = []
      · rw [hnil]
        rfl
      · rw [lines.eq_1, foldr_consLine_nil hnil]
        exact dropNewline_of_getLast? hlast
    · rw [lines_append_lineFeed hchars]
      exact (dropNewline_append_lineFeed line).trans (dropNewline_of_getLast? hlast)
  · rw [shown]
    by_cases hreturn : c = '\r'
    · subst hreturn
      have hwithout : withoutReturn (chars ++ ['\r']) = chars := by simp [withoutReturn]
      rw [hwithout]
      rcases hafter with rfl | ⟨rest, rfl⟩
      · rw [List.append_nil, lines_append hchars, lines_cons_of_terminator (by decide) (by simp),
          foldr_consLine_cons]
        exact dropNewline_append_return hlast
      · rw [List.append_assoc, List.singleton_append, lines_append_return_lineFeed hchars]
        change dropNewline (chars ++ (['\r'] ++ ['\n'])) = chars
        rw [← List.append_assoc, dropNewline_append_lineFeed]
        exact dropNewline_append_return hlast
    · have hne : c ≠ '\n' := by
        rintro rfl
        simp at hline
      have hwithout : withoutReturn (chars ++ [c]) = chars ++ [c] := by
        simp [withoutReturn, hreturn]
      rw [hwithout, List.append_assoc, lines_append hchars, List.singleton_append,
        lines_cons_of_terminator hc (absurd · hreturn), foldr_consLine_cons]
      exact dropNewline_of_getLast? (by simp [hne, hreturn])

/-- **Two ways to count lines.**  As long as line feeds end all lines, the line behind a number of
line feeds is the one that is shown for that number. -/
lemma shown_eq_of_endsAtLineFeeds (h : EndsAtLineFeeds (before ++ line))
    (hbefore : before = [] ∨ ∃ front, before = front ++ ['\n']) (hline : '\n' ∉ line)
    (hafter : after = [] ∨ ∃ rest, after = '\n' :: rest) :
    shown (before ++ line ++ after) (before.count '\n') = withoutReturn line := by
  -- one line feed after the other is taken off
  induction hcount : before.count '\n' generalizing before with
  | zero =>
    rcases hbefore with rfl | ⟨front, rfl⟩
    · exact shown_zero h hline hafter
    · simp at hcount
  | succ number ih =>
    obtain ⟨first, rest, rfl, hfirst, hrest⟩ := exists_eq_append_of_first (· == '\n') before
    have hfirst : '\n' ∉ first := fun hmem => by simpa using hfirst _ hmem
    rcases hrest with rfl | ⟨c, rest, rfl, hc⟩
    · simp [List.count_eq_zero_of_not_mem hfirst] at hcount
    · obtain rfl : c = '\n' := by simpa using hc
      have hbefore' : rest = [] ∨ ∃ front, rest = front ++ ['\n'] := by
        rcases List.eq_nil_or_concat rest with rfl | ⟨front, d, rfl⟩
        · exact .inl rfl
        · obtain ⟨front₀, hfront⟩ := hbefore.resolve_left (by simp)
          rw [List.concat_eq_append, ← List.cons_append, ← List.append_assoc] at hfront
          obtain rfl : d = '\n' := by simpa using (List.append_inj' hfront rfl).2
          exact .inr ⟨front, List.concat_eq_append⟩
      have hcount' : rest.count '\n' = number := by
        simpa [List.count_eq_zero_of_not_mem hfirst] using hcount
      have hends : EndsAtLineFeeds (first ++ '\n' :: (rest ++ line)) := by simpa using h
      obtain ⟨cut, hcut⟩ := hends.exists_lines_eq hfirst (rest ++ line ++ after)
      have hshown : shown (first ++ '\n' :: rest ++ line ++ after) (number + 1) =
          shown (rest ++ line ++ after) number := by
        rw [shown, shown, List.append_assoc, List.append_assoc, List.cons_append,
          ← List.append_assoc rest, hcut, List.getElem?_cons_succ]
      rw [hshown]
      have hends' : EndsAtLineFeeds ((first ++ ['\n']) ++ (rest ++ line)) := by simpa using h
      exact ih hends'.of_append hbefore' hcount'

end EmbeddedJsx.Text
