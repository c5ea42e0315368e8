/-!
# Spans and positions

A span is a half-open range of code-point offsets.  A position names one offset by its line and
column as well; lines are ended by the line feed alone.
-/

namespace EmbeddedJsx

/-- A half-open range of offsets into a text. -/
structure Span where
  /-- The offset of the first character. -/
  start : Nat
  /-- The offset after the last character. -/
  stop : Nat
deriving DecidableEq, Repr, Inhabited

/-- How a span is shown. -/
def Span.text (span : Span) : String :=
  "[" ++ toString span.start ++ ", " ++ toString span.stop ++ ")"

/-- A place in a text: line and column count from one, the offset from zero. -/
structure Position where
  /-- One more than the number of line feeds before the place. -/
  line : Nat
  /-- One more than the number of characters between the last line feed and the place. -/
  column : Nat
  /-- The number of characters before the place. -/
  offset : Nat
deriving DecidableEq, Repr

namespace Position

/-- The offset inside a text of the given length that is nearest to an integer. -/
def clamp (length : Nat) (offset : Int) : Nat :=
  min offset.toNat length

theorem clamp_le (length : Nat) (offset : Int) : clamp length offset ≤ length :=
  Nat.min_le_right _ _

/-- The position after the last of the given characters. -/
def after (before : List Char) : Position where
  line := before.count '\n' + 1
  column := (before.reverse.takeWhile (· != '\n')).length + 1
  offset := before.length

/-- The position at an offset of a text; offsets outside the text are moved to its nearer end. -/
def ofOffset (text : List Char) (offset : Int) : Position :=
  after (text.take (clamp text.length offset))

@[simp] theorem offset_ofOffset (text : List Char) (offset : Int) :
    (ofOffset text offset).offset = clamp text.length offset := by
  simp [ofOffset, after, clamp_le]

theorem line_pos (before : List Char) : 1 ≤ (after before).line := Nat.le_add_left _ _

theorem column_pos (before : List Char) : 1 ≤ (after before).column := Nat.le_add_left _ _

end Position

end EmbeddedJsx
