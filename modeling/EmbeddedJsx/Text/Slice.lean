/-!
# Slices with signed bounds

A slice of a text is asked for by two integers.  A negative bound counts from the end of the
text, a bound outside the text is moved to its nearer end, and a slice whose bounds are in the
wrong order is empty.
-/

namespace EmbeddedJsx.Text

/-- The place in a text of the given length that a signed bound stands for. -/
def resolveBound (length : Nat) (bound : Int) : Nat :=
  if bound < 0 then (bound + length).toNat else min bound.toNat length

theorem resolveBound_le (length : Nat) (bound : Int) : resolveBound length bound ≤ length := by
  unfold resolveBound
  split <;> omega

@[simp] theorem resolveBound_natCast {length n : Nat} (h : n ≤ length) :
    resolveBound length n = n := by
  unfold resolveBound
  split <;> omega

/-- The characters of a text between two signed bounds. -/
def slice (text : List Char) (start stop : Int) : List Char :=
  let low := resolveBound text.length start
  let high := resolveBound text.length stop
  (text.drop low).take (high - low)

/-- Bounds given in the wrong order, where only an ordered pair makes sense. -/
structure ReversedRange where
  /-- The bound given as the start. -/
  start : Int
  /-- The bound given as the end. -/
  stop : Int
deriving DecidableEq, Repr

/-- How reversed bounds are reported. -/
def ReversedRange.message (range : ReversedRange) : String :=
  "invalid source range [" ++ toString range.start ++ ", " ++ toString range.stop ++ ")"

/-- The slice between two bounds, which have to be in order. -/
def orderedSlice (text : List Char) (start stop : Int) : Except ReversedRange (List Char) :=
  if stop < start then .error ⟨start, stop⟩ else .ok (slice text start stop)

end EmbeddedJsx.Text
