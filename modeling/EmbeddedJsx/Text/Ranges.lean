/-!
# Sets of characters given by ranges

A property of characters is stored as the ascending list of the closed ranges of code points
that have it.  Because the list ascends, the search may stop at the first range that begins
above the code point in question.
-/

namespace EmbeddedJsx.Text

/-- Closed ranges of code points, in ascending order and disjoint. -/
abbrev Ranges := List (Nat × Nat)

namespace Ranges

/-- Whether a code point lies in one of the ranges. -/
def hasCode (code : Nat) : Ranges → Bool
  | [] => false
  | (low, high) :: rest =>
    if code < low then false
    else if code ≤ high then true
    else hasCode code rest

/-- Whether a character lies in one of the ranges. -/
def has (ranges : Ranges) (c : Char) : Bool :=
  hasCode c.toNat ranges

@[simp] theorem hasCode_nil (code : Nat) : hasCode code [] = false := rfl

theorem hasCode_cons (code low high : Nat) (rest : Ranges) :
    hasCode code ((low, high) :: rest) =
      (!decide (code < low) && (decide (code ≤ high) || hasCode code rest)) := by
  by_cases below : code < low <;> by_cases inside : code ≤ high <;>
    simp [hasCode, below, inside]

end Ranges

end EmbeddedJsx.Text
