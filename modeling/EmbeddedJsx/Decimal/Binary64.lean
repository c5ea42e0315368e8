/-!
# Binary floating-point numbers

A finite number is `mantissa · 2 ^ exponent` with a mantissa of at most 53 bits and an exponent
of at least −1074.  `Binary64.nearest` rounds an exact decimal to the nearest such number, a tie
going to the even mantissa.
-/

namespace EmbeddedJsx

/-- A floating-point number of 64 bits. -/
inductive Binary64 where
  /-- No number. -/
  | nan
  /-- A number beyond the largest finite one. -/
  | infinite (negative : Bool)
  /-- The number `mantissa · 2 ^ exponent`. -/
  | finite (negative : Bool) (mantissa : Nat) (exponent : Int)
deriving DecidableEq, Repr

namespace Binary64

/-- The least exponent. -/
def minExponent : Int := -1074

/-- The greatest exponent of a mantissa of 53 bits. -/
def maxExponent : Int := 971

/-- A power of ten as numerator and denominator. -/
def powerOfTen (e : Int) : Nat × Nat :=
  if e < 0 then (1, Nat.pow 10 e.natAbs) else (Nat.pow 10 e.natAbs, 1)

/-- A power of two as numerator and denominator. -/
def powerOfTwo (e : Int) : Nat × Nat :=
  if e < 0 then (1, Nat.pow 2 e.natAbs) else (Nat.pow 2 e.natAbs, 1)

/-- The integer nearest to a quotient, a tie going to the even one. -/
def roundQuotient (num den : Nat) : Nat :=
  let q := num / den
  let r := num % den
  if den < 2 * r ∨ (2 * r = den ∧ q % 2 = 1) then q + 1 else q

/-- The finite number nearest to a positive quotient, or infinity. -/
def ofQuotient (negative : Bool) (num den : Nat) : Binary64 :=
  let low : Int := max minExponent ((num.log2 : Int) - den.log2 - 53)
  let scaled (e : Int) : Nat × Nat :=
    let (up, down) := powerOfTwo e
    (num * down, den * up)
  let (n, d) := scaled low
  let e := if Nat.pow 2 53 ≤ n / d then low + 1 else low
  let (n, d) := scaled e
  let m := roundQuotient n d
  let (m, e) := if m = Nat.pow 2 53 then (Nat.pow 2 52, e + 1) else (m, e)
  if maxExponent < e then infinite negative else finite negative m e

/-- The number of decimal digits of a number. -/
def digitCount (n : Nat) : Nat := (Nat.toDigits 10 n).length

/-- The number nearest to `digits · 10 ^ exponent`.  A decimal of which its size alone tells that
it is out of range is not computed. -/
def nearest (negative : Bool) (digits : Nat) (exponent : Int) : Binary64 :=
  let size := digitCount digits + exponent
  if digits = 0 ∨ size < -330 then finite negative 0 minExponent
  else if 310 < size then infinite negative
  else
    let (up, down) := powerOfTen exponent
    ofQuotient negative (digits * up) down

end Binary64

end EmbeddedJsx
