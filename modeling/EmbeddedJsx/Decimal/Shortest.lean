import EmbeddedJsx.Decimal.Binary64

/-!
# The shortest decimal that reads back

A finite number is written with the fewest digits that are still read back as it; of two such
decimals the nearer one is taken, and of two equally near ones the even one.  Numbers from
`10 ^ -4` to below `10 ^ 16` are written positionally, others with an exponent of at least two
digits, and a number without fraction gets `.0`.
-/

namespace EmbeddedJsx.Binary64

/-- A decimal `digits · 10 ^ exponent`. -/
structure Decimal where
  /-- The digits as one number. -/
  digits : Nat
  /-- The power of ten. -/
  exponent : Int
deriving DecidableEq, Repr

/-- The decimals that are read back as one positive number: those from `low / (4 · den)` to
`high / (4 · den)`, the bounds included or not. -/
structure Neighbourhood where
  /-- Four times the numerator of the number. -/
  value : Nat
  /-- Four times the numerator of the lower bound. -/
  low : Nat
  /-- Four times the numerator of the upper bound. -/
  high : Nat
  /-- Four times the denominator. -/
  den : Nat
  /-- Whether the bounds belong to it. -/
  closed : Bool

/-- The neighbourhood of `mantissa · 2 ^ exponent`.  Below a power of two the numbers lie twice
as close. -/
def neighbourhood (mantissa : Nat) (exponent : Int) : Neighbourhood :=
  let (up, down) := powerOfTwo exponent
  let below := if mantissa = Nat.pow 2 52 ∧ minExponent < exponent then 1 else 2
  { value := 4 * mantissa * up
    low := (4 * mantissa - below) * up
    high := (4 * mantissa + 2) * up
    den := 4 * down
    closed := mantissa % 2 == 0 }

namespace Neighbourhood

/-- Whether `c · num / den` lies in a neighbourhood. -/
def contains (a : Neighbourhood) (num den c : Nat) : Bool :=
  let point := c * num * a.den
  if a.closed then a.low * den ≤ point && point ≤ a.high * den
  else a.low * den < point && point < a.high * den

/-- The decimal with the given power of ten that lies in a neighbourhood and is nearest to its
number. -/
def onGrid? (a : Neighbourhood) (exponent : Int) : Option Decimal :=
  let (num, den) := powerOfTen exponent
  let down := a.value * den / (a.den * num)
  let up := down + 1
  match a.contains num den down, a.contains num den up with
  | false, false => none
  | true, false => some ⟨down, exponent⟩
  | false, true => some ⟨up, exponent⟩
  | true, true =>
    let toDown := a.value * den - down * num * a.den
    let toUp := up * num * a.den - a.value * den
    some ⟨if toDown < toUp ∨ (toDown = toUp ∧ down % 2 = 0) then down else up, exponent⟩

/-- The number of digits before the decimal point of the number of a neighbourhood, negative
where zeros follow the point. -/
def magnitude (a : Neighbourhood) : Int :=
  (digitCount (a.value * Nat.pow 10 400 / a.den) : Int) - 400

/-- The shortest decimal in a neighbourhood, of at least the given number of digits. -/
def shortest (a : Neighbourhood) : (more digits : Nat) → Decimal
  | 0, digits => ⟨a.value * Nat.pow 10 digits / a.den, -digits⟩
  | more + 1, digits =>
    match a.onGrid? (a.magnitude - digits) with
    | some d => d
    | none => shortest a more (digits + 1)

end Neighbourhood

/-- The significant digits of a decimal and the place of its decimal point among them. -/
def Decimal.layout (d : Decimal) : List Char × Int :=
  let digits := Nat.toDigits 10 d.digits
  ((digits.reverse.dropWhile (· == '0')).reverse, digits.length + d.exponent)

/-- Writes significant digits with the decimal point at a place. -/
def positional (digits : List Char) (point : Int) : List Char :=
  if point ≤ 0 then ['0', '.'] ++ List.replicate point.natAbs '0' ++ digits
  else if point < digits.length then
    digits.take point.toNat ++ '.' :: digits.drop point.toNat
  else digits ++ List.replicate (point.toNat - digits.length) '0' ++ ['.', '0']

/-- Writes significant digits with an exponent. -/
def scientific (digits : List Char) (point : Int) : List Char :=
  let e := point - 1
  let magnitude := Nat.toDigits 10 e.natAbs
  let fraction := if digits.length ≤ 1 then [] else '.' :: digits.drop 1
  digits.take 1 ++ fraction ++ ['e', if e < 0 then '-' else '+'] ++
    List.replicate (2 - magnitude.length) '0' ++ magnitude

/-- Writes a number that is not negative. -/
def magnitudeText (mantissa : Nat) (exponent : Int) : List Char :=
  if mantissa = 0 then ['0', '.', '0']
  else
    let (digits, point) := ((neighbourhood mantissa exponent).shortest 17 1).layout
    if -4 < point ∧ point ≤ 16 then positional digits point else scientific digits point

/-- Writes a number. -/
def text : Binary64 → String
  | nan => "nan"
  | infinite negative => if negative then "-inf" else "inf"
  | finite negative mantissa exponent =>
    String.ofList ((if negative then ['-'] else []) ++ magnitudeText mantissa exponent)

end EmbeddedJsx.Binary64
