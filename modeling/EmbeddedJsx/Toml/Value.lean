import EmbeddedJsx.Decimal.Binary64

/-!
# TOML values
-/

namespace EmbeddedJsx.Toml

/-- A day of the calendar. -/
structure Date where
  /-- The year, from 1 to 9999. -/
  year : Nat
  /-- The month, from 1 to 12. -/
  month : Nat
  /-- The day of the month, from 1. -/
  day : Nat
deriving DecidableEq, Repr

/-- A time of day. -/
structure Time where
  /-- The hour, from 0 to 23. -/
  hour : Nat
  /-- The minute, from 0 to 59. -/
  minute : Nat
  /-- The second, from 0 to 59. -/
  second : Nat
  /-- The millionths of a second. -/
  microsecond : Nat
deriving DecidableEq, Repr

namespace Date

/-- Whether a year has a twenty-ninth of February. -/
def isLeap (year : Nat) : Bool :=
  year % 4 == 0 && (year % 100 != 0 || year % 400 == 0)

/-- The number of days of a month. -/
def daysIn (year month : Nat) : Nat :=
  if month = 2 then (if isLeap year then 29 else 28)
  else if month = 4 ∨ month = 6 ∨ month = 9 ∨ month = 11 then 30
  else 31

/-- Whether there is such a day. -/
def isValid (d : Date) : Bool :=
  1 ≤ d.year && 1 ≤ d.month && d.month ≤ 12 && 1 ≤ d.day && d.day ≤ daysIn d.year d.month

end Date

/-- A value of a TOML document. -/
inductive Value where
  /-- A string. -/
  | string (value : String)
  /-- An integer. -/
  | integer (value : Int)
  /-- A floating-point number. -/
  | float (value : Binary64)
  /-- A truth value. -/
  | boolean (value : Bool)
  /-- A day. -/
  | date (value : Date)
  /-- A time of day. -/
  | time (value : Time)
  /-- A day and a time of day, with the offset from universal time in minutes if it is given. -/
  | dateTime (date : Date) (time : Time) (offset : Option Int)
  /-- A list of values. -/
  | array (items : List Value)
  /-- Values under keys, in the order in which the keys first occur. -/
  | table (members : List (String × Value))
deriving Repr

/-- Values under keys, in the order in which the keys first occur. -/
abbrev Table := List (String × Value)

/-- A sequence of keys that leads into a document. -/
abbrev Key := List String

/-- Why a document cannot be read. -/
inductive Fault where
  /-- It is not TOML. -/
  | invalid
  /-- A decimal integer has too many digits. -/
  | hugeInteger (digits : Nat)
  /-- Arrays and inline tables are nested too deeply. -/
  | tooDeep
deriving DecidableEq, Repr

end EmbeddedJsx.Toml
