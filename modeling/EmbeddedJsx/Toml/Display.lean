import EmbeddedJsx.Decimal.Shortest
import EmbeddedJsx.Text.Numeral
import EmbeddedJsx.Text.Quoted
import EmbeddedJsx.Toml.Value

/-!
# How TOML values are shown in messages

Not every value that can be read can be shown: an integer that is written with another base than ten
may have too many decimal digits, and tables that are made by dotted keys may be nested more deeply
than values can be that are nested as they are written.
-/

namespace EmbeddedJsx.Toml

open Text

/-- Why a value cannot be shown. -/
inductive Unshown where
  /-- An integer in it has too many digits. -/
  | hugeInteger
  /-- It is nested too deeply. -/
  | tooDeep
deriving DecidableEq, Repr

/-- How a failure to show a value is worded. -/
def Unshown.message : Unshown → String
  | hugeInteger =>
    "Exceeds the limit (4300 digits) for integer string conversion; " ++
      "use sys.set_int_max_str_digits() to increase the limit"
  | tooDeep => "maximum recursion depth exceeded while getting the repr of an object"

/-- How an integer is shown, which may not have too many digits. -/
def integerText (value : Int) : Except Unshown String :=
  if maxDigits < (Nat.toDigits 10 value.natAbs).length then .error .hugeInteger
  else .ok (toString value)

/-- Numbers in parentheses after a word. -/
def call (word : String) (arguments : List String) : String :=
  word ++ "(" ++ ", ".intercalate arguments ++ ")"

/-- The fields of a time of day that are shown: seconds and their fractions only where they are
not zero. -/
def Time.fields (t : Time) : List Nat :=
  if t.microsecond ≠ 0 then [t.hour, t.minute, t.second, t.microsecond]
  else if t.second ≠ 0 then [t.hour, t.minute, t.second]
  else [t.hour, t.minute]

/-- The fields of a day. -/
def Date.fields (d : Date) : List Nat := [d.year, d.month, d.day]

/-- How an offset from universal time is shown: as a number of seconds that is not negative and,
for places behind universal time, a day less. -/
def offsetText (minutes : Int) : String :=
  if minutes = 0 then "datetime.timezone.utc"
  else
    let span :=
      if minutes < 0 then
        call "datetime.timedelta" ["days=-1", "seconds=" ++ toString (86400 + 60 * minutes)]
      else call "datetime.timedelta" ["seconds=" ++ toString (60 * minutes)]
    call "datetime.timezone" [span]

/-- How a day with a time of day is shown. -/
def dateTimeText (d : Date) (t : Time) (offset : Option Int) : String :=
  call "datetime.datetime"
    ((d.fields ++ t.fields).map toString ++
      (offset.map fun minutes => "tzinfo=" ++ offsetText minutes).toList)

mutual

/-- How a value is shown in which at most the given number of values are nested in one another, the
value itself among them. -/
def Value.shown : (levels : Nat) → Value → Except Unshown String
  | 0, _ => .error .tooDeep
  | _ + 1, .string value => .ok (quoted value)
  | _ + 1, .integer value => integerText value
  | _ + 1, .float value => .ok value.text
  | _ + 1, .boolean value => .ok (if value then "True" else "False")
  | _ + 1, .date value => .ok (call "datetime.date" (value.fields.map toString))
  | _ + 1, .time value => .ok (call "datetime.time" (value.fields.map toString))
  | _ + 1, .dateTime date time offset => .ok (dateTimeText date time offset)
  | levels + 1, .array items => do
    let texts ← shownItems levels items
    return "[" ++ ", ".intercalate texts ++ "]"
  | levels + 1, .table members => do
    let texts ← shownMembers levels members
    return "\x7b" ++ ", ".intercalate texts ++ "\x7d"

/-- How the items of a list are shown. -/
def shownItems (levels : Nat) : List Value → Except Unshown (List String)
  | [] => .ok []
  | item :: items => do
    let text ← item.shown levels
    let texts ← shownItems levels items
    return text :: texts

/-- How the members of a table are shown. -/
def shownMembers (levels : Nat) : List (String × Value) → Except Unshown (List String)
  | [] => .ok []
  | (key, value) :: members => do
    let text ← value.shown levels
    let texts ← shownMembers levels members
    return (quoted key ++ ": " ++ text) :: texts

end

end EmbeddedJsx.Toml
