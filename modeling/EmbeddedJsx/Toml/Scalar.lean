import EmbeddedJsx.Text.Hex
import EmbeddedJsx.Text.Numeral
import EmbeddedJsx.Toml.Value

/-!
# TOML strings, numbers, days and times

Each reader takes the text at which a value may begin and answers with the value and the text
after it.  Line ends are line feeds throughout.
-/

namespace EmbeddedJsx.Toml

open Text

/-- A value that was read and the text after it. -/
abbrev Parsed (α : Type) := α × List Char

/-! ## Strings -/

/-- The blanks inside a line. -/
def isSpace (c : Char) : Bool := c == ' ' || c == '\t'

/-- The blanks inside a line and the line feed. -/
def isSpaceOrNewline (c : Char) : Bool := isSpace c || c == '\n'

/-- The control characters that may not stand in a line. -/
def isIllegal (c : Char) : Bool := (c < ' ' && c != '\t') || c == '\x7f'

/-- The control characters that may not stand in a text of several lines. -/
def isIllegalInLines (c : Char) : Bool := isIllegal c && c != '\n'

/-- The character whose number is given by as many hexadecimal digits as are asked for. -/
def hexCharacter? (size : Nat) (text : List Char) : Option (Parsed (List Char)) := do
  let digits ← (text.take size).mapM hexValue?
  let code := ofDigits 16 digits
  if digits.length = size ∧ code.isValidChar then
    some ([Char.ofNat code], text.drop size)
  else none

/-- The line feed that a backslash at the end of a line hides, with all blanks after it. -/
def hiddenNewline? (text : List Char) : Option (Parsed (List Char)) :=
  match text.dropWhile isSpace with
  | [] => some ([], [])
  | '\n' :: rest => some ([], rest.dropWhile isSpaceOrNewline)
  | _ => none

/-- What an escape stands for, given the text after its backslash. -/
def escape? (multiline : Bool) : List Char → Option (Parsed (List Char))
  | 'b' :: rest => some (['\x08'], rest)
  | 't' :: rest => some (['\t'], rest)
  | 'n' :: rest => some (['\n'], rest)
  | 'f' :: rest => some (['\x0c'], rest)
  | 'r' :: rest => some (['\r'], rest)
  | '"' :: rest => some (['"'], rest)
  | '\\' :: rest => some (['\\'], rest)
  | 'u' :: rest => hexCharacter? 4 rest
  | 'U' :: rest => hexCharacter? 8 rest
  | c :: rest => if multiline && isSpaceOrNewline c then hiddenNewline? (c :: rest) else none
  | [] => none

/-- The rest of a string with escapes on one line, after the given characters in reverse order,
through its closing quote. -/
def basicLine? : (steps : Nat) → (found : List Char) → List Char → Option (Parsed (List Char))
  | 0, _, _ => none
  | _, _, [] => none
  | _, found, '"' :: rest => some (found.reverse, rest)
  | steps + 1, found, '\\' :: rest => do
    let (chars, rest) ← escape? false rest
    basicLine? steps (chars.reverse ++ found) rest
  | steps + 1, found, c :: rest =>
    if isIllegal c then none else basicLine? steps (c :: found) rest

/-- The rest of a string with escapes on several lines, through its three closing quotes. -/
def basicLines? : (steps : Nat) → (found : List Char) → List Char → Option (Parsed (List Char))
  | 0, _, _ => none
  | _, _, [] => none
  | _, found, '"' :: '"' :: '"' :: rest => some (found.reverse, rest)
  | steps + 1, found, '\\' :: rest => do
    let (chars, rest) ← escape? true rest
    basicLines? steps (chars.reverse ++ found) rest
  | steps + 1, found, c :: rest =>
    if isIllegalInLines c then none else basicLines? steps (c :: found) rest

/-- The rest of a string without escapes on one line, through its closing quote. -/
def literalLine? (text : List Char) : Option (Parsed (List Char)) :=
  let content := text.takeWhile (· != '\'')
  match text.dropWhile (· != '\'') with
  | [] => none
  | _ :: rest => if content.any isIllegal then none else some (content, rest)

/-- The rest of a string without escapes on several lines, through its three closing quotes. -/
def literalLines? : List Char → Option (Parsed (List Char))
  | [] => none
  | '\'' :: '\'' :: '\'' :: rest => some ([], rest)
  | c :: rest =>
    if isIllegalInLines c then none
    else (literalLines? rest).map fun (content, rest) => (c :: content, rest)

/-- Adds up to two quotes that follow the three closing ones. -/
def withTrailingQuotes (quote : Char) : Parsed (List Char) → Parsed (List Char)
  | (content, c :: d :: rest) =>
    if c = quote then
      if d = quote then (content ++ [quote, quote], rest) else (content ++ [quote], d :: rest)
    else (content, c :: d :: rest)
  | (content, [c]) => if c = quote then (content ++ [quote], []) else (content, [c])
  | (content, []) => (content, [])

/-- A text without the line feed at its beginning. -/
def dropFirstNewline : List Char → List Char
  | '\n' :: rest => rest
  | text => text

/-- A string on one line, in quotes of either kind. -/
def stringOnLine? : List Char → Option (Parsed (List Char))
  | '"' :: rest => basicLine? (rest.length + 1) [] rest
  | '\'' :: rest => literalLine? rest
  | _ => none

/-- A string in quotes of any kind. -/
def string? : List Char → Option (Parsed (List Char))
  | '"' :: '"' :: '"' :: rest =>
    (basicLines? (rest.length + 1) [] (dropFirstNewline rest)).map (withTrailingQuotes '"')
  | '\'' :: '\'' :: '\'' :: rest =>
    (literalLines? (dropFirstNewline rest)).map (withTrailingQuotes '\'')
  | text => stringOnLine? text

/-! ## Days and times -/

/-- The value of a digit from `0` to `9`. -/
def digit? (c : Char) : Option Nat :=
  if isAsciiDigit c then some (c.toNat - '0'.toNat) else none

/-- A number of exactly the given number of digits, not above a limit. -/
def fixed? (size limit : Nat) (text : List Char) : Option (Parsed Nat) := do
  let digits ← (text.take size).mapM digit?
  let n := ofDigits 10 digits
  if digits.length = size ∧ n ≤ limit then some (n, text.drop size) else none

/-- The text after a character that has to stand there. -/
def after? (c : Char) : List Char → Option (List Char)
  | d :: rest => if c = d then some rest else none
  | [] => none

/-- A day written as year, month and day, the last two not above 12 and 31. -/
def date? (text : List Char) : Option (Parsed Date) := do
  let (year, text) ← fixed? 4 9999 text
  let text ← after? '-' text
  let (month, text) ← fixed? 2 12 text
  let text ← after? '-' text
  let (day, text) ← fixed? 2 31 text
  if month = 0 ∨ day = 0 then none else some (⟨year, month, day⟩, text)

/-- The millionths that the digits after a decimal point stand for; digits after the sixth do
not count. -/
def microseconds (digits : List Nat) : Nat :=
  ofDigits 10 ((digits ++ List.replicate 6 0).take 6)

/-- A time of day. -/
def time? (text : List Char) : Option (Parsed Time) := do
  let (hour, text) ← fixed? 2 23 text
  let text ← after? ':' text
  let (minute, text) ← fixed? 2 59 text
  let text ← after? ':' text
  let (second, text) ← fixed? 2 59 text
  match text with
  | '.' :: fraction =>
    match (fraction.takeWhile isAsciiDigit).filterMap digit? with
    | [] => some (⟨hour, minute, second, 0⟩, text)
    | digits =>
      some (⟨hour, minute, second, microseconds digits⟩, fraction.dropWhile isAsciiDigit)
  | _ => some (⟨hour, minute, second, 0⟩, text)

/-- A number of hours and minutes. -/
def hoursAndMinutes? (text : List Char) : Option (Parsed Nat) := do
  let (hours, text) ← fixed? 2 23 text
  let text ← after? ':' text
  let (minutes, text) ← fixed? 2 59 text
  return (60 * hours + minutes, text)

/-- An offset from universal time in minutes, if one stands there. -/
def offset (text : List Char) : Parsed (Option Int) :=
  match text with
  | 'Z' :: rest | 'z' :: rest => (some 0, rest)
  | '+' :: rest =>
    match hoursAndMinutes? rest with
    | some (minutes, rest) => (some minutes, rest)
    | none => (none, text)
  | '-' :: rest =>
    match hoursAndMinutes? rest with
    | some (minutes, rest) => (some (-minutes), rest)
    | none => (none, text)
  | _ => (none, text)

/-- Whether a day and a time of day may be joined by a character. -/
def isJoint (c : Char) : Bool := c == 'T' || c == 't' || c == ' '

/-- The time of day after a day, if one stands there. -/
def timeAfterDate? : List Char → Option (Parsed Time)
  | c :: rest => if isJoint c then time? rest else none
  | [] => none

/-- A day, perhaps with a time of day; the day has to exist. -/
def dated? (text : List Char) : Option (Except Fault (Parsed Value)) := do
  let (date, rest) ← date? text
  if date.isValid then
    match timeAfterDate? rest with
    | none => some (.ok (.date date, rest))
    | some (time, rest) =>
      let (offset, rest) := offset rest
      some (.ok (.dateTime date time offset, rest))
  else some (.error .invalid)

/-! ## Numbers -/

/-- The digits at the beginning of a text, between two of which a low line may stand. -/
def digitRun (value? : Char → Option Nat) : List Char → Parsed (List Nat)
  | '_' :: c :: rest =>
    match value? c with
    | some digit =>
      let (digits, rest) := digitRun value? rest
      (digit :: digits, rest)
    | none => ([], '_' :: c :: rest)
  | c :: rest =>
    match value? c with
    | some digit =>
      let (digits, rest) := digitRun value? rest
      (digit :: digits, rest)
    | none => ([], c :: rest)
  | [] => ([], [])

/-- One or more digits, between two of which a low line may stand. -/
def digitsFrom? (value? : Char → Option Nat) : List Char → Option (Parsed (List Nat))
  | c :: rest => do
    let digit ← value? c
    let (digits, rest) := digitRun value? rest
    return (digit :: digits, rest)
  | [] => none

/-- The value of a digit below a base. -/
def digitBelow? (base : Nat) (c : Char) : Option Nat :=
  (hexValue? c).filter (· < base)

/-- An integer in base sixteen, eight or two. -/
def based? : List Char → Option (Parsed Nat)
  | '0' :: mark :: rest => do
    let base ← match mark with
      | 'x' => some 16
      | 'o' => some 8
      | 'b' => some 2
      | _ => none
    let (digits, rest) ← digitsFrom? (digitBelow? base) rest
    return (ofDigits base digits, rest)
  | _ => none

/-- The digits before the decimal point; a zero stands alone. -/
def wholeDigits? : List Char → Option (Parsed (List Nat))
  | '0' :: rest => some ([0], rest)
  | text => digitsFrom? digit? text

/-- The digits after a decimal point, if there are any. -/
def fractionDigits (text : List Char) : Parsed (List Nat) :=
  match text with
  | '.' :: rest => (digitsFrom? digit? rest).getD ([], text)
  | _ => ([], text)

/-- A sign, if there is one, and whether it is a minus. -/
def sign : List Char → Parsed Bool
  | '+' :: rest => (false, rest)
  | '-' :: rest => (true, rest)
  | text => (false, text)

/-- The power of ten after the letter for it, if there is one. -/
def power? : List Char → Option (Parsed Int)
  | c :: rest =>
    if c = 'e' ∨ c = 'E' then do
      let (negative, rest) := sign rest
      let (digits, rest) ← digitsFrom? digit? rest
      let n : Int := ofDigits 10 digits
      return (if negative then -n else n, rest)
    else none
  | [] => none

/-- A decimal number: an integer, unless a fraction or a power of ten follows. -/
def decimal? (text : List Char) : Option (Except Fault (Parsed Value)) := do
  let (negative, text) := sign text
  let (whole, text) ← wholeDigits? text
  let (fraction, text) := fractionDigits text
  match fraction, power? text with
  | [], none =>
    if maxDigits < whole.length then some (.error (.hugeInteger whole.length))
    else
      let n : Int := ofDigits 10 whole
      some (.ok (.integer (if negative then -n else n), text))
  | fraction, power =>
    let (exponent, text) := power.getD (0, text)
    let value :=
      Binary64.nearest negative (ofDigits 10 (whole ++ fraction)) (exponent - fraction.length)
    some (.ok (.float value, text))

/-- A number that has a name. -/
def namedNumber? (text : List Char) : Option (Parsed Value) :=
  match sign text with
  | (negative, 'i' :: 'n' :: 'f' :: rest) => some (.float (.infinite negative), rest)
  | (_, 'n' :: 'a' :: 'n' :: rest) => some (.float .nan, rest)
  | _ => none

/-- A number, a day or a time of day. -/
def number? (text : List Char) : Option (Except Fault (Parsed Value)) :=
  (dated? text).orElse fun _ =>
    ((time? text).map fun (time, rest) => .ok (.time time, rest)).orElse fun _ =>
      ((based? text).map fun (n, rest) => .ok (.integer n, rest)).orElse fun _ =>
        (decimal? text).orElse fun _ => (namedNumber? text).map .ok

end EmbeddedJsx.Toml
