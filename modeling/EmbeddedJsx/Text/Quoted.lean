import EmbeddedJsx.Text.Hex
import EmbeddedJsx.Text.UnprintableRanges

/-!
# Quoted text

A text is shown between quotes on one line.  Single quotes are used unless the text holds a
single quote and no double quote.  The quote in use and the backslash are preceded by a
backslash, the line feed, the carriage return and the tab are written `\n`, `\r` and `\t`, and
every other unprintable character is written by its number, in two, four or eight hexadecimal
digits.
-/

namespace EmbeddedJsx.Text

/-- Whether a character is shown as it is. -/
def isPrintable (c : Char) : Bool :=
  !unprintableRanges.has c

namespace Quoted

/-- The quote that surrounds a text. -/
def quoteFor (text : List Char) : Char :=
  if text.contains '\'' && !text.contains '"' then '"' else '\''

/-- An unprintable character written by its number, as short as the number allows. -/
def byNumber (c : Char) : List Char :=
  if c.toNat < 0x100 then '\\' :: 'x' :: hex 2 c.toNat
  else if c.toNat < 0x10000 then '\\' :: 'u' :: hex 4 c.toNat
  else '\\' :: 'U' :: hex 8 c.toNat

/-- What is written for one character between the given quotes. -/
def escape (quote c : Char) : List Char :=
  if c = quote ∨ c = '\\' then ['\\', c]
  else if c = '\n' then ['\\', 'n']
  else if c = '\r' then ['\\', 'r']
  else if c = '\t' then ['\\', 't']
  else if isPrintable c then [c]
  else byNumber c

/-- A text between its quotes. -/
def encode (text : List Char) : List Char :=
  quoteFor text :: (text.flatMap (escape (quoteFor text)) ++ [quoteFor text])

theorem quoteFor_eq (text : List Char) : quoteFor text = '"' ∨ quoteFor text = '\'' := by
  unfold quoteFor; split <;> simp

end Quoted

/-- A string between its quotes. -/
def quoted (text : String) : String :=
  String.ofList (Quoted.encode text.toList)

end EmbeddedJsx.Text
