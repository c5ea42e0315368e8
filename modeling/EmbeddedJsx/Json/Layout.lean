import EmbeddedJsx.Json
import EmbeddedJsx.Text.Hex

/-!
# Writing JSON

A value is laid out with every item and every member on a line of its own, indented by a fixed
number of spaces for each list and object around it; a width that is not positive leaves the
lines without indentation.  Only ASCII characters are written: any other character stands as an
escape with four hexadecimal digits, or as two of them, one for each UTF-16 unit.
-/

namespace EmbeddedJsx.Json

open Text

/-- The escape of one UTF-16 unit. -/
def unitEscape (unit : Nat) : List Char := '\\' :: 'u' :: hex 4 unit

/-- The escape of a character by its one or two UTF-16 units. -/
def unitEscapes (c : Char) : List Char :=
  if c.toNat < 0x10000 then unitEscape c.toNat
  else
    unitEscape (0xd800 + (c.toNat - 0x10000) / 0x400) ++
      unitEscape (0xdc00 + (c.toNat - 0x10000) % 0x400)

/-- What is written in a string for one character. -/
def escape (c : Char) : List Char :=
  if c = '"' ∨ c = '\\' then ['\\', c]
  else if c = '\n' then ['\\', 'n']
  else if c = '\r' then ['\\', 'r']
  else if c = '\t' then ['\\', 't']
  else if c = '\x08' then ['\\', 'b']
  else if c = '\x0c' then ['\\', 'f']
  else if ' ' ≤ c ∧ c ≤ '~' then [c]
  else unitEscapes c

/-- A string as JSON. -/
def stringText (s : String) : List Char :=
  '"' :: (s.toList.flatMap escape ++ ['"'])

/-- The beginning of a line at a level of indentation. -/
def newline (width level : Nat) : List Char :=
  '\n' :: List.replicate (width * level) ' '

/-- Puts the written items of a list or an object between brackets. -/
def enclose (width level : Nat) (left right : Char) : List (List Char) → List Char
  | [] => [left, right]
  | item :: items =>
    left :: (newline width (level + 1) ++ item ++
      items.flatMap (fun i => ',' :: (newline width (level + 1) ++ i)) ++
      newline width level ++ [right])

mutual

/-- A value that begins at a level of indentation. -/
def text (width level : Nat) : Json → List Char
  | null => ['n', 'u', 'l', 'l']
  | bool true => ['t', 'r', 'u', 'e']
  | bool false => ['f', 'a', 'l', 's', 'e']
  | int value => (toString value).toList
  | string value => stringText value
  | array items => enclose width level '[' ']' (itemTexts width (level + 1) items)
  | object members => enclose width level '{' '}' (memberTexts width (level + 1) members)

/-- The items of a list, each as it is written. -/
def itemTexts (width level : Nat) : List Json → List (List Char)
  | [] => []
  | item :: items => text width level item :: itemTexts width level items

/-- The members of an object, each as it is written. -/
def memberTexts (width level : Nat) : List (String × Json) → List (List Char)
  | [] => []
  | (name, value) :: members =>
    (stringText name ++ ':' :: ' ' :: text width level value) :: memberTexts width level members

end

/-- A value laid out with the given indentation. -/
def layout (indent : Int) (value : Json) : String :=
  String.ofList (text indent.toNat 0 value)

end EmbeddedJsx.Json
