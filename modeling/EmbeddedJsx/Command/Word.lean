import EmbeddedJsx.Command.Usage
import EmbeddedJsx.Text.Numeral

/-!
# The words of a command line

Each argument is first looked at by itself: it is an option, perhaps with a value attached to
it, or a value.  An option may be abbreviated to any beginning that fits no other option.
-/

namespace EmbeddedJsx

open Text Usage

/-- What an argument is by itself. -/
inductive Word where
  /-- A value, of an option or the name of the input file. -/
  | value (text : String)
  /-- The mark after which all arguments are values. -/
  | separator
  /-- An option, the spelling that is meant, and the text attached to it. -/
  | option (flag : Flag) (spelling : String) (attached : Option (List Char))
  /-- Something that looks like an option but is none. -/
  | unknown (text : String)
deriving DecidableEq, Repr

namespace Word

/-- A word as it was given, where it is no option. -/
def text : Word → String
  | value text => text
  | separator => "--"
  | option _ spelling _ => spelling
  | unknown text => text

/-- Cuts a text at its first equals sign. -/
def cutAtEquals (text : List Char) : List Char × Option (List Char) :=
  match text.dropWhile (· != '=') with
  | [] => (text, none)
  | _ :: tail => (text.takeWhile (· != '='), some tail)

/-- The options that a text of two dashes and more may abbreviate. -/
def longCandidates (text : List Char) : List Word :=
  let (beginning, attached) := cutAtEquals text
  Flag.spelled.filterMap fun (spelling, flag) =>
    if beginning.isPrefixOf spelling.toList then some (option flag spelling attached) else none

/-- The options that a text of one dash and more may stand for: one of a single letter with its
value, or one that begins with the whole text. -/
def shortCandidates (text : List Char) : List Word :=
  Flag.spelled.filterMap fun (spelling, flag) =>
    if spelling.toList = text.take 2 then
      some (option flag spelling (some (text.drop 2)))
    else if text.isPrefixOf spelling.toList then some (option flag spelling none)
    else none

/-- The options that a text may stand for. -/
def candidates (text : List Char) : List Word :=
  match text with
  | '-' :: '-' :: _ => longCandidates text
  | _ => shortCandidates text

/-- What an argument is that begins with a dash, is more than one, and is no option as a
whole. -/
def ofDashed (text : List Char) : Except Misuse Word :=
  let whole := String.ofList text
  let (beginning, attached) := cutAtEquals text
  let named := if attached.isSome then Flag.ofSpelling? (String.ofList beginning) else none
  match named with
  | some flag => .ok (option flag (String.ofList beginning) attached)
  | none =>
    match candidates text with
    | [word] => .ok word
    | [] =>
      .ok (if looksNegative text || text.contains ' ' then value whole else unknown whole)
    | words => .error (.ambiguous whole (words.map Word.text))

/-- What an argument is by itself. -/
def ofArgument (argument : String) : Except Misuse Word :=
  match argument.toList with
  | '-' :: more =>
    match Flag.ofSpelling? argument with
    | some flag => .ok (option flag argument none)
    | none => if more = [] then .ok (value argument) else ofDashed ('-' :: more)
  | _ => .ok (value argument)

/-- What the arguments are by themselves, up to the first misuse. -/
def ofArguments : List String → Except Misuse (List Word)
  | [] => .ok []
  | "--" :: rest => .ok (separator :: rest.map value)
  | argument :: rest => do
    let word ← ofArgument argument
    let words ← ofArguments rest
    return word :: words

end Word

end EmbeddedJsx
