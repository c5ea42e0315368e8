import EmbeddedJsx.Command.Given
import EmbeddedJsx.Command.Word

/-!
# Reading the command line

Options take effect one after the other, in the order in which they stand, and values that
belong to no option are the name of the input file or have no meaning.  The first misuse ends
the reading, and so does a request for help.

Options of one letter may be written in one word, if all but the last of them take no value.
-/

namespace EmbeddedJsx

open Text Usage

/-- What a command line says. -/
structure Arguments where
  /-- The name of the input file. -/
  input : String
  /-- The name of the file to write to. -/
  output : Option String
  /-- The format chosen by name. -/
  format : Option (Given Format)
  /-- Whether the format `json` is chosen. -/
  json : Bool
  /-- Whether the format `tokens` is chosen. -/
  tokens : Bool
  /-- The indentation of JSON. -/
  indent : Option (Given Int)
  /-- The name of the file with settings. -/
  config : Option String
deriving DecidableEq, Repr

/-- Why no command line is to be carried out. -/
inductive Arguments.Halt where
  /-- Help is asked for. -/
  | help
  /-- The arguments are wrong. -/
  | misuse (misuse : Misuse)
deriving DecidableEq, Repr

namespace Arguments

/-- What has been read of a command line. -/
structure Partial where
  /-- The name of the input file, once it has been met. -/
  input : Option String
  /-- What the options say, under an input that is not looked at. -/
  options : Arguments
  /-- The arguments without meaning, in order. -/
  extras : List String
deriving Repr

/-- Nothing read yet. -/
def Partial.empty : Partial :=
  ⟨none, ⟨"", none, none, false, false, none, none⟩, []⟩

/-- An option and what it is given; one that takes no value holds none. -/
abbrev Use := Flag × Given String

/-- Lets an option take effect. -/
def Partial.apply (p : Partial) : Use → Except Halt Partial
  | (.help, _) => .error .help
  | (.output, given) => .ok { p with options := { p.options with output := given.toOption } }
  | (.format, .blank) => .ok { p with options := { p.options with format := some .blank } }
  | (.format, .value word) =>
    match Format.ofLabel? word with
    | some format => .ok { p with options := { p.options with format := some (.value format) } }
    | none => .error (.misuse (.unknownFormat word))
  | (.json, _) => .ok { p with options := { p.options with json := true } }
  | (.tokens, _) => .ok { p with options := { p.options with tokens := true } }
  | (.indent, .blank) => .ok { p with options := { p.options with indent := some .blank } }
  | (.indent, .value numeral) =>
    match integer? numeral.toList with
    | some n => .ok { p with options := { p.options with indent := some (.value n) } }
    | none => .error (.misuse (.badIndent numeral))
  | (.config, given) => .ok { p with options := { p.options with config := given.toOption } }

/-- Lets several options take effect. -/
def Partial.applyAll (p : Partial) : List Use → Except Halt Partial
  | [] => .ok p
  | use :: uses => do (← p.apply use).applyAll uses

/-- The options written in one word. -/
structure Bundle where
  /-- The options that need nothing more, all but the last of which take no value. -/
  uses : List Use
  /-- The option after them that still needs a value from the next word. -/
  open? : Option Flag
deriving Repr

/-- Puts an option that takes no value in front of a bundle. -/
def Bundle.cons (flag : Flag) (b : Bundle) : Bundle := { b with uses := (flag, .blank) :: b.uses }

/-- The bundle of an option to which nothing is attached. -/
def Bundle.bare (flag : Flag) : Bundle :=
  if flag.takesValue then ⟨[], some flag⟩ else ⟨[(flag, .blank)], none⟩

/-- The bundle of an option that takes a value, given the text attached to it. -/
def Bundle.attached (flag : Flag) (text : List Char) : Bundle :=
  ⟨[(flag, .ofAttached text)], none⟩

/-- The bundle of an option of one letter that takes no value, given the text attached to it: the
text begins with the letter of a further option, to which the rest of the text is attached. -/
def bundleAfter (flag : Flag) : List Char → Except Misuse Bundle
  | [] => .error (.unwantedValue flag "")
  | letter :: rest =>
    match Flag.ofSpelling? (String.ofList ['-', letter]) with
    | none => .error (.unwantedValue flag (String.ofList (letter :: rest)))
    | some next =>
      if rest = [] then .ok (.cons flag (.bare next))
      else if next.takesValue then .ok (.cons flag (.attached next rest))
      else (bundleAfter next rest).map (Bundle.cons flag)

/-- The bundle of an option as it is written. -/
def bundle (flag : Flag) (spelling : String) : Option (List Char) → Except Misuse Bundle
  | none => .ok (.bare flag)
  | some text =>
    if flag.takesValue then .ok (.attached flag text)
    else if "--".toList.isPrefixOf spelling.toList then
      .error (.unwantedValue flag (String.ofList text))
    else bundleAfter flag text

/-- Reads the words after the last option: the first value is the name of the input file if none
has been met, and may have the separator on either side of it. -/
def Partial.finish (p : Partial) (words : List Word) : Partial :=
  match p.input, words with
  | none, .separator :: .value name :: rest =>
    { p with input := some name, extras := p.extras ++ rest.map Word.text }
  | none, .value name :: .separator :: rest =>
    { p with input := some name, extras := p.extras ++ rest.map Word.text }
  | none, .value name :: rest =>
    { p with input := some name, extras := p.extras ++ rest.map Word.text }
  | _, words => { p with extras := p.extras ++ words.map Word.text }

/-- Whether a word is written as an option. -/
def isOption : Word → Bool
  | .option _ _ _ | .unknown _ => true
  | _ => false

/-- Reads words from left to right. -/
def Partial.readAll (p : Partial) (words : List Word) : Except Halt Partial :=
  if words.any isOption then
    match words with
    | [] => .ok p
    | .value name :: rest =>
      match p.input with
      | none => { p with input := some name }.readAll rest
      | some _ => { p with extras := p.extras ++ [name] }.readAll rest
    | .separator :: rest => { p with extras := p.extras ++ ["--"] }.readAll rest
    | .unknown text :: rest => { p with extras := p.extras ++ [text] }.readAll rest
    | .option flag spelling attached :: rest =>
      match bundle flag spelling attached with
      | .error misuse => .error (.misuse misuse)
      | .ok b =>
        match b.open?, rest with
        | none, rest =>
          match p.applyAll b.uses with
          | .error halt => .error halt
          | .ok p => p.readAll rest
        | some open', .value value :: rest =>
          match p.applyAll (b.uses ++ [(open', .value value)]) with
          | .error halt => .error halt
          | .ok p => p.readAll rest
        | some open', _ => .error (.misuse (.missingValue open'))
  else .ok (p.finish words)

/-- Reads a command line. -/
def read (argv : List String) : Except Halt Arguments :=
  match Word.ofArguments argv with
  | .error misuse => .error (.misuse misuse)
  | .ok words =>
    match Partial.empty.readAll words with
    | .error halt => .error halt
    | .ok p =>
      match p.input, p.extras with
      | none, _ => .error (.misuse .missingInput)
      | some input, [] => .ok { p.options with input := input }
      | some _, extras => .error (.misuse (.unrecognized extras))

end Arguments

end EmbeddedJsx
