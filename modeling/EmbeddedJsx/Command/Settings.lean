import EmbeddedJsx.Command.Flag
import EmbeddedJsx.Command.Platform
import EmbeddedJsx.Text.Utf8
import EmbeddedJsx.Toml.Display
import EmbeddedJsx.Toml.Document

/-!
# Settings

A file with settings is a TOML document.  Its table `output` may set the format and the
indentation; everything else in it is left alone.
-/

namespace EmbeddedJsx

open Text

/-- An indentation: a number, or a truth value that counts as zero or one. -/
inductive Indent where
  /-- A number of spaces. -/
  | number (n : Int)
  /-- One space or none. -/
  | truth (value : Bool)
deriving DecidableEq, Repr

/-- The number of spaces that an indentation stands for. -/
def Indent.width : Indent → Int
  | number n => n
  | truth value => if value then 1 else 0

/-- What a file with settings sets. -/
structure Settings where
  /-- The format. -/
  format : Option Format
  /-- The indentation. -/
  indent : Option Indent
deriving DecidableEq, Repr

/-- What may be wrong with a file with settings. -/
inductive Settings.Fault where
  /-- Its bytes are not UTF-8. -/
  | encoding (fault : Utf8.Fault)
  /-- It is not TOML, which is explained. -/
  | notToml (explanation : String)
  /-- An integer in it has too many digits. -/
  | hugeInteger (digits : Nat)
  /-- Its arrays and inline tables are nested too deeply. -/
  | tooDeep
  /-- The format that it sets does not exist, as is shown. -/
  | unknownFormat (shown : String)
  /-- The format that it sets does not exist and cannot be shown. -/
  | unshown (fault : Toml.Unshown)
deriving DecidableEq, Repr

/-- How a fault in settings is reported. -/
def Settings.Fault.message : Settings.Fault → String
  | encoding fault => fault.message
  | notToml explanation => "invalid config file: " ++ explanation
  | hugeInteger digits =>
    "Exceeds the limit (4300 digits) for integer string conversion: value has " ++
      toString digits ++ " digits; use sys.set_int_max_str_digits() to increase the limit"
  | tooDeep => "maximum recursion depth exceeded"
  | unknownFormat shown =>
    "invalid output format in config: " ++ shown ++ " (expected one of " ++
      ", ".intercalate (Format.all.map Format.label) ++ ")"
  | unshown fault => fault.message

namespace Settings

/-- Nothing set. -/
def none : Settings := ⟨.none, .none⟩

/-- The format that a value stands for, if it stands for one. -/
def formatOf? : Toml.Value → Option Format
  | .string word => Format.ofLabel? word
  | _ => .none

/-- The format that a value stands for; a value that stands for none is shown. -/
def formatOf (platform : Platform) (value : Toml.Value) : Except Fault Format :=
  match formatOf? value with
  | some format => .ok format
  | .none =>
    match value.shown platform.shownDepth with
    | .ok shown => .error (.unknownFormat shown)
    | .error fault => .error (.unshown fault)

/-- The indentation that a value stands for; most values stand for none. -/
def indentOf : Toml.Value → Option Indent
  | .integer n => some (.number n)
  | .boolean value => some (.truth value)
  | _ => .none

/-- What a table sets. -/
def ofOutput (platform : Platform) (output : Toml.Table) : Except Fault Settings := do
  let format ← (output.lookup "format").mapM (formatOf platform)
  return ⟨format, (output.lookup "indent").bind indentOf⟩

/-- What a document sets. -/
def ofTable (platform : Platform) (document : Toml.Table) : Except Fault Settings :=
  match document.lookup "output" with
  | some (.table output) => ofOutput platform output
  | _ => .ok Settings.none

/-- What the bytes of a file set. -/
def ofBytes (platform : Platform) (bytes : List UInt8) : Except Fault Settings :=
  match Utf8.decode bytes with
  | .error fault => .error (.encoding fault)
  | .ok text =>
    match Toml.parse platform.settingsDepth text with
    | .error .invalid => .error (.notToml (platform.explain text))
    | .error (.hugeInteger digits) => .error (.hugeInteger digits)
    | .error .tooDeep => .error .tooDeep
    | .ok document => ofTable platform document

end Settings

end EmbeddedJsx
