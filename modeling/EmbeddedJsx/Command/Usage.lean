import EmbeddedJsx.Command.Flag
import EmbeddedJsx.Text.Quoted

/-!
# Usage and misuse

The texts that explain the command line, and what may be wrong with arguments.
-/

namespace EmbeddedJsx.Usage

open Text

/-- How the program is called. -/
def synopsis : String :=
  "usage: jsxparse [-h] [-o OUTPUT] [-f \x7btree,json,tokens\x7d] [--json] [--tokens]\n" ++
  "                [--indent N] [--config FILE]\n" ++
  "                input\n"

/-- What the program and its options do. -/
def help : String :=
  synopsis ++
  "\n" ++
  "Parse JSX markup embedded in source files\n" ++
  "\n" ++
  "positional arguments:\n" ++
  "  input                 Input source file\n" ++
  "\n" ++
  "options:\n" ++
  "  -h, --help            show this help message and exit\n" ++
  "  -o OUTPUT, --output OUTPUT\n" ++
  "                        Output file (default: stdout)\n" ++
  "  -f \x7btree,json,tokens\x7d, --format \x7btree,json,tokens\x7d\n" ++
  "                        Output format (default: tree)\n" ++
  "  --json                Shorthand for --format json\n" ++
  "  --tokens              Shorthand for --format tokens\n" ++
  "  --indent N            JSON indentation (default: 2)\n" ++
  "  --config FILE         Config file (default: auto-discover jsxparse.toml)\n"

/-- What may be wrong with arguments. -/
inductive Misuse where
  /-- The beginning of an option fits several options. -/
  | ambiguous (word : String) (candidates : List String)
  /-- An option stands without its value. -/
  | missingValue (flag : Flag)
  /-- A value is attached to an option that takes none. -/
  | unwantedValue (flag : Flag) (value : String)
  /-- There is no format of that name. -/
  | unknownFormat (value : String)
  /-- The indentation is not an integer. -/
  | badIndent (value : String)
  /-- No input file is named. -/
  | missingInput
  /-- Some arguments have no meaning. -/
  | unrecognized (words : List String)
deriving DecidableEq, Repr

/-- How misuse of an option is worded. -/
def aboutFlag (flag : Flag) (message : String) : String :=
  "argument " ++ flag.title ++ ": " ++ message

/-- How misuse is worded. -/
def Misuse.message : Misuse → String
  | ambiguous word candidates =>
    "ambiguous option: " ++ word ++ " could match " ++ ", ".intercalate candidates
  | missingValue flag => aboutFlag flag "expected one argument"
  | unwantedValue flag value => aboutFlag flag ("ignored explicit argument " ++ quoted value)
  | unknownFormat value =>
    aboutFlag .format
      ("invalid choice: " ++ quoted value ++ " (choose from " ++
        ", ".intercalate (Format.all.map fun f => quoted f.label) ++ ")")
  | badIndent value => aboutFlag .indent ("invalid int value: " ++ quoted value)
  | missingInput => "the following arguments are required: input"
  | unrecognized words => "unrecognized arguments: " ++ " ".intercalate words

/-- How misuse is reported. -/
def Misuse.report (misuse : Misuse) : String :=
  synopsis ++ "jsxparse: error: " ++ misuse.message ++ "\n"

end EmbeddedJsx.Usage
