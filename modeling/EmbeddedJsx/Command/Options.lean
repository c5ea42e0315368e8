import EmbeddedJsx.Command.Arguments
import EmbeddedJsx.Command.Settings
import EmbeddedJsx.Files.Path

/-!
# Options

What is to be done is settled by the command line first, then by the file with settings, and
last by defaults.  Of several ways in which the command line chooses a format, naming it comes
first and `--json` second.

A format or an indentation that the command line blanks out is settled by that, and neither the
settings nor a default take its place.  The input is then rendered as an outline, and JSON cannot
be indented.
-/

namespace EmbeddedJsx

/-- What is to be done. -/
structure Options where
  /-- The file to read. -/
  input : Path
  /-- The file to write, if it is not the standard output. -/
  output : Option Path
  /-- The form in which the input is rendered. -/
  format : Given Format
  /-- The indentation of JSON. -/
  indent : Given Indent
deriving DecidableEq, Repr

/-- The form in which the input is rendered, where the one that was blanked out is an outline. -/
def Options.shownFormat (o : Options) : Format := o.format.toOption.getD .tree

namespace Arguments

/-- The path that an argument names; an empty argument names none. -/
def path? (argument : Option String) : Option Path :=
  (argument.filter (· ≠ "")).map Path.ofString

/-- The path of the input file. -/
def inputPath (a : Arguments) : Path := .ofString a.input

/-- The path of the file with settings: unless it is named, it is expected beside the input. -/
def settingsPath (a : Arguments) : Path :=
  (path? a.config).getD (a.inputPath.parent.child "jsxparse.toml")

/-- The format that the command line chooses. -/
def chosenFormat (a : Arguments) : Option (Given Format) :=
  a.format.or
    (if a.json then some (.value .json) else if a.tokens then some (.value .tokens) else none)

/-- What is to be done, given the settings. -/
def resolve (a : Arguments) (s : Settings) : Options where
  input := a.inputPath
  output := path? a.output
  format := (a.chosenFormat.or (s.format.map .value)).getD (.value .tree)
  indent := ((a.indent.map (·.map Indent.number)).or (s.indent.map .value)).getD
    (.value (.number 2))

end Arguments

end EmbeddedJsx
