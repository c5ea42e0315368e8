import EmbeddedJsx.Fault
import EmbeddedJsx.Text.Lines

/-!
# Reports

A report is a message about a span of a named text.  It is shown as a block: the message, the
place where the span begins, the line of that place, and carets under the span.

The place counts line feeds only, while the line that is shown is taken from the text cut at
every line terminator.
-/

namespace EmbeddedJsx

open Text

/-- A message about a span of a named text.  The bounds of the span are kept as they are given,
also where they lie outside the text. -/
structure Report where
  /-- What is reported. -/
  message : String
  /-- Where the span begins. -/
  start : Int
  /-- Where the span ends. -/
  stop : Int
  /-- The whole text. -/
  source : String
  /-- The name of the text. -/
  filename : String
deriving DecidableEq, Repr

/-- The name of a text for which none is given. -/
def defaultFilename : String := "input.jsx"

/-- The report of a failure to read the given text. -/
def SyntaxError.report (error : SyntaxError) (source filename : String) : Report :=
  ⟨error.fault.message, error.span.start, error.span.stop, source, filename⟩

namespace Report

/-- The place where the span begins. -/
def position (r : Report) : Position := .ofOffset r.source.toList r.start

/-- The place where the span ends. -/
def endPosition (r : Report) : Position := .ofOffset r.source.toList r.stop

/-- The line that is shown; it is empty where the text has no line of that number. -/
def sourceLine (r : Report) : List Char :=
  ((lines r.source.toList)[r.position.line - 1]?).elim [] dropNewline

/-- The number of carets: as many as the span has characters if it ends on its first line, else
as many as reach the end of the line that is shown, and one at least. -/
def caretCount (r : Report) : Nat :=
  if r.endPosition.line = r.position.line then
    max 1 (r.endPosition.column - r.position.column)
  else
    max 1 (r.sourceLine.length + 1 - r.position.column)

/-- The rows of a block: a message, the place of a span, a line, and carets under the span. -/
def rows (message filename : String) (line column : Nat) (shown : List Char) (carets : Nat) :
    String :=
  let gutter := String.ofList (List.replicate ((toString line).length + 1) ' ')
  "error: " ++ message ++ "\n" ++
    gutter ++ "--> " ++ filename ++ ":" ++ toString line ++ ":" ++ toString column ++ "\n" ++
    gutter ++ "|\n" ++
    toString line ++ " | " ++ String.ofList shown ++ "\n" ++
    gutter ++ "| " ++ String.ofList (List.replicate (column - 1) ' ') ++
    String.ofList (List.replicate carets '^')

/-- The block under the given name of the text. -/
def blockAs (r : Report) (filename : String) : String :=
  rows r.message filename r.position.line r.position.column r.sourceLine r.caretCount

/-- The block under the report's own name of the text. -/
def block (r : Report) : String := r.blockAs r.filename

end Report

end EmbeddedJsx
