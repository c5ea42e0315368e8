import EmbeddedJsx.Session

/-!
# Diagnostics for editors

Each time a document is opened or changed, its whole text is read again and what is wrong with it
is published under its address.  Reading stops at the first failure, so there is at most one
diagnostic.  Lines and characters count from zero, and characters are code points.

Where the texts of documents are kept is left open: whoever keeps them says what text there is under
an address.
-/

namespace EmbeddedJsx

/-- A place in a document, counted from zero. -/
structure Diagnostic.Place where
  /-- The number of line feeds before the place. -/
  line : Nat
  /-- The number of characters between the last line feed and the place. -/
  character : Nat
deriving DecidableEq, Repr

/-- What is wrong with a document. -/
structure Diagnostic where
  /-- Where the faulty part begins. -/
  start : Diagnostic.Place
  /-- Where the faulty part ends. -/
  stop : Diagnostic.Place
  /-- Why the document cannot be read. -/
  message : String
  /-- How severe that is, as editors number it. -/
  severity : Nat
  /-- Who says so. -/
  source : String
deriving DecidableEq, Repr

/-- The number of the severity of errors, the highest of four. -/
def Diagnostic.errorSeverity : Nat := 1

/-- The name under which diagnostics are published. -/
def Diagnostic.publisher : String := "jsxparse"

/-- A position counted from zero. -/
def Diagnostic.Place.ofPosition (p : Position) : Place := ⟨p.line - 1, p.column - 1⟩

/-- The diagnostic of a failure to read the given text. -/
def SyntaxError.diagnostic (error : SyntaxError) (text : String) : Diagnostic where
  start := .ofPosition (.ofOffset text.toList error.span.start)
  stop := .ofPosition (.ofOffset text.toList error.span.stop)
  message := error.fault.message
  severity := Diagnostic.errorSeverity
  source := Diagnostic.publisher

/-- What is published for the text of a document. -/
def diagnostics (text : String) : List Diagnostic :=
  match parse text with
  | .ok _ => []
  | .error error => [error.diagnostic text]

/-- What an editor is told about a document.  It replaces what the editor was told before. -/
structure Publication where
  /-- The address of the document. -/
  uri : String
  /-- All that is wrong with the document. -/
  diagnostics : List Diagnostic
deriving DecidableEq, Repr

/-- All that is published when the document under an address has been opened or has changed, given
the texts of the documents under their addresses. -/
def validate (texts : String → String) (uri : String) : List Publication :=
  [⟨uri, diagnostics (texts uri)⟩]

end EmbeddedJsx
