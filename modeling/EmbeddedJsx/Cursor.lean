import EmbeddedJsx.Fault

/-!
# Cursors

A cursor is a place in a text together with the token that was read last.  It holds the
characters of that token and the text after it, so that everything that is read later is a
function of the cursor alone; the offset only labels what is read.

`Cursor.next` reads a token, and `Cursor.nextChild` first passes over raw text.  Both answer
with the cursor that they leave behind also when they fail, for reading may go on after a
failure.
-/

namespace EmbeddedJsx

/-- A place in a text and the token read last. -/
structure Cursor where
  /-- The kind of the token, if one has been read. -/
  token : Option TokenKind
  /-- The offset at which the token, or what a failure is about, begins. -/
  start : Nat
  /-- The characters of the token. -/
  lexeme : List Char
  /-- The text after the token. -/
  rest : List Char
deriving DecidableEq, Repr

/-- What an operation on a cursor leads to: the cursor that it leaves behind, with an answer or
with a failure. -/
abbrev Cursor.Step (α : Type) := EStateM.Result SyntaxError Cursor α

namespace Cursor

/-- The cursor before the first token of a text. -/
def ofText (text : List Char) : Cursor := ⟨none, 0, [], text⟩

/-- The offset after the token. -/
def stop (c : Cursor) : Nat := c.start + c.lexeme.length

/-- The span of the token. -/
def span (c : Cursor) : Span := ⟨c.start, c.stop⟩

theorem start_le_stop (c : Cursor) : c.start ≤ c.stop := Nat.le_add_right _ _

/-- A failure that is about what the cursor spans. -/
def fail {α : Type} (c : Cursor) (fault : Fault) : Step α :=
  .error ⟨fault, c.span⟩ c

/-- The cursor with no more than its place left. -/
def emptied (c : Cursor) : Cursor := { c with start := c.stop, lexeme := [] }

@[simp] theorem stop_emptied (c : Cursor) : c.emptied.stop = c.stop := by
  simp [emptied, stop]

/-- Where a cursor goes on what was found after the given number of skipped characters. -/
def proceed (c : Cursor) : Nat × Found → Step TokenKind
  | (skipped, .token kind lexeme rest) =>
    .ok kind ⟨some kind, c.stop + skipped, lexeme, rest⟩
  | (skipped, .truncated cause lexeme) =>
    fail ⟨c.token, c.stop + skipped, lexeme, []⟩ (.truncated cause)
  | (skipped, .loneSlash lexeme rest) =>
    fail ⟨some .malformed, c.stop + skipped, lexeme, rest⟩ .loneSlash
  | (skipped, .nothing) =>
    fail ⟨some .endOfInput, c.stop + skipped, [], []⟩ .endOfInput

/-- Reads the next token. -/
def next (c : Cursor) : Step TokenKind :=
  if c.token = some .endOfInput then c.emptied.fail .noTokensLeft
  else c.proceed (scan c.rest)

/-- The characters of raw text: all but those with which markup and expressions begin. -/
def isRaw (c : Char) : Bool := c != '<' && c != '{'

/-- The raw text after the token. -/
def raw (c : Cursor) : List Char := c.rest.takeWhile isRaw

/-- The cursor after the raw text that follows the token. -/
def skipRaw (c : Cursor) : Cursor :=
  { c with
    start := c.stop + c.raw.length
    lexeme := []
    rest := c.rest.dropWhile isRaw }

/-- Reads the next token after raw text. -/
def nextChild (c : Cursor) : Step TokenKind := c.skipRaw.next

end Cursor

end EmbeddedJsx
