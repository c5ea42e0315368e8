import EmbeddedJsx.Production
import EmbeddedJsx.Text.Slice

/-!
# Reading with checks

A cursor carries the text that is left, and an excerpt carries what it reads.  A reader that has the
whole text at hand gets along with offsets: a mark holds the kind of the token read last and the two
offsets between which it stands, and what stands between two offsets is looked up in the text.

Such a reader takes three things for granted: that there is a token where one is asked for, that the
bounds of a slice are in order, and that a name has a first and a last part.  Here each of them is
checked where it is needed.  A check that fails is a breach, and ends the reading as a fault of the
text does.  Characters are looked at by the scanner alone, which first looks whether there is one.
-/

namespace EmbeddedJsx

/-- What is wrong if a reader has taken too much for granted. -/
inductive Breach where
  /-- There is no current token. -/
  | noToken
  /-- The bounds of a slice are in the wrong order. -/
  | reversed (range : Text.ReversedRange)
  /-- A part is asked for where there is none. -/
  | noPart
deriving DecidableEq, Repr

/-- Why a reader with checks ends without an answer. -/
inductive Halt where
  /-- The text is at fault, or the steps allowed are used up. -/
  | interrupted (interruption : Interruption)
  /-- A check has failed. -/
  | broken (breach : Breach)
deriving DecidableEq, Repr

/-- The token read last: its kind, if there is one, and where it stands. -/
structure Mark where
  /-- The kind of the token, if one has been read. -/
  token : Option TokenKind
  /-- The offset at which the token, or what a failure is about, begins. -/
  start : Nat
  /-- The offset after it, from which reading goes on. -/
  stop : Nat
deriving DecidableEq, Repr

/-- A reader of one construct that has the whole text at hand. -/
abbrev Checked (α : Type) := ReaderT (List Char) (EStateM Halt Mark) α

/-- A cursor without the characters that it carries. -/
def Cursor.mark (c : Cursor) : Mark := ⟨c.token, c.start, c.stop⟩

namespace Mark

/-- The mark before the first token of a text. -/
def beginning : Mark := ⟨none, 0, 0⟩

/-- The span of the token. -/
def span (m : Mark) : Span := ⟨m.start, m.stop⟩

/-- The cursor that goes on from a mark in the text. -/
def cursor (text : List Char) (m : Mark) : Cursor := ⟨m.token, m.stop, [], text.drop m.stop⟩

end Mark

namespace Checked

variable {α : Type}

/-! ### Ends -/

/-- Ends with a fault that lies at the given span. -/
def rejectAt (fault : Fault) (span : Span) : Checked α := fun _ m =>
  .error (.interrupted (.fault ⟨fault, span⟩)) m

/-- Ends with a fault that lies at the current token. -/
def reject (fault : Fault) : Checked α := fun _ m =>
  .error (.interrupted (.fault ⟨fault, m.span⟩)) m

/-- Ends because the steps allowed are used up. -/
def exhaust : Checked α := fun _ m => .error (.interrupted .exhausted) m

/-- Ends because a check has failed. -/
def fails (breach : Breach) : Checked α := fun _ m => .error (.broken breach) m

/-! ### Tokens -/

/-- The mark that has been reached. -/
def mark : Checked Mark := fun _ m => .ok m m

/-- The kind of the current token. -/
def kind : Checked (Option TokenKind) := fun _ m => .ok m.token m

/-- Whether the current token is of the given kind. -/
def sees (kind : TokenKind) : Checked Bool := fun _ m => .ok (m.token == some kind) m

/-- The current token.  There has to be one. -/
def current : Checked Excerpt := fun text m =>
  match m.token with
  | none => .error (.broken .noToken) m
  | some _ => .ok ⟨m.span, String.ofList (Text.slice text m.start m.stop)⟩ m

/-- The current token, which has to be of the given kind. -/
def expect (kind : TokenKind) (what : Expectation) : Checked Excerpt := do
  if ← sees kind then current else reject (.expected what)

/-- Goes where a step of the cursor leads, the end of the input being the given fault. -/
def ofStep (construct : Fault) (step : Cursor → Cursor.Step α) : Checked α := fun text m =>
  match step (m.cursor text) with
  | .ok a c => .ok a c.mark
  | .error error c => .error (.interrupted (.fault (error.inside construct))) c.mark

/-- Goes to the next token, which the construct needs. -/
def advance : Checked Unit := do
  let _ ← ofStep .unfinished Cursor.next

/-- Goes to the next token after raw text, which the construct needs. -/
def advanceChild : Checked TokenKind := ofStep .unclosed Cursor.nextChild

/-- Takes the current token, which has to be of the given kind, and goes on to the next. -/
def take (kind : TokenKind) (what : Expectation) : Checked Excerpt := do
  let token ← expect kind what
  advance
  return token

/-! ### Slices and parts -/

/-- What the text has at the given span, the bounds of which have to be in order. -/
def slice (span : Span) : Checked (List Char) := fun text m =>
  match Text.orderedSlice text span.start span.stop with
  | .ok content => .ok content m
  | .error range => .error (.broken (.reversed range)) m

/-- A part that has to be there. -/
def part : Option Excerpt → Checked Excerpt
  | some e => return e
  | none => fails .noPart

end Checked

end EmbeddedJsx
