import EmbeddedJsx.Production.Markup

/-!
# Reading a whole text

A session is a cursor with the markup collected so far.  What has been collected outlives a
failure, and reading may go on after one.
-/

namespace EmbeddedJsx

/-- How many levels deep elements and fragments may be nested.  The number stands for how many calls
may be open at a time, which leaves it open where between 60 and 1500 levels the limit lies. -/
def nestingLimit : Nat := 256

/-- A construct of the grammar, given the production for markup in it and the bound of loops. -/
abbrev Rule (α : Type) := (nested : Production Node) → (steps : Nat) → Production α

/-- A cursor and the markup collected so far. -/
structure Session where
  /-- Where reading stands. -/
  cursor : Cursor
  /-- The markup collected, in the order of the text. -/
  body : Array Node
deriving Repr

/-- What an operation on a session leads to. -/
abbrev Session.Step (α : Type) := EStateM.Result SyntaxError Session α

namespace Cursor

/-- The steps with which no loop that begins at the cursor ends early. -/
def steps (c : Cursor) : Nat := c.rest.length + 1

/-- The failure behind an interruption.  Loops have steps enough, so the second case does not
arise. -/
def failure (c : Cursor) : Interruption → SyntaxError
  | .fault error => error
  | .exhausted => ⟨.tooDeep, c.span⟩

/-- Reads a construct in which markup may be nested the given number of levels deep. -/
def read {α : Type} (rule : Rule α) (levels : Nat) (c : Cursor) : Step α :=
  match rule (Production.markup c.steps levels) c.steps c with
  | .ok a c' => .ok a c'
  | .error interruption c' => .error (c'.failure interruption) c'

end Cursor

namespace Session

/-- The session before the first token of a text. -/
def ofText (text : String) : Session := ⟨Cursor.ofText text.toList, #[]⟩

/-- Reads a construct, leaving what has been collected as it is. -/
def read {α : Type} (rule : Rule α) (levels : Nat) (s : Session) : Step α :=
  match s.cursor.read rule levels with
  | .ok a c => .ok a ⟨c, s.body⟩
  | .error error c => .error error ⟨c, s.body⟩

/-- What collecting leads to. -/
abbrev Collected := EStateM.Result Interruption Session Program

/-- Collects all top-level markup up to the end of the input, in at most the given number of
steps.  Other tokens are skipped. -/
def collect (markup : Production Node) : (steps : Nat) → Session → Collected
  | 0, s => .error .exhausted s
  | steps + 1, s =>
    match s.cursor.next with
    | .error error c =>
      if error.fault.family = .boundary then .ok ⟨s.body.toList⟩ ⟨c, s.body⟩
      else .error (.fault error) ⟨c, s.body⟩
    | .ok kind c =>
      if kind.opensMarkup then
        match markup c with
        | .ok node c' => collect markup steps ⟨c', s.body.push node⟩
        | .error interruption c' => .error interruption ⟨c', s.body⟩
      else
        collect markup steps ⟨c, s.body⟩

/-- Collects all top-level markup, nested at most the given number of levels deep, where every
loop is allowed the given number of steps. -/
def collectWithin (steps levels : Nat) (s : Session) : Collected :=
  s.collect (Production.markup steps levels) steps

/-- Collects all top-level markup, nested at most the given number of levels deep. -/
def parse (levels : Nat) (s : Session) : Step Program :=
  match s.collectWithin s.cursor.steps levels with
  | .ok program s' => .ok program s'
  | .error interruption s' => .error (s'.cursor.failure interruption) s'

end Session

/-- The markup of a text, nested at most the given number of levels deep. -/
def parseWithin (levels : Nat) (text : String) : Except SyntaxError Program :=
  match (Session.ofText text).parse levels with
  | .ok program _ => .ok program
  | .error error _ => .error error

/-- The markup of a text. -/
def parse (text : String) : Except SyntaxError Program := parseWithin nestingLimit text

end EmbeddedJsx
