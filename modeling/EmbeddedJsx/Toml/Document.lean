import EmbeddedJsx.Text.Lines
import EmbeddedJsx.Toml.Reader

/-!
# TOML documents

A document is a sequence of statements, one to a line.  A table may be spread over several
statements, but it may be opened under its own header only once, and what was written as a value
may not be added to.
-/

namespace EmbeddedJsx.Toml

/-- A document that is being read. -/
structure Document where
  /-- What has been set. -/
  root : Table
  /-- The table to which keys are added. -/
  header : Key
  /-- The tables that may not be opened by a header or through a dotted key any more. -/
  opened : List Key
  /-- The tables made by dotted keys since the last header: from the next header on they may not
  be opened either. -/
  implied : List Key
  /-- The arrays and tables that were written as values. -/
  complete : List Key
deriving Repr

namespace Document

/-- A document of which nothing has been read. -/
def empty : Document := ⟨[], [], [], [], []⟩

/-- Replaces the value under a name. -/
def replace (name : String) (value : Value) (table : Table) : Table :=
  table.map fun m => if m.1 = name then (name, value) else m

/-- Changes the table to which a key leads, making the tables on the way.  Where an array of
tables stands on the way, its last table is meant. -/
def alter (change : Table → Option Table) : Key → Table → Option Table
  | [], table => change table
  | name :: key, table =>
    match table.lookup name with
    | none => (alter change key []).map fun inner => table ++ [(name, .table inner)]
    | some (.table inner) =>
      (alter change key inner).map fun inner => replace name (.table inner) table
    | some (.array items) =>
      match items.getLast? with
      | some (.table inner) =>
        (alter change key inner).map fun inner =>
          replace name (.array (items.dropLast ++ [.table inner])) table
      | _ => none
    | some _ => none

/-- Sets a name that is not set yet. -/
def setNew (name : String) (value : Value) (table : Table) : Option Table :=
  if (table.lookup name).isSome then none else some (table ++ [(name, value)])

/-- Adds an empty table to the array of tables under a name. -/
def appendTable (name : String) (table : Table) : Option Table :=
  match table.lookup name with
  | none => some (table ++ [(name, .array [.table []])])
  | some (.array items) => some (replace name (.array (items ++ [.table []])) table)
  | some _ => none

/-- Whether a key leads to or into something that was written as a value. -/
def isComplete (d : Document) (key : Key) : Bool := Reader.isComplete d.complete key

/-- From the next header on, the tables made by dotted keys may not be opened. -/
def sealImplied (d : Document) : Document := { d with opened := d.implied ++ d.opened, implied := [] }

/-- Opens a table under its header. -/
def openTable (d : Document) (key : Key) : Option Document :=
  if d.opened.contains key || d.isComplete key then none
  else (alter some key d.root).map fun root =>
    { d with root := root, opened := key :: d.opened, header := key }

/-- Opens a new table at the end of an array of tables.  What was opened in the table before it
may be opened anew. -/
def openItem (d : Document) (key : Key) : Option Document :=
  if d.isComplete key then none
  else match key.getLast? with
    | none => none
    | some name =>
      (alter (appendTable name) key.dropLast d.root).map fun root =>
        { d with
          root := root
          opened := key :: d.opened.filter fun k => !key.isPrefixOf k
          complete := d.complete.filter fun k => !key.isPrefixOf k
          header := key }

/-- The keys of the tables through which a dotted key leads. -/
def through (header : Key) (key : Key) : List Key :=
  (List.range (key.length - 1)).map fun i => header ++ key.take (i + 1)

/-- Sets a value under a key of the current table. -/
def assign (d : Document) (key : Key) (value : Value) : Option Document :=
  let tables := through d.header key
  let parent := d.header ++ key.dropLast
  if tables.any d.opened.contains || d.isComplete parent then none
  else match key.getLast? with
    | none => none
    | some name =>
      (alter (setNew name value) parent d.root).map fun root =>
        { d with
          root := root
          implied := tables ++ d.implied
          complete := if Reader.isCompound value then (d.header ++ key) :: d.complete
            else d.complete }

/-- The document that a step leads to, which has to be possible. -/
def require (d? : Option Document) : Reader Document :=
  match d? with
  | some d => return d
  | none => Reader.invalid

/-- Reads the header of a table, from its bracket. -/
def tableHeader (d : Document) : Reader Document := do
  Reader.skip
  Reader.skipWhile isSpace
  let key ← Reader.key
  let d ← require (d.openTable key)
  Reader.expect ']'
  return d

/-- Reads the header of an array of tables, from its first bracket. -/
def itemHeader (d : Document) : Reader Document := do
  Reader.skip
  Reader.skip
  Reader.skipWhile isSpace
  let key ← Reader.key
  let d ← require (d.openItem key)
  Reader.expect ']'
  Reader.expect ']'
  return d

/-- Reads one statement, if there is one before the end of the line or a comment, while the given
number of calls may be open inside one another. -/
def statement (calls : Nat) (d : Document) : Reader Document := do
  match ← get with
  | '[' :: '[' :: _ => itemHeader d.sealImplied
  | '[' :: _ => tableHeader d.sealImplied
  | c :: _ =>
    if Reader.beginsKey c then
      let (key, value) ← Reader.assignment calls
      require (d.assign key value)
    else if c = '#' ∨ c = '\n' then return d
    else Reader.invalid
  | [] => return d

/-- Reads the statements of a document, of which it cannot have more than characters. -/
def statements (calls : Nat) : (steps : Nat) → Document → Reader Document
  | 0, d => return d
  | steps + 1, d => do
    Reader.skipWhile isSpace
    let d ← d.statement calls
    Reader.skipWhile isSpace
    Reader.skipComment
    match ← Reader.peek with
    | none => return d
    | some '\n' =>
      Reader.skip
      statements calls steps d
    | some _ => Reader.invalid

/-- A text in which `\r\n` is written as a line feed. -/
def dropReturns : List Char → List Char
  | '\r' :: '\n' :: rest => '\n' :: dropReturns rest
  | c :: rest => c :: dropReturns rest
  | [] => []

end Document

/-- The table that a document stands for, while the given number of calls may be open inside one
another. -/
def parse (calls : Nat) (text : List Char) : Except Fault Table :=
  let text := Document.dropReturns text
  match (Document.statements calls (text.length + 1) .empty).run text with
  | .ok (d, _) => .ok d.root
  | .error fault => .error fault

end EmbeddedJsx.Toml
