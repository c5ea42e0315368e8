import EmbeddedJsx.Toml.Scalar

/-!
# TOML keys and values
-/

namespace EmbeddedJsx.Toml

open Text

/-- Reads from a text and leaves the text after what was read. -/
abbrev Reader (α : Type) := StateT (List Char) (Except Fault) α

namespace Reader

/-- Fails because the document is not TOML. -/
def invalid {α : Type} : Reader α := throw .invalid

/-- The next character. -/
def peek : Reader (Option Char) := do return (← get).head?

/-- Passes over the next character. -/
def skip : Reader Unit := modify (·.drop 1)

/-- Passes over all characters of a class. -/
def skipWhile (p : Char → Bool) : Reader Unit := modify (·.dropWhile p)

/-- Passes over the next character, which has to be the given one. -/
def expect (c : Char) : Reader Unit := do
  if (← peek) = some c then skip else invalid

/-- Reads what a function reads from the text. -/
def ofOption {α : Type} (read : List Char → Option (Parsed α)) : Reader α := do
  match read (← get) with
  | some (a, rest) => set rest; return a
  | none => invalid

/-- Passes over a comment, if one begins here. -/
def skipComment : Reader Unit := do
  if (← peek) = some '#' then
    let text := (← get).drop 1
    if (text.takeWhile (· != '\n')).any isIllegal then invalid
    else set (text.dropWhile (· != '\n'))

/-- Passes over blanks, line feeds and comments, of which a text of a given length cannot have
more than its length. -/
def skipLines : (steps : Nat) → Reader Unit
  | 0 => return ()
  | steps + 1 => do
    skipWhile isSpaceOrNewline
    if (← peek) = some '#' then
      skipComment
      skipLines steps

/-- Passes over blanks, line feeds and comments. -/
def skipBlankLines : Reader Unit := do skipLines ((← get).length + 1)

/-! ## Keys -/

/-- The characters of keys without quotes. -/
def isBareKey (c : Char) : Bool := c.isAlphanum || c == '-' || c == '_'

/-- The characters with which a key may begin. -/
def beginsKey (c : Char) : Bool := isBareKey c || c == '"' || c == '\''

/-- One part of a key. -/
def keyPart : Reader String := do
  match ← peek with
  | some c =>
    if isBareKey c then
      let text ← get
      skipWhile isBareKey
      return String.ofList (text.takeWhile isBareKey)
    else
      return String.ofList (← ofOption stringOnLine?)
  | none => invalid

/-- The further parts of a key, each with the dot in front of it. -/
def keyParts : (steps : Nat) → Reader Key
  | 0 => invalid
  | steps + 1 => do
    skipWhile isSpace
    if (← peek) = some '.' then
      skip
      skipWhile isSpace
      let part ← keyPart
      let parts ← keyParts steps
      return part :: parts
    else
      return []

/-- A key of one or more parts, through the blanks after it. -/
def key : Reader Key := do
  let part ← keyPart
  let parts ← keyParts ((← get).length + 1)
  return part :: parts

/-! ## Values -/

/-- Whether an earlier part of an inline table keeps a key from being set: an array or a table
that was written as a value is complete. -/
def isComplete (complete : List Key) (key : Key) : Bool :=
  complete.any (·.isPrefixOf key)

/-- Sets a value under a key, making the tables that lead to it.  A key that is set cannot be set
again. -/
def insert (value : Value) : Key → Table → Option Table
  | [], _ => none
  | [name], members =>
    if (members.lookup name).isSome then none else some (members ++ [(name, value)])
  | name :: key, members =>
    match members.lookup name with
    | none => (insert value key []).map fun inner => members ++ [(name, .table inner)]
    | some (.table inner) =>
      (insert value key inner).map fun inner =>
        members.map fun m => if m.1 = name then (name, .table inner) else m
    | some _ => none

/-- Whether a value is written with brackets or braces. -/
def isCompound : Value → Bool
  | .array _ | .table _ => true
  | _ => false

mutual

/-- A value, while the given number of calls may be open inside one another.  An array takes two of
them, one for itself and one for its item, and an inline table three, one more for its key. -/
def value : (calls steps : Nat) → Reader Value
  | _, 0 => invalid
  | calls, steps + 1 => do
    match ← get with
    | 't' :: 'r' :: 'u' :: 'e' :: rest => set rest; return .boolean true
    | 'f' :: 'a' :: 'l' :: 's' :: 'e' :: rest => set rest; return .boolean false
    | '[' :: rest =>
      match calls with
      | calls + 2 => set rest; return .array (← items calls steps)
      | _ => throw .tooDeep
    | '{' :: rest =>
      match calls with
      | calls + 3 =>
        set (rest.dropWhile isSpace)
        if (← peek) = some '}' then
          skip
          return .table []
        else
          return .table (← members calls [] [] steps)
      | _ => throw .tooDeep
    | '"' :: _ | '\'' :: _ => return .string (String.ofList (← ofOption string?))
    | text =>
      match number? text with
      | some (.ok (v, rest)) => set rest; return v
      | some (.error fault) => throw fault
      | none => invalid

/-- The items of an array from a place where one may begin, through the closing bracket. -/
def items (calls : Nat) : (steps : Nat) → Reader (List Value)
  | 0 => invalid
  | steps + 1 => do
    skipBlankLines
    if (← peek) = some ']' then
      skip
      return []
    else
      let item ← value calls steps
      skipBlankLines
      match ← peek with
      | some ']' => skip; return [item]
      | some ',' =>
        skip
        let others ← items calls steps
        return item :: others
      | _ => invalid

/-- The members of an inline table after those that have been read, through the closing
brace. -/
def members (calls : Nat) (found : Table) (complete : List Key) : (steps : Nat) → Reader Table
  | 0 => invalid
  | steps + 1 => do
    let key ← key
    expect '='
    skipWhile isSpace
    let v ← value calls steps
    if isComplete complete key then invalid
    else match insert v key found with
      | none => invalid
      | some found =>
        skipWhile isSpace
        match ← peek with
        | some '}' => skip; return found
        | some ',' =>
          skip
          skipWhile isSpace
          members calls found (if isCompound v then key :: complete else complete) steps
        | _ => invalid

end

/-- A key with its value, while the given number of calls may be open inside one another. -/
def assignment (calls : Nat) : Reader (Key × Value) := do
  let key ← key
  expect '='
  skipWhile isSpace
  let v ← value calls (2 * (← get).length + 2)
  return (key, v)

end Reader

end EmbeddedJsx.Toml
