/-!
# Paths

A path is a sequence of names below a root or below the current directory.  Names that are empty
or a single dot are dropped when a path is read; two dots are kept.
-/

namespace EmbeddedJsx

/-- Where a path begins. -/
inductive Path.Anchor where
  /-- At the current directory. -/
  | here
  /-- At the root, written with one slash. -/
  | root
  /-- At the root, written with two slashes. -/
  | doubleRoot
deriving DecidableEq, Repr

/-- A path. -/
structure Path where
  /-- Where the path begins. -/
  anchor : Path.Anchor
  /-- The names that lead on from there. -/
  names : List String
deriving DecidableEq, Repr

namespace Path

/-- How an anchor is written. -/
def Anchor.text : Anchor → String
  | here => ""
  | root => "/"
  | doubleRoot => "//"

/-- Cuts a text at every slash. -/
def pieces : List Char → List (List Char)
  | [] => [[]]
  | c :: rest =>
    if c = '/' then [] :: pieces rest
    else match pieces rest with
      | [] => [[c]]
      | piece :: others => (c :: piece) :: others

/-- The anchor of a written path: more than two slashes are as good as one. -/
def anchorOf (text : List Char) : Anchor :=
  match (text.takeWhile (· == '/')).length with
  | 0 => .here
  | 2 => .doubleRoot
  | _ => .root

/-- Whether a piece between slashes is a name. -/
def isName (piece : List Char) : Bool := piece != [] && piece != ['.']

/-- Reads a path. -/
def ofString (text : String) : Path where
  anchor := anchorOf text.toList
  names := ((pieces text.toList).filter isName).map String.ofList

/-- Writes a path; the current directory is a single dot. -/
def text (p : Path) : String :=
  if p.anchor = .here ∧ p.names = [] then "."
  else p.anchor.text ++ "/".intercalate p.names

/-- The path without its last name. -/
def parent (p : Path) : Path := { p with names := p.names.dropLast }

/-- The path followed by one more name. -/
def child (p : Path) (name : String) : Path := { p with names := p.names ++ [name] }

end Path

end EmbeddedJsx
