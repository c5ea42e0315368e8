import EmbeddedJsx.Files.Fault

/-!
# Trees of files

A tree holds the files and directories below some directory, by the names that lead to them from
there.  A directory that leads to an entry need not be an entry of its own.
-/

namespace EmbeddedJsx

/-- What a name in a tree stands for. -/
inductive FileTree.Entry where
  /-- A file with its bytes. -/
  | file (bytes : List UInt8)
  /-- A directory. -/
  | directory
deriving DecidableEq, Repr

/-- The files and directories below a directory, by the names that lead to them. -/
structure FileTree where
  /-- The entries, those of the directories that lead to another entry being optional. -/
  entries : List (List String × FileTree.Entry)
deriving DecidableEq, Repr

namespace FileTree

/-- Whether there are entries below the given names. -/
def leads (t : FileTree) (names : List String) : Bool :=
  t.entries.any fun e => names.isPrefixOf e.1 && names != e.1

/-- What is found under the given names.  Only a directory has something below it. -/
def find? (t : FileTree) (names : List String) : Option Entry :=
  if names = [] ∨ t.leads names then some .directory else t.entries.lookup names

/-- Puts a file under the given names, in place of the one that is there. -/
def put (t : FileTree) (names : List String) (bytes : List UInt8) : FileTree :=
  ⟨(names, .file bytes) :: t.entries.filter (·.1 != names)⟩

end FileTree

end EmbeddedJsx
