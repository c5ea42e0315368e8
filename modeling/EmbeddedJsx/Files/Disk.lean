import EmbeddedJsx.Files.Tree

/-!
# Disks

A disk holds all files, those below the current directory apart from the others.  A path is
followed name by name, as a system follows it: every step needs a directory to start from, and
the leave to enter it.

A file is written in two stages.  It is opened first, by which it is made or emptied, and only then
are bytes put into it, for which there may be no room.
-/

namespace EmbeddedJsx

/-- What a system may be asked for at a place. -/
inductive Disk.Access where
  /-- To read a file. -/
  | read
  /-- To write a file, or to make one in a directory. -/
  | write
  /-- To go on from a directory. -/
  | enter
deriving DecidableEq, Repr

/-- A place on a disk, by the names that lead to it from the root. -/
abbrev Disk.Place := List String

/-- All files and directories. -/
structure Disk where
  /-- The current directory. -/
  home : Disk.Place
  /-- What lies below the current directory. -/
  files : FileTree
  /-- What lies elsewhere, by the names that lead to it from the root. -/
  elsewhere : FileTree
  /-- What the system refuses. -/
  refusals : List (Disk.Access × Disk.Place)
  /-- The most bytes for which there is room in a file. -/
  room : Nat
deriving DecidableEq, Repr

namespace Disk

/-- What is found at a place. -/
def at? (d : Disk) (place : Place) : Option FileTree.Entry :=
  if d.home.isPrefixOf place then d.files.find? (place.drop d.home.length)
  else if place.isPrefixOf d.home then some .directory
  else d.elsewhere.find? place

/-- Whether the system refuses something at a place. -/
def refuses (d : Disk) (access : Access) (place : Place) : Bool :=
  d.refusals.contains (access, place)

/-! ## Following paths -/

/-- Where one more name leads from a directory; no directory is above the root. -/
def Place.enter (place : Place) (name : String) : Place :=
  if name = ".." then place.dropLast else place ++ [name]

/-- The most bytes that a name may have. -/
def maxNameBytes : Nat := 255

/-- The most bytes that a written path may have. -/
def maxPathBytes : Nat := 4095

/-- Follows names from a place. -/
def walk (d : Disk) : Place → List String → Except FileFault.Reason Place
  | place, [] => .ok place
  | place, name :: names =>
    match d.at? place with
    | none => .error .missing
    | some (.file _) => .error .notDirectory
    | some .directory =>
      if d.refuses .enter place then .error .denied
      else if maxNameBytes < name.utf8ByteSize then .error .nameTooLong
      else d.walk (place.enter name) names

/-- Where a path begins. -/
def origin (d : Disk) : Path.Anchor → Place
  | .here => d.home
  | _ => []

/-- The place to which a path leads. -/
def locate (d : Disk) (path : Path) : Except FileFault Place :=
  if path.names.any (·.contains '\x00') then .error ⟨.nul, path⟩
  else if maxPathBytes < path.text.utf8ByteSize then .error ⟨.nameTooLong, path⟩
  else (d.walk (d.origin path.anchor) path.names).mapError (⟨·, path⟩)

/-! ## Reading and writing -/

/-- The bytes of a file. -/
def read (d : Disk) (path : Path) : Except FileFault (List UInt8) := do
  let place ← d.locate path
  match d.at? place with
  | none => .error ⟨.missing, path⟩
  | some entry =>
    if d.refuses .read place then .error ⟨.denied, path⟩
    else match entry with
      | .directory => .error ⟨.isDirectory, path⟩
      | .file bytes => .ok bytes

/-- Whether a path leads to a file.  A path on which there is nothing leads to none; a path that
is too long, or may not be followed, is a fault. -/
def isFile (d : Disk) (path : Path) : Except FileFault Bool :=
  match d.locate path with
  | .ok place => .ok (match d.at? place with | some (.file _) => true | _ => false)
  | .error fault =>
    if fault.reason = .nameTooLong ∨ fault.reason = .denied then .error fault else .ok false

/-- Puts a file at a place, instead of the one that is there. -/
def put (d : Disk) (place : Place) (bytes : List UInt8) : Disk :=
  if d.home.isPrefixOf place then
    { d with files := d.files.put (place.drop d.home.length) bytes }
  else { d with elsewhere := d.elsewhere.put place bytes }

/-- Opens a file for writing: one that exists is emptied, and one that does not is made, in a
directory that has to exist.  The answer is where the file is, and the disk on which it holds
nothing. -/
def create (d : Disk) (path : Path) : Except FileFault (Place × Disk) := do
  let place ← d.locate path
  match d.at? place with
  | some .directory => .error ⟨.isDirectory, path⟩
  | some (.file _) =>
    if d.refuses .write place then .error ⟨.denied, path⟩ else .ok (place, d.put place [])
  | none =>
    if d.refuses .write place.dropLast then .error ⟨.denied, path⟩
    else .ok (place, d.put place [])

/-- Writes into a file that has been opened, as far as there is room. -/
def fill (d : Disk) (path : Path) (place : Place) (bytes : List UInt8) :
    Except FileFault Unit × Disk :=
  (if bytes.length ≤ d.room then .ok () else .error ⟨.noRoom, path⟩,
    d.put place (bytes.take d.room))

/-- Opens a file and writes into it.  What has become of the disk until a fault is found stays. -/
def write (d : Disk) (path : Path) (bytes : List UInt8) : Except FileFault Unit × Disk :=
  match d.create path with
  | .error fault => (.error fault, d)
  | .ok (place, opened) => opened.fill path place bytes

end Disk

end EmbeddedJsx
