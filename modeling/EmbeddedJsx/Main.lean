import EmbeddedJsx.Command.Run

/-!
# The program

The command line in the world outside: files and streams are those of the system.
-/

namespace EmbeddedJsx.Outside

/-- The number under which the system reports that a path leads to a directory. -/
def directoryCode : UInt32 := 21

/-- The reason behind an error of the system. -/
def reasonOf : IO.Error → FileFault.Reason
  | .inappropriateType _ code _ => if code = directoryCode then .isDirectory else .notDirectory
  | .noSuchThing .. | .noFileOrDirectory .. => .missing
  | .invalidArgument .. => .nameTooLong
  | .resourceExhausted .. => .noRoom
  | _ => .denied

/-- Does something with a file, taking errors of the system as faults of the path. -/
def attempt {α : Type} (path : Path) (action : IO α) : IO (Except FileFault α) := do
  try
    return .ok (← action)
  catch error =>
    return .error ⟨reasonOf error, path⟩

/-- The files and streams of the system. -/
def host : Host IO where
  platform := .ample
  isFile path := do
    match ← attempt path (do (← IO.FS.Handle.mk path.text .read).read 1) with
    | .ok _ => return .ok true
    | .error fault =>
      if fault.reason = .nameTooLong ∨ fault.reason = .denied then return .error fault
      else return .ok false
  read path := return (← attempt path (IO.FS.readBinFile path.text)).map ByteArray.toList
  write path text := attempt path (IO.FS.writeFile path.text text)
  out text := do
    try
      (← IO.getStdout).putStr text
      return true
    catch _ => return false
  err text := do (← IO.getStderr).putStr text

/-- Runs the program with the given arguments and answers with its exit code. -/
def run (argv : List String) : IO UInt32 := do
  match ← host.run argv with
  | .exit code | .usage code => return code.toUInt32
  | .broken failure =>
    host.err ("error: " ++ failure.message ++ "\n")
    return 1

end EmbeddedJsx.Outside

/-- Runs the program with the arguments of the command line. -/
def main (argv : List String) : IO UInt32 := EmbeddedJsx.Outside.run argv
