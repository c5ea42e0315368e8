import EmbeddedJsx.Files.Path
import EmbeddedJsx.Text.Quoted

/-!
# Why a file cannot be opened or written
-/

namespace EmbeddedJsx

open Text

/-- The reasons for which a file cannot be opened or written. -/
inductive FileFault.Reason where
  /-- The file or a directory on the way to it does not exist. -/
  | missing
  /-- Something on the way to the file is not a directory. -/
  | notDirectory
  /-- The path leads to a directory. -/
  | isDirectory
  /-- The path, or a name on it, is longer than paths or names may be. -/
  | nameTooLong
  /-- The system refuses access. -/
  | denied
  /-- The path holds the character NUL. -/
  | nul
  /-- There is no room for all that is written. -/
  | noRoom
deriving DecidableEq, Repr

/-- A file that cannot be opened or written. -/
structure FileFault where
  /-- Why it cannot be opened or written. -/
  reason : FileFault.Reason
  /-- The path by which it was asked for. -/
  path : Path
deriving DecidableEq, Repr

/-- How a fault is reported.  All but the one of paths with NUL are numbered as the system numbers
them, and the names of files are given only where they cannot be opened. -/
def FileFault.message (fault : FileFault) : String :=
  match fault.reason with
  | .missing => "[Errno 2] No such file or directory: " ++ quoted fault.path.text
  | .notDirectory => "[Errno 20] Not a directory: " ++ quoted fault.path.text
  | .isDirectory => "[Errno 21] Is a directory: " ++ quoted fault.path.text
  | .nameTooLong => "[Errno 36] File name too long: " ++ quoted fault.path.text
  | .denied => "[Errno 13] Permission denied: " ++ quoted fault.path.text
  | .nul => "embedded null byte"
  | .noRoom => "[Errno 28] No space left on device"

end EmbeddedJsx
