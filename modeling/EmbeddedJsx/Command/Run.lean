import EmbeddedJsx.Command.Options
import EmbeddedJsx.Command.Platform
import EmbeddedJsx.Files.Disk
import EmbeddedJsx.Json.Layout
import EmbeddedJsx.Node.Outline
import EmbeddedJsx.Node.Record
import EmbeddedJsx.Report
import EmbeddedJsx.Session
import EmbeddedJsx.TokenTable

/-!
# Running the program

A run reads the command line, the file with settings and the input, renders the input and
writes the rendering to one place.  It deals with files and with the standard streams only
through a `Host`, so that the same run takes place in a `World` that is a value and in the world
outside.

A run ends with an exit code, or it is broken off by a failure that it has no report for.  Writing
takes place in stages: what has reached a file or the standard output before there is no more room
stays there.
-/

namespace EmbeddedJsx

open Text

/-- Access to files and to the standard streams, and what else a run depends on. -/
structure Host (m : Type → Type) where
  /-- What the run depends on apart from files and streams. -/
  platform : Platform
  /-- Whether a path leads to a file. -/
  isFile : Path → m (Except FileFault Bool)
  /-- The bytes of a file. -/
  read : Path → m (Except FileFault (List UInt8))
  /-- Writes a file. -/
  write : Path → String → m (Except FileFault Unit)
  /-- Writes to the standard output, and tells whether it has taken everything. -/
  out : String → m Bool
  /-- Writes to the standard error. -/
  err : String → m Unit

/-- Why a record cannot be laid out. -/
inductive LayoutFault where
  /-- The indentation was blanked out. -/
  | blank
  /-- The indentation does not fit into a signed word of 64 bits. -/
  | outOfRange
  /-- There is no room in memory for what is laid out. -/
  | outOfMemory
  /-- The record is nested too deeply. -/
  | tooDeep
deriving DecidableEq, Repr

/-- How a fault of a layout is worded; for want of memory there are no words. -/
def LayoutFault.message : LayoutFault → String
  | blank => "can't multiply sequence by non-int of type 'list'"
  | outOfRange => "cannot fit 'int' into an index-sized integer"
  | outOfMemory => ""
  | tooDeep => "maximum recursion depth exceeded"

/-- A failure that breaks a run off. -/
inductive Failure where
  /-- A file cannot be opened or written. -/
  | file (fault : FileFault)
  /-- The standard output does not take everything. -/
  | outlet
  /-- The bytes of a file are not UTF-8. -/
  | encoding (fault : Utf8.Fault)
  /-- An integer in the settings has too many digits. -/
  | hugeInteger (digits : Nat)
  /-- The settings are nested too deeply. -/
  | tooDeep
  /-- The format that the settings set does not exist and cannot be shown. -/
  | unshown (fault : Toml.Unshown)
  /-- A record cannot be laid out. -/
  | layout (fault : LayoutFault)
deriving DecidableEq, Repr

/-- What a failure says. -/
def Failure.message : Failure → String
  | file fault => fault.message
  | outlet => "[Errno 32] Broken pipe"
  | encoding fault => fault.message
  | hugeInteger digits => (Settings.Fault.hugeInteger digits).message
  | tooDeep => Settings.Fault.tooDeep.message
  | unshown fault => (Settings.Fault.unshown fault).message
  | layout fault => fault.message

/-- How a run ends. -/
inductive Ending where
  /-- With an exit code. -/
  | exit (code : Nat)
  /-- With an exit code, before anything is done: help was asked for, or the arguments are
  wrong. -/
  | usage (code : Nat)
  /-- Broken off. -/
  | broken (failure : Failure)
deriving DecidableEq, Repr

/-! ## Rendering -/

/-- Why a text cannot be rendered. -/
inductive Obstacle where
  /-- The text cannot be read. -/
  | unreadable (error : SyntaxError)
  /-- The record of the text cannot be laid out. -/
  | layout (fault : LayoutFault)
deriving DecidableEq, Repr

/-- The number of spaces of an indentation, which has to fit into a signed word of 64 bits. -/
def Indent.checkedWidth (indent : Indent) : Except LayoutFault Int :=
  if indent.width < -Int.pow 2 63 ∨ Int.pow 2 63 ≤ indent.width then .error .outOfRange
  else .ok indent.width

/-- A record laid out with a line feed after it, where there is room for that.  The spaces of one
indentation are made before anything is laid out. -/
def Platform.lay (platform : Platform) (width : Int) (record : Json) : Except LayoutFault String :=
  if platform.memory < width.toNat then .error .outOfMemory
  else if platform.recordDepth < record.depth then .error .tooDeep
  else
    let rendering := record.layout width ++ "\n"
    if platform.memory < rendering.length then .error .outOfMemory else .ok rendering

/-- A program as an indented JSON text. -/
def renderJson (platform : Platform) (indent : Given Indent) (program : Program) :
    Except LayoutFault String :=
  match indent with
  | .blank => .error .blank
  | .value indent =>
    match indent.checkedWidth with
    | .error fault => .error fault
    | .ok width => platform.lay width program.record

/-- The rendering of a text in a format. -/
def render (platform : Platform) (format : Format) (indent : Given Indent) (text : String) :
    Except Obstacle String :=
  match format with
  | .tokens => ((tokens text).map TokenTable.render).mapError .unreadable
  | .tree => ((parse text).map Program.outline).mapError .unreadable
  | .json =>
    match parse text with
    | .error error => .error (.unreadable error)
    | .ok program => (renderJson platform indent program).mapError .layout

/-- The text of a file, every line end in it being written as a line feed. -/
def textOfBytes (bytes : List UInt8) : Except Utf8.Fault String :=
  (Utf8.decode bytes).map fun chars => String.ofList (unifyNewlines chars)

/-- What is to be done, given the bytes of the file with settings, if there is such a file; or the
fault in the settings, or the failure that breaks the run off. -/
def Arguments.settle (a : Arguments) (platform : Platform) :
    Option (List UInt8) → Except Failure (Except Settings.Fault Options)
  | none => .ok (.ok (a.resolve Settings.none))
  | some bytes =>
    match Settings.ofBytes platform bytes with
    | .ok settings => .ok (.ok (a.resolve settings))
    | .error (.encoding fault) => .error (.encoding fault)
    | .error (.hugeInteger digits) => .error (.hugeInteger digits)
    | .error .tooDeep => .error .tooDeep
    | .error (.unshown fault) => .error (.unshown fault)
    | .error fault => .ok (.error fault)

namespace Host

variable {m : Type → Type} [Monad m] (host : Host m)

/-- Reports an error that ends a run. -/
def complain (message : String) (code : Nat) : m Ending := do
  host.err (message ++ "\n")
  return .exit code

/-- The bytes of the file with settings, if there is such a file. -/
def settingsBytes (path : Path) : m (Except FileFault (Option (List UInt8))) := do
  match ← host.isFile path with
  | .error fault => return .error fault
  | .ok false => return .ok none
  | .ok true => return (← host.read path).map some

/-- What is to be done, as far as it can be settled. -/
def options (a : Arguments) : m (Except Failure (Except Settings.Fault Options)) := do
  match ← host.settingsBytes a.settingsPath with
  | .error fault => return .error (.file fault)
  | .ok bytes? => return a.settle host.platform bytes?

/-- Writes a rendering to the place that the options name. -/
def deliver (o : Options) (rendering : String) : m Ending := do
  match o.output with
  | none => if ← host.out rendering then return .exit 0 else return .broken .outlet
  | some path =>
    match ← host.write path rendering with
    | .error fault => return .broken (.file fault)
    | .ok () => return .exit 0

/-- Renders the text of the input and delivers the rendering. -/
def process (o : Options) (text : String) : m Ending := do
  match render host.platform o.shownFormat o.indent text with
  | .error (.unreadable error) => host.complain (error.report text o.input.text).block 1
  | .error (.layout fault) => return .broken (.layout fault)
  | .ok rendering => host.deliver o rendering

/-- Reads, renders and delivers the input. -/
def carryOut (o : Options) : m Ending := do
  match ← host.read o.input with
  | .error fault =>
    if fault.reason = .nul then return .broken (.file fault)
    else host.complain ("error: " ++ fault.message) 2
  | .ok bytes =>
    match textOfBytes bytes with
    | .error fault => return .broken (.encoding fault)
    | .ok text => host.process o text

/-- Runs the program with the given arguments. -/
def run (argv : List String) : m Ending := do
  match Arguments.read argv with
  | .error .help => if ← host.out Usage.help then return .usage 0 else return .broken .outlet
  | .error (.misuse misuse) =>
    host.err misuse.report
    return .usage 2
  | .ok a =>
    match ← host.options a with
    | .error failure => return .broken failure
    | .ok (.error fault) => host.complain ("error: " ++ fault.message) 2
    | .ok (.ok o) => host.carryOut o

end Host

/-! ## Worlds -/

/-- The files, what has been written to the standard streams, and the platform.  The standard error
takes everything that is written to it. -/
structure World extends Disk where
  /-- What has been written to the standard output. -/
  stdout : String
  /-- What has been written to the standard error. -/
  stderr : String
  /-- The most characters that the standard output takes. -/
  outlet : Nat
  /-- What a run depends on apart from files and streams. -/
  platform : Platform

namespace World

/-- A world in which there are no files but those below the current directory, the system refuses
nothing, there is room for more than is usually asked for, and nothing has been written yet. -/
def ofFiles (files : FileTree) : World where
  home := ["current"]
  files := files
  elsewhere := ⟨[]⟩
  refusals := []
  room := 0x10000000000
  stdout := ""
  stderr := ""
  outlet := 0x10000000000
  platform := .ample

/-- What the standard output takes of a text. -/
def taken (w : World) (text : String) : String :=
  String.ofList (text.toList.take (w.outlet - w.stdout.length))

/-- Access to the files and streams of a world. -/
def host (platform : Platform) : Host (StateM World) where
  platform := platform
  isFile path := return (← get).isFile path
  read path := return (← get).read path
  write path text := do
    let w ← get
    let (result, disk) := w.write path (Utf8.encode text)
    set { w with toDisk := disk }
    return result
  out text := do
    let w ← get
    if (w.stdout ++ text).length ≤ w.outlet then
      set { w with stdout := w.stdout ++ text }
      return true
    else
      set { w with stdout := w.stdout ++ w.taken text }
      return false
  err text := modify fun w => { w with stderr := w.stderr ++ text }

/-- Runs the program in a world. -/
def run (argv : List String) (w : World) : Ending × World := ((host w.platform).run argv).run w

/-- What is to be done in a world, where the arguments and settings allow it. -/
def options (a : Arguments) (w : World) : Except Failure (Except Settings.Fault Options) :=
  (((host w.platform).options a).run w).1

end World

end EmbeddedJsx
