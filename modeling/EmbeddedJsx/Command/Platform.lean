/-!
# Platforms

What a run comes to depends on more than its arguments and files.  Memory may not have room for a
rendering, data may be nested too deeply for the calls that go through it, and the reader of TOML
words its explanations as it likes.  None of this is fixed here: it is what a platform says, and
whatever is proved of runs is proved for every platform.
-/

namespace EmbeddedJsx

/-- What a run depends on apart from its arguments, the files and the standard streams. -/
structure Platform where
  /-- The most characters that an indented rendering may have. -/
  memory : Nat
  /-- How deep a record may be nested that is rendered. -/
  recordDepth : Nat
  /-- How many calls may be open inside one another while a value of the settings is read. -/
  settingsDepth : Nat
  /-- How many values may be nested in one another in a value of the settings that is shown. -/
  shownDepth : Nat
  /-- How a text that is not TOML is explained. -/
  explain : List Char → String

/-- A platform with room for more than is usually asked for, which explains nothing. -/
def Platform.ample : Platform where
  memory := 0x1000000000
  recordDepth := 0x1000
  settingsDepth := 960
  shownDepth := 900
  explain _ := ""

end EmbeddedJsx
