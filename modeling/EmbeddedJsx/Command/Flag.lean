/-!
# The options of the command line

`Flag` lists the options.  The order of the constructors is the order in which the options are
named wherever several of them are.
-/

namespace EmbeddedJsx

/-- The forms in which a text may be rendered. -/
inductive Format where
  /-- An outline of the markup. -/
  | tree
  /-- The markup as JSON. -/
  | json
  /-- A list of the tokens. -/
  | tokens
deriving DecidableEq, Repr

namespace Format

/-- All formats. -/
def all : List Format := [tree, json, tokens]

/-- The word for a format. -/
def label : Format → String
  | tree => "tree"
  | json => "json"
  | tokens => "tokens"

/-- The format for a word. -/
def ofLabel? (word : String) : Option Format := all.find? (·.label == word)

@[simp] theorem ofLabel?_label (f : Format) : ofLabel? f.label = some f := by
  cases f <;> decide

end Format

/-- The options of the command line. -/
inductive Flag where
  /-- Asks for the help text. -/
  | help
  /-- Names the file to write to. -/
  | output
  /-- Chooses the format. -/
  | format
  /-- Chooses the format `json`. -/
  | json
  /-- Chooses the format `tokens`. -/
  | tokens
  /-- Sets the indentation of JSON. -/
  | indent
  /-- Names the file with settings. -/
  | config
deriving DecidableEq, Repr

namespace Flag

/-- All options. -/
def all : List Flag := [help, output, format, json, tokens, indent, config]

/-- The spellings of an option, the short one first. -/
def spellings : Flag → List String
  | help => ["-h", "--help"]
  | output => ["-o", "--output"]
  | format => ["-f", "--format"]
  | json => ["--json"]
  | tokens => ["--tokens"]
  | indent => ["--indent"]
  | config => ["--config"]

/-- Whether an option is followed by a value. -/
def takesValue : Flag → Bool
  | output | format | indent | config => true
  | help | json | tokens => false

/-- The name of an option in messages. -/
def title (f : Flag) : String := "/".intercalate f.spellings

/-- Every spelling with its option. -/
def spelled : List (String × Flag) :=
  all.flatMap fun f => f.spellings.map fun s => (s, f)

/-- The option that is spelled in exactly this way. -/
def ofSpelling? (spelling : String) : Option Flag := spelled.lookup spelling

end Flag

end EmbeddedJsx
