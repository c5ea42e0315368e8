import EmbeddedJsx.Node
import EmbeddedJsx.Text.Quoted

/-!
# Trees as outlines

An outline has a row for every node, the rows of the nodes inside it below its own and indented
by two spaces more.  Attributes come before children.
-/

namespace EmbeddedJsx

open Text

/-- A row of an outline. -/
structure Outline.Row where
  /-- How many nodes the row stands in. -/
  depth : Nat
  /-- What the row says. -/
  text : String
deriving DecidableEq, Repr

/-- A row as it is written. -/
def Outline.Row.line (row : Row) : String :=
  String.ofList (List.replicate (2 * row.depth) ' ') ++ row.text ++ "\n"

namespace Node

/-- What the row of a node says. -/
def headline : Node → String
  | selfClosed span name _ => "Element <" ++ name.text ++ " /> " ++ span.text
  | element span name _ _ => "Element <" ++ name.text ++ "> " ++ span.text
  | fragment span _ => "Fragment " ++ span.text
  | expression span _ content _ => "Expression " ++ span.text ++ " " ++ quoted content
  | text span content => "Text " ++ span.text ++ " " ++ quoted content
  | string span content => "String " ++ span.text ++ " " ++ content
  | setAttribute span name _ => "Attr " ++ name.text ++ " " ++ span.text
  | bareAttribute span name => "Attr " ++ name.text ++ " " ++ span.text
  | spread span argument => "Spread ..." ++ argument.text ++ " " ++ span.text

mutual

/-- The rows of a node at the given depth. -/
def rows (depth : Nat) (node : Node) : List Outline.Row :=
  ⟨depth, node.headline⟩ ::
    match node with
    | selfClosed _ _ attributes => allRows (depth + 1) attributes
    | element _ _ attributes children =>
      allRows (depth + 1) attributes ++ allRows (depth + 1) children
    | fragment _ children => allRows (depth + 1) children
    | expression _ _ _ markup => allRows (depth + 1) markup
    | setAttribute _ _ value => rows (depth + 1) value
    | _ => []

/-- The rows of several nodes at the given depth. -/
def allRows (depth : Nat) : List Node → List Outline.Row
  | [] => []
  | node :: nodes => rows depth node ++ allRows depth nodes

end

end Node

/-- The rows of a whole program. -/
def Program.rows (program : Program) : List Outline.Row :=
  ⟨0, "Program"⟩ :: Node.allRows 1 program.body

/-- The outline of a whole program. -/
def Program.outline (program : Program) : String :=
  String.join (program.rows.map Outline.Row.line)

end EmbeddedJsx
