import EmbeddedJsx.Json
import EmbeddedJsx.Node

/-!
# Trees as JSON

Every node becomes an object that gives its span, its type and what belongs to that type.
-/

namespace EmbeddedJsx

/-- A part of the text: its bounds and what it reads. -/
def Excerpt.record (e : Excerpt) : Json :=
  .object [("start", .int e.span.start), ("end", .int e.span.stop), ("text", .string e.text)]

/-- The word for the form of a name. -/
def Name.formLabel : Name → String
  | plain _ => "Identifier"
  | namespaced _ _ => "NamespacedName"
  | member _ _ _ => "MemberExpression"

/-- A name: its form, its text and its parts. -/
def Name.record (name : Name) : Json :=
  .object
    [("type", .string name.formLabel),
      ("text", .string name.text),
      ("parts", .array (name.parts.map Excerpt.record))]

namespace Node

/-- An object with the span and the type of a node in front of the given members. -/
def recordWith (span : Span) (type : String) (members : List (String × Json)) : Json :=
  .object
    (("start", .int span.start) :: ("end", .int span.stop) :: ("type", .string type) :: members)

mutual

/-- A node as JSON. -/
def record : Node → Json
  | selfClosed span name attributes =>
    recordWith span "Element"
      [("name", name.record), ("selfClosing", .bool true),
        ("attributes", .array (records attributes)), ("children", .null)]
  | element span name attributes children =>
    recordWith span "Element"
      [("name", name.record), ("selfClosing", .bool false),
        ("attributes", .array (records attributes)), ("children", .array (records children))]
  | fragment span children =>
    recordWith span "Fragment" [("children", .array (records children))]
  | expression span _ content markup =>
    recordWith span "Expression" [("text", .string content), ("nodes", .array (records markup))]
  | text span content => recordWith span "Text" [("text", .string content)]
  | string span content => recordWith span "String" [("text", .string content)]
  | setAttribute span name value =>
    recordWith span "Attribute" [("name", name.record), ("value", record value)]
  | bareAttribute span name =>
    recordWith span "Attribute" [("name", name.record), ("value", .null)]
  | spread span argument =>
    recordWith span "SpreadAttribute" [("argument", .string argument.text)]

/-- Several nodes as JSON. -/
def records : List Node → List Json
  | [] => []
  | node :: nodes => record node :: records nodes

end

end Node

/-- A whole program as JSON. -/
def Program.record (program : Program) : Json :=
  .object [("type", .string "Program"), ("body", .array (Node.records program.body))]

end EmbeddedJsx
