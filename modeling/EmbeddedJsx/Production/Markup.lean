import EmbeddedJsx.Node
import EmbeddedJsx.Production.Names

/-!
# Reading elements, fragments and expressions

Markup nests: an element may stand among the children of another, as the value of an attribute,
and inside an expression.  The productions of this file are therefore given, as `nested`, the
production that reads markup one level further down, and `markup` ties the knot with a number of
levels.  Nothing but the opening of an element or a fragment takes a level.
-/

namespace EmbeddedJsx.Production

variable (nested : Production Node) (steps : Nat)

/-! ## Expressions -/

/-- The markup in an expression, up to the right brace that closes it.  `depth` counts the
braces that are open inside. -/
def expressionMarkup : (steps depth : Nat) → Production (List Node)
  | 0, _ => exhaust
  | steps + 1, depth => do
    advance
    match ← current with
    | some .braceOpen => expressionMarkup steps (depth + 1)
    | some .braceClose =>
      match depth with
      | 0 => return []
      | depth + 1 => expressionMarkup steps depth
    | some .tagOpen | some .fragmentOpen =>
      let node ← nested
      let nodes ← expressionMarkup steps depth
      return node :: nodes
    | _ => expressionMarkup steps depth

/-- An expression of the host language, from its left brace to the matching right brace. -/
def expression : Production Node := do
  let brace ← expect .braceOpen .braceOpen
  let opened ← get
  let nodes ← expressionMarkup nested steps 0
  let closed ← get
  let text := opened.rest.take (closed.start - opened.stop)
  return .expression ⟨brace.span.start, closed.stop⟩ ⟨opened.stop, closed.start⟩
    (String.ofList text) nodes

/-! ## Attributes -/

/-- What stands after the equals sign of an attribute, up to its last token. -/
def assigned : Production Node := do
  match ← current with
  | some .string =>
    let literal ← expect .string .attributeValue
    return .string literal.span literal.text
  | some .braceOpen => expression nested steps
  | some .tagOpen | some .fragmentOpen => nested
  | _ => reject (.expected .attributeValue)

/-- The value of an attribute, if an equals sign says that there is one. -/
def attributeValue : Production (Option Node) := do
  if ← sees .assign then
    advance
    let value ← assigned nested steps
    advance
    return some value
  else
    return none

/-- A spread attribute, from its left brace. -/
def spread : Production Node := do
  let brace ← take .braceOpen .braceOpen
  let _ ← take .spread .spreadDots
  let argument ← take .identifier .spreadArgument
  let close ← take .braceClose .spreadEnd
  return .spread ⟨brace.span.start, close.span.stop⟩ argument

/-- An attribute with a name. -/
def namedAttribute : Production Node := do
  let name ← attributeName
  match ← attributeValue nested steps with
  | some value => return .setAttribute ⟨name.span.start, value.span.stop⟩ name value
  | none => return .bareAttribute name.span name

/-- One attribute, if there is one. -/
def oneAttribute : Production (Option Node) := do
  match ← current with
  | some .braceOpen => return some (← spread)
  | some .identifier => return some (← namedAttribute nested steps)
  | _ => return none

/-- All attributes of a tag. -/
def attributes : (steps : Nat) → Production (List Node)
  | 0 => exhaust
  | remaining + 1 => do
    match ← oneAttribute nested steps with
    | none => return []
    | some node =>
      let nodes ← attributes remaining
      return node :: nodes

/-! ## Tags -/

/-- An opening or self-closing tag. -/
structure Tag where
  /-- Whether the tag ends with `/>`. -/
  selfClosing : Bool
  /-- The name in the tag. -/
  name : Name
  /-- The attributes of the tag. -/
  attributes : List Node
deriving Repr

/-- An opening or self-closing tag, up to its `>` or `/>`. -/
def openingTag : Production Tag := do
  let _ ← take .tagOpen .tagOpen
  let name ← elementName steps
  let nodes ← attributes nested steps steps
  match ← current with
  | some .tagClose => return ⟨false, name, nodes⟩
  | some .selfClose => return ⟨true, name, nodes⟩
  | _ => reject (.expected .tagRest)

/-! ## Children -/

/-- The raw text after a cursor as a node, unless there is none. -/
def textAfter (c : Cursor) : List Node :=
  match c.raw with
  | [] => []
  | text => [.text ⟨c.stop, c.stop + text.length⟩ (String.ofList text)]

/-- The children of an element or a fragment, up to the `</` or `</>` after them. -/
def children : (steps : Nat) → Production (List Node)
  | 0 => exhaust
  | remaining + 1 => do
    let text := textAfter (← get)
    match ← advanceChild with
    | .closingOpen | .fragmentClose => return text
    | .tagOpen | .fragmentOpen =>
      let node ← nested
      let nodes ← children remaining
      return text ++ node :: nodes
    | .braceOpen =>
      let node ← expression nested steps
      let nodes ← children remaining
      return text ++ node :: nodes
    | _ =>
      let nodes ← children remaining
      return text ++ nodes

/-! ## Elements and fragments -/

/-- The closing tag of an element whose name is given. -/
def closing (name : Name) : Production Unit := do
  if ← sees .fragmentClose then
    reject (.fragmentCloseOf name.text)
  else
    let found ← closingTag steps
    if found.agrees name then
      return ()
    else
      rejectAt (.mismatch found.text name.text) found.span

/-- An element, from its `<` to its last `>` or `/>`. -/
def element : Production Node := do
  let start := (← get).start
  let tag ← openingTag nested steps
  if tag.selfClosing then
    return .selfClosed ⟨start, (← get).stop⟩ tag.name tag.attributes
  else
    let nodes ← children nested steps steps
    closing steps tag.name
    return .element ⟨start, (← get).stop⟩ tag.name tag.attributes nodes

/-- A fragment, from its `<>` to its `</>`. -/
def fragment : Production Node := do
  let opening ← expect .fragmentOpen .fragmentOpen
  let nodes ← children nested steps steps
  let close ← expect .fragmentClose .fragmentClose
  return .fragment ⟨opening.span.start, close.span.stop⟩ nodes

/-- Markup that may be nested the given number of levels deep. -/
def markup : (levels : Nat) → Production Node
  | 0 => reject .tooDeep
  | levels + 1 => do
    if ← sees .fragmentOpen then
      fragment (markup levels) steps
    else
      element (markup levels) steps

end EmbeddedJsx.Production
