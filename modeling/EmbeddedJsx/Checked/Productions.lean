import EmbeddedJsx.Checked
import EmbeddedJsx.Production.Markup

/-!
# Productions with checks

The constructs of the grammar are read here by offsets.  Names are compared by looking up their
parts in the text, the raw text between two tokens is looked up when the second has been reached,
and where a name ends is asked of its last part.
-/

namespace EmbeddedJsx

/-- Whether two names have the same form. -/
def Name.sameForm : Name → Name → Bool
  | plain _, plain _ | namespaced _ _, namespaced _ _ | member _ _ _, member _ _ _ => true
  | _, _ => false

namespace Checked

open Production (Tag)

/-! ## Names -/

/-- The further parts of a member name, each with the dot in front of it. -/
def memberParts : (steps : Nat) → Checked (List Excerpt)
  | 0 => exhaust
  | steps + 1 => do
    if ← sees .dot then
      advance
      let part ← take .identifier .memberPart
      let parts ← memberParts steps
      return part :: parts
    else
      return []

/-- The name of an element. -/
def elementName (steps : Nat) : Checked Name := do
  let first ← take .identifier .elementName
  match ← kind with
  | some .dot =>
    advance
    let second ← take .identifier .memberPart
    let more ← memberParts steps
    if ← sees .colon then
      reject .memberNamespace
    else
      return .member first second more
  | some .colon =>
    advance
    let second ← take .identifier .localName
    match ← kind with
    | some .colon | some .dot => reject .secondColon
    | _ => return .namespaced first second
  | _ => return .plain first

/-- The name of an attribute. -/
def attributeName : Checked Name := do
  let first ← take .identifier .attributeName
  if ← sees .colon then
    advance
    let second ← take .identifier .attributeLocalName
    return .namespaced first second
  else
    return .plain first

/-- A closing tag, up to its `>`; the answer is the name in it. -/
def closingTag (steps : Nat) : Checked Name := do
  let _ ← take .closingOpen .closingOpen
  let name ← elementName steps
  let _ ← expect .tagClose .closingEnd
  return name

/-- Whether the text has the same at the two parts of each pair. -/
def sameParts : List (Excerpt × Excerpt) → Checked Bool
  | [] => return true
  | (a, b) :: pairs => do
    let left ← slice a.span
    let right ← slice b.span
    if left = right then sameParts pairs else return false

/-- Whether two names have the same form and the same identifiers. -/
def agree (a b : Name) : Checked Bool := do
  if a.sameForm b && a.parts.length == b.parts.length then
    sameParts (a.parts.zip b.parts)
  else
    return false

variable (nested : Checked Node) (steps : Nat)

/-! ## Expressions -/

/-- The markup in an expression, up to the right brace that closes it.  `depth` counts the
braces that are open inside. -/
def expressionMarkup : (steps depth : Nat) → Checked (List Node)
  | 0, _ => exhaust
  | steps + 1, depth => do
    advance
    match ← kind with
    | some .braceOpen => expressionMarkup steps (depth + 1)
    | some .braceClose =>
      match depth with
      | 0 => return []
      | depth + 1 => expressionMarkup steps depth
    | some .tagOpen | some .fragmentOpen =>
      let node ← nested
      let nodes ← expressionMarkup steps depth
      return node :: nodes
    | _ => expressionMarkup steps depth

/-- An expression of the host language, from its left brace to the matching right brace. -/
def expression : Checked Node := do
  let brace ← expect .braceOpen .braceOpen
  let opened ← mark
  let nodes ← expressionMarkup nested steps 0
  let closed ← mark
  let text := Text.slice (← read) opened.stop closed.start
  return .expression ⟨brace.span.start, closed.stop⟩ ⟨opened.stop, closed.start⟩
    (String.ofList text) nodes

/-! ## Attributes -/

/-- What stands after the equals sign of an attribute, up to its last token. -/
def assigned : Checked Node := do
  match ← kind with
  | some .string =>
    let literal ← current
    return .string literal.span literal.text
  | some .braceOpen => expression nested steps
  | some .tagOpen | some .fragmentOpen => nested
  | _ => reject (.expected .attributeValue)

/-- The value of an attribute, if an equals sign says that there is one. -/
def attributeValue : Checked (Option Node) := do
  if ← sees .assign then
    advance
    let value ← assigned nested steps
    advance
    return some value
  else
    return none

/-- A spread attribute, from its left brace. -/
def spread : Checked Node := do
  let start := (← mark).start
  advance
  let _ ← take .spread .spreadDots
  let argument ← take .identifier .spreadArgument
  let close ← take .braceClose .spreadEnd
  return .spread ⟨start, close.span.stop⟩ argument

/-- An attribute with a name. -/
def namedAttribute : Checked Node := do
  let start := (← mark).start
  let name ← attributeName
  match ← attributeValue nested steps with
  | some value => return .setAttribute ⟨start, value.span.stop⟩ name value
  | none =>
    let last ← part name.parts.getLast?
    return .bareAttribute ⟨start, last.span.stop⟩ name

/-- One attribute, if there is one. -/
def oneAttribute : Checked (Option Node) := do
  match ← kind with
  | some .braceOpen => return some (← spread)
  | some .identifier => return some (← namedAttribute nested steps)
  | _ => return none

/-- All attributes of a tag. -/
def attributes : (steps : Nat) → Checked (List Node)
  | 0 => exhaust
  | remaining + 1 => do
    match ← oneAttribute nested steps with
    | none => return []
    | some node =>
      let nodes ← attributes remaining
      return node :: nodes

/-! ## Tags -/

/-- An opening or self-closing tag, up to its `>` or `/>`. -/
def openingTag : Checked Tag := do
  let _ ← take .tagOpen .tagOpen
  let name ← elementName steps
  let nodes ← attributes nested steps steps
  match ← kind with
  | some .tagClose => return ⟨false, name, nodes⟩
  | some .selfClose => return ⟨true, name, nodes⟩
  | _ => reject (.expected .tagRest)

/-- The closing tag of an element whose name is given. -/
def closing (name : Name) : Checked Unit := do
  if ← sees .fragmentClose then
    reject (.fragmentCloseOf name.text)
  else
    let found ← closingTag steps
    if ← agree name found then
      return ()
    else
      let first ← part found.parts.head?
      let last ← part found.parts.getLast?
      rejectAt (.mismatch found.text name.text) ⟨first.span.start, last.span.stop⟩

/-! ## Children -/

/-- The raw text between an offset and the current token as a node, unless there is none. -/
def textFrom (offset : Nat) : Checked (List Node) := do
  let stop := (← mark).start
  if offset < stop then
    let text ← slice ⟨offset, stop⟩
    return [.text ⟨offset, stop⟩ (String.ofList text)]
  else
    return []

/-- The children of an element or a fragment, up to the `</` or `</>` after them. -/
def children : (steps : Nat) → Checked (List Node)
  | 0 => exhaust
  | remaining + 1 => do
    let offset := (← mark).stop
    let kind ← advanceChild
    let text ← textFrom offset
    match kind with
    | .closingOpen | .fragmentClose => return text
    | .tagOpen | .fragmentOpen =>
      let node ← nested
      let nodes ← children remaining
      return text ++ node :: nodes
    | .braceOpen =>
      let node ← expression nested steps
      let nodes ← children remaining
      return text ++ node :: nodes
    | _ =>
      let nodes ← children remaining
      return text ++ nodes

/-! ## Elements and fragments -/

/-- An element, from its `<` to its last `>` or `/>`. -/
def element : Checked Node := do
  let start := (← mark).start
  let tag ← openingTag nested steps
  if tag.selfClosing then
    return .selfClosed ⟨start, (← mark).stop⟩ tag.name tag.attributes
  else
    let nodes ← children nested steps steps
    closing steps tag.name
    return .element ⟨start, (← mark).stop⟩ tag.name tag.attributes nodes

/-- A fragment, from its `<>` to its `</>`. -/
def fragment : Checked Node := do
  let start := (← mark).start
  let _ ← expect .fragmentOpen .fragmentOpen
  let nodes ← children nested steps steps
  let _ ← expect .fragmentClose .fragmentClose
  return .fragment ⟨start, (← mark).stop⟩ nodes

/-- Markup that may be nested the given number of levels deep. -/
def markup : (levels : Nat) → Checked Node
  | 0 => reject .tooDeep
  | levels + 1 => do
    if ← sees .fragmentOpen then
      fragment (markup levels) steps
    else
      element (markup levels) steps

end Checked

end EmbeddedJsx
