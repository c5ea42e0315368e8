import EmbeddedJsx.Production

/-!
# Reading names
-/

namespace EmbeddedJsx.Production

/-- The further parts of a member name, each with the dot in front of it. -/
def memberParts : (steps : Nat) → Production (List Excerpt)
  | 0 => exhaust
  | steps + 1 => do
    if ← sees .dot then
      advance
      let part ← take .identifier .memberPart
      let parts ← memberParts steps
      return part :: parts
    else
      return []

/-- The name of an element. -/
def elementName (steps : Nat) : Production Name := do
  let first ← take .identifier .elementName
  match ← current with
  | some .dot =>
    advance
    let second ← take .identifier .memberPart
    let more ← memberParts steps
    if ← sees .colon then
      reject .memberNamespace
    else
      return .member first second more
  | some .colon =>
    advance
    let second ← take .identifier .localName
    match ← current with
    | some .colon | some .dot => reject .secondColon
    | _ => return .namespaced first second
  | _ => return .plain first

/-- The name of an attribute. -/
def attributeName : Production Name := do
  let first ← take .identifier .attributeName
  if ← sees .colon then
    advance
    let second ← take .identifier .attributeLocalName
    return .namespaced first second
  else
    return .plain first

/-- A closing tag, up to its `>`; the answer is the name in it. -/
def closingTag (steps : Nat) : Production Name := do
  let _ ← take .closingOpen .closingOpen
  let name ← elementName steps
  let _ ← expect .tagClose .closingEnd
  return name

end EmbeddedJsx.Production
