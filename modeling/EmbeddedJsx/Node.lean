import EmbeddedJsx.Name

/-!
# Trees of markup

A node is an element, a fragment, or something that stands in one of them.  Every node knows
its span, and wherever a text is shown with a node, the node holds it.

`Node.same` compares two nodes as markup: a span tells where something was found and is no part
of what it is, so identifiers and strings are told apart by their kind alone.  The inside of an
expression is opaque, and is told apart by its range.
-/

namespace EmbeddedJsx

/-- A node of a tree of markup. -/
inductive Node where
  /-- An element written as one tag, `<name … />`. -/
  | selfClosed (span : Span) (name : Name) (attributes : List Node)
  /-- An element with an opening and a closing tag. -/
  | element (span : Span) (name : Name) (attributes children : List Node)
  /-- A fragment, `<> … </>`. -/
  | fragment (span : Span) (children : List Node)
  /-- An expression of the host language between braces: the range and the text inside the
  braces, and the markup in it. -/
  | expression (span inside : Span) (text : String) (markup : List Node)
  /-- Raw text between the tags of an element or a fragment. -/
  | text (span : Span) (text : String)
  /-- A string literal, with its quotes, as the value of an attribute. -/
  | string (span : Span) (text : String)
  /-- An attribute with a value. -/
  | setAttribute (span : Span) (name : Name) (value : Node)
  /-- An attribute without a value. -/
  | bareAttribute (span : Span) (name : Name)
  /-- An attribute `{...argument}`. -/
  | spread (span : Span) (argument : Excerpt)
deriving Repr

namespace Node

/-- Where a node stands. -/
def span : Node → Span
  | selfClosed span _ _ => span
  | element span _ _ _ => span
  | fragment span _ => span
  | expression span _ _ _ => span
  | text span _ => span
  | string span _ => span
  | setAttribute span _ _ => span
  | bareAttribute span _ => span
  | spread span _ => span

end Node

/-- Whether two names are equal once it is forgotten where their identifiers stand and, with
that, what they read. -/
def Name.same : Name → Name → Bool
  | plain _, plain _ => true
  | namespaced _ _, namespaced _ _ => true
  | member _ _ more, member _ _ more' => more.length == more'.length
  | _, _ => false

namespace Node

mutual

/-- Whether two nodes are the same markup. -/
def same : Node → Node → Bool
  | selfClosed _ n as, selfClosed _ m bs => n.same m && sameAll as bs
  | element _ n as cs, element _ m bs ds => n.same m && sameAll as bs && sameAll cs ds
  | fragment _ cs, fragment _ ds => sameAll cs ds
  | expression _ r _ ns, expression _ s _ ms => r == s && sameAll ns ms
  | text _ s, text _ t => s == t
  | string _ _, string _ _ => true
  | setAttribute _ n v, setAttribute _ m w => n.same m && same v w
  | bareAttribute _ n, bareAttribute _ m => n.same m
  | spread _ _, spread _ _ => true
  | _, _ => false

/-- Whether two lists of nodes are the same markup, node by node. -/
def sameAll : List Node → List Node → Bool
  | [], [] => true
  | n :: ns, m :: ms => same n m && sameAll ns ms
  | _, _ => false

end

end Node

/-- The markup of a whole text. -/
structure Program where
  /-- The top-level elements and fragments, in the order of the text. -/
  body : List Node
deriving Repr

/-- Whether two programs are the same markup. -/
def Program.same (a b : Program) : Bool := Node.sameAll a.body b.body

/-- One node of each class of nodes that are the same markup, in the order of the list. -/
def Node.representatives (nodes : List Node) : List Node :=
  nodes.foldl (fun found n => if found.any (·.same n) then found else found ++ [n]) []

end EmbeddedJsx
