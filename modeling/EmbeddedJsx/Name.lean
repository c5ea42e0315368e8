import EmbeddedJsx.Position

/-!
# Names

The name of an element is an identifier, two identifiers joined by a colon, or two or more
joined by dots; the name of an attribute has one of the first two forms.
-/

namespace EmbeddedJsx

/-- A part of a text: where it stands and what it reads. -/
structure Excerpt where
  /-- Where the part stands. -/
  span : Span
  /-- What the part reads. -/
  text : String
deriving DecidableEq, Repr

/-- The name of an element or an attribute. -/
inductive Name where
  /-- A single identifier. -/
  | plain (identifier : Excerpt)
  /-- Two identifiers joined by a colon. -/
  | namespaced (space identifier : Excerpt)
  /-- Two or more identifiers joined by dots. -/
  | member (first second : Excerpt) (more : List Excerpt)
deriving DecidableEq, Repr

namespace Name

/-- The identifiers of a name, in the order of the text. -/
def parts : Name → List Excerpt
  | plain identifier => [identifier]
  | namespaced space identifier => [space, identifier]
  | member first second more => first :: second :: more

/-- The first identifier of a name. -/
def first : Name → Excerpt
  | plain identifier => identifier
  | namespaced space _ => space
  | member first _ _ => first

/-- The last identifier of a name. -/
def last : Name → Excerpt
  | plain identifier => identifier
  | namespaced _ identifier => identifier
  | member _ second more => more.getLastD second

/-- The range from the first to the last identifier. -/
def span (name : Name) : Span := ⟨name.first.span.start, name.last.span.stop⟩

/-- What joins the identifiers of a name. -/
def separator : Name → String
  | member _ _ _ => "."
  | _ => ":"

/-- A name written without space. -/
def text (name : Name) : String :=
  name.separator.intercalate (name.parts.map Excerpt.text)

/-- Whether two names have the same form and the same identifiers. -/
def agrees : Name → Name → Bool
  | plain a, plain b => a.text == b.text
  | namespaced a b, namespaced c d => a.text == c.text && b.text == d.text
  | member a b more, member c d more' =>
    a.text == c.text && b.text == d.text && more.map Excerpt.text == more'.map Excerpt.text
  | _, _ => false

@[simp] theorem head?_parts (name : Name) : name.parts.head? = some name.first := by
  cases name <;> rfl

theorem getLast?_parts (name : Name) : name.parts.getLast? = some name.last := by
  cases name <;> simp [parts, last, List.getLast?_cons]

/-- Names agree exactly when their forms and the texts of their identifiers do. -/
theorem agrees_iff (a b : Name) :
    a.agrees b = true ↔
      (match a, b with
        | plain _, plain _ | namespaced _ _, namespaced _ _ | member _ _ _, member _ _ _ => True
        | _, _ => False) ∧
      a.parts.map Excerpt.text = b.parts.map Excerpt.text := by
  cases a <;> cases b <;> simp [agrees, parts, and_assoc]

end Name

end EmbeddedJsx
