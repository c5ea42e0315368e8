import EmbeddedJsx.Production.Markup
import Mathlib.Tactic.Common

/-!
# Trees moved forward

What has been read from a text stands further on if other text is put in front: every offset grows
by the same number, and nothing else changes.
-/

namespace EmbeddedJsx

/-- The span moved forward by a number of characters. -/
def Span.shift (n : ℕ) (span : Span) : Span := ⟨span.start + n, span.stop + n⟩

/-- The excerpt moved forward. -/
def Excerpt.shift (n : ℕ) (e : Excerpt) : Excerpt := ⟨e.span.shift n, e.text⟩

/-- The name moved forward. -/
def Name.shift (n : ℕ) : Name → Name
  | plain identifier => plain (identifier.shift n)
  | namespaced space identifier => namespaced (space.shift n) (identifier.shift n)
  | member first second more =>
    member (first.shift n) (second.shift n) (more.map (Excerpt.shift n))

namespace Node

mutual

/-- The tree below a node, the node included, moved forward. -/
def shift (n : ℕ) : Node → Node
  | selfClosed span name attributes =>
    selfClosed (span.shift n) (name.shift n) (shiftAll n attributes)
  | element span name attributes children =>
    element (span.shift n) (name.shift n) (shiftAll n attributes) (shiftAll n children)
  | fragment span children => fragment (span.shift n) (shiftAll n children)
  | expression span inside content markup =>
    expression (span.shift n) (inside.shift n) content (shiftAll n markup)
  | text span content => text (span.shift n) content
  | string span content => string (span.shift n) content
  | setAttribute span name value => setAttribute (span.shift n) (name.shift n) (shift n value)
  | bareAttribute span name => bareAttribute (span.shift n) (name.shift n)
  | spread span argument => spread (span.shift n) (argument.shift n)

/-- The trees below the nodes of a list, moved forward. -/
def shiftAll (n : ℕ) : List Node → List Node
  | [] => []
  | node :: nodes => shift n node :: shiftAll n nodes

end

end Node

/-- The error moved forward. -/
def SyntaxError.shift (n : ℕ) (error : SyntaxError) : SyntaxError :=
  ⟨error.fault, error.span.shift n⟩

/-- The tag moved forward. -/
def Production.Tag.shift (n : ℕ) (tag : Production.Tag) : Production.Tag :=
  ⟨tag.selfClosing, tag.name.shift n, Node.shiftAll n tag.attributes⟩

variable {n : ℕ}

@[simp] lemma Excerpt.text_shift (e : Excerpt) : (e.shift n).text = e.text := rfl

@[simp] lemma Node.shiftAll_append (left right : List Node) :
    shiftAll n (left ++ right) = shiftAll n left ++ shiftAll n right := by
  induction left with
  | nil => rfl
  | cons node left ih => rw [List.cons_append, shiftAll, shiftAll, ih, List.cons_append]

@[simp] lemma Node.span_shift (node : Node) : (node.shift n).span = node.span.shift n := by
  cases node <;> rfl

/-! ### Trees that stay -/

@[simp] lemma Span.shift_zero (span : Span) : span.shift 0 = span := rfl

@[simp] lemma Excerpt.shift_zero (e : Excerpt) : e.shift 0 = e := rfl

@[simp] lemma Name.shift_zero (name : Name) : name.shift 0 = name := by
  cases name with
  | plain | namespaced => rfl
  | member first second more =>
    have hmore : more.map (Excerpt.shift 0) = more := List.map_id _
    rw [shift, hmore]
    rfl

namespace Node

mutual

lemma shift_zero : ∀ node : Node, node.shift 0 = node
  | selfClosed _ _ attributes => by simp [shift, shiftAll_zero attributes]
  | element _ _ attributes children => by
    simp [shift, shiftAll_zero attributes, shiftAll_zero children]
  | fragment _ children => by simp [shift, shiftAll_zero children]
  | expression _ _ _ markup => by simp [shift, shiftAll_zero markup]
  | setAttribute _ _ value => by simp [shift, shift_zero value]
  | text _ _ | string _ _ | bareAttribute _ _ | spread _ _ => by simp [shift]

lemma shiftAll_zero : ∀ nodes : List Node, shiftAll 0 nodes = nodes
  | [] => rfl
  | node :: nodes => by rw [shiftAll, shift_zero node, shiftAll_zero nodes]

end

end Node

/-! ### Names -/

namespace Name

@[simp] lemma parts_shift (name : Name) : (name.shift n).parts = name.parts.map (Excerpt.shift n) := by
  cases name <;> rfl

/-- A name reads what it did. -/
@[simp] lemma text_shift (name : Name) : (name.shift n).text = name.text := by
  have hseparator : (name.shift n).separator = name.separator := by cases name <;> rfl
  simp [text, hseparator, Function.comp_def]

@[simp] lemma span_shift (name : Name) : (name.shift n).span = name.span.shift n := by
  cases name with
  | plain | namespaced => rfl
  | member first second more =>
    simp only [shift, span, last, Span.shift, List.getLastD_map]
    rfl

/-- Whether names agree does not depend on where they stand. -/
@[simp] lemma agrees_shift (a b : Name) : (a.shift n).agrees (b.shift n) = a.agrees b := by
  cases a <;> cases b <;> simp [shift, agrees, Function.comp_def]

end Name

end EmbeddedJsx
