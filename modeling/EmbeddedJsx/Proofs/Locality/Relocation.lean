import EmbeddedJsx.Proofs.Grammar.Depth

/-!
# Trees moved to the front

A tree is moved to the front of a text by subtracting one number from all offsets in it.  Nothing
else in the tree changes: its texts, its form and its depth stay.
-/

namespace EmbeddedJsx

/-- The span moved to the front by a number of characters. -/
def Span.back (n : ℕ) (span : Span) : Span := ⟨span.start - n, span.stop - n⟩

/-- The excerpt moved to the front. -/
def Excerpt.back (n : ℕ) (e : Excerpt) : Excerpt := ⟨e.span.back n, e.text⟩

/-- The name moved to the front. -/
def Name.back (n : ℕ) : Name → Name
  | plain identifier => plain (identifier.back n)
  | namespaced space identifier => namespaced (space.back n) (identifier.back n)
  | member first second more =>
    member (first.back n) (second.back n) (more.map (Excerpt.back n))

namespace Node

mutual

/-- The tree below a node, the node included, moved to the front. -/
def back (n : ℕ) : Node → Node
  | selfClosed span name attributes =>
    selfClosed (span.back n) (name.back n) (backAll n attributes)
  | element span name attributes children =>
    element (span.back n) (name.back n) (backAll n attributes) (backAll n children)
  | fragment span children => fragment (span.back n) (backAll n children)
  | expression span inside content markup =>
    expression (span.back n) (inside.back n) content (backAll n markup)
  | text span content => text (span.back n) content
  | string span content => string (span.back n) content
  | setAttribute span name value => setAttribute (span.back n) (name.back n) (back n value)
  | bareAttribute span name => bareAttribute (span.back n) (name.back n)
  | spread span argument => spread (span.back n) (argument.back n)

/-- The trees below the nodes of a list, moved to the front. -/
def backAll (n : ℕ) : List Node → List Node
  | [] => []
  | node :: nodes => back n node :: backAll n nodes

end

lemma backAll_append (n : ℕ) (left right : List Node) :
    backAll n (left ++ right) = backAll n left ++ backAll n right := by
  induction left with
  | nil => rfl
  | cons node left ih => rw [List.cons_append, backAll, backAll, ih, List.cons_append]

mutual

@[simp] lemma depth_back (n : ℕ) : ∀ node : Node, (node.back n).depth = node.depth
  | selfClosed _ _ attributes => by rw [back, depth, depth, deepest_backAll n attributes]
  | element _ _ attributes children => by
    rw [back, depth, depth, deepest_backAll n attributes, deepest_backAll n children]
  | fragment _ children => by rw [back, depth, depth, deepest_backAll n children]
  | expression _ _ _ markup => by rw [back, depth, depth, deepest_backAll n markup]
  | setAttribute _ _ value => by rw [back, depth, depth, depth_back n value]
  | text _ _ | string _ _ | bareAttribute _ _ | spread _ _ => rfl

lemma deepest_backAll (n : ℕ) : ∀ nodes : List Node, deepest (backAll n nodes) = deepest nodes
  | [] => rfl
  | node :: nodes => by
    rw [backAll, deepest_cons, deepest_cons, depth_back n node, deepest_backAll n nodes]

end

end Node

/-- A name moved to the front spans what it did, moved to the front. -/
lemma Name.span_back (n : ℕ) (name : Name) : (name.back n).span = name.span.back n := by
  cases name with
  | plain | namespaced => rfl
  | member first second more =>
    simp only [back, span, last, Span.back, List.getLastD_map]
    rfl

lemma Name.Matches.back {name name' : Name} (h : name'.Matches name) (n : ℕ) :
    (name'.back n).Matches (name.back n) := by
  cases h with
  | plain h => exact .plain h
  | namespaced h h' => exact .namespaced h h'
  | member h h' hmore =>
    refine .member h h' ?_
    simpa [List.map_map, Function.comp_def, Excerpt.back] using hmore

/-- The phrase about the same nodes, moved to the front. -/
def Grammar.Phrase.back (n : ℕ) : Grammar.Phrase → Grammar.Phrase
  | .markup node => .markup (node.back n)
  | .expression node => .expression (node.back n)
  | .body nodes => .body (Node.backAll n nodes)
  | .value node => .value (node.back n)
  | .attribute node => .attribute (node.back n)
  | .attributes nodes => .attributes (Node.backAll n nodes)
  | .child node => .child (node.back n)
  | .children nodes => .children (Node.backAll n nodes)

end EmbeddedJsx
