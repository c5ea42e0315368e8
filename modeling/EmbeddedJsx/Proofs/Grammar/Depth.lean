import EmbeddedJsx.Proofs.Grammar.Derivation

/-!
# Depth of nesting

The depth of a node is the largest number of elements and fragments on a way from the node down
into the tree, be it by way of children, of the values of attributes or of expressions.
-/

namespace EmbeddedJsx

namespace Node

mutual

/-- How deep elements and fragments are nested in a node, the node itself included. -/
def depth : Node → ℕ
  | selfClosed _ _ attributes => deepest attributes + 1
  | element _ _ attributes children => max (deepest attributes) (deepest children) + 1
  | fragment _ children => deepest children + 1
  | expression _ _ _ markup => deepest markup
  | setAttribute _ _ value => depth value
  | text _ _ | string _ _ | bareAttribute _ _ | spread _ _ => 0

/-- The largest depth of the nodes in a list. -/
def deepest : List Node → ℕ
  | [] => 0
  | node :: nodes => max (depth node) (deepest nodes)

end

@[simp] lemma deepest_nil : deepest [] = 0 := rfl

@[simp] lemma deepest_cons (node : Node) (nodes : List Node) :
    deepest (node :: nodes) = max node.depth (deepest nodes) := rfl

@[simp] lemma deepest_append (left right : List Node) :
    deepest (left ++ right) = max (deepest left) (deepest right) := by
  induction left with
  | nil => simp
  | cons node left ih => simp [ih, Nat.max_assoc]

lemma depth_le_deepest {node : Node} {nodes : List Node} (h : node ∈ nodes) :
    node.depth ≤ deepest nodes := by
  induction nodes with
  | nil => simp at h
  | cons first nodes ih =>
    rw [deepest_cons]
    rcases List.mem_cons.1 h with rfl | h
    · exact le_max_left _ _
    · exact (ih h).trans (le_max_right _ _)

end Node

/-- How deep elements and fragments are nested in a program. -/
def Program.depth (program : Program) : ℕ := Node.deepest program.body

/-- How deep elements and fragments are nested in a phrase. -/
def Grammar.Phrase.depth : Grammar.Phrase → ℕ
  | .markup node | .expression node | .value node | .attribute node | .child node => node.depth
  | .body nodes | .attributes nodes | .children nodes => Node.deepest nodes

end EmbeddedJsx
