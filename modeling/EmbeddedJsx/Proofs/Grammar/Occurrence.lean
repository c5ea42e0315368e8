import EmbeddedJsx.Proofs.Grammar.Depth
import EmbeddedJsx.Proofs.Lexical.Extent

/-!
# Nodes below nodes

A node occurs in a tree at whatever depth.  In the tree that a derivation is about, every node that
occurs has a derivation of its own, between places of the same text: that is
`Grammar.HasPhrase.of_occurs`.  So what is to be shown of all nodes of a tree is shown of the
phrases for single nodes.
-/

namespace EmbeddedJsx

namespace Node

/-- The nodes directly below a node, in the order of the text. -/
def subs : Node → List Node
  | selfClosed _ _ attributes => attributes
  | element _ _ attributes children => attributes ++ children
  | fragment _ children => children
  | expression _ _ _ markup => markup
  | setAttribute _ _ value => [value]
  | text _ _ | string _ _ | bareAttribute _ _ | spread _ _ => []

/-- The node is the root of a tree or occurs below it. -/
inductive Occurs (node : Node) : Node → Prop where
  | root : Occurs node node
  | under {sub root : Node} : sub ∈ root.subs → Occurs node sub → Occurs node root

/-- Whether a node is an element or a fragment. -/
def isMarkup : Node → Bool
  | selfClosed _ _ _ | element _ _ _ _ | fragment _ _ => true
  | _ => false

variable {node root sub : Node}

lemma depth_le_of_mem_subs (h : sub ∈ root.subs) : sub.depth ≤ root.depth := by
  cases root with
  | selfClosed _ _ attributes => exact (depth_le_deepest h).trans (Nat.le_succ _)
  | element _ _ attributes children =>
    have hdeep : sub.depth ≤ deepest (attributes ++ children) := depth_le_deepest h
    rw [deepest_append] at hdeep
    exact hdeep.trans (Nat.le_succ _)
  | fragment _ children => exact (depth_le_deepest h).trans (Nat.le_succ _)
  | expression _ _ _ markup => exact depth_le_deepest h
  | setAttribute _ _ value =>
    obtain rfl := List.mem_singleton.1 h
    exact le_rfl
  | _ => simp [subs] at h

lemma Occurs.depth_le (h : node.Occurs root) : node.depth ≤ root.depth := by
  induction h with
  | root => exact le_rfl
  | under hsub _ ih => exact ih.trans (depth_le_of_mem_subs hsub)

end Node

/-- The node occurs in the program. -/
def Program.Contains (program : Program) (node : Node) : Prop :=
  ∃ root ∈ program.body, node.Occurs root

lemma Program.Contains.depth_le {program : Program} {node : Node} (h : program.Contains node) :
    node.depth ≤ program.depth := by
  obtain ⟨root, hroot, hoccurs⟩ := h
  exact hoccurs.depth_le.trans (Node.depth_le_deepest hroot)

namespace Grammar

/-- The nodes that stand for a phrase. -/
def Phrase.nodes : Phrase → List Node
  | .markup node | .expression node | .value node | .attribute node | .child node => [node]
  | .body nodes | .attributes nodes | .children nodes => nodes

/-- The node of a phrase that is about one node. -/
def Phrase.node? : Phrase → Option Node
  | .markup node | .expression node | .value node | .attribute node | .child node => some node
  | .body _ | .attributes _ | .children _ => none

/-- A phrase of its own stands in the text for the node. -/
def HasPhrase (text : List Char) (node : Node) : Prop :=
  ∃ phrase p q, phrase.node? = some node ∧ Derives phrase p q ∧ p.InText text

variable {text : List Char} {phrase : Phrase} {p q : Place} {node root sub : Node}
  {nodes : List Node}

/-- Each node of a list that stands for a phrase has a phrase of its own. -/
lemma Derives.hasPhrase_of_mem (h : Derives phrase p q) (hlist : phrase.node? = none)
    (hp : p.InText text) (hmem : node ∈ phrase.nodes) : HasPhrase text node := by
  induction h with
  | bodyNil => simp [Phrase.nodes] at hmem
  | bodyToken hnext _ _ _ _ _ ih => exact ih rfl (hp.reaches hnext.reaches) hmem
  | bodyMarkup hskip hnode _ _ ih =>
    have hm := hp.reaches hskip.reaches
    rcases List.mem_cons.1 hmem with rfl | hmem
    · exact ⟨_, _, _, rfl, hnode, hm⟩
    · exact ih rfl (hm.reaches hnode.reaches) hmem
  | bodyBraces hopen hinner hclose _ ih ih' =>
    -- inner braces are no node of their own: the markup in them belongs to the outer list
    have ha := hp.reaches hopen.reaches
    rcases List.mem_append.1 hmem with hmem | hmem
    · exact ih rfl ha hmem
    · exact ih' rfl (ha.reaches (hinner.reaches.trans hclose.reaches)) hmem
  | attributesNil => simp [Phrase.nodes] at hmem
  | attributesCons hnode _ _ ih =>
    rcases List.mem_cons.1 hmem with rfl | hmem
    · exact ⟨_, _, _, rfl, hnode, hp⟩
    · exact ih rfl (hp.reaches hnode.reaches) hmem
  | childrenNil => simp [Phrase.nodes] at hmem
  | childrenCons hnode _ _ ih =>
    rcases List.mem_cons.1 hmem with rfl | hmem
    · exact ⟨_, _, _, rfl, hnode, hp⟩
    · exact ih rfl (hp.reaches hnode.reaches) hmem
  | _ => simp [Phrase.node?] at hlist

/-- Each node directly below that of a phrase has a phrase of its own. -/
lemma Derives.hasPhrase_of_mem_subs (h : Derives phrase p q) (hroot : phrase.node? = some root)
    (hp : p.InText text) (hsub : sub ∈ root.subs) : HasPhrase text sub := by
  induction h with
  | selfClosed hopen hname hattributes _ _ =>
    obtain rfl := Option.some.inj hroot
    exact hattributes.hasPhrase_of_mem rfl
      (hp.reaches (hopen.reaches.trans hname.reaches)) hsub
  | element hopen hname hattributes hclose hchildren _ _ _ _ _ _ =>
    obtain rfl := Option.some.inj hroot
    have hb := hp.reaches (hopen.reaches.trans hname.reaches)
    rcases List.mem_append.1 hsub with hsub | hsub
    · exact hattributes.hasPhrase_of_mem rfl hb hsub
    · exact hchildren.hasPhrase_of_mem rfl
        (hb.reaches (hattributes.reaches.trans hclose.reaches)) hsub
  | fragment hopen hchildren _ _ =>
    obtain rfl := Option.some.inj hroot
    exact hchildren.hasPhrase_of_mem rfl (hp.reaches hopen.reaches) hsub
  | expression hopen hbody _ _ _ _ =>
    obtain rfl := Option.some.inj hroot
    exact hbody.hasPhrase_of_mem rfl (hp.reaches hopen.reaches) hsub
  | valueExpression hskip _ ih => exact ih hroot (hp.reaches hskip.reaches)
  | valueMarkup hskip _ ih => exact ih hroot (hp.reaches hskip.reaches)
  | setAttribute hname hsign hvalue _ =>
    obtain rfl := Option.some.inj hroot
    obtain rfl := List.mem_singleton.1 hsub
    exact ⟨_, _, _, rfl, hvalue, hp.reaches (hname.reaches.trans hsign.reaches)⟩
  | childMarkup _ ih => exact ih hroot hp
  | childExpression _ ih => exact ih hroot hp
  | valueString | spread | bareAttribute | childText =>
    obtain rfl := Option.some.inj hroot
    simp [Node.subs] at hsub
  | _ => simp [Phrase.node?] at hroot

/-- **Occurring nodes.**  Every node that occurs below one that has a phrase has one as well. -/
lemma HasPhrase.of_occurs (hoccurs : node.Occurs root) (h : HasPhrase text root) :
    HasPhrase text node := by
  induction hoccurs with
  | root => exact h
  | under hsub _ ih =>
    obtain ⟨phrase, p, q, hroot, hderives, hp⟩ := h
    exact ih (hderives.hasPhrase_of_mem_subs hroot hp hsub)

/-- An element or a fragment that stands for a phrase is derived as markup. -/
lemma Derives.exists_markup (h : Derives phrase p q) (hnode : phrase.node? = some node)
    (hp : p.InText text) (hmarkup : node.isMarkup = true) :
    ∃ m r, Derives (.markup node) m r ∧ m.InText text := by
  induction h with
  | selfClosed hopen hname hattributes hclose _ =>
    obtain rfl := Option.some.inj hnode
    exact ⟨_, _, .selfClosed hopen hname hattributes hclose, hp⟩
  | element hopen hname hattributes hclose hchildren hopen' hname' hclose' hmatches _ _ =>
    obtain rfl := Option.some.inj hnode
    exact ⟨_, _, .element hopen hname hattributes hclose hchildren hopen' hname' hclose' hmatches,
      hp⟩
  | fragment hopen hchildren hclose _ =>
    obtain rfl := Option.some.inj hnode
    exact ⟨_, _, .fragment hopen hchildren hclose, hp⟩
  | valueMarkup hskip _ ih => exact ih hnode (hp.reaches hskip.reaches)
  | valueExpression hskip _ ih => exact ih hnode (hp.reaches hskip.reaches)
  | childMarkup _ ih => exact ih hnode hp
  | childExpression _ ih => exact ih hnode hp
  | expression | valueString | spread | bareAttribute | setAttribute | childText =>
    obtain rfl := Option.some.inj hnode
    simp [Node.isMarkup] at hmarkup
  | _ => simp [Phrase.node?] at hnode

lemma HasPhrase.exists_markup (h : HasPhrase text node) (hmarkup : node.isMarkup = true) :
    ∃ p q, Derives (.markup node) p q ∧ p.InText text := by
  obtain ⟨phrase, p, q, hnode, hderives, hp⟩ := h
  exact hderives.exists_markup hnode hp hmarkup

lemma DerivesProgram.hasPhrase_of_mem (h : DerivesProgram p nodes) (hp : p.InText text)
    (hmem : node ∈ nodes) : HasPhrase text node := by
  induction h with
  | nil => simp at hmem
  | token hread _ _ _ ih => exact ih (hp.reaches hread.reaches) hmem
  | markup hskip hnode _ ih =>
    have hm := hp.reaches hskip.reaches
    rcases List.mem_cons.1 hmem with rfl | hmem
    · exact ⟨_, _, _, rfl, hnode, hm⟩
    · exact ih (hm.reaches hnode.reaches) hmem

/-- Every node of a derived program has a phrase of its own. -/
theorem DerivesProgram.hasPhrase {program : Program}
    (h : DerivesProgram (Place.ofText text) program.body) (hnode : program.Contains node) :
    HasPhrase text node := by
  obtain ⟨root, hroot, hoccurs⟩ := hnode
  exact .of_occurs hoccurs (h.hasPhrase_of_mem (Place.inText_ofText text) hroot)

end Grammar

end EmbeddedJsx
