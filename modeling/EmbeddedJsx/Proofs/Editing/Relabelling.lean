import EmbeddedJsx.Proofs.Grammar.Depth
import EmbeddedJsx.Proofs.Reading.Recording

/-!
# Trees with other offsets and other texts

A relabelling puts other offsets in the place of those in a tree, and other texts in the place of
those that its expressions, raw texts and literals show.  The kinds of the nodes, their order, how
they are nested and what their names read stays.

What is said of a text by a sequence of visits is carried to another text by relabelling the tree
and the visits alike (`Program.ReadBy.relabel`).  All that has to be known of the two texts is what
the single visits read in them (`Visit.Shows`).
-/

namespace EmbeddedJsx

/-- Other offsets and other texts for the nodes of a tree. -/
structure Relabelling where
  /-- The offset at which something begins, instead of the given one. -/
  opens : ℕ → ℕ
  /-- The offset at which something ends, instead of the given one. -/
  closes : ℕ → ℕ
  /-- What an expression with the given inside shows, instead of the given text. -/
  content : Span → String → String
  /-- What a raw text or a string literal with the given span reads, instead of the given text. -/
  literal : Span → String → String

namespace Relabelling

variable (R : Relabelling)

/-- The new span of something that begins and ends at the ends of a span. -/
def span (span : Span) : Span := ⟨R.opens span.start, R.closes span.stop⟩

/-- The new span of what stands between two things, from the end of the one to the beginning of the
other. -/
def inside (span : Span) : Span := ⟨R.closes span.start, R.opens span.stop⟩

/-- All offsets are forgotten, and with them what expressions show, for that is what stands at
their offsets. -/
def forget : Relabelling where
  opens _ := 0
  closes _ := 0
  content _ _ := ""
  literal _ text := text

@[simp] lemma span_forget (span : Span) : forget.span span = ⟨0, 0⟩ := rfl

@[simp] lemma inside_forget (span : Span) : forget.inside span = ⟨0, 0⟩ := rfl

@[simp] lemma content_forget (span : Span) (text : String) : forget.content span text = "" := rfl

@[simp] lemma literal_forget (span : Span) (text : String) : forget.literal span text = text := rfl

end Relabelling

/-- The excerpt with another span. -/
def Excerpt.relabel (R : Relabelling) (e : Excerpt) : Excerpt := ⟨R.span e.span, e.text⟩

/-- The name with other spans for its identifiers. -/
def Name.relabel (R : Relabelling) : Name → Name
  | plain identifier => plain (identifier.relabel R)
  | namespaced space identifier => namespaced (space.relabel R) (identifier.relabel R)
  | member first second more =>
    member (first.relabel R) (second.relabel R) (more.map (Excerpt.relabel R))

namespace Node

mutual

/-- The tree below a node, the node included, relabelled. -/
def relabel (R : Relabelling) : Node → Node
  | selfClosed span name attributes =>
    selfClosed (R.span span) (name.relabel R) (relabelAll R attributes)
  | element span name attributes children =>
    element (R.span span) (name.relabel R) (relabelAll R attributes) (relabelAll R children)
  | fragment span children => fragment (R.span span) (relabelAll R children)
  | expression span inside content markup =>
    expression (R.span span) (R.inside inside) (R.content inside content) (relabelAll R markup)
  | text span content => text (R.span span) (R.literal span content)
  | string span content => string (R.span span) (R.literal span content)
  | setAttribute span name value =>
    setAttribute (R.span span) (name.relabel R) (relabel R value)
  | bareAttribute span name => bareAttribute (R.span span) (name.relabel R)
  | spread span argument => spread (R.span span) (argument.relabel R)

/-- The trees below the nodes of a list, relabelled. -/
def relabelAll (R : Relabelling) : List Node → List Node
  | [] => []
  | node :: nodes => relabel R node :: relabelAll R nodes

end

end Node

/-- The program with all its trees relabelled. -/
def Program.relabel (R : Relabelling) (program : Program) : Program :=
  ⟨Node.relabelAll R program.body⟩

/-- The visit at other offsets. -/
def Visit.relabel (R : Relabelling) : Visit → Visit
  | token call origin kind span => token call (R.closes origin) kind (R.span span)
  | raw span => raw (R.span span)
  | finish origin => finish (R.closes origin)

/-- What the visit reads in the one text is, relabelled, what it reads in the other. -/
def Visit.Shows (R : Relabelling) (source target : List Char) : Visit → Prop
  | token _ _ .identifier span => (R.span span).slice target = span.slice source
  | token _ _ .string span | raw span =>
    R.literal span (String.ofList (span.slice source)) = String.ofList ((R.span span).slice target)
  | _ => True

variable {R : Relabelling} {source target : List Char}

/-! ### What stays -/

namespace Name


@[simp] lemma span_relabel (name : Name) : (name.relabel R).span = R.span name.span := by
  cases name with
  | plain | namespaced => rfl
  | member first second more =>
    simp only [relabel, span, last, Relabelling.span, List.getLastD_map]
    rfl

lemma Matches.relabel {a b : Name} (h : a.Matches b) : (a.relabel R).Matches (b.relabel R) := by
  cases h with
  | plain h => exact .plain h
  | namespaced h h' => exact .namespaced h h'
  | member h h' hmore =>
    refine .member h h' ?_
    simpa [Function.comp_def, Excerpt.relabel] using hmore

end Name

namespace Node

lemma relabelAll_eq_map (nodes : List Node) : relabelAll R nodes = nodes.map (relabel R) := by
  induction nodes with
  | nil => rfl
  | cons node nodes ih => rw [relabelAll, ih, List.map_cons]

@[simp] lemma relabelAll_append (left right : List Node) :
    relabelAll R (left ++ right) = relabelAll R left ++ relabelAll R right := by
  simp only [relabelAll_eq_map, List.map_append]

@[simp] lemma span_relabel (node : Node) : (node.relabel R).span = R.span node.span := by
  cases node <;> rfl

mutual

/-- Nesting stays. -/
@[simp] lemma depth_relabel : ∀ node : Node, (node.relabel R).depth = node.depth
  | selfClosed _ _ attributes => by simp [relabel, depth, deepest_relabelAll attributes]
  | element _ _ attributes children => by
    simp [relabel, depth, deepest_relabelAll attributes, deepest_relabelAll children]
  | fragment _ children => by simp [relabel, depth, deepest_relabelAll children]
  | expression _ _ _ markup => by simp [relabel, depth, deepest_relabelAll markup]
  | setAttribute _ _ value => by simp [relabel, depth, depth_relabel value]
  | text _ _ | string _ _ | bareAttribute _ _ | spread _ _ => by simp [relabel, depth]

@[simp] lemma deepest_relabelAll :
    ∀ nodes : List Node, deepest (relabelAll R nodes) = deepest nodes
  | [] => rfl
  | node :: nodes => by simp [relabelAll, depth_relabel node, deepest_relabelAll nodes]

end

end Node

@[simp] lemma Program.depth_relabel (program : Program) :
    (program.relabel R).depth = program.depth := Node.deepest_relabelAll _

/-! ### Forgetting -/

@[simp] lemma Name.relabel_forget (name : Name) :
    (name.relabel R).relabel .forget = name.relabel .forget := by
  cases name <;> simp [relabel, Excerpt.relabel]

namespace Node

mutual

lemma relabel_forget (hliteral : ∀ span text, R.literal span text = text) :
    ∀ node : Node, (node.relabel R).relabel .forget = node.relabel .forget
  | selfClosed _ _ attributes => by
    simp [relabel, relabelAll_forget hliteral attributes]
  | element _ _ attributes children => by
    simp [relabel, relabelAll_forget hliteral attributes, relabelAll_forget hliteral children]
  | fragment _ children => by
    simp [relabel, relabelAll_forget hliteral children]
  | expression _ _ _ markup => by
    simp [relabel, relabelAll_forget hliteral markup]
  | setAttribute _ _ value => by
    simp [relabel, relabel_forget hliteral value]
  | text _ _ | string _ _ | bareAttribute _ _ | spread _ _ => by
    simp [relabel, hliteral, Excerpt.relabel]

lemma relabelAll_forget (hliteral : ∀ span text, R.literal span text = text) :
    ∀ nodes : List Node, relabelAll .forget (relabelAll R nodes) = relabelAll .forget nodes
  | [] => rfl
  | node :: nodes => by
    rw [relabelAll, relabelAll, relabelAll, relabel_forget hliteral node,
      relabelAll_forget hliteral nodes]

end

end Node

/-- Other offsets make no difference once all offsets are forgotten. -/
lemma Program.relabel_forget (hliteral : ∀ span text, R.literal span text = text)
    (program : Program) : (program.relabel R).relabel .forget = program.relabel .forget :=
  congrArg Program.mk (Node.relabelAll_forget hliteral program.body)

/-! ### Carrying over what is read -/

namespace Grammar

variable {call : Cursor.Call} {phrase : Phrase} {visits : List Visit} {name : Name}
  {parts : List Excerpt} {nodes : List Node} {o : ℕ} {e : Excerpt}

/-- The phrase with its nodes relabelled. -/
def Phrase.relabel (R : Relabelling) : Phrase → Phrase
  | .markup node => .markup (node.relabel R)
  | .expression node => .expression (node.relabel R)
  | .body nodes => .body (Node.relabelAll R nodes)
  | .value node => .value (node.relabel R)
  | .attribute node => .attribute (node.relabel R)
  | .attributes nodes => .attributes (Node.relabelAll R nodes)
  | .child node => .child (node.relabel R)
  | .children nodes => .children (Node.relabelAll R nodes)

/-- An identifier reads in the one text what it reads in the other. -/
lemma isOf_relabel (he : e.IsOf source)
    (h : (Visit.token call o .identifier e.span).Shows R source target) :
    (e.relabel R).IsOf target := by
  rw [Excerpt.IsOf, Excerpt.relabel, h]
  exact he

lemma SpellsMembers.relabel (h : SpellsMembers source parts visits)
    (hshows : ∀ v ∈ visits, v.Shows R source target) :
    SpellsMembers target (parts.map (Excerpt.relabel R)) (visits.map (Visit.relabel R)) := by
  induction h with
  | nil => exact .nil
  | cons hpart _ ih =>
    simp only [List.forall_mem_cons] at hshows
    exact .cons (isOf_relabel hpart hshows.2.1) (ih hshows.2.2)

lemma SpellsAttributeName.relabel (h : SpellsAttributeName source name visits)
    (hshows : ∀ v ∈ visits, v.Shows R source target) :
    SpellsAttributeName target (name.relabel R) (visits.map (Visit.relabel R)) := by
  cases h with
  | plain he =>
    simp only [List.forall_mem_cons] at hshows
    exact .plain (isOf_relabel he hshows.1)
  | namespaced hspace he =>
    simp only [List.forall_mem_cons] at hshows
    exact .namespaced (isOf_relabel hspace hshows.1) (isOf_relabel he hshows.2.2.1)

lemma SpellsElementName.relabel (h : SpellsElementName source name visits)
    (hshows : ∀ v ∈ visits, v.Shows R source target) :
    SpellsElementName target (name.relabel R) (visits.map (Visit.relabel R)) := by
  cases h with
  | simple h => exact .simple (h.relabel hshows)
  | member hfirst hsecond hmore =>
    simp only [List.forall_mem_cons] at hshows
    exact .member (isOf_relabel hfirst hshows.1) (isOf_relabel hsecond hshows.2.2.1)
      (hmore.relabel hshows.2.2.2)

/-- What visits spell in the one text they spell in the other, with other offsets. -/
lemma Spells.relabel (h : Spells source call phrase visits)
    (hcontent : ∀ span text, R.content span text = String.ofList ((R.inside span).slice target))
    (hshows : ∀ v ∈ visits, v.Shows R source target) :
    Spells target call (phrase.relabel R) (visits.map (Visit.relabel R)) := by
  induction h with
  | @selfClosed call o o' opening close _ _ _ _ hname _ ih =>
    simp only [List.forall_mem_cons, List.forall_mem_append] at hshows
    obtain ⟨-, hus, hvs, -, -⟩ := hshows
    simp only [List.map_cons, List.map_append, List.map_nil]
    exact @selfClosed target call (R.closes o) (R.closes o') (R.span opening) (R.span close) _ _ _ _
      (hname.relabel hus) (ih hvs)
  | @element call o o' o'' o''' opening close opening' close' _ _ _ _ _ _ _ _ hname _ _ hname'
      hmatches ih ih' =>
    simp only [List.forall_mem_cons, List.forall_mem_append] at hshows
    obtain ⟨-, hus, hvs, -, hws, -, hus', -, -⟩ := hshows
    simp only [List.map_cons, List.map_append, List.map_nil]
    exact @element target call (R.closes o) (R.closes o') (R.closes o'') (R.closes o''')
      (R.span opening) (R.span close) (R.span opening') (R.span close') _ _ _ _ _ _ _ _
      (hname.relabel hus) (ih hvs) (ih' hws) (hname'.relabel hus') hmatches.relabel
  | @fragment call o o' opening close _ _ _ ih =>
    simp only [List.forall_mem_cons, List.forall_mem_append] at hshows
    obtain ⟨-, hvs, -, -⟩ := hshows
    simp only [List.map_cons, List.map_append, List.map_nil]
    exact @fragment target call (R.closes o) (R.closes o') (R.span opening) (R.span close) _ _
      (ih hvs)
  | @expression call o o' opening close _ _ _ ih =>
    simp only [List.forall_mem_cons, List.forall_mem_append] at hshows
    obtain ⟨-, hvs, -, -⟩ := hshows
    simp only [List.map_cons, List.map_append, List.map_nil, Phrase.relabel, Node.relabel, hcontent]
    exact @expression target call (R.closes o) (R.closes o') (R.span opening) (R.span close) _ _
      (ih hvs)
  | bodyNil => exact .bodyNil
  | bodyToken htag hfragment hopen hclose _ ih =>
    exact .bodyToken htag hfragment hopen hclose (ih (List.forall_mem_cons.1 hshows).2)
  | bodyMarkup _ _ ih ih' =>
    obtain ⟨hus, hvs⟩ := List.forall_mem_append.1 hshows
    rw [List.map_append]
    exact .bodyMarkup (ih hus) (ih' hvs)
  | bodyBraces _ _ ih ih' =>
    simp only [List.forall_mem_cons, List.forall_mem_append] at hshows
    obtain ⟨-, hus, -, hvs⟩ := hshows
    simp only [List.map_cons, List.map_append, Phrase.relabel, Node.relabelAll_append]
    exact .bodyBraces (ih hus) (ih' hvs)
  | valueString he =>
    have hshow := (List.forall_mem_cons.1 hshows).1
    refine .valueString (e := ⟨_, _⟩) ?_
    rw [Excerpt.IsOf, he]
    exact hshow
  | valueExpression _ ih => exact .valueExpression (ih hshows)
  | valueMarkup _ ih => exact .valueMarkup (ih hshows)
  | @spread o o' o'' o''' opening dots close _ he =>
    simp only [List.forall_mem_cons] at hshows
    exact @spread target (R.closes o) (R.closes o') (R.closes o'') (R.closes o''')
      (R.span opening) (R.span dots) (R.span close) _ (isOf_relabel he hshows.2.2.1)
  | bareAttribute hname =>
    rw [Phrase.relabel, Node.relabel, ← Name.span_relabel]
    exact .bareAttribute (hname.relabel hshows)
  | @setAttribute _ _ name value _ _ hname _ ih =>
    simp only [List.forall_mem_cons, List.forall_mem_append] at hshows
    obtain ⟨hus, -, hvs⟩ := hshows
    have hspan : R.span ⟨name.span.start, value.span.stop⟩ =
        ⟨(name.relabel R).span.start, (value.relabel R).span.stop⟩ := by
      rw [Name.span_relabel, Node.span_relabel]
      rfl
    rw [Phrase.relabel, Node.relabel, hspan, List.map_append, List.map_cons]
    exact .setAttribute (hname.relabel hus) (ih hvs)
  | attributesNil => exact .attributesNil
  | attributesCons _ _ ih ih' =>
    obtain ⟨hus, hvs⟩ := List.forall_mem_append.1 hshows
    rw [List.map_append]
    exact .attributesCons (ih hus) (ih' hvs)
  | childText he =>
    have hshow := (List.forall_mem_cons.1 hshows).1
    refine .childText (e := ⟨_, _⟩) ?_
    rw [Excerpt.IsOf, he]
    exact hshow
  | childMarkup _ ih => exact .childMarkup (ih hshows)
  | childExpression _ ih => exact .childExpression (ih hshows)
  | childrenNil => exact .childrenNil
  | childrenCons _ _ ih ih' =>
    obtain ⟨hus, hvs⟩ := List.forall_mem_append.1 hshows
    rw [List.map_append]
    exact .childrenCons (ih hus) (ih' hvs)

lemma SpellsProgram.relabel (h : SpellsProgram source nodes visits)
    (hcontent : ∀ span text, R.content span text = String.ofList ((R.inside span).slice target))
    (hshows : ∀ v ∈ visits, v.Shows R source target) :
    SpellsProgram target (Node.relabelAll R nodes) (visits.map (Visit.relabel R)) := by
  induction h with
  | nil => exact .nil
  | token htag hfragment _ ih =>
    exact .token htag hfragment (ih (List.forall_mem_cons.1 hshows).2)
  | markup hnode _ ih =>
    obtain ⟨hus, hvs⟩ := List.forall_mem_append.1 hshows
    rw [List.map_append]
    exact .markup (hnode.relabel hcontent hus) (ih hvs)

end Grammar

/-- **Other offsets.**  If the relabelled visits follow one another in another text, they read the
relabelled program there. -/
lemma Program.ReadBy.relabel {program : Program} {visits : List Visit}
    (h : program.ReadBy source visits)
    (hcontent : ∀ span text, R.content span text = String.ofList ((R.inside span).slice target))
    (hshows : ∀ v ∈ visits, v.Shows R source target)
    (hwalk : ∃ q, Walk (Place.ofText target) (visits.map (Visit.relabel R)) q) :
    (program.relabel R).ReadBy target (visits.map (Visit.relabel R)) :=
  ⟨hwalk, h.spells.relabel hcontent hshows⟩

end EmbeddedJsx
