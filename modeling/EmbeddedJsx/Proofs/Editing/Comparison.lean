import EmbeddedJsx.Proofs.Editing.Spacing

/-!
# Comparing markup from different places

Two nodes are compared as markup without regard to where they stand, with one exception: the inside
of an expression is told apart by its range.  So a text and the same text behind some white space
have the same markup just if there is no expression in it, or no white space
(`parseWithin_indented`).
-/

namespace EmbeddedJsx

namespace Node

/-- The range between the braces, if a node is an expression. -/
def inside? : Node → Option Span
  | expression _ inside _ _ => some inside
  | _ => none

/-- The ranges of the expressions in a tree stay as they are. -/
def Keeps (R : Relabelling) (root : Node) : Prop :=
  ∀ node : Node, node.Occurs root → ∀ inside ∈ node.inside?, R.inside inside = inside

end Node

variable {R : Relabelling}

@[simp] lemma Name.same_relabel (name : Name) : (name.relabel R).same name = true := by
  cases name <;> simp [relabel, same]

namespace Node

lemma keeps_iff {root : Node} :
    root.Keeps R ↔ (∀ inside ∈ root.inside?, R.inside inside = inside) ∧
      ∀ sub ∈ root.subs, sub.Keeps R := by
  constructor
  · intro h
    exact ⟨h root .root, fun sub hsub node hoccurs => h node (.under hsub hoccurs)⟩
  · rintro ⟨hroot, hsubs⟩ node (_ | ⟨hsub, hoccurs⟩)
    · exact hroot
    · exact hsubs _ hsub node hoccurs

mutual

/-- A tree is the same markup at other offsets just if its expressions keep their ranges. -/
lemma same_relabel_iff (hliteral : ∀ span text, R.literal span text = text) :
    ∀ node : Node, (node.relabel R).same node = true ↔ node.Keeps R
  | selfClosed _ _ attributes => by
    rw [keeps_iff]
    simp [relabel, same, subs, inside?, sameAll_relabel_iff hliteral attributes]
  | element _ _ attributes children => by
    rw [keeps_iff]
    simp [relabel, same, subs, inside?, sameAll_relabel_iff hliteral attributes,
      sameAll_relabel_iff hliteral children, or_imp, forall_and]
  | fragment _ children => by
    rw [keeps_iff]
    simp [relabel, same, subs, inside?, sameAll_relabel_iff hliteral children]
  | expression _ _ _ markup => by
    rw [keeps_iff]
    simp [relabel, same, subs, inside?, sameAll_relabel_iff hliteral markup]
  | setAttribute _ _ value => by
    rw [keeps_iff]
    simp [relabel, same, subs, inside?, same_relabel_iff hliteral value]
  | text _ _ | string _ _ | bareAttribute _ _ | spread _ _ => by
    rw [keeps_iff]
    simp [relabel, same, subs, inside?, hliteral]

lemma sameAll_relabel_iff (hliteral : ∀ span text, R.literal span text = text) :
    ∀ nodes : List Node,
      sameAll (relabelAll R nodes) nodes = true ↔ ∀ node ∈ nodes, node.Keeps R
  | [] => by simp [relabelAll, sameAll]
  | node :: nodes => by
    simp [relabelAll, sameAll, same_relabel_iff hliteral node, sameAll_relabel_iff hliteral nodes]

end

end Node

/-- Where the reading of a text begins, the next token is asked for. -/
lemma Program.ReadBy.exists_gap {program : Program} {text : List Char} {visits : List Visit}
    (h : program.ReadBy text visits) : ∃ v ∈ visits, v.Gap 0 := by
  obtain ⟨v, right, rfl⟩ := List.exists_cons_of_ne_nil h.spells.ne_nil
  have hfirst : program.ReadBy text ([] ++ v :: right) := h
  obtain ⟨before, hprecedes, ⟨-, rfl⟩ | ⟨left, hleft⟩⟩ := hfirst.exists_before
  swap
  · simp at hleft
  obtain ⟨q, hwalk⟩ := h.walk
  obtain ⟨a, hmakes, -⟩ := Walk.cons_iff.1 hwalk
  have horigin : v.origin = 0 := hmakes.origin_eq
  refine ⟨v, List.mem_cons_self, ?_⟩
  cases hprecedes with
  | next _ =>
    obtain rfl : _ = 0 := horigin
    exact .next
  | finish _ =>
    obtain rfl : _ = 0 := horigin
    exact .finish
  | child hbefore | raw hbefore =>
    simp [Visit.PrecedesChild, Visit.Bounds, TokenKind.bounds] at hbefore

namespace Edit

variable {text w : String}

/-- White space in front of a text leaves the range of an expression as it is just if there is
none. -/
lemma inside_inserting_iff (inside : Span) :
    (replacing text ⟨0, 0⟩ w).labels.inside inside = inside ↔ w = "" := by
  have hopens (o : ℕ) : (replacing text ⟨0, 0⟩ w).opens o = o + w.toList.length := by
    rw [opens_of_ge (by simp [stop, replacing, Span.slice]), moved_eq old_inserting]
    rfl
  constructor
  · intro h
    have hstop : inside.stop + w.toList.length = inside.stop :=
      (hopens _).symm.trans (congrArg Span.stop h)
    simpa using hstop
  · rintro rfl
    have hcloses : (replacing text ⟨0, 0⟩ "").closes inside.start = inside.start := by
      unfold closes
      split
      · rfl
      · rw [moved_eq old_inserting]
        rfl
    simp only [Relabelling.inside, labels, hopens, hcloses]
    rfl

end Edit

/-- **Comparison depends on place.**  White space may be put in front of a text that is parsed.
Then a node at the top of the one program is the same markup as the corresponding node of the other
just if no expression occurs in it, and so is the one program as the other, but for the case that
nothing is put in front of the text. -/
theorem parseWithin_indented {levels : ℕ} {text w : String} {program : Program}
    (h : parseWithin levels text = .ok program) (hw : ∀ c ∈ w.toList, c = ' ' ∨ c = '\n') :
    ∃ program', parseWithin levels (w ++ text) = .ok program' ∧
      program'.body.length = program.body.length ∧
      (program'.same program = true ↔
        w = "" ∨ ∀ node, program.Contains node → node.inside? = none) ∧
      ∀ (i : ℕ) (a b : Node), program'.body[i]? = some a → program.body[i]? = some b →
        (a.same b = true ↔ w = "" ∨ ∀ node : Node, node.Occurs b → node.inside? = none) := by
  obtain ⟨visits, hread⟩ := exists_readBy h
  have hspace : TagSpace w.toList := fun c hc => by
    rcases hw c hc with rfl | rfl <;> decide
  set R := (Edit.replacing text ⟨0, 0⟩ w).labels with hR
  have hliteral : ∀ span text, R.literal span text = text := Edit.literal_inserting
  have htarget : String.ofList (Edit.replacing text ⟨0, 0⟩ w).target = w ++ text := by
    apply String.toList_injective
    simp [Edit.target, Edit.replacing]
  have hparse := Edit.parseWithin_inserting h hread hread.exists_gap hspace
  rw [htarget] at hparse
  have hkeeps (root : Node) :
      root.Keeps R ↔ w = "" ∨ ∀ node : Node, node.Occurs root → node.inside? = none := by
    simp only [Node.Keeps, hR, Edit.inside_inserting_iff, Option.eq_none_iff_forall_not_mem]
    by_cases hempty : w = ""
    · simp [hempty]
    · simp [hempty]
  refine ⟨program.relabel R, hparse, ?_, ?_, fun i a b ha hb => ?_⟩
  · simp [Program.relabel, Node.relabelAll_eq_map]
  · rw [Program.same, Program.relabel, Node.sameAll_relabel_iff hliteral]
    simp only [hkeeps, Program.Contains]
    by_cases hempty : w = ""
    · simp [hempty]
    · simp only [hempty, false_or]
      constructor
      · rintro hnone node ⟨root, hroot, hoccurs⟩
        exact hnone root hroot node hoccurs
      · intro hnone root hroot node hoccurs
        exact hnone node ⟨root, hroot, hoccurs⟩
  · rw [Program.relabel, Node.relabelAll_eq_map, List.getElem?_map, hb, Option.map_some,
      Option.some.injEq] at ha
    rw [← ha, Node.same_relabel_iff hliteral, hkeeps]

/-- The case of an element without expressions. -/
theorem parseWithin_indented_element :
    ∃ program, parseWithin 1 "<a>b</a>" = .ok program ∧
      (∀ node, program.Contains node → node.inside? = none) ∧
      ∃ program', parseWithin 1 " \n<a>b</a>" = .ok program' ∧ program'.same program = true := by
  obtain ⟨program, hprogram⟩ : ∃ program : Program, program =
      ⟨[.element ⟨0, 8⟩ (.plain ⟨⟨1, 2⟩, "a"⟩) [] [.text ⟨3, 4⟩ "b"]]⟩ := ⟨_, rfl⟩
  have h : parseWithin 1 "<a>b</a>" = .ok program := by
    rw [hprogram]
    cbv
  have hnone : ∀ node, program.Contains node → node.inside? = none := by
    rw [hprogram]
    rintro node ⟨root, hroot, hoccurs⟩
    obtain rfl := List.mem_singleton.1 hroot
    obtain _ | ⟨hsub, hoccurs⟩ := hoccurs
    · rfl
    · obtain rfl : _ = Node.text ⟨3, 4⟩ "b" := by simpa [Node.subs] using hsub
      obtain _ | ⟨hsub, -⟩ := hoccurs
      · rfl
      · simp [Node.subs] at hsub
  obtain ⟨program', h', -, hsame, -⟩ := parseWithin_indented (w := " \n") h (by simp)
  exact ⟨program, h, hnone, program', h', hsame.2 (.inr hnone)⟩

/-- An element with an expression in it is another markup behind a space. -/
theorem indented_expression_not_same :
    ∃ program program', parseWithin 60 "<a>\x7bb\x7d</a>" = .ok program ∧
      parseWithin 60 " <a>\x7bb\x7d</a>" = .ok program' ∧ program'.same program = false :=
  ⟨⟨[.element ⟨0, 10⟩ (.plain ⟨⟨1, 2⟩, "a"⟩) [] [.expression ⟨3, 6⟩ ⟨4, 5⟩ "b" []]]⟩,
    ⟨[.element ⟨1, 11⟩ (.plain ⟨⟨2, 3⟩, "a"⟩) [] [.expression ⟨4, 7⟩ ⟨5, 6⟩ "b" []]]⟩,
    by cbv, by cbv, by decide⟩

end EmbeddedJsx
