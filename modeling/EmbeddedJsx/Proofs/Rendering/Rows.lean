import EmbeddedJsx.Proofs.Naming.Canonical
import EmbeddedJsx.Proofs.Rendering.Outline
import EmbeddedJsx.Proofs.Rendering.Table

/-!
# The lines of an outline

An outline has one row for every node, in pre-order and indented by two spaces for each level.  What
source text shows up in a row is either made of identifiers, quoted, or a string literal as it
stands.  Identifiers and quoted texts hold no line feed, so that a row is one line unless a string
literal breaks it (`Node.count_headline`).

The main statement is `Program.outline_lines`: the outline has one line for each node and one for
each line feed in a string literal, and it is what it should be just if there is no such line feed.
-/

namespace EmbeddedJsx

open Grammar Text

/-! ### Cutting at line feeds -/

section LineFeeds

variable {chars : List Char} {lines : List (List Char)} {c : Char}

lemma length_splitOn (c : Char) (chars : List Char) :
    (chars.splitOn c).length = chars.count c + 1 := by
  rw [List.splitOn]
  induction chars with
  | nil => rfl
  | cons d chars ih =>
    rw [List.splitOnP_cons_eq_if_modifyHead, List.count_cons]
    split
    · rw [List.length_cons, ih]
    · rw [List.length_modifyHead, ih, Nat.add_zero]

/-- Lines that hold no line feed are what is found between the line feeds after them. -/
lemma splitOn_lineFeeds (h : ∀ line ∈ lines, '\n' ∉ line) :
    (lines.flatMap (· ++ ['\n'])).splitOn '\n' = lines ++ [[]] := by
  induction lines with
  | nil => rfl
  | cons line lines ih =>
    obtain ⟨hline, hlines⟩ := List.forall_mem_cons.1 h
    have hfirst : line.splitOnP (· == '\n') = [line] :=
      List.splitOnP_eq_singleton fun d hd => by simpa using ne_of_mem_of_not_mem hd hline
    have hrest := ih hlines
    rw [List.splitOn] at hrest ⊢
    rw [List.flatMap_cons, List.append_assoc, List.singleton_append,
      List.splitOnP_append_cons _ _ (by simp), hfirst, hrest, List.cons_append, List.nil_append,
      List.cons_append]

lemma count_lineFeeds (lines : List (List Char)) :
    (lines.flatMap (· ++ ['\n'])).count '\n' =
      lines.length + (lines.map (·.count '\n')).sum := by
  induction lines with
  | nil => rfl
  | cons line lines ih =>
    simp only [List.flatMap_cons, List.count_append, List.count_singleton_self, ih,
      List.length_cons, List.map_cons, List.sum_cons]
    omega

lemma not_mem_intercalate {separator : List Char} (hseparator : c ∉ separator)
    (h : ∀ line ∈ lines, c ∉ line) : c ∉ separator.intercalate lines := by
  induction lines with
  | nil => simp
  | cons line lines ih =>
    obtain ⟨hline, hlines⟩ := List.forall_mem_cons.1 h
    cases lines with
    | nil => simpa using hline
    | cons next lines =>
      rw [List.intercalate_cons_cons, List.mem_append, List.mem_append, not_or, not_or]
      exact ⟨⟨hline, hseparator⟩, ih hlines⟩

end LineFeeds

/-! ### What is shown without a line feed -/

lemma Excerpt.IsIdentifier.not_lineFeed {e : Excerpt} (h : e.IsIdentifier) :
    '\n' ∉ e.text.toList := by
  intro hmem
  have hcontinues := h.continues hmem
  exact absurd hcontinues (by decide)

lemma Name.Proper.not_lineFeed {name : Name} (h : name.Proper) : '\n' ∉ name.text.toList := by
  rw [toList_text]
  refine not_mem_intercalate ?_ fun part hpart => ?_
  · rcases name.joint_cases with hjoint | hjoint <;> rw [hjoint] <;> decide
  · obtain ⟨e, he, rfl⟩ := List.mem_map.1 hpart
    exact (h e he).not_lineFeed

lemma not_lineFeed_of_terminators {chars : List Char} (h : ∀ c ∈ chars, ¬ isLineTerminator c) :
    '\n' ∉ chars :=
  fun hmem => h _ hmem (by decide)

lemma Span.not_lineFeed (span : Span) : '\n' ∉ span.text.toList :=
  not_lineFeed_of_terminators fun _ => not_terminator_of_mem_text

lemma not_lineFeed_quoted (text : String) : '\n' ∉ (quoted text).toList := by
  rw [quoted, String.toList_ofList]
  exact not_lineFeed_of_terminators fun _ => Quoted.not_terminator_of_mem_encode

namespace Node

variable {node : Node}

/-- The text of a string literal. -/
def literal : Node → List Char
  | string _ content => content.toList
  | _ => []

/-- A row holds just the line feeds of a string literal. -/
lemma count_headline (h : ∀ e ∈ node.identifiers, e.IsIdentifier) :
    node.headline.toList.count '\n' = node.literal.count '\n' := by
  have hspan (span : Span) : span.text.toList.count '\n' = 0 :=
    List.count_eq_zero_of_not_mem span.not_lineFeed
  have hquoted (text : String) : (quoted text).toList.count '\n' = 0 :=
    List.count_eq_zero_of_not_mem (not_lineFeed_quoted text)
  have hname {name : Name} (h : name.Proper) : name.text.toList.count '\n' = 0 :=
    List.count_eq_zero_of_not_mem h.not_lineFeed
  cases node with
  | selfClosed | element | setAttribute | bareAttribute =>
    simp [headline, literal, hspan, hname h]
  | spread span argument =>
    have hargument : argument.IsIdentifier := h argument (List.mem_singleton_self _)
    simp [headline, literal, hspan, List.count_eq_zero_of_not_mem hargument.not_lineFeed]
  | fragment | expression | text | string => simp [headline, literal, hspan, hquoted]

end Node

namespace Grammar

variable {phrase : Phrase} {p q : Place} {node : Node} {e : Excerpt}

/-- The identifiers in a node that stands for a phrase are such. -/
lemma Derives.isIdentifier (h : Derives phrase p q) (hnode : phrase.node? = some node)
    (he : e ∈ node.identifiers) : e.IsIdentifier := by
  induction h with
  | selfClosed _ hname _ _ _ =>
    obtain rfl := Option.some.inj hnode
    exact hname.proper e he
  | element _ hname _ _ _ _ _ _ _ _ _ =>
    obtain rfl := Option.some.inj hnode
    exact hname.proper e he
  | spread _ _ _ hargument _ =>
    obtain rfl := Option.some.inj hnode
    obtain rfl := List.mem_singleton.1 he
    exact hargument.isIdentifier
  | bareAttribute hname | setAttribute hname _ _ _ =>
    obtain rfl := Option.some.inj hnode
    exact (ElementName.simple hname).proper e he
  -- a value and a child that are another phrase hold what that phrase does
  | valueExpression _ _ ih | valueMarkup _ _ ih | childMarkup _ ih | childExpression _ ih =>
    exact ih hnode
  | fragment | expression | valueString | childText =>
    obtain rfl := Option.some.inj hnode
    simp [Node.identifiers] at he
  | _ => simp [Phrase.node?] at hnode

end Grammar

/-! ### All nodes and their levels -/

namespace Node

/-- A node and all that occur below it, each in front of those below it and with its level, where
that of the first is given. -/
def preorderLevels (level : ℕ) (node : Node) : List (ℕ × Node) :=
  (level, node) :: node.subs.attach.flatMap fun sub => preorderLevels (level + 1) sub.val
termination_by sizeOf node
decreasing_by exact sizeOf_lt_of_mem_subs sub.property

lemma isWalk_preorderLevels : IsWalk Prod.mk preorderLevels := fun level node => by
  rw [preorderLevels]
  simp

lemma rows_eq_map (level : ℕ) (node : Node) :
    node.rows level =
      (node.preorderLevels level).map fun entry => ⟨entry.1, entry.2.headline⟩ :=
  isWalk_rows.eq (isWalk_preorderLevels.map fun entry : ℕ × Node =>
    (⟨entry.1, entry.2.headline⟩ : Outline.Row)) level node

lemma map_snd_preorderLevels (level : ℕ) (node : Node) :
    (node.preorderLevels level).map Prod.snd = node.preorder :=
  (isWalk_preorderLevels.map Prod.snd).eq isWalk_preorder level node

end Node

namespace Program

variable {program : Program}

/-- All nodes of a program in pre-order with their levels, where those at the top have level one. -/
def preorderLevels (program : Program) : List (ℕ × Node) :=
  program.body.flatMap (Node.preorderLevels 1)

/-- The lines that an outline should have: the first for the program, and then one for each node in
pre-order, indented by two spaces for each level. -/
def headlines (program : Program) : List (List Char) :=
  "Program".toList :: program.preorderLevels.map fun entry =>
    List.replicate (2 * entry.1) ' ' ++ entry.2.headline.toList

lemma map_snd_preorderLevels (program : Program) :
    program.preorderLevels.map Prod.snd = program.preorder := by
  rw [preorderLevels, preorder, List.map_flatMap]
  exact List.flatMap_congr fun node _ => node.map_snd_preorderLevels 1

lemma toList_outline (program : Program) :
    program.outline.toList = program.headlines.flatMap (· ++ ['\n']) := by
  have hrows : program.rows = ⟨0, "Program"⟩ ::
      program.preorderLevels.map fun entry => ⟨entry.1, entry.2.headline⟩ := by
    rw [rows, preorderLevels, Node.allRows_eq_flatMap, List.map_flatMap]
    exact congrArg _ (List.flatMap_congr fun node _ => node.rows_eq_map 1)
  simp [outline, hrows, headlines, String.toList_join, List.flatMap_map, Outline.Row.line]

lemma length_headlines (program : Program) :
    program.headlines.length = 1 + program.preorder.length := by
  rw [← map_snd_preorderLevels]
  simp [headlines, Nat.add_comm]

/-- In the lines that an outline should have, there are the line feeds of string literals. -/
lemma map_count_headlines
    (h : ∀ node, program.Contains node → ∀ e ∈ node.identifiers, e.IsIdentifier) :
    program.headlines.map (·.count '\n') =
      0 :: program.preorder.map fun node => node.literal.count '\n' := by
  rw [headlines, List.map_cons, ← map_snd_preorderLevels, List.map_map, List.map_map]
  refine congrArg _ (List.map_congr_left fun entry hentry => ?_)
  have hnode : program.Contains entry.2 := by
    rw [← mem_preorder_iff, ← map_snd_preorderLevels]
    exact List.mem_map_of_mem hentry
  have hindent : (List.replicate (2 * entry.1) ' ').count '\n' = 0 :=
    List.count_eq_zero_of_not_mem fun hmem => absurd (List.eq_of_mem_replicate hmem) (by decide)
  simp only [Function.comp_apply, List.count_append, hindent, Nat.zero_add]
  exact Node.count_headline (h _ hnode)

/-- There is a line feed for the program, one for each node, and those of string literals. -/
lemma count_outline
    (h : ∀ node, program.Contains node → ∀ e ∈ node.identifiers, e.IsIdentifier) :
    program.outline.toList.count '\n' = 1 + program.preorder.length +
      (program.preorder.map fun node => node.literal.count '\n').sum := by
  rw [toList_outline, count_lineFeeds, length_headlines, map_count_headlines h, List.sum_cons,
    Nat.zero_add]

/-- If cutting an outline gives its lines, no line feed is left for string literals. -/
lemma not_mem_literal_of_splitOn
    (h : ∀ node, program.Contains node → ∀ e ∈ node.identifiers, e.IsIdentifier)
    (hsplit : program.outline.toList.splitOn '\n' = program.headlines ++ [[]]) {node : Node}
    (hnode : program.Contains node) : '\n' ∉ node.literal := by
  have hlength := length_splitOn '\n' program.outline.toList
  rw [hsplit, List.length_append, length_headlines, count_outline h, List.length_singleton]
    at hlength
  have hsum : (program.preorder.map fun node => node.literal.count '\n').sum = 0 := by omega
  rw [List.sum_eq_zero_iff] at hsum
  exact List.count_eq_zero.1 (hsum _ (List.mem_map_of_mem (mem_preorder_iff.2 hnode)))

/-- Without line feeds in string literals, cutting an outline gives its lines. -/
lemma splitOn_outline
    (h : ∀ node, program.Contains node → ∀ e ∈ node.identifiers, e.IsIdentifier)
    (hnone : ∀ node, program.Contains node → '\n' ∉ node.literal) :
    program.outline.toList.splitOn '\n' = program.headlines ++ [[]] := by
  rw [toList_outline]
  refine splitOn_lineFeeds fun line hline => ?_
  have hcount : line.count '\n' ∈ program.headlines.map (·.count '\n') :=
    List.mem_map_of_mem hline
  rw [map_count_headlines h, List.mem_cons] at hcount
  rcases hcount with hcount | hcount
  · exact List.count_eq_zero.1 hcount
  · obtain ⟨node, hnode, heq⟩ := List.mem_map.1 hcount
    rw [List.count_eq_zero_of_not_mem (hnone node (mem_preorder_iff.1 hnode))] at heq
    exact List.count_eq_zero.1 heq.symm

/-- **Lines of outlines.**  The outline of a parsed program is made of the lines that it should
have, with a line feed after each of them.  It has one line feed for the program, one for each node,
and those that stand in string literals; and to cut it at line feeds gives back its lines just if
there are none of the last kind. -/
theorem outline_lines {levels : ℕ} {text : String} (h : parseWithin levels text = .ok program) :
    program.outline.toList = program.headlines.flatMap (· ++ ['\n']) ∧
      program.preorderLevels.map Prod.snd = program.preorder ∧
      program.outline.toList.count '\n' = 1 + program.preorder.length +
        (program.preorder.map fun node => node.literal.count '\n').sum ∧
      (program.outline.toList.splitOn '\n' = program.headlines ++ [[]] ↔
        ∀ node, program.Contains node → '\n' ∉ node.literal) := by
  obtain ⟨hderives, -⟩ := derivesProgram_of_parseWithin h
  have hidentifier (node : Node) (hnode : program.Contains node) (e : Excerpt)
      (he : e ∈ node.identifiers) : e.IsIdentifier := by
    obtain ⟨phrase, p, q, hphrase, hnode, -⟩ := hderives.hasPhrase hnode
    exact hnode.isIdentifier hphrase he
  refine ⟨program.toList_outline, program.map_snd_preorderLevels, count_outline hidentifier, ?_⟩
  constructor
  · intro hsplit node hnode
    exact not_mem_literal_of_splitOn hidentifier hsplit hnode
  · intro hnone
    exact splitOn_outline hidentifier hnone

/-- Raw text of one line feed, which is quoted, and a string literal without one. -/
theorem outline_lines_text :
    ∃ program, parseWithin 1 "<a b='c'>\n</a>" = .ok program ∧
      program.outline = "Program\n  Element <a> [0, 14)\n    Attr b [3, 8)\n" ++
        "      String [5, 8) 'c'\n    Text [9, 10) '\\n'\n" ∧
      program.outline.toList.splitOn '\n' = program.headlines ++ [[]] := by
  have h : parseWithin 1 "<a b='c'>\n</a>" = .ok ⟨[.element ⟨0, 14⟩ (.plain ⟨⟨1, 2⟩, "a"⟩)
      [.setAttribute ⟨3, 8⟩ (.plain ⟨⟨3, 4⟩, "b"⟩) (.string ⟨5, 8⟩ "'c'")]
      [.text ⟨9, 10⟩ "\n"]]⟩ := by cbv
  obtain ⟨-, -, -, hsplit⟩ := outline_lines h
  refine ⟨_, h, by decide +kernel, hsplit.2 fun node hnode => ?_⟩
  have hall : ∀ node ∈ Program.preorder ⟨[.element ⟨0, 14⟩ (.plain ⟨⟨1, 2⟩, "a"⟩)
      [.setAttribute ⟨3, 8⟩ (.plain ⟨⟨3, 4⟩, "b"⟩) (.string ⟨5, 8⟩ "'c'")]
      [.text ⟨9, 10⟩ "\n"]]⟩, '\n' ∉ node.literal := by
    simp [preorder, Node.preorder, Node.preorderAll, Node.literal]
  exact hall node (mem_preorder_iff.2 hnode)

/-- A line feed in a string literal breaks a row in two. -/
theorem not_forall_splitOn_outline :
    ¬ ∀ (text : String) (program : Program), parse text = .ok program →
      program.outline.toList.splitOn '\n' = program.headlines ++ [[]] := by
  intro h
  have hparse : parse "<a b='\n'/>" = .ok ⟨[.selfClosed ⟨0, 10⟩ (.plain ⟨⟨1, 2⟩, "a"⟩)
      [.setAttribute ⟨3, 8⟩ (.plain ⟨⟨3, 4⟩, "b"⟩) (.string ⟨5, 8⟩ "'\n'")]]⟩ := by cbv
  have hlength := congrArg List.length (h _ _ hparse)
  rw [length_splitOn, List.length_append, length_headlines] at hlength
  exact absurd hlength (by decide +kernel)

end Program

end EmbeddedJsx
