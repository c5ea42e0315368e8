import Mathlib
import EmbeddedJsx.Proofs.Geometry.Delimiters
import EmbeddedJsx.Proofs.Grammar.Program

/-!
# Where nodes stand

`Node.Placed` says of a node where it stands in a text, where its parts do, and what the text has
there.  Every part lies in the node, and parts stand in order and apart.  Children do not merely
stand in order: with no gap they fill the stretch from the end of the opening tag to the beginning
of the closing one, so that no character of raw text is lost or doubled.

The main statement is `placed_of_parseWithin`: all nodes of a parsed program are placed in its
text, at whatever depth they occur.
-/

namespace EmbeddedJsx

/-- The offset at which the name and the attributes of an opening tag end. -/
def Name.tagStop (name : Name) (attributes : List Node) : ℕ :=
  (attributes.map (·.span.stop)).getLastD name.span.stop

/-- Children fill the stretch of text between the offsets. -/
structure ChildrenFill (text : List Char) (children : List Node) (start stop : ℕ) : Prop where
  /-- The children leave no gap. -/
  tiles : Span.Tiles start (children.map Node.span) stop
  /-- What the children cover is, one after the other, what lies between the offsets. -/
  slices : (children.map fun child => child.span.slice text).flatten =
    Span.slice ⟨start, stop⟩ text
  /-- No run of raw text stands next to another. -/
  texts : children.IsChain fun child child' => ¬ (child.isText = true ∧ child'.isText = true)

/-- An expression spans its inside and a brace on either side of it. -/
structure InBraces (text : List Char) (span inside : Span) (markup : List Node) : Prop where
  start_pos : 0 < inside.start
  start_le : inside.start ≤ inside.stop
  span_eq : span = ⟨inside.start - 1, inside.stop + 1⟩
  opening : text[inside.start - 1]? = some '{'
  closing : text[inside.stop]? = some '}'
  /-- The markup in the expression stands inside the braces. -/
  markup_inOrder : Span.InOrder inside.start (markup.map Node.span) inside.stop

namespace Node

/-- The identifiers that stand directly in a node. -/
def identifiers : Node → List Excerpt
  | selfClosed _ name _ | element _ name _ _ | setAttribute _ name _ | bareAttribute _ name =>
    name.parts
  | spread _ argument => [argument]
  | fragment _ _ | expression _ _ _ _ | text _ _ | string _ _ => []

/-- Where the parts of a node stand: the identifiers in it, then the nodes directly below it. -/
def partSpans (node : Node) : List Span :=
  node.identifiers.map Excerpt.span ++ node.subs.map Node.span

/-- What the text has at the span of a node, by the kind of the node. -/
def Shows (text : List Char) : Node → Prop
  | selfClosed span name attributes =>
    TagBegins text span.start name.span.start ∧
      TagSelfCloses text (name.tagStop attributes) span.stop
  | element span name attributes children =>
    TagBegins text span.start name.span.start ∧
      ∃ start stop, TagEnds text (name.tagStop attributes) start ∧
        ChildrenFill text children start stop ∧ MarkupCloses text stop span.stop
  | fragment span children =>
    ∃ start stop, FragmentOpens text span.start start ∧
      ChildrenFill text children start stop ∧ MarkupCloses text stop span.stop
  | expression span inside content markup =>
    InBraces text span inside markup ∧ content = String.ofList (inside.slice text)
  | .text span content =>
    content = String.ofList (span.slice text) ∧ ∀ c ∈ content.toList, c ≠ '<' ∧ c ≠ '{'
  | string span content => content = String.ofList (span.slice text)
  | setAttribute span name value => span = ⟨name.span.start, value.span.stop⟩
  | bareAttribute span name => span = name.span
  | spread span _ => text[span.start]? = some '{' ∧ text[span.stop - 1]? = some '}'

/-- The node stands in the text where it says that it does. -/
structure Placed (text : List Char) (node : Node) : Prop where
  /-- The node has a character. -/
  start_lt : node.span.start < node.span.stop
  /-- The node does not go on after the end of the text. -/
  stop_le : node.span.stop ≤ text.length
  /-- The parts of the node stand in it, in order and apart, and have characters. -/
  parts : Span.InOrder node.span.start node.partSpans node.span.stop
  /-- Identifiers read what stands there. -/
  identifiers : ∀ e ∈ node.identifiers, e.ReadFrom text
  /-- The text has there what belongs to a node of its kind. -/
  shows : node.Shows text

end Node

namespace Grammar

variable {text : List Char} {p q a b d e f g m : Place} {name name' : Name}
  {opening close opening' close' : Excerpt} {attributes nodes : List Node} {node value : Node}

/-- Derived children fill the stretch between their places. -/
lemma Derives.childrenFill (h : Derives (.children nodes) p q) :
    ChildrenFill text nodes p.offset q.offset := by
  refine ⟨h.children_tiles, ?_, h.children_isChain⟩
  rw [← h.children_tiles.flatten_slice, List.map_map]
  rfl

lemma Derives.tagStop (h : Derives (.attributes attributes) b d) (hname : ElementName a name b) :
    name.tagStop attributes = d.offset := by
  rw [Name.tagStop, hname.span_stop, h.attributes_stop]

/-- The parts of an opening tag stand in order. -/
lemma tag_inOrder (hopen : p.Reads .tagOpen opening a) (hname : ElementName a name b)
    (hattributes : Derives (.attributes attributes) b d) :
    Span.InOrder p.offset (name.parts.map Excerpt.span ++ attributes.map Node.span) d.offset :=
  (hname.inOrder.mono hopen.reaches.offset_le le_rfl).append (hattributes.inOrder rfl)
    (hopen.reaches.trans hname.reaches).offset_le hattributes.reaches.offset_le

lemma placed_selfClosed (hopen : p.Reads .tagOpen opening a) (hname : ElementName a name b)
    (hattributes : Derives (.attributes attributes) b d) (hclose : d.Next .selfClose close q)
    (hp : p.InText text) : (Node.selfClosed ⟨p.offset, q.offset⟩ name attributes).Placed text := by
  have hlast := hname.reaches.trans (hattributes.reaches.trans hclose.reaches)
  refine ⟨hopen.offset_lt.trans_le hlast.offset_le,
    (hp.reaches (hopen.reaches.trans hlast)).offset_le, ?_, fun e he => ?_,
    tagBegins_of_reads hopen hname hp, ?_⟩
  · exact (tag_inOrder hopen hname hattributes).mono le_rfl hclose.reaches.offset_le
  · exact hname.readFrom (hp.reaches hopen.reaches) he
  · rw [hattributes.tagStop hname]
    exact tagSelfCloses_of_next hclose
      (hp.reaches (hopen.reaches.trans (hname.reaches.trans hattributes.reaches)))

lemma placed_element (hopen : p.Reads .tagOpen opening a) (hname : ElementName a name b)
    (hattributes : Derives (.attributes attributes) b d) (hclose : d.Next .tagClose close e)
    (hchildren : Derives (.children nodes) e f) (hopen' : f.Reads .closingOpen opening' g)
    (hname' : ElementName g name' m) (hclose' : m.Next .tagClose close' q)
    (hp : p.InText text) :
    (Node.element ⟨p.offset, q.offset⟩ name attributes nodes).Placed text := by
  have htag := hname.reaches.trans hattributes.reaches
  have hend := hopen'.reaches.trans (hname'.reaches.trans hclose'.reaches)
  have hlast := htag.trans (hclose.reaches.trans (hchildren.reaches.trans hend))
  have hd := hp.reaches (hopen.reaches.trans htag)
  have hf := hd.reaches (hclose.reaches.trans hchildren.reaches)
  refine ⟨hopen.offset_lt.trans_le hlast.offset_le,
    (hp.reaches (hopen.reaches.trans hlast)).offset_le, ?_, fun e he => ?_, ?_⟩
  · -- the parts of the opening tag end before the tag does, and children begin there
    have hhead := tag_inOrder hopen hname hattributes
    have hchild := (hchildren.inOrder rfl).mono hclose.reaches.offset_le hend.offset_le
    have hall := hhead.append hchild (hopen.reaches.trans htag).offset_le
      (hclose.reaches.trans (hchildren.reaches.trans hend)).offset_le
    rwa [List.append_assoc, ← List.map_append] at hall
  · exact hname.readFrom (hp.reaches hopen.reaches) he
  · refine ⟨tagBegins_of_reads hopen hname hp, e.offset, f.offset, ?_, hchildren.childrenFill,
      markupCloses_of_element hopen' hname' hclose' hf⟩
    rw [hattributes.tagStop hname]
    exact tagEnds_of_next hclose hd

lemma placed_fragment (hopen : p.Reads .fragmentOpen opening a)
    (hchildren : Derives (.children nodes) a b) (hclose : b.Reads .fragmentClose close q)
    (hp : p.InText text) : (Node.fragment ⟨p.offset, q.offset⟩ nodes).Placed text := by
  have hlast := hchildren.reaches.trans hclose.reaches
  refine ⟨hopen.offset_lt.trans_le hlast.offset_le,
    (hp.reaches (hopen.reaches.trans hlast)).offset_le, ?_, by simp [Node.identifiers], ?_⟩
  · exact (hchildren.inOrder rfl).mono hopen.reaches.offset_le hclose.reaches.offset_le
  · exact ⟨a.offset, b.offset, fragmentOpens_of_reads hopen hp, hchildren.childrenFill,
      markupCloses_of_fragment hclose (hp.reaches (hopen.reaches.trans hchildren.reaches))⟩

/-- What a token of one character stands for is in the text. -/
lemma getElem?_of_reads {c : Char} {kind : TokenKind} (h : p.Reads kind opening q)
    (hp : p.InText text) (hlexeme : ∀ lexeme after, Lexeme kind lexeme after → lexeme = [c]) :
    text[p.offset]? = some c ∧ q.offset = p.offset + 1 := by
  obtain ⟨lexeme, ⟨hrest, hoff⟩, hlex, -⟩ := h
  obtain rfl := hlexeme _ _ hlex
  rw [hp.rest_eq] at hrest
  refine ⟨?_, hoff⟩
  rw [← List.head?_drop, hrest]
  rfl

lemma placed_expression {inside : List Char} (hopen : p.Reads .braceOpen opening a)
    (hbody : Derives (.body nodes) a b) (hskip : b.Skips m) (hclose : m.Reads .braceClose close q)
    (hinside : a.Passes inside m) (hp : p.InText text) :
    (Node.expression ⟨p.offset, q.offset⟩ ⟨a.offset, m.offset⟩ (String.ofList inside)
      nodes).Placed text := by
  have hbetween := hbody.reaches.trans hskip.reaches
  have hle := hbetween.offset_le
  have ha := hp.reaches hopen.reaches
  have hm := ha.reaches hbetween
  obtain ⟨hleft, hstart⟩ := getElem?_of_reads hopen hp fun _ _ h => by cases h; rfl
  obtain ⟨hright, hstop⟩ := getElem?_of_reads hclose hm fun _ _ h => by cases h; rfl
  have horder := (hbody.inOrder rfl).mono le_rfl hskip.reaches.offset_le
  refine ⟨?_, (hm.reaches hclose.reaches).offset_le,
    horder.mono hopen.reaches.offset_le hclose.reaches.offset_le, by simp [Node.identifiers],
    ⟨?_, hle, ?_, ?_, hright, horder⟩, ?_⟩
  · exact hopen.offset_lt.trans_le (hle.trans hclose.reaches.offset_le)
  · simp only
    omega
  · simp [hstart, hstop]
  · simpa [hstart] using hleft
  · rw [(ha.passes_iff hm hle).1 hinside]

lemma placed_text {run : List Char} (hpass : p.Passes run q) (hne : run ≠ [])
    (hraw : ∀ c ∈ run, Cursor.isRaw c = true) (hp : p.InText text) :
    (Node.text ⟨p.offset, q.offset⟩ (String.ofList run)).Placed text := by
  have hlen := List.length_pos_iff.2 hne
  have hoff := hpass.2
  have hq := hp.passes hpass
  refine ⟨?_, hq.offset_le, Span.inOrder_nil, by simp [Node.identifiers], ?_, fun c hc => ?_⟩
  · simp only [Node.span]
    omega
  · rw [(hp.passes_iff hq (by omega)).1 hpass]
  · rw [String.toList_ofList] at hc
    simpa [Cursor.isRaw] using hraw c hc

lemma placed_string {e : Excerpt} (h : p.Next .string e q) (hp : p.InText text) :
    (Node.string e.span e.text).Placed text := by
  obtain ⟨-, hlt, hstop⟩ := h.inOrder.inside e.span (by simp)
  refine ⟨hlt, hstop.trans (hp.reaches h.reaches).offset_le, Span.inOrder_nil,
    by simp [Node.identifiers], h.readFrom hp⟩

lemma placed_spread {dots argument : Excerpt} (hopen : m.Reads .braceOpen opening a)
    (hdots : a.Next .spread dots b) (hargument : b.Next .identifier argument d)
    (hclose : d.Next .braceClose close q) (hm : m.InText text) :
    (Node.spread ⟨m.offset, q.offset⟩ argument).Placed text := by
  have hfirst := hopen.reaches.trans hdots.reaches
  have hlast := hargument.reaches.trans hclose.reaches
  refine ⟨hopen.offset_lt.trans_le (hdots.reaches.trans hlast).offset_le,
    (hm.reaches (hfirst.trans hlast)).offset_le, ?_, fun e he => ?_, ?_, ?_⟩
  · exact hargument.inOrder.mono hfirst.offset_le hclose.reaches.offset_le
  · obtain rfl := List.mem_singleton.1 he
    exact hargument.readFrom (hm.reaches hfirst)
  · exact (getElem?_of_reads hopen hm fun _ _ h => by cases h; rfl).1
  · obtain ⟨r, hskip, hread⟩ := hclose
    have hr := hm.reaches (hfirst.trans (hargument.reaches.trans hskip.reaches))
    obtain ⟨hright, hstop⟩ := getElem?_of_reads hread hr fun _ _ h => by cases h; rfl
    simpa [Node.span, hstop] using hright

lemma placed_bareAttribute (h : AttributeName p name q) (hp : p.InText text) :
    (Node.bareAttribute name.span name).Placed text := by
  obtain ⟨m, hskip, hname, hspan⟩ := h.exists_span
  rw [hspan]
  refine ⟨hname.reaches.offset_lt hname.length_lt, (hp.reaches h.reaches).offset_le, ?_,
    fun e he => h.readFrom hp he, hspan.symm⟩
  simpa [Node.partSpans, Node.subs, Node.identifiers, Node.span] using hname.inOrder

lemma placed_setAttribute (h : AttributeName p name a) (hsign : a.Next .assign opening b)
    (hvalue : Derives (.value value) b q) (hp : p.InText text) :
    (Node.setAttribute ⟨name.span.start, q.offset⟩ name value).Placed text := by
  -- the attribute begins with its name, not with what is passed over before it
  obtain ⟨m, hskip, hname, hspan⟩ := h.exists_span
  have hlast := hsign.reaches.trans hvalue.reaches
  rw [hspan]
  refine ⟨(hname.reaches.offset_lt hname.length_lt).trans_le hlast.offset_le,
    (hp.reaches (h.reaches.trans hlast)).offset_le, ?_, fun e he => h.readFrom hp he,
    by rw [Node.Shows, hspan, hvalue.value_span_stop]⟩
  have hsub := hvalue.value_inOrder.mono hsign.reaches.offset_le le_rfl
  exact hname.inOrder.append hsub hname.reaches.offset_le hlast.offset_le

variable {phrase : Phrase}

/-- A node that stands for a phrase is placed. -/
lemma Derives.placed (h : Derives phrase p q) (hnode : phrase.node? = some node)
    (hp : p.InText text) : node.Placed text := by
  induction h with
  | selfClosed hopen hname hattributes hclose _ =>
    obtain rfl := Option.some.inj hnode
    exact placed_selfClosed hopen hname hattributes hclose hp
  | element hopen hname hattributes hclose hchildren hopen' hname' hclose' _ _ _ =>
    obtain rfl := Option.some.inj hnode
    exact placed_element hopen hname hattributes hclose hchildren hopen' hname' hclose' hp
  | fragment hopen hchildren hclose _ =>
    obtain rfl := Option.some.inj hnode
    exact placed_fragment hopen hchildren hclose hp
  | expression hopen hbody hskip hclose hinside _ =>
    obtain rfl := Option.some.inj hnode
    exact placed_expression hopen hbody hskip hclose hinside hp
  | valueString h =>
    obtain rfl := Option.some.inj hnode
    exact placed_string h hp
  -- a value and a child that are another phrase are placed as that phrase is
  | valueExpression hskip _ ih => exact ih hnode (hp.reaches hskip.reaches)
  | valueMarkup hskip _ ih => exact ih hnode (hp.reaches hskip.reaches)
  | spread hskip hopen hdots hargument hclose =>
    obtain rfl := Option.some.inj hnode
    exact placed_spread hopen hdots hargument hclose (hp.reaches hskip.reaches)
  | bareAttribute h =>
    obtain rfl := Option.some.inj hnode
    exact placed_bareAttribute h hp
  | setAttribute hname hsign hvalue _ =>
    obtain rfl := Option.some.inj hnode
    exact placed_setAttribute hname hsign hvalue hp
  | childText hpass hne hraw _ =>
    obtain rfl := Option.some.inj hnode
    exact placed_text hpass hne hraw hp
  | childMarkup _ ih => exact ih hnode hp
  | childExpression _ ih => exact ih hnode hp
  | _ => simp [Phrase.node?] at hnode

lemma DerivesProgram.inOrder (h : DerivesProgram p nodes) (hp : p.InText text) :
    Span.InOrder p.offset (nodes.map Node.span) text.length := by
  induction h with
  | nil => exact Span.inOrder_nil
  | token hread _ _ _ ih =>
    exact (ih (hp.reaches hread.reaches)).mono hread.reaches.offset_le le_rfl
  | markup hskip hnode _ ih =>
    have hreach := hskip.reaches.trans hnode.reaches
    have ha := hp.reaches hreach
    have hfirst := hnode.markup_inOrder.mono hskip.reaches.offset_le le_rfl
    exact hfirst.append (ih ha) hreach.offset_le ha.offset_le

end Grammar

/-- A node of a parsed program stands in the text where it says that it does. -/
lemma placed_of_contains {levels : ℕ} {text : String} {program : Program} {node : Node}
    (h : parseWithin levels text = .ok program) (hnode : program.Contains node) :
    node.Placed text.toList := by
  obtain ⟨hderives, -⟩ := derivesProgram_of_parseWithin h
  obtain ⟨phrase, p, q, hphrase, hnode, hp⟩ := hderives.hasPhrase hnode
  exact hnode.placed hphrase hp

/-- The nodes of a parsed program are placed in its text: those at the top in order and apart, and
each that occurs, at whatever depth, as it says. -/
theorem placed_of_parseWithin {levels : ℕ} {text : String} {program : Program}
    (h : parseWithin levels text = .ok program) :
    Span.InOrder 0 (program.body.map Node.span) text.toList.length ∧
      ∀ node, program.Contains node → node.Placed text.toList := by
  obtain ⟨hderives, -⟩ := derivesProgram_of_parseWithin h
  exact ⟨hderives.inOrder (Place.inText_ofText _), fun _ hnode => placed_of_contains h hnode⟩

/-- The case of an attribute, of raw text, and of markup in an expression. -/
theorem placed_nested_markup :
    let text := "<a b='c'>d\x7b<e/>\x7d</a>"
    let program : Program :=
      ⟨[.element ⟨0, 20⟩ (.plain ⟨⟨1, 2⟩, "a"⟩)
        [.setAttribute ⟨3, 8⟩ (.plain ⟨⟨3, 4⟩, "b"⟩) (.string ⟨5, 8⟩ "'c'")]
        [.text ⟨9, 10⟩ "d",
          .expression ⟨10, 16⟩ ⟨11, 15⟩ "<e/>"
            [.selfClosed ⟨11, 15⟩ (.plain ⟨⟨12, 13⟩, "e"⟩) []]]]⟩
    parseWithin 2 text = .ok program ∧
      Span.InOrder 0 (program.body.map Node.span) text.toList.length ∧
      ∀ node, program.Contains node → node.Placed text.toList := by
  intro text program
  have h : parseWithin 2 text = .ok program := by cbv
  exact ⟨h, placed_of_parseWithin h⟩

end EmbeddedJsx
