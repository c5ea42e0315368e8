import EmbeddedJsx.Proofs.Geometry.Spans
import EmbeddedJsx.Proofs.Grammar.Occurrence

/-!
# Where the parts of a phrase stand

The identifiers of a name stand in order between the places of the name, and the nodes of a phrase
between the places of the phrase.  Children do more than that: they leave no gap, and no run of raw
text stands next to another.
-/

namespace EmbeddedJsx

/-- The excerpt reads what stands in the text at its span. -/
def Excerpt.ReadFrom (text : List Char) (e : Excerpt) : Prop :=
  e.text = String.ofList (e.span.slice text)

/-- Whether a node is a run of raw text. -/
def Node.isText : Node → Bool
  | text _ _ => true
  | _ => false

namespace Place

variable {text : List Char} {p q : Place} {kind : TokenKind} {e : Excerpt}

lemma Reaches.offset_lt (h : p.Reaches q) (hlt : q.rest.length < p.rest.length) :
    p.offset < q.offset := by
  obtain ⟨run, hrest, hoff⟩ := h
  simp only [hrest, List.length_append] at hlt
  omega

lemma Next.inOrder (h : p.Next kind e q) : Span.InOrder p.offset [e.span] q.offset := by
  obtain ⟨m, hskip, hread⟩ := h
  rw [hread.span_eq]
  exact Span.inOrder_singleton hskip.reaches.offset_le hread.offset_lt le_rfl

lemma Next.readFrom (h : p.Next kind e q) (hp : p.InText text) : e.ReadFrom text := by
  obtain ⟨m, hskip, hread⟩ := h
  have hm := hp.reaches hskip.reaches
  have hq := hm.reaches hread.reaches
  obtain ⟨-, rfl⟩ := (hm.reads_iff hq hread.reaches.offset_le).1 hread
  rfl

end Place

namespace Grammar

variable {text : List Char} {p q : Place} {name : Name} {parts : List Excerpt} {e : Excerpt}
  {node : Node} {nodes : List Node} {phrase : Phrase}

/-! ### Names -/

lemma Members.inOrder (h : Members p parts q) :
    Span.InOrder p.offset (parts.map Excerpt.span) q.offset := by
  induction h with
  | nil => exact Span.inOrder_nil
  | cons hdot hpart hmore ih =>
    have hfirst := hpart.inOrder.mono hdot.reaches.offset_le le_rfl
    exact hfirst.append ih (hdot.reaches.trans hpart.reaches).offset_le hmore.reaches.offset_le

lemma AttributeName.inOrder (h : AttributeName p name q) :
    Span.InOrder p.offset (name.parts.map Excerpt.span) q.offset := by
  cases h with
  | plain h => exact h.inOrder
  | namespaced h hcolon h' =>
    refine h.inOrder.append ?_ h.reaches.offset_le (hcolon.reaches.trans h'.reaches).offset_le
    exact h'.inOrder.mono hcolon.reaches.offset_le le_rfl

lemma ElementName.inOrder (h : ElementName p name q) :
    Span.InOrder p.offset (name.parts.map Excerpt.span) q.offset := by
  cases h with
  | simple h => exact h.inOrder
  | member h hdot h' hmore =>
    have hsecond := h'.inOrder.mono hdot.reaches.offset_le le_rfl
    have hothers := hsecond.append hmore.inOrder (hdot.reaches.trans h'.reaches).offset_le
      hmore.reaches.offset_le
    exact h.inOrder.append hothers h.reaches.offset_le
      (hdot.reaches.trans (h'.reaches.trans hmore.reaches)).offset_le

lemma Members.readFrom (h : Members p parts q) (hp : p.InText text) (he : e ∈ parts) :
    e.ReadFrom text := by
  induction h with
  | nil => simp at he
  | cons hdot hpart _ ih =>
    have ha := hp.reaches hdot.reaches
    rcases List.mem_cons.1 he with rfl | he
    · exact hpart.readFrom ha
    · exact ih (ha.reaches hpart.reaches) he

lemma AttributeName.readFrom (h : AttributeName p name q) (hp : p.InText text)
    (he : e ∈ name.parts) : e.ReadFrom text := by
  cases h with
  | plain h =>
    obtain rfl := List.mem_singleton.1 he
    exact h.readFrom hp
  | namespaced h hcolon h' =>
    rcases List.mem_cons.1 he with rfl | he
    · exact h.readFrom hp
    · obtain rfl := List.mem_singleton.1 he
      exact h'.readFrom (hp.reaches (h.reaches.trans hcolon.reaches))

lemma ElementName.readFrom (h : ElementName p name q) (hp : p.InText text)
    (he : e ∈ name.parts) : e.ReadFrom text := by
  cases h with
  | simple h => exact h.readFrom hp he
  | member h hdot h' hmore =>
    have hb := hp.reaches (h.reaches.trans hdot.reaches)
    rcases List.mem_cons.1 he with rfl | he
    · exact h.readFrom hp
    rcases List.mem_cons.1 he with rfl | he
    · exact h'.readFrom hb
    · exact hmore.readFrom (hb.reaches h'.reaches) he

/-- The name of an attribute begins, after what is passed over, with its span, and ends with it. -/
lemma AttributeName.exists_span (h : AttributeName p name q) :
    ∃ m, p.Skips m ∧ AttributeName m name q ∧ name.span = ⟨m.offset, q.offset⟩ := by
  cases h with
  | plain h =>
    obtain ⟨m, hskip, hread⟩ := h
    exact ⟨m, hskip, .plain hread.next, hread.span_eq⟩
  | namespaced h hcolon h' =>
    obtain ⟨m, hskip, hread⟩ := h
    refine ⟨m, hskip, .namespaced hread.next hcolon h', ?_⟩
    rw [Name.span, Name.first, Name.last, hread.span_start, h'.span_stop]

lemma Members.span_stop (h : Members p parts q) :
    (parts.map (·.span.stop)).getLastD p.offset = q.offset := by
  induction h with
  | nil => rfl
  | cons _ hpart _ ih => rw [List.map_cons, List.getLastD_cons, hpart.span_stop, ih]

/-- The name of an element ends with its span. -/
lemma ElementName.span_stop (h : ElementName p name q) : name.span.stop = q.offset := by
  cases h with
  | simple h =>
    obtain ⟨m, -, -, hspan⟩ := h.exists_span
    rw [hspan]
  | member h hdot h' hmore =>
    rw [← hmore.span_stop, ← h'.span_stop]
    simp [Name.span, Name.last]

/-! ### Single nodes -/

lemma Derives.markup_offset_lt (h : Derives (.markup node) p q) : p.offset < q.offset :=
  h.reaches.offset_lt h.markup_length_lt

lemma Derives.markup_inOrder (h : Derives (.markup node) p q) :
    Span.InOrder p.offset [node.span] q.offset := by
  rw [h.markup_span]
  exact Span.inOrder_singleton le_rfl h.markup_offset_lt le_rfl

lemma Derives.expression_offset_lt (h : Derives (.expression node) p q) : p.offset < q.offset :=
  h.reaches.offset_lt h.expression_length_lt

lemma Derives.value_inOrder (h : Derives (.value node) p q) :
    Span.InOrder p.offset [node.span] q.offset := by
  cases h with
  | valueString h => exact h.inOrder
  | valueExpression hskip h =>
    rw [h.expression_span]
    exact Span.inOrder_singleton hskip.reaches.offset_le h.expression_offset_lt le_rfl
  | valueMarkup hskip h =>
    exact h.markup_inOrder.mono hskip.reaches.offset_le le_rfl

/-- An attribute begins with its span, after what is passed over, and ends with it. -/
lemma Derives.attribute_span (h : Derives (.attribute node) p q) :
    p.offset ≤ node.span.start ∧ node.span.start < node.span.stop ∧ node.span.stop = q.offset := by
  have hlt := h.reaches.offset_lt h.attribute_length_lt
  cases h with
  | spread hskip hopen hdots hargument hclose =>
    refine ⟨hskip.reaches.offset_le, ?_, rfl⟩
    exact hopen.offset_lt.trans_le
      (hdots.reaches.trans (hargument.reaches.trans hclose.reaches)).offset_le
  | bareAttribute h =>
    obtain ⟨m, hskip, hname, hspan⟩ := h.exists_span
    rw [Node.span, hspan]
    exact ⟨hskip.reaches.offset_le, hname.reaches.offset_lt hname.length_lt, rfl⟩
  | setAttribute h hsign hvalue =>
    obtain ⟨m, hskip, hname, hspan⟩ := h.exists_span
    rw [Node.span, hspan]
    refine ⟨hskip.reaches.offset_le, ?_, rfl⟩
    exact (hname.reaches.offset_lt hname.length_lt).trans_le
      (hsign.reaches.trans hvalue.reaches).offset_le

/-- A child fills what lies between its places. -/
lemma Derives.child_tiles (h : Derives (.child node) p q) :
    Span.Tiles p.offset [node.span] q.offset := by
  cases h with
  | childText hpass hne _ _ =>
    refine ⟨rfl, ?_, rfl⟩
    have := List.length_pos_iff.2 hne
    have := hpass.2
    simp only [Node.span]
    omega
  | childMarkup h =>
    rw [h.markup_span]
    exact ⟨rfl, h.markup_offset_lt, rfl⟩
  | childExpression h =>
    rw [h.expression_span]
    exact ⟨rfl, h.expression_offset_lt, rfl⟩

/-! ### Lists of nodes -/

/-- The nodes of a list that stands for a phrase stand in order between its places. -/
lemma Derives.inOrder (h : Derives phrase p q) (hlist : phrase.node? = none) :
    Span.InOrder p.offset (phrase.nodes.map Node.span) q.offset := by
  induction h with
  | bodyNil => exact Span.inOrder_nil
  | bodyToken hnext _ _ _ _ _ ih => exact (ih rfl).mono hnext.reaches.offset_le le_rfl
  | bodyMarkup hskip hnode hrest _ ih =>
    have hfirst := hnode.markup_inOrder.mono hskip.reaches.offset_le le_rfl
    exact hfirst.append (ih rfl) (hskip.reaches.trans hnode.reaches).offset_le
      hrest.reaches.offset_le
  | bodyBraces hopen hinner hclose hrest ih ih' =>
    -- markup between the inner braces ends before the right one of them
    rw [Phrase.nodes, List.map_append]
    have hinner' := (ih rfl).mono hopen.reaches.offset_le hclose.reaches.offset_le
    exact hinner'.append (ih' rfl)
      (hopen.reaches.trans (hinner.reaches.trans hclose.reaches)).offset_le
      hrest.reaches.offset_le
  | attributesNil => exact Span.inOrder_nil
  | attributesCons hnode hrest _ ih =>
    obtain ⟨hlow, hlt, hstop⟩ := hnode.attribute_span
    exact (Span.inOrder_singleton hlow hlt hstop.le).append (ih rfl) hnode.reaches.offset_le
      hrest.reaches.offset_le
  | childrenNil => exact Span.inOrder_nil
  | childrenCons hnode hrest _ ih =>
    have hfirst := Span.Tiles.inOrder hnode.child_tiles
    exact hfirst.append (ih rfl) hnode.reaches.offset_le hrest.reaches.offset_le
  | _ => simp [Phrase.node?] at hlist

/-- Attributes end with the last of them. -/
lemma Derives.attributes_stop (h : Derives (.attributes nodes) p q) :
    (nodes.map (·.span.stop)).getLastD p.offset = q.offset := by
  induction nodes generalizing p with
  | nil =>
    cases h
    rfl
  | cons node nodes ih =>
    cases h with
    | attributesCons hnode hrest =>
      obtain ⟨-, -, hstop⟩ := hnode.attribute_span
      rw [List.map_cons, List.getLastD_cons, hstop, ih hrest]

lemma Derives.children_tiles (h : Derives (.children nodes) p q) :
    Span.Tiles p.offset (nodes.map Node.span) q.offset := by
  induction nodes generalizing p with
  | nil =>
    cases h
    rfl
  | cons node nodes ih =>
    cases h with
    | childrenCons hnode hrest =>
      obtain ⟨hstart, hlt, hstop⟩ := hnode.child_tiles
      exact ⟨hstart, hlt, hstop ▸ ih hrest⟩

/-- After raw text comes no raw text. -/
lemma Derives.not_isText_child {m : Place} {node' : Node} (h : Derives (.child node) p m)
    (h' : Derives (.child node') m q) : ¬ (node.isText = true ∧ node'.isText = true) := by
  rintro ⟨htext, htext'⟩
  cases h with
  | childText _ _ _ hend =>
    -- the first run is as long as it can be, so that no raw character is left for the second
    cases h' with
    | @childText _ _ run hpass hne hraw _ =>
      obtain ⟨c, more, rfl⟩ := List.exists_cons_of_ne_nil hne
      have hclash := hend c (by simp [hpass.1])
      rw [hraw c List.mem_cons_self] at hclash
      exact absurd hclash (by simp)
    | childMarkup h' => cases h' <;> exact absurd htext' nofun
    | childExpression h' =>
      cases h'
      exact absurd htext' nofun
  | childMarkup h => cases h <;> exact absurd htext nofun
  | childExpression h =>
    cases h
    exact absurd htext nofun

lemma Derives.children_isChain (h : Derives (.children nodes) p q) :
    nodes.IsChain fun node node' => ¬ (node.isText = true ∧ node'.isText = true) := by
  induction nodes generalizing p with
  | nil => exact .nil
  | cons node nodes ih =>
    cases h with
    | childrenCons hnode hrest =>
      cases nodes with
      | nil => exact .singleton _
      | cons node' nodes =>
        refine .cons_cons ?_ (ih hrest)
        cases hrest with
        | childrenCons hnode' _ => exact hnode.not_isText_child hnode'

end Grammar

end EmbeddedJsx
