import EmbeddedJsx.Session
import EmbeddedJsx.Proofs.Geometry.Nodes
import EmbeddedJsx.Proofs.Runs.Productions

/-!
# Constructs read one by one

Every construct of the grammar may be asked for by itself, wherever a cursor happens to be: before
the first token, after a failure, or in the middle of a construct that has been given up.  Two
things make that safe.  A cursor that has a token but does not stand on it has nothing left to read
(`Cursor.Settled`), so that no construct is read from there.  And whatever is read from a cursor
that stands on its token is grammatical.

The main statement is `Construct.shows`: what an answer shows of the text can be looked up in the
text, between bounds that are in order.
-/

namespace EmbeddedJsx

open Grammar Production

/-! ### Slices of the text -/

/-- The excerpt is what a slice between the ends of its span gives, which are in order. -/
def Excerpt.Sliced (text : List Char) (e : Excerpt) : Prop :=
  Text.orderedSlice text e.span.start e.span.stop = .ok e.text.toList

/-- All that a node itself shows of the text. -/
def Node.shown : Node → List Excerpt
  | .expression _ inside content _ => [⟨inside, content⟩]
  | .text span content | .string span content => [⟨span, content⟩]
  | node => node.identifiers

/-- Whatever is shown in the tree below a node, the node included, is a slice of the text. -/
def Node.Sliced (text : List Char) (root : Node) : Prop :=
  ∀ node : Node, node.Occurs root → ∀ e ∈ node.shown, e.Sliced text

section Slices

variable {text : List Char} {e : Excerpt} {node : Node} {name : Name} {p q : Place}

lemma Excerpt.ReadFrom.sliced (h : e.ReadFrom text) (hle : e.span.start ≤ e.span.stop)
    (hstop : e.span.stop ≤ text.length) : e.Sliced text := by
  have hordered : ¬ (e.span.stop : ℤ) < e.span.start := by omega
  rw [Excerpt.Sliced, Text.orderedSlice, if_neg hordered, Text.slice,
    Text.resolveBound_natCast (hle.trans hstop), Text.resolveBound_natCast hstop, h,
    String.toList_ofList]
  rfl

/-- A node that is placed in the text shows slices of it. -/
lemma Node.Placed.sliced (h : node.Placed text) (he : e ∈ node.shown) : e.Sliced text := by
  have hstop := h.stop_le
  have hidentifier (he : e ∈ node.identifiers) : e.Sliced text := by
    obtain ⟨-, hlt, hle⟩ := h.parts.inside e.span
      (List.mem_append_left _ (List.mem_map_of_mem he))
    exact (h.identifiers e he).sliced hlt.le (hle.trans hstop)
  have hshows := h.shows
  cases node with
  | expression span inside content markup =>
    obtain rfl := List.mem_singleton.1 he
    obtain ⟨hbraces, hcontent⟩ := hshows
    rw [Node.span, hbraces.span_eq] at hstop
    exact Excerpt.ReadFrom.sliced hcontent hbraces.start_le ((Nat.le_succ _).trans hstop)
  | text span content =>
    obtain rfl := List.mem_singleton.1 he
    exact Excerpt.ReadFrom.sliced hshows.1 h.start_lt.le hstop
  | string span content =>
    obtain rfl := List.mem_singleton.1 he
    exact Excerpt.ReadFrom.sliced hshows h.start_lt.le hstop
  | _ => exact hidentifier he

lemma Grammar.HasPhrase.sliced (h : HasPhrase text node) : node.Sliced text := by
  intro sub hsub e he
  obtain ⟨phrase, p, q, hnode, hderives, hp⟩ := HasPhrase.of_occurs hsub h
  exact (hderives.placed hnode hp).sliced he

lemma Grammar.ElementName.sliced (h : ElementName p name q) (hp : p.InText text) (he : e ∈ name.parts) :
    e.Sliced text := by
  obtain ⟨-, hlt, hle⟩ := h.inOrder.inside e.span (List.mem_map_of_mem he)
  exact (h.readFrom hp he).sliced hlt.le (hle.trans (hp.reaches h.reaches).offset_le)

end Slices

/-! ### Cursors that have settled -/

namespace Cursor

variable {text : List Char} {c c' : Cursor} {kind : TokenKind}

/-- A cursor that can be come by stands on its token, unless there is none or there is nothing left
to read. -/
structure Settled (text : List Char) (c : Cursor) : Prop extends c.Valid text where
  stands : ∀ kind, c.token = some kind → kind ≠ .malformed → c.rest ≠ [] → c.On kind

lemma settled_ofText (text : List Char) : (ofText text).Settled text :=
  ⟨valid_ofText text, by simp [ofText]⟩

lemma Settled.perform (h : c.Settled text) (call : Call) :
    (call.perform c).cursor.Settled text := by
  have hvalid := h.toValid.perform call
  have houtcome := h.outcome call
  refine ⟨hvalid, ?_⟩
  have hmoved {kind : TokenKind} {c' : Cursor} (hok : call.perform c = .ok kind c') : c'.Stands :=
    Moved.stands ⟨call, kind, hok⟩
  have hlen := hvalid.within.length_rest
  generalize call.perform c = step at hlen houtcome hmoved ⊢
  intro kind htoken hkind hrest
  cases houtcome with
  | token => exact (hmoved rfl).on htoken
  | malformed _ _ htoken' => exact absurd (Option.some.inj (htoken.symm.trans htoken')) hkind
  | truncated _ _ _ _ _ hstop | ended _ _ _ _ hstop =>
    -- at the end of the text nothing is left to read
    rw [Step.cursor, hstop, Nat.sub_self] at hlen
    exact absurd (List.eq_nil_of_length_eq_zero hlen) hrest

lemma Settled.run (h : c.Settled text) (calls : List Call) : (c.run calls).Settled text := by
  induction calls generalizing c with
  | nil => exact h
  | cons call calls ih => exact ih (h.perform call)

lemma Settled.moves (h : c.Settled text) (hmoves : c.Moves c') : c'.Settled text := by
  obtain ⟨calls, rfl⟩ := hmoves.exists_run
  exact h.run calls

lemma Within.inText_place (h : c.Within text) : c.place.InText text :=
  ⟨h.stop_le, h.drop_stop.symm⟩

lemma Within.inText_origin (h : c.Within text) : c.origin.InText text :=
  ⟨h.start_le, h.drop_start.symm⟩

/-- What goes on from a token has stood on it. -/
lemma Settled.stands_of_advance {u : Unit} (h : c.Settled text) (htoken : c.token = some kind)
    (hkind : kind ≠ .malformed) (hadvance : advance c = .ok u c') : c.Stands := by
  refine ⟨kind, h.stands kind htoken hkind fun hnil => ?_⟩
  have hlt := (advance_moved hadvance).length_lt
  simp [hnil] at hlt

/-- What begins with a token that is taken has stood on it. -/
lemma Settled.stands_of_take {α : Type} {what : Expectation} {next : Excerpt → Production α} {a : α}
    (h : c.Settled text) (hkind : kind ≠ .malformed)
    (hok : (take kind what >>= next) c = .ok a c') : c.Stands := by
  obtain ⟨e, c₁, htake, -⟩ := bind_eq_ok.1 hok
  obtain ⟨htoken, -, hadvance⟩ := take_eq_ok.1 htake
  exact h.stands_of_advance htoken hkind hadvance

end Cursor

/-! ### Constructs -/

/-- A construct that can be asked for by itself. -/
inductive Construct where
  /-- The name of an element. -/
  | elementName
  /-- The name of an attribute. -/
  | attributeName
  /-- The value of an attribute, if there is one. -/
  | attributeValue
  /-- An attribute, if there is one. -/
  | oneAttribute
  /-- An opening or self-closing tag. -/
  | openingTag
  /-- A closing tag. -/
  | closingTag
  /-- An element. -/
  | element
  /-- The children of an element or a fragment. -/
  | children
  /-- A fragment. -/
  | fragment
  /-- An expression of the host language. -/
  | expression
deriving DecidableEq, Repr

namespace Construct

/-- What is answered when the construct is read. -/
def Answer : Construct → Type
  | elementName | attributeName | closingTag => Name
  | attributeValue | oneAttribute => Option Node
  | openingTag => Production.Tag
  | children => List Node
  | element | fragment | expression => Node

/-- How the construct is read. -/
def rule : (construct : Construct) → Rule construct.Answer
  | elementName => fun _ steps => Production.elementName steps
  | attributeName => fun _ _ => Production.attributeName
  | attributeValue => Production.attributeValue
  | oneAttribute => Production.oneAttribute
  | openingTag => Production.openingTag
  | closingTag => fun _ steps => Production.closingTag steps
  | element => Production.element
  | children => fun nested steps => Production.children nested steps steps
  | fragment => Production.fragment
  | expression => Production.expression

/-- The name in an answer, if there is one. -/
def name? : (construct : Construct) → construct.Answer → Option Name
  | elementName, name | attributeName, name | closingTag, name => some name
  | openingTag, tag => some tag.name
  | attributeValue, _ | oneAttribute, _ | children, _ | element, _ | fragment, _ | expression, _ =>
    none

/-- The nodes in an answer. -/
def nodes : (construct : Construct) → construct.Answer → List Node
  | elementName, _ | attributeName, _ | closingTag, _ => []
  | openingTag, tag => tag.attributes
  | attributeValue, node | oneAttribute, node => node.toList
  | children, nodes => nodes
  | element, node | fragment, node | expression, node => [node]

/-- What an answer shows of the text are slices of it. -/
structure Shows (text : List Char) (construct : Construct) (a : construct.Answer) : Prop where
  /-- The identifiers of a name. -/
  name : ∀ name ∈ construct.name? a, ∀ e ∈ name.parts, e.Sliced text
  /-- All that occurs in the nodes. -/
  nodes : ∀ root ∈ construct.nodes a, root.Sliced text

variable {text : List Char} {c c' : Cursor} {steps levels : ℕ} {nested : Production Node}

/-- Reading a construct makes calls and nothing else. -/
lemma orderly_rule (construct : Construct) (h : nested.Orderly steps) :
    (construct.rule nested steps).Orderly steps := by
  cases construct with
  | elementName => exact orderly_elementName steps
  | attributeName => exact orderly_attributeName
  | attributeValue => exact orderly_attributeValue h
  | oneAttribute => exact orderly_oneAttribute h
  | openingTag => exact orderly_openingTag h
  | closingTag => exact orderly_closingTag steps
  | element => exact orderly_element h
  | children => exact orderly_children h le_rfl
  | fragment => exact orderly_fragment h
  | expression => exact orderly_expression h

/-! ### Where constructs begin

A construct that is read begins with a token that the cursor stands on.  For most of them the token
is one that is taken; after the `<>` of a fragment and the brace of an expression something else is
read, which would fail if nothing were left to read. -/

lemma stands_of_attributeValue {value : Node} (hc : c.Settled text)
    (hok : Production.attributeValue nested steps c = .ok (some value) c') : c.Stands := by
  simp only [Production.attributeValue, bind_eq_ok, sees_apply, EStateM.Result.ok.injEq] at hok
  obtain ⟨_, _, ⟨rfl, rfl⟩, hok⟩ := hok
  split at hok
  · next hsign =>
    obtain ⟨_, _, hadvance, -⟩ := bind_eq_ok.1 hok
    exact hc.stands_of_advance (by simpa using hsign) (by simp) hadvance
  · simp at hok

lemma stands_of_oneAttribute {node : Node} (hc : c.Settled text)
    (hok : Production.oneAttribute nested steps c = .ok (some node) c') : c.Stands := by
  simp only [Production.oneAttribute, bind_eq_ok, current_apply, EStateM.Result.ok.injEq] at hok
  obtain ⟨_, _, ⟨rfl, rfl⟩, hok⟩ := hok
  generalize c.token = token at hok
  split at hok
  · obtain ⟨_, _, hspread, -⟩ := bind_eq_ok.1 hok
    exact hc.stands_of_take (by simp) hspread
  · obtain ⟨_, _, hnamed, -⟩ := bind_eq_ok.1 hok
    obtain ⟨_, _, hname, -⟩ := bind_eq_ok.1 hnamed
    exact hc.stands_of_take (by simp) hname
  · simp at hok

lemma stands_of_element {node : Node} (hc : c.Settled text)
    (hok : Production.element nested steps c = .ok node c') : c.Stands := by
  simp only [Production.element, bind_eq_ok, get_apply, EStateM.Result.ok.injEq] at hok
  obtain ⟨_, _, ⟨rfl, rfl⟩, tag, c₁, htag, -⟩ := hok
  exact hc.stands_of_take (by simp) htag

lemma stands_of_fragment (hnested : SoundAt levels .markup nested) {node : Node}
    (hc : c.Settled text) (hok : Production.fragment nested steps c = .ok node c') : c.Stands := by
  simp only [Production.fragment, bind_eq_ok, expect_eq_ok] at hok
  obtain ⟨_, c, ⟨htoken, rfl, rfl⟩, nodes, c₁, hchildren, -⟩ := hok
  -- the token that ends the children has characters
  obtain ⟨hderives, hon, -⟩ := children_sound hnested steps hchildren
  refine ⟨_, hc.stands _ htoken (by simp) fun hnil => ?_⟩
  have hle := hderives.reaches.length_le
  have hpos : 0 < c₁.lexeme.length := by
    rcases hon with hon | hon <;> exact hon.2.length_pos
  simp only [Cursor.origin, Cursor.place, hnil, List.length_append, List.length_nil] at hle
  omega

lemma stands_of_expression (hnested : SoundAt levels .markup nested) {node : Node}
    (hc : c.Settled text) (hok : Production.expression nested steps c = .ok node c') :
    c.Stands := by
  simp only [Production.expression, bind_eq_ok, expect_eq_ok, get_apply,
    EStateM.Result.ok.injEq] at hok
  obtain ⟨_, c, ⟨htoken, rfl, rfl⟩, _, _, ⟨rfl, rfl⟩, nodes, c₁, hbody, -⟩ := hok
  obtain ⟨q, hunclosed, hafter, -⟩ := expressionMarkup_sound hnested steps 0 hbody
  refine ⟨_, hc.stands _ htoken (by simp) fun hnil => ?_⟩
  cases hunclosed with
  | body hderives =>
    have hlt := hafter.next.length_lt.trans_le hderives.reaches.length_le
    simp [Cursor.place, hnil] at hlt

/-! ### What is read from a settled cursor -/

lemma shows_elementName {name : Name} (hc : c.Settled text)
    (hok : Production.elementName steps c = .ok name c') : Shows text .elementName name := by
  refine ⟨fun name' hname' e he => ?_, by simp [nodes]⟩
  obtain rfl := Option.mem_some.1 hname'
  have hstands : c.Stands := hc.stands_of_take (by simp) hok
  obtain ⟨q, hname, -⟩ := elementName_sound hstands.follows hok
  exact hname.sliced hc.within.inText_origin he

lemma shows_attributeName {name : Name} (hc : c.Settled text)
    (hok : Production.attributeName c = .ok name c') : Shows text .attributeName name := by
  refine ⟨fun name' hname' e he => ?_, by simp [nodes]⟩
  obtain rfl := Option.mem_some.1 hname'
  have hstands : c.Stands := hc.stands_of_take (by simp) hok
  obtain ⟨q, hname, -⟩ := attributeName_sound hstands.follows hok
  exact (ElementName.simple hname).sliced hc.within.inText_origin he

lemma shows_closingTag {name : Name} (hc : c.Settled text)
    (hok : Production.closingTag steps c = .ok name c') : Shows text .closingTag name := by
  refine ⟨fun name' hname' e he => ?_, by simp [nodes]⟩
  obtain rfl := Option.mem_some.1 hname'
  have hstands : c.Stands := hc.stands_of_take (by simp) hok
  obtain ⟨opening, a, b, close, hopen, hname, -, -⟩ := closingTag_sound hstands hok
  exact hname.sliced (hc.within.inText_origin.reaches hopen.reaches) he

lemma shows_attributeValue (hnested : SoundAt levels .markup nested) {value : Option Node}
    (hc : c.Settled text) (hok : Production.attributeValue nested steps c = .ok value c') :
    Shows text .attributeValue value := by
  refine ⟨by simp [name?], fun root hroot => ?_⟩
  obtain rfl : value = some root := Option.mem_toList.1 hroot
  have hstands := stands_of_attributeValue hc hok
  obtain ⟨sign, a, q, hsign, hvalue, -, -⟩ := attributeValue_some hnested hstands.follows hok
  exact HasPhrase.sliced ⟨_, _, _, rfl, hvalue, hc.within.inText_origin.reaches hsign.reaches⟩

lemma shows_oneAttribute (hnested : SoundAt levels .markup nested) {found : Option Node}
    (hc : c.Settled text) (hok : Production.oneAttribute nested steps c = .ok found c') :
    Shows text .oneAttribute found := by
  refine ⟨by simp [name?], fun root hroot => ?_⟩
  obtain rfl : found = some root := Option.mem_toList.1 hroot
  obtain ⟨q, hderives, -, -⟩ :=
    oneAttribute_some hnested (stands_of_oneAttribute hc hok).follows hok
  exact HasPhrase.sliced ⟨_, _, _, rfl, hderives, hc.within.inText_origin⟩

lemma shows_openingTag (hnested : SoundAt levels .markup nested) {tag : Production.Tag}
    (hc : c.Settled text) (hok : Production.openingTag nested steps c = .ok tag c') :
    Shows text .openingTag tag := by
  have hstands : c.Stands := hc.stands_of_take (by simp) hok
  obtain ⟨opening, a, b, d, close, hopen, hname, hattributes, -⟩ :=
    openingTag_sound hnested hstands hok
  have ha := hc.within.inText_origin.reaches hopen.reaches
  refine ⟨fun name' hname' e he => ?_, fun root hroot => ?_⟩
  · obtain rfl := Option.mem_some.1 hname'
    exact hname.sliced ha he
  · exact (hattributes.hasPhrase_of_mem rfl (ha.reaches hname.reaches) hroot).sliced

/-- One node that is derived from the place of a cursor is all that there is to be shown. -/
lemma sliced_of_derives {phrase : Node → Phrase} {node root : Node} {q : Place}
    (hc : c.Settled text) (hderives : Derives (phrase node) c.origin q)
    (hnode : (phrase node).node? = some node) (hroot : root ∈ [node]) : root.Sliced text := by
  obtain rfl := List.mem_singleton.1 hroot
  exact HasPhrase.sliced ⟨_, _, _, hnode, hderives, hc.within.inText_origin⟩

lemma shows_element (hnested : SoundAt levels .markup nested) {node : Node} (hc : c.Settled text)
    (hok : Production.element nested steps c = .ok node c') : Shows text .element node := by
  refine ⟨by simp [name?], fun root hroot => ?_⟩
  obtain ⟨hderives, -, -⟩ := element_sound hnested (stands_of_element hc hok) hok
  exact sliced_of_derives hc hderives rfl hroot

lemma shows_children (hnested : SoundAt levels .markup nested) {nodes : List Node}
    (hc : c.Settled text) (hok : Production.children nested steps steps c = .ok nodes c') :
    Shows text .children nodes := by
  refine ⟨by simp [name?], fun root hroot => ?_⟩
  obtain ⟨hderives, -, -⟩ := children_sound hnested steps hok
  exact (hderives.hasPhrase_of_mem rfl hc.within.inText_place hroot).sliced

lemma shows_fragment (hnested : SoundAt levels .markup nested) {node : Node} (hc : c.Settled text)
    (hok : Production.fragment nested steps c = .ok node c') : Shows text .fragment node := by
  refine ⟨by simp [name?], fun root hroot => ?_⟩
  obtain ⟨hderives, -, -⟩ := fragment_sound hnested (stands_of_fragment hnested hc hok) hok
  exact sliced_of_derives hc hderives rfl hroot

lemma shows_expression (hnested : SoundAt levels .markup nested) {node : Node}
    (hc : c.Settled text) (hok : Production.expression nested steps c = .ok node c') :
    Shows text .expression node := by
  refine ⟨by simp [name?], fun root hroot => ?_⟩
  obtain ⟨hderives, -, -⟩ := expression_sound hnested (stands_of_expression hnested hc hok) hok
  exact sliced_of_derives hc hderives rfl hroot

/-- **Answers.**  Wherever a construct is read, what the answer shows are slices of the text. -/
theorem shows (construct : Construct) {a : construct.Answer} (hc : c.Settled text)
    (hok : construct.rule (markup steps levels) steps c = .ok a c') : construct.Shows text a := by
  have hnested := markup_sound steps levels
  cases construct with
  | elementName => exact shows_elementName hc hok
  | attributeName => exact shows_attributeName hc hok
  | attributeValue => exact shows_attributeValue hnested hc hok
  | oneAttribute => exact shows_oneAttribute hnested hc hok
  | openingTag => exact shows_openingTag hnested hc hok
  | closingTag => exact shows_closingTag hc hok
  | element => exact shows_element hnested hc hok
  | children => exact shows_children hnested hc hok
  | fragment => exact shows_fragment hnested hc hok
  | expression => exact shows_expression hnested hc hok

end Construct

end EmbeddedJsx
