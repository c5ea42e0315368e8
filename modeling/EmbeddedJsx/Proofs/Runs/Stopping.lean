import EmbeddedJsx.Proofs.Runs.Sessions

/-!
# Where constructs stop

Whoever has read a construct has to know on which token the cursor is left, for that decides
whether raw text or a token comes next.  There are two conventions.  Names and attributes are left
on the token after them, since only that token shows that they are over; an optional construct that
is not there leaves the cursor where it is.  Tags, elements, fragments and expressions are left on
their own last token, and children on the delimiter that ends them.

`Construct.Stops` says for each construct what that means.  The main statement is
`Session.stops_of_read`: the conventions hold of whatever is read, whatever has been called before.
-/

namespace EmbeddedJsx

open Grammar Production

/-- Whether the node is an element written as one tag. -/
def Node.isSelfClosed : Node → Bool
  | selfClosed _ _ _ => true
  | _ => false

/-- The token with which a tag ends. -/
def TokenKind.tagEnd (selfClosing : Bool) : TokenKind :=
  if selfClosing then .selfClose else .tagClose

/-- The cursor stands on the token that comes next after the offset: what lies between the two are
characters that belong to no token. -/
def Cursor.NextAfter (text : List Char) (offset : ℕ) (c : Cursor) : Prop :=
  c.Follows ⟨offset, text.drop offset⟩

namespace Construct

/-- A construct has been asked for at the first cursor, and the second one is left behind. -/
def Stops (text : List Char) (c c' : Cursor) : (construct : Construct) → construct.Answer → Prop
  | elementName, name | attributeName, name => c'.NextAfter text name.span.stop
  | attributeValue, none => c.token ≠ some .assign ∧ c' = c
  | oneAttribute, none => c.token ≠ some .braceOpen ∧ c.token ≠ some .identifier ∧ c' = c
  | attributeValue, some node | oneAttribute, some node => c'.NextAfter text node.span.stop
  | openingTag, tag => c'.On (.tagEnd tag.selfClosing)
  | closingTag, _ => c'.On .tagClose
  | element, node => node.span = ⟨c.start, c'.stop⟩ ∧ c'.On (.tagEnd node.isSelfClosed)
  | fragment, node => node.span = ⟨c.start, c'.stop⟩ ∧ c'.On .fragmentClose
  | expression, node =>
    (∃ content markup,
      node = .expression ⟨c.start, c'.stop⟩ ⟨c.stop, c'.start⟩ content markup) ∧
      c'.On .braceClose
  | children, nodes =>
    ChildrenFill text nodes c.stop c'.start ∧ (c'.On .closingOpen ∨ c'.On .fragmentClose)

variable {text : List Char} {c c' : Cursor} {p q : Place} {steps levels : ℕ}
  {nested : Production Node} {node : Node} {name : Name}

/-! ### Names and attributes -/

/-- What follows a place of the text comes next after its offset. -/
lemma nextAfter_of_follows {offset : ℕ} (hq : q.InText text) (hoffset : offset = q.offset)
    (h : c'.Follows q) : c'.NextAfter text offset := by
  obtain ⟨-, hrest⟩ := hq
  rw [Cursor.NextAfter, hoffset, ← hrest]
  exact h

lemma nextAfter_of_elementName (hc : c.Settled text)
    (hname : ElementName c.origin name q) (hq : c'.Follows q) :
    c'.NextAfter text name.span.stop :=
  nextAfter_of_follows (hc.within.inText_origin.reaches hname.reaches) hname.span_stop hq

lemma stops_elementName (hc : c.Settled text) (hok : Production.elementName steps c = .ok name c') :
    Stops text c c' .elementName name := by
  have hstands : c.Stands := hc.stands_of_take (by simp) hok
  obtain ⟨q, hname, hq⟩ := elementName_sound hstands.follows hok
  exact nextAfter_of_elementName hc hname hq

lemma stops_attributeName (hc : c.Settled text) (hok : Production.attributeName c = .ok name c') :
    Stops text c c' .attributeName name := by
  have hstands : c.Stands := hc.stands_of_take (by simp) hok
  obtain ⟨q, hname, hq⟩ := attributeName_sound hstands.follows hok
  exact nextAfter_of_elementName hc (.simple hname) hq

/-- A value is there after an equals sign. -/
lemma token_ne_of_attributeValue
    (hok : Production.attributeValue nested steps c = .ok none c') : c.token ≠ some .assign := by
  simp only [Production.attributeValue, bind_eq_ok, sees_apply, EStateM.Result.ok.injEq] at hok
  obtain ⟨_, _, ⟨rfl, rfl⟩, hok⟩ := hok
  split at hok
  · simp only [bind_eq_ok, pure_apply, EStateM.Result.ok.injEq, reduceCtorEq, false_and,
      and_false, exists_false] at hok
  · next hsign => simpa using hsign

lemma stops_attributeValue (hnested : SoundAt levels .markup nested) {value : Option Node}
    (hc : c.Settled text) (hok : Production.attributeValue nested steps c = .ok value c') :
    Stops text c c' .attributeValue value := by
  cases value with
  | none => exact ⟨token_ne_of_attributeValue hok, attributeValue_none hok rfl⟩
  | some value =>
    have hstands := stands_of_attributeValue hc hok
    obtain ⟨sign, a, q, hsign, hvalue, hq, -⟩ := attributeValue_some hnested hstands.follows hok
    have hreaches := hsign.reaches.trans hvalue.reaches
    exact nextAfter_of_follows (hc.within.inText_origin.reaches hreaches) hvalue.value_span_stop hq

/-- An attribute is there from a left brace or an identifier on. -/
lemma token_ne_of_oneAttribute (hok : Production.oneAttribute nested steps c = .ok none c') :
    c.token ≠ some .braceOpen ∧ c.token ≠ some .identifier := by
  simp only [Production.oneAttribute, bind_eq_ok, current_apply, EStateM.Result.ok.injEq] at hok
  obtain ⟨_, _, ⟨rfl, rfl⟩, hok⟩ := hok
  generalize c.token = token at hok ⊢
  split at hok
  · simp only [bind_eq_ok, pure_apply, EStateM.Result.ok.injEq, reduceCtorEq, false_and,
      and_false, exists_false] at hok
  · simp only [bind_eq_ok, pure_apply, EStateM.Result.ok.injEq, reduceCtorEq, false_and,
      and_false, exists_false] at hok
  · next hbrace hidentifier => exact ⟨hbrace, hidentifier⟩

lemma stops_oneAttribute (hnested : SoundAt levels .markup nested) {found : Option Node}
    (hc : c.Settled text) (hok : Production.oneAttribute nested steps c = .ok found c') :
    Stops text c c' .oneAttribute found := by
  cases found with
  | none =>
    obtain ⟨hbrace, hidentifier⟩ := token_ne_of_oneAttribute hok
    exact ⟨hbrace, hidentifier, oneAttribute_none hok⟩
  | some node =>
    obtain ⟨q, hderives, hq, -⟩ :=
      oneAttribute_some hnested (stands_of_oneAttribute hc hok).follows hok
    obtain ⟨-, -, hstop⟩ := hderives.attribute_span
    exact nextAfter_of_follows (hc.within.inText_origin.reaches hderives.reaches) hstop hq

/-! ### Tags -/

lemma token_of_openingTag {tag : Production.Tag}
    (hok : Production.openingTag nested steps c = .ok tag c') :
    c'.token = some (.tagEnd tag.selfClosing) := by
  simp only [Production.openingTag, bind_eq_ok, current_apply, EStateM.Result.ok.injEq] at hok
  obtain ⟨_, _, -, _, _, -, _, c₁, -, _, _, ⟨rfl, rfl⟩, hok⟩ := hok
  generalize htoken : c₁.token = token at hok
  split at hok
  · simp only [pure_apply, EStateM.Result.ok.injEq] at hok
    obtain ⟨rfl, rfl⟩ := hok
    exact htoken
  · simp only [pure_apply, EStateM.Result.ok.injEq] at hok
    obtain ⟨rfl, rfl⟩ := hok
    exact htoken
  · simp at hok

lemma token_of_closingTag (hok : Production.closingTag steps c = .ok name c') :
    c'.token = some .tagClose := by
  simp only [Production.closingTag, bind_eq_ok, expect_eq_ok, pure_apply,
    EStateM.Result.ok.injEq] at hok
  obtain ⟨_, _, -, _, _, -, _, _, ⟨htoken, -, rfl⟩, -, rfl⟩ := hok
  exact htoken

lemma stops_openingTag (hnested : SoundAt levels .markup nested) {tag : Production.Tag}
    (hc : c.Settled text) (hok : Production.openingTag nested steps c = .ok tag c') :
    Stops text c c' .openingTag tag := by
  have hstands : c.Stands := hc.stands_of_take (by simp) hok
  obtain ⟨_, _, _, _, _, -, -, -, -, hc', -⟩ := openingTag_sound hnested hstands hok
  exact hc'.on (token_of_openingTag hok)

lemma stops_closingTag (hc : c.Settled text) (hok : Production.closingTag steps c = .ok name c') :
    Stops text c c' .closingTag name := by
  have hstands : c.Stands := hc.stands_of_take (by simp) hok
  obtain ⟨_, _, _, _, -, -, -, hc'⟩ := closingTag_sound hstands hok
  exact hc'.on (token_of_closingTag hok)

/-! ### Elements, fragments and expressions -/

lemma token_of_closing {u : Unit} (hok : Production.closing steps name c = .ok u c') :
    c'.token = some .tagClose := by
  simp only [Production.closing, bind_eq_ok, sees_apply, EStateM.Result.ok.injEq] at hok
  obtain ⟨_, _, ⟨rfl, rfl⟩, hok⟩ := hok
  split at hok
  · simp at hok
  obtain ⟨name', c₁, htag, hok⟩ := bind_eq_ok.1 hok
  split at hok
  · simp only [pure_apply, EStateM.Result.ok.injEq] at hok
    obtain ⟨-, rfl⟩ := hok
    exact token_of_closingTag htag
  · simp [rejectAt] at hok

/-- An element ends with its tag, if it has only one, and else with its closing tag. -/
lemma token_of_element (hok : Production.element nested steps c = .ok node c') :
    c'.token = some (.tagEnd node.isSelfClosed) := by
  simp only [Production.element, bind_eq_ok, get_apply, EStateM.Result.ok.injEq] at hok
  obtain ⟨_, _, ⟨rfl, rfl⟩, tag, c₁, htag, hok⟩ := hok
  split at hok
  · next hself =>
    simp only [bind_eq_ok, get_apply, pure_apply, EStateM.Result.ok.injEq] at hok
    obtain ⟨_, _, ⟨rfl, rfl⟩, rfl, rfl⟩ := hok
    rw [token_of_openingTag htag, hself]
    rfl
  · simp only [bind_eq_ok, get_apply, pure_apply, EStateM.Result.ok.injEq] at hok
    obtain ⟨_, _, -, _, _, hclosing, _, _, ⟨rfl, rfl⟩, rfl, rfl⟩ := hok
    exact token_of_closing hclosing

lemma stops_element (hnested : SoundAt levels .markup nested) (hc : c.Settled text)
    (hok : Production.element nested steps c = .ok node c') : Stops text c c' .element node := by
  obtain ⟨hderives, hc', -⟩ := element_sound hnested (stands_of_element hc hok) hok
  exact ⟨hderives.markup_span, hc'.on (token_of_element hok)⟩

lemma token_of_fragment (hok : Production.fragment nested steps c = .ok node c') :
    c'.token = some .fragmentClose := by
  simp only [Production.fragment, bind_eq_ok, expect_eq_ok, pure_apply,
    EStateM.Result.ok.injEq] at hok
  obtain ⟨_, _, -, _, _, -, _, _, ⟨htoken, -, rfl⟩, -, rfl⟩ := hok
  exact htoken

lemma stops_fragment (hnested : SoundAt levels .markup nested) (hc : c.Settled text)
    (hok : Production.fragment nested steps c = .ok node c') : Stops text c c' .fragment node := by
  obtain ⟨hderives, hc', -⟩ := fragment_sound hnested (stands_of_fragment hnested hc hok) hok
  exact ⟨hderives.markup_span, hc'.on (token_of_fragment hok)⟩

lemma stops_expression (hnested : SoundAt levels .markup nested)
    (hok : Production.expression nested steps c = .ok node c') :
    Stops text c c' .expression node := by
  simp only [Production.expression, bind_eq_ok, expect_eq_ok, get_apply, pure_apply,
    EStateM.Result.ok.injEq] at hok
  obtain ⟨_, c, ⟨-, rfl, rfl⟩, _, _, ⟨rfl, rfl⟩, nodes, c', hbody, _, _, ⟨rfl, rfl⟩, rfl, rfl⟩ :=
    hok
  obtain ⟨q, -, hafter, -⟩ := expressionMarkup_sound hnested steps 0 hbody
  exact ⟨⟨_, _, rfl⟩, hafter.2⟩

lemma stops_children (hnested : SoundAt levels .markup nested) {nodes : List Node}
    (hok : Production.children nested steps steps c = .ok nodes c') :
    Stops text c c' .children nodes := by
  obtain ⟨hderives, hend, -⟩ := children_sound hnested steps hok
  exact ⟨hderives.childrenFill, hend⟩

/-- Wherever a construct is read, it stops as it should. -/
theorem stops (construct : Construct) {a : construct.Answer} (hc : c.Settled text)
    (hok : construct.rule (markup steps levels) steps c = .ok a c') :
    construct.Stops text c c' a := by
  have hnested := markup_sound steps levels
  cases construct with
  | elementName => exact stops_elementName hc hok
  | attributeName => exact stops_attributeName hc hok
  | attributeValue => exact stops_attributeValue hnested hc hok
  | oneAttribute => exact stops_oneAttribute hnested hc hok
  | openingTag => exact stops_openingTag hnested hc hok
  | closingTag => exact stops_closingTag hc hok
  | element => exact stops_element hnested hc hok
  | children => exact stops_children hnested hok
  | fragment => exact stops_fragment hnested hc hok
  | expression => exact stops_expression hnested hok

end Construct

namespace Session

/-- **Stops.**  Whatever calls have been made, a construct that is read stops on the token on which
constructs of its kind stop. -/
theorem stops_of_read (text : String) (levels : ℕ) (calls : List Call) (construct : Construct)
    {a : construct.Answer} {s' : Session}
    (h : (Call.read construct).perform levels ((ofText text).run levels calls) = .ok a s') :
    construct.Stops text.toList ((ofText text).run levels calls).cursor s'.cursor a := by
  have hsettled : ((ofText text).run levels calls).cursor.Settled text.toList :=
    ((settled_ofText text).run calls).cursor
  generalize (ofText text).run levels calls = s at h hsettled ⊢
  simp only [Call.perform, read, Cursor.read] at h
  split at h
  · next a' c hread =>
    split at hread
    · next hok =>
      cases hread
      cases h
      exact construct.stops hsettled hok
    · cases hread
  · cases h

/-- After a failure and a token that is skipped: the children of a fragment, up to its delimiter. -/
theorem stops_of_read_children :
    ∃ nodes s', (Call.read .children).perform 1
        ((ofText "a<>x{y}</>").run 1 [.read .element, .token .next, .token .next]) = .ok nodes s' ∧
      nodes.map Node.span = [⟨3, 4⟩, ⟨4, 7⟩] ∧ s'.cursor.span = ⟨7, 10⟩ ∧
      Construct.Stops "a<>x{y}</>".toList
        ((ofText "a<>x{y}</>").run 1 [.read .element, .token .next, .token .next]).cursor
        s'.cursor .children nodes := by
  obtain ⟨s', h, hspan⟩ : ∃ s', (Call.read .children).perform 1
      ((ofText "a<>x{y}</>").run 1 [.read .element, .token .next, .token .next]) =
        .ok [.text ⟨3, 4⟩ "x", .expression ⟨4, 7⟩ ⟨5, 6⟩ "y" []] s' ∧
          s'.cursor.span = ⟨7, 10⟩ := ⟨_, by cbv, by cbv⟩
  exact ⟨_, s', h, rfl, hspan, stops_of_read _ 1 _ .children h⟩

end Session

end EmbeddedJsx
