import EmbeddedJsx.Production.Markup
import EmbeddedJsx.Proofs.Grammar.Depth
import EmbeddedJsx.Proofs.Grammar.Soundness.Names
import EmbeddedJsx.Proofs.Lexical.Raw

/-!
# What productions read is grammatical

A production that succeeds has gone along a derivation of the grammar.  Where a production begins
and ends relative to the derivation depends on its kind: productions for attributes are called on
the token that follows a place, and end on the token that follows the place after the construct
(`SoundAfter`); productions for elements, fragments and expressions begin on the first token of the
construct and end on the last (`SoundAt`).  All take for granted that the production for nested
markup is sound, and `markup_sound` discharges that by induction on the levels of nesting.
-/

namespace EmbeddedJsx.Production

open Grammar

variable {c c' : Cursor} {p : Place} {kind : TokenKind}

/-! ### What it is to be sound -/

/-- Called on the first token of a phrase, the production ends on the last, and what it answers
is nested at most so deep. -/
def SoundAt {α : Type} (levels : ℕ) (phrase : α → Phrase) (production : Production α) : Prop :=
  ∀ ⦃c a c'⦄, c.Stands → production c = .ok a c' →
    Derives (phrase a) c.origin c'.place ∧ c'.Stands ∧ (phrase a).depth ≤ levels

/-- Called on the token that follows a place, the production goes along a phrase from that place
and ends on the token that follows it, and what it answers is nested at most so deep. -/
def SoundAfter {α : Type} (levels : ℕ) (phrase : α → Phrase) (production : Production α) : Prop :=
  ∀ ⦃p c a c'⦄, c.Follows p → production c = .ok a c' →
    ∃ q, Derives (phrase a) p q ∧ c'.Follows q ∧ (phrase a).depth ≤ levels

variable {nested : Production Node} {steps levels : ℕ}

/-! ### Expressions -/

/-- From the first place to the second, as many braces are closed as were open before the first
place, so that the bodies between them follow one another. -/
inductive Unclosed : ℕ → List Node → Place → Place → Prop where
  | body {nodes : List Node} {p q : Place} :
      Derives (.body nodes) p q → Unclosed 0 nodes p q
  | close {depth : ℕ} {inner nodes : List Node} {p a b q : Place} {close : Excerpt} :
      Derives (.body inner) p a → a.Next .braceClose close b → Unclosed depth nodes b q →
      Unclosed (depth + 1) (inner ++ nodes) p q

/-- What may stand in front of a body may stand in front of the first of several. -/
lemma Unclosed.cons {depth : ℕ} {nodes : List Node} {p m q : Place} (first : List Node)
    (hfirst : ∀ nodes r, Derives (.body nodes) m r → Derives (.body (first ++ nodes)) p r)
    (h : Unclosed depth nodes m q) : Unclosed depth (first ++ nodes) p q := by
  cases h with
  | body h => exact .body (hfirst _ _ h)
  | close h hclose hrest =>
    rw [← List.append_assoc]
    exact .close (hfirst _ _ h) hclose hrest

/-- Called after the token in front of a body in which braces are open, the loop ends on the brace
that closes the outermost of them, and the markup in it is nested at most so deep. -/
def SoundBody (levels depth : ℕ) (loop : Production (List Node)) : Prop :=
  ∀ ⦃c nodes c'⦄, loop c = .ok nodes c' →
    ∃ q, Unclosed depth nodes c.place q ∧ c'.After q .braceClose ∧ Node.deepest nodes ≤ levels

/-- Markup and then a body is a body. -/
lemma bodyMarkup_sound {depth : ℕ} {nodes : List Node} {loop : Production (List Node)}
    (hnested : SoundAt levels .markup nested) (hloop : SoundBody levels depth loop)
    (hc : c.Follows p)
    (h : (do let node ← nested
             let nodes ← loop
             return node :: nodes : Production (List Node)) c = .ok nodes c') :
    ∃ q, Unclosed depth nodes p q ∧ c'.After q .braceClose ∧ Node.deepest nodes ≤ levels := by
  simp only [bind_eq_ok, pure_apply, EStateM.Result.ok.injEq] at h
  obtain ⟨node, c₁, hnode, nodes, _, hnodes, rfl, rfl⟩ := h
  obtain ⟨hderives, -, hlevel⟩ := hnested hc.stands hnode
  obtain ⟨q, hunclosed, hc', hdepth⟩ := hloop hnodes
  refine ⟨q, ?_, hc', max_le hlevel hdepth⟩
  exact hunclosed.cons [node] fun nodes r hbody => .bodyMarkup hc.skips hderives hbody

lemma expressionMarkup_sound (hnested : SoundAt levels .markup nested) (steps depth : ℕ) :
    SoundBody levels depth (expressionMarkup nested steps depth) := by
  induction steps generalizing depth with
  | zero =>
    intro c nodes c' h
    simp [expressionMarkup, exhaust] at h
  | succ steps ih =>
    intro c nodes c' h
    simp only [expressionMarkup, bind_eq_ok, current_apply, EStateM.Result.ok.injEq] at h
    obtain ⟨_, c₁, hadvance, _, _, ⟨rfl, rfl⟩, h⟩ := h
    have hc₁ := advance_follows hadvance
    generalize htoken : c₁.token = token at h
    split at h
    · -- a left brace: one more is open
      obtain ⟨q, hunclosed, hc', hdepth⟩ := ih _ h
      refine ⟨q, ?_, hc', hdepth⟩
      cases hunclosed with
      | close hinner hclose hrest =>
        exact hrest.cons _ fun nodes r hbody =>
          .bodyBraces (hc₁.after htoken).next hinner hclose hbody
    · -- a right brace closes the expression or one of the open braces
      split at h
      · simp only [pure_apply, EStateM.Result.ok.injEq] at h
        obtain ⟨rfl, rfl⟩ := h
        exact ⟨_, .body (.bodyNil _), hc₁.after htoken, by simp⟩
      · obtain ⟨q, hunclosed, hc', hdepth⟩ := ih _ h
        exact ⟨q, .close (.bodyNil _) (hc₁.after htoken).next hunclosed, hc', hdepth⟩
    · exact bodyMarkup_sound hnested (ih depth) hc₁ h
    · exact bodyMarkup_sound hnested (ih depth) hc₁ h
    · -- any other token belongs to the body
      obtain ⟨q, hunclosed, hc', hdepth⟩ := ih _ h
      obtain ⟨kind, hkind⟩ := hc₁
      have htoken := hkind.2.token_eq
      refine ⟨q, hunclosed.cons [] fun nodes r hbody => ?_, hc', hdepth⟩
      refine .bodyToken hkind.next ?_ ?_ ?_ ?_ hbody <;> rintro rfl
      all_goals simp_all

lemma expression_sound (hnested : SoundAt levels .markup nested) :
    SoundAt levels .expression (expression nested steps) := by
  intro c node c' hc h
  simp only [expression, bind_eq_ok, expect_eq_ok, get_apply, pure_apply,
    EStateM.Result.ok.injEq] at h
  obtain ⟨_, c, ⟨htoken, rfl, rfl⟩, _, _, ⟨rfl, rfl⟩, nodes, c', hnodes, _, _, ⟨rfl, rfl⟩, rfl,
    rfl⟩ := h
  obtain ⟨q, hunclosed, ⟨hskip, hclose⟩, hdepth⟩ := expressionMarkup_sound hnested _ _ hnodes
  cases hunclosed with
  | body hbody =>
    obtain ⟨inside, hinside⟩ := hbody.reaches.trans hskip.reaches
    have htext : c.rest.take (c'.start - c.stop) = inside := hinside.take_rest
    rw [htext]
    exact ⟨.expression (hc.on htoken).reads hbody hskip hclose.reads hinside, hclose.stands, hdepth⟩

/-! ### Attributes -/

lemma assigned_sound (hnested : SoundAt levels .markup nested) {value : Node} (hc : c.Follows p)
    (h : assigned nested steps c = .ok value c') :
    Derives (.value value) p c'.place ∧ c'.Stands ∧ value.depth ≤ levels := by
  simp only [assigned, bind_eq_ok, current_apply, EStateM.Result.ok.injEq] at h
  obtain ⟨_, _, ⟨rfl, rfl⟩, h⟩ := h
  have hmarkup (h : nested c = .ok value c') :
      Derives (.value value) p c'.place ∧ c'.Stands ∧ value.depth ≤ levels := by
    obtain ⟨hderives, hc', hdepth⟩ := hnested hc.stands h
    exact ⟨.valueMarkup hc.skips hderives, hc', hdepth⟩
  generalize htoken : c.token = token at h
  split at h
  · simp only [bind_eq_ok, expect_eq_ok, pure_apply, EStateM.Result.ok.injEq] at h
    obtain ⟨_, _, ⟨-, rfl, rfl⟩, rfl, rfl⟩ := h
    exact ⟨.valueString (hc.after htoken).next, hc.stands, Nat.zero_le _⟩
  · obtain ⟨hderives, hc', hdepth⟩ := expression_sound hnested hc.stands h
    exact ⟨.valueExpression hc.skips hderives, hc', hdepth⟩
  · exact hmarkup h
  · exact hmarkup h
  · simp at h

lemma spread_sound (hc : c.Follows p) {node : Node} (h : spread c = .ok node c') :
    ∃ q, Derives (.attribute node) p q ∧ c'.Follows q ∧ node.depth ≤ levels := by
  simp only [spread, bind_eq_ok, pure_apply, EStateM.Result.ok.injEq] at h
  obtain ⟨_, c₁, hopen, _, c₂, hdots, _, c₃, hargument, _, _, hclose, rfl, rfl⟩ := h
  obtain ⟨hopen, hc₁⟩ := take_sound_of_stands hc.stands hopen
  obtain ⟨_, hdots, hc₂⟩ := take_sound hc₁ hdots
  obtain ⟨_, hargument, hc₃⟩ := take_sound hc₂ hargument
  obtain ⟨q, hclose, hc'⟩ := take_sound hc₃ hclose
  rw [hopen.span_start, hclose.span_stop]
  exact ⟨q, .spread hc.skips hopen hdots hargument hclose, hc', Nat.zero_le _⟩

lemma attributeValue_none {value : Option Node} (h : attributeValue nested steps c = .ok value c')
    (hvalue : value = none) : c' = c := by
  subst hvalue
  simp only [attributeValue, bind_eq_ok, sees_apply, EStateM.Result.ok.injEq] at h
  obtain ⟨_, _, ⟨rfl, rfl⟩, h⟩ := h
  split at h
  · simp only [bind_eq_ok, pure_apply, EStateM.Result.ok.injEq, reduceCtorEq, false_and,
      and_false, exists_false] at h
  · simp only [pure_apply, EStateM.Result.ok.injEq, true_and] at h
    exact h.symm

lemma attributeValue_some (hnested : SoundAt levels .markup nested) (hc : c.Follows p)
    {value : Node} (h : attributeValue nested steps c = .ok (some value) c') :
    ∃ sign a q, p.Next .assign sign a ∧ Derives (.value value) a q ∧ c'.Follows q ∧
      value.depth ≤ levels := by
  simp only [attributeValue, bind_eq_ok, sees_apply, EStateM.Result.ok.injEq] at h
  obtain ⟨_, _, ⟨rfl, rfl⟩, h⟩ := h
  split at h
  · next hsign =>
    simp only [bind_eq_ok, pure_apply, EStateM.Result.ok.injEq, Option.some.injEq] at h
    obtain ⟨_, c₁, hadvance, _, c₂, hassigned, _, _, hadvance', rfl, rfl⟩ := h
    have hsign := (hc.after (by simpa using hsign)).next
    obtain ⟨hderives, -, hdepth⟩ := assigned_sound hnested (advance_follows hadvance) hassigned
    exact ⟨_, _, _, hsign, hderives, advance_follows hadvance', hdepth⟩
  · simp at h

lemma namedAttribute_sound (hnested : SoundAt levels .markup nested) :
    SoundAfter levels .attribute (namedAttribute nested steps) := by
  intro p c node c' hc h
  simp only [namedAttribute, bind_eq_ok] at h
  obtain ⟨name, c₁, hname, value, c₂, hvalue, h⟩ := h
  obtain ⟨a, hread, hc₁⟩ := attributeName_sound hc hname
  cases value with
  | none =>
    simp only [pure_apply, EStateM.Result.ok.injEq] at h
    obtain ⟨rfl, rfl⟩ := h
    obtain rfl := attributeValue_none hvalue rfl
    exact ⟨a, .bareAttribute hread, hc₁, Nat.zero_le _⟩
  | some value =>
    simp only [pure_apply, EStateM.Result.ok.injEq] at h
    obtain ⟨rfl, rfl⟩ := h
    obtain ⟨sign, b, q, hsign, hderives, hc₂, hdepth⟩ := attributeValue_some hnested hc₁ hvalue
    rw [hderives.value_span_stop]
    exact ⟨q, .setAttribute hread hsign hderives, hc₂, hdepth⟩

lemma oneAttribute_none (h : oneAttribute nested steps c = .ok none c') : c' = c := by
  simp only [oneAttribute, bind_eq_ok, current_apply, EStateM.Result.ok.injEq] at h
  obtain ⟨_, _, ⟨rfl, rfl⟩, h⟩ := h
  generalize c.token = token at h
  split at h
  · simp only [bind_eq_ok, pure_apply, EStateM.Result.ok.injEq, reduceCtorEq, false_and,
      and_false, exists_false] at h
  · simp only [bind_eq_ok, pure_apply, EStateM.Result.ok.injEq, reduceCtorEq, false_and,
      and_false, exists_false] at h
  · simp only [pure_apply, EStateM.Result.ok.injEq, true_and] at h
    exact h.symm

lemma oneAttribute_some (hnested : SoundAt levels .markup nested) (hc : c.Follows p)
    {node : Node} (h : oneAttribute nested steps c = .ok (some node) c') :
    ∃ q, Derives (.attribute node) p q ∧ c'.Follows q ∧ node.depth ≤ levels := by
  simp only [oneAttribute, bind_eq_ok, current_apply, EStateM.Result.ok.injEq] at h
  obtain ⟨_, _, ⟨rfl, rfl⟩, h⟩ := h
  generalize c.token = token at h
  split at h
  · simp only [bind_eq_ok, pure_apply, EStateM.Result.ok.injEq, Option.some.injEq] at h
    obtain ⟨_, _, h, rfl, rfl⟩ := h
    exact spread_sound hc h
  · simp only [bind_eq_ok, pure_apply, EStateM.Result.ok.injEq, Option.some.injEq] at h
    obtain ⟨_, _, h, rfl, rfl⟩ := h
    exact namedAttribute_sound hnested hc h
  · simp at h

lemma attributes_sound (hnested : SoundAt levels .markup nested) {remaining : ℕ} :
    SoundAfter levels .attributes (attributes nested steps remaining) := by
  induction remaining with
  | zero =>
    intro p c nodes c' _ h
    simp [attributes, exhaust] at h
  | succ remaining ih =>
    intro p c nodes c' hc h
    simp only [attributes, bind_eq_ok] at h
    obtain ⟨first, c₁, hfirst, h⟩ := h
    cases first with
    | none =>
      simp only [pure_apply, EStateM.Result.ok.injEq] at h
      obtain ⟨rfl, rfl⟩ := h
      obtain rfl := oneAttribute_none hfirst
      exact ⟨p, .attributesNil p, hc, Nat.zero_le _⟩
    | some node =>
      simp only [bind_eq_ok, pure_apply, EStateM.Result.ok.injEq] at h
      obtain ⟨nodes, _, hnodes, rfl, rfl⟩ := h
      obtain ⟨m, hderives, hc₁, hdepth⟩ := oneAttribute_some hnested hc hfirst
      obtain ⟨q, hderives', hc', hdepth'⟩ := ih hc₁ hnodes
      exact ⟨q, .attributesCons hderives hderives', hc', max_le hdepth hdepth'⟩

/-! ### Tags -/

lemma openingTag_sound (hnested : SoundAt levels .markup nested) (hc : c.Stands) {tag : Tag}
    (h : openingTag nested steps c = .ok tag c') :
    ∃ opening a b d close, c.origin.Reads .tagOpen opening a ∧ ElementName a tag.name b ∧
      Derives (.attributes tag.attributes) b d ∧
      d.Next (if tag.selfClosing then .selfClose else .tagClose) close c'.place ∧
      c'.Stands ∧ Node.deepest tag.attributes ≤ levels := by
  simp only [openingTag, bind_eq_ok, current_apply, EStateM.Result.ok.injEq] at h
  obtain ⟨_, c₁, htake, name, c₂, hname, nodes, c₃, hnodes, _, _, ⟨rfl, rfl⟩, h⟩ := h
  obtain ⟨hopen, hc₁⟩ := take_sound_of_stands hc htake
  obtain ⟨b, hname, hc₂⟩ := elementName_sound hc₁ hname
  obtain ⟨d, hnodes, hc₃, hdepth⟩ := attributes_sound hnested hc₂ hnodes
  generalize htoken : c₃.token = token at h
  split at h
  · simp only [pure_apply, EStateM.Result.ok.injEq] at h
    obtain ⟨rfl, rfl⟩ := h
    exact ⟨_, _, b, d, _, hopen, hname, hnodes, (hc₃.after htoken).next, hc₃.stands, hdepth⟩
  · simp only [pure_apply, EStateM.Result.ok.injEq] at h
    obtain ⟨rfl, rfl⟩ := h
    exact ⟨_, _, b, d, _, hopen, hname, hnodes, (hc₃.after htoken).next, hc₃.stands, hdepth⟩
  · simp at h

lemma closing_sound {name : Name} {u : Unit} (hc : c.Stands)
    (h : closing steps name c = .ok u c') :
    ∃ opening a name' b close, c.origin.Reads .closingOpen opening a ∧ ElementName a name' b ∧
      b.Next .tagClose close c'.place ∧ name'.Matches name ∧ c'.Stands := by
  simp only [closing, bind_eq_ok, sees_apply, EStateM.Result.ok.injEq] at h
  obtain ⟨_, _, ⟨rfl, rfl⟩, h⟩ := h
  split at h
  · simp at h
  simp only [bind_eq_ok] at h
  obtain ⟨name', c₁, htag, h⟩ := h
  split at h
  · next hagrees =>
    simp only [pure_apply, EStateM.Result.ok.injEq] at h
    obtain ⟨-, rfl⟩ := h
    obtain ⟨opening, a, b, close, hopen, hname, hclose, hc₁⟩ := closingTag_sound hc htag
    exact ⟨opening, a, name', b, close, hopen, hname, hclose,
      Name.agrees_iff_matches.1 hagrees, hc₁⟩
  · simp [rejectAt] at h

/-! ### Children -/

/-- Raw text in front of children is a child, unless there is none. -/
lemma textAfter_derives {nodes : List Node} {q : Place}
    (h : Derives (.children nodes) c.skipRaw.place q) :
    Derives (.children (textAfter c ++ nodes)) c.place q := by
  have hpass := c.raw_passes
  unfold textAfter
  split
  · next hnil =>
    rw [hnil, Place.passes_nil] at hpass
    rwa [hpass]
  · next hcons =>
    exact .childrenCons (.childText hpass (fun hnil => hcons hnil)
      (fun d hd => List.mem_takeWhile_imp hd) c.notRaw_skipRaw) h

lemma deepest_textAfter (c : Cursor) : Node.deepest (textAfter c) = 0 := by
  unfold textAfter
  split <;> rfl

/-- Called after the token in front of children, the loop ends on the token that closes what they
stand in, and the children are nested at most so deep. -/
def SoundChildren (levels : ℕ) (loop : Production (List Node)) : Prop :=
  ∀ ⦃c nodes c'⦄, loop c = .ok nodes c' → Derives (.children nodes) c.place c'.origin ∧
    (c'.On .closingOpen ∨ c'.On .fragmentClose) ∧ Node.deepest nodes ≤ levels

/-- Raw text, one more child and then those that the loop reads are children. -/
lemma child_sound {phrase : Node → Phrase} {construct : Production Node}
    {loop : Production (List Node)} {c₁ : Cursor} {nodes : List Node}
    (hconstruct : SoundAt levels phrase construct) (hloop : SoundChildren levels loop)
    (hphrase : ∀ ⦃node p q⦄, Derives (phrase node) p q → Derives (.child node) p q)
    (hlevel : ∀ node, (phrase node).depth = node.depth) (hc₁ : c₁.Stands)
    (horigin : c₁.origin = c.skipRaw.place)
    (h : (do let node ← construct
             let nodes ← loop
             return textAfter c ++ node :: nodes : Production (List Node)) c₁ = .ok nodes c') :
    Derives (.children nodes) c.place c'.origin ∧
      (c'.On .closingOpen ∨ c'.On .fragmentClose) ∧ Node.deepest nodes ≤ levels := by
  simp only [bind_eq_ok, pure_apply, EStateM.Result.ok.injEq] at h
  obtain ⟨node, c₂, hnode, nodes, _, hnodes, rfl, rfl⟩ := h
  obtain ⟨hderives, -, hdepth⟩ := hconstruct hc₁ hnode
  obtain ⟨hderives', hc', hdepth'⟩ := hloop hnodes
  rw [horigin] at hderives
  rw [hlevel] at hdepth
  refine ⟨textAfter_derives (.childrenCons (hphrase hderives) hderives'), hc', ?_⟩
  rw [Node.deepest_append, deepest_textAfter, Nat.zero_max]
  exact max_le hdepth hdepth'

lemma children_sound (hnested : SoundAt levels .markup nested) (remaining : ℕ) :
    SoundChildren levels (children nested steps remaining) := by
  induction remaining with
  | zero =>
    intro c nodes c' h
    simp [children, exhaust] at h
  | succ remaining ih =>
    intro c nodes c' h
    simp only [children, bind_eq_ok, get_apply, EStateM.Result.ok.injEq] at h
    obtain ⟨_, _, ⟨rfl, rfl⟩, kind, c₁, hread, h⟩ := h
    obtain ⟨-, hon, horigin⟩ := Cursor.nextChild_eq_ok_iff.1 (advanceChild_eq_ok.1 hread)
    have hend (h : (pure (textAfter c) : Production (List Node)) c₁ = .ok nodes c')
        (hc₁ : c₁.On .closingOpen ∨ c₁.On .fragmentClose) :
        Derives (.children nodes) c.place c'.origin ∧
          (c'.On .closingOpen ∨ c'.On .fragmentClose) ∧ Node.deepest nodes ≤ levels := by
      simp only [pure_apply, EStateM.Result.ok.injEq] at h
      obtain ⟨rfl, rfl⟩ := h
      refine ⟨?_, hc₁, by simp [deepest_textAfter]⟩
      rw [horigin, ← List.append_nil (textAfter c)]
      exact textAfter_derives (.childrenNil _)
    -- raw text ends only before these five kinds of tokens
    rcases hon.beginsChild (horigin ▸ c.notRaw_skipRaw) with rfl | rfl | rfl | rfl | rfl
    · exact child_sound hnested ih (fun _ _ _ => .childMarkup) (fun _ => rfl) hon.stands horigin h
    · exact child_sound hnested ih (fun _ _ _ => .childMarkup) (fun _ => rfl) hon.stands horigin h
    · exact child_sound (expression_sound hnested) ih (fun _ _ _ => .childExpression)
        (fun _ => rfl) hon.stands horigin h
    · exact hend h (.inl hon)
    · exact hend h (.inr hon)

/-! ### Elements and fragments -/

lemma element_sound (hnested : SoundAt levels .markup nested) :
    SoundAt (levels + 1) .markup (element nested steps) := by
  intro c node c' hc h
  simp only [element, bind_eq_ok, get_apply, EStateM.Result.ok.injEq] at h
  obtain ⟨_, _, ⟨rfl, rfl⟩, tag, c₁, htag, h⟩ := h
  obtain ⟨opening, a, b, d, close, hopen, hname, hattributes, hclose, hc₁, hdepth⟩ :=
    openingTag_sound hnested hc htag
  split at h
  · next hself =>
    simp only [bind_eq_ok, get_apply, pure_apply, EStateM.Result.ok.injEq] at h
    obtain ⟨_, _, ⟨rfl, rfl⟩, rfl, rfl⟩ := h
    rw [if_pos hself] at hclose
    exact ⟨.selfClosed hopen hname hattributes hclose, hc₁, Nat.succ_le_succ hdepth⟩
  · next hself =>
    simp only [bind_eq_ok, get_apply, pure_apply, EStateM.Result.ok.injEq] at h
    obtain ⟨nodes, c₂, hnodes, _, c₃, hclosing, _, _, ⟨rfl, rfl⟩, rfl, rfl⟩ := h
    rw [if_neg hself] at hclose
    obtain ⟨hchildren, hc₂, hdepth'⟩ := children_sound hnested _ hnodes
    -- the children end before either closing delimiter; which one it is, `closing` checks
    have hstands : c₂.Stands := by
      rcases hc₂ with hc₂ | hc₂ <;> exact hc₂.stands
    obtain ⟨opening', e, name', g, close', hopen', hname', hclose', hmatches, hc₃⟩ :=
      closing_sound hstands hclosing
    exact ⟨.element hopen hname hattributes hclose hchildren hopen' hname' hclose' hmatches, hc₃,
      Nat.succ_le_succ (max_le hdepth hdepth')⟩

lemma fragment_sound (hnested : SoundAt levels .markup nested) :
    SoundAt (levels + 1) .markup (fragment nested steps) := by
  intro c node c' hc h
  simp only [fragment, bind_eq_ok, expect_eq_ok, pure_apply, EStateM.Result.ok.injEq] at h
  obtain ⟨_, c, ⟨htoken, rfl, rfl⟩, nodes, _, hnodes, _, c', ⟨htoken', rfl, rfl⟩, rfl, rfl⟩ := h
  obtain ⟨hchildren, hc', hdepth⟩ := children_sound hnested _ hnodes
  have hstands : c'.Stands := by
    rcases hc' with hc' | hc' <;> exact hc'.stands
  exact ⟨.fragment (hc.on htoken).reads hchildren (hstands.on htoken').reads, hstands,
    Nat.succ_le_succ hdepth⟩

/-- **Soundness.**  What the parser reads as an element or a fragment is one, and it is nested no
deeper than allowed. -/
theorem markup_sound (steps levels : ℕ) : SoundAt levels .markup (markup steps levels) := by
  induction levels with
  | zero =>
    intro c node c' _ h
    simp [markup] at h
  | succ levels ih =>
    intro c node c' hc h
    simp only [markup, bind_eq_ok, sees_apply, EStateM.Result.ok.injEq] at h
    obtain ⟨_, _, ⟨rfl, rfl⟩, h⟩ := h
    split at h
    · exact fragment_sound ih hc h
    · exact element_sound ih hc h

end EmbeddedJsx.Production
