import EmbeddedJsx.Proofs.Runs.Moves

/-!
# Every production is orderly

The productions are gone through in the order in which they use one another.  A loop that is
allowed `n` steps is orderly where fewer than `n` characters are left, for each round of it begins
with a call; of the loop over attributes this is shown by what one attribute reads.

The main statement is `orderly_markup`.  It closes the circle of productions that call one another
by induction on the levels of nesting.
-/

namespace EmbeddedJsx.Production

open Grammar

variable {α : Type} {c c' : Cursor} {n k steps levels : ℕ} {nested : Production Node}

/-! ### Names -/

lemma orderly_memberParts (steps : ℕ) : (memberParts steps).Orderly steps := by
  induction steps with
  | zero => exact fun _ hc => absurd hc (Nat.not_lt_zero _)
  | succ steps ih =>
    refine (orderly_sees _).bind fun found => ?_
    split
    · refine Orderly.advance_bind (orderly_take.bind fun part => ?_)
      exact ih.bind fun parts => orderly_pure _
    · exact orderly_pure _

lemma orderly_elementName (steps : ℕ) : (elementName steps).Orderly steps := by
  refine orderly_take.bind fun first => orderly_current.bind fun token => ?_
  split
  · refine orderly_advance.bind fun _ => orderly_take.bind fun second => ?_
    refine (orderly_memberParts steps).bind fun more => (orderly_sees _).bind fun found => ?_
    split
    · exact orderly_reject rfl
    · exact orderly_pure _
  · refine orderly_advance.bind fun _ => orderly_take.bind fun second => ?_
    refine orderly_current.bind fun token => ?_
    split
    · exact orderly_reject rfl
    · exact orderly_reject rfl
    · exact orderly_pure _
  · exact orderly_pure _

lemma orderly_attributeName : attributeName.Orderly n := by
  refine orderly_take.bind fun first => (orderly_sees _).bind fun found => ?_
  split
  · exact orderly_advance.bind fun _ => orderly_take.bind fun second => orderly_pure _
  · exact orderly_pure _

lemma orderly_closingTag (steps : ℕ) : (closingTag steps).Orderly steps :=
  orderly_take.bind fun _ => (orderly_elementName steps).bind fun name =>
    orderly_expect.bind fun _ => orderly_pure name

/-! ### Expressions -/

lemma orderly_expressionMarkup (h : nested.Orderly steps) (hk : k ≤ steps) (depth : ℕ) :
    (expressionMarkup nested k depth).Orderly k := by
  induction k generalizing depth with
  | zero => exact fun _ hc => absurd hc (Nat.not_lt_zero _)
  | succ k ih =>
    have hk' : k ≤ steps := (Nat.le_succ k).trans hk
    refine Orderly.advance_bind (orderly_current.bind fun token => ?_)
    have hmarkup : (do let node ← nested
                       let nodes ← expressionMarkup nested k depth
                       return node :: nodes : Production (List Node)).Orderly k :=
      (h.mono hk').bind fun node => (ih hk' depth).bind fun nodes => orderly_pure _
    split
    · exact ih hk' (depth + 1)
    · split
      · exact orderly_pure _
      · exact ih hk' _
    · exact hmarkup
    · exact hmarkup
    · exact ih hk' depth

lemma orderly_expression (h : nested.Orderly steps) : (expression nested steps).Orderly steps := by
  refine orderly_expect.bind fun brace => orderly_get.bind fun opened => ?_
  refine (orderly_expressionMarkup h le_rfl 0).bind fun nodes => ?_
  exact orderly_get.bind fun closed => orderly_pure _

/-! ### Attributes -/

lemma orderly_assigned (h : nested.Orderly steps) : (assigned nested steps).Orderly steps := by
  refine orderly_current.bind fun token => ?_
  split
  · exact orderly_expect.bind fun literal => orderly_pure _
  · exact orderly_expression h
  · exact h
  · exact h
  · exact orderly_reject rfl

lemma orderly_attributeValue (h : nested.Orderly steps) :
    (attributeValue nested steps).Orderly steps := by
  refine (orderly_sees _).bind fun found => ?_
  split
  · refine orderly_advance.bind fun _ => (orderly_assigned h).bind fun value => ?_
    exact orderly_advance.bind fun _ => orderly_pure _
  · exact orderly_pure _

lemma orderly_spread : spread.Orderly n :=
  orderly_take.bind fun _ => orderly_take.bind fun _ => orderly_take.bind fun _ =>
    orderly_take.bind fun _ => orderly_pure _

lemma orderly_namedAttribute (h : nested.Orderly steps) :
    (namedAttribute nested steps).Orderly steps := by
  refine orderly_attributeName.bind fun name => (orderly_attributeValue h).bind fun value => ?_
  split <;> exact orderly_pure _

lemma orderly_oneAttribute (h : nested.Orderly steps) :
    (oneAttribute nested steps).Orderly steps := by
  refine orderly_current.bind fun token => ?_
  split
  · exact orderly_spread.bind fun _ => orderly_pure _
  · exact (orderly_namedAttribute h).bind fun _ => orderly_pure _
  · exact orderly_pure _

/-- What begins with a token that is taken reads at least that token. -/
lemma length_lt_of_take {kind : TokenKind} {what : Expectation} {next : Excerpt → Production α}
    {a : α} (h : ∀ e, (next e).Orderly steps) (hc : c.rest.length < steps)
    (hok : (take kind what >>= next) c = .ok a c') : c'.rest.length < c.rest.length := by
  obtain ⟨e, c₁, htake, hrest⟩ := bind_eq_ok.1 hok
  have hlt := (take_moved htake).length_lt
  exact ((h e).moves (hlt.trans hc) hrest).length_le.trans_lt hlt

/-- An attribute, if there is one, has characters. -/
lemma oneAttribute_length_lt (h : nested.Orderly steps) (hc : c.rest.length < steps) {node : Node}
    (hok : oneAttribute nested steps c = .ok (some node) c') :
    c'.rest.length < c.rest.length := by
  simp only [oneAttribute, bind_eq_ok, current_apply, EStateM.Result.ok.injEq] at hok
  obtain ⟨_, _, ⟨rfl, rfl⟩, hok⟩ := hok
  generalize c.token = token at hok
  split at hok
  · obtain ⟨_, _, hspread, hpure⟩ := bind_eq_ok.1 hok
    simp only [pure_apply, EStateM.Result.ok.injEq] at hpure
    obtain ⟨-, rfl⟩ := hpure
    exact length_lt_of_take (fun _ => orderly_take.bind fun _ => orderly_take.bind fun _ =>
      orderly_take.bind fun _ => orderly_pure _) hc hspread
  · obtain ⟨_, _, hnamed, hpure⟩ := bind_eq_ok.1 hok
    simp only [pure_apply, EStateM.Result.ok.injEq] at hpure
    obtain ⟨-, rfl⟩ := hpure
    obtain ⟨name, c₁, hname, hrest⟩ := bind_eq_ok.1 hnamed
    -- the name is read first, and it begins with a token
    have hlt : c₁.rest.length < c.rest.length := by
      refine length_lt_of_take (fun first => ?_) hc hname
      refine (orderly_sees _).bind fun found => ?_
      split
      · exact orderly_advance.bind fun _ => orderly_take.bind fun _ => orderly_pure _
      · exact orderly_pure _
    refine LE.le.trans_lt (Cursor.Moves.length_le ?_) hlt
    refine Orderly.moves ((orderly_attributeValue h).bind fun value => ?_) (hlt.trans hc) hrest
    split
    · exact orderly_pure _
    · exact orderly_pure _
  · simp at hok

lemma orderly_attributes (h : nested.Orderly steps) (hk : k ≤ steps) :
    (attributes nested steps k).Orderly k := by
  induction k with
  | zero => exact fun _ hc => absurd hc (Nat.not_lt_zero _)
  | succ k ih =>
    refine ((orderly_oneAttribute h).mono hk).bind_of_ok fun c found c' hc hok => ?_
    split
    · exact .ok .refl
    · next node =>
      have hlt := oneAttribute_length_lt h (hc.trans_le hk) hok
      have hloop := (ih ((Nat.le_succ k).trans hk)).bind fun nodes =>
        orderly_pure (node :: nodes)
      exact hloop (hlt.trans_le (Nat.le_of_lt_succ hc))

/-! ### Tags -/

lemma orderly_openingTag (h : nested.Orderly steps) : (openingTag nested steps).Orderly steps := by
  refine orderly_take.bind fun _ => (orderly_elementName steps).bind fun name => ?_
  refine (orderly_attributes h le_rfl).bind fun nodes => orderly_current.bind fun token => ?_
  split
  · exact orderly_pure _
  · exact orderly_pure _
  · exact orderly_reject rfl

/-- A name has characters. -/
lemma span_lt_of_elementName {p q : Place} {name : Name} (h : ElementName p name q) :
    name.span.start < name.span.stop := by
  have hmem : name.first.span ∈ name.parts.map Excerpt.span :=
    List.mem_map_of_mem (List.mem_of_mem_head? (by simp))
  obtain ⟨-, hlt, hle⟩ := h.inOrder.inside _ hmem
  rw [h.span_stop]
  exact hlt.trans_le hle

/-- The name in a closing tag stands before the token that the tag ends with. -/
lemma closingTag_span {name : Name} (hok : closingTag steps c = .ok name c') :
    name.span.start < name.span.stop ∧ name.span.stop ≤ c'.start := by
  simp only [closingTag, bind_eq_ok, expect_eq_ok, pure_apply, EStateM.Result.ok.injEq] at hok
  obtain ⟨_, c₁, htake, _, c₂, hname, _, _, ⟨-, rfl, rfl⟩, rfl, rfl⟩ := hok
  have hfollows := advance_follows (take_eq_ok.1 htake).2.2
  obtain ⟨q, hname, hfollows'⟩ := elementName_sound hfollows hname
  refine ⟨span_lt_of_elementName hname, ?_⟩
  rw [hname.span_stop]
  exact hfollows'.skips.reaches.offset_le

lemma orderly_closing (name : Name) : (closing steps name).Orderly steps := by
  refine (orderly_sees _).bind fun found => ?_
  split
  · exact orderly_reject rfl
  · refine (orderly_closingTag steps).bind_of_ok fun c found c' _ hok => ?_
    split
    · exact .ok .refl
    · obtain ⟨hlt, hle⟩ := closingTag_span hok
      exact .fault (.before .refl rfl hlt hle)

/-! ### Children, elements and fragments -/

lemma orderly_children (h : nested.Orderly steps) (hk : k ≤ steps) :
    (children nested steps k).Orderly k := by
  induction k with
  | zero => exact fun _ hc => absurd hc (Nat.not_lt_zero _)
  | succ k ih =>
    have hk' : k ≤ steps := (Nat.le_succ k).trans hk
    have hloop := ih hk'
    refine orderly_get.bind fun c => Orderly.advanceChild_bind fun kind => ?_
    have hchild {construct : Production Node} (hconstruct : construct.Orderly steps) :
        (do let node ← construct
            let nodes ← children nested steps k
            return textAfter c ++ node :: nodes : Production (List Node)).Orderly k :=
      (hconstruct.mono hk').bind fun node => hloop.bind fun nodes => orderly_pure _
    split
    · exact orderly_pure _
    · exact orderly_pure _
    · exact hchild h
    · exact hchild h
    · exact hchild (orderly_expression h)
    · exact hloop.bind fun nodes => orderly_pure _

lemma orderly_element (h : nested.Orderly steps) : (element nested steps).Orderly steps := by
  refine orderly_get.bind fun c => (orderly_openingTag h).bind fun tag => ?_
  split
  · exact orderly_get.bind fun c => orderly_pure _
  · refine (orderly_children h le_rfl).bind fun nodes => (orderly_closing tag.name).bind fun _ => ?_
    exact orderly_get.bind fun c => orderly_pure _

lemma orderly_fragment (h : nested.Orderly steps) : (fragment nested steps).Orderly steps :=
  orderly_expect.bind fun _ => (orderly_children h le_rfl).bind fun _ =>
    orderly_expect.bind fun _ => orderly_pure _

/-- **Order.**  Reading markup makes calls and nothing else, and the steps allowed for loops do not
run out if they are more than there are characters left. -/
theorem orderly_markup (steps levels : ℕ) : (markup steps levels).Orderly steps := by
  induction levels with
  | zero => exact orderly_reject rfl
  | succ levels ih =>
    refine (orderly_sees _).bind fun found => ?_
    split
    · exact orderly_fragment ih
    · exact orderly_element ih

end EmbeddedJsx.Production
