import EmbeddedJsx.Checked.Productions
import EmbeddedJsx.Proofs.Checks.Mirroring

/-!
# No check of a production fails

The constructs are gone through in the order in which they use one another.  Names are what the
checks are about: every part of a name that has been read can be looked up in the text
(`Name.Sliced`), so that two names are compared without a breach, and a name has a first and a last
part.

The main statement is `mirrors_markup`.  It closes the circle of productions that call one another
by induction on the levels of nesting.
-/

namespace EmbeddedJsx

namespace Checked

variable {α : Type} {text : List Char} {c c' : Cursor} {e : Excerpt} {name : Name} {steps : ℕ}
  {nested : Checked Node} {nested' : Production Node}

/-! ### Slices and parts -/

/-- What can be looked up is looked up without a breach. -/
lemma slice_of_sliced (he : e.Sliced text) (m : Mark) :
    slice e.span text m = .ok e.text.toList m := by
  have hslice : Text.orderedSlice text e.span.start e.span.stop = .ok e.text.toList := he
  simp only [slice, hslice]

example : slice ⟨1, 0⟩ ['<', 'a'] .beginning = .error (.broken (.reversed ⟨1, 0⟩)) .beginning := rfl

/-- Parts that can be looked up are compared by what they read. -/
lemma sameParts_zip {as bs : List Excerpt} (has : ∀ e ∈ as, e.Sliced text)
    (hbs : ∀ e ∈ bs, e.Sliced text) (hlength : as.length = bs.length) (m : Mark) :
    sameParts (as.zip bs) text m = .ok (as.map Excerpt.text == bs.map Excerpt.text) m := by
  induction as generalizing bs with
  | nil =>
    obtain rfl : bs = [] := List.eq_nil_of_length_eq_zero hlength.symm
    rfl
  | cons a as ih =>
    cases bs with
    | nil => cases hlength
    | cons b bs =>
      obtain ⟨ha, has⟩ := List.forall_mem_cons.1 has
      obtain ⟨hb, hbs⟩ := List.forall_mem_cons.1 hbs
      have hmore := ih has hbs (Nat.succ.inj hlength)
      rw [List.zip_cons_cons, sameParts, bind_of_ok (slice_of_sliced ha m),
        bind_of_ok (slice_of_sliced hb m)]
      by_cases hab : a.text = b.text
      · simp [hab, hmore]
      · have hlist : a.text.toList ≠ b.text.toList := fun h => hab (String.toList_inj.1 h)
        have hne : (a.text == b.text) = false := beq_eq_false_iff_ne.2 hab
        rw [if_neg hlist, List.map_cons, List.map_cons, List.cons_beq_cons, hne]
        rfl

lemma agrees_eq_sameForm (a b : Name) :
    b.agrees a = (a.sameForm b && a.parts.map Excerpt.text == b.parts.map Excerpt.text) := by
  cases a <;> cases b <;>
    simp [Name.agrees, Name.sameForm, Name.parts, Bool.beq_comm, Bool.and_assoc]

/-- Names whose parts can be looked up are compared by their forms and by what their parts read. -/
lemma agree_of_sliced {a b : Name} (ha : a.Sliced text) (hb : b.Sliced text) (m : Mark) :
    agree a b text m = .ok (b.agrees a) m := by
  rw [agree, agrees_eq_sameForm]
  by_cases hlength : a.parts.length = b.parts.length
  · cases hform : a.sameForm b with
    | false => rfl
    | true =>
      simp only [hlength, beq_self_eq_true, Bool.and_self, if_true, Bool.true_and]
      exact sameParts_zip ha hb hlength m
  · have htexts : (a.parts.map Excerpt.text == b.parts.map Excerpt.text) = false := by
      refine beq_eq_false_iff_ne.2 fun h => hlength ?_
      simpa using congrArg List.length h
    have hne : (a.parts.length == b.parts.length) = false := beq_eq_false_iff_ne.2 hlength
    rw [htexts, hne, Bool.and_false]
    rfl

lemma part_first (name : Name) : part name.parts.head? = (pure name.first : Checked Excerpt) := by
  rw [Name.head?_parts, part]

lemma part_last (name : Name) : part name.parts.getLast? = (pure name.last : Checked Excerpt) := by
  rw [Name.getLast?_parts, part]

/-! ### Names -/

lemma mirrors_memberParts (hc : c.Within text) (steps : ℕ) :
    Mirrors text (memberParts steps) (Production.memberParts steps)
      (fun parts _ => ∀ e ∈ parts, e.Sliced text) c := by
  induction steps generalizing c with
  | zero => exact mirrors_exhaust
  | succ steps ih =>
    refine (mirrors_sees hc .dot).bind fun found c₁ hc₁ _ => ?_
    split
    · refine (mirrors_advance hc₁).bind fun _ c₂ hc₂ _ => ?_
      refine (mirrors_take hc₂).bind fun e c₃ hc₃ he => ?_
      refine (ih hc₃).bind fun parts c₄ hc₄ hparts => mirrors_pure hc₄ ?_
      exact List.forall_mem_cons.2 ⟨he ▸ hc₂.sliced_excerpt, hparts⟩
    · exact mirrors_pure hc₁ (by simp)

/-- What may come after the two parts of a name with a colon. -/
lemma mirrors_afterLocalName {first second : Excerpt} (hc : c.Within text)
    (hfirst : first.Sliced text) (hsecond : second.Sliced text) (token : Option TokenKind) :
    Mirrors text
      (match token with
        | some .colon | some .dot => reject .secondColon
        | _ => return .namespaced first second : Checked Name)
      (match token with
        | some .colon | some .dot => Production.reject .secondColon
        | _ => return .namespaced first second : Production Name)
      (fun name _ => name.Sliced text) c := by
  have hname : (Name.namespaced first second).Sliced text := by
    simpa [Name.Sliced, Name.parts] using ⟨hfirst, hsecond⟩
  cases token with
  | none => exact mirrors_pure hc hname
  | some kind =>
    cases kind with
    | colon | dot => exact mirrors_reject _
    | _ => exact mirrors_pure hc hname

lemma mirrors_elementName (hc : c.Within text) (steps : ℕ) :
    Mirrors text (elementName steps) (Production.elementName steps)
      (fun name _ => name.Sliced text) c := by
  refine (mirrors_take hc).bind fun first c₁ hc₁ hfirst => ?_
  have hfirst : first.Sliced text := hfirst ▸ hc.sliced_excerpt
  have hplain : (Name.plain first).Sliced text := by
    simpa [Name.Sliced, Name.parts] using hfirst
  refine (mirrors_kind hc₁).bind fun token c₁ hc₁ _ => ?_
  cases token with
  | none => exact mirrors_pure hc₁ hplain
  | some kind =>
    cases kind with
    | dot =>
      refine (mirrors_advance hc₁).bind fun _ c₂ hc₂ _ => ?_
      refine (mirrors_take hc₂).bind fun second c₃ hc₃ hsecond => ?_
      have hsecond : second.Sliced text := hsecond ▸ hc₂.sliced_excerpt
      refine (mirrors_memberParts hc₃ steps).bind fun more c₄ hc₄ hmore => ?_
      refine (mirrors_sees hc₄ .colon).bind fun found c₅ hc₅ _ => ?_
      split
      · exact mirrors_reject _
      · refine mirrors_pure hc₅ ?_
        simpa [Name.Sliced, Name.parts] using ⟨hfirst, hsecond, hmore⟩
    | colon =>
      refine (mirrors_advance hc₁).bind fun _ c₂ hc₂ _ => ?_
      refine (mirrors_take hc₂).bind fun second c₃ hc₃ hsecond => ?_
      have hsecond : second.Sliced text := hsecond ▸ hc₂.sliced_excerpt
      refine (mirrors_kind hc₃).bind fun token c₃ hc₃ _ => ?_
      exact mirrors_afterLocalName hc₃ hfirst hsecond token
    | _ => exact mirrors_pure hc₁ hplain

lemma mirrors_attributeName (hc : c.Within text) :
    Mirrors text attributeName Production.attributeName
      (fun name _ => name.first.span.start = c.start) c := by
  refine (mirrors_take hc).bind fun first c₁ hc₁ hfirst => ?_
  have hstart : first.span.start = c.start := by rw [hfirst]; rfl
  refine (mirrors_sees hc₁ .colon).bind fun found c₂ hc₂ _ => ?_
  split
  · refine (mirrors_advance hc₂).bind fun _ c₃ hc₃ _ => ?_
    exact (mirrors_take hc₃).bind fun _ c₄ hc₄ _ => mirrors_pure hc₄ hstart
  · exact mirrors_pure hc₂ hstart

lemma mirrors_closingTag (hc : c.Within text) (steps : ℕ) :
    Mirrors text (closingTag steps) (Production.closingTag steps)
      (fun name _ => name.Sliced text) c := by
  refine (mirrors_take hc).bind fun _ c₁ hc₁ _ => ?_
  refine (mirrors_elementName hc₁ steps).bind fun name c₂ hc₂ hname => ?_
  exact (mirrors_expect hc₂).bind fun _ c₃ hc₃ _ => mirrors_pure hc₃ hname

/-! ### Expressions -/

lemma mirrors_expressionMarkup (hnested : MirrorsWithin text nested nested')
    (hc : c.Within text) (k depth : ℕ) :
    Mirrors text (expressionMarkup nested k depth) (Production.expressionMarkup nested' k depth)
      (fun _ _ => True) c := by
  induction k generalizing c depth with
  | zero => exact mirrors_exhaust
  | succ k ih =>
    refine (mirrors_advance hc).bind fun _ c₁ hc₁ _ => ?_
    refine (mirrors_kind hc₁).bind fun token c₁ hc₁ _ => ?_
    have hmarkup :
        Mirrors text
          (do let node ← nested
              let nodes ← expressionMarkup nested k depth
              return node :: nodes : Checked (List Node))
          (do let node ← nested'
              let nodes ← Production.expressionMarkup nested' k depth
              return node :: nodes : Production (List Node)) (fun _ _ => True) c₁ :=
      (hnested hc₁).bind fun _ c₂ hc₂ _ => (ih hc₂ depth).bind fun _ c₃ hc₃ _ =>
        mirrors_pure hc₃ trivial
    cases token with
    | none => exact ih hc₁ depth
    | some kind =>
      cases kind with
      | braceOpen => exact ih hc₁ (depth + 1)
      | braceClose =>
        cases depth with
        | zero => exact mirrors_pure hc₁ trivial
        | succ depth => exact ih hc₁ depth
      | tagOpen | fragmentOpen => exact hmarkup
      | _ => exact ih hc₁ depth

lemma mirrors_expression (hnested : MirrorsWithin text nested nested') (hc : c.Within text)
    (steps : ℕ) :
    Mirrors text (expression nested steps) (Production.expression nested' steps)
      (fun _ _ => True) c := by
  refine (mirrors_expect hc).bind fun brace c₁ hc₁ _ => .mark_get ?_
  refine (mirrors_expressionMarkup hnested hc₁ steps 0).bind fun nodes c₂ hc₂ _ => .mark_get ?_
  -- what lies between the braces is looked up
  refine .read ?_
  change Mirrors text
    (pure (Node.expression _ _ (String.ofList (Text.slice text c₁.stop c₂.start)) _)) _ _ c₂
  rw [hc₁.slice_between hc₂]
  exact mirrors_pure hc₂ trivial

/-! ### Attributes -/

lemma mirrors_assigned (hnested : MirrorsWithin text nested nested') (hc : c.Within text)
    (steps : ℕ) :
    Mirrors text (assigned nested steps) (Production.assigned nested' steps)
      (fun _ _ => True) c := by
  refine (mirrors_kind hc).bind ?_
  rintro token c hc ⟨htoken, rfl⟩
  cases token with
  | none => exact mirrors_reject _
  | some kind =>
    cases kind with
    | string =>
      refine (mirrors_current hc htoken.symm).bind fun literal c₁ hc₁ _ => ?_
      exact mirrors_pure hc₁ trivial
    | braceOpen => exact mirrors_expression hnested hc steps
    | tagOpen | fragmentOpen => exact hnested hc
    | _ => exact mirrors_reject _

lemma mirrors_attributeValue (hnested : MirrorsWithin text nested nested') (hc : c.Within text)
    (steps : ℕ) :
    Mirrors text (attributeValue nested steps) (Production.attributeValue nested' steps)
      (fun _ _ => True) c := by
  refine (mirrors_sees hc .assign).bind fun found c₁ hc₁ _ => ?_
  split
  · refine (mirrors_advance hc₁).bind fun _ c₂ hc₂ _ => ?_
    refine (mirrors_assigned hnested hc₂ steps).bind fun value c₃ hc₃ _ => ?_
    exact (mirrors_advance hc₃).bind fun _ c₄ hc₄ _ => mirrors_pure hc₄ trivial
  · exact mirrors_pure hc₁ trivial

/-- A token that is known to be there can be taken by going on. -/
lemma take_bind_of_token {β : Type} {kind : TokenKind} {what : Expectation}
    {next : Excerpt → Production β} (htoken : c.token = some kind) :
    (Production.take kind what >>= next) c =
      (Production.advance >>= fun _ => next c.excerpt) c := by
  simp only [Production.take, Production.expect, Bind.bind, EStateM.bind, if_pos htoken]
  cases Production.advance c <;> rfl

lemma mirrors_spread (hc : c.Within text) (htoken : c.token = some .braceOpen) :
    Mirrors text spread Production.spread (fun _ _ => True) c := by
  refine .congr ?_ (take_bind_of_token htoken)
  refine .mark ((mirrors_advance hc).bind fun _ c₁ hc₁ _ => ?_)
  refine (mirrors_take hc₁).bind fun _ c₂ hc₂ _ => (mirrors_take hc₂).bind fun _ c₃ hc₃ _ => ?_
  exact (mirrors_take hc₃).bind fun _ c₄ hc₄ _ => mirrors_pure hc₄ trivial

lemma mirrors_namedAttribute (hnested : MirrorsWithin text nested nested') (hc : c.Within text)
    (steps : ℕ) :
    Mirrors text (namedAttribute nested steps) (Production.namedAttribute nested' steps)
      (fun _ _ => True) c := by
  refine .mark ((mirrors_attributeName hc).bind fun name c₁ hc₁ hstart => ?_)
  refine (mirrors_attributeValue hnested hc₁ steps).bind fun value c₂ hc₂ _ => ?_
  have hspan : name.span.start = c.mark.start := hstart
  cases value with
  | some value =>
    rw [hspan]
    exact mirrors_pure hc₂ trivial
  | none =>
    change Mirrors text (part name.parts.getLast? >>= _) _ _ c₂
    rw [part_last, ← hspan]
    exact mirrors_pure hc₂ trivial

lemma mirrors_oneAttribute (hnested : MirrorsWithin text nested nested') (hc : c.Within text)
    (steps : ℕ) :
    Mirrors text (oneAttribute nested steps) (Production.oneAttribute nested' steps)
      (fun _ _ => True) c := by
  refine (mirrors_kind hc).bind ?_
  rintro token c hc ⟨htoken, rfl⟩
  cases token with
  | none => exact mirrors_pure hc trivial
  | some kind =>
    cases kind with
    | braceOpen =>
      exact (mirrors_spread hc htoken.symm).bind fun _ c₁ hc₁ _ => mirrors_pure hc₁ trivial
    | identifier =>
      refine (mirrors_namedAttribute hnested hc steps).bind fun _ c₁ hc₁ _ => ?_
      exact mirrors_pure hc₁ trivial
    | _ => exact mirrors_pure hc trivial

lemma mirrors_attributes (hnested : MirrorsWithin text nested nested') (hc : c.Within text)
    (steps k : ℕ) :
    Mirrors text (attributes nested steps k) (Production.attributes nested' steps k)
      (fun _ _ => True) c := by
  induction k generalizing c with
  | zero => exact mirrors_exhaust
  | succ k ih =>
    refine (mirrors_oneAttribute hnested hc steps).bind fun found c₁ hc₁ _ => ?_
    cases found with
    | none => exact mirrors_pure hc₁ trivial
    | some node => exact (ih hc₁).bind fun _ c₂ hc₂ _ => mirrors_pure hc₂ trivial

/-! ### Tags -/

lemma mirrors_openingTag (hnested : MirrorsWithin text nested nested') (hc : c.Within text)
    (steps : ℕ) :
    Mirrors text (openingTag nested steps) (Production.openingTag nested' steps)
      (fun tag _ => tag.name.Sliced text) c := by
  refine (mirrors_take hc).bind fun _ c₁ hc₁ _ => ?_
  refine (mirrors_elementName hc₁ steps).bind fun name c₂ hc₂ hname => ?_
  refine (mirrors_attributes hnested hc₂ steps steps).bind fun nodes c₃ hc₃ _ => ?_
  refine (mirrors_kind hc₃).bind fun token c₃ hc₃ _ => ?_
  cases token with
  | none => exact mirrors_reject _
  | some kind =>
    cases kind with
    | tagClose | selfClose => exact mirrors_pure hc₃ hname
    | _ => exact mirrors_reject _

/-- Two names are compared, and one is asked for its first and its last part. -/
lemma mirrors_closing (hc : c.Within text) (steps : ℕ) (hname : name.Sliced text) :
    Mirrors text (closing steps name) (Production.closing steps name) (fun _ _ => True) c := by
  refine (mirrors_sees hc .fragmentClose).bind fun found c₁ hc₁ _ => ?_
  split
  · exact mirrors_reject _
  · refine (mirrors_closingTag hc₁ steps).bind fun found c₂ hc₂ hfound => ?_
    refine .of_ok (agree_of_sliced hname hfound c₂.mark) ?_
    split
    · exact mirrors_pure hc₂ trivial
    · rw [part_first, part_last]
      exact mirrors_rejectAt _ _

/-! ### Children, elements and fragments -/

/-- The raw text before the token that has been reached is looked up. -/
lemma textFrom_mark {kind : TokenKind} (hc : c.Within text) (hc' : c'.Within text)
    (h : c.nextChild = .ok kind c') :
    textFrom c.mark.stop text c'.mark = .ok (Production.textAfter c) c'.mark := by
  have hstart : c'.start = c.stop + c.raw.length := Cursor.start_of_nextChild h
  have hraw : Text.slice text c.stop c'.start = c.raw := by
    have htake : c.rest.take c.raw.length = c.raw :=
      (List.prefix_iff_eq_take.1 (List.takeWhile_prefix _)).symm
    rw [hc.slice_between hc', hstart, Nat.add_sub_cancel_left, htake]
  have hslice : slice ⟨c.mark.stop, c'.mark.start⟩ text c'.mark = .ok c.raw c'.mark := by
    have hordered : ¬ (c'.start : ℤ) < c.stop := by omega
    have hfound : Text.orderedSlice text c.stop c'.start = .ok c.raw := by
      rw [Text.orderedSlice, if_neg hordered, hraw]
    simp only [slice, Cursor.mark, hfound]
  change (if c.stop < c'.start then _ else pure [] : Checked (List Node)) text c'.mark = _
  by_cases hnil : c.raw = []
  · have htext : Production.textAfter c = [] := by rw [Production.textAfter, hnil]
    rw [htext, if_neg (by simp [hstart, hnil])]
    rfl
  · have hlt : c.stop < c'.start := by
      have hpos : 0 < c.raw.length := List.length_pos_iff.2 hnil
      omega
    have htext : Production.textAfter c = [.text ⟨c.stop, c'.start⟩ (String.ofList c.raw)] := by
      rw [hstart, Production.textAfter]
      split
      · contradiction
      · rfl
    rw [htext, if_pos hlt, bind_of_ok hslice]
    rfl

lemma mirrors_children (hnested : MirrorsWithin text nested nested') (hc : c.Within text)
    (steps k : ℕ) :
    Mirrors text (children nested steps k) (Production.children nested' steps k)
      (fun _ _ => True) c := by
  induction k generalizing c with
  | zero => exact mirrors_exhaust
  | succ k ih =>
    refine .mark_get ((mirrors_advanceChild hc).bind fun kind c₁ hc₁ hkind => ?_)
    refine .of_ok (textFrom_mark hc hc₁ hkind) ?_
    have hchild {construct : Checked Node} {construct' : Production Node}
        (hconstruct : Mirrors text construct construct' (fun _ _ => True) c₁) :
        Mirrors text
          (do let node ← construct
              let nodes ← children nested steps k
              return Production.textAfter c ++ node :: nodes : Checked (List Node))
          (do let node ← construct'
              let nodes ← Production.children nested' steps k
              return Production.textAfter c ++ node :: nodes : Production (List Node))
          (fun _ _ => True) c₁ :=
      hconstruct.bind fun _ c₂ hc₂ _ => (ih hc₂).bind fun _ c₃ hc₃ _ => mirrors_pure hc₃ trivial
    cases kind with
    | closingOpen | fragmentClose => exact mirrors_pure hc₁ trivial
    | tagOpen | fragmentOpen => exact hchild (hnested hc₁)
    | braceOpen => exact hchild (mirrors_expression hnested hc₁ steps)
    | _ => exact (ih hc₁).bind fun _ c₂ hc₂ _ => mirrors_pure hc₂ trivial

lemma mirrors_element (hnested : MirrorsWithin text nested nested') (hc : c.Within text)
    (steps : ℕ) :
    Mirrors text (element nested steps) (Production.element nested' steps) (fun _ _ => True) c := by
  refine .mark_get ((mirrors_openingTag hnested hc steps).bind fun tag c₁ hc₁ hname => ?_)
  split
  · exact .mark_get (mirrors_pure hc₁ trivial)
  · refine (mirrors_children hnested hc₁ steps steps).bind fun nodes c₂ hc₂ _ => ?_
    refine (mirrors_closing hc₂ steps hname).bind fun _ c₃ hc₃ _ => ?_
    exact .mark_get (mirrors_pure hc₃ trivial)

lemma mirrors_fragment (hnested : MirrorsWithin text nested nested') (hc : c.Within text)
    (steps : ℕ) :
    Mirrors text (fragment nested steps) (Production.fragment nested' steps)
      (fun _ _ => True) c := by
  refine .mark ((mirrors_expect hc).bind ?_)
  rintro opening c₁ hc₁ ⟨rfl, rfl⟩
  refine (mirrors_children hnested hc₁ steps steps).bind fun nodes c₂ hc₂ _ => ?_
  refine (mirrors_expect hc₂).bind ?_
  rintro close c₃ hc₃ ⟨rfl, rfl⟩
  exact .mark (mirrors_pure hc₃ trivial)

/-- **Checks.**  Reading markup with checks leads to what it leads to without them, so that no check
fails. -/
theorem mirrors_markup (text : List Char) (steps levels : ℕ) :
    MirrorsWithin text (markup steps levels) (Production.markup steps levels) := by
  intro c hc
  induction levels generalizing c with
  | zero => exact mirrors_reject _
  | succ levels ih =>
    refine (mirrors_sees hc .fragmentOpen).bind fun found c₁ hc₁ _ => ?_
    split
    · exact mirrors_fragment ih hc₁ steps
    · exact mirrors_element ih hc₁ steps

end Checked

end EmbeddedJsx
