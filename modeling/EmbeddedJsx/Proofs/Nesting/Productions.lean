import EmbeddedJsx.Proofs.Nesting.Asking

/-!
# How the productions ask for markup

Names are read without asking for markup, and every other production is a sequence of single steps
and of requests for markup.  The productions are gone through in the order in which they use one
another.

An element or a fragment begins with a token that is read before any markup is asked for
(`guarded_activation`).  So the markup in it begins further on, and there is an end to the nesting
without any limit.
-/

namespace EmbeddedJsx.Production

variable {α β : Type}

/-! ### Names -/

lemma plain_memberParts (steps : ℕ) : Plain (memberParts steps) := by
  induction steps with
  | zero => exact plain_exhaust
  | succ steps ih =>
    refine (plain_sees _).bind fun found => ?_
    split
    · exact plain_advance.bind fun _ => (plain_take _ _).bind fun part =>
        ih.bind fun parts => plain_pure _
    · exact plain_pure _

lemma plain_elementName (steps : ℕ) : Plain (elementName steps) := by
  refine (plain_take _ _).bind fun first => plain_current.bind fun token => ?_
  split
  · refine plain_advance.bind fun _ => (plain_take _ _).bind fun second => ?_
    refine (plain_memberParts steps).bind fun more => (plain_sees _).bind fun found => ?_
    split
    · exact plain_reject (by simp)
    · exact plain_pure _
  · refine plain_advance.bind fun _ => (plain_take _ _).bind fun second => ?_
    refine plain_current.bind fun token => ?_
    split
    · exact plain_reject (by simp)
    · exact plain_reject (by simp)
    · exact plain_pure _
  · exact plain_pure _

lemma plain_attributeName : Plain attributeName := by
  refine (plain_take _ _).bind fun first => (plain_sees _).bind fun found => ?_
  split
  · exact plain_advance.bind fun _ => (plain_take _ _).bind fun second => plain_pure _
  · exact plain_pure _

lemma plain_closing (steps : ℕ) (name : Name) : Plain (closing steps name) := by
  refine (plain_sees _).bind fun found => ?_
  split
  · exact plain_reject (by simp)
  · refine Plain.bind ?_ fun found => ?_
    · exact (plain_take _ _).bind fun _ => (plain_elementName steps).bind fun name =>
        (plain_expect _ _).bind fun _ => plain_pure name
    · split
      · exact plain_pure ()
      · exact plain_rejectAt (by simp) _

lemma plain_spread : Plain spread :=
  (plain_take _ _).bind fun _ => (plain_take _ _).bind fun _ => (plain_take _ _).bind fun _ =>
    (plain_take _ _).bind fun _ => plain_pure _

/-! ### Expressions -/

/-- A single step, after which markup may be asked for. -/
lemma Plain.bind_sequential {first : Production α} {next : α → Scheme β} (h : Plain first)
    (h' : ∀ a, Sequential (next a)) :
    Sequential fun nested => first >>= fun a => next a nested :=
  .bind (.plain h) h'

lemma sequential_pure (a : α) : Sequential fun _ => (pure a : Production α) :=
  .plain (plain_pure a)

lemma sequential_expressionMarkup (k depth : ℕ) :
    Sequential fun nested => expressionMarkup nested k depth := by
  induction k generalizing depth with
  | zero => exact .plain plain_exhaust
  | succ k ih =>
    refine plain_advance.bind_sequential fun _ => plain_current.bind_sequential fun token => ?_
    have hmarkup : Sequential fun nested => do
        let node ← nested
        let nodes ← expressionMarkup nested k depth
        return node :: nodes :=
      Sequential.nested.bind fun node => (ih depth).bind fun nodes => sequential_pure _
    cases token with
    | none => exact ih depth
    | some kind =>
      cases kind with
      | braceOpen => exact ih (depth + 1)
      | braceClose =>
        cases depth with
        | zero => exact sequential_pure _
        | succ depth => exact ih depth
      | tagOpen => exact hmarkup
      | fragmentOpen => exact hmarkup
      | _ => exact ih depth

lemma sequential_expression (steps : ℕ) :
    Sequential fun nested => expression nested steps :=
  (plain_expect _ _).bind_sequential fun _ => plain_get.bind_sequential fun _ =>
    (sequential_expressionMarkup steps 0).bind fun _ =>
      plain_get.bind_sequential fun _ => sequential_pure _

/-! ### Attributes -/

lemma sequential_assigned (steps : ℕ) : Sequential fun nested => assigned nested steps := by
  refine plain_current.bind_sequential fun token => ?_
  cases token with
  | none => exact .plain (plain_reject (by simp))
  | some kind =>
    cases kind with
    | string => exact (plain_expect _ _).bind_sequential fun literal => sequential_pure _
    | braceOpen => exact sequential_expression steps
    | tagOpen => exact .nested
    | fragmentOpen => exact .nested
    | _ => exact .plain (plain_reject (by simp))

lemma sequential_attributeValue (steps : ℕ) :
    Sequential fun nested => attributeValue nested steps := by
  refine (plain_sees _).bind_sequential fun found => ?_
  cases found with
  | false => exact sequential_pure _
  | true =>
    exact plain_advance.bind_sequential fun _ => (sequential_assigned steps).bind fun value =>
      plain_advance.bind_sequential fun _ => sequential_pure _

lemma sequential_namedAttribute (steps : ℕ) :
    Sequential fun nested => namedAttribute nested steps := by
  refine plain_attributeName.bind_sequential fun name =>
    (sequential_attributeValue steps).bind fun value => ?_
  cases value with
  | none => exact sequential_pure _
  | some value => exact sequential_pure _

lemma sequential_oneAttribute (steps : ℕ) :
    Sequential fun nested => oneAttribute nested steps := by
  refine plain_current.bind_sequential fun token => ?_
  cases token with
  | none => exact sequential_pure _
  | some kind =>
    cases kind with
    | braceOpen => exact plain_spread.bind_sequential fun _ => sequential_pure _
    | identifier => exact (sequential_namedAttribute steps).bind fun _ => sequential_pure _
    | _ => exact sequential_pure _

lemma sequential_attributes (steps k : ℕ) :
    Sequential fun nested => attributes nested steps k := by
  induction k with
  | zero => exact .plain plain_exhaust
  | succ k ih =>
    refine (sequential_oneAttribute steps).bind fun found => ?_
    cases found with
    | none => exact sequential_pure _
    | some node => exact ih.bind fun nodes => sequential_pure _

/-! ### Elements and fragments -/

lemma guarded_take (kind : TokenKind) (what : Expectation) : Guarded fun _ => take kind what :=
  (plain_take kind what).guarded fun _ _ _ hok => (take_moved hok).length_lt

lemma guarded_advanceChild : Guarded fun _ => advanceChild :=
  plain_advanceChild.guarded fun _ _ _ hok =>
    (Cursor.moved_nextChild (advanceChild_eq_ok.1 hok)).length_lt

lemma guarded_exhaust : Guarded fun _ => (exhaust : Production α) :=
  plain_exhaust.guarded fun _ _ _ hok => by simp [exhaust] at hok

lemma guarded_children (steps k : ℕ) : Guarded fun nested => children nested steps k := by
  induction k with
  | zero => exact guarded_exhaust
  | succ k ih =>
    refine plain_get.bind_guarded fun c => guarded_advanceChild.bind fun kind => ?_
    have hchild {scheme : Scheme Node} (hscheme : Sequential scheme) :
        Sequential fun nested => do
          let node ← scheme nested
          let nodes ← children nested steps k
          return textAfter c ++ node :: nodes :=
      hscheme.bind fun node => ih.sequential.bind fun nodes => sequential_pure _
    cases kind with
    | closingOpen => exact sequential_pure _
    | fragmentClose => exact sequential_pure _
    | tagOpen => exact hchild .nested
    | fragmentOpen => exact hchild .nested
    | braceOpen => exact hchild (sequential_expression steps)
    | _ => exact ih.sequential.bind fun nodes => sequential_pure _

lemma guarded_openingTag (steps : ℕ) : Guarded fun nested => openingTag nested steps := by
  refine (guarded_take _ _).bind fun _ => (plain_elementName steps).bind_sequential fun name =>
    (sequential_attributes steps steps).bind fun nodes =>
      plain_current.bind_sequential fun token => .plain ?_
  split
  · exact plain_pure _
  · exact plain_pure _
  · exact plain_reject (by simp)

lemma guarded_element (steps : ℕ) : Guarded fun nested => element nested steps := by
  refine plain_get.bind_guarded fun start => (guarded_openingTag steps).bind fun tag => ?_
  obtain ⟨selfClosing, name, nodes⟩ := tag
  cases selfClosing with
  | true => exact plain_get.bind_sequential fun stop => sequential_pure _
  | false =>
    exact (guarded_children steps steps).sequential.bind fun nodes =>
      (plain_closing steps name).bind_sequential fun _ =>
        plain_get.bind_sequential fun stop => sequential_pure _

lemma guarded_fragment (steps : ℕ) : Guarded fun nested => fragment nested steps :=
  (plain_expect _ _).bind_guarded fun _ => (guarded_children steps steps).bind fun _ =>
    (plain_expect _ _).bind_sequential fun _ => sequential_pure _

/-- One element or fragment, with the markup in it read as given. -/
def activation (nested : Production Node) (steps : ℕ) : Production Node := do
  if ← sees .fragmentOpen then
    fragment nested steps
  else
    element nested steps

/-- **Reading before asking.**  An element or a fragment reads its first token before it asks for
the markup in it. -/
lemma guarded_activation (steps : ℕ) : Guarded fun nested => activation nested steps := by
  refine (plain_sees _).bind_guarded fun found => ?_
  cases found with
  | true => exact guarded_fragment steps
  | false => exact guarded_element steps

end EmbeddedJsx.Production
