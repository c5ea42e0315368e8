import EmbeddedJsx.Proofs.Extension.Simulation

/-!
# Every production is simulated in longer texts

The productions are gone through in the order in which they use one another, and each is simulated
by itself, with as many steps for its loops or more.  Where a production makes a span of the current
token, that token is no identifier and has not grown.

The main statement is `simulates_markup`.
-/

namespace EmbeddedJsx.Embedding

open Production

variable {E : Embedding} {c c' : Cursor} {k k' steps steps' levels : ℕ}
  {nested nested' : Production Node}

/-! ### Names -/

lemma simulates_memberParts (hk : k ≤ k') :
    E.Simulates (List.map (Excerpt.shift E.front)) (memberParts k) (memberParts k') := by
  induction k generalizing k' with
  | zero => exact simulates_exhaust _
  | succ k ih =>
    obtain ⟨k', rfl⟩ := exists_succ hk
    have hk : k ≤ k' := Nat.le_of_succ_le_succ hk
    refine (simulates_sees _).bind_id fun found => ?_
    split
    · refine simulates_advance.bind_id fun _ => simulates_take.bind fun part => ?_
      exact (ih hk).bind fun parts => simulates_pure rfl
    · exact simulates_pure rfl

lemma simulates_elementName (hk : k ≤ k') :
    E.Simulates (Name.shift E.front) (elementName k) (elementName k') := by
  refine simulates_take.bind fun first => simulates_current.bind_id fun token => ?_
  split
  · refine simulates_advance.bind_id fun _ => simulates_take.bind fun second => ?_
    refine (simulates_memberParts hk).bind fun more => (simulates_sees _).bind_id fun found => ?_
    split
    · exact simulates_reject _
    · exact simulates_pure rfl
  · refine simulates_advance.bind_id fun _ => simulates_take.bind fun second => ?_
    refine simulates_current.bind_id fun token => ?_
    split
    · exact simulates_reject _
    · exact simulates_reject _
    · exact simulates_pure rfl
  · exact simulates_pure rfl

lemma simulates_attributeName :
    E.Simulates (Name.shift E.front) attributeName attributeName := by
  refine simulates_take.bind fun first => (simulates_sees _).bind_id fun found => ?_
  split
  · exact simulates_advance.bind_id fun _ => simulates_take.bind fun second => simulates_pure rfl
  · exact simulates_pure rfl

lemma simulates_closingTag (hk : k ≤ k') :
    E.Simulates (Name.shift E.front) (closingTag k) (closingTag k') :=
  simulates_take.bind fun _ => (simulates_elementName hk).bind fun name =>
    (simulates_expect (by simp)).bind fun _ => simulates_pure rfl

/-! ### Expressions -/

lemma simulates_expressionMarkup (h : E.Simulates (Node.shift E.front) nested nested')
    (hk : k ≤ k') (depth : ℕ) :
    E.Simulates (Node.shiftAll E.front) (expressionMarkup nested k depth)
      (expressionMarkup nested' k' depth) := by
  induction k generalizing k' depth with
  | zero => exact simulates_exhaust _
  | succ k ih =>
    obtain ⟨k', rfl⟩ := exists_succ hk
    have hk : k ≤ k' := Nat.le_of_succ_le_succ hk
    refine simulates_advance.bind_id fun _ => simulates_current.bind_id fun token => ?_
    split
    · exact ih hk (depth + 1)
    · split
      · exact simulates_pure rfl
      · exact ih hk _
    · exact h.bind fun node => (ih hk depth).bind fun nodes => simulates_pure rfl
    · exact h.bind fun node => (ih hk depth).bind fun nodes => simulates_pure rfl
    · exact ih hk depth

/-- An expression ends on its right brace. -/
lemma expressionMarkup_token {depth : ℕ} {nodes : List Node}
    (h : expressionMarkup nested k depth c = .ok nodes c') : c'.token = some .braceClose := by
  induction k generalizing c nodes depth with
  | zero => simp [expressionMarkup, exhaust] at h
  | succ k ih =>
    simp only [expressionMarkup, bind_eq_ok, current_apply, EStateM.Result.ok.injEq] at h
    obtain ⟨_, c₁, -, _, _, ⟨rfl, rfl⟩, h⟩ := h
    have hmarkup (h : (do let node ← nested
                          let nodes ← expressionMarkup nested k depth
                          return node :: nodes : Production (List Node)) c₁ = .ok nodes c') :
        c'.token = some .braceClose := by
      simp only [bind_eq_ok, pure_apply, EStateM.Result.ok.injEq] at h
      obtain ⟨_, _, -, _, _, hrest, -, rfl⟩ := h
      exact ih hrest
    generalize htoken : c₁.token = token at h
    split at h
    · exact ih h
    · split at h
      · simp only [pure_apply, EStateM.Result.ok.injEq] at h
        obtain ⟨-, rfl⟩ := h
        exact htoken
      · exact ih h
    · exact hmarkup h
    · exact hmarkup h
    · exact ih h

lemma simulates_expression (h : E.Simulates (Node.shift E.front) nested nested')
    (hsteps : steps ≤ steps') :
    E.Simulates (Node.shift E.front) (expression nested steps) (expression nested' steps') := by
  intro c hc
  refine (simulates_expect (by simp) hc).bind fun brace c₁ hexpect hc₁ => ?_
  obtain ⟨htoken, rfl, rfl⟩ := expect_eq_ok.1 hexpect
  have hopened : ¬ c₁.AtGrowingEnd := not_atGrowingEnd htoken (by simp)
  -- the cursor on the left brace is remembered
  refine (simulates_expressionMarkup h hsteps 0 hc).bind fun nodes c₂ hmarkup hc₂ => ?_
  have hclosed : ¬ c₂.AtGrowingEnd :=
    not_atGrowingEnd (expressionMarkup_token hmarkup) (by simp)
  refine Carried.ok_of_eq hc₂ ?_
  -- what lies between the braces does not reach the end of the text
  have hinside : c₂.start - c₁.stop ≤ c₁.rest.length := by
    have hlen := hc.length_rest
    have hle := hc₂.start_le
    omega
  rw [cursor_stop (.inl hopened), cursor_stop (.inl hclosed), cursor_start,
    cursor_of_not_growing hopened, Nat.add_sub_add_right]
  simp only [List.take_append_of_le_length hinside]
  rfl

/-! ### Attributes -/

lemma simulates_assigned (h : E.Simulates (Node.shift E.front) nested nested')
    (hsteps : steps ≤ steps') :
    E.Simulates (Node.shift E.front) (assigned nested steps) (assigned nested' steps') := by
  refine simulates_current.bind_id fun token => ?_
  split
  · exact (simulates_expect (by simp)).bind fun literal => simulates_pure rfl
  · exact simulates_expression h hsteps
  · exact h
  · exact h
  · exact simulates_reject _

lemma simulates_attributeValue (h : E.Simulates (Node.shift E.front) nested nested')
    (hsteps : steps ≤ steps') :
    E.Simulates (Option.map (Node.shift E.front)) (attributeValue nested steps)
      (attributeValue nested' steps') := by
  refine (simulates_sees _).bind_id fun found => ?_
  split
  · refine simulates_advance.bind_id fun _ => (simulates_assigned h hsteps).bind fun value => ?_
    exact simulates_advance.bind_id fun _ => simulates_pure rfl
  · exact simulates_pure rfl

lemma simulates_spread : E.Simulates (Node.shift E.front) spread spread :=
  simulates_take.bind fun _ => simulates_take.bind fun _ => simulates_take.bind fun _ =>
    simulates_take.bind fun _ => simulates_pure rfl

lemma simulates_namedAttribute (h : E.Simulates (Node.shift E.front) nested nested')
    (hsteps : steps ≤ steps') :
    E.Simulates (Node.shift E.front) (namedAttribute nested steps)
      (namedAttribute nested' steps') := by
  refine simulates_attributeName.bind fun name =>
    (simulates_attributeValue h hsteps).bind fun value => ?_
  cases value with
  | none => exact simulates_pure (by simp [Node.shift])
  | some value => exact simulates_pure (by simp [Node.shift, Span.shift])

lemma simulates_oneAttribute (h : E.Simulates (Node.shift E.front) nested nested')
    (hsteps : steps ≤ steps') :
    E.Simulates (Option.map (Node.shift E.front)) (oneAttribute nested steps)
      (oneAttribute nested' steps') := by
  refine simulates_current.bind_id fun token => ?_
  split
  · exact simulates_spread.bind fun _ => simulates_pure rfl
  · exact (simulates_namedAttribute h hsteps).bind fun _ => simulates_pure rfl
  · exact simulates_pure rfl

lemma simulates_attributes (h : E.Simulates (Node.shift E.front) nested nested')
    (hsteps : steps ≤ steps') (hk : k ≤ k') :
    E.Simulates (Node.shiftAll E.front) (attributes nested steps k)
      (attributes nested' steps' k') := by
  induction k generalizing k' with
  | zero => exact simulates_exhaust _
  | succ k ih =>
    obtain ⟨k', rfl⟩ := exists_succ hk
    have hk : k ≤ k' := Nat.le_of_succ_le_succ hk
    refine (simulates_oneAttribute h hsteps).bind fun found => ?_
    cases found with
    | none => exact simulates_pure rfl
    | some node => exact (ih hk).bind fun nodes => simulates_pure rfl

/-! ### Tags -/

lemma simulates_openingTag (h : E.Simulates (Node.shift E.front) nested nested')
    (hsteps : steps ≤ steps') :
    E.Simulates (Tag.shift E.front) (openingTag nested steps) (openingTag nested' steps') := by
  refine simulates_take.bind fun _ => (simulates_elementName hsteps).bind fun name => ?_
  refine (simulates_attributes h hsteps hsteps).bind fun nodes =>
    simulates_current.bind_id fun token => ?_
  split
  · exact simulates_pure rfl
  · exact simulates_pure rfl
  · exact simulates_reject _

/-- An opening tag ends on a token that does not grow. -/
lemma openingTag_not_atGrowingEnd {tag : Tag} (h : openingTag nested steps c = .ok tag c') :
    ¬ c'.AtGrowingEnd := by
  simp only [openingTag, bind_eq_ok, current_apply, EStateM.Result.ok.injEq] at h
  obtain ⟨_, _, -, _, _, -, _, c₁, -, _, _, ⟨rfl, rfl⟩, h⟩ := h
  generalize htoken : c₁.token = token at h
  split at h
  · simp only [pure_apply, EStateM.Result.ok.injEq] at h
    obtain ⟨-, rfl⟩ := h
    exact not_atGrowingEnd htoken (by simp)
  · simp only [pure_apply, EStateM.Result.ok.injEq] at h
    obtain ⟨-, rfl⟩ := h
    exact not_atGrowingEnd htoken (by simp)
  · simp at h

lemma simulates_closing (hsteps : steps ≤ steps') (name : Name) :
    E.Simulates id (closing steps name) (closing steps' (name.shift E.front)) := by
  refine (simulates_sees _).bind_id fun found => ?_
  split
  · rw [Name.text_shift]
    exact simulates_reject _
  · refine (simulates_closingTag hsteps).bind fun found => ?_
    rw [Name.agrees_shift, Name.text_shift, Name.text_shift, Name.span_shift]
    split
    · exact simulates_pure rfl
    · exact simulates_rejectAt _ _

/-- A closing tag ends on its `>`. -/
lemma closing_token {name : Name} {u : Unit} (h : closing steps name c = .ok u c') :
    c'.token = some .tagClose := by
  simp only [closing, bind_eq_ok, sees_apply, EStateM.Result.ok.injEq] at h
  obtain ⟨_, _, ⟨rfl, rfl⟩, h⟩ := h
  split at h
  · simp at h
  simp only [closingTag, bind_eq_ok, expect_eq_ok] at h
  obtain ⟨found, c₁, ⟨_, _, -, _, _, -, _, _, ⟨htoken, rfl, rfl⟩, hpure⟩, h⟩ := h
  simp only [pure_apply, EStateM.Result.ok.injEq] at hpure
  obtain ⟨-, rfl⟩ := hpure
  split at h
  · simp only [pure_apply, EStateM.Result.ok.injEq] at h
    obtain ⟨-, rfl⟩ := h
    exact htoken
  · simp [rejectAt] at h

/-! ### Children -/

/-- Raw text before a token of the text is raw text of the longer text. -/
lemma textAfter_cursor {kind : TokenKind} (h : c.nextChild = .ok kind c') :
    textAfter (E.cursor c) = Node.shiftAll E.front (textAfter c) := by
  have hrest : c.skipRaw.rest ≠ [] := rest_ne_nil_of_next h
  have hgrows : ¬ c.AtGrowingEnd := fun hgrows =>
    hrest (by simp [Cursor.skipRaw, hgrows.2])
  have hraw : (E.cursor c).raw = c.raw := by
    rw [cursor_of_not_growing hgrows]
    exact (raw_append hrest E.more).1
  unfold textAfter
  rw [hraw, cursor_stop (.inl hgrows)]
  cases c.raw with
  | nil => rfl
  | cons x run => simp [Node.shiftAll, Node.shift, Span.shift, Nat.add_right_comm]

lemma simulates_childrenAfter (h : E.Simulates (Node.shift E.front) nested nested')
    (hsteps : steps ≤ steps')
    (hloop : E.Simulates (Node.shiftAll E.front) (children nested steps k)
      (children nested' steps' k')) (text : List Node) (kind : TokenKind) :
    E.Simulates (Node.shiftAll E.front) (childrenAfter nested steps k text kind)
      (childrenAfter nested' steps' k' (Node.shiftAll E.front text) kind) := by
  have hchild {construct construct' : Production Node}
      (hconstruct : E.Simulates (Node.shift E.front) construct construct') :
      E.Simulates (Node.shiftAll E.front)
        (do let node ← construct
            let nodes ← children nested steps k
            return text ++ node :: nodes)
        (do let node ← construct'
            let nodes ← children nested' steps' k'
            return Node.shiftAll E.front text ++ node :: nodes) :=
    hconstruct.bind fun node => hloop.bind fun nodes =>
      simulates_pure (Node.shiftAll_append text (node :: nodes)).symm
  unfold childrenAfter
  split
  · exact simulates_pure rfl
  · exact simulates_pure rfl
  · exact hchild h
  · exact hchild h
  · exact hchild (simulates_expression h hsteps)
  · exact hloop.bind fun nodes => simulates_pure (Node.shiftAll_append text nodes).symm

lemma simulates_children (h : E.Simulates (Node.shift E.front) nested nested')
    (hsteps : steps ≤ steps') (hk : k ≤ k') :
    E.Simulates (Node.shiftAll E.front) (children nested steps k)
      (children nested' steps' k') := by
  induction k generalizing k' with
  | zero => exact simulates_exhaust _
  | succ k ih =>
    obtain ⟨k', rfl⟩ := exists_succ hk
    have hloop := ih (Nat.le_of_succ_le_succ hk)
    intro c hc
    rw [children_eq_bind, children_eq_bind]
    refine (simulates_advanceChild hc).bind fun kind c₁ hnext hc₁ => ?_
    rw [textAfter_cursor (advanceChild_eq_ok.1 hnext)]
    exact simulates_childrenAfter h hsteps hloop _ kind hc₁

/-! ### Elements and fragments -/

lemma simulates_element (h : E.Simulates (Node.shift E.front) nested nested')
    (hsteps : steps ≤ steps') :
    E.Simulates (Node.shift E.front) (element nested steps) (element nested' steps') := by
  intro c hc
  -- the offset of the `<` is remembered
  refine (simulates_openingTag h hsteps hc).bind fun tag c₁ htag hc₁ => ?_
  rw [cursor_start]
  cases hself : tag.selfClosing with
  | true =>
    simp only [Tag.shift, hself, if_true]
    refine Carried.ok_of_eq hc₁ ?_
    rw [cursor_stop (.inl (openingTag_not_atGrowingEnd htag))]
    rfl
  | false =>
    simp only [Tag.shift, hself, Bool.false_eq_true, if_false]
    refine (simulates_children h hsteps hsteps hc₁).bind fun nodes c₂ _ hc₂ => ?_
    refine (simulates_closing hsteps tag.name hc₂).bind fun _ c₃ hclosing hc₃ => ?_
    refine Carried.ok_of_eq hc₃ ?_
    rw [cursor_stop (.inl (not_atGrowingEnd (closing_token hclosing) (by simp)))]
    rfl

lemma simulates_fragment (h : E.Simulates (Node.shift E.front) nested nested')
    (hsteps : steps ≤ steps') :
    E.Simulates (Node.shift E.front) (fragment nested steps) (fragment nested' steps') :=
  (simulates_expect (by simp)).bind fun _ => (simulates_children h hsteps hsteps).bind fun _ =>
    (simulates_expect (by simp)).bind fun _ => simulates_pure rfl

/-- **Markup in a longer text.**  What is read as markup in the text is read so in the longer text,
and what is refused there, and not because the text ends, is refused in the longer text. -/
theorem simulates_markup (hsteps : steps ≤ steps') (levels : ℕ) :
    E.Simulates (Node.shift E.front) (markup steps levels) (markup steps' levels) := by
  induction levels with
  | zero => exact simulates_reject _
  | succ levels ih =>
    refine (simulates_sees _).bind_id fun found => ?_
    split
    · exact simulates_fragment ih hsteps
    · exact simulates_element ih hsteps

end EmbeddedJsx.Embedding
