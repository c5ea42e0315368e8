import EmbeddedJsx.Proofs.Naming.Canonical
import EmbeddedJsx.Proofs.Runs.Sessions

/-!
# Names that are told apart

The names that are read from a text agree just if they are written alike, and what a name is written
as is read back as a name that agrees with it.  Where a closing tag is refused because of its name,
the two names that the failure shows are therefore different.

That is a property of all productions which sequences keep (`Production.Distinguishes`).  Only for
the closing tag it takes an argument: both names have been read, so that they are proper ones.  The
main statement is `Session.names_canonical`.
-/

namespace EmbeddedJsx

open Grammar

/-- If the fault is that two names differ, then it shows two different ones. -/
def Fault.Distinct (fault : Fault) : Prop :=
  ∀ closing opening, fault = .mismatch closing opening → closing ≠ opening

namespace Production

variable {α β : Type} {c c' : Cursor} {nested : Production Node} {steps : ℕ} {name : Name}
  {first : Production α} {next : α → Production β} {kind : TokenKind} {what : Expectation}

/-- Where the production fails because two names differ, it shows two different ones. -/
def Distinguishes (production : Production α) : Prop :=
  ∀ ⦃c error c'⦄, production c = .error (.fault error) c' → error.fault.Distinct

/-! ### Single steps and sequences -/

/-- The second of two productions need show different names only after what the first answers. -/
lemma Distinguishes.bind_of_ok (h : Distinguishes first)
    (h' : ∀ ⦃c a c'⦄, first c = .ok a c' → Distinguishes (next a)) :
    Distinguishes (first >>= next) := by
  intro c error c' herror
  rcases bind_eq_error.1 herror with hfirst | ⟨a, c₁, hfirst, hnext⟩
  · exact h hfirst
  · exact h' hfirst hnext

lemma Distinguishes.bind (h : Distinguishes first) (h' : ∀ a, Distinguishes (next a)) :
    Distinguishes (first >>= next) :=
  h.bind_of_ok fun _ a _ _ => h' a

lemma distinguishes_of_ok {production : Production α}
    (h : ∀ c, ∃ a c', production c = .ok a c') : Distinguishes production := by
  intro c error c' herror
  obtain ⟨a, c₁, hok⟩ := h c
  rw [hok] at herror
  cases herror

lemma distinguishes_pure (a : α) : Distinguishes (pure a : Production α) :=
  distinguishes_of_ok fun c => ⟨a, c, rfl⟩

lemma distinguishes_get : Distinguishes (get : Production Cursor) :=
  distinguishes_of_ok fun c => ⟨c, c, rfl⟩

lemma distinguishes_current : Distinguishes current := distinguishes_of_ok fun c => ⟨_, c, rfl⟩

lemma distinguishes_sees (kind : TokenKind) : Distinguishes (sees kind) :=
  distinguishes_of_ok fun c => ⟨_, c, rfl⟩

lemma distinguishes_exhaust : Distinguishes (exhaust : Production α) := by
  intro c error c' herror
  cases herror

lemma distinguishes_rejectAt {fault : Fault} (h : fault.Distinct) (span : Span) :
    Distinguishes (rejectAt fault span : Production α) := by
  intro c error c' herror
  cases herror
  exact h

lemma distinguishes_reject {fault : Fault} (h : fault.Distinct) :
    Distinguishes (reject fault : Production α) := by
  intro c error c' herror
  cases herror
  exact h

lemma distinguishes_expect : Distinguishes (expect kind what) := by
  intro c error c' herror
  unfold expect at herror
  split at herror
  · cases herror
  · cases herror
    simp [Fault.Distinct]

/-- A call on a cursor knows of no names. -/
lemma distinct_of_perform {call : Cursor.Call} {error : SyntaxError}
    (h : call.perform c = .error error c') : error.fault.Distinct := by
  intro closing opening hfault
  rcases Cursor.fault_cases_of_perform h with h | h | h | ⟨cause, h⟩ <;> simp [hfault] at h

lemma distinguishes_ofStep {construct : Fault} (call : Cursor.Call) (h : construct.Distinct) :
    Distinguishes (ofStep construct call.perform) := by
  intro c error c' herror
  unfold ofStep at herror
  split at herror
  · cases herror
  · next hcall =>
    cases herror
    unfold SyntaxError.inside
    split
    · exact h
    · exact distinct_of_perform hcall

lemma distinguishes_advance : Distinguishes advance :=
  (distinguishes_ofStep .next (by simp [Fault.Distinct])).bind fun _ => distinguishes_pure ()

lemma distinguishes_advanceChild : Distinguishes advanceChild :=
  distinguishes_ofStep .nextChild (by simp [Fault.Distinct])

lemma distinguishes_take : Distinguishes (take kind what) :=
  distinguishes_expect.bind fun e => distinguishes_advance.bind fun _ => distinguishes_pure e

/-! ### Names -/

lemma distinguishes_memberParts (steps : ℕ) : Distinguishes (memberParts steps) := by
  induction steps with
  | zero => exact distinguishes_exhaust
  | succ steps ih =>
    refine (distinguishes_sees _).bind fun found => ?_
    split
    · exact distinguishes_advance.bind fun _ => distinguishes_take.bind fun part =>
        ih.bind fun parts => distinguishes_pure _
    · exact distinguishes_pure _

lemma distinguishes_elementName : Distinguishes (elementName steps) := by
  refine distinguishes_take.bind fun first => distinguishes_current.bind fun token => ?_
  split
  · refine distinguishes_advance.bind fun _ => distinguishes_take.bind fun second => ?_
    refine (distinguishes_memberParts steps).bind fun more =>
      (distinguishes_sees _).bind fun found => ?_
    split
    · exact distinguishes_reject nofun
    · exact distinguishes_pure _
  · refine distinguishes_advance.bind fun _ => distinguishes_take.bind fun second => ?_
    refine distinguishes_current.bind fun token => ?_
    split
    · exact distinguishes_reject nofun
    · exact distinguishes_reject nofun
    · exact distinguishes_pure _
  · exact distinguishes_pure _

lemma distinguishes_attributeName : Distinguishes attributeName := by
  refine distinguishes_take.bind fun first => (distinguishes_sees _).bind fun found => ?_
  split
  · exact distinguishes_advance.bind fun _ => distinguishes_take.bind fun second =>
      distinguishes_pure _
  · exact distinguishes_pure _

lemma distinguishes_closingTag : Distinguishes (closingTag steps) :=
  distinguishes_take.bind fun _ => distinguishes_elementName.bind fun name =>
    distinguishes_expect.bind fun _ => distinguishes_pure name

/-- The name in an opening tag has been read behind a token. -/
lemma proper_of_openingTag {tag : Tag} (h : openingTag nested steps c = .ok tag c') :
    tag.name.Proper := by
  simp only [openingTag, bind_eq_ok, current_apply, EStateM.Result.ok.injEq] at h
  obtain ⟨_, c₁, htake, name, c₂, hname, nodes, c₃, hnodes, _, _, ⟨rfl, rfl⟩, h⟩ := h
  obtain ⟨q, hname, -⟩ := elementName_sound (advance_follows (take_eq_ok.1 htake).2.2) hname
  generalize c₃.token = token at h
  split at h
  · cases h
    exact hname.proper
  · cases h
    exact hname.proper
  · cases h

lemma proper_of_closingTag (h : closingTag steps c = .ok name c') : name.Proper := by
  simp only [closingTag, bind_eq_ok, expect_eq_ok, pure_apply, EStateM.Result.ok.injEq] at h
  obtain ⟨_, c₁, htake, _, c₂, hname, _, _, ⟨-, rfl, rfl⟩, rfl, rfl⟩ := h
  obtain ⟨q, hname, -⟩ := elementName_sound (advance_follows (take_eq_ok.1 htake).2.2) hname
  exact hname.proper

/-- Names that do not agree are written differently. -/
lemma distinguishes_closing (h : name.Proper) : Distinguishes (closing steps name) := by
  refine (distinguishes_sees _).bind fun found => ?_
  split
  · exact distinguishes_reject nofun
  · refine distinguishes_closingTag.bind_of_ok fun c found c' hok => ?_
    split
    · exact distinguishes_pure ()
    · next hagrees =>
      refine distinguishes_rejectAt (fun closing opening hfault htext => hagrees ?_) _
      obtain ⟨rfl, rfl⟩ := Fault.mismatch.inj hfault
      exact Name.agrees_iff_matches.2 (((proper_of_closingTag hok).text_eq_iff h).1 htext)

/-! ### Expressions and attributes -/

lemma distinguishes_expressionMarkup (h : Distinguishes nested) (k depth : ℕ) :
    Distinguishes (expressionMarkup nested k depth) := by
  induction k generalizing depth with
  | zero => exact distinguishes_exhaust
  | succ k ih =>
    refine distinguishes_advance.bind fun _ => distinguishes_current.bind fun token => ?_
    have hmarkup : Distinguishes (do
        let node ← nested
        let nodes ← expressionMarkup nested k depth
        return node :: nodes) :=
      h.bind fun node => (ih depth).bind fun nodes => distinguishes_pure _
    split
    · exact ih (depth + 1)
    · split
      · exact distinguishes_pure _
      · exact ih _
    · exact hmarkup
    · exact hmarkup
    · exact ih depth

lemma distinguishes_expression (h : Distinguishes nested) :
    Distinguishes (expression nested steps) :=
  distinguishes_expect.bind fun _ => distinguishes_get.bind fun _ =>
    (distinguishes_expressionMarkup h steps 0).bind fun _ =>
      distinguishes_get.bind fun _ => distinguishes_pure _

lemma distinguishes_assigned (h : Distinguishes nested) :
    Distinguishes (assigned nested steps) := by
  refine distinguishes_current.bind fun token => ?_
  split
  · exact distinguishes_expect.bind fun literal => distinguishes_pure _
  · exact distinguishes_expression h
  · exact h
  · exact h
  · exact distinguishes_reject nofun

lemma distinguishes_attributeValue (h : Distinguishes nested) :
    Distinguishes (attributeValue nested steps) := by
  refine (distinguishes_sees _).bind fun found => ?_
  split
  · exact distinguishes_advance.bind fun _ => (distinguishes_assigned h).bind fun value =>
      distinguishes_advance.bind fun _ => distinguishes_pure _
  · exact distinguishes_pure _

lemma distinguishes_spread : Distinguishes spread :=
  distinguishes_take.bind fun _ => distinguishes_take.bind fun _ =>
    distinguishes_take.bind fun _ => distinguishes_take.bind fun _ => distinguishes_pure _

lemma distinguishes_oneAttribute (h : Distinguishes nested) :
    Distinguishes (oneAttribute nested steps) := by
  refine distinguishes_current.bind fun token => ?_
  split
  · exact distinguishes_spread.bind fun _ => distinguishes_pure _
  · refine Distinguishes.bind ?_ fun _ => distinguishes_pure _
    refine distinguishes_attributeName.bind fun name =>
      (distinguishes_attributeValue h).bind fun value => ?_
    split <;> exact distinguishes_pure _
  · exact distinguishes_pure _

lemma distinguishes_attributes (h : Distinguishes nested) (k : ℕ) :
    Distinguishes (attributes nested steps k) := by
  induction k with
  | zero => exact distinguishes_exhaust
  | succ k ih =>
    refine (distinguishes_oneAttribute h).bind fun found => ?_
    split
    · exact distinguishes_pure _
    · exact ih.bind fun nodes => distinguishes_pure _

/-! ### Elements and fragments -/

lemma distinguishes_openingTag (h : Distinguishes nested) :
    Distinguishes (openingTag nested steps) := by
  refine distinguishes_take.bind fun _ => distinguishes_elementName.bind fun name => ?_
  refine (distinguishes_attributes h steps).bind fun nodes => ?_
  refine distinguishes_current.bind fun token => ?_
  split
  · exact distinguishes_pure _
  · exact distinguishes_pure _
  · exact distinguishes_reject nofun

lemma distinguishes_children (h : Distinguishes nested) (k : ℕ) :
    Distinguishes (children nested steps k) := by
  induction k with
  | zero => exact distinguishes_exhaust
  | succ k ih =>
    refine distinguishes_get.bind fun c => distinguishes_advanceChild.bind fun kind => ?_
    have hchild {construct : Production Node} (hconstruct : Distinguishes construct) :
        Distinguishes (do
          let node ← construct
          let nodes ← children nested steps k
          return textAfter c ++ node :: nodes) :=
      hconstruct.bind fun node => ih.bind fun nodes => distinguishes_pure _
    split
    · exact distinguishes_pure _
    · exact distinguishes_pure _
    · exact hchild h
    · exact hchild h
    · exact hchild (distinguishes_expression h)
    · exact ih.bind fun nodes => distinguishes_pure _

lemma distinguishes_element (h : Distinguishes nested) : Distinguishes (element nested steps) := by
  refine distinguishes_get.bind fun start =>
    (distinguishes_openingTag h).bind_of_ok fun c tag c' hok => ?_
  split
  · exact distinguishes_get.bind fun c => distinguishes_pure _
  · exact (distinguishes_children h steps).bind fun nodes =>
      (distinguishes_closing (proper_of_openingTag hok)).bind fun _ =>
        distinguishes_get.bind fun c => distinguishes_pure _

lemma distinguishes_fragment (h : Distinguishes nested) :
    Distinguishes (fragment nested steps) :=
  distinguishes_expect.bind fun _ => (distinguishes_children h steps).bind fun _ =>
    distinguishes_expect.bind fun _ => distinguishes_pure _

lemma distinguishes_markup (steps levels : ℕ) : Distinguishes (markup steps levels) := by
  induction levels with
  | zero => exact distinguishes_reject nofun
  | succ levels ih =>
    refine (distinguishes_sees _).bind fun found => ?_
    split
    · exact distinguishes_fragment ih
    · exact distinguishes_element ih

lemma distinguishes_rule (construct : Construct) (h : Distinguishes nested) :
    Distinguishes (construct.rule nested steps) := by
  cases construct with
  | elementName => exact distinguishes_elementName
  | attributeName => exact distinguishes_attributeName
  | attributeValue => exact distinguishes_attributeValue h
  | oneAttribute => exact distinguishes_oneAttribute h
  | openingTag => exact distinguishes_openingTag h
  | closingTag => exact distinguishes_closingTag
  | element => exact distinguishes_element h
  | children => exact distinguishes_children h steps
  | fragment => exact distinguishes_fragment h
  | expression => exact distinguishes_expression h

end Production

namespace Session

open Production

variable {s s' : Session} {error : SyntaxError} {levels steps k : ℕ} {name : Name}
  {interruption : Interruption} {text : List Char}

/-! ### Failures of calls -/

/-- That steps are used up is not about names. -/
lemma distinct_failure (c : Cursor)
    (h : ∀ error, interruption = .fault error → error.fault.Distinct) :
    (c.failure interruption).fault.Distinct := by
  cases interruption with
  | fault error => exact h error rfl
  | exhausted => exact nofun

lemma distinct_of_collect {markup : Production Node} (h : Distinguishes markup)
    (herror : s.collect markup k = .error (.fault error) s') : error.fault.Distinct := by
  induction k generalizing s with
  | zero => cases herror
  | succ k ih =>
    rw [collect] at herror
    split at herror
    · next error' c hnext =>
      have hcall : Cursor.Call.next.perform s.cursor = .error error' c := hnext
      split at herror
      · cases herror
      · cases herror
        exact distinct_of_perform hcall
    · split at herror
      · split at herror
        · exact ih herror
        · next hmarkup =>
          cases herror
          exact h hmarkup
      · exact ih herror

/-- The names shown by any failure of a call are different. -/
lemma distinct_of_call {call : Call} (herror : call.perform levels s = .error error s') :
    error.fault.Distinct := by
  cases call with
  | token cursorCall =>
    simp only [Call.perform, goOn] at herror
    split at herror
    · cases herror
    · next hcall =>
      cases herror
      exact distinct_of_perform hcall
  | parse =>
    simp only [Call.perform, Session.parse] at herror
    split at herror
    · cases herror
    · next hcollect =>
      cases herror
      refine distinct_failure _ fun error hfault => ?_
      exact distinct_of_collect (distinguishes_markup _ _) (hfault ▸ hcollect)
  | read construct =>
    simp only [Call.perform, Session.read, Cursor.read] at herror
    split at herror
    · cases herror
    · next hread =>
      cases herror
      split at hread
      · cases hread
      · next hrule =>
        cases hread
        refine distinct_failure _ fun error hfault => ?_
        exact distinguishes_rule construct (distinguishes_markup _ _) (hfault ▸ hrule)

/-! ### Names that are read -/

/-- The name of an element is asked for, and it is the given one. -/
def ReadsName (levels : ℕ) (s : Session) (name : Name) : Prop :=
  ∃ s', (Call.read .elementName).perform levels s = .ok name s'

lemma readsName_iff :
    s.ReadsName levels name ↔ ∃ c, elementName s.cursor.steps s.cursor = .ok name c := by
  simp only [ReadsName, Call.perform, Session.read, Cursor.read, Construct.rule]
  constructor
  · rintro ⟨s', h⟩
    cases hname : elementName s.cursor.steps s.cursor with
    | ok name' c =>
      rw [hname] at h
      cases h
      exact ⟨c, rfl⟩
    | error interruption c =>
      rw [hname] at h
      cases h
  · rintro ⟨c, h⟩
    rw [h]
    exact ⟨_, rfl⟩

/-- Whatever has been called before, only proper names are read. -/
lemma Settled.proper_of_readsName (hs : s.Settled text) (h : s.ReadsName levels name) :
    name.Proper := by
  obtain ⟨c, hname⟩ := readsName_iff.1 h
  have hstands : s.cursor.Stands := hs.cursor.stands_of_take (by simp) hname
  obtain ⟨q, hname, -⟩ := elementName_sound hstands.follows hname
  exact hname.proper

/-- What a name is written as is read, in front of a `>`, as a name that matches. -/
lemma exists_readsName (h : name.Proper) (levels : ℕ) :
    ∃ name', ((ofText (name.text ++ ">")).run levels [.token .next]).ReadsName levels name' ∧
      name'.Matches name := by
  have hrest : (Place.ofText (name.text ++ ">").toList).rest = name.text.toList ++ ['>'] := by
    simp [Place.ofText]
  obtain ⟨name', q, hname, hmatches, hq⟩ := h.exists_elementName hrest
  obtain ⟨c, hafter, hc⟩ := elementName_first hname
  have hclose : q.rest = ['>'] ++ [] := hq
  obtain ⟨close, r, hnext, -⟩ := Place.exists_next_of_lexeme hclose .tagClose
  obtain ⟨c', hafter', hc'⟩ := Cursor.exists_follows hnext
  have hfirst : (Cursor.ofText (name.text ++ ">").toList).next = .ok .identifier c :=
    Cursor.next_eq_ok_iff.2 ⟨by simp, hafter⟩
  have hrun : ((ofText (name.text ++ ">")).run levels [.token .next]).cursor = c := by
    simp only [run, List.foldl_cons, List.foldl_nil, Call.perform, goOn, Cursor.Call.perform,
      ofText, hfirst]
    rfl
  refine ⟨name', readsName_iff.2 ⟨c', ?_⟩, hmatches⟩
  rw [hrun]
  exact elementName_complete hname hc hc' (by simp [hafter'.2.token_eq])
    (by simp [hafter'.2.token_eq]) (Nat.lt_succ_self _)

/-- **Names as keys.**  Whatever calls have been made, a name that is read agrees with another one
that is read from the same text just if the two are written alike, and what it is written as is
read back as a name that matches it.  And where a call fails because two names differ, the failure
shows two different ones. -/
theorem names_canonical (text : String) (levels : ℕ) (calls : List Call) :
    (∀ opening, ((ofText text).run levels calls).ReadsName levels opening →
      (∀ calls' closing, ((ofText text).run levels calls').ReadsName levels closing →
        (opening.agrees closing = true ↔ opening.text = closing.text)) ∧
      ∃ name, ((ofText (opening.text ++ ">")).run levels [.token .next]).ReadsName levels name ∧
        name.Matches opening) ∧
    ∀ call error s', Call.perform levels call ((ofText text).run levels calls) = .error error s' →
      error.fault.Distinct := by
  have hproper {calls : List Call} {name : Name}
      (h : ((ofText text).run levels calls).ReadsName levels name) : name.Proper :=
    ((settled_ofText text).run calls).proper_of_readsName h
  refine ⟨fun opening hopening => ⟨fun calls' closing hclosing => ?_, ?_⟩, fun _ _ _ => ?_⟩
  · rw [(hproper hopening).text_eq_iff (hproper hclosing)]
    exact Name.agrees_iff_matches
  · exact exists_readsName (hproper hopening) levels
  · exact distinct_of_call

set_option maxRecDepth 1000 in
/-- A name with a colon and the same name with spaces around it, and two tags that do not match. -/
theorem names_canonical_spaced :
    (∃ opening closing,
      ((ofText "<x:y></x : y>").run 1 [.token .next, .token .next]).ReadsName 1 opening ∧
      ((ofText "<x:y></x : y>").run 1 [.token .next, .token .next, .read .elementName,
        .token .next, .token .next]).ReadsName 1 closing ∧
      opening.span = ⟨1, 4⟩ ∧ closing.span = ⟨7, 12⟩ ∧
      opening.text = "x:y" ∧ closing.text = "x:y" ∧ opening.agrees closing = true ∧
      ∃ name, ((ofText "x:y>").run 1 [.token .next]).ReadsName 1 name ∧ name.Matches opening) ∧
    ∃ s', Call.parse.perform 1 (ofText "<a></b>") = .error ⟨.mismatch "b" "a", ⟨5, 6⟩⟩ s' ∧
      "b" ≠ "a" := by
  constructor
  · have hopening : ((ofText "<x:y></x : y>").run 1 [.token .next, .token .next]).ReadsName 1
        (.namespaced ⟨⟨1, 2⟩, "x"⟩ ⟨⟨3, 4⟩, "y"⟩) := readsName_iff.2 ⟨_, by cbv⟩
    have hclosing : ((ofText "<x:y></x : y>").run 1 [.token .next, .token .next,
        .read .elementName, .token .next, .token .next]).ReadsName 1
        (.namespaced ⟨⟨7, 8⟩, "x"⟩ ⟨⟨11, 12⟩, "y"⟩) := readsName_iff.2 ⟨_, by cbv⟩
    obtain ⟨hagrees, hback⟩ := (names_canonical "<x:y></x : y>" 1 _).1 _ hopening
    exact ⟨_, _, hopening, hclosing, rfl, rfl, rfl, rfl, (hagrees _ _ hclosing).2 rfl, hback⟩
  · obtain ⟨s', hparse⟩ : ∃ s', Call.parse.perform 1 (ofText "<a></b>") =
        .error ⟨.mismatch "b" "a", ⟨5, 6⟩⟩ s' := ⟨_, by cbv⟩
    exact ⟨s', hparse, (names_canonical "<a></b>" 1 []).2 .parse _ _ hparse _ _ rfl⟩

end Session

end EmbeddedJsx
