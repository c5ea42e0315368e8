import EmbeddedJsx.Proofs.Reading.Order

/-!
# There is one way to read a text

How a text is read on after a token is a matter of all the tokens before it, but only as far as they
tell what is open there: tags, braces, and the children of elements and fragments.  What is open is
a stack, and a token changes no more than the top of it (`Opened.after`).  Raw text is passed over
right inside an element or a fragment, and nowhere else (`Opened.way`).

The visits that spell a phrase lead from a stack back to it, and each of them is made in the way
that is called for (`Grammar.Spells.runs`).  In a given way only one visit can be made at a place
(`Place.Makes.unique`).  So a text is read by one sequence of visits only: that is
`Program.ReadBy.unique`, and `existsUnique_readBy` for what is parsed.
-/

namespace EmbeddedJsx

/-- Something that is open at a place, as far as it matters for how the text is read on. -/
inductive Opened where
  /-- An opening or self-closing tag. -/
  | tag
  /-- A closing tag. -/
  | closing
  /-- An element or a fragment, after its opening tag. -/
  | children
  /-- An expression, a spread attribute, or braces in an expression. -/
  | braces

namespace Opened

/-- What is open after a token, if so much is open before it.  The innermost comes first. -/
def after (opened : List Opened) : TokenKind → List Opened
  | .tagOpen => tag :: opened
  | .fragmentOpen => children :: opened
  | .braceOpen => match opened with
    | [] => []
    | _ :: _ => braces :: opened
  | .braceClose => match opened with
    | braces :: outer => outer
    | _ => opened
  | .selfClose => match opened with
    | tag :: outer => outer
    | _ => opened
  | .tagClose => match opened with
    | tag :: outer => children :: outer
    | closing :: outer => outer
    | _ => opened
  | .closingOpen => match opened with
    | children :: outer => closing :: outer
    | _ => opened
  | .fragmentClose => match opened with
    | children :: outer => outer
    | _ => opened
  | _ => opened

/-- How a text is read on where so much is open. -/
def way : List Opened → Cursor.Call
  | children :: _ => .nextChild
  | _ => .next

end Opened

namespace Visit

/-- The way in which a visit is made. -/
def way : Visit → Cursor.Call
  | token call _ _ _ => call
  | raw _ => .nextChild
  | finish _ => .next

/-- What is open after a visit. -/
def after (opened : List Opened) : Visit → List Opened
  | token _ _ kind _ => Opened.after opened kind
  | _ => opened

end Visit

/-- The visits lead from what is open to what is open after them, and each is made in the way that
is called for. -/
inductive Opened.Runs : List Opened → List Visit → List Opened → Prop where
  | nil (opened : List Opened) : Runs opened [] opened
  | cons {opened closed : List Opened} {v : Visit} {visits : List Visit} :
      v.way = way opened → Runs (v.after opened) visits closed → Runs opened (v :: visits) closed

variable {opened closed opened' closed' : List Opened} {visits visits' : List Visit}

lemma Opened.Runs.append (h : Runs opened visits closed) (h' : Runs closed visits' closed') :
    Runs opened (visits ++ visits') closed' := by
  induction h with
  | nil opened => exact h'
  | cons hway _ ih => exact .cons hway (ih h')

/-! ### What is open while a phrase is read -/

namespace Grammar

open Opened

variable {text : List Char} {name : Name} {parts : List Excerpt} {call : Cursor.Call}
  {phrase : Phrase} {nodes : List Node}

/-- Where so much is open, the phrase can be read by a call. -/
def Phrase.ReadIn (opened : List Opened) : Phrase → Cursor.Call → Prop
  | .markup _, call => call = way opened
  | .expression _, call => call = way opened ∧ opened ≠ []
  | .body _, _ => ∃ outer, opened = braces :: outer
  | .value _, _ | .attribute _, _ | .attributes _, _ => ∃ outer, opened = tag :: outer
  | .child _, _ | .children _, _ => ∃ outer, opened = .children :: outer

lemma SpellsMembers.runs (h : SpellsMembers text parts visits) (hway : .next = way opened) :
    Runs opened visits opened := by
  induction h with
  | nil => exact .nil _
  | cons _ _ ih => exact .cons hway (.cons hway ih)

lemma SpellsAttributeName.runs (h : SpellsAttributeName text name visits)
    (hway : .next = way opened) : Runs opened visits opened := by
  cases h with
  | plain _ => exact .cons hway (.nil _)
  | namespaced _ _ => exact .cons hway (.cons hway (.cons hway (.nil _)))

lemma SpellsElementName.runs (h : SpellsElementName text name visits)
    (hway : .next = way opened) : Runs opened visits opened := by
  cases h with
  | simple h => exact h.runs hway
  | member _ _ hmore => exact .cons hway (.cons hway (.cons hway (hmore.runs hway)))

/-- **What is open.**  After a phrase the same is open as before it. -/
lemma Spells.runs (h : Spells text call phrase visits) (hopened : phrase.ReadIn opened call) :
    Runs opened visits opened := by
  induction h generalizing opened with
  | selfClosed hname _ ih =>
    have hvs : Runs (tag :: opened) _ (tag :: opened) := ih ⟨_, rfl⟩
    exact .cons hopened ((hname.runs rfl).append (hvs.append (.cons rfl (.nil _))))
  | element hname _ _ hname' _ ih ih' =>
    have hvs : Runs (tag :: opened) _ (tag :: opened) := ih ⟨_, rfl⟩
    have hws : Runs (.children :: opened) _ (.children :: opened) := ih' ⟨_, rfl⟩
    have hus' : Runs (closing :: opened) _ (closing :: opened) := hname'.runs rfl
    exact .cons hopened ((hname.runs rfl).append (hvs.append (.cons rfl (hws.append
      (.cons rfl (hus'.append (.cons rfl (.nil _))))))))
  | fragment _ ih =>
    have hvs : Runs (.children :: opened) _ (.children :: opened) := ih ⟨_, rfl⟩
    exact .cons hopened (hvs.append (.cons rfl (.nil _)))
  | expression _ ih =>
    obtain ⟨hway, hne⟩ := hopened
    obtain ⟨innermost, outer, rfl⟩ := List.exists_cons_of_ne_nil hne
    have hvs : Runs (braces :: innermost :: outer) _ (braces :: innermost :: outer) :=
      ih ⟨_, rfl⟩
    exact .cons hway (hvs.append (.cons rfl (.nil _)))
  | bodyNil => exact .nil _
  | @bodyToken _ kind _ _ _ htag hfragment hopen hclose _ ih =>
    obtain ⟨outer, rfl⟩ := hopened
    have hafter : after (braces :: outer) kind = braces :: outer := by
      cases kind <;> first | rfl | contradiction
    refine .cons rfl ?_
    rw [Visit.after, hafter]
    exact ih ⟨_, rfl⟩
  | bodyMarkup _ _ ih ih' =>
    obtain ⟨outer, rfl⟩ := hopened
    have hus : Runs (braces :: outer) _ (braces :: outer) := ih rfl
    exact hus.append (ih' ⟨_, rfl⟩)
  | bodyBraces _ _ ih ih' =>
    obtain ⟨outer, rfl⟩ := hopened
    have hus : Runs (braces :: braces :: outer) _ (braces :: braces :: outer) := ih ⟨_, rfl⟩
    exact .cons rfl (hus.append (.cons rfl (ih' ⟨_, rfl⟩)))
  | valueString _ =>
    obtain ⟨outer, rfl⟩ := hopened
    exact .cons rfl (.nil _)
  | valueExpression _ ih =>
    obtain ⟨outer, rfl⟩ := hopened
    exact ih ⟨rfl, List.cons_ne_nil _ _⟩
  | valueMarkup _ ih =>
    obtain ⟨outer, rfl⟩ := hopened
    exact ih rfl
  | spread _ =>
    obtain ⟨outer, rfl⟩ := hopened
    exact .cons rfl (.cons rfl (.cons rfl (.cons rfl (.nil _))))
  | bareAttribute hname =>
    obtain ⟨outer, rfl⟩ := hopened
    exact hname.runs rfl
  | setAttribute hname _ ih =>
    obtain ⟨outer, rfl⟩ := hopened
    exact (hname.runs rfl).append (.cons rfl (ih ⟨_, rfl⟩))
  | attributesNil => exact .nil _
  | attributesCons _ _ ih ih' => exact (ih hopened).append (ih' hopened)
  | childText _ =>
    obtain ⟨outer, rfl⟩ := hopened
    exact .cons rfl (.nil _)
  | childMarkup _ ih =>
    obtain ⟨outer, rfl⟩ := hopened
    exact ih rfl
  | childExpression _ ih =>
    obtain ⟨outer, rfl⟩ := hopened
    exact ih ⟨rfl, List.cons_ne_nil _ _⟩
  | childrenNil => exact .nil _
  | childrenCons _ _ ih ih' => exact (ih hopened).append (ih' hopened)

lemma SpellsProgram.runs (h : SpellsProgram text nodes visits) : Runs [] visits [] := by
  induction h with
  | nil => exact .cons rfl (.nil _)
  | @token _ kind _ _ _ htag hfragment _ ih =>
    have hafter : after [] kind = [] := by
      cases kind <;> first | rfl | contradiction
    refine .cons rfl ?_
    rwa [Visit.after, hafter]
  | markup hnode _ ih =>
    have hus : Runs [] _ [] := hnode.runs rfl
    exact hus.append ih

/-- The last visit to a text finds the end of the input. -/
lemma SpellsProgram.exists_finish (h : SpellsProgram text nodes visits) :
    ∃ left o, visits = left ++ [.finish o] := by
  induction h with
  | nil => exact ⟨[], _, rfl⟩
  | token _ _ _ ih =>
    obtain ⟨left, o, rfl⟩ := ih
    exact ⟨_ :: left, o, rfl⟩
  | markup _ _ ih =>
    obtain ⟨left, o, rfl⟩ := ih
    exact ⟨_ ++ left, o, (List.append_assoc _ _ _).symm⟩

end Grammar

/-! ### One visit at a place -/

variable {p a a' q q' : Place} {v v' : Visit} {text : List Char} {program program' : Program}


/-- In a given way only one visit can be made at a place. -/
lemma Place.Makes.unique (h : p.Makes v a) (h' : p.Makes v' a') (hway : v.way = v'.way) :
    v = v' ∧ a = a' := by
  cases h with
  | next hnext =>
    cases h' with
    | next hnext' =>
      obtain ⟨rfl, rfl, rfl⟩ := hnext.unique hnext'
      exact ⟨rfl, rfl⟩
    | finish hends => exact absurd hends hnext.not_ends
    | nextChild _ _ | raw _ _ _ _ => simp [Visit.way] at hway
  | nextChild hnot hread =>
    cases h' with
    | nextChild _ hread' =>
      obtain ⟨rfl, rfl, rfl⟩ := hread.next.unique hread'.next
      exact ⟨rfl, rfl⟩
    | raw hpass hne hraw _ => exact absurd hraw (hnot.not_passes hpass hne)
    | next _ | finish _ => simp [Visit.way] at hway
  | raw hpass hne hraw hend =>
    cases h' with
    | raw hpass' _ hraw' hend' =>
      obtain ⟨-, rfl⟩ := (Cursor.upTo p).raw_of_passes hpass hraw hend
      obtain ⟨-, rfl⟩ := (Cursor.upTo p).raw_of_passes hpass' hraw' hend'
      exact ⟨rfl, rfl⟩
    | nextChild hnot _ => exact absurd hraw (hnot.not_passes hpass hne)
    | next _ | finish _ => simp [Visit.way] at hway
  | finish hends =>
    cases h' with
    | finish _ => exact ⟨rfl, rfl⟩
    | next hnext => exact absurd hends hnext.not_ends
    | nextChild _ _ | raw _ _ _ _ => simp [Visit.way] at hway

/-- Of two walks on which the text is read on in the same way, one goes on where the other ends. -/
lemma Walk.isPrefix_or_isPrefix (h : Walk p visits q) (h' : Walk p visits' q')
    (hruns : Opened.Runs opened visits closed) (hruns' : Opened.Runs opened visits' closed') :
    visits <+: visits' ∨ visits' <+: visits := by
  induction h generalizing visits' opened with
  | nil p => exact .inl List.nil_prefix
  | cons hmakes _ ih =>
    cases h' with
    | nil _ => exact .inr List.nil_prefix
    | cons hmakes' hrest' =>
      cases hruns with
      | cons hway hruns =>
        cases hruns' with
        | cons hway' hruns' =>
          obtain ⟨rfl, rfl⟩ := hmakes.unique hmakes' (hway.trans hway'.symm)
          exact (ih hrest' hruns hruns').imp (List.prefix_cons_inj _).2
            (List.prefix_cons_inj _).2

namespace Program.ReadBy

/-- The reading of a text does not go on where another ends. -/
lemma eq_of_isPrefix (h : program.ReadBy text visits) (h' : program'.ReadBy text visits')
    (hmore : visits <+: visits') : visits = visits' := by
  obtain ⟨more, rfl⟩ := hmore
  obtain ⟨left, o, rfl⟩ := h.spells.exists_finish
  rw [List.append_assoc, List.singleton_append] at h'
  rw [h'.eq_nil_of_finish, List.append_nil]

/-- **One reading.**  There is no more than one way to read a text. -/
theorem unique (h : program.ReadBy text visits) (h' : program'.ReadBy text visits') :
    visits = visits' := by
  obtain ⟨q, hwalk⟩ := h.walk
  obtain ⟨q', hwalk'⟩ := h'.walk
  rcases hwalk.isPrefix_or_isPrefix hwalk' h.spells.runs h'.spells.runs with hmore | hmore
  · exact h.eq_of_isPrefix h' hmore
  · exact (h'.eq_of_isPrefix h hmore).symm

end Program.ReadBy

/-- What is parsed is read in one way. -/
theorem existsUnique_readBy {levels : ℕ} {text : String}
    (h : parseWithin levels text = .ok program) :
    ∃! visits, program.ReadBy text.toList visits := by
  obtain ⟨visits, hread⟩ := exists_readBy h
  exact ⟨visits, hread, fun visits' hread' => hread'.unique hread⟩

end EmbeddedJsx
