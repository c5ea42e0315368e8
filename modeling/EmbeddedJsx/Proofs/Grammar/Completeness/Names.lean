import EmbeddedJsx.Production.Names
import EmbeddedJsx.Proofs.Grammar.Derivation
import EmbeddedJsx.Proofs.Lexical.Standing

/-!
# Names of the grammar are read

Where the grammar derives a name, the production for it reads that name, provided that the token
after the name does not make it go on.
-/

namespace EmbeddedJsx.Production

open Grammar

variable {c c' : Cursor} {p q : Place} {name : Name} {steps : ℕ}

/-- Before a member of a name, or after the last one, a token follows. -/
lemma Members.exists_follows {parts : List Excerpt} (h : Members p parts q) (hc' : c'.Follows q) :
    ∃ c : Cursor, c.Follows p := by
  cases h with
  | nil => exact ⟨c', hc'⟩
  | cons hdot _ _ =>
    obtain ⟨c, -, hc⟩ := Cursor.exists_follows hdot
    exact ⟨c, hc⟩

lemma memberParts_complete {parts : List Excerpt} (h : Members p parts q) (hc : c.Follows p)
    (hc' : c'.Follows q) (hdot : c'.token ≠ some .dot) (hsteps : p.rest.length < steps) :
    memberParts steps c = .ok parts c' := by
  induction h generalizing c steps with
  | nil p =>
    obtain rfl := hc.unique hc'
    obtain ⟨steps, rfl⟩ := Nat.exists_eq_succ_of_ne_zero (Nat.ne_zero_of_lt hsteps)
    refine bind_eq_ok.2 ⟨_, c, sees_apply _, ?_⟩
    rw [if_neg (by simpa using hdot)]
    rfl
  | @cons p a b q _ part parts hnext hpart hmembers ih =>
    obtain ⟨steps, rfl⟩ := Nat.exists_eq_succ_of_ne_zero (Nat.ne_zero_of_lt hsteps)
    obtain ⟨hafter, -, rfl⟩ := hc.of_next hnext
    obtain ⟨c₁, -, hc₁⟩ := Cursor.exists_follows hpart
    obtain ⟨c₂, hc₂⟩ := Members.exists_follows hmembers hc'
    have hshort : b.rest.length < steps := by
      have := hnext.length_lt
      have := hpart.length_lt
      omega
    refine bind_eq_ok.2 ⟨_, c, sees_apply _, ?_⟩
    rw [if_pos (by simp [hafter.2.token_eq])]
    refine bind_eq_ok.2 ⟨(), c₁, advance_complete hafter.2.token_ne hc₁, ?_⟩
    refine bind_eq_ok.2 ⟨part, c₂, take_complete hc₁ hpart hc₂, ?_⟩
    exact bind_eq_ok.2 ⟨parts, c', ih hc₂ hc' hshort, rfl⟩

lemma attributeName_complete (h : AttributeName p name q) (hc : c.Follows p) (hc' : c'.Follows q)
    (hcolon : c'.token ≠ some .colon) : attributeName c = .ok name c' := by
  cases h with
  | plain hnext =>
    refine bind_eq_ok.2 ⟨_, c', take_complete hc hnext hc', ?_⟩
    refine bind_eq_ok.2 ⟨_, c', sees_apply _, ?_⟩
    rw [if_neg (by simpa using hcolon)]
    rfl
  | namespaced hnext hsep hnext' =>
    obtain ⟨c₁, hafter, hc₁⟩ := Cursor.exists_follows hsep
    obtain ⟨-, -, rfl⟩ := hc₁.of_next hsep
    obtain ⟨c₂, -, hc₂⟩ := Cursor.exists_follows hnext'
    refine bind_eq_ok.2 ⟨_, c₁, take_complete hc hnext hc₁, ?_⟩
    refine bind_eq_ok.2 ⟨_, c₁, sees_apply _, ?_⟩
    rw [if_pos (by simp [hafter.2.token_eq])]
    refine bind_eq_ok.2 ⟨(), c₂, advance_complete hafter.2.token_ne hc₂, ?_⟩
    exact bind_eq_ok.2 ⟨_, c', take_complete hc₂ hnext' hc', rfl⟩

/-- Where the name of an attribute is read, that of an element is, unless it goes on. -/
lemma elementName_of_attributeName (h : attributeName c = .ok name c')
    (hdot : c'.token ≠ some .dot) (hcolon : c'.token ≠ some .colon) :
    elementName steps c = .ok name c' := by
  simp only [attributeName, bind_eq_ok, sees_apply, EStateM.Result.ok.injEq] at h
  obtain ⟨first, c₁, hfirst, _, _, ⟨rfl, rfl⟩, h⟩ := h
  refine bind_eq_ok.2 ⟨first, c₁, take_expecting _ hfirst, ?_⟩
  refine bind_eq_ok.2 ⟨_, c₁, current_apply, ?_⟩
  split at h
  · next hsees =>
    have htoken : c₁.token = some .colon := by simpa using hsees
    simp only [bind_eq_ok, pure_apply, EStateM.Result.ok.injEq] at h
    obtain ⟨_, c₂, hadvance, second, c₃, hsecond, rfl, rfl⟩ := h
    rw [htoken]
    refine bind_eq_ok.2 ⟨(), c₂, hadvance, ?_⟩
    refine bind_eq_ok.2 ⟨second, c₃, take_expecting _ hsecond, ?_⟩
    refine bind_eq_ok.2 ⟨_, c₃, current_apply, ?_⟩
    generalize c₃.token = token at hdot hcolon ⊢
    split
    · exact absurd rfl hcolon
    · exact absurd rfl hdot
    · rfl
  · simp only [pure_apply, EStateM.Result.ok.injEq] at h
    obtain ⟨rfl, rfl⟩ := h
    generalize c₁.token = token at hdot hcolon ⊢
    split
    · exact absurd rfl hdot
    · exact absurd rfl hcolon
    · rfl

lemma elementName_complete (h : ElementName p name q) (hc : c.Follows p) (hc' : c'.Follows q)
    (hdot : c'.token ≠ some .dot) (hcolon : c'.token ≠ some .colon)
    (hsteps : c.rest.length < steps) : elementName steps c = .ok name c' := by
  cases h with
  | simple h =>
    exact elementName_of_attributeName (attributeName_complete h hc hc' hcolon) hdot hcolon
  | member hnext hsep hnext' hmore =>
    obtain ⟨c₁, hafter, hc₁⟩ := Cursor.exists_follows hsep
    obtain ⟨-, -, rfl⟩ := hc₁.of_next hsep
    obtain ⟨c₂, -, hc₂⟩ := Cursor.exists_follows hnext'
    obtain ⟨c₃, hc₃⟩ := Members.exists_follows hmore hc'
    obtain ⟨-, -, rfl⟩ := hc.of_next hnext
    have hshort := hnext'.length_lt.trans (hsep.length_lt.trans hsteps)
    refine bind_eq_ok.2 ⟨_, c₁, take_complete hc hnext hc₁, ?_⟩
    refine bind_eq_ok.2 ⟨_, c₁, current_apply, ?_⟩
    rw [hafter.2.token_eq]
    refine bind_eq_ok.2 ⟨(), c₂, advance_complete hafter.2.token_ne hc₂, ?_⟩
    refine bind_eq_ok.2 ⟨_, c₃, take_complete hc₂ hnext' hc₃, ?_⟩
    refine bind_eq_ok.2 ⟨_, c', memberParts_complete hmore hc₃ hc' hdot hshort, ?_⟩
    -- a colon after a name with dots would be refused
    refine bind_eq_ok.2 ⟨_, c', sees_apply _, ?_⟩
    rw [if_neg (by simpa using hcolon)]
    rfl

/-- A name begins with an identifier. -/
lemma attributeName_first (h : AttributeName p name q) :
    ∃ c : Cursor, c.After p .identifier ∧ c.Follows p := by
  cases h with
  | plain h => exact Cursor.exists_follows h
  | namespaced h _ _ => exact Cursor.exists_follows h

lemma elementName_first (h : ElementName p name q) :
    ∃ c : Cursor, c.After p .identifier ∧ c.Follows p := by
  cases h with
  | simple h => exact attributeName_first h
  | member h _ _ _ => exact Cursor.exists_follows h

end EmbeddedJsx.Production
