import EmbeddedJsx.Production.Names
import EmbeddedJsx.Proofs.Grammar.Derivation
import EmbeddedJsx.Proofs.Lexical.Standing

/-!
# The names that productions read are names

A production for a name is called on the token that follows a place, and ends on the token that
follows the place after the name.  If it succeeds, the grammar derives the name between the two.
-/

namespace EmbeddedJsx.Production

open Grammar

variable {c c' : Cursor} {p : Place}

lemma memberParts_sound {steps : ℕ} {parts : List Excerpt} (hc : c.Follows p)
    (h : memberParts steps c = .ok parts c') : ∃ q, Members p parts q ∧ c'.Follows q := by
  induction steps generalizing c p parts with
  | zero => simp [memberParts, exhaust] at h
  | succ steps ih =>
    simp only [memberParts, bind_eq_ok, sees_apply, EStateM.Result.ok.injEq] at h
    obtain ⟨_, _, ⟨rfl, rfl⟩, h⟩ := h
    split at h
    · next hdot =>
      simp only [bind_eq_ok, pure_apply, EStateM.Result.ok.injEq] at h
      obtain ⟨_, _, hadvance, part, c₁, htake, parts, _, hparts, rfl, rfl⟩ := h
      have hnext := (hc.after (by simpa using hdot)).next
      obtain ⟨b, hpart, hc₁⟩ := take_sound (advance_follows hadvance) htake
      obtain ⟨q, hmembers, hc'⟩ := ih hc₁ hparts
      exact ⟨q, .cons hnext hpart hmembers, hc'⟩
    · simp only [pure_apply, EStateM.Result.ok.injEq] at h
      obtain ⟨rfl, rfl⟩ := h
      exact ⟨p, .nil p, hc⟩

lemma attributeName_sound {name : Name} (hc : c.Follows p) (h : attributeName c = .ok name c') :
    ∃ q, AttributeName p name q ∧ c'.Follows q := by
  simp only [attributeName, bind_eq_ok, sees_apply, EStateM.Result.ok.injEq] at h
  obtain ⟨first, c₁, hfirst, _, _, ⟨rfl, rfl⟩, h⟩ := h
  obtain ⟨a, hnext, hc₁⟩ := take_sound hc hfirst
  split at h
  · next hcolon =>
    simp only [bind_eq_ok, pure_apply, EStateM.Result.ok.injEq] at h
    obtain ⟨_, _, hadvance, second, _, hsecond, rfl, rfl⟩ := h
    have hcolon := (hc₁.after (by simpa using hcolon)).next
    obtain ⟨q, hnext', hc'⟩ := take_sound (advance_follows hadvance) hsecond
    exact ⟨q, .namespaced hnext hcolon hnext', hc'⟩
  · simp only [pure_apply, EStateM.Result.ok.injEq] at h
    obtain ⟨rfl, rfl⟩ := h
    exact ⟨a, .plain hnext, hc₁⟩

lemma elementName_sound {steps : ℕ} {name : Name} (hc : c.Follows p)
    (h : elementName steps c = .ok name c') : ∃ q, ElementName p name q ∧ c'.Follows q := by
  simp only [elementName, bind_eq_ok, current_apply, EStateM.Result.ok.injEq] at h
  obtain ⟨first, c₁, hfirst, _, _, ⟨rfl, rfl⟩, h⟩ := h
  obtain ⟨a, hnext, hc₁⟩ := take_sound hc hfirst
  generalize htoken : c₁.token = token at h
  split at h
  · simp only [bind_eq_ok, sees_apply, EStateM.Result.ok.injEq] at h
    obtain ⟨_, _, hadvance, second, c₂, hsecond, more, c₃, hmore, _, _, ⟨rfl, rfl⟩, h⟩ := h
    have hdot := (hc₁.after htoken).next
    obtain ⟨b, hnext', hc₂⟩ := take_sound (advance_follows hadvance) hsecond
    obtain ⟨q, hmembers, hc₃⟩ := memberParts_sound hc₂ hmore
    split at h
    · simp at h
    · simp only [pure_apply, EStateM.Result.ok.injEq] at h
      obtain ⟨rfl, rfl⟩ := h
      exact ⟨q, .member hnext hdot hnext' hmembers, hc₃⟩
  · simp only [bind_eq_ok, current_apply, EStateM.Result.ok.injEq] at h
    obtain ⟨_, _, hadvance, second, c₂, hsecond, _, _, ⟨rfl, rfl⟩, h⟩ := h
    have hcolon := (hc₁.after htoken).next
    obtain ⟨q, hnext', hc₂⟩ := take_sound (advance_follows hadvance) hsecond
    generalize c₂.token = token at h
    split at h
    · simp at h
    · simp at h
    · simp only [pure_apply, EStateM.Result.ok.injEq] at h
      obtain ⟨rfl, rfl⟩ := h
      exact ⟨q, .simple (.namespaced hnext hcolon hnext'), hc₂⟩
  · simp only [pure_apply, EStateM.Result.ok.injEq] at h
    obtain ⟨rfl, rfl⟩ := h
    exact ⟨a, .simple (.plain hnext), hc₁⟩

lemma closingTag_sound {steps : ℕ} {name : Name} (hc : c.Stands)
    (h : closingTag steps c = .ok name c') :
    ∃ opening a b close, c.origin.Reads .closingOpen opening a ∧ ElementName a name b ∧
      b.Next .tagClose close c'.place ∧ c'.Stands := by
  simp only [closingTag, bind_eq_ok, expect_eq_ok, pure_apply, EStateM.Result.ok.injEq] at h
  obtain ⟨_, c₁, htake, _, c₂, hname, _, _, ⟨htoken, rfl, rfl⟩, rfl, rfl⟩ := h
  obtain ⟨hreads, hc₁⟩ := take_sound_of_stands hc htake
  obtain ⟨b, hname, hc₂⟩ := elementName_sound hc₁ hname
  exact ⟨_, _, b, _, hreads, hname, (hc₂.after htoken).next, hc₂.stands⟩

end EmbeddedJsx.Production
