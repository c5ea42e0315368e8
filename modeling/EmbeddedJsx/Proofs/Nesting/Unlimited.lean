import EmbeddedJsx.Proofs.Nesting.Productions

/-!
# Markup without a limit

The same descent without a limit of nesting: an element or a fragment, with the markup in it read
in the same way (`unlimited_eq`).  That it comes to an end is no matter of a limit but of the text,
for an element or a fragment reads its first token before it asks for the markup in it.

How deep elements and fragments are nested when markup is read without a limit is a matter of what
asks for what (`Opens`).  The main statement is `markup_limited`: a limit of nesting makes no
difference where it is not exceeded, and where it is exceeded, that is the answer.
-/

namespace EmbeddedJsx.Production

variable {steps levels n m : ℕ} {c c' d : Cursor}

/-! ### The descent -/

/-- Markup that may be nested to any depth.  What is asked for has to begin further on, which is
always so. -/
def unlimited (steps : ℕ) (c : Cursor) : EStateM.Result Interruption Cursor Node :=
  activation (fun d => if d.rest.length < c.rest.length then unlimited steps d
    else .error .exhausted d) steps c
termination_by c.rest.length

/-- Markup that begins further on than the given cursor. -/
def unlimitedAfter (steps : ℕ) (c : Cursor) : Production Node := fun d =>
  if d.rest.length < c.rest.length then unlimited steps d else .error .exhausted d

lemma onward_unlimited : Onward (unlimited steps) := by
  intro c
  induction hlen : c.rest.length using Nat.strong_induction_on generalizing c with
  | _ length ih =>
    subst hlen
    intro node c' hok
    have hnested : Onward (unlimitedAfter steps c) := by
      intro d node d' hd
      unfold unlimitedAfter at hd
      split at hd
      · next hlt => exact ih _ hlt rfl hd
      · simp at hd
    rw [unlimited] at hok
    exact ((guarded_activation steps).length_lt hnested hok).le

lemma onward_unlimitedAfter : Onward (unlimitedAfter steps c) := by
  intro d node d' hd
  unfold unlimitedAfter at hd
  split at hd
  · exact onward_unlimited hd
  · simp at hd

/-- **No limit.**  Markup is an element or a fragment, with the markup in it read in the same
way. -/
theorem unlimited_eq (steps : ℕ) : unlimited steps = activation (unlimited steps) steps := by
  funext c
  rw [unlimited]
  refine ((guarded_activation steps).sequential.congr fun d hasks => ?_).symm
  exact (if_pos ((guarded_activation steps).length_lt_of_asks onward_unlimitedAfter hasks)).symm

/-! ### The depth of the descent -/

/-- When markup is read from the cursor, so many elements and fragments are open at once. -/
inductive Opens (steps : ℕ) : ℕ → Cursor → Prop where
  /-- The element or the fragment itself is open. -/
  | here (c : Cursor) : Opens steps 1 c
  /-- While it is open, it asks for markup. -/
  | inside {n : ℕ} {c d : Cursor} :
      Asks (fun nested => activation nested steps) (unlimited steps) c d → Opens steps n d →
      Opens steps (n + 1) c


/-- Each element and each fragment that is open has its own characters. -/
lemma Opens.le_length (h : Opens steps n c) : n ≤ c.rest.length + 1 := by
  induction h with
  | here c => exact Nat.le_add_left 1 _
  | inside hasks _ ih =>
    have hlt := (guarded_activation steps).length_lt_of_asks onward_unlimited hasks
    omega

/-- What is open has been opened one by one. -/
lemma Opens.mono (h : Opens steps n c) (hm : 1 ≤ m) (hle : m ≤ n) : Opens steps m c := by
  induction h generalizing m with
  | here c =>
    obtain rfl : m = 1 := le_antisymm hle hm
    exact .here c
  | @inside n c d hasks _ ih =>
    obtain rfl | hlt := Nat.eq_or_lt_of_le hm
    · exact .here c
    · obtain ⟨m, rfl⟩ : ∃ m', m = m' + 1 := ⟨m - 1, by omega⟩
      exact .inside hasks (ih (Nat.le_of_lt_succ hlt) (Nat.le_of_succ_le_succ hle))

lemma opens_add_two_iff :
    Opens steps (n + 2) c ↔ ∃ d, Opens steps (n + 1) d ∧
      Asks (fun nested => activation nested steps) (unlimited steps) c d := by
  refine ⟨fun h => ?_, fun ⟨d, hd, hasks⟩ => .inside hasks hd⟩
  cases h with
  | inside hasks hd => exact ⟨_, hd, hasks⟩

/-! ### The limit -/

/-- The answer that markup is nested too deeply. -/
def TooDeep {α : Type} (result : EStateM.Result Interruption Cursor α) : Prop :=
  ∃ span c, result = .error (.fault ⟨.tooDeep, span⟩) c

/-- **The limit of nesting.**  Markup that may be nested some levels deep is read as it is without
a limit, unless more elements and fragments would be open at once.  If so, it is said to be nested
too deeply. -/
theorem markup_limited (steps levels : ℕ) (c : Cursor) :
    ¬ Opens steps (levels + 1) c ∧ markup steps levels c = unlimited steps c ∨
      Opens steps (levels + 1) c ∧ TooDeep (markup steps levels c) := by
  induction levels generalizing c with
  | zero => exact .inr ⟨.here c, c.span, c, rfl⟩
  | succ levels ih =>
    have hagree (d) (hd : ¬ Opens steps (levels + 1) d) :
        markup steps levels d = unlimited steps d := by
      rcases ih d with ⟨-, heq⟩ | ⟨hopens, -⟩
      · exact heq
      · exact absurd hopens hd
    have hmarkup : markup steps (levels + 1) = activation (markup steps levels) steps := rfl
    rw [unlimited_eq, hmarkup, opens_add_two_iff]
    rcases (guarded_activation steps).sequential.follows hagree c with
      ⟨hnone, heq⟩ | ⟨d, hd, hasks, hends⟩
    · exact .inl ⟨fun ⟨d, hd, hasks⟩ => hnone d hd hasks, heq⟩
    · rcases ih d with ⟨hnot, -⟩ | ⟨-, span, c', hdeep⟩
      · exact absurd hd hnot
      · exact .inr ⟨⟨d, hd, hasks⟩, span, c', hends hdeep⟩

lemma markup_eq_unlimited (h : ¬ Opens steps (levels + 1) c) :
    markup steps levels c = unlimited steps c := by
  rcases markup_limited steps levels c with ⟨-, heq⟩ | ⟨hopens, -⟩
  · exact heq
  · exact absurd hopens h

lemma tooDeep_markup (h : Opens steps (levels + 1) c) : TooDeep (markup steps levels c) := by
  rcases markup_limited steps levels c with ⟨hopens, -⟩ | ⟨-, hdeep⟩
  · exact absurd h hopens
  · exact hdeep

/-- Without a limit nothing is nested too deeply. -/
lemma not_tooDeep_unlimited : ¬ TooDeep (unlimited steps c) := by
  induction hlen : c.rest.length using Nat.strong_induction_on generalizing c with
  | _ length ih =>
    subst hlen
    rintro ⟨span, c', herror⟩
    rw [unlimited_eq] at herror
    obtain ⟨d, hasks, hd⟩ := (guarded_activation steps).sequential.asks_of_tooDeep herror
    have hlt := (guarded_activation steps).length_lt_of_asks onward_unlimited hasks
    exact ih _ hlt rfl ⟨span, c', hd⟩

end EmbeddedJsx.Production
