import EmbeddedJsx.Proofs.Runs.Productions

/-!
# Asking for markup

A construct is read with the help of a production for the markup in it, and it is a matter of that
production alone how deep markup may be nested.  A function that makes a production out of the one
for markup is called a scheme here.

A scheme asks for markup at a cursor if an interruption that is put there, and nowhere else, ends
it (`Asks`).  The schemes of the grammar are sequences of single steps and of requests for markup
(`Sequential`), and of these it holds that two productions for markup lead to the same unless
markup is asked for where they differ.  This is `Sequential.follows`, on which everything about the
depth of nesting rests.
-/

namespace EmbeddedJsx.Production

variable {α β : Type} {nested nested' : Production Node} {c c' d : Cursor}
  {interruption : Interruption}

/-- A production, given the production for the markup in it. -/
abbrev Scheme (α : Type) := Production Node → Production α

/-- Markup as it is read by a production, except that at one place reading is interrupted. -/
def interruptedAt (d : Cursor) (interruption : Interruption) (nested : Production Node) :
    Production Node := fun c =>
  if c = d then .error interruption c else nested c

@[simp] lemma interruptedAt_self :
    interruptedAt d interruption nested d = .error interruption d := by
  simp [interruptedAt]

lemma interruptedAt_of_ne (h : c ≠ d) : interruptedAt d interruption nested c = nested c := by
  simp [interruptedAt, h]

/-- What is read from the first cursor asks for markup at the second: whatever interrupts markup
there is where the reading ends. -/
def Asks (scheme : Scheme α) (nested : Production Node) (c d : Cursor) : Prop :=
  ∀ interruption, scheme (interruptedAt d interruption nested) c = .error interruption d

/-- Nothing ends with one interruption and with another. -/
lemma not_forall_eq_error {result : EStateM.Result Interruption Cursor α} :
    ¬ ∀ interruption, result = .error interruption d := by
  intro h
  have hne := (h .exhausted).symm.trans (h (.fault ⟨.tooDeep, d.span⟩))
  simp at hne

/-! ### Single steps -/

/-- A production that does not go back. -/
def Onward (production : Production α) : Prop :=
  ∀ ⦃c a c'⦄, production c = .ok a c' → c'.rest.length ≤ c.rest.length

/-- A production that does not go back and knows no limit of nesting. -/
structure Plain (production : Production α) : Prop where
  length_le : Onward production
  fault_ne : ∀ ⦃c error c'⦄, production c = .error (.fault error) c' → error.fault ≠ .tooDeep

lemma Plain.bind {first : Production α} {next : α → Production β} (h : Plain first)
    (h' : ∀ a, Plain (next a)) : Plain (first >>= next) := by
  refine ⟨fun c b c' hok => ?_, fun c error c' herror => ?_⟩
  · obtain ⟨a, c₁, hfirst, hnext⟩ := bind_eq_ok.1 hok
    exact ((h' a).length_le hnext).trans (h.length_le hfirst)
  · rcases bind_eq_error.1 herror with hfirst | ⟨a, c₁, -, hnext⟩
    · exact h.fault_ne hfirst
    · exact (h' a).fault_ne hnext

/-- What stays where it is goes neither back nor down. -/
lemma plain_of_stays {production : Production α} (h : ∀ c, ∃ a, production c = .ok a c) :
    Plain production := by
  refine ⟨fun c a c' hok => ?_, fun c error c' herror => ?_⟩
  · obtain ⟨b, hb⟩ := h c
    rw [hb, EStateM.Result.ok.injEq] at hok
    rw [hok.2]
  · obtain ⟨b, hb⟩ := h c
    simp [hb] at herror

lemma plain_pure (a : α) : Plain (pure a : Production α) := plain_of_stays fun _ => ⟨a, rfl⟩

lemma plain_get : Plain (get : Production Cursor) := plain_of_stays fun c => ⟨c, rfl⟩

lemma plain_current : Plain current := plain_of_stays fun c => ⟨c.token, rfl⟩

lemma plain_sees (kind : TokenKind) : Plain (sees kind) := plain_of_stays fun _ => ⟨_, rfl⟩

lemma plain_exhaust : Plain (exhaust : Production α) :=
  ⟨fun c b c' h => by simp [exhaust] at h, fun c error c' h => by simp [exhaust] at h⟩

lemma plain_rejectAt {fault : Fault} (h : fault ≠ .tooDeep) (span : Span) :
    Plain (rejectAt fault span : Production α) := by
  refine ⟨fun c b c' hok => by simp [rejectAt] at hok, fun c error c' herror => ?_⟩
  simp only [rejectAt, EStateM.Result.error.injEq, Interruption.fault.injEq] at herror
  rw [← herror.1]
  exact h

lemma plain_reject {fault : Fault} (h : fault ≠ .tooDeep) :
    Plain (reject fault : Production α) := by
  refine ⟨fun c b c' hok => by simp at hok, fun c error c' herror => ?_⟩
  exact (plain_rejectAt h c.span).fault_ne herror

lemma plain_expect (kind : TokenKind) (what : Expectation) : Plain (expect kind what) := by
  refine ⟨fun c e c' h => ?_, fun c error c' h => ?_⟩
  · rw [(expect_eq_ok.1 h).2.2]
  · unfold expect at h
    split at h
    · simp at h
    · simp only [EStateM.Result.error.injEq, Interruption.fault.injEq] at h
      rw [← h.1]
      simp

/-- What stops a call on a cursor has nothing to do with nesting. -/
lemma fault_ne_of_call {call : Cursor.Call} {error : SyntaxError}
    (h : call.perform c = .error error c') : error.fault ≠ .tooDeep := by
  rcases Cursor.fault_cases_of_perform h with h | h | h | ⟨cause, h⟩ <;> simp [h]

lemma plain_ofStep {construct : Fault} (call : Cursor.Call) (h : construct ≠ .tooDeep) :
    Plain (ofStep construct call.perform) := by
  refine ⟨fun c kind c' hok => ?_, fun c error c' herror => ?_⟩
  · unfold ofStep at hok
    split at hok
    · next hcall =>
      simp only [EStateM.Result.ok.injEq] at hok
      obtain ⟨rfl, rfl⟩ := hok
      exact Cursor.Moved.length_lt ⟨call, _, hcall⟩ |>.le
    · simp at hok
  · unfold ofStep at herror
    split at herror
    · simp at herror
    · next error' _ hcall =>
      simp only [EStateM.Result.error.injEq, Interruption.fault.injEq] at herror
      rw [← herror.1, SyntaxError.inside]
      split
      · exact h
      · exact fault_ne_of_call hcall

lemma plain_advance : Plain advance :=
  (plain_ofStep .next (by simp)).bind fun _ => plain_pure ()

lemma plain_advanceChild : Plain advanceChild := plain_ofStep .nextChild (by simp)

lemma plain_take (kind : TokenKind) (what : Expectation) : Plain (take kind what) :=
  (plain_expect kind what).bind fun e => plain_advance.bind fun _ => plain_pure e

/-! ### Sequences -/

/-- A scheme that is made of single steps and of requests for markup, one after the other. -/
inductive Sequential : {α : Type} → Scheme α → Prop where
  | plain {α : Type} {production : Production α} : Plain production → Sequential fun _ => production
  | nested : Sequential fun nested => nested
  | bind {α β : Type} {first : Scheme α} {next : α → Scheme β} : Sequential first →
      (∀ a, Sequential (next a)) → Sequential fun nested => first nested >>= fun a => next a nested

/-- What comes first asks on behalf of the whole. -/
lemma Asks.bind {first : Scheme α} {next : α → Scheme β} (h : Asks first nested c d) :
    Asks (fun nested => first nested >>= fun a => next a nested) nested c d := fun interruption =>
  bind_eq_error.2 (.inl (h interruption))

/-- What is read is the same whatever is done at a place where no markup is asked for. -/
lemma Sequential.asks_or_quiet {scheme : Scheme α} (h : Sequential scheme)
    (nested : Production Node) (c d : Cursor) :
    Asks scheme nested c d ∨
      ∀ interruption, scheme (interruptedAt d interruption nested) c = scheme nested c := by
  induction h generalizing c with
  | plain _ => exact .inr fun _ => rfl
  | nested =>
    by_cases hc : c = d
    · subst hc
      exact .inl fun _ => interruptedAt_self
    · exact .inr fun _ => interruptedAt_of_ne hc
  | bind _ _ ihfirst ihnext =>
    rcases ihfirst c with hasks | hquiet
    · exact .inl hasks.bind
    simp only [Asks, Bind.bind, EStateM.bind, hquiet]
    split
    · exact ihnext _ _
    · exact .inr fun _ => rfl

lemma Sequential.quiet {scheme : Scheme α} (h : Sequential scheme)
    (hasks : ¬ Asks scheme nested c d) (interruption : Interruption) :
    scheme (interruptedAt d interruption nested) c = scheme nested c :=
  (h.asks_or_quiet nested c d).resolve_left hasks interruption

section

variable {first : Scheme α} {next : α → Scheme β}

/-- Where the first part of a sequence does not ask, the second asks on behalf of the whole. -/
lemma Sequential.asks_bind_of_ok {a : α} (h : Sequential first) (hasks : ¬ Asks first nested c d)
    (hok : first nested c = .ok a c') :
    Asks (fun nested => first nested >>= fun a => next a nested) nested c d ↔
      Asks (next a) nested c' d := by
  simp only [Asks, Bind.bind, EStateM.bind, h.quiet hasks, hok]

lemma Sequential.not_asks_bind_of_error (h : Sequential first) (hasks : ¬ Asks first nested c d)
    (herror : first nested c = .error interruption c') :
    ¬ Asks (fun nested => first nested >>= fun a => next a nested) nested c d := by
  simp only [Asks, Bind.bind, EStateM.bind, h.quiet hasks, herror]
  exact not_forall_eq_error

end

/-- A production for markup that differs from another only at some places leads to the same,
unless markup is asked for at one of these.  If it is, and reading is interrupted there, then
what is read ends with that interruption. -/
lemma Sequential.follows {scheme : Scheme α} (h : Sequential scheme) {D : Cursor → Prop}
    (hagree : ∀ c, ¬ D c → nested' c = nested c) (c : Cursor) :
    (∀ d, D d → ¬ Asks scheme nested c d) ∧ scheme nested' c = scheme nested c ∨
      ∃ d, D d ∧ Asks scheme nested c d ∧
        ∀ {i c'}, nested' d = .error i c' → scheme nested' c = .error i c' := by
  induction h generalizing c with
  | plain _ => exact .inl ⟨fun _ _ => not_forall_eq_error, rfl⟩
  | nested =>
    by_cases hc : D c
    · exact .inr ⟨c, hc, fun _ => interruptedAt_self, fun h => h⟩
    · refine .inl ⟨fun d hd hasks => ?_, hagree c hc⟩
      have hne : c ≠ d := fun heq => hc (heq ▸ hd)
      simp only [Asks, interruptedAt_of_ne hne] at hasks
      exact not_forall_eq_error hasks
  | @bind _ _ first next hfirst _ ihfirst ihnext =>
    rcases ihfirst c with ⟨hnone, heq⟩ | ⟨d, hd, hasks, hends⟩
    · cases hresult : first nested c with
      | error i c₁ =>
        refine .inl ⟨fun d hd => hfirst.not_asks_bind_of_error (hnone d hd) hresult, ?_⟩
        simp only [Bind.bind, EStateM.bind, heq, hresult]
      | ok a c₁ =>
        have hrest (nested'' : Production Node) (h : first nested'' c = first nested c) :
            (first nested'' >>= fun a => next a nested'') c = next a nested'' c₁ := by
          simp only [Bind.bind, EStateM.bind, h, hresult]
        simp only [hrest nested' heq, hrest nested rfl]
        rcases ihnext a c₁ with ⟨hlater, heq⟩ | ⟨d, hd, hasks, hends⟩
        · refine .inl ⟨fun d hd hasks => hlater d hd ?_, heq⟩
          exact (hfirst.asks_bind_of_ok (hnone d hd) hresult).1 hasks
        · exact .inr ⟨d, hd, (hfirst.asks_bind_of_ok (hnone d hd) hresult).2 hasks, hends⟩
    · exact .inr ⟨d, hd, hasks.bind, fun h => bind_eq_error.2 (.inl (hends h))⟩

/-- Two productions for markup lead to the same if they agree wherever markup is asked for. -/
lemma Sequential.congr {scheme : Scheme α} (h : Sequential scheme)
    (hagree : ∀ d, Asks scheme nested c d → nested' d = nested d) :
    scheme nested' c = scheme nested c := by
  rcases h.follows (D := fun d => nested' d ≠ nested d) (fun d hd => not_ne_iff.1 hd) c with
    ⟨-, heq⟩ | ⟨d, hd, hasks, -⟩
  · exact heq
  · exact absurd (hagree d hasks) hd

/-! ### What sequences keep -/

/-- What is read does not go back if markup does not. -/
lemma Sequential.length_le {scheme : Scheme α} (h : Sequential scheme) (hnested : Onward nested)
    {a : α} (hok : scheme nested c = .ok a c') : c'.rest.length ≤ c.rest.length := by
  induction h generalizing c c' with
  | plain h => exact h.length_le hok
  | nested => exact hnested hok
  | bind _ _ ihfirst ihnext =>
    obtain ⟨b, c₁, hfirst, hnext⟩ := bind_eq_ok.1 hok
    exact (ihnext b hnext).trans (ihfirst hfirst)

/-- Markup is asked for further on. -/
lemma Sequential.length_le_of_asks {scheme : Scheme α} (h : Sequential scheme)
    (hnested : Onward nested) (hasks : Asks scheme nested c d) : d.rest.length ≤ c.rest.length := by
  induction h generalizing c with
  | plain _ => exact absurd hasks not_forall_eq_error
  | nested =>
    by_cases hne : c = d
    · rw [hne]
    · simp only [Asks, interruptedAt_of_ne hne] at hasks
      exact absurd hasks not_forall_eq_error
  | @bind _ _ first next hfirst _ ihfirst ihnext =>
    by_cases hasks' : Asks first nested c d
    · exact ihfirst hasks'
    cases hresult : first nested c with
    | error i c₁ => exact absurd hasks (hfirst.not_asks_bind_of_error hasks' hresult)
    | ok a c₁ =>
      have hlater := ihnext a ((hfirst.asks_bind_of_ok hasks' hresult).1 hasks)
      exact hlater.trans (hfirst.length_le hnested hresult)

/-- What is read runs into a limit of nesting only if markup does that is asked for. -/
lemma Sequential.asks_of_tooDeep {scheme : Scheme α} (h : Sequential scheme) {span : Span}
    (herror : scheme nested c = .error (.fault ⟨.tooDeep, span⟩) c') :
    ∃ d, Asks scheme nested c d ∧ nested d = .error (.fault ⟨.tooDeep, span⟩) c' := by
  induction h generalizing c with
  | plain h => exact absurd rfl (h.fault_ne herror)
  | nested => exact ⟨c, fun _ => interruptedAt_self, herror⟩
  | @bind _ _ first next hfirst _ ihfirst ihnext =>
    rcases bind_eq_error.1 herror with herror | ⟨a, c₁, hok, herror⟩
    · obtain ⟨d, hasks, hd⟩ := ihfirst herror
      exact ⟨d, hasks.bind, hd⟩
    · obtain ⟨d, hasks, hd⟩ := ihnext a herror
      by_cases hasks' : Asks first nested c d
      · exact ⟨d, hasks'.bind, hd⟩
      · exact ⟨d, (hfirst.asks_bind_of_ok hasks' hok).2 hasks, hd⟩

/-! ### Reading before asking -/

/-- A sequence that reads at least one character before it asks for markup, and before it ends. -/
structure Guarded (scheme : Scheme α) : Prop where
  sequential : Sequential scheme
  length_lt : ∀ ⦃nested c a c'⦄, Onward nested → scheme nested c = .ok a c' →
    c'.rest.length < c.rest.length
  length_lt_of_asks : ∀ ⦃nested c d⦄, Onward nested → Asks scheme nested c d →
    d.rest.length < c.rest.length

/-- A production that reads at least one character and asks for nothing. -/
lemma Plain.guarded {production : Production α} (h : Plain production)
    (hlt : ∀ ⦃c a c'⦄, production c = .ok a c' → c'.rest.length < c.rest.length) :
    Guarded fun _ => production :=
  ⟨.plain h, fun _ _ _ _ _ hok => hlt hok, fun _ _ _ _ hasks => absurd hasks not_forall_eq_error⟩

lemma Guarded.bind {first : Scheme α} {next : α → Scheme β} (h : Guarded first)
    (h' : ∀ a, Sequential (next a)) :
    Guarded fun nested => first nested >>= fun a => next a nested := by
  refine ⟨h.sequential.bind h', fun nested c b c' hnested hok => ?_,
    fun nested c d hnested hasks => ?_⟩
  · obtain ⟨a, c₁, hfirst, hnext⟩ := bind_eq_ok.1 hok
    exact ((h' a).length_le hnested hnext).trans_lt (h.length_lt hnested hfirst)
  · by_cases hasks' : Asks first nested c d
    · exact h.length_lt_of_asks hnested hasks'
    cases hresult : first nested c with
    | error i c₁ => exact absurd hasks (h.sequential.not_asks_bind_of_error hasks' hresult)
    | ok a c₁ =>
      have hlater := (h.sequential.asks_bind_of_ok hasks' hresult).1 hasks
      exact ((h' a).length_le_of_asks hnested hlater).trans_lt (h.length_lt hnested hresult)

/-- What comes first may be anything that asks for nothing. -/
lemma Plain.bind_guarded {first : Production α} {next : α → Scheme β} (h : Plain first)
    (h' : ∀ a, Guarded (next a)) :
    Guarded fun nested => first >>= fun a => next a nested := by
  refine ⟨.bind (.plain h) fun a => (h' a).sequential, fun nested c b c' hnested hok => ?_,
    fun nested c d hnested hasks => ?_⟩
  · obtain ⟨a, c₁, hfirst, hnext⟩ := bind_eq_ok.1 hok
    exact ((h' a).length_lt hnested hnext).trans_le (h.length_le hfirst)
  · have hplain : ¬ Asks (fun _ => first) nested c d := not_forall_eq_error
    cases hresult : first c with
    | error i c₁ =>
      exact absurd hasks ((Sequential.plain h).not_asks_bind_of_error hplain hresult)
    | ok a c₁ =>
      have hlater := ((Sequential.plain h).asks_bind_of_ok hplain hresult).1 hasks
      exact ((h' a).length_lt_of_asks hnested hlater).trans_le (h.length_le hresult)

end EmbeddedJsx.Production
