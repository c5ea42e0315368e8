import EmbeddedJsx.Proofs.Extension.Embedding
import EmbeddedJsx.Proofs.Grammar.Completeness.Markup

/-!
# Productions in longer texts

A production is simulated by another if the second does in a longer text what the first does in the
text: answers are moved forward, and a fault that has nothing to do with the end of the text stays.
Nothing is said of a production whose steps run out, so that the second may be allowed more steps.

Simulation is closed under sequences (`Simulates.bind`).  One thing has to be looked after: a token
may grow only where it stands at the end of the text, and there no production takes it, for a
production takes an identifier by going on to the next token.
-/

namespace EmbeddedJsx.Embedding

open Production

variable {E : Embedding} {α β : Type} {c c' c₁ : Cursor} {move : α → α} {move' : β → β}
  {kind : TokenKind} {what : Expectation} {error : SyntaxError}

/-- What a production leads to in the text, against what another leads to in the longer text. -/
inductive Carried (E : Embedding) (move : α → α) :
    EStateM.Result Interruption Cursor α → EStateM.Result Interruption Cursor α → Prop where
  /-- An answer is moved forward. -/
  | ok {a : α} {c : Cursor} :
      c.Within E.text → Carried E move (.ok a c) (.ok (move a) (E.cursor c))
  /-- A fault stays unless it has to do with the end of the text. -/
  | fault {error : SyntaxError} {c : Cursor} {result : EStateM.Result Interruption Cursor α} :
      (E.Keeps error →
        ∃ error' c', result = .error (.fault error') c' ∧ E.Moves error error') →
      Carried E move (.error (.fault error) c) result
  | exhausted {c : Cursor} {result : EStateM.Result Interruption Cursor α} :
      Carried E move (.error .exhausted c) result

/-- The second production does in the longer text what the first does in the text. -/
def Simulates (E : Embedding) (move : α → α) (production production' : Production α) : Prop :=
  ∀ ⦃c : Cursor⦄, c.Within E.text → E.Carried move (production c) (production' (E.cursor c))

lemma Carried.ok_of_eq {a a' : α} (hc : c.Within E.text) (h : a' = move a) :
    E.Carried move (.ok a c) (.ok a' (E.cursor c)) := by
  rw [h]
  exact .ok hc

/-- What is answered in the text is answered in the longer text. -/
lemma Simulates.answer {production production' : Production α} {a : α}
    (h : E.Simulates move production production') (hc : c.Within E.text)
    (hok : production c = .ok a c') :
    production' (E.cursor c) = .ok (move a) (E.cursor c') ∧ c'.Within E.text := by
  have hcarried := h hc
  rw [hok] at hcarried
  generalize production' (E.cursor c) = result at hcarried
  cases hcarried with
  | ok hc' => exact ⟨rfl, hc'⟩

/-- What fails in the text, and not because the text ends, fails in the longer text. -/
lemma Simulates.failure {production production' : Production α}
    (h : E.Simulates move production production') (hc : c.Within E.text)
    (herror : production c = .error (.fault error) c') (hkeeps : E.Keeps error) :
    ∃ error' c₁, production' (E.cursor c) = .error (.fault error') c₁ ∧ E.Moves error error' := by
  have hcarried := h hc
  rw [herror] at hcarried
  cases hcarried with
  | fault hfails => exact hfails hkeeps

/-! ### Sequences -/

section Sequences

variable {first first' : Production α} {next next' : α → Production β}

/-- What comes second has to be looked at only where the first leads. -/
lemma Carried.bind (h : E.Carried move (first c) (first' c'))
    (h' : ∀ a c₁, first c = .ok a c₁ → c₁.Within E.text →
      E.Carried move' (next a c₁) (next' (move a) (E.cursor c₁))) :
    E.Carried move' ((first >>= next) c) ((first' >>= next') c') := by
  simp only [Bind.bind, EStateM.bind]
  generalize hfirst : first c = result at h
  generalize first' c' = result' at h
  cases h with
  | ok hc => exact h' _ _ hfirst hc
  | fault hkeeps =>
    refine .fault fun hkeep => ?_
    obtain ⟨error', c'', rfl, hmoves⟩ := hkeeps hkeep
    exact ⟨error', c'', rfl, hmoves⟩
  | exhausted => exact .exhausted

lemma Simulates.bind (h : E.Simulates move first first')
    (h' : ∀ a, E.Simulates move' (next a) (next' (move a))) :
    E.Simulates move' (first >>= next) (first' >>= next') :=
  fun _ hc => (h hc).bind fun a _ _ hc₁ => h' a hc₁

/-- What is told of the token is told of it in the longer text. -/
lemma Simulates.bind_id (h : E.Simulates id first first')
    (h' : ∀ a, E.Simulates move' (next a) (next' a)) :
    E.Simulates move' (first >>= next) (first' >>= next') := h.bind h'

end Sequences

/-! ### Single steps -/

lemma simulates_pure {a a' : α} (h : a' = move a) :
    E.Simulates move (pure a : Production α) (pure a') := fun _ hc => .ok_of_eq hc h

lemma simulates_exhaust (production : Production α) : E.Simulates move exhaust production :=
  fun _ _ => .exhausted

lemma simulates_current : E.Simulates id current current :=
  fun c hc => .ok_of_eq hc (cursor_token c)

lemma simulates_sees (kind : TokenKind) : E.Simulates id (sees kind) (sees kind) :=
  fun c hc => .ok_of_eq hc (by rw [cursor_token]; rfl)

lemma simulates_reject (fault : Fault) :
    E.Simulates move (reject fault : Production α) (reject fault) :=
  fun _ hc => .fault fun _ => ⟨_, _, rfl, moves_span hc fault⟩

lemma simulates_rejectAt (fault : Fault) (span : Span) :
    E.Simulates move (rejectAt fault span : Production α) (rejectAt fault (span.shift E.front)) :=
  fun _ _ => .fault fun _ => ⟨_, _, rfl, moves_shift ⟨fault, span⟩⟩

/-- A token that is no identifier does not grow. -/
lemma not_atGrowingEnd (htoken : c.token = some kind) (hkind : kind ≠ .identifier) :
    ¬ c.AtGrowingEnd := fun hgrows =>
  hkind (Option.some.inj (htoken.symm.trans hgrows.1))

lemma carried_expect (hc : c.Within E.text)
    (hgrows : c.token = some kind → ¬ c.AtGrowingEnd ∨ E.more = []) :
    E.Carried (Excerpt.shift E.front) (expect kind what c) (expect kind what (E.cursor c)) := by
  unfold expect
  rw [cursor_token]
  split
  · next htoken => exact .ok_of_eq hc (cursor_excerpt (hgrows htoken))
  · exact .fault fun _ => ⟨_, _, rfl, moves_span hc _⟩

lemma simulates_expect (hkind : kind ≠ .identifier) :
    E.Simulates (Excerpt.shift E.front) (expect kind what) (expect kind what) :=
  fun _ hc => carried_expect hc fun htoken => .inl (not_atGrowingEnd htoken hkind)

/-! ### Going on -/

lemma Moves.inside {error' : SyntaxError} (h : E.Moves error error') (construct : Fault) :
    E.Moves (error.inside construct) (error'.inside construct) := by
  unfold SyntaxError.inside
  rw [h.fault_eq]
  split
  · exact ⟨rfl, h.start_eq, h.stop_eq⟩
  · exact h

/-- Where the end of the input cuts a construct short, the end of the text matters. -/
lemma keeps_of_inside {construct : Fault} (hconstruct : construct.family = .truncated)
    (h : E.Keeps (error.inside construct)) : E.Keeps error := by
  rcases h with hfamily | hmore
  · unfold SyntaxError.inside at hfamily
    split at hfamily
    · simp [hconstruct] at hfamily
    · exact .inl hfamily
  · exact .inr hmore

lemma simulates_ofStep {construct : Fault} (call : Cursor.Call)
    (hconstruct : construct.family = .truncated) :
    E.Simulates id (ofStep construct call.perform) (ofStep construct call.perform) := by
  intro c hc
  simp only [ofStep]
  cases hstep : call.perform c with
  | ok kind c₁ =>
    have hwithin := hc.perform call
    rw [hstep] at hwithin
    simp only [perform_ok hc hstep]
    exact .ok hwithin
  | error error c₁ =>
    refine .fault fun hkeeps => ?_
    obtain ⟨error', c₂, hstep', hmoves⟩ := perform_error hstep (keeps_of_inside hconstruct hkeeps)
    exact ⟨_, c₂, by simp only [hstep'], hmoves.inside construct⟩

lemma simulates_advance : E.Simulates id advance advance :=
  Simulates.bind_id (simulates_ofStep .next rfl) fun _ => simulates_pure rfl

lemma simulates_advanceChild : E.Simulates id advanceChild advanceChild :=
  simulates_ofStep .nextChild rfl

/-- Nothing comes after a token at the end of the text. -/
lemma advance_at_end (h : c.rest = []) :
    ∃ error c', advance c = .error (.fault error) c' ∧ error.fault = .unfinished := by
  cases hnext : c.next with
  | ok kind c' => exact absurd h (rest_ne_nil_of_next hnext)
  | error error c' =>
    have hfamily := family_of_rest_eq_nil hnext h
    refine ⟨error.inside .unfinished, c', ?_, ?_⟩
    · simp only [advance, ofStep, Bind.bind, EStateM.bind, hnext]
    · rw [SyntaxError.inside, if_pos hfamily]

/-- A token that is taken does not grow, for another comes after it in the text. -/
lemma simulates_take :
    E.Simulates (Excerpt.shift E.front) (take kind what) (take kind what) := by
  intro c hc
  have hadvance (e : Excerpt) : E.Simulates (Excerpt.shift E.front)
      (do advance; return e) (do advance; return e.shift E.front) :=
    simulates_advance.bind_id fun _ => simulates_pure rfl
  by_cases hgrows : ¬ c.AtGrowingEnd ∨ E.more = []
  · exact (carried_expect hc fun _ => hgrows).bind fun e c₁ _ hc₁ => hadvance e hc₁
  · -- at the end of the text taking a token fails
    simp only [not_or, not_not] at hgrows
    obtain ⟨hgrows, hmore⟩ := hgrows
    by_cases htoken : c.token = some kind
    · obtain ⟨error, c', hadvance, hfault⟩ := advance_at_end hgrows.2
      have htake : take kind what c = .error (.fault error) c' := by
        simp only [take, Bind.bind, EStateM.bind, expect, if_pos htoken, hadvance]
      rw [htake]
      refine .fault fun hkeeps => ?_
      simp [Keeps, hfault, Fault.family, hmore] at hkeeps
    · exact (carried_expect hc fun hkind => absurd hkind htoken).bind fun e c₁ _ hc₁ =>
        hadvance e hc₁

end EmbeddedJsx.Embedding
