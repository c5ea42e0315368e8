import EmbeddedJsx.Proofs.Nesting.Limit

/-!
# The rounds of loops

A loop that is allowed some number of rounds and has not come to an end in them stops where its next
round would begin.  So it can be told from the loop itself where each of its rounds begins, namely
by allowing it fewer of them.

What has to be shown of a loop is what one round does: either the loop comes to an end, or the next
round begins further on in the text (`Production.Proceeds`, and `Production.Loop.proceeds` for the
loops of the grammar).  The main statements are `Production.Loop.stop_lt` and
`Session.collect_stop_lt`: of two successive rounds of a loop the second begins further on.
-/

namespace EmbeddedJsx

namespace Cursor

variable {c c' : Cursor}

lemma Moved.reaches (h : c.Moved c') : c.place.Reaches c'.place := by
  obtain ⟨call, kind, h⟩ := h
  cases call with
  | next => exact (next_eq_ok_iff.1 h).2.next.reaches
  | nextChild =>
    obtain ⟨-, hon, horigin⟩ := nextChild_eq_ok_iff.1 h
    exact Place.Reaches.trans ⟨_, c.raw_passes⟩ (horigin ▸ hon.reads.reaches)

lemma Moves.reaches (h : c.Moves c') : c.place.Reaches c'.place := by
  induction h with
  | refl => exact .refl _
  | tail _ hlast ih => exact ih.trans hlast.reaches

/-- Where fewer characters are left, more of them have been read. -/
lemma Moves.stop_lt (h : c.Moves c') (hlt : c'.rest.length < c.rest.length) : c.stop < c'.stop :=
  h.reaches.offset_lt hlt

end Cursor

namespace Production

variable {α β : Type} {nested : Production Node} {steps a b k : ℕ} {c d d' : Cursor}

/-- The loops of the grammar. -/
inductive Loop where
  /-- The parts of a member name. -/
  | members
  /-- The markup in an expression in which so many braces are open. -/
  | expression (depth : ℕ)
  /-- The attributes of a tag. -/
  | attributes
  /-- The children of an element or a fragment. -/
  | children

namespace Loop

/-- What a loop reads. -/
abbrev Answer : Loop → Type
  | members => List Excerpt
  | _ => List Node

/-- A loop that is allowed so many rounds. -/
def run (nested : Production Node) (steps : ℕ) : (loop : Loop) → ℕ → Production loop.Answer
  | members, k => memberParts k
  | expression depth, k => expressionMarkup nested k depth
  | attributes, k => Production.attributes nested steps k
  | children, k => Production.children nested steps k

lemma run_zero (loop : Loop) : loop.run nested steps 0 = exhaust := by
  cases loop <;> rfl

end Loop

/-! ### One round -/

/-- What is read in a round of a loop, given how many rounds are allowed after it.  Either the loop
comes to an end, and those do not matter, or the next round begins with fewer than `b` characters
left. -/
def Proceeds (nested : Production Node) (steps a b : ℕ) (round : ℕ → Production β) : Prop :=
  ∀ ⦃c : Cursor⦄, c.rest.length < a →
    (∃ result, Regular c result ∧ ∀ k, round k c = result) ∨
      ∃ (loop : Loop) (c' : Cursor) (answer : loop.Answer → β), c.Moves c' ∧ c'.rest.length < b ∧
        ∀ k, round k c = (loop.run nested steps k >>= fun x => pure (answer x)) c'

lemma Proceeds.bind_of_ok {first : Production α} {next : ℕ → α → Production β}
    (h : first.Orderly a) (h' : ∀ ⦃c x c'⦄, c.rest.length < a → first c = .ok x c' →
      ∃ n, c'.rest.length < n ∧ Proceeds nested steps n b (next · x)) :
    Proceeds nested steps a b fun k => first >>= next k := by
  intro c hc
  have hregular := h hc
  cases hfirst : first c with
  | error interruption c' =>
    refine .inl ⟨.error interruption c', ?_, fun k => bind_eq_error.2 (.inl hfirst)⟩
    rw [hfirst] at hregular
    cases hregular with
    | fault hfails => exact .fault hfails
  | ok x c' =>
    have hmoves := h.moves hc hfirst
    have hbind (k : ℕ) : (first >>= next k) c = next k x c' := by
      simp only [bind, EStateM.bind, hfirst]
    obtain ⟨n, hn, hnext⟩ := h' hc hfirst
    rcases hnext hn with ⟨result, hresult, hround⟩ | ⟨loop, c'', answer, hmoves', hlt, hround⟩
    · exact .inl ⟨result, hresult.of_moves hmoves, fun k => (hbind k).trans (hround k)⟩
    · exact .inr ⟨loop, c'', answer, hmoves.trans hmoves', hlt, fun k => (hbind k).trans (hround k)⟩

lemma Proceeds.bind {first : Production α} {next : ℕ → α → Production β} (h : first.Orderly a)
    (h' : ∀ x, Proceeds nested steps a b (next · x)) :
    Proceeds nested steps a b fun k => first >>= next k :=
  .bind_of_ok h fun _ x _ hc hfirst => ⟨a, (h.moves hc hfirst).length_le.trans_lt hc, h' x⟩

/-- After a token has been read, fewer characters are left. -/
lemma Proceeds.advance_bind {next : ℕ → Unit → Production β}
    (h : Proceeds nested steps b b (next · ())) :
    Proceeds nested steps (b + 1) b fun k => advance >>= next k :=
  .bind_of_ok orderly_advance fun _ _ _ hc hadvance =>
    ⟨b, (advance_moved hadvance).length_lt.trans_le (Nat.le_of_lt_succ hc), h⟩

lemma Proceeds.advanceChild_bind {next : ℕ → TokenKind → Production β}
    (h : ∀ kind, Proceeds nested steps b b (next · kind)) :
    Proceeds nested steps (b + 1) b fun k => advanceChild >>= next k :=
  .bind_of_ok orderly_advanceChild fun _ kind _ hc hadvance =>
    ⟨b, (Cursor.moved_nextChild (advanceChild_eq_ok.1 hadvance)).length_lt.trans_le
      (Nat.le_of_lt_succ hc), h kind⟩

/-- The loop comes to an end. -/
lemma proceeds_of_orderly {production : Production β} (h : production.Orderly a) :
    Proceeds nested steps a b fun _ => production :=
  fun c hc => .inl ⟨production c, h hc, fun _ => rfl⟩

/-- The loop goes on. -/
lemma proceeds_run (loop : Loop) (answer : loop.Answer → β) :
    Proceeds nested steps b b fun k =>
      loop.run nested steps k >>= fun x => pure (answer x) :=
  fun c hc => .inr ⟨loop, c, answer, .refl, hc, fun _ => rfl⟩

/-- The loop goes on, and what is read in the round is nothing. -/
lemma proceeds_run_self (loop : Loop) : Proceeds nested steps b b (loop.run nested steps) := by
  simpa using (proceeds_run loop id : Proceeds nested steps b b _)

/-! ### The rounds of each loop -/

lemma proceeds_members : Proceeds nested steps (b + 1) b fun k => memberParts (k + 1) := by
  refine .bind (orderly_sees _) fun found => ?_
  cases found with
  | false => exact proceeds_of_orderly (orderly_pure _)
  | true =>
    refine .advance_bind (.bind orderly_take fun part => ?_)
    exact proceeds_run .members fun parts => part :: parts

lemma proceeds_expression (h : nested.Orderly steps) (hb : b ≤ steps) (depth : ℕ) :
    Proceeds nested steps (b + 1) b fun k => expressionMarkup nested (k + 1) depth := by
  refine .advance_bind (.bind orderly_current fun token => ?_)
  have hmarkup : Proceeds nested steps b b fun k => do
      let node ← nested
      let nodes ← expressionMarkup nested k depth
      return node :: nodes :=
    .bind (h.mono hb) fun node => proceeds_run (.expression depth) fun nodes => node :: nodes
  cases token with
  | none => exact proceeds_run_self (.expression depth)
  | some kind =>
    cases kind with
    | braceOpen => exact proceeds_run_self (.expression (depth + 1))
    | braceClose =>
      cases depth with
      | zero => exact proceeds_of_orderly (orderly_pure _)
      | succ depth => exact proceeds_run_self (.expression depth)
    | tagOpen => exact hmarkup
    | fragmentOpen => exact hmarkup
    | _ => exact proceeds_run_self (.expression depth)

lemma proceeds_attributes (h : nested.Orderly steps) (hb : b < steps) :
    Proceeds nested steps (b + 1) b fun k => attributes nested steps (k + 1) := by
  refine .bind_of_ok ((orderly_oneAttribute h).mono hb) fun c found c' hc hok => ?_
  cases found with
  | none =>
    have hmoves := (orderly_oneAttribute h).moves (hc.trans_le hb) hok
    exact ⟨b + 1, hmoves.length_le.trans_lt hc, proceeds_of_orderly (orderly_pure _)⟩
  | some node =>
    have hlt := oneAttribute_length_lt h (hc.trans_le hb) hok
    exact ⟨b, hlt.trans_le (Nat.le_of_lt_succ hc),
      proceeds_run .attributes fun nodes => node :: nodes⟩

lemma proceeds_children (h : nested.Orderly steps) (hb : b ≤ steps) :
    Proceeds nested steps (b + 1) b fun k => children nested steps (k + 1) := by
  refine .bind orderly_get fun c => .advanceChild_bind fun kind => ?_
  have hchild {construct : Production Node} (hconstruct : construct.Orderly steps) :
      Proceeds nested steps b b fun k => do
        let node ← construct
        let nodes ← children nested steps k
        return textAfter c ++ node :: nodes :=
    .bind (hconstruct.mono hb) fun node =>
      proceeds_run .children fun nodes => textAfter c ++ node :: nodes
  cases kind with
  | closingOpen => exact proceeds_of_orderly (orderly_pure _)
  | fragmentClose => exact proceeds_of_orderly (orderly_pure _)
  | tagOpen => exact hchild h
  | fragmentOpen => exact hchild h
  | braceOpen => exact hchild (orderly_expression h)
  | _ => exact proceeds_run .children fun nodes => textAfter c ++ nodes

/-- **One round.**  In a round, each loop comes to an end or reads at least one character. -/
lemma Loop.proceeds (loop : Loop) (h : nested.Orderly steps) (hb : b < steps) :
    Proceeds nested steps (b + 1) b fun k => loop.run nested steps (k + 1) := by
  cases loop with
  | members => exact proceeds_members
  | expression depth => exact proceeds_expression h hb.le depth
  | attributes => exact proceeds_attributes h hb
  | children => exact proceeds_children h hb.le

/-! ### All rounds -/

/-- Where the rounds of a loop are used up, they are used up from its second round on. -/
lemma Loop.exhausted_cases (loop : Loop) (h : nested.Orderly steps) (hc : c.rest.length < steps) :
    (∀ k d, loop.run nested steps (k + 1) c ≠ .error .exhausted d) ∨
      ∃ (loop' : Loop) (c' : Cursor), c.Moves c' ∧ c'.rest.length < c.rest.length ∧
        ∀ {k d}, loop.run nested steps (k + 1) c = .error .exhausted d →
          loop'.run nested steps k c' = .error .exhausted d := by
  rcases loop.proceeds h hc (Nat.lt_succ_self _) with
    ⟨result, hresult, hround⟩ | ⟨loop', c', answer, hmoves, hlt, hround⟩
  · refine .inl fun k d hexhausted => ?_
    obtain rfl := (hround k).symm.trans hexhausted
    cases hresult
  · refine .inr ⟨loop', c', hmoves, hlt, fun {k d} hexhausted => ?_⟩
    -- what is done with the answer of the other rounds does not use up any round
    rcases bind_eq_error.1 ((hround k).symm.trans hexhausted) with hrest | ⟨x, c₁, -, hpure⟩
    · exact hrest
    · simp at hpure

/-- **Rounds.**  Of two successive rounds of a loop the second begins further on. -/
theorem Loop.stop_lt {loop : Loop} (h : nested.Orderly steps) (hc : c.rest.length < steps)
    (hd : loop.run nested steps k c = .error .exhausted d)
    (hd' : loop.run nested steps (k + 1) c = .error .exhausted d') : d.stop < d'.stop := by
  induction k generalizing loop c with
  | zero =>
    rw [Loop.run_zero] at hd
    obtain ⟨-, rfl⟩ := EStateM.Result.error.inj hd
    rcases loop.exhausted_cases h hc with hends | ⟨loop', c', hmoves, hlt, hround⟩
    · exact absurd hd' (hends 0 d')
    · have hrest := hround hd'
      rw [Loop.run_zero] at hrest
      obtain ⟨-, rfl⟩ := EStateM.Result.error.inj hrest
      exact hmoves.stop_lt hlt
  | succ k ih =>
    rcases loop.exhausted_cases h hc with hends | ⟨loop', c', hmoves, hlt, hround⟩
    · exact absurd hd (hends k d)
    · exact ih (hlt.trans hc) (hround hd) (hround hd')

end Production

/-! ### The loop at the top -/

namespace Session

open Production

variable {s s' s'' : Session} {nested : Production Node} {steps k : ℕ}

/-- In a round the loop at the top comes to an end or reads at least one character. -/
lemma collect_proceeds (h : nested.Orderly steps) (hs : s.cursor.rest.length < steps) :
    (∀ k s', s.collect nested (k + 1) ≠ .error .exhausted s') ∨
      ∃ s' : Session, s.cursor.Moves s'.cursor ∧
        s'.cursor.rest.length < s.cursor.rest.length ∧
        ∀ k, s.collect nested (k + 1) = s'.collect nested k := by
  cases hnext : s.cursor.next with
  | error error c =>
    refine .inl fun k s' hexhausted => ?_
    rw [collect_of_next_error hnext] at hexhausted
    split at hexhausted <;> cases hexhausted
  | ok kind c =>
    have hmoved := Cursor.moved_next hnext
    by_cases hkind : kind.opensMarkup = true
    · have hregular := h (hmoved.length_lt.trans hs)
      cases hnode : nested c with
      | ok node c' =>
        have hmoves := h.moves (hmoved.length_lt.trans hs) hnode
        exact .inr ⟨⟨c', s.body.push node⟩, .head hmoved hmoves,
          hmoves.length_le.trans_lt hmoved.length_lt, fun k => collect_of_ok hnext hkind hnode⟩
      | error interruption c' =>
        rw [hnode] at hregular
        refine .inl fun k s' hexhausted => ?_
        rw [collect_of_error hnext hkind hnode] at hexhausted
        obtain ⟨rfl, -⟩ := EStateM.Result.error.inj hexhausted
        cases hregular
    · refine .inr ⟨⟨c, s.body⟩, .single hmoved, hmoved.length_lt, fun k => ?_⟩
      rw [collect, hnext]
      simp only [if_neg hkind]

/-- **Rounds at the top.**  Of two successive rounds of the loop at the top the second begins
further on. -/
theorem collect_stop_lt (h : nested.Orderly steps) (hs : s.cursor.rest.length < steps)
    (hs' : s.collect nested k = .error .exhausted s')
    (hs'' : s.collect nested (k + 1) = .error .exhausted s'') :
    s'.cursor.stop < s''.cursor.stop := by
  induction k generalizing s with
  | zero =>
    obtain ⟨-, rfl⟩ := EStateM.Result.error.inj hs'
    rcases collect_proceeds h hs with hends | ⟨s₁, hmoves, hlt, hround⟩
    · exact absurd hs'' (hends 0 s'')
    · obtain ⟨-, rfl⟩ := EStateM.Result.error.inj ((hround 0).symm.trans hs'')
      exact hmoves.stop_lt hlt
  | succ k ih =>
    rcases collect_proceeds h hs with hends | ⟨s₁, hmoves, hlt, hround⟩
    · exact absurd hs' (hends k s')
    · exact ih (hlt.trans hs) ((hround k).symm.trans hs') ((hround (k + 1)).symm.trans hs'')

end Session

end EmbeddedJsx
