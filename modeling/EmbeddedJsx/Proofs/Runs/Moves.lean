import Mathlib.Logic.Relation
import EmbeddedJsx.Production.Markup
import EmbeddedJsx.Proofs.Geometry.Phrases
import EmbeddedJsx.Proofs.Grammar.Soundness.Names
import EmbeddedJsx.Proofs.Lexical.Raw
import EmbeddedJsx.Proofs.Runs.Calls

/-!
# Productions move by calls

A production does nothing to a cursor but make calls on it, and it makes no further call once one
has failed.  So a production that succeeds leaves the cursor where successful calls lead
(`Cursor.Moves`), and one that fails does so in one of three ways (`Cursor.Fails`), each of which
says what the failure is about.

`Production.Orderly n` says that this is all that a production does when fewer than `n` characters
are left: the steps that its loops are allowed do not run out.  Sequences of orderly productions are
orderly (`Orderly.bind`), and so are the single steps out of which productions are made.
-/

namespace EmbeddedJsx

namespace Cursor

variable {c c' c'' m : Cursor} {call : Call} {kind : TokenKind} {error : SyntaxError}

/-- A call on the first cursor succeeds and leads to the second. -/
def Moved (c c' : Cursor) : Prop := ∃ (call : Call) (kind : TokenKind), call.perform c = .ok kind c'

/-- Successful calls lead from the first cursor to the second. -/
abbrev Moves : Cursor → Cursor → Prop := Relation.ReflTransGen Moved

lemma moved_next (h : c.next = .ok kind c') : c.Moved c' := ⟨.next, kind, h⟩

lemma moved_nextChild (h : c.nextChild = .ok kind c') : c.Moved c' := ⟨.nextChild, kind, h⟩

lemma Moved.stands (h : c.Moved c') : c'.Stands := by
  obtain ⟨call, kind, h⟩ := h
  cases call with
  | next => exact (next_eq_ok_iff.1 h).2.2.stands
  | nextChild => exact (nextChild_eq_ok_iff.1 h).2.1.stands

/-- A successful call reads at least one character. -/
lemma Moved.length_lt (h : c.Moved c') : c'.rest.length < c.rest.length := by
  obtain ⟨call, kind, h⟩ := h
  cases call with
  | next => exact (next_eq_ok_iff.1 h).2.next.length_lt
  | nextChild =>
    obtain ⟨-, hon, horigin⟩ := nextChild_eq_ok_iff.1 h
    have hlt := hon.reads.length_lt
    rw [horigin] at hlt
    exact hlt.trans_le (Place.Reaches.length_le ⟨_, c.raw_passes⟩)

lemma Moves.length_le (h : c.Moves c') : c'.rest.length ≤ c.rest.length := by
  induction h with
  | refl => exact le_rfl
  | tail _ hlast ih => exact hlast.length_lt.le.trans ih

/-- Only where a cursor has not moved it may stand on no token. -/
lemma Moves.stands (h : c.Moves c') (hc : c.Stands) : c'.Stands := by
  cases h with
  | refl => exact hc
  | tail _ hlast => exact hlast.stands

lemma Moves.exists_run (h : c.Moves c') : ∃ calls, c.run calls = c' := by
  induction h with
  | refl => exact ⟨[], rfl⟩
  | tail _ hlast ih =>
    obtain ⟨calls, rfl⟩ := ih
    obtain ⟨call, kind, hcall⟩ := hlast
    exact ⟨calls ++ [call], by rw [run_append, run_cons, hcall]; rfl⟩

/-- Something fails that begins at the first cursor and leaves the second behind. -/
inductive Fails (c : Cursor) : SyntaxError → Cursor → Prop where
  /-- The token reached is refused. -/
  | refused {fault : Fault} {c' : Cursor} :
      c.Moves c' → fault.family = .unexpected → Fails c ⟨fault, c'.span⟩ c'
  /-- A call fails.  If it fails at the end of the input, the construct is at fault. -/
  | call {m c' : Cursor} {call : Call} {error : SyntaxError} {construct : Fault} :
      c.Moves m → call.perform m = .error error c' → construct.family = .truncated →
      Fails c (error.inside construct) c'
  /-- Something that stands before the token reached is refused. -/
  | before {fault : Fault} {span : Span} {c' : Cursor} :
      c.Moves c' → fault.family = .unexpected → span.start < span.stop → span.stop ≤ c'.start →
      Fails c ⟨fault, span⟩ c'

lemma Fails.of_moves (h : c.Moves c') (h' : c'.Fails error c'') : c.Fails error c'' := by
  cases h' with
  | refused hmoves hfamily => exact .refused (h.trans hmoves) hfamily
  | call hmoves hcall hfamily => exact .call (h.trans hmoves) hcall hfamily
  | before hmoves hfamily hlt hle => exact .before (h.trans hmoves) hfamily hlt hle

lemma Fails.exists_run (h : c.Fails error c') : ∃ calls, c.run calls = c' := by
  cases h with
  | refused hmoves _ => exact hmoves.exists_run
  | @call m _ call _ _ hmoves hcall _ =>
    obtain ⟨calls, rfl⟩ := hmoves.exists_run
    exact ⟨calls ++ [call], by rw [run_append, run_cons, hcall]; rfl⟩
  | before hmoves _ _ _ => exact hmoves.exists_run

end Cursor

namespace Production

variable {α β : Type} {c c' : Cursor} {n k steps : ℕ} {first : Production α}
  {next : α → Production β} {kind : TokenKind} {what : Expectation}

/-- All that a production can lead to, if its steps do not run out. -/
inductive Regular (c : Cursor) : EStateM.Result Interruption Cursor α → Prop where
  | ok {a : α} {c' : Cursor} : c.Moves c' → Regular c (.ok a c')
  | fault {error : SyntaxError} {c' : Cursor} :
      c.Fails error c' → Regular c (.error (.fault error) c')

lemma Regular.of_moves {result : EStateM.Result Interruption Cursor α} (h : c.Moves c')
    (h' : Regular c' result) : Regular c result := by
  cases h' with
  | ok hmoves => exact .ok (h.trans hmoves)
  | fault hfails => exact .fault (.of_moves h hfails)

/-- Where fewer than the given number of characters are left, the production makes calls and
nothing else, and its steps do not run out. -/
def Orderly (n : ℕ) (production : Production α) : Prop :=
  ∀ ⦃c : Cursor⦄, c.rest.length < n → Regular c (production c)

lemma Orderly.mono (h : first.Orderly n) (hk : k ≤ n) : first.Orderly k :=
  fun _ hc => h (hc.trans_le hk)

lemma Orderly.moves {a : α} (h : first.Orderly n) (hc : c.rest.length < n)
    (hok : first c = .ok a c') : c.Moves c' := by
  have hregular := h hc
  rw [hok] at hregular
  cases hregular with
  | ok hmoves => exact hmoves

/-! ### Sequences -/

/-- The second of two productions need be orderly only where the first leads. -/
lemma Orderly.bind_of_ok (h : first.Orderly n)
    (h' : ∀ ⦃c a c'⦄, c.rest.length < n → first c = .ok a c' → Regular c' (next a c')) :
    (first >>= next).Orderly n := by
  intro c hc
  have hfirst := h hc
  simp only [bind, EStateM.bind]
  cases hok : first c with
  | ok a c' =>
    rw [hok] at hfirst
    cases hfirst with
    | ok hmoves => exact (h' hc hok).of_moves hmoves
  | error interruption c' =>
    rw [hok] at hfirst
    cases hfirst with
    | fault hfails => exact .fault hfails

lemma Orderly.bind (h : first.Orderly n) (h' : ∀ a, (next a).Orderly n) :
    (first >>= next).Orderly n :=
  h.bind_of_ok fun _ a _ hc hok => h' a ((h.moves hc hok).length_le.trans_lt hc)

lemma orderly_pure (a : α) : (pure a : Production α).Orderly n := fun _ _ => .ok .refl

lemma orderly_get : (get : Production Cursor).Orderly n := fun _ _ => .ok .refl

lemma orderly_current : current.Orderly n := fun _ _ => .ok .refl

lemma orderly_sees (kind : TokenKind) : (sees kind).Orderly n := fun _ _ => .ok .refl

lemma orderly_reject {fault : Fault} (h : fault.family = .unexpected) :
    (reject fault : Production α).Orderly n := fun _ _ => .fault (.refused .refl h)

lemma orderly_expect : (expect kind what).Orderly n := by
  intro c _
  unfold expect
  split
  · exact .ok .refl
  · exact .fault (.refused .refl rfl)

lemma regular_ofStep {construct : Fault} (call : Cursor.Call)
    (hfamily : construct.family = .truncated) : Regular c (ofStep construct call.perform c) := by
  unfold ofStep
  split
  · next kind c' hcall => exact .ok (.single ⟨call, kind, hcall⟩)
  · next error c' hcall => exact .fault (.call .refl hcall hfamily)

lemma orderly_advance : advance.Orderly n :=
  Orderly.bind (fun _ _ => regular_ofStep .next rfl) fun _ => orderly_pure ()

lemma orderly_advanceChild : advanceChild.Orderly n := fun _ _ => regular_ofStep .nextChild rfl

lemma orderly_take : (take kind what).Orderly n :=
  orderly_expect.bind fun e => orderly_advance.bind fun _ => orderly_pure e

lemma advance_moved {u : Unit} (h : advance c = .ok u c') : c.Moved c' := by
  obtain ⟨kind, h⟩ := advance_eq_ok.1 h
  exact Cursor.moved_next h

lemma take_moved {e : Excerpt} (h : take kind what c = .ok e c') : c.Moved c' :=
  advance_moved (take_eq_ok.1 h).2.2

/-- After a token has been read, fewer characters are left. -/
lemma Orderly.advance_bind {next : Unit → Production β} (h : (next ()).Orderly n) :
    (advance >>= next).Orderly (n + 1) :=
  orderly_advance.bind_of_ok fun _ _ _ hc hok =>
    h ((advance_moved hok).length_lt.trans_le (Nat.le_of_lt_succ hc))

lemma Orderly.advanceChild_bind {next : TokenKind → Production β} (h : ∀ kind, (next kind).Orderly n) :
    (advanceChild >>= next).Orderly (n + 1) :=
  orderly_advanceChild.bind_of_ok fun _ kind _ hc hok =>
    h kind ((Cursor.moved_nextChild (advanceChild_eq_ok.1 hok)).length_lt.trans_le
      (Nat.le_of_lt_succ hc))

end Production

end EmbeddedJsx
