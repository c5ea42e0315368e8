import EmbeddedJsx.Proofs.Reading.Order

/-!
# Visits are calls on a cursor

The visits with which a program is read are what happens when calls are made on a cursor, one
after the other, from the beginning of the text: each visit of a token is a call that leads to that
token, each visit of raw text is what the call after it passes over, and the last call finds the
end of the input.  The calls are a matter of the visits alone (`Visit.call?`), and the main
statement is `Program.ReadBy.happens`.
-/

namespace EmbeddedJsx

/-- Where a call looks for a token. -/
def Cursor.Call.entry : Cursor.Call → Cursor → Place
  | .next, c => c.place
  | .nextChild, c => c.skipRaw.place

namespace Visit

/-- The call that is made on a visit.  Raw text is passed over by the call that comes next. -/
def call? : Visit → Option Cursor.Call
  | token call _ _ _ => some call
  | raw _ => none
  | finish _ => some .next

/-- What the visit records happens at a cursor. -/
def Happens (c : Cursor) : Visit → Prop
  | token call origin kind span =>
    origin = (call.entry c).offset ∧ ∃ c', call.perform c = .ok kind c' ∧ c'.span = span
  | raw span => c.raw ≠ [] ∧ span = ⟨c.stop, c.skipRaw.stop⟩
  | finish origin =>
    origin = c.stop ∧ ∃ error c', c.next = .error error c' ∧ error.fault = .endOfInput

/-- The visit can be made from a cursor if it can be made at a place. -/
def Awaits (c : Cursor) (p : Place) : Visit → Prop
  | token call _ _ _ => call.entry c = p
  | _ => c.place = p

end Visit

variable {c : Cursor} {p q : Place} {v w : Visit} {kind : TokenKind} {origin : ℕ} {span : Span}
  {call : Cursor.Call} {text : List Char} {program : Program}

/-- Where there is no raw text, none is passed over. -/
lemma Cursor.Call.entry_eq (h : c.place.NotRaw) : call.entry c = c.place := by
  cases call with
  | next => rfl
  | nextChild =>
    have hpass : c.place.Passes [] c.place := Place.passes_nil.2 rfl
    exact (raw_of_passes hpass (by simp) h).2

/-- The call that a visit records leads to the cursor on its token. -/
lemma Place.Makes.exists_perform (h : p.Makes (.token call origin kind span) q)
    (hentry : call.entry c = p) (htoken : c.token ≠ some .endOfInput) :
    ∃ c', call.perform c = .ok kind c' ∧ c'.span = span ∧ c'.place = q ∧
      c'.token ≠ some .endOfInput := by
  obtain ⟨e, hnext, rfl⟩ := h.next_of_token
  obtain ⟨c', hafter, rfl, hplace⟩ := Cursor.exists_after hnext
  subst hentry
  cases call with
  | next =>
    exact ⟨c', Cursor.next_eq_ok_iff.2 ⟨htoken, hafter⟩, rfl, hplace, hafter.2.token_ne⟩
  | nextChild =>
    exact ⟨c', Cursor.next_eq_ok_iff.2 ⟨htoken, hafter⟩, rfl, hplace, hafter.2.token_ne⟩

lemma Visit.Awaits.happens (h : v.Awaits c p) (htoken : c.token ≠ some .endOfInput)
    (hmakes : p.Makes v q) : v.Happens c := by
  cases v with
  | token call origin kind span =>
    obtain ⟨c', hcall, hspan, -⟩ := hmakes.exists_perform h htoken
    obtain rfl : call.entry c = p := h
    exact ⟨hmakes.origin_eq, c', hcall, hspan⟩
  | raw span =>
    obtain ⟨run, hpass, hne, hraw, hend⟩ := hmakes.exists_passes
    obtain rfl : c.place = p := h
    obtain ⟨rfl, rfl⟩ := Cursor.raw_of_passes hpass hraw hend
    refine ⟨hne, ?_⟩
    rw [← show span.start = c.stop from hmakes.origin_eq,
      ← show span.stop = c.skipRaw.stop from hmakes.stop_eq]
  | finish origin =>
    obtain ⟨hends, rfl⟩ := hmakes.ends
    obtain rfl : c.place = p := h
    obtain ⟨c', hnext⟩ := Cursor.exists_next_eq_error_of_ends htoken hends
    exact ⟨hmakes.origin_eq, _, c', hnext, rfl⟩

/-- **Step.**  The call that is made on a visit leaves a cursor from which the next visit can be
made. -/
lemma Visit.Awaits.step {r : Place} (h : v.Awaits c p) (htoken : c.token ≠ some .endOfInput)
    (hmakes : p.Makes v q) (hprecedes : v.Precedes w) (hmakes' : q.Makes w r) :
    (c.run v.call?.toList).token ≠ some .endOfInput ∧ w.Awaits (c.run v.call?.toList) q := by
  cases v with
  | token call origin kind span =>
    obtain ⟨c', hcall, -, rfl, htoken'⟩ := hmakes.exists_perform h htoken
    have hrun : c.run [call] = c' := by
      rw [Cursor.run_cons, hcall]
      rfl
    refine ⟨hrun ▸ htoken', (?_ : w.Awaits (c.run [call]) c'.place)⟩
    rw [hrun]
    cases hmakes' with
    | nextChild hraw _ => exact Cursor.Call.entry_eq hraw
    | _ => rfl
  | raw span =>
    obtain ⟨run, hpass, -, hraw, hend⟩ := hmakes.exists_passes
    obtain rfl : c.place = p := h
    obtain ⟨-, hskip⟩ := Cursor.raw_of_passes hpass hraw hend
    refine ⟨htoken, ?_⟩
    cases hprecedes with
    | child _ => exact hskip
    | raw _ => exact (hmakes.not_raw_raw hmakes').elim
    | next hbefore | finish hbefore => simp [IsToken] at hbefore
  | finish _ =>
    have hbefore := hprecedes.precedesChild_or_isToken
    simp [PrecedesChild, Bounds, IsToken] at hbefore

/-- **Run.**  What the visits record happens when their calls are made one after the other. -/
lemma Walk.happens {left right : List Visit} {before last : Visit}
    (hwalk : Walk p (left ++ v :: right) q) (hleads : before.Leads (left ++ v :: right) last)
    (hfirst : ∀ first ∈ (left ++ v :: right).head?, first.Awaits c p)
    (htoken : c.token ≠ some .endOfInput) : v.Happens (c.run (left.filterMap Visit.call?)) := by
  induction left generalizing c p before with
  | nil =>
    obtain ⟨a, hmakes, -⟩ := Walk.cons_iff.1 hwalk
    exact (hfirst v rfl).happens htoken hmakes
  | cons first left ih =>
    rw [List.cons_append] at hwalk hleads
    obtain ⟨a, hmakes, hrest⟩ := Walk.cons_iff.1 hwalk
    cases hleads with
    | cons _ hleads =>
    obtain ⟨second, rest, heq⟩ : ∃ second rest, left ++ v :: right = second :: rest := by
      cases left <;> simp
    obtain ⟨b, hmakes', -⟩ := Walk.cons_iff.1 (heq ▸ hrest)
    obtain hprecedes : first.Precedes second := by
      rw [heq] at hleads
      cases hleads with
      | cons hprecedes _ => exact hprecedes
    obtain ⟨htoken', hawaits⟩ := (hfirst first rfl).step htoken hmakes hprecedes hmakes'
    have hlast := ih hrest hleads (by simpa [heq] using hawaits) htoken'
    have hcalls : (first :: left).filterMap Visit.call? =
        first.call?.toList ++ left.filterMap Visit.call? := by
      cases hcall : first.call? <;> simp [hcall]
    rwa [hcalls, Cursor.run_append]

/-- **Reading is calling.**  When the calls of the visits are made one after the other on the
cursor before the text, what each visit records is what happens there. -/
theorem Program.ReadBy.happens {left right : List Visit}
    (h : program.ReadBy text (left ++ v :: right)) :
    v.Happens ((Cursor.ofText text).run (left.filterMap Visit.call?)) := by
  obtain ⟨last, hleads⟩ :=
    h.spells.leads (v := .token .next 0 .endOfInput ⟨0, 0⟩) Visit.isToken_token
  obtain ⟨q, hwalk⟩ := h.walk
  refine hwalk.happens hleads (fun first hfirst => ?_) (by simp)
  obtain ⟨rest, hrest⟩ : ∃ rest, left ++ v :: right = first :: rest := by
    cases left <;> simp_all
  rw [hrest] at hleads
  -- a program does not begin after raw text
  cases hleads with
  | cons hprecedes _ =>
    cases hprecedes with
    | next _ | finish _ => rfl
    | child hbefore | raw hbefore =>
      simp [Visit.PrecedesChild, Visit.Bounds, TokenKind.bounds] at hbefore

end EmbeddedJsx
