import EmbeddedJsx.Proofs.Checks.Readings
import EmbeddedJsx.Proofs.Runs.Constructs

/-!
# Calls on a session

A session is used by calls: the next token is asked for, a construct is read, or all top-level
markup is collected.  Calls may be made in any order, and after failures as well.

Whatever has been called before, a call answers or fails with an error of a family that it may fail
with, and the error is about a part of the text.  None of the checks fails that a reader by offsets
makes on the way.  Nothing is taken out of what has been collected, and only collecting adds to it.
These laws are listed in `Session.Lawful`, and the main statement is `Session.lawful_calls`: they
hold of every call after every run.
-/

namespace EmbeddedJsx

open Production

/-- An error is about a part of the text, which goes up to its end if the text is cut short. -/
structure SyntaxError.Documented (text : List Char) (error : SyntaxError) : Prop where
  start_le : error.span.start ≤ error.span.stop
  stop_le : error.span.stop ≤ text.length
  truncated : error.fault.family = .truncated → error.span.stop = text.length

/-! ### Errors of cursors and of productions -/

section Errors

variable {text : List Char} {c c' : Cursor} {error : SyntaxError} {construct : Fault}

/-- An error seen from inside a construct is about the same part of the text. -/
@[simp] lemma SyntaxError.span_inside : (error.inside construct).span = error.span := by
  unfold SyntaxError.inside
  split <;> rfl

/-- Inside a construct that may be cut short the input does not end at a token boundary. -/
lemma SyntaxError.family_inside (h : construct.family = .truncated) :
    (error.inside construct).fault.family ≠ .boundary := by
  unfold SyntaxError.inside
  split
  · simp [h]
  · assumption

lemma Cursor.Outcome.documented (h : Outcome text c (.error error c')) :
    error.Documented text := by
  cases h with
  | malformed hfamily hspan _ _ hlt hle =>
    exact ⟨by simp only [hspan]; exact hlt.le, by simp only [hspan]; exact hle, by simp [hfamily]⟩
  | truncated hfamily hspan _ _ hlt hstop =>
    have hspan_stop : error.span.stop = text.length := by rw [hspan]; exact hstop
    exact ⟨by simp only [hspan]; exact hlt.le, hspan_stop.le, fun _ => hspan_stop⟩
  | ended hfamily hspan _ hstart hstop =>
    have hspan_stop : error.span.stop = text.length := by rw [hspan]; exact hstop
    exact ⟨by simp only [hspan]; exact c'.start_le_stop, hspan_stop.le, by simp [hfamily]⟩

/-- A call that fails and does not find the input ended is about some characters. -/
lemma Cursor.Outcome.start_lt (h : Outcome text c (.error error c'))
    (hfamily : error.fault.family ≠ .boundary) : error.span.start < error.span.stop := by
  cases h with
  | malformed _ hspan _ _ hlt _ | truncated _ hspan _ _ hlt _ =>
    rw [hspan]
    exact hlt
  | ended hended => exact absurd hended hfamily

/-- At the end of the text, an error of a call becomes one of the construct. -/
lemma Cursor.Outcome.documented_inside (h : Outcome text c (.error error c')) :
    (error.inside construct).Documented text := by
  have hdocumented := h.documented
  refine ⟨by simpa using hdocumented.start_le, by simpa using hdocumented.stop_le, ?_⟩
  intro hfamily
  rw [SyntaxError.span_inside]
  cases h with
  | malformed hmalformed _ _ _ _ _ =>
    simp [SyntaxError.inside, hmalformed] at hfamily
  | truncated htruncated _ _ _ _ _ => exact hdocumented.truncated htruncated
  | ended _ hspan _ _ hstop =>
    rw [hspan]
    exact hstop

lemma Cursor.Fails.documented (h : c.Fails error c') (hc : c.Settled text) :
    error.Documented text := by
  cases h with
  | refused hmoves hfamily =>
    exact ⟨c'.start_le_stop, (hc.moves hmoves).within.stop_le, by simp [hfamily]⟩
  | @call m _ call error construct hmoves hcall _ =>
    have houtcome := (hc.moves hmoves).outcome call
    rw [hcall] at houtcome
    exact houtcome.documented_inside
  | before hmoves hfamily hlt hle =>
    have hwithin := (hc.moves hmoves).within
    exact ⟨hlt.le, hle.trans (c'.start_le_stop.trans hwithin.stop_le), by simp [hfamily]⟩

lemma Cursor.Fails.family_ne_boundary (h : c.Fails error c') : error.fault.family ≠ .boundary := by
  cases h with
  | refused _ hfamily | before _ hfamily _ _ => simp [hfamily]
  | call _ _ hconstruct => exact SyntaxError.family_inside hconstruct

/-- What is refused after a token has been read is about some characters. -/
lemma Cursor.Fails.start_lt (h : c.Fails error c') (hc : c.Settled text) (hstands : c.Stands)
    (hfamily : error.fault.family = .unexpected) : error.span.start < error.span.stop := by
  cases h with
  | refused hmoves _ =>
    obtain ⟨kind, hon⟩ := hmoves.stands hstands
    exact hon.reads.offset_lt
  | @call m _ call error construct hmoves hcall hconstruct =>
    have houtcome := (hc.moves hmoves).outcome call
    rw [hcall] at houtcome
    rw [SyntaxError.span_inside]
    refine houtcome.start_lt fun hboundary => ?_
    simp [SyntaxError.inside, hboundary, hconstruct] at hfamily
  | before _ _ hlt _ => exact hlt

end Errors

namespace Session

variable {text : List Char} {s s' s'' : Session} {levels steps k : ℕ}

/-! ### Calls -/

/-- A way of using a session. -/
inductive Call where
  /-- The next token is asked for. -/
  | token (call : Cursor.Call)
  /-- All top-level markup is collected. -/
  | parse
  /-- A construct is read. -/
  | read (construct : Construct)
deriving DecidableEq, Repr

/-- What a call answers with. -/
def Call.Answer : Call → Type
  | token _ => TokenKind
  | parse => Program
  | read construct => construct.Answer

/-- A call on the cursor of the session. -/
def goOn (call : Cursor.Call) (s : Session) : Step TokenKind :=
  match call.perform s.cursor with
  | .ok kind c => .ok kind ⟨c, s.body⟩
  | .error error c => .error error ⟨c, s.body⟩

/-- What a call leads to, where elements and fragments may be nested the given number of levels
deep.  A construct that is read by itself stands on the first of them. -/
def Call.perform (levels : ℕ) : (call : Call) → Session → Step call.Answer
  | token call => goOn call
  | parse => Session.parse levels
  | read construct => Session.read construct.rule (levels - 1)

/-- The steps allowed for loops are used up, which would be reported as markup nested too
deeply. -/
def Call.Exhausts (levels : ℕ) : Call → Session → Prop
  | token _, _ => False
  | parse, s => ∃ s', s.collectWithin s.cursor.steps levels = .error .exhausted s'
  | read construct, s =>
    ∃ c, construct.rule (markup s.cursor.steps (levels - 1)) s.cursor.steps s.cursor =
      .error .exhausted c

/-- The session that is left behind. -/
def Step.session {α : Type} : Step α → Session
  | .ok _ s => s
  | .error _ s => s

/-- The session that is left behind by calls made one after the other, each of which may have
failed. -/
def run (levels : ℕ) (s : Session) (calls : List Call) : Session :=
  calls.foldl (fun s call => (call.perform levels s).session) s

/-- What a call leads to if all is checked that a reader takes for granted. -/
def Call.attempt (text : List Char) (levels : ℕ) :
    (call : Call) → Reading → Reading.Step call.Answer
  | token call => Reading.goOn text call.perform
  | parse => Reading.parse text levels
  | read construct => Reading.read text construct.checkedRule (levels - 1)

/-- What a step leads to, without the characters that the cursor carries. -/
def Step.asReading {α : Type} : Step α → Reading.Step α :=
  Checked.restate (fun error => .interrupted (.fault error)) reading

/-- The reading that is left behind by calls made one after the other, each of which may have
failed. -/
def runChecked (text : List Char) (levels : ℕ) (r : Reading) (calls : List Call) : Reading :=
  calls.foldl (fun r call => (call.attempt text levels r).reading) r

/-- What an answer shows of the text are slices of it. -/
def Call.Shows (text : List Char) : (call : Call) → call.Answer → Prop
  | token _, _ => True
  | parse, program => ∀ root ∈ program.body, root.Sliced text
  | read construct, a => construct.Shows text a

/-! ### What a call can do to a session -/

/-- A session that can be come by: its cursor is one that can be come by, and what it has collected
stands in the text. -/
structure Settled (text : List Char) (s : Session) : Prop where
  cursor : s.cursor.Settled text
  body : ∀ root ∈ s.body.toList, root.Sliced text

lemma settled_ofText (text : String) : (ofText text).Settled text.toList :=
  ⟨Cursor.settled_ofText _, by simp [ofText]⟩

/-- Calls on its cursor and additions to what it has collected lead from the first session to the
second. -/
structure Extends (text : List Char) (s s' : Session) : Prop where
  cursor : ∃ calls, s.cursor.run calls = s'.cursor
  body : ∃ nodes, s'.body.toList = s.body.toList ++ nodes ∧ ∀ root ∈ nodes, root.Sliced text

lemma Extends.trans (h : Extends text s s') (h' : Extends text s' s'') : Extends text s s'' := by
  obtain ⟨⟨calls, hcursor⟩, nodes, hbody, hnodes⟩ := h
  obtain ⟨⟨calls', hcursor'⟩, nodes', hbody', hnodes'⟩ := h'
  refine ⟨⟨calls ++ calls', ?_⟩, nodes ++ nodes', ?_, fun root hroot => ?_⟩
  · rw [Cursor.run_append, hcursor, hcursor']
  · rw [hbody', hbody, List.append_assoc]
  · rcases List.mem_append.1 hroot with hroot | hroot
    · exact hnodes root hroot
    · exact hnodes' root hroot

/-- A session whose cursor alone has moved. -/
lemma extends_of_run {c : Cursor} {calls : List Cursor.Call} (h : s.cursor.run calls = c) :
    Extends text s ⟨c, s.body⟩ :=
  ⟨⟨calls, h⟩, [], by simp, by simp⟩

lemma Settled.extends (h : s.Settled text) (hextends : Extends text s s') : s'.Settled text := by
  obtain ⟨⟨calls, hcursor⟩, nodes, hbody, hnodes⟩ := hextends
  refine ⟨hcursor ▸ h.cursor.run calls, fun root hroot => ?_⟩
  rw [hbody] at hroot
  rcases List.mem_append.1 hroot with hroot | hroot
  · exact h.body root hroot
  · exact hnodes root hroot

/-- What collecting can lead to. -/
inductive Gathers (text : List Char) (s : Session) : Collected → Prop where
  | ok {s' : Session} : Extends text s s' → Gathers text s (.ok ⟨s'.body.toList⟩ s')
  | fault {error : SyntaxError} {s' : Session} :
      Extends text s s' → error.Documented text → error.fault.family ≠ .boundary →
      (error.fault.family = .unexpected → error.span.start < error.span.stop) →
      Gathers text s (.error (.fault error) s')

lemma Gathers.of_extends {result : Collected} (h : Extends text s s')
    (h' : Gathers text s' result) : Gathers text s result := by
  cases h' with
  | ok hextends => exact .ok (h.trans hextends)
  | fault hextends hdocumented hfamily hlt =>
    exact .fault (h.trans hextends) hdocumented hfamily hlt

/-- The first call of a round of collecting fails. -/
lemma gathers_of_next_error {error : SyntaxError} {c : Cursor} (hs : s.Settled text)
    (hnext : s.cursor.next = .error error c) :
    Gathers text s (if error.fault.family = .boundary then .ok ⟨s.body.toList⟩ ⟨c, s.body⟩
      else .error (.fault error) ⟨c, s.body⟩) := by
  have hextends : Extends text s ⟨c, s.body⟩ :=
    extends_of_run (show s.cursor.run [.next] = c by
      rw [Cursor.run_cons, Cursor.Call.perform, hnext]
      rfl)
  have houtcome := hs.cursor.outcome_next
  rw [hnext] at houtcome
  split
  · exact .ok hextends
  · next hfamily =>
    exact .fault hextends houtcome.documented hfamily fun _ => houtcome.start_lt hfamily

/-- Collecting gathers nodes of the text.  The steps do not run out, for each round reads at least
one character. -/
lemma gathers_collect (hs : s.Settled text) (hk : s.cursor.rest.length < k)
    (hsteps : s.cursor.rest.length < steps) :
    Gathers text s (s.collect (markup steps levels) k) := by
  induction k generalizing s with
  | zero => exact absurd hk (Nat.not_lt_zero _)
  | succ k ih =>
    rw [collect]
    split
    · next error c hnext => exact gathers_of_next_error hs hnext
    · next kind c hnext =>
      have hmoved : s.cursor.Moved c := Cursor.moved_next hnext
      have hlt := hmoved.length_lt
      have hc : c.Settled text := hs.cursor.moves (.single hmoved)
      split
      · have hregular := orderly_markup steps levels (hlt.trans hsteps)
        split
        · next node c' hnode =>
          -- what has been read is collected before the next round
          rw [hnode] at hregular
          cases hregular with
          | ok hmoves =>
            obtain ⟨calls, hcalls⟩ := Cursor.Moves.exists_run (.head hmoved hmoves)
            obtain ⟨hderives, -, -⟩ := markup_sound steps levels hmoved.stands hnode
            have hnode : node.Sliced text :=
              Grammar.HasPhrase.sliced ⟨_, _, _, rfl, hderives, hc.within.inText_origin⟩
            have hextends : Extends text s ⟨c', s.body.push node⟩ :=
              ⟨⟨calls, hcalls⟩, [node], by simp, by simpa using hnode⟩
            have hle := hmoves.length_le
            exact .of_extends hextends
              (ih (hs.extends hextends) (by simp only; omega) (by simp only; omega))
        · next interruption c' hnode =>
          rw [hnode] at hregular
          cases hregular with
          | fault hfails =>
            obtain ⟨calls, hcalls⟩ := (Cursor.Fails.of_moves (.single hmoved) hfails).exists_run
            exact .fault (extends_of_run hcalls) (hfails.documented hc) hfails.family_ne_boundary
              (hfails.start_lt hc hmoved.stands)
      · obtain ⟨calls, hcalls⟩ := Cursor.Moves.exists_run (.single hmoved)
        have hextends : Extends text s ⟨c, s.body⟩ := extends_of_run hcalls
        exact .of_extends hextends
          (ih (hs.extends hextends) (by simp only; omega) (by simp only; omega))

/-! ### The laws -/

/-- What holds of a call on a session. -/
structure Lawful (text : List Char) (levels : ℕ) (s : Session) (call : Call) : Prop where
  /-- The laws of cursors hold of the cursor. -/
  cursor : s.cursor.Lawful text
  /-- The steps allowed for loops do not run out. -/
  enough : ¬ call.Exhausts levels s
  /-- With all checks the call leads to just what it leads to without them. -/
  checked : call.attempt text levels s.reading = (call.perform levels s).asReading
  /-- No check fails, whether the call answers or not: there is a token where one is asked for, the
  bounds of each slice are in order, and there are the parts of names that are asked for. -/
  unbroken : ∀ breach r, call.attempt text levels s.reading ≠ .error (.broken breach) r
  /-- What an answer shows of the text can be looked up there. -/
  answers : ∀ a s', call.perform levels s = .ok a s' → call.Shows text a
  /-- An error is about a part of the text.  Only where a token is asked for it may say that the
  input ends between tokens, and where all markup is collected, what is refused has characters. -/
  errors : ∀ error s', call.perform levels s = .error error s' →
    error.Documented text ∧
      (error.fault.family = .boundary → ∃ cursorCall, call = .token cursorCall) ∧
      (error.fault.family = .unexpected → call = .parse → error.span.start < error.span.stop)
  /-- What has been collected stays, and what is added to it stands in the text. -/
  grows : Extends text s (call.perform levels s).session
  /-- Only collecting adds to what has been collected. -/
  kept : call ≠ .parse → (call.perform levels s).session.body = s.body

section Proofs

variable {call : Call} {c : Cursor} {error : SyntaxError}

lemma reading_asReading {α : Type} (step : Step α) :
    step.asReading.reading = step.session.reading := by
  cases step <;> rfl

/-- A failure of the text is no breach. -/
lemma unbroken_of_checked
    (h : call.attempt text levels s.reading = (call.perform levels s).asReading)
    (breach : Breach) (r : Reading) :
    call.attempt text levels s.reading ≠ .error (.broken breach) r := by
  rw [h]
  cases call.perform levels s with
  | ok a s' => exact nofun
  | error error s' => exact nofun

/-- A call that answers and collects nothing is lawful. -/
lemma lawful_of_ok {a : call.Answer} (hs : s.Settled text)
    (hperform : call.perform levels s = .ok a ⟨c, s.body⟩)
    (hattempt : call.attempt text levels s.reading = .ok a ⟨c.mark, s.body⟩)
    (hrun : ∃ calls, s.cursor.run calls = c) (henough : ¬ call.Exhausts levels s)
    (hshows : call.Shows text a) : Lawful text levels s call := by
  obtain ⟨calls, hrun⟩ := hrun
  have hchecked : call.attempt text levels s.reading = (call.perform levels s).asReading := by
    rw [hattempt, hperform]
    rfl
  refine ⟨hs.cursor.lawful, henough, hchecked, unbroken_of_checked hchecked, ?_, ?_, ?_, ?_⟩
  · intro a' s' hok
    rw [hperform] at hok
    obtain ⟨rfl, -⟩ := EStateM.Result.ok.inj hok
    exact hshows
  · intro error s' herror
    rw [hperform] at herror
    cases herror
  · rw [hperform]
    exact extends_of_run hrun
  · rw [hperform]
    exact fun _ => rfl

/-- A call that fails and collects nothing is lawful. -/
lemma lawful_of_error (hs : s.Settled text)
    (hperform : call.perform levels s = .error error ⟨c, s.body⟩)
    (hattempt : call.attempt text levels s.reading =
      .error (.interrupted (.fault error)) ⟨c.mark, s.body⟩)
    (hrun : ∃ calls, s.cursor.run calls = c) (henough : ¬ call.Exhausts levels s)
    (hdocumented : error.Documented text) (hcall : call ≠ .parse)
    (hfamily : error.fault.family = .boundary → ∃ cursorCall, call = .token cursorCall) :
    Lawful text levels s call := by
  obtain ⟨calls, hrun⟩ := hrun
  have hchecked : call.attempt text levels s.reading = (call.perform levels s).asReading := by
    rw [hattempt, hperform]
    rfl
  refine ⟨hs.cursor.lawful, henough, hchecked, unbroken_of_checked hchecked, ?_, ?_, ?_, ?_⟩
  · intro a s' hok
    rw [hperform] at hok
    cases hok
  · intro error' s' herror
    rw [hperform] at herror
    obtain ⟨rfl, -⟩ := EStateM.Result.error.inj herror
    exact ⟨hdocumented, hfamily, fun _ hparse => absurd hparse hcall⟩
  · rw [hperform]
    exact extends_of_run hrun
  · rw [hperform]
    exact fun _ => rfl

lemma lawful_token (hs : s.Settled text) (cursorCall : Cursor.Call) :
    Lawful text levels s (.token cursorCall) := by
  have houtcome := hs.cursor.outcome cursorCall
  have hrun : s.cursor.run [cursorCall] = (cursorCall.perform s.cursor).cursor := rfl
  have hattempt : (Call.token cursorCall).attempt text levels s.reading = _ :=
    goOn_reading hs.cursor.within cursorCall
  cases hstep : cursorCall.perform s.cursor with
  | ok kind c =>
    rw [hstep] at hrun hattempt
    have hperform : goOn cursorCall s = .ok kind ⟨c, s.body⟩ := by simp only [goOn, hstep]
    exact lawful_of_ok hs hperform hattempt ⟨_, hrun⟩ id trivial
  | error error c =>
    rw [hstep] at hrun houtcome hattempt
    have hperform : goOn cursorCall s = .error error ⟨c, s.body⟩ := by simp only [goOn, hstep]
    exact lawful_of_error hs hperform hattempt ⟨_, hrun⟩ id houtcome.documented (by simp)
      fun _ => ⟨cursorCall, rfl⟩

lemma lawful_read (hs : s.Settled text) (construct : Construct) :
    Lawful text levels s (.read construct) := by
  have hregular := construct.orderly_rule (orderly_markup s.cursor.steps (levels - 1))
    (c := s.cursor) (Nat.lt_succ_self _)
  have hattempt : (Call.read construct).attempt text levels s.reading = _ :=
    read_reading hs.cursor.within construct (levels - 1)
  have henough : ¬ (Call.read construct).Exhausts levels s := by
    rintro ⟨c, hexhausted⟩
    rw [hexhausted] at hregular
    cases hregular
  cases hrule : construct.rule (markup s.cursor.steps (levels - 1)) s.cursor.steps s.cursor with
  | ok a c =>
    rw [hrule] at hregular hattempt
    have hperform : s.read construct.rule (levels - 1) = .ok a ⟨c, s.body⟩ := by
      simp only [Session.read, Cursor.read, hrule]
    cases hregular with
    | ok hmoves =>
      exact lawful_of_ok hs hperform hattempt hmoves.exists_run henough
        (construct.shows hs.cursor hrule)
  | error interruption c =>
    rw [hrule] at hregular hattempt
    cases hregular with
    | @fault error _ hfails =>
      have hperform : s.read construct.rule (levels - 1) = .error error ⟨c, s.body⟩ := by
        simp only [Session.read, Cursor.read, hrule, Cursor.failure]
      exact lawful_of_error hs hperform hattempt hfails.exists_run henough
        (hfails.documented hs.cursor) (by simp) fun hboundary => absurd hboundary hfails.family_ne_boundary

lemma lawful_parse (hs : s.Settled text) : Lawful text levels s .parse := by
  have hgathers : Gathers text s (s.collectWithin s.cursor.steps levels) :=
    gathers_collect hs (Nat.lt_succ_self _) (Nat.lt_succ_self _)
  have henough : ¬ Call.parse.Exhausts levels s := by
    rintro ⟨s', hexhausted⟩
    rw [hexhausted] at hgathers
    cases hgathers
  have hperform : Call.parse.perform levels s = s.parse levels := rfl
  have hattempt : Call.parse.attempt text levels s.reading = _ :=
    parse_reading hs.cursor.within levels
  generalize hcollect : s.collectWithin s.cursor.steps levels = result at hgathers hattempt
  cases hgathers with
  | @ok s' hextends =>
    have hparse : s.parse levels = .ok ⟨s'.body.toList⟩ s' := by
      simp only [Session.parse, hcollect]
    rw [hparse] at hperform
    have hchecked : Call.parse.attempt text levels s.reading =
        (Call.parse.perform levels s).asReading := by
      rw [hattempt, hperform]
      rfl
    refine ⟨hs.cursor.lawful, henough, hchecked, unbroken_of_checked hchecked, ?_, ?_, ?_,
      fun hne => absurd rfl hne⟩
    · intro program s'' hok
      rw [hperform] at hok
      obtain ⟨rfl, -⟩ := EStateM.Result.ok.inj hok
      exact (hs.extends hextends).body
    · intro error s'' herror
      rw [hperform] at herror
      cases herror
    · rw [hperform]
      exact hextends
  | @fault error s' hextends hdocumented hfamily hlt =>
    have hparse : s.parse levels = .error error s' := by
      simp only [Session.parse, hcollect, Cursor.failure]
    rw [hparse] at hperform
    have hchecked : Call.parse.attempt text levels s.reading =
        (Call.parse.perform levels s).asReading := by
      rw [hattempt, hperform]
      rfl
    refine ⟨hs.cursor.lawful, henough, hchecked, unbroken_of_checked hchecked, ?_, ?_, ?_,
      fun hne => absurd rfl hne⟩
    · intro program s'' hok
      rw [hperform] at hok
      cases hok
    · intro error' s'' herror
      rw [hperform] at herror
      obtain ⟨rfl, -⟩ := EStateM.Result.error.inj herror
      exact ⟨hdocumented, fun hboundary => absurd hboundary hfamily, fun hrefused _ => hlt hrefused⟩
    · rw [hperform]
      exact hextends

end Proofs

/-- Every call on a session that can be come by is lawful. -/
lemma Settled.lawful (hs : s.Settled text) (call : Call) : Lawful text levels s call := by
  cases call with
  | token cursorCall => exact lawful_token hs cursorCall
  | parse => exact lawful_parse hs
  | read construct => exact lawful_read hs construct

lemma Settled.run (hs : s.Settled text) (calls : List Call) :
    (s.run levels calls).Settled text := by
  induction calls generalizing s with
  | nil => exact hs
  | cons call calls ih => exact ih (hs.extends (hs.lawful call).grows)

/-- A run with all checks leads to where the run without them leads. -/
lemma Settled.runChecked_eq (hs : s.Settled text) (calls : List Call) :
    runChecked text levels s.reading calls = (s.run levels calls).reading := by
  induction calls generalizing s with
  | nil => rfl
  | cons call calls ih =>
    have hlawful : Lawful text levels s call := hs.lawful call
    have hstep : (call.attempt text levels s.reading).reading =
        (call.perform levels s).session.reading := by
      rw [hlawful.checked, reading_asReading]
    have hmore := ih (hs.extends hlawful.grows)
    rw [← hstep] at hmore
    exact hmore

/-- **Calls.**  Whatever calls are made on a session, in whatever order, the next one is lawful.  The
same calls, made with all checks, lead to the same place and have collected the same. -/
theorem lawful_calls (text : String) (levels : ℕ) (calls : List Call) (call : Call) :
    Lawful text.toList levels ((ofText text).run levels calls) call ∧
      runChecked text.toList levels .beginning calls =
        ((ofText text).run levels calls).reading :=
  ⟨((settled_ofText text).run calls).lawful call, (settled_ofText text).runChecked_eq calls⟩

end Session

end EmbeddedJsx
