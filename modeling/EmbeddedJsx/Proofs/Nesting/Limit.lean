import EmbeddedJsx.Proofs.Grammar.Program
import EmbeddedJsx.Proofs.Nesting.Unlimited
import EmbeddedJsx.Proofs.Runs.Sessions

/-!
# The limit of nesting

The same reading of a text without a limit of nesting is `parseUnlimited`, and how deep elements
and fragments are nested when a text is read so is told by `NestsTo`: be it among children, in the
values of attributes or in expressions, whatever is open at once counts.  A text need not be
readable for that.  Where it is, this is the depth of what is read (`nestsTo_iff`).

A limit makes no difference to a text that is nested less deeply, whatever else is in it, and a
text that is nested more deeply is refused for that, whatever else is wrong with it
(`parseWithin_limited`).  The main statement is `parse_eq_parseUnlimited_or_tooDeep`.
-/

namespace EmbeddedJsx

open Production

namespace Session

variable {s s' : Session} {nested nested' : Production Node} {k steps levels : ℕ} {c c' d : Cursor}

/-! ### Asking for markup at the top -/

/-- When all markup is collected, markup is asked for at the cursor: whatever interrupts markup
there is where the collecting ends. -/
def Asks (nested : Production Node) (steps : ℕ) (s : Session) (d : Cursor) : Prop :=
  ∀ interruption, ∃ body,
    s.collect (interruptedAt d interruption nested) steps = .error interruption ⟨d, body⟩

lemma not_asks_of_eq {result : Collected}
    (h : ∀ interruption, s.collect (interruptedAt d interruption nested) k = result) :
    ¬ s.Asks nested k d := by
  intro hasks
  obtain ⟨_, hexhausted⟩ := hasks .exhausted
  obtain ⟨_, hfault⟩ := hasks (.fault ⟨.tooDeep, d.span⟩)
  rw [h] at hexhausted hfault
  simp [hexhausted] at hfault

lemma collect_of_next_error {error : SyntaxError} (hnext : s.cursor.next = .error error c) :
    s.collect nested (k + 1) =
      if error.fault.family = .boundary then .ok ⟨s.body.toList⟩ ⟨c, s.body⟩
      else .error (.fault error) ⟨c, s.body⟩ := by
  rw [collect, hnext]

section

variable {kind : TokenKind} (hnext : s.cursor.next = .ok kind c) (hkind : kind.opensMarkup = true)
include hnext hkind

lemma collect_of_ok {node : Node} (h : nested c = .ok node c') :
    s.collect nested (k + 1) = collect nested k ⟨c', s.body.push node⟩ := by
  rw [collect, hnext]
  simp only [hkind, if_true, h]

lemma collect_of_error {interruption : Interruption} (h : nested c = .error interruption c') :
    s.collect nested (k + 1) = .error interruption ⟨c', s.body⟩ := by
  rw [collect, hnext]
  simp only [hkind, if_true, h]

end

/-- A production for markup that differs from another only at some places collects the same, unless
markup is asked for at one of these.  If it is, and reading is interrupted there, then collecting
ends with that interruption. -/
lemma collect_follows {D : Cursor → Prop} (hagree : ∀ c, ¬ D c → nested' c = nested c) (k : ℕ)
    (s : Session) :
    (∀ d, D d → ¬ s.Asks nested k d) ∧ s.collect nested' k = s.collect nested k ∨
      ∃ d, D d ∧ s.Asks nested k d ∧
        ∀ {i c'}, nested' d = .error i c' → ∃ s', s.collect nested' k = .error i s' := by
  induction k generalizing s with
  | zero => exact .inl ⟨fun d _ => not_asks_of_eq fun _ => rfl, rfl⟩
  | succ k ih =>
    cases hnext : s.cursor.next with
    | error error c =>
      refine .inl ⟨fun d _ => not_asks_of_eq fun _ => collect_of_next_error hnext, ?_⟩
      rw [collect_of_next_error hnext, collect_of_next_error hnext]
    | ok kind c =>
      by_cases hkind : kind.opensMarkup = true
      · by_cases hc : D c
        · exact .inr ⟨c, hc, fun i => ⟨s.body, collect_of_error hnext hkind interruptedAt_self⟩,
            fun hends => ⟨_, collect_of_error hnext hkind hends⟩⟩
        -- markup that is read before any of the places is the same
        have hne {d} (hd : D d) (i) : interruptedAt d i nested c = nested c :=
          interruptedAt_of_ne fun heq => hc (heq ▸ hd)
        cases hresult : nested c with
        | error i c' =>
          refine .inl ⟨fun d hd => not_asks_of_eq fun j =>
            collect_of_error hnext hkind ((hne hd j).trans hresult), ?_⟩
          rw [collect_of_error hnext hkind ((hagree c hc).trans hresult),
            collect_of_error hnext hkind hresult]
        | ok node c' =>
          have hrest {d} (hd : D d) : s.Asks nested (k + 1) d ↔
              Asks nested k ⟨c', s.body.push node⟩ d :=
            forall_congr' fun i => by
              rw [collect_of_ok hnext hkind ((hne hd i).trans hresult)]
          rw [collect_of_ok hnext hkind ((hagree c hc).trans hresult),
            collect_of_ok hnext hkind hresult]
          rcases ih ⟨c', s.body.push node⟩ with ⟨hnone, heq⟩ | ⟨d, hd, hasks, hends⟩
          · exact .inl ⟨fun d hd hasks => hnone d hd ((hrest hd).1 hasks), heq⟩
          · exact .inr ⟨d, hd, (hrest hd).2 hasks, hends⟩
      · have hrest (nested'' : Production Node) :
            s.collect nested'' (k + 1) = collect nested'' k ⟨c, s.body⟩ := by
          rw [collect, hnext]
          simp only [if_neg hkind]
        simp only [Asks, hrest]
        exact ih ⟨c, s.body⟩

/-- Markup is asked for where the next token leads, or later. -/
lemma Asks.of_succ (h : s.Asks nested (k + 1) d) :
    ∃ kind c, s.cursor.next = .ok kind c ∧
      (c = d ∨ Asks nested k ⟨c, s.body⟩ d ∨
        ∃ node c', nested c = .ok node c' ∧ Asks nested k ⟨c', s.body.push node⟩ d) := by
  cases hnext : s.cursor.next with
  | error error c =>
    exact absurd h (not_asks_of_eq fun _ => collect_of_next_error hnext)
  | ok kind c =>
    refine ⟨kind, c, rfl, ?_⟩
    by_cases hkind : kind.opensMarkup = true
    · by_cases hc : c = d
      · exact .inl hc
      cases hresult : nested c with
      | error i c' =>
        exact absurd h (not_asks_of_eq fun _ =>
          collect_of_error hnext hkind ((interruptedAt_of_ne hc).trans hresult))
      | ok node c' =>
        refine .inr (.inr ⟨node, c', rfl, fun i => ?_⟩)
        rw [← collect_of_ok hnext hkind ((interruptedAt_of_ne hc).trans hresult)]
        exact h i
    · refine .inr (.inl fun i => ?_)
      have hrest := h i
      rw [collect, hnext] at hrest
      simpa only [if_neg hkind] using hrest

/-- Markup is asked for further on. -/
lemma Asks.length_lt (hnested : Onward nested) (h : s.Asks nested k d) :
    d.rest.length < s.cursor.rest.length := by
  induction k generalizing s with
  | zero => exact absurd h (not_asks_of_eq fun _ => rfl)
  | succ k ih =>
    obtain ⟨kind, c, hnext, rfl | hlater | ⟨node, c', hnode, hlater⟩⟩ := h.of_succ
    · exact (Cursor.moved_next hnext).length_lt
    · exact (ih hlater).trans (Cursor.moved_next hnext).length_lt
    · exact (ih hlater).trans_le (hnested hnode) |>.trans (Cursor.moved_next hnext).length_lt

/-- Collecting runs into a limit of nesting only if markup does. -/
lemma exists_tooDeep_of_collect {span : Span}
    (h : s.collect nested k = .error (.fault ⟨.tooDeep, span⟩) s') : ∃ c, TooDeep (nested c) := by
  induction k generalizing s with
  | zero => simp [collect] at h
  | succ k ih =>
    rw [collect] at h
    split at h
    · next error c hnext =>
      split at h
      · simp at h
      · simp only [EStateM.Result.error.injEq, Interruption.fault.injEq] at h
        have hcall : Cursor.Call.next.perform s.cursor = .error error c := hnext
        exact absurd (congrArg SyntaxError.fault h.1) (fault_ne_of_call hcall)
    · next kind c hnext =>
      split at h
      · split at h
        · exact ih h
        · next i c' hnode =>
          simp only [EStateM.Result.error.injEq] at h
          exact ⟨c, span, c', by rw [hnode, h.1]⟩
      · exact ih h

/-- Collects all top-level markup, nested to any depth. -/
def parseUnlimited (s : Session) : Step Program :=
  match s.collect (unlimited s.cursor.steps) s.cursor.steps with
  | .ok program s' => .ok program s'
  | .error interruption s' => .error (s'.cursor.failure interruption) s'

lemma parse_eq_parseUnlimited
    (h : s.collectWithin s.cursor.steps levels =
      s.collect (unlimited s.cursor.steps) s.cursor.steps) :
    s.parse levels = s.parseUnlimited := by
  cases hcollect : s.collect (unlimited s.cursor.steps) s.cursor.steps with
  | ok program s' => rw [parse, parseUnlimited, h, hcollect]
  | error interruption s' => rw [parse, parseUnlimited, h, hcollect]

end Session

/-- The markup of a text, nested to any depth. -/
def parseUnlimited (text : String) : Except SyntaxError Program :=
  match (Session.ofText text).parseUnlimited with
  | .ok program _ => .ok program
  | .error error _ => .error error

/-- When all markup of a text is collected, so many elements and fragments are open at once. -/
def NestsTo (text : String) (n : ℕ) : Prop :=
  ∃ c, (Session.ofText text).Asks (unlimited (Session.ofText text).cursor.steps)
      (Session.ofText text).cursor.steps c ∧
    Opens (Session.ofText text).cursor.steps n c

variable {text : String} {levels n m : ℕ} {program : Program}

lemma NestsTo.mono (h : NestsTo text n) (hm : 1 ≤ m) (hle : m ≤ n) : NestsTo text m := by
  obtain ⟨c, hasks, hopens⟩ := h
  exact ⟨c, hasks, hopens.mono hm hle⟩

/-- Each element and each fragment that is open has its own characters. -/
lemma NestsTo.le_length (h : NestsTo text n) : n ≤ text.toList.length := by
  obtain ⟨c, hasks, hopens⟩ := h
  have hlt : c.rest.length < text.toList.length := hasks.length_lt onward_unlimited
  have hle := hopens.le_length
  omega

/-- So many fragments that are opened, one in the other. -/
def openings (n : ℕ) : List Char := (List.replicate n ['<', '>']).flatten

/-- A fragment that begins in a fragment is asked for. -/
lemma asks_fragment (nested : Production Node) (steps start : ℕ) (lexeme rest : List Char) :
    Production.Asks (fun nested => activation nested (steps + 1)) nested
      ⟨some .fragmentOpen, start, lexeme, '<' :: '>' :: rest⟩
      ⟨some .fragmentOpen, start + lexeme.length, ['<', '>'], rest⟩ := by
  intro interruption
  -- the fragment is told by its opening, and the next opening is the token after no raw text
  refine bind_eq_error.2 (.inr ⟨true, _, rfl, ?_⟩)
  refine bind_eq_error.2 (.inr ⟨_, _, rfl, ?_⟩)
  refine bind_eq_error.2 (.inl ?_)
  refine bind_eq_error.2 (.inr ⟨_, _, rfl, ?_⟩)
  refine bind_eq_error.2 (.inr ⟨.fragmentOpen, _, rfl, ?_⟩)
  exact bind_eq_error.2 (.inl interruptedAt_self)

lemma opens_openings (steps n start : ℕ) (lexeme : List Char) :
    Opens (steps + 1) (n + 1) ⟨some .fragmentOpen, start, lexeme, openings n⟩ := by
  induction n generalizing start lexeme with
  | zero => exact .here _
  | succ n ih => exact .inside (asks_fragment _ steps start lexeme (openings n)) (ih _ _)

/-- Any number of fragments can be open at once. -/
lemma nestsTo_openings (n : ℕ) : NestsTo (String.ofList (openings (n + 1))) (n + 1) := by
  have hcursor : (Session.ofText (String.ofList (openings (n + 1)))).cursor =
      ⟨none, 0, [], '<' :: '>' :: openings n⟩ :=
    congrArg Cursor.ofText String.toList_ofList
  refine ⟨⟨some .fragmentOpen, 0, ['<', '>'], openings n⟩, fun interruption => ?_, ?_⟩
  · rw [hcursor]
    have hnext : (Session.ofText (String.ofList (openings (n + 1)))).cursor.next =
        .ok .fragmentOpen ⟨some .fragmentOpen, 0, ['<', '>'], openings n⟩ := by
      rw [hcursor]
      rfl
    exact ⟨_, Session.collect_of_error hnext rfl interruptedAt_self⟩
  · rw [hcursor]
    exact opens_openings _ n 0 _

/-- What is collected with a limit is what is collected without, unless more elements and fragments
would be open at once than there are levels. -/
lemma collectWithin_limited (levels : ℕ) (text : String) :
    ¬ NestsTo text (levels + 1) ∧
        (Session.ofText text).collectWithin (Session.ofText text).cursor.steps levels =
          (Session.ofText text).collect (unlimited (Session.ofText text).cursor.steps)
            (Session.ofText text).cursor.steps ∨
      NestsTo text (levels + 1) ∧ ∃ span s',
        (Session.ofText text).collectWithin (Session.ofText text).cursor.steps levels =
          .error (.fault ⟨.tooDeep, span⟩) s' := by
  have hagree (d : Cursor) (hd : ¬ Opens (Session.ofText text).cursor.steps (levels + 1) d) :=
    markup_eq_unlimited hd
  rcases Session.collect_follows hagree (Session.ofText text).cursor.steps (Session.ofText text)
    with ⟨hnone, heq⟩ | ⟨d, hd, hasks, hends⟩
  · exact .inl ⟨fun ⟨d, hasks, hd⟩ => hnone d hd hasks, heq⟩
  · obtain ⟨span, c, hdeep⟩ := tooDeep_markup hd
    exact .inr ⟨⟨d, hasks, hd⟩, span, hends hdeep⟩

/-- **The limit of nesting.**  A text is read as it is without a limit, unless more elements and
fragments would be open at once than there are levels.  If so, it is said to be nested too
deeply. -/
theorem parseWithin_limited (levels : ℕ) (text : String) :
    ¬ NestsTo text (levels + 1) ∧ parseWithin levels text = parseUnlimited text ∨
      NestsTo text (levels + 1) ∧ ∃ span, parseWithin levels text = .error ⟨.tooDeep, span⟩ := by
  rcases collectWithin_limited levels text with ⟨hnot, heq⟩ | ⟨hnests, span, s', heq⟩
  · refine .inl ⟨hnot, ?_⟩
    have hparse := Session.parse_eq_parseUnlimited heq
    cases hresult : (Session.ofText text).parseUnlimited with
    | ok program s' => rw [parseWithin, parseUnlimited, hparse, hresult]
    | error error s' => rw [parseWithin, parseUnlimited, hparse, hresult]
  · refine .inr ⟨hnests, span, ?_⟩
    rw [parseWithin, Session.parse, heq]
    rfl

/-- With as many levels as there are characters, the limit is not met. -/
lemma not_nestsTo_length : ¬ NestsTo text (text.toList.length + 1) := fun h =>
  Nat.not_succ_le_self _ h.le_length

lemma parseWithin_length (text : String) :
    parseWithin text.toList.length text = parseUnlimited text := by
  rcases parseWithin_limited text.toList.length text with ⟨-, heq⟩ | ⟨hnests, -⟩
  · exact heq
  · exact absurd hnests not_nestsTo_length

/-- Without a limit no text is nested too deeply. -/
lemma parseUnlimited_ne_tooDeep (text : String) (span : Span) :
    parseUnlimited text ≠ .error ⟨.tooDeep, span⟩ := by
  intro h
  rcases collectWithin_limited text.toList.length text with ⟨-, heq⟩ | ⟨hnests, -⟩
  · have hgathers : Session.Gathers text.toList (Session.ofText text)
        ((Session.ofText text).collectWithin (Session.ofText text).cursor.steps
          text.toList.length) :=
      Session.gathers_collect (Session.settled_ofText text) (Nat.lt_succ_self _)
        (Nat.lt_succ_self _)
    rw [heq] at hgathers
    rw [parseUnlimited, Session.parseUnlimited] at h
    generalize hcollect : (Session.ofText text).collect
      (unlimited (Session.ofText text).cursor.steps) (Session.ofText text).cursor.steps = result
      at h hgathers
    cases hgathers with
    | ok hextends => simp at h
    | @fault error s' hextends hdocumented hfamily hlt =>
      obtain rfl : error = ⟨.tooDeep, span⟩ := by simpa [Cursor.failure] using h
      obtain ⟨c, hdeep⟩ := Session.exists_tooDeep_of_collect hcollect
      exact not_tooDeep_unlimited hdeep
  · exact not_nestsTo_length hnests

/-- The depth of nesting can be told from where a limit is met. -/
lemma nestsTo_succ_iff :
    NestsTo text (levels + 1) ↔ ∃ span, parseWithin levels text = .error ⟨.tooDeep, span⟩ := by
  rcases parseWithin_limited levels text with ⟨hnot, heq⟩ | ⟨hnests, hdeep⟩
  · exact ⟨fun hnests => absurd hnests hnot, fun ⟨span, hdeep⟩ =>
      absurd (heq.symm.trans hdeep) (parseUnlimited_ne_tooDeep text span)⟩
  · exact ⟨fun _ => hdeep, fun _ => hnests⟩

/-- A text counts as nested as far as it is read, also where it cannot be read to its end. -/
example : NestsTo "<a>\x7b<b c=<d" 3 := nestsTo_succ_iff.2 ⟨⟨9, 10⟩, by cbv⟩

/-- The depth to which a text that can be read is nested is that of what is read. -/
theorem nestsTo_iff (h : parseUnlimited text = .ok program) (hn : 1 ≤ n) :
    NestsTo text n ↔ n ≤ program.depth := by
  obtain ⟨levels, rfl⟩ := Nat.exists_eq_add_of_le' hn
  have hderives := (derivesProgram_of_parseWithin ((parseWithin_length text).trans h)).1
  rcases parseWithin_limited levels text with ⟨hnot, heq⟩ | ⟨hnests, span, heq⟩
  · have hle := (derivesProgram_of_parseWithin (heq.trans h)).2
    exact ⟨fun hnests => absurd hnests hnot, fun hlt => absurd hlt (Nat.not_lt.2 hle)⟩
  · refine ⟨fun _ => Nat.lt_of_not_le fun hle => ?_, fun _ => hnests⟩
    -- a shallow program would have been read
    have hok := parseWithin_of_derivesProgram hderives hle
    simp [heq] at hok

/-- **The limit changes nothing but too deep texts.**  A text in which at most 60 elements and
fragments are open at once is read as it is without a limit.  A text in which 1500 are open at once
is said to be nested too deeply, whatever else is wrong with it.  Every text is read in one of
these two ways, and only with a limit is anything said to be nested too deeply. -/
theorem parse_eq_parseUnlimited_or_tooDeep (text : String) :
    ((∀ n, NestsTo text n → n ≤ 60) → parse text = parseUnlimited text) ∧
      (NestsTo text 1500 → ∃ span, parse text = .error ⟨.tooDeep, span⟩) ∧
      (parse text = parseUnlimited text ∨ ∃ span, parse text = .error ⟨.tooDeep, span⟩) ∧
      (∀ span, parseUnlimited text ≠ .error ⟨.tooDeep, span⟩) ∧
      Fault.tooDeep.family = .unexpected ∧ Fault.tooDeep.message = "markup nested too deeply" := by
  refine ⟨fun hshallow => ?_, fun hdeep => ?_, ?_, parseUnlimited_ne_tooDeep text, rfl, rfl⟩
  · rcases parseWithin_limited nestingLimit text with ⟨-, heq⟩ | ⟨hnests, -⟩
    · exact heq
    · exact absurd (hshallow _ hnests) (by decide)
  · exact nestsTo_succ_iff.1 (hdeep.mono (Nat.le_add_left 1 nestingLimit) (by decide))
  · exact (parseWithin_limited nestingLimit text).imp And.right And.right

/-- The case of a short text that cannot be read to its end, and of a text with no more in it than
1500 openings. -/
theorem parse_shallow_and_openings :
    (∀ n, NestsTo "<a>\x7b<b c=<d" n → n ≤ 60) ∧
      parse "<a>\x7b<b c=<d" = parseUnlimited "<a>\x7b<b c=<d" ∧
      NestsTo (String.ofList (openings 1500)) 1500 ∧
      ∃ span, parse (String.ofList (openings 1500)) = .error ⟨.tooDeep, span⟩ := by
  have hshallow (n : ℕ) (h : NestsTo "<a>\x7b<b c=<d" n) : n ≤ 60 := h.le_length.trans (by decide)
  have hdeep : NestsTo (String.ofList (openings 1500)) 1500 := nestsTo_openings 1499
  exact ⟨hshallow, (parse_eq_parseUnlimited_or_tooDeep _).1 hshallow, hdeep,
    (parse_eq_parseUnlimited_or_tooDeep _).2.1 hdeep⟩

end EmbeddedJsx
