import EmbeddedJsx.Proofs.Nesting.Limit

/-!
# The order in which markup is begun

While a construct is read, it asks for markup at some cursors, one after the other
(`Production.Requests`); and there is more to be asked for while that markup is read.  In this way
all elements and fragments are begun (`Production.Enters`, and `Entered` for a whole text), whatever
the text is like and whether or not it can be read to its end.

Each of them is begun further on than the one before, which is the main statement,
`Entered.pairwise`.  Between requests of one construct this is so because markup reads at least one
character and nothing goes back (`Production.Requests.inTurn`), and the markup in an element or
a fragment is asked for after its first token and before its end (`Production.Enters.pairwise`).
-/

namespace EmbeddedJsx

lemma Cursor.Valid.moves {text : List Char} {c c' : Cursor} (h : c.Valid text)
    (hmoves : c.Moves c') : c'.Valid text := by
  obtain ⟨calls, rfl⟩ := hmoves.exists_run
  exact h.run calls

namespace Production

variable {α : Type} {scheme : Scheme α} {nested : Production Node} {steps : ℕ} {c c' d : Cursor}
  {begun requests entries : List Cursor} {text : List Char}

/-! ### The requests of a construct -/

/-- What is read from the cursor asks for markup at these cursors, one after the other. -/
inductive Requests (nested : Production Node) : {α : Type} → Scheme α → Cursor → List Cursor → Prop
    where
  /-- A single step asks for nothing. -/
  | plain {α : Type} {production : Production α} {c : Cursor} :
      Plain production → Requests nested (fun _ => production) c []
  /-- Markup is asked for. -/
  | nested {c : Cursor} : Requests nested (fun nested => nested) c [c]
  /-- Where the first part of a sequence fails, that is all. -/
  | fails {α β : Type} {first : Scheme α} {next : α → Scheme β} {c c' : Cursor}
      {interruption : Interruption} {requests : List Cursor} :
      Sequential first → Requests nested first c requests →
      first nested c = .error interruption c' →
      Requests nested (fun nested => first nested >>= fun a => next a nested) c requests
  /-- Where it succeeds, the second part asks for more. -/
  | goesOn {α β : Type} {first : Scheme α} {next : α → Scheme β} {a : α} {c c' : Cursor}
      {requests more : List Cursor} :
      Sequential first → Requests nested first c requests → first nested c = .ok a c' →
      Requests nested (next a) c' more →
      Requests nested (fun nested => first nested >>= fun a => next a nested) c (requests ++ more)

lemma Sequential.exists_requests (h : Sequential scheme) (nested : Production Node) (c : Cursor) :
    ∃ requests, Requests nested scheme c requests := by
  induction h generalizing c with
  | plain h => exact ⟨[], .plain h⟩
  | nested => exact ⟨[c], .nested⟩
  | @bind _ _ first next hfirst _ ihfirst ihnext =>
    obtain ⟨requests, hrequests⟩ := ihfirst c
    cases hresult : first nested c with
    | error interruption c' => exact ⟨requests, .fails hfirst hrequests hresult⟩
    | ok a c' =>
      obtain ⟨more, hmore⟩ := ihnext a c'
      exact ⟨requests ++ more, .goesOn hfirst hrequests hresult hmore⟩

/-- Markup is begun at the cursors one after the other: from each of them some is read, and what
comes later begins where it ends or further on. -/
def Successive (nested : Production Node) (begun : List Cursor) : Prop :=
  begun.Pairwise fun d e => ∃ node d', nested d = .ok node d' ∧ e.rest.length ≤ d'.rest.length

/-- The requests are made one after the other, between the beginning and the end of the
construct. -/
structure InTurn (nested : Production Node) (scheme : Scheme α) (c : Cursor)
    (requests : List Cursor) : Prop where
  /-- They are made one after the other. -/
  successive : Successive nested requests
  /-- None of them is made before the beginning. -/
  length_le : ∀ d ∈ requests, d.rest.length ≤ c.rest.length
  /-- The end does not come before the beginning. -/
  end_le : ∀ ⦃a c'⦄, scheme nested c = .ok a c' → c'.rest.length ≤ c.rest.length
  /-- If there is an end, each of them has been answered by then. -/
  answered : ∀ ⦃a c'⦄, scheme nested c = .ok a c' → ∀ d ∈ requests,
    ∃ node d', nested d = .ok node d' ∧ c'.rest.length ≤ d'.rest.length

lemma Requests.inTurn (hnested : Onward nested) (h : Requests nested scheme c requests) :
    InTurn nested scheme c requests := by
  induction h with
  | plain hplain => exact ⟨.nil, by simp, fun _ _ hok => hplain.length_le hok, by simp⟩
  | nested =>
    refine ⟨List.pairwise_singleton _ _, by simp, fun _ _ hok => hnested hok, ?_⟩
    intro node c' hok d hd
    obtain rfl := List.mem_singleton.1 hd
    exact ⟨node, c', hok, le_rfl⟩
  | @fails _ _ first next c _ _ _ _ _ herror ih =>
    have hnot {b c'} : ¬ (first nested >>= fun a => next a nested) c = .ok b c' := by
      intro hok
      obtain ⟨a, c₁, hfirst, -⟩ := bind_eq_ok.1 hok
      rw [herror] at hfirst
      cases hfirst
    exact ⟨ih.successive, ih.length_le, fun _ _ hok => absurd hok hnot,
      fun _ _ hok => absurd hok hnot⟩
  | @goesOn _ _ first next a c c₁ requests more _ _ hfirst _ ih ihmore =>
    have hnext {b c'} (hok : (first nested >>= fun a => next a nested) c = .ok b c') :
        next a nested c₁ = .ok b c' := by
      obtain ⟨a', c₂, hfirst', hnext⟩ := bind_eq_ok.1 hok
      rw [hfirst] at hfirst'
      obtain ⟨rfl, rfl⟩ := EStateM.Result.ok.inj hfirst'
      exact hnext
    refine ⟨List.pairwise_append.2 ⟨ih.successive, ihmore.successive, fun d hd e he => ?_⟩,
      fun d hd => ?_, fun b c' hok => (ihmore.end_le (hnext hok)).trans (ih.end_le hfirst),
      fun b c' hok d hd => ?_⟩
    · obtain ⟨node, d', hnode, hd'⟩ := ih.answered hfirst d hd
      exact ⟨node, d', hnode, (ihmore.length_le e he).trans hd'⟩
    · rcases List.mem_append.1 hd with hd | hd
      · exact ih.length_le d hd
      · exact (ihmore.length_le d hd).trans (ih.end_le hfirst)
    · rcases List.mem_append.1 hd with hd | hd
      · obtain ⟨node, d', hnode, hd'⟩ := ih.answered hfirst d hd
        exact ⟨node, d', hnode, (ihmore.end_le (hnext hok)).trans hd'⟩
      · exact ihmore.answered (hnext hok) d hd

/-- Wherever markup is asked for, there is a request. -/
lemma Requests.mem_of_asks (h : Requests nested scheme c requests)
    (hasks : Asks scheme nested c d) : d ∈ requests := by
  induction h with
  | plain _ => exact absurd hasks not_forall_eq_error
  | @nested c =>
    by_cases hc : c = d
    · exact List.mem_singleton.2 hc.symm
    · simp only [Asks, interruptedAt_of_ne hc] at hasks
      exact absurd hasks not_forall_eq_error
  | @fails _ _ first _ c _ _ _ hfirst _ herror ih =>
    by_cases hasks' : Asks first nested c d
    · exact ih hasks'
    · exact absurd hasks (hfirst.not_asks_bind_of_error hasks' herror)
  | @goesOn _ _ first _ _ c _ _ _ hfirst _ hok _ ih ihmore =>
    by_cases hasks' : Asks first nested c d
    · exact List.mem_append_left _ (ih hasks')
    · exact List.mem_append_right _ (ihmore ((hfirst.asks_bind_of_ok hasks' hok).1 hasks))

/-- Markup reads at least one character. -/
def Consumes (nested : Production Node) : Prop :=
  ∀ ⦃c node c'⦄, nested c = .ok node c' → c'.rest.length < c.rest.length

/-- Wherever there is a request, markup is asked for. -/
lemma Requests.asks_of_mem (hnested : Consumes nested) (h : Requests nested scheme c requests)
    (hd : d ∈ requests) : Asks scheme nested c d := by
  have honward : Onward nested := fun _ _ _ hok => (hnested hok).le
  induction h with
  | plain _ => simp at hd
  | nested =>
    obtain rfl := List.mem_singleton.1 hd
    exact fun _ => interruptedAt_self
  | fails _ _ _ ih => exact (ih hd).bind
  | @goesOn _ _ first _ _ c c₁ _ _ hfirst hrequests hok hmore ih ihmore =>
    rcases List.mem_append.1 hd with hd | hd
    · exact (ih hd).bind
    · refine (hfirst.asks_bind_of_ok (fun hasks => ?_) hok).2 (ihmore hd)
      -- what is asked for in the first part ends before the second part begins
      obtain ⟨node, d', hnode, hle⟩ :=
        (hrequests.inTurn honward).answered hok d (hrequests.mem_of_asks hasks)
      have hlt := hnested hnode
      have hle' := (hmore.inTurn honward).length_le d hd
      omega

/-! ### All markup that is begun -/

/-- While markup is read at some cursors, one after the other, elements and fragments are begun at
these cursors, in the order in which this is done. -/
inductive Enters (steps : ℕ) : (begun entries : List Cursor) → Prop where
  | nil : Enters steps [] []
  /-- An element or a fragment is begun, then the markup in it, then the markup after it. -/
  | cons {c : Cursor} {begun requests inside later : List Cursor} :
      Requests (unlimited steps) (fun nested => activation nested steps) c requests →
      Enters steps requests inside → Enters steps begun later →
      Enters steps (c :: begun) (c :: (inside ++ later))

lemma consumes_unlimited : Consumes (unlimited steps) := by
  intro c node c' hok
  rw [unlimited_eq] at hok
  exact (guarded_activation steps).length_lt onward_unlimited hok

/-- Whatever the text is like, all markup that is begun can be told. -/
lemma exists_enters (steps : ℕ) (begun : List Cursor) : ∃ entries, Enters steps begun entries := by
  obtain ⟨n, hn⟩ : ∃ n, ∀ c ∈ begun, c.rest.length < n :=
    ⟨(begun.map fun c => c.rest.length).sum + 1, fun c hc =>
      Nat.lt_succ_of_le (List.single_le_sum (by simp) _ (List.mem_map_of_mem hc))⟩
  induction n generalizing begun with
  | zero =>
    cases begun with
    | nil => exact ⟨[], .nil⟩
    | cons c begun => exact absurd (hn c List.mem_cons_self) (Nat.not_lt_zero _)
  | succ n ih =>
    induction begun with
    | nil => exact ⟨[], .nil⟩
    | cons c begun ihbegun =>
      obtain ⟨hc, hbegun⟩ := List.forall_mem_cons.1 hn
      obtain ⟨later, hlater⟩ := ihbegun hbegun
      obtain ⟨requests, hrequests⟩ :=
        (guarded_activation steps).sequential.exists_requests (unlimited steps) c
      obtain ⟨inside, hinside⟩ := ih requests fun d hd => by
        have hlt := (guarded_activation steps).length_lt_of_asks onward_unlimited
          (hrequests.asks_of_mem consumes_unlimited hd)
        omega
      exact ⟨_, .cons hrequests hinside hlater⟩

/-- Markup that is begun at one of the cursors or in the markup there: it stands before the end of
what is read there, if that has an end. -/
def BelongsTo (steps : ℕ) (begun : List Cursor) (e : Cursor) : Prop :=
  ∃ d ∈ begun, e.rest.length ≤ d.rest.length ∧
    ∀ {node d'}, unlimited steps d = .ok node d' → d'.rest.length < e.rest.length

/-- **Entries.**  Each element and each fragment is begun further on than the one before. -/
lemma Enters.pairwise (h : Enters steps begun entries)
    (hbegun : Successive (unlimited steps) begun) :
    entries.Pairwise (fun d e => e.rest.length < d.rest.length) ∧
      ∀ e ∈ entries, BelongsTo steps begun e := by
  induction h with
  | nil => exact ⟨.nil, by simp⟩
  | @cons c begun requests inside later hrequests _ _ ihinside ihlater =>
    obtain ⟨hafter, hbegun⟩ := List.pairwise_cons.1 hbegun
    have hinturn := hrequests.inTurn onward_unlimited
    obtain ⟨hinside, hbelongs⟩ := ihinside hinturn.successive
    obtain ⟨hlater, hbelongs'⟩ := ihlater hbegun
    -- what is inside begins after the first token
    have hguarded {e} (he : e ∈ inside) : e.rest.length < c.rest.length := by
      obtain ⟨d, hd, hle, -⟩ := hbelongs e he
      exact hle.trans_lt ((guarded_activation steps).length_lt_of_asks onward_unlimited
        (hrequests.asks_of_mem consumes_unlimited hd))
    -- and before the end
    have hended {e} (he : e ∈ inside) {node c'} (hok : unlimited steps c = .ok node c') :
        c'.rest.length < e.rest.length := by
      obtain ⟨d, hd, -, hlt⟩ := hbelongs e he
      rw [unlimited_eq] at hok
      obtain ⟨node', d', hnode, hle⟩ := hinturn.answered hok d hd
      exact hle.trans_lt (hlt hnode)
    -- which is where the later ones begin, or before
    have hlast {e} (he : e ∈ later) : ∃ node c', unlimited steps c = .ok node c' ∧
        e.rest.length ≤ c'.rest.length := by
      obtain ⟨d, hd, hle, -⟩ := hbelongs' e he
      obtain ⟨node, c', hnode, hle'⟩ := hafter d hd
      exact ⟨node, c', hnode, hle.trans hle'⟩
    refine ⟨List.pairwise_cons.2 ⟨fun e he => ?_, List.pairwise_append.2
      ⟨hinside, hlater, fun d hd e he => ?_⟩⟩, fun e he => ?_⟩
    · rcases List.mem_append.1 he with he | he
      · exact hguarded he
      · obtain ⟨node, c', hnode, hle⟩ := hlast he
        exact hle.trans_lt (consumes_unlimited hnode)
    · obtain ⟨node, c', hnode, hle⟩ := hlast he
      exact hle.trans_lt (hended hd hnode)
    · rcases List.mem_cons.1 he with rfl | he
      · exact ⟨e, List.mem_cons_self, le_rfl, fun hok => consumes_unlimited hok⟩
      rcases List.mem_append.1 he with he | he
      · exact ⟨c, List.mem_cons_self, (hguarded he).le, fun hok => hended he hok⟩
      · obtain ⟨d, hd, hbelongs⟩ := hbelongs' e he
        exact ⟨d, List.mem_cons_of_mem _ hd, hbelongs⟩

/-! ### Where markup is begun in a text -/

lemma orderly_activation (h : nested.Orderly steps) : (activation nested steps).Orderly steps := by
  refine (orderly_sees _).bind fun found => ?_
  split
  · exact orderly_fragment h
  · exact orderly_element h

lemma orderly_unlimited (steps : ℕ) : Orderly steps (unlimited steps) := by
  intro c hc
  have hlimit : ¬ Opens steps (c.rest.length + 1 + 1) c := fun hopens =>
    Nat.not_succ_le_self _ hopens.le_length
  rw [← markup_eq_unlimited hlimit]
  exact orderly_markup steps _ hc

/-- Markup may be refused anywhere. -/
lemma orderly_interruptedAt (h : nested.Orderly steps) :
    (interruptedAt d (.fault ⟨.tooDeep, d.span⟩) nested).Orderly steps := by
  intro e he
  by_cases hne : e = d
  · subst hne
    rw [interruptedAt_self]
    exact .fault (.refused .refl rfl)
  · rw [interruptedAt_of_ne hne]
    exact h he

/-- Markup is asked for at cursors that can be come by. -/
lemma valid_of_asks (hnested : nested.Orderly steps) (hc : c.Valid text)
    (hsteps : text.length < steps)
    (hasks : Asks (fun nested => activation nested steps) nested c d) : d.Valid text := by
  have hlen := hc.within.length_rest
  -- what is read up to the request ends there if markup is refused there
  have hregular := orderly_activation (orderly_interruptedAt (d := d) hnested) (c := c) (by omega)
  have hrefused : activation (interruptedAt d (.fault ⟨.tooDeep, d.span⟩) nested) steps c =
      .error (.fault ⟨.tooDeep, d.span⟩) d := hasks _
  rw [hrefused] at hregular
  cases hregular with
  | fault hfails =>
    obtain ⟨calls, rfl⟩ := hfails.exists_run
    exact hc.run calls

lemma Enters.valid (h : Enters steps begun entries) (hbegun : ∀ c ∈ begun, c.Valid text)
    (hsteps : text.length < steps) : ∀ e ∈ entries, e.Valid text := by
  induction h with
  | nil => simp
  | @cons c begun requests inside later hrequests _ _ ihinside ihlater =>
    obtain ⟨hc, hbegun⟩ := List.forall_mem_cons.1 hbegun
    have hinside := ihinside fun d hd => valid_of_asks (orderly_unlimited steps) hc hsteps
      (hrequests.asks_of_mem consumes_unlimited hd)
    have hlater := ihlater hbegun
    refine List.forall_mem_cons.2 ⟨hc, fun e he => ?_⟩
    rcases List.mem_append.1 he with he | he
    · exact hinside e he
    · exact hlater e he

/-! ### Top-level markup -/

/-- When all markup is collected from the cursor on, top-level markup is begun at these cursors, one
after the other. -/
inductive Collecting (nested : Production Node) : Cursor → List Cursor → Prop where
  /-- No token comes any more, or what comes is none. -/
  | ends {c c' : Cursor} {error : SyntaxError} : c.next = .error error c' → Collecting nested c []
  /-- A token that begins no markup is passed over. -/
  | token {c c' : Cursor} {kind : TokenKind} {begun : List Cursor} :
      c.next = .ok kind c' → kind.opensMarkup = false → Collecting nested c' begun →
      Collecting nested c begun
  /-- Markup is begun and read. -/
  | markup {c c' c'' : Cursor} {kind : TokenKind} {node : Node} {begun : List Cursor} :
      c.next = .ok kind c' → kind.opensMarkup = true → nested c' = .ok node c'' →
      Collecting nested c'' begun → Collecting nested c (c' :: begun)
  /-- Markup is begun and refused. -/
  | refused {c c' c'' : Cursor} {kind : TokenKind} {interruption : Interruption} :
      c.next = .ok kind c' → kind.opensMarkup = true → nested c' = .error interruption c'' →
      Collecting nested c [c']

lemma exists_collecting (hnested : Consumes nested) (c : Cursor) :
    ∃ begun, Collecting nested c begun := by
  induction hlen : c.rest.length using Nat.strong_induction_on generalizing c with
  | _ length ih =>
    subst hlen
    cases hnext : c.next with
    | error error c' => exact ⟨[], .ends hnext⟩
    | ok kind c' =>
      have hlt := (Cursor.moved_next hnext).length_lt
      cases hkind : kind.opensMarkup with
      | false =>
        obtain ⟨begun, hbegun⟩ := ih _ hlt c' rfl
        exact ⟨begun, .token hnext hkind hbegun⟩
      | true =>
        cases hnode : nested c' with
        | ok node c'' =>
          obtain ⟨begun, hbegun⟩ := ih _ ((hnested hnode).trans hlt) c'' rfl
          exact ⟨c' :: begun, .markup hnext hkind hnode hbegun⟩
        | error interruption c'' => exact ⟨[c'], .refused hnext hkind hnode⟩

lemma Collecting.successive (hnested : Consumes nested) (h : Collecting nested c begun) :
    Successive nested begun ∧ ∀ d ∈ begun, d.rest.length < c.rest.length := by
  induction h with
  | ends _ => exact ⟨.nil, by simp⟩
  | token hnext _ _ ih =>
    have hlt := (Cursor.moved_next hnext).length_lt
    exact ⟨ih.1, fun d hd => (ih.2 d hd).trans hlt⟩
  | @markup c c' c'' _ node begun hnext _ hnode _ ih =>
    have hlt := (Cursor.moved_next hnext).length_lt
    have hlt' := hnested hnode
    refine ⟨List.pairwise_cons.2 ⟨fun d hd => ⟨node, c'', hnode, (ih.2 d hd).le⟩, ih.1⟩, ?_⟩
    exact List.forall_mem_cons.2 ⟨hlt, fun d hd => (ih.2 d hd).trans (hlt'.trans hlt)⟩
  | refused hnext _ _ =>
    exact ⟨List.pairwise_singleton _ _, by simpa using (Cursor.moved_next hnext).length_lt⟩

lemma Collecting.valid (h : Collecting (unlimited steps) c begun) (hc : c.Valid text)
    (hsteps : text.length < steps) : ∀ d ∈ begun, d.Valid text := by
  induction h with
  | ends _ => simp
  | token hnext _ _ ih => exact ih (hc.moves (.single (Cursor.moved_next hnext)))
  | @markup c c' _ _ _ _ hnext _ hnode _ ih =>
    have hc' := hc.moves (.single (Cursor.moved_next hnext))
    have hlen := hc'.within.length_rest
    have hmoves := (orderly_unlimited steps).moves (c := c') (by omega) hnode
    exact List.forall_mem_cons.2 ⟨hc', ih (hc'.moves hmoves)⟩
  | refused hnext _ _ =>
    simpa using hc.moves (.single (Cursor.moved_next hnext))

end Production

open Production

/-- When the text is read without a limit of nesting, elements and fragments are begun at these
cursors, in the order in which this is done. -/
def Entered (text : String) (entries : List Cursor) : Prop :=
  ∃ begun,
    Collecting (unlimited (Cursor.ofText text.toList).steps) (Cursor.ofText text.toList) begun ∧
      Enters (Cursor.ofText text.toList).steps begun entries

lemma exists_entered (text : String) : ∃ entries, Entered text entries := by
  obtain ⟨begun, hbegun⟩ := exists_collecting consumes_unlimited (Cursor.ofText text.toList)
  obtain ⟨entries, hentries⟩ := exists_enters _ begun
  exact ⟨entries, begun, hbegun, hentries⟩

/-- **Entries.**  Each element and each fragment is begun further on than the one before. -/
theorem Entered.pairwise {text : String} {entries : List Cursor} (h : Entered text entries) :
    entries.Pairwise fun d e => d.stop < e.stop := by
  obtain ⟨begun, hbegun, hentries⟩ := h
  have hsteps : text.toList.length < (Cursor.ofText text.toList).steps := Nat.lt_succ_self _
  have hvalid := hentries.valid (hbegun.valid (Cursor.valid_ofText _) hsteps) hsteps
  refine (hentries.pairwise (hbegun.successive consumes_unlimited).1).1.imp_of_mem
    fun {d e} hd he hlt => ?_
  have hlen := (hvalid d hd).within.length_rest
  have hlen' := (hvalid e he).within.length_rest
  omega

end EmbeddedJsx
