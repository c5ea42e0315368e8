import EmbeddedJsx.Proofs.Extension.Collecting
import EmbeddedJsx.Proofs.Grammar.Program
import EmbeddedJsx.Proofs.Runs.Sessions

/-!
# Parsing longer texts

The loop that collects top-level markup does what `Collects` says: it never runs out of rounds, and
it is determined by the relation.  So what is known of collecting in longer texts is known of
parsing.

There are two main statements.  A text that is parsed may be put in front of any other, and the
other is then parsed as if it stood alone (`parseWithin_append`).  And what is refused in a text, be
it parsed or not, is refused whatever comes after it (`parseWithin_append_of_unexpected`).
-/

namespace EmbeddedJsx

open Production

/-! ### The loop -/

namespace Session

variable {s s' : Session} {nested : Production Node} {k levels : ℕ} {program : Program}
  {nodes : List Node} {error? : Option SyntaxError}

/-- What the loop leads to where the given nodes are collected, and the error is met, if there is
one. -/
def Collected.Is (before nodes : List Node) : Option SyntaxError → Collected → Prop
  | none, result => ∃ s', result = .ok ⟨before ++ nodes⟩ s'
  | some error, result => ∃ s', result = .error (.fault error) s'

/-- If its rounds do not run out, the loop collects as the relation says. -/
lemma collects_of_collect (hnested : SoundAt levels .markup nested)
    (htoken : s.cursor.token ≠ some .endOfInput)
    (hexhausted : ∀ s', s.collect nested k ≠ .error .exhausted s') :
    ∃ nodes error?, Collects nested s.cursor.place nodes error? := by
  induction k generalizing s with
  | zero => exact absurd rfl (hexhausted s)
  | succ k ih =>
    rw [collect] at hexhausted
    cases hnext : s.cursor.next with
    | error error c =>
      rcases (Cursor.next_eq_error_iff htoken).1 ⟨c, hnext⟩ with hfaults | ⟨hends, -⟩
      · exact ⟨[], some error, .fault hfaults⟩
      · exact ⟨[], none, .done hends⟩
    | ok kind c =>
      have hafter := (Cursor.next_eq_ok_iff.1 hnext).2
      simp only [hnext] at hexhausted
      cases hkind : kind.opensMarkup with
      | false =>
        simp only [hkind, Bool.false_eq_true, if_false] at hexhausted
        obtain ⟨nodes, error?, hrest⟩ := @ih ⟨c, s.body⟩ hafter.2.token_ne hexhausted
        exact ⟨nodes, error?, .token hafter hkind hrest⟩
      | true =>
        simp only [hkind, if_true] at hexhausted
        cases hnode : nested c with
        | ok node c' =>
          simp only [hnode] at hexhausted
          obtain ⟨-, hc', -⟩ := hnested hafter.2.stands hnode
          obtain ⟨nodes, error?, hrest⟩ :=
            @ih ⟨c', s.body.push node⟩ hc'.token_ne hexhausted
          exact ⟨node :: nodes, error?, .markup hafter hkind hnode hrest⟩
        | error interruption c' =>
          simp only [hnode] at hexhausted
          cases interruption with
          | fault error => exact ⟨[], some error, .refused hafter hkind hnode⟩
          | exhausted => exact absurd rfl (hexhausted _)

/-- With rounds enough, the loop does as the relation says. -/
lemma collect_of_collects {p : Place} (hnested : SoundAt levels .markup nested)
    (h : Collects nested p nodes error?) (htoken : s.cursor.token ≠ some .endOfInput)
    (hp : s.cursor.place = p) (hk : p.rest.length < k) :
    Collected.Is s.body.toList nodes error? (s.collect nested k) := by
  induction h generalizing s k with
  | done hends =>
    subst hp
    obtain ⟨k, rfl⟩ := exists_succ hk
    obtain ⟨s', hs'⟩ : ∃ s', s.collect nested (k + 1) = .ok ⟨s.body.toList⟩ s' :=
      collect_end htoken hends
    exact ⟨s', by rw [hs', List.append_nil]⟩
  | fault hfaults =>
    subst hp
    obtain ⟨k, rfl⟩ := exists_succ hk
    obtain ⟨c, hnext⟩ := Cursor.exists_next_eq_error_of_faults htoken hfaults
    exact ⟨⟨c, s.body⟩, by simp only [collect, hnext, if_neg hfaults.family_ne_boundary]⟩
  | @token p c kind nodes error? hafter hkind _ ih =>
    subst hp
    obtain ⟨k, rfl⟩ := exists_succ hk
    have hshort : c.rest.length < s.cursor.rest.length := hafter.next.length_lt
    have hnext := Cursor.next_eq_ok_iff.2 ⟨htoken, hafter⟩
    have hround : s.collect nested (k + 1) = collect nested k ⟨c, s.body⟩ := by
      simp only [collect, hnext, hkind, Bool.false_eq_true, if_false]
    rw [hround]
    have hlen : s.cursor.rest.length < k + 1 := hk
    exact @ih ⟨c, s.body⟩ k hafter.2.token_ne rfl (by simp only [Cursor.place]; omega)
  | @markup p c c' kind node nodes error? hafter hkind hnode _ ih =>
    subst hp
    obtain ⟨k, rfl⟩ := exists_succ hk
    obtain ⟨hderives, hc', -⟩ := hnested hafter.2.stands hnode
    have hshort := hderives.markup_length_lt.trans_le hafter.1.reaches.length_le
    have hround : s.collect nested (k + 1) = collect nested k ⟨c', s.body.push node⟩ :=
      collect_markup htoken hafter (TokenKind.opensMarkup_iff.1 hkind) hnode
    have hrest := @ih ⟨c', s.body.push node⟩ k hc'.token_ne rfl (by omega)
    rw [hround]
    cases error? with
    | none => simpa [Collected.Is] using hrest
    | some error => exact hrest
  | @refused p c c' kind error hafter hkind hnode =>
    subst hp
    obtain ⟨k, rfl⟩ := exists_succ hk
    have hnext := Cursor.next_eq_ok_iff.2 ⟨htoken, hafter⟩
    exact ⟨⟨c', s.body⟩, by simp only [collect, hnext, hkind, if_true, hnode]⟩

end Session

/-! ### Whole texts -/

section Texts

variable {levels : ℕ} {text : String} {nodes : List Node} {error? : Option SyntaxError}

/-- In every text something is collected, up to its end or to an error. -/
lemma exists_collects (levels : ℕ) (text : String) :
    ∃ nodes error?, Collects (markup (text.toList.length + 1) levels)
      (Place.ofText text.toList) nodes error? := by
  have hgathers : Session.Gathers text.toList (Session.ofText text)
      ((Session.ofText text).collectWithin (text.toList.length + 1) levels) :=
    Session.gathers_collect (Session.settled_ofText text) (Nat.lt_succ_self _)
      (Nat.lt_succ_self _)
  refine Session.collects_of_collect (s := Session.ofText text) (k := text.toList.length + 1)
    (markup_sound _ levels) (by simp [Session.ofText]) fun s' hexhausted => ?_
  rw [Session.collectWithin, hexhausted] at hgathers
  cases hgathers

/-- What is collected is what parsing answers with, and what it meets is what parsing fails with. -/
lemma parseWithin_of_collects
    (h : Collects (markup (text.toList.length + 1) levels) (Place.ofText text.toList) nodes
      error?) :
    parseWithin levels text = match error? with
      | none => .ok ⟨nodes⟩
      | some error => .error error := by
  have hresult : Session.Collected.Is [] nodes error?
      ((Session.ofText text).collectWithin (text.toList.length + 1) levels) :=
    Session.collect_of_collects (s := Session.ofText text) (markup_sound _ levels) h
      (by simp [Session.ofText]) rfl (Nat.lt_succ_self _)
  have hsteps : (Session.ofText text).cursor.steps = text.toList.length + 1 := rfl
  cases error? with
  | none =>
    obtain ⟨s', hs'⟩ := hresult
    simp only [parseWithin, Session.parse, hsteps, hs', List.nil_append]
  | some error =>
    obtain ⟨s', hs'⟩ := hresult
    simp only [parseWithin, Session.parse, hsteps, hs', Cursor.failure]

/-- A text that stands alone is collected in the same way with other text in front of it. -/
lemma collects_shift {n steps steps' : ℕ} {text : List Char} (hsteps : steps ≤ steps')
    (h : Collects (markup steps levels) (Place.ofText text) nodes error?) :
    Collects (markup steps' levels) ⟨n, text⟩ (Node.shiftAll n nodes)
      (error?.map (SyntaxError.shift n)) := by
  obtain ⟨E, rfl, rfl, hmore⟩ : ∃ E : Embedding, E.front = n ∧ E.text = text ∧ E.more = [] :=
    ⟨⟨n, text, [], by simp⟩, rfl, rfl, rfl⟩
  have hsimulates := Embedding.simulates_markup (E := E) hsteps levels
  have hplace : E.place (Place.ofText E.text) = ⟨E.front, E.text⟩ := by
    simp [Embedding.place, Place.ofText, hmore]
  rw [← hplace]
  cases error? with
  | none =>
    have hrest : Collects (markup steps' levels) ⟨E.text.length + E.front, E.more⟩ [] none :=
      .done (by simp [Place.Ends, hmore, insignificant_nil])
    simpa using h.embed_end hsimulates (Place.inText_ofText _) rfl hrest
  | some error =>
    obtain ⟨error', hmoves, hcollects⟩ :=
      h.embed_error hsimulates (Place.inText_ofText _) rfl (.inr hmore)
    rwa [hmoves.eq_shift hmore] at hcollects

end Texts

/-- **Concatenation.**  After a text that is parsed, another is parsed as if it stood alone and is
moved forward; if it fails alone, both fail with the same error, moved forward.  It must not be that
the first text ends with a dot and the second begins with one. -/
theorem parseWithin_append {levels : ℕ} {left right : String} {program : Program}
    (h : parseWithin levels left = .ok program)
    (hdots : ¬ (left.toList.getLast? = some '.' ∧ right.toList.head? = some '.')) :
    parseWithin levels (left ++ right) = match parseWithin levels right with
      | .ok rest => .ok ⟨program.body ++ Node.shiftAll left.toList.length rest.body⟩
      | .error error => .error (error.shift left.toList.length) := by
  obtain ⟨nodes, error?, hleft⟩ := exists_collects levels left
  obtain ⟨nodes', error?', hright⟩ := exists_collects levels right
  have hprogram := parseWithin_of_collects hleft
  rw [h] at hprogram
  -- the first text is collected up to its end
  cases error? with
  | some error => exact absurd hprogram nofun
  | none =>
    obtain rfl : program = ⟨nodes⟩ := Except.ok.inj hprogram
    let E : Embedding :=
      ⟨0, left.toList, right.toList, fun hlast hhead => hdots ⟨hlast, hhead⟩⟩
    have hlength : (left ++ right).toList.length = left.toList.length + right.toList.length := by
      rw [String.toList_append, List.length_append]
    have hsimulates := Embedding.simulates_markup (E := E)
      (show left.toList.length + 1 ≤ (left ++ right).toList.length + 1 by omega) levels
    have hwhole := hleft.embed_end hsimulates (Place.inText_ofText _) rfl
      (collects_shift (by omega) hright)
    have hplace : E.place (Place.ofText left.toList) = Place.ofText (left ++ right).toList := by
      simp [E, Embedding.place, Place.ofText]
    rw [hplace, show E.front = 0 from rfl, Node.shiftAll_zero] at hwhole
    rw [parseWithin_of_collects hwhole, parseWithin_of_collects hright]
    cases error?' <;> rfl

set_option maxRecDepth 1000 in
/-- The case of a word at the end of the first text that goes on in the second, and of a tag that
is not closed there. -/
theorem parseWithin_append_word :
    parseWithin 2 "<a/>b" = .ok ⟨[.selfClosed ⟨0, 4⟩ (.plain ⟨⟨1, 2⟩, "a"⟩) []]⟩ ∧
      ¬ ("<a/>b".toList.getLast? = some '.' ∧ "c<d/>".toList.head? = some '.') ∧
      parseWithin 2 ("<a/>b" ++ "c<d/>") =
        .ok ⟨[.selfClosed ⟨0, 4⟩ (.plain ⟨⟨1, 2⟩, "a"⟩) [],
          .selfClosed ⟨6, 10⟩ (.plain ⟨⟨7, 8⟩, "d"⟩) []]⟩ ∧
      parseWithin 2 ("<a/>b" ++ "c<d>") = .error ⟨.unclosed, ⟨9, 9⟩⟩ := by
  have h : parseWithin 2 "<a/>b" =
      .ok ⟨[.selfClosed ⟨0, 4⟩ (.plain ⟨⟨1, 2⟩, "a"⟩) []]⟩ := by cbv
  have hright : parseWithin 2 "c<d/>" =
      .ok ⟨[.selfClosed ⟨1, 5⟩ (.plain ⟨⟨2, 3⟩, "d"⟩) []]⟩ := by cbv
  have hopen : parseWithin 2 "c<d>" = .error ⟨.unclosed, ⟨4, 4⟩⟩ := by cbv
  have hlast : "<a/>b".toList.getLast? ≠ some '.' := by decide
  have hdots : ¬ ("<a/>b".toList.getLast? = some '.' ∧ "c<d/>".toList.head? = some '.') :=
    fun hboth => hlast hboth.1
  have hparsed := parseWithin_append h hdots
  have hfails := @parseWithin_append 2 "<a/>b" "c<d>" _ h fun hboth => hlast hboth.1
  rw [hright] at hparsed
  rw [hopen] at hfails
  exact ⟨h, hdots, hparsed, hfails⟩

/-- An error that has nothing to do with the end of a text is met in all longer texts, where it may
end later if it ends with the text. -/
lemma exists_error_append {levels : ℕ} {text more : String} {error : SyntaxError}
    (h : parseWithin levels text = .error error) (hfamily : error.fault.family = .unexpected)
    (hdot : text.toList.getLast? ≠ some '.') :
    ∃ error', parseWithin levels (text ++ more) = .error error' ∧
      error'.fault = error.fault ∧ error'.span.start = error.span.start ∧
      (error'.span.stop = error.span.stop ∨ error.span.stop = text.toList.length) := by
  obtain ⟨nodes, error?, hcollects⟩ := exists_collects levels text
  have hresult := parseWithin_of_collects hcollects
  rw [h] at hresult
  cases error? with
  | none => exact absurd hresult nofun
  | some met =>
    obtain rfl : error = met := Except.error.inj hresult
    let E : Embedding := ⟨0, text.toList, more.toList, fun hlast => absurd hlast hdot⟩
    have hlength : (text ++ more).toList.length = text.toList.length + more.toList.length := by
      rw [String.toList_append, List.length_append]
    have hsimulates := Embedding.simulates_markup (E := E)
      (show text.toList.length + 1 ≤ (text ++ more).toList.length + 1 by omega) levels
    obtain ⟨error', hmoves, hwhole⟩ :=
      hcollects.embed_error hsimulates (Place.inText_ofText _) rfl (.inl hfamily)
    have hplace : E.place (Place.ofText text.toList) = Place.ofText (text ++ more).toList := by
      simp [E, Embedding.place, Place.ofText]
    rw [hplace] at hwhole
    exact ⟨error', parseWithin_of_collects hwhole, hmoves.fault_eq, hmoves.start_eq,
      hmoves.stop_eq.imp_right And.right⟩

/-- **Finality.**  What is refused in a text that does not end with a dot is refused at the same
place whatever comes after it.  So if a text is parsed, or is merely cut short, nothing is refused in
what it begins with. -/
theorem parseWithin_append_of_unexpected {levels : ℕ} {text more : String}
    (hdot : text.toList.getLast? ≠ some '.') :
    (∀ error, parseWithin levels text = .error error → error.fault.family = .unexpected →
      ∃ error', parseWithin levels (text ++ more) = .error error' ∧
        error'.fault = error.fault ∧ error'.span.start = error.span.start ∧
        (error'.span.stop = error.span.stop ∨ error.span.stop = text.toList.length)) ∧
    (((∃ program, parseWithin levels (text ++ more) = .ok program) ∨
        ∃ error, parseWithin levels (text ++ more) = .error error ∧
          error.fault.family = .truncated) →
      ∀ error, parseWithin levels text = .error error → error.fault.family ≠ .unexpected) := by
  refine ⟨fun error h hfamily => exists_error_append h hfamily hdot,
    fun hwhole error h hfamily => ?_⟩
  obtain ⟨error', herror', hfault, -⟩ := @exists_error_append _ _ more _ h hfamily hdot
  rcases hwhole with ⟨program, hok⟩ | ⟨error'', herror'', htruncated⟩
  · rw [hok] at herror'
    exact absurd herror' nofun
  · rw [herror''] at herror'
    obtain rfl := Except.error.inj herror'
    rw [hfault, hfamily] at htruncated
    exact absurd htruncated nofun

/-- The case of a word that is refused as the value of an attribute, and that goes on in the longer
text. -/
theorem refused_value_append :
    "<a b=c".toList.getLast? ≠ some '.' ∧
      parseWithin 2 "<a b=c" = .error ⟨.expected .attributeValue, ⟨5, 6⟩⟩ ∧
      ∃ error', parseWithin 2 ("<a b=c" ++ "d/>") = .error error' ∧
        error'.fault = .expected .attributeValue ∧ error'.span.start = 5 := by
  have hdot : "<a b=c".toList.getLast? ≠ some '.' := by decide
  have h : parseWithin 2 "<a b=c" = .error ⟨.expected .attributeValue, ⟨5, 6⟩⟩ := by cbv
  obtain ⟨error', herror', hfault, hstart, -⟩ :=
    (@parseWithin_append_of_unexpected 2 "<a b=c" "d/>" hdot).1 _ h rfl
  exact ⟨hdot, h, error', herror', hfault, hstart⟩

end EmbeddedJsx
