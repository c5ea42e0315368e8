import EmbeddedJsx.Session
import EmbeddedJsx.Proofs.Grammar.Soundness.Markup
import EmbeddedJsx.Proofs.Grammar.Completeness.Markup

/-!
# Parsing is the grammar

A text is read token by token; where a token begins markup, that markup is read and collected, and
all other tokens are passed over.  Productions are sound and complete for markup, so the loop that
collects it is sound and complete for programs, by induction on its steps and on the derivation.

The main statement is `parseWithin_eq_ok_iff`: parsing answers with a program exactly if the
grammar derives it from the text and it is nested no deeper than allowed.
-/

namespace EmbeddedJsx

open Grammar

lemma TokenKind.opensMarkup_iff {kind : TokenKind} :
    kind.opensMarkup = true ↔ kind = .tagOpen ∨ kind = .fragmentOpen := by
  cases kind <;> simp [opensMarkup]

/-- Whatever fails as the end of the input is no fault of the table. -/
lemma Cursor.ends_of_boundary {c c' : Cursor} {error : SyntaxError}
    (htoken : c.token ≠ some .endOfInput) (h : c.next = .error error c')
    (hfamily : error.fault.family = .boundary) : c.place.Ends := by
  rcases (next_eq_error_iff htoken).1 ⟨c', h⟩ with hfaults | ⟨hends, -⟩
  · exact absurd hfamily hfaults.family_ne_boundary
  · exact hends

namespace Session

variable {s s' : Session} {nested : Production Node} {nodes : List Node} {steps levels k : ℕ}
  {program : Program}

lemma collect_sound (hnested : Production.SoundAt levels .markup nested)
    (htoken : s.cursor.token ≠ some .endOfInput) (h : s.collect nested k = .ok program s') :
    ∃ nodes, program.body = s.body.toList ++ nodes ∧ DerivesProgram s.cursor.place nodes ∧
      Node.deepest nodes ≤ levels := by
  induction k generalizing s with
  | zero => simp [collect] at h
  | succ k ih =>
    rw [collect] at h
    split at h
    · next error c hnext =>
      split at h
      · next hfamily =>
        -- the end of the text is the one failure that the loop takes for success
        simp only [EStateM.Result.ok.injEq] at h
        obtain ⟨rfl, -⟩ := h
        exact ⟨[], by simp, .nil (Cursor.ends_of_boundary htoken hnext hfamily), by simp⟩
      · simp at h
    · next kind c hnext =>
      have hc := (Cursor.next_eq_ok_iff.1 hnext).2
      split at h
      · -- what has been collected before stays in front of the new node
        split at h
        · next node c' hnode =>
          obtain ⟨hderives, hc', hlevel⟩ := hnested hc.2.stands hnode
          obtain ⟨nodes, hbody, hrest, hdepth⟩ := ih hc'.token_ne h
          refine ⟨node :: nodes, by simp [hbody], ?_, max_le hlevel hdepth⟩
          exact .markup hc.1 hderives hrest
        · simp at h
      · next hkind =>
        rw [TokenKind.opensMarkup_iff, not_or] at hkind
        obtain ⟨nodes, hbody, hrest, hdepth⟩ := ih hc.2.token_ne h
        exact ⟨nodes, hbody, .token hc.next hkind.1 hkind.2 hrest, hdepth⟩

/-! ### The loop, step by step -/

section Steps

variable {c c' : Cursor} {kind : TokenKind} {node : Node}

lemma collect_end (htoken : s.cursor.token ≠ some .endOfInput) (h : s.cursor.place.Ends) :
    ∃ s', s.collect nested (k + 1) = .ok ⟨s.body.toList⟩ s' := by
  obtain ⟨c, hnext⟩ := Cursor.exists_next_eq_error_of_ends htoken h
  exact ⟨⟨c, s.body⟩, by simp [collect, hnext, Fault.family]⟩

lemma collect_token (htoken : s.cursor.token ≠ some .endOfInput)
    (h : c.After s.cursor.place kind) (htag : kind ≠ .tagOpen) (hfragment : kind ≠ .fragmentOpen) :
    s.collect nested (k + 1) = collect nested k ⟨c, s.body⟩ := by
  have hnext := Cursor.next_eq_ok_iff.2 ⟨htoken, h⟩
  have hopens := mt TokenKind.opensMarkup_iff.1 (not_or.2 ⟨htag, hfragment⟩)
  simp only [collect, hnext, if_neg hopens]

lemma collect_markup (htoken : s.cursor.token ≠ some .endOfInput)
    (h : c.After s.cursor.place kind) (hkind : kind = .tagOpen ∨ kind = .fragmentOpen)
    (hnode : nested c = .ok node c') :
    s.collect nested (k + 1) = collect nested k ⟨c', s.body.push node⟩ := by
  have hnext := Cursor.next_eq_ok_iff.2 ⟨htoken, h⟩
  have hopens := TokenKind.opensMarkup_iff.2 hkind
  simp only [collect, hnext, if_pos hopens, hnode]

end Steps

lemma collect_complete {p : Place} (h : DerivesProgram p nodes)
    (hdepth : Node.deepest nodes ≤ levels) (htoken : s.cursor.token ≠ some .endOfInput)
    (hp : s.cursor.place = p) (hsteps : p.rest.length < steps) (hk : p.rest.length < k) :
    ∃ s', s.collect (Production.markup steps levels) k = .ok ⟨s.body.toList ++ nodes⟩ s' := by
  induction h generalizing s k with
  | nil hends =>
    subst hp
    obtain ⟨k, rfl⟩ := Production.exists_succ hk
    rw [List.append_nil]
    exact collect_end htoken hends
  | token hread htag hfragment _ ih =>
    subst hp
    obtain ⟨k, rfl⟩ := Production.exists_succ hk
    have hshort := hread.length_lt
    obtain ⟨c, hc, -, rfl⟩ := Cursor.exists_after hread
    rw [collect_token htoken hc htag hfragment]
    exact @ih ⟨c, s.body⟩ k hdepth hc.2.token_ne rfl (by omega) (by omega)
  | @markup p m a node nodes hskip hnode _ ih =>
    subst hp
    obtain ⟨k, rfl⟩ := Production.exists_succ hk
    obtain ⟨hlevel, hdepth⟩ := Nat.max_le.1 hdepth
    have hlen := hskip.reaches.length_le
    have hshort := hnode.markup_length_lt
    obtain ⟨kind, e, b, hkind, hread⟩ := Production.markup_first hnode
    obtain ⟨c, hc, rfl, -, -⟩ := Cursor.exists_on hread
    obtain ⟨c', hmarkup, hc', rfl⟩ := Production.derives_complete hnode steps levels c hlevel
      hc.stands rfl (by omega)
    rw [collect_markup htoken ⟨hskip, hc⟩ hkind hmarkup]
    -- the node is now the last of those that the session has collected
    have hrest := @ih ⟨c', s.body.push node⟩ k hdepth hc'.token_ne rfl (by omega) (by omega)
    simpa using hrest

end Session

lemma parseWithin_eq_ok {levels : ℕ} {text : String} {program : Program} :
    parseWithin levels text = .ok program ↔
      ∃ s', (Session.ofText text).parse levels = .ok program s' := by
  rw [parseWithin]
  split <;> simp_all

/-- What is parsed is derived by the grammar and nested as allowed. -/
lemma derivesProgram_of_parseWithin {levels : ℕ} {text : String} {program : Program}
    (h : parseWithin levels text = .ok program) :
    DerivesProgram (Place.ofText text.toList) program.body ∧ program.depth ≤ levels := by
  obtain ⟨s', h⟩ := parseWithin_eq_ok.1 h
  rw [Session.parse] at h
  split at h
  · next program' s hcollect =>
    simp only [EStateM.Result.ok.injEq] at h
    obtain ⟨rfl, -⟩ := h
    obtain ⟨nodes, hbody, hderives, hdepth⟩ :=
      Session.collect_sound (Production.markup_sound _ _) (by simp [Session.ofText]) hcollect
    have hbody : program'.body = nodes := by simpa [Session.ofText] using hbody
    rw [Program.depth, hbody]
    exact ⟨hderives, hdepth⟩
  · simp at h

/-- What the grammar derives is parsed, if it is nested as allowed. -/
lemma parseWithin_of_derivesProgram {levels : ℕ} {text : String} {nodes : List Node}
    (h : DerivesProgram (Place.ofText text.toList) nodes) (hdepth : Node.deepest nodes ≤ levels) :
    parseWithin levels text = .ok ⟨nodes⟩ := by
  have hsteps : (Place.ofText text.toList).rest.length < (Session.ofText text).cursor.steps := by
    simp [Session.ofText, Cursor.steps, Cursor.ofText, Place.ofText]
  obtain ⟨s', hs'⟩ := Session.collect_complete (s := Session.ofText text) h hdepth
    (by simp [Session.ofText]) rfl hsteps hsteps
  refine parseWithin_eq_ok.2 ⟨s', ?_⟩
  rw [Session.parse, Session.collectWithin, hs']
  rfl

/-- Parsing answers with a program exactly if the grammar derives it from the text and elements
and fragments are nested in it no deeper than allowed. -/
theorem parseWithin_eq_ok_iff (levels : ℕ) (text : String) (program : Program) :
    parseWithin levels text = .ok program ↔
      DerivesProgram (Place.ofText text.toList) program.body ∧ program.depth ≤ levels :=
  ⟨derivesProgram_of_parseWithin, fun h => parseWithin_of_derivesProgram h.1 h.2⟩

end EmbeddedJsx
