import EmbeddedJsx.TokenTable
import EmbeddedJsx.Proofs.Lexical.Extent

/-!
# Cutting a text into tokens

`Cuts text start stop tokens` says of a list of tokens, by offsets into the text, that they are all
the tokens of a stretch of it: they stand in order and apart, the table says of each that it stands
there, and no character between them begins anything.

The main statement is `tokens_eq_table`: `tokens` answers with a list exactly if it cuts the whole
text, and fails exactly if the text can be cut up to a place at which the table has a fault.  On
the way there the cut is also described place by place, as `Place.Cut`, for that is how the loop
goes along.
-/

namespace EmbeddedJsx

/-- The tokens are all those of the text from one offset to another. -/
structure Cuts (text : List Char) (start stop : ℕ) (tokens : List Token) : Prop where
  /-- The tokens stand in order and do not overlap. -/
  ordered : tokens.Pairwise fun t u => t.span.stop ≤ u.span.start
  /-- Every token has a character and lies in the stretch of text. -/
  inside : ∀ t ∈ tokens, start ≤ t.span.start ∧ t.span.start < t.span.stop ∧ t.span.stop ≤ stop
  /-- Every token is one by the table, seen with what comes after it. -/
  lexeme : ∀ t ∈ tokens, Lexeme t.kind (t.span.slice text) (text.drop t.span.stop)
  /-- Every token reads what stands there. -/
  text_eq : ∀ t ∈ tokens, t.text = String.ofList (t.span.slice text)
  /-- Every character outside the tokens belongs to none. -/
  gaps : ∀ i c, start ≤ i → i < stop → text[i]? = some c → (∀ t ∈ tokens, ¬ t.span.Covers i) →
    isSignificant c = false

/-- From the first place to the second, the tokens come one after the other. -/
inductive Place.Cut : Place → List Token → Place → Prop where
  | nil (p : Place) : Place.Cut p [] p
  | cons {p m q : Place} {kind : TokenKind} {e : Excerpt} {tokens : List Token} :
      p.Next kind e m → Place.Cut m tokens q → Place.Cut p (⟨kind, e.span, e.text⟩ :: tokens) q

/-! ### The two descriptions of a cut -/

section Descriptions

variable {text : List Char} {start stop : ℕ} {t : Token} {p q r : Place}
  {tokens tokens' : List Token}

lemma cuts_nil_iff :
    Cuts text start stop [] ↔
      ∀ i c, Span.Covers ⟨start, stop⟩ i → text[i]? = some c → isSignificant c = false := by
  constructor
  · intro h i c hi hc
    exact h.gaps i c hi.1 hi.2 hc (by simp)
  · intro h
    exact ⟨.nil, by simp, by simp, by simp, fun i c hlow hhigh hc _ => h i c ⟨hlow, hhigh⟩ hc⟩

/-- A cut begins with a gap and a token, and goes on after the token. -/
lemma cuts_cons_iff :
    Cuts text start stop (t :: tokens) ↔
      (start ≤ t.span.start ∧ t.span.start < t.span.stop ∧ t.span.stop ≤ stop) ∧
        (∀ i c, Span.Covers ⟨start, t.span.start⟩ i → text[i]? = some c →
          isSignificant c = false) ∧
        (Lexeme t.kind (t.span.slice text) (text.drop t.span.stop) ∧
          t.text = String.ofList (t.span.slice text)) ∧
        Cuts text t.span.stop stop tokens := by
  constructor
  · intro h
    obtain ⟨hfirst, hordered⟩ := List.pairwise_cons.1 h.ordered
    obtain ⟨hwhere, hinside⟩ := List.forall_mem_cons.1 h.inside
    obtain ⟨hlex, hlexs⟩ := List.forall_mem_cons.1 h.lexeme
    obtain ⟨htext, htexts⟩ := List.forall_mem_cons.1 h.text_eq
    refine ⟨hwhere, fun i c hi hc => ?_, ⟨hlex, htext⟩, hordered, fun u hu => ?_, hlexs, htexts,
      fun i c hlow hhigh hc huncovered => ?_⟩
    · -- no token covers what comes before the first one
      obtain ⟨hlow, hhigh⟩ : start ≤ i ∧ i < t.span.start := hi
      refine h.gaps i c hlow (by omega) hc fun u hu hcovers => ?_
      have hstart := hcovers.1
      rcases List.mem_cons.1 hu with rfl | hu
      · omega
      · have := hfirst u hu
        omega
    · exact ⟨hfirst u hu, (hinside u hu).2⟩
    · refine h.gaps i c (by omega) hhigh hc (List.forall_mem_cons.2 ⟨fun hcovers => ?_, huncovered⟩)
      have hend := hcovers.2
      omega
  · rintro ⟨⟨hlow, hlt, hhigh⟩, hgap, ⟨hlex, htext⟩, h⟩
    refine ⟨List.pairwise_cons.2 ⟨fun u hu => (h.inside u hu).1, h.ordered⟩,
      List.forall_mem_cons.2 ⟨⟨hlow, hlt, hhigh⟩, fun u hu => ?_⟩,
      List.forall_mem_cons.2 ⟨hlex, h.lexeme⟩, List.forall_mem_cons.2 ⟨htext, h.text_eq⟩,
      fun i c hi hi' hc huncovered => ?_⟩
    · obtain ⟨hlow', hinside⟩ := h.inside u hu
      exact ⟨by omega, hinside⟩
    · -- an uncovered character stands in the first gap, or in one after the first token
      obtain ⟨hfirst, hothers⟩ := List.forall_mem_cons.1 huncovered
      rcases Nat.lt_or_ge i t.span.start with hbefore | hafter
      · exact hgap i c ⟨hi, hbefore⟩ hc
      · refine h.gaps i c ?_ hi' hc hothers
        by_contra hinside
        exact hfirst ⟨hafter, by omega⟩

lemma Place.Cut.reaches (h : p.Cut tokens q) : p.Reaches q := by
  induction h with
  | nil p => exact .refl p
  | cons hnext _ ih => exact hnext.reaches.trans ih

/-- The text is cut between two of its places if the tokens come one after the other from the
first, and after the last of them no token comes before the second place. -/
lemma cuts_iff (hp : p.InText text) (hr : r.InText text) (hle : p.offset ≤ r.offset) :
    Cuts text p.offset r.offset tokens ↔ ∃ q, p.Cut tokens q ∧ q.Skips r := by
  induction tokens generalizing p with
  | nil =>
    rw [cuts_nil_iff, ← hp.skips_iff hr hle]
    constructor
    · exact fun h => ⟨p, .nil p, h⟩
    · rintro ⟨q, hcut, hskip⟩
      cases hcut
      exact hskip
  | cons t tokens ih =>
    rw [cuts_cons_iff]
    constructor
    · rintro ⟨⟨hlow, hlt, hhigh⟩, hgap, ⟨hlex, htext⟩, h⟩
      -- offsets up to the end of the text are places of it
      have hstop := hr.offset_le
      have hs : Place.InText text ⟨t.span.start, text.drop t.span.start⟩ :=
        Place.inText_of_le (by omega)
      have hm : Place.InText text ⟨t.span.stop, text.drop t.span.stop⟩ :=
        Place.inText_of_le (by omega)
      have hread : Place.Reads ⟨t.span.start, text.drop t.span.start⟩ t.kind ⟨t.span, t.text⟩
          ⟨t.span.stop, text.drop t.span.stop⟩ :=
        (hs.reads_iff hm hlt.le).2 ⟨hlex, by rw [htext]⟩
      obtain ⟨q, hcut, hskip⟩ := (ih hm hhigh).1 h
      exact ⟨q, .cons ⟨_, (hp.skips_iff hs hlow).2 hgap, hread⟩ hcut, hskip⟩
    · rintro ⟨q, hcut, hskip⟩
      cases hcut with
      | cons hnext hcut =>
        obtain ⟨s, hgap, hread⟩ := hnext
        have hs := hp.reaches hgap.reaches
        have hm := hs.reaches hread.reaches
        have hrest := (hcut.reaches.trans hskip.reaches).offset_le
        obtain ⟨hlex, rfl⟩ := (hs.reads_iff hm hread.reaches.offset_le).1 hread
        exact ⟨⟨hgap.reaches.offset_le, hread.offset_lt, hrest⟩,
          (hp.skips_iff hs hgap.reaches.offset_le).1 hgap, ⟨hlex, rfl⟩,
          (ih hm hrest).2 ⟨q, hcut, hskip⟩⟩

/-- Two cuts after both of which no token comes are the same. -/
lemma Place.Cut.unique (h : p.Cut tokens q) (h' : p.Cut tokens' r)
    (hq : ∀ kind e m, ¬ q.Next kind e m) (hr : ∀ kind e m, ¬ r.Next kind e m) :
    tokens = tokens' ∧ q = r := by
  induction h generalizing tokens' with
  | nil =>
    cases h' with
    | nil => exact ⟨rfl, rfl⟩
    | cons hnext _ => exact absurd hnext (hq _ _ _)
  | cons hnext _ ih =>
    cases h' with
    | nil => exact absurd hnext (hr _ _ _)
    | cons hnext' hcut' =>
      obtain ⟨rfl, rfl, rfl⟩ := hnext.unique hnext'
      obtain ⟨rfl, rfl⟩ := ih hcut' hq
      exact ⟨rfl, rfl⟩

end Descriptions

/-! ### The loop -/

/-- What reading all tokens from a place leads to: they are cut up to the end of the text or up to
a fault. -/
def Place.CutsTo (p : Place) : Except SyntaxError (List Token) → Prop
  | .ok tokens => ∃ q, p.Cut tokens q ∧ q.Ends
  | .error error => ∃ tokens q, p.Cut tokens q ∧ q.Faults error

section Loop

variable {p : Place} {result result' : Except SyntaxError (List Token)}

lemma Place.Ends.not_next {q : Place} (h : q.Ends) (kind : TokenKind) (e : Excerpt) (m : Place) :
    ¬ q.Next kind e m := fun hnext => hnext.not_ends h

lemma Place.Faults.not_next {q : Place} {error : SyntaxError} (h : q.Faults error)
    (kind : TokenKind) (e : Excerpt) (m : Place) : ¬ q.Next kind e m := fun hnext =>
  hnext.not_faults h

lemma Place.CutsTo.unique (h : p.CutsTo result) (h' : p.CutsTo result') : result = result' := by
  cases result with
  | ok tokens =>
    obtain ⟨q, hcut, hends⟩ := h
    cases result' with
    | ok tokens' =>
      obtain ⟨q', hcut', hends'⟩ := h'
      rw [(hcut.unique hcut' hends.not_next hends'.not_next).1]
    | error error =>
      obtain ⟨tokens', q', hcut', hfaults'⟩ := h'
      obtain ⟨-, rfl⟩ := hcut.unique hcut' hends.not_next hfaults'.not_next
      exact absurd hends hfaults'.not_ends
  | error error =>
    obtain ⟨tokens, q, hcut, hfaults⟩ := h
    cases result' with
    | ok tokens' =>
      obtain ⟨q', hcut', hends'⟩ := h'
      obtain ⟨-, rfl⟩ := hcut.unique hcut' hfaults.not_next hends'.not_next
      exact absurd hends' hfaults.not_ends
    | error error' =>
      obtain ⟨tokens', q', hcut', hfaults'⟩ := h'
      obtain ⟨-, rfl⟩ := hcut.unique hcut' hfaults.not_next hfaults'.not_next
      rw [hfaults.unique hfaults']

/-- Reading tokens cuts the text. -/
lemma Cursor.tokensWithin_cutsTo {c : Cursor} {fuel : ℕ} (htoken : c.token ≠ some .endOfInput)
    (hfuel : c.rest.length < fuel) : c.place.CutsTo (c.tokensWithin fuel) := by
  induction fuel generalizing c with
  | zero => omega
  | succ fuel ih =>
    rw [tokensWithin]
    split
    · next kind after hnext =>
      have hafter := (next_eq_ok_iff.1 hnext).2
      have hshort : after.rest.length < c.rest.length := hafter.next.length_lt
      have ih := @ih after hafter.2.token_ne (by omega)
      split
      · next tokens htokens =>
        rw [htokens] at ih
        obtain ⟨q, hcut, hends⟩ := ih
        exact ⟨q, .cons hafter.next hcut, hends⟩
      · next error herror =>
        rw [herror] at ih
        obtain ⟨tokens, q, hcut, hfaults⟩ := ih
        exact ⟨_, q, .cons hafter.next hcut, hfaults⟩
    · next error after hnext =>
      -- the family of the fault tells the end of the text from faults of the table
      rcases (next_eq_error_iff htoken).1 ⟨after, hnext⟩ with hfaults | ⟨hends, rfl⟩
      · rw [if_neg hfaults.family_ne_boundary]
        exact ⟨[], c.place, .nil _, hfaults⟩
      · rw [if_pos (by rfl)]
        exact ⟨c.place, .nil _, hends⟩

lemma tokens_eq_iff {text : String} :
    tokens text = result ↔ (Place.ofText text.toList).CutsTo result := by
  have hcuts : (Place.ofText text.toList).CutsTo (tokens text) :=
    Cursor.tokensWithin_cutsTo (c := Cursor.ofText text.toList) (by simp) (by simp [Cursor.ofText])
  constructor
  · rintro rfl
    exact hcuts
  · exact hcuts.unique

end Loop

/-! ### Whole texts -/

section Texts

variable {text : List Char} {q : Place} {ts : List Token}

/-- A cut of a text up to its end is one after which nothing else comes. -/
lemma cuts_to_end_iff :
    Cuts text 0 text.length ts ↔ ∃ q, (Place.ofText text).Cut ts q ∧ q.Ends := by
  have hp := Place.inText_ofText text
  have hr : Place.InText text ⟨text.length, text.drop text.length⟩ := Place.inText_of_le le_rfl
  rw [show Cuts text 0 text.length ts ↔ _ from cuts_iff hp hr (Nat.zero_le _)]
  refine exists_congr fun q => and_congr_right fun hcut => ?_
  have hq := hp.reaches hcut.reaches
  constructor
  · rintro ⟨run, hrun, hrest, -⟩
    simpa [Place.Ends, hrest] using hrun
  · exact fun hends => ⟨q.rest, hends, by simp, hq.offset_add_length.symm⟩

/-- A cut of a text up to a fault is one whose next place has the fault. -/
lemma cuts_to_fault_iff {error : SyntaxError} :
    (Cuts text 0 error.span.start ts ∧ error.span.stop ≤ text.length ∧
        Breaks error.fault (error.span.slice text) (text.drop error.span.stop)) ↔
      ∃ q, (Place.ofText text).Cut ts q ∧ q.Faults error := by
  have hp := Place.inText_ofText text
  obtain ⟨fault, start, stop⟩ := error
  constructor
  · rintro ⟨h, hstop, hbreaks⟩
    -- a fault is about some character, which a reversed span would not have
    have hlt : start < stop := by
      obtain ⟨c, rest, hlexeme, -⟩ := hbreaks.exists_cons
      have hlen := congrArg List.length hlexeme
      simp only [Span.slice, List.length_take, List.length_cons] at hlen
      omega
    have hm : Place.InText text ⟨start, text.drop start⟩ :=
      Place.inText_of_le (hlt.le.trans hstop)
    have hr : Place.InText text ⟨stop, text.drop stop⟩ := Place.inText_of_le hstop
    obtain ⟨q, hcut, hskip⟩ := (cuts_iff hp hm (Nat.zero_le _)).1 h
    obtain ⟨hrest, hoff⟩ := (hm.passes_iff hr hlt.le).2 rfl
    exact ⟨q, hcut, _, _, _, hskip, hrest, hbreaks, by simpa using hoff⟩
  · rintro ⟨q, hcut, m, lexeme, after, hskip, hrest, hbreaks, hspan⟩
    obtain ⟨rfl, rfl⟩ := Span.mk.inj hspan
    have hm := (hp.reaches hcut.reaches).reaches hskip.reaches
    have hpass : m.Passes lexeme ⟨m.offset + lexeme.length, after⟩ := ⟨hrest, rfl⟩
    have hr := hm.passes hpass
    have hslice := (hm.passes_iff hr (Nat.le_add_right _ _)).1 hpass
    refine ⟨(cuts_iff hp hm (Nat.zero_le _)).2 ⟨q, hcut, hskip⟩, hr.offset_le, ?_⟩
    rw [← hr.rest_eq, ← hslice]
    exact hbreaks

end Texts

/-- **The tokens of a text are those of the table.**  Cutting a text succeeds with the tokens that
the table finds in it, and fails with the fault of the table at the end of what can be cut, if
there is one. -/
theorem tokens_eq_table (text : String) :
    (∀ ts, tokens text = .ok ts ↔ Cuts text.toList 0 text.toList.length ts) ∧
      ∀ error, tokens text = .error error ↔
        ∃ ts, Cuts text.toList 0 error.span.start ts ∧ error.span.stop ≤ text.toList.length ∧
          Breaks error.fault (error.span.slice text.toList)
            (text.toList.drop error.span.stop) := by
  refine ⟨fun ts => ?_, fun error => ?_⟩
  · rw [tokens_eq_iff, cuts_to_end_iff, Place.CutsTo]
  · simp only [cuts_to_fault_iff]
    rw [tokens_eq_iff, Place.CutsTo]

end EmbeddedJsx
