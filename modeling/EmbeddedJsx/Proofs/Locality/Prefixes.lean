import EmbeddedJsx.Proofs.Locality.Reparsing
import EmbeddedJsx.Proofs.Runs.Sessions

/-!
# What has been collected

Collecting goes through a text from one element or fragment to the next.  How far it has come is
said by `Grammar.Leading`: the given nodes stand among other tokens, and after the last of them
nothing has been looked at yet.  That holds of what a session has collected when it stops, be it at
the end of the text or at an error.

In the window that ends with the last of the nodes, the grammar derives all of them.  So the main
statement, `Session.parse_collected`, is that a text may be cut after any node that was collected
from it: what is left is parsed, and the nodes up to there come out as before.
-/

namespace EmbeddedJsx

open Grammar Production

/-! ### Nothing is moved -/

@[simp] lemma Span.back_zero (span : Span) : span.back 0 = span := rfl

@[simp] lemma Excerpt.back_zero (e : Excerpt) : e.back 0 = e := rfl

@[simp] lemma Name.back_zero (name : Name) : name.back 0 = name := by
  cases name with
  | plain | namespaced => rfl
  | member first second more =>
    have hmore : more.map (Excerpt.back 0) = more := List.map_id _
    rw [back, hmore]
    rfl

namespace Node

mutual

lemma back_zero : ∀ node : Node, node.back 0 = node
  | selfClosed _ _ attributes => by simp [back, backAll_zero attributes]
  | element _ _ attributes children => by
    simp [back, backAll_zero attributes, backAll_zero children]
  | fragment _ children => by simp [back, backAll_zero children]
  | expression _ _ _ markup => by simp [back, backAll_zero markup]
  | setAttribute _ _ value => by simp [back, back_zero value]
  | text _ _ | string _ _ | bareAttribute _ _ | spread _ _ => by simp [back]

lemma backAll_zero : ∀ nodes : List Node, backAll 0 nodes = nodes
  | [] => rfl
  | node :: nodes => by rw [backAll, back_zero node, backAll_zero nodes]

end

end Node

/-! ### How far collecting has come -/

namespace Grammar

/-- From the first place on stand the given elements and fragments, among other tokens, and the
second place is right after the last of them. -/
inductive Leading : Place → List Node → Place → Prop where
  | nil (p : Place) : Leading p [] p
  | token {p a q : Place} {kind : TokenKind} {e : Excerpt} {nodes : List Node} :
      p.Next kind e a → kind ≠ .tagOpen → kind ≠ .fragmentOpen → nodes ≠ [] →
      Leading a nodes q → Leading p nodes q
  | markup {p m a q : Place} {node : Node} {nodes : List Node} :
      p.Skips m → Derives (.markup node) m a → Leading a nodes q → Leading p (node :: nodes) q

variable {p a q : Place} {nodes : List Node} {kind : TokenKind} {e : Excerpt}

lemma Leading.reaches (h : Leading p nodes q) : p.Reaches q := by
  induction h with
  | nil p => exact .refl p
  | token hnext _ _ _ _ ih => exact hnext.reaches.trans ih
  | markup hskip hnode _ ih => exact hskip.reaches.trans (hnode.reaches.trans ih)

/-- A token that begins no markup stands before the nodes, if there are any. -/
lemma Leading.exists_token (h : Leading a nodes q) (hnext : p.Next kind e a) (htag : kind ≠ .tagOpen)
    (hfragment : kind ≠ .fragmentOpen) : ∃ q', Leading p nodes q' := by
  cases nodes with
  | nil => exact ⟨p, .nil p⟩
  | cons node nodes => exact ⟨q, .token hnext htag hfragment (by simp) h⟩

/-- The first of the nodes stand where they stood, and the last of them ends with its span. -/
lemma Leading.take {k : ℕ} (h : Leading p nodes q) (hk : k < nodes.length) :
    ∃ q', Leading p (nodes.take (k + 1)) q' ∧ q'.offset = nodes[k].span.stop := by
  induction h generalizing k with
  | nil => exact absurd hk (Nat.not_lt_zero k)
  | token hnext htag hfragment hne _ ih =>
    obtain ⟨q', hleading, hstop⟩ := ih hk
    have hne' : List.take (k + 1) _ ≠ [] := mt (List.take_eq_nil_iff.1 ·) (by simpa using hne)
    exact ⟨q', .token hnext htag hfragment hne' hleading, hstop⟩
  | @markup p m a q node nodes hskip hnode _ ih =>
    cases k with
    | zero =>
      refine ⟨a, .markup hskip hnode (.nil a), ?_⟩
      rw [List.getElem_cons_zero, hnode.markup_span]
    | succ k =>
      obtain ⟨q', hleading, hstop⟩ := ih (Nat.lt_of_succ_lt_succ hk)
      exact ⟨q', .markup hskip hnode hleading, hstop⟩

/-- Before markup it is decided what a token is. -/
lemma DerivesProgram.decides (h : DerivesProgram p nodes) (hne : nodes ≠ []) : Decides p.rest := by
  induction h with
  | nil => exact absurd rfl hne
  | token hnext _ _ _ ih => exact hnext.reaches.decides (ih hne)
  | markup hskip hnode _ _ =>
    obtain ⟨kind, e, a, hkind, hread⟩ := markup_first hnode
    refine hskip.reaches.decides (hread.next.decides ?_)
    rcases hkind with rfl | rfl <;> simp

/-- In the window that ends with the last of the nodes, they are all that there is. -/
lemma Leading.window (h : Leading p nodes q) :
    DerivesProgram (p.window 0 q.rest.length) (Node.backAll 0 nodes) := by
  have hwithin {p : Place} (h : p.Reaches q) : p.Within 0 q.rest.length :=
    ⟨Nat.zero_le _, h.length_le⟩
  induction h with
  | nil => exact .nil (by simp [Place.Ends, Place.window, insignificant_nil])
  | token hnext htag hfragment hne hrest ih =>
    have hprogram := ih hwithin
    have ha := hwithin hrest.reaches
    have hp := hwithin (hnext.reaches.trans hrest.reaches)
    -- a token that looks ahead sees no further than to the markup that comes after it
    have hdecides := hprogram.decides (by rwa [Node.backAll_zero])
    exact .token (hnext.window hp ha fun _ => hdecides) htag hfragment hprogram
  | markup hskip hnode hrest ih =>
    have ha := hwithin hrest.reaches
    have hm := hwithin (hnode.reaches.trans hrest.reaches)
    have hp := hwithin (hskip.reaches.trans (hnode.reaches.trans hrest.reaches))
    exact .markup (hskip.window hp hm) (hnode.window hm ha False.elim) (ih hwithin)

lemma Leading.derivesProgram {text : List Char} (h : Leading (Place.ofText text) nodes q) :
    DerivesProgram (Place.ofText (text.take q.offset)) nodes := by
  have hlen := ((Place.inText_ofText text).reaches h.reaches).offset_add_length
  have hplace : (Place.ofText text).window 0 q.rest.length = Place.ofText (text.take q.offset) := by
    have hcount : text.length - q.rest.length = q.offset := by omega
    simp only [Place.window, Place.ofText, hcount]
  have hwindow := h.window
  rwa [hplace, Node.backAll_zero] at hwindow

end Grammar

/-! ### What a session has collected -/

/-- A call that finds the input ended leaves the cursor at the end. -/
lemma Cursor.token_of_boundary {c c' : Cursor} {error : SyntaxError}
    (h : c.next = .error error c') (hfamily : error.fault.family = .boundary) :
    c'.token = some .endOfInput := by
  unfold Cursor.next at h
  split at h
  · next htoken =>
    simp only [fail, EStateM.Result.error.injEq] at h
    rw [← h.2]
    exact htoken
  · generalize scan c.rest = result at h
    obtain ⟨skipped, found⟩ := result
    cases found with
    | token => simp [proceed] at h
    | truncated | loneSlash =>
      simp only [proceed, fail, EStateM.Result.error.injEq] at h
      simp [← h.1, Fault.family] at hfamily
    | nothing =>
      simp only [proceed, fail, EStateM.Result.error.injEq] at h
      rw [← h.2]

namespace Session

variable {s s' : Session} {nested : Production Node} {program : Program} {levels k : ℕ}

/-- The session that collecting leaves behind. -/
def Collected.session : Collected → Session
  | .ok _ s => s
  | .error _ s => s

/-- From a session on, nodes have been collected that lead from the place of its cursor and are
nested at most so deep. -/
def Collected.Leads (levels : ℕ) (s : Session) (result : Collected) : Prop :=
  ∃ nodes q, result.session.body.toList = s.body.toList ++ nodes ∧
    Leading s.cursor.place nodes q ∧ Node.deepest nodes ≤ levels

section Leads

variable {result : Collected} {c c' : Cursor} {kind : TokenKind} {node : Node}

/-- Where collecting stops, nothing is added. -/
lemma Collected.Leads.of_body_eq (h : result.session.body = s.body) : result.Leads levels s :=
  ⟨[], _, by simp [h], .nil _, Nat.zero_le _⟩

lemma Collected.Leads.of_token (h : result.Leads levels ⟨c, s.body⟩)
    (hafter : c.After s.cursor.place kind) (hkind : ¬ kind.opensMarkup = true) :
    result.Leads levels s := by
  obtain ⟨nodes, q, hbody, hleading, hdepth⟩ := h
  rw [TokenKind.opensMarkup_iff, not_or] at hkind
  obtain ⟨q', hleading'⟩ := hleading.exists_token hafter.next hkind.1 hkind.2
  exact ⟨nodes, q', hbody, hleading', hdepth⟩

lemma Collected.Leads.of_markup (h : result.Leads levels ⟨c', s.body.push node⟩)
    (hafter : c.After s.cursor.place kind) (hderives : Derives (.markup node) c.origin c'.place)
    (hlevel : node.depth ≤ levels) : result.Leads levels s := by
  obtain ⟨nodes, q, hbody, hleading, hdepth⟩ := h
  refine ⟨node :: nodes, q, by simp [hbody], ?_, max_le hlevel hdepth⟩
  exact .markup hafter.1 hderives hleading

end Leads

/-- Collecting adds nodes that lead from the place of the cursor, however it ends. -/
lemma leads_collect (hnested : SoundAt levels .markup nested)
    (htoken : s.cursor.token ≠ some .endOfInput) : (s.collect nested k).Leads levels s := by
  induction k generalizing s with
  | zero => exact Collected.Leads.of_body_eq rfl
  | succ k ih =>
    rw [collect]
    split
    · next error c hnext =>
      refine Collected.Leads.of_body_eq ?_
      split <;> rfl
    · next kind c hnext =>
      obtain ⟨-, hafter⟩ := Cursor.next_eq_ok_iff.1 hnext
      split
      · split
        · next node c' hnode =>
          obtain ⟨hderives, hc', hlevel⟩ := hnested hafter.2.stands hnode
          have hrest : (collect nested k ⟨c', s.body.push node⟩).Leads levels
              ⟨c', s.body.push node⟩ := ih hc'.token_ne
          exact hrest.of_markup hafter hderives hlevel
        · exact Collected.Leads.of_body_eq rfl
      · next hkind =>
        have hrest : (collect nested k ⟨c, s.body⟩).Leads levels ⟨c, s.body⟩ :=
          ih hafter.2.token_ne
        exact hrest.of_token hafter hkind

/-- Collecting that succeeds answers with all that has been collected, at the end of the text. -/
lemma collect_eq_ok (h : s.collect nested k = .ok program s') :
    program = ⟨s'.body.toList⟩ ∧ s'.cursor.token = some .endOfInput := by
  induction k generalizing s with
  | zero => simp [collect] at h
  | succ k ih =>
    rw [collect] at h
    split at h
    · next error c hnext =>
      split at h
      · next hfamily =>
        simp only [EStateM.Result.ok.injEq] at h
        obtain ⟨rfl, rfl⟩ := h
        exact ⟨rfl, Cursor.token_of_boundary hnext hfamily⟩
      · cases h
    · split at h
      · split at h
        · exact ih h
        · cases h
      · exact ih h

lemma session_parse (s : Session) (levels : ℕ) :
    (s.parse levels).session = (s.collectWithin s.cursor.steps levels).session := by
  rw [parse]
  split <;> next hcollect => rw [hcollect]; rfl

/-- Where a session has collected nodes, the text up to the end of any of them is parsed as the
nodes up to that one. -/
lemma parseWithin_take {text : String} (hk : k < ((ofText text).parse levels).session.body.size) :
    parseWithin levels (String.ofList
        (text.toList.take ((ofText text).parse levels).session.body[k].span.stop)) =
      .ok ⟨((ofText text).parse levels).session.body.toList.take (k + 1)⟩ := by
  have hleads : ((ofText text).collectWithin (ofText text).cursor.steps levels).Leads levels
      (ofText text) := leads_collect (markup_sound _ levels) (by simp [ofText])
  obtain ⟨nodes, q, hbody, hleading, hdepth⟩ := hleads
  change _ = [] ++ nodes at hbody
  rw [← session_parse, List.nil_append] at hbody
  generalize ((ofText text).parse levels).session.body = body at hk hbody ⊢
  subst hbody
  obtain ⟨q', hprefix, hstop⟩ := hleading.take (k := k) (by simpa using hk)
  rw [Array.getElem_toList] at hstop
  refine parseWithin_of_derivesProgram ?_ ?_
  · rw [String.toList_ofList, ← hstop]
    exact hprefix.derivesProgram
  · rw [← List.take_append_drop (k + 1) body.toList, Node.deepest_append] at hdepth
    exact (le_max_left _ _).trans hdepth

/-- What a session answers is all that it has collected, at the end of the text. -/
lemma parse_eq_ok (h : s.parse levels = .ok program s') :
    program = ⟨s'.body.toList⟩ ∧ s'.cursor.token = some .endOfInput := by
  rw [parse] at h
  split at h
  · next hcollect =>
    simp only [EStateM.Result.ok.injEq] at h
    obtain ⟨rfl, rfl⟩ := h
    exact collect_eq_ok hcollect
  · cases h

/-- Once everything has been collected, collecting again changes nothing. -/
lemma parse_again {text : String} (h : (ofText text).parse levels = .ok program s') :
    s'.parse levels = .ok program s' := by
  have hsettled : s'.Settled text.toList := by
    have hlawful : Lawful text.toList levels (ofText text) .parse :=
      (settled_ofText text).lawful .parse
    have hgrows : Extends text.toList (ofText text) ((ofText text).parse levels).session :=
      hlawful.grows
    rw [h] at hgrows
    exact (settled_ofText text).extends hgrows
  obtain ⟨rfl, htoken⟩ := parse_eq_ok h
  have hnext := hsettled.cursor.perform_ended htoken .next
  rw [Cursor.Call.perform] at hnext
  simp only [parse, collectWithin, Cursor.steps, collect, hnext, Fault.family, if_true]

/-- **Collected markup.**  However parsing ends, the text up to the end of any node that has been
collected is parsed, and what comes out are the nodes up to that one.  And if parsing succeeds, its
answer is what has been collected, and parsing again changes neither. -/
theorem parse_collected (text : String) (levels : ℕ) :
    (∀ (k : ℕ) (hk : k < ((ofText text).parse levels).session.body.size),
      parseWithin levels (String.ofList
          (text.toList.take ((ofText text).parse levels).session.body[k].span.stop)) =
        .ok ⟨((ofText text).parse levels).session.body.toList.take (k + 1)⟩) ∧
    ∀ program s', (ofText text).parse levels = .ok program s' →
      program.body = s'.body.toList ∧ s'.parse levels = .ok program s' := by
  constructor
  · intro k hk
    exact parseWithin_take hk
  · intro program s' h
    obtain ⟨hprogram, -⟩ := parse_eq_ok h
    exact ⟨congrArg Program.body hprogram, parse_again h⟩

/-- Two nodes that are collected before an error, and a text that is parsed. -/
theorem parse_collected_before_error :
    (∃ error s', (ofText "<a/> b. <c/><").parse 1 = .error error s' ∧
      s'.body.toList.map Node.span = [⟨0, 4⟩, ⟨8, 12⟩] ∧
      parseWithin 1 "<a/> b. <c/>" = .ok ⟨s'.body.toList⟩) ∧
    ∃ program s', (ofText "<a/>").parse 1 = .ok program s' ∧
      s'.parse 1 = .ok program s' := by
  constructor
  · obtain ⟨body, hbody⟩ : ∃ body : Array Node, body =
        #[.selfClosed ⟨0, 4⟩ (.plain ⟨⟨1, 2⟩, "a"⟩) [],
          .selfClosed ⟨8, 12⟩ (.plain ⟨⟨9, 10⟩, "c"⟩) []] := ⟨_, rfl⟩
    obtain ⟨error, c, hparse⟩ : ∃ error c,
        (ofText "<a/> b. <c/><").parse 1 = .error error ⟨c, body⟩ := by
      rw [hbody]
      exact ⟨_, _, by cbv⟩
    have hcollected := (parse_collected "<a/> b. <c/><" 1).1
    rw [hparse] at hcollected
    have hsecond := hcollected 1 (by rw [hbody]; exact Nat.one_lt_two)
    refine ⟨error, _, hparse, by rw [hbody]; rfl, ?_⟩
    subst hbody
    exact hsecond
  · obtain ⟨program, s', hparse⟩ : ∃ program s', (ofText "<a/>").parse 1 = .ok program s' :=
      ⟨_, _, by cbv⟩
    exact ⟨program, s', hparse, ((parse_collected "<a/>" 1).2 program s' hparse).2⟩

end Session

end EmbeddedJsx
