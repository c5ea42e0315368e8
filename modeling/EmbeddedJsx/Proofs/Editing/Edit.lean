import EmbeddedJsx.Proofs.Editing.Relabelling
import EmbeddedJsx.Proofs.Reading.Order

/-!
# Edits

An edit puts some characters of a text in the place of others, of none in the case of an insertion.
What stands in front of it keeps its offsets, what comes after it is moved, and each place of the
old text has a place of the new one.  Where nothing is replaced, the two ends of the edit are at one
offset, and it makes a difference there whether something ends or begins: what ends at the
insertion stays in front of it, and what begins at it is moved.

Visits far from the edit are made in the new text as they were in the old one
(`Edit.carries_of_le`, `Edit.carries_of_ge`), provided that tokens in front of the edit do not
depend on what has been replaced (`Edit.Shields`).  The reading of a program then has to be
followed at a single visit, the one at which the edit is made: that is `Edit.parseWithin_target`.
-/

namespace EmbeddedJsx

open Text

/-- A token stays one if what comes after it changes from some character on, provided that this
character is then none that would continue an identifier or a dot, and that what is looked for after
a `<` stays what it is or becomes something that makes no other delimiter of it. -/
lemma Lexeme.replace {kind : TokenKind} {lexeme between after after' : List Char} {c : Char}
    (h : Lexeme kind lexeme (between ++ after)) (hcontinue : isIdentifierContinue c = false)
    (hdot : c ≠ '.')
    (hlook : ∀ d, Ahead d (between ++ after) →
      ∃ d', Ahead d' (between ++ c :: after') ∧ (d ≠ '/' → d' ≠ '/') ∧ (d ≠ '>' → d' ≠ '>')) :
    Lexeme kind lexeme (between ++ c :: after') := by
  cases h with
  | tagOpen hahead hslash hclose =>
    obtain ⟨d', hahead, hslash', hclose'⟩ := hlook _ hahead
    exact .tagOpen hahead (hslash' hslash) (hclose' hclose)
  | tagClose => exact .tagClose
  | selfClose hspace => exact .selfClose hspace
  | closingOpen hspace hahead hclose =>
    obtain ⟨d', hahead, -, hclose'⟩ := hlook _ hahead
    exact .closingOpen hspace hahead (hclose' hclose)
  | fragmentOpen hspace => exact .fragmentOpen hspace
  | fragmentClose hspace hspace' => exact .fragmentClose hspace hspace'
  | identifier hstart hmore hend =>
    refine .identifier hstart hmore fun x hx => ?_
    cases between with
    | nil =>
      obtain rfl : c = x := by simpa using hx
      exact hcontinue
    | cons y between => exact hend x hx
  | string hquote hinside => exact .string hquote hinside
  | assign => exact .assign
  | colon => exact .colon
  | dot hdots hone =>
    -- two more dots would have to stand in front of the change
    rcases between with _ | ⟨x, _ | ⟨y, between⟩⟩
    · exact .dot (fun h => hdot (List.cons_prefix_cons.1 h).1.symm)
        fun h => hdot (List.cons.inj h).1
    · refine .dot (fun h => hdot ?_) (by simp)
      exact (List.cons_prefix_cons.1 (List.cons_prefix_cons.1 h).2).1.symm
    · refine .dot (fun h => hdots ?_) (by simp)
      obtain ⟨hx, htail⟩ := List.cons_prefix_cons.1 h
      obtain ⟨hy, -⟩ := List.cons_prefix_cons.1 htail
      subst hx hy
      exact ⟨between ++ after, rfl⟩
  | comma => exact .comma
  | spread => exact .spread
  | braceOpen => exact .braceOpen
  | braceClose => exact .braceClose

/-- A change of a text. -/
structure Edit where
  /-- What stands in front of the change. -/
  before : List Char
  /-- What is replaced. -/
  old : List Char
  /-- What takes its place. -/
  new : List Char
  /-- What comes after the change. -/
  after : List Char

namespace Edit

variable (E : Edit)

/-- The edit that puts a text in the place of a part of another. -/
def replacing (text : String) (span : Span) (new : String) : Edit where
  before := text.toList.take span.start
  old := span.slice text.toList
  new := new.toList
  after := text.toList.drop span.stop

/-- The text that is changed. -/
def source : List Char := E.before ++ (E.old ++ E.after)

/-- The text that it is changed to. -/
def target : List Char := E.before ++ (E.new ++ E.after)

/-- Where the change begins. -/
def start : ℕ := E.before.length

/-- Where what is replaced ends. -/
def stop : ℕ := E.before.length + E.old.length

/-- Where what is replaced stands. -/
def replaced : Span := ⟨E.start, E.stop⟩

/-- The offset that something after the edit is moved to. -/
def moved (o : ℕ) : ℕ := o - E.old.length + E.new.length

/-- Where something begins that has begun at an offset. -/
def opens (o : ℕ) : ℕ := if o < E.stop then o else E.moved o

/-- Where something ends that has ended at an offset. -/
def closes (o : ℕ) : ℕ := if o < E.stop ∨ o = E.start then o else E.moved o

/-- The edit, as it is seen in a tree: offsets after it are moved, expressions show what then
stands in them, and if a raw text or a literal is replaced, it reads what takes its place. -/
def labels : Relabelling where
  opens := E.opens
  closes := E.closes
  content inside _ :=
    String.ofList (Span.slice ⟨E.closes inside.start, E.opens inside.stop⟩ E.target)
  literal span text := if E.old ≠ [] ∧ span = E.replaced then String.ofList E.new else text

/-- The place of the new text. -/
def place (p : Place) : Place := ⟨E.closes p.offset, E.target.drop (E.closes p.offset)⟩

/-- The place that something after the edit is moved to. -/
def onward (p : Place) : Place := ⟨E.moved p.offset, p.rest⟩

/-- Tokens in front of the edit stay what they are. -/
def Shields : Prop :=
  ∀ kind lexeme between, lexeme ++ between <:+ E.before →
    Lexeme kind lexeme (between ++ (E.old ++ E.after)) →
      Lexeme kind lexeme (between ++ (E.new ++ E.after))

/-- The visit is made in the new text as it is in the old one. -/
def Carries (v : Visit) : Prop :=
  ∀ p a, p.InText E.source → p.Makes v a → (E.place p).Makes (v.relabel E.labels) (E.place a)

variable {E} {o : ℕ} {p m q a : Place} {run : List Char} {kind : TokenKind} {e : Excerpt}
  {call : Cursor.Call} {span : Span}

/-! ### Offsets -/

lemma start_le_stop : E.start ≤ E.stop := Nat.le_add_right _ _

lemma opens_of_lt (h : o < E.stop) : E.opens o = o := if_pos h

lemma opens_of_ge (h : E.stop ≤ o) : E.opens o = E.moved o := if_neg (not_lt.2 h)

lemma closes_of_le (h : o ≤ E.start) : E.closes o = o := by
  have hle := E.start_le_stop
  exact if_pos (by omega)

lemma closes_of_ge (h : E.stop ≤ o) (hlt : E.start < o) : E.closes o = E.moved o :=
  if_neg (by omega)

lemma source_drop_of_le (h : o ≤ E.start) :
    E.source.drop o = E.before.drop o ++ (E.old ++ E.after) :=
  List.drop_append_of_le_length h

lemma target_drop_of_le (h : o ≤ E.start) :
    E.target.drop o = E.before.drop o ++ (E.new ++ E.after) :=
  List.drop_append_of_le_length h

/-- What comes after the edit is the same in both texts. -/
lemma target_drop_moved (h : E.stop ≤ o) : E.target.drop (E.moved o) = E.source.drop o := by
  have hold : E.source.drop o = E.after.drop (o - E.stop) := by
    have hlen : (E.before ++ E.old).length = E.stop := List.length_append
    rw [source, ← List.append_assoc, List.drop_append, List.drop_eq_nil_of_le (by omega), hlen,
      List.nil_append]
  have hnew : E.target.drop (E.moved o) = E.after.drop (o - E.stop) := by
    have hlen : (E.before ++ E.new).length = E.before.length + E.new.length := List.length_append
    have hstop : E.stop = E.before.length + E.old.length := rfl
    have hmoved : E.moved o = o - E.old.length + E.new.length := rfl
    have hrest : E.moved o - (E.before ++ E.new).length = o - E.stop := by omega
    rw [target, ← List.append_assoc, List.drop_append, List.drop_eq_nil_of_le (by omega), hrest,
      List.nil_append]
  rw [hold, hnew]

/-- What stands apart from the edit reads the same in both texts. -/
lemma slice_span (hspan : span.start < span.stop)
    (h : span.stop ≤ E.start ∨ E.stop ≤ span.start ∧ E.start < span.stop) :
    (E.labels.span span).slice E.target = span.slice E.source := by
  have hle := E.start_le_stop
  rcases h with hbefore | ⟨hafter, hlt⟩
  · have hlen : span.stop - span.start ≤ (E.before.drop span.start).length := by
      have hstart : E.start = E.before.length := rfl
      rw [List.length_drop]
      omega
    have hopens : E.opens span.start = span.start := opens_of_lt (by omega)
    have hcloses : E.closes span.stop = span.stop := closes_of_le hbefore
    simp only [Span.slice, Relabelling.span, labels, hopens, hcloses]
    rw [source_drop_of_le (by omega), target_drop_of_le (by omega),
      List.take_append_of_le_length hlen, List.take_append_of_le_length hlen]
  · have hstop : E.stop = E.before.length + E.old.length := rfl
    have hopens : E.opens span.start = E.moved span.start := opens_of_ge hafter
    have hcloses : E.closes span.stop = E.moved span.stop := closes_of_ge (by omega) hlt
    have hlen : E.moved span.stop - E.moved span.start = span.stop - span.start := by
      simp only [moved]
      omega
    simp only [Span.slice, Relabelling.span, labels, hopens, hcloses, hlen,
      target_drop_moved hafter]

lemma literal_of_apart (hspan : span.start < span.stop)
    (h : span.stop ≤ E.start ∨ E.stop ≤ span.start ∧ E.start < span.stop) (text : String) :
    E.labels.literal span text = text := by
  refine if_neg ?_
  rintro ⟨hold, rfl⟩
  have hlen := List.length_pos_iff.2 hold
  simp only [replaced, start, stop] at hspan h
  omega

/-- A token apart from the edit reads the same in both texts. -/
lemma shows_token (hspan : span.start < span.stop)
    (h : span.stop ≤ E.start ∨ E.stop ≤ span.start ∧ E.start < span.stop) :
    (Visit.token call o kind span).Shows E.labels E.source E.target := by
  have hslice := slice_span hspan h
  cases kind with
  | identifier => exact hslice
  | string => rw [Visit.Shows, literal_of_apart hspan h, hslice]
  | _ => trivial

/-- A raw text apart from the edit reads the same in both texts. -/
lemma shows_raw (hspan : span.start < span.stop)
    (h : span.stop ≤ E.start ∨ E.stop ≤ span.start ∧ E.start < span.stop) :
    (Visit.raw span).Shows E.labels E.source E.target := by
  rw [Visit.Shows, literal_of_apart hspan h, slice_span hspan h]

/-! ### Replacing a part of a text -/

/-- What is put between two characters replaces nothing. -/
@[simp] lemma old_inserting {i : ℕ} {text w : String} : (replacing text ⟨i, i⟩ w).old = [] := by
  simp [replacing, Span.slice]

lemma literal_inserting {i : ℕ} {text w : String} (span : Span) (literal : String) :
    (replacing text ⟨i, i⟩ w).labels.literal span literal = literal :=
  if_neg fun hreplaced => hreplaced.1 old_inserting

section Replacing

variable {text w : String} {span : Span} (h : span.start ≤ span.stop)
include h

lemma source_replacing : (replacing text span w).source = text.toList := by
  have hdrop : text.toList.drop span.stop =
      (text.toList.drop span.start).drop (span.stop - span.start) := by
    rw [List.drop_drop, Nat.add_sub_cancel' h]
  simp only [source, replacing, Span.slice, hdrop, List.take_append_drop]

lemma replaced_replacing (hstop : span.stop ≤ text.toList.length) :
    (replacing text span w).replaced = span := by
  have hstart : (replacing text span w).start = span.start := by
    simp only [start, replacing, List.length_take]
    omega
  have hlen : (span.slice text.toList).length = span.stop - span.start := by
    simp only [Span.slice, List.length_take, List.length_drop]
    omega
  have hstop : (replacing text span w).stop = span.stop := by
    change (replacing text span w).start + (span.slice text.toList).length = span.stop
    omega
  rw [replaced, hstart, hstop]

end Replacing

/-! ### Places -/

lemma rest_of_le (hp : p.InText E.source) (h : p.offset ≤ E.start) :
    p.rest = E.before.drop p.offset ++ (E.old ++ E.after) := by
  rw [hp.rest_eq, source_drop_of_le h]

lemma place_of_le (h : p.offset ≤ E.start) :
    E.place p = ⟨p.offset, E.before.drop p.offset ++ (E.new ++ E.after)⟩ := by
  rw [place, closes_of_le h, target_drop_of_le h]

lemma place_of_ge (hp : p.InText E.source) (h : E.stop ≤ p.offset) (hlt : E.start < p.offset) :
    E.place p = E.onward p := by
  rw [place, closes_of_ge h hlt, target_drop_moved h, ← hp.rest_eq]
  rfl

lemma rest_start (hp : p.InText E.source) (h : p.offset = E.start) : p.rest = E.old ++ E.after := by
  rw [rest_of_le hp h.le, h, start, List.drop_length, List.nil_append]

/-- At the place where the edit is made, what takes the place of the old comes next. -/
lemma place_start (h : p.offset = E.start) : E.place p = ⟨E.start, E.new ++ E.after⟩ := by
  rw [place_of_le h.le, h, start, List.drop_length, List.nil_append]

@[simp] lemma place_ofText : E.place (Place.ofText E.source) = Place.ofText E.target := by
  have hzero : (Place.ofText E.source).offset ≤ E.start := Nat.zero_le _
  rw [place_of_le hzero]
  rfl

/-! ### In front of the edit -/

lemma before_drop_of_passes (hp : p.InText E.source) (h : p.Passes run q)
    (hle : q.offset ≤ E.start) : E.before.drop p.offset = run ++ E.before.drop q.offset := by
  have hoff := h.2
  have hrest := h.1
  rw [rest_of_le hp (by omega), rest_of_le (hp.passes h) hle, ← List.append_assoc run]
    at hrest
  exact List.append_cancel_right hrest

lemma place_passes_of_le (hp : p.InText E.source) (h : p.Passes run q)
    (hle : q.offset ≤ E.start) : (E.place p).Passes run (E.place q) := by
  have hoff := h.2
  have hle' : p.offset ≤ E.start := by omega
  rw [place_of_le hle', place_of_le hle]
  exact ⟨by simp only [before_drop_of_passes hp h hle, List.append_assoc], hoff⟩

lemma place_skips_of_le (hp : p.InText E.source) (h : p.Skips q) (hle : q.offset ≤ E.start) :
    (E.place p).Skips (E.place q) := by
  obtain ⟨run, hrun, hpass⟩ := h
  exact ⟨run, hrun, place_passes_of_le hp hpass hle⟩

lemma place_reads_of_le (hshields : E.Shields) (hp : p.InText E.source) (h : p.Reads kind e q)
    (hle : q.offset ≤ E.start) :
    (E.place p).Reads kind (e.relabel E.labels) (E.place q) := by
  have hlt := h.offset_lt
  obtain ⟨lexeme, hpass, hlex, rfl⟩ := h
  have hsplit := before_drop_of_passes hp hpass hle
  refine ⟨lexeme, place_passes_of_le hp hpass hle, ?_, ?_⟩
  · rw [place_of_le hle]
    rw [rest_of_le (hp.passes hpass) hle] at hlex
    exact hshields _ _ _ (hsplit ▸ List.drop_suffix _ _) hlex
  · -- the beginning stays where the end does, for the token is not empty
    have hopens : E.opens p.offset = p.offset :=
      opens_of_lt (hlt.trans_le (hle.trans start_le_stop))
    have hcloses : E.closes p.offset = p.offset := closes_of_le (hlt.le.trans hle)
    simp only [Excerpt.relabel, Relabelling.span, Place.excerpt, labels, place, hopens, hcloses]

/-- In front of the edit it stays as it is whether raw text stands at a place. -/
lemma place_notRaw_of_lt (hp : p.InText E.source) (h : p.NotRaw) (hlt : p.offset < E.start) :
    (E.place p).NotRaw := by
  obtain ⟨c, before, hcons⟩ := List.exists_cons_of_length_pos
    (show 0 < (E.before.drop p.offset).length by rw [List.length_drop]; exact Nat.sub_pos_of_lt hlt)
  rw [Place.NotRaw, place_of_le hlt.le, hcons]
  rw [Place.NotRaw, rest_of_le hp hlt.le, hcons] at h
  exact h

/-- A token in front of the edit is read in the new text as it is in the old one. -/
lemma carries_token_of_le (hshields : E.Shields) (hle : span.stop ≤ E.start) :
    E.Carries (.token call o kind span) := by
  intro p a hp hmakes
  have hstop : span.stop = a.offset := hmakes.stop_eq
  rw [hstop] at hle
  cases hmakes with
  | next h =>
    obtain ⟨m, hskip, hread⟩ := h
    have hm := hread.offset_lt.le.trans hle
    exact .next ⟨E.place m, place_skips_of_le hp hskip hm,
      place_reads_of_le hshields (hp.reaches hskip.reaches) hread hle⟩
  | nextChild hraw h =>
    exact .nextChild (place_notRaw_of_lt hp hraw (h.offset_lt.trans_le hle))
      (place_reads_of_le hshields hp h hle)

/-- Raw text in front of the edit ends in the new text where it does in the old one, if something
stands between the two. -/
lemma carries_raw_of_lt (hlt : span.stop < E.start) : E.Carries (.raw span) := by
  intro p a hp hmakes
  have hle := E.start_le_stop
  cases hmakes with
  | raw hpass hne hraw hend =>
    have hlt : a.offset < E.start := hlt
    have hoff := hpass.2
    have hopens : E.opens p.offset = E.closes p.offset := by
      rw [opens_of_lt (by omega), closes_of_le (by omega)]
    have hmakes := Place.Makes.raw (place_passes_of_le hp hpass hlt.le) hne hraw
      (place_notRaw_of_lt (hp.passes hpass) hend hlt)
    simp only [Visit.relabel, Relabelling.span, labels, hopens]
    exact hmakes

/-! ### After the edit -/

lemma onward_passes (h : p.Passes run q) (hge : E.stop ≤ p.offset) :
    (E.onward p).Passes run (E.onward q) := by
  obtain ⟨hrest, hoff⟩ := h
  refine ⟨hrest, ?_⟩
  simp only [onward, moved, stop] at hge ⊢
  omega

lemma onward_skips (h : p.Skips q) (hge : E.stop ≤ p.offset) :
    (E.onward p).Skips (E.onward q) := by
  obtain ⟨run, hrun, hpass⟩ := h
  exact ⟨run, hrun, onward_passes hpass hge⟩

lemma onward_reads (h : p.Reads kind e q) (hge : E.stop ≤ p.offset) :
    (E.onward p).Reads kind (e.relabel E.labels) (E.onward q) := by
  have hle := E.start_le_stop
  have hlt := h.offset_lt
  obtain ⟨lexeme, hpass, hlex, rfl⟩ := h
  have hopens : E.opens p.offset = E.moved p.offset := opens_of_ge hge
  have hcloses : E.closes q.offset = E.moved q.offset := closes_of_ge (by omega) (by omega)
  refine ⟨lexeme, onward_passes hpass hge, hlex, ?_⟩
  simp only [Excerpt.relabel, Relabelling.span, Place.excerpt, labels, onward, hopens, hcloses]

/-- What begins after the edit is made in the new text as it is in the old one. -/
lemma carries_of_ge {v : Visit} (hge : E.stop ≤ v.origin) (hlt : E.start < v.origin) :
    E.Carries v := by
  intro p a hp hmakes
  have ha := hp.reaches hmakes.reaches
  have hoff := hmakes.reaches.offset_le
  rw [hmakes.origin_eq] at hge hlt
  have hplace : E.place p = E.onward p := place_of_ge hp hge hlt
  have hplace' : E.place a = E.onward a := place_of_ge ha (by omega) (by omega)
  have hcloses : E.closes p.offset = E.moved p.offset := closes_of_ge hge hlt
  rw [hplace, hplace']
  cases hmakes with
  | next h =>
    obtain ⟨m, hskip, hread⟩ := h
    have hm := hskip.reaches.offset_le
    have hread' := onward_reads hread (hge.trans hm)
    simp only [Visit.relabel, labels, hcloses]
    exact .next ⟨E.onward m, onward_skips hskip hge, hread'⟩
  | nextChild hraw h =>
    simp only [Visit.relabel, labels, hcloses]
    exact .nextChild (p := E.onward p) hraw (onward_reads h hge)
  | raw hpass hne hraw hend =>
    have hopens : E.opens p.offset = E.moved p.offset := opens_of_ge hge
    have hcloses' : E.closes a.offset = E.moved a.offset := closes_of_ge (by omega) (by omega)
    simp only [Visit.relabel, Relabelling.span, labels, hopens, hcloses']
    exact .raw (onward_passes hpass hge) hne hraw hend
  | finish h =>
    simp only [Visit.relabel, labels, hcloses]
    exact .finish h

/-! ### Whole readings -/

lemma walk {visits : List Visit} (h : Walk p visits q) (hp : p.InText E.source)
    (hcarries : ∀ v ∈ visits, E.Carries v) :
    Walk (E.place p) (visits.map (Visit.relabel E.labels)) (E.place q) := by
  induction h with
  | nil p => exact .nil _
  | cons hmakes _ ih =>
    obtain ⟨hfirst, hrest⟩ := List.forall_mem_cons.1 hcarries
    exact .cons (hfirst _ _ hp hmakes) (ih (hp.reaches hmakes.reaches) hrest)

variable {program : Program} {left right : List Visit} {v : Visit}

/-- What is visited before the edit is made. -/
lemma carries_left (hread : program.ReadBy E.source (left ++ v :: right)) (hshields : E.Shields)
    (horigin : v.origin ≤ E.start) (hraw : ∀ span, .raw span ∈ left → span.stop ≠ E.start) :
    ∀ u ∈ left, E.Carries u ∧ u.Shows E.labels E.source E.target := by
  intro u hu
  have hle := (hread.stop_le_origin hu).trans horigin
  obtain ⟨x, y, -, -, hvisit⟩ := hread.exists_makes (List.mem_append_left _ hu)
  cases u with
  | token call o kind span =>
    exact ⟨carries_token_of_le hshields hle, shows_token hvisit.origin_lt_of_token.2 (.inl hle)⟩
  | raw span =>
    exact ⟨carries_raw_of_lt (lt_of_le_of_ne hle (hraw span hu)),
      shows_raw hvisit.start_lt_of_raw (.inl hle)⟩
  | finish o => exact absurd hu (hread.finish_notMem_left o)

/-- What is visited after the edit has been made. -/
lemma carries_right (hread : program.ReadBy E.source (left ++ v :: right))
    (hstop : E.stop ≤ v.stop ∧ E.start < v.stop) :
    ∀ u ∈ right, E.Carries u ∧ u.Shows E.labels E.source E.target := by
  intro u hu
  have hge : v.stop ≤ u.origin := by
    obtain ⟨middle, right, rfl⟩ := List.append_of_mem hu
    rw [← List.cons_append, ← List.append_assoc] at hread
    exact hread.stop_le_origin (by simp)
  obtain ⟨x, y, -, -, hvisit⟩ :=
    hread.exists_makes (List.mem_append_right _ (List.mem_cons_of_mem _ hu))
  refine ⟨carries_of_ge (hstop.1.trans hge) (hstop.2.trans_le hge), ?_⟩
  cases u with
  | token call o kind span =>
    have hge : v.stop ≤ o := hge
    obtain ⟨hstart, hlt⟩ := hvisit.origin_lt_of_token
    exact shows_token hlt (.inr (by omega))
  | raw span =>
    have hge : v.stop ≤ span.start := hge
    have hlt := hvisit.start_lt_of_raw
    exact shows_raw hlt (.inr (by omega))
  | finish o => trivial

/-- **Reading an edited text.**  An edit that is made at a single visit, and before which tokens
stay what they are, gives a text in which the same program is read, but for what the edit changes.
-/
theorem parseWithin_target {levels : ℕ}
    (hparse : parseWithin levels (String.ofList E.source) = .ok program)
    (hread : program.ReadBy E.source (left ++ v :: right)) (hshields : E.Shields)
    (horigin : v.origin ≤ E.start)
    (hstop : right = [] ∨ E.stop ≤ v.stop ∧ E.start < v.stop)
    (hraw : ∀ span, .raw span ∈ left → span.stop ≠ E.start)
    (hcarries : E.Carries v) (hshows : v.Shows E.labels E.source E.target) :
    parseWithin levels (String.ofList E.target) = .ok (program.relabel E.labels) := by
  have hleft := carries_left hread hshields horigin hraw
  have hright : ∀ u ∈ right, E.Carries u ∧ u.Shows E.labels E.source E.target := by
    rcases hstop with rfl | hstop
    · simp
    · exact carries_right hread hstop
  have hall : ∀ u ∈ left ++ v :: right, E.Carries u ∧ u.Shows E.labels E.source E.target :=
    List.forall_mem_append.2 ⟨hleft, List.forall_mem_cons.2 ⟨⟨hcarries, hshows⟩, hright⟩⟩
  obtain ⟨q, hwalk⟩ := hread.walk
  have hwalk' := walk hwalk (Place.inText_ofText _) fun u hu => (hall u hu).1
  rw [place_ofText] at hwalk'
  have hread' := hread.relabel (fun _ _ => rfl) (fun u hu => (hall u hu).2) ⟨_, hwalk'⟩
  rw [← String.toList_ofList (l := E.target)] at hread'
  refine hread'.parseWithin_eq ?_
  rw [Program.depth_relabel]
  exact (derivesProgram_of_parseWithin hparse).2

end Edit

end EmbeddedJsx
