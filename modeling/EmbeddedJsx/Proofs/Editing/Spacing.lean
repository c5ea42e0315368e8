import Mathlib
import EmbeddedJsx.Proofs.Editing.Edit
import EmbeddedJsx.Proofs.Reading.Unique

/-!
# White space between tokens

White space may be put wherever the next token is asked for, be it in a tag, in an expression, at
the top or at the end of the input, and between the characters of a delimiter that has more than
one (`Visit.Gap`).  It changes nothing but offsets: that is `parseWithin_spaced`.

A token in front of the inserted space stays what it is, for space continues no identifier, is no
dot, and is passed over by whatever looks for the character after a `<` (`Lexeme.insert`).  A token
that is asked for where the space is inserted comes after it.  A delimiter with space between its
characters is the same delimiter (`Lexeme.widen`).
-/

namespace EmbeddedJsx

open Text

/-- The token is a delimiter of more than one character. -/
def TokenKind.compound : TokenKind → Bool
  | .selfClose | .closingOpen | .fragmentOpen | .fragmentClose => true
  | _ => false

/-- White space may be put at the offset: the next token is asked for there, or the offset is
between two characters of a delimiter. -/
inductive Visit.Gap (i : ℕ) : Visit → Prop where
  | next {kind : TokenKind} {span : Span} : Gap i (.token .next i kind span)
  | finish : Gap i (.finish i)
  | inside {call : Cursor.Call} {o : ℕ} {kind : TokenKind} {span : Span} :
      kind.compound = true → span.start < i → i < span.stop → Gap i (.token call o kind span)

/-- A gap is no later than the end of what is visited. -/
lemma Visit.Gap.le_offset {i : ℕ} {v : Visit} {p a : Place} (h : v.Gap i) (hmakes : p.Makes v a) :
    i ≤ a.offset := by
  cases h with
  | next | finish => exact hmakes.origin_eq.trans_le hmakes.reaches.offset_le
  | inside _ _ hhigh => exact hhigh.le.trans_eq hmakes.stop_eq

/-! ### Tokens and space -/

section Tokens

variable {kind : TokenKind} {lexeme between space after left right : List Char} {c : Char}

lemma TagSpace.append (h : TagSpace left) (h' : TagSpace right) : TagSpace (left ++ right) :=
  List.forall_mem_append.2 ⟨h, h'⟩

lemma TagSpace.insert (h : TagSpace (left ++ right)) (hspace : TagSpace space) :
    TagSpace (left ++ (space ++ right)) := by
  obtain ⟨hleft, hright⟩ := List.forall_mem_append.1 h
  exact TagSpace.append hleft (hspace.append hright)

lemma TagSpace.insignificant (h : TagSpace space) : Insignificant space := fun d hd =>
  isSignificant_of_isTagSpace (h d hd)

lemma isIdentifierContinue_of_isTagSpace (h : isTagSpace c = true) :
    isIdentifierContinue c = false := by
  simp only [isTagSpace, Bool.or_eq_true, beq_iff_eq] at h
  rcases h with ((rfl | rfl) | rfl) | rfl <;> decide

lemma Ahead.insert (h : Ahead c (between ++ after)) (hspace : TagSpace space) :
    Ahead c (between ++ (space ++ after)) := by
  obtain ⟨run, rest, hrun, hc, hsplit⟩ := h
  rcases List.append_eq_append_iff.1 hsplit with ⟨run', rfl, rfl⟩ | ⟨more, rfl, hrest⟩
  · exact ⟨between ++ (space ++ run'), rest, hrun.insert hspace, hc, by simp⟩
  · cases more with
    | nil =>
      obtain rfl : c :: rest = after := by simpa using hrest
      exact ⟨run ++ space, rest, hrun.append hspace, hc, by simp⟩
    | cons d more =>
      obtain ⟨rfl, rfl⟩ := List.cons.inj hrest
      exact ⟨run, more ++ (space ++ after), hrun, hc, by simp⟩

/-- A token stays what it is if space is inserted somewhere after it. -/
lemma Lexeme.insert (h : Lexeme kind lexeme (between ++ after)) (hspace : TagSpace space) :
    Lexeme kind lexeme (between ++ (space ++ after)) := by
  rcases space with _ | ⟨c, space⟩
  · exact h
  have hc : isTagSpace c = true := hspace c List.mem_cons_self
  have hdot : c ≠ '.' := by
    rintro rfl
    simp [isTagSpace] at hc
  exact h.replace (isIdentifierContinue_of_isTagSpace hc) hdot fun d hd =>
    ⟨d, hd.insert hspace, id, id⟩

/-- Where a text is cut, neither part of it being empty, its inside is cut. -/
lemma exists_of_append_eq {x y : Char} {inside : List Char} (h : left ++ right = x :: inside ++ [y])
    (hleft : left ≠ []) (hright : right ≠ []) :
    ∃ inside₁ inside₂, left = x :: inside₁ ∧ right = inside₂ ++ [y] ∧
      inside = inside₁ ++ inside₂ := by
  obtain ⟨d, inside₁, rfl⟩ := List.exists_cons_of_ne_nil hleft
  obtain ⟨inside₂, e, rfl⟩ := List.eq_nil_or_concat right |>.resolve_left hright
  rw [List.concat_eq_append, List.cons_append, List.cons_append, ← List.append_assoc] at h
  obtain ⟨rfl, htail⟩ := List.cons.inj h
  obtain ⟨hinside, hlast⟩ := List.append_inj' htail rfl
  obtain rfl := (List.cons.inj hlast).1
  exact ⟨inside₁, inside₂, rfl, by simp, hinside.symm⟩

/-- A delimiter with space between its characters is the same delimiter. -/
lemma Lexeme.widen (h : Lexeme kind (left ++ right) after) (hkind : kind.compound = true)
    (hleft : left ≠ []) (hright : right ≠ []) (hspace : TagSpace space) :
    Lexeme kind (left ++ (space ++ right)) after := by
  generalize hlexeme : left ++ right = lexeme at h
  cases h with
  | selfClose hinside =>
    obtain ⟨inside₁, inside₂, rfl, rfl, rfl⟩ := exists_of_append_eq hlexeme hleft hright
    simpa using Lexeme.selfClose (hinside.insert hspace)
  | closingOpen hinside hahead hclose =>
    obtain ⟨inside₁, inside₂, rfl, rfl, rfl⟩ := exists_of_append_eq hlexeme hleft hright
    simpa using Lexeme.closingOpen (hinside.insert hspace) hahead hclose
  | fragmentOpen hinside =>
    obtain ⟨inside₁, inside₂, rfl, rfl, rfl⟩ := exists_of_append_eq hlexeme hleft hright
    simpa using Lexeme.fragmentOpen (hinside.insert hspace)
  | @fragmentClose space₁ space₂ _ hinside hinside' =>
    have hlexeme : left ++ right = '<' :: (space₁ ++ '/' :: space₂) ++ ['>'] := by
      simpa using hlexeme
    obtain ⟨inside₁, inside₂, rfl, rfl, hsplit⟩ := exists_of_append_eq hlexeme hleft hright
    -- the space goes in front of the slash or after it
    rcases List.append_eq_append_iff.1 hsplit with ⟨more, rfl, htail⟩ | ⟨more, rfl, rfl⟩
    · cases more with
      | nil =>
        obtain rfl : '/' :: space₂ = inside₂ := by simpa using htail
        simpa using Lexeme.fragmentClose (hinside.append hspace) hinside'
      | cons d more =>
        obtain ⟨rfl, rfl⟩ := List.cons.inj htail
        simpa using Lexeme.fragmentClose hinside (hinside'.insert hspace)
    · simpa using Lexeme.fragmentClose (hinside.insert hspace) hinside'
  | _ => simp [TokenKind.compound] at hkind

end Tokens

namespace Edit

variable {E : Edit} {levels : ℕ} {program : Program} {visits : List Visit} {call : Cursor.Call}
  {o : ℕ} {kind : TokenKind} {span : Span} {v : Visit}

/-- Where space is inserted, tokens in front of it stay what they are. -/
lemma shields_of_space (hold : E.old = []) (hnew : TagSpace E.new) : E.Shields := by
  rintro kind lexeme between - hlex
  rw [hold, List.nil_append] at hlex
  exact hlex.insert hnew

section Inserting

variable (hold : E.old = []) (hnew : TagSpace E.new)
include hold

lemma stop_eq_start : E.stop = E.start := by
  rw [stop, hold, List.length_nil, Nat.add_zero, start]

lemma moved_eq (o : ℕ) : E.moved o = o + E.new.length := by
  rw [moved, hold, List.length_nil, Nat.sub_zero]

include hnew

/-- A token that is asked for where space is inserted comes after the space. -/
lemma carries_next : E.Carries (.token .next E.start kind span) := by
  intro p a hp hmakes
  have hstart : p.offset = E.start := hmakes.origin_eq.symm
  obtain ⟨m, e, hskip, hread, rfl, -⟩ := hmakes.exists_reads
  have ha := hp.reaches hmakes.reaches
  have hstop := stop_eq_start hold
  have hle := hskip.reaches.offset_le
  have hlt := hread.offset_lt
  have hplace : E.place p = ⟨E.start, E.new ++ p.rest⟩ := by
    rw [place_start hstart, rest_start hp hstart, hold, List.nil_append]
  -- the space is passed over together with what has been passed over before
  have hskip' : (E.place p).Skips (E.onward m) := by
    obtain ⟨run, hrun, hrest, hoff⟩ := hskip
    rw [hplace]
    refine ⟨E.new ++ run, hnew.insignificant.append hrun, ?_, ?_⟩
    · simp only [onward, hrest, List.append_assoc]
    · simp only [onward, moved_eq hold, List.length_append]
      omega
  have hread' := onward_reads (E := E) hread (by omega)
  rw [← place_of_ge ha (by omega) (by omega)] at hread'
  have hcloses : E.labels.closes E.start = (E.place p).offset := by
    rw [hplace]
    exact closes_of_le le_rfl
  rw [Visit.relabel, hcloses]
  exact .next (e := e.relabel E.labels) ⟨E.onward m, hskip', hread'⟩

/-- Where no token comes any more, none comes after the space. -/
lemma carries_finish : E.Carries (.finish E.start) := by
  intro p a hp hmakes
  have hstart : p.offset = E.start := hmakes.origin_eq.symm
  obtain ⟨hends, rfl⟩ := hmakes.ends
  rw [Place.Ends, rest_start hp hstart, hold, List.nil_append] at hends
  have hcloses : E.labels.closes E.start = (E.place p).offset := by
    rw [place_start hstart]
    exact closes_of_le le_rfl
  rw [Visit.relabel, hcloses]
  refine .finish ?_
  rw [place_start hstart]
  exact hnew.insignificant.append hends

/-- A delimiter in which space is inserted stands there with the space. -/
lemma exists_reads_of_compound {m a : Place} {e : Excerpt} (hkind : kind.compound = true)
    (hm : m.InText E.source) (hread : m.Reads kind e a) (hlow : m.offset < E.start)
    (hhigh : E.start < a.offset) :
    ∃ e', (E.place m).Reads kind e' (E.place a) ∧ e'.span = E.labels.span e.span := by
  have hstop := stop_eq_start hold
  have ha := hm.reaches hread.reaches
  obtain ⟨lexeme, hpass, hlex, rfl⟩ := hread
  obtain ⟨hrest, hoff⟩ := hpass
  have hbefore : (E.before.drop m.offset).length = E.start - m.offset := List.length_drop
  -- the part of the delimiter in front of the space and the part after it
  obtain ⟨right, rfl, hright⟩ : ∃ right, lexeme = E.before.drop m.offset ++ right ∧
      E.after = right ++ a.rest := by
    rw [rest_of_le hm hlow.le, hold, List.nil_append] at hrest
    rcases List.append_eq_append_iff.1 hrest with hsplit | ⟨more, hsplit, -⟩
    · exact hsplit
    · have hlen := congrArg List.length hsplit
      rw [List.length_append] at hlen
      omega
  rw [List.length_append] at hoff
  have hlex' := hlex.widen hkind (List.length_pos_iff.1 (by omega))
    (List.length_pos_iff.1 (by omega)) hnew
  have hplace : E.place a = ⟨a.offset + E.new.length, a.rest⟩ := by
    rw [place_of_ge ha (by omega) hhigh, onward, moved_eq hold]
  have hopens : E.opens m.offset = m.offset := opens_of_lt (by omega)
  have hcloses : E.closes a.offset = a.offset + E.new.length := by
    rw [closes_of_ge (by omega) hhigh, moved_eq hold]
  rw [place_of_le hlow.le, hplace, hright]
  refine ⟨_, ⟨_, ⟨?_, ?_⟩, hlex', rfl⟩, ?_⟩
  · simp only [List.append_assoc]
  · simp only [List.length_append]
    omega
  · simp only [Place.excerpt, Relabelling.span, labels, hopens, hcloses]

/-- A delimiter in which space is inserted is read as it was before. -/
lemma carries_compound (hkind : kind.compound = true) (hlow : span.start < E.start)
    (hhigh : E.start < span.stop) : E.Carries (.token call o kind span) := by
  intro p a hp hmakes
  have hstop : span.stop = a.offset := hmakes.stop_eq
  cases hmakes with
  | next h =>
    obtain ⟨m, hskip, hread⟩ := h
    rw [hread.span_start] at hlow
    obtain ⟨e', hread', hspan⟩ := exists_reads_of_compound hold hnew hkind
      (hp.reaches hskip.reaches) hread hlow (hstop ▸ hhigh)
    rw [Visit.relabel, ← hspan]
    exact .next (p := E.place p) ⟨E.place m, place_skips_of_le hp hskip hlow.le, hread'⟩
  | nextChild hraw hread =>
    rw [hread.span_start] at hlow
    obtain ⟨e', hread', hspan⟩ :=
      exists_reads_of_compound hold hnew hkind hp hread hlow (hstop ▸ hhigh)
    rw [Visit.relabel, ← hspan]
    exact .nextChild (p := E.place p) (place_notRaw_of_lt hp hraw hlow) hread'

end Inserting

/-- White space may be inserted at a gap. -/
lemma parseWithin_of_gap (hold : E.old = []) (hnew : TagSpace E.new)
    (hparse : parseWithin levels (String.ofList E.source) = .ok program)
    (hread : program.ReadBy E.source visits) (hmem : v ∈ visits) (hgap : v.Gap E.start) :
    parseWithin levels (String.ofList E.target) = .ok (program.relabel E.labels) := by
  have hshields := shields_of_space hold hnew
  have hstop := stop_eq_start hold
  obtain ⟨p, a, -, -, hmakes⟩ := hread.exists_makes hmem
  obtain ⟨left, right, rfl⟩ := List.append_of_mem hmem
  cases hgap with
  | @next kind span =>
    obtain ⟨hle, hlt⟩ := hmakes.origin_lt_of_token
    have hraw : ∀ span, .raw span ∈ left → span.stop ≠ E.start := fun span hspan =>
      hread.raw_stop_ne (List.mem_append_left _ hspan) hmem (.inl ⟨_, _, _, rfl⟩)
    have hhigh : E.start < span.stop := by omega
    exact E.parseWithin_target hparse hread hshields le_rfl (.inr ⟨hstop.trans_le hhigh.le, hhigh⟩)
      hraw (carries_next hold hnew) (shows_token hlt (.inr ⟨hstop.trans_le hle, hhigh⟩))
  | finish =>
    have hraw : ∀ span, .raw span ∈ left → span.stop ≠ E.start := fun span hspan =>
      hread.raw_stop_ne (List.mem_append_left _ hspan) hmem (.inr ⟨_, rfl⟩)
    exact E.parseWithin_target hparse hread hshields le_rfl (.inl hread.eq_nil_of_finish) hraw
      (carries_finish hold hnew) trivial
  | @inside call o kind span hkind hlow hhigh =>
    have horigin : o ≤ span.start := hmakes.origin_lt_of_token.1
    have hraw : ∀ span, .raw span ∈ left → span.stop ≠ E.start := by
      intro span hspan
      have hle : span.stop ≤ o := hread.stop_le_origin hspan
      omega
    refine E.parseWithin_target hparse hread hshields (horigin.trans hlow.le)
      (.inr ⟨hstop.trans_le hhigh.le, hhigh⟩) hraw (carries_compound hold hnew hkind hlow hhigh) ?_
    cases kind <;> trivial

/-- The text with something inserted is read as it was if white space is inserted at a gap. -/
lemma parseWithin_inserting {i : ℕ} {text w : String}
    (hparse : parseWithin levels text = .ok program) (hread : program.ReadBy text.toList visits)
    (hgap : ∃ v ∈ visits, v.Gap i) (hw : TagSpace w.toList) :
    parseWithin levels (String.ofList (replacing text ⟨i, i⟩ w).target) =
      .ok (program.relabel (replacing text ⟨i, i⟩ w).labels) := by
  obtain ⟨v, hmem, hgap⟩ := hgap
  obtain ⟨p, a, -, ha, hmakes⟩ := hread.exists_makes hmem
  have hle : i ≤ text.toList.length := (hgap.le_offset hmakes).trans ha.offset_le
  have hsource : (replacing text ⟨i, i⟩ w).source = text.toList := source_replacing le_rfl
  have hstart : (replacing text ⟨i, i⟩ w).start = i :=
    congrArg Span.start (replaced_replacing le_rfl hle)
  rw [← hsource] at hread
  rw [← hstart] at hgap
  refine parseWithin_of_gap old_inserting hw ?_ hread hmem hgap
  rwa [hsource, String.ofList_toList]

end Edit

/-- **White space is insignificant.**  If a text is parsed, then it is read in one way, and the text
with white space inserted is parsed as well, wherever the next token is asked for when the text is
read, and between the characters of a delimiter.  The program is the same once offsets are
forgotten. -/
theorem parseWithin_spaced {levels : ℕ} {text : String} {program : Program}
    (h : parseWithin levels text = .ok program) :
    (∃! visits, program.ReadBy text.toList visits) ∧
      ∀ (visits : List Visit) (i : ℕ) (w : String), program.ReadBy text.toList visits →
        (∃ v ∈ visits, v.Gap i) → (∀ c ∈ w.toList, c = ' ' ∨ c = '\t' ∨ c = '\r' ∨ c = '\n') →
        ∃ program', parseWithin levels (String.ofList (Edit.replacing text ⟨i, i⟩ w).target) =
            .ok program' ∧
          program'.relabel .forget = program.relabel .forget := by
  refine ⟨existsUnique_readBy h, fun visits i w hread hgap hw => ?_⟩
  have hspace : TagSpace w.toList := fun c hc => by
    rcases hw c hc with rfl | rfl | rfl | rfl <;> decide
  exact ⟨_, Edit.parseWithin_inserting h hread hgap hspace,
    program.relabel_forget Edit.literal_inserting⟩

/-- The case of a tag in which space is put after the `<` and between the characters of the
`/>`. -/
theorem parseWithin_spaced_tag :
    let program : Program := ⟨[.selfClosed ⟨0, 4⟩ (.plain ⟨⟨1, 2⟩, "a"⟩) []]⟩
    let visits : List Visit := [.token .next 0 .tagOpen ⟨0, 1⟩, .token .next 1 .identifier ⟨1, 2⟩,
      .token .next 2 .selfClose ⟨2, 4⟩, .finish 4]
    parseWithin 1 "<a/>" = .ok program ∧ program.ReadBy "<a/>".toList visits ∧
      (∃ v ∈ visits, v.Gap 1) ∧ (∃ v ∈ visits, v.Gap 3) ∧
      (∃ program', parseWithin 1 "< \na/>" = .ok program' ∧
        program'.relabel .forget = program.relabel .forget) ∧
      ∃ program', parseWithin 1 "<a/ \n>" = .ok program' ∧
        program'.relabel .forget = program.relabel .forget := by
  intro program visits
  have h : parseWithin 1 "<a/>" = .ok program := by cbv
  have hread : program.ReadBy "<a/>".toList visits := by
    have hnone : TagSpace [] := List.forall_mem_nil _
    have hopen : Place.Next ⟨0, ['<', 'a', '/', '>']⟩ .tagOpen ⟨⟨0, 1⟩, "<"⟩
        ⟨1, ['a', '/', '>']⟩ :=
      ⟨_, .refl _, ['<'], ⟨rfl, rfl⟩,
        .tagOpen ⟨[], ['/', '>'], hnone, by decide, rfl⟩ (by decide) (by decide), rfl⟩
    have hname : Place.Next ⟨1, ['a', '/', '>']⟩ .identifier ⟨⟨1, 2⟩, "a"⟩ ⟨2, ['/', '>']⟩ :=
      ⟨_, .refl _, ['a'], ⟨rfl, rfl⟩,
        .identifier (by decide) (List.forall_mem_nil _) (by rintro _ ⟨⟩; decide), rfl⟩
    have hclose : Place.Next ⟨2, ['/', '>']⟩ .selfClose ⟨⟨2, 4⟩, "/>"⟩ ⟨4, []⟩ :=
      ⟨_, .refl _, ['/', '>'], ⟨rfl, rfl⟩, @Lexeme.selfClose [] [] hnone, rfl⟩
    have hname' : Excerpt.IsOf ⟨⟨1, 2⟩, "a"⟩ "<a/>".toList := by
      rw [Excerpt.IsOf]
      rfl
    refine ⟨⟨⟨4, []⟩, .cons (.next hopen) (.cons (.next hname) (.cons (.next hclose)
      (.of_makes (.finish insignificant_nil))))⟩, ?_⟩
    have hspells := @Grammar.Spells.selfClosed "<a/>".toList .next 0 2 ⟨0, 1⟩ ⟨2, 4⟩ _ _ _ _
      (.simple (@Grammar.SpellsAttributeName.plain _ 1 _ hname')) .attributesNil
    exact .markup hspells .nil
  have hafter : ∃ v ∈ visits, v.Gap 1 := ⟨_, .tail _ (.head _), .next⟩
  have hinside : ∃ v ∈ visits, v.Gap 3 :=
    ⟨_, .tail _ (.tail _ (.head _)), .inside rfl (by decide) (by decide)⟩
  have htext : String.ofList (Edit.replacing "<a/>" ⟨1, 1⟩ " \n").target = "< \na/>" := by decide
  have htext' : String.ofList (Edit.replacing "<a/>" ⟨3, 3⟩ " \n").target = "<a/ \n>" := by decide
  refine ⟨h, hread, hafter, hinside, ?_, ?_⟩
  · rw [← htext]
    exact (parseWithin_spaced h).2 visits 1 " \n" hread hafter (by simp)
  · rw [← htext']
    exact (parseWithin_spaced h).2 visits 3 " \n" hread hinside (by simp)
end EmbeddedJsx
