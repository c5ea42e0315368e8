import EmbeddedJsx.Proofs.Grammar.Completeness.Names

/-!
# Names and what they are written as

The parts of a name that has been read are identifiers (`Name.Proper`), and the characters that join
parts cannot stand in an identifier.  So a name can be told from what it is written as: two names
are written alike just if they match (`Name.Proper.text_eq_iff`), and from what a name is written as
the grammar derives a name that matches it (`Name.Proper.exists_elementName`).
-/

namespace EmbeddedJsx

open Grammar Text

/-- The part reads as an identifier. -/
def Excerpt.IsIdentifier (e : Excerpt) : Prop := isIdentifier e.text.toList = true

namespace Name

/-- All parts of the name are identifiers. -/
def Proper (name : Name) : Prop := ∀ e ∈ name.parts, e.IsIdentifier

/-- The character that joins the parts of a name. -/
def joint : Name → Char
  | member _ _ _ => '.'
  | _ => ':'

end Name

variable {p q : Place} {name a b : Name} {e : Excerpt} {c : Char} {after : List Char}

/-! ### Identifiers -/

/-- What an identifier is made of. -/
lemma Excerpt.IsIdentifier.exists_cons (h : e.IsIdentifier) :
    ∃ c more, e.text.toList = c :: more ∧ isIdentifierStart c = true ∧
      ∀ d ∈ more, isIdentifierContinue d = true := by
  unfold IsIdentifier at h
  generalize e.text.toList = text at h
  cases text with
  | nil => simp [isIdentifier] at h
  | cons c more =>
    simp only [isIdentifier, Bool.and_eq_true, List.all_eq_true] at h
    exact ⟨c, more, rfl, h⟩

lemma Excerpt.IsIdentifier.continues (h : e.IsIdentifier) (hc : c ∈ e.text.toList) :
    isIdentifierContinue c = true := by
  obtain ⟨d, more, htext, hstart, hmore⟩ := h.exists_cons
  rw [htext] at hc
  rcases List.mem_cons.1 hc with rfl | hc
  · exact isIdentifierContinue_of_start hstart
  · exact hmore c hc

lemma Place.Next.isIdentifier (h : p.Next .identifier e q) : e.IsIdentifier := by
  obtain ⟨m, -, lexeme, -, hlexeme, rfl⟩ := h
  cases hlexeme with
  | identifier hstart hmore _ =>
    simpa [Excerpt.IsIdentifier, excerpt, isIdentifier, hstart] using hmore

lemma Grammar.Members.isIdentifier {parts : List Excerpt} (h : Members p parts q) :
    ∀ e ∈ parts, e.IsIdentifier := by
  induction h with
  | nil => simp
  | cons _ hpart _ ih => exact List.forall_mem_cons.2 ⟨hpart.isIdentifier, ih⟩

lemma Grammar.ElementName.proper (h : ElementName p name q) : name.Proper := by
  unfold Name.Proper
  cases h with
  | simple h =>
    cases h with
    | plain h => simpa [Name.parts] using h.isIdentifier
    | namespaced h _ h' => simpa [Name.parts] using ⟨h.isIdentifier, h'.isIdentifier⟩
  | member h _ h' hmore =>
    simpa [Name.parts] using ⟨h.isIdentifier, h'.isIdentifier, hmore.isIdentifier⟩

/-! ### Telling names from their texts -/

namespace Name

lemma joint_cases (name : Name) : name.joint = '.' ∨ name.joint = ':' := by
  cases name <;> simp [joint]

lemma not_continues_joint (name : Name) : isIdentifierContinue name.joint = false := by
  rcases name.joint_cases with h | h <;> rw [h] <;> decide

lemma toList_text (name : Name) :
    name.text.toList = [name.joint].intercalate (name.parts.map (·.text.toList)) := by
  have hseparator : name.separator.toList = [name.joint] := by
    cases name <;> simp [separator, joint]
  rw [text, String.toList_intercalate, hseparator, List.map_map]
  rfl

/-- Names whose parts are joined in the same way and read the same have the same form. -/
lemma matches_of_joint_eq (hjoint : a.joint = b.joint)
    (hparts : a.parts.map (·.text.toList) = b.parts.map (·.text.toList)) : a.Matches b := by
  have htexts : a.parts.map Excerpt.text = b.parts.map Excerpt.text := by
    have hof := congrArg (List.map String.ofList) hparts
    simpa [Function.comp_def] using hof
  rw [← agrees_iff_matches, agrees_iff]
  refine ⟨?_, htexts⟩
  cases a <;> cases b <;> simp [joint, parts] at hjoint htexts ⊢

lemma Matches.text_eq (h : a.Matches b) : a.text = b.text := by
  have hagrees := (agrees_iff a b).1 (agrees_iff_matches.2 h)
  have hseparator : a.separator = b.separator := by cases h <;> rfl
  rw [text, text, hseparator, hagrees.2]

/-- What may join the parts of a name stands in none of them. -/
lemma Proper.not_mem_part (h : name.Proper) (hc : isIdentifierContinue c = false) :
    ∀ text ∈ name.parts.map (·.text.toList), c ∉ text := by
  rintro text htext hmem
  obtain ⟨e, he, rfl⟩ := List.mem_map.1 htext
  have hcontinues := (h e he).continues hmem
  simp [hc] at hcontinues

/-- The parts of a name can be read off its text. -/
lemma Proper.splitOn_text (h : name.Proper) :
    name.text.toList.splitOn name.joint = name.parts.map (·.text.toList) := by
  rw [toList_text]
  refine List.splitOn_intercalate _ (h.not_mem_part name.not_continues_joint) ?_
  cases name <;> simp [parts]

/-- A dot in the text of a name says that its parts are joined by dots. -/
lemma Proper.dot_mem_text_iff (h : name.Proper) :
    '.' ∈ name.text.toList ↔ name.joint = '.' := by
  have hparts := h.not_mem_part (show isIdentifierContinue '.' = false by decide)
  rw [toList_text]
  cases name with
  | plain identifier => simpa [joint, parts] using hparts
  | namespaced space identifier => simpa [joint, parts] using hparts
  | member first second more => simp [joint, parts]

/-- **Names as texts.**  Two names are written alike just if they match. -/
lemma Proper.text_eq_iff (ha : a.Proper) (hb : b.Proper) : a.text = b.text ↔ a.Matches b := by
  refine ⟨fun htext => ?_, Matches.text_eq⟩
  have hjoint : a.joint = b.joint := by
    have hdot := ha.dot_mem_text_iff
    rw [htext, hb.dot_mem_text_iff] at hdot
    by_cases h : a.joint = '.'
    · rw [h, hdot.2 h]
    · rw [a.joint_cases.resolve_left h, b.joint_cases.resolve_left (mt hdot.1 h)]
  refine matches_of_joint_eq hjoint ?_
  rw [← ha.splitOn_text, ← hb.splitOn_text, hjoint, htext]

/-! ### Reading a text back -/

/-- A name is its first part, and then each further part behind the character that joins them. -/
lemma toList_text_eq_append (name : Name) :
    name.text.toList = name.first.text.toList ++
      name.parts.tail.flatMap fun e => name.joint :: e.text.toList := by
  have hjoin (e : Excerpt) (more : List Excerpt) :
      [name.joint].intercalate ((e :: more).map (·.text.toList)) =
        e.text.toList ++ more.flatMap fun e => name.joint :: e.text.toList := by
    induction more generalizing e with
    | nil => simp
    | cons e' more ih =>
      have hrest := ih e'
      rw [List.map_cons] at hrest
      rw [List.map_cons, List.map_cons, List.intercalate_cons_cons, hrest]
      simp
  rw [toList_text]
  cases name with
  | plain e => exact hjoin e []
  | namespaced e e' => exact hjoin e [e']
  | member e e' more => exact hjoin e (e' :: more)

end Name

/-- The token that a text begins with comes next. -/
lemma Place.exists_next_of_lexeme {kind : TokenKind} {lexeme : List Char}
    (hrest : p.rest = lexeme ++ after) (h : Lexeme kind lexeme after) :
    ∃ e q, p.Next kind e q ∧ e.text = String.ofList lexeme ∧ q.rest = after := by
  have hreads : p.Reads kind _ ⟨p.offset + lexeme.length, after⟩ :=
    ⟨lexeme, ⟨hrest, rfl⟩, h, rfl⟩
  exact ⟨_, _, hreads.next, rfl, rfl⟩

namespace Excerpt.IsIdentifier

/-- A part of a name is read back where no word goes on behind it. -/
lemma exists_next (h : e.IsIdentifier) (hrest : p.rest = e.text.toList ++ after)
    (hafter : ∀ d ∈ after.head?, isIdentifierContinue d = false) :
    ∃ e' q, p.Next .identifier e' q ∧ e'.text = e.text ∧ q.rest = after := by
  have hlexeme : Lexeme .identifier e.text.toList after := by
    obtain ⟨c, more, htext, hstart, hmore⟩ := h.exists_cons
    rw [htext]
    exact .identifier hstart hmore hafter
  obtain ⟨e', q, hnext, htext, hq⟩ := Place.exists_next_of_lexeme hrest hlexeme
  exact ⟨e', q, hnext, by simpa using htext, hq⟩

/-- In front of an identifier a dot is a token, for no further dot follows. -/
lemma exists_next_dot (h : e.IsIdentifier) (hrest : p.rest = '.' :: (e.text.toList ++ after)) :
    ∃ dot q, p.Next .dot dot q ∧ q.rest = e.text.toList ++ after := by
  obtain ⟨c, more, htext, hstart, -⟩ := h.exists_cons
  have hc : c ≠ '.' := by
    rintro rfl
    exact absurd hstart (by decide)
  have hlexeme : Lexeme .dot ['.'] (e.text.toList ++ after) := by
    refine .dot ?_ ?_ <;> simp [htext, Ne.symm hc, hc]
  obtain ⟨dot, q, hnext, -, hq⟩ := Place.exists_next_of_lexeme hrest hlexeme
  exact ⟨dot, q, hnext, hq⟩

end Excerpt.IsIdentifier

/-- No word goes on where the further parts of a name follow, or a `>`. -/
lemma not_continues_further (hc : isIdentifierContinue c = false) (more : List Excerpt) :
    ∀ d ∈ ((more.flatMap fun e => c :: e.text.toList) ++ ['>']).head?,
      isIdentifierContinue d = false := by
  cases more with
  | nil => simpa using (by decide : isIdentifierContinue '>' = false)
  | cons e more => simpa using hc

lemma exists_members {parts : List Excerpt} (h : ∀ e ∈ parts, e.IsIdentifier)
    (hrest : p.rest = (parts.flatMap fun e => '.' :: e.text.toList) ++ ['>']) :
    ∃ parts' q, Members p parts' q ∧ parts'.map Excerpt.text = parts.map Excerpt.text ∧
      q.rest = ['>'] := by
  induction parts generalizing p with
  | nil => exact ⟨[], p, .nil p, rfl, hrest⟩
  | cons e parts ih =>
    obtain ⟨he, hparts⟩ := List.forall_mem_cons.1 h
    rw [List.flatMap_cons, List.append_assoc] at hrest
    obtain ⟨dot, a, hdot, ha⟩ := he.exists_next_dot hrest
    obtain ⟨part, b, hpart, htext, hb⟩ :=
      he.exists_next ha (not_continues_further (by decide) parts)
    obtain ⟨parts', q, hmembers, htexts, hq⟩ := ih hparts hb
    exact ⟨part :: parts', q, .cons hdot hpart hmembers, by simp [htext, htexts], hq⟩

/-- **Reading back.**  From what a name is written as, in front of a `>`, the grammar derives a name
that matches it. -/
lemma Name.Proper.exists_elementName (h : name.Proper)
    (hrest : p.rest = name.text.toList ++ ['>']) :
    ∃ name' q, ElementName p name' q ∧ name'.Matches name ∧ q.rest = ['>'] := by
  rw [toList_text_eq_append, List.append_assoc] at hrest
  have hfirst : name.first.IsIdentifier := h _ (List.mem_of_mem_head? (by simp))
  obtain ⟨first, a, hnext, htext, ha⟩ :=
    hfirst.exists_next hrest (not_continues_further name.not_continues_joint _)
  unfold Proper at h
  cases name with
  | plain e => exact ⟨.plain first, a, .simple (.plain hnext), .plain htext, ha⟩
  | namespaced e e' =>
    have he' : e'.IsIdentifier := h e' (by simp [parts])
    have hrest' : a.rest = [':'] ++ (e'.text.toList ++ ['>']) := by
      simpa [parts, joint] using ha
    obtain ⟨colon, b, hcolon, -, hb⟩ := Place.exists_next_of_lexeme hrest' .colon
    obtain ⟨second, q, hnext', htext', hq⟩ :=
      he'.exists_next hb (not_continues_further (c := ':') (by decide) [])
    exact ⟨.namespaced first second, q, .simple (.namespaced hnext hcolon hnext'),
      .namespaced htext htext', hq⟩
  | member e e' more =>
    have he' : e'.IsIdentifier := h e' (by simp [parts])
    have hmore : ∀ e ∈ more, e.IsIdentifier := fun e he => h e (by simp [parts, he])
    have hrest' : a.rest = '.' :: (e'.text.toList ++
        ((more.flatMap fun e => '.' :: e.text.toList) ++ ['>'])) := by
      simpa [parts, joint] using ha
    obtain ⟨dot, b, hdot, hb⟩ := he'.exists_next_dot hrest'
    obtain ⟨second, c, hnext', htext', hc⟩ :=
      he'.exists_next hb (not_continues_further (by decide) more)
    obtain ⟨more', q, hmembers, htexts, hq⟩ := exists_members hmore hc
    exact ⟨.member first second more', q, .member hnext hdot hnext' hmembers,
      .member htext htext' htexts, hq⟩

end EmbeddedJsx
