import Mathlib
import EmbeddedJsx.Diagnostics
import EmbeddedJsx.Proofs.Reporting.Block

/-!
# Places as editors read them

To an editor the characters of a place are UTF-16 units, and a line ends with a line feed, with a
carriage return, or with both together.  `Diagnostic.Place.decode` reads a place in that way, from
the text alone.

Places are published as line feeds and code points counted from the beginning of the text.  The main
statement, `decode_ofOffset_iff`, says for which offsets the one way of counting undoes the other:
those before which no carriage return stands by itself, and no character of two units on the same
line (`CountsAlike`).
-/

namespace EmbeddedJsx

/-- The number of UTF-16 units of a character. -/
def utf16Units (c : Char) : ℕ := if c.toNat < 0x10000 then 1 else 2

/-- Whether an editor takes a character for the end of a line, or for a part of it. -/
def isLineEnd (c : Char) : Bool := c == '\n' || c == '\r'

namespace Diagnostic.Place

/-- The offset on the line that a text begins with, up to which there are the given number of
UTF-16 units.  A number beyond the end of the line stands for that end, and between the two units of
one character there is no offset. -/
def decodeUnits : (units : ℕ) → List Char → Option ℕ
  | 0, _ => some 0
  | _ + 1, [] => some 0
  | units + 1, c :: rest =>
    if isLineEnd c then some 0
    else if utf16Units c ≤ units + 1 then
      (decodeUnits (units + 1 - utf16Units c) rest).map (· + 1)
    else none

/-- The offset that is the given number of units behind the beginning of a line, which is given by
the number of lines before it. -/
def decodeFrom : (line units : ℕ) → List Char → Option ℕ
  | 0, units, text => decodeUnits units text
  | _ + 1, _, [] => none
  | line + 1, units, '\r' :: '\n' :: rest => (decodeFrom line units rest).map (· + 2)
  | line + 1, units, c :: rest =>
    if isLineEnd c then (decodeFrom line units rest).map (· + 1)
    else (decodeFrom (line + 1) units rest).map (· + 1)

/-- The offset that an editor takes a place in a text for. -/
def decode (text : List Char) (place : Place) : Option ℕ :=
  decodeFrom place.line place.character text

/-- The characters before a place are counted alike in code points and in UTF-16 units, and their
lines alike by line feeds and by all that ends a line. -/
structure CountsAlike (before : List Char) : Prop where
  /-- A carriage return stands in front of a line feed. -/
  returns : ∀ rest, '\r' :: rest <:+ before → rest.head? = some '\n'
  /-- A character of two units is on an earlier line. -/
  wide : ∀ c rest, c :: rest <:+ before → utf16Units c ≠ 1 → '\n' ∈ rest

variable {before after rest : List Char} {c : Char} {line units offset : ℕ}

/-! ### Counting alike -/

lemma countsAlike_nil : CountsAlike [] := ⟨by simp, by simp⟩

lemma countsAlike_cons_iff :
    CountsAlike (c :: rest) ↔
      (c = '\r' → rest.head? = some '\n') ∧ (utf16Units c ≠ 1 → '\n' ∈ rest) ∧
        CountsAlike rest := by
  constructor
  · intro h
    refine ⟨?_, h.wide c rest (List.suffix_refl _), fun tail htail => ?_, fun d tail htail => ?_⟩
    · rintro rfl
      exact h.returns rest (List.suffix_refl _)
    · exact h.returns tail (htail.trans (List.suffix_cons c rest))
    · exact h.wide d tail (htail.trans (List.suffix_cons c rest))
  · rintro ⟨hreturn, hwide, hrest⟩
    refine ⟨fun tail htail => ?_, fun d tail htail => ?_⟩
    · rcases List.suffix_cons_iff.1 htail with heq | htail
      · obtain ⟨rfl, rfl⟩ := List.cons.inj heq
        exact hreturn rfl
      · exact hrest.returns tail htail
    · rcases List.suffix_cons_iff.1 htail with heq | htail
      · obtain ⟨rfl, rfl⟩ := List.cons.inj heq
        exact hwide
      · exact hrest.wide d tail htail

/-- On one line, all characters before a place have one unit and none of them ends a line. -/
lemma countsAlike_iff_of_not_mem (h : '\n' ∉ before) :
    CountsAlike before ↔ ∀ c ∈ before, isLineEnd c = false ∧ utf16Units c = 1 := by
  induction before with
  | nil => simp [countsAlike_nil]
  | cons c rest ih =>
    obtain ⟨hc, hrest⟩ := not_or.1 (mt List.mem_cons.2 h)
    have hhead : rest.head? ≠ some '\n' := fun hhead => hrest (List.mem_of_head? hhead)
    rw [countsAlike_cons_iff, ih hrest, List.forall_mem_cons]
    simp [hhead, hrest, isLineEnd, Ne.symm hc, and_assoc]

/-! ### Published places -/

/-- The place that is published for the end of the given characters. -/
def ofBefore (before : List Char) : Place := ofPosition (.after before)

lemma line_ofBefore : (ofBefore before).line = before.count '\n' := by
  simp [ofBefore, ofPosition, Position.after]

/-- What is in front of a line feed is not counted. -/
lemma character_cons_of_mem (h : '\n' ∈ rest) :
    (ofBefore (c :: rest)).character = (ofBefore rest).character := by
  have hstops : (rest.reverse.takeWhile (· != '\n')).length ≠ rest.reverse.length := by
    intro hlength
    have hall := (List.takeWhile_prefix _).eq_of_length hlength
    simpa using List.takeWhile_eq_self_iff.1 hall '\n' (List.mem_reverse.2 h)
  have hcolumn : (c :: rest).reverse.takeWhile (· != '\n') =
      rest.reverse.takeWhile (· != '\n') := by
    rw [List.reverse_cons, List.takeWhile_append, if_neg hstops]
  simp only [ofBefore, ofPosition, Position.after, hcolumn]

lemma character_of_not_mem (h : '\n' ∉ before) :
    (ofBefore before).character = before.length := by
  have hplace : Position.after ([] ++ before) = _ := Position.after_append (.inl rfl) h
  rw [List.nil_append] at hplace
  rw [ofBefore, ofPosition, hplace]
  rfl

lemma character_cons_lineFeed :
    (ofBefore ('\n' :: rest)).character = (ofBefore rest).character := by
  by_cases h : '\n' ∈ rest
  · exact character_cons_of_mem h
  · have hplace : Position.after (['\n'] ++ rest) = _ :=
      Position.after_append (.inr ⟨[], rfl⟩) h
    rw [character_of_not_mem h, ofBefore, ofPosition]
    exact congrArg (·.column - 1) hplace

/-! ### Decoding on one line -/

lemma utf16Units_pos (c : Char) : 1 ≤ utf16Units c := by
  unfold utf16Units
  split <;> omega

/-- Every character has a unit. -/
lemma decodeUnits_le {text : List Char} (h : decodeUnits units text = some offset) :
    offset ≤ units := by
  induction text generalizing units offset with
  | nil =>
    cases units <;> simp only [decodeUnits, Option.some.injEq] at h <;> omega
  | cons c rest ih =>
    cases units with
    | zero =>
      simp only [decodeUnits, Option.some.injEq] at h
      omega
    | succ units =>
      have hpos := utf16Units_pos c
      simp only [decodeUnits] at h
      split_ifs at h
      · simp only [Option.some.injEq] at h
        omega
      · obtain ⟨inner, hinner, rfl⟩ := Option.map_eq_some_iff.1 h
        have := ih hinner
        omega

/-- As many units as there are characters lead to the end of the characters just if all of them
have one unit and none of them ends the line. -/
lemma decodeUnits_length_iff :
    decodeUnits before.length (before ++ after) = some before.length ↔
      ∀ c ∈ before, isLineEnd c = false ∧ utf16Units c = 1 := by
  induction before with
  | nil => cases after <;> simp [decodeUnits]
  | cons c rest ih =>
    rw [List.forall_mem_cons, ← ih, List.length_cons, List.cons_append, decodeUnits]
    by_cases hend : isLineEnd c = true
    · simp [hend]
    · have hpos := utf16Units_pos c
      by_cases hone : utf16Units c = 1
      · simp [hend, hone]
      · -- fewer units are left than there are characters
        have hshort : ∀ units offset, decodeUnits units (rest ++ after) = some offset →
            units < rest.length → offset ≠ rest.length := by
          intro units offset h hlt
          exact ((decodeUnits_le h).trans_lt hlt).ne
        simp only [hend, hone, Bool.false_eq_true, if_false, and_false, false_and, iff_false]
        split_ifs with hle
        · rw [Option.map_eq_some_iff]
          rintro ⟨inner, hinner, heq⟩
          exact hshort _ _ hinner (by omega) (Nat.succ.inj heq)
        · simp

/-- A line is left at its end at the latest. -/
lemma decodeUnits_lt (h : '\n' ∈ before)
    (hoffset : decodeUnits units (before ++ after) = some offset) : offset < before.length := by
  induction before generalizing units offset with
  | nil => simp at h
  | cons c rest ih =>
    cases units with
    | zero =>
      simp only [List.cons_append, decodeUnits, Option.some.injEq] at hoffset
      simp [← hoffset]
    | succ units =>
      simp only [List.cons_append, decodeUnits] at hoffset
      split_ifs at hoffset with hend _
      · simp only [Option.some.injEq] at hoffset
        simp [← hoffset]
      · obtain ⟨inner, hinner, rfl⟩ := Option.map_eq_some_iff.1 hoffset
        have hrest : '\n' ∈ rest := by
          refine (List.mem_cons.1 h).resolve_left ?_
          rintro rfl
          exact hend rfl
        exact Nat.succ_lt_succ (ih hrest hinner)

/-! ### Decoding from line to line -/

lemma decodeFrom_zero {text : List Char} : decodeFrom 0 units text = decodeUnits units text := by
  rw [decodeFrom]

lemma decodeFrom_zero_lt (h : 0 < before.count '\n')
    (hoffset : decodeFrom 0 units (before ++ after) = some offset) : offset < before.length :=
  decodeUnits_lt (List.count_pos_iff.1 h) (decodeFrom_zero ▸ hoffset)

lemma decodeFrom_pair :
    decodeFrom (line + 1) units ('\r' :: '\n' :: rest) =
      (decodeFrom line units rest).map (· + 2) := rfl

lemma decodeFrom_lineEnd (hc : isLineEnd c = true) (hpair : c = '\r' → rest.head? ≠ some '\n') :
    decodeFrom (line + 1) units (c :: rest) = (decodeFrom line units rest).map (· + 1) := by
  rw [decodeFrom, if_pos hc]
  rintro tail rfl rfl
  exact hpair rfl rfl

lemma decodeFrom_inLine (hc : isLineEnd c = false) :
    decodeFrom (line + 1) units (c :: rest) = (decodeFrom (line + 1) units rest).map (· + 1) := by
  rw [decodeFrom, if_neg (by simp [hc])]
  rintro tail rfl rfl
  simp [isLineEnd] at hc

/-- Characters are gone through in the way in which lines are decoded, up to the last line. -/
lemma induction_lines {motive : List Char → Prop}
    (last : ∀ before, '\n' ∉ before → motive before)
    (feed : ∀ rest, motive rest → motive ('\n' :: rest))
    (pair : ∀ rest, motive rest → motive ('\r' :: '\n' :: rest))
    (lone : ∀ rest, '\n' ∈ rest → rest.head? ≠ some '\n' → motive rest → motive ('\r' :: rest))
    (inLine : ∀ c rest, '\n' ∈ rest → isLineEnd c = false → motive rest → motive (c :: rest))
    (before : List Char) : motive before := by
  induction hlength : before.length using Nat.strong_induction_on generalizing before with
  | _ n ih =>
    subst hlength
    by_cases h : '\n' ∈ before
    swap
    · exact last before h
    obtain ⟨c, rest, rfl⟩ := List.exists_cons_of_ne_nil (List.ne_nil_of_mem h)
    have hrest : motive rest := ih _ (by simp) rest rfl
    by_cases hfeed : c = '\n'
    · subst hfeed
      exact feed rest hrest
    have hmem : '\n' ∈ rest := (List.mem_cons.1 h).resolve_left (Ne.symm hfeed)
    by_cases hreturn : c = '\r'
    · subst hreturn
      by_cases hhead : rest.head? = some '\n'
      · obtain ⟨tail, rfl⟩ := List.head?_eq_some_iff.1 hhead
        exact pair tail (ih _ (by simp) tail rfl)
      · exact lone rest hmem hhead hrest
    · exact inLine c rest hmem (by simp [isLineEnd, hfeed, hreturn]) hrest

lemma head?_append_ne (hmem : '\n' ∈ rest) (hhead : rest.head? ≠ some '\n') :
    (rest ++ after).head? ≠ some '\n' := by
  rw [List.head?_append_of_ne_nil _ (List.ne_nil_of_mem hmem)]
  exact hhead

/-- The lines that an editor counts are not behind those that end with the same number of line
feeds. -/
lemma decodeFrom_lt (h : line < before.count '\n')
    (hoffset : decodeFrom line units (before ++ after) = some offset) : offset < before.length := by
  induction before using induction_lines generalizing line offset with
  | last before hnot => simp [List.count_eq_zero_of_not_mem hnot] at h
  | feed rest ih =>
    obtain _ | line := line
    · exact decodeFrom_zero_lt h hoffset
    rw [List.cons_append, decodeFrom_lineEnd rfl (by simp)] at hoffset
    obtain ⟨inner, hinner, rfl⟩ := Option.map_eq_some_iff.1 hoffset
    exact Nat.succ_lt_succ (ih (by simpa using h) hinner)
  | pair rest ih =>
    obtain _ | line := line
    · exact decodeFrom_zero_lt h hoffset
    rw [List.cons_append, List.cons_append, decodeFrom_pair] at hoffset
    obtain ⟨inner, hinner, rfl⟩ := Option.map_eq_some_iff.1 hoffset
    exact Nat.add_lt_add_right (ih (by simpa using h) hinner) 2
  | lone rest hmem hhead ih =>
    obtain _ | line := line
    · exact decodeFrom_zero_lt h hoffset
    rw [List.cons_append, decodeFrom_lineEnd rfl fun _ => head?_append_ne hmem hhead] at hoffset
    obtain ⟨inner, hinner, rfl⟩ := Option.map_eq_some_iff.1 hoffset
    have hcount : line + 1 < rest.count '\n' := by simpa using h
    exact Nat.succ_lt_succ (ih ((Nat.lt_succ_self line).trans hcount) hinner)
  | inLine c rest hmem hc ih =>
    obtain _ | line := line
    · exact decodeFrom_zero_lt h hoffset
    rw [List.cons_append, decodeFrom_inLine hc] at hoffset
    obtain ⟨inner, hinner, rfl⟩ := Option.map_eq_some_iff.1 hoffset
    have hne : c ≠ '\n' := by
      rintro rfl
      simp [isLineEnd] at hc
    exact Nat.succ_lt_succ (ih (by simpa [List.count_cons_of_ne hne] using h) hinner)

/-- The place that is published for the end of some characters is read as their end just if they
are counted alike. -/
lemma decode_ofBefore_iff :
    (ofBefore before).decode (before ++ after) = some before.length ↔ CountsAlike before := by
  rw [decode, line_ofBefore]
  induction before using induction_lines with
  | last before hnot =>
    rw [List.count_eq_zero_of_not_mem hnot, character_of_not_mem hnot, decodeFrom_zero,
      decodeUnits_length_iff, countsAlike_iff_of_not_mem hnot]
  | feed rest ih =>
    rw [character_cons_lineFeed, List.count_cons_self, List.cons_append,
      decodeFrom_lineEnd rfl (by simp), countsAlike_cons_iff]
    simp [ih, show utf16Units '\n' = 1 from rfl]
  | pair rest ih =>
    rw [character_cons_of_mem List.mem_cons_self, character_cons_lineFeed, List.cons_append,
      List.cons_append, List.count_cons_of_ne (by simp), List.count_cons_self, decodeFrom_pair,
      countsAlike_cons_iff, countsAlike_cons_iff]
    simp [ih, show utf16Units '\n' = 1 from rfl]
  | lone rest hmem hhead _ =>
    -- an editor is on a later line than the one that is published
    obtain ⟨line, hline⟩ := Nat.exists_eq_succ_of_ne_zero (List.count_pos_iff.2 hmem).ne'
    rw [character_cons_of_mem hmem, List.count_cons_of_ne (by simp), hline, List.cons_append,
      decodeFrom_lineEnd rfl fun _ => head?_append_ne hmem hhead, countsAlike_cons_iff]
    simp only [hhead, imp_false, not_true_eq_false, false_and, iff_false]
    intro hoffset
    obtain ⟨inner, hinner, heq⟩ := Option.map_eq_some_iff.1 hoffset
    have hlt := decodeFrom_lt (by omega) hinner
    exact hlt.ne (Nat.succ.inj heq)
  | inLine c rest hmem hc ih =>
    obtain ⟨line, hline⟩ := Nat.exists_eq_succ_of_ne_zero (List.count_pos_iff.2 hmem).ne'
    have hne : c ≠ '\n' ∧ c ≠ '\r' := by simpa [isLineEnd] using hc
    rw [hline] at ih
    rw [character_cons_of_mem hmem, List.count_cons_of_ne hne.1, hline, List.cons_append,
      decodeFrom_inLine hc, countsAlike_cons_iff]
    simp [ih, hmem, hne.2]

/-- **Decoding.**  An editor takes the place that is published for an offset for that very offset
just if what is before it is counted alike. -/
theorem decode_ofOffset_iff {text : List Char} (h : offset ≤ text.length) :
    (ofPosition (.ofOffset text offset)).decode text = some offset ↔
      CountsAlike (text.take offset) := by
  have hclamp : Position.clamp text.length offset = offset := by simp [Position.clamp, h]
  have hiff : (ofBefore (text.take offset)).decode (text.take offset ++ text.drop offset) = _ ↔ _ :=
    decode_ofBefore_iff
  rw [List.take_append_drop, List.length_take_of_le h] at hiff
  rw [Position.ofOffset, hclamp]
  exact hiff

end Diagnostic.Place

end EmbeddedJsx
