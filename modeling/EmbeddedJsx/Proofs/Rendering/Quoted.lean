import Mathlib
import EmbeddedJsx.Text.Lines
import EmbeddedJsx.Text.Numeral
import EmbeddedJsx.Text.Quoted

/-!
# Quoted texts are lines and can be read back

Whatever a text holds, what is written between its quotes holds no line terminator, for those are
unprintable (`Quoted.not_terminator_of_mem_encode`).  And nothing is lost: the characters are read
off one after the other (`Quoted.unescape_escape`), so that no two texts are quoted alike
(`Quoted.encode_injective`).
-/

namespace EmbeddedJsx.Text

variable {text text' rest : List Char} {quote c d : Char} {width n : ℕ}

/-! ### Hexadecimal numerals are read back -/

/-- The number that hexadecimal digits stand for. -/
def hexNumber (digits : List Char) : ℕ :=
  ofDigits 16 (digits.map fun c => (hexValue? c).getD 0)

/-- A number that the width is enough for is read back. -/
lemma hexNumber_hex (h : n < 16 ^ width) : hexNumber (hex width n) = n := by
  induction width generalizing n with
  | zero =>
    obtain rfl : n = 0 := by omega
    rfl
  | succ width ih =>
    have hhigh : hexNumber (hex width (n / 16)) = n / 16 := ih (by omega)
    have hlow : hexValue? (hexDigit (n % 16)) = some (n % 16) :=
      hexValue?_hexDigit ⟨n % 16, Nat.mod_lt _ (by omega)⟩
    simp only [hexNumber, ofDigits] at hhigh
    simp only [hexNumber, ofDigits, hex, List.map_append, List.map_cons, List.map_nil, hlow,
      Option.getD_some, List.foldl_append, hhigh, List.foldl_cons, List.foldl_nil]
    omega

lemma exists_of_mem_hex (h : c ∈ hex width n) : ∃ digit : Fin 16, c = hexDigit digit := by
  induction width generalizing n with
  | zero => simp [hex] at h
  | succ width ih =>
    rcases List.mem_append.1 h with h | h
    · exact ih h
    · exact ⟨⟨n % 16, Nat.mod_lt _ (by omega)⟩, List.mem_singleton.1 h⟩

/-! ### No line ends between quotes -/

lemma not_terminator_hexDigit : ∀ digit : Fin 16, ¬ isLineTerminator (hexDigit digit) := by
  decide

/-- What ends a line is not printable. -/
lemma isPrintable_of_terminator (h : isLineTerminator c) : isPrintable c = false := by
  simp only [isLineTerminator, Bool.or_eq_true, beq_iff_eq] at h
  rcases h with ((((((((rfl | rfl) | rfl) | rfl) | rfl) | rfl) | rfl) | rfl) | rfl) | rfl <;>
  decide +kernel

namespace Quoted

lemma not_terminator_of_mem_byNumber (h : d ∈ byNumber c) : ¬ isLineTerminator d := by
  have hdigits {width : ℕ} (h : d ∈ hex width c.toNat) : ¬ isLineTerminator d := by
    obtain ⟨digit, rfl⟩ := exists_of_mem_hex h
    exact not_terminator_hexDigit digit
  unfold byNumber at h
  split_ifs at h <;>
  · simp only [List.mem_cons] at h
    rcases h with rfl | rfl | h
    · decide
    · decide
    · exact hdigits h

lemma not_terminator_of_mem_escape (hquote : ¬ isLineTerminator quote)
    (h : d ∈ escape quote c) : ¬ isLineTerminator d := by
  unfold escape at h
  split_ifs at h with hescaped hfeed hreturn htab hprintable
  · rcases List.mem_pair.1 h with rfl | rfl
    · decide
    · rcases hescaped with rfl | rfl
      · exact hquote
      · decide
  · rcases List.mem_pair.1 h with rfl | rfl <;> decide
  · rcases List.mem_pair.1 h with rfl | rfl <;> decide
  · rcases List.mem_pair.1 h with rfl | rfl <;> decide
  · obtain rfl := List.mem_singleton.1 h
    intro hterminator
    rw [isPrintable_of_terminator hterminator] at hprintable
    cases hprintable
  · exact not_terminator_of_mem_byNumber h

lemma not_terminator_quoteFor (text : List Char) : ¬ isLineTerminator (quoteFor text) := by
  rcases quoteFor_eq text with h | h <;> rw [h] <;> decide

/-- A quoted text stands on one line. -/
lemma not_terminator_of_mem_encode (h : d ∈ encode text) : ¬ isLineTerminator d := by
  have hquote := not_terminator_quoteFor text
  rw [encode, List.mem_cons, List.mem_append, List.mem_flatMap, List.mem_singleton] at h
  rcases h with rfl | ⟨c, -, h⟩ | rfl
  · exact hquote
  · exact not_terminator_of_mem_escape hquote h
  · exact hquote

/-! ### Quoted texts are read back -/

/-- The character whose number is given in as many digits, and what comes after them. -/
def numbered (width : ℕ) (text : List Char) : Char × List Char :=
  (Char.ofNat (hexNumber (text.take width)), text.drop width)

/-- The character that is written first, and what comes after it. -/
def unescape : List Char → Option (Char × List Char)
  | '\\' :: 'n' :: rest => some ('\n', rest)
  | '\\' :: 'r' :: rest => some ('\r', rest)
  | '\\' :: 't' :: rest => some ('\t', rest)
  | '\\' :: 'x' :: rest => some (numbered 2 rest)
  | '\\' :: 'u' :: rest => some (numbered 4 rest)
  | '\\' :: 'U' :: rest => some (numbered 8 rest)
  | '\\' :: c :: rest => some (c, rest)
  | c :: rest => some (c, rest)
  | [] => none

lemma unescape_of_ne (h : c ≠ '\\') : unescape (c :: rest) = some (c, rest) := by
  simp [unescape, h]

lemma numbered_hex (h : c.toNat < 16 ^ width) :
    numbered width (hex width c.toNat ++ rest) = (c, rest) := by
  rw [numbered, List.take_left' (length_hex _ _), List.drop_left' (length_hex _ _),
    hexNumber_hex h, Char.ofNat_toNat]

/-- What is written for a character by its number is read back. -/
lemma unescape_byNumber (c : Char) (rest : List Char) :
    unescape (byNumber c ++ rest) = some (c, rest) := by
  unfold byNumber
  split_ifs with hbyte hplane
  · exact congrArg some (numbered_hex hbyte)
  · exact congrArg some (numbered_hex hplane)
  · exact congrArg some (numbered_hex c.val.toNat_lt)

/-- What is written for a character is read back. -/
lemma unescape_escape (hquote : quote = '"' ∨ quote = '\'') (c : Char) (rest : List Char) :
    unescape (escape quote c ++ rest) = some (c, rest) := by
  unfold escape
  split_ifs with hescaped hfeed hreturn htab hprintable
  · -- neither a quote nor a backslash begins another escape
    rcases hescaped with rfl | rfl
    · rcases hquote with rfl | rfl <;> rfl
    · rfl
  · rw [hfeed]
    rfl
  · rw [hreturn]
    rfl
  · rw [htab]
    rfl
  · exact unescape_of_ne fun h => hescaped (.inr h)
  · exact unescape_byNumber c rest

lemma flatMap_escape_inj (hquote : quote = '"' ∨ quote = '\'')
    (h : text.flatMap (escape quote) = text'.flatMap (escape quote)) : text = text' := by
  induction text generalizing text' with
  | nil =>
    cases text' with
    | nil => rfl
    | cons d text' =>
      have hread := unescape_escape hquote d (text'.flatMap (escape quote))
      rw [← List.flatMap_cons, ← h] at hread
      cases hread
  | cons c text ih =>
    have hread := unescape_escape hquote c (text.flatMap (escape quote))
    rw [← List.flatMap_cons, h] at hread
    cases text' with
    | nil => cases hread
    | cons d text' =>
      rw [List.flatMap_cons, unescape_escape hquote] at hread
      obtain ⟨rfl, hrest⟩ := Prod.mk.inj (Option.some.inj hread)
      rw [ih hrest.symm]

/-- **Quoting.**  No two texts are quoted alike. -/
lemma encode_injective : Function.Injective encode := by
  intro text text' h
  obtain ⟨hquote, hrest⟩ := List.cons.inj h
  rw [← hquote] at hrest
  exact flatMap_escape_inj (quoteFor_eq text) (List.append_cancel_right hrest)

end Quoted

end EmbeddedJsx.Text
