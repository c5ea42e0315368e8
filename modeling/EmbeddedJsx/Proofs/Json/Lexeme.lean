import EmbeddedJsx.Json
import EmbeddedJsx.Text.Hex
import EmbeddedJsx.Proofs.Lexical.Head

/-!
# The tokens of JSON

A JSON text is a sequence of tokens, before, between and after which there may be white space.  A
token is a word (a bracket, a colon, a comma or one of the three names), a number or a string.  The
same string can be written in many ways, so that a token is told from a lexeme, which is a token
together with its characters.

`Json.Spaced` relates a text to its lexemes.  A text has no more than one sequence of lexemes
(`Spaced.unique`): the first character tells the kind of a token, and where it ends can be told from
the characters of the token or, for a number, from the character after it.
-/

namespace EmbeddedJsx.Json

open Text

variable {c d : Char} {chars chars' written rest rest' : List Char} {n m : ℤ}

/-! ### Words -/

/-- White space between tokens. -/
def isSpace (c : Char) : Bool := c == ' ' || c == '\t' || c == '\n' || c == '\r'

/-- The tokens that are always written in the same way. -/
inductive Word where
  /-- The brace that begins an object. -/
  | leftBrace
  /-- The brace that ends an object. -/
  | rightBrace
  /-- The bracket that begins an array. -/
  | leftBracket
  /-- The bracket that ends an array. -/
  | rightBracket
  /-- The colon after a name. -/
  | colon
  /-- The comma between items or members. -/
  | comma
  /-- The name of the value `null`. -/
  | null
  /-- The name of a truth value. -/
  | truth (value : Bool)
deriving DecidableEq

/-- How a word is written. -/
def Word.text : Word → List Char
  | leftBrace => ['{']
  | rightBrace => ['}']
  | leftBracket => ['[']
  | rightBracket => [']']
  | colon => [':']
  | comma => [',']
  | null => ['n', 'u', 'l', 'l']
  | truth true => ['t', 'r', 'u', 'e']
  | truth false => ['f', 'a', 'l', 's', 'e']

/-- No word begins like another. -/
lemma Word.eq_of_append_eq {w w' : Word} (h : w.text ++ rest = w'.text ++ rest') :
    w = w' ∧ rest = rest' := by
  rcases w with _ | _ | _ | _ | _ | _ | _ | ⟨_ | _⟩ <;>
  rcases w' with _ | _ | _ | _ | _ | _ | _ | ⟨_ | _⟩ <;>
  simp_all [Word.text]

/-! ### Numbers -/

/-- Digits, at least one. -/
def IsDigits (chars : List Char) : Prop := chars ≠ [] ∧ ∀ c ∈ chars, c.isDigit = true

/-- The digits in front of a fraction and an exponent: there is no zero in front of other digits. -/
def IsWhole (chars : List Char) : Prop :=
  IsDigits chars ∧ (chars.head? = some '0' → chars = ['0'])

/-- The fraction of a number, which may be left out. -/
def IsFraction (chars : List Char) : Prop :=
  chars = [] ∨ ∃ digits, IsDigits digits ∧ chars = '.' :: digits

/-- The exponent of a number, which may be left out. -/
def IsExponent (chars : List Char) : Prop :=
  chars = [] ∨ ∃ mark ∈ ['e', 'E'], ∃ sign ∈ [[], ['+'], ['-']], ∃ digits,
    IsDigits digits ∧ chars = mark :: (sign ++ digits)

/-- A number. -/
def IsNumber (chars : List Char) : Prop :=
  ∃ sign ∈ [[], ['-']], ∃ whole fraction exponent, IsWhole whole ∧ IsFraction fraction ∧
    IsExponent exponent ∧ chars = sign ++ (whole ++ (fraction ++ exponent))

/-- The number has neither fraction nor exponent, and this is its value. -/
inductive IsInteger : ℤ → List Char → Prop where
  | natural {digits : List Char} :
      IsWhole digits → IsInteger (Nat.ofDigitChars 10 digits 0) digits
  | negative {digits : List Char} :
      IsWhole digits → IsInteger (-Nat.ofDigitChars 10 digits 0) ('-' :: digits)

/-- The characters that may stand in a number. -/
def inNumber (c : Char) : Bool :=
  c.isDigit || c == '.' || c == 'e' || c == 'E' || c == '+' || c == '-'

lemma IsDigits.mem_inNumber (h : IsDigits chars) (hc : c ∈ chars) : inNumber c = true := by
  simp [inNumber, h.2 c hc]

lemma IsFraction.mem_inNumber (h : IsFraction chars) (hc : c ∈ chars) : inNumber c = true := by
  rcases h with rfl | ⟨digits, hdigits, rfl⟩
  · simp at hc
  · rcases List.mem_cons.1 hc with rfl | hc
    · rfl
    · exact hdigits.mem_inNumber hc

lemma IsExponent.mem_inNumber (h : IsExponent chars) (hc : c ∈ chars) : inNumber c = true := by
  rcases h with rfl | ⟨mark, hmark, sign, hsign, digits, hdigits, rfl⟩
  · simp at hc
  · rcases List.mem_cons.1 hc with rfl | hc
    · simp only [List.mem_cons, List.not_mem_nil, or_false] at hmark
      rcases hmark with rfl | rfl <;> rfl
    · rcases List.mem_append.1 hc with hc | hc
      · simp only [List.mem_cons, List.not_mem_nil, or_false] at hsign
        rcases hsign with rfl | rfl | rfl
        · simp at hc
        · obtain rfl := List.mem_singleton.1 hc
          rfl
        · obtain rfl := List.mem_singleton.1 hc
          rfl
      · exact hdigits.mem_inNumber hc

lemma IsNumber.mem_inNumber (h : IsNumber chars) (hc : c ∈ chars) : inNumber c = true := by
  obtain ⟨sign, hsign, whole, fraction, exponent, hwhole, hfraction, hexponent, rfl⟩ := h
  rcases List.mem_append.1 hc with hc | hc
  · simp only [List.mem_cons, List.not_mem_nil, or_false] at hsign
    rcases hsign with rfl | rfl
    · simp at hc
    · obtain rfl := List.mem_singleton.1 hc
      rfl
  · rcases List.mem_append.1 hc with hc | hc
    · exact hwhole.1.mem_inNumber hc
    · rcases List.mem_append.1 hc with hc | hc
      · exact hfraction.mem_inNumber hc
      · exact hexponent.mem_inNumber hc

/-- A number begins with a minus sign or a digit. -/
lemma IsNumber.exists_cons (h : IsNumber chars) :
    ∃ c more, chars = c :: more ∧ (c = '-' ∨ c.isDigit = true) := by
  obtain ⟨sign, hsign, whole, fraction, exponent, hwhole, -, -, rfl⟩ := h
  simp only [List.mem_cons, List.not_mem_nil, or_false] at hsign
  rcases hsign with rfl | rfl
  · obtain ⟨c, more, rfl⟩ := List.exists_cons_of_ne_nil hwhole.1.1
    exact ⟨c, _, rfl, .inr (hwhole.1.2 c List.mem_cons_self)⟩
  · exact ⟨'-', _, rfl, .inl rfl⟩

lemma IsInteger.isNumber (h : IsInteger n chars) : IsNumber chars := by
  cases h with
  | natural hwhole => exact ⟨[], by simp, chars, [], [], hwhole, .inl rfl, .inl rfl, by simp⟩
  | negative hwhole => exact ⟨['-'], by simp, _, [], [], hwhole, .inl rfl, .inl rfl, by simp⟩

/-- Digits do not begin with a sign. -/
lemma IsWhole.ne_minus (h : IsWhole ('-' :: chars)) : False := by
  have hdigit := h.1.2 '-' List.mem_cons_self
  cases hdigit

/-- An integer has one value. -/
lemma IsInteger.unique (h : IsInteger n chars) (h' : IsInteger m chars) : n = m := by
  cases h with
  | natural hwhole =>
    cases h' with
    | natural _ => rfl
    | negative _ => exact hwhole.ne_minus.elim
  | negative _ =>
    cases h' with
    | natural hwhole => exact hwhole.ne_minus.elim
    | negative _ => rfl

/-- A number goes on as far as characters may stand in it. -/
lemma IsNumber.eq_of_append_eq (h : IsNumber chars) (h' : IsNumber chars')
    (hrest : ∀ c ∈ rest.head?, inNumber c = false) (hrest' : ∀ c ∈ rest'.head?, inNumber c = false)
    (heq : chars ++ rest = chars' ++ rest') : chars = chars' ∧ rest = rest' := by
  have hchars := takeWhile_append_of_head? (fun c hc => h.mem_inNumber hc) hrest
  have hchars' := takeWhile_append_of_head? (fun c hc => h'.mem_inNumber hc) hrest'
  rw [heq, hchars'] at hchars
  subst hchars
  exact ⟨rfl, List.append_cancel_left heq⟩

/-! ### Strings -/

/-- The letters that stand for a character when a backslash is in front of them. -/
def escapes : List (Char × Char) :=
  [('"', '"'), ('\\', '\\'), ('/', '/'), ('b', '\x08'), ('f', '\x0c'), ('n', '\n'), ('r', '\r'),
    ('t', '\t')]

/-- The UTF-16 unit that four hexadecimal digits stand for. -/
def unit? (a b c d : Char) : Option ℕ := do
  let a ← hexValue? a
  let b ← hexValue? b
  let c ← hexValue? c
  let d ← hexValue? d
  return ((a * 16 + b) * 16 + c) * 16 + d

/-- The characters of a string, as they are written from the first one to the closing quote, and
what comes after it.  A character stands for itself, or it is written by a letter, by its UTF-16
unit, or by its two units. -/
inductive Body : (content text rest : List Char) → Prop where
  | close {rest : List Char} : Body [] ('"' :: rest) rest
  | plain {c : Char} {content text rest : List Char} : c ≠ '"' → c ≠ '\\' → ' ' ≤ c →
      Body content text rest → Body (c :: content) (c :: text) rest
  | letter {l c : Char} {content text rest : List Char} : (l, c) ∈ escapes →
      Body content text rest → Body (c :: content) ('\\' :: l :: text) rest
  | unit {a b c d e : Char} {content text rest : List Char} : unit? a b c d = some e.toNat →
      Body content text rest → Body (e :: content) ('\\' :: 'u' :: a :: b :: c :: d :: text) rest
  | units {a b c d a' b' c' d' e : Char} {high low : ℕ} {content text rest : List Char} :
      unit? a b c d = some (0xd800 + high) → unit? a' b' c' d' = some (0xdc00 + low) →
      high < 0x400 → low < 0x400 → e.toNat = 0x10000 + high * 0x400 + low →
      Body content text rest →
      Body (e :: content)
        ('\\' :: 'u' :: a :: b :: c :: d :: '\\' :: 'u' :: a' :: b' :: c' :: d' :: text) rest

lemma Body.append (h : Body chars written rest) (more : List Char) :
    Body chars (written ++ more) (rest ++ more) := by
  induction h with
  | close => exact .close
  | plain hquote hslash hspace _ ih => exact .plain hquote hslash hspace ih
  | letter hletter _ ih => exact .letter hletter ih
  | unit hunit _ ih => exact .unit hunit ih
  | units hhigh hlow hlt hlt' he _ ih => exact .units hhigh hlow hlt hlt' he ih

/-- No character has the number of a unit that is the first of two. -/
lemma toNat_ne_high {high : ℕ} (h : high < 0x400) : c.toNat ≠ 0xd800 + high := by
  intro hc
  have hvalid : c.toNat < 0xd800 ∨ 0xdfff < c.toNat ∧ c.toNat < 0x110000 := c.valid
  omega

lemma letter_unique {l : Char} (h : (l, c) ∈ escapes) (h' : (l, d) ∈ escapes) : c = d := by
  simp only [escapes, List.mem_cons, Prod.mk.injEq, List.not_mem_nil, or_false] at h h'
  rcases h with ⟨rfl, rfl⟩ | ⟨rfl, rfl⟩ | ⟨rfl, rfl⟩ | ⟨rfl, rfl⟩ | ⟨rfl, rfl⟩ | ⟨rfl, rfl⟩ |
    ⟨rfl, rfl⟩ | ⟨rfl, rfl⟩ <;>
  simpa [eq_comm] using h'

lemma not_letter_u : ('u', c) ∉ escapes := by
  simp [escapes]

/-- A string is read in one way. -/
lemma Body.unique (h : Body chars written rest) (h' : Body chars' written rest') :
    chars = chars' ∧ rest = rest' := by
  induction h generalizing chars' with
  | close =>
    cases h' with
    | close => exact ⟨rfl, rfl⟩
    | plain hquote _ _ _ => exact absurd rfl hquote
  | plain hquote hslash _ _ ih =>
    cases h' with
    | close => exact absurd rfl hquote
    | plain _ _ _ h' =>
      obtain ⟨rfl, rfl⟩ := ih h'
      exact ⟨rfl, rfl⟩
    | letter | unit | units => exact absurd rfl hslash
  | letter hletter _ ih =>
    cases h' with
    | plain _ hslash _ _ => exact absurd rfl hslash
    | letter hletter' h' =>
      obtain ⟨rfl, rfl⟩ := ih h'
      exact ⟨by rw [letter_unique hletter hletter'], rfl⟩
    | unit | units => exact absurd hletter not_letter_u
  | unit hunit _ ih =>
    cases h' with
    | plain _ hslash _ _ => exact absurd rfl hslash
    | letter hletter _ => exact absurd hletter not_letter_u
    | unit hunit' h' =>
      obtain ⟨rfl, rfl⟩ := ih h'
      rw [hunit, Option.some.injEq, Char.toNat_inj] at hunit'
      exact ⟨by rw [hunit'], rfl⟩
    | units hhigh _ hlt _ _ _ =>
      rw [hunit, Option.some.injEq] at hhigh
      exact absurd hhigh (toNat_ne_high hlt)
  | units hhigh hlow hlt hlt' he _ ih =>
    cases h' with
    | plain _ hslash _ _ => exact absurd rfl hslash
    | letter hletter _ => exact absurd hletter not_letter_u
    | unit hunit _ =>
      rw [hunit, Option.some.injEq] at hhigh
      exact absurd hhigh (toNat_ne_high hlt)
    | units hhigh' hlow' _ _ he' h' =>
      obtain ⟨rfl, rfl⟩ := ih h'
      rw [hhigh, Option.some.injEq, Nat.add_left_cancel_iff] at hhigh'
      rw [hlow, Option.some.injEq, Nat.add_left_cancel_iff] at hlow'
      rw [← hhigh', ← hlow', ← he, Char.toNat_inj] at he'
      exact ⟨by rw [he'], rfl⟩

/-! ### Lexemes -/

/-- A token: what matters about it, be it written in one way or another. -/
inductive Token where
  /-- A word. -/
  | word (word : Word)
  /-- A number, as it is written. -/
  | number (chars : List Char)
  /-- A string. -/
  | string (content : String)
deriving DecidableEq

/-- The token may be written so. -/
def Token.Spells : Token → List Char → Prop
  | word w, text => text = w.text
  | number chars, text => text = chars ∧ IsNumber chars
  | string content, text => ∃ body, text = '"' :: body ∧ Body content.toList body []

/-- The token may begin with the character, by which words, numbers and strings are told apart. -/
def Token.Begins : Token → Char → Prop
  | word _, c => c ≠ '"' ∧ c ≠ '-' ∧ c.isDigit = false
  | number _, c => c = '-' ∨ c.isDigit = true
  | string _, c => c = '"'

/-- A token and how it is written. -/
structure Lexeme where
  /-- The token. -/
  token : Token
  /-- Its characters. -/
  text : List Char
  /-- The token may be written so. -/
  spells : token.Spells text

namespace Lexeme

/-- The lexeme is not cut off: a number goes on as far as it can. -/
def EndsBefore (l : Lexeme) (rest : List Char) : Prop :=
  (∃ chars, l.token = .number chars) → ∀ c ∈ rest.head?, inNumber c = false

/-- A lexeme has a first character, which is no white space. -/
lemma exists_cons (l : Lexeme) :
    ∃ c more, l.text = c :: more ∧ isSpace c = false ∧ l.token.Begins c := by
  obtain ⟨token, text, h⟩ := l
  cases token with
  | word w =>
    obtain rfl := h
    rcases w with _ | _ | _ | _ | _ | _ | _ | ⟨_ | _⟩ <;>
    exact ⟨_, _, rfl, rfl, by decide, by decide, rfl⟩
  | number chars =>
    obtain ⟨rfl, hnumber⟩ := h
    obtain ⟨c, more, rfl, hc⟩ := hnumber.exists_cons
    refine ⟨c, more, rfl, ?_, hc⟩
    rcases hc with rfl | hc
    · rfl
    · have hne {d : Char} (hd : d.isDigit = false) : c ≠ d := by
        rintro rfl
        rw [hc] at hd
        cases hd
      simp [isSpace, hne (d := ' ') rfl, hne (d := '\t') rfl, hne (d := '\n') rfl,
        hne (d := '\r') rfl]
  | string content =>
    obtain ⟨body, rfl, -⟩ := h
    exact ⟨'"', body, rfl, rfl, rfl⟩

/-- A text begins with one lexeme at most. -/
lemma eq_of_append_eq {l l' : Lexeme} (h : l.EndsBefore rest) (h' : l'.EndsBefore rest')
    (heq : l.text ++ rest = l'.text ++ rest') : l = l' ∧ rest = rest' := by
  obtain ⟨c, more, htext, -, hfirst⟩ := l.exists_cons
  obtain ⟨c', more', htext', -, hfirst'⟩ := l'.exists_cons
  obtain rfl : c = c' := by
    rw [htext, htext'] at heq
    exact (List.cons.inj heq).1
  obtain ⟨token, text, hspells⟩ := l
  obtain ⟨token', text', hspells'⟩ := l'
  dsimp only at heq htext htext' hfirst hfirst'
  cases token with
  | word w =>
    cases token' with
    | word w' =>
      obtain rfl := hspells
      obtain rfl := hspells'
      obtain ⟨rfl, rfl⟩ := Word.eq_of_append_eq heq
      exact ⟨rfl, rfl⟩
    | number chars => simp_all [Token.Begins]
    | string content => simp_all [Token.Begins]
  | number chars =>
    cases token' with
    | word w => simp_all [Token.Begins]
    | number chars' =>
      obtain ⟨rfl, hnumber⟩ := hspells
      obtain ⟨rfl, hnumber'⟩ := hspells'
      obtain ⟨rfl, rfl⟩ :=
        hnumber.eq_of_append_eq hnumber' (h ⟨_, rfl⟩) (h' ⟨_, rfl⟩) heq
      exact ⟨rfl, rfl⟩
    | string content =>
      obtain rfl : c = '"' := hfirst'
      rcases hfirst with h | h <;> cases h
  | string content =>
    cases token' with
    | word w => simp_all [Token.Begins]
    | number chars =>
      obtain rfl : c = '"' := hfirst
      rcases hfirst' with h | h <;> cases h
    | string content' =>
      obtain ⟨body, rfl, hbody⟩ := hspells
      obtain ⟨body', rfl, hbody'⟩ := hspells'
      have hbodies : body ++ rest = body' ++ rest' := (List.cons.inj heq).2
      have hleft : Body content.toList (body ++ rest) rest := hbody.append rest
      have hright : Body content'.toList (body' ++ rest') rest' := hbody'.append rest'
      rw [← hbodies] at hright
      obtain ⟨hcontent, rfl⟩ := hleft.unique hright
      obtain rfl := String.toList_inj.1 hcontent
      obtain rfl := List.append_cancel_right hbodies
      exact ⟨rfl, rfl⟩

end Lexeme

/-- The text consists of the lexemes, and of white space before, between and after them. -/
inductive Spaced : List Lexeme → List Char → Prop where
  | nil : Spaced [] []
  | space {lexemes : List Lexeme} {c : Char} {rest : List Char} :
      isSpace c = true → Spaced lexemes rest → Spaced lexemes (c :: rest)
  | lexeme {l : Lexeme} {lexemes : List Lexeme} {rest : List Char} :
      l.EndsBefore rest → Spaced lexemes rest → Spaced (l :: lexemes) (l.text ++ rest)

namespace Spaced

variable {lexemes lexemes' : List Lexeme} {l : Lexeme}

/-- White space at the beginning is no part of a lexeme. -/
lemma of_cons (h : Spaced lexemes (c :: rest)) (hc : isSpace c = true) : Spaced lexemes rest := by
  generalize htext : c :: rest = text at h
  cases h with
  | nil => cases htext
  | space _ h =>
    obtain ⟨-, rfl⟩ := List.cons.inj htext
    exact h
  | @lexeme l _ _ _ _ =>
    obtain ⟨d, more, hl, hd, -⟩ := l.exists_cons
    rw [hl] at htext
    obtain ⟨rfl, -⟩ := List.cons.inj htext
    rw [hc] at hd
    cases hd

/-- What begins with a lexeme goes on with the others. -/
lemma of_append (h : Spaced lexemes (l.text ++ rest)) (hends : l.EndsBefore rest) :
    ∃ more, lexemes = l :: more ∧ Spaced more rest := by
  obtain ⟨c, more, hl, hc, -⟩ := l.exists_cons
  generalize htext : l.text ++ rest = text at h
  cases h with
  | nil => simp [hl] at htext
  | space hspace _ =>
    rw [hl] at htext
    obtain ⟨rfl, -⟩ := List.cons.inj htext
    rw [hc] at hspace
    cases hspace
  | lexeme hends' h =>
    obtain ⟨rfl, rfl⟩ := Lexeme.eq_of_append_eq hends hends' htext
    exact ⟨_, rfl, h⟩

/-- **Lexemes.**  A text consists of one sequence of lexemes at most. -/
theorem unique (h : Spaced lexemes written) (h' : Spaced lexemes' written) :
    lexemes = lexemes' := by
  induction h generalizing lexemes' with
  | nil =>
    generalize htext : ([] : List Char) = text at h'
    cases h' with
    | nil => rfl
    | space => cases htext
    | @lexeme l _ _ _ _ =>
      obtain ⟨c, more, hl, -⟩ := l.exists_cons
      simp [hl] at htext
  | space hc _ ih => exact ih (h'.of_cons hc)
  | lexeme hends _ ih =>
    obtain ⟨more, rfl, hmore⟩ := h'.of_append hends
    rw [ih hmore]

end Spaced

end EmbeddedJsx.Json
