import EmbeddedJsx.Cursor
import Mathlib.Tactic.Common

/-!
# The table of tokens

The table says which characters make up a token of each kind and what may stand after them.  It
is given as a relation, row by row, and speaks of no scanner: `Lexeme kind lexeme after` holds if
the characters `lexeme` are a token of the kind `kind` where the text goes on with `after`.

Next to it stands the table of what cannot be read: `Breaks fault lexeme after` holds if the
characters `lexeme`, before `after`, are what the fault is about.
-/

namespace EmbeddedJsx

open Text

/-- The characters that are never passed over between tokens: with each of them something
begins, be it a token or a fault. -/
def isSignificant (c : Char) : Bool :=
  c ∈ ['<', '/', '>', '=', '{', '}', ',', ':', '"', '\'', '.'] || isIdentifierStart c

/-- A run of characters that belong to no token. -/
def Insignificant (run : List Char) : Prop := ∀ c ∈ run, isSignificant c = false

/-- A run of delimiter spaces. -/
def TagSpace (run : List Char) : Prop := ∀ c ∈ run, isTagSpace c = true

/-- The given character is the first one of the text that is no delimiter space. -/
def Ahead (c : Char) (text : List Char) : Prop :=
  ∃ space rest, TagSpace space ∧ isTagSpace c = false ∧ text = space ++ c :: rest

/-- What may stand between two quotes of the given kind: pairs of a backslash and any character,
and characters that are neither a backslash nor the quote. -/
inductive Quotable (quote : Char) : List Char → Prop where
  | nil : Quotable quote []
  | escape {c : Char} {text : List Char} :
      Quotable quote text → Quotable quote ('\\' :: c :: text)
  | plain {c : Char} {text : List Char} :
      c ≠ '\\' → c ≠ quote → Quotable quote text → Quotable quote (c :: text)

/-- The characters are a token of the given kind, where the text goes on as given. -/
inductive Lexeme : (kind : TokenKind) → (lexeme after : List Char) → Prop where
  | tagOpen {c : Char} {after : List Char} :
      Ahead c after → c ≠ '/' → c ≠ '>' → Lexeme .tagOpen ['<'] after
  | tagClose {after : List Char} : Lexeme .tagClose ['>'] after
  | selfClose {space after : List Char} :
      TagSpace space → Lexeme .selfClose ('/' :: space ++ ['>']) after
  | closingOpen {c : Char} {space after : List Char} :
      TagSpace space → Ahead c after → c ≠ '>' → Lexeme .closingOpen ('<' :: space ++ ['/']) after
  | fragmentOpen {space after : List Char} :
      TagSpace space → Lexeme .fragmentOpen ('<' :: space ++ ['>']) after
  | fragmentClose {space space' after : List Char} :
      TagSpace space → TagSpace space' →
      Lexeme .fragmentClose ('<' :: space ++ '/' :: space' ++ ['>']) after
  | identifier {c : Char} {more after : List Char} :
      isIdentifierStart c = true → (∀ d ∈ more, isIdentifierContinue d = true) →
      (∀ d ∈ after.head?, isIdentifierContinue d = false) → Lexeme .identifier (c :: more) after
  | string {quote : Char} {inside after : List Char} :
      quote = '"' ∨ quote = '\'' → Quotable quote inside →
      Lexeme .string (quote :: inside ++ [quote]) after
  | assign {after : List Char} : Lexeme .assign ['='] after
  | colon {after : List Char} : Lexeme .colon [':'] after
  | dot {after : List Char} :
      ¬ ['.', '.'] <+: after → after ≠ ['.'] → Lexeme .dot ['.'] after
  | comma {after : List Char} : Lexeme .comma [','] after
  | spread {after : List Char} : Lexeme .spread ['.', '.', '.'] after
  | braceOpen {after : List Char} : Lexeme .braceOpen ['{'] after
  | braceClose {after : List Char} : Lexeme .braceClose ['}'] after

/-- The characters, where the text goes on as given, are what the fault is about. -/
inductive Breaks : (fault : Fault) → (lexeme after : List Char) → Prop where
  | angle {space : List Char} :
      TagSpace space → Breaks (.truncated .tag) ('<' :: space) []
  | closingAngle {space space' : List Char} :
      TagSpace space → TagSpace space' → Breaks (.truncated .tag) ('<' :: space ++ '/' :: space') []
  | slash {space : List Char} :
      TagSpace space → Breaks (.truncated .tag) ('/' :: space) []
  | string {quote : Char} {rest : List Char} :
      quote = '"' ∨ quote = '\'' →
      (∀ inside after, Quotable quote inside → rest ≠ inside ++ quote :: after) →
      Breaks (.truncated .string) (quote :: rest) []
  | dots : Breaks (.truncated .dots) ['.', '.'] []
  | loneSlash {c : Char} {space after : List Char} :
      TagSpace space → isTagSpace c = false → c ≠ '>' →
      Breaks .loneSlash ('/' :: space) (c :: after)

/-! ### Characters of the table -/

lemma isSignificant_of_identifierStart {c : Char} (h : isIdentifierStart c = true) :
    isSignificant c = true := by
  simp [isSignificant, h]

lemma Insignificant.append {left right : List Char} (hl : Insignificant left)
    (hr : Insignificant right) : Insignificant (left ++ right) := by
  intro c hc
  rcases List.mem_append.1 hc with hc | hc
  · exact hl c hc
  · exact hr c hc

lemma insignificant_nil : Insignificant [] := by simp [Insignificant]

/-- Delimiter spaces begin nothing. -/
lemma isSignificant_of_isTagSpace {c : Char} (h : isTagSpace c = true) :
    isSignificant c = false := by
  simp only [isTagSpace, Bool.or_eq_true, beq_iff_eq] at h
  rcases h with ((rfl | rfl) | rfl) | rfl <;> decide

/-- A token begins with a character that is never passed over. -/
lemma Lexeme.exists_cons {kind : TokenKind} {lexeme after : List Char}
    (h : Lexeme kind lexeme after) :
    ∃ c rest, lexeme = c :: rest ∧ isSignificant c = true := by
  cases h with
  | identifier hc _ _ => exact ⟨_, _, rfl, isSignificant_of_identifierStart hc⟩
  | string hq _ =>
    refine ⟨_, _, rfl, ?_⟩
    rcases hq with rfl | rfl <;> decide
  | _ => exact ⟨_, _, rfl, by decide⟩

lemma Lexeme.length_pos {kind : TokenKind} {lexeme after : List Char}
    (h : Lexeme kind lexeme after) : 0 < lexeme.length := by
  obtain ⟨c, rest, rfl, -⟩ := h.exists_cons
  simp

/-- No token is the end of the input. -/
lemma Lexeme.kind_ne_endOfInput {kind : TokenKind} {lexeme after : List Char}
    (h : Lexeme kind lexeme after) : kind ≠ .endOfInput := by
  cases h <;> simp

/-- Where raw text ends, markup or an expression begins, or the markup around it is closed. -/
lemma Lexeme.kind_of_not_isRaw {kind : TokenKind} {c : Char} {rest after : List Char}
    (h : Lexeme kind (c :: rest) after) (hc : Cursor.isRaw c = false) :
    kind = .tagOpen ∨ kind = .fragmentOpen ∨ kind = .braceOpen ∨ kind = .closingOpen ∨
      kind = .fragmentClose := by
  have hchar : c = '<' ∨ c = '{' := by
    simpa [Cursor.isRaw, imp_iff_not_or] using hc
  generalize hlexeme : c :: rest = lexeme at h
  cases h with
  | identifier hstart _ _ =>
    obtain ⟨rfl, -⟩ := List.cons.inj hlexeme
    rcases hchar with rfl | rfl <;> exact absurd hstart (by decide)
  | string hquote _ =>
    obtain ⟨rfl, -⟩ := List.cons.inj hlexeme
    rcases hchar with rfl | rfl <;> simp at hquote
  | _ =>
    obtain ⟨rfl, -⟩ := List.cons.inj hlexeme
    simp at hchar ⊢

/-- What cannot be read begins with a character that is never passed over. -/
lemma Breaks.exists_cons {fault : Fault} {lexeme after : List Char}
    (h : Breaks fault lexeme after) :
    ∃ c rest, lexeme = c :: rest ∧ isSignificant c = true := by
  cases h with
  | string hq _ =>
    refine ⟨_, _, rfl, ?_⟩
    rcases hq with rfl | rfl <;> decide
  | _ => exact ⟨_, _, rfl, by decide⟩

/-- Faults of the table are those of constructs cut short by the end of the text, and that of a
slash. -/
lemma Breaks.fault_cases {fault : Fault} {lexeme after : List Char}
    (h : Breaks fault lexeme after) :
    (∃ cause, fault = .truncated cause ∧ after = []) ∨ fault = .loneSlash := by
  cases h with
  | loneSlash => exact .inr rfl
  | _ => exact .inl ⟨_, rfl, rfl⟩

end EmbeddedJsx
