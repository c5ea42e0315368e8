import EmbeddedJsx.Proofs.Lexical.Cut
import EmbeddedJsx.Proofs.Rendering.Quoted
import EmbeddedJsx.Proofs.Reporting.Lines

/-!
# The table of tokens can be read back

Each token is listed on a line of its own (`TokenTable.lines_render`): no part of a row holds a line
terminator but the line feed at its end.  And the parts of a row can be told apart, one after the
other.  A label holds no space, the numbers of a span are digits between marks that are none, and
quoted texts are read back, so that different tokens have different rows
(`TokenTable.body_injective`).

The main statement, `tokens_of_render`, says both of the tokens of a text.
-/

namespace EmbeddedJsx

open Text

variable {front front' rest rest' : List Char} {c : Char} {n m : ℕ}

/-! ### Spans -/

/-- What is in front of the first of a mark can be read off. -/
lemma append_cons_inj_of_not_mem (h : c ∉ front) (h' : c ∉ front')
    (heq : front ++ c :: rest = front' ++ c :: rest') : front = front' ∧ rest = rest' := by
  induction front generalizing front' with
  | nil =>
    cases front' with
    | nil => exact ⟨rfl, (List.cons.inj heq).2⟩
    | cons d front' =>
      obtain ⟨rfl, -⟩ := List.cons.inj heq
      exact absurd List.mem_cons_self h'
  | cons d front ih =>
    cases front' with
    | nil =>
      obtain ⟨rfl, -⟩ := List.cons.inj heq
      exact absurd List.mem_cons_self h
    | cons d' front' =>
      obtain ⟨rfl, htail⟩ := List.cons.inj heq
      obtain ⟨rfl, hrest⟩ :=
        ih (List.not_mem_of_not_mem_cons h) (List.not_mem_of_not_mem_cons h') htail
      exact ⟨rfl, hrest⟩

lemma isDigit_of_mem_toString (h : c ∈ (toString n).toList) : c.isDigit = true := by
  rw [Nat.toString_eq_repr, Nat.toList_repr] at h
  exact Nat.isDigit_of_mem_toDigits (by omega) (by omega) h

/-- A number in front of a mark that is no digit can be read off. -/
lemma toString_append_cons_inj (hc : c.isDigit = false)
    (h : (toString n).toList ++ c :: rest = (toString m).toList ++ c :: rest') :
    n = m ∧ rest = rest' := by
  have hmark (k : ℕ) : c ∉ (toString k).toList := by
    intro hmem
    rw [isDigit_of_mem_toString hmem] at hc
    cases hc
  obtain ⟨hnumber, hrest⟩ := append_cons_inj_of_not_mem (hmark n) (hmark m) h
  rw [String.toList_inj, Nat.toString_eq_repr, Nat.toString_eq_repr, Nat.repr_inj] at hnumber
  exact ⟨hnumber, hrest⟩

lemma not_terminator_of_isDigit (h : c.isDigit = true) : ¬ isLineTerminator c := by
  intro hterminator
  simp only [isLineTerminator, Bool.or_eq_true, beq_iff_eq] at hterminator
  rcases hterminator with
    ((((((((rfl | rfl) | rfl) | rfl) | rfl) | rfl) | rfl) | rfl) | rfl) | rfl <;>
  exact absurd h (by decide)

namespace Span

variable {span span' : Span}

lemma toList_text (span : Span) :
    span.text.toList = '[' :: ((toString span.start).toList ++
      ',' :: ' ' :: ((toString span.stop).toList ++ [')'])) := by
  simp [text]

/-- A span is shown without a line terminator. -/
lemma not_terminator_of_mem_text (h : c ∈ span.text.toList) : ¬ isLineTerminator c := by
  simp only [toList_text, List.mem_cons, List.mem_append, List.not_mem_nil, or_false] at h
  rcases h with rfl | h | rfl | rfl | h | rfl
  · decide
  · exact not_terminator_of_isDigit (isDigit_of_mem_toString h)
  · decide
  · decide
  · exact not_terminator_of_isDigit (isDigit_of_mem_toString h)
  · decide

/-- A span can be read off what begins with it. -/
lemma text_append_inj (h : span.text.toList ++ rest = span'.text.toList ++ rest') :
    span = span' ∧ rest = rest' := by
  simp only [toList_text, List.cons_append, List.append_assoc, List.nil_append, List.cons.injEq,
    true_and] at h
  obtain ⟨hstart, h⟩ := toString_append_cons_inj (by decide) h
  simp only [List.cons.injEq, true_and] at h
  obtain ⟨hstop, hrest⟩ := toString_append_cons_inj (by decide) h
  exact ⟨by cases span; cases span'; simp_all, hrest⟩

end Span

/-! ### Labels -/

namespace TokenKind

/-- The kinds of tokens, each once. -/
def all : List TokenKind :=
  [endOfInput, malformed, tagOpen, tagClose, selfClose, closingOpen, fragmentOpen, fragmentClose,
    identifier, string, assign, colon, dot, comma, spread, braceOpen, braceClose]

lemma mem_all (kind : TokenKind) : kind ∈ all := by
  cases kind <;> decide

/-- No two kinds are listed under the same word. -/
lemma nodup_labels : (all.map label).Nodup := by
  decide

lemma label_injective : Function.Injective label := by
  intro kind kind' h
  exact List.inj_on_of_nodup_map nodup_labels (mem_all kind) (mem_all kind') h

lemma space_not_mem_label (kind : TokenKind) : ' ' ∉ kind.label.toList := by
  cases kind <;> decide

lemma any_isLineTerminator_label (kind : TokenKind) :
    kind.label.toList.any isLineTerminator = false := by
  cases kind <;> decide

end TokenKind

namespace TokenTable

variable {token token' : Token} {tokens tokens' : List Token} {a b : String} {width : ℕ}

lemma toList_padRight (width : ℕ) (text : String) :
    (padRight width text).toList = text.toList ++ List.replicate (width - text.length) ' ' := by
  simp [padRight]

/-- Texts without spaces are told from the spaces that fill them up. -/
lemma padRight_append_inj (ha : ' ' ∉ a.toList) (hb : ' ' ∉ b.toList)
    (h : (padRight width a).toList ++ ' ' :: rest = (padRight width b).toList ++ ' ' :: rest') :
    a = b ∧ rest = rest' := by
  have hfill (k : ℕ) (rest : List Char) :
      List.replicate k ' ' ++ ' ' :: rest = ' ' :: (List.replicate k ' ' ++ rest) := by
    rw [← List.singleton_append, ← List.append_assoc, ← List.replicate_succ', List.replicate_succ,
      List.cons_append]
  have h' := h
  rw [toList_padRight, toList_padRight, List.append_assoc, List.append_assoc, hfill, hfill] at h'
  obtain ⟨htext, -⟩ := append_cons_inj_of_not_mem ha hb h'
  obtain rfl := String.toList_inj.1 htext
  simpa using List.append_cancel_left h

/-! ### Rows -/

/-- The row of a token without the line feed at its end. -/
def body (token : Token) : List Char :=
  (padRight 20 token.kind.label).toList ++ ' ' :: (token.span.text.toList ++
    ' ' :: Quoted.encode token.text.toList)

lemma toList_row (token : Token) : (row token).toList = body token ++ ['\n'] := by
  simp [row, body, quoted]

lemma not_terminator_of_mem_body (h : c ∈ body token) : ¬ isLineTerminator c := by
  simp only [body, toList_padRight, List.mem_append, List.mem_cons] at h
  rcases h with (h | h) | rfl | h | rfl | h
  · exact List.any_eq_false.1 (TokenKind.any_isLineTerminator_label _) c h
  · rw [List.eq_of_mem_replicate h]
    decide
  · decide
  · exact Span.not_terminator_of_mem_text h
  · decide
  · exact Quoted.not_terminator_of_mem_encode h

/-- A token can be read off its row. -/
lemma body_injective : Function.Injective body := by
  intro token token' h
  obtain ⟨hlabel, h⟩ := padRight_append_inj (TokenKind.space_not_mem_label _)
    (TokenKind.space_not_mem_label _) h
  obtain ⟨hspan, h⟩ := Span.text_append_inj h
  have hkind := TokenKind.label_injective hlabel
  have htext := String.toList_inj.1 (Quoted.encode_injective (List.cons.inj h).2)
  cases token
  cases token'
  simp_all

/-- A table has one line for each token. -/
lemma lines_render (tokens : List Token) :
    lines (render tokens).toList = tokens.map fun token => (row token).toList := by
  induction tokens with
  | nil => rfl
  | cons token tokens ih =>
    have hrender : (render (token :: tokens)).toList =
        body token ++ '\n' :: (render tokens).toList := by
      simp [render, toList_row]
    rw [hrender, lines_append_lineFeed fun c hc => not_terminator_of_mem_body hc, ih, List.map_cons,
      toList_row]

/-- No two lists of tokens have the same table. -/
lemma render_injective : Function.Injective render := by
  intro tokens tokens' h
  have hlines := lines_render tokens
  rw [h, lines_render] at hlines
  refine (List.map_injective_iff.2 fun token token' hrow => ?_) hlines.symm
  rw [toList_row, toList_row] at hrow
  exact body_injective (List.append_cancel_right hrow)

end TokenTable

/-- **Tables of tokens.**  The table of the tokens of a text has one line for each of them, in the
order of the text: a row ends with its only line terminator, a line feed.  And the tokens can be
recovered from the table: no other text with other tokens has the same. -/
theorem tokens_of_render {text : String} {ts : List Token} (h : tokens text = .ok ts) :
    lines (TokenTable.render ts).toList = ts.map (fun t => (TokenTable.row t).toList) ∧
      (∀ t ∈ ts, ∃ line, (TokenTable.row t).toList = line ++ ['\n'] ∧
        ∀ c ∈ line, ¬ isLineTerminator c) ∧
      (ts.Pairwise fun t u => t.span.stop ≤ u.span.start) ∧
      ∀ text' ts', tokens text' = .ok ts' → TokenTable.render ts' = TokenTable.render ts →
        ts' = ts := by
  refine ⟨TokenTable.lines_render ts, fun t _ => ?_, ?_, fun _ _ _ hrender => ?_⟩
  · exact ⟨_, TokenTable.toList_row t, fun c hc => TokenTable.not_terminator_of_mem_body hc⟩
  · have hcuts : Cuts text.toList 0 text.toList.length ts :=
      cuts_to_end_iff.2 (tokens_eq_iff.1 h)
    exact hcuts.ordered
  · exact TokenTable.render_injective hrender

/-- A string that holds a line feed and a vertical tab. -/
theorem tokens_of_render_string :
    ∃ ts, tokens "='\n\x0b'" = .ok ts ∧
      TokenTable.render ts =
        "ASSIGN               [0, 1) '='\nSTRING               [1, 5) \"'\\n\\x0b'\"\n" ∧
      lines (TokenTable.render ts).toList = ts.map (fun t => (TokenTable.row t).toList) ∧
      ∀ text' ts', tokens text' = .ok ts' → TokenTable.render ts' = TokenTable.render ts →
        ts' = ts := by
  have h : tokens "='\n\x0b'" = .ok
      [⟨.assign, ⟨0, 1⟩, "="⟩, ⟨.string, ⟨1, 5⟩, "'\n\x0b'"⟩] := by cbv
  obtain ⟨hlines, -, -, hback⟩ := tokens_of_render h
  exact ⟨_, h, by cbv, hlines, hback⟩

end EmbeddedJsx
