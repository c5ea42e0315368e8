import Mathlib
import EmbeddedJsx.Proofs.Editing.Edit
import EmbeddedJsx.Proofs.Lexical.Cut
import EmbeddedJsx.Proofs.Reading.Unique

/-!
# Raw text and string literals are opaque

What a raw text or a string literal reads has no influence on anything else.  A raw text may be
replaced by any other that is not empty and has no `<` and no left brace, and a string literal by
any other, be it a value or part of an expression or of what stands around the markup: the same
tree is read, with the new text in it and with everything after it moved
(`parseWithin_replacing`).

Tokens in front of the edit stay what they are for a reason of their own in each case.  In front of
raw text stands a `>` or a right brace, which ends a token or is one that the tokens before it
see.  In place of a quote stands a quote, which is no delimiter space, continues no identifier, and
is neither a dot nor a character that makes a `<` part of another delimiter.
-/

namespace EmbeddedJsx

open Text

/-! ### What tokens see of the text after them -/

section Tokens

variable {kind : TokenKind} {lexeme between after after' : List Char} {c d d' : Char}

lemma Ahead.replace (h : Ahead c (between ++ d :: after)) (hd : isTagSpace d = false)
    (hd' : isTagSpace d' = false) :
    Ahead c (between ++ d' :: after') ∨ c = d ∧ Ahead d' (between ++ d' :: after') := by
  obtain ⟨space, rest, hspace, hc, hsplit⟩ := h
  rcases List.append_eq_append_iff.1 hsplit with ⟨space', rfl, htail⟩ | ⟨more, rfl, htail⟩
  · cases space' with
    | nil =>
      obtain ⟨rfl, -⟩ := List.cons.inj htail
      exact .inr ⟨rfl, between, after', by simpa using hspace, hd', rfl⟩
    | cons x space' =>
      obtain ⟨rfl, -⟩ := List.cons.inj htail
      rw [hspace d (by simp)] at hd
      simp at hd
  · cases more with
    | nil =>
      obtain ⟨rfl, -⟩ := List.cons.inj htail
      exact .inr ⟨rfl, space, after', hspace, hd', by simp⟩
    | cons x more =>
      obtain ⟨rfl, -⟩ := List.cons.inj htail
      exact .inl ⟨space, more ++ d' :: after', hspace, hc, by simp⟩

/-- The character after a `<` and spaces stays one that makes no other delimiter of it. -/
lemma Ahead.exists_replace (hd : isTagSpace d = false) (hd' : isTagSpace d' = false)
    (hsame : d' = d ∨ d' ≠ '/' ∧ d' ≠ '>') (c : Char) (h : Ahead c (between ++ d :: after)) :
    ∃ c', Ahead c' (between ++ d' :: after') ∧ (c ≠ '/' → c' ≠ '/') ∧ (c ≠ '>' → c' ≠ '>') := by
  have hahead : Ahead c (between ++ d' :: after') ∨ c = d ∧ Ahead d' (between ++ d' :: after') :=
    h.replace hd hd'
  rcases hahead with hahead | ⟨rfl, hahead⟩
  · exact ⟨c, hahead, id, id⟩
  · rcases hsame with rfl | ⟨hslash, hclose⟩
    · exact ⟨d', hahead, id, id⟩
    · exact ⟨d', hahead, fun _ => hslash, fun _ => hclose⟩

/-- A token that ends with a `>` or a right brace sees nothing of the text after it. -/
lemma Lexeme.of_getLast? (h : Lexeme kind lexeme after)
    (hlast : lexeme.getLast? = some '>' ∨ lexeme.getLast? = some '\x7d') :
    Lexeme kind lexeme after' := by
  cases h with
  | tagOpen => simp at hlast
  | closingOpen => rw [List.getLast?_concat] at hlast; simp at hlast
  | dot => simp at hlast
  | @identifier c more _ hstart hmore hend =>
    -- neither character stands in an identifier
    have hall : ∀ x ∈ c :: more, isIdentifierContinue x = true :=
      List.forall_mem_cons.2 ⟨isIdentifierContinue_of_start hstart, hmore⟩
    rcases hlast with hlast | hlast <;>
      exact absurd (hall _ (List.mem_of_getLast? hlast)) (by decide)
  | tagClose => exact .tagClose
  | selfClose hspace => exact .selfClose hspace
  | fragmentOpen hspace => exact .fragmentOpen hspace
  | fragmentClose hspace hspace' => exact .fragmentClose hspace hspace'
  | string hquote hinside => exact .string hquote hinside
  | assign => exact .assign
  | colon => exact .colon
  | comma => exact .comma
  | spread => exact .spread
  | braceOpen => exact .braceOpen
  | braceClose => exact .braceClose

/-- A string literal is one whatever comes after it. -/
lemma Lexeme.string_of_string (h : Lexeme .string lexeme after) :
    Lexeme .string lexeme after' := by
  cases h with
  | string hquote hinside => exact .string hquote hinside

lemma Lexeme.exists_quote (h : Lexeme .string lexeme after) :
    ∃ quote rest, lexeme = quote :: rest ∧ (quote = '"' ∨ quote = '\'') := by
  cases h with
  | string hquote hinside => exact ⟨_, _, rfl, hquote⟩

end Tokens

/-- A text that is cut into a single string literal is one. -/
lemma lexeme_of_tokens {text : String}
    (h : tokens text = .ok [⟨.string, ⟨0, text.length⟩, text⟩]) :
    Lexeme .string text.toList [] := by
  have hlex := (cuts_cons_iff.1 (cuts_to_end_iff.2 (tokens_eq_iff.1 h))).2.2.1.1
  simpa [Span.slice, ← String.length_toList] using hlex

namespace Edit

variable {E : Edit} {levels : ℕ} {program : Program} {visits : List Visit} {call : Cursor.Call}
  {o : ℕ}

/-! ### Tokens in front of the edit -/

/-- Where a `>` or a right brace stands in front of the edit, no token sees the edit. -/
lemma shields_of_getLast?
    (h : E.before.getLast? = some '>' ∨ E.before.getLast? = some '\x7d') : E.Shields := by
  rintro kind lexeme between ⟨front, hsplit⟩ hlex
  rcases List.eq_nil_or_concat between with rfl | ⟨between, b, rfl⟩
  · -- the token ends with that character
    have hlast : lexeme.getLast? = E.before.getLast? := by
      obtain ⟨c, rest, rfl, -⟩ := hlex.exists_cons
      rw [← hsplit, List.append_nil, List.getLast?_append, Option.or_of_isSome (by simp)]
    exact hlex.of_getLast? (hlast ▸ h)
  · have hlast : E.before.getLast? = some b := by
      rw [← hsplit, List.concat_eq_append, ← List.append_assoc, ← List.append_assoc,
        List.getLast?_concat]
    rw [List.concat_eq_append, List.append_assoc, List.singleton_append] at hlex ⊢
    have hb : b = '>' ∨ b = '\x7d' := by simpa [hlast] using h
    rcases hb with rfl | rfl
    · exact hlex.replace (by decide) (by decide)
        (Ahead.exists_replace (by decide) (by decide) (.inl rfl))
    · exact hlex.replace (by decide) (by decide)
        (Ahead.exists_replace (by decide) (by decide) (.inl rfl))

/-- Where a quote takes the place of a quote, no token in front of it sees a difference. -/
lemma shields_of_quotes {quote quote' : Char} (hquote : quote = '"' ∨ quote = '\'')
    (hquote' : quote' = '"' ∨ quote' = '\'') (hold : quote ∈ E.old.head?)
    (hnew : quote' ∈ E.new.head?) : E.Shields := by
  rintro kind lexeme between - hlex
  rw [List.eq_cons_of_mem_head? hold, List.cons_append] at hlex
  rw [List.eq_cons_of_mem_head? hnew, List.cons_append]
  rcases hquote with rfl | rfl <;> rcases hquote' with rfl | rfl <;>
    exact hlex.replace (by decide) (by decide)
      (Ahead.exists_replace (by decide) (by decide) (.inr (by decide)))

/-! ### What is replaced -/

/-- Where the replaced text begins with a character that is raw, no raw text ends in front of
it. -/
lemma raw_stop_ne_start (hread : program.ReadBy E.source visits)
    (hraw : ∃ c ∈ E.old.head?, Cursor.isRaw c = true) (span : Span) (hmem : .raw span ∈ visits) :
    span.stop ≠ E.start := by
  intro hstop
  obtain ⟨p, a, -, ha, hmakes⟩ := hread.exists_makes hmem
  have hoff : a.offset = E.start := hmakes.stop_eq.symm.trans hstop
  obtain ⟨-, -, -, -, hend⟩ := hmakes.exists_passes
  obtain ⟨c, hc, hraw⟩ := hraw
  rw [Place.NotRaw, rest_start ha hoff] at hend
  rw [hend c (by simp [List.head?_append, Option.mem_def.1 hc])] at hraw
  simp at hraw

section Replaced

variable {p a : Place}

lemma old_ne_nil (h : E.start < E.stop) : E.old ≠ [] := by
  rintro hnil
  simp [start, stop, hnil] at h

lemma closes_stop (h : E.start < E.stop) : E.closes E.stop = E.start + E.new.length := by
  rw [closes_of_ge le_rfl h]
  simp only [moved, start, stop]
  omega

lemma span_replaced (h : E.start < E.stop) :
    E.labels.span E.replaced = ⟨E.start, E.start + E.new.length⟩ := by
  have hopens : E.opens E.start = E.start := opens_of_lt h
  simp only [Relabelling.span, labels, replaced, hopens, closes_stop h]

/-- What is read in the place of a raw text or of a literal is what takes its place. -/
lemma shows_replaced (h : E.start < E.stop) (text : String) :
    E.labels.literal E.replaced text =
      String.ofList ((E.labels.span E.replaced).slice E.target) := by
  have hslice : Span.slice ⟨E.start, E.start + E.new.length⟩ E.target = E.new := by
    simp only [Span.slice, Nat.add_sub_cancel_left]
    rw [target, start, List.drop_left, List.take_left]
  rw [span_replaced h, hslice]
  exact if_pos ⟨old_ne_nil h, rfl⟩

lemma head?_old (h : E.start < E.stop) (hp : p.InText E.source) (hoff : p.offset = E.start) :
    E.old.head? = p.rest.head? := by
  obtain ⟨c, old, hcons⟩ := List.exists_cons_of_ne_nil (old_ne_nil h)
  rw [rest_start hp hoff, hcons]
  rfl

/-- The place after what is replaced comes after what takes its place. -/
lemma place_stop (h : E.start < E.stop) (hoff : a.offset = E.stop) :
    E.place a = ⟨E.start + E.new.length, E.after⟩ := by
  have hdrop : E.target.drop (E.start + E.new.length) = E.after := by
    rw [target, ← List.append_assoc, start, ← List.length_append, List.drop_left]
  rw [place, hoff, closes_stop h, hdrop]

/-- What takes the place of a raw text is passed over as raw text. -/
lemma carries_raw (hnew : E.new ≠ []) (hraw : ∀ c ∈ E.new, Cursor.isRaw c = true) :
    E.Carries (.raw E.replaced) := by
  intro p a hp hmakes
  have hlt : E.start < E.stop := hmakes.start_lt_of_raw
  have hstart : p.offset = E.start := hmakes.origin_eq.symm
  have hstop : a.offset = E.stop := hmakes.stop_eq.symm
  obtain ⟨run, hpass, hne, -, hend⟩ := hmakes.exists_passes
  have ha := hp.passes hpass
  have hrest : a.rest = E.after := by
    rw [ha.rest_eq, hstop, source, ← List.append_assoc, stop, ← List.length_append, List.drop_left]
  rw [Place.NotRaw, hrest] at hend
  rw [Visit.relabel, span_replaced hlt, place_start hstart, place_stop hlt hstop]
  exact .raw (p := ⟨E.start, E.new ++ E.after⟩) (q := ⟨E.start + E.new.length, E.after⟩)
    ⟨rfl, rfl⟩ hnew hraw hend

/-- What takes the place of a string literal is read as one. -/
lemma carries_string (hnew : Lexeme .string E.new []) :
    E.Carries (.token call o .string E.replaced) := by
  intro p a hp hmakes
  have hlt : E.start < E.stop := hmakes.origin_lt_of_token.2
  have hstop : a.offset = E.stop := hmakes.stop_eq.symm
  have horigin : o = p.offset := hmakes.origin_eq
  cases call with
  | next =>
    obtain ⟨m, e, hskip, hread, -, hm⟩ := hmakes.exists_reads
    have hle := hskip.reaches.offset_le
    have hread' : (E.place m).Reads .string ⟨E.labels.span E.replaced, String.ofList E.new⟩
        (E.place a) := by
      rw [span_replaced hlt, place_start hm, place_stop hlt hstop]
      exact ⟨E.new, ⟨rfl, rfl⟩, hnew.string_of_string, rfl⟩
    rw [Visit.relabel, horigin]
    exact .next (p := E.place p) ⟨_, place_skips_of_le hp hskip hm.le, hread'⟩
  | nextChild =>
    -- a quote is raw text where children are
    exact absurd hmakes.beginsChild (by simp [BeginsChild])

end Replaced

/-- **Replacing raw text.**  A raw text may be replaced by another. -/
lemma parseWithin_of_raw (hparse : parseWithin levels (String.ofList E.source) = .ok program)
    (hread : program.ReadBy E.source visits) (hmem : .raw E.replaced ∈ visits)
    (hnew : E.new ≠ []) (hraw : ∀ c ∈ E.new, Cursor.isRaw c = true) :
    parseWithin levels (String.ofList E.target) = .ok (program.relabel E.labels) := by
  have hbefore : E.source.take E.replaced.start = E.before := List.take_left
  have hshields : E.Shields := shields_of_getLast? (hbefore ▸ hread.getLast?_before_raw hmem)
  obtain ⟨p, a, hp, -, hmakes⟩ := hread.exists_makes hmem
  have hlt : E.start < E.stop := hmakes.start_lt_of_raw
  have hhead : ∃ c ∈ E.old.head?, Cursor.isRaw c = true := by
    obtain ⟨run, hpass, hne, hrun, -⟩ := hmakes.exists_passes
    obtain ⟨c, run, rfl⟩ := List.exists_cons_of_ne_nil hne
    have hstart : p.offset = E.start := hmakes.origin_eq.symm
    rw [head?_old hlt hp hstart, hpass.1]
    exact ⟨c, rfl, hrun c List.mem_cons_self⟩
  obtain ⟨left, right, rfl⟩ := List.append_of_mem hmem
  exact E.parseWithin_target hparse hread hshields le_rfl (.inr ⟨le_rfl, hlt⟩)
    (fun span hmem => raw_stop_ne_start hread hhead span (List.mem_append_left _ hmem))
    (carries_raw hnew hraw) (shows_replaced hlt _)

/-- **Replacing a literal.**  A string literal may be replaced by another. -/
lemma parseWithin_of_string (hparse : parseWithin levels (String.ofList E.source) = .ok program)
    (hread : program.ReadBy E.source visits) (hmem : .token call o .string E.replaced ∈ visits)
    (hnew : Lexeme .string E.new []) :
    parseWithin levels (String.ofList E.target) = .ok (program.relabel E.labels) := by
  obtain ⟨p, a, hp, -, hmakes⟩ := hread.exists_makes hmem
  have hlt : E.start < E.stop := hmakes.origin_lt_of_token.2
  obtain ⟨m, e, hskip, ⟨lexeme, hpass, hlex, -⟩, -, hm⟩ := hmakes.exists_reads
  obtain ⟨quote, rest, rfl, hquote⟩ := hlex.exists_quote
  obtain ⟨quote', rest', hcons, hquote'⟩ := hnew.exists_quote
  have hold : quote ∈ E.old.head? := by
    rw [head?_old hlt (hp.reaches hskip.reaches) hm, hpass.1]
    rfl
  have hshields : E.Shields := shields_of_quotes hquote hquote' hold (by rw [hcons]; rfl)
  have hraw : Cursor.isRaw quote = true := by
    rcases hquote with rfl | rfl <;> decide
  obtain ⟨left, right, rfl⟩ := List.append_of_mem hmem
  have horigin : o ≤ E.start := hmakes.origin_lt_of_token.1
  exact E.parseWithin_target hparse hread hshields horigin (.inr ⟨le_rfl, hlt⟩)
    (fun span hmem =>
      raw_stop_ne_start hread ⟨quote, hold, hraw⟩ span (List.mem_append_left _ hmem))
    (carries_string hnew) (shows_replaced hlt _)

end Edit

/-- **Opaque parts.**  If a text is parsed, then it is read in one way, and the text is parsed as
well in which another raw text stands in the place of one of its raw texts, or another literal in
the place of a string literal that is read anywhere in it.  The program is the same but for what is
replaced and for the offsets after it. -/
theorem parseWithin_replacing {levels : ℕ} {text : String} {program : Program}
    (h : parseWithin levels text = .ok program) :
    (∀ (span : Span) (content w : String), program.Contains (.text span content) → w ≠ "" →
      (∀ c ∈ w.toList, c ≠ '<' ∧ c ≠ '\x7b') →
      parseWithin levels (String.ofList (Edit.replacing text span w).target) =
        .ok (program.relabel (Edit.replacing text span w).labels)) ∧
    (∃! visits, program.ReadBy text.toList visits) ∧
    ∀ (visits : List Visit) (call : Cursor.Call) (origin : ℕ) (span : Span) (w : String),
      program.ReadBy text.toList visits → .token call origin .string span ∈ visits →
      tokens w = .ok [⟨.string, ⟨0, w.length⟩, w⟩] →
      parseWithin levels (String.ofList (Edit.replacing text span w).target) =
        .ok (program.relabel (Edit.replacing text span w).labels) := by
  refine ⟨?_, existsUnique_readBy h, ?_⟩
  · intro span content w hnode hne hraw
    obtain ⟨visits, hread⟩ := exists_readBy h
    have hmem := hread.raw_mem hnode
    obtain ⟨p, a, -, ha, hmakes⟩ := hread.exists_makes hmem
    have hle := hmakes.start_lt_of_raw.le
    have hstop : span.stop ≤ text.toList.length := hmakes.stop_eq.trans_le ha.offset_le
    have hsource : (Edit.replacing text span w).source = text.toList := Edit.source_replacing hle
    rw [← Edit.replaced_replacing (w := w) hle hstop] at hmem
    rw [← hsource] at hread
    have hnew : (Edit.replacing text span w).new ≠ [] := by simpa [Edit.replacing] using hne
    refine Edit.parseWithin_of_raw ?_ hread hmem hnew fun c hc => ?_
    · rwa [hsource, String.ofList_toList]
    · simpa [Cursor.isRaw] using hraw c hc
  · intro visits call o span w hread hmem hw
    obtain ⟨p, a, -, ha, hmakes⟩ := hread.exists_makes hmem
    have hle := hmakes.origin_lt_of_token.2.le
    have hstop : span.stop ≤ text.toList.length := hmakes.stop_eq.trans_le ha.offset_le
    have hsource : (Edit.replacing text span w).source = text.toList := Edit.source_replacing hle
    rw [← Edit.replaced_replacing (w := w) hle hstop] at hmem
    rw [← hsource] at hread
    refine Edit.parseWithin_of_string ?_ hread hmem (lexeme_of_tokens hw)
    rwa [hsource, String.ofList_toList]

/-- The case of an element whose child becomes a text that could be the end of a value, and whose
value becomes a literal that could be the end of the element. -/
theorem parseWithin_replacing_child_and_value :
    ∃ program, parseWithin 1 "<a b='c'>d</a>" = .ok program ∧
      program.Contains (.text ⟨9, 10⟩ "d") ∧
      parseWithin 1 "<a b='c'>'>\x7d</a>" = .ok ⟨[.element ⟨0, 16⟩ (.plain ⟨⟨1, 2⟩, "a"⟩)
        [.setAttribute ⟨3, 8⟩ (.plain ⟨⟨3, 4⟩, "b"⟩) (.string ⟨5, 8⟩ "'c'")]
        [.text ⟨9, 12⟩ "'>\x7d"]]⟩ ∧
      parseWithin 1 "<a b=\"</a>\">d</a>" = .ok ⟨[.element ⟨0, 17⟩ (.plain ⟨⟨1, 2⟩, "a"⟩)
        [.setAttribute ⟨3, 11⟩ (.plain ⟨⟨3, 4⟩, "b"⟩) (.string ⟨5, 11⟩ "\"</a>\"")]
        [.text ⟨12, 13⟩ "d"]]⟩ := by
  obtain ⟨program, hprogram⟩ : ∃ program : Program, program =
      ⟨[.element ⟨0, 14⟩ (.plain ⟨⟨1, 2⟩, "a"⟩)
        [.setAttribute ⟨3, 8⟩ (.plain ⟨⟨3, 4⟩, "b"⟩) (.string ⟨5, 8⟩ "'c'")]
        [.text ⟨9, 10⟩ "d"]]⟩ := ⟨_, rfl⟩
  have h : parseWithin 1 "<a b='c'>d</a>" = .ok program := by
    rw [hprogram]
    cbv
  have hchild : program.Contains (.text ⟨9, 10⟩ "d") := by
    rw [hprogram]
    exact ⟨_, .head _, .under (.tail _ (.head _)) .root⟩
  have hvalue : program.Contains (.string ⟨5, 8⟩ "'c'") := by
    rw [hprogram]
    exact ⟨_, .head _, .under (.head _) (.under (.head _) .root)⟩
  have hreplace := parseWithin_replacing h
  obtain ⟨visits, hread⟩ := exists_readBy h
  obtain ⟨o, hmem⟩ := hread.string_mem hvalue
  have hchild' := hreplace.1 _ _ "'>\x7d" hchild (by decide) (by simp)
  have hvalue' := hreplace.2.2 visits .next o _ "\"</a>\"" hread hmem rfl
  rw [hprogram] at hchild' hvalue'
  exact ⟨program, h, hchild, hchild', hvalue'⟩

end EmbeddedJsx
