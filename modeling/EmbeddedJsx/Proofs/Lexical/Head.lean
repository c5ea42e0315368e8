import EmbeddedJsx.Proofs.Lexical.Table
import Mathlib.Data.List.TakeWhile

/-!
# What stands at the beginning of a text

`Head.ofText` looks at the first character of a text and at what follows.  Its answers are those
of the table: `Head.describes_ofText` says that each answer is true of the text, and
`Head.ofText_of_lexeme`, together with the lemmas for faults and for other characters, that it
answers with whatever row of the table applies.  As the answer is one, at most one row of the table
applies to a text.
-/

namespace EmbeddedJsx

open Text

/-! ### Delimiter spaces -/

lemma skipTagSpace_eq_nil_iff {text : List Char} : skipTagSpace text = [] ↔ TagSpace text := by
  simp [skipTagSpace, TagSpace, List.dropWhile_eq_nil_iff]

lemma skipTagSpace_append {space rest : List Char} {c : Char} (hs : TagSpace space)
    (hc : isTagSpace c = false) : skipTagSpace (space ++ c :: rest) = c :: rest := by
  rw [skipTagSpace, List.dropWhile_append_of_pos hs]
  simp [hc]

lemma tagSpace_append {space rest : List Char} {c : Char} (hs : TagSpace space)
    (hc : isTagSpace c = false) : tagSpace (space ++ c :: rest) = space.length := by
  rw [tagSpace, List.takeWhile_append_of_pos hs]
  simp [hc]

/-- Where something is left after the delimiter spaces, the text is made up of those spaces and
of what is left. -/
lemma exists_of_skipTagSpace_eq_cons {text rest : List Char} {c : Char}
    (h : skipTagSpace text = c :: rest) :
    ∃ space, TagSpace space ∧ isTagSpace c = false ∧ text = space ++ c :: rest ∧
      tagSpace text = space.length := by
  refine ⟨text.takeWhile isTagSpace, ?_, ?_, ?_, rfl⟩
  · intro d hd
    exact List.mem_takeWhile_imp hd
  · have hne : text.dropWhile isTagSpace ≠ [] := by
      rw [← skipTagSpace, h]
      simp
    have hhead := List.head_dropWhile_not isTagSpace hne
    rw [skipTagSpace] at h
    simpa [h] using hhead
  · rw [← h, skipTagSpace, List.takeWhile_append_dropWhile]

/-! ### Runs and quotes -/

/-- A run of characters with a property ends where the text goes on with a character that does
not have it. -/
lemma takeWhile_append_of_head? {p : Char → Bool} {run after : List Char}
    (hrun : ∀ d ∈ run, p d = true) (hafter : ∀ d ∈ after.head?, p d = false) :
    (run ++ after).takeWhile p = run := by
  rw [List.takeWhile_append_of_pos hrun]
  cases after with
  | nil => simp
  | cons d after => simp [hafter d rfl]

/-- What comes after the longest run of characters with a property does not have it. -/
lemma eq_false_of_mem_head?_dropWhile {p : Char → Bool} {l : List Char} {d : Char}
    (hd : d ∈ (l.dropWhile p).head?) : p d = false := by
  have hhead := List.head?_dropWhile_not p l
  rw [Option.mem_def.1 hd] at hhead
  simpa using hhead

lemma ne_backslash_of_quote {quote : Char} (hq : quote = '"' ∨ quote = '\'') : quote ≠ '\\' := by
  rcases hq with rfl | rfl <;> decide

lemma throughQuote_cons {quote c : Char} (hc : c ≠ '\\') (rest : List Char) :
    throughQuote quote (c :: rest) =
      if c = quote then some 1 else (throughQuote quote rest).map (· + 1) := by
  rw [throughQuote]
  · exact fun h => absurd h hc
  · exact fun d rest h => absurd h hc

/-- The closing quote is the first one that no backslash takes out of consideration. -/
lemma throughQuote_of_quotable {quote : Char} (hq : quote ≠ '\\') {inside : List Char}
    (h : Quotable quote inside) (after : List Char) :
    throughQuote quote (inside ++ quote :: after) = some (inside.length + 1) := by
  induction h with
  | nil => rw [List.nil_append, throughQuote_cons hq, if_pos rfl, List.length_nil]
  | escape _ ih => simp [throughQuote, ih]
  | plain hc hne _ ih =>
    rw [List.cons_append, throughQuote_cons hc, if_neg hne, ih]
    rfl

lemma exists_quotable_of_throughQuote {quote : Char} {rest : List Char} {n : ℕ}
    (h : throughQuote quote rest = some n) :
    ∃ inside after, rest = inside ++ quote :: after ∧ Quotable quote inside ∧
      n = inside.length + 1 := by
  fun_induction throughQuote quote rest generalizing n with
  | case1 => simp at h
  | case2 => simp at h
  | case3 c rest ih =>
    obtain ⟨m, hm, rfl⟩ := Option.map_eq_some_iff.1 h
    obtain ⟨inside, after, rfl, hin, rfl⟩ := ih hm
    exact ⟨'\\' :: c :: inside, after, rfl, .escape hin, by simp⟩
  | case4 rest _ _ =>
    obtain rfl := Option.some.inj h
    exact ⟨[], rest, rfl, .nil, rfl⟩
  | case5 c rest hend hescape hne ih =>
    obtain ⟨m, hm, rfl⟩ := Option.map_eq_some_iff.1 h
    obtain ⟨inside, after, rfl, hin, rfl⟩ := ih hm
    refine ⟨c :: inside, after, rfl, .plain ?_ hne hin, by simp⟩
    -- a backslash here would be an escape, for a character comes after it
    rintro rfl
    cases inside with
    | nil => exact hescape _ _ rfl rfl
    | cons d inside => exact hescape _ _ rfl rfl

namespace Head

/-- The answer is true of the text. -/
def Describes : Head → List Char → Prop
  | token kind length, text =>
    ∃ lexeme after, text = lexeme ++ after ∧ lexeme.length = length ∧ Lexeme kind lexeme after
  | truncated cause, text => Breaks (.truncated cause) text []
  | loneSlash length, text =>
    ∃ lexeme after, text = lexeme ++ after ∧ lexeme.length = length ∧
      Breaks .loneSlash lexeme after
  | skipped, text => ∀ c ∈ text.head?, isSignificant c = false

lemma describes_ofAngle (rest : List Char) : (ofAngle rest).Describes ('<' :: rest) := by
  unfold ofAngle
  split
  · next h => exact .angle (skipTagSpace_eq_nil_iff.1 h)
  · next after h =>
    -- after the slash, spaces are skipped once more to tell the two closing delimiters apart
    obtain ⟨space, hs, -, rfl, hlen⟩ := exists_of_skipTagSpace_eq_cons h
    split
    · next h' => exact .closingAngle hs (skipTagSpace_eq_nil_iff.1 h')
    · next rest' h' =>
      obtain ⟨space', hs', -, rfl, hlen'⟩ := exists_of_skipTagSpace_eq_cons h'
      refine ⟨'<' :: space ++ '/' :: space' ++ ['>'], rest', by simp, ?_, .fragmentClose hs hs'⟩
      simp [hlen, hlen']
      omega
    · next c rest' hne h' =>
      obtain ⟨space', hs', hc, rfl, -⟩ := exists_of_skipTagSpace_eq_cons h'
      refine ⟨'<' :: space ++ ['/'], space' ++ c :: rest', by simp, ?_, ?_⟩
      · simp [hlen]
      · refine .closingOpen hs ⟨space', rest', hs', hc, rfl⟩ ?_
        rintro rfl
        exact hne rfl
  · next rest' h =>
    obtain ⟨space, hs, -, rfl, hlen⟩ := exists_of_skipTagSpace_eq_cons h
    refine ⟨'<' :: space ++ ['>'], rest', by simp, ?_, .fragmentOpen hs⟩
    simp [hlen]
  · next c rest' hslash hclose h =>
    obtain ⟨space, hs, hc, rfl, -⟩ := exists_of_skipTagSpace_eq_cons h
    refine ⟨['<'], space ++ c :: rest', rfl, rfl, .tagOpen ⟨space, rest', hs, hc, rfl⟩ ?_ ?_⟩
    · rintro rfl
      exact hslash rfl
    · rintro rfl
      exact hclose rfl

lemma describes_ofSlash (rest : List Char) : (ofSlash rest).Describes ('/' :: rest) := by
  unfold ofSlash
  split
  · next h => exact .slash (skipTagSpace_eq_nil_iff.1 h)
  · next rest' h =>
    obtain ⟨space, hs, -, rfl, hlen⟩ := exists_of_skipTagSpace_eq_cons h
    exact ⟨'/' :: space ++ ['>'], rest', by simp, by simp [hlen], .selfClose hs⟩
  · next c rest' hne h =>
    obtain ⟨space, hs, hc, rfl, hlen⟩ := exists_of_skipTagSpace_eq_cons h
    refine ⟨'/' :: space, c :: rest', by simp, by simp [hlen], .loneSlash hs hc ?_⟩
    rintro rfl
    exact hne rfl

lemma describes_ofDot (rest : List Char) : (ofDot rest).Describes ('.' :: rest) := by
  unfold ofDot
  split
  · exact .dots
  · next rest' => exact ⟨['.', '.', '.'], rest', rfl, rfl, .spread⟩
  · next hone htwo =>
    refine ⟨['.'], rest, rfl, rfl, .dot ?_ ?_⟩
    · rintro ⟨rest', rfl⟩
      exact htwo _ rfl
    · rintro rfl
      exact hone rfl

lemma describes_ofQuote {quote : Char} (hq : quote = '"' ∨ quote = '\'') (rest : List Char) :
    (ofQuote quote rest).Describes (quote :: rest) := by
  unfold ofQuote
  split
  · next n h =>
    obtain ⟨inside, after, rfl, hin, rfl⟩ := exists_quotable_of_throughQuote h
    exact ⟨quote :: inside ++ [quote], after, by simp, by simp, .string hq hin⟩
  · next h =>
    refine .string hq fun inside after hin heq => ?_
    rw [heq, throughQuote_of_quotable (ne_backslash_of_quote hq) hin] at h
    exact absurd h (by simp)

lemma lexeme_of_single {c : Char} {kind : TokenKind} (h : single? c = some kind)
    (after : List Char) : Lexeme kind [c] after := by
  unfold single? at h
  split at h <;> cases h <;> constructor

lemma describes_identifier {c : Char} (hc : isIdentifierStart c = true) (rest : List Char) :
    (token .identifier ((rest.takeWhile isIdentifierContinue).length + 1)).Describes
      (c :: rest) := by
  refine ⟨c :: rest.takeWhile isIdentifierContinue, rest.dropWhile isIdentifierContinue, ?_, rfl,
    .identifier hc ?_ ?_⟩
  · simp [List.takeWhile_append_dropWhile]
  · intro d hd
    exact List.mem_takeWhile_imp hd
  · intro d hd
    exact eq_false_of_mem_head?_dropWhile hd

/-- What `Head.ofText` answers is true of the text. -/
lemma describes_ofText (c : Char) (rest : List Char) : (ofText c rest).Describes (c :: rest) := by
  unfold ofText
  split
  · next h => exact h ▸ describes_ofAngle rest
  split
  · next h => exact h ▸ describes_ofSlash rest
  split
  · next h => exact describes_ofQuote h rest
  split
  · next h => exact h ▸ describes_ofDot rest
  split
  · next kind h => exact ⟨[c], rest, rfl, rfl, lexeme_of_single h rest⟩
  -- a character that is no token by itself begins an identifier or nothing
  next hangle hslash hquote hdot hsingle =>
  split
  · next h => exact describes_identifier h rest
  · next hstart =>
    intro d hd
    obtain rfl : c = d := by simpa using hd
    unfold single? at hsingle
    split at hsingle <;> simp_all [isSignificant]

/-! ### Every row of the table is found -/

lemma ofText_eq_ofQuote {quote : Char} (hq : quote = '"' ∨ quote = '\'') (rest : List Char) :
    ofText quote rest = ofQuote quote rest := by
  rcases hq with rfl | rfl <;> simp [ofText]

lemma ofQuote_of_quotable {quote : Char} (hq : quote = '"' ∨ quote = '\'') {inside : List Char}
    (hin : Quotable quote inside) (after : List Char) :
    ofQuote quote (inside ++ quote :: after) =
      .token .string (quote :: inside ++ [quote]).length := by
  simp [ofQuote, throughQuote_of_quotable (ne_backslash_of_quote hq) hin]

lemma ofDot_eq_dot {after : List Char} (htwo : ¬ ['.', '.'] <+: after) (hone : after ≠ ['.']) :
    ofDot after = .token .dot 1 := by
  unfold ofDot
  split
  · exact absurd rfl hone
  · next rest => exact absurd ⟨rest, rfl⟩ htwo
  · rfl

lemma ofText_of_identifierStart {c : Char} (hc : isIdentifierStart c = true) (rest : List Char) :
    ofText c rest = .token .identifier ((rest.takeWhile isIdentifierContinue).length + 1) := by
  have hne : ∀ d, isIdentifierStart d = false → c ≠ d := by
    rintro d hd rfl
    simp [hd] at hc
  have hsingle : single? c = none := by
    unfold single?
    split <;> first | rfl | exact absurd hc (by decide)
  simp [ofText, hne '<' (by decide), hne '/' (by decide), hne '"' (by decide),
    hne '\'' (by decide), hne '.' (by decide), hsingle, hc]

lemma ofText_of_lexeme {kind : TokenKind} {c : Char} {rest lexeme after : List Char}
    (h : Lexeme kind lexeme after) (heq : c :: rest = lexeme ++ after) :
    ofText c rest = .token kind lexeme.length := by
  cases h with
  | tagOpen hahead hslash hclose =>
    obtain ⟨space, rest', hs, hd, rfl⟩ := hahead
    obtain ⟨rfl, rfl⟩ := List.cons.inj heq
    simp [ofText, ofAngle, skipTagSpace_append hs hd]
  | selfClose hs =>
    obtain ⟨rfl, rfl⟩ := List.cons.inj heq
    simp [ofText, ofSlash, skipTagSpace_append hs, tagSpace_append hs, isTagSpace]
  | closingOpen hs hahead hclose =>
    obtain ⟨space', rest', hs', hd, rfl⟩ := hahead
    obtain ⟨rfl, rfl⟩ := List.cons.inj heq
    simp [ofText, ofAngle, skipTagSpace_append hs, tagSpace_append hs, isTagSpace,
      skipTagSpace_append hs' hd]
  | fragmentOpen hs =>
    obtain ⟨rfl, rfl⟩ := List.cons.inj heq
    simp [ofText, ofAngle, skipTagSpace_append hs, tagSpace_append hs, isTagSpace]
  | fragmentClose hs hs' =>
    obtain ⟨rfl, rfl⟩ := List.cons.inj heq
    simp [ofText, ofAngle, skipTagSpace_append hs, tagSpace_append hs, isTagSpace,
      skipTagSpace_append hs', tagSpace_append hs']
    omega
  | @identifier _ more _ hc hmore hend =>
    rw [List.cons_append, List.cons.injEq] at heq
    obtain ⟨rfl, rfl⟩ := heq
    rw [ofText_of_identifierStart hc, takeWhile_append_of_head? hmore hend]
    rfl
  | @string _ inside _ hq hin =>
    simp only [List.cons_append, List.append_assoc, List.nil_append, List.cons.injEq] at heq
    obtain ⟨rfl, rfl⟩ := heq
    rw [ofText_eq_ofQuote hq, ofQuote_of_quotable hq hin]
  | @dot after htwo hone =>
    obtain ⟨rfl, rfl⟩ := List.cons.inj heq
    exact ofDot_eq_dot htwo hone
  | spread =>
    obtain ⟨rfl, rfl⟩ := List.cons.inj heq
    rfl
  | _ =>
    obtain ⟨rfl, rfl⟩ := List.cons.inj heq
    rfl

lemma ofText_of_truncated {cause : Truncation} {c : Char} {rest after : List Char}
    (h : Breaks (.truncated cause) (c :: rest) after) : ofText c rest = .truncated cause := by
  cases h with
  | angle hs => simp [ofText, ofAngle, skipTagSpace_eq_nil_iff.2 hs]
  | closingAngle hs hs' =>
    simp [ofText, ofAngle, skipTagSpace_append hs, isTagSpace, skipTagSpace_eq_nil_iff.2 hs']
  | slash hs => simp [ofText, ofSlash, skipTagSpace_eq_nil_iff.2 hs]
  | string hq hopen =>
    rw [ofText_eq_ofQuote hq, ofQuote]
    split
    · next n hsome =>
      obtain ⟨inside, after, heq, hin, -⟩ := exists_quotable_of_throughQuote hsome
      exact absurd heq (hopen inside after hin)
    · rfl
  | dots => rfl

lemma ofText_of_loneSlash {c : Char} {rest lexeme after : List Char}
    (h : Breaks .loneSlash lexeme after) (heq : c :: rest = lexeme ++ after) :
    ofText c rest = .loneSlash lexeme.length := by
  cases h with
  | loneSlash hs hd hclose =>
    obtain ⟨rfl, rfl⟩ := List.cons.inj heq
    simp [ofText, ofSlash, skipTagSpace_append hs hd, tagSpace_append hs hd]

lemma ofText_of_insignificant {c : Char} (hc : isSignificant c = false) (rest : List Char) :
    ofText c rest = .skipped := by
  have hne : ∀ d, isSignificant d = true → c ≠ d := by
    rintro d hd rfl
    simp [hd] at hc
  have hstart : isIdentifierStart c = false := by
    simp only [isSignificant, Bool.or_eq_false_iff] at hc
    exact hc.2
  have hsingle : single? c = none := by
    unfold single?
    split <;> first | rfl | exact absurd hc (by decide)
  simp [ofText, hne '<' (by decide), hne '/' (by decide), hne '"' (by decide),
    hne '\'' (by decide), hne '.' (by decide), hsingle, hstart]

end Head

end EmbeddedJsx
