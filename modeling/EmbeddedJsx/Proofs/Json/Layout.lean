import EmbeddedJsx.Command.Run
import EmbeddedJsx.Proofs.Json.Grammar
import EmbeddedJsx.Proofs.Rendering.Quoted

/-!
# Programs are read back from their JSON

A value determines its lexemes (`Json.lexemes`); how far it is indented only matters for the white
space between them.  That a layout spells the lexemes is shown by induction on the value
(`Json.lays_text`), and so is that the grammar reads the value from them (`Json.reads_lexemes`).
A lexeme has to be told from what comes after it, so that `Json.Lays` says what a text spells in
front of any other text that does not continue a number.

The main statement is `render_json_document`.  Text cannot be indented by every number, and where it
can, nothing but white space depends on the number.  How large a document there is room for is up to
the platform (`Platform.HasRoom`).
-/

namespace EmbeddedJsx

namespace Json

open Text

variable {c d : Char} {content written rest : List Char} {n width level : ℕ}

/-! ### Numerals -/

/-- There is no zero in front of a numeral. -/
lemma isWhole_toDigits (n : ℕ) : IsWhole (Nat.toDigits 10 n) := by
  refine ⟨⟨Nat.toDigits_ne_nil, fun c hc => Nat.isDigit_of_mem_toDigits (by omega) le_rfl hc⟩, ?_⟩
  induction n using Nat.strong_induction_on with
  | _ n ih =>
    intro hzero
    rw [Nat.toDigits_eq_if (by omega)] at hzero ⊢
    split_ifs at hzero ⊢ with hlt
    · rw [Option.some.inj hzero]
    · rw [List.head?_append_of_ne_nil _ Nat.toDigits_ne_nil] at hzero
      have hten : Nat.toDigits 10 (n / 10) = ['0'] := ih (n / 10) (by omega) hzero
      have hvalue : n / 10 = 0 := by
        rw [← Nat.ofDigitChars_ten_toDigits (n := n / 10), hten]
        rfl
      omega

lemma isInteger_toString (n : ℤ) : IsInteger n (toString n).toList := by
  rw [Int.toString_eq_repr, Int.repr_eq_if]
  split_ifs with h
  · have hwhole := IsInteger.natural (isWhole_toDigits n.toNat)
    rwa [Nat.ofDigitChars_ten_toDigits, Int.toNat_of_nonneg h, ← Nat.toList_repr] at hwhole
  · have hwhole := IsInteger.negative (isWhole_toDigits (-n).toNat)
    rw [Nat.ofDigitChars_ten_toDigits, Int.toNat_of_nonneg (by omega), neg_neg] at hwhole
    simpa using hwhole

/-! ### Strings -/

/-- A UTF-16 unit is read back from its four digits. -/
lemma unit?_hex (h : n < 0x10000) :
    ∃ a b c d, hex 4 n = [a, b, c, d] ∧ unit? a b c d = some n := by
  have hdigit (k : ℕ) : hexValue? (hexDigit (k % 16)) = some (k % 16) :=
    hexValue?_hexDigit ⟨k % 16, Nat.mod_lt _ (by omega)⟩
  refine ⟨_, _, _, _, rfl, ?_⟩
  simp only [unit?, hdigit, Option.pure_def, Option.bind_eq_bind, Option.bind_some,
    Option.some.injEq]
  omega

/-- Whatever is written for a character is read as the character. -/
lemma Body.escape (c : Char) (h : Body content written rest) :
    Body (c :: content) (escape c ++ written) rest := by
  unfold Json.escape
  split_ifs with hescaped hfeed hreturn htab hbackspace hformfeed hplain
  · rcases hescaped with rfl | rfl <;> exact .letter (by decide) h
  · exact hfeed ▸ .letter (by decide) h
  · exact hreturn ▸ .letter (by decide) h
  · exact htab ▸ .letter (by decide) h
  · exact hbackspace ▸ .letter (by decide) h
  · exact hformfeed ▸ .letter (by decide) h
  · rw [not_or] at hescaped
    exact .plain hescaped.1 hescaped.2 hplain.1 h
  · have hvalid : c.toNat < 0xd800 ∨ 0xdfff < c.toNat ∧ c.toNat < 0x110000 := c.valid
    unfold unitEscapes unitEscape
    split_ifs with hbasic
    · obtain ⟨x, y, z, w, hhex, hunit⟩ := unit?_hex hbasic
      rw [hhex]
      exact .unit hunit h
    · obtain ⟨x, y, z, w, hhex, hhigh⟩ :=
        unit?_hex (n := 0xd800 + (c.toNat - 0x10000) / 0x400) (by omega)
      obtain ⟨x', y', z', w', hhex', hlow⟩ :=
        unit?_hex (n := 0xdc00 + (c.toNat - 0x10000) % 0x400) (by omega)
      rw [hhex, hhex']
      exact .units hhigh hlow (by omega) (by omega) (by omega) h

lemma body_flatMap_escape (content : List Char) :
    Body content (content.flatMap escape ++ ['"']) [] := by
  induction content with
  | nil => exact .close
  | cons c content ih =>
    rw [List.flatMap_cons, List.append_assoc]
    exact ih.escape c

lemma spells_stringText (s : String) : (Token.string s).Spells (stringText s) :=
  ⟨_, rfl, body_flatMap_escape s.toList⟩

lemma ascii_hexDigit : ∀ digit : Fin 16, (hexDigit digit).toNat < 128 := by
  decide

lemma ascii_unitEscapes (h : d ∈ unitEscapes c) : d.toNat < 128 := by
  have hunit {unit : ℕ} (h : d ∈ unitEscape unit) : d.toNat < 128 := by
    simp only [unitEscape, List.mem_cons] at h
    rcases h with rfl | rfl | h
    · decide
    · decide
    · obtain ⟨digit, rfl⟩ := exists_of_mem_hex h
      exact ascii_hexDigit digit
  unfold unitEscapes at h
  split_ifs at h
  · exact hunit h
  · rcases List.mem_append.1 h with h | h <;> exact hunit h

lemma ascii_escape (h : d ∈ escape c) : d.toNat < 128 := by
  unfold escape at h
  split_ifs at h with hescaped hfeed hreturn htab hbackspace hformfeed hplain
  · rcases List.mem_pair.1 h with rfl | rfl
    · decide
    · rcases hescaped with rfl | rfl <;> decide
  iterate 5 rcases List.mem_pair.1 h with rfl | rfl <;> decide
  · obtain rfl := List.mem_singleton.1 h
    have htilde : d.toNat ≤ '~'.toNat := hplain.2
    exact lt_of_le_of_lt htilde (by decide)
  · exact ascii_unitEscapes h

lemma ascii_stringText {s : String} (h : d ∈ stringText s) : d.toNat < 128 := by
  simp only [stringText, List.mem_cons, List.mem_append, List.mem_flatMap, List.not_mem_nil,
    or_false] at h
  rcases h with rfl | ⟨c, -, h⟩ | rfl
  · decide
  · exact ascii_escape h
  · decide

/-! ### The lexemes of a value -/

/-- A word as a lexeme. -/
def Lexeme.word (w : Word) : Lexeme := ⟨.word w, w.text, rfl⟩

/-- An integer as a lexeme. -/
def Lexeme.int (n : ℤ) : Lexeme :=
  ⟨.number (toString n).toList, (toString n).toList, rfl, (isInteger_toString n).isNumber⟩

/-- A string as a lexeme. -/
def Lexeme.string (s : String) : Lexeme := ⟨.string s, stringText s, spells_stringText s⟩

/-- The lexemes behind the first item or member, up to the bracket. -/
def moreLexemes (right : Word) (items : List (List Lexeme)) : List Lexeme :=
  items.flatMap (fun i => .word .comma :: i) ++ [.word right]

/-- Puts the lexemes of items or members between brackets. -/
def encloseLexemes (left right : Word) : List (List Lexeme) → List Lexeme
  | [] => [.word left, .word right]
  | item :: items => .word left :: (item ++ moreLexemes right items)

mutual

/-- The lexemes of a value. -/
def lexemes : Json → List Lexeme
  | null => [.word .null]
  | bool value => [.word (.truth value)]
  | int value => [.int value]
  | string value => [.string value]
  | array items => encloseLexemes .leftBracket .rightBracket (itemLexemes items)
  | object members => encloseLexemes .leftBrace .rightBrace (memberLexemes members)

/-- The lexemes of each item of a list. -/
def itemLexemes : List Json → List (List Lexeme)
  | [] => []
  | item :: items => lexemes item :: itemLexemes items

/-- The lexemes of each member of an object. -/
def memberLexemes : List (String × Json) → List (List Lexeme)
  | [] => []
  | (name, value) :: members =>
    (.string name :: .word .colon :: lexemes value) :: memberLexemes members

end

/-! ### Layouts spell the lexemes -/

/-- No number goes on with the text. -/
def Apart (rest : List Char) : Prop := ∀ c ∈ rest.head?, inNumber c = false

lemma apart_nil : Apart [] := by simp [Apart]

lemma apart_cons (h : inNumber c = false) : Apart (c :: rest) := by simpa [Apart] using h

/-- Behind an item there is a comma or the end of a line. -/
lemma apart_more {texts : List (List Char)} : Apart
    (texts.flatMap (fun i => ',' :: (newline width (level + 1) ++ i)) ++
      (newline width level ++ [c]) ++ rest) := by
  cases texts <;> exact apart_cons rfl

lemma ascii_of_inNumber (h : inNumber c = true) : c.toNat < 128 := by
  simp only [inNumber, Char.isDigit, Bool.or_eq_true, Bool.and_eq_true, decide_eq_true_eq,
    beq_iff_eq] at h
  rcases h with ((((⟨-, h⟩ | rfl) | rfl) | rfl) | rfl) | rfl
  · exact lt_of_le_of_lt h (by decide)
  all_goals decide

/-- The text is written in ASCII, and it spells the lexemes in front of whatever does not go on with
a number. -/
structure Lays (ls : List Lexeme) (text : List Char) : Prop where
  /-- The lexemes are spelled. -/
  spaced : ∀ more rest, Apart rest → Spaced more rest → Spaced (ls ++ more) (text ++ rest)
  /-- The characters are those of ASCII. -/
  ascii : ∀ c ∈ text, c.toNat < 128

namespace Lays

variable {ls ls' : List Lexeme} {text text' : List Char} {items : List (List Lexeme)}
  {texts : List (List Char)} {left right : Word} {leftChar rightChar : Char}

lemma nil : Lays [] [] := ⟨fun _ _ _ h => h, by simp⟩

lemma space (h : Lays ls text) : Lays ls (' ' :: text) where
  spaced more rest hrest hmore := .space rfl (h.spaced more rest hrest hmore)
  ascii := List.forall_mem_cons.2 ⟨by decide, h.ascii⟩

lemma newline (width level : ℕ) (h : Lays ls text) :
    Lays ls (newline width level ++ text) where
  spaced more rest hrest hmore := by
    rw [Json.newline, List.cons_append, List.cons_append, List.append_assoc]
    refine .space rfl ?_
    generalize width * level = k
    induction k with
    | zero => exact h.spaced more rest hrest hmore
    | succ k ih => exact .space rfl ih
  ascii c hc := by
    rw [Json.newline, List.cons_append, List.mem_cons, List.mem_append, List.mem_replicate] at hc
    rcases hc with rfl | ⟨-, rfl⟩ | hc
    · decide
    · decide
    · exact h.ascii c hc

lemma ascii_word (w : Word) : ∀ c ∈ w.text, c.toNat < 128 := by
  rcases w with _ | _ | _ | _ | _ | _ | _ | ⟨_ | _⟩ <;> simp [Word.text]

lemma word (w : Word) (h : Lays ls text) : Lays (.word w :: ls) (w.text ++ text) where
  spaced more rest hrest hmore := by
    rw [List.append_assoc]
    exact .lexeme (fun ⟨_, hnumber⟩ => nomatch hnumber) (h.spaced more rest hrest hmore)
  ascii c hc := (List.mem_append.1 hc).elim (ascii_word w c) (h.ascii c)

/-- A word of one character. -/
lemma sign {w : Word} (hw : w.text = [c]) (h : Lays ls text) :
    Lays (.word w :: ls) (c :: text) := by
  simpa [hw] using h.word w

lemma string (s : String) (h : Lays ls text) : Lays (.string s :: ls) (stringText s ++ text) where
  spaced more rest hrest hmore := by
    rw [List.append_assoc]
    exact .lexeme (fun ⟨_, hnumber⟩ => nomatch hnumber) (h.spaced more rest hrest hmore)
  ascii c hc := (List.mem_append.1 hc).elim ascii_stringText (h.ascii c)

lemma int (k : ℤ) : Lays [.int k] (toString k).toList where
  spaced _ _ hrest hmore := .lexeme (fun _ => hrest) hmore
  ascii _ hc := ascii_of_inNumber ((isInteger_toString k).isNumber.mem_inNumber hc)

/-- Two layouts may follow each other where no number is continued. -/
lemma append (h : Lays ls text) (h' : Lays ls' text')
    (hapart : ∀ rest, Apart rest → Apart (text' ++ rest)) :
    Lays (ls ++ ls') (text ++ text') where
  spaced more rest hrest hmore := by
    rw [List.append_assoc, List.append_assoc]
    exact h.spaced _ _ (hapart rest hrest) (h'.spaced _ _ hrest hmore)
  ascii c hc := (List.mem_append.1 hc).elim (h.ascii c) (h'.ascii c)

/-- A layout of its own is spelled. -/
lemma spaced_self (h : Lays ls text) : Spaced ls text := by
  simpa using h.spaced [] [] apart_nil .nil

/-- What stands behind the first item or member. -/
lemma more (width level : ℕ) (h : List.Forall₂ Lays items texts)
    (hright : right.text = [rightChar]) :
    Lays (moreLexemes right items)
      (texts.flatMap (fun i => ',' :: (Json.newline width (level + 1) ++ i)) ++
        (Json.newline width level ++ [rightChar])) := by
  induction h with
  | nil => exact (nil.sign hright).newline width level
  | @cons item text items texts hitem _ ih =>
    have hmore := (hitem.append ih fun _ _ => apart_more).newline width (level + 1)
    simpa [moreLexemes] using hmore.sign (w := .comma) rfl

lemma enclose (h : List.Forall₂ Lays items texts) (hleft : left.text = [leftChar])
    (hright : right.text = [rightChar]) :
    Lays (encloseLexemes left right items) (enclose width level leftChar rightChar texts) := by
  cases h with
  | nil => exact (nil.sign hright).sign hleft
  | @cons item text items texts hitem h =>
    have hmore := more width level h hright
    have hinside := (hitem.append hmore fun _ _ => apart_more).newline width (level + 1)
    simpa [encloseLexemes, Json.enclose] using hinside.sign hleft

end Lays

mutual

/-- A value is laid out by its lexemes. -/
theorem lays_text (width level : ℕ) : ∀ v : Json, Lays v.lexemes (text width level v)
  | null => Lays.nil.word .null
  | bool true => Lays.nil.word (.truth true)
  | bool false => Lays.nil.word (.truth false)
  | int value => .int value
  | string value => by
    simpa [lexemes, text] using Lays.nil.string value
  | array items => .enclose (lays_itemTexts width (level + 1) items) rfl rfl
  | object members => .enclose (lays_memberTexts width (level + 1) members) rfl rfl

theorem lays_itemTexts (width level : ℕ) :
    ∀ items, List.Forall₂ Lays (itemLexemes items) (itemTexts width level items)
  | [] => .nil
  | item :: items => .cons (lays_text width level item) (lays_itemTexts width level items)

theorem lays_memberTexts (width level : ℕ) :
    ∀ members, List.Forall₂ Lays (memberLexemes members) (memberTexts width level members)
  | [] => .nil
  | (name, value) :: members =>
    .cons (((lays_text width level value).space.word .colon).string name)
      (lays_memberTexts width level members)

end

/-! ### The lexemes are read as the value -/

mutual

/-- A value is read from its lexemes. -/
theorem reads_lexemes (rest : List Token) :
    ∀ v : Json, Reads (.value v) (v.lexemes.map Lexeme.token ++ rest) rest
  | null => .null
  | bool _ => .bool
  | int value => .int (isInteger_toString value)
  | string _ => .string
  | array [] => .emptyArray
  | array (item :: items) => by
    simpa [lexemes, itemLexemes, encloseLexemes, Lexeme.word] using
      Reads.array (reads_lexemes _ item) (reads_moreItems rest items)
  | object [] => .emptyObject
  | object ((name, value) :: members) => by
    simpa [lexemes, memberLexemes, encloseLexemes, Lexeme.word, Lexeme.string] using
      Reads.object (.member (reads_lexemes _ value)) (reads_moreMembers rest members)

theorem reads_moreItems (rest : List Token) : ∀ items, Reads (.moreItems items)
    ((moreLexemes .rightBracket (itemLexemes items)).map Lexeme.token ++ rest) rest
  | [] => .lastItem
  | item :: items => by
    simpa [itemLexemes, moreLexemes, Lexeme.word] using
      Reads.nextItem (reads_lexemes _ item) (reads_moreItems rest items)

theorem reads_moreMembers (rest : List Token) : ∀ members, Reads (.moreMembers members)
    ((moreLexemes .rightBrace (memberLexemes members)).map Lexeme.token ++ rest) rest
  | [] => .lastMember
  | (name, value) :: members => by
    simpa [memberLexemes, moreLexemes, Lexeme.word, Lexeme.string] using
      Reads.nextMember (.member (reads_lexemes _ value)) (reads_moreMembers rest members)

end

end Json

/-! ### Programs -/

open Json

variable {text : String} {program : Program} {indent : Indent} {width level : ℕ}

lemma getLast?_enclose {left right : Char} {items : List (List Char)} :
    (enclose width level left right items).getLast? = some right := by
  cases items <;> simp [enclose, List.getLast?_cons]

/-- The text of a program ends with the brace of an object. -/
lemma Program.getLast?_record (program : Program) (width : ℕ) :
    (Json.text width 0 program.record).getLast? = some '}' := by
  rw [Program.record, Json.text]
  exact getLast?_enclose

/-- The first line of a program below its left brace is indented. -/
lemma Program.width_le_length (program : Program) (width : ℕ) :
    width ≤ (Json.text width 0 program.record).length := by
  rw [Program.record, Json.text, memberTexts, enclose]
  simp only [newline, List.length_cons, List.length_append, List.length_replicate]
  omega

lemma Indent.checkedWidth_eq_ok (h : -2 ^ 63 ≤ indent.width ∧ indent.width < 2 ^ 63) :
    indent.checkedWidth = .ok indent.width := by
  refine if_neg ?_
  change ¬ (indent.width < -2 ^ 63 ∨ 2 ^ 63 ≤ indent.width)
  omega

lemma Indent.checkedWidth_eq_error (h : ¬ (-2 ^ 63 ≤ indent.width ∧ indent.width < 2 ^ 63)) :
    indent.checkedWidth = .error .outOfRange := by
  refine if_pos ?_
  change indent.width < -2 ^ 63 ∨ 2 ^ 63 ≤ indent.width
  omega

/-- There is room for a document with a line feed after it, and for the calls that go through the
record in it. -/
def Platform.HasRoom (platform : Platform) (document : List Char) (record : Json) : Prop :=
  document.length + 1 ≤ platform.memory ∧ record.depth ≤ platform.recordDepth

section Room

variable {platform : Platform}

lemma length_layout (record : Json) (width : ℤ) :
    (record.layout width ++ "\n").length = (Json.text width.toNat 0 record).length + 1 := by
  rw [String.length_append, layout, String.length_ofList]
  rfl

lemma Platform.lay_of_hasRoom {width : ℤ}
    (h : platform.HasRoom (Json.text width.toNat 0 program.record) program.record) :
    platform.lay width program.record =
      .ok (String.ofList (Json.text width.toNat 0 program.record ++ ['\n'])) := by
  obtain ⟨hmemory, hdepth⟩ := h
  have hwidth := program.width_le_length width.toNat
  have hlength := length_layout program.record width
  rw [lay, if_neg (by omega), if_neg (by omega)]
  dsimp only
  rw [if_neg (by omega), String.ofList_append]
  rfl

lemma Platform.exists_lay_eq_error {width : ℤ}
    (h : ¬ platform.HasRoom (Json.text width.toNat 0 program.record) program.record) :
    ∃ fault, platform.lay width program.record = .error fault ∧
      (fault = .outOfMemory ∨ fault = .tooDeep) := by
  have hlength := length_layout program.record width
  rw [lay]
  split
  · exact ⟨_, rfl, .inl rfl⟩
  split
  · exact ⟨_, rfl, .inr rfl⟩
  · next hdepth =>
    refine ⟨_, if_pos ?_, .inl rfl⟩
    by_contra hmemory
    exact h ⟨by omega, by omega⟩

end Room

lemma render_json_eq (platform : Platform) (h : parse text = .ok program) :
    render platform .json (.value indent) text =
      (match indent.checkedWidth with
        | .error fault => Except.error fault
        | .ok width => platform.lay width program.record).mapError .layout := by
  rw [render, h]
  rfl

/-- **JSON with any indentation.**  A program has one sequence of lexemes, from which the grammar
reads its record.  Each indentation that fits into a signed word of 64 bits has one document in
ASCII: it spells these lexemes with white space between them, and the only value it has is the
record.  The document with a line feed after it is the rendering wherever there is room for it, and
where there is not, that is the fault.  An indentation that does not fit is a fault everywhere. -/
theorem render_json_document (h : parse text = .ok program) :
    ∃ lexemes, Reads (.value program.record) (lexemes.map Lexeme.token) [] ∧
      ∀ indent : Indent,
        (-2 ^ 63 ≤ indent.width ∧ indent.width < 2 ^ 63 →
          ∃ document : List Char,
            Spaced lexemes document ∧ document.getLast? = some '}' ∧
            (∀ c ∈ document, c.toNat < 128) ∧
            (∀ value, Document document value ↔ value = program.record) ∧
            ∀ platform : Platform,
              (platform.HasRoom document program.record →
                render platform .json (.value indent) text =
                  .ok (String.ofList (document ++ ['\n']))) ∧
              (¬ platform.HasRoom document program.record →
                ∃ fault, render platform .json (.value indent) text = .error (.layout fault) ∧
                  (fault = .outOfMemory ∨ fault = .tooDeep))) ∧
        (¬ (-2 ^ 63 ≤ indent.width ∧ indent.width < 2 ^ 63) →
          ∀ platform : Platform,
            render platform .json (.value indent) text = .error (.layout .outOfRange)) := by
  have hreads : Reads (.value program.record) (program.record.lexemes.map Lexeme.token) [] := by
    simpa using reads_lexemes [] program.record
  refine ⟨program.record.lexemes, hreads, fun indent => ⟨fun hwidth => ?_, fun hwidth => ?_⟩⟩
  · have hlays := lays_text indent.width.toNat 0 program.record
    have hdocument : Document _ program.record := ⟨_, hlays.spaced_self, hreads⟩
    refine ⟨_, hlays.spaced_self, program.getLast?_record _, hlays.ascii,
      fun value => ⟨fun hvalue => hvalue.unique hdocument, fun hvalue => hvalue ▸ hdocument⟩,
      fun platform => ⟨fun hroom => ?_, fun hroom => ?_⟩⟩
    · rw [render_json_eq platform h, Indent.checkedWidth_eq_ok hwidth]
      dsimp only
      rw [Platform.lay_of_hasRoom hroom]
      rfl
    · obtain ⟨fault, hlay, hfault⟩ := Platform.exists_lay_eq_error hroom
      refine ⟨fault, ?_, hfault⟩
      rw [render_json_eq platform h, Indent.checkedWidth_eq_ok hwidth]
      dsimp only
      rw [hlay]
      rfl
  · intro platform
    rw [render_json_eq platform h, Indent.checkedWidth_eq_error hwidth]
    rfl

/-- The document of an element that holds a character beyond the basic plane, where there is just
room for it. -/
theorem render_json_document_astral :
    let program : Program := ⟨[.element ⟨0, 8⟩ (.plain ⟨⟨1, 2⟩, "a"⟩) [] [.text ⟨3, 4⟩ "😀"]]⟩
    parse "<a>😀</a>" = .ok program ∧
      ∃ document : List Char,
        render ⟨document.length + 1, program.record.depth, 0, 0, fun _ => ""⟩ .json
            (.value (.number 3)) "<a>😀</a>" =
          .ok (String.ofList (document ++ ['\n'])) ∧
        (∀ c ∈ document, c.toNat < 128) ∧
        ∀ value, Document document value ↔ value = program.record := by
  intro program
  have h : parse "<a>😀</a>" = .ok program := by cbv
  obtain ⟨lexemes, -, hrender⟩ := render_json_document h
  obtain ⟨document, -, -, hascii, hvalue, hplatform⟩ :=
    (hrender (.number 3)).1 ⟨by decide, by decide⟩
  exact ⟨h, document, (hplatform _).1 ⟨le_rfl, le_rfl⟩, hascii, hvalue⟩

/-- Not every indentation can be made: a number that does not fit into a signed word of 64 bits
leads to a fault where there is a program to be rendered, whatever there is room for. -/
theorem render_json_of_low_indent :
    ¬ ∀ (text : String) (program : Program) (indent : ℤ), parse text = .ok program →
      ∃ (platform : Platform) (rendering : String),
        render platform .json (.value (.number indent)) text = .ok rendering := by
  intro h
  obtain ⟨platform, rendering, hrendering⟩ := h "" ⟨[]⟩ (-2 ^ 63 - 1) (by cbv)
  have hfault : render platform .json (.value (.number (-2 ^ 63 - 1))) "" =
      .error (.layout .outOfRange) := by cbv
  rw [hfault] at hrendering
  cases hrendering

end EmbeddedJsx
