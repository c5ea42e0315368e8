import EmbeddedJsx.Json
import EmbeddedJsx.Proofs.Json.Lexeme

/-!
# The grammar of JSON

`Json.Reads` reads a phrase from the beginning of a sequence of tokens and relates it to what is
left of them.  Besides values there are phrases for what is inside of an array or an object, since
there is nothing but a bracket that tells whether more items come.

A sequence of tokens is read in one way (`Reads.unique`), by induction on how it is read: each
phrase is told by its first token or, behind a left bracket, by its second one.  As a text has one
sequence of lexemes, it follows that a text is the document of no more than one value
(`Document.unique`).
-/

namespace EmbeddedJsx.Json

variable {tokens rest rest' : List Token} {text : List Char}

/-- What is read from tokens. -/
inductive Phrase where
  /-- A value. -/
  | value (value : Json)
  /-- A member of an object. -/
  | member (name : String) (value : Json)
  /-- The items of an array after the first of them, with the bracket that ends the array. -/
  | moreItems (items : List Json)
  /-- The members of an object after the first of them, with the brace that ends the object. -/
  | moreMembers (members : List (String × Json))

/-- The phrases are of one sort. -/
def Phrase.Alike : Phrase → Phrase → Prop
  | value _, value _ => True
  | member _ _, member _ _ => True
  | moreItems _, moreItems _ => True
  | moreMembers _, moreMembers _ => True
  | _, _ => False

/-- The tokens begin with the phrase, and the others are what is left of them. -/
inductive Reads : Phrase → List Token → List Token → Prop where
  | null {rest : List Token} : Reads (.value .null) (.word .null :: rest) rest
  | bool {b : Bool} {rest : List Token} : Reads (.value (.bool b)) (.word (.truth b) :: rest) rest
  | int {n : ℤ} {chars : List Char} {rest : List Token} : IsInteger n chars →
      Reads (.value (.int n)) (.number chars :: rest) rest
  | string {s : String} {rest : List Token} : Reads (.value (.string s)) (.string s :: rest) rest
  | emptyArray {rest : List Token} :
      Reads (.value (.array [])) (.word .leftBracket :: .word .rightBracket :: rest) rest
  | array {item : Json} {items : List Json} {tokens more rest : List Token} :
      Reads (.value item) tokens more → Reads (.moreItems items) more rest →
      Reads (.value (.array (item :: items))) (.word .leftBracket :: tokens) rest
  | lastItem {rest : List Token} : Reads (.moreItems []) (.word .rightBracket :: rest) rest
  | nextItem {item : Json} {items : List Json} {tokens more rest : List Token} :
      Reads (.value item) tokens more → Reads (.moreItems items) more rest →
      Reads (.moreItems (item :: items)) (.word .comma :: tokens) rest
  | emptyObject {rest : List Token} :
      Reads (.value (.object [])) (.word .leftBrace :: .word .rightBrace :: rest) rest
  | object {name : String} {value : Json} {members : List (String × Json)}
      {tokens more rest : List Token} :
      Reads (.member name value) tokens more → Reads (.moreMembers members) more rest →
      Reads (.value (.object ((name, value) :: members))) (.word .leftBrace :: tokens) rest
  | member {name : String} {value : Json} {tokens rest : List Token} :
      Reads (.value value) tokens rest →
      Reads (.member name value) (.string name :: .word .colon :: tokens) rest
  | lastMember {rest : List Token} : Reads (.moreMembers []) (.word .rightBrace :: rest) rest
  | nextMember {name : String} {value : Json} {members : List (String × Json)}
      {tokens more rest : List Token} :
      Reads (.member name value) tokens more → Reads (.moreMembers members) more rest →
      Reads (.moreMembers ((name, value) :: members)) (.word .comma :: tokens) rest

/-- **The grammar is unambiguous.**  Tokens begin with one phrase of each sort at most. -/
theorem Reads.unique {phrase phrase' : Phrase} (h : Reads phrase tokens rest)
    (h' : Reads phrase' tokens rest') (halike : phrase.Alike phrase') :
    phrase = phrase' ∧ rest = rest' := by
  induction h generalizing phrase' rest' with
  | null | bool | lastItem | lastMember =>
    cases h'
    exact ⟨rfl, rfl⟩
  | string =>
    cases h' with
    | string => exact ⟨rfl, rfl⟩
    | member => exact halike.elim
  | emptyArray =>
    cases h' with
    | emptyArray => exact ⟨rfl, rfl⟩
    | array hitem' _ => cases hitem'
  | emptyObject =>
    cases h' with
    | emptyObject => exact ⟨rfl, rfl⟩
    | object hmember' _ => cases hmember'
  | int hn =>
    cases h' with
    | int hn' => exact ⟨by rw [hn.unique hn'], rfl⟩
  | array hitem _ ih ihmore =>
    cases h' with
    | emptyArray => cases hitem
    | array hitem' hmore' =>
      obtain ⟨hvalue, rfl⟩ := ih hitem' trivial
      obtain rfl := Phrase.value.inj hvalue
      obtain ⟨hitems, rfl⟩ := ihmore hmore' trivial
      exact ⟨by rw [Phrase.moreItems.inj hitems], rfl⟩
  | nextItem _ _ ih ihmore =>
    cases h' with
    | nextItem hitem' hmore' =>
      obtain ⟨hvalue, rfl⟩ := ih hitem' trivial
      obtain rfl := Phrase.value.inj hvalue
      obtain ⟨hitems, rfl⟩ := ihmore hmore' trivial
      exact ⟨by rw [Phrase.moreItems.inj hitems], rfl⟩
    | nextMember => exact halike.elim
  | object hmember _ ih ihmore =>
    cases h' with
    | emptyObject => cases hmember
    | object hmember' hmore' =>
      obtain ⟨hfirst, rfl⟩ := ih hmember' trivial
      obtain ⟨rfl, rfl⟩ := Phrase.member.inj hfirst
      obtain ⟨hmembers, rfl⟩ := ihmore hmore' trivial
      exact ⟨by rw [Phrase.moreMembers.inj hmembers], rfl⟩
  | member _ ih =>
    cases h' with
    | string => exact halike.elim
    | member hvalue' =>
      obtain ⟨hvalue, rfl⟩ := ih hvalue' trivial
      exact ⟨by rw [Phrase.value.inj hvalue], rfl⟩
  | nextMember _ _ ih ihmore =>
    cases h' with
    | nextItem => exact halike.elim
    | nextMember hmember' hmore' =>
      obtain ⟨hfirst, rfl⟩ := ih hmember' trivial
      obtain ⟨rfl, rfl⟩ := Phrase.member.inj hfirst
      obtain ⟨hmembers, rfl⟩ := ihmore hmore' trivial
      exact ⟨by rw [Phrase.moreMembers.inj hmembers], rfl⟩

/-- The text is a JSON document, and this is its value. -/
def Document (text : List Char) (value : Json) : Prop :=
  ∃ lexemes, Spaced lexemes text ∧ Reads (.value value) (lexemes.map Lexeme.token) []

/-- A document has one value. -/
theorem Document.unique {value value' : Json} (h : Document text value)
    (h' : Document text value') : value = value' := by
  obtain ⟨lexemes, hspaced, hreads⟩ := h
  obtain ⟨lexemes', hspaced', hreads'⟩ := h'
  obtain rfl := hspaced.unique hspaced'
  exact Phrase.value.inj (hreads.unique hreads' trivial).1

end EmbeddedJsx.Json
