import EmbeddedJsx.Text.IdentifierRanges

/-!
# Identifiers

An identifier begins with a character of the property `XID_Start` or a low line, and goes on
with characters of the property `XID_Continue`.
-/

namespace EmbeddedJsx.Text

/-- Whether a character may begin an identifier. -/
def isIdentifierStart (c : Char) : Bool :=
  c == '_' || identifierStartRanges.has c

/-- Whether a character may stand in an identifier after its first character. -/
def isIdentifierContinue (c : Char) : Bool :=
  isIdentifierStart c || identifierContinueRanges.has c

theorem isIdentifierContinue_of_start {c : Char} (h : isIdentifierStart c = true) :
    isIdentifierContinue c = true := by
  simp [isIdentifierContinue, h]

/-- Whether a whole text is an identifier; the empty text is none. -/
def isIdentifier : List Char → Bool
  | [] => false
  | c :: rest => isIdentifierStart c && rest.all isIdentifierContinue

/-- Whether a text may be appended to an identifier. -/
def continuesIdentifier (text : List Char) : Bool :=
  text.all isIdentifierContinue

end EmbeddedJsx.Text
