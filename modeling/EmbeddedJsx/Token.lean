/-!
# Kinds of tokens
-/

namespace EmbeddedJsx

/-- The kinds of tokens, with two markers for a cursor that stands on none. -/
inductive TokenKind where
  /-- The input has ended. -/
  | endOfInput
  /-- A slash that no `>` follows. -/
  | malformed
  /-- The `<` of an opening tag. -/
  | tagOpen
  /-- The `>` of a tag. -/
  | tagClose
  /-- The `/>` of a self-closing tag. -/
  | selfClose
  /-- The `</` of a closing tag. -/
  | closingOpen
  /-- The `<>` that opens a fragment. -/
  | fragmentOpen
  /-- The `</>` that closes a fragment. -/
  | fragmentClose
  /-- An identifier. -/
  | identifier
  /-- A string literal with its quotes. -/
  | string
  /-- An equals sign. -/
  | assign
  /-- A colon. -/
  | colon
  /-- A dot. -/
  | dot
  /-- A comma. -/
  | comma
  /-- Three dots. -/
  | spread
  /-- A left brace. -/
  | braceOpen
  /-- A right brace. -/
  | braceClose
deriving DecidableEq, Repr

namespace TokenKind

/-- The word under which a token of this kind is listed. -/
def label : TokenKind → String
  | endOfInput => "EOS"
  | malformed => "MALFORMED"
  | tagOpen => "ELEMENT_OPEN"
  | tagClose => "ELEMENT_CLOSE"
  | selfClose => "SELF_CLOSING_CLOSE"
  | closingOpen => "CLOSING_ELEMENT_OPEN"
  | fragmentOpen => "FRAGMENT_OPEN"
  | fragmentClose => "FRAGMENT_CLOSE"
  | identifier => "IDENTIFIER"
  | string => "STRING"
  | assign => "ASSIGN"
  | colon => "COLON"
  | dot => "DOT"
  | comma => "COMMA"
  | spread => "SPREAD"
  | braceOpen => "BRACE_OPEN"
  | braceClose => "BRACE_CLOSE"

/-- Whether a token of this kind begins an element or a fragment. -/
def opensMarkup : TokenKind → Bool
  | tagOpen | fragmentOpen => true
  | _ => false

end TokenKind

end EmbeddedJsx
