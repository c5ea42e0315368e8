import EmbeddedJsx.Cursor
import EmbeddedJsx.Text.Quoted

/-!
# The tokens of a text

`tokens` cuts a whole text into tokens, and `TokenTable.render` lists them, one to a line: the
kind in a column of twenty characters, the span and the quoted text.
-/

namespace EmbeddedJsx

open Text

/-- A token of a text. -/
structure Token where
  /-- What kind of token it is. -/
  kind : TokenKind
  /-- Where it stands. -/
  span : Span
  /-- Its characters. -/
  text : String
deriving DecidableEq, Repr

/-- The token on which a cursor stands, taken to be of the given kind. -/
def Cursor.tokenAs (c : Cursor) (kind : TokenKind) : Token :=
  ⟨kind, c.span, String.ofList c.lexeme⟩

/-- Reads at most the given number of tokens, up to the end of the input. -/
def Cursor.tokensWithin : Nat → Cursor → Except SyntaxError (List Token)
  | 0, _ => .ok []
  | fuel + 1, c =>
    match c.next with
    | .ok kind after =>
      match tokensWithin fuel after with
      | .ok tokens => .ok (after.tokenAs kind :: tokens)
      | .error error => .error error
    | .error error _ => if error.fault.family = .boundary then .ok [] else .error error

/-- All tokens of a text.  A token has at least one character, so there are no more of them than
characters, and one further step meets the end of the input. -/
def tokens (text : String) : Except SyntaxError (List Token) :=
  let chars := text.toList
  (Cursor.ofText chars).tokensWithin (chars.length + 1)

namespace TokenTable

/-- A text filled up with spaces to the given width. -/
def padRight (width : Nat) (text : String) : String :=
  text ++ String.ofList (List.replicate (width - text.length) ' ')

/-- The line of one token. -/
def row (token : Token) : String :=
  padRight 20 token.kind.label ++ " " ++ token.span.text ++ " " ++ quoted token.text ++ "\n"

/-- The lines of a list of tokens. -/
def render (tokens : List Token) : String :=
  String.join (tokens.map row)

end TokenTable

end EmbeddedJsx
