import EmbeddedJsx.Token
import EmbeddedJsx.Text.Identifier

/-!
# Finding the next token

What the next token of a text is depends on nothing but the text itself: neither on what was
read before nor on where the text stands.  `Head.ofText` says what stands at the very beginning
of a text, and `scan` finds the first place at which something stands.
-/

namespace EmbeddedJsx

open Text

/-- The constructs of more than one character that the end of the input may cut short. -/
inductive Truncation where
  /-- A `<` or `/` with nothing but space after it. -/
  | tag
  /-- A string literal without its closing quote. -/
  | string
  /-- Two dots at the very end. -/
  | dots
deriving DecidableEq, Repr

/-- What stands at the beginning of a non-empty text. -/
inductive Head where
  /-- A token made of the given number of characters. -/
  | token (kind : TokenKind) (length : Nat)
  /-- A construct that the end of the text cuts short. -/
  | truncated (cause : Truncation)
  /-- A slash, with the space after it, that neither `>` nor the end of the text follows. -/
  | loneSlash (length : Nat)
  /-- A character that belongs to no token. -/
  | skipped
deriving DecidableEq, Repr

/-- The space that may stand between the characters of one delimiter. -/
def isTagSpace (c : Char) : Bool :=
  c == ' ' || c == '\t' || c == '\r' || c == '\n'

/-- The number of delimiter spaces at the beginning of a text. -/
def tagSpace (text : List Char) : Nat :=
  (text.takeWhile isTagSpace).length

/-- A text without the delimiter spaces at its beginning. -/
def skipTagSpace (text : List Char) : List Char :=
  text.dropWhile isTagSpace

/-- The token that a character is by itself. -/
def single? : Char → Option TokenKind
  | '>' => some .tagClose
  | '=' => some .assign
  | '{' => some .braceOpen
  | '}' => some .braceClose
  | ',' => some .comma
  | ':' => some .colon
  | _ => none

/-- How many characters of a text reach through the first closing quote.  A backslash takes the
character after it out of consideration. -/
def throughQuote (quote : Char) : List Char → Option Nat
  | [] => none
  | ['\\'] => none
  | '\\' :: _ :: rest => (throughQuote quote rest).map (· + 2)
  | c :: rest => if c = quote then some 1 else (throughQuote quote rest).map (· + 1)

namespace Head

/-- What a `<` is, given the text after it. -/
def ofAngle (rest : List Char) : Head :=
  match skipTagSpace rest with
  | [] => .truncated .tag
  | '/' :: after =>
    match skipTagSpace after with
    | [] => .truncated .tag
    | '>' :: _ => .token .fragmentClose (tagSpace rest + tagSpace after + 3)
    | _ :: _ => .token .closingOpen (tagSpace rest + 2)
  | '>' :: _ => .token .fragmentOpen (tagSpace rest + 2)
  | _ :: _ => .token .tagOpen 1

/-- What a slash is, given the text after it. -/
def ofSlash (rest : List Char) : Head :=
  match skipTagSpace rest with
  | [] => .truncated .tag
  | '>' :: _ => .token .selfClose (tagSpace rest + 2)
  | _ :: _ => .loneSlash (tagSpace rest + 1)

/-- What a dot is, given the text after it. -/
def ofDot : List Char → Head
  | ['.'] => .truncated .dots
  | '.' :: '.' :: _ => .token .spread 3
  | _ => .token .dot 1

/-- What a quote is, given the text after it. -/
def ofQuote (quote : Char) (rest : List Char) : Head :=
  match throughQuote quote rest with
  | some length => .token .string (length + 1)
  | none => .truncated .string

/-- What a text begins with, given its first character and the text after it. -/
def ofText (c : Char) (rest : List Char) : Head :=
  if c = '<' then ofAngle rest
  else if c = '/' then ofSlash rest
  else if c = '"' ∨ c = '\'' then ofQuote c rest
  else if c = '.' then ofDot rest
  else match single? c with
    | some kind => .token kind 1
    | none =>
      if isIdentifierStart c then
        .token .identifier ((rest.takeWhile isIdentifierContinue).length + 1)
      else .skipped

end Head

/-- The first thing that is found in a text. -/
inductive Found where
  /-- A token: its kind, its characters and the text after it. -/
  | token (kind : TokenKind) (lexeme rest : List Char)
  /-- A construct that is cut short: its characters, up to the end of the text. -/
  | truncated (cause : Truncation) (lexeme : List Char)
  /-- A slash that is part of no delimiter: its characters and the text after it. -/
  | loneSlash (lexeme rest : List Char)
  /-- Nothing but skipped characters. -/
  | nothing
deriving DecidableEq, Repr

/-- The first thing that is found in a text, after the number of characters skipped before it. -/
def scan : List Char → Nat × Found
  | [] => (0, .nothing)
  | c :: rest =>
    match Head.ofText c rest with
    | .token kind length => (0, .token kind ((c :: rest).take length) ((c :: rest).drop length))
    | .truncated cause => (0, .truncated cause (c :: rest))
    | .loneSlash length => (0, .loneSlash ((c :: rest).take length) ((c :: rest).drop length))
    | .skipped =>
      let (skipped, found) := scan rest
      (skipped + 1, found)

/-- What was found, with the text after it. -/
def Found.text : Found → List Char
  | token _ lexeme rest => lexeme ++ rest
  | truncated _ lexeme => lexeme
  | loneSlash lexeme rest => lexeme ++ rest
  | nothing => []

/-- Scanning loses nothing: after the skipped characters comes what was found. -/
theorem drop_scan (text : List Char) : text.drop (scan text).1 = (scan text).2.text := by
  fun_induction scan text <;> simp_all [Found.text]

theorem scan_le (text : List Char) : (scan text).1 ≤ text.length := by
  fun_induction scan text <;> simp_all

end EmbeddedJsx
