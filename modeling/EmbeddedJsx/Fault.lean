import EmbeddedJsx.Position
import EmbeddedJsx.Token.Scan

/-!
# Why a text cannot be read

Each way in which reading fails is a constructor of `Fault`.  Its wording is given once, in
`Fault.message`.  Three families are told apart: the input may end between two tokens, it may
end inside a construct, or a token may stand where the grammar has no place for it.
-/

namespace EmbeddedJsx

/-- The three families of faults. -/
inductive Fault.Family where
  /-- The input is exhausted exactly at a token boundary. -/
  | boundary
  /-- The input is exhausted inside an unfinished construct. -/
  | truncated
  /-- The current token does not satisfy the rule in force. -/
  | unexpected
deriving DecidableEq, Repr

/-- What the grammar asks for at some point of a construct. -/
inductive Expectation where
  /-- The name of an element. -/
  | elementName
  /-- A further part of a member name. -/
  | memberPart
  /-- The second part of a namespaced element name. -/
  | localName
  /-- The name of an attribute. -/
  | attributeName
  /-- The second part of a namespaced attribute name. -/
  | attributeLocalName
  /-- What an attribute is set to. -/
  | attributeValue
  /-- The three dots of a spread attribute. -/
  | spreadDots
  /-- The identifier of a spread attribute. -/
  | spreadArgument
  /-- The right brace of a spread attribute. -/
  | spreadEnd
  /-- The `<` of an opening tag. -/
  | tagOpen
  /-- A further attribute or the end of an opening tag. -/
  | tagRest
  /-- The `</` of a closing tag. -/
  | closingOpen
  /-- The `>` of a closing tag. -/
  | closingEnd
  /-- The `<>` of a fragment. -/
  | fragmentOpen
  /-- The `</>` of a fragment. -/
  | fragmentClose
  /-- The left brace of an expression. -/
  | braceOpen
deriving DecidableEq, Repr

/-- How each expectation is worded. -/
def Expectation.message : Expectation → String
  | elementName => "expected element name"
  | memberPart => "expected identifier after '.'"
  | localName => "expected name after ':'"
  | attributeName => "expected attribute name"
  | attributeLocalName => "expected attribute name after ':'"
  | attributeValue => "expected string, '\x7b', element or fragment after '='"
  | spreadDots => "expected '...' in spread attribute"
  | spreadArgument => "expected identifier after '...'"
  | spreadEnd => "expected '\x7d' after spread attribute"
  | tagOpen => "expected '<'"
  | tagRest => "expected attribute, '>' or '/>'"
  | closingOpen => "expected '</'"
  | closingEnd => "expected '>' to end closing tag"
  | fragmentOpen => "expected '<>'"
  | fragmentClose => "expected '</>' to close fragment"
  | braceOpen => "expected '\x7b'"

/-- Why a text cannot be read. -/
inductive Fault where
  /-- A token is asked for after the end of the input has been reported. -/
  | noTokensLeft
  /-- The input ends where a token is looked for. -/
  | endOfInput
  /-- The input ends inside a token of several characters. -/
  | truncated (cause : Truncation)
  /-- A slash stands where no `>` follows. -/
  | loneSlash
  /-- The input ends inside a construct. -/
  | unfinished
  /-- The input ends among the children of an element or a fragment. -/
  | unclosed
  /-- Elements and fragments are nested beyond the limit. -/
  | tooDeep
  /-- The grammar asks for something that the current token is not. -/
  | expected (what : Expectation)
  /-- A member name is followed by a colon. -/
  | memberNamespace
  /-- A namespaced name is followed by a further colon or a dot. -/
  | secondColon
  /-- An element of the given name is closed as if it were a fragment. -/
  | fragmentCloseOf (name : String)
  /-- An element is closed under another name than it was opened. -/
  | mismatch (closing opening : String)
deriving DecidableEq, Repr

namespace Fault

/-- The family of a fault. -/
def family : Fault → Family
  | noTokensLeft | endOfInput => .boundary
  | truncated _ | unfinished | unclosed => .truncated
  | _ => .unexpected

/-- How a fault is worded. -/
def message : Fault → String
  | noTokensLeft => "no tokens left to read"
  | endOfInput => "end of input"
  | truncated .tag => "unexpected end of input in tag"
  | truncated .string => "unterminated string literal"
  | truncated .dots => "unexpected end of input after '.'"
  | loneSlash => "expected '>' after '/'"
  | unfinished => "unexpected end of input"
  | unclosed => "unexpected end of input, missing closing tag"
  | tooDeep => "markup nested too deeply"
  | expected what => what.message
  | memberNamespace => "a member expression name cannot have a namespace"
  | secondColon => "a namespaced name allows exactly one ':'"
  | fragmentCloseOf name => "expected '</" ++ name ++ ">', found '</>'"
  | mismatch closing opening =>
    "closing tag '</" ++ closing ++ ">' does not match '<" ++ opening ++ ">'"

end Fault

/-- A fault and the part of the text that it is about. -/
structure SyntaxError where
  /-- Why the text cannot be read. -/
  fault : Fault
  /-- Where the fault lies. -/
  span : Span
deriving DecidableEq, Repr

/-- The same failure seen from inside a construct: there the end of the input is a fault of the
construct. -/
def SyntaxError.inside (construct : Fault) (error : SyntaxError) : SyntaxError :=
  if error.fault.family = .boundary then { error with fault := construct } else error

end EmbeddedJsx
