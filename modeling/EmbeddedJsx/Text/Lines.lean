/-!
# Lines

Two notions of a line occur.  For counting, only the line feed ends a line.  For cutting a text
into the lines that are shown, every character that ends a line in Unicode text does so, and a
carriage return with the line feed after it is one terminator.
-/

namespace EmbeddedJsx.Text

/-- The characters that end a line when a text is cut into lines. -/
def isLineTerminator (c : Char) : Bool :=
  c == '\n' || c == '\r' || c == '\x0b' || c == '\x0c' || c == '\x1c' || c == '\x1d' ||
    c == '\x1e' || c == '\x85' || c == '\u2028' || c == '\u2029'

/-- Puts a character in front of the first line. -/
def consLine (c : Char) : List (List Char) → List (List Char)
  | [] => [[c]]
  | line :: lines => (c :: line) :: lines

/-- The lines of a text, each with its terminator. -/
def lines : List Char → List (List Char)
  | [] => []
  | '\r' :: '\n' :: rest => ['\r', '\n'] :: lines rest
  | c :: rest => if isLineTerminator c then [c] :: lines rest else consLine c (lines rest)

@[simp] theorem flatten_consLine (c : Char) (ls : List (List Char)) :
    (consLine c ls).flatten = c :: ls.flatten := by
  cases ls <;> simp [consLine]

/-- Cutting into lines loses nothing. -/
theorem flatten_lines (text : List Char) : (lines text).flatten = text := by
  fun_induction lines text <;> simp_all

/-- A line without the line feeds at its end, and without the carriage returns before those. -/
def dropNewline (line : List Char) : List Char :=
  ((line.reverse.dropWhile (· == '\n')).dropWhile (· == '\r')).reverse

/-- Writes every line end, be it `\r\n`, `\r` or `\n`, as a line feed. -/
def unifyNewlines : List Char → List Char
  | [] => []
  | '\r' :: '\n' :: rest => '\n' :: unifyNewlines rest
  | c :: rest => (if c = '\r' then '\n' else c) :: unifyNewlines rest

end EmbeddedJsx.Text
