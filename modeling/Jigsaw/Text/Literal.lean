/-!
# Text/Literal — string literals

A text is written between double quotes on one line: the quote, the backslash and the characters
that would break the line are written as escapes, all others stand for themselves.
-/

namespace Jigsaw.Text

/-- How one character is written inside a string literal. -/
def escapeChar : Char → List Char
  | '\\' => ['\\', '\\']
  | '"' => ['\\', '"']
  | '\n' => ['\\', 'n']
  | '\t' => ['\\', 't']
  | '\r' => ['\\', 'r']
  | '\x0c' => ['\\', 'f']
  | '\x0b' => ['\\', 'v']
  | '\x00' => ['\\', 'x', '0', '0']
  | c => [c]

/-- The inside of the string literal for a text. -/
def escape (s : String) : String := String.ofList (s.toList.flatMap escapeChar)

/-- The string literal for a text. -/
def quote (s : String) : String := "\"" ++ escape s ++ "\""

end Jigsaw.Text
