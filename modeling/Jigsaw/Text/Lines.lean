/-!
# Text/Lines — lines and their indentation

A text is its lines, divided by line feeds.  Indenting puts one and the same text in front of every
line that holds something and leaves empty lines empty, so a body indented twice is indented by two
levels.
-/

namespace Jigsaw.Text

/-- The characters of a text with `indent` in front of every line that holds something; `atStart`
says whether the next character opens a line. -/
def indentChars (indent : List Char) (atStart : Bool) : List Char → List Char
  | [] => []
  | '\n' :: cs => '\n' :: indentChars indent true cs
  | c :: cs =>
    if atStart then indent ++ c :: indentChars indent false cs
    else c :: indentChars indent false cs

/-- `code` with `indent` in front of every line that holds something. -/
def indentLines (indent code : String) : String :=
  String.ofList (indentChars indent.toList true code.toList)

/-- Texts one after the other, with `separator` between neighbours. -/
def joinWith (separator : String) : List String → String
  | [] => ""
  | [s] => s
  | s :: rest => s ++ separator ++ joinWith separator rest

/-- Texts as consecutive lines. -/
def joinLines (lines : List String) : String := joinWith "\n" lines

/-- Texts as the items of one list. -/
def joinItems (items : List String) : String := joinWith ", " items

end Jigsaw.Text
