import Jigsaw.Text.Range

/-!
# Text/Blank — blank characters and trimming

Counts, number fields and whole inputs are read without the blanks around them, and an input of
blanks alone counts as empty.
-/

namespace Jigsaw.Text

/-- The blank characters: the controls from tab to carriage return, the information separators, the
spaces of every width, the next-line control and the line and paragraph separators. -/
def blanks : List (Nat × Nat) :=
  [(0x9, 0xD), (0x1C, 0x20), (0x85, 0x85), (0xA0, 0xA0), (0x1680, 0x1680), (0x2000, 0x200A),
   (0x2028, 0x2029), (0x202F, 0x202F), (0x205F, 0x205F), (0x3000, 0x3000)]

/-- Whether a character is blank. -/
def isBlank (c : Char) : Bool := inRanges blanks c

/-- The characters between the leading and the trailing blanks. -/
def trimChars (cs : List Char) : List Char :=
  ((cs.dropWhile isBlank).reverse.dropWhile isBlank).reverse

/-- The text without the blanks around it. -/
def trim (s : String) : String := String.ofList (trimChars s.toList)

/-- A text of blanks alone, the empty text included. -/
def allBlank (s : String) : Bool := s.toList.all isBlank

end Jigsaw.Text
