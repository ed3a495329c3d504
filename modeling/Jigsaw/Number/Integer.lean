import Jigsaw.Text.Blank

/-!
# Number/Integer — integer literals and their digit limit

An integer literal is an optional minus sign and decimal digits; one line feed may follow it.
Arithmetic on literals goes through their decimal text, and text of more than `digitLimit` digits is
refused in both directions.
-/

namespace Jigsaw.Integer

/-- An ASCII digit. -/
def isDigit (c : Char) : Bool := '0' ≤ c && c ≤ '9'

/-- The number that decimal digits spell, most significant first. -/
def ofDigits (cs : List Char) : Nat :=
  cs.foldl (fun n c => 10 * n + (c.toNat - '0'.toNat)) 0

/-- Sign and digits of an integer literal. -/
structure Spelling where
  /-- Whether a minus sign stands in front. -/
  negative : Bool
  /-- The digits as written, leading zeros included. -/
  digits : List Char

/-- One digit or more, and nothing else. -/
def digits? (cs : List Char) : Option (List Char) :=
  if cs.isEmpty || !cs.all isDigit then none else some cs

/-- Sign and digits of a text that is an integer literal to its last character. -/
def spell? : List Char → Option Spelling
  | '-' :: cs => (digits? cs).map (⟨true, ·⟩)
  | cs => (digits? cs).map (⟨false, ·⟩)

/-- The text without one line feed at its end. -/
def dropLineFeed (cs : List Char) : List Char :=
  if cs.getLast? = some '\n' then cs.dropLast else cs

/-- Sign and digits of an integer literal, which a line feed may follow. -/
def spelling? (code : String) : Option Spelling := spell? (dropLineFeed code.toList)

/-- Whether a text is an integer literal. -/
def isLiteral (code : String) : Bool := (spelling? code).isSome

/-- The integer spelled. -/
def Spelling.value (s : Spelling) : Int :=
  if s.negative then -(ofDigits s.digits : Int) else ofDigits s.digits

/-- The most digits that are converted between numbers and text. -/
def digitLimit : Nat := 4300

/-- The integer that a literal denotes; none for other texts and past the digit limit, which counts
leading zeros. -/
def read? (code : String) : Option Int :=
  match spelling? code with
  | some s => if s.digits.length ≤ digitLimit then some s.value else none
  | none => none

/-- Whether the decimal text of an integer keeps to the digit limit. -/
def fits (n : Int) : Bool := n.natAbs.repr.length ≤ digitLimit

/-- The decimal text of an integer, if it keeps to the digit limit. -/
def write? (n : Int) : Option String := if fits n then some (toString n) else none

/-- The literal one below an integer literal. -/
def predecessor? (code : String) : Option String := (read? code).bind fun n => write? (n - 1)

/-- Index code counted from zero, for index code counted from one: a literal is lowered now, other
code is lowered when it runs. -/
def zeroBased (code : String) : String := (predecessor? code).getD (code ++ " - 1")

/-- The count written in a text: the blanks around it do not matter, and a text that is no literal,
has a sign or passes the digit limit counts as zero. -/
def count (raw : String) : Nat :=
  match spelling? (Text.trim raw) with
  | some ⟨false, digits⟩ => if digits.length ≤ digitLimit then ofDigits digits else 0
  | _ => 0

end Jigsaw.Integer
