import Jigsaw.Text.Identifier

/-!
# Name/Fresh — from names of the workspace to free identifiers

A name is any text.  Its base is an identifier near it, and the identifier it gets is the first of
`base`, `base2`, `base3`, … that is not taken.
-/

namespace Jigsaw.Name

/-- The characters that every identifier may hold. -/
def isWord (c : Char) : Bool := c.isAlphanum || c == '_'

/-- A name that is no identifier has the low line for every character that is no word character. -/
def wordChars (name : String) : List Char :=
  if Text.isIdentifier name then name.toList
  else name.toList.map fun c => if isWord c then c else '_'

/-- The identifier near a name, which may be taken. -/
def base (name : String) : String :=
  match wordChars name with
  | [] => "unnamed"
  | c :: cs => String.ofList (if c.isDigit then '_' :: c :: cs else c :: cs)

/-- The identifiers tried for a base, in order. -/
def candidate (base : String) : Nat → String
  | 0 => base
  | n + 1 => base ++ toString (n + 2)

/-- The first candidate that is not taken.  Candidates differ, so one of the first
`taken.length + 1` is free. -/
def firstFree (taken : List String) (base : String) : String :=
  match (List.range (taken.length + 1)).find? fun n => !taken.contains (candidate base n) with
  | some n => candidate base n
  | none => base

end Jigsaw.Name
