import Jigsaw.Number.Layout

/-!
# Number/Numeral — the numbers of a program

The text of a number field becomes an integer of any size or a floating point number.  A text that
is neither, and a number past the floating point range, becomes the integer zero.
-/

namespace Jigsaw

/-- A number literal of a program. -/
inductive Numeral where
  /-- An integer. -/
  | integer (value : Int)
  /-- A floating point number; zero has a sign too. -/
  | floating (negative : Bool) (magnitude : Binary64)
deriving DecidableEq

namespace Numeral

/-- The number that a trimmed text spells. -/
def ofChars (cs : List Char) : Numeral :=
  match Integer.spell? cs with
  | some s => .integer s.value
  | none =>
    match Decimal.read? cs with
    | none => .integer 0
    | some d =>
      match Binary64.ofDecimal? d.coefficient d.exponent with
      | some x => .floating d.negative x
      | none => .integer 0

/-- The number that a field's text spells, without the blanks around it. -/
def ofText (raw : String) : Numeral := ofChars (Text.trimChars raw.toList)

/-- The literal of a number. -/
def text : Numeral → String
  | .integer n => toString n
  | .floating negative x => if negative then "-" ++ x.text else x.text

/-- Whether the literal starts with a minus sign. -/
def isNegative : Numeral → Bool
  | .integer n => n < 0
  | .floating negative _ => negative

end Numeral

end Jigsaw
