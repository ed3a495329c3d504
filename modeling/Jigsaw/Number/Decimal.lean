import Jigsaw.Number.Integer
import Jigsaw.Text.Digit

/-!
# Number/Decimal — decimal numbers as written

A decimal is a sign, a coefficient and a power of ten.  Its text is digits with an optional point
and an optional exponent; single low lines may divide digits, and the digits of every script count.
-/

namespace Jigsaw

/-- `coefficient · 10 ^ exponent`, with a sign that zero keeps too. -/
structure Decimal where
  /-- Whether a minus sign stands in front. -/
  negative : Bool
  /-- The digits without the point. -/
  coefficient : Nat
  /-- The power of ten that scales the coefficient. -/
  exponent : Int
deriving DecidableEq

namespace Decimal

/-- A digit of whatever script as the ASCII digit of its value; other characters stay. -/
def plainDigit (c : Char) : Char :=
  match Text.digitValue? c with
  | some v => Char.ofNat ('0'.toNat + v)
  | none => c

/-- The text without the low lines between digits; none if a low line stands elsewhere.  `last` is
the character before the rest. -/
def joinGroups (last : Char) : List Char → Option (List Char)
  | [] => some []
  | '_' :: c :: cs =>
    if Integer.isDigit last && Integer.isDigit c then (joinGroups c cs).map (c :: ·) else none
  | c :: cs => if c = '_' then none else (joinGroups c cs).map (c :: ·)

/-- A sign, if there is one, and the rest: true for minus. -/
def sign : List Char → Bool × List Char
  | '-' :: cs => (true, cs)
  | '+' :: cs => (false, cs)
  | cs => (false, cs)

/-- The exponent after the coefficient: nothing, or `e`, a sign and digits. -/
def exponent? : List Char → Option Int
  | [] => some 0
  | c :: cs =>
    if c = 'e' || c = 'E' then
      let (negative, digits) := sign cs
      (Integer.digits? digits).map fun ds =>
        if negative then -(Integer.ofDigits ds : Int) else Integer.ofDigits ds
    else none

/-- The digits after the point, if a point comes, and the rest. -/
def fraction : List Char → List Char × List Char
  | '.' :: cs => (cs.takeWhile Integer.isDigit, cs.dropWhile Integer.isDigit)
  | cs => ([], cs)

/-- A decimal in ASCII digits and without low lines. -/
def plain? (cs : List Char) : Option Decimal :=
  let (negative, body) := sign cs
  let whole := body.takeWhile Integer.isDigit
  let (part, rest) := fraction (body.dropWhile Integer.isDigit)
  if whole.isEmpty && part.isEmpty then none
  else
    (exponent? rest).map fun e =>
      { negative, coefficient := Integer.ofDigits (whole ++ part), exponent := e - part.length }

/-- The decimal that a text spells. -/
def read? (cs : List Char) : Option Decimal :=
  (joinGroups ' ' (cs.map plainDigit)).bind plain?

end Decimal

end Jigsaw
