/-!
# Program/Precedence — how tightly expressions bind

Every expression of the generated language has a level, from the loosest to the tightest.  A place
in a larger expression asks for a least level, and an expression below it is put in parentheses.
-/

namespace Jigsaw

/-- The binding levels of Python expressions, loosest first. -/
inductive Precedence where
  /-- Asked for where every expression may stand. -/
  | any
  /-- `lambda x: y` -/
  | lambda
  /-- `x if c else y` -/
  | conditional
  /-- `x or y` -/
  | disjunction
  /-- `x and y` -/
  | conjunction
  /-- `not x` -/
  | negation
  /-- `x < y`, `x in y`, `x is y` -/
  | comparison
  /-- `x | y` -/
  | bitOr
  /-- `x ^ y` -/
  | bitXor
  /-- `x & y` -/
  | bitAnd
  /-- `x << y` -/
  | shift
  /-- `x + y`, `x - y` -/
  | sum
  /-- `x * y`, `x / y` -/
  | product
  /-- `-x` -/
  | sign
  /-- `x ** y` -/
  | power
  /-- `x[i]`, `x.a` -/
  | member
  /-- `f(x)` -/
  | call
  /-- Names, literals and brackets. -/
  | atom
deriving DecidableEq

namespace Precedence

/-- The levels, loosest first. -/
def levels : List Precedence :=
  [any, lambda, conditional, disjunction, conjunction, negation, comparison, bitOr, bitXor, bitAnd,
   shift, sum, product, sign, power, member, call, atom]

/-- The number of levels that bind more loosely. -/
def rank : Precedence → Nat
  | any => 0
  | lambda => 1
  | conditional => 2
  | disjunction => 3
  | conjunction => 4
  | negation => 5
  | comparison => 6
  | bitOr => 7
  | bitXor => 8
  | bitAnd => 9
  | shift => 10
  | sum => 11
  | product => 12
  | sign => 13
  | power => 14
  | member => 15
  | call => 16
  | atom => 17

/-- The next tighter level; the tightest stays. -/
def tighter (p : Precedence) : Precedence := levels.getD (p.rank + 1) atom

/-- Whether an expression of one level needs parentheses where `least` is asked for. -/
def needsParens (p least : Precedence) : Bool := p.rank < least.rank

/-- The code of an expression of level `p`, fit for a place that asks for `least`. -/
def wrap (p least : Precedence) (code : String) : String :=
  if p.needsParens least then "(" ++ code ++ ")" else code

/-- A level is found at its rank. -/
theorem levels_rank (p : Precedence) : levels[p.rank]? = some p := by cases p <;> rfl

end Precedence

end Jigsaw
