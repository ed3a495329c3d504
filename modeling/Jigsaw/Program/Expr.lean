import Jigsaw.Number.Numeral
import Jigsaw.Program.Precedence
import Jigsaw.Text.Lines
import Jigsaw.Text.Literal

/-!
# Program/Expr — expressions of the generated program

The tree of an expression carries no parentheses.  `Expr.code` writes it with exactly those that the
levels of `Program/Precedence` ask for: every operand is written at the level of its place.
-/

namespace Jigsaw

/-- The operators between two operands. -/
inductive BinaryOp where
  | or | and
  | less | greater | equal | unequal | within | same
  | add | subtract | multiply | divide | power
deriving DecidableEq

namespace BinaryOp

/-- The operator as it stands between its operands. -/
def symbol : BinaryOp → String
  | or => " or "
  | and => " and "
  | less => " < "
  | greater => " > "
  | equal => " == "
  | unequal => " != "
  | within => " in "
  | same => " is "
  | add => " + "
  | subtract => " - "
  | multiply => " * "
  | divide => " / "
  | power => " ** "

/-- The level of the whole. -/
def precedence : BinaryOp → Precedence
  | or => .disjunction
  | and => .conjunction
  | less | greater | equal | unequal | within | same => .comparison
  | add | subtract => .sum
  | multiply | divide => .product
  | power => .power

/-- The level asked of the left operand: chains of `or`, of `and` and of the arithmetic operators
lean to the left, comparisons never chain, and a power binds its base tightly. -/
def left : BinaryOp → Precedence
  | or => .disjunction
  | and => .conjunction
  | less | greater | equal | unequal | within | same => Precedence.comparison.tighter
  | add | subtract => .sum
  | multiply | divide => .product
  | power => Precedence.power.tighter

/-- The level asked of the right operand: `or` and `and` are associative, and an exponent may carry
a sign. -/
def right : BinaryOp → Precedence
  | or => .disjunction
  | and => .conjunction
  | less | greater | equal | unequal | within | same => Precedence.comparison.tighter
  | add | subtract => Precedence.sum.tighter
  | multiply | divide => Precedence.product.tighter
  | power => .sign

end BinaryOp

/-- An expression of the generated program. -/
inductive Expr where
  /-- A name. -/
  | name (identifier : String)
  /-- A number literal. -/
  | numeral (value : Numeral)
  /-- The `0` that stands where a number was left out. -/
  | zero
  /-- A string literal. -/
  | text (content : String)
  /-- `True` or `False`. -/
  | truth (value : Bool)
  /-- `None` -/
  | none
  /-- `[a, b]` -/
  | list (items : List Expr)
  /-- `[element for binder in source]` -/
  | collect (element : Expr) (binder : String) (source : Expr)
  /-- `function(a, b)` -/
  | call (function : String) (arguments : List Expr)
  /-- `receiver.selector(a, b)` -/
  | method (receiver : Expr) (selector : String) (arguments : List Expr)
  /-- `receiver[index]` -/
  | item (receiver index : Expr)
  /-- `receiver[start:]` -/
  | sliceFrom (receiver start : Expr)
  /-- `receiver[:stop]` -/
  | sliceTo (receiver stop : Expr)
  /-- `receiver[start:stop]` -/
  | slice (receiver start stop : Expr)
  /-- `-operand` -/
  | negate (operand : Expr)
  /-- `not operand` -/
  | not (operand : Expr)
  /-- Two operands and an operator. -/
  | binary (op : BinaryOp) (left right : Expr)
  /-- `(lambda a, b: body)(x, y)`: the body with local names for the arguments. -/
  | letIn (parameters : List String) (arguments : List Expr) (body : Expr)

namespace Expr

/-- The integer literal of a number. -/
def int (n : Int) : Expr := .numeral (.integer n)

/-- The level of a number literal: a sign in front makes it a signed expression, and an integer
cannot be followed by a point. -/
def numeralPrecedence (n : Numeral) : Precedence :=
  if n.isNegative then .sign
  else
    match n with
    | .integer _ => .power
    | .floating _ _ => .atom

/-- The level of an expression. -/
def precedence : Expr → Precedence
  | name _ | zero | text _ | truth _ | none | list _ | collect _ _ _ => .atom
  | numeral n => numeralPrecedence n
  | call _ _ | method _ _ _ | letIn _ _ _ => .call
  | item _ _ | sliceFrom _ _ | sliceTo _ _ | slice _ _ _ => .member
  | negate _ => .sign
  | not _ => .negation
  | binary op _ _ => op.precedence

/-- The head of a lambda expression, up to its body. -/
def lambdaHead (parameters : List String) : String :=
  if parameters.isEmpty then "lambda: " else "lambda " ++ Text.joinItems parameters ++ ": "

mutual

/-- The code of an expression. -/
def code : Expr → String
  | name identifier => identifier
  | numeral value => value.text
  | zero => "0"
  | text content => Text.quote content
  | truth value => if value then "True" else "False"
  | none => "None"
  | list items => "[" ++ Text.joinItems (codes items) ++ "]"
  | collect element binder source =>
    "[" ++ element.code ++ " for " ++ binder ++ " in " ++ source.code ++ "]"
  | call function arguments => function ++ "(" ++ Text.joinItems (codes arguments) ++ ")"
  | method receiver selector arguments =>
    receiver.precedence.wrap .member receiver.code ++ "." ++ selector ++ "("
      ++ Text.joinItems (codes arguments) ++ ")"
  | item receiver index =>
    receiver.precedence.wrap .member receiver.code ++ "[" ++ index.code ++ "]"
  | sliceFrom receiver start =>
    receiver.precedence.wrap .member receiver.code ++ "[" ++ start.code ++ ":]"
  | sliceTo receiver stop =>
    receiver.precedence.wrap .member receiver.code ++ "[:" ++ stop.code ++ "]"
  | slice receiver start stop =>
    receiver.precedence.wrap .member receiver.code ++ "[" ++ start.code ++ ":" ++ stop.code ++ "]"
  | negate operand => "-" ++ operand.precedence.wrap .sign operand.code
  | not operand => "not " ++ operand.precedence.wrap .negation operand.code
  | binary op left right =>
    left.precedence.wrap op.left left.code ++ op.symbol
      ++ right.precedence.wrap op.right right.code
  | letIn parameters arguments body =>
    "(" ++ lambdaHead parameters ++ body.code ++ ")(" ++ Text.joinItems (codes arguments) ++ ")"

/-- The codes of several expressions. -/
def codes : List Expr → List String
  | [] => []
  | e :: rest => e.code :: codes rest

end

/-- The code of an expression in a place that asks for a level. -/
def codeAt (least : Precedence) (e : Expr) : String := e.precedence.wrap least e.code

/-- The index counted from zero, for an index counted from one: a literal is lowered now if its
digits allow, any other expression when it runs. -/
def zeroBased : Expr → Expr
  | numeral (.integer n) =>
    if Integer.fits n && Integer.fits (n - 1) then int (n - 1) else binary .subtract (int n) (int 1)
  | e => binary .subtract e (int 1)

end Expr

end Jigsaw
