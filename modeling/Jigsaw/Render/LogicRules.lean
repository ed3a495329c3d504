import Jigsaw.Render.Node

/-!
# Render/LogicRules — rules for numbers, truth values and conditionals
-/

namespace Jigsaw.Render.Node

/-- A number literal. -/
def number (n : Node) : Expr := .numeral (.ofText (n.block.fieldOr "NUM" "0"))

/-- The arithmetic operator that a field names. -/
def arithmeticOp : String → BinaryOp
  | "MINUS" => .subtract
  | "MULTIPLY" => .multiply
  | "DIVIDE" => .divide
  | "POWER" => .power
  | _ => .add

/-- An arithmetic operation. -/
def arithmetic (n : Node) : RenderM Expr := do
  let left ← n.value "A" .zero
  let right ← n.value "B" .zero
  pure (.binary (arithmeticOp (n.block.field "OP")) left right)

/-- A truth literal. -/
def truth (n : Node) : Expr := .truth (n.block.field "BOOL" = "TRUE")

/-- The opposite of a truth value. -/
def negation (n : Node) : RenderM Expr := do
  let operand ← n.value "BOOL" (.truth true)
  pure (.not operand)

/-- A conjunction or a disjunction. -/
def logic (n : Node) : RenderM Expr := do
  let left ← n.value "A" (.truth false)
  let right ← n.value "B" (.truth false)
  pure (.binary (if n.block.field "OP" = "OR" then .or else .and) left right)

/-- The `i`-th condition of a conditional with its suite. -/
def clause (n : Node) (i : Nat) : RenderM Stmt := do
  let test ← n.value ("IF" ++ toString i) (.truth false)
  let body ← n.suite ("DO" ++ toString i)
  pure (.block (if i = 0 then .when test else .orWhen test) body)

/-- Whether a conditional has a last clause without a condition. -/
def hasOtherwise (n : Node) : Bool :=
  n.block.mutation.get? "else" = some "1" || n.statements.has "ELSE"

/-- A conditional: as many clauses as the mutation asks for. -/
def conditional (n : Node) : RenderM (List Stmt) := do
  let clauses ← (List.range (n.block.count "elseif" + 1)).mapM n.clause
  if n.hasOtherwise then
    let body ← n.suite "ELSE"
    pure (clauses ++ [.block .otherwise body])
  else pure clauses

end Jigsaw.Render.Node
