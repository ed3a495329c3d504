import Jigsaw.Render.Monad

/-!
# Render/Node — a block with its children ready to be rendered

The rules for the single block types do not recurse.  They see a block together with the renderings
of what is plugged into its slots, and run those as their code needs them, in their own order.
-/

namespace Jigsaw.Render

/-- The ways in which one block can be rendered. -/
structure Rendering where
  /-- The block as a value. -/
  value : RenderM Expr
  /-- The block alone as statements. -/
  statement : RenderM (List Stmt)
  /-- The statements that return the block's value. -/
  result : RenderM (List Stmt)
  /-- The block and those below it as statements. -/
  chain : RenderM (List Stmt)

/-- A block and the renderings of its children. -/
structure Node where
  /-- The block. -/
  block : Block
  /-- What is plugged in as values. -/
  values : Record Rendering
  /-- What is plugged in as statements. -/
  statements : Record Rendering

namespace Node

/-- The value in a slot, or `default` if the slot is empty. -/
def value (n : Node) (slot : String) (default : Expr) : RenderM Expr :=
  match n.values.get? slot with
  | some child => child.value
  | none => pure default

/-- The index in a slot, counted from zero; an empty slot holds the first index. -/
def index (n : Node) (slot : String) : RenderM Expr := do
  let position ← n.value slot (.int 1)
  pure position.zeroBased

/-- The values in the slots `stem0`, `stem1`, …, as many as `count`. -/
def valueList (n : Node) (stem : String) (count : Nat) (default : Expr) : RenderM (List Expr) :=
  (List.range count).mapM fun i => n.value (stem ++ toString i) default

/-- The statements of the chain in a slot; none if the slot is empty. -/
def suite (n : Node) (slot : String) : RenderM (List Stmt) :=
  match n.statements.get? slot with
  | some child => child.chain
  | none => pure []

/-- The statements that return the value in a slot. -/
def result (n : Node) (slot : String) : RenderM (List Stmt) :=
  match n.values.get? slot with
  | some child => child.result
  | none => pure [.simple (.result .none)]

end Node

end Jigsaw.Render
