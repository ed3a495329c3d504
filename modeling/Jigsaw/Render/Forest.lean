import Jigsaw.Render.BlockType

/-!
# Render/Forest — rendering whole workspaces

`Block.rendering` gives every block its renderings from those of its children.  A workspace is
rendered in two rounds: the first binds all globals and procedures, wherever they stand, the second
renders the top-level chains.
-/

namespace Jigsaw

open Render

mutual

/-- The renderings of a block. -/
def Block.rendering : Block → Rendering
  | .mk type id fields values statements next mutation =>
    let node : Node :=
      { block := .mk type id fields values statements next mutation
        values := slotRenderings values
        statements := slotRenderings statements }
    { value := node.asValue
      statement := node.asStatement
      result := node.asResult
      chain := do
        let own ← node.asStatement
        let below ← chainBelow next
        pure (own ++ below) }
termination_by structural b => b

/-- The renderings of the blocks in slots. -/
def slotRenderings : List (String × Block) → Record Rendering
  | [] => []
  | (slot, child) :: rest => (slot, child.rendering) :: slotRenderings rest
termination_by structural slots => slots

/-- The statements of the chain below a block. -/
def chainBelow : Option Block → RenderM (List Stmt)
  | none => pure []
  | some below => below.rendering.chain
termination_by structural below => below

end

/-- The block with the renderings of its children. -/
def Block.node (b : Block) : Node :=
  { block := b
    values := slotRenderings b.values
    statements := slotRenderings b.statements }

/-! ## Declarations -/

/-- Binds what one block declares for the whole program. -/
def Block.declareOwn (b : Block) : RenderM Unit :=
  match b.type with
  | "global_declaration" => bindGlobal (b.field "NAME") .ofVariable
  | "variables_get" | "variables_set" => bindGlobal (b.field "VAR") .ofVariable
  | "procedures_defnoreturn" | "procedures_defreturn" =>
    bindGlobal (b.field "NAME") .ofProcedure
  | _ => pure ()

mutual

/-- Binds what a block, its children and the blocks below it declare for the whole program. -/
def Block.declare : Block → RenderM Unit
  | .mk type id fields values statements next mutation => do
    Block.declareOwn (.mk type id fields values statements next mutation)
    declareSlots values
    declareSlots statements
    declareBelow next
termination_by structural b => b

/-- The declarations of the blocks in slots. -/
def declareSlots : List (String × Block) → RenderM Unit
  | [] => pure ()
  | (_, child) :: rest => do
    child.declare
    declareSlots rest
termination_by structural slots => slots

/-- The declarations of the chain below a block. -/
def declareBelow : Option Block → RenderM Unit
  | none => pure ()
  | some below => below.declare
termination_by structural below => below

end

namespace Forest

/-- Binds what the blocks of a forest declare for the whole program. -/
def declare (forest : Forest) : RenderM Unit := forest.forM Block.declare

/-- The parts of a program, one for each top-level chain that leaves something to write. -/
def parts (forest : Forest) : RenderM (List (List Stmt)) := do
  let chains ← forest.mapM fun b => b.rendering.chain
  pure (chains.filter fun part => !part.isEmpty)

/-- The program of a forest. -/
def program (indent : String) (forest : Forest) : RenderM String := do
  Forest.declare forest
  let parts ← Forest.parts forest
  let pass ← get
  pure (pass.library.assemble (Stmt.partsCode indent parts))

/-- The text of the program of a forest. -/
def generate (indent : String) (forest : Forest) : Except Error String :=
  ((Forest.program indent forest).runOn {}).1

end Forest

/-! ## Code of single blocks and slots -/

namespace Render

/-- The code of a block as a value, with its level. -/
def expressionCode (b : Block) : RenderM (String × Precedence) := do
  let e ← b.rendering.value
  pure (e.code, e.precedence)

/-- The code of a block alone as statements. -/
def statementCode (indent : String) (b : Block) : RenderM String :=
  Stmt.suiteCode indent <$> b.rendering.statement

/-- The code of a block and those below it. -/
def chainCode (indent : String) (b : Block) : RenderM String :=
  Stmt.suiteCode indent <$> b.rendering.chain

/-- The code of the value in a slot, for a place that asks for a level; `default` as it stands if
the slot is empty. -/
def valueCode (b : Block) (slot : String) (least : Precedence) (default : String) :
    RenderM String :=
  match b.values.get? slot with
  | some child => Expr.codeAt least <$> child.rendering.value
  | none => pure default

/-- The code of the chain in a slot, empty if the slot is. -/
def suiteCode (indent : String) (b : Block) (slot : String) : RenderM String :=
  match b.statements.get? slot with
  | some child => chainCode indent child
  | none => pure ""

/-- The code of the index in a slot, counted from zero. -/
def indexCode (b : Block) (slot default : String) : RenderM String :=
  Integer.zeroBased <$> valueCode b slot .sum default

/-- The level of index code. -/
def indexPrecedence (code : String) : Precedence :=
  match Integer.spelling? code with
  | some s => if s.negative then .sign else .atom
  | none => .sum

/-- A body one level deeper; an empty body is written `pass`. -/
def bodyCode (indent code : String) : String :=
  Text.indentLines indent (if Text.allBlank code then "pass" else code)

end Render

end Jigsaw
