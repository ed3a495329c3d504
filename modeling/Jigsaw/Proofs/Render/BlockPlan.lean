import Jigsaw.Proofs.Render.Realize
import Jigsaw.Render.Forest

/-!
# Proofs/Render/BlockPlan — the statements that a block stands for

A plan is a statement as the workspace gives it: its expressions are trees of references, and a
local declaration keeps its names, its first values and the statements in which the names are known.
`Block.plans` reads a block as statements, as the statements that return its value, and together
with the blocks below it.  `Lays v plans ss` says that the statements `ss` carry out the plans,
where `v` is the view they are written in.
-/

namespace Jigsaw

open Source

/-- A statement as the workspace gives it. -/
inductive Plan where
  /-- An expression on a line of its own. -/
  | expr (value : Tree Ref)
  /-- A value for a variable. -/
  | assign (target : Ref) (value : Tree Ref)
  /-- A value for an item. -/
  | assignItem (receiver index value : Tree Ref)
  /-- The value that is given back. -/
  | result (value : Tree Ref)
  /-- The first condition of a conditional. -/
  | when (test : Tree Ref) (body : List Plan)
  /-- A further condition. -/
  | orWhen (test : Tree Ref) (body : List Plan)
  /-- What is done if no condition holds. -/
  | otherwise (body : List Plan)
  /-- A procedure with its parameters. -/
  | define (name : String) (parameters : List String) (body : List Plan)
  /-- Local names with their first values, and the statements that know them. -/
  | declare (names : List String) (values : List (Tree Ref)) (body : List Plan)

/-- The statements that one block stands for. -/
structure Plans where
  /-- The block alone. -/
  statement : List Plan
  /-- The statements that return the block's value. -/
  result : List Plan
  /-- The block and those below it. -/
  chain : List Plan

namespace Render

/-- A block with the trees and the plans of what is plugged into it. -/
structure Design extends Sketch where
  /-- The plans of the values. -/
  values : Record Plans
  /-- The plans of the chains. -/
  statements : Record Plans

namespace Design

/-- The statements of the chain in a slot; none if the slot is empty. -/
def suite (d : Design) (slot : String) : List Plan :=
  match d.statements.get? slot with
  | some plans => plans.chain
  | none => []

/-- The statements that return the value in a slot. -/
def result (d : Design) (slot : String) : List Plan :=
  match d.values.get? slot with
  | some plans => plans.result
  | none => [.result .none]

/-- The `i`-th condition of a conditional with its suite. -/
def clause (d : Design) (i : Nat) : Plan :=
  let test := d.slot ("IF" ++ toString i) (.truth false)
  let body := d.suite ("DO" ++ toString i)
  if i = 0 then .when test body else .orWhen test body

/-- Whether a conditional has a last clause without a condition. -/
def hasOtherwise (d : Design) : Bool :=
  d.block.mutation.get? "else" = some "1" || d.statements.has "ELSE"

/-- A procedure with its body. -/
def procedure (d : Design) (returns : Bool) : Plan :=
  .define (d.block.field "NAME") d.block.declaredNames
    (d.suite "STACK" ++ if returns then d.result "RETURN" else [])

/-- A call of a method of a list. -/
def callLine (receiver : Tree Ref) (selector : String) (arguments : List (Tree Ref)) :
    List Plan := [.expr (.method receiver selector arguments)]

end Design

/-- The statements of a block of a statement type. -/
def StatementType.plan (lowers : Int → Bool) (d : Design) : StatementType → List Plan
  | .listSetItem =>
    [.assignItem (d.list "LIST") (d.index lowers "AT") (d.slot "TO" .none)]
  | .listAddItems =>
    match d.slots "ITEM" (max d.block.itemCount 1) .none with
    | [t] => Design.callLine (d.list "LIST") "append" [t]
    | ts => Design.callLine (d.list "LIST") "extend" [.list ts]
  | .listInsert =>
    Design.callLine (d.list "LIST") "insert" [d.index lowers "INDEX", d.slot "ITEM" .none]
  | .listReplaceItem =>
    [.assignItem (d.list "LIST") (d.index lowers "NUM") (d.slot "ITEM" .none)]
  | .listRemove => Design.callLine (d.list "LIST") "pop" [d.index lowers "INDEX"]
  | .listAppendList => Design.callLine (d.list "LIST0") "extend" [d.list "LIST1"]
  | .textAppend =>
    [.assign d.lexicalRef
      (.binary .add (.builtin "str" [.name d.lexicalRef]) (.builtin "str" [d.text "TEXT"]))]
  | .textPrint => [.expr (.builtin "print" [d.text "TEXT"])]
  | .variableSet => [.assign (.nearest (d.block.field "VAR")) (d.slot "VALUE" (.integer 0))]
  | .globalDeclaration =>
    [.assign (.outermost (d.block.field "NAME")) (d.slot "VALUE" (.integer 0))]
  | .lexicalSet => [.assign d.lexicalRef (d.slot "VALUE" (.integer 0))]
  | .localStatement =>
    [.declare d.block.declaredNames (d.slots "DECL" d.block.declaredNames.length (.integer 0))
      (d.suite "STACK")]
  | .conditional =>
    (List.range (d.block.count "elseif" + 1)).map d.clause
      ++ if d.hasOtherwise then [.otherwise (d.suite "ELSE")] else []
  | .procedure => [d.procedure false]
  | .function => [d.procedure true]
  | .procedureCall => [.expr (ValueType.procedureCall.tree lowers d.toSketch)]

namespace Design

/-- The block alone as statements; a value stands on a line of its own. -/
def statement (lowers : Int → Bool) (d : Design) : List Plan :=
  match StatementType.ofName? d.block.type with
  | some type => type.plan lowers d
  | none =>
    match ValueType.ofName? d.block.type with
    | some type => [.expr (type.tree lowers d.toSketch)]
    | none => []

/-- The statements that return the block's value: those of a local declaration come first. -/
def asResult (lowers : Int → Bool) (d : Design) : List Plan :=
  match ValueType.ofName? d.block.type with
  | some .localExpression =>
    [.declare d.block.declaredNames (d.slots "DECL" d.block.declaredNames.length (.integer 0))
      (d.result "RETURN")]
  | some type => [.result (type.tree lowers d.toSketch)]
  | none => []

end Design

end Render

open Render

mutual

/-- **The statements of a block.** -/
def Block.plans (lowers : Int → Bool) : Block → Plans
  | .mk type id fields values statements next mutation =>
    let d : Design :=
      { block := .mk type id fields values statements next mutation
        trees := slotTrees lowers values
        values := slotPlans lowers values
        statements := slotPlans lowers statements }
    { statement := d.statement lowers
      result := d.asResult lowers
      chain := d.statement lowers ++ plansBelow lowers next }
termination_by structural b => b

/-- The plans of the blocks in slots. -/
def slotPlans (lowers : Int → Bool) : List (String × Block) → Record Plans
  | [] => []
  | (slot, child) :: rest => (slot, child.plans lowers) :: slotPlans lowers rest
termination_by structural slots => slots

/-- The statements of the chain below a block. -/
def plansBelow (lowers : Int → Bool) : Option Block → List Plan
  | none => []
  | some below => (below.plans lowers).chain
termination_by structural below => below

end

/-- The block with the trees and the plans of its children. -/
def Block.design (lowers : Int → Bool) (b : Block) : Design :=
  { toSketch := b.sketch lowers
    values := slotPlans lowers b.values
    statements := slotPlans lowers b.statements }

namespace Render

/-! ## Statements that carry out plans -/

/-- The line that declares the global variables, if there are any. -/
def globalsLine (v : View) : List Stmt :=
  if v.globals.isEmpty then [] else [.simple (.globals v.globals)]

/-- **The statements carry out the plans.**  Expressions spell their trees; a local declaration is
flattened into its assignments and its body, which is written in the view inside. -/
inductive Lays : View → List Plan → List Stmt → Prop
  | nil (v : View) : Lays v [] []
  | expr {v : View} {t : Tree Ref} {e : Expr} {plans : List Plan} {ss : List Stmt}
      (h : Spells v.naming t e) (hrest : Lays v plans ss) :
      Lays v (.expr t :: plans) (.simple (.expr e) :: ss)
  | assign {v : View} {r : Ref} {x : String} {t : Tree Ref} {e : Expr} {plans : List Plan}
      {ss : List Stmt} (hr : v.naming r = some x) (hx : Expr.IsName x) (h : Spells v.naming t e)
      (hrest : Lays v plans ss) :
      Lays v (.assign r t :: plans) (.simple (.assign x e) :: ss)
  | assignItem {v : View} {t u w : Tree Ref} {e f g : Expr} {plans : List Plan} {ss : List Stmt}
      (he : Spells v.naming t e) (hf : Spells v.naming u f) (hg : Spells v.naming w g)
      (hrest : Lays v plans ss) :
      Lays v (.assignItem t u w :: plans) (.simple (.assignItem e f g) :: ss)
  | result {v : View} {t : Tree Ref} {e : Expr} {plans : List Plan} {ss : List Stmt}
      (h : Spells v.naming t e) (hrest : Lays v plans ss) :
      Lays v (.result t :: plans) (.simple (.result e) :: ss)
  | when {v : View} {t : Tree Ref} {e : Expr} {body plans : List Plan} {bs ss : List Stmt}
      (h : Spells v.naming t e) (hbody : Lays v body bs) (hrest : Lays v plans ss) :
      Lays v (.when t body :: plans) (.block (.when e) bs :: ss)
  | orWhen {v : View} {t : Tree Ref} {e : Expr} {body plans : List Plan} {bs ss : List Stmt}
      (h : Spells v.naming t e) (hbody : Lays v body bs) (hrest : Lays v plans ss) :
      Lays v (.orWhen t body :: plans) (.block (.orWhen e) bs :: ss)
  | otherwise {v : View} {body plans : List Plan} {bs ss : List Stmt} (hbody : Lays v body bs)
      (hrest : Lays v plans ss) :
      Lays v (.otherwise body :: plans) (.block .otherwise bs :: ss)
  | define {v w : View} {name x : String} {parameters identifiers : List String}
      {body plans : List Plan} {bs ss : List Stmt} (hr : v.naming (.definition name) = some x)
      (hx : Expr.IsName x) (hglobals : ∀ y ∈ v.globals, Expr.IsName y)
      (hopens : Opens parameters identifiers v w) (hbody : Lays w body bs)
      (hrest : Lays v plans ss) :
      Lays v (.define name parameters body :: plans)
        (.block (.define x identifiers) (globalsLine v ++ bs) :: ss)
  | declare {v w : View} {names identifiers : List String} {ts : List (Tree Ref)}
      {es : List Expr} {body plans : List Plan} {bs ss : List Stmt}
      (hvalues : List.Forall₂ (Spells v.naming) ts es) (hlength : names.length = ts.length)
      (hopens : Opens names identifiers v w) (hbody : Lays w body bs) (hrest : Lays v plans ss) :
      Lays v (.declare names ts body :: plans)
        (List.zipWith Node.assignLine identifiers es ++ bs ++ ss)

theorem Lays.append {v : View} {plans more : List Plan} {ss tt : List Stmt}
    (h : Lays v plans ss) (hmore : Lays v more tt) : Lays v (plans ++ more) (ss ++ tt) := by
  induction h with
  | nil v => exact hmore
  | expr h _ ih => exact .expr h (ih hmore)
  | assign hr hx h _ ih => exact .assign hr hx h (ih hmore)
  | assignItem he hf hg _ ih => exact .assignItem he hf hg (ih hmore)
  | result h _ ih => exact .result h (ih hmore)
  | when h hbody _ _ ih => exact .when h hbody (ih hmore)
  | orWhen h hbody _ _ ih => exact .orWhen h hbody (ih hmore)
  | otherwise hbody _ _ ih => exact .otherwise hbody (ih hmore)
  | define hr hx hglobals hopens hbody _ _ ih =>
    exact .define hr hx hglobals hopens hbody (ih hmore)
  | declare hvalues hlength hopens hbody _ _ ih =>
    rw [List.append_assoc]
    exact .declare hvalues hlength hopens hbody (ih hmore)

end Render

end Jigsaw
