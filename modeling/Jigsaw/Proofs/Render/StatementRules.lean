import Jigsaw.Proofs.Render.BlockPlan
import Jigsaw.Proofs.Render.ValueRules

/-!
# Proofs/Render/StatementRules — every block renders to its plans

The rules for statements read their slots as those for values do, and chains besides.  Each lays out
the plans of its block type; `Block.realizes_plans` puts them together by recursion on the block.
-/

namespace Jigsaw

namespace Render

open Source

/-- **The renderings carry out the plans.** -/
structure Realizes (r : Rendering) (plans : Plans) : Prop where
  statement : Renders r.statement fun v ss => Lays v plans.statement ss
  result : Renders r.result fun v ss => Lays v plans.result ss
  chain : Renders r.chain fun v ss => Lays v plans.chain ss

/-- The node and the design are of one block, and what is plugged into the node renders to the
design's trees and plans. -/
structure Carries (n : Node) (d : Design) : Prop extends Matches n d.toSketch where
  values : Record.Related Realizes n.values d.values
  statements : Record.Related Realizes n.statements d.statements

/-- **The rule of a statement type lays out the plans of the type.** -/
def LaysOut (n : Node) (d : Design) (type : StatementType) : Prop :=
  Renders (type.render n) fun v ss => Lays v (type.plan fitting d) ss

namespace Carries

variable {n : Node} {d : Design} (h : Carries n d)

include h

theorem suite (slot : String) : Renders (n.suite slot) fun v ss => Lays v (d.suite slot) ss := by
  unfold Node.suite Design.suite
  rcases h.statements.get? slot with ⟨hchild, hplans⟩ | ⟨child, plans, hchild, hplans, hrealizes⟩
  · rw [hchild, hplans]
    exact .pure fun v => .nil v
  · rw [hchild, hplans]
    exact hrealizes.chain

theorem returned (slot : String) :
    Renders (n.result slot) fun v ss => Lays v (d.result slot) ss := by
  unfold Node.result Design.result
  rcases h.values.get? slot with ⟨hchild, hplans⟩ | ⟨child, plans, hchild, hplans, hrealizes⟩
  · rw [hchild, hplans]
    exact .pure fun v => .result .none (.nil v)
  · rw [hchild, hplans]
    exact hrealizes.result

/-! ## Lists and texts -/

theorem listReplace (place replacement : String) :
    Renders (n.listReplace place replacement) fun v ss =>
      Lays v [.assignItem (d.list "LIST") (d.index fitting place) (d.slot replacement .none)] ss :=
  (h.list "LIST").bind fun _ => (h.index place).bind fun _ =>
    (h.spelled replacement fun _ => .none).bind fun _ => .pure fun v hvalue hindex htarget =>
      .assignItem htarget.toSpells hindex.toSpells hvalue (.nil v)

omit h in
/-- A call of a method on a line of its own. -/
theorem lays_callLine {v : View} {selector : String} (hselector : Expr.IsName selector)
    {t : Tree Ref} {e : Expr} (ht : SpellsValue v.naming t e) {ts : List (Tree Ref)}
    {es : List Expr} (hts : List.Forall₂ (Spells v.naming) ts es) :
    Lays v (Design.callLine t selector ts) (Node.callLine e selector es) :=
  .expr (.method ht.toSpells ht.ne_zero hselector hts) (.nil v)

theorem listAddItems : LaysOut n d .listAddItems := by
  change Renders n.listAddItems _
  unfold Node.listAddItems
  rw [h.block]
  refine (h.list "LIST").bind fun target =>
    (h.valueList "ITEM" _ fun _ => .none).bind fun items => ?_
  dsimp only [StatementType.plan]
  generalize d.slots "ITEM" (max d.block.itemCount 1) .none = ts
  match items with
  | [] =>
    refine .pure fun v hall htarget => ?_
    obtain rfl := List.forall₂_nil_right_iff.mp hall
    exact lays_callLine (by decide) htarget (.cons (.list .nil) .nil)
  | [e] =>
    refine .pure fun v hall htarget => ?_
    obtain ⟨t, _, ht, hnil, rfl⟩ := List.forall₂_cons_right_iff.mp hall
    obtain rfl := List.forall₂_nil_right_iff.mp hnil
    exact lays_callLine (by decide) htarget (.cons ht .nil)
  | e :: f :: rest =>
    refine .pure fun v hall htarget => ?_
    obtain ⟨t, _, -, htail, rfl⟩ := List.forall₂_cons_right_iff.mp hall
    obtain ⟨u, _, -, -, rfl⟩ := List.forall₂_cons_right_iff.mp htail
    exact lays_callLine (by decide) htarget (.cons (.list hall) .nil)

theorem listInsert : LaysOut n d .listInsert :=
  (h.list "LIST").bind fun _ => (h.index "INDEX").bind fun _ =>
    (h.spelled "ITEM" fun _ => .none).bind fun _ => .pure fun _ hitem hindex htarget =>
      lays_callLine (by decide) htarget (.cons hindex.toSpells (.cons hitem .nil))

theorem listRemove : LaysOut n d .listRemove :=
  (h.list "LIST").bind fun _ => (h.index "INDEX").bind fun _ => .pure fun _ hindex htarget =>
    lays_callLine (by decide) htarget (.cons hindex.toSpells .nil)

theorem listAppendList : LaysOut n d .listAppendList :=
  (h.list "LIST0").bind fun _ => (h.list "LIST1").bind fun _ => .pure fun _ hother htarget =>
    lays_callLine (by decide) htarget (.cons hother.toSpells .nil)

theorem textAppend : LaysOut n d .textAppend :=
  h.lexicalName.bind fun _ => (h.text "TEXT").bind fun _ => .pure fun v htext hx =>
    .assign hx.1 hx.2
      (SpellsValue.operation .add (spells_asText v (.name hx.1 hx.2)).toSpells
        (spells_asText v htext.toSpells).toSpells).toSpells
      (.nil v)

theorem textPrint : LaysOut n d .textPrint :=
  (h.text "TEXT").bind fun _ => .pure fun v htext =>
    .expr (spells_builtin v (by decide) (.cons htext.toSpells .nil)).toSpells (.nil v)

/-! ## Variables -/

theorem variableSet : LaysOut n d .variableSet := by
  change Renders n.variableSet _
  unfold Node.variableSet
  rw [h.block]
  exact (h.spelled "VALUE" fun _ => .zero).bind fun _ => (renders_resolve _ _ _).bind fun _ =>
    .pure fun v hx hvalue => .assign hx.1 hx.2 hvalue (.nil v)

theorem globalDeclaration : LaysOut n d .globalDeclaration := by
  change Renders n.globalDeclaration _
  unfold Node.globalDeclaration
  rw [h.block]
  exact (renders_resolveGlobal _ _ _).bind fun _ => (h.spelled "VALUE" fun _ => .zero).bind fun _ =>
    .pure fun v hvalue hx => .assign hx.1 hx.2 hvalue (.nil v)

theorem lexicalSet : LaysOut n d .lexicalSet :=
  h.lexicalName.bind fun _ => (h.spelled "VALUE" fun _ => .zero).bind fun _ =>
    .pure fun v hvalue hx => .assign hx.1 hx.2 hvalue (.nil v)

/-- Local names, with statements that know them: the first values are those of the frame outside,
the statements are laid out inside. -/
theorem declared {m : RenderM (List Stmt)} {plans : List Plan}
    (hm : Renders m fun v ss => Lays v plans ss) :
    Renders (do
        let values ← n.firstValues
        frame do
          let identifiers ← n.bindDeclared
          let body ← m
          pure (List.zipWith Node.assignLine identifiers values ++ body))
      fun v ss => Lays v
        [.declare d.block.declaredNames
          (d.slots "DECL" d.block.declaredNames.length (.integer 0)) plans] ss := by
  unfold Node.bindDeclared
  rw [h.block]
  refine h.firstValues.bind fun values => .frame fun identifiers =>
    hm.bind fun body => .pure fun w hbody v hopens hvalues => ?_
  have hlength : d.block.declaredNames.length
      = (d.slots "DECL" d.block.declaredNames.length (.integer 0)).length := by
    rw [Sketch.slots, List.length_map, List.length_range]
  have hlays := Lays.declare hvalues hlength hopens hbody (.nil v)
  rwa [List.append_nil] at hlays

theorem localStatement : LaysOut n d .localStatement := h.declared (h.suite "STACK")

/-! ## Conditionals and procedures -/

theorem clause (i : Nat) : Renders (n.clause i) fun v s => ∀ {plans ss}, Lays v plans ss →
    Lays v (d.clause i :: plans) (s :: ss) := by
  refine (h.spelled _ fun _ => .truth false).bind fun test => (h.suite _).bind fun body =>
    .pure fun v hbody htest plans ss hrest => ?_
  unfold Design.clause
  dsimp only
  split
  · exact .when htest hbody hrest
  · exact .orWhen htest hbody hrest

theorem conditional : LaysOut n d .conditional := by
  have hotherwise : n.hasOtherwise = d.hasOtherwise := by
    rw [Node.hasOtherwise, Design.hasOtherwise, h.block, h.statements.has]
  -- Each clause can stand in front of whatever follows it, and so can the row of them.
  have hrow {v : View} {plans : List Plan} {ss : List Stmt} (hrest : Lays v plans ss) :
      ∀ {is : List Nat} {clauses : List Stmt},
        List.Forall₂ (fun i s => ∀ {plans ss}, Lays v plans ss →
          Lays v (d.clause i :: plans) (s :: ss)) is clauses →
        Lays v (is.map d.clause ++ plans) (clauses ++ ss) := by
    intro is clauses hall
    induction hall with
    | nil => exact hrest
    | cons hfirst _ ih => exact hfirst ih
  change Renders n.conditional _
  unfold Node.conditional
  rw [h.block, hotherwise]
  refine (Renders.mapM h.clause _).bind fun clauses => ?_
  dsimp only [StatementType.plan]
  split
  · exact (h.suite "ELSE").bind fun body => .pure fun v hbody hclauses =>
      hrow (.otherwise hbody (.nil v)) hclauses
  · refine .pure fun v hclauses => ?_
    have hlays := hrow (.nil v) hclauses
    rwa [List.append_nil clauses] at hlays

theorem procedureDefine (returns : Bool) :
    Renders (n.procedureDefine returns) fun v ss => Lays v [d.procedure returns] ss := by
  unfold Node.procedureDefine Node.bindDeclared
  rw [h.block]
  refine (renders_resolveDefinition _ _ _).bind fun identifier =>
    renders_globalVariables.bind fun outermost => .frame fun parameters =>
      (h.suite "STACK").bind fun body => ?_
  -- What ends the body, a value that is given back or nothing, is laid out inside like the rest.
  have hends {m : RenderM (List Stmt)} {plans : List Plan}
      (hm : Renders m fun v ss => Lays v plans ss) :
      Renders (do
          let tail ← m
          let declared := if outermost.isEmpty then [] else [.simple (.globals outermost)]
          pure [.block (.define identifier parameters) (declared ++ body ++ tail)])
        fun w ss => Lays w (d.suite "STACK") body →
          ∀ v, Opens d.block.declaredNames parameters v w →
            (outermost = v.globals ∧ ∀ x ∈ outermost, Expr.IsName x) →
            v.naming (.definition (d.block.field "NAME")) = some identifier ∧
              Expr.IsName identifier →
            Lays v [.define (d.block.field "NAME") d.block.declaredNames (d.suite "STACK" ++ plans)]
              ss := by
    refine hm.bind fun tail => .pure fun w htail hbody v hopens hglobals hx => ?_
    obtain ⟨rfl, hnames⟩ := hglobals
    rw [List.append_assoc]
    exact .define hx.1 hx.2 hnames hopens (hbody.append htail) (.nil v)
  cases returns with
  | true => exact hends (h.returned "RETURN")
  | false => exact hends (.pure fun v => .nil v)

theorem procedureCallLine : LaysOut n d .procedureCall :=
  h.procedureCall.map fun v _ hcall => .expr hcall.toSpells (.nil v)

/-- **Every rule lays out its plans.** -/
theorem laysOut : ∀ type : StatementType, LaysOut n d type
  | .listSetItem => h.listReplace "AT" "TO"
  | .listAddItems => h.listAddItems
  | .listInsert => h.listInsert
  | .listReplaceItem => h.listReplace "NUM" "ITEM"
  | .listRemove => h.listRemove
  | .listAppendList => h.listAppendList
  | .textAppend => h.textAppend
  | .textPrint => h.textPrint
  | .variableSet => h.variableSet
  | .globalDeclaration => h.globalDeclaration
  | .lexicalSet => h.lexicalSet
  | .localStatement => h.localStatement
  | .conditional => h.conditional
  | .procedure => h.procedureDefine false
  | .function => h.procedureDefine true
  | .procedureCall => h.procedureCallLine

/-- The block alone as statements. -/
theorem asStatement : Renders n.asStatement fun v ss => Lays v (d.statement fitting) ss := by
  unfold Node.asStatement Design.statement Node.asValue
  rw [h.block]
  cases StatementType.ofName? d.block.type with
  | some type => exact h.laysOut type
  | none =>
    cases ValueType.ofName? d.block.type with
    | some type => exact (h.faithful type).map fun v _ he => .expr he.toSpells (.nil v)
    | none => exact (Renders.throw _).map fun _ _ hfalse => hfalse

/-- The statements that return the block's value. -/
theorem asResult : Renders n.asResult fun v ss => Lays v (d.asResult fitting) ss := by
  have hvalue (type : ValueType) : Renders (do
      let value ← type.render n
      pure [.simple (.result value)])
      fun v ss => Lays v [.result (type.tree fitting d.toSketch)] ss :=
    (h.faithful type).bind fun _ => .pure fun v he => .result he.toSpells (.nil v)
  unfold Node.asResult Design.asResult Node.asValue
  rw [h.block]
  cases ValueType.ofName? d.block.type with
  | none => exact (Renders.throw _).bind fun _ => .pure fun _ hfalse => hfalse
  | some type =>
    by_cases hlocal : type = .localExpression
    · subst hlocal
      exact h.declared (h.returned "RETURN")
    · cases type with
      | localExpression => exact absurd rfl hlocal
      | _ => exact hvalue _

end Carries

end Render

open Render

/-! ## Blocks -/

mutual

/-- **The renderings of a block carry out its plans.** -/
theorem Block.realizes_plans : ∀ b : Block, Realizes b.rendering (b.plans fitting)
  | .mk type id fields values statements next mutation => by
      let b : Block := .mk type id fields values statements next mutation
      have h : Carries b.node (b.design fitting) :=
        ⟨⟨rfl, slots_depict_trees values⟩, slots_realize_plans values,
          slots_realize_plans statements⟩
      exact ⟨h.asStatement, h.asResult, h.asStatement.bind fun _ =>
        (below_lays_plans next).bind fun _ => .pure fun _ hbelow hown => hown.append hbelow⟩
termination_by structural b => b

/-- …and so do those of the blocks in slots, -/
theorem slots_realize_plans : ∀ slots : List (String × Block),
    Record.Related Realizes (slotRenderings slots) (slotPlans fitting slots)
  | [] => .nil
  | (_, child) :: rest => .cons ⟨rfl, child.realizes_plans⟩ (slots_realize_plans rest)
termination_by structural slots => slots

/-- …and those of the chain below. -/
theorem below_lays_plans : ∀ below : Option Block,
    Renders (chainBelow below) fun v ss => Lays v (plansBelow fitting below) ss
  | none => .pure fun v => .nil v
  | some below => below.realizes_plans.chain
termination_by structural below => below

end

end Jigsaw
