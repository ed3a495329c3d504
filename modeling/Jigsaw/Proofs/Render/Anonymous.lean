import Jigsaw.Proofs.Render.IndexCode
import Jigsaw.Proofs.Render.Tour

/-!
# Proofs/Render/Anonymous — what a rule makes of blocks that it cannot tell apart

The id of a block shows in errors only, so two renderings are compared up to ids: `Alike` says that
they end with the same outcome and the same pass, or with errors that differ in the id at most.

A rule sees the type, the fields and the mutation of its block, and those slots that the course of
its type reads.  Let one block have the face of another, with a content of its own
(`Block.recast`).  If the slots that are read hold what renders alike, the rule ends alike on both
(`ValueType.agrees`, `StatementType.agrees`).  The rules of item selection, of calls and of
conditionals also look at which slots are there.
-/

namespace Jigsaw

namespace Render

/-! ## Errors without ids -/

/-- A site without the id of its block. -/
def Site.anonymous (s : Site) : Site := { s with blockId := "" }

/-- An error without the id of its block: its class, its text, the type and the slot remain, and
the name and the kind of a reference. -/
def Error.anonymous : Error → Error
  | general text site => general text site.anonymous
  | unsupported text site => unsupported text site.anonymous
  | unresolved reference site => unresolved reference site.anonymous
  | oversizedInteger => oversizedInteger

/-- A step whose errors name no ids. -/
def RenderM.anonymous {α : Type} (m : RenderM α) : RenderM α := fun p =>
  match m p with
  | .ok a q => .ok a q
  | .error e q => .error e.anonymous q

/-- **Two steps end alike on every pass**, up to the ids in their errors. -/
def Alike {α : Type} (s t : RenderM α) : Prop := s.anonymous = t.anonymous

theorem anonymous_of_ok {α : Type} {m : RenderM α} {p q : Pass} {a : α} (h : m p = .ok a q) :
    m.anonymous p = .ok a q := by rw [RenderM.anonymous, h]

theorem anonymous_of_error {α : Type} {m : RenderM α} {p q : Pass} {e : Error}
    (h : m p = .error e q) : m.anonymous p = .error e.anonymous q := by rw [RenderM.anonymous, h]

theorem anonymous_bind {α β : Type} (m : RenderM α) (f : α → RenderM β) :
    (m >>= f).anonymous = m.anonymous >>= fun a => (f a).anonymous := by
  funext p
  cases h : m p with
  | ok a q =>
    rw [bind_of_ok (anonymous_of_ok h), RenderM.anonymous, bind_of_ok h]
    rfl
  | error e q => rw [bind_of_error (anonymous_of_error h), anonymous_of_error (bind_of_error h)]

theorem anonymous_frame {α : Type} (m : RenderM α) : (frame m).anonymous = frame m.anonymous := by
  funext p
  cases h : m { p with scope := p.scope.push } with
  | ok a q =>
    have hframe : frame m p = .ok a { q with scope := q.scope.pop } := by rw [frame_eq, h]
    rw [anonymous_of_ok hframe, frame_eq, anonymous_of_ok h]
  | error e q =>
    have hframe : frame m p = .error e { q with scope := q.scope.pop } := by rw [frame_eq, h]
    rw [anonymous_of_error hframe, frame_eq, anonymous_of_error h]

namespace Alike

variable {α β : Type}

protected theorem refl (m : RenderM α) : Alike m m := rfl

theorem bind {s t : RenderM α} {f g : α → RenderM β} (h : Alike s t)
    (hf : ∀ a, Alike (f a) (g a)) : Alike (s >>= f) (t >>= g) := by
  rw [Alike, anonymous_bind, anonymous_bind, h, funext hf]

theorem map {s t : RenderM α} (h : Alike s t) (f : α → β) : Alike (f <$> s) (f <$> t) := by
  rw [map_eq_pure_bind, map_eq_pure_bind]
  exact h.bind fun _ => .refl _

theorem mapM {f g : α → RenderM β} : ∀ {l : List α}, (∀ a ∈ l, Alike (f a) (g a)) →
    Alike (l.mapM f) (l.mapM g)
  | [], _ => rfl
  | a :: rest, h => by
      rw [List.mapM_cons, List.mapM_cons]
      exact (h a List.mem_cons_self).bind fun _ =>
        (mapM fun c hc => h c (List.mem_cons_of_mem _ hc)).bind fun _ => .refl _

theorem frame {s t : RenderM α} (h : Alike s t) : Alike (frame s) (frame t) := by
  rw [Alike, anonymous_frame, anonymous_frame, h]

theorem throw {e e' : Error} (h : e.anonymous = e'.anonymous) :
    Alike (throw e : RenderM α) (throw e') := by
  funext p
  change EStateM.Result.error e.anonymous p = .error e'.anonymous p
  rw [h]

end Alike

end Render

/-! ## Faces and contents -/

open Render

/-- The type, the fields and the mutation of one block with the id, the slots and what stands below
of another. -/
def Block.recast (face content : Block) : Block :=
  .mk face.type content.id face.fields content.values content.statements content.next face.mutation

theorem Block.count_recast (b c : Block) (name : String) :
    (b.recast c).count name = b.count name := by
  unfold Block.count Block.recast
  rfl

/-- What stands in a slot of a block. -/
def Block.slot? (b : Block) : Position → String → Option Block
  | .value, slot => b.values.get? slot
  | .statement, slot => b.statements.get? slot

/-- The blocks render alike in a position. -/
def Block.Alike : Position → Block → Block → Prop
  | .value, b, c => Render.Alike b.rendering.value c.rendering.value ∧
      Render.Alike b.rendering.result c.rendering.result
  | .statement, b, c => Render.Alike b.rendering.chain c.rendering.chain

namespace Render

/-- In both blocks the slot holds what renders alike, or nothing. -/
def SlotAlike (b c : Block) (position : Position) (slot : String) : Prop :=
  (b.slot? position slot = none ∧ c.slot? position slot = none) ∨
    ∃ child child', b.slot? position slot = some child ∧ c.slot? position slot = some child' ∧
      child.Alike position child'

namespace SlotAlike

variable {b c : Block} {position : Position} {slot : String}

/-- What is made of the slot ends alike, if what is made of its block does. -/
theorem elim {α : Type} (h : SlotAlike b c position slot) (d : RenderM α) {f : Block → RenderM α}
    (hf : ∀ {child child'}, child.Alike position child' → Alike (f child) (f child')) :
    Alike ((b.slot? position slot).elim d f) ((c.slot? position slot).elim d f) := by
  rcases h with ⟨hb, hc⟩ | ⟨child, child', hb, hc, halike⟩
  · rw [hb, hc]
    exact .refl d
  · rw [hb, hc]
    exact hf halike

end SlotAlike

theorem node_value_eq (b : Block) (slot : String) (d : Expr) :
    b.node.value slot d
      = (b.slot? .value slot).elim (pure d) fun child => child.rendering.value := by
  change _ = (b.values.get? slot).elim _ _
  unfold Node.value Block.node
  rw [slotRenderings_eq, Record.get?_mapValues]
  cases b.values.get? slot <;> rfl

theorem node_result_eq (b : Block) (slot : String) :
    b.node.result slot = (b.slot? .value slot).elim (pure [.simple (.result .none)])
      fun child => child.rendering.result := by
  change _ = (b.values.get? slot).elim _ _
  unfold Node.result Block.node
  rw [slotRenderings_eq, Record.get?_mapValues]
  cases b.values.get? slot <;> rfl

theorem node_suite_eq (b : Block) (slot : String) :
    b.node.suite slot
      = (b.slot? .statement slot).elim (pure []) fun child => child.rendering.chain := by
  change _ = (b.statements.get? slot).elim _ _
  unfold Node.suite Block.node
  rw [slotRenderings_eq b.statements, Record.get?_mapValues]
  cases b.statements.get? slot <;> rfl

/-! ## Slots

A rule reads slot after slot.  As in a course, the lemmas are about a slot together with the rest of
the rule. -/

/-- **The steps end alike if the slots of a course hold what renders alike.** -/
def AlikeGiven {α : Type} (b c : Block) (uses : List Use) (s t : RenderM α) : Prop :=
  (∀ u ∈ uses, SlotAlike b c u.position u.slot) → Alike s t

namespace AlikeGiven

variable {α β : Type} {b c : Block} {uses more : List Use}

theorem of_alike {s t : RenderM α} (h : Alike s t) : AlikeGiven b c uses s t := fun _ => h

theorem pure (a : α) : AlikeGiven b c uses (pure a) (pure a) := of_alike (.refl _)

/-- The value in a slot, -/
theorem slot (slot : String) (declared : List String) (d : Expr) :
    AlikeGiven b c [⟨.value, slot, declared⟩] (b.node.value slot d)
      ((b.recast c).node.value slot d) := by
  intro h
  rw [node_value_eq, node_value_eq]
  exact (h _ List.mem_cons_self).elim _ And.left

/-- …the value that is returned, -/
theorem returned (slot : String) (declared : List String) :
    AlikeGiven b c [⟨.value, slot, declared⟩] (b.node.result slot)
      ((b.recast c).node.result slot) := by
  intro h
  rw [node_result_eq, node_result_eq]
  exact (h _ List.mem_cons_self).elim _ And.right

/-- …and the chain of statements. -/
theorem suite (slot : String) (declared : List String) :
    AlikeGiven b c [⟨.statement, slot, declared⟩] (b.node.suite slot)
      ((b.recast c).node.suite slot) := by
  intro h
  rw [node_suite_eq, node_suite_eq]
  exact (h _ List.mem_cons_self).elim _ id

/-- What reads some slots, and then what reads the others. -/
theorem bind {s t : RenderM α} {f g : α → RenderM β} (h : AlikeGiven b c uses s t)
    (hf : ∀ a, AlikeGiven b c more (f a) (g a)) :
    AlikeGiven b c (uses ++ more) (s >>= f) (t >>= g) := fun hall =>
  (h fun u hu => hall u (List.mem_append_left _ hu)).bind fun a =>
    hf a fun u hu => hall u (List.mem_append_right _ hu)

/-- …where only one of the two reads slots. -/
theorem before {s t : RenderM α} {f g : α → RenderM β} (h : Render.Alike s t)
    (hf : ∀ a, AlikeGiven b c uses (f a) (g a)) : AlikeGiven b c uses (s >>= f) (t >>= g) :=
  fun hall => h.bind fun a => hf a hall

theorem last {s t : RenderM α} {f g : α → RenderM β} (h : AlikeGiven b c uses s t)
    (hf : ∀ a, Render.Alike (f a) (g a)) : AlikeGiven b c uses (s >>= f) (t >>= g) :=
  fun hall => (h hall).bind hf

theorem value (slot : String) (d : Expr) {f g : Expr → RenderM α}
    (hf : ∀ e, AlikeGiven b c uses (f e) (g e)) :
    AlikeGiven b c (⟨.value, slot, []⟩ :: uses) (b.node.value slot d >>= f)
      ((b.recast c).node.value slot d >>= g) := (AlikeGiven.slot slot [] d).bind hf

theorem index (slot : String) {f g : Expr → RenderM α}
    (hf : ∀ e, AlikeGiven b c uses (f e) (g e)) :
    AlikeGiven b c (⟨.value, slot, []⟩ :: uses) (b.node.index slot >>= f)
      ((b.recast c).node.index slot >>= g) := by
  rw [Node.index, Node.index, bind_assoc, bind_assoc]
  exact value slot (.int 1) fun e => by
    rw [pure_bind, pure_bind]
    exact hf e.zeroBased

theorem valueList (stem : String) (count : Nat) (d : Expr) :
    AlikeGiven b c (numberedValues stem count) (b.node.valueList stem count d)
      ((b.recast c).node.valueList stem count d) := fun h =>
  .mapM fun i hi => AlikeGiven.slot (stem ++ toString i) [] d fun u hu => by
    obtain rfl := List.mem_singleton.mp hu
    exact h _ (List.mem_map_of_mem (List.mem_map_of_mem hi))

/-- Numbered values, where what follows reads no slot. -/
theorem valueList_then (stem : String) (count : Nat) (d : Expr) {f g : List Expr → RenderM α}
    (hf : ∀ es, Render.Alike (f es) (g es)) :
    AlikeGiven b c (numberedValues stem count) (b.node.valueList stem count d >>= f)
      ((b.recast c).node.valueList stem count d >>= g) := (valueList stem count d).last hf

end AlikeGiven

/-! ## Names -/

theorem alike_reference (b c : Block) (slot : String)
    (found : Name.Scope → Except Name.Unresolved String) :
    Alike (reference b slot found) (reference (b.recast c) slot found) := by
  funext p
  cases h : found p.scope with
  | ok x => rw [anonymous_of_ok (reference_of_ok h), anonymous_of_ok (reference_of_ok h)]
  | error u =>
    rw [anonymous_of_error (reference_of_error h), anonymous_of_error (reference_of_error h)]
    rfl

theorem alike_lexicalName (b c : Block) :
    Alike b.node.lexicalName (b.recast c).node.lexicalName := by
  have hfield : (b.recast c).node.block.field "VAR" = b.node.block.field "VAR" := rfl
  unfold Node.lexicalName
  rw [hfield]
  dsimp only
  split
  · exact alike_reference b c _ _
  · exact alike_reference b c _ _

/-! ## Values -/

theorem has_slotRenderings (slots : Record Block) (slot : String) :
    Record.has (slotRenderings slots) slot = slots.has slot := by
  rw [slotRenderings_eq, Record.has_mapValues]

/-- The types that look at which slots are there find the same in both blocks. -/
def ValueType.SeesAlike (b c : Block) : ValueType → Prop
  | .listItem => b.values.has "AT" = c.values.has "AT"
  | .procedureCall => b.argumentCount = (b.recast c).argumentCount
  | _ => True

section Values

variable (b c : Block)

/-- The rule of the type ends alike if the slots of its course hold what renders alike. -/
def ValueType.Agrees (type : ValueType) : Prop :=
  AlikeGiven b c (type.course b []).uses (type.render b.node) (type.render (b.recast c).node)

variable {b c}

theorem agrees_listItem (h : ValueType.listItem.SeesAlike b c) :
    ValueType.listItem.Agrees b c := by
  change AlikeGiven b c _ b.node.listItem (b.recast c).node.listItem
  unfold Node.listItem
  rw [show b.node.values.has "AT" = _ from has_slotRenderings _ _,
    show (b.recast c).node.values.has "AT" = _ from has_slotRenderings _ _,
    show (b.recast c).values.has "AT" = b.values.has "AT" from h.symm]
  exact .value "LIST" _ fun _ => .index _ fun _ => .pure _

theorem agrees_listOf : ValueType.listOf.Agrees b c := by
  simp only [ValueType.Agrees, ValueType.course, ValueType.render, Node.listOf]
  rw [show (b.recast c).node.block.itemCount = b.node.block.itemCount from b.count_recast c "items"]
  exact .valueList_then "ADD" b.itemCount _ fun _ => .refl _

theorem agrees_textJoin : ValueType.textJoin.Agrees b c := by
  simp only [ValueType.Agrees, ValueType.course, ValueType.render, Node.textJoin]
  rw [show (b.recast c).node.block.itemCount = b.node.block.itemCount from b.count_recast c "items"]
  exact .valueList_then "ADD" b.itemCount _ fun _ => .refl _

theorem agrees_textThrough (selector : String) :
    AlikeGiven b c (valuesIn ["TEXT"]) (b.node.textThrough selector)
      ((b.recast c).node.textThrough selector) := .value "TEXT" _ fun _ => .pure _

/-- Local names around what reads a slot; the first values are read outside. -/
theorem agrees_locally {α β : Type} {u : Use} {s t : RenderM α}
    (h : AlikeGiven b c [u] s t) (f : List Expr → List String → α → β) :
    AlikeGiven b c (numberedValues "DECL" b.declaredNames.length ++ [u])
      (do
        let values ← b.node.firstValues
        frame do
          let identifiers ← b.node.bindDeclared
          let a ← s
          pure (f values identifiers a))
      (do
        let values ← (b.recast c).node.firstValues
        frame do
          let identifiers ← (b.recast c).node.bindDeclared
          let a ← t
          pure (f values identifiers a)) :=
  (AlikeGiven.valueList "DECL" b.declaredNames.length .zero).bind fun _ hu =>
    ((Alike.refl b.node.bindDeclared).bind fun _ => (h hu).bind fun _ => .refl _).frame

theorem agrees_procedureCall (h : ValueType.procedureCall.SeesAlike b c) :
    ValueType.procedureCall.Agrees b c := by
  change AlikeGiven b c _ b.node.procedureCall (b.recast c).node.procedureCall
  unfold Node.procedureCall
  rw [show (b.recast c).node.block.argumentCount = b.node.block.argumentCount from Eq.symm h]
  exact .before (alike_reference b c _ _) fun _ =>
    .valueList_then "ARG" b.argumentCount _ fun _ => .refl _

/-- **The rules of values cannot tell the blocks apart.** -/
theorem ValueType.agrees : ∀ type : ValueType, type.SeesAlike b c → type.Agrees b c
  | .emptyList, _ => .pure _
  | .listOf, _ => agrees_listOf
  | .listRepeat, _ => .value "ITEM" _ fun _ => .value "NUM" _ fun _ => .pure _
  | .listLength, _ => .value "LIST" _ fun _ => .pure _
  | .listIsEmpty, _ => .value "LIST" _ fun _ => .pure _
  | .listPosition, _ => .value "LIST" _ fun _ => .value "ITEM" _ fun _ => .of_alike (.refl _)
  | .listItem, h => agrees_listItem h
  | .listCopy, _ => .value "LIST" _ fun _ => .pure _
  | .listMember, _ => .value "ITEM" _ fun _ => .value "LIST" _ fun _ => .pure _
  | .listRandomItem, _ => .before (.refl _) fun _ => .value "LIST" _ fun _ => .pure _
  | .isList, _ => .value "ITEM" _ fun _ => .pure _
  | .text, _ => .pure _
  | .textJoin, _ => agrees_textJoin
  | .textLength, _ => .value "VALUE" _ fun _ => .pure _
  | .textIsEmpty, _ => .value "VALUE" _ fun _ => .pure _
  | .textEnd, _ => .value "TEXT" _ fun _ => .value "NUM" _ fun _ => .of_alike (.refl _)
  | .textPosition, _ => .value "FIND" _ fun _ => .value "VALUE" _ fun _ => .pure _
  | .textStartsAt, _ => .value "TEXT" _ fun _ => .value "PIECE" _ fun _ => .pure _
  | .textChar, _ => .index "AT" fun _ => .value "VALUE" _ fun _ => .pure _
  | .textSegment, _ => .value "TEXT" _ fun _ => .index "START" fun _ =>
      .value "LENGTH" _ fun _ => .of_alike (.refl _)
  | .textCase, _ => agrees_textThrough _
  | .textTrim, _ => agrees_textThrough _
  | .textContains, _ => .value "TEXT" _ fun _ => .value "PIECE" _ fun _ => .pure _
  | .textSplit, _ => agrees_textThrough _
  | .textReplaceAll, _ => .value "TEXT" _ fun _ => .value "SEGMENT" _ fun _ =>
      .value "REPLACEMENT" _ fun _ => .pure _
  | .textCompare, _ => .value "TEXT1" _ fun _ => .value "TEXT2" _ fun _ => .pure _
  | .textPrompt, _ => .of_alike (.refl _)
  | .variableGet, _ => .of_alike ((alike_reference b c _ _).bind fun _ => .refl _)
  | .lexicalGet, _ => .of_alike ((alike_lexicalName b c).bind fun _ => .refl _)
  | .localExpression, _ => agrees_locally (.slot "RETURN" b.declaredNames .none) _
  | .number, _ => .pure _
  | .arithmetic, _ => .value "A" _ fun _ => .value "B" _ fun _ => .pure _
  | .truth, _ => .pure _
  | .negation, _ => .value "BOOL" _ fun _ => .pure _
  | .logic, _ => .value "A" _ fun _ => .value "B" _ fun _ => .pure _
  | .procedureCall, h => agrees_procedureCall h

end Values

/-! ## Statements -/

/-- Likewise for statements: a call looks at its arguments, a conditional for its last clause. -/
def StatementType.SeesAlike (b c : Block) : StatementType → Prop
  | .conditional => b.statements.has "ELSE" = c.statements.has "ELSE"
  | .procedureCall => ValueType.procedureCall.SeesAlike b c
  | _ => True

section Statements

variable (b c : Block)

/-- The rule of the type ends alike if the slots of its course hold what renders alike. -/
def StatementType.Agrees (type : StatementType) : Prop :=
  AlikeGiven b c (type.course b []).uses (type.render b.node) (type.render (b.recast c).node)

variable {b c}

theorem agrees_listReplace (place replacement : String) :
    AlikeGiven b c (valuesIn ["LIST", place, replacement]) (b.node.listReplace place replacement)
      ((b.recast c).node.listReplace place replacement) :=
  .value "LIST" _ fun _ => .index place fun _ => .value replacement _ fun _ => .pure _

theorem agrees_listAddItems : StatementType.listAddItems.Agrees b c := by
  simp only [StatementType.Agrees, StatementType.course, StatementType.render, Node.listAddItems]
  rw [show (b.recast c).node.block.itemCount = b.node.block.itemCount from b.count_recast c "items"]
  exact .value "LIST" _ fun _ => .valueList_then "ITEM" (max b.itemCount 1) _ fun _ => .refl _

theorem agrees_clause (i : Nat) :
    AlikeGiven b c (clauseUses i) (b.node.clause i) ((b.recast c).node.clause i) :=
  .value ("IF" ++ toString i) _ fun _ =>
    (AlikeGiven.suite ("DO" ++ toString i) []).last fun _ => .refl _

theorem node_hasOtherwise (b : Block) : b.node.hasOtherwise =
    (decide (b.mutation.get? "else" = some "1") || b.statements.has "ELSE") := by
  rw [Node.hasOtherwise, show b.node.statements.has "ELSE" = _ from has_slotRenderings _ _]
  rfl

theorem agrees_conditional (h : StatementType.conditional.SeesAlike b c) :
    StatementType.conditional.Agrees b c := by
  have hcount : (b.recast c).node.block.count "elseif" = b.node.block.count "elseif" :=
    b.count_recast c "elseif"
  have hlast : (b.recast c).node.hasOtherwise = b.node.hasOtherwise := by
    rw [node_hasOtherwise, node_hasOtherwise, show b.statements.has "ELSE" = _ from h]
    rfl
  simp only [StatementType.Agrees, StatementType.course, StatementType.render, Node.conditional]
  rw [hcount, hlast, node_hasOtherwise]
  refine .bind (fun hall => .mapM fun i hi => agrees_clause i fun u hu => ?_) fun _ => ?_
  · exact hall u (List.mem_flatMap.mpr ⟨i, hi, hu⟩)
  · split
    · exact (AlikeGiven.suite "ELSE" []).last fun _ => .refl _
    · exact .pure _

theorem agrees_procedure : StatementType.procedure.Agrees b c := by
  change AlikeGiven b c _ (b.node.procedureDefine false) ((b.recast c).node.procedureDefine false)
  unfold Node.procedureDefine
  refine .before (alike_reference b c _ _) fun _ => .before (.refl _) fun _ => fun h => ?_
  refine Alike.frame ((Alike.refl b.node.bindDeclared).bind fun _ => ?_)
  exact ((AlikeGiven.suite "STACK" b.declaredNames).last fun _ => .refl _) h

theorem agrees_function : StatementType.function.Agrees b c := by
  change AlikeGiven b c _ (b.node.procedureDefine true) ((b.recast c).node.procedureDefine true)
  unfold Node.procedureDefine
  refine .before (alike_reference b c _ _) fun _ => .before (.refl _) fun _ => fun h => ?_
  refine Alike.frame ((Alike.refl b.node.bindDeclared).bind fun _ => ?_)
  exact ((AlikeGiven.suite "STACK" b.declaredNames).bind fun _ =>
    (AlikeGiven.returned "RETURN" b.declaredNames).last fun _ => .refl _) h

/-- **The rules of statements cannot tell the blocks apart.** -/
theorem StatementType.agrees : ∀ type : StatementType, type.SeesAlike b c → type.Agrees b c
  | .listSetItem, _ => agrees_listReplace "AT" "TO"
  | .listAddItems, _ => agrees_listAddItems
  | .listInsert, _ => .value "LIST" _ fun _ => .index "INDEX" fun _ => .value "ITEM" _ fun _ =>
      .pure _
  | .listReplaceItem, _ => agrees_listReplace "NUM" "ITEM"
  | .listRemove, _ => .value "LIST" _ fun _ => .index "INDEX" fun _ => .pure _
  | .listAppendList, _ => .value "LIST0" _ fun _ => .value "LIST1" _ fun _ => .pure _
  | .textAppend, _ => .before (alike_lexicalName b c) fun _ => .value "TEXT" _ fun _ => .pure _
  | .textPrint, _ => .value "TEXT" _ fun _ => .pure _
  | .variableSet, _ => .value "VALUE" _ fun _ =>
      .of_alike ((alike_reference b c _ _).bind fun _ => .refl _)
  | .globalDeclaration, _ => .before (alike_reference b c _ _) fun _ =>
      .value "VALUE" _ fun _ => .pure _
  | .lexicalSet, _ => .before (alike_lexicalName b c) fun _ => .value "VALUE" _ fun _ => .pure _
  | .localStatement, _ => agrees_locally (.suite "STACK" b.declaredNames) _
  | .conditional, h => agrees_conditional h
  | .procedure, _ => agrees_procedure
  | .function, _ => agrees_function
  | .procedureCall, h => fun hall => (agrees_procedureCall h hall).map exprLine

/-- A value that is returned at once with local names around it. -/
theorem agrees_localResult : AlikeGiven b c (ValueType.localExpression.course b []).uses
    b.node.localResult (b.recast c).node.localResult :=
  agrees_locally (.returned "RETURN" b.declaredNames) _

end Statements

end Render

end Jigsaw
