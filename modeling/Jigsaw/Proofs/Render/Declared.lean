import Jigsaw.Proofs.Block.Record
import Jigsaw.Proofs.Name.Run
import Jigsaw.Proofs.Render.Discipline
import Jigsaw.Render.Forest

/-!
# Proofs/Render/Declared — the names that a forest declares for the whole program

Global variables and procedures are declared by blocks anywhere in a forest: in slots that no rule
reads, too, and below values.  `Forest.declarations` lists their names block by block, and the round
of declarations binds them in this order (`Forest.declare_bindsAll`).
-/

namespace Jigsaw

open Render Name

/-- What a block declares for the whole program. -/
def Block.declaration? (b : Block) : Option (String × Kind) :=
  match b.type with
  | "global_declaration" => some (b.field "NAME", .ofVariable)
  | "variables_get" | "variables_set" => some (b.field "VAR", .ofVariable)
  | "procedures_defnoreturn" | "procedures_defreturn" => some (b.field "NAME", .ofProcedure)
  | _ => none

mutual

/-- A block, what is plugged into it, and the blocks below it. -/
def Block.family : Block → List Block
  | .mk type id fields values statements next mutation =>
    .mk type id fields values statements next mutation ::
      (slotFamilies values ++ (slotFamilies statements ++ familyBelow next))
termination_by structural b => b

/-- The families of the blocks in slots. -/
def slotFamilies : List (String × Block) → List Block
  | [] => []
  | (_, child) :: rest => child.family ++ slotFamilies rest
termination_by structural slots => slots

/-- The family of the chain below a block. -/
def familyBelow : Option Block → List Block
  | none => []
  | some below => below.family
termination_by structural below => below

end

/-- The names that blocks declare, with their kinds. -/
def declarationsOf (blocks : List Block) : List (String × Kind) :=
  blocks.filterMap Block.declaration?

/-- **The names that a forest declares for the whole program**, in the order of its blocks. -/
def Forest.declarations (forest : Forest) : List (String × Kind) :=
  declarationsOf (forest.flatMap Block.family)

/-! ## Families -/

theorem Block.mem_family_self : ∀ b : Block, b ∈ b.family
  | .mk _ _ _ _ _ _ _ => List.mem_cons_self

theorem family_subset_slotFamilies {slots : List (String × Block)} {slot : String} {child : Block}
    (h : (slot, child) ∈ slots) : child.family ⊆ slotFamilies slots := by
  induction slots with
  | nil => exact absurd h List.not_mem_nil
  | cons first rest ih =>
    rcases List.mem_cons.mp h with rfl | h
    · exact List.subset_append_left _ _
    · exact List.subset_append_of_subset_right _ (ih h)

/-- A value belongs to the family of its block, -/
theorem Block.family_subset_of_value {b child : Block} {slot : String}
    (h : b.values.get? slot = some child) : child.family ⊆ b.family := by
  obtain ⟨type, id, fields, values, statements, next, mutation⟩ := b
  have hslots := family_subset_slotFamilies (Record.mem_of_get? h)
  exact List.subset_cons_of_subset _ (List.subset_append_of_subset_left _ hslots)

/-- …so does a chain of statements, -/
theorem Block.family_subset_of_statement {b child : Block} {slot : String}
    (h : b.statements.get? slot = some child) : child.family ⊆ b.family := by
  obtain ⟨type, id, fields, values, statements, next, mutation⟩ := b
  have hslots := family_subset_slotFamilies (Record.mem_of_get? h)
  exact List.subset_cons_of_subset _ (List.subset_append_of_subset_right _
    (List.subset_append_of_subset_left _ hslots))

/-- …and so do the blocks below. -/
theorem Block.familyBelow_subset (b : Block) : familyBelow b.next ⊆ b.family := by
  obtain ⟨type, id, fields, values, statements, next, mutation⟩ := b
  exact List.subset_cons_of_subset _ (List.subset_append_of_subset_right _
    (List.subset_append_right _ _))

/-! ## The round of declarations -/

/-- The steps that bind names in the outermost frame. -/
def bindSteps (keys : List (String × Kind)) : List Name.Step :=
  keys.map fun key => .bindGlobal key.1 key.2

/-- The step binds these names in the outermost frame, one after the other, and does nothing
else. -/
def BindsAll (m : RenderM Unit) (keys : List (String × Kind)) : Prop :=
  ∀ p, m p = .ok () { p with scope := p.scope.after (bindSteps keys) }

theorem BindsAll.pure : BindsAll (pure ()) [] := fun _ => rfl

theorem BindsAll.bind {m k : RenderM Unit} {keys more : List (String × Kind)}
    (hm : BindsAll m keys) (hk : BindsAll k more) : BindsAll (do m; k) (keys ++ more) := by
  intro p
  rw [bind_of_ok (hm p), hk, bindSteps, bindSteps, bindSteps, List.map_append, Scope.after_append]

theorem BindsAll.bindGlobal (name : String) (kind : Kind) :
    BindsAll (bindGlobal name kind) [(name, kind)] := fun _ => rfl

theorem Block.declareOwn_bindsAll (b : Block) :
    BindsAll b.declareOwn b.declaration?.toList := by
  have hbinds {name : String} {kind : Kind} (h : b.declaration? = some (name, kind)) :
      BindsAll (bindGlobal name kind) b.declaration?.toList := h ▸ .bindGlobal name kind
  unfold Block.declareOwn
  split
  · exact hbinds (by rw [Block.declaration?, ‹b.type = _›]; rfl)
  · exact hbinds (by rw [Block.declaration?, ‹b.type = _›]; rfl)
  · exact hbinds (by rw [Block.declaration?, ‹b.type = _›]; rfl)
  · exact hbinds (by rw [Block.declaration?, ‹b.type = _›]; rfl)
  · exact hbinds (by rw [Block.declaration?, ‹b.type = _›]; rfl)
  · have hnone : b.declaration? = none := by
      unfold Block.declaration?
      split
      all_goals first | contradiction | rfl
    rw [hnone]
    exact .pure

mutual

/-- **A block's declarations are bound, block by block.** -/
theorem Block.declare_bindsAll : ∀ b : Block, BindsAll b.declare (declarationsOf b.family)
  | .mk type id fields values statements next mutation => by
      let b : Block := .mk type id fields values statements next mutation
      have h := b.declareOwn_bindsAll.bind ((declareSlots_bindsAll values).bind
        ((declareSlots_bindsAll statements).bind (declareBelow_bindsAll next)))
      rw [Block.family, declarationsOf, List.filterMap_cons, List.filterMap_append,
        List.filterMap_append]
      cases hown : b.declaration? with
      | none =>
        rw [hown] at h
        exact h
      | some key =>
        rw [hown] at h
        exact h
termination_by structural b => b

theorem declareSlots_bindsAll : ∀ slots : List (String × Block),
    BindsAll (declareSlots slots) (declarationsOf (slotFamilies slots))
  | [] => .pure
  | (_, child) :: rest => by
      have h := child.declare_bindsAll.bind (declareSlots_bindsAll rest)
      rw [slotFamilies, declarationsOf, List.filterMap_append]
      exact h
termination_by structural slots => slots

theorem declareBelow_bindsAll : ∀ below : Option Block,
    BindsAll (declareBelow below) (declarationsOf (familyBelow below))
  | none => .pure
  | some below => below.declare_bindsAll
termination_by structural below => below

end

/-- **The round of declarations binds what the forest declares**, in its order. -/
theorem Forest.declare_bindsAll : ∀ forest : Forest,
    BindsAll (Forest.declare forest) (Forest.declarations forest)
  | [] => .pure
  | b :: rest => by
      have h := b.declare_bindsAll.bind (Forest.declare_bindsAll rest)
      rw [Forest.declarations, declarationsOf, List.flatMap_cons, List.filterMap_append]
      exact h

/-! ## What is bound afterwards -/

namespace Name

namespace Scope

theorem locals_bindGlobal (s : Scope) (name : String) (kind : Kind) :
    (s.bindGlobal name kind).2.locals = s.locals := by
  unfold bindGlobal
  split <;> rfl

theorem locals_after_bindSteps (keys : List (String × Kind)) (s : Scope) :
    (s.after (bindSteps keys)).locals = s.locals := by
  induction keys generalizing s with
  | nil => rfl
  | cons key rest ih => exact (ih _).trans (s.locals_bindGlobal key.1 key.2)

/-- Binding a name makes it known, and no other. -/
theorem isSome_identifier?_bindGlobal (s : Scope) (key : String × Kind) (name : String)
    (kind : Kind) :
    ((s.bindGlobal key.1 key.2).2.globals.identifier? name kind).isSome ↔
      (s.globals.identifier? name kind).isSome ∨ (name, kind) = key := by
  cases h : s.globals.identifier? key.1 key.2 with
  | some x =>
    rw [bindGlobal_of_some h]
    refine ⟨Or.inl, fun hor => hor.elim id fun heq => ?_⟩
    subst heq
    exact Option.isSome_of_eq_some h
  | none =>
    obtain ⟨x, heq, -, -, -⟩ := bindGlobal_of_none h
    have hkey : (name, kind) = key ↔ key.1 = name ∧ key.2 = kind := by
      rw [eq_comm, Prod.ext_iff]
    rw [heq, hkey]
    simp only [Frame.isSome_identifier?_iff, addGlobal, Frame.add, List.mem_append,
      List.mem_singleton,
      or_and_right, exists_or, exists_eq_left]

/-- **The names that are bound are those that were and the new ones.** -/
theorem isSome_identifier?_after_bindSteps (keys : List (String × Kind)) (s : Scope)
    (name : String) (kind : Kind) :
    ((s.after (bindSteps keys)).globals.identifier? name kind).isSome ↔
      (s.globals.identifier? name kind).isSome ∨ (name, kind) ∈ keys := by
  induction keys generalizing s with
  | nil => exact ⟨Or.inl, fun h => h.resolve_right List.not_mem_nil⟩
  | cons key rest ih =>
    rw [List.mem_cons, ← or_assoc, ← isSome_identifier?_bindGlobal s key]
    exact ih _

end Scope

end Name

end Jigsaw
