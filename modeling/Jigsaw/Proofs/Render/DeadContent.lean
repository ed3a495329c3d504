import Jigsaw.Proofs.Render.Anonymous
import Jigsaw.Proofs.Render.Success

/-!
# Proofs/Render/DeadContent — what a program does not depend on

Rendering visits the slots that the types of the visited blocks read, and what stands below
statements.  The rest of a forest is dead, and so is everything inside it; only the round of
declarations goes there.  The core of a forest has no ids, and of the dead parts it keeps those that
declare something (`Forest.core`).  The core declares what the forest does, in the same order
(`Block.declarations_core`), and renders alike (`Block.alike_core`), so the core decides the program
(`Forest.generate_of_core_eq`).
-/

namespace Jigsaw

open Render Name

/-! ## Cores -/

namespace Render

/-- The visited block is a call. -/
def Visit.isCall (v : Visit) : Bool :=
  v.block.type = "procedures_callreturn" ||
    (v.position = .statement && v.block.type = "procedures_callnoreturn")

/-- **Whether the rule of a visited block consults a slot**: its course reads the slot, or it is the
rule of calls, which counts the slots of arguments. -/
def Visit.consults (v : Visit) (position : Position) (slot : String) : Bool :=
  (v.course.uses.any fun u => u.position = position && u.slot = slot) ||
    (v.isCall && position = .value && (Block.argumentNumber? slot).isSome)

end Render

/-- Whether a block, or one inside it or below it, declares something for the whole program. -/
def Block.declares (b : Block) : Bool := b.family.any fun c => c.declaration?.isSome

/-- The position of what stands in a slot, if it is rendered at all. -/
def Block.placeIn (b : Block) (place : Option Position) (position : Position) (slot : String) :
    Option Position :=
  match place with
  | some p => if Visit.consults ⟨p, b, []⟩ position slot then some position else none
  | none => none

/-- The position of what stands below a block: only chains of statements go on. -/
def placeBelow : Option Position → Option Position
  | some .statement => some .statement
  | _ => none

mutual

/-- **The core of a block** in a position, or of a block that is not rendered: its id is gone, and
so are the dead parts that declare nothing. -/
def Block.core : Option Position → Block → Block
  | place, .mk type id fields values statements next mutation =>
    let b : Block := .mk type id fields values statements next mutation
    .mk type "" fields (coreSlots (b.placeIn place .value) values)
      (coreSlots (b.placeIn place .statement) statements) (coreBelow (placeBelow place) next)
      mutation
termination_by structural _ b => b

/-- The cores of the blocks in slots. -/
def coreSlots (place : String → Option Position) : List (String × Block) → List (String × Block)
  | [] => []
  | (slot, child) :: rest =>
    if (place slot).isSome || child.declares then
      (slot, child.core (place slot)) :: coreSlots place rest
    else coreSlots place rest
termination_by structural slots => slots

/-- The core of what stands below a block. -/
def coreBelow (place : Option Position) : Option Block → Option Block
  | none => none
  | some below => if place.isSome || below.declares then some (below.core place) else none
termination_by structural below => below

end

/-- **The core of a forest.** -/
def Forest.core (forest : Forest) : Forest := forest.map (Block.core (some .statement))

/-! ## The core declares the same -/

theorem Block.declarationsOf_eq_nil {b : Block} (h : b.declares = false) :
    declarationsOf b.family = [] := by
  rw [declarationsOf, List.filterMap_eq_nil_iff]
  intro c hc
  rw [declares, List.any_eq_false] at h
  exact Option.not_isSome_iff_eq_none.mp (h c hc)

theorem declarationsOf_append (l m : List Block) :
    declarationsOf (l ++ m) = declarationsOf l ++ declarationsOf m := List.filterMap_append

theorem declarationsOf_cons (b : Block) (l : List Block) :
    declarationsOf (b :: l) = b.declaration?.toList ++ declarationsOf l := by
  rw [declarationsOf, List.filterMap_cons]
  cases b.declaration? <;> rfl

mutual

/-- **The core of a block declares what the block declares**, in the same order. -/
theorem Block.declarations_core : ∀ (place : Option Position) (b : Block),
    declarationsOf (b.core place).family = declarationsOf b.family
  | place, .mk type id fields values statements next mutation => by
      rw [Block.core, Block.family, Block.family, declarationsOf_cons, declarationsOf_cons,
        declarationsOf_append, declarationsOf_append, declarationsOf_append, declarationsOf_append,
        declarations_coreSlots, declarations_coreSlots, declarations_coreBelow]
      rfl
termination_by structural _ b => b

theorem declarations_coreSlots : ∀ (place : String → Option Position)
    (slots : List (String × Block)),
    declarationsOf (slotFamilies (coreSlots place slots)) = declarationsOf (slotFamilies slots)
  | _, [] => rfl
  | place, (slot, child) :: rest => by
      have hrest := declarations_coreSlots place rest
      rw [coreSlots, slotFamilies, declarationsOf_append, ← hrest]
      split
      · rw [slotFamilies, declarationsOf_append, child.declarations_core]
      · rename_i hdead
        have hchild : child.declares = false := by simp_all
        rw [child.declarationsOf_eq_nil hchild, List.nil_append]
termination_by structural _ slots => slots

theorem declarations_coreBelow : ∀ (place : Option Position) (next : Option Block),
    declarationsOf (familyBelow (coreBelow place next)) = declarationsOf (familyBelow next)
  | _, none => rfl
  | place, some below => by
      rw [coreBelow]
      split
      · exact below.declarations_core place
      · rename_i hdead
        have hbelow : below.declares = false := by simp_all
        exact (below.declarationsOf_eq_nil hbelow).symm
termination_by structural _ next => next

end

theorem Forest.declarations_core (forest : Forest) :
    Forest.declarations (Forest.core forest) = Forest.declarations forest := by
  induction forest with
  | nil => rfl
  | cons b rest ih =>
    have hb := b.declarations_core (some .statement)
    unfold Forest.declarations Forest.core at ih ⊢
    rw [List.map_cons, List.flatMap_cons, List.flatMap_cons, declarationsOf_append, hb, ih,
      declarationsOf_append]

/-! ## Slots of the core -/

/-- A slot that is rendered holds the core of what it held, -/
theorem coreSlots_get? {place : String → Option Position} {slot : String} {position : Position}
    (h : place slot = some position) (slots : Record Block) :
    Record.get? (coreSlots place slots) slot
      = (slots.get? slot).map (Block.core (some position)) := by
  induction slots with
  | nil => rfl
  | cons entry rest ih =>
    obtain ⟨key, child⟩ := entry
    unfold Record.get? at ih ⊢
    rw [coreSlots, List.lookup_cons]
    by_cases hkey : slot = key
    · subst hkey
      rw [h, if_pos (by simp), List.lookup_cons_self, beq_self_eq_true]
      rfl
    · rw [beq_false_of_ne hkey]
      dsimp only
      rw [← ih]
      split
      · rw [List.lookup_cons, beq_false_of_ne hkey]
      · rfl

/-- …an empty one stays empty, -/
theorem coreSlots_get?_eq_none {place : String → Option Position} {slot : String}
    {slots : Record Block} (h : slots.get? slot = none) :
    Record.get? (coreSlots place slots) slot = none := by
  induction slots with
  | nil => rfl
  | cons entry rest ih =>
    obtain ⟨key, child⟩ := entry
    unfold Record.get? at ih h ⊢
    rw [List.lookup_cons] at h
    split at h
    · cases h
    · rename_i hkey
      rw [coreSlots]
      split
      · rw [List.lookup_cons, hkey]
        exact ih h
      · exact ih h

/-- …and no argument is lost. -/
theorem coreSlots_arguments {place : String → Option Position}
    (h : ∀ slot, (Block.argumentNumber? slot).isSome → (place slot).isSome)
    (slots : Record Block) :
    (Record.names (coreSlots place slots)).filterMap Block.argumentNumber?
      = slots.names.filterMap Block.argumentNumber? := by
  induction slots with
  | nil => rfl
  | cons entry rest ih =>
    obtain ⟨key, child⟩ := entry
    unfold Record.names at ih ⊢
    rw [coreSlots, List.map_cons, List.filterMap_cons, ← ih]
    cases hnumber : Block.argumentNumber? key with
    | none =>
      split
      · rw [List.map_cons, List.filterMap_cons, hnumber]
      · rfl
    | some i => rw [h key (by rw [hnumber]; rfl), if_pos (by simp), List.map_cons,
        List.filterMap_cons, hnumber]

namespace Block

theorem slot?_core {b : Block} {p position : Position} {slot : String}
    (h : Visit.consults ⟨p, b, []⟩ position slot) :
    (b.core (some p)).slot? position slot
      = (b.slot? position slot).map (core (some position)) := by
  have hplace : b.placeIn (some p) position slot = some position := by
    rw [placeIn, if_pos h]
  cases b
  cases position <;> exact coreSlots_get? hplace _

theorem slot?_core_eq_none {b : Block} {p position : Position} {slot : String}
    (h : b.slot? position slot = none) : (b.core (some p)).slot? position slot = none := by
  cases b
  cases position <;> exact coreSlots_get?_eq_none h

/-- The core of a block has its face. -/
theorem recast_core (b : Block) (place : Option Position) :
    b.recast (b.core place) = b.core place := by
  cases b
  rfl

/-- A slot that would be consulted if it were filled is filled in both or in neither. -/
theorem isSome_slot?_core {b : Block} {p position : Position} {slot : String}
    (h : (b.slot? position slot).isSome → Visit.consults ⟨p, b, []⟩ position slot) :
    ((b.core (some p)).slot? position slot).isSome = (b.slot? position slot).isSome := by
  cases hslot : b.slot? position slot with
  | none => rw [slot?_core_eq_none hslot]
  | some child => rw [slot?_core (h (by rw [hslot]; rfl)), hslot, Option.map_some]; rfl

end Block

/-! ## The core renders alike -/

namespace Render

theorem Visit.consults_of_mem {v : Visit} {u : Use} (h : u ∈ v.course.uses) :
    v.consults u.position u.slot := by
  rw [consults, Bool.or_eq_true, List.any_eq_true]
  exact Or.inl ⟨u, h, by simp⟩

theorem Visit.consults_argument {v : Visit} (h : v.isCall) {slot : String}
    (hslot : (Block.argumentNumber? slot).isSome) : v.consults .value slot := by
  rw [consults, h, hslot]
  simp

/-- A call has as many arguments as its core. -/
theorem argumentCount_core {b : Block} {p : Position} (h : Visit.isCall ⟨p, b, []⟩) :
    b.argumentCount = (b.recast (b.core (some p))).argumentCount := by
  have hplace (slot : String) (hslot : (Block.argumentNumber? slot).isSome) :
      (b.placeIn (some p) .value slot).isSome := by
    rw [Block.placeIn, if_pos (Visit.consults_argument h hslot)]
    rfl
  have hnames : (b.core (some p)).values.names.filterMap Block.argumentNumber?
      = b.values.names.filterMap Block.argumentNumber? := by
    cases b
    exact coreSlots_arguments hplace _
  unfold Block.argumentCount Block.itemCount
  rw [Block.count_recast, Block.count_recast,
    show (b.recast (b.core (some p))).values = (b.core (some p)).values from rfl, hnames]

section Rules

variable {b : Block} {p : Position}

/-- The rules that look at which slots are there find the same in the core. -/
theorem ValueType.seesAlike_core {type : ValueType} (htype : ValueType.ofName? b.type = some type)
    (hcourse : Visit.course ⟨p, b, []⟩ = type.course b []) :
    type.SeesAlike b (b.core (some p)) := by
  cases type
  case listItem =>
    have hconsults (hat : (b.slot? .value "AT").isSome) :
        Visit.consults ⟨p, b, []⟩ .value "AT" := by
      refine Visit.consults_of_mem (show (⟨.value, "AT", []⟩ : Use) ∈ _ from ?_)
      rw [hcourse, ValueType.course, show b.values.has "AT" = true from hat]
      simp [valuesIn]
    exact (Block.isSome_slot?_core hconsults).symm
  case procedureCall =>
    have hname : b.type = "procedures_callreturn" := by
      unfold ValueType.ofName? at htype
      split at htype <;> first | assumption | cases htype
    exact argumentCount_core (by simp [Visit.isCall, hname])
  all_goals exact trivial

theorem StatementType.seesAlike_core {type : StatementType}
    (htype : StatementType.ofName? b.type = some type) :
    type.SeesAlike b (b.core (some .statement)) := by
  have hcourse : Visit.course ⟨.statement, b, []⟩ = type.course b [] := by
    rw [Visit.course, htype]
  cases type
  case conditional =>
    have hconsults (helse : (b.slot? .statement "ELSE").isSome) :
        Visit.consults ⟨.statement, b, []⟩ .statement "ELSE" := by
      refine Visit.consults_of_mem (show (⟨.statement, "ELSE", []⟩ : Use) ∈ _ from ?_)
      rw [hcourse, StatementType.course, show b.statements.has "ELSE" = true from helse]
      simp
    exact (Block.isSome_slot?_core hconsults).symm
  case procedureCall =>
    have hname : b.type = "procedures_callnoreturn" := by
      unfold StatementType.ofName? at htype
      split at htype <;> first | assumption | cases htype
    exact argumentCount_core (by simp [Visit.isCall, hname])
  all_goals exact trivial

/-- What stands in the slots of a block renders like its core. -/
def ChildrenAlike (b : Block) : Prop :=
  ∀ {position : Position} {slot : String} {child : Block}, b.slot? position slot = some child →
    child.Alike position (child.core (some position))

theorem course_of_valueType {type : ValueType} (htype : ValueType.ofName? b.type = some type)
    (hp : p = .value ∨ StatementType.ofName? b.type = none) :
    Visit.course ⟨p, b, []⟩ = type.course b [] := by
  have hcourse := Visit.course_of_value (v := ⟨p, b, []⟩) hp
  dsimp only at hcourse
  rw [hcourse, htype]

variable (h : ChildrenAlike b)

include h

/-- The slots of a course hold what renders alike. -/
theorem slotAlike_core {u : Use} (hu : u ∈ (Visit.course ⟨p, b, []⟩).uses) :
    SlotAlike b (b.core (some p)) u.position u.slot := by
  have hslot := Block.slot?_core (Visit.consults_of_mem hu)
  cases hchild : b.slot? u.position u.slot with
  | none => exact Or.inl ⟨hchild, by rw [hslot, hchild]; rfl⟩
  | some child => exact Or.inr ⟨child, _, hchild, by rw [hslot, hchild]; rfl, h hchild⟩

/-- A block that does not stand as a statement of its own is a value like its core, -/
theorem alike_asValue (hp : p = .value ∨ StatementType.ofName? b.type = none) :
    Alike b.node.asValue (b.core (some p)).node.asValue := by
  have hname : (b.core (some p)).node.block.type = b.node.block.type := by
    rw [← b.recast_core]
    rfl
  unfold Node.asValue
  rw [hname]
  cases htype : ValueType.ofName? b.node.block.type with
  | some type =>
    have hcourse := course_of_valueType htype hp
    rw [← b.recast_core]
    refine type.agrees (type.seesAlike_core htype hcourse) fun u hu => ?_
    exact slotAlike_core h (hcourse ▸ hu)
  | none =>
    rw [← b.recast_core]
    cases StatementType.ofName? b.node.block.type with
    | some _ => exact Alike.throw rfl
    | none => exact Alike.throw rfl

/-- …also where its value is returned. -/
theorem alike_asResult : Alike b.node.asResult (b.core (some .value)).node.asResult := by
  have hname : (b.core (some .value)).node.block.type = b.node.block.type := by
    rw [← b.recast_core]
    rfl
  unfold Node.asResult
  rw [hname]
  split
  · rename_i htype
    rw [← b.recast_core]
    refine agrees_localResult fun u hu => ?_
    exact slotAlike_core h (course_of_valueType htype (Or.inl rfl) ▸ hu)
  · exact (alike_asValue h (Or.inl rfl)).bind fun _ => .refl _

theorem alike_asStatement :
    Alike b.node.asStatement (b.core (some .statement)).node.asStatement := by
  have hname : (b.core (some .statement)).node.block.type = b.node.block.type := by
    rw [← b.recast_core]
    rfl
  unfold Node.asStatement
  rw [hname]
  cases htype : StatementType.ofName? b.node.block.type with
  | some type =>
    have hcourse : Visit.course ⟨.statement, b, []⟩ = type.course b [] := by
      rw [Visit.course, show StatementType.ofName? b.type = _ from htype]
    rw [← b.recast_core]
    refine type.agrees (type.seesAlike_core htype) fun u hu => ?_
    exact slotAlike_core h (hcourse ▸ hu)
  | none => exact (alike_asValue h (Or.inr htype)).map exprLine

end Rules

end Render

mutual

/-- **A block renders like its core.** -/
theorem Block.alike_core : ∀ (b : Block) (position : Position),
    b.Alike position (b.core (some position))
  | .mk type id fields values statements next mutation, position => by
      have hchildren : ChildrenAlike (.mk type id fields values statements next mutation) := by
        intro p slot child hchild
        cases p with
        | value => exact alike_coreSlots values hchild .value
        | statement => exact alike_coreSlots statements hchild .statement
      cases position with
      | value => exact ⟨alike_asValue hchildren (Or.inl rfl), alike_asResult hchildren⟩
      | statement =>
        exact (alike_asStatement hchildren).bind fun own =>
          (alike_coreBelow next).bind fun below => .refl (pure (own ++ below))
termination_by structural b => b

theorem alike_coreSlots : ∀ (slots : List (String × Block)) {slot : String} {child : Block},
    Record.get? slots slot = some child →
      ∀ position : Position, child.Alike position (child.core (some position))
  | [], _, _, h, _ => by cases h
  | (key, first) :: rest, slot, child, h, position => by
      have hfirst := first.alike_core position
      have hrest := @alike_coreSlots rest slot child
      rw [Record.get?, List.lookup_cons] at h
      split at h
      · cases h
        exact hfirst
      · exact hrest h position
termination_by structural slots => slots

theorem alike_coreBelow : ∀ next : Option Block,
    Render.Alike (chainBelow next) (chainBelow (coreBelow (some .statement) next))
  | none => .refl _
  | some below => below.alike_core .statement
termination_by structural next => next

end

/-! ## The core decides the program -/

namespace Forest

/-- The program of a forest without the ids in its errors is that of the core. -/
theorem generate_core (indent : String) (forest : Forest) :
    (Forest.generate indent forest).mapError Error.anonymous
      = (Forest.generate indent (Forest.core forest)).mapError Error.anonymous := by
  have hpass : declaredPass (Forest.core forest) = declaredPass forest := by
    rw [declaredPass, Forest.declarations_core, declaredPass]
  have halike : Alike (forest.mapM fun b => b.rendering.chain)
      ((Forest.core forest).mapM fun b => b.rendering.chain) := by
    rw [Forest.core, List.mapM_map]
    exact .mapM fun b _ => b.alike_core .statement
  have hrun := congrFun halike (declaredPass forest)
  rw [generate_eq, generate_eq, hpass]
  cases hown : forest.mapM (fun b => b.rendering.chain) (declaredPass forest) with
  | ok chains q =>
    cases hcore : (Forest.core forest).mapM (fun b => b.rendering.chain) (declaredPass forest) with
    | ok chains' q' =>
      rw [anonymous_of_ok hown, anonymous_of_ok hcore] at hrun
      cases hrun
      rfl
    | error e' q' =>
      rw [anonymous_of_ok hown, anonymous_of_error hcore] at hrun
      cases hrun
  | error e q =>
    cases hcore : (Forest.core forest).mapM (fun b => b.rendering.chain) (declaredPass forest) with
    | ok chains' q' =>
      rw [anonymous_of_error hown, anonymous_of_ok hcore] at hrun
      cases hrun
    | error e' q' =>
      rw [anonymous_of_error hown, anonymous_of_error hcore] at hrun
      exact congrArg Except.error (EStateM.Result.error.inj hrun).1

/-- **The core of a forest decides its program**: forests that differ in ids and in dead parts
without declarations have the same program, or none for the same reason, up to the id of the block
where it was found. -/
theorem generate_of_core_eq {f g : Forest} (h : Forest.core f = Forest.core g) (indent : String) :
    (Forest.generate indent f).mapError Error.anonymous
      = (Forest.generate indent g).mapError Error.anonymous := by
  rw [generate_core indent f, generate_core indent g, h]

/-- Prints a variable that nobody declares. -/
def printing (id : String) (dead : Record Block) (below : Option Block) : Forest :=
  [.mk "text_print" id []
    (("TEXT", .mk "lexical_variable_get" (id ++ "-get") [("VAR", "x")] [] [] below []) :: dead)
    [] none []]

/-- A block that no rule covers. -/
def stray : Block := .mk "stray" "" [] [] [] none []

/-- Neither a slot that nobody reads nor what stands below a value is to blame. -/
theorem printing_of_stray :
    Forest.core (printing "a" [] none) = Forest.core (printing "b" [("EXTRA", stray)] stray) ∧
      (Forest.generate "  " (printing "a" [] none)).mapError Error.anonymous
        = (Forest.generate "  " (printing "b" [("EXTRA", stray)] stray)).mapError
          Error.anonymous := by
  have h : Forest.core (printing "a" [] none)
      = Forest.core (printing "b" [("EXTRA", stray)] stray) := by rfl
  exact ⟨h, generate_of_core_eq h "  "⟩

end Forest

end Jigsaw
