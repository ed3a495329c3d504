import Jigsaw.Proofs.Render.ExpressionCode

/-!
# Proofs/Render/Capture — names in rendered expressions mean what the blocks say

Code is read in one way only (`Reads.unique`), so every reading of a block's code resolves its names
as the block's tree does: a variable to the parameter of the innermost local declaration that
declares it, or else to its binding outside.  The binders of such a tree are variables and the
temporaries of comprehensions, and so references of every other sort are free.
-/

namespace Jigsaw

namespace Tree

variable {ν μ : Type}

/-! ## Occurrences and binders -/

mutual

/-- The names that a tree uses, from left to right, each with the binders around it, innermost
first. -/
def occurrences (binders : List (List ν)) : Tree ν → List (ν × List (List ν))
  | .name n => [(n, binders)]
  | .integer _ | .floating _ | .text _ | .truth _ | .none => []
  | .list items => occurrencesAll binders items
  | .collect element binder source =>
    occurrences ([binder] :: binders) element ++ occurrences binders source
  | .lambda parameters body => occurrences (parameters :: binders) body
  | .call function arguments =>
    occurrences binders function ++ occurrencesAll binders arguments
  | .method receiver _ arguments =>
    occurrences binders receiver ++ occurrencesAll binders arguments
  | .item receiver index => occurrences binders receiver ++ occurrences binders index
  | .sliceFrom receiver start => occurrences binders receiver ++ occurrences binders start
  | .sliceTo receiver stop => occurrences binders receiver ++ occurrences binders stop
  | .slice receiver start stop =>
    occurrences binders receiver ++ occurrences binders start ++ occurrences binders stop
  | .negate operand => occurrences binders operand
  | .not operand => occurrences binders operand
  | .binary _ left right => occurrences binders left ++ occurrences binders right
  | .chain _ operands => occurrencesAll binders operands

/-- The names that trees use. -/
def occurrencesAll (binders : List (List ν)) : List (Tree ν) → List (ν × List (List ν))
  | [] => []
  | t :: rest => occurrences binders t ++ occurrencesAll binders rest

end

mutual

/-- The names that a tree binds, anywhere inside. -/
def bound : Tree ν → List ν
  | .name _ | .integer _ | .floating _ | .text _ | .truth _ | .none => []
  | .list items => boundAll items
  | .collect element binder source => binder :: (bound element ++ bound source)
  | .lambda parameters body => parameters ++ bound body
  | .call function arguments => bound function ++ boundAll arguments
  | .method receiver _ arguments => bound receiver ++ boundAll arguments
  | .item receiver index => bound receiver ++ bound index
  | .sliceFrom receiver start => bound receiver ++ bound start
  | .sliceTo receiver stop => bound receiver ++ bound stop
  | .slice receiver start stop => bound receiver ++ bound start ++ bound stop
  | .negate operand => bound operand
  | .not operand => bound operand
  | .binary _ left right => bound left ++ bound right
  | .chain _ operands => boundAll operands

/-- The names that trees bind. -/
def boundAll : List (Tree ν) → List ν
  | [] => []
  | t :: rest => bound t ++ boundAll rest

end

/-- A name that no binder around it has is free. -/
theorem place_eq_free [DecidableEq ν] (outside : ν → μ) {n : ν} :
    ∀ {binders : List (List ν)}, (∀ group ∈ binders, n ∉ group) →
      place outside n binders = .free (outside n)
  | [], _ => rfl
  | group :: outer, h => by
      rw [place, if_neg (h group List.mem_cons_self),
        place_eq_free outside fun g hg => h g (List.mem_cons_of_mem group hg)]
      rfl

theorem or_mem_append {α β : Type} {P : Prop} {x : α} {as bs : List α} {m : β} {cs ds : List β}
    (ha : x ∈ as → P ∨ m ∈ cs) (hb : x ∈ bs → P ∨ m ∈ ds) (h : x ∈ as ++ bs) :
    P ∨ m ∈ cs ++ ds := by
  rw [List.mem_append]
  rcases List.mem_append.mp h with h | h
  · exact (ha h).imp_right Or.inl
  · exact (hb h).imp_right Or.inr

section

variable {n m : ν} {groups : List (List ν)} {group : List ν}

mutual

/-- The binders around a name were there before, or are binders of the tree. -/
theorem mem_bound_of_mem_occurrences (hgroup : group ∈ groups) (hm : m ∈ group) :
    ∀ {binders : List (List ν)} (t : Tree ν), (n, groups) ∈ t.occurrences binders →
      group ∈ binders ∨ m ∈ t.bound
  | _, .name _, h => by
      obtain ⟨-, rfl⟩ := Prod.mk.inj (List.mem_singleton.mp h)
      exact Or.inl hgroup
  | _, .list items, h => mem_boundAll_of_mem_occurrences hgroup hm items h
  | _, .collect element binder source, h => by
      refine (or_mem_append (mem_bound_of_mem_occurrences hgroup hm element)
        (fun hsource => (mem_bound_of_mem_occurrences hgroup hm source hsource).imp_left
          (List.mem_cons_of_mem [binder])) h).elim (fun hbinders => ?_)
        fun hbound => Or.inr (List.mem_cons_of_mem binder hbound)
      rcases List.mem_cons.mp hbinders with rfl | hbinders
      · exact Or.inr (List.mem_singleton.mp hm ▸ List.mem_cons_self)
      · exact Or.inl hbinders
  | _, .lambda parameters body, h => by
      rcases mem_bound_of_mem_occurrences hgroup hm body h with hbinders | hbound
      · rcases List.mem_cons.mp hbinders with rfl | hbinders
        · exact Or.inr (List.mem_append_left _ hm)
        · exact Or.inl hbinders
      · exact Or.inr (List.mem_append_right _ hbound)
  | _, .call function arguments, h =>
    or_mem_append (mem_bound_of_mem_occurrences hgroup hm function)
      (mem_boundAll_of_mem_occurrences hgroup hm arguments) h
  | _, .method receiver _ arguments, h =>
    or_mem_append (mem_bound_of_mem_occurrences hgroup hm receiver)
      (mem_boundAll_of_mem_occurrences hgroup hm arguments) h
  | _, .item receiver index, h =>
    or_mem_append (mem_bound_of_mem_occurrences hgroup hm receiver)
      (mem_bound_of_mem_occurrences hgroup hm index) h
  | _, .sliceFrom receiver start, h =>
    or_mem_append (mem_bound_of_mem_occurrences hgroup hm receiver)
      (mem_bound_of_mem_occurrences hgroup hm start) h
  | _, .sliceTo receiver stop, h =>
    or_mem_append (mem_bound_of_mem_occurrences hgroup hm receiver)
      (mem_bound_of_mem_occurrences hgroup hm stop) h
  | _, .slice receiver start stop, h =>
    or_mem_append (or_mem_append (mem_bound_of_mem_occurrences hgroup hm receiver)
      (mem_bound_of_mem_occurrences hgroup hm start))
      (mem_bound_of_mem_occurrences hgroup hm stop) h
  | _, .negate operand, h => mem_bound_of_mem_occurrences hgroup hm operand h
  | _, .not operand, h => mem_bound_of_mem_occurrences hgroup hm operand h
  | _, .binary _ left right, h =>
    or_mem_append (mem_bound_of_mem_occurrences hgroup hm left)
      (mem_bound_of_mem_occurrences hgroup hm right) h
  | _, .chain _ operands, h => mem_boundAll_of_mem_occurrences hgroup hm operands h

theorem mem_boundAll_of_mem_occurrences (hgroup : group ∈ groups) (hm : m ∈ group) :
    ∀ {binders : List (List ν)} (ts : List (Tree ν)), (n, groups) ∈ occurrencesAll binders ts →
      group ∈ binders ∨ m ∈ boundAll ts
  | _, [], h => absurd h List.not_mem_nil
  | _, t :: rest, h =>
    or_mem_append (mem_bound_of_mem_occurrences hgroup hm t)
      (mem_boundAll_of_mem_occurrences hgroup hm rest) h

end

end

theorem mem_boundAll {m : ν} : ∀ {ts : List (Tree ν)}, m ∈ boundAll ts ↔ ∃ t ∈ ts, m ∈ t.bound
  | [] => by simp [boundAll]
  | t :: rest => by simp [boundAll, mem_boundAll]

end Tree

/-! ## The binders of a block's tree -/

/-- The references that local declarations and comprehensions bind. -/
def Ref.isLocal : Ref → Bool
  | .nearest _ | .temporary => true
  | _ => false

open Source

/-- Only such references are bound in the tree. -/
def BindsLocals (t : Tree Ref) : Prop := ∀ r ∈ t.bound, r.isLocal = true

namespace BindsLocals

variable {t u w : Tree Ref} {ts : List (Tree Ref)}

/-- A tree without binders. -/
theorem of_nil (h : t.bound = []) : BindsLocals t := fun _ hr => absurd (h ▸ hr) List.not_mem_nil

theorem append {as bs : List Ref} (ha : ∀ r ∈ as, r.isLocal = true)
    (hb : ∀ r ∈ bs, r.isLocal = true) : ∀ r ∈ as ++ bs, r.isLocal = true := fun r hr =>
  (List.mem_append.mp hr).elim (ha r) (hb r)

theorem all (h : ∀ t ∈ ts, BindsLocals t) :
    ∀ r ∈ Tree.boundAll ts, r.isLocal = true := fun r hr => by
  obtain ⟨t, ht, hrt⟩ := Tree.mem_boundAll.mp hr
  exact h t ht r hrt

theorem list (h : ∀ t ∈ ts, BindsLocals t) : BindsLocals (.list ts) := all h

theorem builtin (word : String) (h : ∀ t ∈ ts, BindsLocals t) :
    BindsLocals (.builtin word ts) := all h

theorem call (ht : BindsLocals t) (h : ∀ u ∈ ts, BindsLocals u) : BindsLocals (.call t ts) :=
  append ht (all h)

theorem method (ht : BindsLocals t) (selector : String) (h : ∀ u ∈ ts, BindsLocals u) :
    BindsLocals (.method t selector ts) := append ht (all h)

theorem item (ht : BindsLocals t) (hu : BindsLocals u) : BindsLocals (.item t u) := append ht hu

theorem sliceFrom (ht : BindsLocals t) (hu : BindsLocals u) : BindsLocals (.sliceFrom t u) :=
  append ht hu

theorem sliceTo (ht : BindsLocals t) (hu : BindsLocals u) : BindsLocals (.sliceTo t u) :=
  append ht hu

theorem slice (ht : BindsLocals t) (hu : BindsLocals u) (hw : BindsLocals w) :
    BindsLocals (.slice t u w) := append (append ht hu) hw

theorem binary (op : BinaryOp) (ht : BindsLocals t) (hu : BindsLocals u) :
    BindsLocals (.binary op t u) := append ht hu

theorem not (h : BindsLocals t) : BindsLocals (.not t) := h

theorem ofInt (k : Int) : BindsLocals (.ofInt k) := of_nil (by unfold Tree.ofInt; split <;> rfl)

theorem ofNumeral (value : Numeral) : BindsLocals (.ofNumeral value) := by
  cases value with
  | integer k => exact ofInt k
  | floating negative x => cases negative <;> exact of_nil rfl

theorem operands (h : BindsLocals t) (op : BinaryOp) : ∀ u ∈ t.operands op, BindsLocals u := by
  unfold Tree.operands
  split
  · rename_i op' ts
    split
    · exact fun u hu r hr => h r (Tree.mem_boundAll.mpr ⟨u, hu, hr⟩)
    · exact List.forall_mem_singleton.mpr h
  · exact List.forall_mem_singleton.mpr h

theorem operation (op : BinaryOp) (ht : BindsLocals t) (hu : BindsLocals u) :
    BindsLocals (.operation op t u) := by
  unfold Tree.operation
  split
  · exact all fun v hv => (List.mem_append.mp hv).elim (ht.operands op v) (hu.operands op v)
  · exact binary op ht hu

theorem lowered (lowers : Int → Bool) (h : BindsLocals t) : BindsLocals (t.lowered lowers) := by
  have hlower : BindsLocals (.binary .subtract t (.integer 1)) := binary _ h (of_nil rfl)
  unfold Tree.lowered
  split
  · split
    · exact ofInt _
    · exact hlower
  · exact hlower

theorem segment (ht : BindsLocals t) (hu : BindsLocals u) (hw : BindsLocals w) :
    BindsLocals (.segment t u w) := by
  unfold Tree.segment
  split
  · split
    · exact slice ht hu (ofInt _)
    · exact sliceTo (sliceFrom ht hu) hw
  · exact sliceTo (sliceFrom ht hu) hw

theorem lastChars (ht : BindsLocals t) (hu : BindsLocals u) : BindsLocals (.lastChars t u) := by
  unfold Tree.lastChars
  split
  · exact sliceTo ht hu
  · exact sliceFrom ht hu

theorem joined (h : ∀ t ∈ ts, BindsLocals t) : BindsLocals (.joined ts) := by
  unfold Tree.joined
  split
  · exact of_nil rfl
  · exact builtin _ h
  · rename_i t u
    have hpair := List.forall_mem_cons.mp h
    exact binary _ (builtin _ (List.forall_mem_singleton.mpr hpair.1)) (builtin _ hpair.2)
  · refine method (of_nil rfl) _ (List.forall_mem_singleton.mpr ?_)
    exact List.forall_mem_cons.mpr ⟨rfl, append (of_nil rfl) (list h)⟩

end BindsLocals

namespace Render

/-- Whatever is plugged into the block binds locals only. -/
def LocalSlots (trees : Record (Tree Ref)) : Prop :=
  ∀ name t, trees.get? name = some t → BindsLocals t

theorem LocalSlots.nil : LocalSlots [] := fun _ _ h => by cases h

theorem LocalSlots.cons {trees : Record (Tree Ref)} {name : String} {t : Tree Ref}
    (ht : BindsLocals t) (h : LocalSlots trees) : LocalSlots ((name, t) :: trees) :=
  fun slot u hu => by
    unfold Record.get? at hu
    rw [List.lookup_cons] at hu
    split at hu
    · cases hu
      exact ht
    · exact h slot u hu

section

variable {k : Sketch} (hk : LocalSlots k.trees)

include hk

theorem bindsLocals_slot (name : String) {d : Tree Ref} (hd : BindsLocals d) :
    BindsLocals (k.slot name d) := by
  unfold Sketch.slot
  cases h : k.trees.get? name with
  | some t => exact hk name t h
  | none => exact hd

theorem bindsLocals_slots (stem : String) (count : Nat) {d : Tree Ref} (hd : BindsLocals d) :
    ∀ t ∈ k.slots stem count d, BindsLocals t := fun t ht => by
  obtain ⟨i, -, rfl⟩ := List.mem_map.mp ht
  exact bindsLocals_slot hk _ hd

theorem bindsLocals_tree (lowers : Int → Bool) (type : ValueType) :
    BindsLocals (type.tree lowers k) := by
  have hnone (name : String) : BindsLocals (k.slot name .none) :=
    bindsLocals_slot hk name (.of_nil rfl)
  have htext (name : String) : BindsLocals (k.text name) := bindsLocals_slot hk name (.of_nil rfl)
  have hlist (name : String) : BindsLocals (k.list name) := bindsLocals_slot hk name (.of_nil rfl)
  have hinteger (name : String) (i : Nat) : BindsLocals (k.slot name (.integer i)) :=
    bindsLocals_slot hk name (.of_nil rfl)
  have htruth (name : String) (v : Bool) : BindsLocals (k.slot name (.truth v)) :=
    bindsLocals_slot hk name (.of_nil rfl)
  have hindex (name : String) : BindsLocals (k.index lowers name) :=
    .lowered lowers (hinteger name 1)
  have hone {t : Tree Ref} (h : BindsLocals t) : ∀ u ∈ [t], BindsLocals u :=
    List.forall_mem_singleton.mpr h
  have hposition (text : String) (selector piece : String) :
      BindsLocals (Sketch.positionOf (k.text text) selector (k.text piece)) :=
    .binary _ (.method (htext text) _ (hone (htext piece))) (.of_nil rfl)
  cases type with
  | emptyList => exact .of_nil rfl
  | listOf => exact .list (bindsLocals_slots hk _ _ (.of_nil rfl))
  | listRepeat => exact .binary _ (.list (hone (hnone _))) (hinteger _ 0)
  | listLength => exact .builtin _ (hone (hlist _))
  | listIsEmpty => exact .not (.builtin _ (hone (hlist _)))
  | listPosition =>
    exact .call (.of_nil rfl) (List.forall_mem_cons.mpr
      ⟨hlist _, hone (bindsLocals_slot hk _ (.of_nil rfl))⟩)
  | listItem => exact .item (hlist _) (hindex _)
  | listCopy => exact .builtin _ (hone (hlist _))
  | listMember => exact .binary _ (hnone _) (hlist _)
  | listRandomItem => exact .method (.of_nil rfl) _ (hone (hlist _))
  | isList => exact .binary _ (.builtin _ (hone (hnone _))) (.of_nil rfl)
  | text => exact .of_nil rfl
  | textJoin =>
    rw [ValueType.tree]
    exact .joined (bindsLocals_slots hk _ _ (.of_nil rfl))
  | textLength => exact .builtin _ (hone (htext _))
  | textIsEmpty => exact .not (.builtin _ (hone (htext _)))
  | textEnd =>
    rw [ValueType.tree]
    split
    · exact .sliceTo (htext _) (hinteger _ 1)
    · exact .lastChars (htext _) (hinteger _ 1)
  | textPosition => exact hposition "VALUE" _ "FIND"
  | textStartsAt => exact hposition "TEXT" _ "PIECE"
  | textChar => exact .item (htext _) (hindex _)
  | textSegment => exact .segment (htext _) (hindex _) (hinteger _ 1)
  | textCase => exact .method (htext _) _ nofun
  | textTrim => exact .method (htext _) _ nofun
  | textContains => exact .binary _ (htext _) (htext _)
  | textSplit => exact .method (htext _) _ nofun
  | textReplaceAll =>
    exact .method (htext _) _ (List.forall_mem_cons.mpr ⟨htext _, hone (htext _)⟩)
  | textCompare => exact .binary _ (htext _) (htext _)
  | textPrompt =>
    rw [ValueType.tree]
    split
    · exact .of_nil rfl
    · exact .of_nil rfl
  | variableGet => exact .of_nil rfl
  | lexicalGet => exact .of_nil rfl
  | localExpression =>
    refine .call (BindsLocals.append (fun r hr => ?_) (hnone _))
      (bindsLocals_slots hk _ _ (.of_nil rfl))
    obtain ⟨x, -, rfl⟩ := List.mem_map.mp hr
    rfl
  | number => exact .ofNumeral _
  | arithmetic => exact .binary _ (hinteger _ 0) (hinteger _ 0)
  | truth => exact .of_nil rfl
  | negation => exact .not (htruth _ true)
  | logic => exact .operation _ (htruth _ false) (htruth _ false)
  | procedureCall => exact .call (.of_nil rfl) (bindsLocals_slots hk _ _ (.of_nil rfl))

end

end Render

open Render

mutual

/-- **The tree of a block binds locals only.** -/
theorem Block.bindsLocals (lowers : Int → Bool) : ∀ b : Block, BindsLocals (b.tree lowers)
  | .mk type id fields values statements next mutation => by
      rw [Block.tree]
      split
      · exact bindsLocals_tree (slots_bindLocals lowers values) lowers _
      · exact .of_nil rfl
termination_by structural b => b

theorem slots_bindLocals (lowers : Int → Bool) : ∀ slots : List (String × Block),
    LocalSlots (slotTrees lowers slots)
  | [] => .nil
  | (_, child) :: rest => .cons (child.bindsLocals lowers) (slots_bindLocals lowers rest)
termination_by structural slots => slots

end

/-- A reference that is no local is free wherever it stands. -/
theorem Block.place_eq_free (lowers : Int → Bool) (b : Block) (ρ : Naming) {r : Ref}
    {groups : List (List Ref)} (h : (r, groups) ∈ (b.tree lowers).occurrences [])
    (hr : r.isLocal = false) : Tree.place ρ r groups = .free (ρ r) := by
  refine Tree.place_eq_free ρ fun group hgroup hmem => ?_
  rcases Tree.mem_bound_of_mem_occurrences hgroup hmem (b.tree lowers) h with hnil | hbound
  · exact absurd hnil List.not_mem_nil
  · exact absurd (b.bindsLocals lowers r hbound) (by simp [hr])

namespace Render

end Render

end Jigsaw
