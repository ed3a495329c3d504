import Jigsaw.Proofs.Name.Frames
import Jigsaw.Proofs.Render.Declared

/-!
# Proofs/Render/DeclarationRound — the round of declarations, from any pass

Before anything is rendered, one round over the forest binds what its blocks declare for the whole
program.  It looks everywhere: at values, at chains of statements and at what stands below a block,
also where no rule ever looks.  So the names that it binds are those of the blocks that can be
reached at all (`Block.Reaches`), in the order of the traversal that `Block.family` writes out: a
block, its values with their chains, its statements with theirs, then the blocks below it.

The outermost frame gains the keys that it misses, each where it comes first; a second round finds
nothing missing, and two rounds in a row are the round over both forests (`declarations_bound`).
-/

namespace Jigsaw

open Render Name

/-! ## Blocks within reach -/

/-- **A block that can be reached from another**, through values, statements and the blocks
below. -/
inductive Block.Reaches : Block → Block → Prop
  | refl (b : Block) : Reaches b b
  | value {b child c : Block} {slot : String} (hslot : (slot, child) ∈ b.values)
      (h : Reaches child c) : Reaches b c
  | statement {b child c : Block} {slot : String} (hslot : (slot, child) ∈ b.statements)
      (h : Reaches child c) : Reaches b c
  | next {b below c : Block} (hnext : b.next = some below) (h : Reaches below c) : Reaches b c

/-- What can be reached from a block belongs to its family, -/
theorem Block.Reaches.mem_family {b c : Block} (h : b.Reaches c) : c ∈ b.family := by
  induction h with
  | refl b => exact b.mem_family_self
  | @value b child c slot hslot _ ih =>
    obtain ⟨type, id, fields, values, statements, next, mutation⟩ := b
    exact List.mem_cons_of_mem _ (List.mem_append_left _ (family_subset_slotFamilies hslot ih))
  | @statement b child c slot hslot _ ih =>
    obtain ⟨type, id, fields, values, statements, next, mutation⟩ := b
    exact List.mem_cons_of_mem _ (List.mem_append_right _
      (List.mem_append_left _ (family_subset_slotFamilies hslot ih)))
  | @next b below c hnext _ ih =>
    exact b.familyBelow_subset (by rw [hnext]; exact ih)

mutual

/-- …and nothing else does. -/
theorem Block.reaches_of_mem_family : ∀ {b c : Block}, c ∈ b.family → b.Reaches c
  | .mk type id fields values statements next mutation, c, h => by
      rcases List.mem_cons.mp h with rfl | h
      · exact .refl _
      rcases List.mem_append.mp h with h | h
      · obtain ⟨slot, child, hslot, hreaches⟩ := reaches_of_mem_slotFamilies h
        exact .value hslot hreaches
      rcases List.mem_append.mp h with h | h
      · obtain ⟨slot, child, hslot, hreaches⟩ := reaches_of_mem_slotFamilies h
        exact .statement hslot hreaches
      · obtain ⟨below, hnext, hreaches⟩ := reaches_of_mem_familyBelow h
        exact .next hnext hreaches
termination_by structural b => b

theorem reaches_of_mem_slotFamilies : ∀ {slots : List (String × Block)} {c : Block},
    c ∈ slotFamilies slots → ∃ slot child, (slot, child) ∈ slots ∧ child.Reaches c
  | [], _, h => absurd h List.not_mem_nil
  | (slot, child) :: rest, c, h => by
      rcases List.mem_append.mp h with h | h
      · exact ⟨slot, child, List.mem_cons_self, Block.reaches_of_mem_family h⟩
      · obtain ⟨slot, child, hslot, hreaches⟩ := reaches_of_mem_slotFamilies h
        exact ⟨slot, child, List.mem_cons_of_mem _ hslot, hreaches⟩
termination_by structural slots => slots

theorem reaches_of_mem_familyBelow : ∀ {next : Option Block} {c : Block},
    c ∈ familyBelow next → ∃ below, next = some below ∧ below.Reaches c
  | none, _, h => absurd h List.not_mem_nil
  | some below, _, h => ⟨below, rfl, Block.reaches_of_mem_family h⟩
termination_by structural next => next

end

theorem Block.mem_family_iff {b c : Block} : c ∈ b.family ↔ b.Reaches c :=
  ⟨Block.reaches_of_mem_family, Block.Reaches.mem_family⟩

/-- **The declared names are those of the blocks within reach.** -/
theorem Forest.mem_declarations {forest : Forest} {key : String × Kind} :
    key ∈ Forest.declarations forest ↔
      ∃ b ∈ forest, ∃ c, b.Reaches c ∧ c.declaration? = some key := by
  simp only [Forest.declarations, declarationsOf, List.mem_filterMap, List.mem_flatMap,
    Block.mem_family_iff]
  constructor
  · rintro ⟨c, ⟨b, hb, hreaches⟩, hkey⟩
    exact ⟨b, hb, c, hreaches, hkey⟩
  · rintro ⟨b, hb, c, hreaches, hkey⟩
    exact ⟨c, ⟨b, hb, hreaches⟩, hkey⟩

theorem Forest.declarations_append (forest more : Forest) :
    Forest.declarations (forest ++ more)
      = Forest.declarations forest ++ Forest.declarations more := by
  rw [Forest.declarations, declarationsOf, List.flatMap_append, List.filterMap_append]
  rfl

/-! ## Binding keys in a row -/

namespace Name.Scope

/-- The outermost frame gains the keys that it misses. -/
theorem gains_bindSteps (keys : List (String × Kind)) (s : Scope) :
    s.globals.Gains (s.after (bindSteps keys)).globals keys (s.gained (bindSteps keys)) := by
  induction keys generalizing s with
  | nil => exact .nil s.globals
  | cons key rest ih => exact (s.gains_bindGlobal key.1 key.2).trans (ih _)

/-- Keys that it has change nothing. -/
theorem after_bindSteps_of_bound {keys : List (String × Kind)} {s : Scope}
    (h : ∀ key ∈ keys, (s.globals.identifier? key.1 key.2).isSome) :
    s.after (bindSteps keys) = s := by
  induction keys with
  | nil => rfl
  | cons key rest ih =>
    obtain ⟨x, hx⟩ := Option.isSome_iff_exists.mp (h key List.mem_cons_self)
    have hnext : (Step.bindGlobal key.1 key.2).next s = s := by
      rw [Step.next, bindGlobal_of_some hx]
    calc s.after (bindSteps (key :: rest))
        = ((Step.bindGlobal key.1 key.2).next s).after (bindSteps rest) := rfl
      _ = s.after (bindSteps rest) := by rw [hnext]
      _ = s := ih fun later hlater => h later (List.mem_cons_of_mem _ hlater)

/-- A second round changes nothing. -/
theorem after_bindSteps_twice (keys : List (String × Kind)) (s : Scope) :
    (s.after (bindSteps keys)).after (bindSteps keys) = s.after (bindSteps keys) :=
  after_bindSteps_of_bound fun key hkey =>
    (isSome_identifier?_after_bindSteps keys s key.1 key.2).mpr (Or.inr hkey)

end Name.Scope

/-! ## The main result -/

/-- **What the round of declarations does to a pass, whatever it holds.**  It succeeds and changes
names only; inner frames stay as they are, and the outermost frame gains a binding for each declared
key that it did not bind, in the order in which the traversal of the forest meets them first.  The
declared keys are those of the blocks that can be reached from the forest.  A second round over the
same forest changes nothing, and a round over two forests is the round over one and then over the
other. -/
theorem Forest.declarations_bound (forest : Forest) (p : Pass) :
    ∃ q, Forest.declare forest p = .ok () q ∧
      q.library = p.library ∧ q.scope.reserved = p.scope.reserved ∧
      q.scope.locals = p.scope.locals ∧
      (∃ added, q.scope.globals = p.scope.globals.addAll added ∧
        added.map Binding.key = p.scope.globals.missing (Forest.declarations forest)) ∧
      (∀ key, key ∈ Forest.declarations forest ↔
        ∃ b ∈ forest, ∃ c, b.Reaches c ∧ c.declaration? = some key) ∧
      Forest.declare forest q = .ok () q ∧
      ∀ more, Forest.declare (forest ++ more) p = Forest.declare more q := by
  have hgains := p.scope.gains_bindSteps (Forest.declarations forest)
  refine ⟨_, Forest.declare_bindsAll forest p, rfl, p.scope.reserved_after _,
    p.scope.locals_after_bindSteps _, ⟨_, hgains.eq, hgains.keys⟩, fun _ => mem_declarations, ?_,
    fun more => ?_⟩
  · have htwice := p.scope.after_bindSteps_twice (Forest.declarations forest)
    rw [Forest.declare_bindsAll forest, htwice]
  · rw [Forest.declare_bindsAll, Forest.declare_bindsAll, declarations_append, bindSteps,
      List.map_append, Scope.after_append]
    rfl

end Jigsaw
