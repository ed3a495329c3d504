import Mathlib.Data.List.Basic
import Jigsaw.Block.Basic

/-!
# Proofs/Block/Record — records as maps

A record gives each name its first value.  What is known about a record from its construction: the
entries that were put in, the values of another record, or values that are related to those of
another one, name by name.
-/

namespace Jigsaw.Record

variable {α β : Type}

/-! ## Values and entries -/

theorem get?_cons (name : String) (value : α) (rest : Record α) (key : String) :
    get? ((name, value) :: rest) key = if key = name then some value else rest.get? key := by
  rw [get?, List.lookup_cons]
  split <;> simp_all [get?]

/-- The value of a name is that of one of its entries. -/
theorem mem_of_get? {record : Record α} {name : String} {value : α}
    (h : record.get? name = some value) : (name, value) ∈ record := by
  induction record with
  | nil => cases h
  | cons entry rest ih =>
    rw [get?_cons] at h
    split at h
    · rename_i heq
      cases h
      exact heq ▸ List.mem_cons_self
    · exact List.mem_cons_of_mem _ (ih h)

/-- A name with a value is one of the names. -/
theorem mem_names_of_get? {record : Record α} {name : String} {value : α}
    (h : record.get? name = some value) : name ∈ record.names :=
  List.mem_map_of_mem (mem_of_get? h)

/-- **Where no name stands twice, the order of the entries does not show.** -/
theorem get?_of_perm {record other : Record α} (h : record.Perm other) (hnames : record.names.Nodup)
    (name : String) : record.get? name = other.get? name := by
  induction h with
  | nil => rfl
  | cons entry _ ih => rw [get?_cons, get?_cons, ih (List.nodup_cons.mp hnames).2]
  | swap entry entry' rest =>
    have hne : entry'.1 ≠ entry.1 := fun heq =>
      (List.nodup_cons.mp hnames).1 (heq ▸ List.mem_cons_self)
    rw [get?_cons, get?_cons, get?_cons, get?_cons]
    split <;> split <;> simp_all
  | trans h _ ih ih' => exact (ih hnames).trans (ih' ((h.map Prod.fst).nodup_iff.mp hnames))

/-! ## Values that are put in -/

/-- A value that is put in is found, and no other value changes. -/
theorem get?_put (record : Record α) (name : String) (value : α) (key : String) :
    (record.put name value).get? key = if key = name then some value else record.get? key := by
  induction record with
  | nil => exact get?_cons ..
  | cons entry rest ih =>
    obtain ⟨first, old⟩ := entry
    rw [put]
    split
    · rename_i heq
      subst heq
      rw [get?_cons, get?_cons]
      split <;> rfl
    · rename_i hne
      rw [get?_cons, get?_cons, ih]
      split <;> split <;> simp_all

/-- An entry of a record was put there last, or it was there before. -/
theorem mem_put {record : Record α} {name : String} {value : α} {entry : String × α}
    (h : entry ∈ record.put name value) : entry = (name, value) ∨ entry ∈ record := by
  induction record with
  | nil => exact Or.inl (List.mem_singleton.mp h)
  | cons first rest ih =>
    obtain ⟨key, old⟩ := first
    rw [put] at h
    split at h
    · rename_i hkey
      subst hkey
      exact (List.mem_cons.mp h).imp_right (List.mem_cons_of_mem _)
    · rcases List.mem_cons.mp h with rfl | h
      · exact Or.inr List.mem_cons_self
      · exact (ih h).imp_right (List.mem_cons_of_mem _)

theorem put_of_not_mem {record : Record α} {name : String} (value : α)
    (h : name ∉ record.names) : record.put name value = record ++ [(name, value)] := by
  induction record with
  | nil => rfl
  | cons entry rest ih =>
    rw [names, List.map_cons, List.mem_cons, not_or] at h
    rw [put, if_neg (Ne.symm h.1), ih h.2, List.cons_append]

/-! ## Values of another record -/

/-- The record with a function applied to each value. -/
def mapValues (f : α → β) (record : Record α) : Record β :=
  record.map fun entry => (entry.1, f entry.2)

theorem get?_mapValues (f : α → β) (record : Record α) (name : String) :
    (record.mapValues f).get? name = (record.get? name).map f := by
  induction record with
  | nil => rfl
  | cons entry rest ih =>
    rw [mapValues, List.map_cons, get?_cons, get?_cons]
    split
    · rfl
    · exact ih

theorem has_mapValues (f : α → β) (record : Record α) (name : String) :
    (record.mapValues f).has name = record.has name := by
  rw [has, has, get?_mapValues, Option.isSome_map]

/-- Records with the same names, whose entries are related. -/
def Related (R : α → β → Prop) (xs : Record α) (ys : Record β) : Prop :=
  List.Forall₂ (fun x y => x.1 = y.1 ∧ R x.2 y.2) xs ys

namespace Related

variable {R : α → β → Prop} {xs : Record α} {ys : Record β}

/-- A name has an entry in both records or in neither. -/
theorem get? (h : Related R xs ys) (name : String) :
    (xs.get? name = none ∧ ys.get? name = none) ∨
      ∃ x y, xs.get? name = some x ∧ ys.get? name = some y ∧ R x y := by
  induction h with
  | nil => exact Or.inl ⟨rfl, rfl⟩
  | @cons x y xs ys h _ ih =>
    obtain ⟨key, a⟩ := x
    obtain ⟨_, b⟩ := y
    obtain ⟨rfl, hab⟩ := h
    rw [get?_cons, get?_cons]
    split
    · exact Or.inr ⟨a, b, rfl, rfl, hab⟩
    · exact ih

theorem has (h : Related R xs ys) (name : String) : xs.has name = ys.has name := by
  unfold Record.has
  rcases h.get? name with ⟨hx, hy⟩ | ⟨x, y, hx, hy, -⟩
  · rw [hx, hy]
    rfl
  · rw [hx, hy]
    rfl

end Related

end Jigsaw.Record
