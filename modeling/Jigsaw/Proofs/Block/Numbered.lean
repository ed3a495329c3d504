import Jigsaw.Proofs.Block.Record
import Jigsaw.Proofs.Name.Fresh

/-!
# Proofs/Block/Numbered — numbered fields are read up to the first gap

    texts = []; i = 0
    while field stem ++ i is there and not empty: texts = texts ++ [its text]; i = i + 1

The names `stem0`, `stem1`, … are pairwise different, whatever the stem ends in, so a record with
finitely many names has a first number whose field is missing or empty.  The loop stops there with
all texts before it, and `numberedFields` is what it gives.  Which number that is depends on what
the record holds and not on the order of its entries.
-/

namespace Jigsaw

namespace Block

/-! ## The loop -/

/-- The field with a number is missing or empty. -/
def Vacant (fields : Record String) (stem : String) (i : Nat) : Prop :=
  fields.get? (stem ++ toString i) = none ∨ fields.get? (stem ++ toString i) = some ""

/-- A state of the reading. -/
structure Reading where
  /-- The texts read so far. -/
  texts : List String
  /-- The number of the next field. -/
  number : Nat

namespace Reading

/-- Nothing is read, and zero is the first number. -/
def start : Reading := ⟨[], 0⟩

/-- One round: the text of the next field. -/
def next (fields : Record String) (stem : String) (q : Reading) : Reading :=
  ⟨q.texts ++ [(fields.get? (stem ++ toString q.number)).getD ""], q.number + 1⟩

/-- **After `n` rounds the texts of the first `n` fields are read.** -/
theorem next_iterate (fields : Record String) (stem : String) : ∀ n,
    (next fields stem)^[n] start
      = ⟨(List.range n).map fun i => (fields.get? (stem ++ toString i)).getD "", n⟩
  | 0 => rfl
  | n + 1 => by
      rw [Function.iterate_succ_apply', next_iterate fields stem n, List.range_succ,
        List.map_append]
      rfl

end Reading

/-! ## The gap -/

variable {fields : Record String} {stem : String} {i k : Nat}

theorem vacant_iff : Vacant fields stem i ↔ (fields.get? (stem ++ toString i)).getD "" = "" := by
  rw [Vacant]
  cases fields.get? (stem ++ toString i) <;> simp

/-- A field that is not vacant has a text. -/
theorem get?_of_not_vacant (h : ¬ Vacant fields stem i) :
    fields.get? (stem ++ toString i) = some ((fields.get? (stem ++ toString i)).getD "") := by
  cases hget : fields.get? (stem ++ toString i) with
  | none => exact absurd (.inl hget) h
  | some text => rfl

/-- **There is a gap**, and as many names come before it as its number says. -/
theorem exists_isLeast_vacant (fields : Record String) (stem : String) :
    ∃ k, IsLeast {i | Vacant fields stem i} k ∧ k ≤ fields.names.toFinset.card := by
  have hpresent (i : Nat) (h : ¬ Vacant fields stem i) :
      stem ++ toString i ∈ fields.names.toFinset :=
    List.mem_toFinset.mpr (Record.mem_names_of_get? (get?_of_not_vacant h))
  simpa only [not_not] using exists_isLeast_gap (Name.append_toString_injective stem) hpresent

theorem not_vacant_of_lt (h : IsLeast {i | Vacant fields stem i} k) (hi : i < k) :
    ¬ Vacant fields stem i := fun hv => absurd (h.2 hv) (Nat.not_le.mpr hi)

/-- Taking while a test holds stops at the first number that fails it. -/
theorem takeWhile_map_range {α : Type} {f : Nat → α} {p : α → Bool} {n : Nat} (hk : k ≤ n)
    (hbefore : ∀ i < k, p (f i)) (hgap : p (f k) = false) :
    ((List.range n).map f).takeWhile p = (List.range k).map f := by
  obtain ⟨m, rfl⟩ := Nat.exists_eq_add_of_le hk
  rw [List.range_add, List.map_append, List.takeWhile_append_of_pos (by simpa using hbefore)]
  cases m with
  | zero => simp
  | succ m => simp [List.range_succ_eq_map, hgap]

/-- **The numbered fields are the texts before the gap.** -/
theorem numberedFields_of_isLeast {b : Block} (h : IsLeast {i | Vacant b.fields stem i} k) :
    b.numberedFields stem
      = (List.range k).map fun i => (b.fields.get? (stem ++ toString i)).getD "" := by
  -- The range that is searched is long enough: the gap comes before the names run out.
  have hk : k ≤ b.fields.length := by
    obtain ⟨m, hm, hcard⟩ := exists_isLeast_vacant b.fields stem
    rw [h.unique hm]
    exact hcard.trans ((List.toFinset_card_le _).trans_eq (List.length_map _))
  refine takeWhile_map_range hk (fun i hi => ?_) ?_
  · simpa [vacant_iff, field, fieldOr] using not_vacant_of_lt h hi
  · simpa [vacant_iff, field, fieldOr] using h.1

/-- Fields that hold the same texts have the same gap. -/
theorem vacant_congr {other : Record String} (h : ∀ name, fields.get? name = other.get? name) :
    Vacant fields stem = Vacant other stem := by
  funext i
  rw [Vacant, Vacant, h]

/-- **Numbered fields end at the first gap and lose nothing before it.**  For every block and every
stem there is a least number whose field is missing or empty.  The loop has one end, there; what it
has read by then is what the block gives, one present text for each smaller number, in order.  The
number is at most the number of names, and a block with the same fields entered in another order
has the same gap and the same texts. -/
theorem numberedFields_up_to_gap (b : Block) (stem : String) :
    ∃ k, IsLeast {i | Vacant b.fields stem i} k ∧
      (∀ q, Loop.Ends (fun q : Reading => ¬ Vacant b.fields stem q.number)
        (Reading.next b.fields stem) Reading.start q ↔ q = ⟨b.numberedFields stem, k⟩) ∧
      (b.numberedFields stem).map some
        = (List.range k).map (fun i => b.fields.get? (stem ++ toString i)) ∧
      k ≤ b.fields.names.toFinset.card ∧
      ∀ c : Block, b.fields.Perm c.fields → b.fields.names.Nodup →
        IsLeast {i | Vacant c.fields stem i} k ∧ c.numberedFields stem = b.numberedFields stem := by
  obtain ⟨k, hleast, hcard⟩ := exists_isLeast_vacant b.fields stem
  have htexts := numberedFields_of_isLeast hleast
  refine ⟨k, hleast, fun q => ?_, ?_, hcard, fun c hperm hnames => ?_⟩
  · rw [Loop.ends_iff_of_isLeast (n := k), Reading.next_iterate, htexts]
    simpa only [Reading.next_iterate, not_not] using hleast
  · rw [htexts, List.map_map]
    refine List.map_congr_left fun i hi => ?_
    exact (get?_of_not_vacant (not_vacant_of_lt hleast (List.mem_range.mp hi))).symm
  · have hget := Record.get?_of_perm hperm hnames
    have hleast' : IsLeast {i | Vacant c.fields stem i} k := vacant_congr hget ▸ hleast
    refine ⟨hleast', ?_⟩
    rw [numberedFields_of_isLeast hleast', htexts]
    exact List.map_congr_left fun i _ => by rw [hget]

/-- With the names entered in another order, an empty stem and a gap at two. -/
example : Block.numberedFields
    (.mk "t" "" [("1", "b"), ("3", "d"), ("0", "a"), ("2", "")] [] [] none []) "" = ["a", "b"] := by
  decide

end Block

end Jigsaw
