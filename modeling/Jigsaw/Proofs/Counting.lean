import Mathlib.Data.Finset.Card
import Mathlib.Data.Nat.Find
import Mathlib.Order.Bounds.Basic

/-!
# Proofs/Counting — loops that count up to a gap

    while again: next

A loop that counts upward has no bound in sight.  It ends because the texts it comes by are pairwise
different and those that keep it going stand in a finite set: `exists_isLeast_gap` bounds the first
number that stops it by the size of that set, and `Loop.ends_iff_of_isLeast` says that the loop ends
in the state of that round and in no other.
-/

namespace Jigsaw

/-! ## Loops -/

/-- **A loop runs to its end**: while `again` holds of the state, `next` is done once more. -/
inductive Loop.Ends {σ : Type} (again : σ → Prop) (next : σ → σ) : σ → σ → Prop
  /-- The guard fails. -/
  | stop {s : σ} (h : ¬ again s) : Ends again next s s
  /-- The guard holds, and the rest of the loop runs to its end. -/
  | round {s t : σ} (h : again s) (rest : Ends again next (next s) t) : Ends again next s t

namespace Loop

variable {σ : Type} {again : σ → Prop} {next : σ → σ}

/-- A loop has one end. -/
theorem Ends.unique {s t u : σ} (ht : Ends again next s t) (hu : Ends again next s u) : t = u := by
  induction ht with
  | stop h =>
    cases hu with
    | stop _ => rfl
    | round h' _ => exact absurd h' h
  | round h _ ih =>
    cases hu with
    | stop h' => exact absurd h h'
    | round _ rest => exact ih rest

/-- A loop whose guard holds for `n` rounds and then fails ends after them. -/
theorem ends_of_rounds : ∀ (n : Nat) {s : σ}, (∀ m < n, again (next^[m] s)) →
    ¬ again (next^[n] s) → Ends again next s (next^[n] s)
  | 0, _, _, hstop => .stop hstop
  | n + 1, _, hrounds, hstop =>
    .round (hrounds 0 n.succ_pos)
      (ends_of_rounds n (fun m hm => hrounds (m + 1) (Nat.succ_lt_succ hm)) hstop)

/-- **A loop ends in the state of the first round whose guard fails**, and in no other. -/
theorem ends_iff_of_isLeast {s t : σ} {n : Nat} (h : IsLeast {m | ¬ again (next^[m] s)} n) :
    Ends again next s t ↔ t = next^[n] s := by
  have hend : Ends again next s (next^[n] s) := by
    refine ends_of_rounds n (fun m hm => ?_) h.1
    by_contra hfails
    exact absurd (h.2 hfails) (Nat.not_le.mpr hm)
  exact ⟨fun ht => ht.unique hend, fun ht => ht ▸ hend⟩

end Loop

/-! ## Gaps -/

variable {α : Type} {f : Nat → α} {p : Nat → Prop}

/-- Pairwise different members of a finite set are no more than it has. -/
theorem le_card_of_injective (hf : f.Injective) {S : Finset α} {n : Nat}
    (h : ∀ m < n, f m ∈ S) : n ≤ S.card := by
  calc n = (Finset.range n).card := (Finset.card_range n).symm
    _ ≤ S.card := Finset.card_le_card_of_injOn f
      (fun m hm => h m (Finset.mem_range.mp hm)) hf.injOn

/-- **Numbers that name different members of a finite set have a gap**: the least number without
the property exists and is at most the size of the set. -/
theorem exists_isLeast_gap (hf : f.Injective) {S : Finset α} (hp : ∀ n, p n → f n ∈ S) :
    ∃ n, IsLeast {m | ¬ p m} n ∧ n ≤ S.card := by
  classical
  have hgap : ∃ n, ¬ p n := by
    by_contra hall
    have hle : S.card + 1 ≤ S.card :=
      le_card_of_injective hf fun m _ => hp m (not_not.mp fun hm => hall ⟨m, hm⟩)
    omega
  refine ⟨Nat.find hgap, ⟨Nat.find_spec hgap, fun m hm => Nat.find_min' hgap hm⟩, ?_⟩
  exact le_card_of_injective hf fun m hm => hp m (not_not.mp (Nat.find_min hgap hm))

end Jigsaw
