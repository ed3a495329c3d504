import Jigsaw.Proofs.Number.Rounding
import Mathlib.Data.Nat.Cast.Order.Field
import Mathlib.Data.Rat.Floor

/-!
# Proofs/Number/Shortest — writing takes the fewest digits that read back

The decimals `k · 10 ^ e` of one exponent form a grid, and finer grids contain the coarser ones.
Writing looks for the first grid, from coarse to fine, that has a point among the numbers that a
magnitude covers, and takes the point that is nearest to the magnitude.  There is always such a grid
(`exists_covers_fine`), and what is found has the fewest digits of all decimals that read back
(`shortest_spec`).
-/

namespace Jigsaw

namespace Binary64

/-! ## Intervals -/

/-- The interval holds what the magnitude covers, in units of `1 / u`. -/
structure Interval.Measures (i : Interval) (x : Binary64) (u : ℚ) : Prop where
  pos : 0 < u
  low : (i.low : ℚ) = (x.value - x.stepBelow / 2) * u
  mid : (i.mid : ℚ) = x.value * u
  high : (i.high : ℚ) = (x.value + x.step / 2) * u
  closed : i.closed = (x.significand % 2 = 0 : Bool)

theorem unit_interval_pos (x : Binary64) : 0 < x.interval.unit := by
  change 0 < if 0 ≤ x.exponent then 4 else 4 * Nat.pow 2 (-x.exponent).toNat
  split
  · norm_num
  · exact Nat.mul_pos (by norm_num) (Nat.pow_pos two_pos)

/-- The common scale of the bounds turns quarters of a step into naturals. -/
theorem scale_interval (x : Binary64) (n : ℕ) :
    ((if 0 ≤ x.exponent then n * Nat.pow 2 x.exponent.toNat else n : ℕ) : ℚ)
      = n / 4 * x.step * x.interval.unit := by
  change _ = _ * ((if 0 ≤ x.exponent then 4 else 4 * Nat.pow 2 (-x.exponent).toNat : ℕ) : ℚ)
  unfold step
  split
  · rename_i he
    obtain ⟨k, hk⟩ := Int.eq_ofNat_of_zero_le he
    rw [hk, zpow_natCast, Int.toNat_natCast, Nat.pow_eq]
    push_cast
    ring
  · rename_i he
    obtain ⟨k, hk⟩ := Int.eq_ofNat_of_zero_le (show 0 ≤ -x.exponent by omega)
    rw [show x.exponent = -k by omega, neg_neg, zpow_neg, zpow_natCast, Int.toNat_natCast,
      Nat.pow_eq]
    push_cast
    field_simp

theorem measures_interval {x : Binary64} (h : x.significand ≠ 0) :
    x.interval.Measures x x.interval.unit where
  pos := by exact_mod_cast x.unit_interval_pos
  low := by
    refine (x.scale_interval _).trans ?_
    congr 1
    have hone : 1 ≤ 4 * x.significand := by omega
    have htwo : 2 ≤ 4 * x.significand := by omega
    by_cases hshort : x.significand = 2 ^ 52 ∧ leastExponent < x.exponent
    · have hcond : (x.significand = Nat.pow 2 (precision - 1) && leastExponent < x.exponent)
          = true := by
        rw [Bool.and_eq_true, decide_eq_true_eq, decide_eq_true_eq]
        exact hshort
      rw [if_pos hcond, stepBelow, if_pos hshort, value, ← step]
      push_cast [hone]
      ring
    · have hcond : ¬ (x.significand = Nat.pow 2 (precision - 1) && leastExponent < x.exponent)
          = true := by
        rw [Bool.and_eq_true, decide_eq_true_eq, decide_eq_true_eq]
        exact hshort
      rw [if_neg hcond, stepBelow, if_neg hshort, value, ← step]
      push_cast [htwo]
      ring
  mid := by
    refine (x.scale_interval _).trans ?_
    rw [value, ← step]
    push_cast
    ring
  high := by
    refine (x.scale_interval _).trans ?_
    rw [value, ← step]
    push_cast
    ring
  closed := rfl

theorem contains_iff {i : Interval} {x : Binary64} {u : ℚ} (h : i.Measures x u) {n : ℕ} {v : ℚ}
    (hv : n = v * u) : i.contains n ↔ x.Covers v := by
  have hpos := h.pos
  have hlow : i.low ≤ n ↔ x.value - x.stepBelow / 2 ≤ v := by
    rw [← mul_le_mul_iff_left₀ hpos, ← h.low, ← hv]
    exact_mod_cast Iff.rfl
  have hhigh : n ≤ i.high ↔ v ≤ x.value + x.step / 2 := by
    rw [← mul_le_mul_iff_left₀ hpos, ← h.high, ← hv]
    exact_mod_cast Iff.rfl
  have hlow' : i.low < n ↔ x.value - x.stepBelow / 2 < v := by
    rw [← mul_lt_mul_iff_left₀ hpos, ← h.low, ← hv]
    exact_mod_cast Iff.rfl
  have hhigh' : n < i.high ↔ v < x.value + x.step / 2 := by
    rw [← mul_lt_mul_iff_left₀ hpos, ← h.high, ← hv]
    exact_mod_cast Iff.rfl
  unfold Interval.contains
  rw [h.closed]
  split
  · rename_i heven
    rw [decide_eq_true_eq] at heven
    rw [Bool.and_eq_true, decide_eq_true_eq, decide_eq_true_eq, hlow, hhigh]
    exact ⟨fun ⟨hle, hle'⟩ => ⟨hle, hle', fun hodd => absurd hodd (by omega)⟩,
      fun hcovers => ⟨hcovers.low, hcovers.high⟩⟩
  · rename_i hodd
    rw [decide_eq_true_eq] at hodd
    rw [Bool.and_eq_true, decide_eq_true_eq, decide_eq_true_eq, hlow', hhigh']
    exact ⟨fun ⟨hlt, hlt'⟩ => ⟨hlt.le, hlt'.le, fun _ => ⟨hlt, hlt'⟩⟩,
      fun hcovers => hcovers.inside (by omega)⟩

/-- A magnitude covers itself, -/
theorem covers_self (x : Binary64) : x.Covers x.value := by
  have hstep := x.step_pos
  have hbelow := x.stepBelow_pos
  exact ⟨by linarith, by linarith, fun _ => ⟨by linarith, by linarith⟩⟩

/-- …and what lies between two numbers that it covers. -/
theorem Covers.between {x : Binary64} {u v w : ℚ} (hu : x.Covers u) (hw : x.Covers w)
    (huv : u ≤ v) (hvw : v ≤ w) : x.Covers v where
  low := hu.low.trans huv
  high := hvw.trans hw.high
  inside hodd := ⟨(hu.inside hodd).1.trans_le huv, hvw.trans_lt (hw.inside hodd).2⟩

/-! ## Grids -/

/-- The interval on the scale of a grid, -/
def Interval.widen (i : Interval) (e : Int) : Interval :=
  let scale := fun n : Nat => if 0 ≤ e then n else n * Nat.pow 10 (-e).toNat
  { i with low := scale i.low, mid := scale i.mid, high := scale i.high }

/-- …and the distance between the points of the grid. -/
def Interval.spacing (i : Interval) (e : Int) : Nat :=
  if 0 ≤ e then i.unit * Nat.pow 10 e.toNat else i.unit

/-- The last point before the middle is preferred to the first one after it. -/
def Interval.prefersBelow (i : Interval) (spacing : Nat) : Bool :=
  let below := i.mid / spacing
  let down := i.mid - below * spacing
  let up := (below + 1) * spacing - i.mid
  down < up || (down = up && below % 2 = 0)

/-- The choice between the two points around the middle. -/
def Interval.choose (i : Interval) (spacing : Nat) : Option Nat :=
  let below := i.mid / spacing
  if i.contains (below * spacing) &&
      (i.prefersBelow spacing || !i.contains ((below + 1) * spacing)) then some below
  else if i.contains ((below + 1) * spacing) then some (below + 1)
  else none

theorem onGrid?_eq_choose (i : Interval) (e : Int) :
    i.onGrid? e = (i.widen e).choose (i.spacing e) := rfl

/-- On the scale of a grid all bounds are naturals again. -/
theorem measures_widen {i : Interval} {x : Binary64} (h : i.Measures x i.unit) (e : ℤ) :
    ∃ u : ℚ, (i.widen e).Measures x u ∧ (i.spacing e : ℚ) = 10 ^ e * u := by
  obtain ⟨w, hpos, hscale, hspacing⟩ : ∃ w : ℚ, 0 < w ∧
      (∀ n : ℕ, ((if 0 ≤ e then n else n * Nat.pow 10 (-e).toNat : ℕ) : ℚ) = n * w) ∧
      (i.spacing e : ℚ) = 10 ^ e * (i.unit * w) := by
    unfold Interval.spacing
    split
    · rename_i he
      obtain ⟨k, rfl⟩ := Int.eq_ofNat_of_zero_le he
      refine ⟨1, one_pos, fun n => (mul_one _).symm, ?_⟩
      rw [zpow_natCast, Int.toNat_natCast, Nat.pow_eq]
      push_cast
      ring
    · rename_i he
      obtain ⟨k, hk⟩ := Int.eq_ofNat_of_zero_le (show 0 ≤ -e by omega)
      obtain rfl : e = -k := by omega
      refine ⟨10 ^ k, by positivity, fun n => ?_, ?_⟩
      · rw [neg_neg, Int.toNat_natCast, Nat.pow_eq]
        push_cast
        ring
      · rw [zpow_neg, zpow_natCast]
        field_simp
  refine ⟨i.unit * w, ⟨mul_pos h.pos hpos, ?_, ?_, ?_, h.closed⟩, hspacing⟩
  · rw [← mul_assoc, ← h.low]
    exact hscale _
  · rw [← mul_assoc, ← h.mid]
    exact hscale _
  · rw [← mul_assoc, ← h.high]
    exact hscale _

section Choice

variable {i : Interval} {x : Binary64} {u s : ℚ} {spacing : ℕ} (h : i.Measures x u)
  (hspacing : spacing = s * u)

include h hspacing

theorem contains_point (k : ℕ) : i.contains (k * spacing) ↔ x.Covers (k * s) :=
  contains_iff h (by push_cast; rw [hspacing, mul_assoc])

variable (hs : 0 < s)

include hs

theorem div_mul_around :
    i.mid / spacing * spacing ≤ i.mid ∧ i.mid < (i.mid / spacing + 1) * spacing := by
  have hpos : (0 : ℚ) < spacing := hspacing ▸ mul_pos hs h.pos
  rw [mul_comm (i.mid / spacing + 1)]
  exact ⟨Nat.div_mul_le_self _ _, Nat.lt_mul_div_succ _ (by exact_mod_cast hpos)⟩

/-- The two points stand around the magnitude, -/
theorem value_around :
    (i.mid / spacing : ℕ) * s ≤ x.value ∧ x.value < (i.mid / spacing + 1 : ℕ) * s := by
  obtain ⟨hle, hlt⟩ := div_mul_around h hspacing hs
  constructor
  · rw [← mul_le_mul_iff_left₀ h.pos, mul_assoc, ← hspacing, ← h.mid]
    exact_mod_cast hle
  · rw [← mul_lt_mul_iff_left₀ h.pos, mul_assoc, ← hspacing, ← h.mid]
    exact_mod_cast hlt

/-- …and the one that is preferred is no farther from it than the other. -/
theorem prefersBelow_spec :
    (i.prefersBelow spacing →
      x.value - (i.mid / spacing : ℕ) * s ≤ (i.mid / spacing + 1 : ℕ) * s - x.value) ∧
    (¬ i.prefersBelow spacing →
      (i.mid / spacing + 1 : ℕ) * s - x.value ≤ x.value - (i.mid / spacing : ℕ) * s) := by
  obtain ⟨hle, hlt⟩ := div_mul_around h hspacing hs
  have hdown : ((i.mid - i.mid / spacing * spacing : ℕ) : ℚ)
      = (x.value - (i.mid / spacing : ℕ) * s) * u := by
    rw [Nat.cast_sub hle, Nat.cast_mul, h.mid, hspacing]
    ring
  have hup : (((i.mid / spacing + 1) * spacing - i.mid : ℕ) : ℚ)
      = ((i.mid / spacing + 1 : ℕ) * s - x.value) * u := by
    rw [Nat.cast_sub hlt.le, Nat.cast_mul, h.mid, hspacing]
    ring
  unfold Interval.prefersBelow
  simp only [Bool.or_eq_true, Bool.and_eq_true, decide_eq_true_eq]
  constructor
  · intro hbelow
    rw [← mul_le_mul_iff_left₀ h.pos, ← hdown, ← hup, Nat.cast_le]
    omega
  · intro habove
    rw [← mul_le_mul_iff_left₀ h.pos, ← hdown, ← hup, Nat.cast_le]
    omega

/-- A point that is covered lies on one side of the magnitude.  The point of the grid next to the
magnitude on this side is covered, too, and no farther. -/
theorem next_of_covers {c : ℕ} (hc : x.Covers (c * s)) :
    (x.Covers ((i.mid / spacing : ℕ) * s) ∧
      x.value - (i.mid / spacing : ℕ) * s ≤ |c * s - x.value|) ∨
    (x.Covers ((i.mid / spacing + 1 : ℕ) * s) ∧
      (i.mid / spacing + 1 : ℕ) * s - x.value ≤ |c * s - x.value|) := by
  obtain ⟨hle, hlt⟩ := value_around h hspacing hs
  rcases Nat.lt_or_ge (i.mid / spacing) c with hgt | hge
  · have hpoint : ((i.mid / spacing + 1 : ℕ) : ℚ) * s ≤ c * s :=
      mul_le_mul_of_nonneg_right (by exact_mod_cast hgt) hs.le
    refine Or.inr ⟨x.covers_self.between hc hlt.le hpoint, ?_⟩
    linarith [le_abs_self (c * s - x.value)]
  · have hpoint : (c : ℚ) * s ≤ (i.mid / spacing : ℕ) * s :=
      mul_le_mul_of_nonneg_right (by exact_mod_cast hge) hs.le
    refine Or.inl ⟨hc.between x.covers_self hpoint hle, ?_⟩
    linarith [neg_le_abs (c * s - x.value)]

/-- **The choice is covered and a nearest of the points that are**, -/
theorem choose_eq_some {k : ℕ} (hk : i.choose spacing = some k) :
    x.Covers (k * s) ∧ ∀ c : ℕ, x.Covers (c * s) → |k * s - x.value| ≤ |c * s - x.value| := by
  obtain ⟨hle, hlt⟩ := value_around h hspacing hs
  obtain ⟨hprefers, hnot⟩ := prefersBelow_spec h hspacing hs
  have hpoint := contains_point h hspacing
  unfold Interval.choose at hk
  simp only [Bool.and_eq_true, Bool.or_eq_true, Bool.not_eq_true'] at hk
  split at hk
  · rename_i hbelow
    cases hk
    refine ⟨(hpoint _).mp hbelow.1, fun c hc => ?_⟩
    rw [abs_sub_comm, abs_of_nonneg (sub_nonneg.mpr hle)]
    rcases next_of_covers h hspacing hs hc with ⟨-, hdist⟩ | ⟨habove, hdist⟩
    · exact hdist
    · rw [← hpoint] at habove
      exact (hprefers (hbelow.2.resolve_right (by simp [habove]))).trans hdist
  · rename_i hbelow
    split at hk
    · rename_i habove
      cases hk
      refine ⟨(hpoint _).mp habove, fun c hc => ?_⟩
      rw [abs_of_pos (sub_pos.mpr hlt)]
      rcases next_of_covers h hspacing hs hc with ⟨hcovers, hdist⟩ | ⟨-, hdist⟩
      · rw [← hpoint] at hcovers
        exact (hnot fun hprefers => hbelow ⟨hcovers, Or.inl hprefers⟩).trans hdist
      · exact hdist
    · cases hk

/-- …**and there is none only if no point is.** -/
theorem choose_eq_none (hnone : i.choose spacing = none) (c : ℕ) : ¬ x.Covers (c * s) := by
  intro hc
  have hpoint := contains_point h hspacing
  unfold Interval.choose at hnone
  simp only [Bool.and_eq_true, Bool.or_eq_true, Bool.not_eq_true'] at hnone
  split at hnone
  · cases hnone
  · rename_i hbelow
    split at hnone
    · cases hnone
    · rename_i habove
      rcases next_of_covers h hspacing hs hc with ⟨hcovers, -⟩ | ⟨hcovers, -⟩
      · exact hbelow ⟨(hpoint _).mpr hcovers, Or.inr (by simpa using habove)⟩
      · exact habove ((hpoint _).mpr hcovers)

end Choice

/-- The digits of a quotient say between which powers of ten it is. -/
theorem ten_zpow_digits_div {a b : ℕ} (hb : 0 < b) (hab : b ≤ a) :
    (10 : ℚ) ^ ((a / b).repr.length - 1 : ℤ) ≤ a / b ∧
      (a : ℚ) / b < 10 ^ ((a / b).repr.length : ℤ) := by
  have hpos : (0 : ℚ) < b := by exact_mod_cast hb
  obtain ⟨hlow, hhigh⟩ := ten_zpow_digits (Nat.div_pos hab hb)
  have hfloor : ((a / b : ℕ) : ℚ) ≤ a / b := Nat.cast_div_le
  have hceil : (a : ℚ) / b < (a / b : ℕ) + 1 := by
    rw [div_lt_iff₀' hpos]
    exact_mod_cast Nat.lt_mul_div_succ a hb
  refine ⟨hlow.trans hfloor, hceil.trans_le ?_⟩
  rw [zpow_natCast] at hhigh ⊢
  exact_mod_cast hhigh

section Search

variable {x : Binary64} (h : x.significand ≠ 0)

include h

theorem onGrid?_eq_some {e : ℤ} {k : ℕ} (hk : x.interval.onGrid? e = some k) :
    x.Covers (k * 10 ^ e) ∧
      ∀ c : ℕ, x.Covers (c * 10 ^ e) → |k * 10 ^ e - x.value| ≤ |c * 10 ^ e - x.value| := by
  obtain ⟨u, hmeasures, hspacing⟩ := measures_widen (measures_interval h) e
  rw [onGrid?_eq_choose] at hk
  exact choose_eq_some hmeasures hspacing (by positivity) hk

theorem onGrid?_eq_none {e : ℤ} (hnone : x.interval.onGrid? e = none) (c : ℕ) :
    ¬ x.Covers (c * 10 ^ e) := by
  obtain ⟨u, hmeasures, hspacing⟩ := measures_widen (measures_interval h) e
  rw [onGrid?_eq_choose] at hnone
  exact choose_eq_none hmeasures hspacing (by positivity) hnone c

theorem value_pos : 0 < x.value := by
  have hm : (0 : ℚ) < x.significand := by exact_mod_cast Nat.pos_of_ne_zero h
  exact mul_pos hm x.step_pos

/-- The first digit of a magnitude has this power of ten. -/
theorem log10_spec :
    (10 : ℚ) ^ x.interval.log10 ≤ x.value ∧ x.value < 10 ^ (x.interval.log10 + 1) := by
  have hmeasures := measures_interval h
  have hunit := x.unit_interval_pos
  have hmid : 0 < x.interval.mid := by
    have hpos : (0 : ℚ) < x.interval.mid := hmeasures.mid ▸ mul_pos (value_pos h) hmeasures.pos
    exact_mod_cast hpos
  have hvalue : x.value = x.interval.mid / x.interval.unit := by
    rw [hmeasures.mid, mul_div_cancel_right₀ _ hmeasures.pos.ne']
  unfold Interval.log10
  split
  · rename_i hle
    rw [hvalue, sub_add_cancel]
    exact ten_zpow_digits_div hunit hle
  · rename_i hlt
    obtain ⟨hlow, hhigh⟩ := ten_zpow_digits_div hmid (not_le.mp hlt).le
    obtain ⟨n, hn⟩ : ∃ n : ℤ, n = ((x.interval.unit / x.interval.mid).repr.length : ℤ) := ⟨_, rfl⟩
    have hinv : (x.interval.unit : ℚ) / x.interval.mid = x.value⁻¹ := by rw [hvalue, inv_div]
    rw [← hn, hinv] at hlow hhigh
    have hle : x.value ≤ 10 ^ (-n + 1) := by
      rw [show -n + 1 = -(n - 1) by ring, zpow_neg]
      exact (le_inv_comm₀ (by positivity) (value_pos h)).mp hlow
    have hlt : 10 ^ (-n) < x.value := by
      rw [zpow_neg]
      exact (inv_lt_comm₀ (value_pos h) (by positivity)).mp hhigh
    have hexact : x.interval.unit ≤ x.interval.mid * Nat.pow 10 (-(-n) - 1).toNat ↔
        10 ^ (-n + 1) ≤ x.value := by
      obtain ⟨k, hk⟩ := Int.eq_ofNat_of_zero_le (show 0 ≤ n - 1 by
        have hpos := length_repr_pos (x.interval.unit / x.interval.mid)
        omega)
      rw [show -n + 1 = -(n - 1) by ring, neg_neg, hk, zpow_neg, zpow_natCast, Int.toNat_natCast,
        inv_le_iff_one_le_mul₀ (by positivity), hvalue, div_mul_eq_mul_div,
        one_le_div hmeasures.pos]
      exact_mod_cast Iff.rfl
    dsimp only
    rw [← hn]
    split
    · rename_i hunit
      refine ⟨hexact.mp hunit, hle.trans_lt ?_⟩
      exact zpow_lt_zpow_right₀ (by norm_num) (by omega)
    · rename_i hunit
      exact ⟨hlt.le, not_le.mp fun hge => hunit (hexact.mpr hge)⟩

/-- **Some grid is fine enough**: with 18 digits there is a point among the numbers covered. -/
theorem exists_covers_fine (hx : x.significand < 2 ^ 53) {e : ℤ} (he : (10 : ℚ) ^ e ≤ x.value) :
    ∃ c : ℕ, x.Covers (c * 10 ^ (e - 17)) := by
  have hpos : (0 : ℚ) < 10 ^ (e - 17) := by positivity
  have hten : (10 : ℚ) ^ (e - 17) * 10 ^ 17 = 10 ^ e := by
    rw [← zpow_natCast, ← zpow_add₀ (by norm_num)]
    congr 1
    omega
  have hstep := x.step_pos
  have hvalue : x.value < 2 ^ 53 * x.step :=
    mul_lt_mul_of_pos_right (by exact_mod_cast hx) hstep
  have hbelow : x.step / 2 ≤ x.stepBelow := by
    unfold stepBelow
    split <;> linarith
  have hfine : 10 ^ (e - 17) < x.stepBelow / 2 := by linarith
  have hfloor := Nat.floor_le (div_pos (value_pos h) hpos).le
  have hceil := Nat.lt_floor_add_one (x.value / 10 ^ (e - 17))
  rw [le_div_iff₀ hpos] at hfloor
  rw [div_lt_iff₀ hpos] at hceil
  exact ⟨⌊x.value / 10 ^ (e - 17)⌋₊, by linarith, by linarith,
    fun _ => ⟨by linarith, by linarith⟩⟩

end Search

/-- The search finds the first grid with a point, if there is one. -/
theorem firstGrid_spec (i : Interval) (e : ℤ) (n : ℕ) (h : (i.onGrid? (e - n)).isSome) :
    i.onGrid? (i.firstGrid e n).2 = some (i.firstGrid e n).1 ∧ (i.firstGrid e n).2 ≤ e ∧
      ∀ f, (i.firstGrid e n).2 < f → f ≤ e → i.onGrid? f = none := by
  induction n generalizing e with
  | zero =>
    obtain ⟨k, hk⟩ := Option.isSome_iff_exists.mp h
    rw [Nat.cast_zero, sub_zero] at hk
    rw [Interval.firstGrid, hk]
    exact ⟨rfl, le_refl _, fun f hlt hle => absurd hle (not_le.mpr hlt)⟩
  | succ n ih =>
    rw [Interval.firstGrid]
    cases hgrid : i.onGrid? e with
    | some k => exact ⟨hgrid, le_refl _, fun f hlt hle => absurd hle (not_le.mpr hlt)⟩
    | none =>
      rw [show e - (n + 1 : ℕ) = e - 1 - n by push_cast; ring] at h
      obtain ⟨hfound, hle, hcoarse⟩ := ih (e - 1) h
      refine ⟨hfound, by dsimp only; omega, fun f hlt hle => ?_⟩
      rcases hle.lt_or_eq with hlt' | rfl
      · exact hcoarse f hlt (by omega)
      · exact hgrid

/-! ## Digits -/

/-- A decimal has at most this many digits exactly if it is below this power of ten. -/
theorem length_repr_le_iff_lt {c : ℕ} {f n : ℤ} (h : f < n) :
    (c.repr.length : ℤ) ≤ n - f ↔ c * (10 : ℚ) ^ f < 10 ^ n := by
  obtain ⟨k, hk⟩ := Int.eq_ofNat_of_zero_le (show 0 ≤ n - f by omega)
  have hpow : (10 : ℚ) ^ n = 10 ^ k * 10 ^ f := by
    rw [← zpow_natCast, ← zpow_add₀ (by norm_num)]
    congr 1
    omega
  rw [hk, Nat.cast_le, Nat.length_repr_le_iff (by omega), hpow,
    mul_lt_mul_iff_left₀ (by positivity)]
  exact_mod_cast Iff.rfl

/-- Finer grids contain the coarser ones. -/
theorem exists_mul_ten_zpow (c : ℕ) {e f : ℤ} (h : e ≤ f) :
    ∃ d : ℕ, (d : ℚ) * 10 ^ e = c * 10 ^ f := by
  obtain ⟨k, hk⟩ := Int.eq_ofNat_of_zero_le (show 0 ≤ f - e by omega)
  refine ⟨c * 10 ^ k, ?_⟩
  push_cast
  rw [mul_assoc, ← zpow_natCast, ← zpow_add₀ (by norm_num)]
  congr 2
  omega

/-- Without its last zeros a coefficient stands for the same number, -/
theorem dropZeros_value (k : ℕ) (e : ℤ) (bound : ℕ) :
    ((dropZeros k e bound).1 : ℚ) * 10 ^ (dropZeros k e bound).2 = k * 10 ^ e := by
  induction bound generalizing k e with
  | zero => rfl
  | succ bound ih =>
    rw [dropZeros]
    split
    · rename_i hzero
      rw [Bool.and_eq_true, decide_eq_true_eq, decide_eq_true_eq] at hzero
      have hk : (k : ℚ) = (k / 10 : ℕ) * 10 := by
        exact_mod_cast (Nat.div_mul_cancel (Nat.dvd_of_mod_eq_zero hzero.2)).symm
      rw [ih, hk, zpow_add_one₀ (by norm_num)]
      ring
    · rfl

/-- …is no greater, -/
theorem dropZeros_le (k : ℕ) (e : ℤ) (bound : ℕ) : (dropZeros k e bound).1 ≤ k := by
  induction bound generalizing k e with
  | zero => exact le_refl _
  | succ bound ih =>
    rw [dropZeros]
    split
    · exact (ih _ _).trans (Nat.div_le_self _ _)
    · exact le_refl _

/-- …and one digit is left of ten. -/
theorem dropZeros_lt_ten {k : ℕ} (h : k ≤ 10) (e : ℤ) (bound : ℕ) :
    (dropZeros k e (bound + 1)).1 < 10 := by
  rcases h.lt_or_eq with hlt | rfl
  · exact (dropZeros_le _ _ _).trans_lt hlt
  · exact (dropZeros_le (10 / 10) (e + 1) bound).trans_lt (by norm_num)

/-! ## The fewest digits -/

/-- **The decimal is the shortest that reads back as the magnitude**: no decimal that reads back has
fewer digits, and none with as few is nearer. -/
structure Shortest (x : Binary64) (k : ℕ) (e : ℤ) : Prop where
  reads : ofDecimal? k e = some x
  fewest : ∀ (c : ℕ) (f : ℤ), ofDecimal? c f = some x → k.repr.length ≤ c.repr.length
  nearest : ∀ (c : ℕ) (f : ℤ), ofDecimal? c f = some x → c.repr.length = k.repr.length →
    |k * 10 ^ e - x.value| ≤ |c * 10 ^ f - x.value|

section Found

variable {x : Binary64} (hx : x.Canonical)

include hx

theorem reads_iff {c : ℕ} {f : ℤ} : ofDecimal? c f = some x ↔ x.Covers (c * 10 ^ f) := by
  rw [ofDecimal?_eq_some_iff, and_iff_right hx]

theorem shortest_zero (h : x.significand = 0) : x.Shortest 0 0 := by
  have hvalue : x.value = 0 := by rw [value, h, Nat.cast_zero, zero_mul]
  refine ⟨?_, fun c f _ => length_repr_pos c, fun c f _ _ => ?_⟩
  · rw [reads_iff hx, Nat.cast_zero, zero_mul, ← hvalue]
    exact x.covers_self
  · rw [hvalue, Nat.cast_zero, zero_mul, sub_zero, abs_zero]
    exact abs_nonneg _

variable (h : x.significand ≠ 0) {k : ℕ} {e : ℤ} (hk : x.interval.onGrid? e = some k)

include h hk

/-- A point on the grid of the first digit has one digit, without its zero, and is nearest of all
decimals with one digit. -/
theorem shortest_coarse (he : e = x.interval.log10) (bound : ℕ) :
    x.Shortest (dropZeros k e (bound + 1)).1 (dropZeros k e (bound + 1)).2 := by
  obtain ⟨hlow, hhigh⟩ := log10_spec h
  obtain ⟨hcovers, hnearest⟩ := onGrid?_eq_some h hk
  rw [← he] at hlow hhigh
  rw [zpow_add_one₀ (by norm_num), mul_comm] at hhigh
  have hten : k ≤ 10 := by
    by_contra hgt
    have hlt : (10 : ℚ) * 10 ^ e < k * 10 ^ e :=
      mul_lt_mul_of_pos_right (by exact_mod_cast not_le.mp hgt) (by positivity)
    have hnearer := hnearest 10 (x.covers_self.between hcovers hhigh.le hlt.le)
    rw [Nat.cast_ofNat, abs_of_pos (sub_pos.mpr (hhigh.trans hlt)),
      abs_of_pos (sub_pos.mpr hhigh)] at hnearer
    linarith
  have hone : (dropZeros k e (bound + 1)).1.repr.length ≤ 1 :=
    (Nat.length_repr_le_iff one_pos).mpr (dropZeros_lt_ten hten e bound)
  refine ⟨by rwa [reads_iff hx, dropZeros_value], fun c f _ => hone.trans (length_repr_pos c),
    fun c f hc hlength => ?_⟩
  rw [reads_iff hx] at hc
  rw [dropZeros_value]
  rcases le_or_gt e f with hle | hlt
  · obtain ⟨d, hd⟩ := exists_mul_ten_zpow c hle
    rw [← hd] at hc ⊢
    exact hnearest d hc
  · -- The decimal has its digit further to the right, so it is less than the power of ten.
    have hbelow : c * (10 : ℚ) ^ f < 10 ^ e := (length_repr_le_iff_lt hlt).mp (by omega)
    have hpower : x.Covers ((1 : ℕ) * 10 ^ e) := by
      rw [Nat.cast_one, one_mul]
      exact hc.between x.covers_self hbelow.le hlow
    calc |k * 10 ^ e - x.value| ≤ |(1 : ℕ) * 10 ^ e - x.value| := hnearest 1 hpower
      _ = x.value - 10 ^ e := by
        rw [Nat.cast_one, one_mul, abs_sub_comm, abs_of_nonneg (sub_nonneg.mpr hlow)]
      _ ≤ |c * 10 ^ f - x.value| := by linarith [neg_le_abs (c * 10 ^ f - x.value)]

/-- A point on a finer grid has as many digits as the grid, and every other decimal that is covered
has no fewer. -/
theorem shortest_fine (he : e < x.interval.log10)
    (hcoarse : ∀ f, e < f → f ≤ x.interval.log10 → x.interval.onGrid? f = none) (bound : ℕ) :
    x.Shortest (dropZeros k e bound).1 (dropZeros k e bound).2 := by
  obtain ⟨n, hn⟩ : ∃ n, n = x.interval.log10 := ⟨_, rfl⟩
  obtain ⟨hlow, hhigh⟩ := log10_spec h
  obtain ⟨hcovers, hnearest⟩ := onGrid?_eq_some h hk
  rw [← hn] at hlow hhigh he hcoarse
  have hnone (d : ℕ) : ¬ x.Covers (d * 10 ^ n) :=
    onGrid?_eq_none h (hcoarse n he (le_refl _)) d
  have hdigits : ((dropZeros k e bound).1.repr.length : ℤ) ≤ n + 1 - e := by
    have hlt : (k : ℚ) * 10 ^ e < 10 ^ (n + 1) := by
      rw [zpow_add_one₀ (by norm_num), mul_comm (10 ^ n)] at hhigh ⊢
      by_contra hge
      exact hnone 10 (x.covers_self.between hcovers hhigh.le (not_lt.mp hge))
    have hle : ((dropZeros k e bound).1 : ℚ) * 10 ^ e ≤ k * 10 ^ e :=
      mul_le_mul_of_nonneg_right (by exact_mod_cast dropZeros_le k e bound) (by positivity)
    exact (length_repr_le_iff_lt (by omega)).mpr (hle.trans_lt hlt)
  have hothers (c : ℕ) (f : ℤ) (hc : x.Covers (c * 10 ^ f)) :
      f ≤ e ∧ n + 1 - f ≤ c.repr.length := by
    have hf : f ≤ e := by
      by_contra hlt
      obtain ⟨d, hd⟩ := exists_mul_ten_zpow c (min_le_left f n)
      rw [← hd] at hc
      exact onGrid?_eq_none h (hcoarse _ (by omega) (min_le_right f n)) d hc
    have hmore : ¬ c * (10 : ℚ) ^ f < 10 ^ n := by
      intro hlt
      refine hnone 1 (hc.between x.covers_self ?_ ?_)
      · rw [Nat.cast_one, one_mul]
        exact hlt.le
      · rw [Nat.cast_one, one_mul]
        exact hlow
    rw [← length_repr_le_iff_lt (by omega)] at hmore
    exact ⟨hf, by omega⟩
  refine ⟨by rwa [reads_iff hx, dropZeros_value], fun c f hc => ?_, fun c f hc hlength => ?_⟩
  · rw [reads_iff hx] at hc
    obtain ⟨hf, hlength⟩ := hothers c f hc
    omega
  · rw [reads_iff hx] at hc
    obtain ⟨hf, hlength'⟩ := hothers c f hc
    obtain rfl : f = e := by omega
    rw [dropZeros_value]
    exact hnearest c hc

end Found

/-- **Writing takes the shortest decimal that reads back.** -/
theorem shortest_spec {x : Binary64} (hx : x.Canonical) : x.Shortest x.shortest.1 x.shortest.2 := by
  unfold shortest
  split
  · rename_i hzero
    exact shortest_zero hx hzero
  · rename_i h
    obtain ⟨hlow, -⟩ := log10_spec h
    obtain ⟨c, hc⟩ := exists_covers_fine h hx.significand_lt hlow
    have hsome : (x.interval.onGrid? (x.interval.log10 - (17 : ℕ))).isSome := by
      by_contra hnone
      rw [Option.not_isSome_iff_eq_none] at hnone
      exact onGrid?_eq_none h hnone c hc
    obtain ⟨hk, hle, hcoarse⟩ := firstGrid_spec _ _ _ hsome
    dsimp only
    rcases hle.lt_or_eq with hlt | heq
    · exact shortest_fine hx h hk hlt hcoarse 18
    · exact shortest_coarse hx h hk heq 17

end Binary64

end Jigsaw
