import Jigsaw.Number.Binary64
import Mathlib.Algebra.Order.Field.Power
import Mathlib.Data.Rat.Cast.Order
import Mathlib.Tactic.FieldSimp
import Mathlib.Tactic.Linarith
import Mathlib.Tactic.NormNum
import Mathlib.Tactic.Positivity
import Mathlib.Tactic.Ring

/-!
# Proofs/Number/Rounding — reading rounds correctly

A magnitude is a rational number `m · 2 ^ e`.  It covers the rationals around it up to half the way
to its neighbours, and of the middles between two neighbours those that are next to an even `m`.

    v covered by x   ↔   x is the magnitude that v is read as   →   no magnitude is nearer to v

Reading finds a magnitude that covers the decimal (`nearest?_spec`).  There is no other, because two
neighbours are a step apart and one of them is odd (`Covers.unique`), so being covered decides what
is read (`ofDecimal?_eq_some_iff`); and what is covered is nearest (`Covers.nearest`).
-/

namespace Jigsaw

namespace Binary64

/-! ## Ratios -/

namespace Ratio

/-- The quotient as a rational number. -/
def value (r : Ratio) : ℚ := r.num / r.den

theorem den_scale_pos {r : Ratio} (h : 0 < r.den) {base : Nat} (hbase : 0 < base) (e : Int) :
    0 < (r.scale base e).den := by
  unfold scale
  split
  · exact h
  · exact Nat.mul_pos h (Nat.pow_pos hbase)

theorem num_scale_pos {r : Ratio} (h : 0 < r.num) {base : Nat} (hbase : 0 < base) (e : Int) :
    0 < (r.scale base e).num := by
  unfold scale
  split
  · exact Nat.mul_pos h (Nat.pow_pos hbase)
  · exact h

theorem value_scale (r : Ratio) {base : Nat} (hbase : 0 < base) (e : Int) :
    (r.scale base e).value = r.value * (base : ℚ) ^ e := by
  have hpos : (base : ℚ) ≠ 0 := by positivity
  unfold scale value
  split
  · rename_i he
    obtain ⟨n, rfl⟩ := Int.eq_ofNat_of_zero_le he
    push_cast
    rw [zpow_natCast, mul_div_right_comm, Int.toNat_natCast, Nat.pow_eq, Nat.cast_pow]
  · rename_i he
    obtain ⟨n, hn⟩ := Int.eq_ofNat_of_zero_le (show 0 ≤ -e by omega)
    obtain rfl : e = -n := by omega
    push_cast
    rw [zpow_neg, zpow_natCast, neg_neg, Int.toNat_natCast, Nat.pow_eq, Nat.cast_pow,
      ← div_eq_mul_inv, div_div]

theorem one_le_value_iff {r : Ratio} (h : 0 < r.den) : 1 ≤ r.value ↔ r.den ≤ r.num := by
  rw [value, one_le_div (by exact_mod_cast h)]
  exact_mod_cast Iff.rfl

/-- **The rounded quotient is within a half**, and nearer than that unless it is even. -/
theorem round_spec {r : Ratio} (h : 0 < r.den) :
    r.value - 1 / 2 ≤ r.round ∧ (r.round : ℚ) ≤ r.value + 1 / 2 ∧
      (r.round % 2 = 1 → r.value - 1 / 2 < r.round ∧ (r.round : ℚ) < r.value + 1 / 2) := by
  have hden : (0 : ℚ) < r.den := by exact_mod_cast h
  -- The quotient is a natural and a fraction, and the fraction decides.
  obtain ⟨f, hf⟩ : ∃ f : ℚ, f = (r.num % r.den : ℕ) / r.den := ⟨_, rfl⟩
  have hvalue : r.value = (r.num / r.den : ℕ) + f := by
    have hsplit : (r.num : ℚ) = r.den * (r.num / r.den : ℕ) + (r.num % r.den : ℕ) := by
      exact_mod_cast (Nat.div_add_mod r.num r.den).symm
    rw [value, hsplit, hf]
    field_simp
  have hpos : 0 ≤ f := by
    rw [hf]
    positivity
  have hone : f < 1 := by
    rw [hf, div_lt_one hden]
    exact_mod_cast Nat.mod_lt r.num h
  have hless : 2 * (r.num % r.den) < r.den ↔ f < 1 / 2 := by
    rw [hf, div_lt_div_iff₀ hden two_pos, one_mul, mul_comm]
    exact_mod_cast Iff.rfl
  have htie : 2 * (r.num % r.den) = r.den ↔ f = 1 / 2 := by
    rw [hf, div_eq_div_iff hden.ne' two_ne_zero, one_mul, mul_comm]
    exact_mod_cast Iff.rfl
  unfold round
  simp only [Bool.or_eq_true, Bool.and_eq_true, decide_eq_true_eq, hless, htie]
  rw [hvalue]
  split
  · rename_i hdown
    refine ⟨?_, by linarith, fun hodd => ?_⟩
    · rcases hdown with hdown | hdown <;> linarith
    · have hdown : f < 1 / 2 := hdown.resolve_right (by omega)
      constructor <;> linarith
  · rename_i hup
    rw [not_or, not_and, not_lt] at hup
    push_cast
    refine ⟨by linarith, by linarith, fun hodd => ?_⟩
    have hne : f ≠ 1 / 2 := fun heq => hup.2 heq (by omega)
    have hlt : 1 / 2 < f := lt_of_le_of_ne hup.1 hne.symm
    constructor <;> linarith

theorem two_zpow_log2_le {n : Nat} (h : 0 < n) :
    (2 : ℚ) ^ (n.log2 : ℤ) ≤ n ∧ (n : ℚ) < (2 : ℚ) ^ (n.log2 + 1 : ℤ) := by
  have hlow := Nat.log2_self_le h.ne'
  have hhigh := Nat.lt_log2_self (n := n)
  rw [zpow_natCast, show (n.log2 + 1 : ℤ) = (n.log2 + 1 : ℕ) from rfl, zpow_natCast]
  exact ⟨by exact_mod_cast hlow, by exact_mod_cast hhigh⟩

/-- The logarithm is that of the greatest power of two at most the quotient. -/
theorem log2_spec {r : Ratio} (hnum : 0 < r.num) (hden : 0 < r.den) :
    (2 : ℚ) ^ r.log2 ≤ r.value ∧ r.value < (2 : ℚ) ^ (r.log2 + 1) := by
  have hpos : (0 : ℚ) < r.den := by exact_mod_cast hden
  obtain ⟨guess, hguess⟩ : ∃ guess : ℤ, guess = r.num.log2 - r.den.log2 := ⟨_, rfl⟩
  obtain ⟨hnum_le, hnum_lt⟩ := two_zpow_log2_le hnum
  obtain ⟨hden_le, hden_lt⟩ := two_zpow_log2_le hden
  have hlow : (2 : ℚ) ^ (guess - 1) ≤ r.value := by
    rw [value, le_div_iff₀ hpos]
    calc (2 : ℚ) ^ (guess - 1) * r.den
        ≤ 2 ^ (guess - 1) * 2 ^ (r.den.log2 + 1 : ℤ) := by gcongr
      _ = 2 ^ (r.num.log2 : ℤ) := by rw [← zpow_add₀ two_ne_zero]; congr 1; omega
      _ ≤ r.num := hnum_le
  have hhigh : r.value < (2 : ℚ) ^ (guess + 1) := by
    rw [value, div_lt_iff₀ hpos]
    calc (r.num : ℚ) < 2 ^ (r.num.log2 + 1 : ℤ) := hnum_lt
      _ = 2 ^ (guess + 1) * 2 ^ (r.den.log2 : ℤ) := by
        rw [← zpow_add₀ two_ne_zero]; congr 1; omega
      _ ≤ 2 ^ (guess + 1) * r.den := by gcongr
  have hscaled : (r.scale 2 (-guess)).den ≤ (r.scale 2 (-guess)).num ↔
      (2 : ℚ) ^ guess ≤ r.value := by
    rw [← one_le_value_iff (den_scale_pos hden two_pos _), r.value_scale two_pos, Nat.cast_two,
      zpow_neg, ← div_eq_mul_inv, one_le_div (by positivity)]
  unfold log2
  rw [← hguess]
  dsimp only
  split
  · rename_i hle
    exact ⟨hscaled.mp hle, hhigh⟩
  · rename_i hlt
    rw [hscaled, not_le] at hlt
    exact ⟨hlow, by rwa [sub_add_cancel]⟩

end Ratio

/-! ## Magnitudes -/

/-- The rational number that a magnitude is. -/
def value (x : Binary64) : ℚ := x.significand * 2 ^ x.exponent

/-- The distance to the next greater magnitude, -/
def step (x : Binary64) : ℚ := 2 ^ x.exponent

/-- …and to the next smaller one, which is half as long below a power of two. -/
def stepBelow (x : Binary64) : ℚ :=
  if x.significand = 2 ^ 52 ∧ leastExponent < x.exponent then x.step / 2 else x.step

/-- The significand has 53 bits, or fewer if the exponent is the least. -/
structure Normalized (x : Binary64) : Prop where
  significand_lt : x.significand < 2 ^ 53
  least_le : leastExponent ≤ x.exponent
  full : leastExponent < x.exponent → 2 ^ 52 ≤ x.significand

/-- **The magnitudes that there are.**  Each has one significand and one exponent. -/
structure Canonical (x : Binary64) : Prop extends Normalized x where
  le_greatest : x.exponent ≤ greatestExponent

/-- **The rationals that round to a magnitude**: up to half a step to each side, and the ends
themselves only if the significand is even. -/
structure Covers (x : Binary64) (v : ℚ) : Prop where
  low : x.value - x.stepBelow / 2 ≤ v
  high : v ≤ x.value + x.step / 2
  inside : x.significand % 2 = 1 → x.value - x.stepBelow / 2 < v ∧ v < x.value + x.step / 2

/-- From here on rationals are past the greatest magnitude. -/
def overflow : ℚ := (2 ^ 53 - 1 / 2) * 2 ^ greatestExponent

theorem step_pos (x : Binary64) : 0 < x.step := zpow_pos two_pos _

theorem stepBelow_pos (x : Binary64) : 0 < x.stepBelow := by
  have h := x.step_pos
  unfold stepBelow
  split <;> linarith

theorem stepBelow_le (x : Binary64) : x.stepBelow ≤ x.step := by
  have h := x.step_pos
  unfold stepBelow
  split <;> linarith

/-! ## Reading -/

/-- What rounding to the significand of an exponent gives. -/
theorem round_scale {r : Ratio} (h : 0 < r.den) (e : ℤ) {m : ℕ} (hm : m = (r.scale 2 (-e)).round) :
    r.value - 2 ^ e / 2 ≤ m * 2 ^ e ∧ m * 2 ^ e ≤ r.value + 2 ^ e / 2 ∧
      (m % 2 = 1 → r.value - 2 ^ e / 2 < m * 2 ^ e ∧ m * 2 ^ e < r.value + 2 ^ e / 2) := by
  have hpos : (0 : ℚ) < 2 ^ e := zpow_pos two_pos _
  have hvalue : r.value = (r.scale 2 (-e)).value * 2 ^ e := by
    rw [r.value_scale two_pos, Nat.cast_two, zpow_neg, inv_mul_cancel_right₀ hpos.ne']
  obtain ⟨hlow, hhigh, hodd⟩ := Ratio.round_spec (Ratio.den_scale_pos h two_pos (-e))
  rw [← hm] at hlow hhigh hodd
  rw [hvalue]
  refine ⟨by nlinarith, by nlinarith, fun hm => ?_⟩
  obtain ⟨hlow, hhigh⟩ := hodd hm
  exact ⟨by nlinarith, by nlinarith⟩

section Rounded

variable {r : Ratio} (hnum : 0 < r.num) (hden : 0 < r.den) {e : ℤ}
  (he : e = max (r.log2 - 52) leastExponent)

include hnum hden he

/-- The exponent of a ratio: 53 bits are enough for its significand, and all of them are needed
unless the exponent is the least. -/
theorem exponent_spec :
    r.value < 2 ^ 53 * 2 ^ e ∧ (leastExponent < e → 2 ^ 52 * 2 ^ e ≤ r.value) := by
  obtain ⟨hlow, hhigh⟩ := Ratio.log2_spec hnum hden
  constructor
  · calc r.value < 2 ^ (r.log2 + 1) := hhigh
      _ ≤ 2 ^ (53 + e) := zpow_le_zpow_right₀ one_le_two (by omega)
      _ = 2 ^ 53 * 2 ^ e := zpow_add₀ two_ne_zero _ _
  · intro hleast
    calc (2 : ℚ) ^ 52 * 2 ^ e = 2 ^ (52 + e) := (zpow_add₀ two_ne_zero _ _).symm
      _ = 2 ^ r.log2 := by congr 1; omega
      _ ≤ r.value := hlow

/-- Rounding keeps to these bits, but for a carry. -/
theorem rounded_spec {m : ℕ} (hm : m = (r.scale 2 (-e)).round) :
    m ≤ 2 ^ 53 ∧ (leastExponent < e → 2 ^ 52 ≤ m) := by
  have hpos : (0 : ℚ) < 2 ^ e := zpow_pos two_pos _
  obtain ⟨hlt, hfull⟩ := exponent_spec hnum hden he
  obtain ⟨hlow, hhigh, -⟩ := round_scale hden e hm
  constructor
  · have hm' : (m : ℚ) < 2 ^ 53 + 1 := by
      by_contra hge
      nlinarith [not_lt.mp hge]
    exact Nat.lt_succ_iff.mp (by exact_mod_cast hm')
  · intro hleast
    have hm' : (2 : ℚ) ^ 52 < m + 1 := by
      by_contra hge
      nlinarith [not_lt.mp hge, hfull hleast]
    exact Nat.lt_succ_iff.mp (by exact_mod_cast hm')

/-- A carry gives the least significand of the next exponent.  Its step below is the old step, so
the ratio is covered. -/
theorem covers_of_carry (hm : 2 ^ 53 = (r.scale 2 (-e)).round) :
    Covers ⟨2 ^ 52, e + 1⟩ r.value := by
  have hdouble : (2 : ℚ) ^ (e + 1) = 2 * 2 ^ e := by rw [zpow_add_one₀ two_ne_zero, mul_comm]
  obtain ⟨hlt, -⟩ := exponent_spec hnum hden he
  obtain ⟨-, hhigh, -⟩ := round_scale hden e hm
  have hleast : leastExponent < e + 1 := by omega
  have hbelow : stepBelow ⟨2 ^ 52, e + 1⟩ = 2 ^ e := by
    rw [stepBelow, if_pos ⟨rfl, hleast⟩, step, hdouble]
    ring
  have hpos : (0 : ℚ) < 2 ^ e := zpow_pos two_pos _
  refine ⟨?_, ?_, fun hodd => absurd hodd (by norm_num)⟩
  · rw [hbelow, value, hdouble]
    push_cast at hhigh ⊢
    linarith
  · rw [step, value, hdouble]
    push_cast
    linarith

theorem covers_of_round {m : ℕ} (hm : m = (r.scale 2 (-e)).round) :
    Covers ⟨m, e⟩ r.value := by
  obtain ⟨-, hfull⟩ := exponent_spec hnum hden he
  obtain ⟨hlow, hhigh, hodd⟩ := round_scale hden e hm
  have hpos : (0 : ℚ) < 2 ^ e := zpow_pos two_pos _
  -- Below a power of two the interval is shorter, but the ratio is not there.
  have hbelow : value ⟨m, e⟩ - stepBelow ⟨m, e⟩ / 2 ≤ r.value := by
    unfold stepBelow
    split
    · rename_i hshort
      have hvalue : value ⟨m, e⟩ = 2 ^ 52 * 2 ^ e := by
        rw [value, show m = 2 ^ 52 from hshort.1]
        norm_num
      have hstep := step_pos ⟨m, e⟩
      linarith [hfull hshort.2]
    · rw [value, step]
      linarith
  refine ⟨hbelow, by rw [value, step]; linarith, fun hm => ?_⟩
  have hshort : stepBelow ⟨m, e⟩ = 2 ^ e := if_neg fun hshort => by
    rw [show m = 2 ^ 52 from hshort.1] at hm
    norm_num at hm
  rw [hshort, value, step]
  obtain ⟨hlow, hhigh⟩ := hodd hm
  exact ⟨by linarith, by linarith⟩

end Rounded

/-- A ratio is rounded to a magnitude that covers it, if the exponent of the magnitude is in
range. -/
theorem nearest?_eq {r : Ratio} (hnum : 0 < r.num) (hden : 0 < r.den) :
    ∃ x : Binary64, x.Normalized ∧ x.Covers r.value ∧
      nearest? r = if x.exponent ≤ greatestExponent then some x else none := by
  obtain ⟨e, he⟩ : ∃ e, e = max (r.log2 - 52) leastExponent := ⟨_, rfl⟩
  obtain ⟨m, hm⟩ : ∃ m, m = (r.scale 2 (-e)).round := ⟨_, rfl⟩
  obtain ⟨hle, hfull⟩ := rounded_spec hnum hden he hm
  have hleast : leastExponent ≤ e := he ▸ le_max_right _ _
  have hnearest (x : Binary64) (hx : (if m = 2 ^ 53 then ⟨2 ^ 52, e + 1⟩ else ⟨m, e⟩) = x) :
      nearest? r = if x.exponent ≤ greatestExponent then some x else none := by
    rw [← hx, hm, he]
    rfl
  by_cases hcarry : m = 2 ^ 53
  · refine ⟨⟨2 ^ 52, e + 1⟩, ⟨by norm_num, by dsimp only; omega, fun _ => le_refl _⟩,
      covers_of_carry hnum hden he (hcarry ▸ hm), hnearest _ (if_pos hcarry)⟩
  · exact ⟨⟨m, e⟩, ⟨lt_of_le_of_ne hle hcarry, hleast, hfull⟩, covers_of_round hnum hden he hm,
      hnearest _ (if_neg hcarry)⟩

/-- What is rounded to a magnitude with a greater exponent is past the greatest magnitude. -/
theorem overflow_le {x : Binary64} (hx : x.Normalized) (h : greatestExponent < x.exponent) {v : ℚ}
    (hv : x.Covers v) : overflow ≤ v := by
  have hleast : leastExponent < x.exponent := lt_trans (by decide) h
  have hm : (2 : ℚ) ^ 52 ≤ x.significand := by exact_mod_cast hx.full hleast
  have hstep := x.step_pos
  have hlow : (2 ^ 52 - 1 / 4) * x.step ≤ x.value - x.stepBelow / 2 := by
    rw [stepBelow, value, ← step]
    split
    · nlinarith
    · rename_i hlong
      have hne : 2 ^ 52 ≠ x.significand := fun heq => hlong ⟨heq.symm, hleast⟩
      have hm : (2 : ℚ) ^ 52 + 1 ≤ x.significand := by
        exact_mod_cast lt_of_le_of_ne (hx.full hleast) hne
      nlinarith
  have hgreat : (2 : ℚ) * 2 ^ greatestExponent ≤ x.step := by
    rw [mul_comm, ← zpow_add_one₀ two_ne_zero]
    exact zpow_le_zpow_right₀ one_le_two h
  calc overflow = (2 ^ 52 - 1 / 4) * (2 * 2 ^ greatestExponent) := by rw [overflow]; ring
    _ ≤ (2 ^ 52 - 1 / 4) * x.step := by gcongr
    _ ≤ v := hlow.trans hv.low

/-- **The nearest magnitude covers the ratio**, and there is none only from `overflow` on. -/
theorem nearest?_spec {r : Ratio} (hnum : 0 < r.num) (hden : 0 < r.den) :
    (∀ x, nearest? r = some x → x.Canonical ∧ x.Covers r.value) ∧
      (nearest? r = none → overflow ≤ r.value) := by
  obtain ⟨x, hx, hcovers, heq⟩ := nearest?_eq hnum hden
  rw [heq]
  split
  · rename_i hrange
    refine ⟨fun y hy => ?_, fun h => by cases h⟩
    cases hy
    exact ⟨⟨hx, hrange⟩, hcovers⟩
  · rename_i hrange
    exact ⟨nofun, fun _ => overflow_le hx (not_le.mp hrange) hcovers⟩

/-! ## Neighbours -/

/-- Magnitudes with a greater exponent have longer steps and come later, with room for half a step
of theirs. -/
theorem add_half_step_le {x y : Binary64} (hx : x.Normalized) (hy : y.Normalized)
    (h : x.exponent < y.exponent) :
    2 * x.step ≤ y.step ∧ x.value + y.step / 2 ≤ 2 ^ 52 * y.step ∧ 2 ^ 52 * y.step ≤ y.value := by
  have hm : (x.significand : ℚ) + 1 ≤ 2 ^ 53 := by exact_mod_cast hx.significand_lt
  have hn : (2 : ℚ) ^ 52 ≤ y.significand := by
    exact_mod_cast hy.full (lt_of_le_of_lt hx.least_le h)
  have hdouble : 2 * x.step ≤ y.step := by
    rw [step, step, mul_comm, ← zpow_add_one₀ two_ne_zero]
    exact zpow_le_zpow_right₀ one_le_two h
  have hstep := x.step_pos
  have hstep' := y.step_pos
  rw [value, value, ← step, ← step]
  exact ⟨hdouble, by nlinarith, by nlinarith⟩

/-- Greater magnitudes have no smaller exponents. -/
theorem exponent_le_of_value_lt {x y : Binary64} (hx : x.Normalized) (hy : y.Normalized)
    (h : x.value < y.value) : x.exponent ≤ y.exponent := by
  by_contra hlt
  obtain ⟨-, hle, hle'⟩ := add_half_step_le hy hx (not_le.mp hlt)
  linarith [x.step_pos]

/-- **A magnitude is one number**, -/
theorem eq_of_value_eq {x y : Binary64} (hx : x.Normalized) (hy : y.Normalized)
    (h : x.value = y.value) : x = y := by
  have hexponent : x.exponent = y.exponent := by
    rcases lt_trichotomy x.exponent y.exponent with hlt | heq | hlt
    · obtain ⟨-, hle, hle'⟩ := add_half_step_le hx hy hlt
      linarith [y.step_pos]
    · exact heq
    · obtain ⟨-, hle, hle'⟩ := add_half_step_le hy hx hlt
      linarith [x.step_pos]
  have hsignificand : (x.significand : ℚ) = y.significand := by
    rw [value, value, hexponent] at h
    exact mul_right_cancel₀ (zpow_pos two_pos _).ne' h
  obtain ⟨m, e⟩ := x
  obtain ⟨n, f⟩ := y
  congr 1
  exact_mod_cast hsignificand

/-- …there is no other between it and a step further, -/
theorem add_step_le {x y : Binary64} (hx : x.Normalized) (hy : y.Normalized)
    (h : x.value < y.value) : x.value + x.step ≤ y.value := by
  rcases (exponent_le_of_value_lt hx hy h).lt_or_eq with hlt | heq
  · obtain ⟨hstep, hle, hle'⟩ := add_half_step_le hx hy hlt
    linarith
  · have hstep := x.step_pos
    rw [value, value, ← heq, ← step] at h ⊢
    have hlt : x.significand < y.significand := by
      exact_mod_cast lt_of_mul_lt_mul_right h hstep.le
    have hle : (x.significand : ℚ) + 1 ≤ y.significand := by exact_mod_cast hlt
    nlinarith

/-- …nor between it and a step back. -/
theorem add_stepBelow_le {x y : Binary64} (hx : x.Normalized) (hy : y.Normalized)
    (h : x.value < y.value) : x.value + y.stepBelow ≤ y.value := by
  rcases (exponent_le_of_value_lt hx hy h).lt_or_eq with hlt | heq
  · obtain ⟨-, hle, hle'⟩ := add_half_step_le hx hy hlt
    have hleast : leastExponent < y.exponent := lt_of_le_of_lt hx.least_le hlt
    have hstep := y.step_pos
    unfold stepBelow
    split
    · linarith
    · rename_i hlong
      have hne : 2 ^ 52 ≠ y.significand := fun heq => hlong ⟨heq.symm, hleast⟩
      have hm : (2 : ℚ) ^ 52 + 1 ≤ y.significand := by
        exact_mod_cast lt_of_le_of_ne (hy.full hleast) hne
      rw [value, value, ← step, ← step] at *
      nlinarith
  · have hle := add_step_le hx hy h
    have hsame : x.step = y.step := by rw [step, step, heq]
    linarith [y.stepBelow_le]

/-- Of two neighbours one has an odd significand. -/
theorem odd_of_neighbours {x y : Binary64} (hx : x.Normalized) (hy : y.Normalized)
    (h : y.value = x.value + x.step) :
    x.significand % 2 = 1 ∨ y.significand % 2 = 1 := by
  have hstep := x.step_pos
  rcases (exponent_le_of_value_lt hx hy (by linarith)).lt_or_eq with hlt | heq
  · -- The smaller one has the greatest significand of its exponent.
    obtain ⟨hdouble, hle, hle'⟩ := add_half_step_le hx hy hlt
    have hm : (2 : ℚ) ^ 53 ≤ x.significand + 1 := by
      refine le_of_mul_le_mul_right ?_ hstep
      rw [add_one_mul, show x.significand * x.step = x.value from rfl, ← h]
      linarith
    have hm : 2 ^ 53 ≤ x.significand + 1 := by exact_mod_cast hm
    have hlt := hx.significand_lt
    omega
  · have hn : y.significand = x.significand + 1 := by
      rw [value, value, step, ← heq, ← add_one_mul] at h
      exact_mod_cast mul_right_cancel₀ hstep.ne' h
    omega

/-! ## Correct rounding -/

/-- What two magnitudes cover is not apart. -/
theorem Covers.value_le {x y : Binary64} (hx : x.Normalized) (hy : y.Normalized) {v : ℚ}
    (hxv : x.Covers v) (hyv : y.Covers v) : y.value ≤ x.value := by
  by_contra hlt
  rw [not_le] at hlt
  have hstep := add_step_le hx hy hlt
  have hbelow := add_stepBelow_le hx hy hlt
  have hhigh := hxv.high
  have hlow := hyv.low
  -- The number is in the middle between two neighbours, and an odd one does not cover it.
  rcases odd_of_neighbours hx hy (by linarith) with hodd | hodd
  · linarith [(hxv.inside hodd).2]
  · linarith [(hyv.inside hodd).1]

/-- **No two magnitudes cover the same number.** -/
theorem Covers.unique {x y : Binary64} (hx : x.Normalized) (hy : y.Normalized) {v : ℚ}
    (hxv : x.Covers v) (hyv : y.Covers v) : x = y :=
  eq_of_value_eq hx hy (le_antisymm (hyv.value_le hy hx hxv) (hxv.value_le hx hy hyv))

/-- **The magnitude is a nearest one to the number**, and the one with the even significand if
another is as near. -/
structure Nearest (x : Binary64) (v : ℚ) : Prop where
  canonical : x.Canonical
  le : ∀ y : Binary64, y.Canonical → |x.value - v| ≤ |y.value - v|
  even : ∀ y : Binary64, y.Canonical → y ≠ x → |x.value - v| = |y.value - v| →
    x.significand % 2 = 0

/-- Another magnitude is no nearer, and farther if the significand is odd. -/
theorem Covers.abs_sub_le {x y : Binary64} (hx : x.Normalized) (hy : y.Normalized) (hne : y ≠ x)
    {v : ℚ} (hv : x.Covers v) :
    |x.value - v| ≤ |y.value - v| ∧
      (x.significand % 2 = 1 → |x.value - v| < |y.value - v|) := by
  have hlow := hv.low
  have hhigh := hv.high
  rcases lt_trichotomy y.value x.value with hlt | heq | hlt
  · have hgap := add_stepBelow_le hy hx hlt
    have hdist : v - y.value ≤ |y.value - v| := by
      rw [← neg_sub]
      exact neg_le_abs _
    refine ⟨(abs_le.mpr ⟨by linarith, by linarith⟩).trans hdist, fun hodd => ?_⟩
    have hinside := (hv.inside hodd).1
    exact (abs_lt.mpr ⟨by linarith, by linarith⟩).trans_le hdist
  · exact absurd (eq_of_value_eq hy hx heq) hne
  · have hgap := add_step_le hx hy hlt
    have hdist : y.value - v ≤ |y.value - v| := le_abs_self _
    refine ⟨(abs_le.mpr ⟨by linarith, by linarith⟩).trans hdist, fun hodd => ?_⟩
    have hinside := (hv.inside hodd).2
    exact (abs_lt.mpr ⟨by linarith, by linarith⟩).trans_le hdist

/-- **A magnitude is nearest to what it covers.** -/
theorem Covers.nearest {x : Binary64} (hx : x.Canonical) {v : ℚ} (hv : x.Covers v) :
    x.Nearest v where
  canonical := hx
  le y hy := by
    by_cases hne : y = x
    · rw [hne]
    · exact (hv.abs_sub_le hx.toNormalized hy.toNormalized hne).1
  even y hy hne heq := by
    by_contra hodd
    exact absurd heq ((hv.abs_sub_le hx.toNormalized hy.toNormalized hne).2 (by omega)).ne

/-- What a magnitude covers is not past the greatest. -/
theorem Covers.lt_overflow {x : Binary64} (hx : x.Canonical) {v : ℚ} (hv : x.Covers v) :
    v < overflow := by
  have hpos := x.step_pos
  have hhigh := hv.high
  have hstep : (2 ^ 53 - 1 / 2) * x.step ≤ overflow := by
    rw [overflow, step]
    gcongr
    · exact one_le_two
    · exact hx.le_greatest
  have hvalue : x.value = x.significand * x.step := rfl
  rcases Nat.mod_two_eq_zero_or_one x.significand with heven | hodd
  · have hlt : x.significand + 2 ≤ 2 ^ 53 := by
      have hlt := hx.significand_lt
      omega
    have hm : (x.significand : ℚ) + 2 ≤ 2 ^ 53 := by exact_mod_cast hlt
    nlinarith
  · have hm : (x.significand : ℚ) + 1 ≤ 2 ^ 53 := by exact_mod_cast hx.significand_lt
    have hinside := (hv.inside hodd).2
    nlinarith

/-! ## Decimals -/

theorem canonical_zero : zero.Canonical :=
  ⟨⟨by norm_num [zero], le_refl _, fun h => absurd h (lt_irrefl _)⟩, by decide⟩

theorem covers_zero {v : ℚ} (hpos : 0 ≤ v) (h : v ≤ zero.step / 2) : zero.Covers v := by
  have hvalue : zero.value = 0 := by rw [value, zero, Nat.cast_zero, zero_mul]
  refine ⟨?_, by rwa [hvalue, zero_add], fun hodd => absurd hodd (by decide)⟩
  rw [hvalue]
  linarith [zero.stepBelow_pos]

theorem length_repr_pos (n : ℕ) : 0 < n.repr.length := by
  rw [Nat.repr, String.length_ofList]
  exact Nat.length_toDigits_pos

/-- The digits of a number say between which powers of ten it is. -/
theorem ten_zpow_digits {n : ℕ} (h : 0 < n) :
    (10 : ℚ) ^ (n.repr.length - 1 : ℤ) ≤ n ∧ (n : ℚ) < 10 ^ (n.repr.length : ℤ) := by
  have hpos := length_repr_pos n
  have hhigh : n < 10 ^ n.repr.length := (Nat.length_repr_le_iff hpos).mp (le_refl _)
  have hlow : 10 ^ (n.repr.length - 1) ≤ n := by
    rcases Nat.eq_zero_or_pos (n.repr.length - 1) with hone | hmore
    · rw [hone]
      exact h
    · exact not_lt.mp fun hlt => absurd ((Nat.length_repr_le_iff hmore).mpr hlt) (by omega)
  rw [show (n.repr.length - 1 : ℤ) = (n.repr.length - 1 : ℕ) by omega, zpow_natCast, zpow_natCast]
  exact ⟨by exact_mod_cast hlow, by exact_mod_cast hhigh⟩

/-- No decimal with more than 310 digits before the point is in range, -/
theorem overflow_le_ten_zpow : overflow ≤ 10 ^ (310 : ℤ) := by
  have hpowers : 2 ^ 1024 ≤ 10 ^ 310 := by decide +kernel
  calc overflow ≤ 2 ^ (53 : ℤ) * 2 ^ greatestExponent := by
        rw [overflow]
        gcongr
        norm_num
    _ = 2 ^ (1024 : ℤ) := (zpow_add₀ two_ne_zero _ _).symm
    _ ≤ 10 ^ (310 : ℤ) := by exact_mod_cast hpowers

/-- …and with more than 330 zeros after it a decimal is nearest to zero. -/
theorem ten_zpow_le_half_step : 10 ^ (-331 : ℤ) ≤ zero.step / 2 := by
  have hpowers : 2 ^ 1075 ≤ 10 ^ 331 := by decide +kernel
  calc (10 : ℚ) ^ (-331 : ℤ) ≤ 2 ^ (-1075 : ℤ) := by
        rw [zpow_neg, zpow_neg]
        gcongr
        exact_mod_cast hpowers
    _ = zero.step / 2 := zpow_sub_one₀ two_ne_zero (-1074)

/-- **Reading a decimal gives a magnitude that covers it**, and none only from `overflow` on. -/
theorem ofDecimal?_spec (c : ℕ) (e : ℤ) :
    (∀ x, ofDecimal? c e = some x → x.Canonical ∧ x.Covers (c * 10 ^ e)) ∧
      (ofDecimal? c e = none → overflow ≤ c * 10 ^ e) := by
  have hten : (0 : ℚ) < 10 ^ e := by positivity
  unfold ofDecimal?
  split
  · rename_i hzero
    refine ⟨fun x hx => ?_, nofun⟩
    cases hx
    rw [hzero, Nat.cast_zero, zero_mul]
    exact ⟨canonical_zero, covers_zero (le_refl _) (by linarith [zero.step_pos])⟩
  rename_i hc
  obtain ⟨hlow, hhigh⟩ := ten_zpow_digits (Nat.pos_of_ne_zero hc)
  dsimp only
  split
  · rename_i htop
    refine ⟨nofun, fun _ => ?_⟩
    calc overflow ≤ 10 ^ (310 : ℤ) := overflow_le_ten_zpow
      _ ≤ 10 ^ (c.repr.length - 1 + e : ℤ) := zpow_le_zpow_right₀ (by norm_num) (by omega)
      _ = 10 ^ (c.repr.length - 1 : ℤ) * 10 ^ e := zpow_add₀ (by norm_num) _ _
      _ ≤ c * 10 ^ e := by gcongr
  split
  · rename_i htop
    refine ⟨fun x hx => ?_, nofun⟩
    cases hx
    refine ⟨canonical_zero, covers_zero (by positivity) ?_⟩
    calc (c : ℚ) * 10 ^ e ≤ 10 ^ (c.repr.length : ℤ) * 10 ^ e := by gcongr
      _ = 10 ^ (c.repr.length + e : ℤ) := (zpow_add₀ (by norm_num) _ _).symm
      _ ≤ 10 ^ (-331 : ℤ) := zpow_le_zpow_right₀ (by norm_num) (by omega)
      _ ≤ zero.step / 2 := ten_zpow_le_half_step
  · have hnum := Ratio.num_scale_pos (r := ⟨c, 1⟩) (Nat.pos_of_ne_zero hc) (by norm_num : 0 < 10) e
    have hden := Ratio.den_scale_pos (r := ⟨c, 1⟩) one_pos (by norm_num : 0 < 10) e
    have hvalue : (Ratio.scale ⟨c, 1⟩ 10 e).value = c * 10 ^ e := by
      rw [Ratio.value_scale _ (by norm_num), Ratio.value]
      norm_num
    rw [← hvalue]
    exact nearest?_spec hnum hden

/-- **A decimal is read as the magnitude that covers it.** -/
theorem ofDecimal?_eq_some_iff {c : ℕ} {e : ℤ} {x : Binary64} :
    ofDecimal? c e = some x ↔ x.Canonical ∧ x.Covers (c * 10 ^ e) := by
  obtain ⟨hsome, hnone⟩ := ofDecimal?_spec c e
  refine ⟨hsome x, fun ⟨hx, hcovers⟩ => ?_⟩
  cases hread : ofDecimal? c e with
  | none => exact absurd (hcovers.lt_overflow hx) (not_lt.mpr (hnone hread))
  | some y =>
    obtain ⟨hy, hcovers'⟩ := hsome y hread
    rw [hcovers'.unique hy.toNormalized hx.toNormalized hcovers]

/-- **A decimal is not read exactly if it is past the greatest magnitude.** -/
theorem ofDecimal?_eq_none_iff {c : ℕ} {e : ℤ} : ofDecimal? c e = none ↔ overflow ≤ c * 10 ^ e := by
  refine ⟨(ofDecimal?_spec c e).2, fun hle => Option.eq_none_iff_forall_ne_some.mpr fun x hx => ?_⟩
  obtain ⟨hcanonical, hcovers⟩ := (ofDecimal?_spec c e).1 x hx
  exact absurd (hcovers.lt_overflow hcanonical) (not_lt.mpr hle)

end Binary64

end Jigsaw
