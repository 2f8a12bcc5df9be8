import Mathlib.Algebra.Group.Int.Defs
import Mathlib.Algebra.Order.Group.Nat
import Part21.Number.Binary64

set_option autoImplicit false

/-!
# Integers as reals

An integer becomes the real next to it.  Those from halfway between the greatest finite real and the
next power of two on have infinity for the next one, and are too large (`Binary64.ofInt?_eq_none`).
-/

namespace Part21

namespace Binary64

/-- A finite real is next to the integer: in magnitude it is less than halfway from the greatest
one, which is `2 ^ 1024 - 2 ^ 971`, to `2 ^ 1024`. -/
def IsNear (n : Int) : Prop := n.natAbs < 2 ^ 1024 - 2 ^ 970

/-! ## Rounding -/

/-- An even number is reached from half a unit below, as a tie goes to the even one. -/
theorem le_nearest_iff {numerator denominator k : Nat} (hdenominator : 0 < denominator)
    (heven : k % 2 = 0) :
    k ≤ nearest numerator denominator ↔ 2 * (k * denominator) ≤ 2 * numerator + denominator := by
  have hdivide := Nat.div_add_mod numerator denominator
  have hrest := Nat.mod_lt numerator hdenominator
  rw [Nat.mul_comm] at hdivide
  rcases Nat.lt_trichotomy k (numerator / denominator + 1) with hless | hnext | hmore
  · have hbelow : k * denominator ≤ numerator / denominator * denominator :=
      Nat.mul_le_mul_right denominator (Nat.le_of_lt_succ hless)
    unfold nearest
    refine iff_of_true ?_ (by omega)
    dsimp only
    repeat' split
    all_goals omega
  · have hproduct : k * denominator = numerator / denominator * denominator + denominator := by
      rw [hnext, Nat.succ_mul]
    unfold nearest
    dsimp only
    repeat' split
    all_goals omega
  · have habove : (numerator / denominator + 2) * denominator ≤ k * denominator :=
      Nat.mul_le_mul_right denominator hmore
    rw [Nat.add_mul] at habove
    unfold nearest
    refine iff_of_false ?_ (by omega)
    dsimp only
    repeat' split
    all_goals omega

/-! ## Integers -/

variable {m : Nat}

theorem le_log2_mul (hm : 0 < m) (k e : Nat) : k + e ≤ (m * 2 ^ e).log2 ↔ 2 ^ k ≤ m := by
  have hpositive : m * 2 ^ e ≠ 0 := Nat.ne_of_gt (Nat.mul_pos hm (Nat.two_pow_pos e))
  rw [Nat.le_log2 hpositive, Nat.pow_add]
  exact Nat.mul_le_mul_right_iff (Nat.two_pow_pos e)

/-- A common power of two does not matter. -/
theorem le_iff_of_scaled {m k a e : Nat} :
    2 * (k * 2 ^ (a + e)) ≤ 2 * (m * 2 ^ e) + 2 ^ (a + e) ↔ 2 * (k * 2 ^ a) ≤ 2 * m + 2 ^ a := by
  rw [Nat.pow_add, ← Nat.mul_assoc, ← Nat.mul_assoc, ← Nat.mul_assoc, ← Nat.add_mul, Nat.mul_assoc 2]
  exact Nat.mul_le_mul_right_iff (Nat.two_pow_pos e)

/-- What is rounded for an integer: so many units of its position.  The exponents stay variables, so
that no power is computed. -/
theorem ratioCode_one (m : Nat) : ∃ e scale, e = 1074 ∧ (m * 2 ^ e).log2 = scale ∧
    ratioCode m 1 = min ((scale - 52) * 2 ^ 52 + nearest (m * 2 ^ e) (2 ^ (scale - 52)))
      (2047 * 2 ^ 52) := by
  have hstride : stride = 2 ^ 52 := rfl
  have hinfinity : infinityCode = 2047 * 2 ^ 52 := rfl
  refine ⟨1074, _, rfl, rfl, ?_⟩
  unfold ratioCode scale
  generalize 1074 = e
  simp only [Nat.pow_eq, Nat.div_one, Nat.one_mul, hstride, hinfinity]

/-- Below `2 ^ 1023` the rounded number is finite whichever way it is rounded. -/
theorem ratioCode_of_lt (hlt : m < 2 ^ 1023) : ratioCode m 1 < 2047 * 2 ^ 52 := by
  obtain ⟨e, scale, he, hscale, hcode⟩ := ratioCode_one m
  have hbound : scale < 1023 + e := by
    rcases Nat.eq_zero_or_pos m with rfl | hm
    · rw [Nat.zero_mul, Nat.log2_zero] at hscale
      omega
    · rw [← hscale, ← Nat.not_le, le_log2_mul hm, Nat.not_le]
      exact hlt
  have hbelow : m * 2 ^ e < 2 ^ 53 * 2 ^ (scale - 52) := by
    have hlog : m * 2 ^ e < 2 ^ (scale + 1) := hscale ▸ Nat.lt_log2_self
    rw [← Nat.pow_add]
    exact Nat.lt_of_lt_of_le hlog (Nat.pow_le_pow_right (by decide) (by omega))
  have hnearest : ¬ 2 ^ 53 + 2 ≤ nearest (m * 2 ^ e) (2 ^ (scale - 52)) := by
    rw [le_nearest_iff (Nat.two_pow_pos _) (by decide), Nat.add_mul]
    omega
  omega

/-- From `2 ^ 1024` on the position alone leads to infinity. -/
theorem ratioCode_of_le (hm : 0 < m) (hle : 2 ^ 1024 ≤ m) : ratioCode m 1 = 2047 * 2 ^ 52 := by
  obtain ⟨e, scale, he, hscale, hcode⟩ := ratioCode_one m
  have hbound : 1024 + e ≤ scale := by
    rw [← hscale, le_log2_mul hm]
    exact hle
  have habove : 2 ^ 52 * 2 ^ (scale - 52) ≤ m * 2 ^ e := by
    rw [← Nat.pow_add, Nat.add_sub_cancel' (by omega), ← hscale]
    exact Nat.log2_self_le (Nat.ne_of_gt (Nat.mul_pos hm (Nat.two_pow_pos e)))
  have hnearest : 2 ^ 52 ≤ nearest (m * 2 ^ e) (2 ^ (scale - 52)) := by
    rw [le_nearest_iff (Nat.two_pow_pos _) (by decide)]
    omega
  omega

/-- Between the two, a tie with the next power of two is rounded up. -/
theorem ratioCode_between (hm : 0 < m) (hle : 2 ^ 1023 ≤ m) (hlt : m < 2 ^ 1024) :
    ratioCode m 1 = 2047 * 2 ^ 52 ↔ 2 * (2 ^ 53 * 2 ^ 971) ≤ 2 * m + 2 ^ 971 := by
  obtain ⟨e, scale, he, hscale, hcode⟩ := ratioCode_one m
  have hleast : 1023 + e ≤ scale := by
    rw [← hscale, le_log2_mul hm]
    exact hle
  have hmost : ¬ 1024 + e ≤ scale := by
    rw [← hscale, le_log2_mul hm, Nat.not_le]
    exact hlt
  have hnearest := @le_nearest_iff (m * 2 ^ e) _ (2 ^ 53) (Nat.two_pow_pos (scale - 52)) (by decide)
  have hposition : scale - 52 = 971 + e := by omega
  rw [hposition] at hcode hnearest
  rw [le_iff_of_scaled] at hnearest
  rw [← hnearest, hcode]
  omega

/-- Exactly the integers from halfway between the greatest finite real and the next power of two on
are too large. -/
theorem ofInt?_eq_none {n : Int} : ofInt? n = none ↔ ¬ IsNear n := by
  have hinfinity : infinityCode = 2047 * 2 ^ 52 := rfl
  have hnone : ofInt? n = none ↔ ratioCode n.natAbs 1 = 2047 * 2 ^ 52 := by
    unfold ofInt? isInfinite ofRatio
    simp [hinfinity]
  rw [hnone, IsNear]
  generalize n.natAbs = m
  by_cases hless : m < 2 ^ 1023
  · have hcode := ratioCode_of_lt hless
    omega
  · have hm : 0 < m := by omega
    by_cases hmore : 2 ^ 1024 ≤ m
    · have hcode := ratioCode_of_le hm hmore
      omega
    · rw [ratioCode_between hm (Nat.le_of_not_lt hless) (Nat.lt_of_not_le hmore)]
      omega

/-- An integer that a real has as it is has a finite real next to it. -/
theorem isNear_of_lt {n : Int} (h : n.natAbs < 2 ^ 53) : IsNear n := by
  unfold IsNear
  omega

/-- The first power of two beyond the finite reals. -/
theorem not_isNear_two_pow : ¬ IsNear (2 ^ 1024) := by
  have hbase : (2 : Int).natAbs = 2 := rfl
  rw [IsNear, Int.natAbs_pow, hbase]
  omega

end Binary64

end Part21
