import Mathlib.Data.Int.Log
import Mathlib.Data.Rat.Floor
import Mathlib.Tactic.Linarith

/-!
# Doubles

Binary floating-point numbers of 53 significant bits whose sums and differences are rounded to the
nearest, of two to the even one. There is no largest double here: overflow is left out, and so are the
sign of zero and what is not a number.
-/

namespace AnalyticsBackend.Lib

/-! ## Rounding -/

/-- The nearest integer, of two the even one. -/
def roundEven (q : ℚ) : ℤ :=
  if q - ⌊q⌋ < 1 / 2 ∨ q - ⌊q⌋ = 1 / 2 ∧ 2 ∣ ⌊q⌋ then ⌊q⌋ else ⌊q⌋ + 1

/-- The exponent of the last place of a double near `q`. -/
def lastPlace (q : ℚ) : ℤ := max (Int.log 2 |q| - 52) (-1074)

def roundDouble (q : ℚ) : ℚ := roundEven (q / 2 ^ lastPlace q) * 2 ^ lastPlace q

/-- The numbers that doubles stand for. -/
def IsDouble (q : ℚ) : Prop := ∃ m e : ℤ, |m| < 2 ^ 53 ∧ -1074 ≤ e ∧ q = m * 2 ^ e

theorem roundEven_intCast (n : ℤ) : roundEven n = n := by
  unfold roundEven
  rw [Int.floor_intCast, sub_self]
  exact if_pos (.inl (by norm_num))

/-- Rounding does not leave an interval of integers. -/
theorem abs_roundEven_le {q : ℚ} {n : ℤ} (within : |q| ≤ n) : |roundEven q| ≤ n := by
  obtain ⟨low, high⟩ := abs_le.mp within
  have floor : -n ≤ ⌊q⌋ := Int.le_floor.mpr (by exact_mod_cast low)
  have below : ⌊q⌋ ≤ n := by exact_mod_cast (Int.floor_le q).trans high
  refine abs_le.mpr ?_
  unfold roundEven
  split
  · exact ⟨floor, below⟩
  · rename_i up
    -- an integer bound above is met only by an integer, which is not rounded up
    have apart : ⌊q⌋ ≠ n := by
      intro same
      refine up (.inl ?_)
      have : q ≤ ⌊q⌋ := by rw [same]; exact high
      linarith
    omega

theorem abs_lt_lastPlace (q : ℚ) : |q / 2 ^ lastPlace q| ≤ (2 ^ 53 : ℤ) := by
  have positive : (0 : ℚ) < 2 ^ lastPlace q := zpow_pos (by norm_num) _
  have less := @Int.lt_zpow_succ_log_self ℚ _ _ _ _ 2 (by norm_num) |q|
  have places : Int.log 2 |q| + 1 ≤ 53 + lastPlace q := by
    unfold lastPlace
    omega
  have step : (2 : ℚ) ^ (Int.log 2 |q| + 1) ≤ 2 ^ (53 : ℤ) * 2 ^ lastPlace q := by
    rw [← zpow_add₀ (by norm_num)]
    exact zpow_le_zpow_right₀ (by norm_num) places
  rw [abs_div, abs_of_pos positive, div_le_iff₀ positive]
  exact_mod_cast less.le.trans step

/-- A rounded number is a double. -/
theorem isDouble_round (q : ℚ) : IsDouble (roundDouble q) := by
  have low : -1074 ≤ lastPlace q := le_max_right ..
  have small := abs_roundEven_le (abs_lt_lastPlace q)
  rcases lt_or_eq_of_le small with less | most
  · exact ⟨_, _, less, low, rfl⟩
  · -- a carry into the next place
    have half : ∃ m : ℤ, |m| < 2 ^ 53 ∧ roundEven (q / 2 ^ lastPlace q) = m * 2 := by
      rcases (abs_eq (by norm_num)).mp most with is | is
      · exact ⟨2 ^ 52, by norm_num, by rw [is]; norm_num⟩
      · exact ⟨-2 ^ 52, by norm_num, by rw [is]; norm_num⟩
    obtain ⟨m, bound, is⟩ := half
    refine ⟨m, lastPlace q + 1, bound, by omega, ?_⟩
    rw [roundDouble, is, zpow_add_one₀ (by norm_num)]
    push_cast
    ring

/-- Doubles are not rounded. -/
theorem IsDouble.round_eq {q : ℚ} (is : IsDouble q) : roundDouble q = q := by
  obtain ⟨m, e, bound, low, rfl⟩ := is
  have last : m ≠ 0 → lastPlace (m * 2 ^ e) ≤ e := by
    intro zero
    have positive : (0 : ℚ) < 2 ^ e := zpow_pos (by norm_num) _
    have less : |(m : ℚ) * 2 ^ e| < (2 : ℕ) ^ (53 + e) := by
      push_cast
      rw [abs_mul, abs_of_pos positive, zpow_add₀ (by norm_num)]
      exact mul_lt_mul_of_pos_right (by exact_mod_cast bound) positive
    have log := (Int.lt_zpow_iff_log_lt (by norm_num) (by positivity)).mp less
    unfold lastPlace
    omega
  by_cases zero : m = 0
  · rw [roundDouble, zero, Int.cast_zero, zero_mul, zero_div]
    simp [roundEven]
  · obtain ⟨k, place⟩ := Int.le.dest (last zero)
    have scaled : (m : ℚ) * 2 ^ e / 2 ^ lastPlace (m * 2 ^ e) = (m * 2 ^ k : ℤ) := by
      rw [div_eq_iff (zpow_ne_zero _ (by norm_num))]
      nth_rewrite 1 [← place]
      rw [zpow_add₀ (by norm_num), zpow_natCast]
      push_cast
      ring
    rw [roundDouble, scaled, roundEven_intCast, ← scaled]
    exact div_mul_cancel₀ _ (zpow_ne_zero _ (by norm_num))

theorem isDouble_intCast {n : ℤ} (safe : |n| < 2 ^ 53) : IsDouble n :=
  ⟨n, 0, safe, by norm_num, by simp⟩

/-! ## Arithmetic -/

structure Double where
  val : ℚ
  isDouble : IsDouble val
  deriving DecidableEq

namespace Double

def round (q : ℚ) : Double := ⟨roundDouble q, isDouble_round q⟩

instance : Zero Double := ⟨⟨0, 0, 0, by norm_num, by norm_num, by norm_num⟩⟩
instance : One Double := ⟨⟨1, 1, 0, by norm_num, by norm_num, by norm_num⟩⟩
instance : Add Double := ⟨fun x y => round (x.val + y.val)⟩
instance : Sub Double := ⟨fun x y => round (x.val - y.val)⟩
instance : LT Double := ⟨fun x y => x.val < y.val⟩
instance : DecidableLT Double := fun x y => inferInstanceAs (Decidable (x.val < y.val))

theorem round_val (x : Double) : round x.val = x := by
  obtain ⟨q, is⟩ := x
  simp only [round, is.round_eq]

theorem add_val {x y : Double} {n : ℤ} (sum : x.val + y.val = n) (safe : |n| < 2 ^ 53) :
    (x + y).val = x.val + y.val := by
  rw [sum]
  exact (congrArg roundDouble sum).trans (isDouble_intCast safe).round_eq

theorem sub_val {x y : Double} {n : ℤ} (difference : x.val - y.val = n) (safe : |n| < 2 ^ 53) :
    (x - y).val = x.val - y.val := by
  rw [difference]
  exact (congrArg roundDouble difference).trans (isDouble_intCast safe).round_eq

end Double

end AnalyticsBackend.Lib
