import Mathlib

set_option autoImplicit false

/-!
# Moments and durations

A `datetime` is its count of microseconds, as Python keeps it, and so is a `timedelta`.
`total_seconds` is a float: the double nearest to the exact quotient.
-/
namespace IeltsHub.PyTime

abbrev Time := ℤ

def seconds (n : ℤ) : ℤ := n * 1000000

/-- The integer nearest to `q`, a tie going to the even one. -/
def roundEven (q : ℚ) : ℤ :=
  let n := ⌊q⌋
  if q - n < 1 / 2 then n
  else if 1 / 2 < q - n then n + 1
  else if n % 2 = 0 then n else n + 1

/-- The double nearest to `q`: fifty-three significant bits. -/
def toDouble (q : ℚ) : ℚ :=
  if q = 0 then 0
  else
    let ulp : ℚ := 2 ^ (Int.log 2 |q| - 52)
    roundEven (q / ulp) * ulp

/-- `int(x)` for a float. -/
def truncate (q : ℚ) : ℤ := if 0 ≤ q then ⌊q⌋ else ⌈q⌉

def totalSeconds (span : ℤ) : ℚ := toDouble (span / 1000000)

/-- `int((b - a).total_seconds() * 1000)`. -/
def milliseconds (span : ℤ) : ℤ := truncate (toDouble (totalSeconds span * 1000))

-- One second and one millisecond, as floats, is a hair under 1001 milliseconds.
example : milliseconds 1001000 = 1000 := by decide +kernel

/-! ## How far a rounding goes -/

theorem abs_roundEven_sub_le (q : ℚ) : |(roundEven q : ℚ) - q| ≤ 1 / 2 := by
  have hlo : (⌊q⌋ : ℚ) ≤ q := Int.floor_le q
  have hhi : q < ⌊q⌋ + 1 := Int.lt_floor_add_one q
  unfold roundEven
  dsimp only
  rw [abs_le]
  split
  · constructor <;> linarith
  · split
    · push_cast
      constructor <;> linarith
    · have hhalf : q - ⌊q⌋ = 1 / 2 := by linarith
      split
      · constructor <;> linarith
      · push_cast
        constructor <;> linarith

theorem abs_toDouble_le (q : ℚ) : |toDouble q| ≤ 2 * |q| := by
  unfold toDouble
  split_ifs with h
  · simp [h]
  · have hpos : 0 < |q| := abs_pos.2 h
    have hulp : (0 : ℚ) < 2 ^ (Int.log 2 |q| - 52) := by positivity
    have hlog : (2 : ℚ) ^ Int.log 2 |q| ≤ |q| := by
      exact_mod_cast Int.zpow_log_le_self (b := 2) (by decide) hpos
    have hsmall : (2 : ℚ) ^ (Int.log 2 |q| - 52) ≤ 2 ^ Int.log 2 |q| :=
      zpow_le_zpow_right₀ (by norm_num) (by omega)
    have hround := abs_roundEven_sub_le (q / 2 ^ (Int.log 2 |q| - 52))
    dsimp only
    have hdiff : |(roundEven (q / 2 ^ (Int.log 2 |q| - 52)) : ℚ) * 2 ^ (Int.log 2 |q| - 52) - q| ≤
        1 / 2 * 2 ^ (Int.log 2 |q| - 52) := by
      have hfactor : (roundEven (q / 2 ^ (Int.log 2 |q| - 52)) : ℚ) * 2 ^ (Int.log 2 |q| - 52) - q =
          (roundEven (q / 2 ^ (Int.log 2 |q| - 52)) - q / 2 ^ (Int.log 2 |q| - 52)) *
            2 ^ (Int.log 2 |q| - 52) := by
        rw [sub_mul, div_mul_cancel₀ _ hulp.ne']
      rw [hfactor, abs_mul, abs_of_pos hulp]
      exact mul_le_mul_of_nonneg_right hround hulp.le
    have htri := abs_sub_abs_le_abs_sub
      ((roundEven (q / 2 ^ (Int.log 2 |q| - 52)) : ℚ) * 2 ^ (Int.log 2 |q| - 52)) q
    linarith

theorem truncate_natAbs_le (q : ℚ) : ((truncate q).natAbs : ℚ) ≤ |q| := by
  unfold truncate
  split_ifs with h
  · have hfloor := Int.floor_nonneg.2 h
    rw [abs_of_nonneg h, Nat.cast_natAbs, abs_of_nonneg hfloor]
    exact Int.floor_le q
  · have hneg := not_le.1 h
    have hceil : ⌈q⌉ ≤ 0 := Int.ceil_le.2 (by exact_mod_cast hneg.le)
    rw [abs_of_neg hneg, Nat.cast_natAbs, abs_of_nonpos hceil, Int.cast_neg]
    exact neg_le_neg (Int.le_ceil q)

end IeltsHub.PyTime
