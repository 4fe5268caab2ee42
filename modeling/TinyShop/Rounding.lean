import Mathlib
import TinyShop.F64

/-!
# How far a result is from the exact one

A finite number that is not too small is rounded by at most one part in `2 ^ 53`.
-/

namespace TinyShop.F64

open Base
set_option autoImplicit false

theorem abs_roundTiesEven_sub (q : ℚ) : |(roundTiesEven q : ℚ) - q| ≤ 1 / 2 := by
  have hle : (q.floor : ℚ) ≤ q := Int.floor_le q
  have hlt : q < q.floor + 1 := Int.lt_floor_add_one q
  unfold roundTiesEven
  dsimp only
  rw [abs_le]
  split
  · rename_i h
    rcases h with h | ⟨h, _⟩
    · constructor <;> linarith
    · constructor <;> linarith
  · rename_i h
    rw [not_or] at h
    push_cast
    constructor <;> linarith [h.1]

theorem lastBit_pos (q : ℚ) : 0 < lastBit q := zpow_pos (by norm_num) _

/-- A number from `2 ^ -1022` on has all 53 bits. -/
theorem lastBit_le {q : ℚ} (hq : 2 ^ (-1022 : ℤ) ≤ |q|) : lastBit q ≤ |q| / 2 ^ 52 := by
  have hpos : 0 < |q| := lt_of_lt_of_le (by positivity) hq
  have hlog : (-1022 : ℤ) ≤ Int.log 2 |q| :=
    (Int.zpow_le_iff_le_log (by decide) hpos).mp (by exact_mod_cast hq)
  have hmax : max (-1074) (Int.log 2 |q| - 52) = Int.log 2 |q| - 52 := max_eq_right (by omega)
  have hpow : (2 : ℚ) ^ Int.log 2 |q| ≤ |q| := by
    exact_mod_cast Int.zpow_log_le_self (b := 2) (by decide) hpos
  rw [lastBit, hmax, zpow_sub₀ (by norm_num)]
  exact div_le_div_of_nonneg_right hpow (by positivity)

/-- One rounding. -/
theorem nearest_near {q : ℚ} (hq : q = 0 ∨ 2 ^ (-1022 : ℤ) ≤ |q|) (hbound : |q| < 2 ^ 1023) :
    ∃ r, nearest q = .fin r ∧ |r - q| ≤ |q| / 2 ^ 53 := by
  have hbit := lastBit_pos q
  have herror : |roundTiesEven (q / lastBit q) * lastBit q - q| ≤ lastBit q / 2 := by
    have hround := abs_roundTiesEven_sub (q / lastBit q)
    have heq : (roundTiesEven (q / lastBit q) : ℚ) * lastBit q - q =
        (roundTiesEven (q / lastBit q) - q / lastBit q) * lastBit q := by
      rw [sub_mul, div_mul_cancel₀ _ hbit.ne']
    rw [heq, abs_mul, abs_of_pos hbit]
    linarith [mul_le_mul_of_nonneg_right hround hbit.le]
  have hnear : |roundTiesEven (q / lastBit q) * lastBit q - q| ≤ |q| / 2 ^ 53 := by
    rcases hq with rfl | hq
    · have hzero : roundTiesEven 0 = 0 := by decide +kernel
      simp [hzero]
    · have hle := lastBit_le hq
      have hhalf : lastBit q / 2 ≤ |q| / 2 ^ 53 := by
        rw [pow_succ, ← div_div]
        linarith
      exact herror.trans hhalf
  have hfits : ¬ 2 ^ 1024 ≤ |roundTiesEven (q / lastBit q) * lastBit q| := by
    rw [not_le]
    have htriangle := abs_sub_abs_le_abs_sub (roundTiesEven (q / lastBit q) * lastBit q) q
    have hsmall : |q| / 2 ^ 53 ≤ |q| := div_le_self (abs_nonneg q) (by norm_num)
    rw [pow_succ (2 : ℚ) 1023]
    generalize (2 : ℚ) ^ 1023 = bound at hbound ⊢
    linarith
  exact ⟨_, by simp only [nearest, if_neg hfits], hnear⟩

end TinyShop.F64
