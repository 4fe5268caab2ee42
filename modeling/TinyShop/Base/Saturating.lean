import Mathlib

/-!
# Saturating arithmetic

Sums and products that are clamped to the range of `Int64`. Over terms that are not
negative a fold clamps once, at the end, so it is exact as long as the whole sum fits.
Numbers without a sign are clamped at both ends as well.
-/

namespace TinyShop.Base

set_option autoImplicit false

/-- The nearest number of 64 bits. -/
def saturate (n : Int) : Int64 :=
  if n < -2 ^ 63 then .minValue else if 2 ^ 63 ≤ n then .maxValue else .ofInt n

def saturatingAdd (a b : Int64) : Int64 := saturate (a.toInt + b.toInt)

theorem toInt_saturate (n : Int) : (saturate n).toInt = max (-2 ^ 63) (min n (2 ^ 63 - 1)) := by
  unfold saturate
  split
  · rw [Int64.toInt_minValue]
    omega
  · split
    · rw [Int64.toInt_maxValue]
      omega
    · rw [Int64.toInt_ofInt_of_le (by omega) (by omega)]
      omega

theorem toInt_saturate_of_mem {n : Int} (hlow : -2 ^ 63 ≤ n) (hhigh : n < 2 ^ 63) :
    (saturate n).toInt = n := by
  rw [toInt_saturate]
  omega

/-- A fold of terms that are not negative is one clamp of their sum. -/
theorem toInt_foldl_saturatingAdd {xs : List Int64} (hxs : ∀ x ∈ xs, 0 ≤ x.toInt) {a : Int64}
    (ha : 0 ≤ a.toInt) : (xs.foldl saturatingAdd a).toInt =
      min (a.toInt + (xs.map Int64.toInt).sum) (2 ^ 63 - 1) := by
  induction xs generalizing a with
  | nil =>
    have hlt := a.toInt_lt
    simp only [List.foldl_nil, List.map_nil, List.sum_nil]
    omega
  | cons x xs ih =>
    have hx := hxs x List.mem_cons_self
    have hrest : ∀ y ∈ xs, 0 ≤ y.toInt := fun y hy => hxs y (List.mem_cons_of_mem _ hy)
    have hsum : 0 ≤ (xs.map Int64.toInt).sum := by
      refine List.sum_nonneg fun n hn => ?_
      obtain ⟨y, hy, rfl⟩ := List.mem_map.mp hn
      exact hrest y hy
    have hstep : (saturatingAdd a x).toInt = max (-2 ^ 63) (min (a.toInt + x.toInt) (2 ^ 63 - 1)) :=
      toInt_saturate _
    rw [List.foldl_cons, ih hrest (by omega), hstep, List.map_cons, List.sum_cons]
    omega

/-! ## Without a sign -/

/-- `u64::saturating_sub`. -/
def saturatingSub64 (a b : UInt64) : UInt64 := if b ≤ a then a - b else 0

/-- `u64::saturating_mul`. -/
def saturatingMul64 (a b : UInt64) : UInt64 := UInt64.ofNat (min (a.toNat * b.toNat) (2 ^ 64 - 1))

/-- `u32::saturating_add`. -/
def saturatingAdd32 (a b : UInt32) : UInt32 := UInt32.ofNat (min (a.toNat + b.toNat) (2 ^ 32 - 1))

/-- `u32::try_from(n).unwrap_or(u32::MAX)`. -/
def clamp32 (n : UInt64) : UInt32 := UInt32.ofNat (min n.toNat (2 ^ 32 - 1))

theorem toNat_saturatingSub64 (a b : UInt64) : (saturatingSub64 a b).toNat = a.toNat - b.toNat := by
  unfold saturatingSub64
  split
  · rename_i h
    exact UInt64.toNat_sub_of_le a b h
  · rename_i h
    have hlt : a.toNat < b.toNat := Nat.lt_of_not_le h
    change 0 = _
    omega

theorem toNat_saturatingMul64 (a b : UInt64) :
    (saturatingMul64 a b).toNat = min (a.toNat * b.toNat) (2 ^ 64 - 1) :=
  UInt64.toNat_ofNat_of_lt' (by change _ < 2 ^ 64; omega)

theorem toNat_saturatingAdd32 (a b : UInt32) :
    (saturatingAdd32 a b).toNat = min (a.toNat + b.toNat) (2 ^ 32 - 1) :=
  UInt32.toNat_ofNat_of_lt' (by change _ < 2 ^ 32; omega)

theorem toNat_clamp32 (n : UInt64) : (clamp32 n).toNat = min n.toNat (2 ^ 32 - 1) :=
  UInt32.toNat_ofNat_of_lt' (by change _ < 2 ^ 32; omega)

end TinyShop.Base
