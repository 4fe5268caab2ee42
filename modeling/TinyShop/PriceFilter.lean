import TinyShop.CategoryWalk
import TinyShop.Numerals
import TinyShop.PriceText
import TinyShop.RangeParams
import TinyShop.Rounding

/-!
# The filter by price

A visitor types prices as they are shown, and the bounds go through binary fractions, which have
no exact hundredth. They come out of it as the amounts that they were.
-/

namespace TinyShop

open Base
set_option autoImplicit false

namespace CategoryPage

/-! ## Back to the amount -/

section Round
variable {n : Int}

theorem round_near {q : ℚ} (h : |q - n| < 1 / 2) : F64.round (.fin q) = .fin n := by
  obtain ⟨hlow, hhigh⟩ := abs_lt.mp h
  have hfloor : ∀ (x : ℚ) (m : Int), m ≤ x → x < m + 1 → x.floor = m :=
    fun x m hle hlt => (Int.floor_eq_iff (a := x)).mpr ⟨hle, hlt⟩
  rw [F64.round]
  split
  · rw [hfloor _ n (by linarith) (by linarith)]
  · rw [hfloor _ (-n) (by push_cast; linarith) (by push_cast; linarith), Int.cast_neg, neg_neg]

theorem toI64_int (a : Int64) : F64.toI64 (.fin (a.toInt : ℚ)) = a := by
  have hlow := a.le_toInt
  have hhigh := a.toInt_lt
  apply Int64.toInt_inj.mp
  rw [F64.toI64, Rat.num_intCast, Rat.den_intCast, Nat.cast_one, Int.tdiv_one,
    toInt_saturate_of_mem hlow hhigh]

variable (hn : |n| < 2 ^ 51)
include hn

/-- Both roundings together lose less than half of a hundredth. -/
theorem mul_nearest : ∃ r, F64.mul (F64.nearest ((n : ℚ) / 100)) (.fin 100) = .fin r ∧
    |r - n| < 1 / 2 := by
  have habs : |(n : ℚ)| ≤ 2 ^ 51 - 1 := by
    have hle : |n| ≤ 2 ^ 51 - 1 := by omega
    exact_mod_cast hle
  have hcent : |(n : ℚ) / 100| = |(n : ℚ)| / 100 := by
    rw [abs_div, abs_of_pos (by norm_num : (0 : ℚ) < 100)]
  have hwhole : n = 0 ∨ 1 ≤ |(n : ℚ)| := by
    by_cases hzero : n = 0
    · exact .inl hzero
    · exact .inr (by exact_mod_cast Int.one_le_abs hzero)
  have hsmall : (2 : ℚ) ^ (-1022 : ℤ) ≤ 1 / 100 := by
    have hle : (2 : ℚ) ^ (-1022 : ℤ) ≤ 2 ^ (-7 : ℤ) :=
      zpow_le_zpow_right₀ (by norm_num) (by norm_num)
    exact hle.trans (by norm_num)
  have hlarge : ∀ x : ℚ, x < 2 ^ 52 → x < 2 ^ 1023 :=
    fun x hx => hx.trans (pow_lt_pow_right₀ (by norm_num) (by norm_num))
  obtain ⟨r, hr, herror⟩ := F64.nearest_near (q := (n : ℚ) / 100)
    (by
      rcases hwhole with rfl | hone
      · exact .inl (by simp)
      · exact .inr (by rw [hcent]; linarith))
    (hlarge _ (by rw [hcent]; linarith))
  have hfirst : |r * 100 - n| ≤ |(n : ℚ)| / 2 ^ 53 := by
    have heq : r * 100 - n = (r - n / 100) * 100 := by ring
    rw [heq, abs_mul, abs_of_pos (by norm_num : (0 : ℚ) < 100)]
    rw [hcent] at herror
    linarith
  have hupper : |r * 100| ≤ |(n : ℚ)| + |(n : ℚ)| / 2 ^ 53 := by
    have htriangle := abs_sub_abs_le_abs_sub (r * 100) n
    linarith
  have hlower : |(n : ℚ)| - |(n : ℚ)| / 2 ^ 53 ≤ |r * 100| := by
    have htriangle := abs_sub_abs_le_abs_sub (n : ℚ) (r * 100)
    rw [abs_sub_comm] at htriangle
    linarith
  obtain ⟨s, hs, hsecond⟩ := F64.nearest_near (q := r * 100)
    (by
      rcases hwhole with rfl | hone
      · refine .inl (abs_eq_zero.mp (le_antisymm ?_ (abs_nonneg _)))
        simpa using hupper
      · exact .inr (by linarith))
    (hlarge _ (by linarith))
  refine ⟨s, ?_, ?_⟩
  · rw [hr]
    exact hs
  · have htriangle : |s - n| ≤ |s - r * 100| + |r * 100 - n| := abs_sub_le _ _ _
    linarith

end Round

/-- An amount of up to 22 billion hryvnias is the one that is read from its text. -/
theorem majorToMinor_nearest {a : Int64} (ha : |a.toInt| < 2 ^ 51) :
    majorToMinor (F64.nearest ((a.toInt : ℚ) / 100)) = a := by
  obtain ⟨r, hr, hnear⟩ := mul_nearest ha
  rw [majorToMinor, hr, round_near hnear, toI64_int]

/-! ## The list -/

section Listing
variable {raw : List (String × String)}

/-- The first value of a parameter is a decimal number, an amount in hryvnias; without an amount
there is no number. -/
def Typed (raw : List (String × String)) (key : String) : Option Int64 → Prop
  | none => parsedF64 raw key = none
  | some a => ∃ value, (valuesFor raw key).head? = some value ∧
      Decimal.read (Text.trim value.toList) = some ((a.toInt : ℚ) / 100)

theorem minor_of_typed {key : String} {bound : Option Int64} (h : Typed raw key bound)
    (hsmall : ∀ a ∈ bound, |a.toInt| < 2 ^ 51) :
    (parsedF64 raw key).map majorToMinor = bound := by
  cases bound with
  | none => exact Option.map_eq_none_iff.mpr h
  | some a =>
    obtain ⟨value, hvalue, hread⟩ := h
    rw [parsedF64_eq, hvalue, Option.bind_some, F64.parse_of_read hread, Option.map_some,
      majorToMinor_nearest (hsmall a rfl)]

/-- The parameters but the bounds of the price. -/
def unpriced (raw : List (String × String)) : List (String × String) :=
  without "price_min" (without "price_max" raw)

def InRange (low high : Option Int64) (minor : Int64) : Prop :=
  (∀ a ∈ low, a ≤ minor) ∧ ∀ b ∈ high, minor ≤ b

theorem price_unpriced : rangeBounds (unpriced raw) "price_min" "price_max" = none := by
  rw [rangeBounds_eq_none_iff]
  exact ⟨parsedF64_without_self, parsedF64_without_of_none parsedF64_without_self⟩

theorem attr_append_ne_price (s : String) :
    "attr_" ++ s ≠ "price_min" ∧ "attr_" ++ s ≠ "price_max" := by
  constructor
  · intro h
    have hlist := congrArg String.toList h
    rw [String.toList_append] at hlist
    exact absurd (List.head_eq_of_cons_eq hlist) (by decide)
  · intro h
    have hlist := congrArg String.toList h
    rw [String.toList_append] at hlist
    exact absurd (List.head_eq_of_cons_eq hlist) (by decide)

/-- The other filters do not see the bounds of the price. -/
theorem filterCondFor_unpriced {filter : Filter} (h : filter.filterType ≠ .rangePrice) :
    filterCondFor filter (unpriced raw) = filterCondFor filter raw := by
  have hkeys : ∀ key ∈ filterKeys filter, key ≠ "price_min" ∧ key ≠ "price_max" := by
    intro key hkey
    unfold filterKeys at hkey
    split at hkey
    · rw [List.mem_singleton.mp hkey]
      exact attr_append_ne_price _
    · rw [List.mem_singleton.mp hkey]
      exact attr_append_ne_price _
    · rw [List.mem_cons, List.mem_singleton] at hkey
      rcases hkey with rfl | rfl
      · rw [String.append_assoc]
        exact attr_append_ne_price _
      · rw [String.append_assoc]
        exact attr_append_ne_price _
    · rename_i hprice
      exact absurd hprice h
    · cases hkey
    · cases hkey
  apply filterCondFor_congr
  intro key hkey
  obtain ⟨hmin, hmax⟩ := hkeys key hkey
  rw [unpriced, without, valuesFor_filter _ hmin, without, valuesFor_filter _ hmax]

variable {low high : Option Int64} (hlow : Typed raw "price_min" low)
  (hhigh : Typed raw "price_max" high) (hsmall : ∀ a ∈ low, |a.toInt| < 2 ^ 51)
  (hsmall' : ∀ b ∈ high, |b.toInt| < 2 ^ 51)
include hlow hhigh hsmall hsmall'

/-- What the filter by price asks of a row. -/
theorem price_condition (db : CatalogDb) (row : ProjectionRow) {filter : Filter}
    (h : filter.filterType = .rangePrice) :
    (∀ f ∈ filterCondFor filter raw, SqliteCatalogSearch.pushFilterCond db row f = true) ↔
      InRange low high row.priceMinor := by
  have hmin := minor_of_typed hlow hsmall
  have hmax := minor_of_typed hhigh hsmall'
  simp only [filterCondFor, h]
  cases hbounds : rangeBounds raw "price_min" "price_max" with
  | none =>
    obtain ⟨hnone, hnone'⟩ := rangeBounds_eq_none_iff.mp hbounds
    rw [hnone, Option.map_none] at hmin
    rw [hnone', Option.map_none] at hmax
    simp [InRange, ← hmin, ← hmax]
  | some b =>
    rw [eq_of_rangeBounds hbounds, Option.map_some]
    simp only [hmin, hmax]
    simp [SqliteCatalogSearch.pushFilterCond, InRange, Option.all_eq_true]

variable {db : TaxonomyDb} {category : Category}
  (hprice : ∃ filter ∈ TaxonomyRepo.listFiltersByCategory db category.id,
    filter.filterType = .rangePrice)
include hprice

theorem kept_iff (row : ProjectionRow) : Kept db category raw row ↔
    Kept db category (unpriced raw) row ∧ InRange low high row.priceMinor := by
  have hfilters : ∀ raw', (∀ f ∈ buildFilterConds
      (TaxonomyRepo.listFiltersByCategory db category.id) raw',
        SqliteCatalogSearch.pushFilterCond db.toCatalogDb row f = true) ↔
      ∀ filter ∈ TaxonomyRepo.listFiltersByCategory db category.id,
        ∀ f ∈ filterCondFor filter raw',
          SqliteCatalogSearch.pushFilterCond db.toCatalogDb row f = true := by
    intro raw'
    simp only [buildFilterConds, List.mem_filterMap]
    exact ⟨fun h filter hmem f hf => h f ⟨filter, hmem, hf⟩,
      fun h f ⟨filter, hmem, hf⟩ => h filter hmem f hf⟩
  have hsplit : (∀ filter ∈ TaxonomyRepo.listFiltersByCategory db category.id,
        ∀ f ∈ filterCondFor filter raw,
          SqliteCatalogSearch.pushFilterCond db.toCatalogDb row f = true) ↔
      (∀ filter ∈ TaxonomyRepo.listFiltersByCategory db category.id,
        ∀ f ∈ filterCondFor filter (unpriced raw),
          SqliteCatalogSearch.pushFilterCond db.toCatalogDb row f = true) ∧
        InRange low high row.priceMinor := by
    constructor
    · intro h
      constructor
      · intro filter hmem
        by_cases htype : filter.filterType = .rangePrice
        · intro f hf
          simp [filterCondFor, htype, price_unpriced] at hf
        · rw [filterCondFor_unpriced htype]
          exact h filter hmem
      · obtain ⟨filter, hmem, htype⟩ := hprice
        exact (price_condition hlow hhigh hsmall hsmall' db.toCatalogDb row htype).mp
          (h filter hmem)
    · rintro ⟨h, hrange⟩ filter hmem
      by_cases htype : filter.filterType = .rangePrice
      · exact (price_condition hlow hhigh hsmall hsmall' db.toCatalogDb row htype).mpr hrange
      · rw [← filterCondFor_unpriced htype]
        exact h filter hmem
  simp only [Kept, SqliteCatalogSearch.pushWhere, Bool.and_eq_true, List.all_eq_true, searchQuery,
    hfilters, hsplit, and_assoc]

end Listing

/-- The clothes, which can be filtered by price as well. -/
def pricedDb : TaxonomyDb where
  toCatalogDb := SearchMeaning.clothes
  categories := clothesDb.categories
  attributeOptions := ∅
  filters := ⟨⟨[⟨"filter", "clothes", "color", .checkboxOr, 0⟩,
    ⟨"price", "clothes", "price", .rangePrice, 1⟩], by decide⟩, by decide⟩
  translations := ∅

/-- From 100 to 499.99 hryvnias. -/
def typedPrices : List (String × String) :=
  [("attr_color", "red"), ("price_min", " 100"), ("price_max", "499.99")]

end CategoryPage

end TinyShop
