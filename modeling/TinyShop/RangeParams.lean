import TinyShop.CategoryPage

/-!
# Parameters that are no numbers

A bound of a range that does not parse is dropped by `parsed_f64` of `routes/category.rs`.
`NaN` parses, so it becomes a bound that nothing satisfies.
-/

namespace TinyShop.CategoryPage

open Base
set_option autoImplicit false

/-- The parameters but those of one name. -/
def without (key : String) (raw : List (String × String)) : List (String × String) :=
  raw.filter (·.1 ≠ key)

/-- The value does not parse, or it is a spelling of `NaN`. -/
def NoNumber (value : String) : Prop :=
  F64.parse (Text.trim value.toList) = none ∨ F64.parse (Text.trim value.toList) = some .nan

instance : DecidablePred NoNumber := fun _ => inferInstanceAs (Decidable (_ ∨ _))

/-- A filter whose parameters are the bounds of a range. -/
def isRange (filter : Filter) : Bool :=
  match filter.filterType with
  | .rangeGeneric | .rangePrice => true
  | .checkboxOr | .enumAnd | .string | .number => false

/-- How a filter reads its parameters. -/
inductive Reads (filter : Filter) : Prop where
  | bounds (minKey maxKey : String) (cond : Option F64 × Option F64 → FilterCond)
      (hrange : isRange filter = true) (hkeys : filterKeys filter = [minKey, maxKey])
      (heq : ∀ raw, filterCondFor filter raw = (rangeBounds raw minKey maxKey).map cond)
      (hcond : ∀ b b', cond b = cond b' → b.1.isSome = b'.1.isSome ∧ b.2.isSome = b'.2.isSome)
  | boxes (attributeId : String) (cond : List String → FilterCond)
      (hrange : isRange filter = false) (hkeys : filterKeys filter = ["attr_" ++ attributeId])
      (heq : ∀ raw, filterCondFor filter raw = (checkboxValues raw attributeId).map cond)
  | nothing (hrange : isRange filter = false) (hkeys : filterKeys filter = [])
      (heq : ∀ raw, filterCondFor filter raw = none)

theorem reads (filter : Filter) : Reads filter := by
  cases htype : filter.filterType with
  | checkboxOr =>
    apply Reads.boxes filter.attributeId (.checkboxOr filter.attributeId)
    all_goals simp [isRange, filterKeys, filterCondFor, htype]
  | enumAnd =>
    apply Reads.boxes filter.attributeId (.enumAnd filter.attributeId)
    all_goals simp [isRange, filterKeys, filterCondFor, htype]
  | string =>
    apply Reads.nothing
    all_goals simp [isRange, filterKeys, filterCondFor, htype]
  | number =>
    apply Reads.nothing
    all_goals simp [isRange, filterKeys, filterCondFor, htype]
  | rangePrice =>
    apply Reads.bounds "price_min" "price_max" fun b =>
      .rangePrice (b.1.map majorToMinor) (b.2.map majorToMinor)
    case hcond =>
      intro b b' heq
      obtain ⟨hmin, hmax⟩ := FilterCond.rangePrice.inj heq
      have hmin := congrArg Option.isSome hmin
      have hmax := congrArg Option.isSome hmax
      simpa using And.intro hmin hmax
    all_goals simp [isRange, filterKeys, filterCondFor, htype]
  | rangeGeneric =>
    apply Reads.bounds ("attr_" ++ filter.attributeId ++ "_min")
      ("attr_" ++ filter.attributeId ++ "_max") fun b =>
        .rangeGeneric filter.attributeId b.1 b.2
    case hcond =>
      intro b b' heq
      obtain ⟨-, hmin, hmax⟩ := FilterCond.rangeGeneric.inj heq
      exact ⟨congrArg Option.isSome hmin, congrArg Option.isSome hmax⟩
    all_goals simp [isRange, filterKeys, filterCondFor, htype]

section Lists
variable {α β : Type} {f g : α → Option β} {l : List α}

theorem length_filterMap_le (h : ∀ a ∈ l, f a = none → g a = none) :
    (l.filterMap g).length ≤ (l.filterMap f).length := by
  induction l with
  | nil => exact Nat.le_refl 0
  | cons a l ih =>
    have hrest := ih fun b hb => h b (List.mem_cons_of_mem a hb)
    cases hf : f a with
    | none => rwa [List.filterMap_cons_none hf, List.filterMap_cons_none (h a List.mem_cons_self hf)]
    | some b =>
      rw [List.filterMap_cons_some hf, List.length_cons]
      cases hg : g a with
      | none =>
        rw [List.filterMap_cons_none hg]
        omega
      | some c =>
        rw [List.filterMap_cons_some hg, List.length_cons]
        omega

/-- Where one list only loses elements, equal lists come from equal elements. -/
theorem filterMap_eq_iff (h : ∀ a ∈ l, f a = none → g a = none) :
    l.filterMap f = l.filterMap g ↔ ∀ a ∈ l, f a = g a := by
  refine ⟨fun heq => ?_, fun hall => List.filterMap_congr hall⟩
  induction l with
  | nil => exact fun a ha => absurd ha List.not_mem_nil
  | cons a l ih =>
    have hrest : ∀ b ∈ l, f b = none → g b = none := fun b hb => h b (List.mem_cons_of_mem a hb)
    rw [List.forall_mem_cons]
    cases hf : f a with
    | none =>
      have hg := h a List.mem_cons_self hf
      rw [List.filterMap_cons_none hf, List.filterMap_cons_none hg] at heq
      exact ⟨hg.symm, ih hrest heq⟩
    | some b =>
      rw [List.filterMap_cons_some hf] at heq
      cases hg : g a with
      | none =>
        rw [List.filterMap_cons_none hg] at heq
        have hle := length_filterMap_le hrest
        have hlength := congrArg List.length heq
        rw [List.length_cons] at hlength
        omega
      | some c =>
        rw [List.filterMap_cons_some hg] at heq
        obtain ⟨hbc, htail⟩ := List.cons.inj heq
        exact ⟨congrArg some hbc, ih hrest htail⟩

end Lists

section Removed
variable {raw : List (String × String)} {key : String}

theorem valuesFor_without_self : valuesFor (without key raw) key = [] := by
  rw [valuesFor, without, List.filter_filter]
  simp

theorem parsedF64_without_self : parsedF64 (without key raw) key = none := by
  rw [parsedF64_eq, valuesFor_without_self]
  rfl

theorem parsedF64_without {other : String} (hne : other ≠ key) :
    parsedF64 (without key raw) other = parsedF64 raw other := by
  rw [parsedF64_eq, parsedF64_eq, without, valuesFor_filter raw hne]

theorem exists_parsedF64 {number : F64} (h : parsedF64 raw key = some number) :
    ∃ value ∈ valuesFor raw key, F64.parse (Text.trim value.toList) = some number := by
  rw [parsedF64_eq] at h
  obtain ⟨value, hvalue, hparse⟩ := Option.bind_eq_some_iff.mp h
  exact ⟨value, List.mem_of_mem_head? hvalue, hparse⟩

theorem parsedF64_of_noNumber (hgarbage : ∀ value ∈ valuesFor raw key, NoNumber value)
    (hnan : parsedF64 raw key ≠ some .nan) : parsedF64 raw key = none := by
  cases hparsed : parsedF64 raw key with
  | none => rfl
  | some number =>
    obtain ⟨value, hvalue, hparse⟩ := exists_parsedF64 hparsed
    rcases hgarbage value hvalue with hno | hno
    · rw [hparse] at hno
      cases hno
    · exact absurd (hparsed.trans (hparse.symm.trans hno)) hnan

theorem rangeBounds_eq_none_iff {minKey maxKey : String} :
    rangeBounds raw minKey maxKey = none ↔
      parsedF64 raw minKey = none ∧ parsedF64 raw maxKey = none := by
  unfold rangeBounds
  cases parsedF64 raw minKey <;> cases parsedF64 raw maxKey <;> simp

theorem eq_of_rangeBounds {minKey maxKey : String} {b : Option F64 × Option F64}
    (h : rangeBounds raw minKey maxKey = some b) :
    b = (parsedF64 raw minKey, parsedF64 raw maxKey) := by
  rw [rangeBounds] at h
  split at h
  · exact (Option.some.inj h).symm
  · cases h

theorem checkboxValues_eq_none_iff {attributeId : String} :
    checkboxValues raw attributeId = none ↔ valuesFor raw ("attr_" ++ attributeId) = [] := by
  simp [checkboxValues]

theorem parsedF64_without_of_none {other : String} (h : parsedF64 raw other = none) :
    parsedF64 (without key raw) other = none := by
  by_cases hother : other = key
  · rw [hother, parsedF64_without_self]
  · rw [parsedF64_without hother, h]

section Filters
variable {filter : Filter}

/-- A filter that has no condition gets none by removing a parameter. -/
theorem filterCondFor_without_of_none (h : filterCondFor filter raw = none) :
    filterCondFor filter (without key raw) = none := by
  cases reads filter with
  | bounds minKey maxKey cond hrange hkeys heq hcond =>
    rw [heq, Option.map_eq_none_iff, rangeBounds_eq_none_iff] at h ⊢
    exact ⟨parsedF64_without_of_none h.1, parsedF64_without_of_none h.2⟩
  | boxes attributeId cond hrange hkeys heq =>
    rw [heq, Option.map_eq_none_iff, checkboxValues_eq_none_iff] at h ⊢
    by_cases hother : "attr_" ++ attributeId = key
    · rw [hother, valuesFor_without_self]
    · rw [without, valuesFor_filter raw hother, h]
  | nothing hrange hkeys heq => exact heq _

/-- A box that was checked is lost. -/
theorem filterCondFor_ne_of_checked (hboxes : isRange filter = false)
    (hkey : key ∈ filterKeys filter) (hoccurs : valuesFor raw key ≠ []) :
    filterCondFor filter raw ≠ filterCondFor filter (without key raw) := by
  cases reads filter with
  | bounds minKey maxKey cond hrange hkeys heq hcond =>
    rw [hboxes] at hrange
    cases hrange
  | boxes attributeId cond hrange hkeys heq =>
    rw [hkeys, List.mem_singleton] at hkey
    subst hkey
    have hafter : checkboxValues (without ("attr_" ++ attributeId) raw) attributeId = none :=
      checkboxValues_eq_none_iff.mpr valuesFor_without_self
    rw [heq, heq, hafter, Option.map_none, ne_eq, Option.map_eq_none_iff,
      checkboxValues_eq_none_iff]
    exact hoccurs
  | nothing hrange hkeys heq =>
    rw [hkeys] at hkey
    cases hkey

/-- A bound that was read is lost, `NaN` or not. -/
theorem filterCondFor_ne_of_parsed (hrange : isRange filter = true)
    (hkey : key ∈ filterKeys filter) (hparsed : (parsedF64 raw key).isSome = true) :
    filterCondFor filter raw ≠ filterCondFor filter (without key raw) := by
  cases reads filter with
  | bounds minKey maxKey cond hrange hkeys heq hcond =>
    intro hsame
    rw [heq, heq] at hsame
    rw [hkeys, List.mem_cons, List.mem_singleton] at hkey
    cases hbefore : rangeBounds raw minKey maxKey with
    | none =>
      obtain ⟨hmin, hmax⟩ := rangeBounds_eq_none_iff.mp hbefore
      rcases hkey with rfl | rfl
      · rw [hmin] at hparsed
        cases hparsed
      · rw [hmax] at hparsed
        cases hparsed
    | some b =>
      rw [hbefore, Option.map_some, eq_comm, Option.map_eq_some_iff] at hsame
      obtain ⟨b', hafter, hcondition⟩ := hsame
      obtain ⟨hmin, hmax⟩ := hcond b' b hcondition
      rw [eq_of_rangeBounds hbefore, eq_of_rangeBounds hafter] at hmin hmax
      rcases hkey with rfl | rfl
      · rw [hparsed, parsedF64_without_self] at hmin
        cases hmin
      · rw [hparsed, parsedF64_without_self] at hmax
        cases hmax
  | boxes attributeId cond hboxes hkeys heq =>
    rw [hrange] at hboxes
    cases hboxes
  | nothing hboxes hkeys heq =>
    rw [hrange] at hboxes
    cases hboxes

/-- A bound that was not read is not missed. -/
theorem filterCondFor_eq_of_unparsed (hrange : isRange filter = true)
    (hnone : parsedF64 raw key = none) :
    filterCondFor filter raw = filterCondFor filter (without key raw) := by
  have hsame : ∀ other, parsedF64 (without key raw) other = parsedF64 raw other := by
    intro other
    by_cases hother : other = key
    · rw [hother, parsedF64_without_self, hnone]
    · exact parsedF64_without hother
  cases reads filter with
  | bounds minKey maxKey cond hrange hkeys heq hcond =>
    rw [heq, heq, rangeBounds, rangeBounds, hsame, hsame]
  | boxes attributeId cond hboxes hkeys heq =>
    rw [hrange] at hboxes
    cases hboxes
  | nothing hboxes hkeys heq =>
    rw [hrange] at hboxes
    cases hboxes

end Filters

end Removed

/-- Parameters of a range that are no numbers are as good as absent exactly when the first of
them does not parse, rather than to `NaN`, and their name is not that of a box as well. -/
theorem buildFilterConds_without_iff (filters : List Filter) (raw : List (String × String))
    (key : String)
    (hrange : ∃ filter ∈ filters, isRange filter = true ∧ key ∈ filterKeys filter)
    (hgarbage : ∀ value ∈ valuesFor raw key, NoNumber value) :
    buildFilterConds filters raw = buildFilterConds filters (without key raw) ↔
      valuesFor raw key = [] ∨ (parsedF64 raw key ≠ some .nan ∧
        ∀ filter ∈ filters, isRange filter = false → key ∉ filterKeys filter) := by
  have hfilters : buildFilterConds filters raw = buildFilterConds filters (without key raw) ↔
      ∀ filter ∈ filters, filterCondFor filter raw = filterCondFor filter (without key raw) :=
    filterMap_eq_iff fun _ _ => filterCondFor_without_of_none
  rw [hfilters]
  constructor
  · intro hsame
    by_cases hoccurs : valuesFor raw key = []
    · exact .inl hoccurs
    · refine .inr ⟨fun hnan => ?_, fun filter hmem hboxes hkey => ?_⟩
      · obtain ⟨filter, hmem, hisRange, hkey⟩ := hrange
        exact filterCondFor_ne_of_parsed hisRange hkey (by rw [hnan]; rfl) (hsame filter hmem)
      · exact filterCondFor_ne_of_checked hboxes hkey hoccurs (hsame filter hmem)
  · rintro (habsent | ⟨hnan, hboxes⟩) filter hmem
    · apply filterCondFor_congr
      intro other _
      by_cases hother : other = key
      · rw [hother, habsent, valuesFor_without_self]
      · exact (valuesFor_filter raw hother).symm
    · by_cases hkey : key ∈ filterKeys filter
      · have hisRange : isRange filter = true := by
          by_contra hno
          exact hboxes filter hmem (Bool.not_eq_true _ ▸ hno) hkey
        exact filterCondFor_eq_of_unparsed hisRange (parsedF64_of_noNumber hgarbage hnan)
      · apply filterCondFor_congr
        intro other hother
        have hne : other ≠ key := fun h => hkey (h ▸ hother)
        exact (valuesFor_filter raw hne).symm

def widthFilters : List Filter := [⟨"f1", "lamps", "width", .rangeGeneric, 0⟩]

theorem buildFilterConds_wide :
    buildFilterConds widthFilters [("attr_width_min", "wide"), ("attr_width_max", "30")] =
      buildFilterConds widthFilters [("attr_width_max", "30")] :=
  (buildFilterConds_without_iff widthFilters [("attr_width_min", "wide"), ("attr_width_max", "30")]
    "attr_width_min" ⟨_, List.mem_cons_self, rfl, by decide⟩ (by decide)).mpr
    (.inr ⟨by decide, by decide⟩)

/-- No product is as wide as `NaN`, so none is listed. -/
theorem buildFilterConds_nan :
    (∀ value ∈ valuesFor [("attr_width_min", "NaN")] "attr_width_min", NoNumber value) ∧
      buildFilterConds widthFilters [("attr_width_min", "NaN")] =
        [.rangeGeneric "width" (some .nan) none] ∧
      buildFilterConds widthFilters (without "attr_width_min" [("attr_width_min", "NaN")]) = [] ∧
      ∀ (db : CatalogDb) (pp : ProjectionRow), SqliteCatalogSearch.pushFilterCond db pp
        (.rangeGeneric "width" (some .nan) none) = false := by
  refine ⟨by decide, rfl, rfl, fun db pp => ?_⟩
  have hnumber : ∀ n : Option F64, (n.any fun n => F64.nan.le n) = false := by
    intro n
    cases n <;> rfl
  simp [SqliteCatalogSearch.pushFilterCond, hnumber]

end TinyShop.CategoryPage
