import TinyShop.CategoryWalk
import TinyShop.Forms
import TinyShop.RangeParams

/-!
# The form of the filters

A visitor checks boxes and types bounds, sends the form, follows links to other pages of the
list and sends the form again. The form on the page always shows what was chosen last, and the
list holds the products that were asked for.
-/

namespace TinyShop.CategoryPage

open Base Markup
set_option autoImplicit false

/-! ## The controls -/

section Controls
variable (db : TaxonomyDb) (category : Category)

/-- The attribute of a filter, if it is one of the category. -/
def attributeOf (id : String) : Option Attribute :=
  (TaxonomyRepo.listAttributesByCategory db .uk category.id).find? (·.id = id)

/-- The filter has controls on the page. -/
def rendered (filter : Filter) : Bool :=
  match filter.filterType with
  | .checkboxOr | .enumAnd | .rangeGeneric => (attributeOf db category filter.attributeId).isSome
  | .rangePrice => true
  | .string | .number => false

def boxParam (filter : Filter) : String := "attr_" ++ filter.attributeId

/-- The names of the two bounds of a range. -/
def boundParams (filter : Filter) : String × String :=
  match filter.filterType with
  | .rangePrice => ("price_min", "price_max")
  | _ => ("attr_" ++ filter.attributeId ++ "_min", "attr_" ++ filter.attributeId ++ "_max")

def options (filter : Filter) : List AttributeOption :=
  TaxonomyRepo.listAttributeOptions db .uk filter.attributeId

def hasBoxes (filter : Filter) : Bool :=
  match filter.filterType with
  | .checkboxOr | .enumAnd => true
  | _ => false

/-- A field for a bound, with the value that is kept from the request. -/
def boundField (raw : List (String × String)) (param : String) : Field :=
  .number param (Field.sanitized ((numericValueFor raw param).getD ""))

/-- The controls of a filter that is rendered. -/
def controls (raw : List (String × String)) (filter : Filter) : List Field :=
  if hasBoxes filter then (options db filter).map fun o =>
    .checkbox (boxParam filter) o.value (decide (o.value ∈ valuesFor raw (boxParam filter)))
  else [boundField raw (boundParams filter).1, boundField raw (boundParams filter).2]

def formFields (raw : List (String × String)) : List Field :=
  (TaxonomyRepo.listFiltersByCategory db category.id).flatMap fun filter =>
    if rendered db category filter then controls db raw filter else []

end Controls

/-- The controls of the forms on a page. -/
def pageFields (page : PageShell) : List Field := (selectAll "form" page.main).flatMap fields

section Shown
variable {db : TaxonomyDb} {category : Category} {raw : List (String × String)}

theorem selectAll_flatMap (tag : String) (ms : List Markup) :
    selectAll tag ms = ms.flatMap (·.select tag) := by
  induction ms with
  | nil => rfl
  | cons m ms ih => rw [selectAll, ih, List.flatMap_cons]

theorem fields_checkboxFieldset (param legend : String) (os : List AttributeOption)
    (selected : List String) : fields (checkboxFieldset param legend os selected) =
      os.map fun o => .checkbox param o.value (decide (o.value ∈ selected)) := by
  have hbox : ∀ o : AttributeOption, ((checkbox param selected o).select "input").filterMap
      Field.ofInput = [.checkbox param o.value (decide (o.value ∈ selected))] := by
    intro o
    by_cases ho : o.value ∈ selected
    · simp [checkbox, select, selectAll, Field.ofInput, attr, List.lookup, ho]
    · simp [checkbox, select, selectAll, Field.ofInput, attr, List.lookup, ho]
  have hinputs : (checkboxFieldset param legend os selected).select "input" =
      os.flatMap fun o => (checkbox param selected o).select "input" := by
    simp [checkboxFieldset, fieldset, select, selectAll, selectAll_flatMap, List.flatMap_map]
  rw [fields, hinputs, List.filterMap_flatMap]
  simp only [hbox]
  exact List.flatMap_pure_eq_map _ _

theorem fields_rangeFieldset (legend minParam maxParam : String) :
    fields (rangeFieldset raw legend minParam maxParam) =
      [boundField raw minParam, boundField raw maxParam] := by
  have hbound : ∀ param label, ((bound raw param label).select "input").filterMap Field.ofInput =
      [boundField raw param] := by
    intro param label
    cases hvalue : numericValueFor raw param with
    | none => simp [bound, select, selectAll, Field.ofInput, attr, List.lookup, hvalue, boundField]
    | some v => simp [bound, select, selectAll, Field.ofInput, attr, List.lookup, hvalue, boundField]
  have hinputs : (rangeFieldset raw legend minParam maxParam).select "input" =
      (bound raw minParam "Від").select "input" ++ (bound raw maxParam "До").select "input" := by
    simp [rangeFieldset, fieldset, select, selectAll]
  rw [fields, hinputs, List.filterMap_append, hbound, hbound]
  rfl

theorem fields_filterFieldset (filter : Filter) :
    (filterFieldset raw db (attributeOf db category) filter).toList.flatMap fields =
      if rendered db category filter then controls db raw filter else [] := by
  unfold filterFieldset rendered controls hasBoxes boundParams boxParam options
  cases filter.filterType with
  | checkboxOr =>
    cases attributeOf db category filter.attributeId with
    | none => simp
    | some a => simp [fields_checkboxFieldset]
  | enumAnd =>
    cases attributeOf db category filter.attributeId with
    | none => simp
    | some a => simp [fields_checkboxFieldset]
  | rangeGeneric =>
    cases attributeOf db category filter.attributeId with
    | none => simp
    | some a => simp [fields_rangeFieldset]
  | rangePrice => simp [fields_rangeFieldset]
  | string => simp
  | number => simp

theorem flatMap_filterFieldset (filters : List Filter) :
    (filters.filterMap (filterFieldset raw db (attributeOf db category))).flatMap fields =
      filters.flatMap fun filter =>
        if rendered db category filter then controls db raw filter else [] := by
  induction filters with
  | nil => rfl
  | cons filter filters ih =>
    rw [List.flatMap_cons, ← ih, ← fields_filterFieldset]
    cases hfieldset : filterFieldset raw db (attributeOf db category) filter with
    | none => rw [List.filterMap_cons_none hfieldset]; rfl
    | some m => rw [List.filterMap_cons_some hfieldset]; simp

/-- The forms that are rendered for the filters have their controls. -/
theorem fields_renderFilterForm (slug : String) (filters : List Filter) :
    (renderFilterForm raw db slug filters (attributeOf db category)).toList.flatMap fields =
      filters.flatMap fun filter =>
        if rendered db category filter then controls db raw filter else [] := by
  rw [← flatMap_filterFieldset]
  simp only [renderFilterForm]
  cases hfieldsets : filters.filterMap (filterFieldset raw db (attributeOf db category)) with
  | nil => rfl
  | cons m ms =>
    have hform : ∀ button : Markup, button.select "input" = [] →
        fields (element "form" [("role", "search"), ("method", "get"), ("action", "/c/" ++ slug)]
          (m :: ms ++ [button])) = (m :: ms).flatMap fields := by
      intro button hbutton
      simp only [fields, select, selectAll_flatMap]
      simp [List.filterMap_flatMap, hbutton]
      rfl
    have hbutton : (element "button" [("type", "submit"), ("class", "btn btn-primary btn-sm")]
        [text "Застосувати"]).select "input" = [] := by simp [select, selectAll]
    simpa using hform _ hbutton

theorem selectAll_form_breadcrumbNav (items : List (String × Option String)) :
    (breadcrumbNav items).select "form" = [] := by
  simp only [breadcrumbNav, select, selectAll, String.reduceEq, if_false, List.append_nil]
  refine selectAll_map (fun item => ?_) items
  obtain ⟨name, url⟩ := item
  cases url <;> simp [select, selectAll]

theorem selectAll_form_productList (items : List ProductCard) (slug : String) (page : UInt32)
    (hasPrev hasNext : Bool) :
    selectAll "form" (productList items slug raw page hasPrev hasNext) = [] := by
  have hcards : ∀ items : List ProductCard, selectAll "form" (items.map fun item =>
      element "div" [("class", "col-12 col-sm-6 col-md-4 col-lg-3")] [card item]) = [] := by
    refine fun items => selectAll_map (fun item => ?_) items
    cases hthumb : item.thumb <;> simp [card, price, select, selectAll, hthumb]
  unfold productList
  split
  · simp [select, selectAll]
  · cases hasPrev <;> cases hasNext <;> simp [select, selectAll, hcards, pageItem, pageLink]

theorem fields_filterForm (slug : String) :
    (filterForm db slug category raw).toList.flatMap fields = formFields db category raw := by
  rw [filterForm, formFields]
  split
  · rename_i hempty
    rw [List.isEmpty_iff.mp hempty]
    rfl
  · exact fields_renderFilterForm slug _

/-- The form leads back to the category. -/
theorem select_filterForm {slug : String} {form : Markup}
    (h : filterForm db slug category raw = some form) :
    form.select "form" = [form] ∧ form.attr "action" = some ("/c/" ++ slug) := by
  simp only [filterForm] at h
  split at h
  · cases h
  · simp only [renderFilterForm] at h
    split at h
    · cases h
    · obtain rfl := Option.some.inj h
      exact ⟨by simp [select], by simp [attr, List.lookup]⟩

variable (db category raw) in
/-- There is no other form on the page. -/
theorem forms_shown (baseUrl slug : String) (page : UInt32) (result : SearchResult) :
    selectAll "form" (shown db baseUrl slug category page raw result).main =
      (filterForm db slug category raw).toList := by
  simp only [shown, selectAll_append]
  cases hform : filterForm db slug category raw with
  | none => simp [selectAll, selectAll_form_breadcrumbNav, selectAll_form_productList, select]
  | some form =>
    simp [selectAll, selectAll_form_breadcrumbNav, selectAll_form_productList, select,
      (select_filterForm hform).1]

theorem pageFields_shown (baseUrl slug : String) (page : UInt32) (result : SearchResult) :
    pageFields (shown db baseUrl slug category page raw result) = formFields db category raw := by
  rw [pageFields, forms_shown, fields_filterForm]

end Shown

/-! ## What is sent -/

section Sent
variable (db : TaxonomyDb) (category : Category) (c : Choice)

/-- What a filter that is rendered adds to the request. -/
def sentBy (filter : Filter) : List (String × String) :=
  if hasBoxes filter then
    ((options db filter).filter fun o => c.checked (boxParam filter) o.value).map fun o =>
      (boxParam filter, o.value)
  else [((boundParams filter).1, c.typed (boundParams filter).1),
    ((boundParams filter).2, c.typed (boundParams filter).2)]

/-- The parameters of the request. -/
def sent : List (String × String) :=
  (TaxonomyRepo.listFiltersByCategory db category.id).flatMap fun filter =>
    if rendered db category filter then sentBy db c filter else []

variable {db category c} {raw : List (String × String)}

/-- What is sent does not depend on what the form showed before. -/
theorem entries_fill :
    entries ((formFields db category raw).map (Field.fill c)) = sent db category c := by
  rw [formFields, sent, List.map_flatMap, entries, List.filterMap_flatMap]
  congr 1
  funext filter
  cases hrendered : rendered db category filter with
  | false => rfl
  | true =>
    simp only [if_true, controls, sentBy]
    split
    · rw [List.map_map, List.filterMap_map]
      induction options db filter with
      | nil => rfl
      | cons o os ih =>
        rw [List.filterMap_cons]
        cases hchecked : c.checked (boxParam filter) o.value with
        | false => simpa [Field.fill, Field.entry, hchecked] using ih
        | true => simpa [Field.fill, Field.entry, hchecked] using ih
    · rfl

theorem mem_filterKeys_of_sentBy {filter : Filter} (hrendered : rendered db category filter = true)
    {pair : String × String} (h : pair ∈ sentBy db c filter) : pair.1 ∈ filterKeys filter := by
  unfold sentBy hasBoxes boundParams boxParam at h
  unfold rendered at hrendered
  unfold filterKeys
  split at hrendered
  · rename_i htype
    simp only [htype] at h ⊢
    obtain ⟨o, _, rfl⟩ := List.mem_map.mp h
    exact List.mem_singleton.mpr rfl
  · rename_i htype
    simp only [htype] at h ⊢
    obtain ⟨o, _, rfl⟩ := List.mem_map.mp h
    exact List.mem_singleton.mpr rfl
  · rename_i htype
    simp only [htype] at h ⊢
    simp at h ⊢
    rcases h with rfl | rfl <;> simp
  · rename_i htype
    simp only [htype] at h ⊢
    simp at h ⊢
    rcases h with rfl | rfl <;> simp
  · cases hrendered
  · cases hrendered

/-- Of parts that have different names only one counts for a name. -/
theorem filter_flatMap {α : Type} {keys : α → List String} {pairs : α → List (String × String)}
    {l : List α} {a : α} {key : String} (hpairs : ∀ b, ∀ pair ∈ pairs b, pair.1 ∈ keys b)
    (hnodup : (l.flatMap keys).Nodup) (ha : a ∈ l) (hkey : key ∈ keys a) :
    (l.flatMap pairs).filter (·.1 = key) = (pairs a).filter (·.1 = key) := by
  have hnone : ∀ bs : List α, key ∉ bs.flatMap keys →
      (bs.flatMap pairs).filter (·.1 = key) = [] := by
    intro bs hbs
    rw [List.filter_eq_nil_iff]
    intro pair hpair
    obtain ⟨b, hb, hpair⟩ := List.mem_flatMap.mp hpair
    rw [decide_eq_true_iff]
    rintro rfl
    exact hbs (List.mem_flatMap.mpr ⟨b, hb, hpairs b pair hpair⟩)
  obtain ⟨before, after, rfl⟩ := List.append_of_mem ha
  rw [List.flatMap_append, List.flatMap_cons, List.nodup_append, List.nodup_append] at hnodup
  obtain ⟨-, ⟨-, -, hafter⟩, hbefore⟩ := hnodup
  rw [List.flatMap_append, List.flatMap_cons, List.filter_append, List.filter_append,
    hnone before fun h => hbefore key h key (List.mem_append_left _ hkey) rfl,
    hnone after fun h => hafter key hkey key h rfl, List.nil_append, List.append_nil]

end Sent

/-- The filters of the category do not share names of parameters, the options of one do not
share values, and no line break is among them. -/
structure Usable (db : TaxonomyDb) (category : Category) : Prop where
  keys : ((TaxonomyRepo.listFiltersByCategory db category.id).flatMap filterKeys).Nodup
  names : ∀ filter ∈ TaxonomyRepo.listFiltersByCategory db category.id,
    ∀ key ∈ filterKeys filter, OneLine key
  values : ∀ filter ∈ TaxonomyRepo.listFiltersByCategory db category.id, hasBoxes filter = true →
    ((options db filter).map AttributeOption.value).Nodup ∧
      ∀ o ∈ options db filter, OneLine o.value

section Again
variable {db : TaxonomyDb} {category : Category} {c : Choice} (husable : Usable db category)
include husable

theorem valuesFor_sent {filter : Filter} {key : String}
    (hfilter : filter ∈ TaxonomyRepo.listFiltersByCategory db category.id)
    (hkey : key ∈ filterKeys filter) : valuesFor (sent db category c) key =
      valuesFor (if rendered db category filter then sentBy db c filter else []) key := by
  have hpairs : ∀ filter, ∀ pair ∈ (if rendered db category filter then sentBy db c filter else []),
      pair.1 ∈ filterKeys filter := by
    intro filter pair hpair
    split at hpair
    · exact mem_filterKeys_of_sentBy (by assumption) hpair
    · cases hpair
  rw [valuesFor, sent, filter_flatMap hpairs husable.keys hfilter hkey, valuesFor]

variable {filter : Filter} (hfilter : filter ∈ TaxonomyRepo.listFiltersByCategory db category.id)
  (hrendered : rendered db category filter = true)
include hfilter hrendered

/-- The values of the boxes that are checked. -/
theorem valuesFor_boxes (hboxes : hasBoxes filter = true) :
    valuesFor (sent db category c) (boxParam filter) =
      ((options db filter).filter fun o => c.checked (boxParam filter) o.value).map
        AttributeOption.value := by
  have hkey : boxParam filter ∈ filterKeys filter := by
    unfold hasBoxes at hboxes
    unfold filterKeys boxParam
    split at hboxes
    · rename_i htype
      simp [htype]
    · rename_i htype
      simp [htype]
    · cases hboxes
  rw [valuesFor_sent husable hfilter hkey, if_pos hrendered, sentBy, if_pos hboxes, valuesFor,
    List.filter_map, List.map_map]
  simp [Function.comp_def]

omit husable hfilter in
theorem filterKeys_bounds (hbounds : hasBoxes filter = false) :
    filterKeys filter = [(boundParams filter).1, (boundParams filter).2] := by
  unfold rendered at hrendered
  unfold hasBoxes at hbounds
  unfold filterKeys boundParams
  cases htype : filter.filterType <;> simp_all

/-- Each bound has one value. -/
theorem valuesFor_bounds (hbounds : hasBoxes filter = false) :
    valuesFor (sent db category c) (boundParams filter).1 = [c.typed (boundParams filter).1] ∧
      valuesFor (sent db category c) (boundParams filter).2 = [c.typed (boundParams filter).2] := by
  have hkeys := filterKeys_bounds hrendered hbounds
  have hne : (boundParams filter).1 ≠ (boundParams filter).2 := by
    have hnodup := (List.nodup_flatMap.mp husable.keys).1 filter hfilter
    rw [hkeys] at hnodup
    simpa using hnodup
  constructor
  · rw [valuesFor_sent husable hfilter (by simp [hkeys]), if_pos hrendered, sentBy, hbounds]
    simp [valuesFor, hne.symm]
  · rw [valuesFor_sent husable hfilter (by simp [hkeys]), if_pos hrendered, sentBy, hbounds]
    simp [valuesFor, hne]

omit husable hfilter hrendered in
/-- A field keeps what was typed there. -/
theorem boundField_of_typed {raw : List (String × String)} {param : String}
    (h : valuesFor raw param = [c.typed param]) :
    boundField raw param = .number param (c.typed param) := by
  rw [boundField, numericValueFor_eq, h, List.head?_cons]
  rcases c.number param with hempty | hnumber
  · rw [hempty]
    rfl
  · have hparse := F64.isSome_parse hnumber
    rw [Option.filter_some, F64.trim_of_isNumber hnumber, if_pos hparse, Option.getD_some,
      Field.sanitized_typed]

theorem controls_sent (raw : List (String × String)) :
    controls db (sent db category c) filter = (controls db raw filter).map (Field.fill c) := by
  unfold controls
  cases hboxes : hasBoxes filter with
  | true =>
    rw [if_pos rfl, if_pos rfl, List.map_map, valuesFor_boxes husable hfilter hrendered hboxes]
    refine List.map_congr_left fun o ho => ?_
    have hchecked : o.value ∈ ((options db filter).filter fun o =>
        c.checked (boxParam filter) o.value).map AttributeOption.value ↔
          c.checked (boxParam filter) o.value = true := by
      rw [List.mem_map]
      constructor
      · rintro ⟨o', ho', hvalue⟩
        rw [← hvalue]
        exact (List.mem_filter.mp ho').2
      · exact fun h => ⟨o, List.mem_filter.mpr ⟨ho, h⟩, rfl⟩
    simp [Field.fill, hchecked]
  | false =>
    obtain ⟨hmin, hmax⟩ := valuesFor_bounds (c := c) husable hfilter hrendered hboxes
    rw [if_neg (by decide), if_neg (by decide), boundField_of_typed hmin, boundField_of_typed hmax]
    rfl

omit hfilter hrendered in
/-- The form shows what was chosen, whatever it showed before. -/
theorem formFields_sent (raw : List (String × String)) :
    formFields db category (sent db category c) =
      (formFields db category raw).map (Field.fill c) := by
  rw [formFields, formFields, List.map_flatMap]
  refine List.flatMap_congr fun filter hfilter => ?_
  split
  · exact controls_sent husable hfilter (by assumption) raw
  · rfl

end Again

/-! ## What is asked for -/

/-- The number that stands in a field. -/
def typedNumber (c : Choice) (param : String) : Option F64 := F64.parse (c.typed param).toList

section Asked
open SearchMeaning
variable (db : TaxonomyDb) (category : Category) (c : Choice)

def Checked (filter : Filter) (o : AttributeOption) : Prop :=
  o ∈ options db filter ∧ c.checked (boxParam filter) o.value = true

/-- What the controls of a filter ask of a product. -/
def Asks (filter : Filter) (pp : ProjectionRow) : Prop :=
  let texts := texts db.toCatalogDb pp.id filter.attributeId
  let low := typedNumber c (boundParams filter).1
  let high := typedNumber c (boundParams filter).2
  match filter.filterType with
  | .checkboxOr => (∃ o, Checked db c filter o) → ∃ o, Checked db c filter o ∧ o.value ∈ texts
  | .enumAnd => ∀ o, Checked db c filter o → o.value ∈ texts
  | .rangeGeneric => (low = none ∧ high = none) ∨ ∃ a,
      SearchMeaning.Indexed db.toCatalogDb pp.id filter.attributeId a ∧ (∀ min ∈ low, AtLeast min a) ∧
        ∀ max ∈ high, AtMost max a
  | .rangePrice => (∀ min ∈ low, majorToMinor min ≤ pp.priceMinor) ∧
      ∀ max ∈ high, pp.priceMinor ≤ majorToMinor max
  | .string | .number => True

/-- A published product of the category that satisfies every filter on the page. -/
def Asked (pp : ProjectionRow) : Prop :=
  pp ∈ db.projection.rows ∧ pp.status = "published" ∧
    InCategory db.toCatalogDb category.id pp ∧
    ∀ filter ∈ TaxonomyRepo.listFiltersByCategory db category.id,
      rendered db category filter = true → Asks db c filter pp

variable {db category c}

theorem filterCondFor_nil (filter : Filter) : filterCondFor filter [] = none := by
  unfold filterCondFor
  cases filter.filterType <;> rfl

theorem parsedF64_of_typed {raw : List (String × String)} {param : String}
    (h : valuesFor raw param = [c.typed param]) : parsedF64 raw param = typedNumber c param := by
  have htrim : Text.trim (c.typed param).toList = (c.typed param).toList := by
    rcases c.number param with hempty | hnumber
    · rw [hempty]
      rfl
    · exact F64.trim_of_isNumber hnumber
  rw [parsedF64_eq, h, List.head?_cons, Option.bind_some, htrim, typedNumber]

variable {filter : Filter} {pp : ProjectionRow} (husable : Usable db category)
  (hfilter : filter ∈ TaxonomyRepo.listFiltersByCategory db category.id)
include husable hfilter

theorem filterCondFor_of_not_rendered (hrendered : rendered db category filter = false) :
    filterCondFor filter (sent db category c) = none := by
  rw [← filterCondFor_nil filter]
  apply filterCondFor_congr
  intro key hkey
  rw [valuesFor_sent husable hfilter hkey, hrendered]
  rfl

variable (hrendered : rendered db category filter = true)
include hrendered

theorem mem_values_iff (hboxes : hasBoxes filter = true) {s : String} :
    s ∈ valuesFor (sent db category c) (boxParam filter) ↔
      ∃ o, Checked db c filter o ∧ o.value = s := by
  simp [valuesFor_boxes husable hfilter hrendered hboxes, Checked]

theorem asks_checkboxOr (htype : filter.filterType = .checkboxOr) :
    (∀ f ∈ filterCondFor filter (sent db category c),
      SqliteCatalogSearch.pushFilterCond db.toCatalogDb pp f = true) ↔ Asks db c filter pp := by
  have hmem := fun s => mem_values_iff (c := c) (s := s) husable hfilter hrendered
    (by simp [hasBoxes, htype])
  simp only [filterCondFor, htype, checkboxValues, Asks]
  rw [← boxParam]
  generalize valuesFor (sent db category c) (boxParam filter) = values at hmem
  cases values with
  | nil =>
    have hnone : ¬ ∃ o, Checked db c filter o := by
      rintro ⟨o, ho⟩
      exact List.not_mem_nil ((hmem o.value).mpr ⟨o, ho, rfl⟩)
    simp [hnone]
  | cons v vs =>
    obtain ⟨o, ho, _⟩ := (hmem v).mp List.mem_cons_self
    have hsome : ∃ o, Checked db c filter o := ⟨o, ho⟩
    simp only [List.isEmpty_cons, if_false, Bool.false_eq_true, Option.map_some, Option.mem_some_iff,
      forall_eq', hsome, true_imp_iff]
    rw [pushFilterCond_iff (f := .checkboxOr filter.attributeId (v :: vs)) (fun h => h)]
    simp only [Satisfies, hmem]
    simp

theorem asks_enumAnd (htype : filter.filterType = .enumAnd) :
    (∀ f ∈ filterCondFor filter (sent db category c),
      SqliteCatalogSearch.pushFilterCond db.toCatalogDb pp f = true) ↔ Asks db c filter pp := by
  have hboxes : hasBoxes filter = true := by simp [hasBoxes, htype]
  have hmem := fun s => mem_values_iff (c := c) (s := s) husable hfilter hrendered hboxes
  have hnodup : (valuesFor (sent db category c) (boxParam filter)).Nodup := by
    rw [valuesFor_boxes husable hfilter hrendered hboxes]
    exact (husable.values filter hfilter hboxes).1.sublist (List.filter_sublist.map _)
  simp only [filterCondFor, htype, checkboxValues, Asks]
  rw [← boxParam]
  generalize valuesFor (sent db category c) (boxParam filter) = values at hmem hnodup
  have hall : (∀ o, Checked db c filter o → o.value ∈ texts db.toCatalogDb pp.id filter.attributeId) ↔
      ∀ s ∈ values, s ∈ texts db.toCatalogDb pp.id filter.attributeId := by
    simp only [hmem]
    simp
  rw [hall]
  cases values with
  | nil => simp
  | cons v vs =>
    simp only [List.isEmpty_cons, if_false, Bool.false_eq_true, Option.map_some, Option.mem_some_iff,
      forall_eq']
    rw [enumAnd_iff]
    simp only [hnodup, true_and]

theorem bounds_sent (hboxes : hasBoxes filter = false) :
    parsedF64 (sent db category c) (boundParams filter).1 = typedNumber c (boundParams filter).1 ∧
      parsedF64 (sent db category c) (boundParams filter).2 =
        typedNumber c (boundParams filter).2 := by
  obtain ⟨hmin, hmax⟩ := valuesFor_bounds (c := c) husable hfilter hrendered hboxes
  exact ⟨parsedF64_of_typed hmin, parsedF64_of_typed hmax⟩

theorem asks_rangeGeneric (htype : filter.filterType = .rangeGeneric) :
    (∀ f ∈ filterCondFor filter (sent db category c),
      SqliteCatalogSearch.pushFilterCond db.toCatalogDb pp f = true) ↔ Asks db c filter pp := by
  obtain ⟨hmin, hmax⟩ := bounds_sent (c := c) husable hfilter hrendered (by simp [hasBoxes, htype])
  have hparams : boundParams filter =
      ("attr_" ++ filter.attributeId ++ "_min", "attr_" ++ filter.attributeId ++ "_max") := by
    simp [boundParams, htype]
  simp only [filterCondFor, htype, Asks]
  rw [← hmin, ← hmax, hparams]
  cases hbounds : rangeBounds (sent db category c) ("attr_" ++ filter.attributeId ++ "_min")
      ("attr_" ++ filter.attributeId ++ "_max") with
  | none =>
    obtain ⟨hnone, hnone'⟩ := rangeBounds_eq_none_iff.mp hbounds
    simp [hnone, hnone']
  | some b =>
    have hsome := fun h => Option.some_ne_none b (hbounds.symm.trans (rangeBounds_eq_none_iff.mpr h))
    rw [eq_of_rangeBounds hbounds, or_iff_right hsome]
    simp only [Option.map_some, Option.mem_some_iff, forall_eq']
    exact pushFilterCond_iff (f := .rangeGeneric _ _ _) fun h => h

theorem asks_rangePrice (htype : filter.filterType = .rangePrice) :
    (∀ f ∈ filterCondFor filter (sent db category c),
      SqliteCatalogSearch.pushFilterCond db.toCatalogDb pp f = true) ↔ Asks db c filter pp := by
  obtain ⟨hmin, hmax⟩ := bounds_sent (c := c) husable hfilter hrendered (by simp [hasBoxes, htype])
  have hparams : boundParams filter = ("price_min", "price_max") := by simp [boundParams, htype]
  simp only [filterCondFor, htype, Asks]
  rw [← hmin, ← hmax, hparams]
  cases hbounds : rangeBounds (sent db category c) "price_min" "price_max" with
  | none =>
    obtain ⟨hnone, hnone'⟩ := rangeBounds_eq_none_iff.mp hbounds
    simp [hnone, hnone']
  | some b =>
    rw [eq_of_rangeBounds hbounds]
    simp only [Option.map_some, Option.mem_some_iff, forall_eq']
    rw [pushFilterCond_iff (f := .rangePrice _ _) (fun h => h)]
    simp [Satisfies]

omit hrendered in
theorem asks_iff : (∀ f ∈ filterCondFor filter (sent db category c),
      SqliteCatalogSearch.pushFilterCond db.toCatalogDb pp f = true) ↔
    (rendered db category filter = true → Asks db c filter pp) := by
  cases hrendered : rendered db category filter with
  | false => simp [filterCondFor_of_not_rendered husable hfilter hrendered]
  | true =>
    rw [forall_prop_of_true rfl]
    cases htype : filter.filterType with
    | checkboxOr => exact asks_checkboxOr husable hfilter hrendered htype
    | enumAnd => exact asks_enumAnd husable hfilter hrendered htype
    | rangeGeneric => exact asks_rangeGeneric husable hfilter hrendered htype
    | rangePrice => exact asks_rangePrice husable hfilter hrendered htype
    | string => simp [rendered, htype] at hrendered
    | number => simp [rendered, htype] at hrendered

omit hfilter hrendered in
/-- The list holds what was asked for. -/
theorem kept_sent_iff : Kept db category (sent db category c) pp ↔ Asked db category c pp := by
  have hfilters : (∀ f ∈ buildFilterConds (TaxonomyRepo.listFiltersByCategory db category.id)
      (sent db category c), SqliteCatalogSearch.pushFilterCond db.toCatalogDb pp f = true) ↔
      ∀ filter ∈ TaxonomyRepo.listFiltersByCategory db category.id,
        rendered db category filter = true → Asks db c filter pp := by
    simp only [buildFilterConds, List.mem_filterMap]
    constructor
    · exact fun h filter hfilter =>
        (asks_iff husable hfilter).mp fun f hf => h f ⟨filter, hfilter, hf⟩
    · rintro h f ⟨filter, hfilter, hf⟩
      exact (asks_iff husable hfilter).mpr (h filter hfilter) f hf
  simp only [Kept, SqliteCatalogSearch.pushWhere, searchQuery, Bool.and_eq_true, decide_eq_true_eq,
    Option.all_none, and_true, Option.all_some, List.all_eq_true, hfilters, and_assoc, Asked]
  simp [InCategory]

end Asked

/-! ## Runs -/

theorem url_query {path query : String} (hquestion : '?' ∉ path.toList) (hhash : '#' ∉ path.toList)
    (hquery : '#' ∉ query.toList) : urlPath (path ++ "?" ++ query) = path ∧
      urlQuery (path ++ "?" ++ query) = some query := by
  have hurl : (path ++ "?" ++ query).toList = path.toList ++ '?' :: query.toList := by simp
  have hplain : ∀ c ∈ path.toList, (c ≠ '?' && c ≠ '#') = true := by
    intro c hc
    simp only [Bool.and_eq_true, decide_eq_true_eq]
    exact ⟨fun h => hquestion (h ▸ hc), fun h => hhash (h ▸ hc)⟩
  constructor
  · rw [urlPath, hurl, List.takeWhile_append_of_pos hplain, List.takeWhile_cons_of_neg (by decide),
      List.append_nil, String.ofList_toList]
  · have hall : ∀ c ∈ path.toList ++ '?' :: query.toList, (decide (c ≠ '#')) = true := by
      intro c hc
      rw [decide_eq_true_iff]
      rintro rfl
      rcases List.mem_append.mp hc with hc | hc
      · exact hhash hc
      · rcases List.mem_cons.mp hc with heq | hc
        · cases heq
        · exact hquery hc
    rw [urlQuery, hurl, List.takeWhile_eq_self_iff.mpr hall, Text.splitOnce_append hquestion]
    simp [String.ofList_toList]

section Runs
variable (db : TaxonomyDb) (env : SearchEnv) (baseUrl : String) (route : String → Option String)
  (slug : String)

/-- A visitor opens the category, fills the form and sends it, and follows the links between the
pages of the list; what was chosen last goes with the page. -/
inductive Browses : Option Choice → PageShell → Prop where
  | enter {start : String} {page : PageShell} (hpath : urlPath start = "/c/" ++ slug)
      (hvisit : visit db env baseUrl route start = some page) : Browses none page
  | send {chosen : Option Choice} {page page' : PageShell} {form : Markup} (c : Choice)
      (h : Browses chosen page) (hform : form ∈ selectAll "form" page.main)
      (hvisit : visit db env baseUrl route
        (formUrl form ((fields form).map (Field.fill c))) = some page') : Browses (some c) page'
  | follow {chosen : Option Choice} {page page' : PageShell} {href : String}
      (h : Browses chosen page) (hlink : nextHref page = some href ∨ prevHref page = some href)
      (hvisit : visit db env baseUrl route href = some page') : Browses chosen page'

variable {db env baseUrl route slug} {category : Category}
  (hroute : route ("/c/" ++ slug) = some slug) (hquestion : '?' ∉ slug.toList)
  (hhash : '#' ∉ slug.toList)
  (hcategory : TaxonomyRepo.getCategoryBySlug db .uk slug = some category)
  (husable : Usable db category)

include husable in
theorem oneLine_sent (c : Choice) :
    ∀ pair ∈ sent db category c, OneLine pair.1 ∧ OneLine pair.2 := by
  intro pair hpair
  obtain ⟨filter, hfilter, hpair⟩ := List.mem_flatMap.mp hpair
  split at hpair
  · rename_i hrendered
    refine ⟨husable.names filter hfilter _ (mem_filterKeys_of_sentBy hrendered hpair), ?_⟩
    unfold sentBy at hpair
    split at hpair
    · rename_i hboxes
      obtain ⟨o, ho, rfl⟩ := List.mem_map.mp hpair
      exact (husable.values filter hfilter hboxes).2 o (List.mem_filter.mp ho).1
    · rw [List.mem_cons, List.mem_singleton] at hpair
      rcases hpair with rfl | rfl
      · exact c.oneLine _
      · exact c.oneLine _
  · cases hpair

theorem pageParam_sent (c : Choice) : pageParam (sent db category c) = some none := by
  have hnone : valuesFor (sent db category c) "page" = [] := by
    rw [valuesFor, List.map_eq_nil_iff, List.filter_eq_nil_iff]
    intro pair hpair
    obtain ⟨filter, _, hpair⟩ := List.mem_flatMap.mp hpair
    split at hpair
    · rename_i hrendered
      simpa using ne_page_of_mem_filterKeys (mem_filterKeys_of_sentBy hrendered hpair)
    · cases hpair
  rw [pageParam, hnone]

include hroute hcategory

theorem eq_pageOf_of_visit {start : String} {page : PageShell}
    (hpath : urlPath start = "/c/" ++ slug) (hvisit : visit db env baseUrl route start = some page) :
    ∃ raw number, page = pageOf db category raw baseUrl slug number := by
  rw [visit, hpath, hroute, Option.bind_some] at hvisit
  obtain ⟨number, _, hpage⟩ := Option.bind_eq_some_iff.mp hvisit
  rw [showPage_eq hcategory] at hpage
  exact ⟨_, _, (Option.some.inj hpage).symm⟩

include hquestion hhash husable

/-- The form on a page can be sent, whatever was chosen. -/
theorem visit_form {raw : List (String × String)} {number : UInt32} {form : Markup}
    (hform : form ∈ selectAll "form" (pageOf db category raw baseUrl slug number).main)
    (c : Choice) :
    visit db env baseUrl route (formUrl form ((fields form).map (Field.fill c))) =
      some (pageOf db category (sent db category c) baseUrl slug 1) := by
  rw [pageOf, forms_shown, Option.mem_toList] at hform
  have hfields : fields form = formFields db category raw := by
    rw [← fields_filterForm slug, hform]
    simp
  have hentries : entries ((fields form).map (Field.fill c)) = sent db category c := by
    rw [hfields, entries_fill]
  have hslash : ∀ d, d ∉ slug.toList → d ∉ "/c/".toList → d ∉ ("/c/" ++ slug).toList := by
    intro d hd hd' hmem
    rw [String.toList_append] at hmem
    exact (List.mem_append.mp hmem).elim hd' hd
  have hdata : '#' ∉ (formData (sent db category c)).toList := hash_not_mem_formData _
  obtain ⟨hpath, hquery⟩ :=
    url_query (hslash '?' hquestion (by decide)) (hslash '#' hhash (by decide)) hdata
  rw [formUrl, (select_filterForm hform).2, Option.getD_some, hentries, visit, hpath, hroute,
    Option.bind_some, hquery, Option.getD_some]
  simp only
  rw [parseQuery_formData (oneLine_sent husable c), pageParam_sent, Option.bind_some,
    showPage_eq hcategory]
  rfl

/-- What is behind a page: the parameters of the last choice, if there is one, and a number. -/
theorem behind_page {chosen : Option Choice} {page : PageShell}
    (h : Browses db env baseUrl route slug chosen page) :
    ∃ raw number, page = pageOf db category raw baseUrl slug number ∧
      ∀ c ∈ chosen, raw = sent db category c := by
  induction h with
  | enter hpath hvisit =>
    obtain ⟨raw, number, hpage⟩ := eq_pageOf_of_visit hroute hcategory hpath hvisit
    exact ⟨raw, number, hpage, fun c hc => by cases hc⟩
  | send c h hform hvisit ih =>
    obtain ⟨raw, number, rfl, _⟩ := ih
    rw [visit_form hroute hquestion hhash hcategory husable hform] at hvisit
    refine ⟨_, _, (Option.some.inj hvisit).symm, fun c' hc' => ?_⟩
    rw [Option.some.inj hc']
  | @follow chosen page page' href h hlink hvisit ih =>
    obtain ⟨raw, number, rfl, hraw⟩ := ih
    have hhref : ∃ n, href = paginationHref slug raw n := by
      rw [pageOf, nextHref_shown, prevHref_shown] at hlink
      rcases hlink with hlink | hlink
      · split at hlink
        · exact ⟨_, (Option.some.inj hlink).symm⟩
        · cases hlink
      · split at hlink
        · exact ⟨_, (Option.some.inj hlink).symm⟩
        · cases hlink
    obtain ⟨n, rfl⟩ := hhref
    rw [visit_paginationHref db env baseUrl route hroute hquestion hhash, showPage_eq hcategory]
      at hvisit
    exact ⟨raw, _, (Option.some.inj hvisit).symm, hraw⟩

end Runs

section Cards
variable {db : TaxonomyDb} {category : Category} {raw : List (String × String)}
  (hfits : db.projection.rows.length < 2 ^ 32)
include hfits

/-- The cards of the page with a number. -/
theorem shownCards_number (baseUrl slug : String) (number : UInt32) :
    shownCards (pageOf db category raw baseUrl slug number) =
      (slice (listing db category raw) (24 * (number.toNat - 1)) 24).map fun r =>
        card (SqliteCatalogSearch.mapCardRow r) := by
  have hlength : (listing db category raw).length < 2 ^ 32 := by
    rw [listing, SearchMeaning.listed, List.length_insertionSort]
    exact lt_of_le_of_lt (List.length_filter_le _ _) hfits
  have hlimit : Pagination.defaultLimit.toNat = 24 := by decide
  rw [shownCards_pageOf hlength, toNat_pageOffset, hlimit, Nat.mul_comm]
  by_cases hsmall : 24 * (number.toNat - 1) ≤ 2 ^ 32 - 1
  · rw [Nat.min_eq_left hsmall]
  · rw [Nat.min_eq_right (by omega), slice, slice, List.drop_eq_nil_of_le (by omega),
      List.drop_eq_nil_of_le (by omega)]

end Cards

/-- The clothes with boxes for two colors and bounds for the price. -/
def coloredDb : TaxonomyDb where
  toCatalogDb := { SearchMeaning.clothes with
    attributes := ⟨[⟨"color", "clothes", "Колір", .enum, none, false, 0⟩], by decide⟩ }
  categories := clothesDb.categories
  attributeOptions := ⟨[⟨"red", "color", "red", 0⟩, ⟨"blue", "color", "blue", 1⟩], by decide⟩
  filters := ⟨⟨[⟨"colors", "clothes", "color", .checkboxOr, 0⟩,
    ⟨"price", "clothes", "price", .rangePrice, 1⟩], by decide⟩, by decide⟩
  translations := ∅

def redUpTo500 : Choice where
  checked name value := name = "attr_color" && value = "red"
  typed name := if name = "price_max" then "500" else ""
  number name := by
    by_cases h : name = "price_max"
    · exact .inr (by rw [if_pos h]; decide)
    · exact .inl (if_neg h)

def clothesCategory : Category := ⟨"clothes", none, "Одяг", "clothes", "/clothes", 0⟩

end TinyShop.CategoryPage
