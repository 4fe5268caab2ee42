import TinyShop.CategoryPage
import TinyShop.Jsonld
import TinyShop.SearchMeaning
import TinyShop.TaxonomyReads

/-!
# Pages of a category

`GET /c/{slug}` of `crates/web/src/routes/category.rs`: the form of the filters, the list of
the products and the links to the pages before and after. What is shown depends on the
parameters of a request only up to `page`.
-/

namespace TinyShop

open Base
set_option autoImplicit false

/-- `breadcrumb_nav` of `view/breadcrumb.rs`. -/
def breadcrumbNav (items : List (String × Option String)) : Markup :=
  .element "nav" [("aria-label", "Хлібні крихти")] [
    .element "ol" [("class", "breadcrumb")] (items.map fun (name, url) =>
      match url with
      | some href => .element "li" [("class", "breadcrumb-item")] [
          .element "a" [("href", href)] [.text name]]
      | none => .element "li" [("class", "breadcrumb-item active"), ("aria-current", "page")]
          [.text name])]

/-- What `page_shell` is given. -/
structure PageShell where
  title : String
  headExtra : List Jsonld.Script
  main : List Markup

namespace CategoryPage

open Markup Jsonld

/-! ## The form of the filters -/

section Form
variable (raw : List (String × String))

/-- The value as the visitor wrote it, if it is a number. -/
def numericValueFor (key : String) : Option String :=
  ((raw.find? (·.1 = key)).map Prod.snd).filter fun v => (F64.parse (Text.trim v.toList)).isSome

def legendWithUnit (name : String) : Option String → String
  | some unit => if unit ≠ "" then name ++ " (" ++ unit ++ ")" else name
  | none => name

def checkbox (param : String) (selected : List String) (option : AttributeOption) : Markup :=
  element "div" [("class", "form-check")] [
    element "input" ([("type", "checkbox"), ("name", param), ("value", option.value)] ++
      (if option.value ∈ selected then [("checked", "")] else []) ++
      [("class", "form-check-input"), ("id", param ++ "-" ++ option.id)]) [],
    element "label" [("class", "form-check-label"), ("for", param ++ "-" ++ option.id)]
      [text option.value]]

def fieldset (legend : String) (fields : List Markup) : Markup :=
  element "fieldset" []
    (element "legend" [("class", "form-label fw-semibold")] [text legend] :: fields)

def checkboxFieldset (param legend : String) (options : List AttributeOption)
    (selected : List String) : Markup :=
  fieldset legend (options.map (checkbox param selected))

def bound (param label : String) : Markup :=
  element "div" [("class", "col-6")] [
    element "label" [("class", "form-label"), ("for", param)] [text label],
    element "input" ([("type", "number"), ("step", "any"), ("name", param)] ++
      ((numericValueFor raw param).map fun v => ("value", v)).toList ++
      [("id", param), ("class", "form-control")]) []]

def rangeFieldset (legend minParam maxParam : String) : Markup :=
  fieldset legend [
    element "div" [("class", "row g-2")] [bound raw minParam "Від", bound raw maxParam "До"]]

/-- One round of the loop in `render_filter_form`. -/
def filterFieldset (db : TaxonomyDb) (attrsById : String → Option Attribute) (filter : Filter) :
    Option Markup :=
  let checkboxes := (attrsById filter.attributeId).map fun attr =>
    let param := "attr_" ++ filter.attributeId
    checkboxFieldset param attr.name
      (TaxonomyRepo.listAttributeOptions db .uk filter.attributeId) (valuesFor raw param)
  match filter.filterType with
  | .checkboxOr => checkboxes
  | .enumAnd => checkboxes
  | .rangeGeneric => (attrsById filter.attributeId).map fun attr =>
    rangeFieldset raw (legendWithUnit attr.name attr.unit)
      ("attr_" ++ filter.attributeId ++ "_min") ("attr_" ++ filter.attributeId ++ "_max")
  | .rangePrice => some (rangeFieldset raw "Ціна, ₴" "price_min" "price_max")
  | .string => none
  | .number => none

def renderFilterForm (db : TaxonomyDb) (slug : String) (filters : List Filter)
    (attrsById : String → Option Attribute) : Option Markup :=
  let fieldsets := filters.filterMap (filterFieldset raw db attrsById)
  if fieldsets.isEmpty then none
  else some (element "form" [("role", "search"), ("method", "get"), ("action", "/c/" ++ slug)]
    (fieldsets ++ [element "button" [("type", "submit"), ("class", "btn btn-primary btn-sm")]
      [text "Застосувати"]]))

end Form

/-! ## The products -/

/-- The card of a product, a link to its page. -/
def card (item : ProductCard) : Markup :=
  element "a" [("href", "/p/" ++ item.slug), ("class", "card h-100 text-decoration-none")]
    ((item.thumb.map fun thumb =>
        element "img" [("src", thumb), ("alt", ""), ("class", "card-img-top")] []).toList ++
      [element "div" [("class", "card-body")] [
        element "h2" [("class", "card-title h6")] [text item.title],
        element "p" [("class", "card-text fw-semibold")] (price item.priceMinor item.currency)]])

/-- A link to another page. -/
def pageLink (href title : String) : Markup :=
  element "a" [("class", "page-link"), ("href", href)] [text title]

def pageItem (link : Markup) : Markup := element "li" [("class", "page-item")] [link]

/-- In a build with checks `page - 1` panics where it would wrap around. -/
def productList (items : List ProductCard) (slug : String) (raw : List (String × String))
    (page : UInt32) (hasPrev hasNext : Bool) : List Markup :=
  if items.isEmpty then [element "p" [] [text "У цій категорії ще немає товарів."]]
  else [
    element "div" [("class", "row g-3")] (items.map fun item =>
      element "div" [("class", "col-12 col-sm-6 col-md-4 col-lg-3")] [card item]),
    element "nav" [("aria-label", "Сторінки")] [
      element "ul" [("class", "pagination")]
        ((if hasPrev then
          [pageItem (pageLink (paginationHref slug raw (page - 1)) "Попередня")] else []) ++
        if hasNext then
          [pageItem (pageLink (paginationHref slug raw (saturatingAdd32 page 1)) "Наступна")]
        else [])]]

/-! ## The page -/

def pageOffset (page limit : UInt32) : UInt32 :=
  clamp32 (saturatingMul64 (saturatingSub64 page.toUInt64 1) limit.toUInt64)

def pagination (page : UInt32) : Pagination :=
  .clamped (pageOffset page Pagination.defaultLimit) Pagination.defaultLimit

section Render
variable (db : TaxonomyDb) (env : SearchEnv) (baseUrl slug : String)

def crumbs (category : Category) : List (String × Option String) :=
  [("Головна", some "/")] ++
    ((category.parentId.bind (TaxonomyRepo.getCategory db .uk)).map fun parent =>
      (parent.name, some ("/c/" ++ parent.slug))).toList ++
    [(category.name, none)]

def searchQuery (category : Category) (page : UInt32) (raw : List (String × String)) :
    SearchQuery where
  text := none
  categoryId := some category.id
  filters := buildFilterConds (TaxonomyRepo.listFiltersByCategory db category.id) raw
  sort := .relevance
  page := pagination page

def itemListLd (items : List ProductCard) : ItemList where
  itemListElement := items.zipIdx.map fun (item, i) =>
    ⟨UInt32.ofNat (i + 1), {
      name := item.title
      url := absoluteUrl baseUrl ("/p/" ++ item.slug)
      image := item.thumb.map (absoluteUrl baseUrl) }⟩

def filterForm (category : Category) (raw : List (String × String)) : Option Markup :=
  let filters := TaxonomyRepo.listFiltersByCategory db category.id
  let attributes := TaxonomyRepo.listAttributesByCategory db .uk category.id
  if filters.isEmpty then none
  else renderFilterForm raw db slug filters fun id => attributes.find? (·.id = id)

/-- The page that shows the result of the search. -/
def shown (category : Category) (page : UInt32) (raw : List (String × String))
    (result : SearchResult) : PageShell :=
  let hasPrev := decide ((pagination page).offset > 0)
  let hasNext := decide ((pagination page).offset.toUInt64 + UInt64.ofNat result.items.length <
    result.total)
  let list := productList result.items slug raw page hasPrev hasNext
  { title := category.name
    headExtra :=
      jsonldScript serdeJson
        (breadcrumbListLd baseUrl (crumbs db category) ("/c/" ++ slug)).serialize ::
        if result.items.isEmpty then []
        else [jsonldScript serdeJson (itemListLd baseUrl result.items).serialize]
    main := [breadcrumbNav (crumbs db category), element "h1" [] [text category.name]] ++
      match filterForm db slug category raw with
      | some form => [element "div" [("class", "row")] [
          element "div" [("class", "col-lg-3")] [form],
          element "div" [("class", "col-lg-9")] list]]
      | none => list }

def render (page : UInt32) (raw : List (String × String)) : Except WebError PageShell :=
  match TaxonomyRepo.getCategoryBySlug db .uk slug with
  | none => .error .notFound
  | some category =>
    match SearchSql.search db.toCatalogDb env (searchQuery db category page raw) with
    | .error e => .error (.internal e.toString)
    | .ok result => .ok (shown db baseUrl slug category page raw result)

/-- `query.page.unwrap_or(1).max(1)`. -/
def requestedPage (page : Option UInt32) : UInt32 :=
  if page.getD 1 < 1 then 1 else page.getD 1

def showPage (page : Option UInt32) (raw : List (String × String)) : Except WebError PageShell :=
  render db env baseUrl slug (requestedPage page) raw

end Render

/-! ## The links of a page -/

section Links
variable {raw : List (String × String)}

theorem select_fieldset {legend : String} {fields : List Markup} (h : selectAll "a" fields = []) :
    (fieldset legend fields).select "a" = [] := by
  simp [fieldset, select, selectAll, h]

theorem select_checkboxFieldset (param legend : String) (options : List AttributeOption)
    (selected : List String) : (checkboxFieldset param legend options selected).select "a" = [] :=
  select_fieldset (selectAll_map (fun _ => by simp [checkbox, select, selectAll]) options)

theorem select_rangeFieldset (legend minParam maxParam : String) :
    (rangeFieldset raw legend minParam maxParam).select "a" = [] :=
  select_fieldset (by simp [bound, select, selectAll])

theorem select_filterFieldset {db : TaxonomyDb} {attrsById : String → Option Attribute}
    {filter : Filter} {m : Markup} (h : filterFieldset raw db attrsById filter = some m) :
    m.select "a" = [] := by
  unfold filterFieldset at h
  split at h
  · obtain ⟨_, _, rfl⟩ := Option.map_eq_some_iff.mp h
    exact select_checkboxFieldset _ _ _ _
  · obtain ⟨_, _, rfl⟩ := Option.map_eq_some_iff.mp h
    exact select_checkboxFieldset _ _ _ _
  · obtain ⟨_, _, rfl⟩ := Option.map_eq_some_iff.mp h
    exact select_rangeFieldset _ _ _
  · obtain rfl := Option.some.inj h
    exact select_rangeFieldset _ _ _
  · cases h
  · cases h

/-- The form has no link. -/
theorem select_renderFilterForm {db : TaxonomyDb} {slug : String} {filters : List Filter}
    {attrsById : String → Option Attribute} {m : Markup}
    (h : renderFilterForm raw db slug filters attrsById = some m) : m.select "a" = [] := by
  simp only [renderFilterForm] at h
  split at h
  · cases h
  · obtain rfl := Option.some.inj h
    have hfieldsets : ∀ ms : List Markup, (∀ m ∈ ms, m.select "a" = []) → selectAll "a" ms = [] := by
      intro ms
      induction ms with
      | nil => exact fun _ => rfl
      | cons m ms ih =>
        intro hms
        rw [selectAll, hms m List.mem_cons_self, ih fun x hx => hms x (List.mem_cons_of_mem m hx)]
        rfl
    have hnone : selectAll "a" (filters.filterMap (filterFieldset raw db attrsById)) = [] := by
      apply hfieldsets
      intro m hm
      obtain ⟨filter, _, hfilter⟩ := List.mem_filterMap.mp hm
      exact select_filterFieldset hfilter
    simp [select, selectAll, selectAll_append, hnone]

theorem select_pageLink (href title : String) :
    (pageLink href title).select "a" = [pageLink href title] := by
  rfl

theorem selectAll_cards (items : List ProductCard) :
    selectAll "a" (items.map fun item =>
      element "div" [("class", "col-12 col-sm-6 col-md-4 col-lg-3")] [card item]) =
        items.map card := by
  induction items with
  | nil => rfl
  | cons item items ih =>
    rw [List.map_cons, selectAll, ih]
    rfl

/-- The links of the list: the cards, and behind them at most two to other pages. -/
theorem selectAll_productList (items : List ProductCard) (slug : String)
    (raw : List (String × String)) (page : UInt32) (hasPrev hasNext : Bool) :
    selectAll "a" (productList items slug raw page hasPrev hasNext) =
      items.map card ++
        ((if items ≠ [] ∧ hasPrev then
          [pageLink (paginationHref slug raw (page - 1)) "Попередня"] else []) ++
        if items ≠ [] ∧ hasNext then
          [pageLink (paginationHref slug raw (saturatingAdd32 page 1)) "Наступна"] else []) := by
  by_cases hitems : items = []
  · simp [hitems, productList, select, selectAll]
  · have hcards := selectAll_cards items
    cases hasPrev <;> cases hasNext <;>
      simp [hitems, productList, select, selectAll, pageItem, select_pageLink, hcards]

theorem attr_crumb {crumbs : List (String × Option String)} {m : Markup}
    (h : m ∈ selectAll "a" [breadcrumbNav crumbs]) : m.attr "class" = none := by
  have hitems : ∀ items : List (String × Option String), ∀ m ∈ selectAll "a" (items.map
      fun (name, url) => match url with
        | some href => element "li" [("class", "breadcrumb-item")] [
            element "a" [("href", href)] [text name]]
        | none => element "li" [("class", "breadcrumb-item active"), ("aria-current", "page")]
            [text name]), m.attr "class" = none := by
    intro items
    induction items with
    | nil => exact List.forall_mem_nil _
    | cons item items ih =>
      obtain ⟨name, url⟩ := item
      rw [List.map_cons, selectAll, List.forall_mem_append]
      refine ⟨?_, ih⟩
      cases url with
      | none => simp [select, selectAll]
      | some href => simp [select, selectAll, attr]
  apply hitems crumbs m
  simpa [breadcrumbNav, select, selectAll] using h

variable {db : TaxonomyDb} {baseUrl slug : String} {category : Category} {page : UInt32}
  {result : SearchResult}

variable (db baseUrl slug category page raw result) in
/-- Beside those of the list only the crumbs are links. -/
theorem selectAll_shown : ∃ crumbs, (∀ m ∈ crumbs, m.attr "class" = none) ∧
    selectAll "a" (shown db baseUrl slug category page raw result).main = crumbs ++
      selectAll "a" (productList result.items slug raw page
        (decide ((pagination page).offset > 0))
        (decide ((pagination page).offset.toUInt64 + UInt64.ofNat result.items.length <
          result.total))) := by
  refine ⟨selectAll "a" [breadcrumbNav (crumbs db category)], fun m hm => attr_crumb hm, ?_⟩
  simp only [shown, selectAll_append]
  cases hform : filterForm db slug category raw with
  | none => simp [selectAll, select]
  | some form =>
    have hnone : form.select "a" = [] := by
      simp only [filterForm] at hform
      split at hform
      · cases hform
      · exact select_renderFilterForm hform
    simp [selectAll, select, hnone]

end Links

/-- The cards on a page. -/
def shownCards (page : PageShell) : List Markup :=
  (selectAll "a" page.main).filter fun a => a.attr "class" = some "card h-100 text-decoration-none"

/-- Where the link to another page leads that has the given text. -/
def linkTo (title : String) (page : PageShell) : Option String :=
  ((selectAll "a" page.main).find? fun a =>
    a.attr "class" = some "page-link" ∧ a.innerText = title).bind (attr "href")

def nextHref : PageShell → Option String := linkTo "Наступна"

def prevHref : PageShell → Option String := linkTo "Попередня"

theorem attr_card (item : ProductCard) :
    (card item).attr "class" = some "card h-100 text-decoration-none" := by
  simp [card, attr, List.lookup]

theorem attr_pageLink (href title : String) :
    (pageLink href title).attr "class" = some "page-link" := by
  rfl

theorem href_pageLink (href title : String) : (pageLink href title).attr "href" = some href := by
  simp [pageLink, attr, List.lookup]

theorem innerText_pageLink (href title : String) : (pageLink href title).innerText = title := by
  simp [pageLink, innerText, innerTexts]

section Shown
variable {db : TaxonomyDb} {baseUrl slug : String} {category : Category} {page : UInt32}
  {raw : List (String × String)} {result : SearchResult}

theorem shownCards_shown :
    shownCards (shown db baseUrl slug category page raw result) = result.items.map card := by
  obtain ⟨crumbs, hcrumbs, hlinks⟩ := selectAll_shown raw db baseUrl slug category page result
  have hnone :
      crumbs.filter (fun a => a.attr "class" = some "card h-100 text-decoration-none") = [] := by
    rw [List.filter_eq_nil_iff]
    intro m hm
    simp [hcrumbs m hm]
  have hall : (result.items.map card).filter
      (fun a => a.attr "class" = some "card h-100 text-decoration-none") = result.items.map card := by
    rw [List.filter_eq_self]
    intro m hm
    obtain ⟨item, _, rfl⟩ := List.mem_map.mp hm
    exact decide_eq_true (attr_card item)
  rw [shownCards, hlinks, selectAll_productList, List.filter_append, hnone, List.nil_append,
    List.filter_append, hall, List.append_right_eq_self, List.filter_eq_nil_iff]
  intro m hm
  obtain ⟨href, title, rfl⟩ : ∃ href title, m = pageLink href title := by
    rcases List.mem_append.mp hm with hm | hm
    · split at hm
      · exact ⟨_, _, List.mem_singleton.mp hm⟩
      · cases hm
    · split at hm
      · exact ⟨_, _, List.mem_singleton.mp hm⟩
      · cases hm
  simp [attr_pageLink]

theorem linkTo_shown (title : String) :
    linkTo title (shown db baseUrl slug category page raw result) =
      (((if result.items ≠ [] ∧ decide ((pagination page).offset > 0) = true then
          [pageLink (paginationHref slug raw (page - 1)) "Попередня"] else []) ++
        if result.items ≠ [] ∧ decide ((pagination page).offset.toUInt64 +
            UInt64.ofNat result.items.length < result.total) = true then
          [pageLink (paginationHref slug raw (saturatingAdd32 page 1)) "Наступна"] else []).find?
        fun a => a.attr "class" = some "page-link" ∧ a.innerText = title).bind (attr "href") := by
  obtain ⟨crumbs, hcrumbs, hlinks⟩ := selectAll_shown raw db baseUrl slug category page result
  have hcrumb : crumbs.find? (fun a => a.attr "class" = some "page-link" ∧ a.innerText = title) =
      none := by
    rw [List.find?_eq_none]
    intro m hm
    simp [hcrumbs m hm]
  have hcard : (result.items.map card).find?
      (fun a => a.attr "class" = some "page-link" ∧ a.innerText = title) = none := by
    rw [List.find?_eq_none]
    intro m hm
    obtain ⟨item, _, rfl⟩ := List.mem_map.mp hm
    simp [attr_card]
  rw [linkTo, hlinks, selectAll_productList, List.find?_append, hcrumb, Option.none_or,
    List.find?_append, hcard, Option.none_or]

theorem nextHref_shown :
    nextHref (shown db baseUrl slug category page raw result) =
      if result.items ≠ [] ∧ (pagination page).offset.toUInt64 + UInt64.ofNat result.items.length <
          result.total then
        some (paginationHref slug raw (saturatingAdd32 page 1)) else none := by
  rw [nextHref, linkTo_shown]
  split <;> split <;> simp_all [attr_pageLink, innerText_pageLink, href_pageLink]

theorem prevHref_shown :
    prevHref (shown db baseUrl slug category page raw result) =
      if result.items ≠ [] ∧ (pagination page).offset > 0 then
        some (paginationHref slug raw (page - 1)) else none := by
  rw [prevHref, linkTo_shown]
  split <;> split <;> simp_all [attr_pageLink, innerText_pageLink, href_pageLink]

end Shown

end CategoryPage

end TinyShop
