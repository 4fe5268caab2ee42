import TinyShop.Base.Paging
import TinyShop.CategoryListing

/-!
# Walking through a category

A visitor opens a category and follows the links to the next page as long as there is one.
The pages are those with the numbers from 1 on, and together they list every product of the
category once; the links back lead to the first page again.
-/

namespace TinyShop.CategoryPage

open Base Markup
set_option autoImplicit false

/-! ## Parameters that say the same -/

section Same
variable {raw raw' : List (String × String)}

/-- The same parameters, whatever the page. -/
def SameFilters (raw raw' : List (String × String)) : Prop :=
  raw.filter (·.1 ≠ "page") = raw'.filter (·.1 ≠ "page")

theorem valuesFor_congr (h : SameFilters raw raw') {key : String} (hkey : key ≠ "page") :
    valuesFor raw key = valuesFor raw' key := by
  rw [← valuesFor_filter raw hkey, h, valuesFor_filter raw' hkey]

theorem foldl_pushPair_filter (raw : List (String × String)) (qs : String) :
    raw.foldl pushPair qs = (raw.filter (·.1 ≠ "page")).foldl pushPair qs := by
  induction raw generalizing qs with
  | nil => rfl
  | cons pair raw ih =>
    by_cases hkey : pair.1 = "page"
    · rw [List.foldl_cons, List.filter_cons_of_neg (by simpa using hkey), pushPair, if_pos hkey, ih]
    · rw [List.foldl_cons, List.filter_cons_of_pos (by simpa using hkey), List.foldl_cons, ih]

theorem paginationHref_congr (h : SameFilters raw raw') (slug : String) (page : UInt32) :
    paginationHref slug raw page = paginationHref slug raw' page := by
  rw [paginationHref, paginationHref, queryString, queryString,
    foldl_pushPair_filter raw, h, ← foldl_pushPair_filter raw']

theorem buildFilterConds_congr (h : SameFilters raw raw') (filters : List Filter) :
    buildFilterConds filters raw = buildFilterConds filters raw' :=
  List.filterMap_congr fun _ _ => filterCondFor_congr fun _ hkey =>
    valuesFor_congr h (ne_page_of_mem_filterKeys hkey)

theorem numericValueFor_eq (raw : List (String × String)) (key : String) :
    numericValueFor raw key = (valuesFor raw key).head?.filter fun v =>
      (F64.parse (Text.trim v.toList)).isSome := by
  rw [numericValueFor, valuesFor, List.head?_map, List.head?_filter]

theorem numericValueFor_congr (h : SameFilters raw raw') {key : String}
    (hkey : key ≠ "page") : numericValueFor raw key = numericValueFor raw' key := by
  rw [numericValueFor_eq, numericValueFor_eq, valuesFor_congr h hkey]

theorem rangeFieldset_congr (h : SameFilters raw raw') (legend : String)
    {minParam maxParam : String} (hmin : minParam ≠ "page") (hmax : maxParam ≠ "page") :
    rangeFieldset raw legend minParam maxParam =
      rangeFieldset raw' legend minParam maxParam := by
  simp only [rangeFieldset, bound, numericValueFor_congr h hmin, numericValueFor_congr h hmax]

theorem filterFieldset_congr (h : SameFilters raw raw') (db : TaxonomyDb)
    (attrsById : String → Option Attribute) (filter : Filter) :
    filterFieldset raw db attrsById filter =
      filterFieldset raw' db attrsById filter := by
  have hattr : ∀ s, "attr_" ++ s ≠ "page" := attr_append_ne_page
  have hmin : "attr_" ++ filter.attributeId ++ "_min" ≠ "page" := by
    rw [String.append_assoc]
    exact attr_append_ne_page _
  have hmax : "attr_" ++ filter.attributeId ++ "_max" ≠ "page" := by
    rw [String.append_assoc]
    exact attr_append_ne_page _
  simp only [filterFieldset, valuesFor_congr h (hattr _),
    rangeFieldset_congr h _ hmin hmax, rangeFieldset_congr h _ (by decide : "price_min" ≠ "page")
      (by decide : "price_max" ≠ "page")]

theorem filterForm_congr (h : SameFilters raw raw') (db : TaxonomyDb) (slug : String)
    (category : Category) :
    filterForm db slug category raw = filterForm db slug category raw' := by
  have hfieldsets : ∀ attrsById, filterFieldset raw db attrsById =
      filterFieldset raw' db attrsById := fun attrsById =>
    funext (filterFieldset_congr h db attrsById)
  simp only [filterForm, renderFilterForm, hfieldsets]

variable {db : TaxonomyDb} {env : SearchEnv} {baseUrl slug : String}

theorem searchQuery_congr (h : SameFilters raw raw') (category : Category) (page : UInt32) :
    searchQuery db category page raw = searchQuery db category page raw' := by
  simp only [searchQuery, buildFilterConds_congr h]

/-- A page does not depend on what the request says of the page, beyond its number. -/
theorem showPage_congr (h : SameFilters raw raw') (page : Option UInt32) :
    showPage db env baseUrl slug page raw =
      showPage db env baseUrl slug page raw' := by
  simp only [showPage, render, searchQuery_congr h, shown, productList, paginationHref_congr h,
    filterForm_congr h]

theorem sameFilters_parseQuery (raw : List (String × String)) (page : UInt32) :
    SameFilters (parseQuery (queryString raw page)) raw := by
  rw [SameFilters, parseQuery_queryString, List.filter_append, List.filter_filter]
  simp

end Same

/-! ## Requests -/

/-- The page of `ListingQuery`; a repeated field is an error. -/
def pageParam (raw : List (String × String)) : Option (Option UInt32) :=
  match valuesFor raw "page" with
  | [] => some none
  | [value] => (Text.parseU32 value.toList).map some
  | _ => none

/-- A URL up to its query and fragment. -/
def urlPath (url : String) : String :=
  String.ofList (url.toList.takeWhile fun c => c ≠ '?' && c ≠ '#')

section Requests
variable (db : TaxonomyDb) (env : SearchEnv) (baseUrl : String) (route : String → Option String)

/-- The page behind a URL; `route` is the slug that the router takes from the path. -/
def visit (url : String) : Option PageShell :=
  (route (urlPath url)).bind fun slug =>
    let raw := parseQuery ((urlQuery url).getD "")
    (pageParam raw).bind fun page => (showPage db env baseUrl slug page raw).toOption

variable {slug : String} {raw : List (String × String)} {start : String}

theorem not_mem_of_urlPath (h : urlPath start = "/c/" ++ slug) :
    '?' ∉ slug.toList ∧ '#' ∉ slug.toList := by
  have hmem : ∀ c ∈ slug.toList, (c ≠ '?' && c ≠ '#') = true := by
    intro c hc
    have hchars := congrArg String.toList h
    rw [urlPath, String.toList_ofList, String.toList_append] at hchars
    refine List.mem_takeWhile_imp (p := fun c => c ≠ '?' && c ≠ '#') (l := start.toList) ?_
    rw [hchars]
    exact List.mem_append_right _ hc
  constructor
  · intro hc
    exact absurd (hmem _ hc) (by decide)
  · intro hc
    exact absurd (hmem _ hc) (by decide)

theorem urlPath_paginationHref (hquestion : '?' ∉ slug.toList) (hhash : '#' ∉ slug.toList)
    (page : UInt32) : urlPath (paginationHref slug raw page) = "/c/" ++ slug := by
  have hurl : (paginationHref slug raw page).toList =
      ("/c/".toList ++ slug.toList) ++ '?' :: (queryString raw page).toList := by
    simp [paginationHref]
  have hplain : ∀ c ∈ "/c/".toList ++ slug.toList, (c ≠ '?' && c ≠ '#') = true := by
    intro c hc
    have hfixed : ("/c/".toList.all fun c => c ≠ '?' && c ≠ '#') = true := by decide
    rcases List.mem_append.mp hc with hc | hc
    · exact List.all_eq_true.mp hfixed c hc
    · simp only [Bool.and_eq_true, decide_eq_true_eq]
      exact ⟨fun h => hquestion (h ▸ hc), fun h => hhash (h ▸ hc)⟩
  rw [urlPath, hurl, List.takeWhile_append_of_pos hplain, List.takeWhile_cons_of_neg (by decide),
    List.append_nil, ← String.toList_append, String.ofList_toList]

/-- A link leads to the page it names, with the filters of the page it stands on. -/
theorem visit_paginationHref (hroute : route ("/c/" ++ slug) = some slug)
    (hquestion : '?' ∉ slug.toList) (hhash : '#' ∉ slug.toList) (page : UInt32) :
    visit db env baseUrl route (paginationHref slug raw page) =
      (showPage db env baseUrl slug (some page) raw).toOption := by
  have hparam : pageParam (parseQuery (queryString raw page)) = some (some page) := by
    have hvalues : valuesFor (parseQuery (queryString raw page)) "page" = [page.toNat.repr] := by
      rw [parseQuery_queryString, valuesFor, List.filter_append, List.filter_filter]
      simp
    rw [pageParam, hvalues]
    simp only [Text.parseU32_repr]
    rfl
  rw [visit, urlPath_paginationHref hquestion hhash, hroute, Option.bind_some,
    urlQuery_paginationHref hquestion hhash, Option.getD_some]
  simp only
  rw [hparam, Option.bind_some, showPage_congr (sameFilters_parseQuery raw page)]

end Requests

/-! ## The pages by their numbers -/

theorem toNat_pageOffset (page limit : UInt32) :
    (pageOffset page limit).toNat = min ((page.toNat - 1) * limit.toNat) (2 ^ 32 - 1) := by
  have hpage := page.toNat_lt
  have hlimit := limit.toNat_lt
  have hproduct : (page.toNat - 1) * limit.toNat ≤ 2 ^ 32 * 2 ^ 32 - 1 := by
    have hle : (page.toNat - 1) * limit.toNat ≤ (2 ^ 32 - 1) * 2 ^ 32 :=
      Nat.mul_le_mul (by omega) (by omega)
    omega
  rw [pageOffset, toNat_clamp32, toNat_saturatingMul64, toNat_saturatingSub64,
    UInt32.toNat_toUInt64, UInt32.toNat_toUInt64]
  change min (min ((page.toNat - 1) * limit.toNat) _) _ = _
  omega

section Numbers
variable (db : TaxonomyDb) (category : Category) (raw : List (String × String))

/-- The products of the category that satisfy the filters, in the order of the list. -/
def listing : List ProjectionRow :=
  SearchMeaning.listed db.toCatalogDb (searchQuery db category 1 raw)

def pageResult (page : UInt32) : SearchResult :=
  SqliteCatalogSearch.answer (searchQuery db category page raw)
    (SqliteCatalogSearch.found db.toCatalogDb (searchQuery db category page raw) none)

def pageOf (baseUrl slug : String) (page : UInt32) : PageShell :=
  shown db baseUrl slug category page raw (pageResult db category raw page)

variable {db category raw} {env : SearchEnv} {baseUrl slug : String}

theorem showPage_eq (hcategory : TaxonomyRepo.getCategoryBySlug db .uk slug = some category)
    (page : Option UInt32) : showPage db env baseUrl slug page raw =
      .ok (pageOf db category raw baseUrl slug (requestedPage page)) := by
  rw [showPage, render, hcategory]
  simp only
  rw [SearchMeaning.search_of_no_text db.toCatalogDb env _ rfl]
  rfl

section Fits
variable (hfits : (listing db category raw).length < 2 ^ 32) (page : UInt32)
include hfits

theorem pageResult_shows : (pageResult db category raw page).total.toNat =
      (listing db category raw).length ∧
    (pageResult db category raw page).items = (slice (listing db category raw)
      (pageOffset page Pagination.defaultLimit).toNat 24).map SqliteCatalogSearch.mapCardRow := by
  have hlisted : SearchMeaning.listed db.toCatalogDb (searchQuery db category page raw) =
      listing db category raw :=
    SearchMeaning.listed_page (searchQuery db category 1 raw) (pagination page)
  have hlimit : max 1 (min Pagination.defaultLimit.toNat 100) = 24 := by decide
  obtain ⟨htotal, hitems⟩ := SearchMeaning.shows_listed (by rw [hlisted]; omega)
  rw [hlisted] at htotal hitems
  refine ⟨htotal, hitems.trans ?_⟩
  rw [← hlimit]
  rfl

theorem length_pageItems : (pageResult db category raw page).items.length =
    min 24 ((listing db category raw).length - (pageOffset page Pagination.defaultLimit).toNat) := by
  rw [(pageResult_shows hfits page).2, List.length_map, slice, List.length_take, List.length_drop]

theorem pageItems_ne_nil : (pageResult db category raw page).items ≠ [] ↔
    (pageOffset page Pagination.defaultLimit).toNat < (listing db category raw).length := by
  rw [← List.length_pos_iff, length_pageItems hfits]
  omega

theorem nextHref_pageOf : nextHref (pageOf db category raw baseUrl slug page) =
    if (pageOffset page Pagination.defaultLimit).toNat + 24 < (listing db category raw).length then
      some (paginationHref slug raw (saturatingAdd32 page 1)) else none := by
  have hlength := length_pageItems hfits page
  have hoffset := (pageOffset page Pagination.defaultLimit).toNat_lt
  have hsum : ((pagination page).offset.toUInt64 +
      UInt64.ofNat (pageResult db category raw page).items.length).toNat =
      (pageOffset page Pagination.defaultLimit).toNat +
        (pageResult db category raw page).items.length := by
    have hitems : (UInt64.ofNat (pageResult db category raw page).items.length).toNat =
        (pageResult db category raw page).items.length :=
      UInt64.toNat_ofNat_of_lt' (by change _ < 2 ^ 64; omega)
    rw [UInt64.toNat_add, UInt32.toNat_toUInt64, hitems, Nat.mod_eq_of_lt]
    · rfl
    · change (pageOffset page Pagination.defaultLimit).toNat + _ < _
      omega
  rw [pageOf, nextHref_shown]
  refine if_congr ?_ rfl rfl
  rw [pageItems_ne_nil hfits, UInt64.lt_iff_toNat_lt, hsum, (pageResult_shows hfits page).1]
  omega

theorem prevHref_pageOf : prevHref (pageOf db category raw baseUrl slug page) =
    if (pageOffset page Pagination.defaultLimit).toNat < (listing db category raw).length ∧
        0 < (pageOffset page Pagination.defaultLimit).toNat then
      some (paginationHref slug raw (page - 1)) else none := by
  rw [pageOf, prevHref_shown]
  refine if_congr ?_ rfl rfl
  rw [pageItems_ne_nil hfits]
  rfl

theorem shownCards_pageOf : shownCards (pageOf db category raw baseUrl slug page) =
    (slice (listing db category raw) (pageOffset page Pagination.defaultLimit).toNat 24).map
      fun r => card (SqliteCatalogSearch.mapCardRow r) := by
  rw [pageOf, shownCards_shown, (pageResult_shows hfits page).2, List.map_map]
  rfl

end Fits

/-! ## The walk -/

theorem toNat_requestedPage (page : Option UInt32) :
    (requestedPage page).toNat = max (page.getD 1).toNat 1 := by
  unfold requestedPage
  split
  · rename_i h
    have hlt : (page.getD 1).toNat < 1 := h
    change 1 = _
    omega
  · rename_i h
    have hge : ¬ (page.getD 1).toNat < 1 := h
    omega

theorem requestedPage_some {page : UInt32} (h : 1 ≤ page.toNat) :
    requestedPage (some page) = page := by
  rw [← UInt32.toNat_inj, toNat_requestedPage, Option.getD_some]
  omega

/-- The page with the number `k + 1`. -/
def nthPage (db : TaxonomyDb) (category : Category) (raw : List (String × String))
    (baseUrl slug : String) (k : Nat) : PageShell :=
  pageOf db category raw baseUrl slug (UInt32.ofNat (k + 1))

theorem toNat_number {k : Nat} (hk : k * 24 < 2 ^ 32) : (UInt32.ofNat (k + 1)).toNat = k + 1 :=
  UInt32.toNat_ofNat_of_lt' (by change _ < 2 ^ 32; omega)

theorem toNat_nthOffset {k : Nat} (hk : k * 24 < 2 ^ 32) :
    (pageOffset (UInt32.ofNat (k + 1)) Pagination.defaultLimit).toNat = k * 24 := by
  have hlimit : Pagination.defaultLimit.toNat = 24 := by decide
  rw [toNat_pageOffset, toNat_number hk, hlimit]
  omega

theorem showPage_nth (hcategory : TaxonomyRepo.getCategoryBySlug db .uk slug = some category)
    {k : Nat} (hk : k * 24 < 2 ^ 32) :
    showPage db env baseUrl slug (some (UInt32.ofNat (k + 1))) raw =
      .ok (nthPage db category raw baseUrl slug k) := by
  rw [showPage_eq hcategory, requestedPage_some (by rw [toNat_number hk]; omega)]
  rfl

section Steps
variable (hfits : (listing db category raw).length < 2 ^ 32) {k : Nat}
include hfits

theorem nextHref_nth (hk : (k + 1) * 24 < (listing db category raw).length) :
    nextHref (nthPage db category raw baseUrl slug k) =
      some (paginationHref slug raw (UInt32.ofNat (k + 1 + 1))) := by
  have hnumber : saturatingAdd32 (UInt32.ofNat (k + 1)) 1 = UInt32.ofNat (k + 1 + 1) := by
    rw [← UInt32.toNat_inj, toNat_saturatingAdd32, toNat_number (by omega), toNat_number (by omega)]
    change min (k + 1 + 1) _ = _
    omega
  rw [nthPage, nextHref_pageOf hfits, toNat_nthOffset (by omega), if_pos (by omega), hnumber]

theorem nextHref_last (hk : k * 24 < 2 ^ 32)
    (hlast : (listing db category raw).length ≤ (k + 1) * 24) :
    nextHref (nthPage db category raw baseUrl slug k) = none := by
  rw [nthPage, nextHref_pageOf hfits, toNat_nthOffset hk, if_neg (by omega)]

theorem prevHref_nth (hk : (k + 1) * 24 < (listing db category raw).length) :
    prevHref (nthPage db category raw baseUrl slug (k + 1)) =
      some (paginationHref slug raw (UInt32.ofNat (k + 1))) := by
  have hnumber : UInt32.ofNat (k + 1 + 1) - 1 = UInt32.ofNat (k + 1) := by
    have hle : 1 ≤ UInt32.ofNat (k + 1 + 1) := by
      rw [UInt32.le_iff_toNat_le, toNat_number (by omega)]
      change 1 ≤ _
      omega
    rw [← UInt32.toNat_inj, UInt32.toNat_sub_of_le _ _ hle, toNat_number (by omega),
      toNat_number (by omega)]
    rfl
  rw [nthPage, prevHref_pageOf hfits, toNat_nthOffset (by omega), if_pos (by omega), hnumber]

theorem prevHref_first : prevHref (nthPage db category raw baseUrl slug 0) = none := by
  rw [nthPage, prevHref_pageOf hfits, toNat_nthOffset (by omega), if_neg (by omega)]

theorem shownCards_nth (hk : k * 24 < 2 ^ 32) :
    shownCards (nthPage db category raw baseUrl slug k) =
      (slice (listing db category raw) (k * 24) 24).map
        fun r => card (SqliteCatalogSearch.mapCardRow r) := by
  rw [nthPage, shownCards_pageOf hfits, toNat_nthOffset hk]

/-- The first pages show the beginning of the list. -/
theorem shownCards_pages {n : Nat} (hn : n * 24 < 2 ^ 32) :
    ((List.range (n + 1)).map (nthPage db category raw baseUrl slug)).flatMap shownCards =
      ((listing db category raw).take ((n + 1) * 24)).map
        fun r => card (SqliteCatalogSearch.mapCardRow r) := by
  rw [← flatMap_slices, List.flatMap_map, List.map_flatMap]
  refine List.flatMap_congr fun k hk => shownCards_nth hfits ?_
  have hkn := List.mem_range.mp hk
  omega

end Steps

/-- The rows that the search of the category keeps. -/
def Kept (db : TaxonomyDb) (category : Category) (raw : List (String × String))
    (pp : ProjectionRow) : Prop :=
  pp ∈ db.projection.rows ∧
    SqliteCatalogSearch.pushWhere db.toCatalogDb (searchQuery db category 1 raw) none pp = true

theorem lists_listing :
    SearchMeaning.Lists .relevance (Kept db category raw) (listing db category raw) :=
  SearchMeaning.lists_sorted (fun _ hpp => ⟨fun h => ⟨hpp, h⟩, fun h => h.2⟩) fun _ hpp => hpp.1

/-- Of the numbers of a page none wraps around, and `page - 1` is computed from 2 on. -/
theorem links_exact (hfits : (listing db category raw).length < 2 ^ 32) (page : UInt32)
    (hpage : 1 ≤ page.toNat) :
    (pageOffset page Pagination.defaultLimit).toNat = min ((page.toNat - 1) * 24) (2 ^ 32 - 1) ∧
      (∀ href, prevHref (pageOf db category raw baseUrl slug page) = some href → 2 ≤ page.toNat ∧
        (page - 1).toNat = page.toNat - 1 ∧ href = paginationHref slug raw (page - 1)) ∧
      ∀ href, nextHref (pageOf db category raw baseUrl slug page) = some href →
        (saturatingAdd32 page 1).toNat = page.toNat + 1 ∧
          href = paginationHref slug raw (saturatingAdd32 page 1) := by
  have hlimit : Pagination.defaultLimit.toNat = 24 := by decide
  have hoffset := toNat_pageOffset page Pagination.defaultLimit
  rw [hlimit] at hoffset
  refine ⟨hoffset, fun href hprev => ?_, fun href hnext => ?_⟩
  · rw [prevHref_pageOf hfits] at hprev
    split at hprev
    · rename_i h
      have hle : 1 ≤ page := UInt32.le_iff_toNat_le.mpr hpage
      refine ⟨by omega, ?_, (Option.some.inj hprev).symm⟩
      rw [UInt32.toNat_sub_of_le _ _ hle]
      rfl
    · cases hprev
  · rw [nextHref_pageOf hfits] at hnext
    split at hnext
    · rename_i h
      refine ⟨?_, (Option.some.inj hnext).symm⟩
      rw [toNat_saturatingAdd32]
      change min (page.toNat + 1) _ = _
      omega
    · cases hnext

/-- What a visitor finds who opens the category at `start`: all its products, `rows`, on
`pages`. -/
structure VisitsAll (db : TaxonomyDb) (env : SearchEnv) (baseUrl : String)
    (route : String → Option String) (slug start : String) (category : Category)
    (raw : List (String × String)) (rows : List ProjectionRow) (pages : List PageShell) : Prop where
  complete : SearchMeaning.Lists .relevance (Kept db category raw) rows
  forth : ∃ first, visit db env baseUrl route start = some first ∧
    Walk (visit db env baseUrl route) nextHref first pages
  numbered : ∀ k (hk : k < pages.length), k + 1 < 2 ^ 32 ∧
    showPage db env baseUrl slug (some (UInt32.ofNat (k + 1))) raw = .ok pages[k]
  once : pages.flatMap shownCards = rows.map fun r => card (SqliteCatalogSearch.mapCardRow r)
  back : ∀ k (hk : k < pages.length),
    Walk (visit db env baseUrl route) prevHref pages[k] (pages.take (k + 1)).reverse
  /-- Of the numbers of a page none wraps around, and `page - 1` is computed from 2 on. -/
  links : ∀ requested : UInt32, ∃ page shell, page = requestedPage (some requested) ∧
    page.toNat = max requested.toNat 1 ∧
    showPage db env baseUrl slug (some requested) raw = .ok shell ∧
    (pagination page).offset.toNat = min ((page.toNat - 1) * 24) (2 ^ 32 - 1) ∧
    (∀ href, prevHref shell = some href → 2 ≤ page.toNat ∧
      (page - 1).toNat = page.toNat - 1 ∧ href = paginationHref slug raw (page - 1)) ∧
    ∀ href, nextHref shell = some href → (saturatingAdd32 page 1).toNat = page.toNat + 1 ∧
      href = paginationHref slug raw (saturatingAdd32 page 1)

/-- A visitor who opens a category and follows the links to the next page sees the pages from 1
on, and with them every product once; the links back lead to the first page. The slug goes into
the links as it is, so one with a question mark, a number sign or an escape has no such path. -/
theorem category_walk (db : TaxonomyDb) (env : SearchEnv) (baseUrl : String)
    (route : String → Option String) {slug start : String} {category : Category}
    {raw : List (String × String)} (hroute : route ("/c/" ++ slug) = some slug)
    (hpath : urlPath start = "/c/" ++ slug) (hraw : parseQuery ((urlQuery start).getD "") = raw)
    (hpage : pageParam raw = some none)
    (hcategory : TaxonomyRepo.getCategoryBySlug db .uk slug = some category)
    (hfits : (listing db category raw).length < 2 ^ 32) :
    ∃ rows pages, VisitsAll db env baseUrl route slug start category raw rows pages := by
  obtain ⟨hquestion, hhash⟩ := not_mem_of_urlPath hpath
  have hvisit : ∀ k, k * 24 < 2 ^ 32 → visit db env baseUrl route
      (paginationHref slug raw (UInt32.ofNat (k + 1))) =
        some (nthPage db category raw baseUrl slug k) := by
    intro k hk
    rw [visit_paginationHref db env baseUrl route hroute hquestion hhash, showPage_nth hcategory hk]
    rfl
  -- the number of the last page, counted from 0
  obtain ⟨n, hn⟩ : ∃ n, n = ((listing db category raw).length - 1) / 24 := ⟨_, rfl⟩
  have hnext : ∀ k < n, ∃ url, nextHref (nthPage db category raw baseUrl slug k) = some url ∧
      visit db env baseUrl route url = some (nthPage db category raw baseUrl slug (k + 1)) :=
    fun k hk => ⟨_, nextHref_nth hfits (by omega), hvisit (k + 1) (by omega)⟩
  have hprev : ∀ k < n, ∃ url, prevHref (nthPage db category raw baseUrl slug (k + 1)) = some url ∧
      visit db env baseUrl route url = some (nthPage db category raw baseUrl slug k) :=
    fun k hk => ⟨_, prevHref_nth hfits (by omega), hvisit k (by omega)⟩
  have hpages : ∀ k (hk : k < ((List.range (n + 1)).map
      (nthPage db category raw baseUrl slug)).length), k ≤ n ∧
        ((List.range (n + 1)).map (nthPage db category raw baseUrl slug))[k] =
          nthPage db category raw baseUrl slug k := by
    intro k hk
    rw [List.getElem_map, List.getElem_range]
    rw [List.length_map, List.length_range] at hk
    exact ⟨by omega, rfl⟩
  refine ⟨listing db category raw, (List.range (n + 1)).map (nthPage db category raw baseUrl slug),
    { complete := lists_listing
      forth := ⟨nthPage db category raw baseUrl slug 0, ?_,
        Walk.ascending hnext (nextHref_last hfits (by omega) (by omega))⟩
      numbered := ?_
      once := ?_
      back := ?_
      links := ?_ }⟩
  · rw [visit, hpath, hroute, Option.bind_some, hraw]
    simp only
    rw [hpage, Option.bind_some, showPage_eq hcategory]
    rfl
  · intro k hk
    obtain ⟨hkn, hget⟩ := hpages k hk
    rw [hget]
    exact ⟨by omega, showPage_nth hcategory (by omega)⟩
  · rw [shownCards_pages hfits (by omega), List.take_of_length_le (by omega)]
  · intro k hk
    obtain ⟨hkn, hget⟩ := hpages k hk
    rw [hget, ← List.map_take, List.take_range, Nat.min_eq_left (by omega)]
    exact Walk.descending (prevHref_first hfits) fun j hj => hprev j (by omega)
  · intro requested
    exact ⟨_, _, rfl, toNat_requestedPage (some requested), showPage_eq hcategory _,
      links_exact hfits _ (by rw [toNat_requestedPage]; omega)⟩

/-- The clothes with their category, which can be filtered by color. -/
def clothesDb : TaxonomyDb where
  toCatalogDb := SearchMeaning.clothes
  categories := ⟨⟨⟨[⟨"clothes", none, "Одяг", "clothes", "/clothes", 0⟩], by decide⟩, by decide⟩,
    by decide⟩
  attributeOptions := ∅
  filters := ⟨⟨[⟨"filter", "clothes", "color", .checkboxOr, 0⟩], by decide⟩, by decide⟩
  translations := ∅

def clothesRoute (path : String) : Option String :=
  if path = "/c/clothes" then some "clothes" else none

theorem category_walk_clothes :
    ∃ rows pages, VisitsAll clothesDb SearchMeaning.noText "http://shop" clothesRoute "clothes"
      "/c/clothes?attr_color=red" ⟨"clothes", none, "Одяг", "clothes", "/clothes", 0⟩
      [("attr_color", "red")] rows pages :=
  category_walk clothesDb SearchMeaning.noText "http://shop" clothesRoute (by decide +kernel)
    (by decide +kernel) (by decide +kernel) (by decide +kernel) (by decide +kernel) (by decide +kernel)

end Numbers

end TinyShop.CategoryPage
