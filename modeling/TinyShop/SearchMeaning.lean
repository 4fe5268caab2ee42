import TinyShop.Base.Paging
import TinyShop.SearchSql

/-!
# What a search means

The rows that a query asks for, said without a statement: published products of the
category that satisfy every filter, in the order of the sort key and the id. A
search returns the number of these rows and a slice of them.
-/

namespace TinyShop

open Base
set_option autoImplicit false

/-- The number that a value stands for; `NaN` stands for none. -/
def F64.exact : F64 → Option (WithBot (WithTop Rat))
  | .nan => none
  | .inf true => some ⊥
  | .inf false => some ((⊤ : WithTop Rat) : WithBot (WithTop Rat))
  | .fin q => some ((q : WithTop Rat) : WithBot (WithTop Rat))

theorem F64.le_iff {a b : F64} :
    a.le b = true ↔ ∃ x y, a.exact = some x ∧ b.exact = some y ∧ x ≤ y := by
  cases a with
  | nan => simp [F64.le, F64.exact]
  | inf s =>
    cases b with
    | nan => cases s <;> simp [F64.le, F64.exact]
    | inf t => cases s <;> cases t <;> simp [F64.le, F64.exact]
    | fin q => cases s <;> simp [F64.le, F64.exact]
  | fin p =>
    cases b with
    | nan => simp [F64.le, F64.exact]
    | inf t => cases t <;> simp [F64.le, F64.exact]
    | fin q => simp [F64.le, F64.exact]

namespace SearchMeaning

section Meaning
variable (db : CatalogDb)

/-- A row of the index for one attribute of one product. -/
def Indexed (productId attributeId : String) (a : AttrIndexRow) : Prop :=
  a ∈ db.attrIndex.rows ∧ a.productId = productId ∧ a.attributeId = attributeId

/-- The values that are indexed for one attribute of one product. -/
def texts (productId attributeId : String) : Set String :=
  {s | ∃ a, Indexed db productId attributeId a ∧ a.valText = some s}

/-- The number of a row, unless it is missing. -/
def number (a : AttrIndexRow) : Option (WithBot (WithTop Rat)) := a.valNum.bind F64.exact

def AtLeast (min : F64) (a : AttrIndexRow) : Prop :=
  ∃ x y, min.exact = some x ∧ number a = some y ∧ x ≤ y

def AtMost (max : F64) (a : AttrIndexRow) : Prop :=
  ∃ x y, number a = some x ∧ max.exact = some y ∧ x ≤ y

def Satisfies (pp : ProjectionRow) : FilterCond → Prop
  | .rangePrice minMinor maxMinor =>
    (∀ min ∈ minMinor, min ≤ pp.priceMinor) ∧ ∀ max ∈ maxMinor, pp.priceMinor ≤ max
  | .checkboxOr attributeId values =>
    values = [] ∨ ∃ s ∈ values, s ∈ texts db pp.id attributeId
  | .enumAnd attributeId values => ∀ s ∈ values, s ∈ texts db pp.id attributeId
  | .number attributeId value =>
    ∃ a, Indexed db pp.id attributeId a ∧ ∃ x, number a = some x ∧ value.exact = some x
  | .rangeGeneric attributeId min max =>
    ∃ a, Indexed db pp.id attributeId a ∧ (∀ mn ∈ min, AtLeast mn a) ∧ ∀ mx ∈ max, AtMost mx a

/-- The product is in the category if the index has an attribute of the category for it. -/
def InCategory (categoryId : String) (pp : ProjectionRow) : Prop :=
  ∃ a ∈ db.attrIndex.rows, a.productId = pp.id ∧ a.categoryId = categoryId

def Matches (query : SearchQuery) (pp : ProjectionRow) : Prop :=
  pp ∈ db.projection.rows ∧ pp.status = "published" ∧
    (∀ categoryId ∈ query.categoryId, InCategory db categoryId pp) ∧
    ∀ f ∈ query.filters, Satisfies db pp f

/-- The number that a sort looks at first; the smallest comes first. -/
def sortKey : SortBy → ProjectionRow → Int
  | .priceAsc, r => r.priceMinor.toInt
  | .priceDesc, r => -r.priceMinor.toInt
  | .newest, r => -r.createdAt.toInt
  | .relevance, r => -r.createdAt.toInt

def Before (sort : SortBy) (a b : ProjectionRow) : Prop :=
  sortKey sort a < sortKey sort b ∨ sortKey sort a = sortKey sort b ∧ a.id < b.id

/-- The rows with a property, each once and in order. -/
structure Lists (sort : SortBy) (P : ProjectionRow → Prop) (rows : List ProjectionRow) : Prop where
  mem_iff : ∀ pp, pp ∈ rows ↔ P pp
  sorted : rows.Pairwise (Before sort)

/-- `rows` are all the rows, and the result is their number and one slice of them. -/
def Shows (page : Pagination) (rows : List ProjectionRow) (result : SearchResult) : Prop :=
  result.total.toNat = rows.length ∧
    result.items = (slice rows page.offset.toNat (max 1 (min page.limit.toNat 100))).map
      SqliteCatalogSearch.mapCardRow

variable {db}

/-! ## The conditions -/

theorem indexed_any {pp : ProjectionRow} {attributeId : String} {t : AttrIndexRow → Bool}
    {T : AttrIndexRow → Prop} (h : ∀ a, t a = true ↔ T a) :
    (db.attrIndex.rows.any fun a => a.productId = pp.id && a.attributeId = attributeId && t a) =
      true ↔ ∃ a, Indexed db pp.id attributeId a ∧ T a := by
  simp [Indexed, h, and_assoc]

theorem atLeast_iff {mn : F64} {a : AttrIndexRow} :
    (a.valNum.any fun n => mn.le n) = true ↔ AtLeast mn a := by
  cases hn : a.valNum <;> simp [AtLeast, number, hn, F64.le_iff]

theorem atMost_iff {mx : F64} {a : AttrIndexRow} :
    (a.valNum.any fun n => n.le mx) = true ↔ AtMost mx a := by
  cases hn : a.valNum <;> simp [AtMost, number, hn, F64.le_iff]

theorem equals_iff {value : F64} {a : AttrIndexRow} :
    (a.valNum.any fun n => n.le value && value.le n) = true ↔
      ∃ x, number a = some x ∧ value.exact = some x := by
  cases hn : a.valNum with
  | none => simp [number, hn]
  | some n =>
    simp only [Option.any_some, Bool.and_eq_true, F64.le_iff, number, hn, Option.bind_some]
    constructor
    · rintro ⟨⟨x, y, hx, hy, hxy⟩, y', x', hy', hx', hyx⟩
      obtain rfl := Option.some.inj (hx.symm.trans hx')
      obtain rfl := Option.some.inj (hy.symm.trans hy')
      exact ⟨x, hx, by rw [hy, le_antisymm hxy hyx]⟩
    · rintro ⟨x, hx, hy⟩
      exact ⟨⟨x, x, hx, hy, le_refl x⟩, x, x, hy, hx, le_refl x⟩

/-- The condition compares a count with the length of the list, so nothing passes a list with
a repetition. -/
theorem enumAnd_iff {pp : ProjectionRow} {attributeId : String} {values : List String} :
    SqliteCatalogSearch.pushFilterCond db pp (.enumAnd attributeId values) = true ↔
      values.Nodup ∧ ∀ s ∈ values, s ∈ texts db pp.id attributeId := by
  -- the distinct texts of the product that were asked for
  let counted := (db.attrIndex.rows.filterMap fun a =>
    if a.productId = pp.id ∧ a.attributeId = attributeId then a.valText.filter (· ∈ values)
    else none).dedup
  have hmem : ∀ s, s ∈ counted ↔ s ∈ texts db pp.id attributeId ∧ s ∈ values := by
    intro s
    simp only [counted, List.mem_dedup, List.mem_filterMap, texts, Indexed, Set.mem_ofPred_eq]
    constructor
    · rintro ⟨a, ha, hs⟩
      split at hs
      · rename_i hkey
        obtain ⟨htext, hvalue⟩ := Option.filter_eq_some_iff.mp hs
        exact ⟨⟨a, ⟨ha, hkey⟩, htext⟩, of_decide_eq_true hvalue⟩
      · cases hs
    · rintro ⟨⟨a, ⟨ha, hkey⟩, htext⟩, hvalue⟩
      exact ⟨a, ha, by simp [hkey, htext, Option.filter, hvalue]⟩
  have hnodup : counted.Nodup := List.nodup_dedup _
  have hsub : counted.Subperm values :=
    hnodup.subperm fun s hs => ((hmem s).mp hs).2
  have hiff : SqliteCatalogSearch.pushFilterCond db pp (.enumAnd attributeId values) = true ↔
      values = [] ∨ counted.length = values.length := by
    simp [SqliteCatalogSearch.pushFilterCond, counted]
  rw [hiff]
  constructor
  · rintro (rfl | hlength)
    · exact ⟨List.nodup_nil, by simp⟩
    · have hperm := hsub.perm_of_length_le hlength.ge
      refine ⟨hperm.nodup_iff.mp hnodup, fun s hs => ?_⟩
      exact ((hmem s).mp (hperm.mem_iff.mpr hs)).1
  · rintro ⟨hvalues, hall⟩
    refine Or.inr ((List.perm_ext_iff_of_nodup hnodup hvalues).mpr fun s => ?_).length_eq
    rw [hmem]
    exact ⟨fun h => h.2, fun hs => ⟨hall s hs, hs⟩⟩

/-- The conditions whose meaning the statement has for every value. -/
def IsEnumAnd : FilterCond → Prop
  | .enumAnd _ _ => True
  | _ => False

theorem all_iff {α : Type} {o : Option α} {t : α → Bool} {T : α → Prop} (h : ∀ x, t x = true ↔ T x) :
    o.all t = true ↔ ∀ x ∈ o, T x := by
  cases o <;> simp [h]

theorem pushFilterCond_iff {pp : ProjectionRow} {f : FilterCond} (h : ¬ IsEnumAnd f) :
    SqliteCatalogSearch.pushFilterCond db pp f = true ↔ Satisfies db pp f := by
  cases f with
  | rangePrice minMinor maxMinor =>
    rw [SqliteCatalogSearch.pushFilterCond, Bool.and_eq_true, all_iff fun _ => decide_eq_true_iff,
      all_iff fun _ => decide_eq_true_iff]
    rfl
  | checkboxOr attributeId values =>
    rw [SqliteCatalogSearch.pushFilterCond, Bool.or_eq_true, List.isEmpty_iff,
      indexed_any (T := fun a => ∃ s ∈ values, a.valText = some s)]
    · constructor
      · rintro (hempty | ⟨a, ha, s, hs, htext⟩)
        · exact Or.inl hempty
        · exact Or.inr ⟨s, hs, a, ha, htext⟩
      · rintro (hempty | ⟨s, hs, a, ha, htext⟩)
        · exact Or.inl hempty
        · exact Or.inr ⟨a, ha, s, hs, htext⟩
    · intro a
      cases a.valText <;> simp
  | enumAnd attributeId values => exact absurd trivial h
  | number attributeId value => exact indexed_any fun a => equals_iff
  | rangeGeneric attributeId min max =>
    simp only [SqliteCatalogSearch.pushFilterCond, Bool.and_assoc]
    simp only [← Bool.and_assoc (decide _) (decide _)]
    apply indexed_any
    intro a
    rw [Bool.and_eq_true, all_iff fun _ => atLeast_iff, all_iff fun _ => atMost_iff]

theorem pushWhere_iff {query : SearchQuery} (h : ∀ f ∈ query.filters, ¬ IsEnumAnd f)
    {pp : ProjectionRow} (hpp : pp ∈ db.projection.rows) :
    SqliteCatalogSearch.pushWhere db query none pp = true ↔ Matches db query pp := by
  simp only [SqliteCatalogSearch.pushWhere, Matches, Bool.and_eq_true, decide_eq_true_eq, hpp,
    true_and, Option.all_none, and_true, List.all_eq_true, and_assoc]
  have hcategory : (query.categoryId.all fun cat => db.attrIndex.rows.any fun a =>
      a.productId = pp.id && a.categoryId = cat) = true ↔
      ∀ categoryId ∈ query.categoryId, InCategory db categoryId pp :=
    all_iff fun cat => by simp [InCategory]
  have hfilters : (∀ f ∈ query.filters, SqliteCatalogSearch.pushFilterCond db pp f = true) ↔
      ∀ f ∈ query.filters, Satisfies db pp f :=
    forall₂_congr fun f hf => pushFilterCond_iff (h f hf)
  rw [hcategory, hfilters]

/-! ## The order -/

theorem idLe_iff (a b : ProjectionRow) : SqliteCatalogSearch.idLe a b = true ↔ a.id ≤ b.id := by
  rw [SqliteCatalogSearch.idLe, Bool.not_eq_true', decide_eq_false_iff_not, not_lt]

theorem orderLe_iff (sort : SortBy) (a b : ProjectionRow) :
    SqliteCatalogSearch.orderLe sort a b = true ↔
      toLex (sortKey sort a, a.id) ≤ toLex (sortKey sort b, b.id) := by
  rw [Prod.Lex.toLex_le_toLex]
  cases sort <;> simp [SqliteCatalogSearch.orderLe, idLe_iff, sortKey, Int64.lt_iff_toInt_lt,
    ← Int64.toInt_inj]

theorem before_iff (sort : SortBy) (a b : ProjectionRow) :
    Before sort a b ↔ toLex (sortKey sort a, a.id) < toLex (sortKey sort b, b.id) := by
  rw [Prod.Lex.toLex_lt_toLex]
  rfl

theorem lists_sorted {sort : SortBy} {P : ProjectionRow → Prop} {p : ProjectionRow → Bool}
    (h : ∀ pp ∈ db.projection.rows, p pp = true ↔ P pp) (hP : ∀ pp, P pp → pp ∈ db.projection.rows) :
    Lists sort P ((db.projection.rows.filter p).insertionSort fun a b =>
      SqliteCatalogSearch.orderLe sort a b) where
  mem_iff := by
    intro pp
    rw [List.mem_insertionSort, List.mem_filter]
    exact ⟨fun ⟨hmem, hpp⟩ => (h pp hmem).mp hpp, fun hpp => ⟨hP pp hpp, (h pp (hP pp hpp)).mpr hpp⟩⟩
  sorted := by
    have hids : ((db.projection.rows.filter p).map fun r => r.id).Nodup :=
      db.projection.unique.sublist (List.Sublist.map _ List.filter_sublist)
    have hkeys : ((db.projection.rows.filter p).map fun r => toLex (sortKey sort r, r.id)).Nodup := by
      refine List.Nodup.of_map (fun k => (ofLex k).2) ?_
      rw [List.map_map]
      exact hids
    exact (insertionSort_strict (orderLe_iff sort) hkeys).imp fun h => (before_iff sort _ _).mpr h

theorem clampLimit_toNat (limit : UInt32) :
    (Pagination.clampLimit limit).toNat = max 1 (min limit.toNat 100) := by
  unfold Pagination.clampLimit Pagination.maxLimit
  split
  · rename_i h
    have : limit.toNat < 1 := h
    change 1 = _
    omega
  · rename_i hone
    split
    · rename_i h
      have : 100 < limit.toNat := h
      change 100 = _
      omega
    · rename_i h
      have hle : ¬ 100 < limit.toNat := h
      have hge : ¬ limit.toNat < 1 := hone
      omega

/-- Fewer than 2^64 rows can be counted in 64 bits. -/
theorem shows_answer {query : SearchQuery} {rows : List ProjectionRow} (h : rows.length < 2 ^ 64) :
    Shows query.page (rows.insertionSort fun a b => SqliteCatalogSearch.orderLe query.sort a b)
      (SqliteCatalogSearch.answer query rows) := by
  have htotal : (UInt64.ofNat rows.length).toNat = rows.length := UInt64.toNat_ofNat_of_lt' h
  unfold SqliteCatalogSearch.answer
  split
  · rename_i hzero
    have hlength : rows.length = 0 := by
      rw [← htotal, hzero]
      rfl
    obtain rfl := List.length_eq_zero_iff.mp hlength
    exact ⟨rfl, by simp [slice]⟩
  · refine ⟨?_, ?_⟩
    · rw [htotal, List.length_insertionSort]
    · rw [← clampLimit_toNat]
      rfl

/-- The rows that the statements of a query without text keep, in its order. -/
def listed (db : CatalogDb) (query : SearchQuery) : List ProjectionRow :=
  (SqliteCatalogSearch.found db query none).insertionSort fun a b =>
    SqliteCatalogSearch.orderLe query.sort a b

theorem shows_listed {query : SearchQuery} (h : (listed db query).length < 2 ^ 64) :
    Shows query.page (listed db query)
      (SqliteCatalogSearch.answer query (SqliteCatalogSearch.found db query none)) := by
  rw [listed, List.length_insertionSort] at h
  exact shows_answer h

/-- The rows do not depend on the page. -/
theorem listed_page (query : SearchQuery) (page : Pagination) :
    listed db { query with page } = listed db query := rfl

variable (db) in
/-- A search without text does not fail. -/
theorem search_of_no_text (env : SearchEnv) (query : SearchQuery) (htext : query.text = none) :
    SearchSql.search db env query =
      .ok (SqliteCatalogSearch.answer query (SqliteCatalogSearch.found db query none)) := by
  have hterm : SqliteCatalogSearch.ftsTerm env query = none := by
    simp [SqliteCatalogSearch.ftsTerm, htext]
  rw [SearchSql.search_eq, SqliteCatalogSearch.search_eq_answer, hterm]
  rfl

variable (db) in
theorem search_shows (env : SearchEnv) (query : SearchQuery) (htext : query.text = none)
    (hrows : db.projection.rows.length < 2 ^ 64) :
    ∃ result, SearchSql.search db env query = .ok result ∧
      Shows query.page (listed db query) result :=
  ⟨_, search_of_no_text db env query htext,
    shows_answer (lt_of_le_of_lt (List.length_filter_le _ _) hrows)⟩

theorem lists_listed (query : SearchQuery)
    (h : ∀ pp ∈ db.projection.rows,
      SqliteCatalogSearch.pushWhere db query none pp = true ↔ Matches db query pp) :
    Lists query.sort (Matches db query) (listed db query) :=
  lists_sorted h fun _ hpp => hpp.1

end Meaning

/-- A search without text returns the number of the rows that match and the slice of them that
was asked for, and consecutive pages list them without a gap and without a repetition. That a
table has at most 2^64 rows is a limit of SQLite. -/
theorem search_lists_matches (db : CatalogDb) (env : SearchEnv) (query : SearchQuery)
    (htext : query.text = none) (hfilters : ∀ f ∈ query.filters, ¬ IsEnumAnd f)
    (hrows : db.projection.rows.length < 2 ^ 64) :
    ∃ rows, Lists query.sort (Matches db query) rows ∧
      (∀ page, ∃ result, SearchSql.search db env { query with page } = .ok result ∧
        Shows page rows result) ∧
      ∀ (limit : UInt32) (n : Nat), let size := max 1 (min limit.toNat 100)
        (∀ k < n, k * size < 2 ^ 32) →
        ∃ results, ((List.range n).mapM fun k => SearchSql.search db env
            { query with page := ⟨UInt32.ofNat (k * size), limit⟩ }) = .ok results ∧
          results.flatMap SearchResult.items =
            (rows.take (n * size)).map SqliteCatalogSearch.mapCardRow := by
  refine ⟨listed db query, lists_listed query fun pp hpp => pushWhere_iff hfilters hpp, ?_, ?_⟩
  · intro page
    exact search_shows db env { query with page } htext hrows
  · intro limit n size hfits
    have hpage : ∀ k, ∃ result, SearchSql.search db env
        { query with page := ⟨UInt32.ofNat (k * size), limit⟩ } = .ok result ∧
        Shows ⟨UInt32.ofNat (k * size), limit⟩ (listed db query) result := fun k =>
      search_shows db env { query with page := ⟨UInt32.ofNat (k * size), limit⟩ } htext hrows
    choose results hresults hshows using hpage
    refine ⟨(List.range n).map results, mapM_ok fun k _ => hresults k, ?_⟩
    rw [← flatMap_slices, List.map_flatMap, List.flatMap_map]
    apply List.flatMap_congr
    intro k hk
    rw [(hshows k).2]
    have hoffset : (UInt32.ofNat (k * size)).toNat = k * size :=
      UInt32.toNat_ofNat_of_lt' (hfits k (List.mem_range.mp hk))
    rw [hoffset]

def product (id : String) (priceMinor : Int64) (status : String) : ProjectionRow where
  id
  sellerId := "seller"
  title := id
  slug := id
  description := ""
  priceMinor
  currency := "UAH"
  status
  categoryId := none
  thumb := none
  createdAt := 0
  updatedAt := 0

/-- Two products on sale and a draft; the shirts are red. -/
def clothes : CatalogDb where
  projection := ⟨⟨[product "shirt" 300 "published", product "scarf" 100 "published",
    product "shirt-2" 200 "draft"], by decide⟩, by decide⟩
  attrIndex := ⟨[⟨"shirt", "clothes", "color", some "red", none⟩,
    ⟨"scarf", "clothes", "color", some "blue", none⟩,
    ⟨"shirt-2", "clothes", "color", some "red", none⟩], by decide⟩
  fts := []
  attributes := ∅

def noText : SearchEnv := ⟨fun _ => false, fun _ _ => .error ⟨""⟩⟩

def redOrBlue : SearchQuery where
  text := none
  categoryId := some "clothes"
  filters := [.checkboxOr "color" ["red", "blue", "red"], .rangePrice (some 100) none]
  sort := .priceAsc
  page := ⟨0, 1⟩

theorem search_lists_matches_clothes :
    ∃ rows, Lists .priceAsc (Matches clothes redOrBlue) rows ∧
      (∀ page, ∃ result, SearchSql.search clothes noText { redOrBlue with page } = .ok result ∧
        Shows page rows result) ∧
      ∀ (limit : UInt32) (n : Nat), let size := max 1 (min limit.toNat 100)
        (∀ k < n, k * size < 2 ^ 32) →
        ∃ results, ((List.range n).mapM fun k => SearchSql.search clothes noText
            { redOrBlue with page := ⟨UInt32.ofNat (k * size), limit⟩ }) = .ok results ∧
          results.flatMap SearchResult.items =
            (rows.take (n * size)).map SqliteCatalogSearch.mapCardRow :=
  search_lists_matches clothes noText redOrBlue rfl (by simp [redOrBlue, IsEnumAnd]) (by decide)

/-! ## All of the selected values -/

section EnumAnd
variable (db : CatalogDb) (env : SearchEnv) (attributeId : String)

def enumAndQuery (values : List String) (sort : SortBy) (page : Pagination) : SearchQuery where
  text := none
  categoryId := none
  filters := [.enumAnd attributeId values]
  sort
  page

/-- A search with the filter keeps the published products that have every value of the list. -/
def KeepsAll (values : List String) : Prop :=
  ∀ sort page, ∃ rows result,
    Lists sort (fun pp => pp ∈ db.projection.rows ∧ pp.status = "published" ∧
      ∀ s ∈ values, s ∈ texts db pp.id attributeId) rows ∧
    SearchSql.search db env (enumAndQuery attributeId values sort page) = .ok result ∧
      Shows page rows result

variable {db env attributeId}

theorem matches_enumAndQuery {values : List String} (sort : SortBy) (page : Pagination) :
    Matches db (enumAndQuery attributeId values sort page) = fun pp => pp ∈ db.projection.rows ∧
      pp.status = "published" ∧ ∀ s ∈ values, s ∈ texts db pp.id attributeId := by
  funext pp
  simp [Matches, enumAndQuery, Satisfies]

theorem pushWhere_enumAndQuery {values : List String} {sort : SortBy} {page : Pagination}
    {pp : ProjectionRow} : SqliteCatalogSearch.pushWhere db
      (enumAndQuery attributeId values sort page) none pp = true ↔ pp.status = "published" ∧
        values.Nodup ∧ ∀ s ∈ values, s ∈ texts db pp.id attributeId := by
  rw [← enumAnd_iff]
  simp [SqliteCatalogSearch.pushWhere, enumAndQuery]

theorem keepsAll_of {values : List String} (hrows : db.projection.rows.length < 2 ^ 64)
    (h : values.Nodup ∨ ∀ pp ∈ db.projection.rows, pp.status = "published" →
      ¬ ∀ s ∈ values, s ∈ texts db pp.id attributeId) : KeepsAll db env attributeId values := by
  intro sort page
  obtain ⟨result, hresult, hshows⟩ := search_shows db env
    (enumAndQuery attributeId values sort page) rfl hrows
  refine ⟨_, result, ?_, hresult, hshows⟩
  rw [← matches_enumAndQuery sort page]
  refine lists_listed (enumAndQuery attributeId values sort page) fun pp hpp => ?_
  rw [pushWhere_enumAndQuery, matches_enumAndQuery]
  rcases h with hnodup | hnone
  · simp [hnodup, hpp]
  · constructor
    · rintro ⟨hstatus, _, hall⟩
      exact absurd hall (hnone pp hpp hstatus)
    · rintro ⟨_, hstatus, hall⟩
      exact absurd hall (hnone pp hpp hstatus)

/-- A list with a repetition keeps nothing, whatever the products have. -/
theorem not_keepsAll {values : List String} (hrows : db.projection.rows.length < 2 ^ 64)
    (hrepeated : ¬ values.Nodup) {pp : ProjectionRow} (hpp : pp ∈ db.projection.rows)
    (hstatus : pp.status = "published") (hall : ∀ s ∈ values, s ∈ texts db pp.id attributeId) :
    ¬ KeepsAll db env attributeId values := by
  intro h
  obtain ⟨rows, result, hlists, hresult, htotal, _⟩ := h .relevance ⟨0, 1⟩
  have hnothing : SqliteCatalogSearch.found db
      (enumAndQuery attributeId values .relevance ⟨0, 1⟩) none = [] := by
    apply List.filter_eq_nil_iff.mpr
    intro r _ hkept
    exact hrepeated (pushWhere_enumAndQuery.mp hkept).2.1
  obtain ⟨result', hresult', htotal', _⟩ := search_shows db env
    (enumAndQuery attributeId values .relevance ⟨0, 1⟩) rfl hrows
  obtain rfl := Except.ok.inj (hresult.symm.trans hresult')
  have hlisted : listed db (enumAndQuery attributeId values .relevance ⟨0, 1⟩) = [] := by
    rw [listed, hnothing]
    rfl
  rw [hlisted, htotal, List.length_nil, List.length_eq_zero_iff] at htotal'
  rw [htotal'] at hlists
  exact List.not_mem_nil ((hlists.mem_iff pp).mpr ⟨hpp, hstatus, hall⟩)

/-- The order of the list does not matter. -/
theorem search_enumAnd_perm {values values' : List String} (h : values.Perm values') (sort : SortBy)
    (page : Pagination) :
    SearchSql.search db env (enumAndQuery attributeId values sort page) =
      SearchSql.search db env (enumAndQuery attributeId values' sort page) := by
  have hfound : SqliteCatalogSearch.found db (enumAndQuery attributeId values sort page) none =
      SqliteCatalogSearch.found db (enumAndQuery attributeId values' sort page) none := by
    apply List.filter_congr
    intro pp _
    rw [Bool.eq_iff_iff, pushWhere_enumAndQuery, pushWhere_enumAndQuery, h.nodup_iff]
    simp only [h.mem_iff]
  simp only [SearchSql.search_eq, SqliteCatalogSearch.search_eq_answer]
  change Except.ok (SqliteCatalogSearch.answer _ _) = Except.ok (SqliteCatalogSearch.answer _ _)
  rw [hfound]
  rfl

/-- The filter compares the number of distinct values of a product with the length of the list. -/
theorem keepsAll_iff (db : CatalogDb) (env : SearchEnv) (attributeId : String)
    (values : List String) (hrows : db.projection.rows.length < 2 ^ 64) :
    KeepsAll db env attributeId values ↔ values.Nodup ∨
      ∀ pp ∈ db.projection.rows, pp.status = "published" →
        ¬ ∀ s ∈ values, s ∈ texts db pp.id attributeId := by
  refine ⟨fun h => ?_, keepsAll_of hrows⟩
  by_contra hno
  push Not at hno
  obtain ⟨hrepeated, pp, hpp, hstatus, hall⟩ := hno
  exact not_keepsAll hrows hrepeated hpp hstatus hall h

theorem keepsAll_iff_clothes : KeepsAll clothes noText "color" ["red"] ↔ ["red"].Nodup ∨
    ∀ pp ∈ clothes.projection.rows, pp.status = "published" →
      ¬ ∀ s ∈ ["red"], s ∈ texts clothes pp.id "color" :=
  keepsAll_iff clothes noText "color" ["red"] (by decide)

/-- The shirt is found by its color, and no longer when the color is given twice. -/
theorem red_twice :
    SearchSql.search clothes noText (enumAndQuery "color" ["red"] .priceAsc ⟨0, 24⟩) =
        .ok ⟨[⟨"shirt", "shirt", "shirt", 300, "UAH", none⟩], 1⟩ ∧
      SearchSql.search clothes noText (enumAndQuery "color" ["red", "red"] .priceAsc ⟨0, 24⟩) =
        .ok ⟨[], 0⟩ ∧
      ¬ KeepsAll clothes noText "color" ["red", "red"] := by
  refine ⟨by rfl, by rfl, not_keepsAll (by decide) (by simp) List.mem_cons_self rfl ?_⟩
  intro s hs
  obtain rfl : s = "red" := by simpa using hs
  exact ⟨⟨"shirt", "clothes", "color", some "red", none⟩, ⟨List.mem_cons_self, rfl, rfl⟩, rfl⟩

end EnumAnd

end SearchMeaning

end TinyShop
