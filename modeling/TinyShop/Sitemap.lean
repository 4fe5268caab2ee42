import TinyShop.Base.Worklist
import TinyShop.Jsonld
import TinyShop.SearchMeaning
import TinyShop.TaxonomyReads

/-!
# The sitemap

`GET /sitemap.xml` of `crates/web/src/routes/sitemap.rs`: the categories, breadth first from
those without a parent, and the products on sale, page by page. Neither loop has a bound of
its own, so both run on fuel.
-/

namespace TinyShop.Sitemap

open Base Jsonld
set_option autoImplicit false

def categoryUrl (baseUrl : String) (c : Category) : String := absoluteUrl baseUrl ("/c/" ++ c.slug)

def productUrl (baseUrl slug : String) : String := absoluteUrl baseUrl ("/p/" ++ slug)

section Categories
variable (db : TaxonomyDb) (baseUrl : String)

def categoryPathsFrom : Nat → (paths : List String) → (queue : List (Option String)) →
    Option (List String)
  | _, paths, [] => some paths
  | 0, _, _ :: _ => none
  | n + 1, paths, parentId :: queue =>
    let children := TaxonomyRepo.listCategoriesByParent db .uk parentId
    categoryPathsFrom n (paths ++ children.map (categoryUrl baseUrl))
      (queue ++ children.map fun c => some c.id)

def categoryPaths (fuel : Nat) : Option (List String) := categoryPathsFrom db baseUrl fuel [] [none]

/-- The loop ends, and with one URL for every category. -/
def CoversCategories : Prop :=
  ∃ fuel paths, categoryPaths db baseUrl fuel = some paths ∧
    paths.Perm (db.categories.rows.map (categoryUrl baseUrl))

/-- The rows below a parent, with their names as stored. -/
def childrenOf (parentId : Option String) : List Category :=
  TaxonomyRepo.ordered Category.position Category.id
    (db.categories.rows.filter fun c => c.parentId = parentId)

variable {db baseUrl}

variable (db) in
theorem childrenOf_perm (parentId : Option String) :
    (childrenOf db parentId).Perm (db.categories.rows.filter fun c => c.parentId = parentId) :=
  TaxonomyRepo.ordered_perm _ _ _

/-- Names do not matter to the loop. -/
theorem categoryPathsFrom_eq (n : Nat) (paths : List String) (queue : List (Option String)) :
    categoryPathsFrom db baseUrl n paths queue =
      (breadthFirst (childrenOf db) Category.id n queue).map fun out =>
        paths ++ out.map (categoryUrl baseUrl) := by
  induction n generalizing paths queue with
  | zero =>
    cases queue with
    | nil => simp [categoryPathsFrom, breadthFirst]
    | cons parentId queue => rfl
  | succ n ih =>
    cases queue with
    | nil => simp [categoryPathsFrom, breadthFirst]
    | cons parentId queue =>
      have hurls : (TaxonomyRepo.listCategoriesByParent db .uk parentId).map (categoryUrl baseUrl) =
          (childrenOf db parentId).map (categoryUrl baseUrl) := List.map_map
      have hids : ((TaxonomyRepo.listCategoriesByParent db .uk parentId).map fun c => some c.id) =
          (childrenOf db parentId).map fun c => some c.id := List.map_map
      rw [categoryPathsFrom, breadthFirst]
      simp only [hurls, hids, ih, Option.map_map]
      congr 1
      funext out
      simp

/-- A row of the table that the loop reaches. -/
def Listed (t : Categories) (c : Category) : Prop := Rooted t.rows Category.parentId Category.id c

theorem coversCategories_iff :
    CoversCategories db baseUrl ↔ ∀ c ∈ db.categories.rows, Listed db.categories c := by
  have hterminates := breadthFirst_terminates db.categories.unique (childrenOf_perm db)
  constructor
  · rintro ⟨fuel, paths, hpaths, hperm⟩ c hc
    rw [categoryPaths, categoryPathsFrom_eq] at hpaths
    obtain ⟨out, hout, rfl⟩ := Option.map_eq_some_iff.mp hpaths
    obtain ⟨hnodup, hmem⟩ := mem_breadthFirst db.categories.unique (childrenOf_perm db) hout
    -- as many rows as there are, and none twice
    have hsub : out.Subperm db.categories.rows := by
      refine hnodup.subperm fun r hr => ?_
      cases (hmem r).mp hr with
      | root hr => exact hr
      | child _ hr => exact hr
    have hlength := hperm.length_eq
    rw [List.nil_append, List.length_map, List.length_map] at hlength
    exact (hmem c).mp ((hsub.perm_of_length_le hlength.ge).mem_iff.mpr hc)
  · intro hall
    obtain ⟨out, hout⟩ := hterminates
    obtain ⟨hnodup, hmem⟩ := mem_breadthFirst db.categories.unique (childrenOf_perm db) hout
    refine ⟨db.categories.rows.length + 1, out.map (categoryUrl baseUrl), ?_,
      List.Perm.map (categoryUrl baseUrl) ?_⟩
    · rw [categoryPaths, categoryPathsFrom_eq, hout]
      rfl
    · refine (List.perm_ext_iff_of_nodup hnodup (List.Nodup.of_map _ db.categories.unique)).mpr ?_
      intro c
      rw [hmem]
      refine ⟨fun hrooted => ?_, hall c⟩
      cases hrooted with
      | root hr => exact hr
      | child _ hr => exact hr

/-! ### Histories of the table -/

theorem listed_mono {t u : Categories} {new : Category} (h : u.rows = t.rows ++ [new])
    {c : Category} (hc : Listed t c) : Listed u c := by
  have hmem : ∀ r ∈ t.rows, r ∈ u.rows := fun r hr => h ▸ List.mem_append_left _ hr
  induction hc with
  | root hr hparent => exact .root (hmem _ hr) hparent
  | child _ hr hparent ih => exact .child ih (hmem _ hr) hparent

/-- A category that is its own parent is never reached. -/
theorem not_listed_of_self {t : Categories} {c : Category} (h : c.parentId = some c.id) :
    ¬ Listed t c := by
  intro hlisted
  have hne : ∀ r, Listed t r → r ∈ t.rows ∧ r.parentId ≠ some r.id := by
    intro r hr
    induction hr with
    | root hr hparent =>
      refine ⟨hr, ?_⟩
      rw [hparent]
      exact Option.some_ne_none _ ∘ Eq.symm
    | @child r p _ hr hparent ih =>
      refine ⟨hr, fun hself => ?_⟩
      have hid : p.id = r.id := Option.some.inj (hparent.symm.trans hself)
      obtain rfl := List.inj_on_of_nodup_map t.unique ih.1 hr hid
      exact ih.2 hself
  exact (hne c hlisted).2 h

theorem listed_createCategory {t u : Categories} {new : Category}
    (h : TaxonomyRepo.createCategory t new = .ok u) (hne : new.parentId ≠ some new.id)
    (ht : ∀ c ∈ t.rows, Listed t c) : ∀ c ∈ u.rows, Listed u c := by
  obtain ⟨hrows, hparent⟩ := TaxonomyRepo.createCategory_rows h
  intro c hc
  rw [hrows] at hc
  rcases List.mem_append.mp hc with hc | hc
  · exact listed_mono hrows (ht c hc)
  · obtain rfl := List.mem_singleton.mp hc
    have hmem : c ∈ u.rows := hrows ▸ List.mem_append_right _ List.mem_cons_self
    cases hid : c.parentId with
    | none => exact .root hmem hid
    | some parentId =>
      rcases hparent parentId hid with rfl | hfound
      · exact absurd hid hne
      · obtain ⟨p, hp, rfl⟩ := Table.find?_isSome_iff.mp hfound
        exact .child (listed_mono hrows (ht p hp)) hmem hid

theorem foldlM_createCategory (calls : List Category) : ∀ {t u : Categories},
    calls.foldlM TaxonomyRepo.createCategory t = .ok u → u.rows = t.rows ++ calls ∧
      ((∀ c ∈ calls, c.parentId ≠ some c.id) → (∀ c ∈ t.rows, Listed t c) →
        ∀ c ∈ u.rows, Listed u c) := by
  induction calls with
  | nil =>
    intro t u h
    obtain rfl := Except.ok.inj h
    exact ⟨(List.append_nil _).symm, fun _ ht => ht⟩
  | cons new calls ih =>
    intro t u h
    rw [List.foldlM_cons] at h
    cases hnew : TaxonomyRepo.createCategory t new with
    | error e =>
      rw [hnew] at h
      cases h
    | ok v =>
      rw [hnew] at h
      obtain ⟨hrows, hlisted⟩ := ih h
      refine ⟨?_, fun hcalls ht => ?_⟩
      · rw [hrows, (TaxonomyRepo.createCategory_rows hnew).1, List.append_assoc]
        rfl
      · exact hlisted (fun c hc => hcalls c (List.mem_cons_of_mem new hc))
          (listed_createCategory hnew (hcalls new List.mem_cons_self) ht)

/-- After any calls of `create_category` the sitemap has every category once, unless one of
them was made its own parent. -/
theorem coversCategories_iff_history (db : TaxonomyDb) (baseUrl : String) {calls : List Category}
    (h : calls.foldlM TaxonomyRepo.createCategory .empty = .ok db.categories) :
    CoversCategories db baseUrl ↔ ∀ c ∈ calls, c.parentId ≠ some c.id := by
  obtain ⟨hrows, hlisted⟩ := foldlM_createCategory calls h
  have hcalls : db.categories.rows = calls := hrows
  rw [coversCategories_iff]
  constructor
  · intro hall c hc hself
    exact not_listed_of_self hself (hall c (hcalls ▸ hc))
  · exact fun hne => hlisted hne (List.forall_mem_nil _)

/-- A database with these categories and nothing else. -/
def withCategories (t : Categories) : TaxonomyDb where
  toCatalogDb := .initial ∅
  categories := t
  attributeOptions := ∅
  filters := ∅
  translations := ∅

def clothes : Category := ⟨"clothes", none, "Одяг", "clothes", "/clothes", 0⟩

def shirts : Category := ⟨"shirts", some "clothes", "Сорочки", "shirts", "/clothes/shirts", 0⟩

def shirtsDb : TaxonomyDb :=
  withCategories ⟨⟨⟨[clothes, shirts], by decide⟩, by decide⟩, by decide⟩

theorem coversCategories_iff_history_shirts : CoversCategories shirtsDb "http://shop" ↔
    ∀ c ∈ [clothes, shirts], c.parentId ≠ some c.id :=
  coversCategories_iff_history shirtsDb "http://shop" (by rfl)

/-- Its own parent: the reference is there once the row is. -/
def selfParent : Category := ⟨"a", some "a", "A", "a", "/a", 0⟩

def below : Category := ⟨"b", some "a", "B", "b", "/a/b", 0⟩

def selfParentDb : TaxonomyDb :=
  withCategories ⟨⟨⟨[selfParent, below], by decide⟩, by decide⟩, by decide⟩

/-- Both rows are stored, and the loop ends without either. -/
theorem selfParent_not_covered :
    [selfParent, below].foldlM TaxonomyRepo.createCategory .empty = .ok selfParentDb.categories ∧
      categoryPaths selfParentDb "http://shop" 1 = some [] ∧
      ¬ CoversCategories selfParentDb "http://shop" := by
  refine ⟨by rfl, by rfl, fun h => ?_⟩
  exact not_listed_of_self (c := selfParent) rfl (coversCategories_iff.mp h _ List.mem_cons_self)

end Categories

section Products
variable (db : CatalogDb) (env : SearchEnv) (baseUrl : String)

/-- Everything on sale; the page is what changes. -/
def productQuery (offset : UInt32) : SearchQuery where
  text := none
  categoryId := none
  filters := []
  sort := .relevance
  page := ⟨offset, Pagination.maxLimit⟩

def productPathsFrom : Nat → (paths : List String) → (offset : UInt32) →
    Option (Except WebError (List String))
  | 0, _, _ => none
  | n + 1, paths, offset =>
    match SearchSql.search db env (productQuery offset) with
    | .error e => some (.error (.internal e.toString))
    | .ok result =>
      if result.items.isEmpty then some (.ok paths)
      else
        let paths := paths ++ result.items.map fun item => productUrl baseUrl item.slug
        let offset := saturatingAdd32 offset Pagination.maxLimit
        if result.total ≤ offset.toUInt64 then some (.ok paths)
        else productPathsFrom n paths offset

def productPaths (fuel : Nat) : Option (Except WebError (List String)) :=
  productPathsFrom db env baseUrl fuel [] 0

/-- The products on sale, in the order of the search. -/
def onSale : List ProjectionRow := SearchMeaning.listed db (productQuery 0)

variable {db env baseUrl}

variable (db) in
theorem lists_onSale : SearchMeaning.Lists .relevance
    (fun pp => pp ∈ db.projection.rows ∧ pp.status = "published") (onSale db) := by
  refine SearchMeaning.lists_sorted (fun pp hpp => ?_) fun _ hpp => hpp.1
  simp [SqliteCatalogSearch.pushWhere, productQuery, hpp]

section Fits
variable (hfits : (onSale db).length < 2 ^ 32)
include hfits

variable (env) in
theorem search_productQuery (offset : UInt32) : ∃ result,
    SearchSql.search db env (productQuery offset) = .ok result ∧
      result.total.toNat = (onSale db).length ∧
      result.items = (slice (onSale db) offset.toNat 100).map SqliteCatalogSearch.mapCardRow := by
  have hlisted : SearchMeaning.listed db (productQuery offset) = onSale db :=
    SearchMeaning.listed_page (productQuery 0) ⟨offset, Pagination.maxLimit⟩
  have hlimit : max 1 (min Pagination.maxLimit.toNat 100) = 100 := by decide
  obtain ⟨htotal, hitems⟩ := SearchMeaning.shows_listed (by rw [hlisted]; omega)
  rw [hlisted] at htotal hitems
  refine ⟨_, SearchMeaning.search_of_no_text db env _ rfl, htotal, hitems.trans ?_⟩
  rw [← hlimit]
  rfl

/-- One page of the loop: it is the last one, or the loop goes on behind it. -/
theorem productPathsFrom_step (n : Nat) (paths : List String) (offset : UInt32) :
    productPathsFrom db env baseUrl (n + 1) paths offset =
      if (onSale db).length ≤ min (offset.toNat + 100) (2 ^ 32 - 1) then
        some (.ok (paths ++ ((onSale db).drop offset.toNat).map fun r => productUrl baseUrl r.slug))
      else productPathsFrom db env baseUrl n
        (paths ++ (slice (onSale db) offset.toNat 100).map fun r => productUrl baseUrl r.slug)
        (saturatingAdd32 offset Pagination.maxLimit) := by
  obtain ⟨result, hsearch, htotal, hitems⟩ := search_productQuery env hfits offset
  have hurls : result.items.map (fun item => productUrl baseUrl item.slug) =
      (slice (onSale db) offset.toNat 100).map fun r => productUrl baseUrl r.slug := by
    rw [hitems, List.map_map]
    rfl
  have hstop : result.total ≤ (saturatingAdd32 offset Pagination.maxLimit).toUInt64 ↔
      (onSale db).length ≤ min (offset.toNat + 100) (2 ^ 32 - 1) := by
    rw [UInt64.le_iff_toNat_le, htotal, UInt32.toNat_toUInt64, toNat_saturatingAdd32]
    rfl
  rw [productPathsFrom, hsearch]
  simp only
  split
  · -- an empty page lies behind the last product
    rename_i hempty
    have hdrop : (onSale db).drop offset.toNat = [] := by
      rw [List.isEmpty_iff, hitems, List.map_eq_nil_iff, slice, List.take_eq_nil_iff] at hempty
      exact hempty.resolve_left (by decide)
    have hlength := List.drop_eq_nil_iff.mp hdrop
    rw [if_pos (by omega), hdrop, List.map_nil, List.append_nil]
  · rw [hurls]
    refine ite_congr (propext hstop) (fun hlast => ?_) fun _ => rfl
    rw [drop_eq_slice_append _ _ 100, List.drop_eq_nil_of_le (by omega), List.append_nil]

variable (env baseUrl) in
/-- From an offset on the loop appends what is left. The offset may stick at its largest value,
but not before the last page. -/
theorem productPathsFrom_eq (n : Nat) : ∀ (paths : List String) {offset : UInt32},
    (onSale db).length ≤ offset.toNat + 100 * n →
      productPathsFrom db env baseUrl (n + 1) paths offset = some (.ok (paths ++
        ((onSale db).drop offset.toNat).map fun r => productUrl baseUrl r.slug)) := by
  induction n with
  | zero =>
    intro paths offset hlength
    rw [productPathsFrom_step hfits, if_pos (by omega)]
  | succ n ih =>
    intro paths offset hlength
    rw [productPathsFrom_step hfits]
    split
    · rfl
    · rename_i hmore
      have hnext : (saturatingAdd32 offset Pagination.maxLimit).toNat = offset.toNat + 100 := by
        have hoffset : (saturatingAdd32 offset Pagination.maxLimit).toNat =
            min (offset.toNat + 100) (2 ^ 32 - 1) := toNat_saturatingAdd32 _ _
        omega
      rw [ih _ (by omega), hnext, drop_eq_slice_append _ offset.toNat 100, List.map_append,
        List.append_assoc]

end Fits

theorem length_onSale : (onSale db).length =
    (db.projection.rows.filter fun pp => pp.status = "published").length := by
  rw [onSale, SearchMeaning.listed, List.length_insertionSort, SqliteCatalogSearch.found]
  congr 1
  refine List.filter_congr fun pp _ => ?_
  simp [SqliteCatalogSearch.pushWhere, productQuery]

theorem productUrl_inj {baseUrl slug slug' : String}
    (h : productUrl baseUrl slug = productUrl baseUrl slug') : slug = slug' := by
  have hlist := congrArg String.toList h
  rw [← String.toList_inj]
  simpa [productUrl, absoluteUrl] using hlist

/-- As long as the offset reaches them all, the sitemap has each product on sale once, and
nothing else. -/
theorem productPaths_complete (db : CatalogDb) (env : SearchEnv) (baseUrl : String)
    (hfits : (db.projection.rows.filter fun pp => pp.status = "published").length < 2 ^ 32) :
    ∃ fuel paths, productPaths db env baseUrl fuel = some (.ok paths) ∧ paths.Nodup ∧
      ∀ url, url ∈ paths ↔ ∃ pp ∈ db.projection.rows, pp.status = "published" ∧
        url = productUrl baseUrl pp.slug := by
  rw [← length_onSale] at hfits
  have hlists := lists_onSale db
  have hnodup : (onSale db).Nodup := hlists.sorted.imp fun {a b} hab => by
    rintro rfl
    have hirrefl := (SearchMeaning.before_iff .relevance a a).mp hab
    exact lt_irrefl _ hirrefl
  refine ⟨(onSale db).length + 1, (onSale db).map fun r => productUrl baseUrl r.slug, ?_, ?_, ?_⟩
  · exact productPathsFrom_eq env baseUrl hfits (onSale db).length [] (by omega)
  · refine hnodup.map_on fun r hr s hs hsame => ?_
    exact List.inj_on_of_nodup_map db.projection.distinct ((hlists.mem_iff r).mp hr).1
      ((hlists.mem_iff s).mp hs).1 (productUrl_inj hsame)
  · intro url
    rw [List.mem_map]
    constructor
    · rintro ⟨r, hr, rfl⟩
      obtain ⟨hrow, hstatus⟩ := (hlists.mem_iff r).mp hr
      exact ⟨r, hrow, hstatus, rfl⟩
    · rintro ⟨r, hrow, hstatus, rfl⟩
      exact ⟨r, (hlists.mem_iff r).mpr ⟨hrow, hstatus⟩, rfl⟩

theorem productPaths_complete_clothes :
    ∃ fuel paths, productPaths SearchMeaning.clothes SearchMeaning.noText "http://shop" fuel =
        some (.ok paths) ∧ paths.Nodup ∧
      ∀ url, url ∈ paths ↔ ∃ pp ∈ SearchMeaning.clothes.projection.rows, pp.status = "published" ∧
        url = productUrl "http://shop" pp.slug :=
  productPaths_complete SearchMeaning.clothes SearchMeaning.noText "http://shop" (by decide)

end Products

end TinyShop.Sitemap
