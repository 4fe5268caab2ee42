import TinyShop.Base.Drift
import TinyShop.OnSale
import TinyShop.Sitemap

/-!
# A sitemap of a busy shop

The sitemap reads the products page by page, and each page with two statements that are not in
one transaction. The relay may deliver events before each of them. A product that is on sale
all the time is missed only if others come in between the two statements of the last page.
-/

namespace TinyShop

open Base
set_option autoImplicit false

namespace SearchSql

open SqliteCatalogSearch (matchedIds found)

variable (db : CatalogDb) (env : SearchEnv)

/-- The second statement of `search`. -/
def selectCards (query : SearchQuery) : Except SearchError (List ProductCard) := do
  let limit : Int := (Pagination.clampLimit query.page.limit).toNat
  let offset : Int := query.page.offset.toNat
  let (tail, qb) := (pushCards query (SqliteCatalogSearch.ftsTerm env query) limit offset).run .new
  let rows ← select db env qb
  let page := ((rows.insertionSort fun a b => tail.order a b).drop
    (limitOf (qb.bound tail.offset))).take (limitOf (qb.bound tail.limit))
  return page.map SqliteCatalogSearch.mapCardRow

/-- A search whose first statement finds another database. -/
def searchOver (counted : CatalogDb) (query : SearchQuery) : Except SearchError SearchResult := do
  let total ← countResults counted env query (SqliteCatalogSearch.ftsTerm env query)
  if total = 0 then return ⟨[], 0⟩
  else
    let items ← selectCards db env query
    return ⟨items, total⟩

/-- Nothing happens in between. -/
theorem searchOver_self (query : SearchQuery) : searchOver db env db query = search db env query := by
  unfold searchOver search selectCards
  change (countResults db env query (SqliteCatalogSearch.ftsTerm env query) >>= _) =
    countResults db env query (SqliteCatalogSearch.ftsTerm env query) >>= _
  cases countResults db env query (SqliteCatalogSearch.ftsTerm env query) with
  | error e => rfl
  | ok total =>
    by_cases hzero : total = 0
    · simp only [hzero, bind, Except.bind, if_true]
    · simp only [hzero, bind, Except.bind, if_false]
      generalize (pushCards query (SqliteCatalogSearch.ftsTerm env query)
        (Pagination.clampLimit query.page.limit).toNat query.page.offset.toNat).run .new = built
      obtain ⟨tail, qb⟩ := built
      dsimp only
      cases select db env qb with
      | error e => rfl
      | ok rows => rfl

theorem selectCards_eq (query : SearchQuery) : selectCards db env query =
    (matchedIds db env (SqliteCatalogSearch.ftsTerm env query)).map fun ids =>
      (SqliteCatalogSearch.page query (found db query ids)).map SqliteCatalogSearch.mapCardRow := by
  have hcards := (builds_pushCards db env query (SqliteCatalogSearch.ftsTerm env query)
    (Pagination.clampLimit query.page.limit).toNat query.page.offset.toNat).run_new
  simp only [selectCards]
  generalize (pushCards query (SqliteCatalogSearch.ftsTerm env query)
    (Pagination.clampLimit query.page.limit).toNat query.page.offset.toNat).run .new = built at hcards
  obtain ⟨tail, qb⟩ := built
  obtain ⟨hwhere, horder, hlimit, hoffset⟩ := hcards
  have hselect := select_eq hwhere
  simp only [hselect, hlimit, hoffset, SqliteCatalogSearch.page, ← horder]
  cases matchedIds db env (SqliteCatalogSearch.ftsTerm env query) with
  | error e => rfl
  | ok ids => rfl

end SearchSql

namespace Sitemap

section Loop
variable (env : SearchEnv) (baseUrl : String) (dbs : Nat → CatalogDb)

/-- The loop of `product_paths`, whose `i`-th statement finds the database `dbs i`. -/
def productPathsOver : Nat → (k : Nat) → (paths : List String) → (offset : UInt32) →
    Option (Except WebError (List String))
  | 0, _, _, _ => none
  | n + 1, k, paths, offset =>
    match SearchSql.searchOver (dbs (2 * k + 1)) env (dbs (2 * k)) (productQuery offset) with
    | .error e => some (.error (.internal e.toString))
    | .ok result =>
      if result.items.isEmpty then some (.ok paths)
      else
        let paths := paths ++ result.items.map fun item => productUrl baseUrl item.slug
        let offset := saturatingAdd32 offset Pagination.maxLimit
        if result.total ≤ offset.toUInt64 then some (.ok paths)
        else productPathsOver n (k + 1) paths offset

/-- When nothing is delivered it is the loop. -/
theorem productPathsOver_const (db : CatalogDb) (n : Nat) : ∀ (k : Nat) (paths : List String)
    (offset : UInt32), productPathsOver env baseUrl (fun _ => db) n k paths offset =
      productPathsFrom db env baseUrl n paths offset := by
  induction n with
  | zero => exact fun _ _ _ => rfl
  | succ n ih =>
    intro k paths offset
    rw [productPathsOver, productPathsFrom, SearchSql.searchOver_self]
    cases SearchSql.search db env (productQuery offset) with
    | error e => rfl
    | ok result =>
      exact ite_congr rfl (fun _ => rfl) fun _ => ite_congr rfl (fun _ => rfl) fun _ => ih _ _ _

/-- The products that the `k`-th page shows. -/
def pageAt (k : Nat) : List ProjectionRow :=
  if onSale (dbs (2 * k)) = [] then [] else slice (onSale (dbs (2 * k + 1))) (k * 100) 100

/-- The loop ends with the page. -/
def Last (k : Nat) : Prop :=
  pageAt dbs k = [] ∨ (onSale (dbs (2 * k))).length ≤ (k + 1) * 100

variable {dbs}

theorem searchOver_productQuery (db : CatalogDb) {counted : CatalogDb} (hfits : (onSale counted).length < 2 ^ 64)
    (offset : UInt32) : ∃ result,
      SearchSql.searchOver db env counted (productQuery offset) = .ok result ∧
        result.total.toNat = (onSale counted).length ∧
        result.items = if onSale counted = [] then [] else
          (slice (onSale db) offset.toNat 100).map SqliteCatalogSearch.mapCardRow := by
  have hfound : (SqliteCatalogSearch.found counted (productQuery offset) none).length =
      (onSale counted).length :=
    (List.length_insertionSort _ _).symm
  have hcount : SearchSql.countResults counted env (productQuery offset) none =
      .ok (UInt64.ofNat (onSale counted).length) := by
    rw [SearchSql.countResults_eq, ← hfound]
    rfl
  have hselect : SearchSql.selectCards db env (productQuery offset) =
      .ok ((slice (onSale db) offset.toNat 100).map SqliteCatalogSearch.mapCardRow) := by
    rw [SearchSql.selectCards_eq]
    rfl
  have htotal : (UInt64.ofNat (onSale counted).length).toNat = (onSale counted).length :=
    UInt64.toNat_ofNat_of_lt' hfits
  unfold SearchSql.searchOver
  change ∃ result, (SearchSql.countResults counted env (productQuery offset) none >>= _) = _ ∧ _
  rw [hcount]
  by_cases hnone : onSale counted = []
  · rw [if_pos hnone, hnone]
    exact ⟨⟨[], 0⟩, rfl, rfl, rfl⟩
  · have hpos : UInt64.ofNat (onSale counted).length ≠ 0 := by
      intro hzero
      rw [hzero] at htotal
      exact hnone (List.length_eq_zero_iff.mp htotal.symm)
    rw [if_neg hnone]
    refine ⟨⟨_, UInt64.ofNat (onSale counted).length⟩, ?_, htotal, rfl⟩
    change (if UInt64.ofNat (onSale counted).length = 0 then _ else _) = _
    rw [if_neg hpos, hselect]
    rfl

variable (dbs)

/-- The URLs of one page. -/
def urlsAt (k : Nat) : List String := (pageAt dbs k).map fun r => productUrl baseUrl r.slug

instance (k : Nat) : Decidable (Last dbs k) := inferInstanceAs (Decidable (_ ∨ _))

variable {dbs} {n : Nat} (hcount : ∀ i, (onSale (dbs i)).length ≤ n)
include hcount

theorem productPathsOver_step (m : Nat) {k : Nat} (paths : List String) {offset : UInt32}
    (hoffset : offset.toNat = k * 100) (hfits : max n ((k + 1) * 100) < 2 ^ 32) :
    productPathsOver env baseUrl dbs (m + 1) k paths offset =
      if Last dbs k then some (.ok (paths ++ urlsAt baseUrl dbs k))
      else productPathsOver env baseUrl dbs m (k + 1) (paths ++ urlsAt baseUrl dbs k)
        (saturatingAdd32 offset Pagination.maxLimit) := by
  have hcounted := hcount (2 * k)
  obtain ⟨result, hsearch, htotal, hitems⟩ :=
    searchOver_productQuery env (dbs (2 * k + 1)) (lt_of_le_of_lt hcounted (by omega)) offset
  have hpage : result.items = (pageAt dbs k).map SqliteCatalogSearch.mapCardRow := by
    rw [hitems, pageAt, hoffset]
    split <;> rfl
  have hurls : (result.items.map fun item => productUrl baseUrl item.slug) = urlsAt baseUrl dbs k := by
    rw [hpage, List.map_map]
    rfl
  have hstop : result.total ≤ (saturatingAdd32 offset Pagination.maxLimit).toUInt64 ↔
      (onSale (dbs (2 * k))).length ≤ (k + 1) * 100 := by
    rw [UInt64.le_iff_toNat_le, htotal, UInt32.toNat_toUInt64, toNat_saturatingAdd32, hoffset]
    change _ ≤ min (k * 100 + 100) (2 ^ 32 - 1) ↔ _
    omega
  rw [productPathsOver, hsearch]
  simp only [hurls]
  by_cases hempty : pageAt dbs k = []
  · have hlast : Last dbs k := .inl hempty
    rw [if_pos hlast, hpage, urlsAt, hempty, List.map_nil, List.map_nil, List.append_nil]
    rfl
  · have hitems : result.items.isEmpty = false := by
      rw [hpage, List.isEmpty_map, List.isEmpty_eq_false_iff]
      exact hempty
    rw [hitems, if_neg Bool.false_ne_true]
    refine ite_congr (propext (hstop.trans ?_)) (fun _ => rfl) fun _ => rfl
    exact ⟨.inr, fun hlast => hlast.resolve_left hempty⟩

/-- The loop reads its pages up to the last one. -/
theorem productPathsOver_eq (m : Nat) : ∀ {k : Nat} (paths : List String) {offset : UInt32},
    offset.toNat = k * 100 → n ≤ (k + m + 1) * 100 → (k + m + 1) * 100 < 2 ^ 32 →
      ∃ last, k ≤ last ∧ Last dbs last ∧ productPathsOver env baseUrl dbs (m + 1) k paths offset =
        some (.ok (paths ++ (List.range' k (last + 1 - k)).flatMap (urlsAt baseUrl dbs))) := by
  induction m with
  | zero =>
    intro k paths offset hoffset hpages hfits
    have hlast : Last dbs k := .inr ((hcount (2 * k)).trans hpages)
    refine ⟨k, le_rfl, hlast, ?_⟩
    rw [productPathsOver_step env baseUrl hcount 0 paths hoffset (by omega), if_pos hlast,
      Nat.add_sub_cancel_left, List.range'_one, List.flatMap_singleton]
  | succ m ih =>
    intro k paths offset hoffset hpages hfits
    rw [productPathsOver_step env baseUrl hcount (m + 1) paths hoffset (by omega)]
    by_cases hlast : Last dbs k
    · refine ⟨k, le_rfl, hlast, ?_⟩
      rw [if_pos hlast, Nat.add_sub_cancel_left, List.range'_one, List.flatMap_singleton]
    · have hsame : k + 1 + m + 1 = k + (m + 1) + 1 := by omega
      have hnext : (saturatingAdd32 offset Pagination.maxLimit).toNat = (k + 1) * 100 := by
        rw [toNat_saturatingAdd32, hoffset]
        change min (k * 100 + 100) (2 ^ 32 - 1) = _
        omega
      rw [← hsame] at hpages hfits
      obtain ⟨last, hle, hstop, hpaths⟩ := ih (paths ++ urlsAt baseUrl dbs k) hnext hpages hfits
      refine ⟨last, by omega, hstop, ?_⟩
      have hcons : last + 1 - k = (last + 1 - (k + 1)) + 1 := by omega
      rw [if_neg hlast, hpaths, hcons, List.range'_succ, List.flatMap_cons, List.append_assoc]

end Loop

section Deliveries

/-- Where a product stands in the search. -/
def place (r : ProjectionRow) : Lex (Int × String) :=
  toLex (SearchMeaning.sortKey .relevance r, r.id)

/-- An event is delivered that takes no product up to a place off sale. -/
def Spares (k : Lex (Int × String)) (db db' : CatalogDb) : Prop :=
  ∃ ev, CatalogProjection.handle db ev = .ok db' ∧
    ∀ r ∈ onSale db, place r ≤ k → ¬ OnSale.Retracts ev.meaning r.id

theorem mem_onSale {db : CatalogDb} {r : ProjectionRow} :
    r ∈ onSale db ↔ r ∈ db.projection.rows ∧ r.status = "published" :=
  (lists_onSale db).mem_iff r

theorem sorted_onSale (db : CatalogDb) : (onSale db).Pairwise fun a b => place a < place b :=
  (lists_onSale db).sorted.imp fun {a b} hab => (SearchMeaning.before_iff .relevance a b).mp hab

section Apply
open CatalogProjection

variable {db db' : CatalogDb} {e : ProductEvent}

/-- A product stays where it is until an event takes it off sale: no event writes `created_at`. -/
theorem stays_of_apply (h : e.apply db = .ok db') {r : ProjectionRow}
    (hr : r ∈ db.projection.rows) (hs : r.status = "published") (he : ¬ OnSale.Retracts e r.id) :
    ∃ r' ∈ db'.projection.rows, r'.status = "published" ∧ place r' = place r := by
  cases e with
  | created new =>
    obtain rfl := Except.ok.inj h
    refine ⟨r, ?_, hs, rfl⟩
    rw [upsertFts_projection]
    cases hins : db.projection.insert? new with
    | none => exact hr
    | some t =>
      rw [Option.getD_some, (IndexedTable.insert?_eq_some hins).2.2]
      exact List.mem_append_left _ hr
  | attributeSet id attributeId valText valNum =>
    obtain rfl := Except.ok.inj h
    exact ⟨r, by rwa [upsertFts_projection], hs, rfl⟩
  | attributeCleared id attributeId =>
    obtain rfl := Except.ok.inj h
    exact ⟨r, by rwa [upsertFts_projection], hs, rfl⟩
  | core id title slug description priceMinor currency updatedAt =>
    simp only [ProductEvent.apply] at h
    split at h
    · cases h
    · rename_i t hupd
      obtain rfl := Except.ok.inj h
      rw [upsertFts_projection, (IndexedTable.update?_eq_some_iff.mp hupd).2]
      refine ⟨_, Table.mem_update.mpr ⟨r, hr, rfl⟩, ?_, ?_⟩
      · split <;> exact hs
      · split <;> rfl
  | touched id updatedAt =>
    cases updatedAt with
    | none =>
      obtain rfl := Except.ok.inj h
      exact ⟨r, hr, hs, rfl⟩
    | some ts =>
      obtain rfl := Except.ok.inj h
      refine ⟨if decide (r.id = id) then setUpdatedAt ts r else r, ?_, ?_, ?_⟩
      · rw [IndexedTable.mem_patch]
        exact ⟨r, hr, rfl⟩
      · split <;> exact hs
      · split <;> rfl
  | statusChanged id status ts =>
    obtain rfl := Except.ok.inj h
    refine ⟨if decide (r.id = id) then setStatus status ts r else r, ?_, ?_, ?_⟩
    · rw [IndexedTable.mem_patch]
      exact ⟨r, hr, rfl⟩
    · split
      · rename_i hid
        by_contra hne
        exact he (.inr ⟨status, ts, by rw [of_decide_eq_true hid], hne⟩)
      · exact hs
    · split <;> rfl
  | deleted id =>
    obtain rfl := Except.ok.inj h
    refine ⟨r, Table.mem_delete.mpr ⟨hr, ?_⟩, hs, rfl⟩
    have hid : r.id ≠ id := fun hid => he (.inl (by rw [hid]))
    simpa using hid
  | other =>
    obtain rfl := Except.ok.inj h
    exact ⟨r, hr, hs, rfl⟩

end Apply

theorem keeps_of_spares {k : Lex (Int × String)} {db db' : CatalogDb} (h : Spares k db db') :
    KeepsUpTo place k (onSale db) (onSale db') := by
  obtain ⟨ev, hev, hspares⟩ := h
  rw [ProductEvent.handle_eq] at hev
  intro r hr hle
  obtain ⟨hrow, hs⟩ := mem_onSale.mp hr
  obtain ⟨r', hr', hs', hplace⟩ := stays_of_apply hev hrow hs (hspares r hr hle)
  exact ⟨r', mem_onSale.mpr ⟨hr', hs'⟩, hplace⟩

theorem keeps_of_deliveries {k : Lex (Int × String)} {db db' : CatalogDb}
    (h : Relation.ReflTransGen (Spares k) db db') : KeepsUpTo place k (onSale db) (onSale db') := by
  induction h with
  | refl => exact .refl
  | tail _ hstep ih => exact ih.trans (keeps_of_spares hstep)

end Deliveries

section Covers
variable (env : SearchEnv) (baseUrl : String) {dbs : Nat → CatalogDb}

theorem of_mem_pageAt {k : Nat} {r : ProjectionRow} (h : r ∈ pageAt dbs k) :
    r ∈ (dbs (2 * k + 1)).projection.rows ∧ r.status = "published" := by
  rw [pageAt] at h
  split at h
  · cases h
  · exact mem_onSale.mp (List.mem_of_mem_drop (List.mem_of_mem_take h))

/-- A product that is kept is on a page up to the last one, or the last page ends before it. -/
theorem page_or_between {r : ProjectionRow} (hr : r ∈ onSale (dbs 0)) {last : Nat}
    (hlast : Last dbs last)
    (hkeeps : ∀ i ≤ 2 * last, KeepsUpTo place (place r) (onSale (dbs i)) (onSale (dbs (i + 1)))) :
    (∃ k ≤ last, ∃ r' ∈ pageAt dbs k, place r' = place r) ∨
      (onSale (dbs (2 * last))).length ≤ (last + 1) * 100 ∧
        (last + 1) * 100 < (onSale (dbs (2 * last + 1))).length := by
  have hthere : ∀ i ≤ 2 * last + 1, ∃ r' ∈ onSale (dbs i), place r' = place r := by
    intro i
    induction i with
    | zero => exact fun _ => ⟨r, hr, rfl⟩
    | succ i ih =>
      intro hi
      obtain ⟨r', hr', hplace⟩ := ih (by omega)
      obtain ⟨r'', hr'', hplace'⟩ := hkeeps i (by omega) r' hr' hplace.le
      exact ⟨r'', hr'', hplace'.trans hplace⟩
  have hcounted : ∀ k ≤ last, onSale (dbs (2 * k)) ≠ [] := by
    intro k hk hnone
    obtain ⟨r', hr', _⟩ := hthere (2 * k) (by omega)
    rw [hnone] at hr'
    cases hr'
  have hpages : ∀ k ≤ last, pageAt dbs k = slice (onSale (dbs (2 * k + 1))) (k * 100) 100 :=
    fun k hk => if_neg (hcounted k hk)
  have hselected : ∀ k < last, KeepsUpTo place (place r) (onSale (dbs (2 * k + 1)))
      (onSale (dbs (2 * (k + 1) + 1))) := fun k hk =>
    (hkeeps (2 * k + 1) (by omega)).trans (hkeeps (2 * (k + 1)) (by omega))
  rcases exists_slice_or_behind (fun k => onSale (dbs (2 * k + 1))) 100
    (fun k => sorted_onSale _) (hthere 1 (by omega)) last hselected with
    ⟨k, hk, r', hr', hplace⟩ | ⟨r', hr', hplace, hbehind⟩
  · exact .inl ⟨k, hk, r', hpages k hk ▸ hr', hplace⟩
  · refine .inr ?_
    have hlength := ahead_lt_length (sorted_onSale _) hr'
    rw [hplace] at hlength
    have hmore := lt_of_le_of_lt hbehind hlength
    refine ⟨hlast.resolve_left fun hempty => ?_, hmore⟩
    -- a last page that is empty has nothing behind it
    rw [hpages last le_rfl, slice, List.take_eq_nil_iff, List.drop_eq_nil_iff] at hempty
    have hshort := hempty.resolve_left (by decide)
    omega

/-- Each statement finds what the relay has delivered so far. The loop ends, and lists nothing
that was not on sale when its page was read. A product on sale at the start is listed as long as
neither it nor a product before it is taken off sale, unless so many come in between the two
statements of the last page that there would have been another one. -/
theorem productPathsOver_covers {n : Nat} (hcount : ∀ i, (onSale (dbs i)).length ≤ n)
    (hfits : n + 100 < 2 ^ 32) :
    ∃ last paths,
      productPathsOver env baseUrl dbs (n / 100 + 1) 0 [] 0 = some (.ok paths) ∧
      (∀ url ∈ paths, ∃ k ≤ last, ∃ r ∈ (dbs (2 * k + 1)).projection.rows,
        r.status = "published" ∧ url = productUrl baseUrl r.slug) ∧
      ∀ r ∈ (dbs 0).projection.rows, r.status = "published" →
        (∀ i ≤ 2 * last, Relation.ReflTransGen (Spares (place r)) (dbs i) (dbs (i + 1))) →
        (∃ k ≤ last, ∃ r' ∈ (dbs (2 * k + 1)).projection.rows, r'.status = "published" ∧
          r'.id = r.id ∧ productUrl baseUrl r'.slug ∈ paths) ∨
        (onSale (dbs (2 * last))).length ≤ (last + 1) * 100 ∧
          (last + 1) * 100 < (onSale (dbs (2 * last + 1))).length := by
  have hfirst : (0 : UInt32).toNat = 0 * 100 := rfl
  obtain ⟨last, _, hlast, hpaths⟩ :=
    productPathsOver_eq env baseUrl hcount (n / 100) [] hfirst (by omega) (by omega)
  rw [Nat.sub_zero, List.nil_append, ← List.range_eq_range'] at hpaths
  refine ⟨last, _, hpaths, ?_, ?_⟩
  · intro url hurl
    obtain ⟨k, hk, hpage⟩ := List.mem_flatMap.mp hurl
    obtain ⟨r, hr, rfl⟩ := List.mem_map.mp hpage
    obtain ⟨hrow, hs⟩ := of_mem_pageAt hr
    exact ⟨k, Nat.lt_succ_iff.mp (List.mem_range.mp hk), r, hrow, hs, rfl⟩
  · intro r hr hs hspares
    refine (page_or_between (mem_onSale.mpr ⟨hr, hs⟩) hlast fun i hi =>
      keeps_of_deliveries (hspares i hi)).imp_left ?_
    rintro ⟨k, hk, r', hr', hplace⟩
    obtain ⟨hrow, hs'⟩ := of_mem_pageAt hr'
    have hid : r'.id = r.id := congrArg (fun p => (ofLex p).2) hplace
    refine ⟨k, hk, r', hrow, hs', hid, List.mem_flatMap.mpr ⟨k, ?_, List.mem_map_of_mem hr'⟩⟩
    exact List.mem_range.mpr (Nat.lt_succ_iff.mpr hk)

/-- The draft is published after the products were counted. -/
def shirtsPublished : Nat → CatalogDb
  | 0 => SearchMeaning.clothes
  | _ + 1 => { SearchMeaning.clothes with
    projection := SearchMeaning.clothes.projection.patch (fun r => r.id = "shirt-2")
      (CatalogProjection.setStatus "published" 1) }

theorem shirtsPublished_count (i : Nat) : (onSale (shirtsPublished i)).length ≤ 3 := by
  rw [length_onSale]
  cases i with
  | zero => decide
  | succ i => exact List.length_filter_le _ _

theorem productPathsOver_covers_shirts :
    ∃ last paths,
      productPathsOver SearchMeaning.noText "http://shop" shirtsPublished (3 / 100 + 1) 0 [] 0 =
        some (.ok paths) ∧
      (∀ url ∈ paths, ∃ k ≤ last, ∃ r ∈ (shirtsPublished (2 * k + 1)).projection.rows,
        r.status = "published" ∧ url = productUrl "http://shop" r.slug) ∧
      ∀ r ∈ (shirtsPublished 0).projection.rows, r.status = "published" →
        (∀ i ≤ 2 * last, Relation.ReflTransGen (Spares (place r)) (shirtsPublished i)
          (shirtsPublished (i + 1))) →
        (∃ k ≤ last, ∃ r' ∈ (shirtsPublished (2 * k + 1)).projection.rows,
          r'.status = "published" ∧ r'.id = r.id ∧ productUrl "http://shop" r'.slug ∈ paths) ∨
        (onSale (shirtsPublished (2 * last))).length ≤ (last + 1) * 100 ∧
          (last + 1) * 100 < (onSale (shirtsPublished (2 * last + 1))).length :=
  productPathsOver_covers SearchMeaning.noText "http://shop" shirtsPublished_count (by decide)

end Covers

end Sitemap

end TinyShop
