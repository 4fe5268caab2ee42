import TinyShop.Catalog
import TinyShop.Outbox
import TinyShop.Text

/-!
# Searching the catalog

`SqliteCatalogSearch` of `crates/catalog/src/search.rs`. Two things are not in the
repository and stay parameters: the Unicode table behind `char::is_alphanumeric`
and the matching of FTS5.
-/

namespace TinyShop

open Base
set_option autoImplicit false

/-- `a <= b` of SQLite for numbers; a bound `NaN` is `NULL`, so nothing compares with it. -/
def F64.le : F64 → F64 → Bool
  | .nan, _ => false
  | _, .nan => false
  | .inf true, _ => true
  | _, .inf false => true
  | .inf false, _ => false
  | _, .inf true => false
  | .fin a, .fin b => a ≤ b

inductive FilterCond where
  | checkboxOr (attributeId : String) (values : List String)
  | enumAnd (attributeId : String) (values : List String)
  | number (attributeId : String) (value : F64)
  | rangeGeneric (attributeId : String) (min max : Option F64)
  | rangePrice (minMinor maxMinor : Option Int64)

inductive SortBy where
  | relevance
  | priceAsc
  | priceDesc
  | newest
deriving DecidableEq, Repr

structure SearchQuery where
  text : Option String
  categoryId : Option String
  filters : List FilterCond
  sort : SortBy
  page : Pagination

structure ProductCard where
  productId : String
  title : String
  slug : String
  priceMinor : Int64
  currency : String
  thumb : Option String
deriving DecidableEq, Repr

structure ProductView where
  id : String
  sellerId : String
  title : String
  slug : String
  description : String
  priceMinor : Int64
  currency : String
  status : String
  categoryId : Option String
  thumb : Option String
deriving DecidableEq, Repr

structure ProductDoc where
  productId : String
  categoryId : String
  title : String
  description : String
  priceMinor : Int64
  currency : String
  slug : String
  attrsText : String

structure SearchResult where
  items : List ProductCard
  total : UInt64

structure SearchError where
  backend : String
deriving DecidableEq, Repr

def SearchError.toString (e : SearchError) : String := "search backend error: " ++ e.backend

structure SearchEnv where
  isAlphanumeric : Char → Bool
  ftsMatch : List FtsRow → String → Except SearchError (List String)

namespace SqliteCatalogSearch

def mapViewRow (r : ProjectionRow) : ProductView where
  id := r.id
  sellerId := r.sellerId
  title := r.title
  slug := r.slug
  description := r.description
  priceMinor := r.priceMinor
  currency := r.currency
  status := r.status
  categoryId := r.categoryId
  thumb := r.thumb

def mapCardRow (r : ProjectionRow) : ProductCard where
  productId := r.id
  title := r.title
  slug := r.slug
  priceMinor := r.priceMinor
  currency := r.currency
  thumb := r.thumb

def getCardBySlug (db : CatalogDb) (slug : String) : Option ProductView :=
  (db.projection.rows.find? fun r => r.slug = slug ∧ r.status = "published").map mapViewRow

def getCardById (db : CatalogDb) (productId : String) : Option ProductView :=
  (db.projection.rows.find? fun r => r.id = productId ∧ r.status = "published").map mapViewRow

def be (e : SqlxError) : SearchError := ⟨e.toString⟩

section Write
variable (db : CatalogDb)

def deleteFtsTx (productId : String) : CatalogDb :=
  { db with fts := db.fts.filter fun r => r.productId ≠ productId }

/-- The row of a product that is not in the projection yet. -/
def newRow (doc : ProductDoc) : ProjectionRow where
  id := doc.productId
  sellerId := ""
  title := doc.title
  slug := doc.slug
  description := doc.description
  priceMinor := doc.priceMinor
  currency := doc.currency
  status := "published"
  categoryId := some doc.categoryId
  thumb := none
  createdAt := 0
  updatedAt := 0

/-- The columns that `ON CONFLICT(id) DO UPDATE` writes. -/
def setDoc (doc : ProductDoc) (old : ProjectionRow) : ProjectionRow :=
  { old with
    title := doc.title, slug := doc.slug, description := doc.description
    priceMinor := doc.priceMinor, currency := doc.currency
    categoryId := if doc.categoryId ≠ "" then some doc.categoryId else old.categoryId }

def upsertRow (doc : ProductDoc) : Option ProjectionTable :=
  if db.projection.find? doc.productId = none then db.projection.insert? (newRow doc)
  else db.projection.update? doc.productId (setDoc doc)

/-- The attributes of the full-text row are those of the document, not of the index. -/
def upsert (doc : ProductDoc) : Except SearchError CatalogDb :=
  match upsertRow db doc with
  | none => .error (be (.unique "product_projection.slug"))
  | some projection =>
    let db := deleteFtsTx { db with projection } doc.productId
    .ok { db with fts := db.fts ++ [⟨doc.productId, doc.title, doc.description, doc.attrsText⟩] }

def remove (productId : String) : Except SearchError CatalogDb :=
  let db := deleteFtsTx
    { db with attrIndex := db.attrIndex.delete fun a => a.productId = productId } productId
  .ok { db with projection := db.projection.delete fun r => r.id = productId }

end Write

def buildFtsQuery (env : SearchEnv) (raw : String) : String :=
  let clean := (Text.splitWhitespace raw.toList []).map fun word =>
    word.filter fun c => env.isAlphanumeric c || c = '-' || c = '_'
  " ".intercalate ((clean.filter fun word => !word.isEmpty).map fun word =>
    String.ofList word ++ "*")

section Search
variable (db : CatalogDb)

def pushFilterCond (pp : ProjectionRow) : FilterCond → Bool
  | .rangePrice minMinor maxMinor =>
    minMinor.all (fun min => min ≤ pp.priceMinor) && maxMinor.all fun max => pp.priceMinor ≤ max
  | .checkboxOr attributeId values =>
    values.isEmpty || db.attrIndex.rows.any fun a =>
      a.productId = pp.id && a.attributeId = attributeId && a.valText.any (· ∈ values)
  | .enumAnd attributeId values =>
    values.isEmpty || ((db.attrIndex.rows.filterMap fun a =>
      if a.productId = pp.id ∧ a.attributeId = attributeId then a.valText.filter (· ∈ values)
      else none).dedup.length == values.length)
  | .number attributeId value =>
    db.attrIndex.rows.any fun a =>
      a.productId = pp.id && a.attributeId = attributeId &&
        a.valNum.any fun n => n.le value && value.le n
  | .rangeGeneric attributeId min max =>
    db.attrIndex.rows.any fun a =>
      a.productId = pp.id && a.attributeId = attributeId &&
        min.all (fun mn => a.valNum.any fun n => mn.le n) &&
        max.all fun mx => a.valNum.any fun n => n.le mx

/-- The `WHERE` clause; `found` are the ids that the text matches, if there is a text. -/
def pushWhere (query : SearchQuery) (found : Option (List String)) (pp : ProjectionRow) : Bool :=
  pp.status = "published" && found.all (fun ids => pp.id ∈ ids) &&
    query.categoryId.all (fun cat =>
      db.attrIndex.rows.any fun a => a.productId = pp.id && a.categoryId = cat) &&
    query.filters.all fun f => pushFilterCond db pp f

def idLe (a b : ProjectionRow) : Bool := !(b.id < a.id)

/-- `ORDER BY`; the id decides between equal rows. -/
def orderLe : SortBy → ProjectionRow → ProjectionRow → Bool
  | .priceAsc, a, b => a.priceMinor < b.priceMinor || a.priceMinor = b.priceMinor && idLe a b
  | .priceDesc, a, b => b.priceMinor < a.priceMinor || a.priceMinor = b.priceMinor && idLe a b
  | .newest, a, b => b.createdAt < a.createdAt || a.createdAt = b.createdAt && idLe a b
  | .relevance, a, b => b.createdAt < a.createdAt || a.createdAt = b.createdAt && idLe a b

def search (env : SearchEnv) (query : SearchQuery) : Except SearchError SearchResult := do
  let limit := (Pagination.clampLimit query.page.limit).toNat
  let offset := query.page.offset.toNat
  let term := (query.text.map (buildFtsQuery env)).filter (· ≠ "")
  let found ← match term with
    | none => pure none
    | some term => some <$> env.ftsMatch db.fts term
  let rows := db.projection.rows.filter (pushWhere db query found)
  let total := UInt64.ofNat rows.length
  if total = 0 then return ⟨[], 0⟩
  else
    let sorted := rows.insertionSort fun a b => orderLe query.sort a b
    return ⟨((sorted.drop offset).take limit).map mapCardRow, total⟩

/-- The text of the full-text query, if anything of the text is left. -/
def ftsTerm (env : SearchEnv) (query : SearchQuery) : Option String :=
  (query.text.map (buildFtsQuery env)).filter (· ≠ "")

/-- The ids that the text matches, if there is a text. -/
def matchedIds (env : SearchEnv) : Option String → Except SearchError (Option (List String))
  | none => .ok none
  | some term => some <$> env.ftsMatch db.fts term

/-- The rows that a query asks for. -/
def found (query : SearchQuery) (ids : Option (List String)) : List ProjectionRow :=
  db.projection.rows.filter (pushWhere db query ids)

/-- The rows of one page. -/
def page (query : SearchQuery) (rows : List ProjectionRow) : List ProjectionRow :=
  ((rows.insertionSort fun a b => orderLe query.sort a b).drop query.page.offset.toNat).take
    (Pagination.clampLimit query.page.limit).toNat

def answer (query : SearchQuery) (rows : List ProjectionRow) : SearchResult :=
  if UInt64.ofNat rows.length = 0 then ⟨[], 0⟩
  else ⟨(page query rows).map mapCardRow, UInt64.ofNat rows.length⟩

theorem search_eq_answer (env : SearchEnv) (query : SearchQuery) :
    search db env query =
      (matchedIds db env (ftsTerm env query)).map fun ids => answer query (found db query ids) := by
  have hanswer : ∀ ids, (if UInt64.ofNat (found db query ids).length = 0 then
      pure ⟨[], 0⟩ else pure ⟨(page query (found db query ids)).map mapCardRow,
        UInt64.ofNat (found db query ids).length⟩ : Except SearchError SearchResult) =
      .ok (answer query (found db query ids)) := by
    intro ids
    unfold answer
    split <;> rfl
  unfold search
  change (match ftsTerm env query with
    | none => _
    | some term => _) = _
  cases ftsTerm env query with
  | none => exact hanswer none
  | some term =>
    simp only [matchedIds]
    cases env.ftsMatch db.fts term with
    | error e => rfl
    | ok ids => exact hanswer (some ids)

theorem mem_search {env : SearchEnv} {query : SearchQuery} {result : SearchResult}
    (h : search db env query = .ok result) {card : ProductCard} (hc : card ∈ result.items) :
    ∃ r ∈ db.projection.rows, r.status = "published" ∧ mapCardRow r = card := by
  rw [search_eq_answer] at h
  cases hids : matchedIds db env (ftsTerm env query) with
  | error e =>
    rw [hids] at h
    cases h
  | ok ids =>
    rw [hids] at h
    obtain rfl := Except.ok.inj h
    simp only [answer] at hc
    split at hc
    · cases hc
    · obtain ⟨r, hr, rfl⟩ := List.mem_map.mp hc
      have hr := (List.mem_insertionSort _).mp (List.mem_of_mem_drop (List.mem_of_mem_take hr))
      obtain ⟨hmem, hwhere⟩ := List.mem_filter.mp hr
      refine ⟨r, hmem, ?_, rfl⟩
      simp only [pushWhere, Bool.and_eq_true, decide_eq_true_eq] at hwhere
      exact hwhere.1.1.1

theorem getCardById_some {productId : String} {view : ProductView}
    (h : getCardById db productId = some view) :
    ∃ r ∈ db.projection.rows, r.status = "published" ∧ r.id = productId ∧ mapViewRow r = view := by
  obtain ⟨r, hr, rfl⟩ := Option.map_eq_some_iff.mp h
  have hcond := List.find?_some hr
  simp only [decide_eq_true_eq] at hcond
  exact ⟨r, List.mem_of_find?_eq_some hr, hcond.2, hcond.1, rfl⟩

theorem getCardBySlug_some {slug : String} {view : ProductView}
    (h : getCardBySlug db slug = some view) :
    ∃ r ∈ db.projection.rows, r.status = "published" ∧ mapViewRow r = view := by
  obtain ⟨r, hr, rfl⟩ := Option.map_eq_some_iff.mp h
  have hcond := List.find?_some hr
  simp only [decide_eq_true_eq] at hcond
  exact ⟨r, List.mem_of_find?_eq_some hr, hcond.2, rfl⟩

theorem getCardById_of_mem {r : ProjectionRow} (hr : r ∈ db.projection.rows)
    (hs : r.status = "published") : getCardById db r.id = some (mapViewRow r) := by
  unfold getCardById
  cases hf : db.projection.rows.find? fun s => s.id = r.id ∧ s.status = "published" with
  | none =>
    have hno := List.find?_eq_none.mp hf r hr
    simp [hs] at hno
  | some s =>
    have hcond := List.find?_some hf
    simp only [decide_eq_true_eq] at hcond
    have hsame := List.inj_on_of_nodup_map db.projection.unique
      (List.mem_of_find?_eq_some hf) hr hcond.1
    rw [hsame, Option.map_some]

end Search

end SqliteCatalogSearch

end TinyShop
