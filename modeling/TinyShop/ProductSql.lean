import TinyShop.Base.Statement
import TinyShop.Base.Ties
import TinyShop.ProductReads
import TinyShop.SearchSql

/-!
# The statement behind the readers of a product

`product_select_with_translations` of `crates/product/src/repository.rs` is one text for
three readers. It joins `translations` twice, and its placeholders are filled by position;
the number of the rows comes from a statement of its own.
-/

namespace TinyShop

open Base Prepared
set_option autoImplicit false

namespace ProductSql

open ProductRepo (ProductRow productFromRow translated)
open SearchSql (SqlValue limitOf)

abbrev Piece (α : Type) := Prepared SqlValue α

/-- The text that a placeholder stands for; no text equals another value. -/
def text (v : Option SqlValue) : Option String := v.bind SqlValue.text?

/-- `t.entity_type = ? AND t.entity_id = p.id AND t.lang = ? AND t.field = ?`. -/
def onTranslation : Piece (Product → Translation → Bool) := do
  let entityType ← arg
  let lang ← arg
  let field ← arg
  return fun p t => text entityType = some t.entityType && t.entityId = p.id &&
    text lang = some t.lang.asStr && text field = some t.field

/-- A row of `products p LEFT JOIN translations tt … LEFT JOIN translations td …`. -/
abbrev JoinedRow := (Product × Option Translation) × Option Translation

def JoinedRow.p (r : JoinedRow) : Product := r.1.1

/-- The columns after `SELECT`. -/
def JoinedRow.columns (r : JoinedRow) : ProductRow where
  id := r.p.id
  sellerId := r.p.sellerId
  title := (r.1.2.map Translation.value).getD r.p.title
  slug := r.p.slug
  description := (r.2.map Translation.value).getD r.p.description
  priceMinor := r.p.priceMinor
  currency := r.p.currency
  status := r.p.status.asStr
  createdAt := r.p.createdAt
  updatedAt := r.p.updatedAt

/-- `p.id = ?`. -/
def whereId : Piece (Product → Bool) := do
  let id ← arg
  return fun p => text id = some p.id

/-- `p.seller_id = ? AND p.slug = ?`. -/
def whereSlug : Piece (Product → Bool) := do
  let sellerId ← arg
  let slug ← arg
  return fun p => text sellerId = some p.sellerId && text slug = some p.slug

/-- `p.seller_id = ? AND p.status = ?`, or `p.seller_id = ?`. -/
def whereSeller : Option ProductStatus → Piece (Product → Bool)
  | some _ => do
    let sellerId ← arg
    let status ← arg
    return fun p => text sellerId = some p.sellerId && text status = some p.status.asStr
  | none => do
    let sellerId ← arg
    return fun p => text sellerId = some p.sellerId

/-- `ORDER BY p.id ASC`. -/
abbrev ById := Sorter fun r : JoinedRow => r.p.id

/-- `ORDER BY p.updated_at DESC, p.id ASC`. -/
abbrev NewestFirst := Sorter fun r : JoinedRow => toLex (-r.p.updatedAt.toInt, r.p.id)

/-- The values bound to the placeholders of the two joins. -/
def translationArgs (lang : Lang) : List SqlValue :=
  [.text "product", .text lang.asStr, .text "title",
    .text "product", .text lang.asStr, .text "description"]

def fetchOptional (rows : List JoinedRow) : Except ProductError (Option Product) :=
  match rows.head? with
  | none => .ok none
  | some r => some <$> productFromRow r.columns

section Readers
variable (db : ProductDb)

def productSelectWithTranslations {β : Type} [LinearOrder β] {key : JoinedRow → β}
    (whereClause : Piece (Product → Bool)) (orderBy : Sorter key) : Piece (List JoinedRow) := do
  let onTitle ← onTranslation
  let onDescription ← onTranslation
  let cond ← whereClause
  let rows := leftJoin (leftJoin db.products.rows db.translations.rows onTitle)
    db.translations.rows fun r t => onDescription r.1 t
  return orderBy.sort (rows.filter fun r => cond r.p)

def getProduct (orderBy : ById) (id : String) (lang : Lang) : Except ProductError (Option Product) :=
  fetchOptional ((productSelectWithTranslations db whereId orderBy).execute
    (translationArgs lang ++ [.text id]))

def getProductBySlug (orderBy : ById) (sellerId slug : String) (lang : Lang) :
    Except ProductError (Option Product) :=
  fetchOptional ((productSelectWithTranslations db whereSlug orderBy).execute
    (translationArgs lang ++ [.text sellerId, .text slug]))

/-- The `SELECT` with ` LIMIT ? OFFSET ?` behind it. -/
def selectPage (orderBy : NewestFirst) (status : Option ProductStatus) : Piece (List JoinedRow) := do
  let rows ← productSelectWithTranslations db (whereSeller status) orderBy
  let limit ← arg
  let offset ← arg
  return slice rows (limitOf offset) (limitOf limit)

/-- `SELECT COUNT(*) AS total FROM products p WHERE …`. -/
def countRows (whereClause : Piece (Product → Bool)) : Piece Int64 := do
  let cond ← whereClause
  return Int64.ofNat (db.products.rows.filter cond).length

def listProductsBySeller (orderBy : NewestFirst) (sellerId : String)
    (status : Option ProductStatus) (page : Pagination) (lang : Lang) :
    Except ProductError (Page Product) := do
  let statusStr := status.toList.map fun s => SqlValue.text s.asStr
  let rows := (selectPage db orderBy status).execute (translationArgs lang ++
    ([.text sellerId] ++ statusStr) ++ [.integer page.limit.toNat, .integer page.offset.toNat])
  let items ← rows.mapM fun r => productFromRow r.columns
  let total := (countRows db (whereSeller status)).execute ([.text sellerId] ++ statusStr)
  return ⟨items, total.toUInt64, page⟩

end Readers

/-! ## What is asked for -/

/-- The product in a language: its title and its description may be translated. -/
def resolved (db : ProductDb) (lang : Lang) (p : Product) : Product :=
  { p with
    title := translated db lang "product" p.id "title" p.title
    description := translated db lang "product" p.id "description" p.description }

/-- The products of a seller, with a status if one is given. -/
def sellerProducts (db : ProductDb) (sellerId : String) (status : Option ProductStatus) :
    List Product :=
  db.products.rows.filter fun p => p.sellerId = sellerId && status.all fun s => p.status = s

def byNewest (p q : Product) : Prop :=
  q.updatedAt < p.updatedAt ∨ p.updatedAt = q.updatedAt ∧ p.id < q.id

/-! ## The arguments reach their places -/

section Pieces

/-- The key under which a text of a product is translated. -/
def translationKey (lang : Lang) (field : String) (p : Product) : String × String × Lang × String :=
  ("product", p.id, lang, field)

theorem decide_text (s t : String) :
    decide (text (some (.text s)) = some t) = decide (t = s) := by
  rw [decide_eq_decide]
  exact Option.some_inj.trans eq_comm

theorem takes_onTranslation (lang : Lang) (field : String) :
    Takes onTranslation [.text "product", .text lang.asStr, .text field] fun p t =>
      decide ((t.entityType, t.entityId, t.lang, t.field) = translationKey lang field p) := by
  intro rest
  refine Prod.ext (funext fun p => funext fun t => ?_) rfl
  change (decide (text (some (.text "product")) = some t.entityType) && decide (t.entityId = p.id) &&
    decide (text (some (.text lang.asStr)) = some t.lang.asStr) &&
    decide (text (some (.text field)) = some t.field)) = _
  simp only [decide_text, Lang.asStr_inj, translationKey, Prod.mk.injEq, Bool.decide_and,
    Bool.and_assoc]

theorem takes_whereId (id : String) :
    Takes whereId [.text id] fun p => decide (p.id = id) := by
  intro rest
  refine Prod.ext (funext fun p => ?_) rfl
  exact decide_text id p.id

theorem takes_whereSlug (sellerId slug : String) :
    Takes whereSlug [.text sellerId, .text slug] fun p =>
      decide ((p.sellerId, p.slug) = (sellerId, slug)) := by
  intro rest
  refine Prod.ext (funext fun p => ?_) rfl
  change (decide (text (some (.text sellerId)) = some p.sellerId) &&
    decide (text (some (.text slug)) = some p.slug)) = _
  simp only [decide_text, Prod.mk.injEq, Bool.decide_and]

theorem takes_whereSeller (sellerId : String) (status : Option ProductStatus) :
    Takes (whereSeller status)
      ([SqlValue.text sellerId] ++ status.toList.map fun s => SqlValue.text s.asStr)
      fun p => decide (p.sellerId = sellerId) && status.all fun s => p.status = s := by
  intro rest
  refine Prod.ext (funext fun p => ?_) ?_
  · cases status with
    | none =>
      change decide (text (some (.text sellerId)) = some p.sellerId) = _
      simp only [decide_text, Option.all_none, Bool.and_true]
    | some s =>
      change (decide (text (some (.text sellerId)) = some p.sellerId) &&
        decide (text (some (.text s.asStr)) = some p.status.asStr)) = _
      simp only [decide_text, ProductStatus.asStr_inj, Option.all_some]
  · cases status <;> rfl

variable (db : ProductDb)

/-- A product with its translations beside it. -/
def joined (lang : Lang) (p : Product) : JoinedRow :=
  ((p, db.translations.find? (translationKey lang "title" p)),
    db.translations.find? (translationKey lang "description" p))

/-- The key of a translation is unique, so no product comes twice. -/
theorem leftJoin_translations (lang : Lang) :
    (leftJoin (leftJoin db.products.rows db.translations.rows fun p t =>
        decide ((t.entityType, t.entityId, t.lang, t.field) = translationKey lang "title" p))
      db.translations.rows fun r t => decide
        ((t.entityType, t.entityId, t.lang, t.field) = translationKey lang "description" r.1)) =
      db.products.rows.map (joined db lang) := by
  have hpartner := fun (field : String) (p : Product) =>
    db.translations.filter_key (translationKey lang field p)
  rw [leftJoin_eq_map fun p _ => hpartner "title" p,
    leftJoin_eq_map fun r _ => hpartner "description" r.1, List.map_map]
  rfl

theorem productFromRow_joined (lang : Lang) (p : Product) :
    productFromRow (joined db lang p).columns = .ok (resolved db lang p) := by
  rw [productFromRow, JoinedRow.columns, ProductStatus.parse_asStr]
  rfl

theorem takes_select {β : Type} [LinearOrder β] {key : JoinedRow → β} (orderBy : Sorter key)
    {whereClause : Piece (Product → Bool)} {args : List SqlValue} {cond : Product → Bool}
    (hwhere : Takes whereClause args cond) (lang : Lang) :
    Takes (productSelectWithTranslations db whereClause orderBy) (translationArgs lang ++ args)
      (orderBy.sort ((db.products.rows.filter cond).map (joined db lang))) := by
  have hargs : translationArgs lang ++ args =
      [SqlValue.text "product", SqlValue.text lang.asStr, SqlValue.text "title"] ++
        ([SqlValue.text "product", SqlValue.text lang.asStr, SqlValue.text "description"] ++
          (args ++ [])) := by
    rw [List.append_nil]
    rfl
  have hrows : (db.products.rows.map (joined db lang)).filter (fun r => cond r.p) =
      (db.products.rows.filter cond).map (joined db lang) := List.filter_map
  rw [hargs, ← hrows, ← leftJoin_translations]
  refine (takes_onTranslation lang "title").bind ?_
  refine (takes_onTranslation lang "description").bind ?_
  exact hwhere.bind (takes_pure _)

end Pieces

section Answers
variable {db : ProductDb}

theorem fetchOptional_sort {β : Type} [LinearOrder β] {key : JoinedRow → β} (orderBy : Sorter key)
    (lang : Lang) (found : Option Product) :
    fetchOptional (orderBy.sort (found.toList.map (joined db lang))) =
      .ok (found.map (resolved db lang)) := by
  obtain ⟨sorted, hperm, hsort, -⟩ := orderBy.exists_sorted (joined db lang) found.toList
  rw [hsort]
  cases found with
  | none =>
    rw [List.Perm.eq_nil hperm]
    rfl
  | some p =>
    rw [List.perm_singleton.mp hperm]
    change some <$> productFromRow (joined db lang p).columns = _
    rw [productFromRow_joined]
    rfl

theorem getProduct_eq (orderBy : ById) (id : String) (lang : Lang) :
    getProduct db orderBy id lang = .ok ((db.products.find? id).map (resolved db lang)) := by
  rw [getProduct, (takes_select db orderBy (takes_whereId id) lang).execute,
    db.products.filter_key id, fetchOptional_sort]

theorem getProductBySlug_eq (orderBy : ById) (sellerId slug : String) (lang : Lang) :
    getProductBySlug db orderBy sellerId slug lang =
      .ok ((db.products.byIndex.find? (sellerId, slug)).map (resolved db lang)) := by
  have hrows := db.products.byIndex.filter_key (sellerId, slug)
  change db.products.rows.filter _ = _ at hrows
  rw [getProductBySlug, (takes_select db orderBy (takes_whereSlug sellerId slug) lang).execute,
    hrows, fetchOptional_sort]

/-- The reader of one product that writes no statement. -/
theorem getProduct_eq_reads (orderBy : ById) (id : String) (lang : Lang) :
    getProduct db orderBy id lang = ProductRepo.getProduct db lang id := by
  rw [getProduct_eq, ProductRepo.getProduct, db.products.filter_key id]
  cases db.products.find? id with
  | none => rfl
  | some p =>
    change _ = some <$> productFromRow (joined db lang p).columns
    rw [productFromRow_joined]
    rfl

theorem toNat_count {n : Nat} (hn : n < 2 ^ 64) : (Int64.ofNat n).toUInt64.toNat = n :=
  UInt64.toNat_ofNat_of_lt' hn

/-- The order of the list leaves nothing open, for no two products share an id. -/
theorem pairwise_byNewest {sorted : List Product} (hdistinct : (sorted.map Product.id).Nodup)
    (hsorted : sorted.Pairwise fun p q =>
      toLex (-p.updatedAt.toInt, p.id) ≤ toLex (-q.updatedAt.toInt, q.id)) :
    sorted.Pairwise byNewest := by
  rw [List.Nodup, List.pairwise_map] at hdistinct
  refine (hsorted.and hdistinct).imp ?_
  rintro p q ⟨hle, hne⟩
  rcases Prod.Lex.le_iff.mp hle with hlt | ⟨heq, hid⟩
  · exact .inl (Int64.lt_iff_toInt_lt.mpr (neg_lt_neg_iff.mp hlt))
  · exact .inr ⟨Int64.toInt_inj.mp (neg_inj.mp heq), lt_of_le_of_ne hid hne⟩

variable (db) in
theorem listProductsBySeller_eq (orderBy : NewestFirst) (sellerId : String)
    (status : Option ProductStatus) (page : Pagination) (lang : Lang) :
    ∃ products : List Product, products.Perm (sellerProducts db sellerId status) ∧
      products.Pairwise byNewest ∧
      listProductsBySeller db orderBy sellerId status page lang = .ok
        ⟨(slice products page.offset.toNat page.limit.toNat).map (resolved db lang),
          (Int64.ofNat (sellerProducts db sellerId status).length).toUInt64, page⟩ := by
  have hwhere := takes_whereSeller sellerId status
  obtain ⟨products, hperm, hsort, hsorted⟩ :=
    orderBy.exists_sorted (joined db lang) (sellerProducts db sellerId status)
  have hdistinct : (products.map Product.id).Nodup := by
    refine (hperm.map Product.id).nodup_iff.mpr ?_
    exact db.products.unique.sublist (List.Sublist.map Product.id List.filter_sublist)
  refine ⟨products, hperm, pairwise_byNewest hdistinct hsorted, ?_⟩
  have hselect : Takes (selectPage db orderBy status)
      (translationArgs lang ++
        ([SqlValue.text sellerId] ++ status.toList.map fun s => SqlValue.text s.asStr) ++
        [SqlValue.integer page.limit.toNat, SqlValue.integer page.offset.toNat])
      (slice (products.map (joined db lang)) page.offset.toNat page.limit.toNat) := by
    rw [← hsort]
    exact (takes_select db orderBy hwhere lang).bind fun rest => rfl
  have hcount : Takes (countRows db (whereSeller status))
      ([SqlValue.text sellerId] ++ status.toList.map fun s => SqlValue.text s.asStr)
      (Int64.ofNat (sellerProducts db sellerId status).length) := by
    rw [← List.append_nil ([SqlValue.text sellerId] ++ _)]
    exact hwhere.bind (takes_pure _)
  have hslice : slice (products.map (joined db lang)) page.offset.toNat page.limit.toNat =
      (slice products page.offset.toNat page.limit.toNat).map (joined db lang) := by
    rw [slice, slice, List.map_take, List.map_drop]
  rw [listProductsBySeller, hselect.execute, hcount.execute, hslice,
    mapM_ok (g := fun r => resolved db lang r.p) ?_, List.map_map]
  · rfl
  · intro r hr
    obtain ⟨p, _, rfl⟩ := List.mem_map.mp hr
    exact productFromRow_joined db lang p

/-- A seller's list is the slice of the seller's products that was asked for, newest first and
each of them once, in the language asked for and with their number; the readers of one product
resolve it in the same way. That a table has fewer than 2^64 rows is a limit of SQLite. -/
theorem readers_resolve (db : ProductDb) (hrows : db.products.rows.length < 2 ^ 64) (lang : Lang) :
    (∀ (orderBy : NewestFirst) (sellerId : String) (status : Option ProductStatus)
      (page : Pagination), ∃ (products : List Product) (total : UInt64),
        products.Perm (sellerProducts db sellerId status) ∧ products.Pairwise byNewest ∧
          total.toNat = (sellerProducts db sellerId status).length ∧
          listProductsBySeller db orderBy sellerId status page lang = .ok
            ⟨(slice products page.offset.toNat page.limit.toNat).map (resolved db lang), total,
              page⟩) ∧
      (∀ (orderBy : ById) (id : String),
        getProduct db orderBy id lang = .ok ((db.products.find? id).map (resolved db lang))) ∧
      ∀ (orderBy : ById) (sellerId slug : String),
        getProductBySlug db orderBy sellerId slug lang =
          .ok ((db.products.byIndex.find? (sellerId, slug)).map (resolved db lang)) := by
  refine ⟨?_, fun orderBy id => getProduct_eq orderBy id lang,
    fun orderBy sellerId slug => getProductBySlug_eq orderBy sellerId slug lang⟩
  intro orderBy sellerId status page
  obtain ⟨products, hperm, hnewest, hlist⟩ :=
    listProductsBySeller_eq db orderBy sellerId status page lang
  refine ⟨products, _, hperm, hnewest, toNat_count ?_, hlist⟩
  exact lt_of_le_of_lt (List.length_filter_le _ _) hrows

end Answers

/-- Two products of one seller, of which one has a Russian title. -/
def translatedShop : ProductDb :=
  { ProductDb.empty with
    products := ⟨⟨[⟨"p1", "s1", "Лампа", "lampa", "LED", 500, "UAH", .published, 10, 20⟩,
      ⟨"p2", "s1", "Стілець", "stilets", "", 900, "UAH", .draft, 11, 20⟩], by decide⟩, by decide⟩
    translations := ⟨[⟨"product", "p2", .ru, "title", "Стул"⟩], by decide⟩ }

theorem readers_resolve_translatedShop :
    (∀ orderBy : NewestFirst, ∃ (products : List Product) (total : UInt64),
      products.Perm translatedShop.products.rows ∧ products.Pairwise byNewest ∧ total.toNat = 2 ∧
        listProductsBySeller translatedShop orderBy "s1" none ⟨1, 5⟩ .ru = .ok
          ⟨(slice products 1 5).map (resolved translatedShop .ru), total, ⟨1, 5⟩⟩) ∧
      ∀ orderBy : ById, getProduct translatedShop orderBy "p2" .ru =
        .ok (some ⟨"p2", "s1", "Стул", "stilets", "", 900, "UAH", .draft, 11, 20⟩) :=
  have hresolve := readers_resolve translatedShop (by decide) .ru
  ⟨fun orderBy => hresolve.1 orderBy "s1" none ⟨1, 5⟩, fun orderBy => hresolve.2.1 orderBy "p2"⟩

end ProductSql

end TinyShop
