import TinyShop.ProductSql
import TinyShop.TaxonomyReads

/-!
# The statements behind the readers of the taxonomy

Each reader of `TaxonomyRepo` in `crates/catalog/src/repository.rs` has a query of its own.
They all join the one table of translations, with the type and the field of the entity bound
by position, and `resolve_translation` looks up a single text there.
-/

namespace TinyShop

open Base Prepared
set_option autoImplicit false

namespace TaxonomySql

open ProductSql (Piece text decide_text)
open SearchSql (SqlValue)

section Pieces
variable {α ρ : Type}

/-- `t.entity_type = ? AND t.entity_id = c.id AND t.lang = ? AND t.field = ?`. -/
def onTranslation (id : α → String) : Piece (α → Translation → Bool) := do
  let entityType ← arg
  let lang ← arg
  let field ← arg
  return fun a t => text entityType = some t.entityType && t.entityId = id a &&
    text lang = some t.lang.asStr && text field = some t.field

/-- `column = ?`; nothing equals `NULL`. -/
def equals (column : α → Option String) : Piece (α → Bool) := do
  let value ← arg
  return fun a => (column a).any fun s => text value = some s

/-- `column IS NULL`. -/
def isNull (column : α → Option String) : Piece (α → Bool) := pure fun a => (column a).isNone

/-- `COALESCE(t.value, c.name)`. -/
def coalesce (t : Option Translation) (canon : String) : String :=
  (t.map Translation.value).getD canon

/-- What is bound to the placeholders of the join. -/
def translationArgs (entityType : String) (lang : Lang) (field : String) : List SqlValue :=
  [.text entityType, .text lang.asStr, .text field]

/-- `ORDER BY c.path ASC`. -/
abbrev ByPath := Sorter fun r : Category × Option Translation => r.1.path

/-- `ORDER BY c.position ASC, c.id ASC`. -/
abbrev ByPosition (position : α → Int64) (id : α → String) :=
  Sorter fun r : α × Option Translation => toLex ((position r.1).toInt, id r.1)

def fetchOptional (fromRow : ρ → Except TaxonomyError α) (rows : List ρ) :
    Except TaxonomyError (Option α) :=
  match rows.head? with
  | none => .ok none
  | some r => some <$> fromRow r

end Pieces

def categoryFromRow (r : Category × Option Translation) : Except TaxonomyError Category :=
  .ok { r.1 with name := coalesce r.2 r.1.name }

/-- The columns of a row of `attributes`; the type is still a text. -/
structure AttributeRow where
  id : String
  categoryId : String
  name : String
  dataType : String
  unit : Option String
  isRequired : Int64
  position : Int64

def attributeColumns (r : Attribute × Option Translation) : AttributeRow where
  id := r.1.id
  categoryId := r.1.categoryId
  name := coalesce r.2 r.1.name
  dataType := r.1.dataType.asStr
  unit := r.1.unit
  isRequired := if r.1.isRequired then 1 else 0
  position := r.1.position

def attributeFromRow (row : AttributeRow) : Except TaxonomyError Attribute :=
  match DataType.parse row.dataType with
  | none => .error (.invalidEnum "data_type" row.dataType)
  | some dataType => .ok {
      id := row.id, categoryId := row.categoryId, name := row.name, dataType, unit := row.unit
      isRequired := row.isRequired ≠ 0, position := row.position }

def attributeOptionFromRow (r : AttributeOption × Option Translation) :
    Except TaxonomyError AttributeOption :=
  .ok { r.1 with value := coalesce r.2 r.1.value }

section Readers
variable (db : TaxonomyDb)

/-- `FROM … LEFT JOIN translations t ON … WHERE …`. -/
def selectTranslated {α : Type} (rows : List α) (id : α → String)
    (whereClause : Piece (α → Bool)) : Piece (List (α × Option Translation)) := do
  let on ← onTranslation id
  let cond ← whereClause
  return (leftJoin rows db.translations.rows on).filter fun r => cond r.1

def selectCategories (whereClause : Piece (Category → Bool)) :
    Piece (List (Category × Option Translation)) :=
  selectTranslated db db.categories.rows Category.id whereClause

def getCategory (id : String) (lang : Lang) : Except TaxonomyError (Option Category) :=
  fetchOptional categoryFromRow ((selectCategories db (equals fun c => some c.id)).execute
    (translationArgs "category" lang "name" ++ [.text id]))

def getCategoryByPath (path : String) (lang : Lang) : Except TaxonomyError (Option Category) :=
  fetchOptional categoryFromRow ((selectCategories db (equals fun c => some c.path)).execute
    (translationArgs "category" lang "name" ++ [.text path]))

/-- `ORDER BY c.path ASC LIMIT 1`. -/
def getCategoryBySlug (orderBy : ByPath) (slug : String) (lang : Lang) :
    Except TaxonomyError (Option Category) :=
  fetchOptional categoryFromRow ((orderBy.sort
    ((selectCategories db (equals fun c => some c.slug)).execute
      (translationArgs "category" lang "name" ++ [.text slug]))).take 1)

def listCategoriesByParent (orderBy : ByPosition Category.position Category.id)
    (parentId : Option String) (lang : Lang) : Except TaxonomyError (List Category) :=
  let rows := match parentId with
    | some pid => (selectCategories db (equals Category.parentId)).execute
      (translationArgs "category" lang "name" ++ [.text pid])
    | none => (selectCategories db (isNull Category.parentId)).execute
      (translationArgs "category" lang "name")
  (orderBy.sort rows).mapM categoryFromRow

def listAttributesByCategory (orderBy : ByPosition Attribute.position Attribute.id)
    (categoryId : String) (lang : Lang) : Except TaxonomyError (List Attribute) :=
  let rows := (selectTranslated db db.attributes.rows Attribute.id
    (equals fun a => some a.categoryId)).execute
      (translationArgs "attribute" lang "name" ++ [.text categoryId])
  (orderBy.sort rows).mapM fun r => attributeFromRow (attributeColumns r)

def listAttributeOptions (orderBy : ByPosition AttributeOption.position AttributeOption.id)
    (attributeId : String) (lang : Lang) : Except TaxonomyError (List AttributeOption) :=
  let rows := (selectTranslated db db.attributeOptions.rows AttributeOption.id
    (equals fun o => some o.attributeId)).execute
      (translationArgs "attribute_option" lang "value" ++ [.text attributeId])
  (orderBy.sort rows).mapM attributeOptionFromRow

/-- `SELECT value … WHERE entity_type = ? AND entity_id = ? AND lang = ? AND field = ?`. -/
def selectValue : Piece (List String) := do
  let entityType ← arg
  let entityId ← arg
  let lang ← arg
  let field ← arg
  return (db.translations.rows.filter fun t => text entityType = some t.entityType &&
    text entityId = some t.entityId && text lang = some t.lang.asStr &&
    text field = some t.field).map Translation.value

def resolveTranslation (entityType entityId : String) (lang : Lang) (field canonical : String) :
    String :=
  ((selectValue db).execute
    [.text entityType, .text entityId, .text lang.asStr, .text field]).head?.getD canonical

end Readers

/-! ## The arguments reach their places -/

section Takes
variable {α : Type} (db : TaxonomyDb) (entityType : String) (lang : Lang) (field : String)

theorem takes_onTranslation (id : α → String) :
    Takes (onTranslation id) (translationArgs entityType lang field) fun a t =>
      decide ((t.entityType, t.entityId, t.lang, t.field) = (entityType, id a, lang, field)) := by
  intro rest
  refine Prod.ext (funext fun a => funext fun t => ?_) rfl
  change (decide (text (some (.text entityType)) = some t.entityType) &&
    decide (t.entityId = id a) && decide (text (some (.text lang.asStr)) = some t.lang.asStr) &&
    decide (text (some (.text field)) = some t.field)) = _
  simp only [decide_text, Lang.asStr_inj, Prod.mk.injEq, Bool.decide_and, Bool.and_assoc]

theorem takes_equals (column : α → Option String) (value : String) :
    Takes (equals column) [.text value] fun a => decide (column a = some value) := by
  intro rest
  refine Prod.ext (funext fun a => ?_) rfl
  change (column a).any (fun s => decide (text (some (.text value)) = some s)) =
    decide (column a = some value)
  cases column a with
  | none => rfl
  | some s => simp only [decide_text, Option.any_some, Option.some.injEq]

theorem takes_isNull (column : α → Option String) :
    Takes (isNull column) [] fun a => decide (column a = none) := by
  intro rest
  refine Prod.ext (funext fun a => ?_) rfl
  change (column a).isNone = decide (column a = none)
  cases column a <;> rfl

/-- A row with its translation beside it. -/
def joined (id : α → String) (a : α) : α × Option Translation :=
  (a, db.translations.find? (entityType, id a, lang, field))

/-- The key of a translation is unique, so no row comes twice. -/
theorem takes_select (rows : List α) (id : α → String) {whereClause : Piece (α → Bool)}
    {args : List SqlValue} {cond : α → Bool} (hwhere : Takes whereClause args cond) :
    Takes (selectTranslated db rows id whereClause) (translationArgs entityType lang field ++ args)
      ((rows.filter cond).map (joined db entityType lang field id)) := by
  have hrows : (rows.map (joined db entityType lang field id)).filter (fun r => cond r.1) =
      (rows.filter cond).map (joined db entityType lang field id) := List.filter_map
  have hjoin : leftJoin rows db.translations.rows (fun a t =>
      decide ((t.entityType, t.entityId, t.lang, t.field) = (entityType, id a, lang, field))) =
        rows.map (joined db entityType lang field id) :=
    leftJoin_eq_map fun a _ => db.translations.filter_key (entityType, id a, lang, field)
  rw [← hrows, ← hjoin, ← List.append_nil args]
  exact (takes_onTranslation entityType lang field id).bind (hwhere.bind (takes_pure _))

theorem resolveTranslation_eq (entityId canonical : String) :
    resolveTranslation db entityType entityId lang field canonical =
      TaxonomyRepo.translated db lang entityType entityId field canonical := by
  have hrows : (selectValue db).execute
      [.text entityType, .text entityId, .text lang.asStr, .text field] =
        (db.translations.rows.filter fun t =>
          decide ((t.entityType, t.entityId, t.lang, t.field) =
            (entityType, entityId, lang, field))).map Translation.value := by
    change (db.translations.rows.filter fun t =>
      decide (text (some (.text entityType)) = some t.entityType) &&
        decide (text (some (.text entityId)) = some t.entityId) &&
        decide (text (some (.text lang.asStr)) = some t.lang.asStr) &&
        decide (text (some (.text field)) = some t.field)).map Translation.value = _
    simp only [decide_text, Lang.asStr_inj, Prod.mk.injEq, Bool.decide_and, Bool.and_assoc]
  have hfound := db.translations.filter_key (entityType, entityId, lang, field)
  rw [resolveTranslation, hrows, hfound, TaxonomyRepo.translated]
  cases db.translations.find? (entityType, entityId, lang, field) <;> rfl

end Takes

/-! ## What is shown -/

section Shown
variable (db : TaxonomyDb) (lang : Lang)

def shownCategory (c : Category) : Category :=
  { c with name := resolveTranslation db "category" c.id lang "name" c.name }

def shownAttribute (a : Attribute) : Attribute :=
  { a with name := resolveTranslation db "attribute" a.id lang "name" a.name }

def shownOption (o : AttributeOption) : AttributeOption :=
  { o with value := resolveTranslation db "attribute_option" o.id lang "value" o.value }

theorem categoryFromRow_joined (c : Category) :
    categoryFromRow (joined db "category" lang "name" Category.id c) =
      .ok (shownCategory db lang c) := by
  rw [shownCategory, resolveTranslation_eq]
  rfl

theorem attributeFromRow_joined (a : Attribute) :
    attributeFromRow (attributeColumns (joined db "attribute" lang "name" Attribute.id a)) =
      .ok (shownAttribute db lang a) := by
  rw [shownAttribute, resolveTranslation_eq]
  simp only [attributeFromRow, attributeColumns, joined, DataType.parse_asStr]
  obtain ⟨id, categoryId, name, dataType, unit, isRequired, position⟩ := a
  cases isRequired <;> rfl

theorem attributeOptionFromRow_joined (o : AttributeOption) :
    attributeOptionFromRow (joined db "attribute_option" lang "value" AttributeOption.id o) =
      .ok (shownOption db lang o) := by
  rw [shownOption, resolveTranslation_eq]
  rfl

end Shown

/-- All of `rows`, each of them once, by their positions and then by their ids. -/
structure Listed {α : Type} (position : α → Int64) (id : α → String) (rows xs : List α) : Prop where
  complete : xs.Perm rows
  once : (xs.map id).Nodup
  ordered : xs.Pairwise fun x y => position x < position y ∨ position x = position y ∧ id x < id y

section Rows
variable {α ρ : Type} {fromRow : ρ → Except TaxonomyError α} {join : α → ρ} {shown : α → α}

theorem fetchOptional_map (hfrom : ∀ a, fromRow (join a) = .ok (shown a)) (rows : List α) :
    fetchOptional fromRow (rows.map join) = .ok (rows.head?.map shown) := by
  rw [fetchOptional, List.head?_map]
  cases rows.head? with
  | none => rfl
  | some a =>
    change some <$> fromRow (join a) = _
    rw [hfrom]
    rfl

theorem mapM_map (hfrom : ∀ a, fromRow (join a) = .ok (shown a)) (rows : List α) :
    (rows.map join).mapM fromRow = .ok (rows.map shown) := by
  rw [List.mapM_map]
  exact mapM_ok fun a _ => hfrom a

theorem byPosition_iff (position : α → Int64) (id : α → String) (x y : α) :
    toLex ((position x).toInt, id x) < toLex ((position y).toInt, id y) ↔
      position x < position y ∨ position x = position y ∧ id x < id y := by
  rw [Prod.Lex.lt_iff, Int64.lt_iff_toInt_lt, ← Int64.toInt_inj]
  rfl

theorem nodup_keys {position : α → Int64} {id : α → String} {rows : List α}
    (hunique : (rows.map id).Nodup) :
    (rows.map fun x => toLex ((position x).toInt, id x)).Nodup := by
  rw [List.Nodup, List.pairwise_map] at hunique ⊢
  exact hunique.imp fun hne heq => hne (congrArg (fun k => (ofLex k).2) heq)

theorem exists_listed (db : TaxonomyDb) (entityType : String) (lang : Lang) (field : String)
    {position : α → Int64} {id : α → String} (orderBy : ByPosition position id) {rows : List α}
    (hunique : (rows.map id).Nodup) : ∃ xs : List α, Listed position id rows xs ∧
      orderBy.sort (rows.map (joined db entityType lang field id)) =
        xs.map (joined db entityType lang field id) := by
  obtain ⟨xs, hperm, hsort, hsorted⟩ :=
    orderBy.exists_sorted (joined db entityType lang field id) rows
  have honce : (xs.map id).Nodup := (hperm.map id).nodup_iff.mpr hunique
  have hstrict := pairwise_lt_of_le hsorted (nodup_keys honce)
  exact ⟨xs, ⟨hperm, honce, hstrict.imp (byPosition_iff position id _ _).mp⟩, hsort⟩

/-- A list that leaves nothing open is the one that an insertion sort gives. -/
theorem Listed.eq_ordered {position : α → Int64} {id : α → String} {rows xs : List α}
    (h : Listed position id rows xs) : xs = TaxonomyRepo.ordered position id rows := by
  have hunique : (rows.map id).Nodup := (h.complete.map id).nodup_iff.mp h.once
  have hsorted : (TaxonomyRepo.ordered position id rows).Pairwise fun x y =>
      toLex ((position x).toInt, id x) < toLex ((position y).toInt, id y) := by
    refine insertionSort_strict (fun x y => ?_) (nodup_keys hunique)
    simp only [Prod.Lex.le_iff, ofLex_toLex, Bool.or_eq_true, Bool.and_eq_true, Bool.not_eq_true',
      decide_eq_true_eq, decide_eq_false_iff_not, not_lt, Int64.lt_iff_toInt_lt, ← Int64.toInt_inj]
  refine List.Perm.eq_of_pairwise ?_ h.ordered
    (hsorted.imp (byPosition_iff position id _ _).mp)
    (h.complete.trans (TaxonomyRepo.ordered_perm position id rows).symm)
  intro x y _ _ hxy hyx
  rw [← byPosition_iff] at hxy hyx
  exact absurd hyx hxy.not_gt

end Rows

/-! ## The readers agree -/

/-- The readers of the taxonomy say what is stored, and they resolve every name and value as
the lookup of a single text does. -/
structure ReadersAgree (db : TaxonomyDb) (lang : Lang) : Prop where
  category : ∀ id, getCategory db id lang =
    .ok ((db.categories.find? id).map (shownCategory db lang))
  byPath : ∀ path, getCategoryByPath db path lang =
    .ok ((db.categories.byIndex.find? path).map (shownCategory db lang))
  /-- A slug stands for its first category by path. -/
  bySlug : ∀ (orderBy : ByPath) slug, ∃ found : Option Category,
    getCategoryBySlug db orderBy slug lang = .ok (found.map (shownCategory db lang)) ∧
      (∀ c ∈ found, c ∈ db.categories.rows ∧ c.slug = slug) ∧
      ∀ d ∈ db.categories.rows, d.slug = slug → ∃ c ∈ found, c.path ≤ d.path
  children : ∀ (orderBy : ByPosition Category.position Category.id) parentId, ∃ cs,
    Listed Category.position Category.id
      (db.categories.rows.filter fun c => c.parentId = parentId) cs ∧
    listCategoriesByParent db orderBy parentId lang = .ok (cs.map (shownCategory db lang))
  attributes : ∀ (orderBy : ByPosition Attribute.position Attribute.id) categoryId, ∃ as,
    Listed Attribute.position Attribute.id
      (db.attributes.rows.filter fun a => a.categoryId = categoryId) as ∧
    listAttributesByCategory db orderBy categoryId lang = .ok (as.map (shownAttribute db lang))
  options : ∀ (orderBy : ByPosition AttributeOption.position AttributeOption.id) attributeId, ∃ os,
    Listed AttributeOption.position AttributeOption.id
      (db.attributeOptions.rows.filter fun o => o.attributeId = attributeId) os ∧
    listAttributeOptions db orderBy attributeId lang = .ok (os.map (shownOption db lang))

section Agreement
variable (db : TaxonomyDb) (lang : Lang)

theorem execute_categories {whereClause : Piece (Category → Bool)} {args : List SqlValue}
    {cond : Category → Bool} (hwhere : Takes whereClause args cond) :
    (selectCategories db whereClause).execute (translationArgs "category" lang "name" ++ args) =
      (db.categories.rows.filter cond).map (joined db "category" lang "name" Category.id) :=
  (takes_select db "category" lang "name" db.categories.rows Category.id hwhere).execute

theorem filter_equals {α : Type} (rows : List α) (column : α → String) (value : String) :
    (rows.filter fun a => decide (some (column a) = some value)) =
      rows.filter fun a => decide (column a = value) := by
  simp only [Option.some.injEq]

theorem getCategory_eq (id : String) : getCategory db id lang =
    .ok ((db.categories.find? id).map (shownCategory db lang)) := by
  rw [getCategory, execute_categories db lang (takes_equals _ id), filter_equals,
    fetchOptional_map (categoryFromRow_joined db lang), List.head?_filter]
  rfl

theorem getCategoryByPath_eq (path : String) : getCategoryByPath db path lang =
    .ok ((db.categories.byIndex.find? path).map (shownCategory db lang)) := by
  rw [getCategoryByPath, execute_categories db lang (takes_equals _ path), filter_equals,
    fetchOptional_map (categoryFromRow_joined db lang), List.head?_filter]
  rfl

theorem getCategoryBySlug_first (orderBy : ByPath) (slug : String) : ∃ found : Option Category,
    getCategoryBySlug db orderBy slug lang = .ok (found.map (shownCategory db lang)) ∧
      (∀ c ∈ found, c ∈ db.categories.rows ∧ c.slug = slug) ∧
      ∀ d ∈ db.categories.rows, d.slug = slug → ∃ c ∈ found, c.path ≤ d.path := by
  obtain ⟨sorted, hperm, hsort, hsorted⟩ :=
    orderBy.exists_sorted (joined db "category" lang "name" Category.id)
      (db.categories.rows.filter fun c => decide (c.slug = slug))
  have hmem : ∀ c, c ∈ sorted ↔ c ∈ db.categories.rows ∧ c.slug = slug := by
    intro c
    rw [hperm.mem_iff, List.mem_filter, decide_eq_true_eq]
  refine ⟨sorted.head?, ?_, fun c hc => (hmem c).mp (List.mem_of_head? hc), fun d hd hslug => ?_⟩
  · rw [getCategoryBySlug, execute_categories db lang (takes_equals _ slug), filter_equals, hsort,
      ← List.map_take, fetchOptional_map (categoryFromRow_joined db lang)]
    cases sorted <;> rfl
  · have hmember := (hmem d).mpr ⟨hd, hslug⟩
    cases sorted with
    | nil => cases hmember
    | cons c rest =>
      refine ⟨c, rfl, ?_⟩
      rcases List.mem_cons.mp hmember with rfl | hrest
      · exact le_rfl
      · exact List.rel_of_pairwise_cons hsorted hrest

theorem nodup_filter {α : Type} {id : α → String} {rows : List α} (h : (rows.map id).Nodup)
    (p : α → Bool) : ((rows.filter p).map id).Nodup :=
  h.sublist (List.Sublist.map id List.filter_sublist)

theorem listCategoriesByParent_listed (orderBy : ByPosition Category.position Category.id)
    (parentId : Option String) : ∃ cs, Listed Category.position Category.id
      (db.categories.rows.filter fun c => c.parentId = parentId) cs ∧
    listCategoriesByParent db orderBy parentId lang = .ok (cs.map (shownCategory db lang)) := by
  obtain ⟨cs, hlisted, hsort⟩ := exists_listed db "category" lang "name" orderBy
    (nodup_filter db.categories.unique fun c => c.parentId = parentId)
  refine ⟨cs, hlisted, ?_⟩
  rw [← mapM_map (categoryFromRow_joined db lang), ← hsort]
  cases parentId with
  | some pid =>
    simp only [listCategoriesByParent]
    rw [execute_categories db lang (takes_equals _ pid)]
  | none =>
    have hroots := execute_categories db lang (takes_isNull Category.parentId)
    rw [List.append_nil] at hroots
    simp only [listCategoriesByParent]
    rw [hroots]

theorem listAttributesByCategory_listed (orderBy : ByPosition Attribute.position Attribute.id)
    (categoryId : String) : ∃ as, Listed Attribute.position Attribute.id
      (db.attributes.rows.filter fun a => a.categoryId = categoryId) as ∧
    listAttributesByCategory db orderBy categoryId lang =
      .ok (as.map (shownAttribute db lang)) := by
  obtain ⟨as, hlisted, hsort⟩ := exists_listed db "attribute" lang "name" orderBy
    (nodup_filter db.attributes.unique fun a => a.categoryId = categoryId)
  refine ⟨as, hlisted, ?_⟩
  simp only [listAttributesByCategory]
  rw [(takes_select db "attribute" lang "name" _ _ (takes_equals _ categoryId)).execute,
    filter_equals, hsort]
  rw [List.mapM_map]
  exact mapM_ok fun a _ => attributeFromRow_joined db lang a

theorem listAttributeOptions_listed
    (orderBy : ByPosition AttributeOption.position AttributeOption.id) (attributeId : String) :
    ∃ os, Listed AttributeOption.position AttributeOption.id
      (db.attributeOptions.rows.filter fun o => o.attributeId = attributeId) os ∧
    listAttributeOptions db orderBy attributeId lang = .ok (os.map (shownOption db lang)) := by
  obtain ⟨os, hlisted, hsort⟩ := exists_listed db "attribute_option" lang "value" orderBy
    (nodup_filter db.attributeOptions.unique fun o => o.attributeId = attributeId)
  refine ⟨os, hlisted, ?_⟩
  simp only [listAttributeOptions]
  rw [(takes_select db "attribute_option" lang "value" _ _ (takes_equals _ attributeId)).execute,
    filter_equals, hsort]
  exact mapM_map (attributeOptionFromRow_joined db lang) os

theorem agree : ReadersAgree db lang where
  category := getCategory_eq db lang
  byPath := getCategoryByPath_eq db lang
  bySlug := getCategoryBySlug_first db lang
  children := listCategoriesByParent_listed db lang
  attributes := listAttributesByCategory_listed db lang
  options := listAttributeOptions_listed db lang

/-! ## The readers of the pages -/

theorem shown_eq_fromRow : shownCategory db lang = TaxonomyRepo.categoryFromRow db lang ∧
    shownAttribute db lang = TaxonomyRepo.attributeFromRow db lang ∧
    shownOption db lang = TaxonomyRepo.attributeOptionFromRow db lang := by
  refine ⟨funext fun c => ?_, funext fun a => ?_, funext fun o => ?_⟩
  · rw [shownCategory, resolveTranslation_eq, TaxonomyRepo.categoryFromRow]
  · rw [shownAttribute, resolveTranslation_eq, TaxonomyRepo.attributeFromRow]
  · rw [shownOption, resolveTranslation_eq, TaxonomyRepo.attributeOptionFromRow]

theorem getCategoryBySlug_eq_reads (orderBy : ByPath) (slug : String) :
    getCategoryBySlug db orderBy slug lang = .ok (TaxonomyRepo.getCategoryBySlug db lang slug) := by
  obtain ⟨sorted, hperm, hsort, hsorted⟩ :=
    orderBy.exists_sorted (joined db "category" lang "name" Category.id)
      (db.categories.rows.filter fun c => decide (c.slug = slug))
  have hpaths := nodup_filter db.categories.distinct fun c => decide (c.slug = slug)
  have hle : ∀ c d : Category, (!decide (d.path < c.path)) = true ↔ c.path ≤ d.path := by
    intro c d
    rw [Bool.not_eq_true', decide_eq_false_iff_not, not_lt]
  have hinsertion := insertionSort_strict hle hpaths
  have hsame : sorted = _ := List.Perm.eq_of_pairwise (fun c d _ _ hlt hgt => absurd hgt hlt.not_gt)
    (pairwise_lt_of_le hsorted ((hperm.map Category.path).nodup_iff.mpr hpaths)) hinsertion
    (hperm.trans (List.perm_insertionSort _ _).symm)
  rw [getCategoryBySlug, execute_categories db lang (takes_equals _ slug), filter_equals, hsort,
    ← List.map_take, fetchOptional_map (categoryFromRow_joined db lang), hsame,
    (shown_eq_fromRow db lang).1, List.head?_take]
  rfl

/-- The readers that the pages of the shop call. -/
theorem readers_eq_reads (orderBy : ByPosition Category.position Category.id)
    (orderAttributes : ByPosition Attribute.position Attribute.id)
    (orderOptions : ByPosition AttributeOption.position AttributeOption.id) :
    (∀ id, getCategory db id lang = .ok (TaxonomyRepo.getCategory db lang id)) ∧
      (∀ path, getCategoryByPath db path lang = .ok (TaxonomyRepo.getCategoryByPath db lang path)) ∧
      (∀ parentId, listCategoriesByParent db orderBy parentId lang =
        .ok (TaxonomyRepo.listCategoriesByParent db lang parentId)) ∧
      (∀ categoryId, listAttributesByCategory db orderAttributes categoryId lang =
        .ok (TaxonomyRepo.listAttributesByCategory db lang categoryId)) ∧
      ∀ attributeId, listAttributeOptions db orderOptions attributeId lang =
        .ok (TaxonomyRepo.listAttributeOptions db lang attributeId) := by
  obtain ⟨hcategory, hattribute, hoption⟩ := shown_eq_fromRow db lang
  refine ⟨fun id => ?_, fun path => ?_, fun parentId => ?_, fun categoryId => ?_,
    fun attributeId => ?_⟩
  · rw [getCategory_eq, hcategory]
    rfl
  · rw [getCategoryByPath_eq, hcategory]
    rfl
  · obtain ⟨cs, hlisted, hread⟩ := listCategoriesByParent_listed db lang orderBy parentId
    rw [hread, hcategory, hlisted.eq_ordered]
    rfl
  · obtain ⟨as, hlisted, hread⟩ :=
      listAttributesByCategory_listed db lang orderAttributes categoryId
    rw [hread, hattribute, hlisted.eq_ordered]
    rfl
  · obtain ⟨os, hlisted, hread⟩ := listAttributeOptions_listed db lang orderOptions attributeId
    rw [hread, hoption, hlisted.eq_ordered]
    rfl

end Agreement

end TaxonomySql

/-! ## Runs of calls -/

inductive TaxonomyCall where
  | createCategory (c : Category)
  | createAttribute (a : Attribute)
  | createAttributeOption (o : AttributeOption)
  | setTranslation (entityType entityId : String) (lang : Lang) (field value : String)

def TaxonomyCall.run (db : TaxonomyDb) : TaxonomyCall → Except TaxonomyError TaxonomyDb
  | .createCategory c => (TaxonomyRepo.createCategory db.categories c).map fun categories =>
    { db with categories }
  | .createAttribute a =>
    (TaxonomyRepo.createAttribute db.categories db.attributes a).map fun attributes =>
      { db with attributes }
  | .createAttributeOption o =>
    (TaxonomyRepo.createAttributeOption db.attributes db.attributeOptions o).map
      fun attributeOptions => { db with attributeOptions }
  | .setTranslation entityType entityId lang field value =>
    TaxonomyRepo.setTranslation db entityType entityId lang field value

/-- What the calls leave, one after the other; a call that fails changes nothing. -/
def TaxonomyDb.after (calls : List TaxonomyCall) : TaxonomyDb :=
  calls.foldl (fun db call => (call.run db).toOption.getD db) .empty

namespace TaxonomySql

/-- The text that a call gives to a field of an entity in a language. -/
def sets (entityType entityId : String) (lang : Lang) (field : String) :
    TaxonomyCall → Option String
  | .setTranslation entityType' entityId' lang' field' value =>
    if (entityType', entityId', lang', field') = (entityType, entityId, lang, field) then some value
    else none
  | _ => none

section Runs
variable {entityType entityId field : String} {lang : Lang}

theorem resolveTranslation_setTranslation {db db' : TaxonomyDb}
    {entityType' entityId' field' value : String} {lang' : Lang}
    (h : TaxonomyRepo.setTranslation db entityType' entityId' lang' field' value = .ok db')
    (canonical : String) :
    resolveTranslation db' entityType entityId lang field canonical =
      if (entityType', entityId', lang', field') = (entityType, entityId, lang, field) then value
      else resolveTranslation db entityType entityId lang field canonical := by
  unfold TaxonomyRepo.setTranslation at h
  split at h
  · cases h
  · split at h
    · cases h
    · obtain rfl := Except.ok.inj h
      rw [resolveTranslation_eq, resolveTranslation_eq]
      simp only [TaxonomyRepo.translated, Table.find?_upsert]
      split
      · cases db.translations.find? (entityType, entityId, lang, field) <;> rfl
      · rfl

variable (htype : entityType ∈ ["category", "attribute", "attribute_option"])
  (hfield : field ∈ ["name", "value"])
include htype hfield

/-- A text is overwritten by the calls that set it and by no other. -/
theorem resolveTranslation_run (db : TaxonomyDb) (call : TaxonomyCall) (canonical : String) :
    resolveTranslation ((call.run db).toOption.getD db) entityType entityId lang field canonical =
      (sets entityType entityId lang field call).getD
        (resolveTranslation db entityType entityId lang field canonical) := by
  cases call with
  | createCategory c =>
    simp only [TaxonomyCall.run]
    cases TaxonomyRepo.createCategory db.categories c <;> rfl
  | createAttribute a =>
    simp only [TaxonomyCall.run]
    cases TaxonomyRepo.createAttribute db.categories db.attributes a <;> rfl
  | createAttributeOption o =>
    simp only [TaxonomyCall.run]
    cases TaxonomyRepo.createAttributeOption db.attributes db.attributeOptions o <;> rfl
  | setTranslation entityType' entityId' lang' field' value =>
    simp only [TaxonomyCall.run, sets]
    cases hset : TaxonomyRepo.setTranslation db entityType' entityId' lang' field' value with
    | ok db' =>
      refine (resolveTranslation_setTranslation hset canonical).trans ?_
      split <;> rfl
    | error e =>
      -- the checks refuse other types and fields only
      rw [if_neg]
      · rfl
      · simp only [Prod.mk.injEq]
        rintro ⟨rfl, -, -, rfl⟩
        unfold TaxonomyRepo.setTranslation at hset
        rw [if_neg (not_not_intro htype), if_neg (not_not_intro hfield)] at hset
        cases hset

/-- The text that was set last is the one that is shown. -/
theorem resolveTranslation_after (calls : List TaxonomyCall) (canonical : String) :
    resolveTranslation (.after calls) entityType entityId lang field canonical =
      (calls.reverse.findSome? (sets entityType entityId lang field)).getD canonical := by
  induction calls using List.reverseRecOn with
  | nil => rfl
  | append_singleton calls call ih =>
    have hlast : TaxonomyDb.after (calls ++ [call]) =
        (call.run (.after calls)).toOption.getD (.after calls) := List.foldl_append
    rw [hlast, resolveTranslation_run htype hfield, ih, List.reverse_append, List.reverse_singleton,
      List.singleton_append, List.findSome?_cons]
    cases sets entityType entityId lang field call <;> rfl

end Runs

/-- Whatever was created and translated, in whatever order, all readers of the taxonomy list
what is stored, completely, in order and once, and show it as the lookup of its text does; the
lookup finds what was set last. -/
theorem readers_agree (calls : List TaxonomyCall) (lang : Lang) :
    ReadersAgree (.after calls) lang ∧
      ∀ entityType ∈ ["category", "attribute", "attribute_option"], ∀ field ∈ ["name", "value"],
        ∀ entityId canonical,
          resolveTranslation (.after calls) entityType entityId lang field canonical =
            (calls.reverse.findSome? (sets entityType entityId lang field)).getD canonical := by
  refine ⟨agree _ lang, fun entityType htype field hfield entityId canonical => ?_⟩
  exact resolveTranslation_after htype hfield calls canonical

end TaxonomySql

end TinyShop
