import TinyShop.Product
import TinyShop.Taxonomy

/-!
# Reading the taxonomy

The tables of `migrations/catalog/0002_taxonomy.sql` beside the projection, and the readers
of `TaxonomyRepo` in `crates/catalog/src/repository.rs`. A name comes in the language asked
for if there is a translation of it.
-/

namespace TinyShop

open Base
set_option autoImplicit false

/-- A value that an attribute may have. -/
structure AttributeOption where
  id : String
  attributeId : String
  value : String
  position : Int64
deriving DecidableEq, Repr

/-- `PRIMARY KEY (id)` and `UNIQUE (category_id, attribute_id)`. -/
abbrev Filters :=
  IndexedTable Filter String (String × String) Filter.id fun f => (f.categoryId, f.attributeId)

/-- The whole of `catalog.db`. -/
structure TaxonomyDb extends CatalogDb where
  categories : Categories
  attributeOptions : Table AttributeOption String AttributeOption.id
  filters : Filters
  translations : Table Translation (String × String × Lang × String)
    fun t => (t.entityType, t.entityId, t.lang, t.field)

def TaxonomyDb.empty : TaxonomyDb where
  toCatalogDb := .initial ∅
  categories := .empty
  attributeOptions := ∅
  filters := ∅
  translations := ∅

namespace TaxonomyRepo

/-! ## Writes -/

def createAttributeOption (attributes : Table Attribute String Attribute.id)
    (t : Table AttributeOption String AttributeOption.id) (o : AttributeOption) :
    Except TaxonomyError (Table AttributeOption String AttributeOption.id) :=
  if free : t.find? o.id = none then
    if (attributes.find? o.attributeId).isSome then .ok (t.insert o free)
    else .error (.db (.foreignKey "attribute_options"))
  else .error (.db (.primaryKey "attribute_options.id"))

/-- A new value leaves the key as it is. -/
theorem key_setValue (value : String) (old : Translation) :
    (fun t : Translation => (t.entityType, t.entityId, t.lang, t.field)) { old with value } =
      (old.entityType, old.entityId, old.lang, old.field) :=
  rfl

/-- `ON CONFLICT … DO UPDATE SET value`. -/
def setTranslation (db : TaxonomyDb) (entityType entityId : String) (lang : Lang)
    (field value : String) : Except TaxonomyError TaxonomyDb :=
  if entityType ∉ ["category", "attribute", "attribute_option"] then
    .error (.db (.check "entity_type IN ('category','attribute','attribute_option')"))
  else if field ∉ ["name", "value"] then .error (.db (.check "field IN ('name','value')"))
  else .ok { db with
    translations := db.translations.upsert ⟨entityType, entityId, lang, field, value⟩
      (fun old => { old with value }) (key_setValue value) }

/-! ## Reads -/

section Reads
variable (db : TaxonomyDb) (lang : Lang)

/-- `COALESCE(t.value, canon)` after a `LEFT JOIN`: the key has at most one translation. -/
def translated (entityType entityId field canon : String) : String :=
  ((db.translations.find? (entityType, entityId, lang, field)).map Translation.value).getD canon

/-- `ORDER BY position ASC, id ASC`. -/
def ordered {α : Type} (position : α → Int64) (id : α → String) (rows : List α) : List α :=
  rows.insertionSort fun a b =>
    position a < position b || position a = position b && !(id b < id a)

def categoryFromRow (c : Category) : Category :=
  { c with name := translated db lang "category" c.id "name" c.name }

def getCategory (id : String) : Option Category :=
  (db.categories.rows.find? fun c => c.id = id).map (categoryFromRow db lang)

def getCategoryByPath (path : String) : Option Category :=
  (db.categories.rows.find? fun c => c.path = path).map (categoryFromRow db lang)

/-- `ORDER BY c.path ASC LIMIT 1`: a slug is unique under one parent only. -/
def getCategoryBySlug (slug : String) : Option Category :=
  ((db.categories.rows.filter fun c => c.slug = slug).insertionSort
    fun c d => !(d.path < c.path)).head?.map (categoryFromRow db lang)

def listCategoriesByParent (parentId : Option String) : List Category :=
  (ordered Category.position Category.id
    (db.categories.rows.filter fun c => c.parentId = parentId)).map (categoryFromRow db lang)

def attributeFromRow (a : Attribute) : Attribute :=
  { a with name := translated db lang "attribute" a.id "name" a.name }

def listAttributesByCategory (categoryId : String) : List Attribute :=
  (ordered Attribute.position Attribute.id
    (db.attributes.rows.filter fun a => a.categoryId = categoryId)).map (attributeFromRow db lang)

def attributeOptionFromRow (o : AttributeOption) : AttributeOption :=
  { o with value := translated db lang "attribute_option" o.id "value" o.value }

def listAttributeOptions (attributeId : String) : List AttributeOption :=
  (ordered AttributeOption.position AttributeOption.id
    (db.attributeOptions.rows.filter fun o => o.attributeId = attributeId)).map
      (attributeOptionFromRow db lang)

def listFiltersByCategory (categoryId : String) : List Filter :=
  ordered Filter.position Filter.id
    (db.filters.rows.filter fun f => f.categoryId = categoryId)

end Reads

theorem ordered_perm {α : Type} (position : α → Int64) (id : α → String) (rows : List α) :
    (ordered position id rows).Perm rows :=
  List.perm_insertionSort _ rows

end TaxonomyRepo

end TinyShop
