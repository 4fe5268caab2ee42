import TinyShop.Catalog
import TinyShop.Outbox

/-!
# Taxonomy

The writes of `TaxonomyRepo` in `crates/catalog/src/repository.rs` that the facets
depend on: categories and their attributes. Nothing removes either.
-/

namespace TinyShop

open Base
set_option autoImplicit false

/-- A node of the tree; `path` is materialized, such as `/electronics/phones`. -/
structure Category where
  id : String
  parentId : Option String
  name : String
  slug : String
  path : String
  position : Int64
deriving DecidableEq, Repr

namespace Category

/-- The columns of the index `categories_parent_slug`. -/
def place (c : Category) : String × String := (c.parentId.getD "", c.slug)

end Category

inductive FilterType where
  | checkboxOr
  | enumAnd
  | string
  | number
  | rangePrice
  | rangeGeneric
deriving DecidableEq, Repr

/-- An attribute that a category offers as a filter. -/
structure Filter where
  id : String
  categoryId : String
  attributeId : String
  filterType : FilterType
  position : Int64
deriving DecidableEq, Repr

/-- `PRIMARY KEY (id)`, `UNIQUE (path)` and the index on parent and slug. -/
structure Categories extends IndexedTable Category String String Category.id Category.path where
  siblings : (rows.map Category.place).Nodup

theorem Categories.siblings_empty :
    ((∅ : IndexedTable Category String String Category.id Category.path).rows.map
      Category.place).Nodup :=
  List.nodup_nil

def Categories.empty : Categories := ⟨∅, Categories.siblings_empty⟩

inductive TaxonomyError where
  | db (e : SqlxError)
  | invalidEnum (field value : String)
deriving DecidableEq, Repr

namespace TaxonomyRepo

/-- The parent is there, or the category is its own. -/
def HasParent (t : Categories) (c : Category) : Prop :=
  ∀ parent ∈ c.parentId, parent = c.id ∨ (t.find? parent).isSome

instance (t : Categories) (c : Category) : Decidable (HasParent t c) :=
  inferInstanceAs (Decidable (∀ parent ∈ c.parentId, parent = c.id ∨ (t.find? parent).isSome))

def createCategory (t : Categories) (c : Category) : Except TaxonomyError Categories :=
  if hid : t.find? c.id = none then
    if hpath : ∀ s ∈ t.rows, s.path ≠ c.path then
      if hplace : c.place ∉ t.rows.map Category.place then
        if HasParent t c then
          .ok {
            toTable := t.toTable.insert c hid
            distinct := by
              rw [Table.rows_insert, List.map_append, List.nodup_append]
              refine ⟨t.distinct, List.nodup_singleton _, ?_⟩
              intro path hold other hnew
              obtain ⟨s, hs, rfl⟩ := List.mem_map.mp hold
              obtain rfl := List.mem_singleton.mp hnew
              exact hpath s hs
            siblings := by
              rw [Table.rows_insert, List.map_append, List.nodup_append]
              refine ⟨t.siblings, List.nodup_singleton _, ?_⟩
              intro place hold other hnew
              obtain rfl := List.mem_singleton.mp hnew
              exact fun hsame => hplace (hsame ▸ hold) }
        else .error (.db (.foreignKey "categories"))
      else .error (.db (.unique "index 'categories_parent_slug'"))
    else .error (.db (.unique "categories.path"))
  else .error (.db (.primaryKey "categories.id"))

def createAttribute (categories : Categories) (t : Table Attribute String Attribute.id)
    (a : Attribute) : Except TaxonomyError (Table Attribute String Attribute.id) :=
  if free : t.find? a.id = none then
    if (categories.find? a.categoryId).isSome then .ok (t.insert a free)
    else .error (.db (.foreignKey "attributes"))
  else .error (.db (.primaryKey "attributes.id"))

theorem createCategory_rows {t u : Categories} {c : Category} (h : createCategory t c = .ok u) :
    u.rows = t.rows ++ [c] ∧ HasParent t c := by
  unfold createCategory at h
  split at h
  · split at h
    · split at h
      · split at h
        · rename_i hparent
          obtain rfl := Except.ok.inj h
          exact ⟨rfl, hparent⟩
        · cases h
      · cases h
    · cases h
  · cases h

/-- A new attribute takes nothing from the ones that are there. -/
theorem find?_createAttribute {categories : Categories} {t u : Table Attribute String Attribute.id}
    {a : Attribute} (h : createAttribute categories t a = .ok u) {id : String} {old : Attribute}
    (hold : t.find? id = some old) : u.find? id = some old := by
  unfold createAttribute at h
  split at h
  · rename_i free
    split at h
    · obtain rfl := Except.ok.inj h
      rw [Table.find?_insert, if_neg ?_, hold]
      rintro rfl
      rw [free] at hold
      cases hold
    · cases h
  · cases h

end TaxonomyRepo

end TinyShop
