import TinyShop.Base.Table
import TinyShop.Shared

/-!
# Catalog database

The tables of `migrations/catalog/0003_projection.sql`, and of the taxonomy the
table that the projection reads.
-/

namespace TinyShop

open Base
set_option autoImplicit false

structure ProjectionRow where
  id : String
  sellerId : String
  title : String
  slug : String
  description : String
  priceMinor : Int64
  currency : String
  status : String
  categoryId : Option String
  thumb : Option String
  createdAt : Int64
  updatedAt : Int64
deriving DecidableEq, Repr

structure AttrIndexRow where
  productId : String
  categoryId : String
  attributeId : String
  valText : Option String
  valNum : Option F64
deriving DecidableEq, Repr

structure FtsRow where
  productId : String
  title : String
  description : String
  attrs : String
deriving DecidableEq, Repr

/-- An attribute of a category of the platform. -/
structure Attribute where
  id : String
  categoryId : String
  name : String
  dataType : DataType
  unit : Option String
  isRequired : Bool
  position : Int64
deriving DecidableEq, Repr

/-- `PRIMARY KEY (id)` and the unique index `pp_slug`. -/
abbrev ProjectionTable := IndexedTable ProjectionRow String String ProjectionRow.id ProjectionRow.slug

abbrev AttrIndex := Table AttrIndexRow (String × String) fun a => (a.productId, a.attributeId)

/-- The order in which `GROUP_CONCAT` joins the texts of a product, which SQLite leaves open. -/
structure ConcatOrder where
  arrange : String → List String → List String
  perm : ∀ productId texts, (arrange productId texts).Perm texts

/-- The order of the rows. -/
def ConcatOrder.ofRows : ConcatOrder := ⟨fun _ texts => texts, fun _ _ => .refl _⟩

structure CatalogDb where
  projection : ProjectionTable
  attrIndex : AttrIndex
  fts : List FtsRow
  attributes : Table Attribute String Attribute.id
  concatOrder : ConcatOrder := .ofRows

namespace CatalogDb

/-- Nothing projected yet; the taxonomy is given. -/
def initial (attributes : Table Attribute String Attribute.id)
    (concatOrder : ConcatOrder := .ofRows) : CatalogDb :=
  ⟨∅, ∅, [], attributes, concatOrder⟩

end CatalogDb

end TinyShop
