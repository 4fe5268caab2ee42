import TinyShop.Base.Table
import TinyShop.Outbox

/-!
# Products of the sellers

Domain types of `crates/product/src/product.rs` and the tables of
`migrations/product/0002_product.sql`. A `CHECK (… IN (…))` on a column that the
code only fills from an enumeration is carried by the type of the column.
-/

namespace TinyShop

open Base
set_option autoImplicit false

inductive Lang where
  | uk
  | ru
deriving DecidableEq, Repr

def Lang.asStr : Lang → String
  | .uk => "uk"
  | .ru => "ru"

theorem Lang.asStr_inj {l m : Lang} : l.asStr = m.asStr ↔ l = m := by
  cases l <;> cases m <;> decide

inductive ProductStatus where
  | draft
  | published
  | archived
deriving DecidableEq, Repr

namespace ProductStatus

def asStr : ProductStatus → String
  | .draft => "draft"
  | .published => "published"
  | .archived => "archived"

def parse (s : String) : Option ProductStatus :=
  if s = "draft" then some .draft
  else if s = "published" then some .published
  else if s = "archived" then some .archived
  else none

@[simp] theorem parse_asStr (s : ProductStatus) : parse s.asStr = some s := by
  cases s <;> decide

theorem asStr_inj {s t : ProductStatus} : s.asStr = t.asStr ↔ s = t := by
  cases s <;> cases t <;> decide

theorem asStr_eq_published_iff (s : ProductStatus) : s.asStr = "published" ↔ s = .published := by
  cases s <;> decide

end ProductStatus

inductive DeliveryKind where
  | download
  | platformView
deriving DecidableEq, Repr

def DeliveryKind.asStr : DeliveryKind → String
  | .download => "download"
  | .platformView => "platform_view"

def DeliveryKind.parse (s : String) : Option DeliveryKind :=
  if s = "download" then some .download
  else if s = "platform_view" then some .platformView
  else none

@[simp] theorem DeliveryKind.parse_asStr (k : DeliveryKind) : DeliveryKind.parse k.asStr = some k := by
  cases k <;> decide

inductive LicenseKind where
  | single
  | multi
deriving DecidableEq, Repr

def LicenseKind.asStr : LicenseKind → String
  | .single => "single"
  | .multi => "multi"

def LicenseKind.parse (s : String) : Option LicenseKind :=
  if s = "single" then some .single
  else if s = "multi" then some .multi
  else none

@[simp] theorem LicenseKind.parse_asStr (k : LicenseKind) : LicenseKind.parse k.asStr = some k := by
  cases k <;> decide

inductive MediaKind where
  | image
  | video
deriving DecidableEq, Repr

def MediaKind.asStr : MediaKind → String
  | .image => "image"
  | .video => "video"

def MediaKind.parse (s : String) : Option MediaKind :=
  if s = "image" then some .image
  else if s = "video" then some .video
  else none

@[simp] theorem MediaKind.parse_asStr (k : MediaKind) : MediaKind.parse k.asStr = some k := by
  cases k <;> decide

structure Product where
  id : String
  sellerId : String
  title : String
  slug : String
  description : String
  priceMinor : Int64
  currency : String
  status : ProductStatus
  createdAt : Int64
  updatedAt : Int64
deriving DecidableEq, Repr

structure ProductMedia where
  id : String
  productId : String
  kind : MediaKind
  url : String
  position : Int64
deriving DecidableEq, Repr

structure DigitalConfig where
  productId : String
  deliveryKind : DeliveryKind
  licenseKind : Option LicenseKind
  notes : Option String
deriving DecidableEq, Repr

structure DigitalVariant where
  id : String
  productId : String
  label : String
  format : Option String
  priceDeltaMinor : Int64
  position : Int64
deriving DecidableEq, Repr

structure ProductAttributeValue where
  productId : String
  attributeId : String
  dataType : DataType
  valText : Option String
  valNum : Option F64
deriving DecidableEq, Repr

/-- Row of the polymorphic `translations` table. -/
structure Translation where
  entityType : String
  entityId : String
  lang : Lang
  field : String
  value : String
deriving DecidableEq, Repr

/-- `PRIMARY KEY (id)` and `UNIQUE (seller_id, slug)`. -/
abbrev Products :=
  IndexedTable Product String (String × String) Product.id fun p => (p.sellerId, p.slug)

structure ProductDb where
  products : Products
  productMedia : Table ProductMedia String ProductMedia.id
  digitalConfig : Table DigitalConfig String DigitalConfig.productId
  digitalVariant : Table DigitalVariant String DigitalVariant.id
  productAttributeValues : Table ProductAttributeValue (String × String)
    fun v => (v.productId, v.attributeId)
  translations : Table Translation (String × String × Lang × String)
    fun t => (t.entityType, t.entityId, t.lang, t.field)
  outbox : Outbox

namespace ProductDb

def empty : ProductDb := ⟨∅, ∅, ∅, ∅, ∅, ∅, .empty⟩

def HasProduct (db : ProductDb) (id : String) : Prop := (db.products.find? id).isSome

instance (db : ProductDb) (id : String) : Decidable (db.HasProduct id) :=
  inferInstanceAs (Decidable ((db.products.find? id).isSome = true))

def enqueue (db : ProductDb) (ev : NewEvent) (clock : Int64) : ProductDb :=
  { db with outbox := db.outbox.enqueue ev clock }

@[simp] theorem enqueue_products (db : ProductDb) (ev : NewEvent) (clock : Int64) :
    (db.enqueue ev clock).products = db.products := rfl

@[simp] theorem enqueue_outbox (db : ProductDb) (ev : NewEvent) (clock : Int64) :
    (db.enqueue ev clock).outbox = db.outbox.enqueue ev clock := rfl

end ProductDb

end TinyShop
