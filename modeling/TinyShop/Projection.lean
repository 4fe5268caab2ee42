import TinyShop.Catalog
import TinyShop.Relay

/-!
# Catalog projection

The consumer of product events, `crates/catalog/src/projection.rs`. A handler runs
in one transaction: it gives the new database or an error that leaves the old one.
-/

namespace TinyShop

open Base
set_option autoImplicit false

namespace CatalogProjection

def strVal (p : Value) (key : String) : String := ((p.get key).asStr).getD ""

/-- The texts of a product that are not empty. -/
def attrTexts (t : AttrIndex) (productId : String) : List String :=
  t.rows.filterMap fun a => if a.productId = productId then a.valText.filter (· ≠ "") else none

section Handlers
variable (db : CatalogDb)

def deleteFts (productId : String) : CatalogDb :=
  { db with fts := db.fts.filter fun r => r.productId ≠ productId }

/-- `GROUP_CONCAT(val_text, ' ')`. -/
def attrsText (productId : String) : String :=
  " ".intercalate (db.concatOrder.arrange productId (attrTexts db.attrIndex productId))

def upsertFts (productId : String) : CatalogDb :=
  match db.projection.find? productId with
  | none => db
  | some row =>
    let attrs := attrsText db productId
    let db := deleteFts db productId
    { db with fts := db.fts ++ [⟨productId, row.title, row.description, attrs⟩] }

/-- `INSERT OR IGNORE`: a taken id or slug leaves the table as it is. -/
def applyCreated (p : Value) : Except SqlxError CatalogDb :=
  let id := strVal p "id"
  let row : ProjectionRow := {
    id
    sellerId := strVal p "seller_id"
    title := strVal p "title"
    slug := strVal p "slug"
    description := strVal p "description"
    priceMinor := (p.get "price_minor").asI64.getD 0
    currency := strVal p "currency"
    status := strVal p "status"
    categoryId := none
    thumb := none
    createdAt := (p.get "created_at").asI64.getD 0
    updatedAt := (p.get "updated_at").asI64.getD 0 }
  .ok (upsertFts { db with projection := (db.projection.insert? row).getD db.projection } id)

def setAttr (id attributeId : String) (valText : Option String) (valNum : Option F64) : AttrIndex :=
  match db.attributes.find? attributeId with
  | none => db.attrIndex
  | some a =>
    db.attrIndex.upsert ⟨id, a.categoryId, attributeId, valText, valNum⟩ fun old =>
      { old with categoryId := a.categoryId, valText, valNum }

/-- The columns that a core update writes. -/
abbrev setCore (title slug description : String) (priceMinor : Int64) (currency : String)
    (updatedAt : Int64) (r : ProjectionRow) : ProjectionRow :=
  { r with title, slug, description, priceMinor, currency, updatedAt }

abbrev setUpdatedAt (updatedAt : Int64) (r : ProjectionRow) : ProjectionRow := { r with updatedAt }

theorem setUpdatedAt_id (updatedAt : Int64) (r : ProjectionRow) :
    (setUpdatedAt updatedAt r).id = r.id := rfl

theorem setUpdatedAt_slug (updatedAt : Int64) (r : ProjectionRow) :
    (setUpdatedAt updatedAt r).slug = r.slug := rfl

abbrev setStatus (status : String) (updatedAt : Int64) (r : ProjectionRow) : ProjectionRow :=
  { r with status, updatedAt }

def applyUpdated (p : Value) : Except SqlxError CatalogDb :=
  let id := strVal p "id"
  let reason := ((p.get "reason").asStr).getD ""
  if reason = "attribute_value_set" then
    let attributeId := strVal p "attribute_id"
    let attrIndex := setAttr db id attributeId (p.get "val_text").asStr (p.get "val_num").asF64
    .ok (upsertFts { db with attrIndex } id)
  else if reason = "attribute_value_cleared" then
    let attributeId := strVal p "attribute_id"
    let attrIndex := db.attrIndex.delete fun a => a.productId = id ∧ a.attributeId = attributeId
    .ok (upsertFts { db with attrIndex } id)
  else if reason = "" then
    match db.projection.update? id (setCore (strVal p "title") (strVal p "slug")
      (strVal p "description") ((p.get "price_minor").asI64.getD 0) (strVal p "currency")
      ((p.get "updated_at").asI64.getD 0)) with
    | none => .error (.unique "product_projection.slug")
    | some projection => .ok (upsertFts { db with projection } id)
  else
    match (p.get "updated_at").asI64 with
    | none => .ok db
    | some ts =>
      .ok { db with projection := (db.projection.patch (fun r => r.id = id) (setUpdatedAt ts)
        (setUpdatedAt_id ts) (setUpdatedAt_slug ts)) }

def applyStatusChanged (p : Value) : Except SqlxError CatalogDb :=
  let id := strVal p "id"
  let new := strVal p "to"
  let updatedAt := (p.get "updated_at").asI64.getD 0
  .ok { db with
    projection := db.projection.patch (fun r => r.id = id) (setStatus new updatedAt) }

def applyDeleted (p : Value) : Except SqlxError CatalogDb :=
  let id := strVal p "id"
  let db := deleteFts { db with attrIndex := db.attrIndex.delete fun a => a.productId = id } id
  .ok { db with projection := db.projection.delete fun r => r.id = id }

def handle (ev : DomainEvent) : Except SqlxError CatalogDb :=
  if ev.eventType = "ProductCreated" then applyCreated db ev.payload
  else if ev.eventType = "ProductUpdated" then applyUpdated db ev.payload
  else if ev.eventType ∈ ["ProductPublished", "ProductUnpublished", "ProductArchived"] then
    applyStatusChanged db ev.payload
  else if ev.eventType = "ProductDeleted" then applyDeleted db ev.payload
  else .ok db

/-- The source's name is not looked at. -/
def dispatch (_source : String) (ev : DomainEvent) : Except Relay.DispatchError CatalogDb :=
  match handle db ev with
  | .ok db => .ok db
  | .error e => .error ⟨e.toString⟩

end Handlers

@[simp] theorem deleteFts_projection (db : CatalogDb) (id : String) :
    (deleteFts db id).projection = db.projection := rfl

@[simp] theorem deleteFts_attrIndex (db : CatalogDb) (id : String) :
    (deleteFts db id).attrIndex = db.attrIndex := rfl

@[simp] theorem deleteFts_attributes (db : CatalogDb) (id : String) :
    (deleteFts db id).attributes = db.attributes := rfl

@[simp] theorem upsertFts_projection (db : CatalogDb) (id : String) :
    (upsertFts db id).projection = db.projection := by
  unfold upsertFts
  split <;> rfl

@[simp] theorem upsertFts_attrIndex (db : CatalogDb) (id : String) :
    (upsertFts db id).attrIndex = db.attrIndex := by
  unfold upsertFts
  split <;> rfl

@[simp] theorem upsertFts_attributes (db : CatalogDb) (id : String) :
    (upsertFts db id).attributes = db.attributes := by
  unfold upsertFts
  split <;> rfl

end CatalogProjection

end TinyShop
