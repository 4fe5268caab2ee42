import TinyShop.Base.Replay
import TinyShop.ProductRepo
import TinyShop.Projection

/-!
# Meaning of a product event

What the projection reads out of an event, as a typed value, and what it does with it.
The handlers on JSON payloads are this reading followed by `apply`; the events that
`ProductRepo` writes are read back as what the repository meant.
-/

namespace TinyShop

open Base CatalogProjection
set_option autoImplicit false

inductive ProductEvent where
  | created (row : ProjectionRow)
  | attributeSet (id attributeId : String) (valText : Option String) (valNum : Option F64)
  | attributeCleared (id attributeId : String)
  | core (id title slug description : String) (priceMinor : Int64) (currency : String)
      (updatedAt : Int64)
  | touched (id : String) (updatedAt : Option Int64)
  | statusChanged (id status : String) (updatedAt : Int64)
  | deleted (id : String)
  | other

namespace ProductEvent

def readUpdated (p : Value) : ProductEvent :=
  let id := strVal p "id"
  let reason := ((p.get "reason").asStr).getD ""
  if reason = "attribute_value_set" then
    .attributeSet id (strVal p "attribute_id") (p.get "val_text").asStr (p.get "val_num").asF64
  else if reason = "attribute_value_cleared" then .attributeCleared id (strVal p "attribute_id")
  else if reason = "" then
    .core id (strVal p "title") (strVal p "slug") (strVal p "description")
      ((p.get "price_minor").asI64.getD 0) (strVal p "currency")
      ((p.get "updated_at").asI64.getD 0)
  else .touched id (p.get "updated_at").asI64

def read (eventType : String) (p : Value) : ProductEvent :=
  if eventType = "ProductCreated" then
    .created {
      id := strVal p "id"
      sellerId := strVal p "seller_id"
      title := strVal p "title"
      slug := strVal p "slug"
      description := strVal p "description"
      priceMinor := (p.get "price_minor").asI64.getD 0
      currency := strVal p "currency"
      status := strVal p "status"
      categoryId := none
      thumb := none
      createdAt := (p.get "created_at").asI64.getD 0
      updatedAt := (p.get "updated_at").asI64.getD 0 }
  else if eventType = "ProductUpdated" then readUpdated p
  else if eventType ∈ ["ProductPublished", "ProductUnpublished", "ProductArchived"] then
    .statusChanged (strVal p "id") (strVal p "to") ((p.get "updated_at").asI64.getD 0)
  else if eventType = "ProductDeleted" then .deleted (strVal p "id")
  else .other

/-- The product that an event is about. -/
def id? : ProductEvent → Option String
  | .created row => some row.id
  | .attributeSet id _ _ _ => some id
  | .attributeCleared id _ => some id
  | .core id _ _ _ _ _ _ => some id
  | .touched id _ => some id
  | .statusChanged id _ _ => some id
  | .deleted id => some id
  | .other => none

def apply (db : CatalogDb) : ProductEvent → Except SqlxError CatalogDb
  | .created row =>
    .ok (upsertFts { db with projection := (db.projection.insert? row).getD db.projection } row.id)
  | .attributeSet id attributeId valText valNum =>
    .ok (upsertFts { db with attrIndex := setAttr db id attributeId valText valNum } id)
  | .attributeCleared id attributeId =>
    .ok (upsertFts { db with
      attrIndex := db.attrIndex.delete fun a => a.productId = id ∧ a.attributeId = attributeId } id)
  | .core id title slug description priceMinor currency updatedAt =>
    match db.projection.update? id
      (CatalogProjection.setCore title slug description priceMinor currency updatedAt) with
    | none => .error (.unique "product_projection.slug")
    | some projection => .ok (upsertFts { db with projection } id)
  | .touched id updatedAt =>
    match updatedAt with
    | none => .ok db
    | some ts =>
      .ok { db with projection := (db.projection.patch (fun r => r.id = id) (setUpdatedAt ts)
        (setUpdatedAt_id ts) (setUpdatedAt_slug ts)) }
  | .statusChanged id status updatedAt =>
    .ok { db with projection :=
      db.projection.patch (fun r => r.id = id) (CatalogProjection.setStatus status updatedAt) }
  | .deleted id =>
    let db := deleteFts { db with attrIndex := db.attrIndex.delete fun a => a.productId = id } id
    .ok { db with projection := db.projection.delete fun r => r.id = id }
  | .other => .ok db

theorem applyUpdated_eq (db : CatalogDb) (p : Value) :
    applyUpdated db p = (readUpdated p).apply db := by
  unfold applyUpdated readUpdated
  by_cases hset : ((p.get "reason").asStr).getD "" = "attribute_value_set"
  · rw [if_pos hset, if_pos hset]
    rfl
  · rw [if_neg hset, if_neg hset]
    by_cases hcleared : ((p.get "reason").asStr).getD "" = "attribute_value_cleared"
    · rw [if_pos hcleared, if_pos hcleared]
      rfl
    · rw [if_neg hcleared, if_neg hcleared]
      by_cases hempty : ((p.get "reason").asStr).getD "" = ""
      · rw [if_pos hempty, if_pos hempty]
        rfl
      · rw [if_neg hempty, if_neg hempty]
        rfl

/-- The handlers read the payload and apply what they read. -/
theorem handle_eq (db : CatalogDb) (ev : DomainEvent) :
    handle db ev = (read ev.eventType ev.payload).apply db := by
  unfold handle read
  split
  · rfl
  · split
    · exact applyUpdated_eq db ev.payload
    · split
      · rfl
      · split
        · rfl
        · rfl

end ProductEvent

/-- What an event in an outbox means to the projection. -/
def DomainEvent.meaning (ev : DomainEvent) : ProductEvent := .read ev.eventType ev.payload

def NewEvent.meaning (ev : NewEvent) : ProductEvent := .read ev.eventType ev.payload

theorem CatalogProjection.dispatch_ok_iff {db db' : CatalogDb} {source : String}
    {ev : DomainEvent} : dispatch db source ev = .ok db' ↔ ev.meaning.apply db = .ok db' := by
  unfold dispatch
  rw [ProductEvent.handle_eq]
  unfold DomainEvent.meaning
  split <;> rename_i h <;> simp [h]

theorem CatalogProjection.dispatch_error_iff {db : CatalogDb} {source : String}
    {ev : DomainEvent} : (∃ e, dispatch db source ev = .error e) ↔
      ∃ e, ev.meaning.apply db = .error e := by
  unfold dispatch
  rw [ProductEvent.handle_eq]
  unfold DomainEvent.meaning
  split <;> rename_i h <;> simp [h]

namespace ProductRepo

/-- The projection row of a product just created. -/
def rowOf (p : Product) : ProjectionRow where
  id := p.id
  sellerId := p.sellerId
  title := p.title
  slug := p.slug
  description := p.description
  priceMinor := p.priceMinor
  currency := p.currency
  status := p.status.asStr
  categoryId := none
  thumb := none
  createdAt := p.createdAt
  updatedAt := p.updatedAt

theorem productCreated_meaning (p : Product) : (productCreated p).meaning = .created (rowOf p) := by
  simp [NewEvent.meaning, productCreated, productSnapshot, ProductEvent.read, strVal, Value.get,
    List.lookup, rowOf]

theorem coreUpdated_meaning (id title slug description : String) (priceMinor : Int64)
    (currency : String) (now : Int64) :
    (coreUpdated id title slug description priceMinor currency now).meaning =
      .core id title slug description priceMinor currency now := by
  simp [NewEvent.meaning, coreUpdated, ProductEvent.read, ProductEvent.readUpdated, strVal,
    Value.get, List.lookup]

theorem statusChanged_meaning {old new : ProductStatus} {ty : String}
    (h : statusTransitionEvent old new = some ty) (id : String) (now : Int64) :
    (statusChanged id old new ty now).meaning = .statusChanged id new.asStr now := by
  have hty : ty ∈ ["ProductPublished", "ProductUnpublished", "ProductArchived"] := by
    cases old <;> cases new <;> simp_all [statusTransitionEvent]
  have hcreated : ty ≠ "ProductCreated" := by
    rintro rfl
    revert hty
    decide
  have hupdated : ty ≠ "ProductUpdated" := by
    rintro rfl
    revert hty
    decide
  simp only [NewEvent.meaning, statusChanged, ProductEvent.read, hty, hcreated, hupdated, if_true,
    if_false]
  simp [strVal, Value.get, List.lookup]

theorem productDeleted_meaning (id : String) : (productDeleted id).meaning = .deleted id := by
  simp [NewEvent.meaning, productDeleted, ProductEvent.read, strVal, Value.get, List.lookup]

theorem attributeValueSet_meaning (v : ProductAttributeValue) (now : Int64) :
    (attributeValueSet v now).meaning = .attributeSet v.productId v.attributeId v.valText
      (Value.ofOptF64 v.valNum).asF64 := by
  simp [NewEvent.meaning, attributeValueSet, ProductEvent.read, ProductEvent.readUpdated, strVal,
    Value.get, List.lookup]

theorem attributeValueCleared_meaning (productId attributeId : String) (now : Int64) :
    (attributeValueCleared productId attributeId now).meaning =
      .attributeCleared productId attributeId := by
  simp [NewEvent.meaning, attributeValueCleared, ProductEvent.read, ProductEvent.readUpdated,
    strVal, Value.get, List.lookup]

theorem productUpdated_meaning {reason : String} (h : reason ∈ touchReasons) (productId : String)
    (now : Int64) : (productUpdated productId reason now).meaning = .touched productId (some now) := by
  have hset : reason ≠ "attribute_value_set" := by
    rintro rfl
    revert h
    decide
  have hcleared : reason ≠ "attribute_value_cleared" := by
    rintro rfl
    revert h
    decide
  have hempty : reason ≠ "" := by
    rintro rfl
    revert h
    decide
  simp [NewEvent.meaning, productUpdated, ProductEvent.read, ProductEvent.readUpdated, strVal,
    Value.get, List.lookup, hset, hcleared, hempty]

end ProductRepo

end TinyShop
