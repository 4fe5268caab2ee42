import TinyShop.Product

/-!
# Write operations of `ProductRepo`

`crates/product/src/repository.rs` and `extras.rs`. Each operation is one
transaction: it returns the new database or an error that leaves the old one.
`now` is the reading of the clock for the rows and the payload, `clock` the one
that `enqueue` makes for `created_at`.
-/

namespace TinyShop

open Base
set_option autoImplicit false

inductive ProductError where
  | db (e : SqlxError)
  | invalidEnum (field value : String)
deriving DecidableEq, Repr

def ProductError.toString : ProductError → String
  | .db e => "db: " ++ e.toString
  | .invalidEnum field value => "invalid " ++ field ++ " in row: " ++ value

namespace ProductRepo

def aggregate : String := "product"

section Events

def productSnapshot (p : Product) : Value := .object [
  ("id", .string p.id),
  ("seller_id", .string p.sellerId),
  ("title", .string p.title),
  ("slug", .string p.slug),
  ("description", .string p.description),
  ("price_minor", .ofI64 p.priceMinor),
  ("currency", .string p.currency),
  ("status", .string p.status.asStr),
  ("created_at", .ofI64 p.createdAt),
  ("updated_at", .ofI64 p.updatedAt)]

def productCreated (p : Product) : NewEvent :=
  ⟨aggregate, p.id, "ProductCreated", productSnapshot p⟩

def coreUpdated (id title slug description : String) (priceMinor : Int64) (currency : String)
    (now : Int64) : NewEvent :=
  ⟨aggregate, id, "ProductUpdated", .object [
    ("id", .string id),
    ("title", .string title),
    ("slug", .string slug),
    ("description", .string description),
    ("price_minor", .ofI64 priceMinor),
    ("currency", .string currency),
    ("updated_at", .ofI64 now)]⟩

def statusChanged (id : String) (old new : ProductStatus) (eventType : String) (now : Int64) :
    NewEvent :=
  ⟨aggregate, id, eventType, .object [
    ("id", .string id),
    ("from", .string old.asStr),
    ("to", .string new.asStr),
    ("updated_at", .ofI64 now)]⟩

def productDeleted (id : String) : NewEvent :=
  ⟨aggregate, id, "ProductDeleted", .object [("id", .string id)]⟩

def attributeValueSet (v : ProductAttributeValue) (now : Int64) : NewEvent :=
  ⟨aggregate, v.productId, "ProductUpdated", .object [
    ("id", .string v.productId),
    ("reason", .string "attribute_value_set"),
    ("attribute_id", .string v.attributeId),
    ("data_type", .string v.dataType.asStr),
    ("val_text", .ofOptStr v.valText),
    ("val_num", .ofOptF64 v.valNum),
    ("updated_at", .ofI64 now)]⟩

def attributeValueCleared (productId attributeId : String) (now : Int64) : NewEvent :=
  ⟨aggregate, productId, "ProductUpdated", .object [
    ("id", .string productId),
    ("reason", .string "attribute_value_cleared"),
    ("attribute_id", .string attributeId),
    ("updated_at", .ofI64 now)]⟩

/-- The event of `enqueue_product_updated`. -/
def productUpdated (productId reason : String) (now : Int64) : NewEvent :=
  ⟨aggregate, productId, "ProductUpdated", .object [
    ("id", .string productId),
    ("reason", .string reason),
    ("updated_at", .ofI64 now)]⟩

def statusTransitionEvent : ProductStatus → ProductStatus → Option String
  | .draft, .published => some "ProductPublished"
  | .published, .archived => some "ProductArchived"
  | .published, .draft => some "ProductUnpublished"
  | _, _ => none

end Events

section Operations
variable (db : ProductDb)

def createProduct (p : Product) (clock : Int64) : Except ProductError ProductDb :=
  match db.products.insert? p with
  | none =>
    -- the index that was created last is checked first
    if (db.products.byIndex.find? (p.sellerId, p.slug)).isSome then
      .error (.db (.unique "products.seller_id, products.slug"))
    else .error (.db (.primaryKey "products.id"))
  | some products => .ok ({ db with products }.enqueue (productCreated p) clock)

/-- The columns that `update_product` writes. -/
abbrev setCore (title slug description : String) (priceMinor : Int64) (currency : String)
    (now : Int64) (p : Product) : Product :=
  { p with title, slug, description, priceMinor, currency, updatedAt := now }

/-- The event is written also when no row has the id. -/
def updateProduct (id title slug description : String) (priceMinor : Int64) (currency : String)
    (now clock : Int64) : Except ProductError ProductDb :=
  match db.products.update? id (setCore title slug description priceMinor currency now) with
  | none => .error (.db (.unique "products.seller_id, products.slug"))
  | some products => .ok ({ db with products }.enqueue
      (coreUpdated id title slug description priceMinor currency now) clock)

abbrev setStatusOf (new : ProductStatus) (now : Int64) (p : Product) : Product :=
  { p with status := new, updatedAt := now }

def setStatus (id : String) (new : ProductStatus) (now clock : Int64) :
    Except ProductError ProductDb :=
  match db.products.find? id with
  | none => .ok db
  | some row =>
    match ProductStatus.parse row.status.asStr with
    | none => .error (.invalidEnum "status" row.status.asStr)
    | some old =>
      if old = new then .ok db
      else
        let db := { db with products := db.products.patch (fun p => p.id = id) (setStatusOf new now) }
        match statusTransitionEvent old new with
        | some eventType => .ok (db.enqueue (statusChanged id old new eventType now) clock)
        | none => .ok db

/-- `ON DELETE CASCADE` clears the child tables, the translations are deleted by hand. -/
def deleteProduct (id : String) (clock : Int64) : Except ProductError ProductDb :=
  let variants := (db.digitalVariant.rows.filter fun v => v.productId = id).map (·.id)
  let translations :=
    (db.translations.delete fun t => t.entityType = "product" ∧ t.entityId = id).delete
      fun t => t.entityType = "digital_variant" ∧ t.entityId ∈ variants
  if db.HasProduct id then
    .ok ({ db with
      products := db.products.delete fun p => p.id = id
      productMedia := db.productMedia.delete fun m => m.productId = id
      digitalConfig := db.digitalConfig.delete fun c => c.productId = id
      digitalVariant := db.digitalVariant.delete fun v => v.productId = id
      productAttributeValues := db.productAttributeValues.delete fun v => v.productId = id
      translations }.enqueue (productDeleted id) clock)
  else .ok { db with translations }

def upsertDigitalConfig (c : DigitalConfig) (now clock : Int64) : Except ProductError ProductDb :=
  if db.digitalConfig.find? c.productId = none ∧ ¬db.HasProduct c.productId then
    .error (.db (.foreignKey "digital_config"))
  else
    .ok ({ db with digitalConfig := db.digitalConfig.upsert c fun old =>
        { old with deliveryKind := c.deliveryKind, licenseKind := c.licenseKind, notes := c.notes }
      }.enqueue (productUpdated c.productId "digital_config" now) clock)

def addVariant (v : DigitalVariant) (now clock : Int64) : Except ProductError ProductDb :=
  if free : db.digitalVariant.find? v.id = none then
    if db.HasProduct v.productId then
      .ok ({ db with digitalVariant := db.digitalVariant.insert v free }.enqueue
        (productUpdated v.productId "variant_added" now) clock)
    else .error (.db (.foreignKey "digital_variant"))
  else .error (.db (.primaryKey "digital_variant.id"))

/-- The row is found by its own id, the event names the product given by the caller. -/
def updateVariant (v : DigitalVariant) (now clock : Int64) : Except ProductError ProductDb :=
  .ok ({ db with digitalVariant := db.digitalVariant.update (fun old => old.id = v.id) fun old =>
      { old with
        label := v.label, format := v.format
        priceDeltaMinor := v.priceDeltaMinor, position := v.position }
    }.enqueue (productUpdated v.productId "variant_updated" now) clock)

def removeVariant (productId variantId : String) (now clock : Int64) :
    Except ProductError ProductDb :=
  .ok ({ db with
    translations := db.translations.delete fun t =>
      t.entityType = "digital_variant" ∧ t.entityId = variantId
    digitalVariant := db.digitalVariant.delete fun v => v.id = variantId ∧ v.productId = productId
    }.enqueue (productUpdated productId "variant_removed" now) clock)

def addMedia (m : ProductMedia) (now clock : Int64) : Except ProductError ProductDb :=
  if free : db.productMedia.find? m.id = none then
    if db.HasProduct m.productId then
      .ok ({ db with productMedia := db.productMedia.insert m free }.enqueue
        (productUpdated m.productId "media_added" now) clock)
    else .error (.db (.foreignKey "product_media"))
  else .error (.db (.primaryKey "product_media.id"))

def removeMedia (productId mediaId : String) (now clock : Int64) : Except ProductError ProductDb :=
  .ok ({ db with
    productMedia := db.productMedia.delete fun m => m.id = mediaId ∧ m.productId = productId
    }.enqueue (productUpdated productId "media_removed" now) clock)

def setAttributeValue (v : ProductAttributeValue) (now clock : Int64) :
    Except ProductError ProductDb :=
  let row := { v with valNum := F64.column v.valNum }
  if db.productAttributeValues.find? (v.productId, v.attributeId) = none ∧
      ¬db.HasProduct v.productId then
    .error (.db (.foreignKey "product_attribute_values"))
  else
    .ok ({ db with productAttributeValues := db.productAttributeValues.upsert row fun old =>
        { old with dataType := row.dataType, valText := row.valText, valNum := row.valNum }
      }.enqueue (attributeValueSet v now) clock)

def clearAttributeValue (productId attributeId : String) (now clock : Int64) :
    Except ProductError ProductDb :=
  .ok ({ db with productAttributeValues := db.productAttributeValues.delete fun v =>
      v.productId = productId ∧ v.attributeId = attributeId
    }.enqueue (attributeValueCleared productId attributeId now) clock)

def setTranslation (productId entityType entityId : String) (lang : Lang) (field value : String)
    (now clock : Int64) : Except ProductError ProductDb :=
  let row : Translation := ⟨entityType, entityId, lang, field, value⟩
  if entityType ∈ ["product", "digital_variant"] ∧ field ∈ ["title", "description", "label"] then
    .ok ({ db with translations := db.translations.upsert row fun old => { old with value }
      }.enqueue (productUpdated productId "translation_set" now) clock)
  else .error (.db (.check "translations"))

end Operations

/-- A call of one of the write operations. -/
inductive Call where
  | createProduct (p : Product)
  | updateProduct (id title slug description : String) (priceMinor : Int64) (currency : String)
  | setStatus (id : String) (new : ProductStatus)
  | deleteProduct (id : String)
  | upsertDigitalConfig (c : DigitalConfig)
  | addVariant (v : DigitalVariant)
  | updateVariant (v : DigitalVariant)
  | removeVariant (productId variantId : String)
  | addMedia (m : ProductMedia)
  | removeMedia (productId mediaId : String)
  | setAttributeValue (v : ProductAttributeValue)
  | clearAttributeValue (productId attributeId : String)
  | setTranslation (productId entityType entityId : String) (lang : Lang) (field value : String)

namespace Call

def run (db : ProductDb) (now clock : Int64) : Call → Except ProductError ProductDb
  | .createProduct p => ProductRepo.createProduct db p clock
  | .updateProduct id title slug description priceMinor currency =>
    ProductRepo.updateProduct db id title slug description priceMinor currency now clock
  | .setStatus id new => ProductRepo.setStatus db id new now clock
  | .deleteProduct id => ProductRepo.deleteProduct db id clock
  | .upsertDigitalConfig c => ProductRepo.upsertDigitalConfig db c now clock
  | .addVariant v => ProductRepo.addVariant db v now clock
  | .updateVariant v => ProductRepo.updateVariant db v now clock
  | .removeVariant productId variantId => ProductRepo.removeVariant db productId variantId now clock
  | .addMedia m => ProductRepo.addMedia db m now clock
  | .removeMedia productId mediaId => ProductRepo.removeMedia db productId mediaId now clock
  | .setAttributeValue v => ProductRepo.setAttributeValue db v now clock
  | .clearAttributeValue productId attributeId =>
    ProductRepo.clearAttributeValue db productId attributeId now clock
  | .setTranslation productId entityType entityId lang field value =>
    ProductRepo.setTranslation db productId entityType entityId lang field value now clock

/-- The product that the call is addressed to. -/
def productId : Call → String
  | .createProduct p => p.id
  | .updateProduct id _ _ _ _ _ => id
  | .setStatus id _ => id
  | .deleteProduct id => id
  | .upsertDigitalConfig c => c.productId
  | .addVariant v => v.productId
  | .updateVariant v => v.productId
  | .removeVariant productId _ => productId
  | .addMedia m => m.productId
  | .removeMedia productId _ => productId
  | .setAttributeValue v => v.productId
  | .clearAttributeValue productId _ => productId
  | .setTranslation productId _ _ _ _ _ => productId

/-- The call writes the slug of a product. -/
def setsSlug : Call → Bool
  | .createProduct _ => true
  | .updateProduct _ _ _ _ _ _ => true
  | _ => false

/-- The call writes an event that says no more than that the product changed. -/
def touches : Call → Bool
  | .upsertDigitalConfig _ => true
  | .addVariant _ => true
  | .updateVariant _ => true
  | .removeVariant _ _ => true
  | .addMedia _ => true
  | .removeMedia _ _ => true
  | .setTranslation _ _ _ _ _ _ => true
  | _ => false

theorem setsSlug_of_touches {call : Call} (h : call.touches = true) : call.setsSlug = false := by
  cases call <;> first | rfl | cases h

end Call

/-- The reasons of events that say no more than that the product changed. -/
def touchReasons : List String :=
  ["digital_config", "variant_added", "variant_updated", "variant_removed", "media_added",
    "media_removed", "translation_set"]

/-- What a call does to the products and which event it writes. -/
inductive Change (t : Products) : Call → Products → Option NewEvent → Prop where
  | created (p : Product) {u : Products} : t.insert? p = some u →
      Change t (.createProduct p) u (some (productCreated p))
  | core (id title slug description : String) (priceMinor : Int64) (currency : String)
      (now : Int64) {u : Products} :
      t.update? id (setCore title slug description priceMinor currency now) = some u →
      Change t (.updateProduct id title slug description priceMinor currency) u
        (some (coreUpdated id title slug description priceMinor currency now))
  | status (id : String) (new : ProductStatus) (now : Int64) {p : Product} :
      t.find? id = some p → p.status ≠ new →
      Change t (.setStatus id new) (t.patch (fun p => p.id = id) (setStatusOf new now))
        ((statusTransitionEvent p.status new).map fun ty => statusChanged id p.status new ty now)
  | deleted (id : String) {p : Product} : t.find? id = some p →
      Change t (.deleteProduct id) (t.delete fun p => p.id = id) (some (productDeleted id))
  | attributeSet (v : ProductAttributeValue) (now : Int64) :
      Change t (.setAttributeValue v) t (some (attributeValueSet v now))
  | attributeCleared (productId attributeId : String) (now : Int64) :
      Change t (.clearAttributeValue productId attributeId) t
        (some (attributeValueCleared productId attributeId now))
  | touched (call : Call) {reason : String} (now : Int64) :
      call.touches = true → reason ∈ touchReasons →
      Change t call t (some (productUpdated call.productId reason now))
  | unchanged (call : Call) : call.setsSlug = false → Change t call t none

/-- Appends the event of a change, if there is one. -/
def record (o : Outbox) (clock : Int64) : Option NewEvent → Outbox
  | none => o
  | some ev => o.enqueue ev clock

section Inversion
variable {db db' : ProductDb} {now clock : Int64}

theorem createProduct_ok {p : Product} (h : createProduct db p clock = .ok db') :
    ∃ products, db.products.insert? p = some products ∧
      db' = { db with products }.enqueue (productCreated p) clock := by
  unfold createProduct at h
  split at h
  · split at h <;> cases h
  · rename_i products hins
    exact ⟨products, hins, (Except.ok.inj h).symm⟩

theorem updateProduct_ok {id title slug description currency : String} {priceMinor : Int64}
    (h : updateProduct db id title slug description priceMinor currency now clock = .ok db') :
    ∃ products,
      db.products.update? id (setCore title slug description priceMinor currency now) =
        some products ∧
      db' = { db with products }.enqueue
        (coreUpdated id title slug description priceMinor currency now) clock := by
  unfold updateProduct at h
  split at h
  · cases h
  · rename_i products hupdate
    exact ⟨products, hupdate, (Except.ok.inj h).symm⟩

/-- Nothing changes, or the row gets the status and the transition may have an event. -/
theorem setStatus_ok {id : String} {new : ProductStatus}
    (h : setStatus db id new now clock = .ok db') :
    db' = db ∨ ∃ p, db.products.find? id = some p ∧ p.status ≠ new ∧ db' = { db with
      products := db.products.patch (fun p => p.id = id) (setStatusOf new now)
      outbox := record db.outbox clock ((statusTransitionEvent p.status new).map fun ty =>
        statusChanged id p.status new ty now) } := by
  unfold setStatus at h
  cases hfind : db.products.find? id with
  | none =>
    simp only [hfind, Except.ok.injEq] at h
    exact Or.inl h.symm
  | some row =>
    simp only [hfind, ProductStatus.parse_asStr] at h
    by_cases hsame : row.status = new
    · simp only [hsame, if_true, Except.ok.injEq] at h
      exact Or.inl h.symm
    · simp only [hsame, if_false] at h
      refine Or.inr ⟨row, rfl, hsame, ?_⟩
      cases htransition : statusTransitionEvent row.status new with
      | none =>
        rw [htransition] at h
        exact (Except.ok.inj h).symm
      | some ty =>
        rw [htransition] at h
        exact (Except.ok.inj h).symm

theorem deleteProduct_ok {id : String} (h : deleteProduct db id clock = .ok db') :
    let variants := (db.digitalVariant.rows.filter fun v => v.productId = id).map (·.id)
    let translations :=
      (db.translations.delete fun t => t.entityType = "product" ∧ t.entityId = id).delete
        fun t => t.entityType = "digital_variant" ∧ t.entityId ∈ variants
    (db.HasProduct id ∧ db' = { db with
      products := db.products.delete fun p => p.id = id
      productMedia := db.productMedia.delete fun m => m.productId = id
      digitalConfig := db.digitalConfig.delete fun c => c.productId = id
      digitalVariant := db.digitalVariant.delete fun v => v.productId = id
      productAttributeValues := db.productAttributeValues.delete fun v => v.productId = id
      translations }.enqueue (productDeleted id) clock) ∨
    ¬db.HasProduct id ∧ db' = { db with translations } := by
  unfold deleteProduct at h
  by_cases hhas : db.HasProduct id
  · simp only [hhas, if_true, Except.ok.injEq] at h
    exact Or.inl ⟨hhas, h.symm⟩
  · simp only [hhas, if_false, Except.ok.injEq] at h
    exact Or.inr ⟨hhas, h.symm⟩

theorem upsertDigitalConfig_ok {c : DigitalConfig}
    (h : upsertDigitalConfig db c now clock = .ok db') :
    db' = { db with digitalConfig := db.digitalConfig.upsert c fun old =>
        { old with deliveryKind := c.deliveryKind, licenseKind := c.licenseKind, notes := c.notes }
      }.enqueue (productUpdated c.productId "digital_config" now) clock := by
  unfold upsertDigitalConfig at h
  split at h
  · cases h
  · exact (Except.ok.inj h).symm

theorem addVariant_ok {v : DigitalVariant} (h : addVariant db v now clock = .ok db') :
    ∃ free, db' = { db with digitalVariant := db.digitalVariant.insert v free }.enqueue
      (productUpdated v.productId "variant_added" now) clock := by
  unfold addVariant at h
  split at h
  · rename_i free
    split at h
    · exact ⟨free, (Except.ok.inj h).symm⟩
    · cases h
  · cases h

theorem addMedia_ok {m : ProductMedia} (h : addMedia db m now clock = .ok db') :
    ∃ free, db' = { db with productMedia := db.productMedia.insert m free }.enqueue
      (productUpdated m.productId "media_added" now) clock := by
  unfold addMedia at h
  split at h
  · rename_i free
    split at h
    · exact ⟨free, (Except.ok.inj h).symm⟩
    · cases h
  · cases h

theorem setAttributeValue_ok {v : ProductAttributeValue}
    (h : setAttributeValue db v now clock = .ok db') :
    db' = { db with productAttributeValues :=
        db.productAttributeValues.upsert { v with valNum := F64.column v.valNum } fun old =>
          { old with
            dataType := v.dataType, valText := v.valText, valNum := F64.column v.valNum }
      }.enqueue (attributeValueSet v now) clock := by
  unfold setAttributeValue at h
  simp only at h
  split at h
  · cases h
  · exact (Except.ok.inj h).symm

theorem setTranslation_ok {productId entityType entityId field value : String} {lang : Lang}
    (h : setTranslation db productId entityType entityId lang field value now clock = .ok db') :
    field ∈ ["title", "description", "label"] ∧ db' = { db with
      translations := db.translations.upsert ⟨entityType, entityId, lang, field, value⟩
        fun old => { old with value }
      }.enqueue (productUpdated productId "translation_set" now) clock := by
  unfold setTranslation at h
  simp only at h
  split at h
  · rename_i hcheck
    exact ⟨hcheck.2, (Except.ok.inj h).symm⟩
  · cases h

/-- A successful transaction, seen from the products and the outbox. -/
def Commits (db db' : ProductDb) (clock : Int64) (call : Call) : Prop :=
  ∃ ev, Change db.products call db'.products ev ∧ db'.outbox = record db.outbox clock ev

theorem commits_unchanged {call : Call} (hcall : call.setsSlug = false)
    (hp : db'.products = db.products) (ho : db'.outbox = db.outbox) :
    Commits db db' clock call := by
  refine ⟨none, ?_, ho⟩
  rw [hp]
  exact .unchanged call hcall

theorem commits_touched {call : Call} {reason : String} (hcall : call.touches = true)
    (hr : reason ∈ touchReasons) (hp : db'.products = db.products)
    (ho : db'.outbox = db.outbox.enqueue (productUpdated call.productId reason now) clock) :
    Commits db db' clock call := by
  refine ⟨some (productUpdated call.productId reason now), ?_, ho⟩
  rw [hp]
  exact .touched call now hcall hr

theorem createProduct_commits {p : Product} (h : createProduct db p clock = .ok db') :
    Commits db db' clock (.createProduct p) := by
  obtain ⟨products, hins, rfl⟩ := createProduct_ok h
  exact ⟨_, .created p hins, rfl⟩

theorem updateProduct_commits {id title slug description currency : String} {priceMinor : Int64}
    (h : updateProduct db id title slug description priceMinor currency now clock = .ok db') :
    Commits db db' clock (.updateProduct id title slug description priceMinor currency) := by
  obtain ⟨products, hupdate, rfl⟩ := updateProduct_ok h
  exact ⟨_, .core id title slug description priceMinor currency now hupdate, rfl⟩

theorem setStatus_commits {id : String} {new : ProductStatus}
    (h : setStatus db id new now clock = .ok db') : Commits db db' clock (.setStatus id new) := by
  rcases setStatus_ok h with rfl | ⟨p, hfind, hne, rfl⟩
  · exact commits_unchanged rfl rfl rfl
  · exact ⟨_, .status id new now hfind hne, rfl⟩

theorem deleteProduct_commits {id : String} (h : deleteProduct db id clock = .ok db') :
    Commits db db' clock (.deleteProduct id) := by
  rcases deleteProduct_ok h with ⟨hhas, rfl⟩ | ⟨_, rfl⟩
  · obtain ⟨p, hp⟩ := Option.isSome_iff_exists.mp hhas
    exact ⟨_, .deleted id hp, rfl⟩
  · exact commits_unchanged rfl rfl rfl

theorem upsertDigitalConfig_commits {c : DigitalConfig}
    (h : upsertDigitalConfig db c now clock = .ok db') :
    Commits db db' clock (.upsertDigitalConfig c) := by
  obtain rfl := upsertDigitalConfig_ok h
  exact commits_touched rfl (by decide) rfl rfl

theorem addVariant_commits {v : DigitalVariant} (h : addVariant db v now clock = .ok db') :
    Commits db db' clock (.addVariant v) := by
  obtain ⟨_, rfl⟩ := addVariant_ok h
  exact commits_touched rfl (by decide) rfl rfl

theorem addMedia_commits {m : ProductMedia} (h : addMedia db m now clock = .ok db') :
    Commits db db' clock (.addMedia m) := by
  obtain ⟨_, rfl⟩ := addMedia_ok h
  exact commits_touched rfl (by decide) rfl rfl

theorem setAttributeValue_commits {v : ProductAttributeValue}
    (h : setAttributeValue db v now clock = .ok db') :
    Commits db db' clock (.setAttributeValue v) := by
  obtain rfl := setAttributeValue_ok h
  exact ⟨_, .attributeSet v now, rfl⟩

theorem setTranslation_commits {productId entityType entityId field value : String} {lang : Lang}
    (h : setTranslation db productId entityType entityId lang field value now clock = .ok db') :
    Commits db db' clock (.setTranslation productId entityType entityId lang field value) := by
  obtain ⟨_, rfl⟩ := setTranslation_ok h
  exact commits_touched rfl (by decide) rfl rfl

/-- Every successful call is one of the changes. -/
theorem Call.run_commits {call : Call} (h : call.run db now clock = .ok db') :
    Commits db db' clock call := by
  cases call with
  | createProduct p => exact createProduct_commits h
  | updateProduct id title slug description priceMinor currency => exact updateProduct_commits h
  | setStatus id new => exact setStatus_commits h
  | deleteProduct id => exact deleteProduct_commits h
  | upsertDigitalConfig c => exact upsertDigitalConfig_commits h
  | addVariant v => exact addVariant_commits h
  | updateVariant v =>
    cases h
    exact commits_touched rfl (by decide) rfl rfl
  | removeVariant productId variantId =>
    cases h
    exact commits_touched rfl (by decide) rfl rfl
  | addMedia m => exact addMedia_commits h
  | removeMedia productId mediaId =>
    cases h
    exact commits_touched rfl (by decide) rfl rfl
  | setAttributeValue v => exact setAttributeValue_commits h
  | clearAttributeValue productId attributeId =>
    cases h
    exact ⟨_, .attributeCleared productId attributeId now, rfl⟩
  | setTranslation productId entityType entityId lang field value => exact setTranslation_commits h

end Inversion

end ProductRepo

end TinyShop
