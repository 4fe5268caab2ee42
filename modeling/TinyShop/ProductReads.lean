import TinyShop.ProductRepo

/-!
# Reading products

The readers of `crates/product/src/repository.rs` and `extras.rs`. A text that is
translated comes in the language asked for, and any other in its canonical form.
-/

namespace TinyShop

open Base
set_option autoImplicit false

namespace ProductRepo

section Reads
variable (db : ProductDb) (lang : Lang)

/-- `COALESCE(t.value, canon)` after a `LEFT JOIN`: the key has at most one translation. -/
def translated (entityType entityId field canon : String) : String :=
  ((db.translations.find? (entityType, entityId, lang, field)).map Translation.value).getD canon

/-- A row of the `SELECT`; the status is still a text. -/
structure ProductRow where
  id : String
  sellerId : String
  title : String
  slug : String
  description : String
  priceMinor : Int64
  currency : String
  status : String
  createdAt : Int64
  updatedAt : Int64

def productFromRow (row : ProductRow) : Except ProductError Product :=
  match ProductStatus.parse row.status with
  | none => .error (.invalidEnum "status" row.status)
  | some status => .ok {
      id := row.id, sellerId := row.sellerId, title := row.title, slug := row.slug
      description := row.description, priceMinor := row.priceMinor, currency := row.currency
      status, createdAt := row.createdAt, updatedAt := row.updatedAt }

/-- The columns of `product_select_with_translations`. -/
def selectWithTranslations (p : Product) : ProductRow where
  id := p.id
  sellerId := p.sellerId
  title := translated db lang "product" p.id "title" p.title
  slug := p.slug
  description := translated db lang "product" p.id "description" p.description
  priceMinor := p.priceMinor
  currency := p.currency
  status := p.status.asStr
  createdAt := p.createdAt
  updatedAt := p.updatedAt

def getProduct (id : String) : Except ProductError (Option Product) :=
  match (db.products.rows.filter fun p => p.id = id).head? with
  | none => .ok none
  | some p => some <$> productFromRow (selectWithTranslations db lang p)

def variantLe (v w : DigitalVariant) : Bool :=
  v.position < w.position || v.position = w.position && !(w.id < v.id)

def listVariants (productId : String) : Except ProductError (List DigitalVariant) :=
  let rows := (db.digitalVariant.rows.filter fun v => v.productId = productId).insertionSort
    fun v w => variantLe v w
  .ok (rows.map fun v =>
    { v with label := translated db lang "digital_variant" v.id "label" v.label })

end Reads

section Canonical
variable {db : ProductDb} {lang : Lang}

/-- Without a translation of the field the canonical text is read. -/
theorem translated_of_none {entityType entityId field canon : String}
    (h : ∀ t ∈ db.translations.rows, ¬(t.entityType = entityType ∧ t.entityId = entityId)) :
    translated db lang entityType entityId field canon = canon := by
  have hnone : db.translations.find? (entityType, entityId, lang, field) = none := by
    refine Table.find?_eq_none_iff.mpr fun t ht hkey => ?_
    obtain ⟨htype, hkey⟩ := Prod.mk.inj hkey
    exact h t ht ⟨htype, (Prod.mk.inj hkey).1⟩
  simp [translated, hnone]

/-- A product without translations is read as it was stored. -/
theorem getProduct_canonical {p : Product} (hp : db.products.find? p.id = some p)
    (h : ∀ t ∈ db.translations.rows, ¬(t.entityType = "product" ∧ t.entityId = p.id)) :
    getProduct db lang p.id = .ok (some p) := by
  have hhead : (db.products.rows.filter fun q => q.id = p.id).head? = some p := by
    rw [List.head?_filter]
    exact hp
  have hrow : selectWithTranslations db lang p = ⟨p.id, p.sellerId, p.title, p.slug, p.description,
      p.priceMinor, p.currency, p.status.asStr, p.createdAt, p.updatedAt⟩ := by
    simp [selectWithTranslations, translated_of_none h]
  unfold getProduct
  rw [hhead]
  change some <$> productFromRow (selectWithTranslations db lang p) = _
  rw [hrow]
  simp only [productFromRow, ProductStatus.parse_asStr]
  rfl

/-- A variant without translations is listed as it was stored, and once. -/
theorem listVariants_canonical {v : DigitalVariant} (hv : v ∈ db.digitalVariant.rows)
    (h : ∀ t ∈ db.translations.rows, ¬(t.entityType = "digital_variant" ∧ t.entityId = v.id)) :
    ∃ rows, listVariants db lang v.productId = .ok rows ∧ v ∈ rows ∧
      ∀ w ∈ rows, w.id = v.id → w = v := by
  have hlabel : ∀ w ∈ db.digitalVariant.rows, w.id = v.id →
      { w with label := translated db lang "digital_variant" w.id "label" w.label } = v := by
    intro w hw hid
    have hfind := Table.find?_of_mem hw
    rw [hid, Table.find?_of_mem hv] at hfind
    obtain rfl := Option.some.inj hfind
    rw [translated_of_none h]
  refine ⟨_, rfl, ?_, ?_⟩
  · refine List.mem_map.mpr ⟨v, (List.mem_insertionSort _).mpr ?_, hlabel v hv rfl⟩
    simp [hv]
  · intro w hw hid
    obtain ⟨w', hw', rfl⟩ := List.mem_map.mp hw
    have hmem := (List.mem_insertionSort _).mp hw'
    exact hlabel w' (List.mem_filter.mp hmem).1 hid

end Canonical

end ProductRepo

end TinyShop
