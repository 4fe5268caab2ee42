import TinyShop.Base.Paging
import TinyShop.ProductHistory
import TinyShop.ProductReads
import Mathlib.Data.Prod.Lex

/-!
# What belongs to a product

The readers of `crates/product/src/extras.rs`: the digital configuration, the media and the
values of attributes, next to the variants. In every history of the product database they
give back what was written last, in the order of display, and refuse no row for the text
of its kind.
-/

namespace TinyShop

open Base
set_option autoImplicit false

/-! ## Rows -/

namespace ProductRepo

/-- The value of a column that holds the text of an enumeration. -/
def parsed {κ : Type} (parse : String → Option κ) (field raw : String) :
    Except ProductError κ :=
  match parse raw with
  | some kind => .ok kind
  | none => .error (.invalidEnum field raw)

structure DigitalConfigRow where
  productId : String
  deliveryKind : String
  licenseKind : Option String
  notes : Option String

def digitalConfigFromRow (row : DigitalConfigRow) : Except ProductError DigitalConfig := do
  let deliveryKind ← parsed DeliveryKind.parse "delivery_kind" row.deliveryKind
  let licenseKind ← row.licenseKind.mapM (parsed LicenseKind.parse "license_kind")
  return ⟨row.productId, deliveryKind, licenseKind, row.notes⟩

structure ProductMediaRow where
  id : String
  productId : String
  kind : String
  url : String
  position : Int64

def productMediaFromRow (row : ProductMediaRow) : Except ProductError ProductMedia := do
  let kind ← parsed MediaKind.parse "kind" row.kind
  return ⟨row.id, row.productId, kind, row.url, row.position⟩

structure AttributeValueRow where
  productId : String
  attributeId : String
  dataType : String
  valText : Option String
  valNum : Option F64

def attributeValueFromRow (row : AttributeValueRow) :
    Except ProductError ProductAttributeValue := do
  let dataType ← parsed DataType.parse "data_type" row.dataType
  return ⟨row.productId, row.attributeId, dataType, row.valText, row.valNum⟩

/-! The columns that the write operations bind. -/

def configColumns (c : DigitalConfig) : DigitalConfigRow :=
  ⟨c.productId, c.deliveryKind.asStr, c.licenseKind.map LicenseKind.asStr, c.notes⟩

def mediaColumns (m : ProductMedia) : ProductMediaRow :=
  ⟨m.id, m.productId, m.kind.asStr, m.url, m.position⟩

def valueColumns (v : ProductAttributeValue) : AttributeValueRow :=
  ⟨v.productId, v.attributeId, v.dataType.asStr, v.valText, v.valNum⟩

section Readers
variable (db : ProductDb)

def getDigitalConfig (productId : String) : Except ProductError (Option DigitalConfig) :=
  (db.digitalConfig.find? productId).mapM fun c => digitalConfigFromRow (configColumns c)

def mediaLe (m n : ProductMedia) : Bool :=
  m.position < n.position || m.position = n.position && !(n.id < m.id)

def listMedia (productId : String) : Except ProductError (List ProductMedia) :=
  let rows := (db.productMedia.rows.filter fun m => m.productId = productId).insertionSort
    fun m n => mediaLe m n
  rows.mapM fun m => productMediaFromRow (mediaColumns m)

def listAttributeValues (productId : String) :
    Except ProductError (List ProductAttributeValue) :=
  let rows := (db.productAttributeValues.rows.filter fun v => v.productId = productId).insertionSort
    fun v w => !(w.attributeId < v.attributeId)
  rows.mapM fun v => attributeValueFromRow (valueColumns v)

end Readers

section Parsing

theorem parsed_ok {κ : Type} {parse : String → Option κ} (field : String) {raw : String}
    {kind : κ} (h : parse raw = some kind) : parsed parse field raw = .ok kind := by
  rw [parsed, h]

theorem digitalConfigFromRow_columns (c : DigitalConfig) :
    digitalConfigFromRow (configColumns c) = .ok c := by
  have hdelivery := parsed_ok "delivery_kind" (DeliveryKind.parse_asStr c.deliveryKind)
  have hlicense : (c.licenseKind.map LicenseKind.asStr).mapM
      (parsed LicenseKind.parse "license_kind") = .ok c.licenseKind := by
    cases c.licenseKind with
    | none => rfl
    | some kind =>
      change some <$> parsed LicenseKind.parse "license_kind" kind.asStr = _
      rw [parsed_ok _ (LicenseKind.parse_asStr kind)]
      rfl
  simp only [digitalConfigFromRow, configColumns]
  rw [hdelivery, hlicense]
  rfl

theorem productMediaFromRow_columns (m : ProductMedia) :
    productMediaFromRow (mediaColumns m) = .ok m := by
  simp only [productMediaFromRow, mediaColumns]
  rw [parsed_ok _ (MediaKind.parse_asStr m.kind)]
  rfl

theorem attributeValueFromRow_columns (v : ProductAttributeValue) :
    attributeValueFromRow (valueColumns v) = .ok v := by
  simp only [attributeValueFromRow, valueColumns]
  rw [parsed_ok _ (DataType.parse_asStr v.dataType)]
  rfl

variable (db : ProductDb) (productId : String)

/-- No stored configuration is refused. -/
theorem getDigitalConfig_eq :
    getDigitalConfig db productId = .ok (db.digitalConfig.find? productId) := by
  rw [getDigitalConfig]
  cases db.digitalConfig.find? productId with
  | none => rfl
  | some c =>
    change some <$> digitalConfigFromRow (configColumns c) = _
    rw [digitalConfigFromRow_columns]
    rfl

theorem listMedia_eq : listMedia db productId =
    .ok ((db.productMedia.rows.filter fun m => m.productId = productId).insertionSort
      fun m n => mediaLe m n) := by
  rw [listMedia, mapM_ok fun m _ => productMediaFromRow_columns m, List.map_id']

theorem listAttributeValues_eq : listAttributeValues db productId =
    .ok ((db.productAttributeValues.rows.filter fun v => v.productId = productId).insertionSort
      fun v w => !(w.attributeId < v.attributeId)) := by
  rw [listAttributeValues, mapM_ok fun v _ => attributeValueFromRow_columns v, List.map_id']

end Parsing

end ProductRepo

/-! ## What was written last -/

namespace ProductDetails
open ProductRepo ProductHistory

/-- The tables as maps from their keys. -/
@[ext]
structure Details where
  config : String → Option DigitalConfig
  media : String → Option ProductMedia
  variant : String → Option DigitalVariant
  value : String × String → Option ProductAttributeValue
  text : String × String × Lang × String → Option String

namespace Details

def empty : Details := ⟨fun _ => none, fun _ => none, fun _ => none, fun _ => none, fun _ => none⟩

/-- A product takes with it whatever belongs to it and the texts of both. -/
def without (d : Details) (id : String) : Details where
  config k := if k = id then none else d.config k
  media k := (d.media k).filter fun m => m.productId ≠ id
  variant k := (d.variant k).filter fun v => v.productId ≠ id
  value k := if k.1 = id then none else d.value k
  text k :=
    if k.1 = "digital_variant" ∧ (d.variant k.2.1).map DigitalVariant.productId = some id then none
    else if k.1 = "product" ∧ k.2.1 = id then none
    else d.text k

/-- What a successful call leaves. -/
def after (d : Details) : Call → Details
  | .deleteProduct id => d.without id
  | .upsertDigitalConfig c =>
    { d with config := fun k => if c.productId = k then some c else d.config k }
  | .addVariant v => { d with variant := fun k => if v.id = k then some v else d.variant k }
  | .updateVariant v =>
    { d with variant := fun k =>
        if v.id = k then (d.variant k).map fun old => { v with productId := old.productId }
        else d.variant k }
  | .removeVariant productId variantId =>
    { d with
      variant := fun k => (d.variant k).filter fun v => ¬(k = variantId ∧ v.productId = productId)
      text := fun k =>
        if k.1 = "digital_variant" ∧ k.2.1 = variantId then none else d.text k }
  | .addMedia m => { d with media := fun k => if m.id = k then some m else d.media k }
  | .removeMedia productId mediaId =>
    { d with media := fun k =>
        (d.media k).filter fun m => ¬(k = mediaId ∧ m.productId = productId) }
  | .setAttributeValue v =>
    { d with value := fun k =>
        if (v.productId, v.attributeId) = k then some { v with valNum := F64.column v.valNum }
        else d.value k }
  | .clearAttributeValue productId attributeId =>
    { d with value := fun k => if k = (productId, attributeId) then none else d.value k }
  | .setTranslation _ entityType entityId lang field value =>
    { d with text := fun k =>
        if (entityType, entityId, lang, field) = k then some value else d.text k }
  | _ => d

/-- A call that failed leaves what was there. -/
def note (d : Details) (e : Entry) : Details :=
  match e.call, e.answer with
  | .call c, .ok () => d.after c
  | _, _ => d

def ofLog (log : List Entry) : Details := log.foldl note .empty

end Details

def contents (db : ProductDb) : Details where
  config := db.digitalConfig.find?
  media := db.productMedia.find?
  variant := db.digitalVariant.find?
  value := db.productAttributeValues.find?
  text k := (db.translations.find? k).map Translation.value

section Deletes
variable {db db' : ProductDb} {now clock : Int64} {id : String}

/-- `ON DELETE CASCADE` finds nothing to delete for a product that is not there. -/
theorem deletes_of_deleteProduct (hkeys : ForeignKeys db)
    (h : deleteProduct db id clock = .ok db') :
    let variants := (db.digitalVariant.rows.filter fun v => v.productId = id).map (·.id)
    db'.productMedia = db.productMedia.delete (fun m => m.productId = id) ∧
      db'.digitalConfig = db.digitalConfig.delete (fun c => c.productId = id) ∧
      db'.digitalVariant = db.digitalVariant.delete (fun v => v.productId = id) ∧
      db'.productAttributeValues = db.productAttributeValues.delete (fun v => v.productId = id) ∧
      db'.translations =
        (db.translations.delete fun t => t.entityType = "product" ∧ t.entityId = id).delete
          fun t => t.entityType = "digital_variant" ∧ t.entityId ∈ variants := by
  rcases deleteProduct_ok h with ⟨_, rfl⟩ | ⟨hno, rfl⟩
  · exact ⟨rfl, rfl, rfl, rfl, rfl⟩
  · have hfree : ¬Refers db id := fun hid => hno (hkeys id hid)
    refine ⟨?_, ?_, ?_, ?_, rfl⟩
    · refine (Table.delete_eq_self fun m hm => ?_).symm
      exact decide_eq_false fun hid => hfree (.media hm hid)
    · refine (Table.delete_eq_self fun c hc => ?_).symm
      exact decide_eq_false fun hid => hfree (.config hc hid)
    · refine (Table.delete_eq_self fun v hv => ?_).symm
      exact decide_eq_false fun hid => hfree (.variant hv hid)
    · refine (Table.delete_eq_self fun v hv => ?_).symm
      exact decide_eq_false fun hid => hfree (.value hv hid)

/-- The ids that `delete_product` collects are those of the product's variants. -/
theorem mem_variants_iff (t : Table DigitalVariant String DigitalVariant.id)
    (id entityId : String) :
    entityId ∈ (t.rows.filter fun v => v.productId = id).map DigitalVariant.id ↔
      (t.find? entityId).map DigitalVariant.productId = some id := by
  rw [List.mem_map, Option.map_eq_some_iff]
  constructor
  · rintro ⟨v, hv, rfl⟩
    obtain ⟨hmem, hid⟩ := List.mem_filter.mp hv
    exact ⟨v, Table.find?_of_mem hmem, of_decide_eq_true hid⟩
  · rintro ⟨v, hv, hid⟩
    refine ⟨v, List.mem_filter.mpr ⟨Table.mem_of_find? hv, ?_⟩, Table.key_of_find? hv⟩
    exact decide_eq_true hid

theorem contents_deleteProduct (hkeys : ForeignKeys db)
    (h : deleteProduct db id clock = .ok db') : contents db' = (contents db).without id := by
  obtain ⟨hmedia, hconfig, hvariant, hvalue, htext⟩ := deletes_of_deleteProduct hkeys h
  refine Details.ext (funext fun k => ?_) (funext fun k => ?_) (funext fun k => ?_)
    (funext fun k => ?_) (funext fun k => ?_)
  · change db'.digitalConfig.find? k = _
    rw [hconfig]
    exact Table.find?_delete_key _ id k
  · change db'.productMedia.find? k = _
    rw [hmedia]
    exact Table.find?_delete_filter (q := fun _ (m : ProductMedia) => decide (m.productId ≠ id)) _
      (fun m => by simp) k
  · change db'.digitalVariant.find? k = _
    rw [hvariant]
    exact Table.find?_delete_filter (q := fun _ (v : DigitalVariant) => decide (v.productId ≠ id)) _
      (fun v => by simp) k
  · change db'.productAttributeValues.find? k = _
    rw [hvalue, Table.find?_delete_of_key (b := decide (k.1 = id)) _ ?_]
    · simp only [decide_eq_true_eq]
      rfl
    · rintro v rfl
      rfl
  · change (db'.translations.find? k).map _ = _
    rw [htext, Table.find?_delete_of_key (b := decide (k.1 = "digital_variant" ∧
        (db.digitalVariant.find? k.2.1).map DigitalVariant.productId = some id)) _ ?_,
      Table.find?_delete_of_key (b := decide (k.1 = "product" ∧ k.2.1 = id)) _ ?_]
    · simp only [decide_eq_true_eq, apply_ite (Option.map Translation.value)]
      rfl
    · rintro t rfl
      rfl
    · rintro t rfl
      exact decide_eq_decide.mpr (and_congr_right fun _ => mem_variants_iff _ id t.entityId)

end Deletes

section Steps
variable {db db' : ProductDb} {now clock : Int64}

theorem contents_upsertDigitalConfig {c : DigitalConfig}
    (h : upsertDigitalConfig db c now clock = .ok db') :
    contents db' = (contents db).after (.upsertDigitalConfig c) := by
  obtain rfl := upsertDigitalConfig_ok h
  refine Details.ext (funext fun k => ?_) rfl rfl rfl rfl
  refine Table.find?_upsert_of_replaces _ ?_ k
  intro old hold
  change old.productId = c.productId at hold
  rw [hold]

theorem contents_setAttributeValue {v : ProductAttributeValue}
    (h : setAttributeValue db v now clock = .ok db') :
    contents db' = (contents db).after (.setAttributeValue v) := by
  obtain rfl := setAttributeValue_ok h
  refine Details.ext rfl rfl rfl (funext fun k => ?_) rfl
  refine Table.find?_upsert_of_replaces _ ?_ k
  intro old hold
  obtain ⟨hproduct, hattribute⟩ := Prod.mk.inj hold
  rw [hproduct, hattribute]

theorem contents_setTranslation {productId entityType entityId field value : String} {lang : Lang}
    (h : setTranslation db productId entityType entityId lang field value now clock = .ok db') :
    contents db' =
      (contents db).after (.setTranslation productId entityType entityId lang field value) := by
  obtain ⟨_, rfl⟩ := setTranslation_ok h
  refine Details.ext rfl rfl rfl rfl (funext fun k => ?_)
  change ((db.translations.upsert _ _ _).find? k).map Translation.value = _
  rw [Table.find?_upsert_of_replaces, apply_ite (Option.map Translation.value)]
  · rfl
  · rintro ⟨entityType', entityId', lang', field', value'⟩ hold
    cases hold
    rfl

theorem contents_updateVariant {v : DigitalVariant}
    (h : updateVariant db v now clock = .ok db') :
    contents db' = (contents db).after (.updateVariant v) := by
  cases h
  refine Details.ext rfl rfl (funext fun k => ?_) rfl rfl
  have hupdate := Table.find?_update db.digitalVariant (fun old => old.id = v.id)
    (fun old => { old with
      label := v.label, format := v.format
      priceDeltaMinor := v.priceDeltaMinor, position := v.position }) (fun _ => rfl) k
  refine hupdate.trans ?_
  change _ = if v.id = k then (db.digitalVariant.find? k).map _ else db.digitalVariant.find? k
  cases hf : db.digitalVariant.find? k with
  | none => simp
  | some old =>
    have hid : old.id = k := Table.key_of_find? hf
    by_cases hk : v.id = k
    · simp [hid, hk]
    · simp [hid, hk, Ne.symm hk]

theorem contents_removeVariant {productId variantId : String}
    (h : removeVariant db productId variantId now clock = .ok db') :
    contents db' = (contents db).after (.removeVariant productId variantId) := by
  cases h
  refine Details.ext rfl rfl (funext fun k => ?_) rfl (funext fun k => ?_)
  · exact Table.find?_delete_filter
      (q := fun k (v : DigitalVariant) => decide ¬(k = variantId ∧ v.productId = productId)) _
      (fun v => by simp) k
  · change ((db.translations.delete _).find? k).map Translation.value = _
    rw [Table.find?_delete_of_key
      (b := decide (k.1 = "digital_variant" ∧ k.2.1 = variantId)) _ ?_]
    · simp only [decide_eq_true_eq, apply_ite (Option.map Translation.value)]
      rfl
    · rintro t rfl
      rfl

theorem contents_removeMedia {productId mediaId : String}
    (h : removeMedia db productId mediaId now clock = .ok db') :
    contents db' = (contents db).after (.removeMedia productId mediaId) := by
  cases h
  refine Details.ext rfl (funext fun k => ?_) rfl rfl rfl
  exact Table.find?_delete_filter
    (q := fun k (m : ProductMedia) => decide ¬(k = mediaId ∧ m.productId = productId)) _
    (fun m => by simp) k

theorem contents_clearAttributeValue {productId attributeId : String}
    (h : clearAttributeValue db productId attributeId now clock = .ok db') :
    contents db' = (contents db).after (.clearAttributeValue productId attributeId) := by
  cases h
  refine Details.ext rfl rfl rfl (funext fun k => ?_) rfl
  change (db.productAttributeValues.delete _).find? k = _
  rw [Table.find?_delete_of_key (b := decide (k = (productId, attributeId))) _ ?_]
  · simp only [decide_eq_true_eq]
    rfl
  · rintro v rfl
    exact decide_eq_decide.mpr Prod.mk_inj.symm

/-- One call does to the tables what it does to the maps. -/
theorem contents_run {call : Call} (hkeys : ForeignKeys db)
    (h : call.run db now clock = .ok db') : contents db' = (contents db).after call := by
  -- Only the deletion of a product needs the keys: without its product it clears no table.
  cases call with
  | createProduct p =>
    obtain ⟨products, _, rfl⟩ := createProduct_ok h
    rfl
  | updateProduct id title slug description priceMinor currency =>
    obtain ⟨products, _, rfl⟩ := updateProduct_ok h
    rfl
  | setStatus id new =>
    rcases setStatus_ok h with rfl | ⟨p, _, _, rfl⟩
    · rfl
    · rfl
  | deleteProduct id => exact contents_deleteProduct hkeys h
  | upsertDigitalConfig c => exact contents_upsertDigitalConfig h
  | addVariant v =>
    obtain ⟨free, rfl⟩ := addVariant_ok h
    refine Details.ext rfl rfl (funext fun k => ?_) rfl rfl
    exact Table.find?_insert _ v free k
  | updateVariant v => exact contents_updateVariant h
  | removeVariant productId variantId => exact contents_removeVariant h
  | addMedia m =>
    obtain ⟨free, rfl⟩ := addMedia_ok h
    refine Details.ext rfl (funext fun k => ?_) rfl rfl rfl
    exact Table.find?_insert _ m free k
  | removeMedia productId mediaId => exact contents_removeMedia h
  | setAttributeValue v => exact contents_setAttributeValue h
  | clearAttributeValue productId attributeId => exact contents_clearAttributeValue h
  | setTranslation productId entityType entityId lang field value =>
    exact contents_setTranslation h

theorem contents_step {act : Act} {answer : Except ProductError Unit} (hkeys : ForeignKeys db)
    (h : Step db act answer db') :
    contents db' = (contents db).note ⟨act, answer, db, db'⟩ := by
  cases h with
  | call hrun => exact contents_run hkeys hrun
  | failed c err => rfl
  | relay f keeps hevents => rfl

/-- The tables of every history are the maps of its log. -/
theorem contents_of_log {log : List Entry} (h : CallLog Step .empty log db) :
    contents db = Details.ofLog log := by
  have hkeys := h.mem_keeps foreignKeys_empty fun _ _ _ _ => foreignKeys_step
  exact h.foldl_eq contents Details.note fun e he hstep => contents_step (hkeys e he).1 hstep

end Steps

/-! ## What the readers give back -/

/-- The rows to show, each once, in the order of a key. -/
structure Shows {ρ κ : Type} [LT κ] (order : ρ → κ) (shown : ρ → Prop) (rows : List ρ) :
    Prop where
  ordered : rows.Pairwise fun a b => order a < order b
  complete : ∀ r, r ∈ rows ↔ shown r

/-- `ORDER BY position ASC, id ASC`. -/
def place {ρ : Type} (position : ρ → Int64) (id : ρ → String) (r : ρ) : Int ×ₗ String :=
  toLex ((position r).toInt, id r)

/-- The readers show a product as the maps have it. -/
structure ReadsBack (db : ProductDb) (d : Details) (productId : String) : Prop where
  config : getDigitalConfig db productId = .ok (d.config productId)
  media : ∃ rows, listMedia db productId = .ok rows ∧
    Shows (place ProductMedia.position ProductMedia.id)
      (fun m => d.media m.id = some m ∧ m.productId = productId) rows
  values : ∃ rows, listAttributeValues db productId = .ok rows ∧
    Shows ProductAttributeValue.attributeId
      (fun v => d.value (v.productId, v.attributeId) = some v ∧ v.productId = productId) rows
  variants : ∀ lang, ∃ rows, listVariants db lang productId = .ok rows ∧
    Shows (place DigitalVariant.position DigitalVariant.id)
      (fun v => ∃ stored, d.variant v.id = some stored ∧ stored.productId = productId ∧
        v = { stored with
          label := (d.text ("digital_variant", v.id, lang, "label")).getD stored.label }) rows

section Readers

theorem shows_of_table {ρ κ β : Type} [DecidableEq κ] [LinearOrder β] {key : ρ → κ}
    (t : Table ρ κ key) (P : ρ → Bool) (le : ρ → ρ → Prop) [DecidableRel le] (order : ρ → β)
    (hle : ∀ a b, le a b ↔ order a ≤ order b)
    (hkey : ∀ a b, P a = true → P b = true → order a = order b → key a = key b) :
    Shows order (fun r => t.find? (key r) = some r ∧ P r = true)
      ((t.rows.filter P).insertionSort le) where
  ordered := by
    refine insertionSort_strict hle ?_
    refine List.Nodup.map_on ?_ (t.unique.of_map.filter P)
    intro a ha b hb horder
    obtain ⟨ha, hPa⟩ := List.mem_filter.mp ha
    obtain ⟨hb, hPb⟩ := List.mem_filter.mp hb
    have hfind := Table.find?_of_mem ha
    rw [hkey a b hPa hPb horder, Table.find?_of_mem hb] at hfind
    exact (Option.some.inj hfind).symm
  complete r := by rw [List.mem_insertionSort, List.mem_filter, Table.mem_rows_iff]

theorem place_le_iff {ρ : Type} (position : ρ → Int64) (id : ρ → String) (a b : ρ) :
    (position a < position b || position a = position b && !(id b < id a)) = true ↔
      place position id a ≤ place position id b := by
  simp only [place, Prod.Lex.le_iff, ofLex_toLex, Bool.or_eq_true, Bool.and_eq_true,
    Bool.not_eq_true', decide_eq_true_eq, decide_eq_false_iff_not, not_lt,
    Int64.lt_iff_toInt_lt, ← Int64.toInt_inj]

theorem id_of_place {ρ : Type} {position : ρ → Int64} {id : ρ → String} {a b : ρ}
    (h : place position id a = place position id b) : id a = id b :=
  congrArg (fun k => (ofLex k).2) h

variable (db : ProductDb) (productId : String)

theorem shows_listMedia : ∃ rows, listMedia db productId = .ok rows ∧
    Shows (place ProductMedia.position ProductMedia.id)
      (fun m => (contents db).media m.id = some m ∧ m.productId = productId) rows := by
  refine ⟨_, listMedia_eq db productId, ?_⟩
  have hshows := shows_of_table db.productMedia (fun m => m.productId = productId)
    (fun m n => mediaLe m n) _ (place_le_iff _ _) fun a b _ _ h => id_of_place h
  refine ⟨hshows.ordered, fun m => (hshows.complete m).trans ?_⟩
  rw [decide_eq_true_eq]
  rfl

theorem shows_listAttributeValues : ∃ rows, listAttributeValues db productId = .ok rows ∧
    Shows ProductAttributeValue.attributeId
      (fun v => (contents db).value (v.productId, v.attributeId) = some v ∧
        v.productId = productId) rows := by
  refine ⟨_, listAttributeValues_eq db productId, ?_⟩
  have hshows := shows_of_table db.productAttributeValues (fun v => v.productId = productId)
    (fun v w => !(w.attributeId < v.attributeId)) ProductAttributeValue.attributeId
    (fun a b => by simp only [Bool.not_eq_true', decide_eq_false_iff_not, not_lt]) ?_
  · refine ⟨hshows.ordered, fun v => (hshows.complete v).trans ?_⟩
    rw [decide_eq_true_eq]
    rfl
  · intro a b ha hb horder
    exact Prod.ext ((of_decide_eq_true ha).trans (of_decide_eq_true hb).symm) horder

/-- A label is shown in the language asked for, in the place of its variant. -/
theorem shows_listVariants (lang : Lang) : ∃ rows, listVariants db lang productId = .ok rows ∧
    Shows (place DigitalVariant.position DigitalVariant.id)
      (fun v => ∃ stored, (contents db).variant v.id = some stored ∧
        stored.productId = productId ∧ v = { stored with
          label := ((contents db).text ("digital_variant", v.id, lang, "label")).getD
            stored.label }) rows := by
  refine ⟨_, rfl, ?_⟩
  have hshows := shows_of_table db.digitalVariant (fun v => v.productId = productId)
    (fun v w => variantLe v w) _ (place_le_iff _ _) fun a b _ _ h => id_of_place h
  refine ⟨List.pairwise_map.mpr hshows.ordered, fun v => ?_⟩
  rw [List.mem_map]
  constructor
  · rintro ⟨stored, hstored, rfl⟩
    obtain ⟨hfind, hid⟩ := (hshows.complete stored).mp hstored
    exact ⟨stored, hfind, of_decide_eq_true hid, rfl⟩
  · rintro ⟨stored, hfind, hid, hv⟩
    have hkey : stored.id = v.id := Table.key_of_find? hfind
    refine ⟨stored, (hshows.complete stored).mpr ⟨hkey ▸ hfind, decide_eq_true hid⟩, ?_⟩
    rw [hv, translated, hkey]
    rfl

end Readers

/-- After every history of calls, failed ones and the relay among them, the readers show for
each product what was written last and not deleted since, and fail for none. -/
theorem details_read_back {log : List Entry} {db : ProductDb}
    (h : CallLog Step .empty log db) (productId : String) :
    ReadsBack db (Details.ofLog log) productId := by
  rw [← contents_of_log h]
  exact {
    config := getDigitalConfig_eq db productId
    media := shows_listMedia db productId
    values := shows_listAttributeValues db productId
    variants := shows_listVariants db productId }

/-- A course with two media, a configuration that is replaced, and a variant of one label
in two languages; a file is removed and one value of an attribute is cleared. -/
def courseCalls : List Call := [
  .createProduct ⟨"course", "s", "Курс", "course", "", 900, "UAH", .draft, 1, 1⟩,
  .addMedia ⟨"front", "course", .image, "/front.png", 2⟩,
  .addMedia ⟨"demo", "course", .video, "/demo.mp4", 1⟩,
  .addMedia ⟨"old", "course", .image, "/old.png", 0⟩,
  .upsertDigitalConfig ⟨"course", .download, some .single, none⟩,
  .upsertDigitalConfig ⟨"course", .platformView, none, some "online"⟩,
  .addVariant ⟨"full", "course", "Повний", some "pdf", 0, 1⟩,
  .setTranslation "course" "digital_variant" "full" .ru "label" "Полный",
  .setAttributeValue ⟨"course", "level", .enum, some "basic", none⟩,
  .setAttributeValue ⟨"course", "hours", .number, none, some (.ofNat 12)⟩,
  .clearAttributeValue "course" "level",
  .removeMedia "course" "old"]

theorem details_read_back_course :
    (Details.ofLog (script courseCalls).1).config "course" =
        some ⟨"course", .platformView, none, some "online"⟩ ∧
      (Details.ofLog (script courseCalls).1).media "old" = none ∧
      (Details.ofLog (script courseCalls).1).value ("course", "level") = none ∧
      (Details.ofLog (script courseCalls).1).text ("digital_variant", "full", .ru, "label") =
        some "Полный" ∧
      ReadsBack (script courseCalls).2 (Details.ofLog (script courseCalls).1) "course" :=
  ⟨by decide, by decide, by decide, by decide,
    details_read_back (callLog_script courseCalls) "course"⟩

end ProductDetails

end TinyShop
