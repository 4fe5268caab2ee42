import TinyShop.Base.CallLog
import TinyShop.ProductRepo

/-!
# Histories of the product database

Calls of the write operations with any arguments, each of them committed or failing,
and the relay between them. The foreign keys hold in every state that such a history
reaches: what belongs to a product has its product.
-/

namespace TinyShop

open Base
set_option autoImplicit false

namespace ProductHistory
open ProductRepo

/-- A call, or the relay noting what became of its events. -/
inductive Act where
  | call (c : Call)
  | relay

/-- A call that fails, for a reason of its own or of the database, changes nothing. -/
inductive Step (db : ProductDb) : Act → Except ProductError Unit → ProductDb → Prop where
  | call {c : Call} {now clock : Int64} {db' : ProductDb} :
      c.run db now clock = .ok db' → Step db (.call c) (.ok ()) db'
  | failed (c : Call) (e : ProductError) : Step db (.call c) (.error e) db
  | relay (f : OutboxRow → OutboxRow) (keeps : ∀ r, (f r).id = r.id) :
      (∀ r, (f r).toEvent = r.toEvent) →
      Step db .relay (.ok ()) { db with outbox := db.outbox.update f keeps }

abbrev Entry := CallLog.Entry ProductDb Act (Except ProductError Unit)

section Products
variable {t u : Products} {call : Call} {ev : Option NewEvent} {id : String}

/-- A product goes by `delete_product` only. -/
theorem isSome_change (h : Change t call u ev) (hid : (t.find? id).isSome)
    (hcall : call ≠ .deleteProduct id) : (u.find? id).isSome := by
  cases h with
  | created p hins =>
    rw [IndexedTable.find?_insert? hins]
    split
    · rfl
    · exact hid
  | core id' title slug description priceMinor currency now hupdate =>
    rw [IndexedTable.find?_update? hupdate]
    split
    · exact Option.isSome_map.trans hid
    · exact hid
  | status id' new now hfind hne =>
    rw [IndexedTable.find?_patch_key]
    split
    · exact Option.isSome_map.trans hid
    · exact hid
  | deleted id' hfind =>
    rw [IndexedTable.toTable_delete, Table.find?_delete_key, if_neg]
    · exact hid
    · rintro rfl
      exact hcall rfl
  | attributeSet v now => exact hid
  | attributeCleared productId attributeId now => exact hid
  | touched call now htouch hreason => exact hid
  | unchanged call hslug => exact hid

/-- A product comes by `create_product` only. -/
theorem isSome_of_change (h : Change t call u ev) (hid : (u.find? id).isSome) :
    (t.find? id).isSome ∨ ∃ p, call = .createProduct p ∧ p.id = id := by
  cases h with
  | created p hins =>
    rw [IndexedTable.find?_insert? hins] at hid
    split at hid
    · exact Or.inr ⟨p, rfl, ‹_›⟩
    · exact Or.inl hid
  | core id' title slug description priceMinor currency now hupdate =>
    rw [IndexedTable.find?_update? hupdate] at hid
    split at hid
    · exact Or.inl (Option.isSome_map.symm.trans hid)
    · exact Or.inl hid
  | status id' new now hfind hne =>
    rw [IndexedTable.find?_patch_key] at hid
    split at hid
    · exact Or.inl (Option.isSome_map.symm.trans hid)
    · exact Or.inl hid
  | deleted id' hfind =>
    rw [IndexedTable.toTable_delete, Table.find?_delete_key] at hid
    split at hid
    · cases hid
    · exact Or.inl hid
  | attributeSet v now => exact Or.inl hid
  | attributeCleared productId attributeId now => exact Or.inl hid
  | touched call now htouch hreason => exact Or.inl hid
  | unchanged call hslug => exact Or.inl hid

end Products

/-! ## Foreign keys -/

/-- Some row with a foreign key refers to the product. -/
inductive Refers (db : ProductDb) (id : String) : Prop where
  | media {m : ProductMedia} : m ∈ db.productMedia.rows → m.productId = id → Refers db id
  | config {c : DigitalConfig} : c ∈ db.digitalConfig.rows → c.productId = id → Refers db id
  | variant {v : DigitalVariant} : v ∈ db.digitalVariant.rows → v.productId = id → Refers db id
  | value {v : ProductAttributeValue} :
      v ∈ db.productAttributeValues.rows → v.productId = id → Refers db id

def ForeignKeys (db : ProductDb) : Prop := ∀ id, Refers db id → db.HasProduct id

/-- Each row was there before, for the same product, or its product was. -/
structure Grows (db db' : ProductDb) : Prop where
  media : ∀ m ∈ db'.productMedia.rows, Refers db m.productId ∨ db.HasProduct m.productId := by
    intro m hm; exact Or.inl (.media hm rfl)
  config : ∀ c ∈ db'.digitalConfig.rows, Refers db c.productId ∨ db.HasProduct c.productId := by
    intro c hc; exact Or.inl (.config hc rfl)
  variant : ∀ v ∈ db'.digitalVariant.rows, Refers db v.productId ∨ db.HasProduct v.productId := by
    intro v hv; exact Or.inl (.variant hv rfl)
  value : ∀ v ∈ db'.productAttributeValues.rows,
      Refers db v.productId ∨ db.HasProduct v.productId := by
    intro v hv; exact Or.inl (.value hv rfl)

section Keys
variable {db db' : ProductDb} {now clock : Int64} {id : String}

/-- Translations and events have no foreign key. -/
theorem Refers.of_others {translations : Table Translation (String × String × Lang × String)
    fun t => (t.entityType, t.entityId, t.lang, t.field)} {outbox : Outbox} (h : Refers { db with translations, outbox } id) : Refers db id := by
  cases h with
  | media hm hid => exact .media hm hid
  | config hc hid => exact .config hc hid
  | variant hv hid => exact .variant hv hid
  | value hv hid => exact .value hv hid

theorem Grows.refers (h : Grows db db') (hid : Refers db' id) :
    Refers db id ∨ db.HasProduct id := by
  cases hid with
  | media hm hid => exact hid ▸ h.media _ hm
  | config hc hid => exact hid ▸ h.config _ hc
  | variant hv hid => exact hid ▸ h.variant _ hv
  | value hv hid => exact hid ▸ h.value _ hv

theorem there_of_upsertDigitalConfig {c : DigitalConfig}
    (h : upsertDigitalConfig db c now clock = .ok db') :
    Refers db c.productId ∨ db.HasProduct c.productId := by
  unfold upsertDigitalConfig at h
  split at h
  · cases h
  · rename_i hkey
    by_cases hhas : db.HasProduct c.productId
    · exact Or.inr hhas
    · obtain ⟨old, hold⟩ := Option.ne_none_iff_exists'.mp fun hnone => hkey ⟨hnone, hhas⟩
      exact Or.inl (.config (Table.mem_of_find? hold) (Table.key_of_find? hold))

theorem there_of_setAttributeValue {v : ProductAttributeValue}
    (h : setAttributeValue db v now clock = .ok db') :
    Refers db v.productId ∨ db.HasProduct v.productId := by
  unfold setAttributeValue at h
  simp only at h
  split at h
  · cases h
  · rename_i hkey
    by_cases hhas : db.HasProduct v.productId
    · exact Or.inr hhas
    · obtain ⟨old, hold⟩ := Option.ne_none_iff_exists'.mp fun hnone => hkey ⟨hnone, hhas⟩
      have hkeys := Table.key_of_find? hold
      obtain ⟨hid, _⟩ := Prod.mk.inj hkeys
      exact Or.inl (.value (Table.mem_of_find? hold) hid)

theorem grows_upsertDigitalConfig {c : DigitalConfig}
    (h : upsertDigitalConfig db c now clock = .ok db') : Grows db db' := by
  have hthere := there_of_upsertDigitalConfig h
  obtain rfl := upsertDigitalConfig_ok h
  refine { config := ?_ }
  intro c' hc'
  rcases Table.mem_of_mem_upsert hc' with rfl | ⟨old, hold, rfl | ⟨_, rfl⟩⟩
  · exact hthere
  · exact Or.inl (.config hold rfl)
  · exact Or.inl (.config hold rfl)

theorem grows_setAttributeValue {v : ProductAttributeValue}
    (h : setAttributeValue db v now clock = .ok db') : Grows db db' := by
  have hthere := there_of_setAttributeValue h
  obtain rfl := setAttributeValue_ok h
  refine { value := ?_ }
  intro v' hv'
  rcases Table.mem_of_mem_upsert hv' with rfl | ⟨old, hold, rfl | ⟨_, rfl⟩⟩
  · exact hthere
  · exact Or.inl (.value hold rfl)
  · exact Or.inl (.value hold rfl)

theorem hasProduct_of_addVariant {v : DigitalVariant} (h : addVariant db v now clock = .ok db') :
    db.HasProduct v.productId := by
  unfold addVariant at h
  split at h
  · split at h
    · assumption
    · cases h
  · cases h

theorem hasProduct_of_addMedia {m : ProductMedia} (h : addMedia db m now clock = .ok db') :
    db.HasProduct m.productId := by
  unfold addMedia at h
  split at h
  · split at h
    · assumption
    · cases h
  · cases h

theorem grows_addVariant {v : DigitalVariant} (h : addVariant db v now clock = .ok db') :
    Grows db db' := by
  have hhas := hasProduct_of_addVariant h
  obtain ⟨free, rfl⟩ := addVariant_ok h
  refine { variant := ?_ }
  intro w hw
  rcases List.mem_append.mp hw with hold | hnew
  · exact Or.inl (.variant hold rfl)
  · exact Or.inr (List.mem_singleton.mp hnew ▸ hhas)

theorem grows_addMedia {m : ProductMedia} (h : addMedia db m now clock = .ok db') :
    Grows db db' := by
  have hhas := hasProduct_of_addMedia h
  obtain ⟨free, rfl⟩ := addMedia_ok h
  refine { media := ?_ }
  intro n hn
  rcases List.mem_append.mp hn with hold | hnew
  · exact Or.inl (.media hold rfl)
  · exact Or.inr (List.mem_singleton.mp hnew ▸ hhas)

theorem grows_deleteProduct (h : deleteProduct db id clock = .ok db') : Grows db db' := by
  rcases deleteProduct_ok h with ⟨_, rfl⟩ | ⟨_, rfl⟩
  · exact {
      media := fun m hm => Or.inl (.media (Table.mem_delete.mp hm).1 rfl)
      config := fun c hc => Or.inl (.config (Table.mem_delete.mp hc).1 rfl)
      variant := fun v hv => Or.inl (.variant (Table.mem_delete.mp hv).1 rfl)
      value := fun v hv => Or.inl (.value (Table.mem_delete.mp hv).1 rfl) }
  · exact {}

/-- No call puts in a row without its product. -/
theorem grows_run {call : Call} (h : call.run db now clock = .ok db') : Grows db db' := by
  cases call with
  | createProduct p =>
    obtain ⟨products, _, rfl⟩ := createProduct_ok h
    exact {}
  | updateProduct id title slug description priceMinor currency =>
    obtain ⟨products, _, rfl⟩ := updateProduct_ok h
    exact {}
  | setStatus id new =>
    rcases setStatus_ok h with rfl | ⟨p, _, _, rfl⟩
    · exact {}
    · exact {}
  | deleteProduct id => exact grows_deleteProduct h
  | upsertDigitalConfig c => exact grows_upsertDigitalConfig h
  | addVariant v => exact grows_addVariant h
  | updateVariant v =>
    cases h
    refine { variant := ?_ }
    intro w hw
    obtain ⟨old, hold, rfl⟩ := List.mem_map.mp hw
    split
    · exact Or.inl (.variant hold rfl)
    · exact Or.inl (.variant hold rfl)
  | removeVariant productId variantId =>
    cases h
    exact { variant := fun v hv => Or.inl (.variant (Table.mem_delete.mp hv).1 rfl) }
  | addMedia m => exact grows_addMedia h
  | removeMedia productId mediaId =>
    cases h
    exact { media := fun m hm => Or.inl (.media (Table.mem_delete.mp hm).1 rfl) }
  | setAttributeValue v => exact grows_setAttributeValue h
  | clearAttributeValue productId attributeId =>
    cases h
    exact { value := fun v hv => Or.inl (.value (Table.mem_delete.mp hv).1 rfl) }
  | setTranslation productId entityType entityId lang field value =>
    obtain ⟨_, rfl⟩ := setTranslation_ok h
    exact {}

/-- `ON DELETE CASCADE` leaves nothing that refers to the product. -/
theorem not_refers_of_deleteProduct (hkeys : ForeignKeys db)
    (h : deleteProduct db id clock = .ok db') : ¬Refers db' id := by
  rcases deleteProduct_ok h with ⟨_, rfl⟩ | ⟨hno, rfl⟩
  · intro hid
    cases hid with
    | media hm hid => exact of_decide_eq_false (Table.mem_delete.mp hm).2 hid
    | config hc hid => exact of_decide_eq_false (Table.mem_delete.mp hc).2 hid
    | variant hv hid => exact of_decide_eq_false (Table.mem_delete.mp hv).2 hid
    | value hv hid => exact of_decide_eq_false (Table.mem_delete.mp hv).2 hid
  · intro hid
    exact hno (hkeys id hid.of_others)

/-- One call keeps the foreign keys. -/
theorem foreignKeys_run {call : Call} (hkeys : ForeignKeys db)
    (h : call.run db now clock = .ok db') : ForeignKeys db' := by
  intro id hid
  have hhas : db.HasProduct id := by
    rcases (grows_run h).refers hid with hold | hhas
    · exact hkeys id hold
    · exact hhas
  obtain ⟨ev, hchange, _⟩ := Call.run_commits h
  refine isSome_change hchange hhas ?_
  rintro rfl
  exact not_refers_of_deleteProduct hkeys h hid

theorem foreignKeys_empty : ForeignKeys .empty := by
  intro id hid
  cases hid with
  | media hm => cases hm
  | config hc => cases hc
  | variant hv => cases hv
  | value hv => cases hv

theorem foreignKeys_step {act : Act} {answer : Except ProductError Unit}
    (hkeys : ForeignKeys db) (h : Step db act answer db') : ForeignKeys db' := by
  cases h with
  | call hrun => exact foreignKeys_run hkeys hrun
  | failed c e => exact hkeys
  | relay f keeps hevents =>
    intro id hid
    exact hkeys id hid.of_others

end Keys

/-! ## Runs of given calls -/

/-- An act without a failure of the database. -/
def exec (db : ProductDb) : Act → Except ProductError Unit × ProductDb
  | .call c =>
    match c.run db 0 0 with
    | .ok db' => (.ok (), db')
    | .error e => (.error e, db)
  | .relay => (.ok (), { db with outbox := db.outbox.update (fun r => r) fun _ => rfl })

theorem step_exec (db : ProductDb) (act : Act) : Step db act (exec db act).1 (exec db act).2 := by
  cases act with
  | call c =>
    simp only [exec]
    split
    · exact .call ‹_›
    · exact .failed c _
  | relay => exact .relay (fun r => r) (fun _ => rfl) fun _ => rfl

/-- The log of some calls on an empty database. -/
def script (calls : List Call) : List Entry × ProductDb :=
  CallLog.record exec .empty (calls.map .call)

theorem callLog_script (calls : List Call) :
    CallLog Step .empty (script calls).1 (script calls).2 :=
  CallLog.of_record exec step_exec .empty (calls.map .call)

end ProductHistory

end TinyShop
