import TinyShop.ProductHistory
import TinyShop.ProductReads

/-!
# Translations and what they belong to

The table of translations is outside the foreign keys, so the operations have to
clear it by hand. No operation leaves a translation whose product or variant is gone,
and an id that is used anew starts without translations.
-/

namespace TinyShop

open Base
set_option autoImplicit false

namespace Translations
open ProductRepo ProductHistory

/-- The entity that a translation may belong to. -/
def Exists (db : ProductDb) (entityType entityId : String) : Prop :=
  entityType = "product" ∧ db.HasProduct entityId ∨
    entityType = "digital_variant" ∧ (db.digitalVariant.find? entityId).isSome

def NoOrphans (db : ProductDb) : Prop :=
  ∀ t ∈ db.translations.rows, Exists db t.entityType t.entityId

/-- Only the texts of entities that are there are translated. -/
def Addressed (log : List Entry) : Prop :=
  ∀ e ∈ log, ∀ productId entityType entityId lang field value,
    e.call = .call (.setTranslation productId entityType entityId lang field value) →
      Exists e.before entityType entityId

section Calls
variable {db db' : ProductDb} {now clock : Int64} {call : Call}

theorem Exists.imp {entityType entityId : String} (h : Exists db entityType entityId)
    (hproduct : db.HasProduct entityId → db'.HasProduct entityId)
    (hvariant : (db.digitalVariant.find? entityId).isSome →
      (db'.digitalVariant.find? entityId).isSome) : Exists db' entityType entityId := by
  rcases h with ⟨htype, hhas⟩ | ⟨htype, hhas⟩
  · exact Or.inl ⟨htype, hproduct hhas⟩
  · exact Or.inr ⟨htype, hvariant hhas⟩

/-- Nothing is translated anew and no entity goes. -/
theorem noOrphans_of_kept (h : NoOrphans db)
    (htranslations : ∀ t ∈ db'.translations.rows, t ∈ db.translations.rows)
    (hproduct : ∀ id, db.HasProduct id → db'.HasProduct id)
    (hvariant : ∀ id, (db.digitalVariant.find? id).isSome → (db'.digitalVariant.find? id).isSome) :
    NoOrphans db' := by
  intro t ht
  exact (h t (htranslations t ht)).imp (hproduct _) (hvariant _)

theorem hasProduct_run (h : call.run db now clock = .ok db')
    (hcall : ∀ id, call ≠ .deleteProduct id) (id : String) (hid : db.HasProduct id) :
    db'.HasProduct id := by
  obtain ⟨ev, hchange, _⟩ := Call.run_commits h
  exact isSome_change hchange hid (hcall id)

theorem noOrphans_deleteProduct {id : String} (h : NoOrphans db)
    (hrun : deleteProduct db id clock = .ok db') : NoOrphans db' := by
  rcases deleteProduct_ok hrun with ⟨_, rfl⟩ | ⟨_, rfl⟩
  · intro t ht
    obtain ⟨hkept, hvariant⟩ := Table.mem_delete.mp ht
    obtain ⟨hold, hproduct⟩ := Table.mem_delete.mp hkept
    rcases h t hold with ⟨htype, hhas⟩ | ⟨htype, hhas⟩
    · refine Or.inl ⟨htype, ?_⟩
      have hne : t.entityId ≠ id := fun hid => of_decide_eq_false hproduct ⟨htype, hid⟩
      change ((db.products.delete _).find? t.entityId).isSome
      rw [IndexedTable.toTable_delete, Table.find?_delete_key, if_neg hne]
      exact hhas
    · refine Or.inr ⟨htype, ?_⟩
      obtain ⟨v, hv, hid⟩ := Table.find?_isSome_iff.mp hhas
      have hne : v.productId ≠ id := by
        intro hproduct
        refine of_decide_eq_false hvariant ⟨htype, List.mem_map.mpr ⟨v, ?_, hid⟩⟩
        exact List.mem_filter.mpr ⟨hv, decide_eq_true hproduct⟩
      exact Table.find?_isSome_iff.mpr ⟨v, Table.mem_delete.mpr ⟨hv, decide_eq_false hne⟩, hid⟩
  · refine noOrphans_of_kept h (fun t ht => ?_) (fun id hid => hid) fun id hid => hid
    exact (Table.mem_delete.mp (Table.mem_delete.mp ht).1).1

theorem noOrphans_removeVariant {productId variantId : String} (h : NoOrphans db)
    (hrun : removeVariant db productId variantId now clock = .ok db') : NoOrphans db' := by
  cases hrun
  intro t ht
  obtain ⟨hold, hkept⟩ := Table.mem_delete.mp ht
  rcases h t hold with ⟨htype, hhas⟩ | ⟨htype, hhas⟩
  · exact Or.inl ⟨htype, hhas⟩
  · refine Or.inr ⟨htype, ?_⟩
    obtain ⟨v, hv, hid⟩ := Table.find?_isSome_iff.mp hhas
    have hne : ¬(v.id = variantId ∧ v.productId = productId) := fun hvariant =>
      of_decide_eq_false hkept ⟨htype, hid.symm.trans hvariant.1⟩
    exact Table.find?_isSome_iff.mpr ⟨v, Table.mem_delete.mpr ⟨hv, decide_eq_false hne⟩, hid⟩

theorem noOrphans_setTranslation {productId entityType entityId field value : String} {lang : Lang}
    (h : NoOrphans db) (hexists : Exists db entityType entityId)
    (hrun : setTranslation db productId entityType entityId lang field value now clock = .ok db') :
    NoOrphans db' := by
  obtain ⟨_, rfl⟩ := setTranslation_ok hrun
  intro t ht
  have hentity : Exists db t.entityType t.entityId := by
    rcases Table.mem_of_mem_upsert ht with rfl | ⟨old, hold, rfl | ⟨_, rfl⟩⟩
    · exact hexists
    · exact h _ hold
    · have hkept := h old hold
      exact hkept
  exact hentity

/-- One call leaves no translation behind. -/
theorem noOrphans_run (h : NoOrphans db) (hrun : call.run db now clock = .ok db')
    (hexists : ∀ productId entityType entityId lang field value,
      call = .setTranslation productId entityType entityId lang field value →
        Exists db entityType entityId) : NoOrphans db' := by
  have hproducts := hasProduct_run hrun
  cases call with
  | deleteProduct id => exact noOrphans_deleteProduct h hrun
  | removeVariant productId variantId => exact noOrphans_removeVariant h hrun
  | setTranslation productId entityType entityId lang field value =>
    exact noOrphans_setTranslation h (hexists _ _ _ _ _ _ rfl) hrun
  | createProduct p =>
    obtain ⟨products, _, rfl⟩ := createProduct_ok hrun
    exact noOrphans_of_kept h (fun t ht => ht) (hproducts (by simp)) fun id hid => hid
  | updateProduct id title slug description priceMinor currency =>
    obtain ⟨products, _, rfl⟩ := updateProduct_ok hrun
    exact noOrphans_of_kept h (fun t ht => ht) (hproducts (by simp)) fun id hid => hid
  | setStatus id new =>
    rcases setStatus_ok hrun with rfl | ⟨p, _, _, rfl⟩
    · exact h
    · exact noOrphans_of_kept h (fun t ht => ht) (hproducts (by simp)) fun id hid => hid
  | upsertDigitalConfig c =>
    obtain rfl := upsertDigitalConfig_ok hrun
    exact noOrphans_of_kept h (fun t ht => ht) (fun id hid => hid) fun id hid => hid
  | addVariant v =>
    obtain ⟨free, rfl⟩ := addVariant_ok hrun
    refine noOrphans_of_kept h (fun t ht => ht) (fun id hid => hid) fun id hid => ?_
    obtain ⟨w, hw, hid⟩ := Table.find?_isSome_iff.mp hid
    exact Table.find?_isSome_iff.mpr ⟨w, List.mem_append_left _ hw, hid⟩
  | updateVariant v =>
    cases hrun
    refine noOrphans_of_kept h (fun t ht => ht) (fun id hid => hid) fun id hid => ?_
    obtain ⟨w, hw, hid⟩ := Table.find?_isSome_iff.mp hid
    refine Table.find?_isSome_iff.mpr ⟨_, List.mem_map_of_mem hw, ?_⟩
    split
    · exact hid
    · exact hid
  | addMedia m =>
    obtain ⟨free, rfl⟩ := addMedia_ok hrun
    exact noOrphans_of_kept h (fun t ht => ht) (fun id hid => hid) fun id hid => hid
  | removeMedia productId mediaId =>
    cases hrun
    exact noOrphans_of_kept h (fun t ht => ht) (fun id hid => hid) fun id hid => hid
  | setAttributeValue v =>
    obtain rfl := setAttributeValue_ok hrun
    exact noOrphans_of_kept h (fun t ht => ht) (fun id hid => hid) fun id hid => hid
  | clearAttributeValue productId attributeId =>
    cases hrun
    exact noOrphans_of_kept h (fun t ht => ht) (fun id hid => hid) fun id hid => hid

/-- A product just created is read as it was given. -/
theorem getProduct_createProduct {p : Product} (h : NoOrphans db)
    (hrun : createProduct db p clock = .ok db') (lang : Lang) :
    getProduct db' lang p.id = .ok (some p) := by
  obtain ⟨products, hins, rfl⟩ := createProduct_ok hrun
  have hfind : products.find? p.id = some p := by
    rw [IndexedTable.find?_insert? hins, if_pos rfl]
  refine getProduct_canonical hfind fun t ht hsame => ?_
  have hfree : db.products.find? p.id = none := (IndexedTable.insert?_eq_some hins).1
  rcases h t ht with ⟨_, hhas⟩ | ⟨htype, _⟩
  · rw [hsame.2] at hhas
    unfold ProductDb.HasProduct at hhas
    simp [hfree] at hhas
  · have htypes := hsame.1.symm.trans htype
    exact absurd htypes (by decide)

/-- A variant just added is listed as it was given. -/
theorem listVariants_addVariant {v : DigitalVariant} (h : NoOrphans db)
    (hrun : addVariant db v now clock = .ok db') (lang : Lang) :
    ∃ rows, listVariants db' lang v.productId = .ok rows ∧ v ∈ rows ∧
      ∀ w ∈ rows, w.id = v.id → w = v := by
  obtain ⟨free, rfl⟩ := addVariant_ok hrun
  have hmem : v ∈ (db.digitalVariant.insert v free).rows :=
    List.mem_append_right _ (List.mem_singleton_self _)
  refine listVariants_canonical hmem fun t ht hsame => ?_
  rcases h t ht with ⟨htype, _⟩ | ⟨_, hhas⟩
  · have htypes := hsame.1.symm.trans htype
    exact absurd htypes (by decide)
  · rw [hsame.2] at hhas
    simp [free] at hhas

end Calls

section Log
variable {start db db' : ProductDb} {log : List Entry}

theorem noOrphans_step {act : Act} {answer : Except ProductError Unit} (h : NoOrphans db)
    (hstep : Step db act answer db')
    (hexists : ∀ productId entityType entityId lang field value,
      act = .call (.setTranslation productId entityType entityId lang field value) →
        Exists db entityType entityId) : NoOrphans db' := by
  cases hstep with
  | call hrun =>
    refine noOrphans_run h hrun fun productId entityType entityId lang field value hcall => ?_
    exact hexists productId entityType entityId lang field value (hcall ▸ rfl)
  | failed c e => exact h
  | relay f keeps hevents =>
    exact noOrphans_of_kept h (fun t ht => ht) (fun id hid => hid) fun id hid => hid

/-- Before every call and at the end. -/
theorem noOrphans_log (h : CallLog Step start log db) (hstart : NoOrphans start)
    (haddressed : Addressed log) : NoOrphans db ∧ ∀ e ∈ log, NoOrphans e.before := by
  induction h with
  | nil => exact ⟨hstart, fun e he => by cases he⟩
  | call hlog hstep ih =>
    obtain ⟨hbefore, hall⟩ := ih fun e he => haddressed e (List.mem_append_left _ he)
    have hlast := haddressed _ (List.mem_append_right _ (List.mem_singleton_self _))
    refine ⟨noOrphans_step hbefore hstep hlast, fun e he => ?_⟩
    rcases List.mem_append.mp he with hold | hnew
    · exact hall e hold
    · obtain rfl := List.mem_singleton.mp hnew
      exact hbefore

/-- No sequence of calls orphans a translation, and no product or variant that it creates is
read with the translation of an earlier one. -/
theorem no_orphans (start db : ProductDb) (log : List Entry) (h : CallLog Step start log db)
    (hstart : NoOrphans start) (haddressed : Addressed log) :
    NoOrphans db ∧
      (∀ e ∈ log, ∀ p lang, e.call = .call (.createProduct p) → e.answer = .ok () →
        getProduct e.after lang p.id = .ok (some p)) ∧
      ∀ e ∈ log, ∀ v lang, e.call = .call (.addVariant v) → e.answer = .ok () →
        ∃ rows, listVariants e.after lang v.productId = .ok rows ∧ v ∈ rows ∧
          ∀ w ∈ rows, w.id = v.id → w = v := by
  obtain ⟨hend, hbefore⟩ := noOrphans_log h hstart haddressed
  refine ⟨hend, fun e he p lang hcall hok => ?_, fun e he v lang hcall hok => ?_⟩
  · have hstep := h.step_of_mem he
    rw [hcall, hok] at hstep
    generalize e.after = after at hstep ⊢
    cases hstep with
    | call hrun => exact getProduct_createProduct (hbefore e he) hrun lang
  · have hstep := h.step_of_mem he
    rw [hcall, hok] at hstep
    generalize e.after = after at hstep ⊢
    cases hstep with
    | call hrun => exact listVariants_addVariant (hbefore e he) hrun lang

end Log

def pen : Product := ⟨"pen", "ann", "Pen", "pen", "", 100, "UAH", .draft, 0, 0⟩

def small : DigitalVariant := ⟨"v1", "pen", "Small", none, 0, 0⟩

/-- A product and its variant are translated, deleted and created anew; then the product is
translated again. -/
def penCalls : List Call :=
  [.createProduct pen, .addVariant small, .setTranslation "pen" "product" "pen" .uk "title" "Ручка",
    .setTranslation "pen" "digital_variant" "v1" .uk "label" "Мала", .deleteProduct "pen",
    .createProduct pen, .addVariant small,
    .setTranslation "pen" "product" "pen" .uk "title" "Перо"]

theorem addressed_penCalls : Addressed (script penCalls).1 := by
  intro e he productId entityType entityId lang field value hcall
  rcases he with _ | ⟨_, _ | ⟨_, _ | ⟨_, _ | ⟨_, _ | ⟨_, _ | ⟨_, _ | ⟨_, _ | ⟨_, ⟨⟩⟩⟩⟩⟩⟩⟩⟩⟩ <;>
    cases hcall
  · exact Or.inl ⟨rfl, rfl⟩
  · exact Or.inr ⟨rfl, rfl⟩
  · exact Or.inl ⟨rfl, rfl⟩

theorem no_orphans_penCalls :
    (script penCalls).2.translations.rows.length = 1 ∧ NoOrphans (script penCalls).2 ∧
      (∀ e ∈ (script penCalls).1, ∀ p lang, e.call = .call (.createProduct p) → e.answer = .ok () →
        getProduct e.after lang p.id = .ok (some p)) ∧
      ∀ e ∈ (script penCalls).1, ∀ v lang, e.call = .call (.addVariant v) → e.answer = .ok () →
        ∃ rows, listVariants e.after lang v.productId = .ok rows ∧ v ∈ rows ∧
          ∀ w ∈ rows, w.id = v.id → w = v :=
  ⟨by rfl, no_orphans .empty _ _ (callLog_script penCalls) (fun t ht => by cases ht)
    addressed_penCalls⟩

end Translations

end TinyShop
