import TinyShop.ProductRepo

/-!
# Products and their neighbours

What a write operation on one product does to the rows of another. All statements select
by product but three: `update_variant` and `remove_variant` go by the id of the variant
alone, and `set_translation` does not ask whose entity it writes to.
-/

namespace TinyShop

open Base
set_option autoImplicit false

namespace ProductIsolation
open ProductRepo

section Rows
variable (db : ProductDb) (q : String)

def variantsOf : List DigitalVariant := db.digitalVariant.rows.filter fun v => v.productId = q

def mediaOf : List ProductMedia := db.productMedia.rows.filter fun m => m.productId = q

def attributesOf : List ProductAttributeValue :=
  db.productAttributeValues.rows.filter fun v => v.productId = q

/-- The entity is the product or one of its variants. -/
def Owns (entityType entityId : String) : Prop :=
  entityType = "product" ∧ entityId = q ∨
    entityType = "digital_variant" ∧ ∃ v ∈ variantsOf db q, v.id = entityId

instance (entityType entityId : String) : Decidable (Owns db q entityType entityId) :=
  inferInstanceAs (Decidable (_ ∨ _ ∧ ∃ v ∈ variantsOf db q, v.id = entityId))

def translationsOf : List Translation :=
  db.translations.rows.filter fun t => Owns db q t.entityType t.entityId

end Rows

/-- Everything that belongs to the product `q` is as it was. -/
structure Untouched (db db' : ProductDb) (q : String) : Prop where
  product : db'.products.find? q = db.products.find? q
  config : db'.digitalConfig.find? q = db.digitalConfig.find? q
  variants : variantsOf db' q = variantsOf db q
  media : mediaOf db' q = mediaOf db q
  attributes : attributesOf db' q = attributesOf db q
  translations : translationsOf db' q = translationsOf db q

/-- The columns that `update_variant` writes. -/
def setVariant (v old : DigitalVariant) : DigitalVariant :=
  { old with
    label := v.label, format := v.format
    priceDeltaMinor := v.priceDeltaMinor, position := v.position }

/-- What a call must not name if `q` is to be left alone: a variant of `q` that it would
change, a variant of `q` that has translations, an entity of `q` with another text. -/
def Spares (db : ProductDb) (q : String) : Call → Prop
  | .updateVariant v => ∀ old ∈ variantsOf db q, old.id = v.id → setVariant v old = old
  | .removeVariant _ variantId => (∃ v ∈ variantsOf db q, v.id = variantId) →
    ∀ t ∈ db.translations.rows, ¬(t.entityType = "digital_variant" ∧ t.entityId = variantId)
  | .setTranslation _ entityType entityId lang field value =>
    Owns db q entityType entityId → field ∈ ["title", "description", "label"] →
      ⟨entityType, entityId, lang, field, value⟩ ∈ db.translations.rows
  | _ => True

/-- The database after a call; one that fails leaves it as it was. -/
def after (db : ProductDb) (now clock : Int64) (call : Call) : ProductDb :=
  (call.run db now clock).toOption.getD db

section Tables
variable {db db' : ProductDb} {q : String}

theorem untouched_refl (db : ProductDb) (q : String) : Untouched db db q :=
  ⟨rfl, rfl, rfl, rfl, rfl, rfl⟩

theorem mem_variantsOf {v : DigitalVariant} :
    v ∈ variantsOf db q ↔ v ∈ db.digitalVariant.rows ∧ v.productId = q := by
  simp [variantsOf]

theorem mem_translationsOf {t : Translation} :
    t ∈ translationsOf db q ↔ t ∈ db.translations.rows ∧ Owns db q t.entityType t.entityId := by
  simp [translationsOf]

theorem owns_congr (h : variantsOf db' q = variantsOf db q) : Owns db' q = Owns db q := by
  unfold Owns
  rw [h]

/-- The translations of a product with the same variants. -/
theorem translationsOf_congr (h : variantsOf db' q = variantsOf db q) :
    translationsOf db' q =
      db'.translations.rows.filter fun t => Owns db q t.entityType t.entityId := by
  unfold translationsOf
  simp only [owns_congr h]

theorem translationsOf_same (h : variantsOf db' q = variantsOf db q)
    (ht : db'.translations = db.translations) : translationsOf db' q = translationsOf db q := by
  rw [translationsOf_congr h, ht]
  rfl

/-- The id of a variant belongs to one product. -/
theorem productId_of_id {v w : DigitalVariant} (hv : v ∈ db.digitalVariant.rows)
    (hw : w ∈ db.digitalVariant.rows) (hid : v.id = w.id) : v = w := by
  have hfind := Table.find?_of_mem hv
  rw [hid, Table.find?_of_mem hw] at hfind
  exact (Option.some.inj hfind).symm

end Tables

section Operations
variable {db db' : ProductDb} {now clock : Int64} {p q : String}

theorem createProduct_untouched {product : Product} (hq : product.id ≠ q)
    (h : createProduct db product clock = .ok db') : Untouched db db' q := by
  obtain ⟨products, hins, rfl⟩ := createProduct_ok h
  refine ⟨?_, rfl, rfl, rfl, rfl, rfl⟩
  exact (IndexedTable.find?_insert? hins q).trans (if_neg hq)

theorem updateProduct_untouched {id title slug description currency : String} {priceMinor : Int64}
    (hq : id ≠ q)
    (h : updateProduct db id title slug description priceMinor currency now clock = .ok db') :
    Untouched db db' q := by
  obtain ⟨products, hupdate, rfl⟩ := updateProduct_ok h
  refine ⟨?_, rfl, rfl, rfl, rfl, rfl⟩
  exact (IndexedTable.find?_update? hupdate q).trans (if_neg hq.symm)

theorem setStatus_untouched {id : String} {new : ProductStatus} (hq : id ≠ q)
    (h : setStatus db id new now clock = .ok db') : Untouched db db' q := by
  rcases setStatus_ok h with rfl | ⟨p, _, _, rfl⟩
  · exact untouched_refl _ q
  · refine ⟨?_, rfl, rfl, rfl, rfl, rfl⟩
    rw [IndexedTable.find?_patch_key, if_neg hq.symm]

/-- The translations that go with a product are those of its own entities. -/
theorem deleteTranslations_untouched (hq : p ≠ q) (hvariants : variantsOf db' q = variantsOf db q)
    (htranslations : db'.translations =
      (db.translations.delete fun t => t.entityType = "product" ∧ t.entityId = p).delete
        fun t => t.entityType = "digital_variant" ∧
          t.entityId ∈ (variantsOf db p).map DigitalVariant.id) :
    translationsOf db' q = translationsOf db q := by
  rw [translationsOf_congr hvariants, htranslations]
  rw [Table.filter_delete, Table.filter_delete]
  · rfl
  · intro t _ hdeleted
    obtain ⟨htype, hentity⟩ := of_decide_eq_true hdeleted
    apply decide_eq_false
    rintro (⟨_, hown⟩ | ⟨hown, _⟩)
    · exact hq (hentity.symm.trans hown)
    · rw [htype] at hown
      exact absurd hown (by decide)
  · intro t _ hdeleted
    obtain ⟨htype, hentity⟩ := of_decide_eq_true hdeleted
    apply decide_eq_false
    rintro (⟨hown, _⟩ | ⟨_, w, hw, hid⟩)
    · rw [htype] at hown
      exact absurd hown (by decide)
    · obtain ⟨v, hv, hvid⟩ := List.mem_map.mp hentity
      obtain ⟨hv, hvp⟩ := mem_variantsOf.mp hv
      obtain ⟨hw, hwq⟩ := mem_variantsOf.mp hw
      have hsame := productId_of_id hv hw (hvid.trans hid.symm)
      exact hq (hvp.symm.trans (hsame ▸ hwq))

theorem deleteProduct_untouched (hq : p ≠ q) (h : deleteProduct db p clock = .ok db') :
    Untouched db db' q := by
  have hother : ∀ id : String, id = p → decide (id = q) = false := by
    rintro _ rfl
    exact decide_eq_false hq
  rcases deleteProduct_ok h with ⟨_, rfl⟩ | ⟨_, rfl⟩
  · have hvariants : (db.digitalVariant.delete fun v => v.productId = p).rows.filter
        (fun v => v.productId = q) = variantsOf db q :=
      Table.filter_delete fun v _ hv => hother _ (of_decide_eq_true hv)
    refine ⟨?_, ?_, hvariants, ?_, ?_, ?_⟩
    · exact (Table.find?_delete_key db.products.toTable p q).trans (if_neg hq.symm)
    · exact (Table.find?_delete_key db.digitalConfig p q).trans (if_neg hq.symm)
    · exact Table.filter_delete fun m _ hm => hother _ (of_decide_eq_true hm)
    · exact Table.filter_delete fun v _ hv => hother _ (of_decide_eq_true hv)
    · exact deleteTranslations_untouched hq hvariants rfl
  · exact ⟨rfl, rfl, rfl, rfl, rfl, deleteTranslations_untouched hq rfl rfl⟩

theorem upsertDigitalConfig_untouched {c : DigitalConfig} (hq : c.productId ≠ q)
    (h : upsertDigitalConfig db c now clock = .ok db') : Untouched db db' q := by
  obtain rfl := upsertDigitalConfig_ok h
  refine ⟨rfl, ?_, rfl, rfl, rfl, rfl⟩
  exact (Table.find?_upsert _ c _ _ q).trans (if_neg hq)

theorem addVariant_untouched {v : DigitalVariant} (hq : v.productId ≠ q)
    (h : addVariant db v now clock = .ok db') : Untouched db db' q := by
  obtain ⟨free, rfl⟩ := addVariant_ok h
  have hvariants : (db.digitalVariant.insert v free).rows.filter (fun v => v.productId = q) =
      variantsOf db q := Table.filter_insert free (decide_eq_false hq)
  exact ⟨rfl, rfl, hvariants, rfl, rfl, translationsOf_same hvariants rfl⟩

theorem addMedia_untouched {m : ProductMedia} (hq : m.productId ≠ q)
    (h : addMedia db m now clock = .ok db') : Untouched db db' q := by
  obtain ⟨free, rfl⟩ := addMedia_ok h
  exact ⟨rfl, rfl, rfl, Table.filter_insert free (decide_eq_false hq), rfl, rfl⟩

theorem removeMedia_untouched {mediaId : String} (hq : p ≠ q)
    (h : removeMedia db p mediaId now clock = .ok db') : Untouched db db' q := by
  obtain rfl := Except.ok.inj h
  refine ⟨rfl, rfl, rfl, ?_, rfl, rfl⟩
  apply Table.filter_delete
  intro m _ hm
  obtain ⟨_, hproduct⟩ := of_decide_eq_true hm
  exact decide_eq_false fun hmq => hq (hproduct.symm.trans hmq)

theorem setAttributeValue_untouched {v : ProductAttributeValue} (hq : v.productId ≠ q)
    (h : setAttributeValue db v now clock = .ok db') : Untouched db db' q := by
  obtain rfl := setAttributeValue_ok h
  refine ⟨rfl, rfl, rfl, rfl, ?_, rfl⟩
  apply Table.filter_upsert
  · exact decide_eq_false hq
  · intro old _ hkey
    have hproduct : old.productId = v.productId := congrArg Prod.fst hkey
    exact ⟨decide_eq_false (hproduct ▸ hq), decide_eq_false (hproduct ▸ hq)⟩

theorem clearAttributeValue_untouched {attributeId : String} (hq : p ≠ q)
    (h : clearAttributeValue db p attributeId now clock = .ok db') : Untouched db db' q := by
  obtain rfl := Except.ok.inj h
  refine ⟨rfl, rfl, rfl, rfl, ?_, rfl⟩
  apply Table.filter_delete
  intro v _ hv
  obtain ⟨hproduct, _⟩ := of_decide_eq_true hv
  exact decide_eq_false fun hvq => hq (hproduct.symm.trans hvq)

theorem map_filter_eq_iff {f : DigitalVariant → DigitalVariant}
    (hf : ∀ v, (f v).productId = v.productId) (rows : List DigitalVariant) :
    (rows.map f).filter (fun v => v.productId = q) = rows.filter (fun v => v.productId = q) ↔
      ∀ v ∈ rows, v.productId = q → f v = v := by
  induction rows with
  | nil => simp
  | cons v rows ih =>
    rw [List.map_cons, List.filter_cons, List.filter_cons, hf v, List.forall_mem_cons]
    by_cases hv : v.productId = q
    · simp only [hv, decide_true, if_true, List.cons.injEq, ih, forall_true_left]
    · simp only [hv, decide_false, Bool.false_eq_true, if_false, ih, false_imp_iff, true_and]

/-- The variant is found by its id: it may be one of the other product. -/
theorem updateVariant_untouched_iff {v : DigitalVariant}
    (h : updateVariant db v now clock = .ok db') :
    Untouched db db' q ↔ Spares db q (.updateVariant v) := by
  obtain rfl := Except.ok.inj h
  have hvariants := map_filter_eq_iff (q := q)
    (f := fun old => if decide (old.id = v.id) then setVariant v old else old)
    (by intro old; split <;> rfl) db.digitalVariant.rows
  have hspares : (∀ old ∈ db.digitalVariant.rows, old.productId = q →
      (if decide (old.id = v.id) then setVariant v old else old) = old) ↔
      Spares db q (.updateVariant v) := by
    constructor
    · intro hsame old hold hid
      obtain ⟨hmem, hproduct⟩ := mem_variantsOf.mp hold
      have hset := hsame old hmem hproduct
      rwa [if_pos (decide_eq_true hid)] at hset
    · intro hsame old hmem hproduct
      split
      · rename_i hid
        exact hsame old (mem_variantsOf.mpr ⟨hmem, hproduct⟩) (of_decide_eq_true hid)
      · rfl
  rw [← hspares, ← hvariants]
  constructor
  · intro huntouched
    exact huntouched.variants
  · intro hsame
    exact ⟨rfl, rfl, hsame, rfl, rfl, translationsOf_same hsame rfl⟩

/-- The variant stays where it is unless it is one of `p`; its translations do not. -/
theorem removeVariant_untouched_iff {variantId : String} (hq : p ≠ q)
    (h : removeVariant db p variantId now clock = .ok db') :
    Untouched db db' q ↔ Spares db q (.removeVariant p variantId) := by
  obtain rfl := Except.ok.inj h
  have hvariants : (db.digitalVariant.delete fun v => v.id = variantId ∧ v.productId = p).rows.filter
      (fun v => v.productId = q) = variantsOf db q := by
    apply Table.filter_delete
    intro v _ hv
    obtain ⟨_, hproduct⟩ := of_decide_eq_true hv
    exact decide_eq_false fun hvq => hq (hproduct.symm.trans hvq)
  constructor
  · intro huntouched hvariant t ht hentity
    have hmine : t ∈ translationsOf db q :=
      mem_translationsOf.mpr ⟨ht, Or.inr ⟨hentity.1, hentity.2 ▸ hvariant⟩⟩
    rw [← huntouched.translations] at hmine
    obtain ⟨hkept, _⟩ := mem_translationsOf.mp hmine
    have hgone := (Table.mem_delete.mp hkept).2
    rw [decide_eq_true hentity] at hgone
    cases hgone
  · intro hspares
    refine ⟨rfl, rfl, hvariants, rfl, rfl, ?_⟩
    apply Eq.trans
    · exact translationsOf_congr hvariants
    apply Table.filter_delete
    intro t ht hdeleted
    have hentity := of_decide_eq_true hdeleted
    apply decide_eq_false
    rintro (⟨hown, _⟩ | ⟨_, hvariant⟩)
    · rw [hentity.1] at hown
      exact absurd hown (by decide)
    · exact hspares (hentity.2 ▸ hvariant) t ht hentity

/-- The entity may be any: also the other product or one of its variants. -/
theorem setTranslation_untouched_iff {entityType entityId field value : String} {lang : Lang}
    (h : setTranslation db p entityType entityId lang field value now clock = .ok db') :
    Untouched db db' q ↔ Spares db q (.setTranslation p entityType entityId lang field value) := by
  obtain ⟨hfield, rfl⟩ := setTranslation_ok h
  constructor
  · intro huntouched howns _
    have hfind := Table.find?_upsert db.translations ⟨entityType, entityId, lang, field, value⟩
      (fun old => { old with value }) (fun _ => rfl) (entityType, entityId, lang, field)
    rw [if_pos rfl] at hfind
    have hwritten : (db.translations.find? (entityType, entityId, lang, field)).elim
        ⟨entityType, entityId, lang, field, value⟩ (fun old => { old with value }) =
          (⟨entityType, entityId, lang, field, value⟩ : Translation) := by
      cases hold : db.translations.find? (entityType, entityId, lang, field) with
      | none => rfl
      | some old =>
        have hkey := Table.key_of_find? hold
        simp only [Prod.mk.injEq] at hkey
        obtain ⟨rfl, rfl, rfl, rfl⟩ := hkey
        rfl
    rw [hwritten] at hfind
    suffices hmine : ⟨entityType, entityId, lang, field, value⟩ ∈ translationsOf db q from
      (mem_translationsOf.mp hmine).1
    rw [← huntouched.translations]
    exact mem_translationsOf.mpr ⟨Table.mem_of_find? hfind, howns⟩
  · intro hspares
    refine ⟨rfl, rfl, rfl, rfl, rfl, ?_⟩
    by_cases howns : Owns db q entityType entityId
    · exact congrArg (List.filter _) (Table.rows_upsert_of_mem (hspares howns hfield) rfl)
    · apply Table.filter_upsert
      · exact decide_eq_false howns
      · intro old _ hkey
        simp only [Prod.mk.injEq] at hkey
        obtain ⟨htype, hentity, _⟩ := hkey
        rw [htype, hentity]
        exact ⟨decide_eq_false howns, decide_eq_false howns⟩

/-- The check of the table also keeps out what `q` cannot own. -/
theorem setTranslation_spares_of_error {entityType entityId field value : String} {lang : Lang}
    {e : ProductError}
    (h : setTranslation db p entityType entityId lang field value now clock = .error e) :
    Spares db q (.setTranslation p entityType entityId lang field value) := by
  unfold setTranslation at h
  simp only at h
  split at h
  · cases h
  · rename_i hcheck
    intro howns hfield
    refine absurd ⟨?_, hfield⟩ hcheck
    rcases howns with ⟨rfl, _⟩ | ⟨rfl, _⟩
    · decide
    · decide

end Operations

/-- A call to one product leaves another alone exactly if it names nothing of it. -/
theorem isolated_iff (db : ProductDb) (now clock : Int64) (call : Call) {q : String}
    (hq : call.productId ≠ q) : Untouched db (after db now clock call) q ↔ Spares db q call := by
  unfold after
  cases hrun : call.run db now clock with
  | error e =>
    refine iff_of_true (untouched_refl db q) ?_
    cases call with
    | updateVariant v => cases hrun
    | removeVariant productId variantId => cases hrun
    | setTranslation productId entityType entityId lang field value =>
      exact setTranslation_spares_of_error hrun
    | _ => trivial
  | ok db' =>
    change Untouched db db' q ↔ _
    cases call with
    | createProduct product => exact iff_of_true (createProduct_untouched hq hrun) trivial
    | updateProduct id title slug description priceMinor currency =>
      exact iff_of_true (updateProduct_untouched hq hrun) trivial
    | setStatus id new => exact iff_of_true (setStatus_untouched hq hrun) trivial
    | deleteProduct id => exact iff_of_true (deleteProduct_untouched hq hrun) trivial
    | upsertDigitalConfig c => exact iff_of_true (upsertDigitalConfig_untouched hq hrun) trivial
    | addVariant v => exact iff_of_true (addVariant_untouched hq hrun) trivial
    | updateVariant v => exact updateVariant_untouched_iff hrun
    | removeVariant productId variantId => exact removeVariant_untouched_iff hq hrun
    | addMedia m => exact iff_of_true (addMedia_untouched hq hrun) trivial
    | removeMedia productId mediaId => exact iff_of_true (removeMedia_untouched hq hrun) trivial
    | setAttributeValue v => exact iff_of_true (setAttributeValue_untouched hq hrun) trivial
    | clearAttributeValue productId attributeId =>
      exact iff_of_true (clearAttributeValue_untouched hq hrun) trivial
    | setTranslation productId entityType entityId lang field value =>
      exact setTranslation_untouched_iff hrun

/-! ## A foreign variant -/

def pen : Product := ⟨"pen", "s", "Pen", "pen", "", 100, "UAH", .draft, 0, 0⟩

def ink : Product := ⟨"ink", "s", "Ink", "ink", "", 100, "UAH", .draft, 0, 0⟩

def blue : DigitalVariant := ⟨"blue", "ink", "Blue", none, 0, 0⟩

/-- Two products, the second with a variant. -/
def pens : ProductDb :=
  [Call.createProduct pen, .createProduct ink, .addVariant blue].foldl
    (fun db call => after db 0 0 call) .empty

theorem isolated_pens :
    Untouched pens (after pens 0 0 (.removeMedia "pen" "cover")) "ink" ↔
      Spares pens "ink" (.removeMedia "pen" "cover") :=
  isolated_iff pens 0 0 (.removeMedia "pen" "cover") (by decide)

/-- An update of a variant of the pen renames one of the ink. -/
theorem foreign_variant_renamed :
    (Call.updateVariant { blue with productId := "pen", label := "Black" }).productId ≠ "ink" ∧
      ¬Untouched pens
        (after pens 0 0 (.updateVariant { blue with productId := "pen", label := "Black" }))
        "ink" := by
  refine ⟨by decide, fun huntouched => ?_⟩
  have hlabels := congrArg (List.map DigitalVariant.label) huntouched.variants
  revert hlabels
  decide

end ProductIsolation

end TinyShop
