import TinyShop.ProductEvent

/-!
# What an event does to one row

As long as no event meets a slug that another row holds, an event acts on the
projection row of its own product and on nothing else, as a cell operation; on the
attribute index it overwrites single entries, and the full-text table follows both.
-/

namespace TinyShop

open Base CatalogProjection
set_option autoImplicit false

/-- The columns of a projection row that an event may overwrite. -/
structure RowPatch where
  title : Option String := none
  slug : Option String := none
  description : Option String := none
  priceMinor : Option Int64 := none
  currency : Option String := none
  status : Option String := none
  updatedAt : Option Int64 := none

namespace RowPatch

def act (p : RowPatch) (r : ProjectionRow) : ProjectionRow :=
  { r with
    title := p.title.getD r.title
    slug := p.slug.getD r.slug
    description := p.description.getD r.description
    priceMinor := p.priceMinor.getD r.priceMinor
    currency := p.currency.getD r.currency
    status := p.status.getD r.status
    updatedAt := p.updatedAt.getD r.updatedAt }

def merge (p q : RowPatch) : RowPatch where
  title := q.title.or p.title
  slug := q.slug.or p.slug
  description := q.description.or p.description
  priceMinor := q.priceMinor.or p.priceMinor
  currency := q.currency.or p.currency
  status := q.status.or p.status
  updatedAt := q.updatedAt.or p.updatedAt

theorem getD_getD {α : Type} (p : Option α) (x : α) : p.getD (p.getD x) = p.getD x := by
  cases p <;> simp

theorem getD_congr {α : Type} (p q : Option α) {x y : α} (h : q.getD x = q.getD y) :
    q.getD (p.getD x) = q.getD (p.getD y) := by
  cases q with
  | none =>
    have hxy : x = y := h
    rw [hxy]
  | some a => rfl

instance : Overwrites RowPatch ProjectionRow where
  act := act
  merge := merge
  act_merge := by
    intro p q r
    simp [act, merge]
  act_act := by
    intro p r
    simp [act, getD_getD]
  act_congr := by
    intro q p r s h
    simp only [act, ProjectionRow.mk.injEq] at h ⊢
    obtain ⟨hid, hseller, htitle, hslug, hdesc, hprice, hcur, hstatus, hcat, hthumb, hcreated,
      hupdated⟩ := h
    exact ⟨hid, hseller, getD_congr _ _ htitle, getD_congr _ _ hslug, getD_congr _ _ hdesc,
      getD_congr _ _ hprice, getD_congr _ _ hcur, getD_congr _ _ hstatus, hcat, hthumb, hcreated,
      getD_congr _ _ hupdated⟩

end RowPatch

abbrev RowOp := CellOp ProjectionRow RowPatch

namespace ProductEvent

/-- What the event does to the row of the product `id`. -/
def onRow (id : String) : ProductEvent → Option RowOp
  | .created row => if row.id = id then some (.create row) else none
  | .core id' title slug description priceMinor currency updatedAt =>
    if id' = id then some (.patch {
      title := some title, slug := some slug, description := some description
      priceMinor := some priceMinor, currency := some currency, updatedAt := some updatedAt })
    else none
  | .touched id' (some updatedAt) =>
    if id' = id then some (.patch { updatedAt := some updatedAt }) else none
  | .statusChanged id' status updatedAt =>
    if id' = id then some (.patch { status := some status, updatedAt := some updatedAt }) else none
  | .deleted id' => if id' = id then some .drop else none
  | _ => none

/-- What the event writes for one attribute of the product `id`. -/
def onAttr (attributes : Table Attribute String Attribute.id) (id attributeId : String) :
    ProductEvent → Option (Option AttrIndexRow)
  | .attributeSet id' attributeId' valText valNum =>
    if id' = id ∧ attributeId' = attributeId then
      (attributes.find? attributeId).map fun a => some ⟨id, a.categoryId, attributeId, valText, valNum⟩
    else none
  | .attributeCleared id' attributeId' =>
    if id' = id ∧ attributeId' = attributeId then some none else none
  | .deleted id' => if id' = id then some none else none
  | _ => none

/-- The event does not write a slug that another row holds. -/
def Fits (t : ProjectionTable) : ProductEvent → Prop
  | .created row => t.find? row.id = none → t.IndexFree row.id row.slug
  | .core id _ slug _ _ _ _ => (t.find? id).isSome → t.IndexFree id slug
  | _ => True

instance (t : ProjectionTable) : (e : ProductEvent) → Decidable (e.Fits t)
  | .created row =>
    inferInstanceAs (Decidable (t.find? row.id = none → t.IndexFree row.id row.slug))
  | .core id _ slug _ _ _ _ =>
    inferInstanceAs (Decidable ((t.find? id).isSome → t.IndexFree id slug))
  | .attributeSet _ _ _ _ | .attributeCleared _ _ | .touched _ _ | .statusChanged _ _ _
  | .deleted _ | .other => isTrue trivial

theorem fits_congr {t u : ProjectionTable} (h : ∀ id, t.find? id = u.find? id) {e : ProductEvent}
    (hfits : e.Fits t) : e.Fits u := by
  have hmem : ∀ r, r ∈ u.rows → r ∈ t.rows := by
    intro r hr
    rw [Table.mem_rows_iff] at hr ⊢
    rw [h, hr]
  cases e with
  | created row =>
    intro hnone r hr
    rw [← h] at hnone
    exact hfits hnone r (hmem r hr)
  | core id title slug description priceMinor currency updatedAt =>
    intro hsome r hr
    rw [← h] at hsome
    exact hfits hsome r (hmem r hr)
  | _ => trivial

end ProductEvent

section Apply
variable {db db' : CatalogDb} {e : ProductEvent}

/-- An event that fits is applied, and acts on single rows. -/
theorem ProductEvent.apply_ok (hfits : e.Fits db.projection) : ∃ db', e.apply db = .ok db' := by
  cases e with
  | core id title slug description priceMinor currency updatedAt =>
    simp only [apply]
    split
    · rename_i hnone
      refine absurd (fun r hr hid => ?_) (IndexedTable.update?_eq_none_iff.mp hnone)
      exact hfits (Table.find?_isSome_iff.mpr ⟨r, hr, hid⟩)
    · exact ⟨_, rfl⟩
  | touched id updatedAt =>
    cases updatedAt <;> exact ⟨_, rfl⟩
  | _ => exact ⟨_, rfl⟩

theorem ProductEvent.find?_apply (hfits : e.Fits db.projection) (h : e.apply db = .ok db')
    (id : String) : db'.projection.find? id =
      (e.onRow id).toList.foldl CellOp.step (db.projection.find? id) := by
  cases e with
  | created row =>
    obtain rfl := Except.ok.inj h
    rw [upsertFts_projection]
    cases hins : db.projection.insert? row with
    | none =>
      -- only a taken id makes this insert a no-op
      have htaken := IndexedTable.insert?_eq_none_iff.mp hins
      rw [Option.getD_none]
      by_cases hid : row.id = id
      · subst hid
        cases hf : db.projection.find? row.id with
        | none => exact absurd ⟨hf, hfits hf⟩ htaken
        | some r => simp [onRow, CellOp.step]
      · simp [onRow, hid]
    | some t =>
      rw [Option.getD_some, IndexedTable.find?_insert? hins]
      have hfree := (IndexedTable.insert?_eq_some hins).1
      by_cases hid : row.id = id
      · subst hid
        simp [onRow, hfree, CellOp.step]
      · simp [onRow, hid]
  | core id' title slug description priceMinor currency updatedAt =>
    simp only [apply] at h
    split at h
    · cases h
    · rename_i t hupd
      obtain rfl := Except.ok.inj h
      rw [upsertFts_projection, IndexedTable.find?_update? hupd, onRow, CellOp.foldl_ite,
        CellOp.step_patch]
      exact if_congr eq_comm rfl rfl
  | attributeSet id' attributeId valText valNum =>
    obtain rfl := Except.ok.inj h
    rw [upsertFts_projection]
    rfl
  | attributeCleared id' attributeId =>
    obtain rfl := Except.ok.inj h
    rw [upsertFts_projection]
    rfl
  | touched id' updatedAt =>
    cases updatedAt with
    | none =>
      obtain rfl := Except.ok.inj h
      rfl
    | some ts =>
      obtain rfl := Except.ok.inj h
      rw [onRow, CellOp.foldl_ite, CellOp.step_patch]
      simp only [IndexedTable.find?_patch_key]
      exact if_congr eq_comm rfl rfl
  | statusChanged id' status ts =>
    obtain rfl := Except.ok.inj h
    rw [onRow, CellOp.foldl_ite, CellOp.step_patch]
    simp only [IndexedTable.find?_patch_key]
    exact if_congr eq_comm rfl rfl
  | deleted id' =>
    obtain rfl := Except.ok.inj h
    rw [onRow, CellOp.foldl_ite, CellOp.step_drop]
    simp only [deleteFts_projection, IndexedTable.toTable_delete, Table.find?_delete_key]
    exact if_congr eq_comm rfl rfl
  | other =>
    obtain rfl := Except.ok.inj h
    rfl

theorem ProductEvent.attributes_apply (h : e.apply db = .ok db') :
    db'.attributes = db.attributes := by
  cases e with
  | core id title slug description priceMinor currency updatedAt =>
    simp only [apply] at h
    split at h
    · cases h
    · obtain rfl := Except.ok.inj h
      rw [upsertFts_attributes]
  | touched id updatedAt =>
    cases updatedAt <;> cases h <;> rfl
  | statusChanged id status updatedAt =>
    obtain rfl := Except.ok.inj h
    rfl
  | deleted id =>
    obtain rfl := Except.ok.inj h
    rfl
  | other =>
    obtain rfl := Except.ok.inj h
    rfl
  | _ =>
    obtain rfl := Except.ok.inj h
    rw [upsertFts_attributes]

theorem find?_setAttr (db : CatalogDb) (id' attributeId' id attributeId : String)
    (valText : Option String) (valNum : Option F64) :
    (setAttr db id' attributeId' valText valNum).find? (id, attributeId) =
      ((ProductEvent.attributeSet id' attributeId' valText valNum).onAttr db.attributes id
        attributeId).toList.foldl overwrite (db.attrIndex.find? (id, attributeId)) := by
  by_cases hkey : id' = id ∧ attributeId' = attributeId
  · obtain ⟨rfl, rfl⟩ := hkey
    unfold setAttr
    cases ha : db.attributes.find? attributeId' with
    | none => simp [ProductEvent.onAttr, ha]
    | some a =>
      rw [Table.find?_upsert, if_pos rfl]
      cases hold : db.attrIndex.find? (id', attributeId') with
      | none => simp [ProductEvent.onAttr, ha, overwrite]
      | some old =>
        have hkey := Table.key_of_find? hold
        obtain ⟨hid, hattr⟩ := Prod.mk.inj hkey
        simp [ProductEvent.onAttr, ha, overwrite, hid, hattr]
  · unfold setAttr
    have hne : (id', attributeId') ≠ (id, attributeId) := by simpa using hkey
    cases ha : db.attributes.find? attributeId' with
    | none => simp [ProductEvent.onAttr, hkey]
    | some a =>
      rw [Table.find?_upsert, if_neg hne]
      simp [ProductEvent.onAttr, hkey]

theorem ProductEvent.find?_attr_apply (h : e.apply db = .ok db') (id attributeId : String) :
    db'.attrIndex.find? (id, attributeId) =
      (e.onAttr db.attributes id attributeId).toList.foldl overwrite
        (db.attrIndex.find? (id, attributeId)) := by
  cases e with
  | created row =>
    obtain rfl := Except.ok.inj h
    rw [upsertFts_attrIndex]
    rfl
  | attributeSet id' attributeId' valText valNum =>
    obtain rfl := Except.ok.inj h
    rw [upsertFts_attrIndex]
    exact find?_setAttr db id' attributeId' id attributeId valText valNum
  | attributeCleared id' attributeId' =>
    obtain rfl := Except.ok.inj h
    rw [upsertFts_attrIndex]
    simp only
    rw [Table.find?_delete_of_key (b := decide (id' = id ∧ attributeId' = attributeId)) _ ?_]
    · by_cases hkey : id' = id ∧ attributeId' = attributeId
      · simp [onAttr, hkey, overwrite]
      · simp [onAttr, hkey]
    · intro a hkey
      obtain ⟨hid, hattr⟩ := Prod.mk.inj hkey
      simp [hid, hattr, eq_comm]
  | core id' title slug description priceMinor currency updatedAt =>
    simp only [apply] at h
    split at h
    · cases h
    · obtain rfl := Except.ok.inj h
      rw [upsertFts_attrIndex]
      rfl
  | touched id' updatedAt =>
    cases updatedAt <;> cases h <;> rfl
  | statusChanged id' status updatedAt =>
    obtain rfl := Except.ok.inj h
    rfl
  | deleted id' =>
    obtain rfl := Except.ok.inj h
    simp only [deleteFts_attrIndex]
    rw [Table.find?_delete_of_key (b := decide (id' = id)) _ ?_]
    · by_cases hid : id' = id
      · simp [onAttr, hid, overwrite]
      · simp [onAttr, hid]
    · intro a hkey
      obtain ⟨hid, _⟩ := Prod.mk.inj hkey
      simp [hid, eq_comm]
  | other =>
    obtain rfl := Except.ok.inj h
    rfl

end Apply

end TinyShop
