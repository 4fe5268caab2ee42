import TinyShop.FullText
import TinyShop.Search

/-!
# The full-text table under all its writers

Events of any kind and in any order, documents written past the events and products
removed, each of them applied or failing: the full-text table keeps one row for each
projection row. The attributes in it are those of the index as long as no document was
written for the product.
-/

namespace TinyShop

open Base CatalogProjection
set_option autoImplicit false

namespace FullTextMirror

/-- What is done to the catalog; its taxonomy may become any other. -/
inductive Op where
  | dispatch (source : String) (ev : DomainEvent)
  | upsert (doc : ProductDoc)
  | remove (productId : String)
  | taxonomy (attributes : Table Attribute String Attribute.id)

/-- One operation. It can also fail for a reason of its own or of the database; then its
transaction is rolled back. -/
inductive Step (db : CatalogDb) : Op → CatalogDb → Prop where
  | dispatch {source : String} {ev : DomainEvent} {db' : CatalogDb} :
      CatalogProjection.dispatch db source ev = .ok db' → Step db (.dispatch source ev) db'
  | upsert {doc : ProductDoc} {db' : CatalogDb} :
      SqliteCatalogSearch.upsert db doc = .ok db' → Step db (.upsert doc) db'
  | remove {productId : String} {db' : CatalogDb} :
      SqliteCatalogSearch.remove db productId = .ok db' → Step db (.remove productId) db'
  | taxonomy (attributes : Table Attribute String Attribute.id) :
      Step db (.taxonomy attributes) { db with attributes }
  | failed (op : Op) : Step db op db

inductive Run (db : CatalogDb) : List Op → CatalogDb → Prop where
  | start : Run db [] db
  | step {ops : List Op} {op : Op} {db' db'' : CatalogDb} :
      Run db ops db' → Step db' op db'' → Run db (ops ++ [op]) db''

/-- No document was written for the product. -/
def Unwritten (ops : List Op) (id : String) : Prop := ∀ doc, .upsert doc ∈ ops → doc.productId ≠ id

section Steps
variable {db db' : CatalogDb} {own : String → Prop}

theorem dispatch_mirrored {source : String} {ev : DomainEvent} (h : Mirrored db own)
    (hrun : CatalogProjection.dispatch db source ev = .ok db') : Mirrored db' own :=
  h.apply (dispatch_ok_iff.mp hrun)

/-- The row that a document leaves in the projection. -/
theorem find?_upsertRow {doc : ProductDoc} {t : ProjectionTable}
    (hrow : SqliteCatalogSearch.upsertRow db doc = some t) :
    (∃ row, t.find? doc.productId = some row ∧ row.title = doc.title ∧
      row.description = doc.description) ∧
    ∀ k, k ≠ doc.productId → t.find? k = db.projection.find? k := by
  unfold SqliteCatalogSearch.upsertRow at hrow
  split at hrow
  · constructor
    · exact ⟨_, (IndexedTable.find?_insert? hrow _).trans (if_pos rfl), rfl, rfl⟩
    · intro k hk
      exact (IndexedTable.find?_insert? hrow k).trans (if_neg hk.symm)
  · rename_i hthere
    constructor
    · cases hold : db.projection.find? doc.productId with
      | none => exact absurd hold hthere
      | some old =>
        have hnew := IndexedTable.find?_update? hrow doc.productId
        rw [if_pos rfl, hold] at hnew
        exact ⟨_, hnew, rfl, rfl⟩
    · intro k hk
      exact (IndexedTable.find?_update? hrow k).trans (if_neg hk)

/-- The document brings its own attributes. -/
theorem upsert_mirrored {doc : ProductDoc} (h : Mirrored db own)
    (hrun : SqliteCatalogSearch.upsert db doc = .ok db') :
    Mirrored db' fun id => own id ∧ doc.productId ≠ id := by
  unfold SqliteCatalogSearch.upsert at hrun
  split at hrun
  · cases hrun
  · rename_i t hrow
    obtain rfl := Except.ok.inj hrun
    obtain ⟨⟨row, hnew, htitle, hdescription⟩, hothers⟩ := find?_upsertRow hrow
    have hid := Table.key_of_find? hnew
    rw [← hid] at hnew hothers
    have hfts : db.fts.filter (fun f => f.productId ≠ doc.productId) ++
        [⟨doc.productId, doc.title, doc.description, doc.attrsText⟩] =
          db.fts.filter (fun f => f.productId ≠ row.id) ++
            [⟨row.id, row.title, row.description, doc.attrsText⟩] := by
      rw [htitle, hdescription, hid]
    refine h.replace rfl hnew hfts hothers (fun k _ => rfl) (fun k _ hk => hk.1) fun hown => ?_
    exact absurd hid.symm hown.2

/-- To remove a product is what the event of its deletion does. -/
theorem remove_mirrored {productId : String} (h : Mirrored db own)
    (hrun : SqliteCatalogSearch.remove db productId = .ok db') : Mirrored db' own := by
  obtain rfl := Except.ok.inj hrun
  have hdeleted : (ProductEvent.deleted productId).apply db = .ok _ := rfl
  exact h.apply hdeleted

theorem taxonomy_mirrored {attributes : Table Attribute String Attribute.id}
    (h : Mirrored db own) : Mirrored { db with attributes } own where
  distinct := h.distinct
  mem := by
    intro f hf
    obtain ⟨r, hr, hfr⟩ := h.mem f hf
    exact ⟨r, hr, hfr.congr rfl rfl fun hown => hown⟩
  all := by
    intro r hr
    obtain ⟨f, hf, hfr⟩ := h.all r hr
    exact ⟨f, hf, hfr.congr rfl rfl fun hown => hown⟩

/-- One operation keeps one row for each product. -/
theorem step_mirrored {ops : List Op} {op : Op} (h : Mirrored db (Unwritten ops))
    (hstep : Step db op db') : Mirrored db' (Unwritten (ops ++ [op])) := by
  have hfewer : ∀ id, Unwritten (ops ++ [op]) id → Unwritten ops id :=
    fun id hid doc hdoc => hid doc (List.mem_append_left _ hdoc)
  cases hstep with
  | dispatch hrun => exact (dispatch_mirrored h hrun).mono hfewer
  | upsert hrun =>
    refine (upsert_mirrored h hrun).mono fun id hid => ?_
    exact ⟨hfewer id hid, hid _ (List.mem_append_right _ (List.mem_singleton_self _))⟩
  | remove hrun => exact (remove_mirrored h hrun).mono hfewer
  | taxonomy attributes => exact (taxonomy_mirrored h).mono hfewer
  | failed => exact h.mono hfewer

theorem run_mirrored {attributes : Table Attribute String Attribute.id}
    {concatOrder : ConcatOrder} {ops : List Op} (h : Run (.initial attributes concatOrder) ops db) :
    Mirrored db (Unwritten ops) := by
  induction h with
  | start => exact mirrored_initial attributes concatOrder _
  | step _ hstep ih => exact step_mirrored ih hstep

end Steps

/-- A mirrored table has one row for each projection row, and no other. -/
theorem perm_of_mirrored {db : CatalogDb} {own : String → Prop} (h : Mirrored db own) :
    (db.fts.map fun f => (f.productId, f.title, f.description)).Perm
      (db.projection.rows.map fun r => (r.id, r.title, r.description)) := by
  have hfts : (db.fts.map fun f => (f.productId, f.title, f.description)).Nodup := by
    apply List.Nodup.of_map Prod.fst
    rw [List.map_map]
    exact h.distinct
  have hrows : (db.projection.rows.map fun r => (r.id, r.title, r.description)).Nodup := by
    apply List.Nodup.of_map Prod.fst
    rw [List.map_map]
    exact db.projection.unique
  apply (List.perm_ext_iff_of_nodup hfts hrows).mpr
  intro x
  simp only [List.mem_map]
  constructor
  · rintro ⟨f, hf, rfl⟩
    obtain ⟨r, hr, hfr⟩ := h.mem f hf
    exact ⟨r, hr, by rw [hfr.id, hfr.title, hfr.description]⟩
  · rintro ⟨r, hr, rfl⟩
    obtain ⟨f, hf, hfr⟩ := h.all r hr
    exact ⟨f, hf, by rw [hfr.id, hfr.title, hfr.description]⟩

/-- After any operations the full-text table has one row for each product of the projection, with
its title and description; the row of a product without a document has the texts of the index. -/
theorem full_text_mirror {attributes : Table Attribute String Attribute.id}
    {concatOrder : ConcatOrder} {ops : List Op} {db : CatalogDb}
    (h : Run (.initial attributes concatOrder) ops db) :
    (db.fts.map fun f => (f.productId, f.title, f.description)).Perm
        (db.projection.rows.map fun r => (r.id, r.title, r.description)) ∧
      ∀ f ∈ db.fts, Unwritten ops f.productId →
        ∃ texts, texts.Perm (attrTexts db.attrIndex f.productId) ∧
          f.attrs = " ".intercalate texts := by
  have hmirrored := run_mirrored h
  refine ⟨perm_of_mirrored hmirrored, fun f hf hunwritten => ?_⟩
  obtain ⟨r, _, hfr⟩ := hmirrored.mem f hf
  refine ⟨_, db.concatOrder.perm f.productId (attrTexts db.attrIndex f.productId), ?_⟩
  rw [hfr.id] at hunwritten ⊢
  exact hfr.attrs hunwritten

/-! ## A run -/

/-- The catalog after an operation; one that fails leaves it as it was. -/
def after (db : CatalogDb) : Op → CatalogDb
  | .dispatch source ev => (CatalogProjection.dispatch db source ev).toOption.getD db
  | .upsert doc => (SqliteCatalogSearch.upsert db doc).toOption.getD db
  | .remove productId => (SqliteCatalogSearch.remove db productId).toOption.getD db
  | .taxonomy attributes => { db with attributes }

theorem step_after (db : CatalogDb) (op : Op) : Step db op (after db op) := by
  cases op with
  | dispatch source ev =>
    rw [after]
    cases hrun : CatalogProjection.dispatch db source ev with
    | ok db' => exact .dispatch hrun
    | error e => exact .failed _
  | upsert doc =>
    rw [after]
    cases hrun : SqliteCatalogSearch.upsert db doc with
    | ok db' => exact .upsert hrun
    | error e => exact .failed _
  | remove productId =>
    rw [after]
    cases hrun : SqliteCatalogSearch.remove db productId with
    | ok db' => exact .remove hrun
    | error e => exact .failed _
  | taxonomy attributes => exact .taxonomy attributes

theorem run_after (db : CatalogDb) (ops : List Op) : Run db ops (ops.foldl after db) := by
  induction ops using List.reverseRecOn with
  | nil => exact .start
  | append_singleton ops op ih =>
    rw [List.foldl_append]
    exact .step ih (step_after _ op)

def event (eventType : String) (fields : List (String × Value)) : DomainEvent :=
  ⟨1, "product", "", eventType, .object fields, 0⟩

/-- A product, one with the same slug, an attribute, a document for another product, a text that
cannot be put in because of its slug. -/
def script : List Op :=
  [.taxonomy (Table.insert ∅ ⟨"color", "office", "Color", .string, none, false, 0⟩ rfl),
    .dispatch "product" (event "ProductCreated"
      [("id", .string "pen"), ("title", .string "Pen"), ("slug", .string "pen")]),
    .dispatch "product" (event "ProductCreated" [("id", .string "copy"), ("slug", .string "pen")]),
    .dispatch "product" (event "ProductUpdated"
      [("id", .string "pen"), ("reason", .string "attribute_value_set"),
        ("attribute_id", .string "color"), ("val_text", .string "red")]),
    .upsert ⟨"ink", "office", "Ink", "", 100, "UAH", "ink", "blue"⟩,
    .upsert ⟨"ink", "office", "Ink", "", 100, "UAH", "pen", "blue"⟩]

theorem full_text_mirror_script :
    let db := script.foldl after (.initial ∅)
    db.fts = [⟨"pen", "Pen", "", "red"⟩, ⟨"ink", "Ink", "", "blue"⟩] ∧
      (db.fts.map fun f => (f.productId, f.title, f.description)).Perm
        (db.projection.rows.map fun r => (r.id, r.title, r.description)) :=
  ⟨by rfl, (full_text_mirror (run_after (.initial ∅) script)).1⟩

end FullTextMirror

end TinyShop
