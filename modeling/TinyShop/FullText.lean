import TinyShop.ProjectionView
import TinyShop.Text

/-!
# The full-text table

`product_fts` is derived: it has one row for each projection row, with the title and
the description of that row and the texts of its attributes. Every event keeps it so,
so its contents up to the order of words follow from the two other tables.
-/

namespace TinyShop

open Base CatalogProjection
set_option autoImplicit false

theorem attrTexts_upsert {t : AttrIndex} {a : AttrIndexRow} {f : AttrIndexRow → AttrIndexRow}
    {keeps : ∀ s : AttrIndexRow, ((f s).productId, (f s).attributeId) = (s.productId, s.attributeId)}
    {id : String} (h : a.productId ≠ id) :
    attrTexts (t.upsert a f keeps) id = attrTexts t id := by
  unfold Table.upsert
  split
  · simp [attrTexts, h]
  · simp only [attrTexts, Table.update, List.filterMap_map]
    apply List.filterMap_congr
    intro s hs
    simp only [Function.comp_apply, decide_eq_true_eq, Prod.mk.injEq]
    split
    · rename_i hkey
      have hf : (f s).productId = s.productId := (Prod.mk.inj (keeps s)).1
      rw [if_neg (by rw [hf, hkey.1]; exact h), if_neg (by rw [hkey.1]; exact h)]
    · rfl

theorem attrTexts_delete {t : AttrIndex} {p : AttrIndexRow → Bool} {id : String}
    (h : ∀ a : AttrIndexRow, a.productId = id → p a = false) :
    attrTexts (t.delete p) id = attrTexts t id := by
  simp only [attrTexts, Table.delete, List.filterMap_filter]
  apply List.filterMap_congr
  intro a ha
  by_cases hid : a.productId = id
  · simp [hid, h a hid]
  · simp [hid]

/-- An event changes the texts of its own product only. -/
theorem ProductEvent.attrTexts_apply {db db' : CatalogDb} {e : ProductEvent}
    (h : e.apply db = .ok db') {id : String} (hid : e.id? ≠ some id) :
    attrTexts db'.attrIndex id = attrTexts db.attrIndex id := by
  cases e with
  | created row =>
    obtain rfl := Except.ok.inj h
    rw [upsertFts_attrIndex]
  | attributeSet id' attributeId valText valNum =>
    obtain rfl := Except.ok.inj h
    rw [upsertFts_attrIndex]
    have hne : id' ≠ id := fun heq => hid (congrArg some heq)
    unfold setAttr
    split
    · rfl
    · exact attrTexts_upsert hne
  | attributeCleared id' attributeId =>
    obtain rfl := Except.ok.inj h
    rw [upsertFts_attrIndex]
    have hne : id' ≠ id := fun heq => hid (congrArg some heq)
    refine attrTexts_delete fun a ha => ?_
    simp [ha, Ne.symm hne]
  | core id' title slug description priceMinor currency updatedAt =>
    simp only [apply] at h
    split at h
    · cases h
    · obtain rfl := Except.ok.inj h
      rw [upsertFts_attrIndex]
  | touched id' updatedAt =>
    cases updatedAt <;> cases h <;> rfl
  | statusChanged id' status updatedAt =>
    obtain rfl := Except.ok.inj h
    rfl
  | deleted id' =>
    obtain rfl := Except.ok.inj h
    have hne : id' ≠ id := fun heq => hid (congrArg some heq)
    refine attrTexts_delete fun a ha => ?_
    simp [ha, Ne.symm hne]
  | other =>
    obtain rfl := Except.ok.inj h
    rfl

/-- The row that belongs to a projection row. -/
def ftsOf (db : CatalogDb) (r : ProjectionRow) : FtsRow :=
  ⟨r.id, r.title, r.description, attrsText db r.id⟩

/-- The full-text table has exactly the rows that belong to projection rows. -/
structure Indexed (db : CatalogDb) : Prop where
  distinct : (db.fts.map FtsRow.productId).Nodup
  mem : ∀ f, f ∈ db.fts ↔ ∃ r ∈ db.projection.rows, f = ftsOf db r

theorem indexed_initial (attributes : Table Attribute String Attribute.id)
    (concatOrder : ConcatOrder) : Indexed (.initial attributes concatOrder) where
  distinct := List.nodup_nil
  mem := by simp [CatalogDb.initial]

/-! ## One row for each product -/

/-- The row belongs to the projection row; it has the texts of the attributes if the product
is one of `own`. -/
structure Mirror (db : CatalogDb) (own : String → Prop) (f : FtsRow) (r : ProjectionRow) : Prop where
  id : f.productId = r.id
  title : f.title = r.title
  description : f.description = r.description
  attrs : own r.id → f.attrs = attrsText db r.id

/-- The rows of the full-text table and the projection rows belong to each other. -/
structure Mirrored (db : CatalogDb) (own : String → Prop) : Prop where
  distinct : (db.fts.map FtsRow.productId).Nodup
  mem : ∀ f ∈ db.fts, ∃ r ∈ db.projection.rows, Mirror db own f r
  all : ∀ r ∈ db.projection.rows, ∃ f ∈ db.fts, Mirror db own f r

theorem mirror_true_iff {db : CatalogDb} {f : FtsRow} {r : ProjectionRow} :
    Mirror db (fun _ => True) f r ↔ f = ftsOf db r := by
  obtain ⟨productId, title, description, attrs⟩ := f
  constructor
  · rintro ⟨rfl, rfl, rfl, hattrs⟩
    obtain rfl := hattrs trivial
    rfl
  · intro hf
    rw [hf]
    exact ⟨rfl, rfl, rfl, fun _ => rfl⟩

/-- To be indexed is to be mirrored with all attributes. -/
theorem indexed_iff_mirrored {db : CatalogDb} : Indexed db ↔ Mirrored db fun _ => True := by
  constructor
  · intro h
    refine ⟨h.distinct, fun f hf => ?_, fun r hr => ?_⟩
    · obtain ⟨r, hr, hfr⟩ := (h.mem f).mp hf
      exact ⟨r, hr, mirror_true_iff.mpr hfr⟩
    · exact ⟨ftsOf db r, (h.mem _).mpr ⟨r, hr, rfl⟩, mirror_true_iff.mpr rfl⟩
  · intro h
    refine ⟨h.distinct, fun f => ⟨fun hf => ?_, ?_⟩⟩
    · obtain ⟨r, hr, hfr⟩ := h.mem f hf
      exact ⟨r, hr, mirror_true_iff.mp hfr⟩
    · rintro ⟨r, hr, rfl⟩
      obtain ⟨f, hf, hfr⟩ := h.all r hr
      exact mirror_true_iff.mp hfr ▸ hf

section Mirrored
variable {db db' : CatalogDb} {own own' : String → Prop}

theorem mirrored_initial (attributes : Table Attribute String Attribute.id)
    (concatOrder : ConcatOrder) (own : String → Prop) :
    Mirrored (.initial attributes concatOrder) own where
  distinct := List.nodup_nil
  mem := fun _ hf => by cases hf
  all := fun _ hr => by cases hr

theorem Mirror.congr {f : FtsRow} {r : ProjectionRow} (h : Mirror db own f r)
    (horder : db'.concatOrder = db.concatOrder)
    (htexts : attrTexts db'.attrIndex r.id = attrTexts db.attrIndex r.id)
    (hown : own' r.id → own r.id) : Mirror db' own' f r where
  id := h.id
  title := h.title
  description := h.description
  attrs := by
    intro hr
    rw [h.attrs (hown hr), attrsText, attrsText, horder, htexts]

/-- Fewer products are asked for the texts of their attributes. -/
theorem Mirrored.mono (h : Mirrored db own) (hown : ∀ id, own' id → own id) : Mirrored db own' where
  distinct := h.distinct
  mem := by
    intro f hf
    obtain ⟨r, hr, hfr⟩ := h.mem f hf
    exact ⟨r, hr, hfr.congr rfl rfl (hown r.id)⟩
  all := by
    intro r hr
    obtain ⟨f, hf, hfr⟩ := h.all r hr
    exact ⟨f, hf, hfr.congr rfl rfl (hown r.id)⟩

/-- All rows but those of one product are as they were, and that product is gone. -/
theorem Mirrored.delete (h : Mirrored db own) (id : String)
    (horder : db'.concatOrder = db.concatOrder)
    (hfts : db'.fts = db.fts.filter fun f => f.productId ≠ id)
    (hrows : ∀ k, db'.projection.find? k = if k = id then none else db.projection.find? k)
    (htexts : ∀ k, k ≠ id → attrTexts db'.attrIndex k = attrTexts db.attrIndex k) :
    Mirrored db' own where
  distinct := by
    rw [hfts]
    exact h.distinct.sublist (List.Sublist.map _ List.filter_sublist)
  mem := by
    intro f hf
    rw [hfts, List.mem_filter] at hf
    obtain ⟨r, hr, hfr⟩ := h.mem f hf.1
    have hne : r.id ≠ id := fun heq => of_decide_eq_true hf.2 (hfr.id.trans heq)
    refine ⟨r, ?_, hfr.congr horder (htexts r.id hne) fun hown => hown⟩
    rw [Table.mem_rows_iff] at hr ⊢
    rw [hrows, if_neg hne, hr]
  all := by
    intro r hr
    rw [Table.mem_rows_iff, hrows] at hr
    by_cases hid : r.id = id
    · rw [if_pos hid] at hr
      cases hr
    · rw [if_neg hid] at hr
      obtain ⟨f, hf, hfr⟩ := h.all r (Table.mem_rows_iff.mpr hr)
      refine ⟨f, ?_, hfr.congr horder (htexts r.id hid) fun hown => hown⟩
      rw [hfts, List.mem_filter]
      exact ⟨hf, decide_eq_true fun heq => hid (hfr.id.symm.trans heq)⟩

/-- All rows but those of one product are as they were, and that product has a new one. -/
theorem Mirrored.replace {row : ProjectionRow} {attrs : String} (h : Mirrored db own)
    (horder : db'.concatOrder = db.concatOrder)
    (hrow : db'.projection.find? row.id = some row)
    (hfts : db'.fts = (db.fts.filter fun f => f.productId ≠ row.id) ++
      [⟨row.id, row.title, row.description, attrs⟩])
    (hrows : ∀ k, k ≠ row.id → db'.projection.find? k = db.projection.find? k)
    (htexts : ∀ k, k ≠ row.id → attrTexts db'.attrIndex k = attrTexts db.attrIndex k)
    (hown : ∀ k, k ≠ row.id → own' k → own k) (hattrs : own' row.id → attrs = attrsText db' row.id) :
    Mirrored db' own' where
  distinct := by
    rw [hfts, List.map_append, List.nodup_append]
    refine ⟨h.distinct.sublist (List.Sublist.map _ List.filter_sublist),
      List.nodup_singleton _, ?_⟩
    intro k hk k' hk'
    obtain ⟨f, hf, rfl⟩ := List.mem_map.mp hk
    rw [List.mem_singleton.mp hk']
    simpa using (List.mem_filter.mp hf).2
  mem := by
    intro f hf
    rw [hfts, List.mem_append, List.mem_filter, List.mem_singleton] at hf
    rcases hf with ⟨hf, hne⟩ | rfl
    · obtain ⟨r, hr, hfr⟩ := h.mem f hf
      have hid : r.id ≠ row.id := fun heq => of_decide_eq_true hne (hfr.id.trans heq)
      refine ⟨r, ?_, hfr.congr horder (htexts r.id hid) (hown r.id hid)⟩
      rw [Table.mem_rows_iff] at hr ⊢
      rw [hrows r.id hid, hr]
    · exact ⟨row, Table.mem_rows_iff.mpr hrow, rfl, rfl, rfl, hattrs⟩
  all := by
    intro r hr
    by_cases hid : r.id = row.id
    · have hsame : r = row := by
        rw [Table.mem_rows_iff, hid, hrow] at hr
        exact (Option.some.inj hr).symm
      subst hsame
      refine ⟨⟨r.id, r.title, r.description, attrs⟩, ?_, rfl, rfl, rfl, hattrs⟩
      rw [hfts]
      exact List.mem_append_right _ (List.mem_singleton_self _)
    · rw [Table.mem_rows_iff, hrows r.id hid] at hr
      obtain ⟨f, hf, hfr⟩ := h.all r (Table.mem_rows_iff.mpr hr)
      refine ⟨f, ?_, hfr.congr horder (htexts r.id hid) (hown r.id hid)⟩
      rw [hfts, List.mem_append, List.mem_filter]
      exact Or.inl ⟨hf, decide_eq_true fun heq => hid (hfr.id.symm.trans heq)⟩

/-- A product is indexed anew from the projection and from its attributes. -/
theorem Mirrored.upsert {id : String} (h : Mirrored db own)
    (horder : db'.concatOrder = db.concatOrder) (hfts : db'.fts = db.fts)
    (hrows : ∀ k, k ≠ id → db'.projection.find? k = db.projection.find? k)
    (hgone : db'.projection.find? id = none → db.projection.find? id = none)
    (htexts : ∀ k, k ≠ id → attrTexts db'.attrIndex k = attrTexts db.attrIndex k) :
    Mirrored (upsertFts db' id) own := by
  unfold upsertFts
  cases hrow : db'.projection.find? id with
  | none =>
    -- nothing is indexed for an absent product, before or after
    refine h.delete id horder ?_ ?_ htexts
    · rw [hfts]
      refine (List.filter_eq_self.mpr fun f hf => ?_).symm
      obtain ⟨r, hr, hfr⟩ := h.mem f hf
      have hid : r.id ≠ id := Table.find?_eq_none_iff.mp (hgone hrow) r hr
      exact decide_eq_true fun heq => hid (hfr.id.symm.trans heq)
    · intro k
      by_cases hk : k = id
      · rw [if_pos hk, hk, hrow]
      · rw [if_neg hk, hrows k hk]
  | some row =>
    obtain rfl : row.id = id := Table.key_of_find? hrow
    refine h.replace horder hrow ?_ hrows htexts (fun _ _ hown => hown) fun _ => rfl
    rw [← hfts]
    rfl

/-- A patch of columns that are not indexed. -/
theorem Mirrored.patch {p : ProjectionRow → Bool} {f : ProjectionRow → ProjectionRow}
    {keeps : ∀ r, (f r).id = r.id} {keepsIndex : ∀ r, (f r).slug = r.slug} (h : Mirrored db own)
    (hsame : ∀ r, (f r).title = r.title ∧ (f r).description = r.description) :
    Mirrored { db with projection := db.projection.patch p f keeps keepsIndex } own := by
  have hmirror : ∀ g r, Mirror db own g r → Mirror
      { db with projection := db.projection.patch p f keeps keepsIndex } own g
        (if p r then f r else r) := by
    intro g r hgr
    split
    · obtain ⟨htitle, hdescription⟩ := hsame r
      refine ⟨?_, ?_, ?_, ?_⟩
      · rw [keeps, hgr.id]
      · rw [htitle, hgr.title]
      · rw [hdescription, hgr.description]
      · rw [keeps]
        exact hgr.attrs
    · exact ⟨hgr.id, hgr.title, hgr.description, hgr.attrs⟩
  refine ⟨h.distinct, fun g hg => ?_, fun r hr => ?_⟩
  · obtain ⟨r, hr, hgr⟩ := h.mem g hg
    refine ⟨_, ?_, hmirror g r hgr⟩
    rw [IndexedTable.mem_patch]
    exact ⟨r, hr, rfl⟩
  · simp only [IndexedTable.mem_patch] at hr
    obtain ⟨s, hs, rfl⟩ := hr
    obtain ⟨g, hg, hgs⟩ := h.all s hs
    exact ⟨g, hg, hmirror g s hgs⟩

/-- Every event that is applied keeps the full-text table in step. -/
theorem Mirrored.apply {e : ProductEvent} (h : Mirrored db own) (happly : e.apply db = .ok db') :
    Mirrored db' own := by
  have htexts : ∀ id, e.id? ≠ some id → attrTexts db'.attrIndex id = attrTexts db.attrIndex id :=
    fun id hid => ProductEvent.attrTexts_apply happly hid
  cases e with
  | created row =>
    obtain rfl := Except.ok.inj happly
    simp only [upsertFts_attrIndex] at htexts
    refine h.upsert rfl rfl (fun k hk => ?_) (fun hnone => ?_) fun k hk => rfl
    · cases hins : db.projection.insert? row with
      | none => rfl
      | some t => rw [Option.getD_some, IndexedTable.find?_insert? hins, if_neg (Ne.symm hk)]
    · cases hins : db.projection.insert? row with
      | none => simpa [hins] using hnone
      | some t =>
        simp only [hins, Option.getD_some, IndexedTable.find?_insert? hins, if_true] at hnone
        cases hnone
  | attributeSet id attributeId valText valNum =>
    obtain rfl := Except.ok.inj happly
    simp only [upsertFts_attrIndex] at htexts
    refine h.upsert rfl rfl (fun k hk => rfl) (fun hnone => hnone) fun k hk => htexts k ?_
    simpa [ProductEvent.id?] using Ne.symm hk
  | attributeCleared id attributeId =>
    obtain rfl := Except.ok.inj happly
    simp only [upsertFts_attrIndex] at htexts
    refine h.upsert rfl rfl (fun k hk => rfl) (fun hnone => hnone) fun k hk => htexts k ?_
    simpa [ProductEvent.id?] using Ne.symm hk
  | core id title slug description priceMinor currency updatedAt =>
    simp only [ProductEvent.apply] at happly
    split at happly
    · cases happly
    · rename_i t hupd
      obtain rfl := Except.ok.inj happly
      refine h.upsert rfl rfl (fun k hk => ?_) (fun hnone => ?_) fun k hk => rfl
      · rw [IndexedTable.find?_update? hupd, if_neg hk]
      · rw [IndexedTable.find?_update? hupd, if_pos rfl] at hnone
        exact Option.map_eq_none_iff.mp hnone
  | touched id updatedAt =>
    cases updatedAt with
    | none =>
      obtain rfl := Except.ok.inj happly
      exact h
    | some ts =>
      obtain rfl := Except.ok.inj happly
      exact h.patch fun r => ⟨rfl, rfl⟩
  | statusChanged id status updatedAt =>
    obtain rfl := Except.ok.inj happly
    exact h.patch fun r => ⟨rfl, rfl⟩
  | deleted id =>
    obtain rfl := Except.ok.inj happly
    refine h.delete id rfl rfl (fun k => ?_) fun k hk => htexts k ?_
    · exact Table.find?_delete_key db.projection.toTable id k
    · simpa [ProductEvent.id?] using Ne.symm hk
  | other =>
    obtain rfl := Except.ok.inj happly
    exact h

theorem Indexed.apply {e : ProductEvent} (h : Indexed db) (happly : e.apply db = .ok db') :
    Indexed db' :=
  indexed_iff_mirrored.mpr ((indexed_iff_mirrored.mp h).apply happly)

end Mirrored

section Contents

def words (text : String) : List (List Char) := Text.splitWhitespace text.toList []

theorem words_intercalate (texts : List String) :
    words (" ".intercalate texts) = texts.flatMap words := by
  induction texts with
  | nil => rfl
  | cons text texts ih =>
    cases texts with
    | nil => simp
    | cons next texts =>
      rw [List.flatMap_cons, ← ih, String.intercalate_cons_cons]
      simp only [words, String.toList_append]
      rw [show " ".toList = [' '] from rfl, List.append_assoc, List.singleton_append]
      exact Text.splitWhitespace_append _ _ _ (by decide)

/-- A row of the full-text table; the attributes are a bag of words. -/
def FtsRow.contents (f : FtsRow) : String × String × String × Multiset (List Char) :=
  (f.productId, f.title, f.description, words f.attrs)

/-- The three tables of the projection hold the same. -/
structure SameContents (a b : CatalogDb) : Prop where
  projection : a.projection.rows.Perm b.projection.rows
  attrIndex : a.attrIndex.rows.Perm b.attrIndex.rows
  fts : (a.fts.map FtsRow.contents).Perm (b.fts.map FtsRow.contents)

theorem contents_ftsOf {a b : CatalogDb} (h : a.attrIndex.rows.Perm b.attrIndex.rows)
    (r : ProjectionRow) : (ftsOf a r).contents = (ftsOf b r).contents := by
  have htexts : (attrTexts a.attrIndex r.id).Perm (attrTexts b.attrIndex r.id) := h.filterMap _
  have hwords : (words (attrsText a r.id)).Perm (words (attrsText b r.id)) := by
    unfold attrsText
    rw [words_intercalate, words_intercalate]
    refine List.Perm.flatMap_right _ ?_
    exact (a.concatOrder.perm r.id _).trans (htexts.trans (b.concatOrder.perm r.id _).symm)
  simp only [FtsRow.contents, ftsOf, Prod.mk.injEq, true_and]
  exact Multiset.coe_eq_coe.mpr hwords

theorem Indexed.nodup_contents {db : CatalogDb} (h : Indexed db) :
    (db.fts.map FtsRow.contents).Nodup := by
  apply List.Nodup.of_map Prod.fst
  rw [List.map_map]
  exact h.distinct

/-- The same rows and the same attributes have the same full-text table. -/
theorem sameContents_of_find? {a b : CatalogDb} (ha : Indexed a) (hb : Indexed b)
    (hrows : ∀ id, a.projection.find? id = b.projection.find? id)
    (hattrs : ∀ key, a.attrIndex.find? key = b.attrIndex.find? key) : SameContents a b := by
  have hproj := Table.rows_perm_of_find? hrows
  have hattr := Table.rows_perm_of_find? hattrs
  refine ⟨hproj, hattr, ?_⟩
  apply (List.perm_ext_iff_of_nodup ha.nodup_contents hb.nodup_contents).mpr
  intro x
  simp only [List.mem_map]
  constructor
  · rintro ⟨f, hf, rfl⟩
    obtain ⟨r, hr, rfl⟩ := (ha.mem f).mp hf
    exact ⟨ftsOf b r, (hb.mem _).mpr ⟨r, hproj.mem_iff.mp hr, rfl⟩, (contents_ftsOf hattr r).symm⟩
  · rintro ⟨f, hf, rfl⟩
    obtain ⟨r, hr, rfl⟩ := (hb.mem f).mp hf
    exact ⟨ftsOf a r, (ha.mem _).mpr ⟨r, hproj.mem_iff.mpr hr, rfl⟩, contents_ftsOf hattr r⟩

end Contents

end TinyShop
