import TinyShop.Base.Ties
import TinyShop.CategoryWalk
import TinyShop.Convergence
import TinyShop.FacetIndex
import TinyShop.Pages
import TinyShop.Sitemap

/-!
# What the sellers publish is what the visitors see

Once the relay has delivered everything, the pages of the shop are read off the product store:
the page of a product, the lists of the categories and the sitemap. The projection in between
only shows in what it never fills, the category of a product and its picture.
-/

namespace TinyShop

open Base
set_option autoImplicit false

namespace ProductEvent
open CatalogProjection

variable {db db' : CatalogDb} {e : ProductEvent}

/-- What a row keeps from the event that created it. -/
def origin (r : ProjectionRow) : Option String × Option String := (r.categoryId, r.thumb)

theorem origin_of_apply (h : e.apply db = .ok db') {r : ProjectionRow}
    (hr : r ∈ db'.projection.rows) :
    (∃ old ∈ db.projection.rows, origin old = origin r) ∨ e = .created r := by
  cases e with
  | created new =>
    obtain rfl := Except.ok.inj h
    simp only [upsertFts_projection] at hr
    cases hins : db.projection.insert? new with
    | none =>
      rw [hins, Option.getD_none] at hr
      exact .inl ⟨r, hr, rfl⟩
    | some t =>
      rw [hins, Option.getD_some, (IndexedTable.insert?_eq_some hins).2.2] at hr
      rcases List.mem_append.mp hr with hr | hr
      · exact .inl ⟨r, hr, rfl⟩
      · exact .inr (by rw [List.mem_singleton.mp hr])
  | core id title slug description priceMinor currency updatedAt =>
    simp only [apply] at h
    split at h
    · cases h
    · rename_i t hupd
      obtain rfl := Except.ok.inj h
      rw [upsertFts_projection, (IndexedTable.update?_eq_some_iff.mp hupd).2] at hr
      obtain ⟨old, hold, rfl⟩ := Table.mem_update.mp hr
      exact .inl ⟨old, hold, by split <;> rfl⟩
  | touched id updatedAt =>
    cases updatedAt with
    | none =>
      obtain rfl := Except.ok.inj h
      exact .inl ⟨r, hr, rfl⟩
    | some ts =>
      obtain rfl := Except.ok.inj h
      rw [IndexedTable.mem_patch] at hr
      obtain ⟨old, hold, rfl⟩ := hr
      exact .inl ⟨old, hold, by split <;> rfl⟩
  | statusChanged id status ts =>
    obtain rfl := Except.ok.inj h
    rw [IndexedTable.mem_patch] at hr
    obtain ⟨old, hold, rfl⟩ := hr
    exact .inl ⟨old, hold, by split <;> rfl⟩
  | deleted id =>
    obtain rfl := Except.ok.inj h
    exact .inl ⟨r, (Table.mem_delete.mp hr).1, rfl⟩
  | other =>
    obtain rfl := Except.ok.inj h
    exact .inl ⟨r, hr, rfl⟩
  | _ =>
    obtain rfl := Except.ok.inj h
    rw [upsertFts_projection] at hr
    exact .inl ⟨r, hr, rfl⟩

theorem readUpdated_ne_created (p : Value) (row : ProjectionRow) : readUpdated p ≠ .created row := by
  intro h
  simp only [readUpdated] at h
  split at h
  · cases h
  · split at h
    · cases h
    · split at h <;> cases h

theorem origin_of_meaning {ev : DomainEvent} {row : ProjectionRow} (h : ev.meaning = .created row) :
    origin row = (none, none) := by
  unfold DomainEvent.meaning read at h
  split at h
  · obtain rfl := ProductEvent.created.inj h
    rfl
  · split at h
    · exact absurd h (readUpdated_ne_created _ _)
    · split at h
      · cases h
      · split at h <;> cases h

end ProductEvent

namespace Storefront

open Convergence Pipeline ProductRepo

section Catalog
variable {attributes : Table Attribute String Attribute.id} {concatOrder : ConcatOrder}
  {db : CatalogDb} {rows : List OutboxRow}

/-- What the events keep holds after a pass. -/
theorem playAll_keeps {P : CatalogDb → Prop} (hstep : ∀ {db db' : CatalogDb} {ev : DomainEvent},
      ev.meaning.apply db = .ok db' → P db → P db') :
    ∀ {rows : List OutboxRow} {db db' : CatalogDb}, playAll db rows = .ok db' → P db → P db' := by
  intro rows
  induction rows with
  | nil =>
    intro db db' h hP
    obtain rfl := Except.ok.inj h
    exact hP
  | cons r rows ih =>
    intro db db' h hP
    rw [playAll, List.foldlM_cons] at h
    cases hr : r.toEvent.meaning.apply db with
    | error e =>
      rw [hr] at h
      cases h
    | ok db₁ =>
      rw [hr] at h
      exact ih h (hstep hr hP)

/-- The relay never fills in a category or a picture. -/
theorem origin_of_play (h : playAll (.initial attributes concatOrder) rows = .ok db) :
    ∀ r ∈ db.projection.rows, ProductEvent.origin r = (none, none) := by
  refine playAll_keeps (P := fun db => ∀ r ∈ db.projection.rows, ProductEvent.origin r = (none, none))
    ?_ h (List.forall_mem_nil _)
  intro db db' ev hev hold r hr
  rcases ProductEvent.origin_of_apply hev hr with ⟨old, hmem, hsame⟩ | hcreated
  · rw [← hsame]
    exact hold old hmem
  · exact ProductEvent.origin_of_meaning hcreated

theorem attributes_of_play (h : playAll (.initial attributes concatOrder) rows = .ok db) :
    db.attributes = attributes :=
  playAll_keeps (P := fun db => db.attributes = attributes)
    (fun hev hdb => (ProductEvent.attributes_apply hev).trans hdb) h rfl

theorem playAll_concat_ok {db db' : CatalogDb} {r : OutboxRow}
    (h : playAll db (rows ++ [r]) = .ok db') :
    ∃ db₁, playAll db rows = .ok db₁ ∧ r.toEvent.meaning.apply db₁ = .ok db' := by
  cases hplay : playAll db rows with
  | error e =>
    rw [playAll, List.foldlM_append] at h
    rw [playAll] at hplay
    rw [hplay] at h
    cases h
  | ok db₁ =>
    rw [playAll_concat hplay] at h
    exact ⟨db₁, rfl, h⟩

/-- The index has what the last event about an attribute says, if the attribute is there. -/
theorem index_of_play (h : playAll (.initial attributes concatOrder) rows = .ok db)
    (id attributeId : String) :
    db.attrIndex.find? (id, attributeId) =
      (FacetIndex.last (rows.map OutboxRow.toEvent) id attributeId).bind fun ev =>
        ev.meaning.content.bind (FacetIndex.entry attributes id attributeId) := by
  induction rows using List.reverseRecOn generalizing db with
  | nil =>
    obtain rfl := Except.ok.inj h
    rfl
  | append_singleton rows r ih =>
    obtain ⟨db₁, hplay, hev⟩ := playAll_concat_ok h
    rw [ProductEvent.find?_attr_apply hev, FacetIndex.overwrite_onAttr, attributes_of_play hplay,
      ih hplay, List.map_append, List.map_singleton, FacetIndex.last_append]
    by_cases hconcerns : r.toEvent.meaning.concerns id attributeId = true
    · rw [if_pos hconcerns, if_pos hconcerns, Option.bind_some]
      cases r.toEvent.meaning.content with
      | none => rfl
      | some c =>
        rw [Option.bind_some]
        simp only [FacetIndex.entry]
        cases hattr : attributes.find? attributeId with
        | some a => rfl
        | none =>
          -- an attribute that is not there has had no row before
          rw [Option.map_none, Option.none_or, Option.bind_eq_none_iff]
          intro ev _
          rw [Option.bind_eq_none_iff]
          intro c _
          rw [FacetIndex.entry, hattr, Option.map_none]
    · rw [if_neg hconcerns, if_neg hconcerns]

end Catalog

section Values
variable {db db' : ProductDb} {now clock : Int64} {id attributeId : String}

/-- The text of an attribute, if the product has a value for it. -/
def textOf (db : ProductDb) (id attributeId : String) : Option (Option String) :=
  (db.productAttributeValues.find? (id, attributeId)).map ProductAttributeValue.valText

/-- The text after the event of a call. -/
def textAfter (db : ProductDb) (id attributeId : String) : Option NewEvent → Option (Option String)
  | none => textOf db id attributeId
  | some ev =>
    if ev.meaning.concerns id attributeId then ev.meaning.content.map Prod.fst
    else textOf db id attributeId

theorem textOf_setAttributeValue {v : ProductAttributeValue}
    (h : setAttributeValue db v now clock = .ok db') :
    textOf db' id attributeId = textAfter db id attributeId (some (attributeValueSet v now)) := by
  obtain rfl := setAttributeValue_ok h
  rw [textAfter, attributeValueSet_meaning, textOf]
  change Option.map _ ((Table.upsert _ _ _ _).find? _) = _
  rw [Table.find?_upsert]
  by_cases hkey : v.productId = id ∧ v.attributeId = attributeId
  · obtain ⟨rfl, rfl⟩ := hkey
    rw [if_pos rfl, if_pos (by simp [ProductEvent.concerns])]
    cases db.productAttributeValues.find? (v.productId, v.attributeId) <;> rfl
  · rw [if_neg (by simpa using hkey), if_neg (by simpa [ProductEvent.concerns] using hkey), textOf]

theorem textOf_clearAttributeValue {productId attr : String}
    (h : clearAttributeValue db productId attr now clock = .ok db') :
    textOf db' id attributeId =
      textAfter db id attributeId (some (attributeValueCleared productId attr now)) := by
  obtain rfl := Except.ok.inj h
  rw [textAfter, attributeValueCleared_meaning, textOf]
  change Option.map _ ((Table.delete _ _).find? _) = _
  rw [Table.find?_delete_of_key (b := decide (productId = id ∧ attr = attributeId)) _ ?_]
  · by_cases hkey : productId = id ∧ attr = attributeId
    · simp [hkey, ProductEvent.concerns, ProductEvent.content]
    · simp [hkey, ProductEvent.concerns, textOf]
  · intro v hv
    obtain ⟨rfl, rfl⟩ := Prod.mk.inj hv
    simp only [eq_comm]

theorem textOf_deleteProduct {p : String} (hp : db.HasProduct p)
    (h : deleteProduct db p clock = .ok db') :
    textOf db' id attributeId = textAfter db id attributeId (some (productDeleted p)) := by
  obtain ⟨_, rfl⟩ := (deleteProduct_ok h).resolve_right fun hnone => hnone.1 hp
  rw [textAfter, productDeleted_meaning, textOf]
  change Option.map _ ((Table.delete _ _).find? _) = _
  rw [Table.find?_delete_of_key (b := decide (p = id)) _ ?_]
  · by_cases hkey : p = id
    · simp [hkey, ProductEvent.concerns, ProductEvent.content]
    · simp [hkey, ProductEvent.concerns, textOf]
  · intro v hv
    obtain ⟨rfl, rfl⟩ := Prod.mk.inj hv
    simp only [eq_comm]

/-- The event of a call tells what it did to the texts. -/
theorem textOf_run {c : ProductRepo.Call} (h : c.run db now clock = .ok db') :
    ∃ ev, db'.outbox = record db.outbox clock ev ∧
      ∀ id attributeId, textOf db' id attributeId = textAfter db id attributeId ev := by
  cases hc : FacetIndex.writesValues c with
  | false =>
    obtain ⟨ev, hchange, hrecord⟩ := ProductRepo.Call.run_commits h
    refine ⟨ev, hrecord, fun id attributeId => ?_⟩
    have hsame : textOf db' id attributeId = textOf db id attributeId := by
      rw [textOf, FacetIndex.values_of_run hc h, textOf]
    have hquiet : ∀ e ∈ ev, e.meaning.concerns id attributeId = false :=
      FacetIndex.concerns_of_change hc hchange
    rw [hsame]
    cases ev with
    | none => rfl
    | some e => simp [textAfter, hquiet e rfl]
  | true =>
    cases c with
    | setAttributeValue v =>
      refine ⟨_, ?_, fun id attributeId => textOf_setAttributeValue h⟩
      obtain rfl := setAttributeValue_ok h
      rfl
    | clearAttributeValue productId attr =>
      refine ⟨_, ?_, fun id attributeId => textOf_clearAttributeValue h⟩
      obtain rfl := Except.ok.inj h
      rfl
    | deleteProduct p =>
      rcases deleteProduct_ok h with ⟨hp, hdb⟩ | ⟨_, rfl⟩
      · refine ⟨_, ?_, fun id attributeId => textOf_deleteProduct hp h⟩
        rw [hdb]
        rfl
      · exact ⟨none, rfl, fun _ _ => rfl⟩
    | _ => cases hc

/-- The texts are those that the events have told. -/
def Told (s : Shop) : Prop := ∀ id attributeId, textOf s.product id attributeId =
  (FacetIndex.last (s.product.outbox.rows.map OutboxRow.toEvent) id attributeId).bind fun ev =>
    ev.meaning.content.map Prod.fst

/-- Calls tell what they do, and the relay changes nothing that was told. -/
theorem told_invariant (S : Scenario) : Invariant S fun s _ => Told s where
  commit := by
    intro s s' ids hc _ htold
    cases hc with
    | @call c now clock db _ hrun =>
      obtain ⟨ev, hrecord, htext⟩ := textOf_run hrun
      intro id attributeId
      simp only [htext id attributeId, hrecord]
      cases ev with
      | none => exact htold id attributeId
      | some e =>
        have hmeaning : (s.product.outbox.newRow e clock).toEvent.meaning = e.meaning := rfl
        simp only [record, Outbox.enqueue, List.map_append, List.map_singleton]
        rw [FacetIndex.last_append, textAfter, htold id attributeId, hmeaning]
        split
        · rw [Option.bind_some, hmeaning]
        · rfl
  deliver := fun _ _ _ htold => htold
  fail := by
    intro s ids r _ _ _ error htold id attributeId
    have hsame : (s.product.outbox.rows.map (Outbox.fail r.id error)).map OutboxRow.toEvent =
        s.product.outbox.rows.map OutboxRow.toEvent := by
      rw [List.map_map]
      exact List.map_congr_left fun q _ => Outbox.fail_toEvent _ _ q
    rw [Shop.setOutbox_outbox, Outbox.rows_update, hsame]
    exact htold id attributeId
  dead := by
    intro s ids r _ _ now htold id attributeId
    rw [Shop.setOutbox_outbox, Outbox.events_markPublished]
    exact htold id attributeId
  mark := by
    intro s ids now htold id attributeId
    rw [Shop.setOutbox_outbox, Outbox.events_markPublished]
    exact htold id attributeId
  abort := fun _ _ _ htold => htold

end Values

/-! ## The shop once everything is delivered -/

/-- What the visitors are shown of a product. -/
def viewOf (p : Product) : ProductView where
  id := p.id
  sellerId := p.sellerId
  title := p.title
  slug := p.slug
  description := p.description
  priceMinor := p.priceMinor
  currency := p.currency
  status := "published"
  categoryId := none
  thumb := none

def cardOf (p : Product) : ProductCard where
  productId := p.id
  title := p.title
  slug := p.slug
  priceMinor := p.priceMinor
  currency := p.currency
  thumb := none

/-- The catalog has what the sellers have, and nothing that they have not. -/
structure UpToDate (attributes : Table Attribute String Attribute.id) (s : Shop) : Prop where
  mirror : Convergence.Mirror Shown s.product.products s.catalog.projection
  origin : ∀ r ∈ s.catalog.projection.rows, ProductEvent.origin r = (none, none)
  index : ∀ id attributeId, (s.catalog.attrIndex.find? (id, attributeId)).map
    (fun a => (a.categoryId, a.valText)) = (attributes.find? attributeId).bind fun a =>
      (textOf s.product id attributeId).map fun text => (a.categoryId, text)

/-! ### What a product meets -/

section Meets
variable (attributes : Table Attribute String Attribute.id) (db : ProductDb) (p : Product)

/-- The seller gave the product a value for an attribute of the category. -/
def Belongs (categoryId : String) : Prop :=
  ∃ v ∈ db.productAttributeValues.rows, v.productId = p.id ∧
    ∃ a ∈ attributes.rows, a.id = v.attributeId ∧ a.categoryId = categoryId

/-- The seller gave the attribute this text. -/
def HasText (attributeId text : String) : Prop :=
  ∃ v ∈ db.productAttributeValues.rows, v.productId = p.id ∧ v.attributeId = attributeId ∧
    v.valText = some text ∧ ∃ a ∈ attributes.rows, a.id = attributeId

/-- The conditions on prices and texts. Numbers of attributes go through the text of an event,
and are left out; so is a text that is asked for twice, which the search finds nowhere. -/
def onText : FilterCond → Bool
  | .rangePrice _ _ => true
  | .checkboxOr _ _ => true
  | .enumAnd _ values => decide values.Nodup
  | .number _ _ => false
  | .rangeGeneric _ _ _ => false

/-- The seller's data satisfies a condition. -/
def Meets : FilterCond → Prop
  | .rangePrice minMinor maxMinor =>
    (∀ min ∈ minMinor, min ≤ p.priceMinor) ∧ ∀ max ∈ maxMinor, p.priceMinor ≤ max
  | .checkboxOr attributeId values =>
    values = [] ∨ ∃ text ∈ values, HasText attributes db p attributeId text
  | .enumAnd attributeId values => ∀ text ∈ values, HasText attributes db p attributeId text
  | .number _ _ => False
  | .rangeGeneric _ _ _ => False

end Meets

theorem textOf_eq_some_iff {db : ProductDb} {id attributeId : String} {text : Option String} :
    textOf db id attributeId = some text ↔ ∃ v ∈ db.productAttributeValues.rows,
      v.productId = id ∧ v.attributeId = attributeId ∧ v.valText = text := by
  rw [textOf, Option.map_eq_some_iff]
  constructor
  · rintro ⟨v, hv, rfl⟩
    have hkey := Table.key_of_find? hv
    obtain ⟨hid, hattr⟩ := Prod.mk.inj hkey
    exact ⟨v, Table.mem_of_find? hv, hid, hattr, rfl⟩
  · rintro ⟨v, hv, rfl, rfl, rfl⟩
    exact ⟨v, Table.find?_of_mem hv, rfl⟩

section Drained
variable {attributes : Table Attribute String Attribute.id} {concatOrder : ConcatOrder}
  {c : ShopConfig}

theorem play_of_drained {R : ProductStatus → String → Prop} {P : Products → Prop}
    {allowed : ProductDb → Call → Prop} (rules : Rules R P allowed)
    (h : (system (scenario allowed)).Reachable ⟨.initial attributes concatOrder, []⟩ c)
    (hd : c.state.Drained) :
    playAll (.initial attributes concatOrder) c.state.product.outbox.rows = .ok c.state.catalog := by
  obtain ⟨ids, hs⟩ := (synced_invariant rules).of_reachable h (synced_initial rules)
  obtain ⟨done, rest, hrows, hdone, _, hrest⟩ := hs.cursor
  have hnil : rest = [] := by
    rw [List.eq_nil_iff_forall_not_mem]
    intro r hr
    have hmem : r ∈ c.state.product.outbox.unpublished :=
      Outbox.mem_unpublished.mpr ⟨hrows ▸ List.mem_append_right _ hr, (hrest r hr).1⟩
    rw [hd] at hmem
    cases hmem
  rwa [hrows, hnil, List.append_nil]

/-- No call takes a slug that another product holds, and no archived product is put straight
back on sale. -/
def Orderly (db : ProductDb) (call : Call) : Prop :=
  SlugFree db.products call ∧ republishes db.products call = false

instance (db : ProductDb) (call : Call) : Decidable (Orderly db call) :=
  inferInstanceAs (Decidable (_ ∧ _))

theorem orderly_rules : Rules Shown (fun _ => True) Orderly where
  empty := trivial
  start := fun status => (ProductStatus.asStr_eq_published_iff status).symm
  keeps := fun _ _ _ => trivial
  free := fun h _ _ => h.1
  follows := fun h => shown_follows h.2

theorem upToDate_of_drained
    (h : (system (scenario Orderly)).Reachable ⟨.initial attributes concatOrder, []⟩ c)
    (hd : c.state.Drained) : UpToDate attributes c.state := by
  have hplay := play_of_drained orderly_rules h hd
  obtain ⟨_, htold⟩ := (told_invariant (scenario Orderly)).of_reachable h fun _ _ => rfl
  refine ⟨mirror_of_drained orderly_rules h hd, origin_of_play hplay, fun id attributeId => ?_⟩
  rw [index_of_play hplay, htold id attributeId]
  cases FacetIndex.last (c.state.product.outbox.rows.map OutboxRow.toEvent) id attributeId with
  | none => cases attributes.find? attributeId <;> rfl
  | some ev =>
    simp only [Option.bind_some]
    cases ev.meaning.content with
    | none => cases attributes.find? attributeId <;> rfl
    | some content =>
      simp only [Option.bind_some, FacetIndex.entry]
      cases attributes.find? attributeId <;> rfl

end Drained

namespace UpToDate
variable {attributes : Table Attribute String Attribute.id} {s : Shop} (h : UpToDate attributes s)
include h

theorem row_of_product {p : Product} (hp : p ∈ s.product.products.rows) :
    ∃ r ∈ s.catalog.projection.rows, productCore p = rowCore r ∧ Shown p.status r.status := by
  have hagree := h.mirror p.id
  rw [Table.find?_of_mem hp, agree_some] at hagree
  obtain ⟨r, hr, hcore, hshown⟩ := hagree
  exact ⟨r, Table.mem_of_find? hr, hcore, hshown⟩

theorem product_of_row {r : ProjectionRow} (hr : r ∈ s.catalog.projection.rows) :
    ∃ p ∈ s.product.products.rows, productCore p = rowCore r ∧ Shown p.status r.status := by
  have hagree := h.mirror r.id
  rw [Table.find?_of_mem hr] at hagree
  cases hp : s.product.products.find? r.id with
  | none =>
    rw [hp] at hagree
    exact hagree.elim
  | some p =>
    rw [hp] at hagree
    exact ⟨p, Table.mem_of_find? hp, hagree⟩

theorem mapViewRow_eq {p : Product} {r : ProjectionRow} (hr : r ∈ s.catalog.projection.rows)
    (hcore : productCore p = rowCore r) (hs : r.status = "published") :
    SqliteCatalogSearch.mapViewRow r = viewOf p := by
  have horigin := h.origin r hr
  simp only [ProductEvent.origin, Prod.mk.injEq] at horigin
  simp only [productCore, rowCore, Core.mk.injEq] at hcore
  simp only [SqliteCatalogSearch.mapViewRow, viewOf, ProductView.mk.injEq]
  tauto

theorem mapCardRow_eq {p : Product} {r : ProjectionRow} (hr : r ∈ s.catalog.projection.rows)
    (hcore : productCore p = rowCore r) : SqliteCatalogSearch.mapCardRow r = cardOf p := by
  have horigin := h.origin r hr
  simp only [ProductEvent.origin, Prod.mk.injEq] at horigin
  simp only [productCore, rowCore, Core.mk.injEq] at hcore
  simp only [SqliteCatalogSearch.mapCardRow, cardOf, ProductCard.mk.injEq]
  tauto

theorem getCardById_eq {p : Product} (hp : p ∈ s.product.products.rows)
    (hs : p.status = .published) :
    SqliteCatalogSearch.getCardById s.catalog p.id = some (viewOf p) := by
  obtain ⟨r, hr, hcore, hshown⟩ := h.row_of_product hp
  have hid : p.id = r.id := congrArg Core.id hcore
  rw [hid, SqliteCatalogSearch.getCardById_of_mem _ hr (hshown.mp hs),
    h.mapViewRow_eq hr hcore (hshown.mp hs)]

theorem getCardBySlug_eq {p : Product} (hp : p ∈ s.product.products.rows)
    (hs : p.status = .published) :
    SqliteCatalogSearch.getCardBySlug s.catalog p.slug = some (viewOf p) := by
  obtain ⟨r, hr, hcore, hshown⟩ := h.row_of_product hp
  have hslug : p.slug = r.slug := congrArg Core.slug hcore
  cases hcard : SqliteCatalogSearch.getCardBySlug s.catalog p.slug with
  | none =>
    rw [SqliteCatalogSearch.getCardBySlug, Option.map_eq_none_iff, List.find?_eq_none] at hcard
    exact absurd (decide_eq_true ⟨hslug.symm, hshown.mp hs⟩) (hcard r hr)
  | some view =>
    obtain ⟨r', hfound, rfl⟩ := Option.map_eq_some_iff.mp hcard
    have hcond := List.find?_some hfound
    rw [decide_eq_true_eq] at hcond
    have hsame : r' = r := List.inj_on_of_nodup_map s.catalog.projection.distinct
      (List.mem_of_find?_eq_some hfound) hr (hcond.1.trans hslug)
    rw [hsame, h.mapViewRow_eq hr hcore (hshown.mp hs)]

theorem getCardBySlug_none {slug : String}
    (hno : ∀ p ∈ s.product.products.rows, p.status = .published → p.slug ≠ slug) :
    SqliteCatalogSearch.getCardBySlug s.catalog slug = none := by
  rw [SqliteCatalogSearch.getCardBySlug, Option.map_eq_none_iff, List.find?_eq_none]
  intro r hr hcond
  obtain ⟨hslug, hs⟩ := of_decide_eq_true hcond
  obtain ⟨p, hp, hcore, hshown⟩ := h.product_of_row hr
  exact hno p hp (hshown.mpr hs) ((congrArg Core.slug hcore).trans hslug)

theorem text_of_row {a : AttrIndexRow} (ha : a ∈ s.catalog.attrIndex.rows) :
    ∃ attr ∈ attributes.rows, attr.id = a.attributeId ∧ a.categoryId = attr.categoryId ∧
      textOf s.product a.productId a.attributeId = some a.valText := by
  have hindex := h.index a.productId a.attributeId
  have hfind : s.catalog.attrIndex.find? (a.productId, a.attributeId) = some a :=
    Table.find?_of_mem ha
  rw [hfind, Option.map_some, eq_comm, Option.bind_eq_some_iff] at hindex
  obtain ⟨attr, hattr, htext⟩ := hindex
  obtain ⟨text, htext, hpair⟩ := Option.map_eq_some_iff.mp htext
  obtain ⟨hcategory, rfl⟩ := Prod.mk.inj hpair
  exact ⟨attr, Table.mem_of_find? hattr, Table.key_of_find? hattr, hcategory.symm, htext⟩

theorem row_of_text {attr : Attribute} (hattr : attr ∈ attributes.rows) {id : String}
    {text : Option String} (htext : textOf s.product id attr.id = some text) :
    ∃ a ∈ s.catalog.attrIndex.rows, a.productId = id ∧ a.attributeId = attr.id ∧
      a.categoryId = attr.categoryId ∧ a.valText = text := by
  have hindex := h.index id attr.id
  rw [Table.find?_of_mem hattr, htext, Option.bind_some, Option.map_some,
    Option.map_eq_some_iff] at hindex
  obtain ⟨a, ha, hpair⟩ := hindex
  obtain ⟨hcategory, hvalue⟩ := Prod.mk.inj hpair
  have hpair := Table.key_of_find? ha
  obtain ⟨hid, hkey⟩ := Prod.mk.inj hpair
  exact ⟨a, Table.mem_of_find? ha, hid, hkey, hcategory, hvalue⟩

section Pair
variable {p : Product} {r : ProjectionRow} (hcore : productCore p = rowCore r)
include hcore

theorem inCategory_iff (categoryId : String) :
    SearchMeaning.InCategory s.catalog categoryId r ↔ Belongs attributes s.product p categoryId := by
  have hid : p.id = r.id := congrArg Core.id hcore
  constructor
  · rintro ⟨a, ha, hproduct, rfl⟩
    obtain ⟨attr, hattr, hkey, hcategory, htext⟩ := h.text_of_row ha
    obtain ⟨v, hv, hvid, hvattr, _⟩ := textOf_eq_some_iff.mp htext
    exact ⟨v, hv, hvid.trans (hproduct.trans hid.symm), attr, hattr, hkey.trans hvattr.symm,
      hcategory.symm⟩
  · rintro ⟨v, hv, hvid, attr, hattr, hkey, rfl⟩
    have htext : textOf s.product p.id attr.id = some v.valText :=
      textOf_eq_some_iff.mpr ⟨v, hv, hvid, hkey.symm, rfl⟩
    obtain ⟨a, ha, haid, _, hcategory, _⟩ := h.row_of_text hattr htext
    exact ⟨a, ha, haid.trans hid, hcategory⟩

theorem mem_texts_iff (attributeId text : String) :
    text ∈ SearchMeaning.texts s.catalog r.id attributeId ↔
      HasText attributes s.product p attributeId text := by
  have hid : p.id = r.id := congrArg Core.id hcore
  constructor
  · rintro ⟨a, ⟨ha, hproduct, rfl⟩, hvalue⟩
    obtain ⟨attr, hattr, hkey, _, htext⟩ := h.text_of_row ha
    obtain ⟨v, hv, hvid, hvattr, hvtext⟩ := textOf_eq_some_iff.mp htext
    exact ⟨v, hv, hvid.trans (hproduct.trans hid.symm), hvattr, hvtext.trans hvalue,
      attr, hattr, hkey⟩
  · rintro ⟨v, hv, hvid, hvattr, hvtext, attr, hattr, rfl⟩
    have htext : textOf s.product p.id attr.id = some (some text) :=
      textOf_eq_some_iff.mpr ⟨v, hv, hvid, hvattr, hvtext⟩
    obtain ⟨a, ha, haid, hkey, _, hvalue⟩ := h.row_of_text hattr htext
    exact ⟨a, ⟨ha, haid.trans hid, hkey⟩, hvalue⟩

theorem pushFilterCond_iff {f : FilterCond} (hf : onText f = true) :
    SqliteCatalogSearch.pushFilterCond s.catalog r f = true ↔ Meets attributes s.product p f := by
  have hprice : p.priceMinor = r.priceMinor := congrArg Core.priceMinor hcore
  cases f with
  | rangePrice minMinor maxMinor =>
    rw [SearchMeaning.pushFilterCond_iff id, SearchMeaning.Satisfies, Meets, hprice]
  | checkboxOr attributeId values =>
    rw [SearchMeaning.pushFilterCond_iff id]
    simp only [SearchMeaning.Satisfies, Meets, h.mem_texts_iff hcore]
  | enumAnd attributeId values =>
    have hnodup : values.Nodup := of_decide_eq_true hf
    rw [SearchMeaning.enumAnd_iff]
    simp only [Meets, h.mem_texts_iff hcore, hnodup, true_and]
  | number attributeId value => cases hf
  | rangeGeneric attributeId min max => cases hf

theorem pushWhere_iff (hshown : Shown p.status r.status) {query : SearchQuery}
    (hfilters : ∀ f ∈ query.filters, onText f = true) :
    SqliteCatalogSearch.pushWhere s.catalog query none r = true ↔ p.status = .published ∧
      (∀ categoryId ∈ query.categoryId, Belongs attributes s.product p categoryId) ∧
      ∀ f ∈ query.filters, Meets attributes s.product p f := by
  have hcategory : (query.categoryId.all fun categoryId => s.catalog.attrIndex.rows.any fun a =>
      a.productId = r.id && a.categoryId = categoryId) = true ↔
      ∀ categoryId ∈ query.categoryId, Belongs attributes s.product p categoryId := by
    refine SearchMeaning.all_iff fun categoryId => ?_
    rw [← h.inCategory_iff hcore]
    simp [SearchMeaning.InCategory]
  simp only [SqliteCatalogSearch.pushWhere, Bool.and_eq_true, decide_eq_true_eq, Option.all_none,
    and_true, List.all_eq_true, and_assoc, hcategory]
  refine and_congr hshown.symm (and_congr_right fun _ => forall₂_congr fun f hf => ?_)
  exact h.pushFilterCond_iff hcore (hfilters f hf)

end Pair

/-- Rows of the projection, read back as products. -/
theorem exists_products {l : List ProjectionRow} (hl : ∀ r ∈ l, r ∈ s.catalog.projection.rows)
    (hnodup : l.Nodup) : ∃ products : List Product, products.Nodup ∧
      (∀ p, p ∈ products ↔ p ∈ s.product.products.rows ∧ ∃ r ∈ l, productCore p = rowCore r) ∧
      l.map rowCore = products.map productCore := by
  have hids : Set.InjOn ProjectionRow.id {r | r ∈ s.catalog.projection.rows} :=
    fun r hr r' hr' => List.inj_on_of_nodup_map s.catalog.projection.unique hr hr'
  have hrows : (l.map rowCore).Nodup := by
    refine hnodup.map_on fun r hr r' hr' hsame => ?_
    exact hids (hl r hr) (hl r' hr') (congrArg Core.id hsame)
  have hproducts : (s.product.products.rows.map productCore).Nodup :=
    List.Nodup.of_map Core.id (by rw [List.map_map]; exact s.product.products.unique)
  have hperm : (l.map rowCore).Perm ((s.product.products.rows.filter fun p =>
      ∃ r ∈ l, productCore p = rowCore r).map productCore) := by
    refine (List.perm_ext_iff_of_nodup hrows
      (hproducts.sublist (List.filter_sublist.map productCore))).mpr fun core => ?_
    simp only [List.mem_map, List.mem_filter, decide_eq_true_eq]
    constructor
    · rintro ⟨r, hr, rfl⟩
      obtain ⟨p, hp, hcore, _⟩ := h.product_of_row (hl r hr)
      exact ⟨p, ⟨hp, r, hr, hcore⟩, hcore⟩
    · rintro ⟨p, ⟨_, r, hr, hcore⟩, rfl⟩
      exact ⟨r, hr, hcore.symm⟩
  obtain ⟨products, hsame, hmap⟩ := exists_perm_of_perm_map hperm
  refine ⟨products, ?_, fun p => ?_, hmap⟩
  · exact hsame.nodup_iff.mpr ((List.Nodup.of_map _ hproducts).filter _)
  · rw [hsame.mem_iff, List.mem_filter, decide_eq_true_eq]

/-- The rows of a query, read back as the products that the sellers' data puts into it. -/
theorem exists_listed (query : SearchQuery) (hfilters : ∀ f ∈ query.filters, onText f = true) :
    ∃ products : List Product, products.Nodup ∧
      (∀ p, p ∈ products ↔ p ∈ s.product.products.rows ∧ p.status = .published ∧
        (∀ categoryId ∈ query.categoryId, Belongs attributes s.product p categoryId) ∧
        ∀ f ∈ query.filters, Meets attributes s.product p f) ∧
      (SearchMeaning.listed s.catalog query).map SqliteCatalogSearch.mapCardRow =
        products.map cardOf := by
  have hlisted : ∀ r, r ∈ SearchMeaning.listed s.catalog query ↔
      r ∈ s.catalog.projection.rows ∧
        SqliteCatalogSearch.pushWhere s.catalog query none r = true := by
    intro r
    rw [SearchMeaning.listed, List.mem_insertionSort, SqliteCatalogSearch.found, List.mem_filter]
  have hrows : s.catalog.projection.rows.Nodup := List.Nodup.of_map _ s.catalog.projection.unique
  have hnodup : (SearchMeaning.listed s.catalog query).Nodup :=
    (List.perm_insertionSort _ _).nodup_iff.mpr (hrows.filter _)
  obtain ⟨products, hproducts, hmem, hmap⟩ :=
    h.exists_products (fun r hr => ((hlisted r).mp hr).1) hnodup
  refine ⟨products, hproducts, fun p => ?_, ?_⟩
  · rw [hmem]
    refine and_congr_right fun hp => ?_
    obtain ⟨r, hr, hcore, hshown⟩ := h.row_of_product hp
    rw [← h.pushWhere_iff hcore hshown hfilters]
    constructor
    · rintro ⟨r', hr', hcore'⟩
      obtain ⟨hrow, hwhere⟩ := (hlisted r').mp hr'
      have hsame : r = r' := List.inj_on_of_nodup_map s.catalog.projection.unique hr hrow
        (congrArg Core.id (hcore.symm.trans hcore'))
      rwa [hsame]
    · exact fun hwhere => ⟨r, (hlisted r).mpr ⟨hr, hwhere⟩, hcore⟩
  · -- a card is read off the core
    let coreCard : Core → ProductCard := fun core =>
      ⟨core.id, core.title, core.slug, core.priceMinor, core.currency, none⟩
    have hcards : (SearchMeaning.listed s.catalog query).map SqliteCatalogSearch.mapCardRow =
        ((SearchMeaning.listed s.catalog query).map rowCore).map coreCard := by
      rw [List.map_map]
      refine List.map_congr_left fun r hr => ?_
      obtain ⟨p, _, hcore, _⟩ := h.product_of_row ((hlisted r).mp hr).1
      rw [h.mapCardRow_eq ((hlisted r).mp hr).1 hcore, Function.comp_apply, ← hcore]
      rfl
    rw [hcards, hmap, List.map_map]
    rfl

/-- The sitemap lists what is published. -/
theorem productPaths_perm (env : SearchEnv) (baseUrl : String)
    (hfits : s.product.products.rows.length < 2 ^ 32) :
    ∃ fuel paths, Sitemap.productPaths s.catalog env baseUrl fuel = some (.ok paths) ∧
      paths.Perm ((s.product.products.rows.filter fun p => p.status = .published).map fun p =>
        Sitemap.productUrl baseUrl p.slug) := by
  have hlists := Sitemap.lists_onSale s.catalog
  have hnodup : (Sitemap.onSale s.catalog).Nodup := by
    refine hlists.sorted.imp fun {a b} hab => ?_
    rintro rfl
    exact lt_irrefl _ ((SearchMeaning.before_iff .relevance a a).mp hab)
  obtain ⟨products, hproducts, hmem, hmap⟩ :=
    h.exists_products (fun r hr => ((hlists.mem_iff r).mp hr).1) hnodup
  have hperm : products.Perm (s.product.products.rows.filter fun p => p.status = .published) := by
    have hrows : s.product.products.rows.Nodup := List.Nodup.of_map _ s.product.products.unique
    refine (List.perm_ext_iff_of_nodup hproducts (hrows.filter _)).mpr fun p => ?_
    rw [hmem, List.mem_filter, decide_eq_true_eq]
    refine and_congr_right fun hp => ?_
    constructor
    · rintro ⟨r, hr, hcore⟩
      obtain ⟨hrow, hs⟩ := (hlists.mem_iff r).mp hr
      obtain ⟨q, hq, hcore', hshown⟩ := h.product_of_row hrow
      have hsame : p = q := List.inj_on_of_nodup_map s.product.products.unique hp hq
        (congrArg Core.id (hcore.trans hcore'.symm))
      rw [hsame]
      exact hshown.mpr hs
    · intro hs
      obtain ⟨r, hr, hcore, hshown⟩ := h.row_of_product hp
      exact ⟨r, (hlists.mem_iff r).mpr ⟨hr, hshown.mp hs⟩, hcore⟩
  have hurls : (Sitemap.onSale s.catalog).map (fun r => Sitemap.productUrl baseUrl r.slug) =
      products.map fun p => Sitemap.productUrl baseUrl p.slug := by
    have hslugs := congrArg (List.map fun core => Sitemap.productUrl baseUrl core.slug) hmap
    rw [List.map_map, List.map_map] at hslugs
    exact hslugs
  have hlength : (Sitemap.onSale s.catalog).length < 2 ^ 32 := by
    have hshort := hperm.length_eq.trans_le (List.length_filter_le _ _)
    have hsame := congrArg List.length hurls
    rw [List.length_map, List.length_map] at hsame
    omega
  refine ⟨(Sitemap.onSale s.catalog).length + 1, _,
    Sitemap.productPathsFrom_eq env baseUrl hlength _ [] (by omega), ?_⟩
  change (List.map _ (Sitemap.onSale s.catalog)).Perm _
  rw [hurls]
  exact hperm.map _

end UpToDate

/-- The pen gets a color and is published. -/
def penScript : List Move :=
  [.call (.createProduct FacetIndex.pen), .call (.setAttributeValue FacetIndex.red), .tick, .next,
    .next, .next, .next, .leave, .call (.setStatus "pen" .published), .tick, .next, .next, .next]

def onlyColor : Table Attribute String Attribute.id := ⟨[FacetIndex.color], by decide⟩

def penShop : ShopConfig := play (checks Orderly) penScript ⟨.initial onlyColor, []⟩

theorem penShop_reachable :
    (system (scenario Orderly)).Reachable ⟨.initial onlyColor, []⟩ penShop :=
  reachable_play _ penScript _

def officeDb : TaxonomyDb :=
  { Sitemap.withCategories ⟨⟨⟨[FacetIndex.office], by decide⟩, by decide⟩, by decide⟩ with
    toCatalogDb := penShop.state.catalog }

theorem officeDb_catalog : officeDb.toCatalogDb = penShop.state.catalog := rfl

def publishedPen : Product := setStatusOf .published 0 FacetIndex.pen

theorem penShop_rows : penShop.state.product.products.rows = [publishedPen] := by rfl

section Window
variable {attributes : Table Attribute String Attribute.id} {concatOrder : ConcatOrder}
  {c : ShopConfig}
  (h : (system (scenario Orderly)).Reachable ⟨.initial attributes concatOrder, []⟩ c)
  (hd : c.state.Drained)
  {shop : TaxonomyDb} (hcatalog : shop.toCatalogDb = c.state.catalog)
include h hd hcatalog

/-- Once everything is delivered, each published product has its page with the seller's data and
is sold at the seller's price, no other page of a product is there, and the sitemap lists exactly
the published products. -/
theorem product_window (env : SearchEnv) (baseUrl : String) :
    (∀ p ∈ c.state.product.products.rows, p.status = .published →
      ProductPage.render shop baseUrl p.slug =
        .ok (ProductPage.shown shop baseUrl p.slug (viewOf p)) ∧
      SqliteCatalogSearch.getCardById c.state.catalog p.id = some (viewOf p)) ∧
    (∀ slug, (∀ p ∈ c.state.product.products.rows, p.status = .published → p.slug ≠ slug) →
      ProductPage.render shop baseUrl slug = .error .notFound) ∧
    (c.state.product.products.rows.length < 2 ^ 32 →
      ∃ fuel paths, Sitemap.productPaths c.state.catalog env baseUrl fuel = some (.ok paths) ∧
        paths.Perm ((c.state.product.products.rows.filter fun p => p.status = .published).map
          fun p => Sitemap.productUrl baseUrl p.slug)) := by
  have hcurrent := upToDate_of_drained h hd
  refine ⟨fun p hp hs => ⟨?_, hcurrent.getCardById_eq hp hs⟩, fun slug hno => ?_,
    hcurrent.productPaths_perm env baseUrl⟩
  · rw [ProductPage.render, hcatalog, hcurrent.getCardBySlug_eq hp hs]
  · rw [ProductPage.render, hcatalog, hcurrent.getCardBySlug_none hno]

end Window

theorem product_window_pen :
    ProductPage.render officeDb "http://shop" "pen" =
        .ok (ProductPage.shown officeDb "http://shop" "pen" (viewOf publishedPen)) ∧
      ∃ fuel paths, Sitemap.productPaths penShop.state.catalog SearchMeaning.noText "http://shop"
        fuel = some (.ok paths) ∧
        paths.Perm ((penShop.state.product.products.rows.filter fun p => p.status = .published).map
          fun p => Sitemap.productUrl "http://shop" p.slug) := by
  obtain ⟨hpages, _, hsitemap⟩ := product_window penShop_reachable (by rfl) officeDb_catalog
    SearchMeaning.noText "http://shop"
  refine ⟨(hpages publishedPen ?_ rfl).1, hsitemap ?_⟩
  · rw [penShop_rows]
    exact List.mem_cons_self
  · rw [penShop_rows]
    decide

section Window
variable {attributes : Table Attribute String Attribute.id} {concatOrder : ConcatOrder}
  {c : ShopConfig}
  (h : (system (scenario Orderly)).Reachable ⟨.initial attributes concatOrder, []⟩ c)
  (hd : c.state.Drained)
  {shop : TaxonomyDb} (hcatalog : shop.toCatalogDb = c.state.catalog)
include h hd hcatalog

end Window

end Storefront

end TinyShop
