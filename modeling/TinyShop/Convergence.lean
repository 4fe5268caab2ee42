import TinyShop.Pipeline
import TinyShop.ProjectionView
import TinyShop.Search

/-!
# The projection follows the sellers

Ticks run to their end and no database fails. As long as no call takes a slug that
another product holds, the projection is, event by event, the image of the product
table; the store of one seller keeps slugs apart by itself.
-/

namespace TinyShop.Convergence

open Base Relay Pipeline ProductRepo
set_option autoImplicit false

/-- The fields that a product and its projection row have to agree on. -/
structure Core where
  id : String
  sellerId : String
  title : String
  slug : String
  description : String
  priceMinor : Int64
  currency : String
deriving DecidableEq, Repr

def productCore (p : Product) : Core :=
  ⟨p.id, p.sellerId, p.title, p.slug, p.description, p.priceMinor, p.currency⟩

def rowCore (r : ProjectionRow) : Core :=
  ⟨r.id, r.sellerId, r.title, r.slug, r.description, r.priceMinor, r.currency⟩

/-- The call does not take a slug that another product holds. -/
def SlugFree (t : Products) : Call → Prop
  | .createProduct p => ∀ q ∈ t.rows, q.slug = p.slug → q.id = p.id
  | .updateProduct id _ slug _ _ _ =>
    (t.find? id).isSome → ∀ q ∈ t.rows, q.slug = slug → q.id = id
  | _ => True

instance (t : Products) : (call : Call) → Decidable (SlugFree t call)
  | .createProduct p =>
    inferInstanceAs (Decidable (∀ q ∈ t.rows, q.slug = p.slug → q.id = p.id))
  | .updateProduct id _ slug _ _ _ =>
    inferInstanceAs (Decidable ((t.find? id).isSome → ∀ q ∈ t.rows, q.slug = slug → q.id = id))
  | .setStatus _ _ | .deleteProduct _ | .upsertDigitalConfig _ | .addVariant _ | .updateVariant _
  | .removeVariant _ _ | .addMedia _ | .removeMedia _ _ | .setAttributeValue _
  | .clearAttributeValue _ _ | .setTranslation _ _ _ _ _ _ => isTrue trivial

/-- A product and its row: the same core, and `R` between the two statuses. -/
def Agree (R : ProductStatus → String → Prop) : Option Product → Option ProjectionRow → Prop
  | none, none => True
  | some p, some r => productCore p = rowCore r ∧ R p.status r.status
  | _, _ => False

def Mirror (R : ProductStatus → String → Prop) (t : Products) (u : ProjectionTable) : Prop :=
  ∀ id, Agree R (t.find? id) (u.find? id)

/-- `R` survives a status change, whether it writes an event or not. -/
def Follows (R : ProductStatus → String → Prop) (t : Products) (call : Call) : Prop :=
  ∀ id new p, call = .setStatus id new → t.find? id = some p → p.status ≠ new →
    ∀ shown, R p.status shown →
      R new ((statusTransitionEvent p.status new).elim shown fun _ => new.asStr)

section Mirror
variable {R : ProductStatus → String → Prop} {t u : Products} {db : CatalogDb}

theorem Mirror.slug_row (h : Mirror R t db.projection) {r : ProjectionRow}
    (hr : r ∈ db.projection.rows) : ∃ p ∈ t.rows, p.id = r.id ∧ p.slug = r.slug := by
  have hagree := h r.id
  rw [Table.find?_of_mem hr] at hagree
  cases hp : t.find? r.id with
  | none =>
    rw [hp] at hagree
    exact hagree.elim
  | some p =>
    rw [hp] at hagree
    have hslug := congrArg Core.slug hagree.1
    exact ⟨p, Table.mem_of_find? hp, Table.key_of_find? hp, hslug⟩

theorem Mirror.isSome_eq (h : Mirror R t db.projection) (id : String) :
    (t.find? id).isSome = (db.projection.find? id).isSome := by
  have hagree := h id
  cases hp : t.find? id <;> cases hr : db.projection.find? id <;> simp_all [Agree]

/-- The event of a call with a free slug fits the mirrored projection. -/
theorem Mirror.fits {call : Call} {e : NewEvent} (h : Mirror R t db.projection)
    (hc : Change t call u (some e)) (hfree : SlugFree t call) : e.meaning.Fits db.projection := by
  generalize hev : some e = ev at hc
  cases hc with
  | created p hins =>
    obtain rfl := Option.some.inj hev
    rw [productCreated_meaning]
    intro _ r hr hslug
    obtain ⟨q, hq, hid, hqslug⟩ := h.slug_row hr
    exact hid ▸ hfree q hq (hqslug.trans hslug)
  | core id title slug description priceMinor currency now hupd =>
    obtain rfl := Option.some.inj hev
    rw [coreUpdated_meaning]
    intro hsome r hr hslug
    obtain ⟨q, hq, hid, hqslug⟩ := h.slug_row hr
    rw [← h.isSome_eq] at hsome
    exact hid ▸ hfree hsome q hq (hqslug.trans hslug)
  | status id new now hp hne =>
    obtain ⟨ty, hty, rfl⟩ := Option.map_eq_some_iff.mp hev.symm
    rw [statusChanged_meaning hty]
    trivial
  | deleted id hp =>
    obtain rfl := Option.some.inj hev
    rw [productDeleted_meaning]
    trivial
  | attributeSet v now =>
    obtain rfl := Option.some.inj hev
    rw [attributeValueSet_meaning]
    trivial
  | attributeCleared productId attributeId now =>
    obtain rfl := Option.some.inj hev
    rw [attributeValueCleared_meaning]
    trivial
  | touched call now hcall hr =>
    obtain rfl := Option.some.inj hev
    rw [productUpdated_meaning hr]
    trivial
  | unchanged call hcall => cases hev

theorem agree_none {x : Option ProjectionRow} : Agree R none x ↔ x = none := by
  cases x <;> simp [Agree]

theorem agree_some {p : Product} {x : Option ProjectionRow} :
    Agree R (some p) x ↔ ∃ r, x = some r ∧ productCore p = rowCore r ∧ R p.status r.status := by
  cases x <;> simp [Agree]

/-- A patch that leaves the core and the status of a row alone. -/
theorem Agree.touch {x : Option Product} {y : Option ProjectionRow} (h : Agree R x y)
    (ts : Int64) : Agree R x (CellOp.step y (.patch ({ updatedAt := some ts } : RowPatch))) := by
  cases x <;> cases y <;> simp_all [Agree, CellOp.step, Overwrites.act, RowPatch.act, rowCore]

/-- The event of a call keeps the mirror. -/
theorem Mirror.apply {call : Call} {e : NewEvent} {db' : CatalogDb} (h : Mirror R t db.projection)
    (hstart : ∀ status : ProductStatus, R status status.asStr) (hc : Change t call u (some e))
    (hfree : SlugFree t call) (hfollows : Follows R t call)
    (happly : e.meaning.apply db = .ok db') : Mirror R u db'.projection := by
  have hfits := h.fits hc hfree
  intro id
  rw [ProductEvent.find?_apply hfits happly]
  have hagree := h id
  generalize hev : some e = ev at hc
  cases hc with
  | created p hins =>
    obtain rfl := Option.some.inj hev
    rw [productCreated_meaning, IndexedTable.find?_insert? hins]
    by_cases hid : p.id = id
    · subst hid
      have hnone := (IndexedTable.insert?_eq_some hins).1
      rw [hnone, agree_none] at hagree
      rw [hagree, if_pos rfl]
      simpa [ProductEvent.onRow, rowOf, CellOp.step, Agree, productCore, rowCore] using hstart _
    · simpa [ProductEvent.onRow, rowOf, hid] using hagree
  | core id' title slug description priceMinor currency now hupd =>
    obtain rfl := Option.some.inj hev
    rw [coreUpdated_meaning, IndexedTable.find?_update? hupd]
    by_cases hid : id' = id
    · subst hid
      rw [if_pos rfl]
      cases hp : t.find? id' with
      | none =>
        rw [hp, agree_none] at hagree
        simp [hagree, ProductEvent.onRow, CellOp.step, Agree]
      | some p =>
        rw [hp, agree_some] at hagree
        obtain ⟨r, hr, hcore, hstatus⟩ := hagree
        simp only [productCore, rowCore, Core.mk.injEq] at hcore
        simp [hr, ProductEvent.onRow, CellOp.step, Agree, Overwrites.act, RowPatch.act,
          productCore, rowCore, hcore.1, hcore.2.1, hstatus]
    · simpa [ProductEvent.onRow, hid, Ne.symm hid] using hagree
  | @status id' new now p hp hne =>
    obtain ⟨ty, hty, rfl⟩ := Option.map_eq_some_iff.mp hev.symm
    rw [statusChanged_meaning hty, IndexedTable.find?_patch_key]
    by_cases hid : id' = id
    · subst hid
      rw [hp, agree_some] at hagree
      obtain ⟨r, hr, hcore, hstatus⟩ := hagree
      have hnew := hfollows id' new p rfl hp hne _ hstatus
      rw [hty] at hnew
      simp only [hp, hr, ProductEvent.onRow, Option.map_some, if_true, Option.toList_some,
        List.foldl_cons, List.foldl_nil, CellOp.step]
      exact ⟨hcore, hnew⟩
    · simpa [ProductEvent.onRow, hid, Ne.symm hid] using hagree
  | @deleted id' p hp =>
    obtain rfl := Option.some.inj hev
    rw [productDeleted_meaning, IndexedTable.toTable_delete, Table.find?_delete_key]
    by_cases hid : id' = id
    · subst hid
      rw [hp, agree_some] at hagree
      obtain ⟨r, hr, _⟩ := hagree
      simp [hr, ProductEvent.onRow, CellOp.step, Agree]
    · simpa [ProductEvent.onRow, hid, Ne.symm hid] using hagree
  | attributeSet v now =>
    obtain rfl := Option.some.inj hev
    rw [attributeValueSet_meaning]
    exact hagree
  | attributeCleared productId attributeId now =>
    obtain rfl := Option.some.inj hev
    rw [attributeValueCleared_meaning]
    exact hagree
  | touched call now hcall hr =>
    obtain rfl := Option.some.inj hev
    rw [productUpdated_meaning hr]
    by_cases hid : call.productId = id
    · simpa [ProductEvent.onRow, hid] using Agree.touch hagree now
    · simpa [ProductEvent.onRow, hid] using hagree
  | unchanged call hcall => cases hev

/-- A silent call keeps the mirror. -/
theorem Mirror.silent {call : Call} (h : Mirror R t db.projection) (hc : Change t call u none)
    (hfollows : Follows R t call) : Mirror R u db.projection := by
  generalize hev : (none : Option NewEvent) = ev at hc
  cases hc with
  | @status id' new now p hp hne =>
    have hty := Option.map_eq_none_iff.mp hev.symm
    intro id
    have hagree := h id
    rw [IndexedTable.find?_patch_key]
    by_cases hid : id' = id
    · subst hid
      rw [hp, agree_some] at hagree
      obtain ⟨r, hr, hcore, hstatus⟩ := hagree
      have hnew := hfollows id' new p rfl hp hne _ hstatus
      rw [hty] at hnew
      rw [if_pos rfl, hp, hr]
      exact ⟨hcore, hnew⟩
    · rw [if_neg (Ne.symm hid)]
      exact hagree
  | unchanged call hcall => exact h
  | _ => cases hev

end Mirror

/-- The calls that are made; ticks run to their end and no database fails. -/
def scenario (allowed : ProductDb → Call → Prop) : Scenario where
  call := allowed
  deliver := fun _ _ => True
  cut := False
  stepFails := False
  catalogFails := fun _ => False

/-- One pass over the events of some rows; it stops at an event that fails. -/
def playAll (db : CatalogDb) (rows : List OutboxRow) : Except SqlxError CatalogDb :=
  rows.foldlM (fun db r => r.toEvent.meaning.apply db) db

theorem playAll_append {db db' : CatalogDb} {u : List OutboxRow} (h : playAll db u = .ok db')
    (v : List OutboxRow) : playAll db (u ++ v) = playAll db' v := by
  rw [playAll, List.foldlM_append]
  rw [playAll] at h
  rw [h]
  rfl

theorem playAll_concat {db db' : CatalogDb} {u : List OutboxRow} (h : playAll db u = .ok db')
    (r : OutboxRow) : playAll db (u ++ [r]) = r.toEvent.meaning.apply db' := by
  rw [playAll_append h, playAll, List.foldlM_cons]
  cases r.toEvent.meaning.apply db' <;> rfl

theorem playAll_map {f : OutboxRow → OutboxRow} (hf : ∀ r, (f r).toEvent = r.toEvent)
    (db : CatalogDb) (rows : List OutboxRow) : playAll db (rows.map f) = playAll db rows := by
  simp [playAll, List.foldlM_map, hf]

/-- An event in the middle of a successful pass is applied. -/
theorem playAll_middle {db db₁ db₂ : CatalogDb} {u v : List OutboxRow} {r : OutboxRow}
    (hu : playAll db u = .ok db₁) (h : playAll db (u ++ r :: v) = .ok db₂) :
    ∃ db', r.toEvent.meaning.apply db₁ = .ok db' := by
  rw [playAll_append hu, playAll, List.foldlM_cons] at h
  cases hr : r.toEvent.meaning.apply db₁ with
  | ok db' => exact ⟨db', rfl⟩
  | error e =>
    rw [hr] at h
    cases h

/-- What the calls of a scenario have to keep for the projection to follow: `P` is a
property of the product table, `R` relates the status of a product to the shown one. -/
structure Rules (R : ProductStatus → String → Prop) (P : Products → Prop)
    (allowed : ProductDb → Call → Prop) : Prop where
  empty : P ∅
  start : ∀ status : ProductStatus, R status status.asStr
  keeps : ∀ {db call u ev}, allowed db call → Change db.products call u ev → P db.products → P u
  free : ∀ {db call u ev}, allowed db call → Change db.products call u ev → P db.products →
    SlugFree db.products call
  follows : ∀ {db call}, allowed db call → Follows R db.products call

/-- One pass over all events gives the image of the products, and the catalog is what a
pass over the delivered ones gives. -/
structure Synced (R : ProductStatus → String → Prop) (P : Products → Prop)
    (attributes : Table Attribute String Attribute.id) (concatOrder : ConcatOrder) (s : Shop)
    (ids : List Nat) : Prop where
  product : P s.product.products
  image : ∃ db, playAll (.initial attributes concatOrder) s.product.outbox.rows = .ok db ∧
    Mirror R s.product.products db.projection
  cursor : ∃ done rest, s.product.outbox.rows = done ++ rest ∧
    playAll (.initial attributes concatOrder) done = .ok s.catalog ∧
    (∀ r ∈ done, r.publishedAt ≠ none ∨ r.id ∈ ids) ∧
    ∀ r ∈ rest, r.publishedAt = none ∧ r.id ∉ ids
  attempts : ∀ r ∈ s.product.outbox.rows, r.attempts = 0

section Synced
variable {R : ProductStatus → String → Prop} {P : Products → Prop}
variable {allowed : ProductDb → Call → Prop} {attributes : Table Attribute String Attribute.id}
  {concatOrder : ConcatOrder}

theorem queue_eq {o : Outbox} {ids : List Nat} {done rest : List OutboxRow}
    (hrows : o.rows = done ++ rest) (hdone : ∀ r ∈ done, r.publishedAt ≠ none ∨ r.id ∈ ids)
    (hrest : ∀ r ∈ rest, r.publishedAt = none ∧ r.id ∉ ids) : o.queue ids = rest := by
  rw [Outbox.queue, Outbox.unpublished, List.filter_filter, hrows, List.filter_append]
  have hnil : done.filter (fun r => decide (r.id ∉ ids) && r.publishedAt.isNone) = [] := by
    rw [List.filter_eq_nil_iff]
    intro r hr
    rcases hdone r hr with h | h
    · simp [h]
    · simp [h]
  have hall : rest.filter (fun r => decide (r.id ∉ ids) && r.publishedAt.isNone) = rest := by
    rw [List.filter_eq_self]
    intro r hr
    simp [hrest r hr]
  rw [hnil, hall, List.nil_append]

theorem synced_initial (rules : Rules R P allowed) :
    Synced R P attributes concatOrder (.initial attributes concatOrder) [] := by
  refine ⟨rules.empty, ⟨_, rfl, fun id => trivial⟩, ⟨[], [], rfl, rfl, by simp, by simp⟩, ?_⟩
  simp [Shop.initial, ProductDb.empty]

theorem Synced.commit (rules : Rules R P allowed) {s s' : Shop} {ids : List Nat}
    (hc : Commit (scenario allowed) s s') (hb : Bounded s ids)
    (h : Synced R P attributes concatOrder s ids) :
    Synced R P attributes concatOrder s' ids := by
  cases hc with
  | @call c now clock db hcall hrun =>
    obtain ⟨ev, hchange, ho⟩ := Call.run_commits hrun
    obtain ⟨db₀, hplay, hmirror⟩ := h.image
    obtain ⟨done, rest, hrows, hdone, hpub, hrest⟩ := h.cursor
    have hkeep := rules.keeps hcall hchange h.product
    have hfollows := rules.follows hcall
    cases ev with
    | none =>
      have hsame : db.outbox = s.product.outbox := ho
      refine ⟨hkeep, ⟨db₀, ?_, hmirror.silent hchange hfollows⟩, ⟨done, rest, ?_, hdone, hpub, hrest⟩, ?_⟩
      · simp only [hsame]
        exact hplay
      · simp only [hsame]
        exact hrows
      · simp only [hsame]
        exact h.attempts
    | some e =>
      have hfree := rules.free hcall hchange h.product
      have hnew : db.outbox.rows = s.product.outbox.rows ++ [s.product.outbox.newRow e clock] := by
        rw [ho]
        rfl
      obtain ⟨db₁, happly⟩ := ProductEvent.apply_ok (hmirror.fits hchange hfree)
      refine ⟨hkeep, ⟨db₁, ?_, hmirror.apply rules.start hchange hfree hfollows happly⟩,
        ⟨done, rest ++ [s.product.outbox.newRow e clock], ?_, hdone, hpub, ?_⟩, ?_⟩
      · simp only [hnew]
        rw [playAll_concat hplay]
        exact happly
      · simp only [hnew]
        rw [hrows, List.append_assoc]
      · intro r hr
        rcases List.mem_append.mp hr with hr | hr
        · exact hrest r hr
        · rw [List.mem_singleton] at hr
          subst hr
          refine ⟨rfl, fun hmem => ?_⟩
          have := hb _ hmem
          simp only [Outbox.newRow] at this
          omega
      · intro r hr
        simp only [hnew] at hr
        rcases List.mem_append.mp hr with hr | hr
        · exact h.attempts r hr
        · rw [List.mem_singleton] at hr
          subst hr
          rfl

section Moves
variable {s : Shop} {ids : List Nat} {r : OutboxRow}

/-- The next row to be delivered is the first one behind the cursor. -/
theorem Synced.rest (h : Synced R P attributes concatOrder s ids) (hn : Next s ids r) :
    ∃ done rest, s.product.outbox.rows = done ++ r :: rest ∧
      playAll (.initial attributes concatOrder) done = .ok s.catalog ∧
      (∀ q ∈ done, q.publishedAt ≠ none ∨ q.id ∈ ids) ∧
      ∀ q ∈ r :: rest, q.publishedAt = none ∧ q.id ∉ ids := by
  obtain ⟨done, rest, hrows, hdone, hpub, hrest⟩ := h.cursor
  rw [Next, queue_eq hrows hpub hrest] at hn
  obtain ⟨rest', rfl⟩ := List.head?_eq_some_iff.mp hn
  exact ⟨done, rest', hrows, hdone, hpub, hrest⟩

theorem Synced.deliver {c : CatalogDb} (hn : Next s ids r)
    (hc : r.toEvent.meaning.apply s.catalog = .ok c) (h : Synced R P attributes concatOrder s ids) :
    Synced R P attributes concatOrder { s with catalog := c } (ids ++ [r.id]) := by
  obtain ⟨done, rest, hrows, hdone, hpub, hrest⟩ := h.rest hn
  refine ⟨h.product, h.image, ⟨done ++ [r], rest, ?_, ?_, ?_, ?_⟩, h.attempts⟩
  · simpa using hrows
  · rw [playAll_concat hdone]
    exact hc
  · intro q hq
    rcases List.mem_append.mp hq with hq | hq
    · exact (hpub q hq).imp_right fun hmem => List.mem_append_left _ hmem
    · rw [List.mem_singleton.mp hq]
      exact Or.inr (List.mem_append_right _ List.mem_cons_self)
  · intro q hq
    obtain ⟨hunpub, hnot⟩ := hrest q (List.mem_cons_of_mem _ hq)
    refine ⟨hunpub, ?_⟩
    have hsorted := s.product.outbox.sorted
    rw [hrows] at hsorted
    have hlater := List.rel_of_pairwise_cons (List.pairwise_append.mp hsorted).2.1 hq
    rw [List.mem_append, List.mem_singleton]
    rintro (hmem | heq)
    · exact hnot hmem
    · omega

/-- A handler never fails on the next event. -/
theorem Synced.accepts (hn : Next s ids r) (h : Synced R P attributes concatOrder s ids) :
    ∃ c, r.toEvent.meaning.apply s.catalog = .ok c := by
  obtain ⟨db, hplay, _⟩ := h.image
  obtain ⟨done, rest, hrows, hdone, _⟩ := h.rest hn
  rw [hrows] at hplay
  exact playAll_middle hdone hplay

theorem Synced.mark (now : Int64) (h : Synced R P attributes concatOrder s ids) :
    Synced R P attributes concatOrder (s.setOutbox (s.product.outbox.markPublished ids now)) [] := by
  obtain ⟨done, rest, hrows, hdone, hpub, hrest⟩ := h.cursor
  obtain ⟨db, hplay, hmirror⟩ := h.image
  have hmarked : (s.product.outbox.markPublished ids now).rows =
      s.product.outbox.rows.map (Outbox.publishAll now ids) := by
    rw [Outbox.markPublished_eq]
    rfl
  refine ⟨h.product, ⟨db, ?_, hmirror⟩, ⟨done.map (Outbox.publishAll now ids),
    rest.map (Outbox.publishAll now ids), ?_, ?_, ?_, ?_⟩, ?_⟩
  · rw [Shop.setOutbox_outbox, hmarked, playAll_map (Outbox.publishAll_toEvent now ids)]
    exact hplay
  · rw [Shop.setOutbox_outbox, hmarked, hrows, List.map_append]
  · rw [playAll_map (Outbox.publishAll_toEvent now ids)]
    exact hdone
  · intro q hq
    obtain ⟨r, hr, rfl⟩ := List.mem_map.mp hq
    refine Or.inl ?_
    unfold Outbox.publishAll
    split
    · simp
    · rename_i hnot
      exact (hpub r hr).resolve_right hnot
  · intro q hq
    obtain ⟨r, hr, rfl⟩ := List.mem_map.mp hq
    obtain ⟨hunpub, hnot⟩ := hrest r hr
    simp [Outbox.publishAll, hnot, hunpub]
  · intro q hq
    rw [Shop.setOutbox_outbox, hmarked] at hq
    obtain ⟨r, hr, rfl⟩ := List.mem_map.mp hq
    rw [Outbox.publishAll_attempts]
    exact h.attempts r hr

end Moves

theorem synced_invariant (rules : Rules R P allowed) :
    Invariant (scenario allowed) (Synced R P attributes concatOrder) where
  commit := fun hc hb h => h.commit rules hc hb
  deliver := fun hn _ hc h => h.deliver hn hc
  fail := by
    intro s ids r hn _ hbad error h
    rcases hbad with ⟨e, he⟩ | hno
    · obtain ⟨c, hok⟩ := h.accepts hn
      rw [hok] at he
      cases he
    · exact hno.elim
  dead := by
    intro s ids r hn hmax now h
    have hr := (Outbox.mem_queue.mp (List.mem_of_head? hn)).1.1
    have hzero := h.attempts r hr
    rw [hzero] at hmax
    exact absurd hmax (by decide)
  mark := fun now h => h.mark now
  abort := fun hno => hno.elim False.elim False.elim

/-- Once nothing is unpublished, the projection is the image of the products. -/
theorem mirror_of_drained (rules : Rules R P allowed) {c : ShopConfig}
    (h : (system (scenario allowed)).Reachable ⟨.initial attributes concatOrder, []⟩ c)
    (hd : c.state.Drained) : Mirror R c.state.product.products c.state.catalog.projection := by
  obtain ⟨ids, hs⟩ := (synced_invariant rules).of_reachable h (synced_initial rules)
  obtain ⟨db, hplay, hmirror⟩ := hs.image
  obtain ⟨done, rest, hrows, hdone, hpub, hrest⟩ := hs.cursor
  have hnil : rest = [] := by
    cases rest with
    | nil => rfl
    | cons r rest =>
      have hunpub := (hrest r List.mem_cons_self).1
      have hr : r ∈ c.state.product.outbox.rows := by
        rw [hrows]
        exact List.mem_append_right _ List.mem_cons_self
      have hmem := Outbox.mem_unpublished.mpr ⟨hr, hunpub⟩
      rw [hd] at hmem
      cases hmem
  rw [hrows, hnil, List.append_nil, hdone] at hplay
  obtain rfl := Except.ok.inj hplay
  exact hmirror

end Synced

theorem Mirror.perm {R : ProductStatus → String → Prop} {t : Products} {u : ProjectionTable}
    (h : Mirror R t u) : (t.rows.map productCore).Perm (u.rows.map rowCore) := by
  have ht : (t.rows.map productCore).Nodup :=
    List.Nodup.of_map Core.id (by rw [List.map_map]; exact t.unique)
  have hu : (u.rows.map rowCore).Nodup :=
    List.Nodup.of_map Core.id (by rw [List.map_map]; exact u.unique)
  refine (List.perm_ext_iff_of_nodup ht hu).mpr fun core => ?_
  simp only [List.mem_map]
  constructor
  · rintro ⟨p, hp, rfl⟩
    have hagree := h p.id
    rw [Table.find?_of_mem hp, agree_some] at hagree
    obtain ⟨r, hr, hcore, _⟩ := hagree
    exact ⟨r, Table.mem_of_find? hr, hcore.symm⟩
  · rintro ⟨r, hr, rfl⟩
    have hagree := h r.id
    rw [Table.find?_of_mem hr] at hagree
    cases hp : t.find? r.id with
    | none =>
      rw [hp] at hagree
      exact hagree.elim
    | some p =>
      rw [hp] at hagree
      exact ⟨p, Table.mem_of_find? hp, hagree.1⟩

def checks (allowed : ProductDb → Call → Prop) [∀ db call, Decidable (allowed db call)] :
    Checks (scenario allowed) where
  call := fun db call => decide (allowed db call)
  deliver := fun _ _ => true
  cut := false
  call_sound := fun db call h => of_decide_eq_true (p := allowed db call) h
  deliver_sound := fun _ _ _ => trivial
  cut_sound := fun h => by cases h

section Core

theorem slugFree_rules : Rules (fun _ _ => True) (fun _ => True)
    fun db call => SlugFree db.products call where
  empty := trivial
  start := fun _ => trivial
  keeps := fun _ _ _ => trivial
  free := fun h _ _ => h
  follows := fun _ _ _ _ _ _ _ _ _ => trivial

/-- Where every call leaves the slugs of other products alone, the projection has the
same products with the same core fields once nothing is unpublished. -/
theorem core_converges {attributes : Table Attribute String Attribute.id}
    {concatOrder : ConcatOrder} {c : ShopConfig}
    (h : (system (scenario fun db call => SlugFree db.products call)).Reachable
      ⟨.initial attributes concatOrder, []⟩ c) (hd : c.state.Drained) :
    (c.state.product.products.rows.map productCore).Perm
      (c.state.catalog.projection.rows.map rowCore) :=
  (mirror_of_drained slugFree_rules h hd).perm

/-- Two sellers; a slug is given up before another product takes it. -/
def coreScript : List Move :=
  [.call (.createProduct (product "a" "s" "one")), .call (.createProduct (product "b" "t" "two")),
    .tick, .next, .next, .call (.updateProduct "a" "new" "three" "" 200 "UAH"), .next, .next, .leave,
    .call (.createProduct (product "c" "t" "one")), .call (.deleteProduct "b"),
    .tick, .next, .next, .next, .next, .next]

theorem core_converges_coreScript :
    let c := play (checks fun db call => SlugFree db.products call) coreScript ⟨.initial ∅, []⟩
    c.state.product.products.rows.map (fun p => (p.id, p.slug)) = [("a", "three"), ("c", "one")] ∧
      (c.state.product.products.rows.map productCore).Perm
        (c.state.catalog.projection.rows.map rowCore) :=
  ⟨by rfl, core_converges (reachable_play _ coreScript _) (by rfl)⟩

def isCoreCall : Call → Bool
  | .deleteProduct _ => true
  | call => call.setsSlug

/-- The product store takes one slug from two sellers, the projection keeps one of them. -/
def clashScript : List Move :=
  [.call (.createProduct (product "a" "s" "one")), .call (.createProduct (product "b" "t" "one")),
    .tick, .next, .next, .next, .next]

theorem core_diverges_clashScript :
    let c := play (checks fun _ call => isCoreCall call) clashScript ⟨.initial ∅, []⟩
    (system (scenario fun _ call => isCoreCall call)).Reachable ⟨.initial ∅, []⟩ c ∧
      c.state.Drained ∧
      ¬(c.state.product.products.rows.map productCore).Perm
        (c.state.catalog.projection.rows.map rowCore) := by
  refine ⟨reachable_play _ clashScript _, by rfl, fun h => ?_⟩
  have hlength := h.length_eq
  revert hlength
  decide

end Core

section Visible

/-- The call puts an archived product back on sale. -/
def republishes (t : Products) : Call → Bool
  | .setStatus id .published => (t.find? id).any fun p => p.status = .archived
  | _ => false

def ofSeller (seller : String) : Call → Bool
  | .createProduct p => p.sellerId = seller
  | _ => true

def Shown (status : ProductStatus) (shown : String) : Prop :=
  status = .published ↔ shown = "published"

theorem shown_follows {t : Products} {call : Call} (h : republishes t call = false) :
    Follows Shown t call := by
  rintro id new p rfl hp hne shown hshown
  have hnot : new = .published → p.status ≠ .archived := by
    rintro rfl harchived
    simp [republishes, hp, harchived] at h
  cases hstatus : p.status <;> cases new <;>
    simp_all [Shown, statusTransitionEvent, ProductStatus.asStr]

/-- All products are of one seller, so `UNIQUE (seller_id, slug)` keeps the slugs apart. -/
def OneSeller (seller : String) (t : Products) : Prop := ∀ p ∈ t.rows, p.sellerId = seller

theorem oneSeller_keeps {seller : String} {t u : Products} {call : Call} {ev : Option NewEvent}
    (hof : ofSeller seller call = true) (hc : Change t call u ev) (h : OneSeller seller t) :
    OneSeller seller u := by
  intro q hq
  cases hc with
  | created p hins =>
    rw [(IndexedTable.insert?_eq_some hins).2.2] at hq
    rcases List.mem_append.mp hq with hq | hq
    · exact h q hq
    · rw [List.mem_singleton.mp hq]
      simpa [ofSeller] using hof
  | core id title slug description priceMinor currency now hupd =>
    rw [(IndexedTable.update?_eq_some_iff.mp hupd).2] at hq
    obtain ⟨p, hp, rfl⟩ := Table.mem_update.mp hq
    split <;> exact h p hp
  | status id new now hp hne =>
    rw [IndexedTable.mem_patch] at hq
    obtain ⟨p, hp, rfl⟩ := hq
    split <;> exact h p hp
  | deleted id hp =>
    rw [IndexedTable.toTable_delete] at hq
    exact h q (Table.mem_delete.mp hq).1
  | attributeSet v now => exact h q hq
  | attributeCleared productId attributeId now => exact h q hq
  | touched call now hcall hr => exact h q hq
  | unchanged call hcall => exact h q hq

theorem slugFree_of_setsSlug {t : Products} {call : Call} (h : call.setsSlug = false) :
    SlugFree t call := by
  cases call with
  | createProduct p => cases h
  | updateProduct id title slug description priceMinor currency => cases h
  | _ => trivial

theorem slugFree_of_oneSeller {seller : String} {t u : Products} {call : Call}
    {ev : Option NewEvent} (hof : ofSeller seller call = true) (hc : Change t call u ev)
    (h : OneSeller seller t) : SlugFree t call := by
  cases hc with
  | created p hins =>
    intro q hq hslug
    have hseller : p.sellerId = seller := by simpa [ofSeller] using hof
    exact (IndexedTable.insert?_eq_some hins).2.1 q hq (by simp [h q hq, hseller, hslug])
  | core id title slug description priceMinor currency now hupd =>
    intro hsome q hq hslug
    obtain ⟨p, hp, hid⟩ := Table.find?_isSome_iff.mp hsome
    refine (IndexedTable.update?_eq_some_iff.mp hupd).1 p hp hid q hq ?_
    simp [h q hq, h p hp, hslug]
  | status id new now hp hne => trivial
  | deleted id hp => trivial
  | attributeSet v now => trivial
  | attributeCleared productId attributeId now => trivial
  | touched call now hcall hr => exact slugFree_of_setsSlug (Call.setsSlug_of_touches hcall)
  | unchanged call hcall => exact slugFree_of_setsSlug hcall

theorem visible_rules (seller : String) : Rules Shown (OneSeller seller)
    fun db call => ofSeller seller call ∧ republishes db.products call = false where
  empty := by simp [OneSeller]
  start := fun status => (ProductStatus.asStr_eq_published_iff status).symm
  keeps := fun hallowed hc h => oneSeller_keeps hallowed.1 hc h
  free := fun hallowed hc h => slugFree_of_oneSeller hallowed.1 hc h
  follows := fun hallowed => shown_follows hallowed.2

/-- With one seller, and no archived product put straight back on sale, every published
product is shown once nothing is unpublished. -/
theorem published_visible {seller : String} {attributes : Table Attribute String Attribute.id}
    {concatOrder : ConcatOrder}
    {c : ShopConfig}
    (h : (system (scenario fun db call =>
      ofSeller seller call ∧ republishes db.products call = false)).Reachable
        ⟨.initial attributes concatOrder, []⟩ c) (hd : c.state.Drained) :
    ∀ p ∈ c.state.product.products.rows, p.status = .published →
      ∃ row ∈ c.state.catalog.projection.rows, row.id = p.id ∧ row.status = "published" ∧
        SqliteCatalogSearch.getCardById c.state.catalog p.id =
          some (SqliteCatalogSearch.mapViewRow row) := by
  intro p hp hstatus
  have hagree := mirror_of_drained (visible_rules seller) h hd p.id
  rw [Table.find?_of_mem hp, agree_some] at hagree
  obtain ⟨row, hrow, _, hshown⟩ := hagree
  have hmem := Table.mem_of_find? hrow
  have hid := Table.key_of_find? hrow
  refine ⟨row, hmem, hid, hshown.mp hstatus, ?_⟩
  rw [← hid]
  exact SqliteCatalogSearch.getCardById_of_mem _ hmem (hshown.mp hstatus)

/-- A product is published, archived, made a draft and published again. -/
def visibleScript : List Move :=
  [.call (.createProduct (product "a" "s" "one")), .call (.setStatus "a" .published),
    .call (.setStatus "a" .archived), .tick, .next, .next, .call (.setStatus "a" .draft), .next,
    .next, .next, .leave, .call (.setStatus "a" .published), .tick, .next, .next, .next]

theorem published_visible_visibleScript :
    let c := play (checks fun db call => ofSeller "s" call ∧ republishes db.products call = false)
      visibleScript ⟨.initial ∅, []⟩
    c.state.product.products.rows.map (fun p => (p.id, p.status)) = [("a", .published)] ∧
      ∀ p ∈ c.state.product.products.rows, p.status = .published →
        ∃ row ∈ c.state.catalog.projection.rows, row.id = p.id ∧ row.status = "published" ∧
          SqliteCatalogSearch.getCardById c.state.catalog p.id =
            some (SqliteCatalogSearch.mapViewRow row) :=
  ⟨by rfl, published_visible (reachable_play _ visibleScript _) (by rfl)⟩

/-- A product on sale is archived and put back on sale, which writes no event. -/
def republishScript : List Move :=
  [.call (.createProduct (product "a" "s" "one")), .call (.setStatus "a" .published),
    .call (.setStatus "a" .archived), .call (.setStatus "a" .published),
    .tick, .next, .next, .next, .next, .next]

theorem published_hidden_republishScript :
    let c := play (checks fun _ call => ofSeller "s" call = true) republishScript ⟨.initial ∅, []⟩
    (system (scenario fun _ call => ofSeller "s" call = true)).Reachable ⟨.initial ∅, []⟩ c ∧
      c.state.Drained ∧ c.state.product.outbox.rows.all (fun r => r.attempts = 0) ∧
      ¬∀ p ∈ c.state.product.products.rows, p.status = .published →
        ∃ row ∈ c.state.catalog.projection.rows, row.id = p.id ∧ row.status = "published" := by
  refine ⟨reachable_play _ republishScript _, by rfl, by rfl, fun h => ?_⟩
  obtain ⟨row, hrow, _, hstatus⟩ := h (setStatusOf .published 0 (product "a" "s" "one"))
    (by decide) rfl
  revert row
  decide

end Visible

end TinyShop.Convergence
