import TinyShop.FullText
import TinyShop.Pipeline

/-!
# Delivering an event again

A tick may be cut between a delivery and the mark, and the next one starts over from
the lowest unpublished id. The catalog keeps no record of what it has seen; it ends
with the same contents because an event acts on single rows, as an entry of a lawful
log, and on single attributes, as a write to a register.
-/

namespace TinyShop.Redelivery

open Base Relay Pipeline ProductRepo
set_option autoImplicit false

/-- What the events do to the row of one product, in their order. -/
def rowLog (id : String) (events : List DomainEvent) : List RowOp :=
  events.filterMap fun ev => ev.meaning.onRow id

/-- What the events write for one attribute of one product, in their order. -/
def attrLog (attributes : Table Attribute String Attribute.id) (id attributeId : String)
    (events : List DomainEvent) : List (Option AttrIndexRow) :=
  events.filterMap fun ev => ev.meaning.onAttr attributes id attributeId

theorem rowLog_append (id : String) (u v : List DomainEvent) :
    rowLog id (u ++ v) = rowLog id u ++ rowLog id v :=
  List.filterMap_append

theorem attrLog_append (attributes : Table Attribute String Attribute.id) (id attributeId : String)
    (u v : List DomainEvent) : attrLog attributes id attributeId (u ++ v) =
      attrLog attributes id attributeId u ++ attrLog attributes id attributeId v :=
  List.filterMap_append

theorem rowLog_cons (id : String) (ev : DomainEvent) (events : List DomainEvent) :
    rowLog id (ev :: events) = (ev.meaning.onRow id).toList ++ rowLog id events := by
  unfold rowLog
  cases h : ev.meaning.onRow id with
  | none => simp [h]
  | some op => simp [h]

theorem attrLog_cons (attributes : Table Attribute String Attribute.id) (id attributeId : String)
    (ev : DomainEvent) (events : List DomainEvent) :
    attrLog attributes id attributeId (ev :: events) =
      (ev.meaning.onAttr attributes id attributeId).toList ++
        attrLog attributes id attributeId events := by
  unfold attrLog
  cases h : ev.meaning.onAttr attributes id attributeId with
  | none => simp [h]
  | some write => simp [h]

/-- A catalog that will now read `todo` ends where one pass over `done ++ todo` ends. -/
structure Reads (attributes : Table Attribute String Attribute.id) (db : CatalogDb)
    (done todo : List DomainEvent) : Prop where
  taxonomy : db.attributes = attributes
  indexed : Indexed db
  rows : ∀ id, Caught CellOp.step none (db.projection.find? id) (rowLog id done) (rowLog id todo)
  attrs : ∀ id attributeId, Caught overwrite none (db.attrIndex.find? (id, attributeId))
    (attrLog attributes id attributeId done) (attrLog attributes id attributeId todo)

section Reads
variable {attributes : Table Attribute String Attribute.id} {concatOrder : ConcatOrder}
  {db db' : CatalogDb}
variable {done todo : List DomainEvent} {ev : DomainEvent}

theorem reads_initial : Reads attributes (.initial attributes concatOrder) [] [] where
  taxonomy := rfl
  indexed := indexed_initial attributes concatOrder
  rows := fun _ => rfl
  attrs := fun _ _ => rfl

theorem Reads.next (h : Reads attributes db done (ev :: todo))
    (hfits : ev.meaning.Fits db.projection) (happly : ev.meaning.apply db = .ok db') :
    Reads attributes db' (done ++ [ev]) todo where
  taxonomy := (ProductEvent.attributes_apply happly).trans h.taxonomy
  indexed := h.indexed.apply happly
  rows := by
    intro id
    have hrow := h.rows id
    rw [rowLog_cons] at hrow
    rw [ProductEvent.find?_apply hfits happly, rowLog_append, rowLog_cons id ev []]
    simpa [rowLog] using hrow.next
  attrs := by
    intro id attributeId
    have hattr := h.attrs id attributeId
    rw [attrLog_cons] at hattr
    rw [ProductEvent.find?_attr_apply happly, attrLog_append, attrLog_cons _ _ _ ev [],
      h.taxonomy]
    simpa [attrLog] using hattr.next

theorem Reads.fresh (h : Reads attributes db done []) (hfits : ev.meaning.Fits db.projection)
    (happly : ev.meaning.apply db = .ok db') : Reads attributes db' (done ++ [ev]) [] where
  taxonomy := (ProductEvent.attributes_apply happly).trans h.taxonomy
  indexed := h.indexed.apply happly
  rows := by
    intro id
    rw [ProductEvent.find?_apply hfits happly, rowLog_append, rowLog_cons id ev []]
    simpa [rowLog] using (h.rows id).fresh (ev.meaning.onRow id).toList
  attrs := by
    intro id attributeId
    rw [ProductEvent.find?_attr_apply happly, attrLog_append, attrLog_cons _ _ _ ev [],
      h.taxonomy]
    simpa [attrLog] using
      (h.attrs id attributeId).fresh (ev.meaning.onAttr attributes id attributeId).toList

/-- The cursor goes back over `again`. -/
theorem Reads.back {again : List DomainEvent} (h : Reads attributes db (done ++ again) todo)
    (hlawful : ∀ id, CellOp.Lawful (CellOp.run none (rowLog id done)).isSome
      (rowLog id (again ++ todo))) :
    Reads attributes db done (again ++ todo) where
  taxonomy := h.taxonomy
  indexed := h.indexed
  rows := by
    intro id
    have hl := hlawful id
    have hrow := h.rows id
    rw [rowLog_append] at hl hrow ⊢
    exact Caught.back_cell hl hrow
  attrs := by
    intro id attributeId
    have hattr := h.attrs id attributeId
    rw [attrLog_append] at hattr ⊢
    exact Caught.back_register hattr

theorem Reads.find?_eq (h : Reads attributes db done []) (h' : Reads attributes db' done [])
    (id : String) : db.projection.find? id = db'.projection.find? id :=
  (h.rows id).finished.trans (h'.rows id).finished.symm

theorem Reads.sameContents (h : Reads attributes db done []) (h' : Reads attributes db' done []) :
    SameContents db db' :=
  sameContents_of_find? h.indexed h'.indexed (h.find?_eq h') fun key =>
    (h.attrs key.1 key.2).finished.trans (h'.attrs key.1 key.2).finished.symm

end Reads

/-- Delivers an event; one that fails is given up. -/
def deliver (db : CatalogDb) (ev : DomainEvent) : CatalogDb :=
  match CatalogProjection.dispatch db source.name ev with
  | .ok db => db
  | .error _ => db

/-- Each event is delivered exactly once, in the order of the ids. -/
def deliverOnce (db : CatalogDb) (events : List DomainEvent) : CatalogDb :=
  events.foldl deliver db

theorem deliverOnce_concat (db : CatalogDb) (events : List DomainEvent) (ev : DomainEvent) :
    deliverOnce db (events ++ [ev]) = deliver (deliverOnce db events) ev := by
  simp [deliverOnce]

theorem deliver_of_apply {db db' : CatalogDb} {ev : DomainEvent}
    (h : ev.meaning.apply db = .ok db') : deliver db ev = db' := by
  unfold deliver
  rw [CatalogProjection.dispatch_ok_iff.mpr h]

/-- A product is created only if the last unpublished event about its row, if there is
one, deletes it. -/
def StrayFree (db : ProductDb) : Call → Prop
  | .createProduct p =>
    ∀ op ∈ (rowLog p.id (db.outbox.unpublished.map OutboxRow.toEvent)).getLast?, op.isDrop
  | _ => True

instance (db : ProductDb) : (call : Call) → Decidable (StrayFree db call)
  | .createProduct p => inferInstanceAs (Decidable (∀ op ∈
      (rowLog p.id (db.outbox.unpublished.map OutboxRow.toEvent)).getLast?, op.isDrop = true))
  | .updateProduct _ _ _ _ _ _ | .setStatus _ _ | .deleteProduct _ | .upsertDigitalConfig _
  | .addVariant _ | .updateVariant _ | .removeVariant _ _ | .addMedia _ | .removeMedia _ _
  | .setAttributeValue _ | .clearAttributeValue _ _ | .setTranslation _ _ _ _ _ _ => isTrue trivial

/-- No update is under way to a product that is created, and no event meets a taken slug.
A tick can be cut anywhere and every database may fail, the catalog less than ten times on
one event. -/
def scenario : Scenario where
  call := StrayFree
  deliver := fun db ev => ev.meaning.Fits db.projection
  cut := True
  stepFails := True
  catalogFails := fun r => r.attempts + 1 < maxDispatchAttempts

/-- The entry that a call appends to the log of a row. -/
def entry (id : String) (ev : Option NewEvent) : Option RowOp := ev.bind fun e => e.meaning.onRow id

/-- The log of a row tells which products there are, and a call extends it lawfully. -/
theorem entry_follows {db : ProductDb} {call : Call} {u : Products} {ev : Option NewEvent}
    (hcall : StrayFree db call) (hc : Change db.products call u ev) (id : String)
    {x : Option ProjectionRow} {log : List RowOp}
    (hlog : log = rowLog id (db.outbox.unpublished.map OutboxRow.toEvent))
    (hx : (CellOp.run x log).isSome = (db.products.find? id).isSome) :
    (∀ op ∈ entry id ev, CellOp.Follows x log op) ∧
      (CellOp.run (CellOp.run x log) (entry id ev).toList).isSome = (u.find? id).isSome := by
  cases hc with
  | created p hins =>
    have hfree := (IndexedTable.insert?_eq_some hins).1
    rw [IndexedTable.find?_insert? hins]
    simp only [entry, Option.bind_some, productCreated_meaning, ProductEvent.onRow]
    by_cases hid : p.id = id
    · subst hid
      rw [hfree] at hx
      have hnone : CellOp.run x log = none := by simpa using hx
      rw [show (rowOf p).id = p.id from rfl, if_pos rfl, if_pos rfl]
      refine ⟨fun op hop => ?_, ?_⟩
      · obtain rfl := Option.some.inj hop
        refine ⟨hnone, ?_⟩
        rw [hlog]
        exact hcall
      · simp [hnone, CellOp.step]
    · simp [rowOf, hid, hx]
  | core id' title slug description priceMinor currency now hupd =>
    rw [IndexedTable.find?_update? hupd]
    simp only [entry, Option.bind_some, coreUpdated_meaning, ProductEvent.onRow]
    by_cases hid : id' = id
    · subst hid
      cases hrun : CellOp.run x log <;> simp_all [CellOp.Follows, CellOp.step]
    · simp [hid, Ne.symm hid, hx]
  | @status id' new now p hp hne =>
    rw [IndexedTable.find?_patch, Option.isSome_map]
    cases hty : statusTransitionEvent p.status new with
    | none => simpa [entry] using hx
    | some ty =>
      simp only [entry, Option.map_some, Option.bind_some, statusChanged_meaning hty,
        ProductEvent.onRow]
      by_cases hid : id' = id
      · subst hid
        cases hrun : CellOp.run x log <;> simp_all [CellOp.Follows, CellOp.step]
      · simpa [hid] using hx
  | @deleted id' p hp =>
    rw [IndexedTable.toTable_delete, Table.find?_delete_key]
    simp only [entry, Option.bind_some, productDeleted_meaning, ProductEvent.onRow]
    by_cases hid : id' = id
    · subst hid
      cases hrun : CellOp.run x log <;> simp_all [CellOp.Follows, CellOp.step]
    · simpa [hid, Ne.symm hid] using hx
  | attributeSet v now =>
    simpa [entry, attributeValueSet_meaning, ProductEvent.onRow] using hx
  | attributeCleared productId attributeId now =>
    simpa [entry, attributeValueCleared_meaning, ProductEvent.onRow] using hx
  | touched call now htouch hr =>
    simp only [entry, Option.bind_some, productUpdated_meaning hr, ProductEvent.onRow]
    by_cases hid : call.productId = id
    · subst hid
      cases hrun : CellOp.run x log <;> simp_all [CellOp.Follows, CellOp.step]
    · simpa [hid] using hx
  | unchanged call hcall => simpa [entry] using hx

/-- The outbox of a shop in which a tick has delivered `ids`: `settled` is published,
`again` delivered by this tick, `seen` by earlier ones and `fresh` never. -/
structure Split (o : Outbox) (ids : List Nat) (settled again seen fresh : List DomainEvent) :
    Prop where
  rows : o.rows.map OutboxRow.toEvent = settled ++ again ++ (seen ++ fresh)
  unpublished : o.unpublished.map OutboxRow.toEvent = again ++ (seen ++ fresh)
  queue : (o.queue ids).map OutboxRow.toEvent = seen ++ fresh

section Split
variable {o : Outbox} {ids : List Nat} {settled again seen fresh : List DomainEvent}

theorem Split.enqueue (h : Split o ids settled again seen fresh) (hids : ∀ i ∈ ids, i ≤ o.seq)
    (ev : NewEvent) (clock : Int64) : Split (o.enqueue ev clock) ids settled again seen
      (fresh ++ [(o.newRow ev clock).toEvent]) where
  rows := by simp [h.rows]
  unpublished := by
    rw [← Outbox.queue_nil, Outbox.queue_enqueue (by simp), Outbox.queue_nil, List.map_append,
      h.unpublished]
    simp
  queue := by
    rw [Outbox.queue_enqueue hids, List.map_append, h.queue]
    simp

theorem Split.fail (h : Split o ids settled again seen fresh) (id : Nat) (error : String) :
    Split (o.update (Outbox.fail id error) (Outbox.fail_id _ _)) ids settled again seen fresh where
  rows := by simpa [Function.comp_def] using h.rows
  unpublished := by
    rw [← Outbox.queue_nil, Outbox.queue_fail, Outbox.queue_nil, List.map_map]
    simpa [Function.comp_def] using h.unpublished
  queue := by
    rw [Outbox.queue_fail, List.map_map]
    simpa [Function.comp_def] using h.queue

theorem Split.mark (h : Split o ids settled again seen fresh) (now : Int64) :
    Split (o.markPublished ids now) [] (settled ++ again) [] seen fresh where
  rows := by
    rw [Outbox.markPublished_eq, Outbox.rows_update, List.map_map]
    simpa [Function.comp_def] using h.rows
  unpublished := by
    rw [Outbox.queue_markPublished]
    exact h.queue
  queue := by
    rw [Outbox.queue_nil, Outbox.queue_markPublished]
    exact h.queue

theorem Split.abort (h : Split o ids settled again seen fresh) :
    Split o [] settled [] (again ++ seen) fresh where
  rows := by simp [h.rows]
  unpublished := by simp [h.unpublished]
  queue := by simp [h.unpublished]

/-- The next event of the tick is one that was seen before or the first fresh one. -/
theorem Split.head (h : Split o ids settled again seen fresh) {r : OutboxRow}
    (hn : (o.queue ids).head? = some r) :
    (∃ rest, seen = r.toEvent :: rest ∧
      Split o (ids ++ [r.id]) settled (again ++ [r.toEvent]) rest fresh) ∨
    ∃ rest, seen = [] ∧ fresh = r.toEvent :: rest ∧
      Split o (ids ++ [r.id]) settled (again ++ [r.toEvent]) [] rest := by
  obtain ⟨tail, htail⟩ := List.head?_eq_some_iff.mp hn
  have hqueue := h.queue
  have hnext := Outbox.queue_deliver htail
  rw [htail, List.map_cons] at hqueue
  cases seen with
  | cons ev rest =>
    obtain ⟨hev, hrest⟩ := List.cons.inj hqueue
    subst hev
    refine Or.inl ⟨rest, rfl, ?_, ?_, ?_⟩
    · simpa using h.rows
    · simpa using h.unpublished
    · rw [hnext, hrest]
      rfl
  | nil =>
    rw [List.nil_append] at hqueue
    cases fresh with
    | nil => cases hqueue
    | cons ev rest =>
      obtain ⟨hev, hrest⟩ := List.cons.inj hqueue
      subst hev
      refine Or.inr ⟨rest, rfl, rfl, ?_, ?_, ?_⟩
      · simpa using h.rows
      · simpa using h.unpublished
      · rw [hnext, hrest]
        rfl

end Split

/-- The catalog has to read `seen` again to be where one pass is that stops before `fresh`. -/
structure Cursor (attributes : Table Attribute String Attribute.id) (concatOrder : ConcatOrder)
    (s : Shop) (ids : List Nat) (settled again seen fresh : List DomainEvent) : Prop where
  split : Split s.product.outbox ids settled again seen fresh
  reads : Reads attributes s.catalog (settled ++ again) seen
  once : Reads attributes (deliverOnce (.initial attributes concatOrder) (settled ++ again ++ seen))
    (settled ++ again ++ seen) []
  lawful : ∀ id, CellOp.Lawful (CellOp.run none (rowLog id settled)).isSome
    (rowLog id (again ++ (seen ++ fresh)))
  present : ∀ id, (CellOp.run (CellOp.run none (rowLog id settled))
    (rowLog id (again ++ (seen ++ fresh)))).isSome = (s.product.products.find? id).isSome

structure Redelivering (attributes : Table Attribute String Attribute.id)
    (concatOrder : ConcatOrder) (s : Shop) (ids : List Nat) : Prop where
  cursor : ∃ settled again seen fresh, Cursor attributes concatOrder s ids settled again seen fresh
  attempts : ∀ r ∈ s.product.outbox.rows, r.attempts < maxDispatchAttempts

section Redelivering
variable {attributes : Table Attribute String Attribute.id} {concatOrder : ConcatOrder}
  {s s' : Shop} {ids : List Nat}

theorem redelivering_initial :
    Redelivering attributes concatOrder (.initial attributes concatOrder) [] where
  cursor := ⟨[], [], [], [], ⟨rfl, rfl, rfl⟩, reads_initial, reads_initial,
    fun _ => trivial, fun _ => rfl⟩
  attempts := by simp [Shop.initial, ProductDb.empty]

theorem Redelivering.commit (hc : Commit scenario s s') (hb : Bounded s ids)
    (h : Redelivering attributes concatOrder s ids) : Redelivering attributes concatOrder s' ids := by
  cases hc with
  | @call c now clock db hcall hrun =>
    obtain ⟨ev, hchange, ho⟩ := Call.run_commits hrun
    obtain ⟨settled, again, seen, fresh, hcur⟩ := h.cursor
    have hentry := fun id => entry_follows hcall hchange id
      (congrArg (rowLog id) hcur.split.unpublished.symm) (hcur.present id)
    cases ev with
    | none =>
      have hsame : db.outbox = s.product.outbox := ho
      refine ⟨⟨settled, again, seen, fresh, ?_, hcur.reads, hcur.once, hcur.lawful, ?_⟩, ?_⟩
      · simp only [hsame]
        exact hcur.split
      · exact fun id => (hentry id).2
      · simp only [hsame]
        exact h.attempts
    | some e =>
      have hsame : db.outbox = s.product.outbox.enqueue e clock := ho
      have hlog : ∀ id, rowLog id (again ++ (seen ++
          (fresh ++ [(s.product.outbox.newRow e clock).toEvent]))) =
            rowLog id (again ++ (seen ++ fresh)) ++ (entry id (some e)).toList := by
        intro id
        rw [← List.append_assoc seen, ← List.append_assoc again, rowLog_append _ (again ++ _),
          rowLog_cons]
        exact congrArg _ (List.append_nil _)
      refine ⟨⟨settled, again, seen, fresh ++ [(s.product.outbox.newRow e clock).toEvent], ?_,
        hcur.reads, hcur.once, fun id => ?_, fun id => ?_⟩, ?_⟩
      · simp only [hsame]
        exact hcur.split.enqueue hb e clock
      · rw [hlog]
        cases hop : entry id (some e) with
        | none => simpa using hcur.lawful id
        | some op => exact CellOp.lawful_concat (hcur.lawful id) ((hentry id).1 op hop)
      · rw [hlog, CellOp.run_append]
        exact (hentry id).2
      · intro r hr
        simp only [hsame, Outbox.rows_enqueue] at hr
        rcases List.mem_append.mp hr with hr | hr
        · exact h.attempts r hr
        · rw [List.mem_singleton.mp hr]
          exact (by decide : 0 < maxDispatchAttempts)

theorem Redelivering.deliver {r : OutboxRow} {db : CatalogDb} (hn : Next s ids r)
    (hfits : r.toEvent.meaning.Fits s.catalog.projection)
    (happly : r.toEvent.meaning.apply s.catalog = .ok db)
    (h : Redelivering attributes concatOrder s ids) :
    Redelivering attributes concatOrder { s with catalog := db } (ids ++ [r.id]) := by
  obtain ⟨settled, again, seen, fresh, hcur⟩ := h.cursor
  have hlawful := hcur.lawful
  have hpresent := hcur.present
  rcases hcur.split.head hn with ⟨rest, rfl, hnext⟩ | ⟨rest, rfl, rfl, hnext⟩
  · -- delivered once more: the pass over everything seen stays the same
    refine ⟨⟨settled, again ++ [r.toEvent], rest, fresh, hnext, ?_, ?_, ?_, ?_⟩, h.attempts⟩
    · simpa using hcur.reads.next hfits happly
    · simpa using hcur.once
    · simpa using hlawful
    · simpa using hpresent
  · -- delivered for the first time, in a catalog that has caught up
    have honce := hcur.once
    simp only [List.append_nil] at honce
    have hfits' := ProductEvent.fits_congr (hcur.reads.find?_eq honce) hfits
    obtain ⟨db', happly'⟩ := ProductEvent.apply_ok hfits'
    refine ⟨⟨settled, again ++ [r.toEvent], [], rest, hnext, ?_, ?_, ?_, ?_⟩, h.attempts⟩
    · simpa using hcur.reads.fresh hfits happly
    · have hlater := honce.fresh hfits' happly'
      rw [← deliver_of_apply happly', ← deliverOnce_concat] at hlater
      simpa using hlater
    · simpa using hlawful
    · simpa using hpresent

theorem Redelivering.fail {r : OutboxRow} (hr : scenario.catalogFails r ∨
    ∃ e, r.toEvent.meaning.apply s.catalog = .error e)
    (hfits : r.toEvent.meaning.Fits s.catalog.projection) (hmem : r ∈ s.product.outbox.rows)
    (error : String) (h : Redelivering attributes concatOrder s ids) :
    Redelivering attributes concatOrder
      (s.setOutbox (s.product.outbox.update (Outbox.fail r.id error) (Outbox.fail_id _ _))) ids := by
  obtain ⟨settled, again, seen, fresh, hcur⟩ := h.cursor
  have hbound : r.attempts + 1 < maxDispatchAttempts := by
    rcases hr with hr | ⟨e, he⟩
    · exact hr
    · obtain ⟨db, hok⟩ := ProductEvent.apply_ok hfits
      rw [hok] at he
      cases he
  refine ⟨⟨settled, again, seen, fresh, hcur.split.fail _ _, hcur.reads, hcur.once, hcur.lawful,
    hcur.present⟩, ?_⟩
  intro q hq
  rw [Shop.setOutbox_outbox, Outbox.rows_update] at hq
  obtain ⟨p, hp, rfl⟩ := List.mem_map.mp hq
  unfold Outbox.fail
  split
  · rename_i hid
    rw [s.product.outbox.eq_of_id_eq hp hmem hid]
    exact hbound
  · exact h.attempts p hp

theorem Redelivering.mark (now : Int64) (h : Redelivering attributes concatOrder s ids) :
    Redelivering attributes concatOrder (s.setOutbox (s.product.outbox.markPublished ids now)) [] := by
  obtain ⟨settled, again, seen, fresh, hcur⟩ := h.cursor
  refine ⟨⟨settled ++ again, [], seen, fresh, hcur.split.mark now, ?_, ?_, fun id => ?_,
    fun id => ?_⟩, ?_⟩
  · simpa using hcur.reads
  · simpa using hcur.once
  · have hl := hcur.lawful id
    rw [rowLog_append] at hl
    rw [rowLog_append, CellOp.run_append]
    exact (CellOp.lawful_append hl).2
  · have hp := hcur.present id
    rw [rowLog_append, CellOp.run_append] at hp
    rw [rowLog_append, CellOp.run_append]
    exact hp
  · intro q hq
    rw [Shop.setOutbox_outbox, Outbox.markPublished_eq, Outbox.rows_update] at hq
    obtain ⟨p, hp, rfl⟩ := List.mem_map.mp hq
    rw [Outbox.publishAll_attempts]
    exact h.attempts p hp

theorem Redelivering.abort (h : Redelivering attributes concatOrder s ids) :
    Redelivering attributes concatOrder s [] := by
  obtain ⟨settled, again, seen, fresh, hcur⟩ := h.cursor
  have hlawful : ∀ id, CellOp.Lawful (CellOp.run none (rowLog id settled)).isSome
      (rowLog id (again ++ seen)) := by
    intro id
    have hl := hcur.lawful id
    rw [← List.append_assoc, rowLog_append] at hl
    exact (CellOp.lawful_append hl).1
  refine ⟨⟨settled, [], again ++ seen, fresh, hcur.split.abort, ?_, ?_, ?_, ?_⟩, h.attempts⟩
  · simpa using hcur.reads.back hlawful
  · simpa using hcur.once
  · simpa using hcur.lawful
  · simpa using hcur.present

theorem redelivering_invariant : Invariant scenario (Redelivering attributes concatOrder) where
  commit := fun hc hb h => h.commit hc hb
  deliver := fun hn hfits happly h => h.deliver hn hfits happly
  fail := by
    intro s ids r hn hfits hbad error h
    have hmem := (Outbox.mem_queue.mp (List.mem_of_head? hn)).1.1
    exact h.fail hbad.symm hfits hmem error
  dead := by
    intro s ids r hn hmax now h
    have hmem := (Outbox.mem_queue.mp (List.mem_of_head? hn)).1.1
    exact absurd (h.attempts r hmem) (Nat.not_lt.mpr hmax)
  mark := fun now h => h.mark now
  abort := fun _ {_ _} h => h.abort

end Redelivering

/-- However often a prefix of the unpublished events is delivered again, the projection
ends with the contents that one delivery of each event gives. -/
theorem redelivery_harmless {attributes : Table Attribute String Attribute.id}
    {concatOrder : ConcatOrder} {c : ShopConfig}
    (h : (system scenario).Reachable ⟨.initial attributes concatOrder, []⟩ c) (hd : c.state.Drained) :
    SameContents c.state.catalog (deliverOnce (.initial attributes concatOrder)
      (c.state.product.outbox.rows.map OutboxRow.toEvent)) := by
  obtain ⟨ids, hs⟩ := redelivering_invariant.of_reachable h redelivering_initial
  obtain ⟨settled, again, seen, fresh, hcur⟩ := hs.cursor
  have hnone := hcur.split.unpublished
  have hreads := hcur.reads
  have honce := hcur.once
  rw [show c.state.product.outbox.unpublished = [] from hd] at hnone
  obtain ⟨hagain, hrest⟩ := List.append_eq_nil_iff.mp hnone.symm
  obtain ⟨hseen, hfresh⟩ := List.append_eq_nil_iff.mp hrest
  subst hagain hseen hfresh
  rw [hcur.split.rows]
  simp only [List.append_nil] at hreads honce ⊢
  exact hreads.sameContents honce

section Sample

def checks : Checks scenario where
  call := fun db call => decide (StrayFree db call)
  deliver := fun db ev => decide (ev.meaning.Fits db.projection)
  cut := true
  call_sound := fun db call h => of_decide_eq_true (p := StrayFree db call) h
  deliver_sound := fun db ev h => of_decide_eq_true (p := ev.meaning.Fits db.projection) h
  cut_sound := fun _ => trivial

/-- A tick is cut twice before the mark, and the product is deleted and created again. -/
def script : List Move :=
  [.call (.createProduct (product "a" "s" "one")),
    .call (.updateProduct "a" "new" "two" "" 200 "UAH"), .call (.deleteProduct "a"),
    .tick, .next, .next, .next, .leave, .call (.createProduct (product "a" "s" "one")),
    .tick, .next, .next, .next, .next, .next, .leave,
    .tick, .next, .next, .next, .next, .next, .next]

theorem redelivery_harmless_script :
    let c := play checks script ⟨.initial ∅, []⟩
    c.state.catalog.projection.rows.map (fun r => (r.id, r.slug)) = [("a", "one")] ∧
      c.state.product.outbox.rows.length = 4 ∧
      SameContents c.state.catalog (deliverOnce (.initial ∅)
        (c.state.product.outbox.rows.map OutboxRow.toEvent)) :=
  ⟨by rfl, by rfl, redelivery_harmless (reachable_play checks script _) (by rfl)⟩

/-- Any calls, and nothing goes wrong but that a tick is cut. -/
def anyCalls : Scenario where
  call := fun _ _ => True
  deliver := fun _ _ => True
  cut := True
  stepFails := False
  catalogFails := fun _ => False

def anyChecks : Checks anyCalls where
  call := fun _ _ => true
  deliver := fun _ _ => true
  cut := true
  call_sound := fun _ _ _ => trivial
  deliver_sound := fun _ _ _ => trivial
  cut_sound := fun _ => trivial

/-- A product is updated before it is created, and the tick that delivers both is cut. -/
def strayScript : List Move :=
  [.call (.updateProduct "a" "new" "two" "" 200 "UAH"),
    .call (.createProduct (product "a" "s" "one")),
    .tick, .next, .next, .next, .leave, .tick, .next, .next, .next, .next]

theorem redelivery_harms_strayScript :
    let c := play anyChecks strayScript ⟨.initial ∅, []⟩
    (system anyCalls).Reachable ⟨.initial ∅, []⟩ c ∧ c.state.Drained ∧
      ¬SameContents c.state.catalog (deliverOnce (.initial ∅)
        (c.state.product.outbox.rows.map OutboxRow.toEvent)) := by
  refine ⟨reachable_play _ strayScript _, by rfl, fun h => ?_⟩
  have htitles := h.projection.map ProjectionRow.title
  revert htitles
  decide

def update (id title slug : String) : Move :=
  .call (.updateProduct id title slug "" 100 "UAH")

def wholeTick : List Move := .tick :: (List.replicate 9 .next ++ [.leave])

/-- Slugs change hands and every update finds its slug free. The tick that delivers all of
it is cut, and on the second pass two updates find their slugs taken until they are given up. -/
def swapScript : List Move :=
  [.call (.createProduct (product "a" "s" "one")),
    .call (.createProduct (product "b" "s" "two"))] ++ wholeTick ++
  [update "a" "first" "three", update "b" "title" "one", update "b" "title" "four",
    update "a" "last" "one", update "b" "title" "five",
    .call (.createProduct (product "c" "s" "four")),
    .tick, .next, .next, .next, .next, .next, .next, .next, .leave] ++
  (List.replicate 20 wholeTick).flatten

theorem redelivery_harms_swapScript :
    let c := play anyChecks swapScript ⟨.initial ∅, []⟩
    (system anyCalls).Reachable ⟨.initial ∅, []⟩ c ∧ c.state.Drained ∧
      ¬SameContents c.state.catalog (deliverOnce (.initial ∅)
        (c.state.product.outbox.rows.map OutboxRow.toEvent)) := by
  refine ⟨reachable_play _ swapScript _, List.isEmpty_iff.mp (by decide +kernel), fun h => ?_⟩
  have htitles := h.projection.map ProjectionRow.title
  revert htitles
  decide +kernel

end Sample

end TinyShop.Redelivery
