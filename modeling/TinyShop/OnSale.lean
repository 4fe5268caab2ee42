import TinyShop.Pipeline
import TinyShop.Search

/-!
# Nothing unpublished stays on sale

Ticks may be cut anywhere and every database step may fail; only an event that
carries a status is not buried because of the catalog database. A row that is
shown without being published has an event in the queue that takes it back.
-/

namespace TinyShop.OnSale

open Base Relay Pipeline ProductRepo
set_option autoImplicit false

/-- The event takes the product off sale. -/
def Retracts (e : ProductEvent) (id : String) : Prop :=
  e = .deleted id ∨ ∃ status ts, e = .statusChanged id status ts ∧ status ≠ "published"

/-- The event puts the product on sale. -/
def Publishes (e : ProductEvent) (id : String) : Prop :=
  (∃ row, e = .created row ∧ row.id = id ∧ row.status = "published") ∨
    ∃ ts, e = .statusChanged id "published" ts

def CarriesStatus (e : ProductEvent) : Prop :=
  ∃ id, e = .deleted id ∨ ∃ status ts, e = .statusChanged id status ts

theorem Retracts.carriesStatus {e : ProductEvent} {id : String} (h : Retracts e id) :
    CarriesStatus e := by
  rcases h with h | ⟨status, ts, h, _⟩
  · exact ⟨id, Or.inl h⟩
  · exact ⟨id, Or.inr ⟨status, ts, h⟩⟩

def scenario : Scenario where
  call := fun _ _ => True
  deliver := fun _ _ => True
  cut := True
  stepFails := True
  catalogFails := fun r => CarriesStatus r.toEvent.meaning → r.attempts + 1 < maxDispatchAttempts

section Catalog
open CatalogProjection

theorem apply_of_carriesStatus {db : CatalogDb} {e : ProductEvent} (h : CarriesStatus e)
    {err : SqlxError} : e.apply db ≠ .error err := by
  obtain ⟨id, rfl | ⟨status, ts, rfl⟩⟩ := h <;> simp [ProductEvent.apply]

/-- A row is shown after an event because the event publishes it, or it was shown before. -/
theorem shown_of_apply {db db' : CatalogDb} {e : ProductEvent} (h : e.apply db = .ok db')
    {row : ProjectionRow} (hrow : row ∈ db'.projection.rows) (hs : row.status = "published") :
    Publishes e row.id ∨ ¬Retracts e row.id ∧
      ∃ old ∈ db.projection.rows, old.id = row.id ∧ old.status = "published" := by
  cases e with
  | created new =>
    obtain rfl := Except.ok.inj h
    simp only [upsertFts_projection] at hrow
    cases hins : db.projection.insert? new with
    | none =>
      rw [hins, Option.getD_none] at hrow
      exact Or.inr ⟨by simp [Retracts], row, hrow, rfl, hs⟩
    | some t =>
      rw [hins, Option.getD_some, (IndexedTable.insert?_eq_some hins).2.2] at hrow
      rcases List.mem_append.mp hrow with hrow | hrow
      · exact Or.inr ⟨by simp [Retracts], row, hrow, rfl, hs⟩
      · rw [List.mem_singleton] at hrow
        exact Or.inl (Or.inl ⟨new, rfl, hrow ▸ rfl, hrow ▸ hs⟩)
  | attributeSet id attributeId valText valNum =>
    obtain rfl := Except.ok.inj h
    rw [upsertFts_projection] at hrow
    exact Or.inr ⟨by simp [Retracts], row, hrow, rfl, hs⟩
  | attributeCleared id attributeId =>
    obtain rfl := Except.ok.inj h
    rw [upsertFts_projection] at hrow
    exact Or.inr ⟨by simp [Retracts], row, hrow, rfl, hs⟩
  | core id title slug description priceMinor currency updatedAt =>
    simp only [ProductEvent.apply] at h
    split at h
    · cases h
    · rename_i t hupd
      obtain rfl := Except.ok.inj h
      rw [upsertFts_projection, (IndexedTable.update?_eq_some_iff.mp hupd).2] at hrow
      obtain ⟨old, hold, rfl⟩ := Table.mem_update.mp hrow
      refine Or.inr ⟨by simp [Retracts], old, hold, ?_, ?_⟩
      · split <;> rfl
      · split at hs <;> exact hs
  | touched id updatedAt =>
    cases updatedAt with
    | none =>
      obtain rfl := Except.ok.inj h
      exact Or.inr ⟨by simp [Retracts], row, hrow, rfl, hs⟩
    | some ts =>
      obtain rfl := Except.ok.inj h
      simp only [IndexedTable.mem_patch] at hrow
      obtain ⟨old, hold, rfl⟩ := hrow
      refine Or.inr ⟨by simp [Retracts], old, hold, ?_, ?_⟩
      · split <;> rfl
      · split at hs <;> exact hs
  | statusChanged id status ts =>
    obtain rfl := Except.ok.inj h
    simp only [IndexedTable.mem_patch] at hrow
    obtain ⟨old, hold, rfl⟩ := hrow
    by_cases hid : old.id = id
    · simp only [hid, decide_true, if_true] at hs ⊢
      subst hs
      exact Or.inl (Or.inr ⟨ts, rfl⟩)
    · simp only [hid, decide_false, if_false, Bool.false_eq_true] at hs ⊢
      refine Or.inr ⟨?_, old, hold, rfl, hs⟩
      simp [Retracts, Ne.symm hid]
  | deleted id =>
    obtain rfl := Except.ok.inj h
    obtain ⟨hold, hid⟩ := Table.mem_delete.mp hrow
    have hid : row.id ≠ id := by simpa using hid
    refine Or.inr ⟨?_, row, hold, rfl, hs⟩
    simp [Retracts, Ne.symm hid]
  | other =>
    obtain rfl := Except.ok.inj h
    exact Or.inr ⟨by simp [Retracts], row, hrow, rfl, hs⟩

end Catalog

section Product

/-- `products.status` is `published`. -/
def Published (t : Products) (id : String) : Prop :=
  ∃ p, t.find? id = some p ∧ p.status = .published

theorem statusTransitionEvent_of_published {new : ProductStatus} (h : new ≠ .published) :
    ∃ ty, statusTransitionEvent .published new = some ty := by
  cases new with
  | published => exact absurd rfl h
  | draft => exact ⟨_, rfl⟩
  | archived => exact ⟨_, rfl⟩

/-- A change that takes a product off sale writes the event that says so. -/
theorem change_published {t u : Products} {call : Call} {ev : Option NewEvent}
    (h : Change t call u ev) {id : String} (hp : Published t id) :
    Published u id ∨ ∃ e, ev = some e ∧ Retracts e.meaning id := by
  obtain ⟨p, hfind, hstatus⟩ := hp
  cases h with
  | created q hins =>
    refine Or.inl ⟨p, ?_, hstatus⟩
    have hfree := (IndexedTable.insert?_eq_some hins).1
    have hne : q.id ≠ id := by
      rintro rfl
      rw [hfree] at hfind
      cases hfind
    rw [IndexedTable.find?_insert? hins, if_neg hne, hfind]
  | core id' title slug description priceMinor currency now hupd =>
    rw [Published, IndexedTable.find?_update? hupd]
    by_cases hid : id = id'
    · exact Or.inl ⟨ProductRepo.setCore title slug description priceMinor currency now p,
        by simp [← hid, hfind], hstatus⟩
    · exact Or.inl ⟨p, by simp [hid, hfind], hstatus⟩
  | @status id' new now q hq hne =>
    by_cases hid : id' = id
    · subst hid
      rw [hfind] at hq
      obtain rfl := Option.some.inj hq
      rw [hstatus] at hne ⊢
      obtain ⟨ty, hty⟩ := statusTransitionEvent_of_published (Ne.symm hne)
      refine Or.inr ⟨_, by rw [hty]; rfl, Or.inr ⟨new.asStr, now, ?_, ?_⟩⟩
      · exact statusChanged_meaning hty id' now
      · intro hnew
        exact hne ((ProductStatus.asStr_eq_published_iff new).mp hnew).symm
    · refine Or.inl ⟨p, ?_, hstatus⟩
      rw [IndexedTable.find?_patch_key, if_neg (Ne.symm hid), hfind]
  | @deleted id' q hq =>
    by_cases hid : id' = id
    · subst hid
      exact Or.inr ⟨_, rfl, Or.inl (productDeleted_meaning id')⟩
    · refine Or.inl ⟨p, ?_, hstatus⟩
      rw [IndexedTable.toTable_delete, Table.find?_delete_key, if_neg (Ne.symm hid), hfind]
  | attributeSet v now => exact Or.inl ⟨p, hfind, hstatus⟩
  | attributeCleared productId attributeId now => exact Or.inl ⟨p, hfind, hstatus⟩
  | touched call now hcall hr => exact Or.inl ⟨p, hfind, hstatus⟩
  | unchanged call hcall => exact Or.inl ⟨p, hfind, hstatus⟩

/-- An event that puts a product on sale is only written for a published product. -/
theorem published_of_change {t u : Products} {call : Call} {e : NewEvent}
    (h : Change t call u (some e)) {id : String} (hp : Publishes e.meaning id) : Published u id := by
  generalize hev : some e = ev at h
  cases h with
  | created q hins =>
    obtain rfl := Option.some.inj hev
    rw [productCreated_meaning] at hp
    rcases hp with ⟨row, hrow, rfl, hstatus⟩ | ⟨ts, hts⟩
    · obtain rfl := ProductEvent.created.inj hrow
      refine ⟨q, ?_, (ProductStatus.asStr_eq_published_iff _).mp hstatus⟩
      rw [IndexedTable.find?_insert? hins]
      simp [rowOf]
    · cases hts
  | core id' title slug description priceMinor currency now hupd =>
    obtain rfl := Option.some.inj hev
    rw [coreUpdated_meaning] at hp
    simp [Publishes] at hp
  | @status id' new now q hq hne =>
    obtain ⟨ty, hty, rfl⟩ := Option.map_eq_some_iff.mp hev.symm
    rw [statusChanged_meaning hty] at hp
    rcases hp with ⟨row, hrow, _⟩ | ⟨ts, hts⟩
    · cases hrow
    · obtain ⟨rfl, hstatus, _⟩ := ProductEvent.statusChanged.inj hts
      refine ⟨ProductRepo.setStatusOf new now q, ?_,
        (ProductStatus.asStr_eq_published_iff _).mp hstatus⟩
      rw [IndexedTable.find?_patch_key, if_pos rfl, hq]
      rfl
  | @deleted id' q hq =>
    obtain rfl := Option.some.inj hev
    rw [productDeleted_meaning] at hp
    simp [Publishes] at hp
  | attributeSet v now =>
    obtain rfl := Option.some.inj hev
    rw [attributeValueSet_meaning] at hp
    simp [Publishes] at hp
  | attributeCleared productId attributeId now =>
    obtain rfl := Option.some.inj hev
    rw [attributeValueCleared_meaning] at hp
    simp [Publishes] at hp
  | touched call now hcall hr =>
    obtain rfl := Option.some.inj hev
    rw [productUpdated_meaning hr] at hp
    simp [Publishes] at hp
  | unchanged call hcall => cases hev

end Product

/-- `ids` are delivered and not yet marked. -/
structure Kept (s : Shop) (ids : List Nat) : Prop where
  retracted : ∀ r ∈ s.product.outbox.rows, ∀ id, Publishes r.toEvent.meaning id →
    Published s.product.products id ∨
      ∃ r' ∈ s.product.outbox.rows, r.id < r'.id ∧ Retracts r'.toEvent.meaning id
  shown : ∀ row ∈ s.catalog.projection.rows, row.status = "published" →
    Published s.product.products row.id ∨
      ∃ r ∈ s.product.outbox.queue ids, Retracts r.toEvent.meaning row.id
  marked : ∀ r ∈ s.product.outbox.rows, CarriesStatus r.toEvent.meaning → r.publishedAt ≠ none →
    ∀ r' ∈ s.product.outbox.rows, r'.id < r.id → r'.publishedAt ≠ none
  delivered : ∀ r ∈ s.product.outbox.rows, r.id ∈ ids → ∀ r' ∈ s.product.outbox.rows,
    r'.id < r.id → r'.publishedAt ≠ none ∨ r'.id ∈ ids
  attempts : ∀ r ∈ s.product.outbox.rows, CarriesStatus r.toEvent.meaning →
    r.attempts < maxDispatchAttempts

namespace Kept

theorem initial (attributes : Table Attribute String Attribute.id)
    (concatOrder : ConcatOrder) :
    Kept (Shop.initial attributes concatOrder) [] := by
  constructor <;> intro r hr <;>
    simp [Shop.initial, ProductDb.empty, CatalogDb.initial] at hr

theorem next_mem {s : Shop} {ids : List Nat} {r : OutboxRow} (h : Next s ids r) :
    (r ∈ s.product.outbox.rows ∧ r.publishedAt = none) ∧ r.id ∉ ids :=
  Outbox.mem_queue.mp (List.mem_of_head? h)

/-- Rows before the next one are marked or delivered. -/
theorem before_next {s : Shop} {ids : List Nat} {r : OutboxRow} (h : Next s ids r)
    {r' : OutboxRow} (hr' : r' ∈ s.product.outbox.rows) (hlt : r'.id < r.id) :
    r'.publishedAt ≠ none ∨ r'.id ∈ ids := by
  by_contra hno
  rw [not_or, not_not] at hno
  have hmem := Outbox.mem_queue.mpr ⟨⟨hr', hno.1⟩, hno.2⟩
  obtain ⟨rest, hq⟩ := List.head?_eq_some_iff.mp h
  have hsorted := s.product.outbox.queue_sorted ids
  rw [hq] at hmem hsorted
  rcases List.mem_cons.mp hmem with rfl | hmem
  · omega
  · have := List.rel_of_pairwise_cons hsorted hmem
    omega

theorem mem_queue_deliver {s : Shop} {ids : List Nat} {r q : OutboxRow}
    (hq : q ∈ s.product.outbox.queue ids) (hne : q.id ≠ r.id) :
    q ∈ s.product.outbox.queue (ids ++ [r.id]) := by
  obtain ⟨hq, hid⟩ := Outbox.mem_queue.mp hq
  refine Outbox.mem_queue.mpr ⟨hq, ?_⟩
  simp [hid, hne]

theorem commit {s s' : Shop} {ids : List Nat} (hc : Commit scenario s s') (hb : Bounded s ids)
    (h : Kept s ids) : Kept s' ids := by
  cases hc with
  | @call c now clock db hcall hrun =>
    obtain ⟨ev, hchange, ho⟩ := Call.run_commits hrun
    have hold : ∀ r ∈ s.product.outbox.rows, r.id ≤ s.product.outbox.seq :=
      s.product.outbox.bounded
    have hnew : ∀ {e : NewEvent}, (s.product.outbox.newRow e clock).id = s.product.outbox.seq + 1 :=
      rfl
    constructor
    · intro r hr id hp
      simp only [ho] at hr ⊢
      rcases mem_record.mp hr with hr₀ | ⟨e, rfl, rfl⟩
      · rcases h.retracted r hr₀ id hp with hpub | ⟨r', hr', hlt, hret⟩
        · rcases change_published hchange hpub with hpub | ⟨e, rfl, hret⟩
          · exact Or.inl hpub
          · refine Or.inr ⟨_, mem_record.mpr (Or.inr ⟨e, rfl, rfl⟩), ?_, hret⟩
            have := hold r hr₀
            rw [hnew]
            omega
        · exact Or.inr ⟨r', rows_record hr', hlt, hret⟩
      · exact Or.inl (published_of_change hchange hp)
    · intro row hrow hs
      simp only [ho]
      rcases h.shown row hrow hs with hpub | ⟨r, hr, hret⟩
      · rcases change_published hchange hpub with hpub | ⟨e, rfl, hret⟩
        · exact Or.inl hpub
        · refine Or.inr ⟨s.product.outbox.newRow e clock, ?_, hret⟩
          rw [record, Outbox.queue_enqueue hb]
          exact List.mem_append_right _ List.mem_cons_self
      · exact Or.inr ⟨r, (queue_record hb _ _).subset hr, hret⟩
    · intro r hr hst hp r' hr' hlt
      simp only [ho] at hr hr'
      rcases mem_record.mp hr with hr₀ | ⟨e, _, rfl⟩
      · rcases mem_record.mp hr' with hr₁ | ⟨e, _, rfl⟩
        · exact h.marked r hr₀ hst hp r' hr₁ hlt
        · have := hold r hr₀
          rw [hnew] at hlt
          omega
      · exact absurd rfl hp
    · intro r hr hid r' hr' hlt
      simp only [ho] at hr hr'
      rcases mem_record.mp hr' with hr₁ | ⟨e, _, rfl⟩
      · rcases mem_record.mp hr with hr₀ | ⟨e, _, rfl⟩
        · exact h.delivered r hr₀ hid r' hr₁ hlt
        · have := hb _ hid
          rw [hnew] at this
          omega
      · have := hb _ hid
        rw [hnew] at hlt
        omega
    · intro r hr hst
      simp only [ho] at hr
      rcases mem_record.mp hr with hr₀ | ⟨e, _, rfl⟩
      · exact h.attempts r hr₀ hst
      · exact (by decide : 0 < maxDispatchAttempts)

theorem deliver {s : Shop} {ids : List Nat} {r : OutboxRow} {c : CatalogDb} (hn : Next s ids r)
    (hc : r.toEvent.meaning.apply s.catalog = .ok c) (h : Kept s ids) :
    Kept { s with catalog := c } (ids ++ [r.id]) := by
  obtain ⟨⟨hr, hunpub⟩, hnot⟩ := next_mem hn
  refine ⟨h.retracted, fun row hrow hs => ?_, h.marked, fun q hq hid r' hr' hlt => ?_, h.attempts⟩
  · rcases shown_of_apply hc hrow hs with hpub | ⟨hnoret, old, hold, hid, hstatus⟩
    · rcases h.retracted r hr _ hpub with hpub | ⟨r', hr', hlt, hret⟩
      · exact Or.inl hpub
      · -- the event that takes the row back is later, so it is still to be delivered
        refine Or.inr ⟨r', mem_queue_deliver (Outbox.mem_queue.mpr ⟨⟨hr', ?_⟩, ?_⟩) (by omega), hret⟩
        · by_contra hp
          exact h.marked r' hr' hret.carriesStatus hp r hr hlt hunpub
        · intro hmem
          rcases h.delivered r' hr' hmem r hr hlt with hp | hid
          · exact hp hunpub
          · exact hnot hid
    · rcases h.shown old hold hstatus with hpub | ⟨q, hq, hret⟩
      · exact Or.inl (hid ▸ hpub)
      · rw [hid] at hret
        refine Or.inr ⟨q, mem_queue_deliver hq fun heq => ?_, hret⟩
        have hsame := s.product.outbox.eq_of_id_eq (Outbox.mem_queue.mp hq).1.1 hr heq
        exact hnoret (hsame ▸ hret)
  · rcases List.mem_append.mp hid with hid | hid
    · rcases h.delivered q hq hid r' hr' hlt with hp | hmem
      · exact Or.inl hp
      · exact Or.inr (List.mem_append_left _ hmem)
    · rw [List.mem_singleton] at hid
      rcases before_next hn hr' (hid ▸ hlt) with hp | hmem
      · exact Or.inl hp
      · exact Or.inr (List.mem_append_left _ hmem)

/-- Rows that change without losing their events. -/
theorem update {s : Shop} {ids ids' : List Nat} {f : OutboxRow → OutboxRow}
    (keeps : ∀ r, (f r).id = r.id) (hevent : ∀ r, (f r).toEvent = r.toEvent) (h : Kept s ids)
    (hqueue : ∀ q ∈ s.product.outbox.queue ids, CarriesStatus q.toEvent.meaning →
      ∃ q' ∈ (s.product.outbox.update f keeps).queue ids', q'.toEvent = q.toEvent)
    (hmarked : ∀ r ∈ s.product.outbox.rows, CarriesStatus r.toEvent.meaning →
      (f r).publishedAt ≠ none → ∀ r' ∈ s.product.outbox.rows, r'.id < r.id →
        (f r').publishedAt ≠ none)
    (hdelivered : ∀ r ∈ s.product.outbox.rows, r.id ∈ ids' → ∀ r' ∈ s.product.outbox.rows,
      r'.id < r.id → (f r').publishedAt ≠ none ∨ r'.id ∈ ids')
    (hattempts : ∀ r ∈ s.product.outbox.rows, CarriesStatus r.toEvent.meaning →
      (f r).attempts < maxDispatchAttempts) :
    Kept (s.setOutbox (s.product.outbox.update f keeps)) ids' := by
  constructor
  · intro q hq id hp
    obtain ⟨q₀, hq₀, rfl⟩ := List.mem_map.mp hq
    rw [hevent] at hp
    rcases h.retracted q₀ hq₀ id hp with hpub | ⟨r', hr', hlt, hret⟩
    · exact Or.inl hpub
    · refine Or.inr ⟨f r', List.mem_map_of_mem hr', ?_, ?_⟩
      · rw [keeps, keeps]
        exact hlt
      · rw [hevent]
        exact hret
  · intro row hrow hs
    rcases h.shown row hrow hs with hpub | ⟨q, hq, hret⟩
    · exact Or.inl hpub
    · obtain ⟨q', hq', hsame⟩ := hqueue q hq hret.carriesStatus
      exact Or.inr ⟨q', hq', hsame ▸ hret⟩
  · intro q hq hst hp r' hr' hlt
    obtain ⟨q₀, hq₀, rfl⟩ := List.mem_map.mp hq
    obtain ⟨r₀, hr₀, rfl⟩ := List.mem_map.mp hr'
    rw [hevent] at hst
    rw [keeps, keeps] at hlt
    exact hmarked q₀ hq₀ hst hp r₀ hr₀ hlt
  · intro q hq hid r' hr' hlt
    obtain ⟨q₀, hq₀, rfl⟩ := List.mem_map.mp hq
    obtain ⟨r₀, hr₀, rfl⟩ := List.mem_map.mp hr'
    rw [keeps] at hid ⊢
    rw [keeps, keeps] at hlt
    exact hdelivered q₀ hq₀ hid r₀ hr₀ hlt
  · intro q hq hst
    obtain ⟨q₀, hq₀, rfl⟩ := List.mem_map.mp hq
    rw [hevent] at hst
    exact hattempts q₀ hq₀ hst

theorem fail {s : Shop} {ids : List Nat} {r : OutboxRow}
    (hbad : (∃ e, r.toEvent.meaning.apply s.catalog = .error e) ∨ scenario.catalogFails r)
    (hn : Next s ids r) (error : String) (h : Kept s ids) :
    Kept (s.setOutbox (s.product.outbox.update (Outbox.fail r.id error) (Outbox.fail_id _ _))) ids := by
  obtain ⟨⟨hr, _⟩, _⟩ := next_mem hn
  refine h.update (Outbox.fail_id _ _) (Outbox.fail_toEvent _ _) ?_ ?_ ?_ ?_
  · intro q hq _
    refine ⟨Outbox.fail r.id error q, ?_, Outbox.fail_toEvent _ _ q⟩
    rw [Outbox.queue_fail]
    exact List.mem_map_of_mem hq
  · simp only [Outbox.fail_publishedAt]
    exact h.marked
  · simp only [Outbox.fail_publishedAt]
    exact h.delivered
  · intro q hq hst
    unfold Outbox.fail
    split
    · rename_i hid
      have hsame := s.product.outbox.eq_of_id_eq hq hr hid
      subst hsame
      rcases hbad with ⟨e, he⟩ | hfails
      · exact absurd he (apply_of_carriesStatus hst)
      · exact hfails hst
    · exact h.attempts q hq hst

/-- Marking rows keeps the invariant when everything before them is settled. -/
theorem publish {s : Shop} {ids ids' marks : List Nat} (now : Int64) (h : Kept s ids)
    (hqueue : ∀ q ∈ s.product.outbox.queue ids, CarriesStatus q.toEvent.meaning →
      q ∈ (s.product.outbox.markPublished marks now).queue ids')
    (hmarks : ∀ r ∈ s.product.outbox.rows, CarriesStatus r.toEvent.meaning → r.id ∈ marks →
      ∀ r' ∈ s.product.outbox.rows, r'.id < r.id → r'.publishedAt ≠ none ∨ r'.id ∈ marks)
    (hids : ∀ i ∈ ids', i ∈ ids) (hsub : ∀ i ∈ ids, i ∈ ids' ∨ i ∈ marks) :
    Kept (s.setOutbox (s.product.outbox.markPublished marks now)) ids' := by
  have hpub : ∀ r : OutboxRow, (Outbox.publishAll now marks r).publishedAt ≠ none ↔
      r.publishedAt ≠ none ∨ r.id ∈ marks := by
    intro r
    unfold Outbox.publishAll
    split <;> simp_all
  rw [Outbox.markPublished_eq] at hqueue ⊢
  refine h.update _ (Outbox.publishAll_toEvent now marks) (fun q hq hst => ?_) ?_ ?_ ?_
  · exact ⟨q, hqueue q hq hst, rfl⟩
  · intro r hr hst hp r' hr' hlt
    rw [hpub] at hp ⊢
    rcases hp with hp | hmem
    · exact Or.inl (h.marked r hr hst hp r' hr' hlt)
    · exact hmarks r hr hst hmem r' hr' hlt
  · intro r hr hid r' hr' hlt
    rw [hpub]
    rcases h.delivered r hr (hids _ hid) r' hr' hlt with hp | hmem
    · exact Or.inl (Or.inl hp)
    · rcases hsub _ hmem with hmem | hmem
      · exact Or.inr hmem
      · exact Or.inl (Or.inr hmem)
  · intro r hr hst
    rw [Outbox.publishAll_attempts]
    exact h.attempts r hr hst

end Kept

theorem kept_invariant : Invariant scenario Kept where
  commit := fun hc hb h => h.commit hc hb
  deliver := fun hn _ hc h => h.deliver hn hc
  fail := fun hn _ hbad error h => h.fail hbad hn error
  dead := by
    intro s ids r hn hmax now h
    obtain ⟨⟨hr, _⟩, hnot⟩ := Kept.next_mem hn
    have hplain : ¬CarriesStatus r.toEvent.meaning := by
      intro hst
      have := h.attempts r hr hst
      omega
    obtain ⟨rest, hq⟩ := List.head?_eq_some_iff.mp hn
    refine h.publish now (fun q hmem hst => ?_) (fun q hq hst hid => ?_) (fun _ hi => hi)
      (fun _ hi => Or.inl hi)
    · rw [Outbox.queue_markPublished_head hq]
      rw [hq] at hmem
      rcases List.mem_cons.mp hmem with rfl | hmem
      · exact absurd hst hplain
      · exact hmem
    · have hsame := s.product.outbox.eq_of_id_eq hq hr (List.mem_singleton.mp hid)
      exact absurd (hsame ▸ hst) hplain
  mark := by
    intro s ids now h
    refine h.publish now (fun q hq _ => ?_) (fun q hq _ hid => h.delivered q hq hid) (by simp)
      (fun _ hi => Or.inr hi)
    rw [Outbox.queue_nil, Outbox.queue_markPublished]
    exact hq
  abort := by
    intro _ s ids h
    refine ⟨h.retracted, fun row hrow hs => ?_, h.marked, by simp, h.attempts⟩
    rcases h.shown row hrow hs with hpub | ⟨q, hq, hret⟩
    · exact Or.inl hpub
    · refine Or.inr ⟨q, ?_, hret⟩
      rw [Outbox.queue_nil]
      exact List.mem_of_mem_filter hq

/-- When no event is unpublished, only published products are shown. -/
theorem shown_of_drained {attributes : Table Attribute String Attribute.id}
    {concatOrder : ConcatOrder} {c : ShopConfig}
    (h : (system scenario).Reachable ⟨.initial attributes concatOrder, []⟩ c) (hd : c.state.Drained) :
    ∀ row ∈ c.state.catalog.projection.rows, row.status = "published" →
      Published c.state.product.products row.id := by
  obtain ⟨ids, hkept⟩ := kept_invariant.of_reachable h (Kept.initial attributes concatOrder)
  intro row hrow hs
  rcases hkept.shown row hrow hs with hpub | ⟨r, hr, _⟩
  · exact hpub
  · have hmem := List.mem_of_mem_filter hr
    rw [hd] at hmem
    cases hmem

/-- Once the relay has drained, neither the projection nor any reader of it shows a
product that is not published. -/
theorem no_unpublished_on_sale {attributes : Table Attribute String Attribute.id}
    {concatOrder : ConcatOrder} {c : ShopConfig}
    (h : (system scenario).Reachable ⟨.initial attributes concatOrder, []⟩ c) (hd : c.state.Drained) :
    (∀ row ∈ c.state.catalog.projection.rows, row.status = "published" →
      Published c.state.product.products row.id) ∧
    (∀ id view, SqliteCatalogSearch.getCardById c.state.catalog id = some view →
      Published c.state.product.products id) ∧
    (∀ slug view, SqliteCatalogSearch.getCardBySlug c.state.catalog slug = some view →
      Published c.state.product.products view.id) ∧
    (∀ env query result, SqliteCatalogSearch.search c.state.catalog env query = .ok result →
      ∀ card ∈ result.items, Published c.state.product.products card.productId) := by
  have hshown := shown_of_drained h hd
  refine ⟨hshown, fun id view hview => ?_, fun slug view hview => ?_, ?_⟩
  · obtain ⟨row, hrow, hs, rfl, _⟩ := SqliteCatalogSearch.getCardById_some _ hview
    exact hshown row hrow hs
  · obtain ⟨row, hrow, hs, rfl⟩ := SqliteCatalogSearch.getCardBySlug_some _ hview
    exact hshown row hrow hs
  · intro env query result hresult card hcard
    obtain ⟨row, hrow, hs, rfl⟩ := SqliteCatalogSearch.mem_search _ hresult hcard
    exact hshown row hrow hs

section Sample

def checks : Checks scenario where
  call := fun _ _ => true
  deliver := fun _ _ => true
  cut := true
  call_sound := fun _ _ _ => trivial
  deliver_sound := fun _ _ _ => trivial
  cut_sound := fun _ => trivial

/-- One product stays on sale, the other one is archived; the first tick is cut before
it marks anything. -/
def script : List Move :=
  [.call (.createProduct (product "a" "s" "one")), .call (.setStatus "a" .published),
    .call (.createProduct (product "b" "s" "two")), .call (.setStatus "b" .published),
    .call (.setStatus "b" .archived),
    .tick, .next, .next, .next, .leave,
    .tick, .next, .next, .next, .next, .next, .next, .next]

theorem no_unpublished_on_sale_script :
    let c := play checks script ⟨.initial ∅, []⟩
    c.state.Drained ∧
      c.state.catalog.projection.rows.map (fun r => (r.id, r.status)) =
        [("a", "published"), ("b", "archived")] ∧
      ∀ row ∈ c.state.catalog.projection.rows, row.status = "published" →
        Published c.state.product.products row.id :=
  ⟨by rfl, by rfl, (no_unpublished_on_sale (reachable_play checks script _) (by rfl)).1⟩

end Sample

end TinyShop.OnSale
