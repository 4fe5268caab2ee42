import TinyShop.ProductHistory

/-!
# Events about products that are not there

A write operation on a product that does not exist should leave no event. Some
operations look at the row, some are held back by a foreign key, and six write their
event in any case. A history is free of such events exactly if none of the six was
committed for a product that was missing.
-/

namespace TinyShop

open Base
set_option autoImplicit false

namespace PhantomEvents
open ProductRepo ProductHistory

/-- The operations that write their event without a look at the product. -/
def unguarded : Call → Bool
  | .updateProduct _ _ _ _ _ _ => true
  | .updateVariant _ => true
  | .removeVariant _ _ => true
  | .removeMedia _ _ => true
  | .clearAttributeValue _ _ => true
  | .setTranslation _ _ _ _ _ _ => true
  | _ => false

/-- An operation on a product that is not there writes no event. -/
def NoPhantom (log : List Entry) : Prop :=
  ∀ e ∈ log, ∀ c, e.call = .call c → (∀ p, c ≠ .createProduct p) →
    ¬e.before.HasProduct c.productId → e.after.outbox = e.before.outbox

/-- Each event of the outbox was written by an entry around which its product was there. -/
def AllRecorded (log : List Entry) (db : ProductDb) : Prop :=
  ∀ r ∈ db.outbox.rows, ∃ e ∈ log, ∃ r₀,
    e.after.outbox.rows = e.before.outbox.rows ++ [r₀] ∧ r₀.toEvent = r.toEvent ∧
      (e.before.HasProduct r.aggregateId ∨ e.after.HasProduct r.aggregateId)

/-- The row says that the product was created. -/
def Creates (id : String) (r : OutboxRow) : Prop :=
  r.eventType = "ProductCreated" ∧ r.aggregateId = id

/-- An update of a product comes after its creation. -/
def CreatedFirst (rows : List OutboxRow) : Prop :=
  ∀ u r v, rows = u ++ r :: v → r.eventType = "ProductUpdated" → ∃ s ∈ u, Creates r.aggregateId s

/-- No unguarded operation was committed for a product that was missing. -/
def Careful (log : List Entry) : Prop :=
  ∀ e ∈ log, ∀ c, e.call = .call c → e.answer = .ok () → unguarded c = true →
    e.before.HasProduct c.productId

section Calls
variable {db db' : ProductDb} {now clock : Int64} {call : Call}

/-- An unguarded operation always writes an event. -/
theorem outbox_of_unguarded (hcall : unguarded call = true)
    (h : call.run db now clock = .ok db') : db'.outbox ≠ db.outbox := by
  have hrow : ∃ ev, db'.outbox = db.outbox.enqueue ev clock := by
    cases call with
    | updateProduct id title slug description priceMinor currency =>
      obtain ⟨products, _, rfl⟩ := updateProduct_ok h
      exact ⟨_, rfl⟩
    | updateVariant v =>
      cases h
      exact ⟨_, rfl⟩
    | removeVariant productId variantId =>
      cases h
      exact ⟨_, rfl⟩
    | removeMedia productId mediaId =>
      cases h
      exact ⟨_, rfl⟩
    | clearAttributeValue productId attributeId =>
      cases h
      exact ⟨_, rfl⟩
    | setTranslation productId entityType entityId lang field value =>
      obtain ⟨_, rfl⟩ := setTranslation_ok h
      exact ⟨_, rfl⟩
    | _ => cases hcall
  obtain ⟨ev, hrow⟩ := hrow
  intro hsame
  have hseq := congrArg Outbox.seq (hrow.symm.trans hsame)
  exact Nat.succ_ne_self _ hseq

/-- Where the product is missing, the other operations fail or do nothing. -/
theorem outbox_of_guarded (hkeys : ForeignKeys db) (hcall : unguarded call = false)
    (hcreate : ∀ p, call ≠ .createProduct p) (h : call.run db now clock = .ok db')
    (hmissing : ¬db.HasProduct call.productId) : db'.outbox = db.outbox := by
  cases call with
  | createProduct p => exact absurd rfl (hcreate p)
  | setStatus id new =>
    rcases setStatus_ok h with rfl | ⟨p, hfind, _⟩
    · rfl
    · exact absurd (Option.isSome_of_eq_some hfind) hmissing
  | deleteProduct id =>
    rcases deleteProduct_ok h with ⟨hhas, _⟩ | ⟨_, rfl⟩
    · exact absurd hhas hmissing
    · rfl
  | upsertDigitalConfig c =>
    exact absurd ((there_of_upsertDigitalConfig h).elim (hkeys _) id) hmissing
  | addVariant v => exact absurd (hasProduct_of_addVariant h) hmissing
  | addMedia m => exact absurd (hasProduct_of_addMedia h) hmissing
  | setAttributeValue v =>
    exact absurd ((there_of_setAttributeValue h).elim (hkeys _) id) hmissing
  | _ => cases hcall

theorem aggregateId_of_change {t u : Products} {ev : NewEvent} (h : Change t call u (some ev)) :
    ev.aggregateId = call.productId := by
  generalize hsome : some ev = o at h
  cases h with
  | status id new now hfind hne =>
    obtain ⟨ty, _, rfl⟩ := Option.map_eq_some_iff.mp hsome.symm
    rfl
  | unchanged call hslug => cases hsome
  | _ =>
    obtain rfl := Option.some.inj hsome
    rfl

theorem createProduct_writes {p : Product} (h : createProduct db p clock = .ok db') :
    ∃ ev, db'.outbox = db.outbox.enqueue ev clock ∧ ev.aggregateId = p.id ∧
      ev.eventType = "ProductCreated" ∧ db'.HasProduct p.id := by
  obtain ⟨products, hins, rfl⟩ := createProduct_ok h
  refine ⟨productCreated p, rfl, rfl, rfl, ?_⟩
  change (products.find? p.id).isSome
  rw [IndexedTable.find?_insert? hins, if_pos rfl]
  rfl

/-- A careful call that creates nothing writes at most one event, about a product that is there. -/
theorem careful_writes (hkeys : ForeignKeys db) (h : call.run db now clock = .ok db')
    (hcreate : ∀ p, call ≠ .createProduct p)
    (hcareful : unguarded call = true → db.HasProduct call.productId) :
    (∀ id, db'.HasProduct id → db.HasProduct id) ∧
      (db'.outbox = db.outbox ∨
        ∃ ev, db'.outbox = db.outbox.enqueue ev clock ∧ db.HasProduct ev.aggregateId) := by
  obtain ⟨ev, hchange, houtbox⟩ := Call.run_commits h
  constructor
  · intro id hid
    rcases isSome_of_change hchange hid with hold | ⟨p, hp, _⟩
    · exact hold
    · exact absurd hp (hcreate p)
  · cases ev with
    | none => exact Or.inl houtbox
    | some ev =>
      by_cases hhas : db.HasProduct call.productId
      · exact Or.inr ⟨ev, houtbox, (aggregateId_of_change hchange).symm ▸ hhas⟩
      · have hguarded : unguarded call = false := by
          cases hcall : unguarded call with
          | false => rfl
          | true => exact absurd (hcareful hcall) hhas
        exact Or.inl (outbox_of_guarded hkeys hguarded hcreate h hhas)

end Calls

section Log
variable {log : List Entry} {db : ProductDb}

/-- What holds at the end of a careful history. -/
structure Traced (log : List Entry) (db : ProductDb) : Prop where
  keys : ForeignKeys db
  recorded : AllRecorded log db
  created : ∀ id, db.HasProduct id → ∃ r ∈ db.outbox.rows, Creates id r
  first : CreatedFirst db.outbox.rows

theorem AllRecorded.mono {log' : List Entry} (h : AllRecorded log db) :
    AllRecorded (log ++ log') db := by
  intro r hr
  obtain ⟨e, he, hrest⟩ := h r hr
  exact ⟨e, List.mem_append_left _ he, hrest⟩

theorem createdFirst_concat {rows : List OutboxRow} {r : OutboxRow} (h : CreatedFirst rows)
    (hr : r.eventType = "ProductUpdated" → ∃ s ∈ rows, Creates r.aggregateId s) :
    CreatedFirst (rows ++ [r]) := by
  intro u s v heq hs
  rcases List.eq_nil_or_concat v with rfl | ⟨v', t, rfl⟩
  · obtain ⟨rfl, hlast⟩ := List.append_inj' heq rfl
    obtain rfl := List.singleton_injective hlast
    exact hr hs
  · rw [List.concat_eq_append, ← List.cons_append, ← List.append_assoc] at heq
    obtain ⟨hinit, _⟩ := List.append_inj' heq rfl
    exact h u s v' hinit hs

theorem createdFirst_map {rows : List OutboxRow} {f : OutboxRow → OutboxRow}
    (hevents : ∀ r, (f r).toEvent = r.toEvent) (h : CreatedFirst rows) :
    CreatedFirst (rows.map f) := by
  intro u s v heq hs
  obtain ⟨u', rest, rfl, rfl, hrest⟩ := List.map_eq_append_iff.mp heq
  obtain ⟨r, v', rfl, rfl, rfl⟩ := List.map_eq_cons_iff.mp hrest
  have htype : ∀ r, (f r).eventType = r.eventType := fun r =>
    congrArg DomainEvent.eventType (hevents r)
  have hid : ∀ r, (f r).aggregateId = r.aggregateId := fun r =>
    congrArg DomainEvent.aggregateId (hevents r)
  obtain ⟨t, ht, hcreates⟩ := h u' r v' rfl (htype r ▸ hs)
  exact ⟨f t, List.mem_map_of_mem ht, (htype t).trans hcreates.1,
    (hid t).trans (hcreates.2.trans (hid r).symm)⟩

/-- The relay changes no event. -/
theorem traced_relay {f : OutboxRow → OutboxRow} (keeps : ∀ r, (f r).id = r.id)
    (hevents : ∀ r, (f r).toEvent = r.toEvent) (h : Traced log db) :
    Traced log { db with outbox := db.outbox.update f keeps } where
  keys := foreignKeys_step h.keys (.relay f keeps hevents)
  recorded := by
    intro r hr
    obtain ⟨s, hs, rfl⟩ := List.mem_map.mp hr
    obtain ⟨e, he, r₀, hrows, hsame, hhas⟩ := h.recorded s hs
    have hid : (f s).aggregateId = s.aggregateId := congrArg DomainEvent.aggregateId (hevents s)
    exact ⟨e, he, r₀, hrows, hsame.trans (hevents s).symm, hid ▸ hhas⟩
  created := by
    intro id hid
    obtain ⟨r, hr, htype, haggregate⟩ := h.created id hid
    exact ⟨f r, List.mem_map_of_mem hr,
      (congrArg DomainEvent.eventType (hevents r)).trans htype,
      (congrArg DomainEvent.aggregateId (hevents r)).trans haggregate⟩
  first := createdFirst_map hevents h.first

theorem traced_create {p : Product} {db' : ProductDb} {clock : Int64} (h : Traced log db)
    (hrun : createProduct db p clock = .ok db') :
    Traced (log ++ [⟨.call (.createProduct p), .ok (), db, db'⟩]) db' := by
  obtain ⟨ev, houtbox, haggregate, htype, hhas⟩ := createProduct_writes hrun
  have hrows : db'.outbox.rows = db.outbox.rows ++ [db.outbox.newRow ev clock] := by
    rw [houtbox, Outbox.rows_enqueue]
  have hcall : (Call.createProduct p).run db 0 clock = .ok db' := hrun
  refine ⟨foreignKeys_run h.keys hcall, ?_, ?_, ?_⟩
  · intro r hr
    rw [hrows] at hr
    rcases List.mem_append.mp hr with hold | hnew
    · exact h.recorded.mono r hold
    · obtain rfl := List.mem_singleton.mp hnew
      refine ⟨_, List.mem_append_right _ (List.mem_singleton_self _), _, hrows, rfl, Or.inr ?_⟩
      change db'.HasProduct ev.aggregateId
      rw [haggregate]
      exact hhas
  · intro id hid
    rw [hrows]
    obtain ⟨_, hchange, _⟩ := Call.run_commits hcall
    rcases isSome_of_change hchange hid with hold | ⟨q, hq, hqid⟩
    · obtain ⟨r, hr, hcreates⟩ := h.created id hold
      exact ⟨r, List.mem_append_left _ hr, hcreates⟩
    · obtain rfl := Call.createProduct.inj hq
      exact ⟨_, List.mem_append_right _ (List.mem_singleton_self _), htype, haggregate.trans hqid⟩
  · rw [hrows]
    refine createdFirst_concat h.first fun hupdated => ?_
    have htypes : ev.eventType = "ProductUpdated" := hupdated
    rw [htype] at htypes
    exact absurd htypes (by decide)

theorem traced_call {c : Call} {db' : ProductDb} {now clock : Int64} (h : Traced log db)
    (hrun : c.run db now clock = .ok db') (hcreate : ∀ p, c ≠ .createProduct p)
    (hcareful : unguarded c = true → db.HasProduct c.productId) :
    Traced (log ++ [⟨.call c, .ok (), db, db'⟩]) db' := by
  obtain ⟨hproducts, hwrites⟩ := careful_writes h.keys hrun hcreate hcareful
  have hkeys := foreignKeys_run h.keys hrun
  rcases hwrites with hsame | ⟨ev, houtbox, hhas⟩
  · refine ⟨hkeys, ?_, fun id hid => hsame ▸ h.created id (hproducts id hid), hsame ▸ h.first⟩
    intro r hr
    exact h.recorded.mono r (hsame ▸ hr)
  · have hrows : db'.outbox.rows = db.outbox.rows ++ [db.outbox.newRow ev clock] := by
      rw [houtbox, Outbox.rows_enqueue]
    refine ⟨hkeys, ?_, ?_, ?_⟩
    · intro r hr
      rw [hrows] at hr
      rcases List.mem_append.mp hr with hold | hnew
      · exact h.recorded.mono r hold
      · obtain rfl := List.mem_singleton.mp hnew
        exact ⟨_, List.mem_append_right _ (List.mem_singleton_self _), _, hrows, rfl, Or.inl hhas⟩
    · intro id hid
      obtain ⟨r, hr, hcreates⟩ := h.created id (hproducts id hid)
      exact ⟨r, hrows ▸ List.mem_append_left _ hr, hcreates⟩
    · rw [hrows]
      exact createdFirst_concat h.first fun _ => h.created _ hhas

/-- A careful history is traced, by one step after the other. -/
theorem traced_log (h : CallLog Step .empty log db) (hcareful : Careful log) : Traced log db := by
  induction h with
  | nil =>
    refine ⟨foreignKeys_empty, fun r hr => ?_, fun id hid => ?_, fun u r v heq => ?_⟩
    · cases hr
    · cases hid
    · simp [ProductDb.empty] at heq
  | call hlog hstep ih =>
    have hbefore := ih fun e he => hcareful e (List.mem_append_left _ he)
    have hlast := hcareful _ (List.mem_append_right _ (List.mem_singleton_self _))
    cases hstep with
    | relay f keeps hevents =>
      have hrelay := traced_relay keeps hevents hbefore
      exact ⟨hrelay.keys, hrelay.recorded.mono, hrelay.created, hrelay.first⟩
    | failed c e => exact ⟨hbefore.keys, hbefore.recorded.mono, hbefore.created, hbefore.first⟩
    | call hrun =>
      rename_i c now clock
      by_cases hcreate : ∃ p, c = .createProduct p
      · obtain ⟨p, rfl⟩ := hcreate
        exact traced_create hbefore hrun
      · exact traced_call hbefore hrun (fun p hp => hcreate ⟨p, hp⟩) (hlast c rfl rfl)

theorem noPhantom_of_careful (h : CallLog Step .empty log db) (hcareful : Careful log) :
    NoPhantom log := by
  intro e he c hc hcreate hmissing
  obtain ⟨hkeys, hstep⟩ := h.mem_keeps foreignKeys_empty
    (fun s act answer s' hs hstep => foreignKeys_step hs hstep) e he
  have hlast := hcareful e he c hc
  rw [hc] at hstep
  generalize hanswer : e.answer = answer at hstep hlast
  generalize e.after = after at hstep ⊢
  cases hstep with
  | call hrun =>
    have hguarded : unguarded c = false := by
      cases hcall : unguarded c with
      | false => rfl
      | true => exact absurd (hlast rfl hcall) hmissing
    exact outbox_of_guarded hkeys hguarded hcreate hrun hmissing
  | failed c e => rfl

theorem careful_of_noPhantom (h : CallLog Step .empty log db) (hsilent : NoPhantom log) :
    Careful log := by
  intro e he c hc hok hcall
  by_contra hmissing
  have hcreate : ∀ p, c ≠ .createProduct p := by
    rintro p rfl
    cases hcall
  have hsame := hsilent e he c hc hcreate hmissing
  have hstep := h.step_of_mem he
  rw [hc, hok] at hstep
  generalize e.after = after at hstep hsame
  cases hstep with
  | call hrun => exact outbox_of_unguarded hcall hrun hsame

/-- A history has no phantom events, each event in its outbox was written while its product was
there, and updates come after creations, exactly if none of the six operations was committed
for a product that was missing. -/
theorem phantom_free_iff (log : List Entry) (db : ProductDb) (h : CallLog Step .empty log db) :
    NoPhantom log ∧ AllRecorded log db ∧ CreatedFirst db.outbox.rows ↔ Careful log := by
  constructor
  · exact fun hall => careful_of_noPhantom h hall.1
  · intro hcareful
    have htraced := traced_log h hcareful
    exact ⟨noPhantom_of_careful h hcareful, htraced.recorded, htraced.first⟩

end Log

def pen : Product := ⟨"pen", "ann", "Pen", "pen", "", 100, "UAH", .draft, 0, 0⟩

/-- A product is created and renamed; calls for another one that is not there do nothing. -/
def penCalls : List Call :=
  [.createProduct pen, .updateProduct "pen" "Blue pen" "pen" "" 100 "UAH", .setStatus "ink" .published,
    .deleteProduct "ink", .addVariant ⟨"v1", "ink", "Small", none, 0, 0⟩]

theorem phantom_free_iff_penCalls :
    NoPhantom (script penCalls).1 ∧ AllRecorded (script penCalls).1 (script penCalls).2 ∧
      CreatedFirst (script penCalls).2.outbox.rows ↔ Careful (script penCalls).1 :=
  phantom_free_iff _ _ (callLog_script penCalls)

/-- One update of a product that never was. -/
def inkCalls : List Call := [.updateProduct "ink" "Ink" "ink" "" 50 "UAH"]

theorem ink_phantom :
    (script inkCalls).2.outbox.rows.map (fun r => (r.eventType, r.aggregateId)) =
        [("ProductUpdated", "ink")] ∧
      ¬NoPhantom (script inkCalls).1 ∧ ¬CreatedFirst (script inkCalls).2.outbox.rows := by
  refine ⟨by rfl, fun hsilent => ?_, fun hfirst => ?_⟩
  · have hsame := hsilent _ List.mem_cons_self _ rfl (fun p hp => by cases hp) (by decide)
    exact Nat.succ_ne_self 0 (congrArg Outbox.seq hsame)
  · obtain ⟨s, hs, _⟩ := hfirst [] _ [] rfl rfl
    cases hs

end PhantomEvents

end TinyShop
