import TinyShop.ProductEvent

/-!
# From the sellers to the catalog

The product store, the relay and the catalog projection as one system: calls of
`ProductRepo` commit at any moment, and one relay task runs tick after tick. A
scenario says what may go wrong. An invariant of the system speaks about the shop
and the ids that the running tick has delivered and not yet marked.
-/

namespace TinyShop

open Base Relay
set_option autoImplicit false

namespace Outbox

/-- The rows that a tick has still to deliver when it has delivered `ids`. -/
def queue (o : Outbox) (ids : List Nat) : List OutboxRow :=
  o.unpublished.filter fun r => r.id ∉ ids

@[simp] theorem queue_nil (o : Outbox) : o.queue [] = o.unpublished := by
  simp [queue]

theorem mem_unpublished {o : Outbox} {r : OutboxRow} :
    r ∈ o.unpublished ↔ r ∈ o.rows ∧ r.publishedAt = none := by
  simp [unpublished]

theorem mem_queue {o : Outbox} {ids : List Nat} {r : OutboxRow} :
    r ∈ o.queue ids ↔ (r ∈ o.rows ∧ r.publishedAt = none) ∧ r.id ∉ ids := by
  simp [queue, mem_unpublished]

theorem queue_sorted (o : Outbox) (ids : List Nat) :
    (o.queue ids).Pairwise fun a b => a.id < b.id :=
  (o.sorted.sublist List.filter_sublist).sublist List.filter_sublist

theorem queue_deliver {o : Outbox} {ids : List Nat} {r : OutboxRow} {rest : List OutboxRow}
    (h : o.queue ids = r :: rest) : o.queue (ids ++ [r.id]) = rest := by
  have hsplit : o.queue (ids ++ [r.id]) = (o.queue ids).filter fun s => s.id ≠ r.id := by
    simp [queue, List.filter_filter, Bool.and_comm]
  have hsorted := o.queue_sorted ids
  rw [h, List.pairwise_cons] at hsorted
  rw [hsplit, h, List.filter_cons_of_neg (by simp), List.filter_eq_self]
  intro s hs
  have := hsorted.1 s hs
  simp only [ne_eq, decide_not, Bool.not_eq_eq_eq_not, Bool.not_true, decide_eq_false_iff_not]
  omega

theorem queue_enqueue {o : Outbox} {ids : List Nat} (hids : ∀ i ∈ ids, i ≤ o.seq)
    (ev : NewEvent) (clock : Int64) :
    (o.enqueue ev clock).queue ids = o.queue ids ++ [o.newRow ev clock] := by
  have hnew : (o.newRow ev clock).id ∉ ids := by
    intro hmem
    have := hids _ hmem
    simp only [newRow] at this
    omega
  simp [queue, unpublished, hnew]
  simp [newRow]

theorem unpublished_update (o : Outbox) (f : OutboxRow → OutboxRow) (keeps : ∀ r, (f r).id = r.id) :
    (o.update f keeps).unpublished =
      (o.rows.filter fun r => (f r).publishedAt.isNone).map f := by
  simp [unpublished, List.filter_map, Function.comp_def]

theorem queue_fail (o : Outbox) (ids : List Nat) (id : Nat) (error : String) :
    (o.update (fail id error) (fail_id id error)).queue ids = (o.queue ids).map (fail id error) := by
  simp [queue, unpublished, List.filter_map, Function.comp_def]

theorem queue_markPublished (o : Outbox) (ids : List Nat) (now : Int64) :
    (o.markPublished ids now).unpublished = o.queue ids := by
  rw [markPublished_eq, unpublished_update]
  simp only [publishAll_publishedAt_isNone]
  rw [queue, unpublished, List.filter_filter]
  have hsame : ∀ r ∈ o.rows.filter fun r => r.publishedAt.isNone && !(ids.contains r.id),
      publishAll now ids r = r := by
    intro r hr
    have hno : r.id ∉ ids := by
      have := (List.mem_filter.mp hr).2
      simp_all
    simp [publishAll, hno]
  rw [List.map_congr_left hsame, List.map_id']
  congr 1
  funext r
  simp [Bool.and_comm]

theorem queue_markPublished_head {o : Outbox} {ids : List Nat} {r : OutboxRow}
    {rest : List OutboxRow} (h : o.queue ids = r :: rest) (now : Int64) :
    (o.markPublished [r.id] now).queue ids = rest := by
  rw [queue, queue_markPublished, ← queue_deliver h]
  simp [queue, List.filter_filter]

/-- Marking the next event takes it out of the queue. -/
theorem unpublished_of_head {o : Outbox} {r : OutboxRow} (h : o.unpublished.head? = some r)
    (now : Int64) : o.unpublished = r :: (o.markPublished [r.id] now).unpublished := by
  obtain ⟨rest, hrest⟩ := List.head?_eq_some_iff.mp h
  rw [← queue_nil] at hrest
  rw [queue_markPublished, ← queue_nil, ← List.nil_append [r.id], queue_deliver hrest, hrest]

/-- What was enqueued stays as it was. -/
theorem events_markPublished (o : Outbox) (ids : List Nat) (now : Int64) :
    (o.markPublished ids now).rows.map OutboxRow.toEvent = o.rows.map OutboxRow.toEvent := by
  rw [markPublished_eq, rows_update, List.map_map]
  apply List.map_congr_left
  intro r _
  exact publishAll_toEvent now ids r

/-- The first event of what is left of a batch comes from the first row of the queue. -/
theorem head_of_prefix {rows : List OutboxRow} {ev : DomainEvent} {events : List DomainEvent}
    (h : ev :: events <+: rows.map OutboxRow.toEvent) :
    ∃ r rest, rows = r :: rest ∧ r.toEvent = ev ∧ events <+: rest.map OutboxRow.toEvent := by
  cases rows with
  | nil => simp at h
  | cons r rest =>
    rw [List.map_cons, List.cons_prefix_cons] at h
    exact ⟨r, rest, rfl, h.1.symm, h.2⟩

end Outbox

structure Shop where
  product : ProductDb
  catalog : CatalogDb

namespace Shop

def initial (attributes : Table Attribute String Attribute.id)
    (concatOrder : ConcatOrder := .ofRows) : Shop :=
  ⟨.empty, .initial attributes concatOrder⟩

def setOutbox (s : Shop) (o : Outbox) : Shop := { s with product := { s.product with outbox := o } }

@[simp] theorem setOutbox_catalog (s : Shop) (o : Outbox) : (s.setOutbox o).catalog = s.catalog := rfl

@[simp] theorem setOutbox_outbox (s : Shop) (o : Outbox) :
    (s.setOutbox o).product.outbox = o := rfl

@[simp] theorem setOutbox_products (s : Shop) (o : Outbox) :
    (s.setOutbox o).product.products = s.product.products := rfl

/-- The relay has nothing left to deliver. -/
def Drained (s : Shop) : Prop := s.product.outbox.unpublished = []

end Shop

namespace Pipeline

/-- Which calls are made, when the dispatcher is called and what may fail: a tick can
be cut anywhere, a database step of the relay fails, the catalog fails on a row. -/
structure Scenario where
  call : ProductDb → ProductRepo.Call → Prop
  deliver : CatalogDb → DomainEvent → Prop
  cut : Prop
  stepFails : Prop
  catalogFails : OutboxRow → Prop

/-- The only entry of `relay_sources` in `main.rs`. -/
def source : RelaySource Unit := ⟨"product", ()⟩

abbrev ShopConfig := Config Shop (RelayOp Unit) RelayOp.Res (Except DbError Nat)

variable (S : Scenario)

def exec (s : Shop) : (op : RelayOp Unit) → RelayOp.Res op → Shop → Prop
  | .fetchUnpublished _ limit, r, s' =>
    s' = s ∧ (r = s.product.outbox.fetchUnpublished limit ∨ S.stepFails ∧ ∃ e, r = .error e)
  | .dispatch src ev, r, s' => S.deliver s.catalog ev ∧
    ((∃ c, CatalogProjection.dispatch s.catalog src.name ev = .ok c ∧ r = .ok () ∧
        s' = { s with catalog := c }) ∨
      (∃ e, CatalogProjection.dispatch s.catalog src.name ev = .error e ∧ r = .error e ∧ s' = s) ∨
      ∃ e, ∃ row ∈ s.product.outbox.rows, row.toEvent = ev ∧ S.catalogFails row ∧
        r = .error e ∧ s' = s)
  | .recordFailure _ id error, r, s' =>
    (∃ n o, s.product.outbox.recordFailure id error = .ok (n, o) ∧ r = .ok n ∧
      s' = s.setOutbox o) ∨ S.stepFails ∧ ∃ e, r = .error e ∧ s' = s
  | .markPublished _ ids, r, s' =>
    (∃ now, r = .ok () ∧ s' = s.setOutbox (s.product.outbox.markPublished ids now)) ∨
      S.stepFails ∧ ∃ e, r = .error e ∧ s' = s

/-- A successful call of `ProductRepo`; a failing one changes nothing. -/
inductive Commit (s : Shop) : Shop → Prop where
  | call {c : ProductRepo.Call} {now clock : Int64} {db : ProductDb} :
      S.call s.product c → c.run s.product now clock = .ok db → Commit s { s with product := db }

def system : System Shop (RelayOp Unit) RelayOp.Res (Except DbError Nat) where
  exec := exec S
  env := Commit S
  start := fun ps p => ps = [] ∧ ∃ batch, p = (relayTick [source] batch 0).run
  stop := fun p => (∃ a, p = .pure a) ∨ S.cut
  gate := fun _ _ => True

/-- The tick of the relay would deliver `r` next. -/
def Next (s : Shop) (ids : List Nat) (r : OutboxRow) : Prop :=
  (s.product.outbox.queue ids).head? = some r

def Bounded (s : Shop) (ids : List Nat) : Prop := ∀ i ∈ ids, i ≤ s.product.outbox.seq

/-- A property of the shop and the ids delivered by the running tick, kept by every move. -/
structure Invariant (J : Shop → List Nat → Prop) : Prop where
  commit : ∀ {s s' ids}, Commit S s s' → Bounded s ids → J s ids → J s' ids
  deliver : ∀ {s ids r c}, Next s ids r → S.deliver s.catalog r.toEvent →
    r.toEvent.meaning.apply s.catalog = .ok c → J s ids → J { s with catalog := c } (ids ++ [r.id])
  fail : ∀ {s ids r}, Next s ids r → S.deliver s.catalog r.toEvent →
    ((∃ e, r.toEvent.meaning.apply s.catalog = .error e) ∨ S.catalogFails r) → ∀ error, J s ids →
    J (s.setOutbox (s.product.outbox.update (Outbox.fail r.id error) (Outbox.fail_id _ _))) ids
  dead : ∀ {s ids r}, Next s ids r → maxDispatchAttempts ≤ r.attempts → ∀ now, J s ids →
    J (s.setOutbox (s.product.outbox.markPublished [r.id] now)) ids
  mark : ∀ {s ids}, ∀ now, J s ids → J (s.setOutbox (s.product.outbox.markPublished ids now)) []
  abort : S.cut ∨ S.stepFails → ∀ {s ids}, J s ids → J s []

section Ticks
variable {S} {J : Shop → List Nat → Prop}

/-- In the middle of a tick: `events` are the first ones of what is still to be delivered. -/
structure Tick (J : Shop → List Nat → Prop) (s : Shop) (ids : List Nat)
    (events : List DomainEvent) : Prop where
  inv : J s ids
  bounded : Bounded s ids
  queue : events <+: (s.product.outbox.queue ids).map OutboxRow.toEvent

theorem record_seq (o : Outbox) (clock : Int64) (ev : Option NewEvent) :
    o.seq ≤ (ProductRepo.record o clock ev).seq := by
  cases ev with
  | none => exact Nat.le_refl _
  | some ev => exact Nat.le_succ _

theorem queue_record {o : Outbox} {ids : List Nat} (hids : ∀ i ∈ ids, i ≤ o.seq) (clock : Int64)
    (ev : Option NewEvent) : o.queue ids <+: (ProductRepo.record o clock ev).queue ids := by
  cases ev with
  | none => exact List.prefix_rfl
  | some ev => exact ⟨_, (Outbox.queue_enqueue hids ev clock).symm⟩

theorem Tick.commit (hJ : Invariant S J) {s s' : Shop} {ids : List Nat} {events : List DomainEvent}
    (hc : Commit S s s') (h : Tick J s ids events) : Tick J s' ids events := by
  have hinv := hJ.commit hc h.bounded h.inv
  cases hc with
  | call hcall hrun =>
    obtain ⟨ev, _, ho⟩ := ProductRepo.Call.run_commits hrun
    refine ⟨hinv, fun i hi => ?_, h.queue.trans ?_⟩
    · simp only [ho]
      exact Nat.le_trans (h.bounded i hi) (record_seq _ _ _)
    · simp only [ho]
      exact (queue_record h.bounded _ _).map _

theorem Tick.later (hJ : Invariant S J) {s s' : Shop} {ids : List Nat} {events : List DomainEvent}
    (hc : Relation.ReflTransGen (Commit S) s s') (h : Tick J s ids events) : Tick J s' ids events := by
  induction hc with
  | refl => exact h
  | tail _ hstep ih => exact ih.commit hJ hstep

/-- The event that the tick hands over comes from the first row of the queue. -/
theorem Tick.head {s : Shop} {ids : List Nat} {ev : DomainEvent} {events : List DomainEvent}
    (h : Tick J s ids (ev :: events)) :
    ∃ r rest, s.product.outbox.queue ids = r :: rest ∧ r.toEvent = ev ∧
      events <+: rest.map OutboxRow.toEvent :=
  Outbox.head_of_prefix h.queue

def contract (S : Scenario) (J : Shop → List Nat → Prop) : Contract Shop (RelayOp Unit) where
  inv := fun s => ∃ ids, J s ids ∧ Bounded s ids
  rely := Relation.ReflTransGen (Commit S)
  guar := fun _ _ => True
  pre := fun _ _ => True
  refl := fun _ => .refl
  trans := .trans

/-- What the loop over a batch leaves behind. -/
def Delivered (J : Shop → List Nat → Prop) (r : Except DbError (List Nat)) (s : Shop) : Prop :=
  match r with
  | .ok ids => Tick J s ids []
  | .error _ => J s []

theorem Tick.nil {s : Shop} {ids : List Nat} {events : List DomainEvent} (h : Tick J s ids events) :
    Tick J s ids [] :=
  ⟨h.inv, h.bounded, List.nil_prefix⟩

theorem Tick.contract_inv {s : Shop} {ids : List Nat} {events : List DomainEvent}
    (h : Tick J s ids events) : (contract S J).inv s :=
  ⟨ids, h.inv, h.bounded⟩

theorem bounded_nil (s : Shop) : Bounded s [] := by
  intro i hi
  cases hi

theorem Tick.dispatched (hJ : Invariant S J) {s : Shop} {ids : List Nat} {ev : DomainEvent}
    {events : List DomainEvent} {src : String} {c : CatalogDb} (h : Tick J s ids (ev :: events))
    (hd : S.deliver s.catalog ev) (hc : CatalogProjection.dispatch s.catalog src ev = .ok c) :
    Tick J { s with catalog := c } (ids ++ [ev.id]) events := by
  obtain ⟨r, rest, hq, rfl, hrest⟩ := h.head
  have hr : r ∈ s.product.outbox.queue ids := hq ▸ List.mem_cons_self
  refine ⟨hJ.deliver (by rw [Next, hq]; rfl) hd
    (CatalogProjection.dispatch_ok_iff.mp hc) h.inv, fun i hi => ?_, ?_⟩
  · rcases List.mem_append.mp hi with hi | hi
    · exact h.bounded i hi
    · rw [List.mem_singleton.mp hi]
      exact s.product.outbox.bounded r (Outbox.mem_queue.mp hr).1.1
  · exact (Outbox.queue_deliver hq).symm ▸ hrest

theorem Tick.failed (hJ : Invariant S J) {s s' : Shop} {ids : List Nat} {ev : DomainEvent}
    {events : List DomainEvent} {error : String} {n : Nat} {o : Outbox}
    (hs : Relation.ReflTransGen (Commit S) s s') (h : Tick J s ids (ev :: events))
    (hd : S.deliver s.catalog ev)
    (hbad : (∃ e, CatalogProjection.dispatch s.catalog source.name ev = .error e) ∨
      ∃ row ∈ s.product.outbox.rows, row.toEvent = ev ∧ S.catalogFails row)
    (hcat : s'.catalog = s.catalog)
    (hrow : ∀ row ∈ s.product.outbox.rows, row ∈ s'.product.outbox.rows)
    (ho : s'.product.outbox.recordFailure ev.id error = .ok (n, o)) :
    Tick J (s'.setOutbox o) ids (ev :: events) ∧
      ∃ r rest, o.queue ids = r :: rest ∧ r.toEvent = ev ∧ r.attempts = n := by
  have h' := h.later hJ hs
  obtain ⟨r, rest, hq, rfl, hrest⟩ := h'.head
  have hr : r ∈ s'.product.outbox.rows := by
    have hmem : r ∈ s'.product.outbox.queue ids := hq ▸ List.mem_cons_self
    exact (Outbox.mem_queue.mp hmem).1.1
  have hreason : (∃ e, r.toEvent.meaning.apply s'.catalog = .error e) ∨ S.catalogFails r := by
    rcases hbad with herr | ⟨row, hmem, hev, hfail⟩
    · rw [hcat]
      exact Or.inl (CatalogProjection.dispatch_error_iff.mp herr)
    · have heq := s'.product.outbox.eq_of_id_eq (hrow row hmem) hr
        (congrArg DomainEvent.id hev)
      exact Or.inr (heq ▸ hfail)
  obtain ⟨hrec, _⟩ := Outbox.recordFailure_ok ho
  have hfirst : o.queue ids = Outbox.fail r.id error r :: rest.map (Outbox.fail r.id error) := by
    rw [hrec, Outbox.queue_fail, show r.toEvent.id = r.id from rfl, hq, List.map_cons]
  have hatt : (Outbox.fail r.id error r).attempts = n := by
    rw [show r.toEvent.id = r.id from rfl, Outbox.recordFailure_of_mem _ hr] at ho
    simp only [Except.ok.injEq, Prod.mk.injEq] at ho
    simp [Outbox.fail, ho.1]
  refine ⟨⟨?_, ?_, ?_⟩, _, _, hfirst, Outbox.fail_toEvent _ _ _, hatt⟩
  · rw [hrec]
    exact hJ.fail (by rw [Next, hq]; rfl) (hcat ▸ hd) hreason error h'.inv
  · intro i hi
    rw [hrec]
    exact h'.bounded i hi
  · rw [Shop.setOutbox_outbox, hrec, Outbox.queue_fail, List.map_map]
    simpa [Function.comp_def] using h'.queue

theorem Tick.buried (hJ : Invariant S J) {s : Shop} {ids : List Nat} {ev : DomainEvent}
    {events : List DomainEvent} (h : Tick J s ids (ev :: events))
    (hmax : ∀ r rest, s.product.outbox.queue ids = r :: rest → maxDispatchAttempts ≤ r.attempts)
    (now : Int64) :
    Tick J (s.setOutbox (s.product.outbox.markPublished [ev.id] now)) ids events := by
  obtain ⟨r, rest, hq, rfl, hrest⟩ := h.head
  refine ⟨hJ.dead (by rw [Next, hq]; rfl) (hmax r rest hq) now h.inv, ?_, ?_⟩
  · intro i hi
    rw [Shop.setOutbox_outbox, Outbox.markPublished_eq]
    exact h.bounded i hi
  · rw [Shop.setOutbox_outbox, show r.toEvent.id = r.id from rfl,
      Outbox.queue_markPublished_head hq]
    exact hrest

theorem mem_record {o : Outbox} {clock : Int64} {ev : Option NewEvent} {r : OutboxRow} :
    r ∈ (ProductRepo.record o clock ev).rows ↔
      r ∈ o.rows ∨ ∃ e, ev = some e ∧ r = o.newRow e clock := by
  cases ev with
  | none => simp [ProductRepo.record]
  | some e => simp [ProductRepo.record]

theorem rows_record {o : Outbox} {clock : Int64} {ev : Option NewEvent} {r : OutboxRow}
    (h : r ∈ o.rows) : r ∈ (ProductRepo.record o clock ev).rows := by
  cases ev with
  | none => exact h
  | some ev => exact Outbox.mem_enqueue.mpr (Or.inl h)

/-- What the calls of `ProductRepo` leave alone. -/
structure Later (s s' : Shop) : Prop where
  catalog : s'.catalog = s.catalog
  rows : ∀ r ∈ s.product.outbox.rows, r ∈ s'.product.outbox.rows
  seq : s.product.outbox.seq ≤ s'.product.outbox.seq
  queue : ∀ ids, Bounded s ids → s.product.outbox.queue ids <+: s'.product.outbox.queue ids

theorem later_of_commits {s s' : Shop} (h : Relation.ReflTransGen (Commit S) s s') : Later s s' := by
  induction h with
  | refl => exact ⟨rfl, fun _ hr => hr, Nat.le_refl _, fun _ _ => List.prefix_rfl⟩
  | tail _ hstep ih =>
    cases hstep with
    | call hcall hrun =>
      obtain ⟨ev, _, ho⟩ := ProductRepo.Call.run_commits hrun
      refine ⟨ih.catalog, fun r hr => ?_, ?_, fun ids hids => (ih.queue ids hids).trans ?_⟩
      · simp only [ho]
        exact rows_record (ih.rows r hr)
      · simp only [ho]
        exact Nat.le_trans ih.seq (record_seq _ _ _)
      · simp only [ho]
        exact queue_record (fun i hi => Nat.le_trans (hids i hi) ih.seq) _ _

theorem deliver_safe (hJ : Invariant S J) (events : List DomainEvent) (ids : List Nat) (s : Shop)
    (h : Tick J s ids events) :
    Safe (exec S) (contract S J) (Delivered J) (deliver source events ids).run s := by
  induction events generalizing ids s with
  | nil =>
    rw [deliver_nil]
    intro t ht _
    exact h.later hJ ht
  | cons ev events ih =>
    rw [deliver_cons]
    intro t ht _
    have htick := h.later hJ ht
    refine ⟨trivial, fun r u hx => ?_⟩
    obtain ⟨hd, hcases⟩ := hx
    have herror : ∀ e, r = .error e → u = t →
        ((∃ e, CatalogProjection.dispatch t.catalog source.name ev = .error e) ∨
          ∃ row ∈ t.product.outbox.rows, row.toEvent = ev ∧ S.catalogFails row) →
        (contract S J).inv u ∧ (contract S J).guar t u ∧
          Safe (exec S) (contract S J) (Delivered J) (refused source ev events ids e) u := by
      rintro e rfl rfl hbad
      refine ⟨htick.contract_inv, trivial, ?_⟩
      intro t' ht' _
      have hl := later_of_commits ht'
      refine ⟨trivial, fun r v hx => ?_⟩
      rcases hx with ⟨n, o, ho, rfl, rfl⟩ | ⟨hsf, d, rfl, rfl⟩
      · obtain ⟨hrec, r, rest, hq, hev, hatt⟩ :=
          htick.failed hJ ht' hd hbad hl.catalog hl.rows ho
        refine ⟨hrec.contract_inv, trivial, ?_⟩
        by_cases hmax : maxDispatchAttempts ≤ n
        · simp only [hmax, if_true]
          intro x hx _
          have hxtick := hrec.later hJ hx
          refine ⟨trivial, fun r' y hy => ?_⟩
          rcases hy with ⟨now, rfl, rfl⟩ | ⟨hsf, d, rfl, rfl⟩
          · have hburied := hxtick.buried hJ (fun r' rest' hq' => ?_) now
            · exact ⟨hburied.contract_inv, trivial, ih ids _ hburied⟩
            · have hprefix := (later_of_commits hx).queue ids hrec.bounded
              rw [Shop.setOutbox_outbox, hq, hq', List.cons_prefix_cons] at hprefix
              rw [← hprefix.1, hatt]
              exact hmax
          · refine ⟨hxtick.contract_inv, trivial, fun z hz _ => ?_⟩
            exact hJ.abort (Or.inr hsf) (hxtick.later hJ hz).inv
        · simp only [hmax, if_false]
          intro x hx _
          exact hrec.nil.later hJ hx
      · refine ⟨(htick.later hJ ht').contract_inv, trivial, fun z hz _ => ?_⟩
        exact hJ.abort (Or.inr hsf) ((htick.later hJ ht').later hJ hz).inv
    rcases hcases with ⟨c, hc, rfl, rfl⟩ | ⟨e, hc, rfl, rfl⟩ | ⟨e, row, hrow, hev, hf, rfl, rfl⟩
    · have hnext := htick.dispatched hJ hd hc
      exact ⟨hnext.contract_inv, trivial, ih _ _ hnext⟩
    · exact herror e rfl rfl (Or.inl ⟨e, hc⟩)
    · exact herror e rfl rfl (Or.inr ⟨row, hrow, hev, hf⟩)

theorem relayTick_safe (hJ : Invariant S J) (batch : Nat) (s : Shop) (h : J s []) :
    Safe (exec S) (contract S J) (fun _ t => J t []) (relayTick [source] batch 0).run s := by
  rw [relayTick_cons]
  intro t ht _
  have hstart : Tick J t [] [] :=
    Tick.later hJ ht ⟨h, bounded_nil s, List.nil_prefix⟩
  refine ⟨trivial, fun r u hx => ?_⟩
  obtain ⟨rfl, hr⟩ := hx
  refine ⟨hstart.contract_inv, trivial, ?_⟩
  -- a tick that could not read the queue ends as it began
  have herror : ∀ z, Relation.ReflTransGen (Commit S) u z → J z [] :=
    fun z hz => (hstart.later hJ hz).inv
  rcases hr with hr | ⟨hsf, d, rfl⟩
  · cases r with
    | error d => exact fun z hz _ => herror z hz
    | ok events =>
      have hfetched : Tick J u [] events := by
        refine ⟨hstart.inv, bounded_nil u, ?_⟩
        rw [Outbox.queue_nil]
        exact Outbox.prefix_of_fetchUnpublished hr.symm
      refine safe_bind ((deliver_safe hJ _ [] u hfetched).mono fun r v hdel => ?_)
      rcases r with d | ids
      · intro x hx _
        exact (Tick.later hJ hx ⟨hdel, bounded_nil v, List.nil_prefix⟩ : Tick J x [] []).inv
      · have hdel : Tick J v ids [] := hdel
        by_cases hnil : ids.isEmpty = true
        · obtain rfl := List.isEmpty_iff.mp hnil
          simp only [List.isEmpty_nil, if_true, relayTick_nil]
          intro x hx _
          exact (hdel.later hJ hx).inv
        · simp only [hnil, Bool.false_eq_true, if_false, relayTick_nil]
          intro x hx _
          have hxdel := hdel.later hJ hx
          refine ⟨trivial, fun r y hy => ?_⟩
          rcases hy with ⟨now, rfl, rfl⟩ | ⟨hsf, d, rfl, rfl⟩
          · have hmarked := hJ.mark now hxdel.inv
            refine ⟨⟨[], hmarked, bounded_nil _⟩, trivial, fun z hz _ => ?_⟩
            exact (Tick.later hJ hz ⟨hmarked, bounded_nil _, List.nil_prefix⟩ : Tick J z [] []).inv
          · refine ⟨hxdel.contract_inv, trivial, fun z hz _ => ?_⟩
            exact hJ.abort (Or.inr hsf) (hxdel.later hJ hz).inv
  · exact fun z hz _ => herror z hz

/-- An invariant holds in every reachable state, for the ids that the running tick has
delivered and not yet marked. -/
theorem Invariant.of_reachable (hJ : Invariant S J) {s : Shop} {c : ShopConfig}
    (h : (system S).Reachable ⟨s, []⟩ c) (hs : J s []) : ∃ ids, J c.state ids := by
  have henv : ∀ t u, (system S).env t u → (contract S J).inv t →
      (contract S J).inv u ∧ (contract S J).rely t u ∧ (J t [] → J u []) := by
    rintro t u htu ⟨ids, hinv, hb⟩
    have hc : Commit S t u := htu
    have htick : Tick J u ids [] := Tick.commit hJ hc ⟨hinv, hb, List.nil_prefix⟩
    exact ⟨htick.contract_inv, .single hc, hJ.commit hc (bounded_nil t)⟩
  have hstop : ∀ p, (system S).stop p → (∃ a, p = .pure a) ∨
      ∀ t, (contract S J).inv t → J t [] := by
    rintro p (hp | hcut)
    · exact Or.inl hp
    · refine Or.inr ?_
      rintro t ⟨ids, hinv, _⟩
      exact hJ.abort (Or.inl hcut) hinv
  have hstart : ∀ ps p, (system S).start ps p → ps = [] ∧
      ∀ t, (contract S J).inv t → J t [] →
        Safe (exec S) (contract S J) (fun _ t => J t []) p t := by
    rintro ps p ⟨hps, batch, rfl⟩
    exact ⟨hps, fun t _ ht => relayTick_safe hJ batch t ht⟩
  have hinv : (contract S J).inv c.state :=
    (System.idle_of_reachable henv hstart hstop h ⟨[], hs, bounded_nil s⟩ hs).1
  obtain ⟨ids, hids, _⟩ := hinv
  exact ⟨ids, hids⟩

end Ticks

section Script
open CatalogProjection (dispatch)

/-- Decidable parts of a scenario, enough to play a script of it. -/
structure Checks (S : Scenario) where
  call : ProductDb → ProductRepo.Call → Bool
  deliver : CatalogDb → DomainEvent → Bool
  cut : Bool
  call_sound : ∀ db c, call db c = true → S.call db c
  deliver_sound : ∀ db ev, deliver db ev = true → S.deliver db ev
  cut_sound : cut = true → S.cut

/-- `next` lets the running tick perform one step, without any failure of a database. -/
inductive Move where
  | call (c : ProductRepo.Call)
  | tick
  | next
  | leave

def product (id sellerId slug : String) : Product :=
  ⟨id, sellerId, "title", slug, "", 100, "UAH", .draft, 0, 0⟩

variable {S} (K : Checks S)

def answer (_ : List (RelayProg Unit (Except DbError Nat))) (s : Shop) :
    (op : RelayOp Unit) → Option (RelayOp.Res op × Shop)
  | .fetchUnpublished _ limit => some (s.product.outbox.fetchUnpublished limit, s)
  | .dispatch src ev =>
    if K.deliver s.catalog ev then
      some (match dispatch s.catalog src.name ev with
        | .ok c => (.ok (), { s with catalog := c })
        | .error e => (.error e, s))
    else none
  | .recordFailure _ id error =>
    match s.product.outbox.recordFailure id error with
    | .ok (n, o) => some (.ok n, s.setOutbox o)
    | .error _ => none
  | .markPublished _ ids => some (.ok (), s.setOutbox (s.product.outbox.markPublished ids 0))

theorem answers : System.Answers (answer K) (system S) := by
  intro others s op r s' h
  refine ⟨trivial, ?_⟩
  cases op with
  | fetchUnpublished p limit =>
    cases h
    exact ⟨rfl, Or.inl rfl⟩
  | dispatch src ev =>
    simp only [answer] at h
    split at h
    · rename_i hmay
      refine ⟨K.deliver_sound _ _ hmay, ?_⟩
      cases hd : dispatch s.catalog src.name ev with
      | ok c =>
        rw [hd] at h
        cases h
        exact Or.inl ⟨c, rfl, rfl, rfl⟩
      | error e =>
        rw [hd] at h
        cases h
        exact Or.inr (Or.inl ⟨e, rfl, rfl, rfl⟩)
    · cases h
  | recordFailure p id error =>
    simp only [answer] at h
    split at h
    · rename_i n o ho
      cases h
      exact Or.inl ⟨n, o, ho, rfl, rfl⟩
    · cases h
  | markPublished p ids =>
    cases h
    exact Or.inl ⟨0, rfl, rfl⟩

def Move.run (c : ShopConfig) : Move → ShopConfig
  | .call made =>
    if K.call c.state.product made then
      match made.run c.state.product 0 0 with
      | .ok product => ⟨{ c.state with product }, c.procs⟩
      | .error _ => c
    else c
  | .tick => if c.procs.isEmpty then ⟨c.state, [(relayTick [source] 100 0).run]⟩ else c
  | .next => System.advance (answer K) c 0
  | .leave =>
    match c.procs with
    | [.pure _] => ⟨c.state, []⟩
    | [_] => if K.cut then ⟨c.state, []⟩ else c
    | _ => c

def play (moves : List Move) (c : ShopConfig) : ShopConfig := moves.foldl (Move.run K) c

theorem reachable_run (c : ShopConfig) (m : Move) : (system S).Reachable c (m.run K c) := by
  obtain ⟨s, ps⟩ := c
  cases m with
  | call made =>
    simp only [Move.run]
    split
    · rename_i hmay
      split
      · rename_i product hrun
        exact .single (.env (Commit.call (K.call_sound _ _ hmay) hrun))
      · exact .refl
    · exact .refl
  | tick =>
    simp only [Move.run]
    split
    · rename_i hempty
      obtain rfl := List.isEmpty_iff.mp hempty
      exact .single (.start ⟨rfl, 100, rfl⟩)
    · exact .refl
  | next => exact System.reachable_advance (answers K) _ 0
  | leave =>
    simp only [Move.run]
    split
    · rename_i a
      have hstep : (system S).Step ⟨s, [] ++ .pure a :: []⟩ ⟨s, [] ++ []⟩ := .stop (Or.inl ⟨a, rfl⟩)
      exact .single hstep
    · rename_i p _
      split
      · rename_i hcut
        have hstep : (system S).Step ⟨s, [] ++ p :: []⟩ ⟨s, [] ++ []⟩ :=
          .stop (Or.inr (K.cut_sound hcut))
        exact .single hstep
      · exact .refl
    · exact .refl

theorem reachable_play (moves : List Move) (c : ShopConfig) :
    (system S).Reachable c (play K moves c) := by
  induction moves generalizing c with
  | nil => exact .refl
  | cons m moves ih => exact (reachable_run K c m).trans (ih _)

end Script

end Pipeline

end TinyShop
