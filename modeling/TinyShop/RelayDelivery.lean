import TinyShop.Relay

/-!
# What the relay guarantees to its sources

Any number of ticks may be in flight, events are enqueued at any moment, the
dispatcher answers what it likes, each database step may fail, and a tick may be
stopped anywhere. `handed` is the history of the dispatcher's answers, newest first.
-/

namespace TinyShop.RelayDelivery

open Base Relay
set_option autoImplicit false

variable {Pool : Type}

structure World (Pool : Type) where
  outbox : Pool → Outbox
  handed : Pool → List (Nat × Bool)

abbrev RelayConfig (Pool : Type) :=
  Config (World Pool) (RelayOp Pool) RelayOp.Res (Except DbError Nat)

def World.initial : World Pool := ⟨fun _ => .empty, fun _ => []⟩

def Delivered (w : World Pool) (p : Pool) (id : Nat) : Prop := (id, true) ∈ w.handed p

def DeadLetter (r : OutboxRow) : Prop := maxDispatchAttempts ≤ r.attempts ∧ r.publishedAt ≠ none

def Settled (w : World Pool) (p : Pool) (r : OutboxRow) : Prop :=
  Delivered w p r.id ∨ DeadLetter r

/-- `r'` is a later state of the row `r`. -/
structure Later (r r' : OutboxRow) : Prop where
  event : r'.toEvent = r.toEvent
  attempts : r.attempts ≤ r'.attempts
  published : r.publishedAt ≠ none → r'.publishedAt ≠ none

theorem Later.refl (r : OutboxRow) : Later r r := ⟨rfl, Nat.le_refl _, id⟩

theorem Later.trans {a b c : OutboxRow} (hab : Later a b) (hbc : Later b c) : Later a c :=
  ⟨hbc.event.trans hab.event, Nat.le_trans hab.attempts hbc.attempts,
    fun h => hbc.published (hab.published h)⟩

theorem Later.id_eq {r r' : OutboxRow} (h : Later r r') : r'.id = r.id :=
  congrArg DomainEvent.id h.event

theorem Later.deadLetter {r r' : OutboxRow} (h : Later r r') (hr : DeadLetter r) : DeadLetter r' :=
  ⟨Nat.le_trans hr.1 h.attempts, h.published hr.2⟩

theorem later_fail (id : Nat) (error : String) (r : OutboxRow) :
    Later r (Outbox.fail id error r) :=
  ⟨Outbox.fail_toEvent _ _ _, Outbox.attempts_le_fail _ _ _, by simp⟩

theorem later_publishAll (now : Int64) (ids : List Nat) (r : OutboxRow) :
    Later r (Outbox.publishAll now ids r) := by
  refine ⟨Outbox.publishAll_toEvent _ _ _, by simp, ?_⟩
  unfold Outbox.publishAll
  split <;> simp

/-- How one outbox evolves: rows are kept, and a new row gets an id above all old ones. -/
structure Evolves (o o' : Outbox) : Prop where
  keeps : ∀ r ∈ o.rows, ∃ r' ∈ o'.rows, Later r r'
  origin : ∀ r' ∈ o'.rows, (∃ r ∈ o.rows, Later r r') ∨ o.seq < r'.id
  seq : o.seq ≤ o'.seq

theorem Evolves.refl (o : Outbox) : Evolves o o :=
  ⟨fun r hr => ⟨r, hr, .refl r⟩, fun r hr => Or.inl ⟨r, hr, .refl r⟩, Nat.le_refl _⟩

theorem Evolves.trans {a b c : Outbox} (hab : Evolves a b) (hbc : Evolves b c) : Evolves a c := by
  refine ⟨fun r hr => ?_, fun r hr => ?_, Nat.le_trans hab.seq hbc.seq⟩
  · obtain ⟨s, hs, hrs⟩ := hab.keeps r hr
    obtain ⟨t, ht, hst⟩ := hbc.keeps s hs
    exact ⟨t, ht, hrs.trans hst⟩
  · rcases hbc.origin r hr with ⟨s, hs, hsr⟩ | hlt
    · rcases hab.origin s hs with ⟨t, ht, hts⟩ | hlt
      · exact Or.inl ⟨t, ht, hts.trans hsr⟩
      · exact Or.inr (hsr.id_eq ▸ hlt)
    · exact Or.inr (Nat.lt_of_le_of_lt hab.seq hlt)

theorem evolves_update (o : Outbox) (f : OutboxRow → OutboxRow) (keeps : ∀ r, (f r).id = r.id)
    (hf : ∀ r, Later r (f r)) : Evolves o (o.update f keeps) := by
  refine ⟨fun r hr => ⟨f r, List.mem_map_of_mem hr, hf r⟩, fun r hr => ?_, Nat.le_refl _⟩
  obtain ⟨s, hs, rfl⟩ := Outbox.mem_update.mp hr
  exact Or.inl ⟨s, hs, hf s⟩

theorem evolves_enqueue (o : Outbox) (ev : NewEvent) (now : Int64) :
    Evolves o (o.enqueue ev now) := by
  refine ⟨fun r hr => ⟨r, Outbox.mem_enqueue.mpr (Or.inl hr), .refl r⟩, fun r hr => ?_,
    Nat.le_succ _⟩
  rcases Outbox.mem_enqueue.mp hr with hr | rfl
  · exact Or.inl ⟨r, hr, .refl r⟩
  · exact Or.inr (Nat.lt_succ_self _)

theorem evolves_markPublished (o : Outbox) (ids : List Nat) (now : Int64) :
    Evolves o (o.markPublished ids now) := by
  rw [Outbox.markPublished_eq]
  exact evolves_update o _ _ (later_publishAll now ids)

theorem evolves_recordFailure {o o' : Outbox} {id n : Nat} {error : String}
    (h : o.recordFailure id error = .ok (n, o')) : Evolves o o' := by
  rw [(Outbox.recordFailure_ok h).1]
  exact evolves_update o _ _ (later_fail id error)

/-- What every step of every party does to the world. -/
structure Grows (w w' : World Pool) : Prop where
  outbox : ∀ p, Evolves (w.outbox p) (w'.outbox p)
  handed : ∀ p, ∃ newer, w'.handed p = newer ++ w.handed p

theorem Grows.refl (w : World Pool) : Grows w w :=
  ⟨fun _ => .refl _, fun _ => ⟨[], rfl⟩⟩

theorem Grows.trans {a b c : World Pool} (hab : Grows a b) (hbc : Grows b c) : Grows a c := by
  refine ⟨fun p => (hab.outbox p).trans (hbc.outbox p), fun p => ?_⟩
  obtain ⟨xs, hxs⟩ := hab.handed p
  obtain ⟨ys, hys⟩ := hbc.handed p
  exact ⟨ys ++ xs, by rw [hys, hxs, List.append_assoc]⟩

theorem Grows.delivered {w w' : World Pool} (h : Grows w w') {p : Pool} {id : Nat}
    (hd : Delivered w p id) : Delivered w' p id := by
  obtain ⟨newer, hn⟩ := h.handed p
  rw [Delivered, hn]
  exact List.mem_append_right _ hd

theorem Grows.settled {w w' : World Pool} (h : Grows w w') {p : Pool} {r r' : OutboxRow}
    (hl : Later r r') (hs : Settled w p r) : Settled w' p r' := by
  rcases hs with hd | hd
  · exact Or.inl (hl.id_eq ▸ h.delivered hd)
  · exact Or.inr (hl.deadLetter hd)

/-- A row with this id has used up its attempts. -/
def Exhausted (w : World Pool) (p : Pool) (id : Nat) : Prop :=
  ∃ r ∈ (w.outbox p).rows, r.id = id ∧ maxDispatchAttempts ≤ r.attempts

theorem Grows.exhausted {w w' : World Pool} (h : Grows w w') {p : Pool} {id : Nat}
    (he : Exhausted w p id) : Exhausted w' p id := by
  obtain ⟨r, hr, hid, hmax⟩ := he
  obtain ⟨r', hr', hl⟩ := (h.outbox p).keeps r hr
  exact ⟨r', hr', hl.id_eq.trans hid, Nat.le_trans hmax hl.attempts⟩

theorem Exhausted.attempts {w : World Pool} {p : Pool} {id : Nat} (h : Exhausted w p id)
    {r : OutboxRow} (hr : r ∈ (w.outbox p).rows) (hid : r.id = id) :
    maxDispatchAttempts ≤ r.attempts := by
  obtain ⟨s, hs, hsid, hmax⟩ := h
  rw [(w.outbox p).eq_of_id_eq hr hs (hid.trans hsid.symm)]
  exact hmax

/-- Every published row was delivered or is a dead letter. -/
def NoLoss (w : World Pool) : Prop :=
  ∀ p, ∀ r ∈ (w.outbox p).rows, r.publishedAt ≠ none → Settled w p r

/-- Every answer in the history came after each smaller id had been settled. -/
def InOrder (w : World Pool) : Prop :=
  ∀ p newer j ok older, w.handed p = newer ++ (j, ok) :: older →
    j ≤ (w.outbox p).seq ∧
    ∀ r ∈ (w.outbox p).rows, r.id < j → (r.id, true) ∈ older ∨ DeadLetter r

theorem InOrder.evolves {w w' : World Pool} (h : InOrder w) (hg : Grows w w')
    (hsame : w'.handed = w.handed) : InOrder w' := by
  intro p newer j ok older heq
  obtain ⟨hj, hall⟩ := h p newer j ok older (hsame ▸ heq)
  refine ⟨Nat.le_trans hj (hg.outbox p).seq, fun r' hr' hlt => ?_⟩
  rcases (hg.outbox p).origin r' hr' with ⟨r, hr, hl⟩ | hnew
  · rw [hl.id_eq] at hlt ⊢
    exact (hall r hr hlt).imp_right hl.deadLetter
  · omega

/-- A call of the dispatcher needs every smaller id to be settled. -/
def Before (w : World Pool) : RelayOp Pool → Prop
  | .dispatch src ev => ev.id ≤ (w.outbox src.pool).seq ∧
    ∀ r ∈ (w.outbox src.pool).rows, r.id < ev.id → Settled w src.pool r
  | _ => True

/-- The batch is in order, and a row below one of its events is in it or settled. -/
structure Batch (w : World Pool) (p : Pool) (events : List DomainEvent) : Prop where
  sorted : events.Pairwise fun a b => a.id < b.id
  bounded : ∀ ev ∈ events, ev.id ≤ (w.outbox p).seq
  below : ∀ r ∈ (w.outbox p).rows, ∀ ev ∈ events, r.id < ev.id →
    Settled w p r ∨ ∃ ev' ∈ events, ev'.id = r.id

theorem Batch.grows {w w' : World Pool} {p : Pool} {events : List DomainEvent}
    (h : Batch w p events) (hg : Grows w w') : Batch w' p events := by
  refine ⟨h.sorted, fun ev hev => Nat.le_trans (h.bounded ev hev) (hg.outbox p).seq,
    fun r' hr' ev hev hlt => ?_⟩
  rcases (hg.outbox p).origin r' hr' with ⟨r, hr, hl⟩ | hnew
  · rw [hl.id_eq] at hlt ⊢
    exact (h.below r hr ev hev hlt).imp_left (hg.settled hl)
  · have := h.bounded ev hev
    omega

theorem Batch.head {w : World Pool} {p : Pool} {ev : DomainEvent} {events : List DomainEvent}
    (h : Batch w p (ev :: events)) :
    ∀ r ∈ (w.outbox p).rows, r.id < ev.id → Settled w p r := by
  intro r hr hlt
  rcases h.below r hr ev List.mem_cons_self hlt with hs | ⟨ev', hmem, hid⟩
  · exact hs
  · rcases List.mem_cons.mp hmem with rfl | hmem
    · omega
    · have := List.rel_of_pairwise_cons h.sorted hmem
      omega

theorem Batch.tail {w : World Pool} {p : Pool} {ev : DomainEvent} {events : List DomainEvent}
    (h : Batch w p (ev :: events))
    (hev : ∀ r ∈ (w.outbox p).rows, r.id = ev.id → Settled w p r) : Batch w p events := by
  refine ⟨h.sorted.of_cons, fun e he => h.bounded e (List.mem_cons_of_mem _ he),
    fun r hr e he hlt => ?_⟩
  rcases h.below r hr e (List.mem_cons_of_mem _ he) hlt with hs | ⟨ev', hmem, hid⟩
  · exact Or.inl hs
  · rcases List.mem_cons.mp hmem with rfl | hmem
    · exact Or.inl (hev r hr hid.symm)
    · exact Or.inr ⟨ev', hmem, hid⟩

theorem unpublished_sorted (o : Outbox) : o.unpublished.Pairwise fun a b => a.id < b.id :=
  o.sorted.sublist List.filter_sublist

/-- A batch read from the outbox: a smaller unpublished id is always in it too. -/
theorem batch_fetch {w : World Pool} (hi : NoLoss w) (p : Pool) {limit : Nat}
    {events : List DomainEvent} (h : (w.outbox p).fetchUnpublished limit = .ok events) :
    Batch w p events := by
  obtain ⟨_, rfl⟩ := Outbox.fetchUnpublished_eq_ok.mp h
  have hsorted := unpublished_sorted (w.outbox p)
  refine ⟨?_, fun ev hev => ?_, fun r hr ev hev hlt => ?_⟩
  · rw [List.pairwise_map]
    exact hsorted.sublist (List.take_sublist _ _)
  · obtain ⟨s, hs, rfl⟩ := List.mem_map.mp hev
    exact (w.outbox p).bounded s (List.mem_of_mem_filter (List.mem_of_mem_take hs))
  · obtain ⟨s, hs, rfl⟩ := List.mem_map.mp hev
    by_cases hpub : r.publishedAt = none
    · have hmem : r ∈ (w.outbox p).unpublished := by
        simp [Outbox.unpublished, hr, hpub]
      refine Or.inr ⟨r.toEvent, List.mem_map_of_mem ?_, rfl⟩
      rw [← List.take_append_drop limit (w.outbox p).unpublished] at hmem hsorted
      rcases List.mem_append.mp hmem with hmem | hmem
      · exact hmem
      · have hlt' := (List.pairwise_append.mp hsorted).2.2 s hs r hmem
        simp only [OutboxRow.toEvent] at hlt
        omega
    · exact Or.inl (hi p r hr hpub)

def contract : Contract (World Pool) (RelayOp Pool) where
  inv := fun w => NoLoss w ∧ InOrder w
  rely := Grows
  guar := Grows
  pre := fun op w => Before w op
  refl := .refl
  trans := .trans

theorem initial_inv : contract.inv (World.initial : World Pool) := by
  refine ⟨fun p r hr _ => by simp [World.initial] at hr, fun p newer j ok older heq => ?_⟩
  simp [World.initial] at heq

variable [DecidableEq Pool]

namespace World

def setOutbox (w : World Pool) (p : Pool) (o : Outbox) : World Pool :=
  { w with outbox := Function.update w.outbox p o }

def hand (w : World Pool) (p : Pool) (id : Nat) (ok : Bool) : World Pool :=
  { w with handed := Function.update w.handed p ((id, ok) :: w.handed p) }

@[simp] theorem setOutbox_handed (w : World Pool) (p : Pool) (o : Outbox) :
    (w.setOutbox p o).handed = w.handed := rfl

@[simp] theorem hand_outbox (w : World Pool) (p : Pool) (id : Nat) (ok : Bool) :
    (w.hand p id ok).outbox = w.outbox := rfl

theorem setOutbox_outbox (w : World Pool) (p q : Pool) (o : Outbox) :
    (w.setOutbox p o).outbox q = if q = p then o else w.outbox q := by
  simp [setOutbox, Function.update_apply]

theorem hand_handed (w : World Pool) (p q : Pool) (id : Nat) (ok : Bool) :
    (w.hand p id ok).handed q = if q = p then (id, ok) :: w.handed q else w.handed q := by
  by_cases h : q = p
  · subst h
    simp [hand]
  · simp [hand, h]

end World

/-- One database step or one answer of the dispatcher; a failing step changes nothing. -/
def exec (w : World Pool) : (op : RelayOp Pool) → RelayOp.Res op → World Pool → Prop
  | .fetchUnpublished p limit, r, w' =>
    w' = w ∧ (r = (w.outbox p).fetchUnpublished limit ∨ ∃ e, r = .error e)
  | .dispatch src ev, r, w' => w' = w.hand src.pool ev.id r.isOk
  | .recordFailure p id error, r, w' =>
    (∃ n o, (w.outbox p).recordFailure id error = .ok (n, o) ∧ r = .ok n ∧
      w' = w.setOutbox p o) ∨ ∃ e, r = .error e ∧ w' = w
  | .markPublished p ids, r, w' =>
    (∃ now, r = .ok () ∧ w' = w.setOutbox p ((w.outbox p).markPublished ids now)) ∨
      ∃ e, r = .error e ∧ w' = w

/-- `enqueue` commits at any moment; ticks over any sources start and stop at any moment. -/
def system : System (World Pool) (RelayOp Pool) RelayOp.Res (Except DbError Nat) where
  exec := exec
  env := fun w w' => ∃ p ev now, w' = w.setOutbox p ((w.outbox p).enqueue ev now)
  start := fun _ p => ∃ sources batch, p = (relayTick sources batch 0).run
  stop := fun _ => True
  gate := fun _ _ => True

theorem grows_setOutbox {w : World Pool} {p : Pool} {o : Outbox} (h : Evolves (w.outbox p) o) :
    Grows w (w.setOutbox p o) := by
  refine ⟨fun q => ?_, fun q => ⟨[], rfl⟩⟩
  rw [World.setOutbox_outbox]
  split
  · rename_i heq
    exact heq ▸ h
  · exact .refl _

theorem grows_hand (w : World Pool) (p : Pool) (id : Nat) (ok : Bool) :
    Grows w (w.hand p id ok) := by
  refine ⟨fun q => .refl _, fun q => ?_⟩
  rw [World.hand_handed]
  split
  · exact ⟨[(id, ok)], rfl⟩
  · exact ⟨[], rfl⟩

theorem exec_grows {w w' : World Pool} {op : RelayOp Pool} {r : RelayOp.Res op}
    (h : exec w op r w') : Grows w w' := by
  cases op with
  | fetchUnpublished p limit => exact h.1 ▸ .refl w
  | dispatch src ev =>
    rw [show w' = _ from h]
    exact grows_hand _ _ _ _
  | recordFailure p id error =>
    rcases h with ⟨n, o, ho, _, rfl⟩ | ⟨e, _, rfl⟩
    · exact grows_setOutbox (evolves_recordFailure ho)
    · exact .refl _
  | markPublished p ids =>
    rcases h with ⟨now, _, rfl⟩ | ⟨e, _, rfl⟩
    · exact grows_setOutbox (evolves_markPublished _ _ _)
    · exact .refl _

theorem env_grows {w w' : World Pool} (h : system.env w w') : Grows w w' := by
  obtain ⟨p, ev, now, rfl⟩ := h
  exact grows_setOutbox (evolves_enqueue _ _ _)

theorem InOrder.hand {w : World Pool} (h : InOrder w) {p : Pool} {id : Nat} {ok : Bool}
    (hid : id ≤ (w.outbox p).seq)
    (hall : ∀ r ∈ (w.outbox p).rows, r.id < id → Settled w p r) :
    InOrder (w.hand p id ok) := by
  intro q newer j b older heq
  rw [World.hand_handed] at heq
  by_cases hq : q = p
  · subst hq
    rw [if_pos rfl] at heq
    cases newer with
    | nil =>
      obtain ⟨hhead, rfl⟩ := List.cons.inj heq
      obtain ⟨rfl, rfl⟩ := Prod.mk.inj hhead
      exact ⟨hid, hall⟩
    | cons x newer =>
      exact h q newer j b older (List.cons.inj heq).2
  · rw [if_neg hq] at heq
    exact h q newer j b older heq

/-- A published row of the evolved outbox is settled if it was published before. -/
theorem NoLoss.setOutbox {w : World Pool} (h : NoLoss w) {p : Pool} {o : Outbox}
    (hall : ∀ r ∈ o.rows, r.publishedAt ≠ none → Settled w p r) :
    NoLoss (w.setOutbox p o) := by
  intro q r hr hp
  rw [World.setOutbox_outbox] at hr
  by_cases hq : q = p
  · subst hq
    rw [if_pos rfl] at hr
    exact hall r hr hp
  · rw [if_neg hq] at hr
    exact h q r hr hp

theorem env_inv {w w' : World Pool} (h : system.env w w') (hi : contract.inv w) :
    contract.inv w' := by
  have hg := env_grows h
  obtain ⟨p, ev, now, rfl⟩ := h
  refine ⟨hi.1.setOutbox fun r hr hp => ?_, hi.2.evolves hg rfl⟩
  rcases Outbox.mem_enqueue.mp hr with hr | rfl
  · exact hi.1 p r hr hp
  · exact absurd rfl hp

theorem recordFailure_inv {w : World Pool} {p : Pool} {id n : Nat} {error : String} {o : Outbox}
    (ho : (w.outbox p).recordFailure id error = .ok (n, o)) (hi : contract.inv w) :
    contract.inv (w.setOutbox p o) := by
  refine ⟨hi.1.setOutbox fun r hr hp => ?_,
    hi.2.evolves (grows_setOutbox (evolves_recordFailure ho)) rfl⟩
  rw [(Outbox.recordFailure_ok ho).1] at hr
  obtain ⟨s, hs, rfl⟩ := Outbox.mem_update.mp hr
  rw [Outbox.fail_publishedAt] at hp
  exact (Grows.refl w).settled (later_fail id error s) (hi.1 p s hs hp)

/-- The rows of `ids` have to be delivered or to be out of attempts before they are marked. -/
theorem markPublished_inv {w : World Pool} {p : Pool} {ids : List Nat} {now : Int64}
    (hids : ∀ r ∈ (w.outbox p).rows, r.id ∈ ids →
      Delivered w p r.id ∨ maxDispatchAttempts ≤ r.attempts)
    (hi : contract.inv w) : contract.inv (w.setOutbox p ((w.outbox p).markPublished ids now)) := by
  refine ⟨hi.1.setOutbox fun r hr hp => ?_,
    hi.2.evolves (grows_setOutbox (evolves_markPublished _ _ _)) rfl⟩
  rw [Outbox.markPublished_eq] at hr
  obtain ⟨s, hs, rfl⟩ := Outbox.mem_update.mp hr
  by_cases hmem : s.id ∈ ids
  · rcases hids s hs hmem with hd | hmax
    · exact Or.inl (by rw [Outbox.publishAll_id]; exact hd)
    · exact Or.inr ⟨by rw [Outbox.publishAll_attempts]; exact hmax, hp⟩
  · have hsame : Outbox.publishAll now ids s = s := by simp [Outbox.publishAll, hmem]
    rw [hsame] at hp ⊢
    exact hi.1 p s hs hp

theorem exhausted_of_recordFailure {w : World Pool} {p : Pool} {id n : Nat} {error : String}
    {o : Outbox} (ho : (w.outbox p).recordFailure id error = .ok (n, o))
    (hn : maxDispatchAttempts ≤ n) : Exhausted (w.setOutbox p o) p id := by
  obtain ⟨_, r, hr, hid, hatt⟩ := Outbox.recordFailure_ok ho
  refine ⟨r, ?_, hid, hatt ▸ hn⟩
  rw [World.setOutbox_outbox, if_pos rfl]
  exact hr

/-- After the dead letter is marked, its row is settled. -/
theorem settled_of_markPublished {w : World Pool} {p : Pool} {id : Nat} {now : Int64}
    (h : Exhausted w p id) :
    ∀ r ∈ ((w.setOutbox p ((w.outbox p).markPublished [id] now)).outbox p).rows, r.id = id →
      Settled (w.setOutbox p ((w.outbox p).markPublished [id] now)) p r := by
  intro r hr hid
  have hmax := ((grows_setOutbox (evolves_markPublished (w.outbox p) [id] now)).exhausted h).attempts
    hr hid
  rw [World.setOutbox_outbox, if_pos rfl, Outbox.markPublished_eq] at hr
  obtain ⟨s, _, rfl⟩ := Outbox.mem_update.mp hr
  rw [Outbox.publishAll_id] at hid
  exact Or.inr ⟨hmax, by simp [Outbox.publishAll, hid]⟩

/-- The ids that a tick is going to mark were all accepted by the dispatcher. -/
def AllDelivered (p : Pool) (r : Except DbError (List Nat)) (w : World Pool) : Prop :=
  ∀ ids, r = .ok ids → ∀ i ∈ ids, Delivered w p i

/-- The loop over a batch; the induction is on the events that are left. -/
theorem deliver_safe (src : RelaySource Pool) (events : List DomainEvent) (delivered : List Nat)
    (w : World Pool) (hb : Batch w src.pool events)
    (hd : ∀ i ∈ delivered, Delivered w src.pool i) :
    Safe exec contract (AllDelivered src.pool) (deliver src events delivered).run w := by
  induction events generalizing delivered w with
  | nil =>
    rw [deliver_nil]
    intro t ht _ ids hids i hi
    cases hids
    exact ht.delivered (hd i hi)
  | cons ev events ih =>
    rw [deliver_cons]
    intro t ht hinv
    have hbt := hb.grows ht
    refine ⟨⟨hbt.bounded ev List.mem_cons_self, hbt.head⟩, fun r u hx => ?_⟩
    have hg : Grows t u := exec_grows hx
    have hu : u = t.hand src.pool ev.id r.isOk := hx
    have hinvu : contract.inv u := by
      rw [hu]
      exact ⟨fun p r hr hp => (grows_hand _ _ _ _).settled (.refl r) (hinv.1 p r hr hp),
        hinv.2.hand (hbt.bounded ev List.mem_cons_self) hbt.head⟩
    have hdu : ∀ i ∈ delivered, Delivered u src.pool i :=
      fun i hi => hg.delivered (ht.delivered (hd i hi))
    refine ⟨hinvu, hg, ?_⟩
    rcases r with e | ⟨⟩
    · -- the failure is recorded; only a dead letter lets the loop go on
      intro t' ht' hinv'
      refine ⟨trivial, fun r v hx' => ?_⟩
      have hg' : Grows t' v := exec_grows hx'
      rcases hx' with ⟨n, o, ho, rfl, rfl⟩ | ⟨d, rfl, rfl⟩
      · refine ⟨recordFailure_inv ho hinv', hg', ?_⟩
        have hgrow := ht'.trans hg'
        have hdv : ∀ i ∈ delivered, Delivered (t'.setOutbox src.pool o) src.pool i :=
          fun i hi => hgrow.delivered (hdu i hi)
        by_cases hmax : maxDispatchAttempts ≤ n
        · simp only [hmax, if_true]
          have hex := exhausted_of_recordFailure ho hmax
          intro x hx₁ hinvx
          refine ⟨trivial, fun r y hy => ?_⟩
          have hgy : Grows x y := exec_grows hy
          rcases hy with ⟨now, rfl, rfl⟩ | ⟨d, rfl, rfl⟩
          · have hexx := hx₁.exhausted hex
            refine ⟨markPublished_inv (fun r hr hm => Or.inr ?_) hinvx, hgy, ?_⟩
            · exact hexx.attempts hr (List.mem_singleton.mp hm)
            · refine ih delivered _ ?_ fun i hi => (hx₁.trans hgy).delivered (hdv i hi)
              exact ((hbt.grows hg).grows (hgrow.trans (hx₁.trans hgy))).tail
                (settled_of_markPublished hexx)
          · refine ⟨hinvx, hgy, ?_⟩
            intro _ _ _ ids hids
            cases hids
        · simp only [hmax, if_false]
          intro x hx₁ _ ids hids i hi
          cases hids
          exact hx₁.delivered (hdv i hi)
      · refine ⟨hinv', hg', ?_⟩
        intro _ _ _ ids hids
        cases hids
    · have hev : Delivered u src.pool ev.id := by
        rw [Delivered, hu, World.hand_handed, if_pos rfl]
        exact List.mem_cons_self
      refine ih (delivered ++ [ev.id]) u ?_ fun i hi => ?_
      · exact (hbt.grows hg).tail fun r _ hid => Or.inl (hid ▸ hev)
      · rcases List.mem_append.mp hi with hi | hi
        · exact hdu i hi
        · rw [List.mem_singleton.mp hi]
          exact hev

theorem relayTick_safe (sources : List (RelaySource Pool)) (batch total : Nat) (w : World Pool) :
    Safe exec contract (fun _ _ => True) (relayTick sources batch total).run w := by
  induction sources generalizing total w with
  | nil => exact fun _ _ _ => trivial
  | cons src sources ih =>
    rw [relayTick_cons]
    intro t ht hinv
    refine ⟨trivial, fun r u hx => ?_⟩
    have hg : Grows t u := exec_grows hx
    obtain ⟨rfl, hr⟩ := hx
    refine ⟨hinv, hg, ?_⟩
    rcases hr with hr | ⟨d, rfl⟩
    · cases r with
      | error d => exact fun _ _ _ => trivial
      | ok events =>
        refine safe_bind ((deliver_safe src _ [] u (batch_fetch hinv.1 _ hr.symm) (by simp)).mono ?_)
        intro r v hall
        rcases r with d | delivered
        · exact fun _ _ _ => trivial
        · by_cases hnil : delivered.isEmpty = true
          · simp only [hnil, if_true]
            exact ih total v
          · simp only [hnil, Bool.false_eq_true, if_false]
            intro x hx hinvx
            refine ⟨trivial, fun r y hy => ?_⟩
            have hgy : Grows x y := exec_grows hy
            rcases hy with ⟨now, rfl, rfl⟩ | ⟨d, rfl, rfl⟩
            · refine ⟨markPublished_inv (fun r _ hm => Or.inl ?_) hinvx, hgy, ih _ _⟩
              exact hx.delivered (hall delivered rfl _ hm)
            · exact ⟨hinvx, hgy, fun _ _ _ => trivial⟩
    · exact fun _ _ _ => trivial

theorem contract_rely {w w' : World Pool} (h : system.env w w') (hi : contract.inv w) :
    contract.inv w' ∧ contract.rely w w' :=
  ⟨env_inv h hi, env_grows h⟩

theorem started_safe {ps : List (RelayProg Pool (Except DbError Nat))}
    {p : RelayProg Pool (Except DbError Nat)} (h : system.start ps p) (w : World Pool) :
    Safe system.exec contract (fun _ _ => True) p w := by
  obtain ⟨sources, batch, rfl⟩ := h
  exact relayTick_safe sources batch 0 w

/-- The invariant of the relay holds in every reachable configuration. -/
theorem inv_of_reachable {c : RelayConfig Pool}
    (h : system.Reachable ⟨World.initial, []⟩ c) : contract.inv c.state :=
  (System.safe_of_reachable (C := contract) (fun _ _ h => h)
    (fun _ _ he hi => contract_rely he hi) (fun _ _ hs => started_safe hs) h initial_inv
    (by simp)).1

theorem grows_of_step {c d : RelayConfig Pool} (h : system.Step c d) : Grows c.state d.state := by
  cases h with
  | env he => exact env_grows he
  | start _ => exact .refl _
  | stop _ => exact .refl _
  | call _ hx => exact exec_grows hx

theorem grows_of_reachable {c d : RelayConfig Pool} (h : system.Reachable c d) :
    Grows c.state d.state := by
  induction h with
  | refl => exact .refl _
  | tail _ step ih => exact ih.trans (grows_of_step step)

/-- What waits is read for every large limit, unless something that waits cannot be read. -/
theorem fetched_iff (o : Outbox) :
    (∀ r ∈ o.rows, r.publishedAt = none → ∃ enough, ∀ limit, enough ≤ limit →
      ∃ events, o.fetchUnpublished limit = .ok events ∧ r.toEvent ∈ events) ↔
    ∀ r ∈ o.rows, r.publishedAt = none → r.payload.Readable := by
  have hmem : ∀ r, r ∈ o.unpublished ↔ r ∈ o.rows ∧ r.publishedAt = none := by
    intro r
    simp [Outbox.unpublished]
  constructor
  · intro hfetched r hr hp
    obtain ⟨enough, hread⟩ := hfetched r hr hp
    -- with this limit nothing that waits is left out
    have hlimit := hread (max enough o.unpublished.length) (Nat.le_max_left _ _)
    obtain ⟨events, hok, _⟩ := hlimit
    refine (Outbox.fetchUnpublished_eq_ok.mp hok).1 r ?_
    rw [List.take_of_length_le (Nat.le_max_right _ _)]
    exact (hmem r).mpr ⟨hr, hp⟩
  · intro hreadable r hr hp
    refine ⟨o.unpublished.length, fun limit hl => ⟨_, Outbox.fetchUnpublished_eq_ok.mpr ⟨?_, rfl⟩, ?_⟩⟩
    · intro s hs
      obtain ⟨hs, hps⟩ := (hmem s).mp (List.mem_of_mem_take hs)
      exact hreadable s hs hps
    · rw [List.take_of_length_le hl]
      exact List.mem_map_of_mem ((hmem r).mpr ⟨hr, hp⟩)

section Sample

/-- Every database step works and the dispatcher accepts everything. -/
def accept (_ : List (RelayProg Pool (Except DbError Nat))) (w : World Pool) :
    (op : RelayOp Pool) → Option (RelayOp.Res op × World Pool)
  | .fetchUnpublished p limit => some ((w.outbox p).fetchUnpublished limit, w)
  | .dispatch src ev => some (.ok (), w.hand src.pool ev.id true)
  | .recordFailure _ _ _ => none
  | .markPublished p ids => some (.ok (), w.setOutbox p ((w.outbox p).markPublished ids 0))

theorem accept_answers : System.Answers (@accept Pool _) system := by
  intro others w op r w' h
  refine ⟨trivial, ?_⟩
  cases op with
  | fetchUnpublished p limit =>
    cases h
    exact ⟨rfl, Or.inl rfl⟩
  | dispatch src ev =>
    cases h
    rfl
  | recordFailure p id error => cases h
  | markPublished p ids =>
    cases h
    exact Or.inl ⟨0, rfl, rfl⟩

def created : NewEvent := ⟨"product", "p", "ProductCreated", .null⟩

def deleted : NewEvent := ⟨"product", "p", "ProductDeleted", .null⟩

/-- Two events wait and one tick has just started. -/
def twoEvents : RelayConfig Unit where
  state := (World.initial.setOutbox () (Outbox.empty.enqueue created 0)).setOutbox ()
    ((Outbox.empty.enqueue created 0).enqueue deleted 0)
  procs := [(relayTick [⟨"product", ()⟩] 100 0).run]

theorem twoEvents_reachable : system.Reachable ⟨.initial, []⟩ twoEvents := by
  refine .tail (.tail (.tail .refl (.env ⟨(), created, 0, rfl⟩)) (.env ⟨(), deleted, 0, rfl⟩)) ?_
  exact .start ⟨_, _, rfl⟩

theorem twoEvents_drive (schedule : List Nat) :
    system.Reachable ⟨.initial, []⟩ (System.drive accept schedule twoEvents) :=
  twoEvents_reachable.trans
    (System.reachable_drive accept_answers schedule twoEvents)

end Sample

/-- A published row was accepted or is out of attempts, no row is ever removed, and
what is unpublished stays in what the relay reads if and only if all of it can be read back. -/
theorem no_event_lost_iff {c d : RelayConfig Pool} (hc : system.Reachable ⟨.initial, []⟩ c)
    (hd : system.Reachable c d) (p : Pool) :
    (∀ r ∈ (c.state.outbox p).rows, r.publishedAt ≠ none →
      (r.id, true) ∈ c.state.handed p ∨ maxDispatchAttempts ≤ r.attempts) ∧
    (∀ r ∈ (c.state.outbox p).rows, ∃ r' ∈ (d.state.outbox p).rows, r'.toEvent = r.toEvent) ∧
    ((∀ r ∈ (c.state.outbox p).rows, r.publishedAt = none →
      ∃ enough, ∀ limit, enough ≤ limit →
        ∃ events, (c.state.outbox p).fetchUnpublished limit = .ok events ∧ r.toEvent ∈ events) ↔
      ∀ r ∈ (c.state.outbox p).rows, r.publishedAt = none → r.payload.Readable) := by
  refine ⟨fun r hr hp => ?_, fun r hr => ?_, fetched_iff _⟩
  · rcases (inv_of_reachable hc).1 p r hr hp with hs | hs
    · exact Or.inl hs
    · exact Or.inr hs.1
  · obtain ⟨r', hr', hl⟩ := ((grows_of_reachable hd).outbox p).keeps r hr
    exact ⟨r', hr', hl.event⟩

/-- The tick has read the two events and has handed none over. -/
theorem no_event_lost_twoEvents :
    let c := System.drive accept [0] twoEvents
    (∀ r ∈ (c.state.outbox ()).rows, r.publishedAt = none →
      ∃ enough, ∀ limit, enough ≤ limit →
        ∃ events, (c.state.outbox ()).fetchUnpublished limit = .ok events ∧ r.toEvent ∈ events) ∧
    let d := System.drive accept [0, 0, 0, 0] twoEvents
    (d.state.outbox ()).rows.map (fun r => (r.id, r.publishedAt)) = [(1, some 0), (2, some 0)] ∧
      ∀ r ∈ (d.state.outbox ()).rows, r.publishedAt ≠ none →
        (r.id, true) ∈ d.state.handed () ∨ maxDispatchAttempts ≤ r.attempts :=
  ⟨(no_event_lost_iff (twoEvents_drive [0]) .refl ()).2.2.mpr (by decide), rfl,
    (no_event_lost_iff (twoEvents_drive [0, 0, 0, 0]) .refl ()).1⟩

/-- An event whose payload `enqueue` takes and no tick can read. -/
def unreadable : NewEvent := ⟨"product", "p", "ProductCreated", .nested Value.recursionLimit⟩

/-- It stays unpublished, and every attempt to read the queue fails. -/
theorem event_unreadable :
    ∃ c : RelayConfig Unit, system.Reachable ⟨.initial, []⟩ c ∧
      ∃ r ∈ (c.state.outbox ()).rows, r.publishedAt = none ∧
        ∀ limit, 1 ≤ limit → ∀ events, (c.state.outbox ()).fetchUnpublished limit ≠ .ok events := by
  refine ⟨⟨World.initial.setOutbox () (Outbox.empty.enqueue unreadable 0), []⟩,
    .single (.env ⟨(), unreadable, 0, rfl⟩), Outbox.empty.newRow unreadable 0,
    List.mem_singleton_self _, rfl, ?_⟩
  intro limit hlimit events hok
  have hall := (Outbox.fetchUnpublished_eq_ok.mp hok).1
  refine Value.not_readable_nested (hall (Outbox.empty.newRow unreadable 0) ?_)
  rw [List.take_of_length_le hlimit]
  exact List.mem_singleton_self _

/-- When an event is handed to the dispatcher, all events before it are settled; the
history of its answers is in order up to dead letters. -/
theorem dispatched_in_order {c : RelayConfig Pool} (hc : system.Reachable ⟨.initial, []⟩ c) :
    (∀ src ev next, Prog.call (RelayOp.dispatch src ev) next ∈ c.procs →
      ∀ r ∈ (c.state.outbox src.pool).rows, r.id < ev.id →
        (r.id, true) ∈ c.state.handed src.pool ∨
          maxDispatchAttempts ≤ r.attempts ∧ r.publishedAt ≠ none) ∧
    (∀ p newer j ok older, c.state.handed p = newer ++ (j, ok) :: older →
      ∀ r ∈ (c.state.outbox p).rows, r.id < j →
        (r.id, true) ∈ older ∨ maxDispatchAttempts ≤ r.attempts ∧ r.publishedAt ≠ none) := by
  refine ⟨fun src ev next hm r hr hlt => ?_, fun p newer j ok older heq r hr hlt => ?_⟩
  · have hpre := System.pre_of_reachable (C := contract) (fun _ _ h => h)
      (fun _ _ he hi => contract_rely he hi) (fun _ _ hs => started_safe hs) hc initial_inv hm
    exact hpre.2 r hr hlt
  · exact ((inv_of_reachable hc).2 p newer j ok older heq).2 r hr hlt

/-- The tick is about to hand over the second event. -/
theorem dispatched_in_order_twoEvents :
    let c := System.drive accept [0, 0] twoEvents
    ∃ ev next, c.procs = [Prog.call (.dispatch ⟨"product", ()⟩ ev) next] ∧ ev.id = 2 ∧
      ∀ r ∈ (c.state.outbox ()).rows, r.id < ev.id →
        (r.id, true) ∈ c.state.handed () ∨
          maxDispatchAttempts ≤ r.attempts ∧ r.publishedAt ≠ none := by
  refine ⟨⟨2, "product", "p", "ProductDeleted", .null, 0⟩, _, rfl, rfl, ?_⟩
  exact (dispatched_in_order (twoEvents_drive [0, 0])).1 ⟨"product", ()⟩
    ⟨2, "product", "p", "ProductDeleted", .null, 0⟩ _ List.mem_cons_self

end TinyShop.RelayDelivery
