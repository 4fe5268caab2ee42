import TinyShop.Pipeline
import TinyShop.RelayDelivery

/-!
# A poison pill does not block the queue

Ticks one after the other over outboxes whose database works and to which nothing is
added; the dispatcher answers what it likes, each time anew. What an outbox may still
cost is the sum of the attempts left to its unpublished rows: every event handed over
uses up one of them at least, so after that many ticks nothing is left. A payload that
cannot be read back is the exception: no attempt is counted for it, and what waits
behind it waits for ever.
-/

namespace TinyShop.PoisonPill

open Base Relay RelayDelivery
set_option autoImplicit false

variable {Pool : Type}

/-! ## One outbox during a tick -/

/-- An outbox, the answers of the dispatcher and the ids delivered but not yet marked. -/
structure Tally where
  outbox : Outbox
  handed : List (Nat × Bool)
  ids : List Nat

namespace Tally

def queue (t : Tally) : List OutboxRow := t.outbox.queue t.ids

/-- The attempts that the row has left, if its id is one of those counted. -/
def share (P : Nat → Bool) (r : OutboxRow) : Nat :=
  if P r.id then maxDispatchAttempts - r.attempts else 0

/-- The attempts left to the rows that are still to be delivered. -/
def left (P : Nat → Bool) (t : Tally) : Nat := (t.queue.map (share P)).sum

/-- How often the dispatcher was called. -/
def calls (P : Nat → Bool) (t : Tally) : Nat := t.handed.countP fun x => P x.1

/-- Every row that is still to be delivered has an attempt left. -/
def Fresh (t : Tally) : Prop := ∀ r ∈ t.queue, r.attempts < maxDispatchAttempts

/-- Calls are paid for with attempts. -/
structure Spends (t t' : Tally) : Prop where
  fresh : t'.Fresh
  paid : ∀ P, t'.calls P + t'.left P ≤ t.calls P + t.left P
  calls : ∀ P, t.calls P ≤ t'.calls P

theorem Spends.refl {t : Tally} (h : t.Fresh) : Spends t t :=
  ⟨h, fun _ => Nat.le_refl _, fun _ => Nat.le_refl _⟩

theorem Spends.trans {a b c : Tally} (hab : Spends a b) (hbc : Spends b c) : Spends a c where
  fresh := hbc.fresh
  paid := fun P => Nat.le_trans (hbc.paid P) (hab.paid P)
  calls := fun P => Nat.le_trans (hab.calls P) (hbc.calls P)

section Moves
variable {t : Tally} {r : OutboxRow} {rest : List OutboxRow}

theorem left_of_queue {P : Nat → Bool} (h : t.queue = r :: rest) :
    t.left P = share P r + (rest.map (share P)).sum := by
  rw [left, h, List.map_cons, List.sum_cons]

/-- A call of the dispatcher for the first row counts as one attempt of it. -/
theorem calls_cons (P : Nat → Bool) (handed : List (Nat × Bool)) (id : Nat) (ok : Bool) :
    ((id, ok) :: handed).countP (fun x => P x.1) =
      (handed.countP fun x => P x.1) + if P id then 1 else 0 := by
  rw [List.countP_cons]

/-- What a call and the fate of its row come to. -/
theorem spends_of_queue {t' : Tally} {ok : Bool} {l : List OutboxRow} (ht : t.Fresh)
    (hqueue : t.queue = r :: rest) (hqueue' : t'.queue = l ++ rest)
    (hhanded : t'.handed = (r.id, ok) :: t.handed)
    (hhead : ∀ s ∈ l, s.attempts < maxDispatchAttempts)
    (hshare : ∀ P, (l.map (share P)).sum + (if P r.id then 1 else 0) ≤ share P r) :
    Spends t t' where
  fresh := by
    intro s hs
    rw [hqueue'] at hs
    rcases List.mem_append.mp hs with hs | hs
    · exact hhead s hs
    · exact ht s (hqueue ▸ List.mem_cons_of_mem r hs)
  paid := by
    intro P
    have hpaid := hshare P
    rw [left_of_queue hqueue]
    unfold left calls
    rw [hqueue', hhanded, calls_cons, List.map_append, List.sum_append]
    omega
  calls := by
    intro P
    unfold calls
    rw [hhanded, calls_cons]
    omega

/-- The rows behind the first one have other ids. -/
theorem map_fail_rest (hqueue : t.queue = r :: rest) (error : String) :
    rest.map (Outbox.fail r.id error) = rest := by
  have hsorted := t.outbox.queue_sorted t.ids
  rw [← queue, hqueue, List.pairwise_cons] at hsorted
  refine (List.map_congr_left fun s hs => ?_).trans (List.map_id rest)
  have hlt := hsorted.1 s hs
  exact if_neg (Nat.ne_of_gt hlt)

/-- The dispatcher accepts the first row. -/
def accept (t : Tally) (r : OutboxRow) : Tally :=
  { t with handed := (r.id, true) :: t.handed, ids := t.ids ++ [r.id] }

/-- It refuses the row, which has another attempt. -/
def refuse (t : Tally) (r : OutboxRow) (error : String) : Tally :=
  { t with
    outbox := t.outbox.update (Outbox.fail r.id error) (Outbox.fail_id _ _)
    handed := (r.id, false) :: t.handed }

/-- The row has had its last attempt and is marked as a dead letter. -/
def bury (t : Tally) (r : OutboxRow) (error : String) (now : Int64) : Tally :=
  { t.refuse r error with outbox := (t.refuse r error).outbox.markPublished [r.id] now }

/-- The tick marks what it has delivered. -/
def mark (t : Tally) (now : Int64) : Tally :=
  { t with outbox := t.outbox.markPublished t.ids now, ids := [] }

theorem accept_queue (hqueue : t.queue = r :: rest) : (t.accept r).queue = rest :=
  Outbox.queue_deliver hqueue

theorem refuse_queue (hqueue : t.queue = r :: rest) (error : String) :
    (t.refuse r error).queue = Outbox.fail r.id error r :: rest := by
  change (t.outbox.update (Outbox.fail r.id error) (Outbox.fail_id _ _)).queue t.ids = _
  rw [Outbox.queue_fail, ← queue, hqueue, List.map_cons, map_fail_rest hqueue]

theorem bury_queue (hqueue : t.queue = r :: rest) (error : String) (now : Int64) :
    (t.bury r error now).queue = rest := by
  have hburied := Outbox.queue_markPublished_head (refuse_queue hqueue error) now
  rw [Outbox.fail_id] at hburied
  exact hburied

theorem mark_queue (t : Tally) (now : Int64) : (t.mark now).queue = t.queue := by
  change (t.outbox.markPublished t.ids now).queue [] = _
  rw [Outbox.queue_nil, Outbox.queue_markPublished]
  rfl

/-- A row that is done with pays for the call with an attempt that it had left. -/
theorem one_le_share (hr : r.attempts < maxDispatchAttempts) (P : Nat → Bool) :
    (([] : List OutboxRow).map (share P)).sum + (if P r.id then 1 else 0) ≤ share P r := by
  rw [List.map_nil, List.sum_nil]
  unfold share
  split
  · omega
  · exact Nat.le_refl _

theorem accept_spends (ht : t.Fresh) (hqueue : t.queue = r :: rest) : Spends t (t.accept r) := by
  have hr := ht r (hqueue ▸ List.mem_cons_self)
  exact spends_of_queue (l := []) ht hqueue (accept_queue hqueue) rfl (by simp) (one_le_share hr)

theorem bury_spends (ht : t.Fresh) (hqueue : t.queue = r :: rest) (error : String) (now : Int64) :
    Spends t (t.bury r error now) := by
  have hr := ht r (hqueue ▸ List.mem_cons_self)
  exact spends_of_queue (l := []) ht hqueue (bury_queue hqueue error now) rfl (by simp)
    (one_le_share hr)

theorem refuse_spends (ht : t.Fresh) (hqueue : t.queue = r :: rest) (error : String)
    (hleft : r.attempts + 1 < maxDispatchAttempts) : Spends t (t.refuse r error) := by
  have hfail : (Outbox.fail r.id error r).attempts = r.attempts + 1 := by
    simp [Outbox.fail]
  refine spends_of_queue (l := [Outbox.fail r.id error r]) ht hqueue (refuse_queue hqueue error) rfl
    ?_ ?_
  · intro s hs
    rw [List.mem_singleton.mp hs, hfail]
    exact hleft
  · intro P
    simp only [share, List.map_cons, List.map_nil, List.sum_singleton, Outbox.fail_id, hfail]
    split
    · omega
    · exact Nat.le_refl _

theorem mark_spends (ht : t.Fresh) (now : Int64) : Spends t (t.mark now) := by
  refine ⟨?_, fun P => ?_, fun P => Nat.le_refl _⟩
  · intro s hs
    rw [mark_queue] at hs
    exact ht s hs
  · unfold left
    rw [mark_queue]
    exact Nat.le_refl _

end Moves

end Tally

/-! ## One tick -/

variable [DecidableEq Pool]

/-- A dispatcher: its answer may depend on all that has happened. -/
abbrev Dispatcher (Pool : Type) :=
  World Pool → RelaySource Pool → DomainEvent → Except DispatchError Unit

/-- The database works, the dispatcher answers. -/
def exec (D : Dispatcher Pool) (w : World Pool) :
    (op : RelayOp Pool) → RelayOp.Res op → World Pool → Prop
  | .fetchUnpublished p limit, r, w' => w' = w ∧ r = (w.outbox p).fetchUnpublished limit
  | .dispatch src ev, r, w' => r = D w src ev ∧ w' = w.hand src.pool ev.id r.isOk
  | .recordFailure p id error, r, w' =>
    match (w.outbox p).recordFailure id error with
    | .ok (n, o) => r = .ok n ∧ w' = w.setOutbox p o
    | .error e => r = .error e ∧ w' = w
  | .markPublished p ids, r, w' =>
    ∃ now, r = .ok () ∧ w' = w.setOutbox p ((w.outbox p).markPublished ids now)

theorem exec_total (D : Dispatcher Pool) (w : World Pool) (op : RelayOp Pool) :
    ∃ r w', exec D w op r w' := by
  cases op with
  | fetchUnpublished p limit => exact ⟨_, _, rfl, rfl⟩
  | dispatch src ev => exact ⟨_, _, rfl, rfl⟩
  | recordFailure p id error =>
    simp only [exec]
    cases (w.outbox p).recordFailure id error with
    | ok recorded => exact ⟨.ok recorded.1, w.setOutbox p recorded.2, rfl, rfl⟩
    | error e => exact ⟨.error e, w, rfl, rfl⟩
  | markPublished p ids => exact ⟨_, _, 0, rfl, rfl⟩

/-- The outbox of the pool while a tick has delivered `ids`. -/
def tally (w : World Pool) (p : Pool) (ids : List Nat) : Tally := ⟨w.outbox p, w.handed p, ids⟩

/-- The other outboxes are left alone. -/
def Elsewhere (p : Pool) (w w' : World Pool) : Prop :=
  ∀ q, q ≠ p → w'.outbox q = w.outbox q ∧ w'.handed q = w.handed q

omit [DecidableEq Pool] in
theorem Elsewhere.refl (p : Pool) (w : World Pool) : Elsewhere p w w := fun _ _ => ⟨rfl, rfl⟩

omit [DecidableEq Pool] in
theorem Elsewhere.trans {p : Pool} {a b c : World Pool} (hab : Elsewhere p a b)
    (hbc : Elsewhere p b c) : Elsewhere p a c := by
  intro q hq
  obtain ⟨houtbox, hhanded⟩ := hab q hq
  obtain ⟨houtbox', hhanded'⟩ := hbc q hq
  exact ⟨houtbox'.trans houtbox, hhanded'.trans hhanded⟩

theorem elsewhere_hand (w : World Pool) (p : Pool) (id : Nat) (ok : Bool) :
    Elsewhere p w (w.hand p id ok) := by
  intro q hq
  rw [World.hand_handed, if_neg hq]
  exact ⟨rfl, rfl⟩

theorem elsewhere_setOutbox (w : World Pool) (p : Pool) (o : Outbox) :
    Elsewhere p w (w.setOutbox p o) := by
  intro q hq
  rw [World.setOutbox_outbox, if_neg hq]
  exact ⟨rfl, rfl⟩

theorem tally_accept (w : World Pool) (p : Pool) (r : OutboxRow) (ids : List Nat) :
    tally (w.hand p r.id true) p (ids ++ [r.id]) = (tally w p ids).accept r := by
  rw [tally, World.hand_handed, if_pos rfl]
  rfl

theorem tally_refuse (w : World Pool) (p : Pool) (r : OutboxRow) (ids : List Nat)
    (error : String) :
    tally ((w.hand p r.id false).setOutbox p
      ((w.outbox p).update (Outbox.fail r.id error) (Outbox.fail_id _ _))) p ids =
        (tally w p ids).refuse r error := by
  rw [tally, World.setOutbox_outbox, if_pos rfl, World.setOutbox_handed, World.hand_handed,
    if_pos rfl]
  rfl

theorem tally_mark (w : World Pool) (p : Pool) (ids : List Nat) (now : Int64) :
    tally (w.setOutbox p ((w.outbox p).markPublished ids now)) p [] = (tally w p ids).mark now := by
  rw [tally, World.setOutbox_outbox, if_pos rfl]
  rfl

theorem tally_bury {w w' : World Pool} {p : Pool} {r : OutboxRow} {ids : List Nat} {error : String}
    (h : tally w' p ids = (tally w p ids).refuse r error) (now : Int64) :
    tally (w'.setOutbox p ((w'.outbox p).markPublished [r.id] now)) p ids =
      (tally w p ids).bury r error now := by
  rw [tally, World.setOutbox_outbox, if_pos rfl, World.setOutbox_handed, Tally.bury, ← h]
  rfl

/-- What the loop over a batch does to the outbox of its source. -/
structure Delivers (p : Pool) (w : World Pool) (ids : List Nat) (w' : World Pool)
    (ids' : List Nat) : Prop where
  elsewhere : Elsewhere p w w'
  spends : (tally w p ids).Fresh → (tally w p ids).Spends (tally w' p ids')

/-- The dispatcher was called. -/
def Calls (p : Pool) (w w' : World Pool) : Prop :=
  (tally w p []).calls (fun _ => true) < (tally w' p []).calls fun _ => true

omit [DecidableEq Pool] in
/-- One call of the dispatcher and what the loop makes of the answer, then the rest. -/
theorem Delivers.cons {p : Pool} {w w₁ w' : World Pool} {ids ids₁ ids' : List Nat} {x : Nat × Bool}
    (hfirst : Delivers p w ids w₁ ids₁) (hrest : Delivers p w₁ ids₁ w' ids')
    (hhanded : w₁.handed p = x :: w.handed p) :
    Delivers p w ids w' ids' ∧ ((tally w p ids).Fresh → Calls p w w') := by
  refine ⟨⟨hfirst.elsewhere.trans hrest.elsewhere, fun hfresh => ?_⟩, fun hfresh => ?_⟩
  · have hspends := hfirst.spends hfresh
    exact hspends.trans (hrest.spends hspends.fresh)
  · have hspends := hfirst.spends hfresh
    have hmore := (hrest.spends hspends.fresh).calls fun _ => true
    have hone : (w₁.handed p).countP (fun _ => true) = (w.handed p).countP (fun _ => true) + 1 := by
      rw [hhanded, List.countP_cons]
      rfl
    change (w₁.handed p).countP (fun _ => true) ≤ (w'.handed p).countP (fun _ => true) at hmore
    change (w.handed p).countP (fun _ => true) < (w'.handed p).countP (fun _ => true)
    omega

theorem handed_hand (w : World Pool) (p : Pool) (id : Nat) (ok : Bool) :
    (w.hand p id ok).handed p = (id, ok) :: w.handed p := by
  rw [World.hand_handed, if_pos rfl]

/-- A row that the dispatcher refuses is buried, and the loop goes on, or it keeps its place and
the loop ends. -/
theorem refused_runs {D : Dispatcher Pool} {src : RelaySource Pool} {events : List DomainEvent}
    {ids : List Nat} {w w' : World Pool} {r : Except DbError (List Nat)} {row : OutboxRow}
    {rest : List OutboxRow} {e : DispatchError}
    (h : Runs (exec D) (refused src row.toEvent events ids e) (w.hand src.pool row.id false) r w')
    (hqueue : (tally w src.pool ids).queue = row :: rest) :
    ∃ w₁, Delivers src.pool w ids w₁ ids ∧
      w₁.handed src.pool = (row.id, false) :: w.handed src.pool ∧
      (((tally w₁ src.pool ids).queue = rest ∧ Runs (exec D) (deliver src events ids).run w₁ r w') ∨
        (r = .ok ids ∧ w' = w₁)) := by
  have hrow : row ∈ (w.outbox src.pool).rows := by
    have hmem : row ∈ (tally w src.pool ids).queue := hqueue ▸ List.mem_cons_self
    exact (Outbox.mem_queue.mp hmem).1.1
  rw [refused, runs_call_iff] at h
  obtain ⟨n, w₂, hrecord, hafter⟩ := h
  simp only [exec, World.hand_outbox, show row.toEvent.id = row.id from rfl,
    Outbox.recordFailure_of_mem _ hrow] at hrecord
  obtain ⟨rfl, rfl⟩ := hrecord
  have hrefuse := tally_refuse w src.pool row ids e.toString
  have helse := (elsewhere_hand w src.pool row.id false).trans (elsewhere_setOutbox _ src.pool
    ((w.outbox src.pool).update (Outbox.fail row.id e.toString) (Outbox.fail_id _ _)))
  by_cases hmax : maxDispatchAttempts ≤ row.attempts + 1
  · simp only [if_pos hmax, runs_call_iff] at hafter
    obtain ⟨_, w₃, ⟨now, rfl, rfl⟩, hbehind⟩ := hafter
    have hbury := tally_bury hrefuse now
    refine ⟨_, ⟨helse.trans (elsewhere_setOutbox _ src.pool _), fun hfresh => ?_⟩,
      handed_hand w src.pool row.id false, Or.inl ⟨?_, hbehind⟩⟩
    · exact hbury ▸ Tally.bury_spends hfresh hqueue e.toString now
    · rw [show row.toEvent.id = row.id from rfl, hbury, Tally.bury_queue hqueue]
  · simp only [if_neg hmax, runs_pure_iff] at hafter
    obtain ⟨rfl, rfl⟩ := hafter
    refine ⟨_, ⟨helse, fun hfresh => ?_⟩, handed_hand w src.pool row.id false, Or.inr ⟨rfl, rfl⟩⟩
    exact hrefuse ▸ Tally.refuse_spends hfresh hqueue e.toString (Nat.lt_of_not_le hmax)

/-- The loop over a batch returns, whatever the dispatcher answers. -/
theorem deliver_runs {D : Dispatcher Pool} {src : RelaySource Pool} {events : List DomainEvent}
    {ids : List Nat} {w w' : World Pool} {r : Except DbError (List Nat)}
    (h : Runs (exec D) (deliver src events ids).run w r w')
    (hevents : events <+: ((tally w src.pool ids).queue).map OutboxRow.toEvent) :
    ∃ ids', r = .ok ids' ∧ Delivers src.pool w ids w' ids' ∧
      (events ≠ [] → (tally w src.pool ids).Fresh → Calls src.pool w w') := by
  induction events generalizing ids w with
  | nil =>
    rw [deliver_nil, runs_pure_iff] at h
    obtain ⟨rfl, rfl⟩ := h
    exact ⟨ids, rfl, ⟨.refl _ _, .refl⟩, fun hne => absurd rfl hne⟩
  | cons ev events ih =>
    rw [deliver_cons, runs_call_iff] at h
    obtain ⟨answer, w₁, hdispatch, hrest⟩ := h
    obtain ⟨_, rfl⟩ : answer = D w src ev ∧ w₁ = w.hand src.pool ev.id answer.isOk := hdispatch
    obtain ⟨row, rest, hqueue, rfl, hprefix⟩ := Outbox.head_of_prefix hevents
    rcases answer with e | ⟨⟩
    · change Runs (exec D) (refused src row.toEvent events ids e) (w.hand src.pool row.id false) r w'
        at hrest
      obtain ⟨w₂, hfirst, hhanded, ⟨hqueue', hgoes⟩ | ⟨rfl, rfl⟩⟩ := refused_runs hrest hqueue
      · obtain ⟨ids', rfl, hdelivers, _⟩ := ih hgoes (hqueue' ▸ hprefix)
        obtain ⟨hall, hcalls⟩ := hfirst.cons hdelivers hhanded
        exact ⟨ids', rfl, hall, fun _ => hcalls⟩
      · obtain ⟨hall, hcalls⟩ := hfirst.cons ⟨.refl _ _, .refl⟩ hhanded
        exact ⟨ids, rfl, hall, fun _ => hcalls⟩
    · change Runs (exec D) (deliver src events (ids ++ [row.id])).run (w.hand src.pool row.id true) r w'
        at hrest
      have haccept := tally_accept w src.pool row ids
      have hfirst : Delivers src.pool w ids (w.hand src.pool row.id true) (ids ++ [row.id]) :=
        ⟨elsewhere_hand _ _ _ _, fun hfresh => haccept ▸ Tally.accept_spends hfresh hqueue⟩
      obtain ⟨ids', rfl, hdelivers, _⟩ := ih hrest (by
        rw [haccept, Tally.accept_queue hqueue]
        exact hprefix)
      obtain ⟨hall, hcalls⟩ := hfirst.cons hdelivers (handed_hand w src.pool row.id true)
      exact ⟨ids', rfl, hall, fun _ => hcalls⟩

/-! ## What a tick leaves in place -/

/-- The rows of an outbox stay, each in a later state. -/
def Keeps (o o' : Outbox) : Prop :=
  ∃ f : OutboxRow → OutboxRow, o'.rows = o.rows.map f ∧ ∀ r, Later r (f r)

theorem Keeps.refl (o : Outbox) : Keeps o o := ⟨id, (List.map_id _).symm, Later.refl⟩

theorem Keeps.trans {a b c : Outbox} (hab : Keeps a b) (hbc : Keeps b c) : Keeps a c := by
  obtain ⟨f, hf, hlater⟩ := hab
  obtain ⟨g, hg, hlater'⟩ := hbc
  exact ⟨g ∘ f, by rw [hg, hf, List.map_map], fun r => (hlater r).trans (hlater' (f r))⟩

theorem keeps_setOutbox {w : World Pool} {p : Pool} {o : Outbox} (h : Keeps (w.outbox p) o)
    (q : Pool) : Keeps (w.outbox q) ((w.setOutbox p o).outbox q) := by
  rw [World.setOutbox_outbox]
  split
  · rename_i hq
    exact hq ▸ h
  · exact .refl _

theorem exec_keeps {D : Dispatcher Pool} {w w' : World Pool} {op : RelayOp Pool}
    {r : RelayOp.Res op} (h : exec D w op r w') (q : Pool) :
    Keeps (w.outbox q) (w'.outbox q) := by
  cases op with
  | fetchUnpublished p limit => exact h.1 ▸ .refl _
  | dispatch src ev =>
    obtain ⟨_, rfl⟩ := h
    exact .refl _
  | recordFailure p id error =>
    simp only [exec] at h
    cases hrecord : (w.outbox p).recordFailure id error with
    | error e =>
      rw [hrecord] at h
      exact h.2 ▸ .refl _
    | ok recorded =>
      rw [hrecord] at h
      obtain ⟨_, rfl⟩ := h
      refine keeps_setOutbox ?_ q
      rw [(Outbox.recordFailure_ok hrecord).1]
      exact ⟨_, rfl, later_fail id error⟩
  | markPublished p ids =>
    obtain ⟨now, _, rfl⟩ := h
    refine keeps_setOutbox ?_ q
    rw [Outbox.markPublished_eq]
    exact ⟨_, rfl, later_publishAll now ids⟩

/-- No program of the relay does more. -/
theorem runs_keeps {D : Dispatcher Pool} {α : Type} {prog : RelayProg Pool α} {w w' : World Pool}
    {a : α} (h : Runs (exec D) prog w a w') (q : Pool) : Keeps (w.outbox q) (w'.outbox q) := by
  induction h with
  | pure a w => exact .refl _
  | call hcall _ ih => exact (exec_keeps hcall q).trans ih

/-- Whatever waits in the outbox can be read back. -/
def Legible (o : Outbox) : Prop := ∀ r ∈ o.unpublished, r.payload.Readable

theorem Legible.keeps {o o' : Outbox} (h : Legible o) (hkeeps : Keeps o o') : Legible o' := by
  obtain ⟨f, hrows, hlater⟩ := hkeeps
  intro r hr
  obtain ⟨hr, hp⟩ := Outbox.mem_unpublished.mp hr
  rw [hrows] at hr
  obtain ⟨s, hs, rfl⟩ := List.mem_map.mp hr
  have hwaits : s.publishedAt = none := by
    by_contra hpublished
    exact (hlater s).published hpublished hp
  have hpayload : (f s).payload = s.payload := congrArg DomainEvent.payload (hlater s).event
  rw [hpayload]
  exact h s (Outbox.mem_unpublished.mpr ⟨hs, hwaits⟩)

theorem Legible.fetched {o : Outbox} (h : Legible o) (limit : Nat) :
    o.fetchUnpublished limit = .ok ((o.unpublished.take limit).map OutboxRow.toEvent) :=
  Outbox.fetchUnpublished_eq_ok.mpr ⟨fun r hr => h r (List.mem_of_mem_take hr), rfl⟩

/-! ## A tick over what can be read -/

/-- One pass over a source: fetch, deliver, mark. -/
theorem pass_runs {D : Dispatcher Pool} {src : RelaySource Pool} {sources : List (RelaySource Pool)}
    {batch total : Nat} {w w' : World Pool} {r : Except DbError Nat}
    (h : Runs (exec D) (relayTick (src :: sources) batch total).run w r w')
    (hlegible : Legible (w.outbox src.pool)) :
    ∃ w₁ total', Runs (exec D) (relayTick sources batch total').run w₁ r w' ∧
      (∀ q, Keeps (w.outbox q) (w₁.outbox q)) ∧ Delivers src.pool w [] w₁ [] ∧
      ((w.outbox src.pool).unpublished.take batch ≠ [] → (tally w src.pool []).Fresh →
        Calls src.pool w w₁) := by
  rw [relayTick_cons, runs_call_iff] at h
  obtain ⟨_, _, ⟨hworld, rfl⟩, hpass⟩ := h
  rw [hworld, hlegible.fetched batch] at hpass
  obtain ⟨answer, w₁, hdeliver, hrest⟩ := runs_bind_iff.mp hpass
  have hkeeps := runs_keeps hdeliver
  have hevents : ((w.outbox src.pool).unpublished.take batch).map OutboxRow.toEvent <+:
      ((tally w src.pool []).queue).map OutboxRow.toEvent := by
    change _ <+: ((w.outbox src.pool).queue []).map OutboxRow.toEvent
    rw [Outbox.queue_nil]
    exact (List.take_prefix batch _).map _
  obtain ⟨ids, rfl, hdelivers, hcalls⟩ := deliver_runs hdeliver hevents
  have hserved : (w.outbox src.pool).unpublished.take batch ≠ [] →
      (tally w src.pool []).Fresh → Calls src.pool w w₁ :=
    fun hsome => hcalls fun hnone => hsome (List.map_eq_nil_iff.mp hnone)
  by_cases hnone : ids.isEmpty = true
  · obtain rfl := List.isEmpty_iff.mp hnone
    exact ⟨w₁, total, hrest, hkeeps, hdelivers, hserved⟩
  · simp only [if_neg hnone, runs_call_iff] at hrest
    obtain ⟨answer, w₂, hmarks, hrest⟩ := hrest
    have hkeeps₂ := exec_keeps hmarks
    obtain ⟨now, rfl, rfl⟩ := hmarks
    have hmark := tally_mark w₁ src.pool ids now
    refine ⟨_, _, hrest, fun q => (hkeeps q).trans (hkeeps₂ q),
      ⟨hdelivers.elsewhere.trans (elsewhere_setOutbox _ _ _), fun hfresh => ?_⟩, hserved⟩
    have hspends := hdelivers.spends hfresh
    rw [hmark]
    exact hspends.trans (Tally.mark_spends hspends.fresh now)

/-- What a tick calls is paid for, and a source that has events is served. -/
theorem relayTick_runs {D : Dispatcher Pool} {sources : List (RelaySource Pool)}
    {batch total : Nat} {w w' : World Pool} {r : Except DbError Nat}
    (h : Runs (exec D) (relayTick sources batch total).run w r w')
    (hlegible : ∀ src ∈ sources, Legible (w.outbox src.pool)) {p : Pool}
    (hfresh : (tally w p []).Fresh) :
    (tally w p []).Spends (tally w' p []) ∧
      ((∃ src ∈ sources, src.pool = p) → (w.outbox p).unpublished.take batch ≠ [] →
        Calls p w w') := by
  induction sources generalizing total w with
  | nil =>
    rw [relayTick_nil, runs_pure_iff] at h
    obtain ⟨rfl, rfl⟩ := h
    exact ⟨.refl hfresh, fun hsrc => by simp at hsrc⟩
  | cons src sources ih =>
    obtain ⟨w₁, total', hrest, hkeeps, hdelivers, hcalls⟩ :=
      pass_runs h (hlegible src List.mem_cons_self)
    have hlegible₁ : ∀ s ∈ sources, Legible (w₁.outbox s.pool) :=
      fun s hs => (hlegible s (List.mem_cons_of_mem src hs)).keeps (hkeeps s.pool)
    by_cases hp : src.pool = p
    · subst hp
      have hspends := hdelivers.spends hfresh
      obtain ⟨hlater, _⟩ := ih hrest hlegible₁ hspends.fresh
      refine ⟨hspends.trans hlater, fun _ hevents => ?_⟩
      exact Nat.lt_of_lt_of_le (hcalls hevents hfresh) (hlater.calls _)
    · obtain ⟨houtbox, hhanded⟩ := hdelivers.elsewhere p (Ne.symm hp)
      have hsame : tally w₁ p [] = tally w p [] := by
        rw [tally, houtbox, hhanded]
        rfl
      have hlater := ih hrest hlegible₁ (hsame ▸ hfresh)
      rw [hsame, houtbox] at hlater
      refine ⟨hlater.1, fun hsrc hevents => ?_⟩
      have hbehind : ∃ s ∈ sources, s.pool = p := by
        obtain ⟨s, hs, hsp⟩ := hsrc
        rcases List.mem_cons.mp hs with rfl | hs
        · exact absurd hsp hp
        · exact ⟨s, hs, hsp⟩
      have hserved := hlater.2 hbehind hevents
      unfold Calls at hserved ⊢
      rw [hsame] at hserved
      exact hserved

/-! ## A row that cannot be read -/

/-- The row is still unpublished. -/
def Waits (w : World Pool) (p : Pool) (r : OutboxRow) : Prop :=
  ∃ r' ∈ (w.outbox p).unpublished, r'.toEvent = r.toEvent

section Waiting
variable {D : Dispatcher Pool} {w w' : World Pool} {p : Pool} {r : OutboxRow}

theorem Waits.setOutbox (h : Waits w p r) {q : Pool} {o : Outbox}
    (ho : q = p → ∃ r' ∈ o.unpublished, r'.toEvent = r.toEvent) : Waits (w.setOutbox q o) p r := by
  rw [Waits, World.setOutbox_outbox]
  split
  · rename_i hp
    exact ho hp.symm
  · exact h

theorem Waits.fail (h : Waits w p r) (q : Pool) (id : Nat) (error : String) :
    Waits (w.setOutbox q ((w.outbox q).update (Outbox.fail id error) (Outbox.fail_id _ _))) p r := by
  refine h.setOutbox ?_
  rintro rfl
  obtain ⟨r', hr', hevent⟩ := h
  refine ⟨Outbox.fail id error r', ?_, (Outbox.fail_toEvent _ _ _).trans hevent⟩
  rw [← Outbox.queue_nil, Outbox.queue_fail, Outbox.queue_nil]
  exact List.mem_map_of_mem hr'

/-- Marking other rows leaves it waiting. -/
theorem Waits.mark (h : Waits w p r) {q : Pool} {ids : List Nat} (hids : q = p → r.id ∉ ids)
    (now : Int64) : Waits (w.setOutbox q ((w.outbox q).markPublished ids now)) p r := by
  refine h.setOutbox ?_
  rintro rfl
  obtain ⟨r', hr', hevent⟩ := h
  have hid : r'.id = r.id := congrArg DomainEvent.id hevent
  refine ⟨r', ?_, hevent⟩
  rw [Outbox.queue_markPublished, Outbox.mem_queue]
  exact ⟨Outbox.mem_unpublished.mp hr', hid ▸ hids rfl⟩

/-- The refusal of another event leaves it waiting, whether the loop goes on or ends. -/
theorem refused_waits {src : RelaySource Pool} {ev : DomainEvent} {events : List DomainEvent}
    {ids : List Nat} {e : DispatchError} {a : Except DbError (List Nat)}
    (h : Runs (exec D) (refused src ev events ids e) w a w') (hr : Waits w p r)
    (hev : src.pool = p → r.id ∉ [ev.id]) :
    (∃ w₁, Waits w₁ p r ∧ Runs (exec D) (deliver src events ids).run w₁ a w') ∨
      (Waits w' p r ∧ ∀ ids', a = .ok ids' → ids' = ids) := by
  rw [refused, runs_call_iff] at h
  obtain ⟨n, w₁, hrecord, hafter⟩ := h
  simp only [exec] at hrecord
  cases hok : (w.outbox src.pool).recordFailure ev.id e.toString with
  | error d =>
    rw [hok] at hrecord
    obtain ⟨rfl, rfl⟩ := hrecord
    rw [runs_pure_iff] at hafter
    obtain ⟨rfl, rfl⟩ := hafter
    exact .inr ⟨hr, by rintro ids' ⟨⟩⟩
  | ok recorded =>
    rw [hok] at hrecord
    obtain ⟨rfl, rfl⟩ := hrecord
    have hfailed : Waits (w.setOutbox src.pool recorded.2) p r := by
      rw [(Outbox.recordFailure_ok hok).1]
      exact hr.fail src.pool ev.id e.toString
    by_cases hmax : maxDispatchAttempts ≤ recorded.1
    · simp only [if_pos hmax, runs_call_iff] at hafter
      obtain ⟨_, w₂, ⟨now, rfl, rfl⟩, hbehind⟩ := hafter
      exact .inl ⟨_, hfailed.mark hev now, hbehind⟩
    · simp only [if_neg hmax, runs_pure_iff] at hafter
      obtain ⟨rfl, rfl⟩ := hafter
      exact .inr ⟨hfailed, by rintro ids' ⟨⟩; rfl⟩

/-- A batch without the row neither publishes it nor counts it as delivered. -/
theorem deliver_waits {src : RelaySource Pool} {events : List DomainEvent} {ids : List Nat}
    {a : Except DbError (List Nat)} (h : Runs (exec D) (deliver src events ids).run w a w')
    (hr : Waits w p r) (hevents : src.pool = p → ∀ ev ∈ events, ev.id ≠ r.id)
    (hids : src.pool = p → r.id ∉ ids) :
    Waits w' p r ∧ ∀ ids', a = .ok ids' → src.pool = p → r.id ∉ ids' := by
  induction events generalizing ids w with
  | nil =>
    rw [deliver_nil, runs_pure_iff] at h
    obtain ⟨rfl, rfl⟩ := h
    refine ⟨hr, ?_⟩
    rintro ids' ⟨⟩
    exact hids
  | cons ev events ih =>
    have hrest : src.pool = p → ∀ ev ∈ events, ev.id ≠ r.id :=
      fun hp e he => hevents hp e (List.mem_cons_of_mem ev he)
    have hev : src.pool = p → r.id ∉ [ev.id] := by
      intro hp hmem
      exact hevents hp ev List.mem_cons_self (List.mem_singleton.mp hmem).symm
    rw [deliver_cons, runs_call_iff] at h
    obtain ⟨answer, w₁, ⟨_, rfl⟩, hgoes⟩ := h
    have hhanded : Waits (w.hand src.pool ev.id answer.isOk) p r := hr
    rcases answer with e | ⟨⟩
    · change Runs (exec D) (refused src ev events ids e) _ a w' at hgoes
      rcases refused_waits hgoes hhanded hev with ⟨w₂, hwaits, hbehind⟩ | ⟨hwaits, hends⟩
      · exact ih hbehind hwaits hrest hids
      · exact ⟨hwaits, fun ids' ha => hends ids' ha ▸ hids⟩
    · refine ih hgoes hhanded hrest fun hp hmem => ?_
      rcases List.mem_append.mp hmem with hmem | hmem
      · exact hids hp hmem
      · exact hev hp hmem

omit [DecidableEq Pool] in
/-- What was read is not the row. -/
theorem ne_of_fetched (hunreadable : ¬r.payload.Readable) (hr : Waits w p r) {limit : Nat}
    {events : List DomainEvent} (h : (w.outbox p).fetchUnpublished limit = .ok events) :
    ∀ ev ∈ events, ev.id ≠ r.id := by
  obtain ⟨hreadable, rfl⟩ := Outbox.fetchUnpublished_eq_ok.mp h
  intro ev hev hid
  obtain ⟨s, hs, rfl⟩ := List.mem_map.mp hev
  obtain ⟨r', hr', hevent⟩ := hr
  have hsame : s = r' := by
    have hs' := (Outbox.mem_unpublished.mp (List.mem_of_mem_take hs)).1
    refine (w.outbox p).eq_of_id_eq hs' (Outbox.mem_unpublished.mp hr').1 (hid.trans ?_)
    exact (congrArg DomainEvent.id hevent).symm
  have hpayload : s.payload = r.payload := hsame ▸ congrArg DomainEvent.payload hevent
  exact hunreadable (hpayload ▸ hreadable s hs)

/-- No tick publishes it. -/
theorem relayTick_waits {sources : List (RelaySource Pool)} {batch total : Nat}
    {a : Except DbError Nat} (h : Runs (exec D) (relayTick sources batch total).run w a w')
    (hunreadable : ¬r.payload.Readable) (hr : Waits w p r) : Waits w' p r := by
  induction sources generalizing total w with
  | nil =>
    rw [relayTick_nil, runs_pure_iff] at h
    obtain ⟨rfl, rfl⟩ := h
    exact hr
  | cons src sources ih =>
    rw [relayTick_cons, runs_call_iff] at h
    obtain ⟨fetched, w₁, ⟨rfl, hfetched⟩, hpass⟩ := h
    cases fetched with
    | error d =>
      rw [runs_pure_iff] at hpass
      exact hpass.2 ▸ hr
    | ok events =>
      obtain ⟨answer, w₂, hdeliver, hrest⟩ := runs_bind_iff.mp hpass
      have hothers : src.pool = p → ∀ ev ∈ events, ev.id ≠ r.id := by
        rintro rfl
        exact ne_of_fetched hunreadable hr hfetched.symm
      obtain ⟨hwaits, hids⟩ := deliver_waits hdeliver hr hothers (fun _ => List.not_mem_nil)
      cases answer with
      | error d =>
        rw [runs_pure_iff] at hrest
        exact hrest.2 ▸ hwaits
      | ok delivered =>
        by_cases hnone : delivered.isEmpty = true
        · simp only [if_pos hnone] at hrest
          exact ih hrest hwaits
        · simp only [if_neg hnone, runs_call_iff] at hrest
          obtain ⟨_, w₃, ⟨now, rfl, rfl⟩, hrest⟩ := hrest
          exact ih hrest (hwaits.mark (hids delivered rfl) now)

end Waiting

/-! ## Ticks until the queue is empty -/

/-- So many executions of `relay_tick`, one after the other; each returns a number or fails. -/
inductive Ticks (D : Dispatcher Pool) (sources : List (RelaySource Pool)) (batch : Nat) :
    Nat → World Pool → World Pool → Prop where
  | zero (w : World Pool) : Ticks D sources batch 0 w w
  | succ {n : Nat} {r : Except DbError Nat} {w w' w'' : World Pool} :
      Ticks D sources batch n w w' → Runs (exec D) (relayTick sources batch 0).run w' r w'' →
      Ticks D sources batch (n + 1) w w''

theorem exists_ticks (D : Dispatcher Pool) (sources : List (RelaySource Pool)) (batch n : Nat)
    (w : World Pool) : ∃ w', Ticks D sources batch n w w' := by
  induction n with
  | zero => exact ⟨w, .zero w⟩
  | succ n ih =>
    obtain ⟨w', hticks⟩ := ih
    obtain ⟨r, w'', htick⟩ := exists_runs (exec_total D) (relayTick sources batch 0).run w'
    exact ⟨w'', .succ hticks htick⟩

/-- With attempts left to every row, nothing left to spend means no row. -/
theorem queue_of_left {t : Tally} (ht : t.Fresh) (hleft : t.left (fun _ => true) = 0) :
    t.queue = [] := by
  cases hqueue : t.queue with
  | nil => rfl
  | cons r rest =>
    have hr := ht r (hqueue ▸ List.mem_cons_self)
    rw [Tally.left_of_queue hqueue] at hleft
    simp only [Tally.share, if_true] at hleft
    omega

theorem left_of_nil {t : Tally} (P : Nat → Bool) (h : t.queue = []) : t.left P = 0 := by
  rw [Tally.left, h]
  rfl

section Queue
variable {D : Dispatcher Pool} {sources : List (RelaySource Pool)} {src : RelaySource Pool}
  {batch n : Nat} {w w' : World Pool}

theorem ticks_keeps (h : Ticks D sources batch n w w') (q : Pool) :
    Keeps (w.outbox q) (w'.outbox q) := by
  induction h with
  | zero w => exact .refl _
  | succ _ htick ih => exact ih.trans (runs_keeps htick q)

theorem ticks_wait {p : Pool} {r : OutboxRow} (h : Ticks D sources batch n w w')
    (hunreadable : ¬r.payload.Readable) (hr : Waits w p r) : Waits w' p r := by
  induction h with
  | zero w => exact hr
  | succ _ htick ih => exact relayTick_waits htick hunreadable (ih hr)

/-- Every tick before the queue is empty calls the dispatcher. -/
theorem ticks_run (hlegible : ∀ src ∈ sources, Legible (w.outbox src.pool)) (hsrc : src ∈ sources)
    (hbatch : 1 ≤ batch) (hfresh : (tally w src.pool []).Fresh)
    (h : Ticks D sources batch n w w') :
    (tally w src.pool []).Spends (tally w' src.pool []) ∧
      ((tally w' src.pool []).queue = [] ∨
        (tally w src.pool []).calls (fun _ => true) + n ≤
          (tally w' src.pool []).calls fun _ => true) := by
  induction h with
  | zero w => exact ⟨.refl hfresh, Or.inr (Nat.le_refl _)⟩
  | @succ n r w w₁ w₂ hticks htick ih =>
    obtain ⟨hspends, hcalls⟩ := ih hlegible hfresh
    have hlegible₁ : ∀ s ∈ sources, Legible (w₁.outbox s.pool) :=
      fun s hs => (hlegible s hs).keeps (ticks_keeps hticks s.pool)
    obtain ⟨htickSpends, hserved⟩ := relayTick_runs htick hlegible₁ hspends.fresh
    refine ⟨hspends.trans htickSpends, ?_⟩
    cases hqueue : (tally w₁ src.pool []).queue with
    | nil =>
      have hpaid := htickSpends.paid fun _ => true
      have hmore := htickSpends.calls fun _ => true
      rw [left_of_nil _ hqueue] at hpaid
      exact Or.inl (queue_of_left htickSpends.fresh (by omega))
    | cons row rest =>
      have hevents : (w₁.outbox src.pool).unpublished.take batch ≠ [] := by
        change (w₁.outbox src.pool).queue [] = row :: rest at hqueue
        rw [Outbox.queue_nil] at hqueue
        obtain ⟨k, rfl⟩ := Nat.exists_eq_add_of_le' hbatch
        rw [hqueue, List.take_succ_cons]
        exact List.cons_ne_nil _ _
      have hserved := hserved ⟨src, hsrc, rfl⟩ hevents
      unfold Calls at hserved
      rw [hqueue] at hcalls
      have hbefore := hcalls.resolve_left (List.cons_ne_nil _ _)
      exact Or.inr (by omega)

end Queue

/-- Rows with other ids have no share. -/
theorem sum_share_eq_zero {rows : List OutboxRow} {id : Nat} (h : ∀ s ∈ rows, s.id ≠ id) :
    (rows.map (Tally.share fun i => i = id)).sum = 0 := by
  apply List.sum_eq_zero
  intro x hx
  obtain ⟨s, hs, rfl⟩ := List.mem_map.mp hx
  exact if_neg (by simpa using h s hs)

/-- The attempts left to one row. -/
theorem left_of_mem {t : Tally} {r : OutboxRow} (hr : r ∈ t.queue) :
    t.left (fun id => id = r.id) = maxDispatchAttempts - r.attempts := by
  obtain ⟨before, behind, hqueue⟩ := List.append_of_mem hr
  have hsorted := t.outbox.queue_sorted t.ids
  change t.queue.Pairwise _ at hsorted
  rw [hqueue, List.pairwise_append, List.pairwise_cons] at hsorted
  obtain ⟨_, ⟨hbehind, _⟩, hbefore⟩ := hsorted
  have hleft : (before.map (Tally.share fun id => id = r.id)).sum = 0 :=
    sum_share_eq_zero fun s hs => Nat.ne_of_lt (hbefore s hs r List.mem_cons_self)
  have hright : (behind.map (Tally.share fun id => id = r.id)).sum = 0 :=
    sum_share_eq_zero fun s hs => Nat.ne_of_gt (hbehind s hs)
  have hmine : Tally.share (fun id => id = r.id) r = maxDispatchAttempts - r.attempts :=
    if_pos (decide_eq_true rfl)
  rw [Tally.left, hqueue, List.map_append, List.map_cons, List.sum_append, List.sum_cons, hleft,
    hright, hmine]
  omega

theorem left_true (t : Tally) :
    t.left (fun _ => true) = (t.queue.map fun r => maxDispatchAttempts - r.attempts).sum := rfl

/-- What a source and its events may rely on: after as many ticks as there are attempts left,
nothing is unpublished, and no event is handed over more often than it had attempts. -/
def Served (D : Dispatcher Pool) (sources : List (RelaySource Pool)) (batch : Nat)
    (w : World Pool) (src : RelaySource Pool) : Prop :=
  ∀ n, (∃ w', Ticks D sources batch n w w') ∧ ∀ w', Ticks D sources batch n w w' →
    (((w.outbox src.pool).unpublished.map fun r => maxDispatchAttempts - r.attempts).sum ≤ n →
      (w'.outbox src.pool).unpublished = []) ∧
    ∀ r ∈ (w.outbox src.pool).unpublished,
      (w'.handed src.pool).countP (fun x => x.1 = r.id) ≤
        (w.handed src.pool).countP (fun x => x.1 = r.id) + (maxDispatchAttempts - r.attempts)

theorem served_of_legible (D : Dispatcher Pool) {sources : List (RelaySource Pool)} {batch : Nat}
    (hbatch : 1 ≤ batch) {w : World Pool}
    (hlegible : ∀ src ∈ sources, Legible (w.outbox src.pool)) {src : RelaySource Pool}
    (hsrc : src ∈ sources)
    (hfresh : ∀ r ∈ (w.outbox src.pool).unpublished, r.attempts < maxDispatchAttempts) :
    Served D sources batch w src := by
  intro n
  refine ⟨exists_ticks D sources batch n w, fun w' hticks => ?_⟩
  have hqueue : ∀ v : World Pool, (tally v src.pool []).queue = (v.outbox src.pool).unpublished :=
    fun v => Outbox.queue_nil _
  have htally : (tally w src.pool []).Fresh := by
    intro r hr
    rw [hqueue] at hr
    exact hfresh r hr
  obtain ⟨hspends, hcalls⟩ := ticks_run hlegible hsrc hbatch htally hticks
  constructor
  · intro hn
    rw [← hqueue, ← left_true] at hn
    rw [← hqueue]
    rcases hcalls with hempty | hcalls
    · exact hempty
    · have hpaid := hspends.paid fun _ => true
      exact queue_of_left hspends.fresh (by omega)
  · intro r hr
    rw [← hqueue] at hr
    have hpaid := hspends.paid fun id => id = r.id
    rw [left_of_mem hr] at hpaid
    unfold Tally.calls at hpaid
    change (w'.handed src.pool).countP (fun x => x.1 = r.id) + _ ≤
      (w.handed src.pool).countP (fun x => x.1 = r.id) + _ at hpaid
    omega

/-- Whatever the dispatcher answers, all sources of the relay are served if and only if every
payload that waits in one of them can be read back. -/
theorem poison_pill_iff (D : Dispatcher Pool) {sources : List (RelaySource Pool)} {batch : Nat}
    (hbatch : 1 ≤ batch) (w : World Pool)
    (hfresh : ∀ src ∈ sources, ∀ r ∈ (w.outbox src.pool).unpublished,
      r.attempts < maxDispatchAttempts) :
    (∀ src ∈ sources, Served D sources batch w src) ↔
      ∀ src ∈ sources, ∀ r ∈ (w.outbox src.pool).unpublished, r.payload.Readable := by
  constructor
  · intro hserved src hsrc r hr
    by_contra hunreadable
    obtain ⟨⟨w', hticks⟩, hall⟩ := hserved src hsrc
      (((w.outbox src.pool).unpublished.map fun r => maxDispatchAttempts - r.attempts).sum)
    obtain ⟨r', hr', _⟩ := ticks_wait hticks hunreadable ⟨r, hr, rfl⟩
    rw [(hall w' hticks).1 (Nat.le_refl _)] at hr'
    cases hr'
  · intro hlegible src hsrc
    exact served_of_legible D hbatch hlegible hsrc (hfresh src hsrc)

/-- A dispatcher that fails on the first event and accepts the second. -/
def pill : Dispatcher Unit := fun _ _ ev =>
  if ev.id = 1 then .error ⟨"cannot read it"⟩ else .ok ()

/-- The pill has had nine attempts, another event waits behind it. -/
def twoWaiting : World Unit := World.initial.setOutbox ()
  ((((Outbox.empty.enqueue created 0).enqueue deleted 0).update
    (fun r => if r.id = 1 then { r with attempts := 9 } else r) (by intro r; split <;> rfl)))

theorem poison_pill_twoWaiting :
    ∃ w', Ticks pill [Pipeline.source] 1 11 twoWaiting w' ∧ (w'.outbox ()).unpublished = [] ∧
      (w'.handed ()).countP (fun x => x.1 = 1) ≤ 1 := by
  have hserved := (poison_pill_iff pill (Nat.le_refl 1) twoWaiting (by decide)).mpr (by decide)
    Pipeline.source (List.mem_singleton_self _)
  obtain ⟨⟨w', hticks⟩, hall⟩ := hserved 11
  obtain ⟨hempty, hhanded⟩ := hall w' hticks
  refine ⟨w', hticks, hempty (by decide), ?_⟩
  exact hhanded _ List.mem_cons_self

/-- An event that no tick can read, and another one behind it. -/
def blocked : World Unit := World.initial.setOutbox ()
  ((Outbox.empty.enqueue unreadable 0).enqueue deleted 0)

/-- Whatever the dispatcher would answer and however often the relay ticks, no attempt is
counted, and the event behind is never handed over. -/
theorem queue_blocked (D : Dispatcher Unit) {batch : Nat} (hbatch : 1 ≤ batch) {n : Nat}
    {w w' : World Unit} (hw : w = blocked) (h : Ticks D [Pipeline.source] batch n w w') :
    w' = blocked := by
  induction h with
  | zero => exact hw
  | succ _ htick ih =>
    rw [ih hw, relayTick_cons, runs_call_iff] at htick
    obtain ⟨fetched, w₁, ⟨rfl, hfetched⟩, hrest⟩ := htick
    cases fetched with
    | error d =>
      rw [runs_pure_iff] at hrest
      exact hrest.2
    | ok events =>
      have hall := (Outbox.fetchUnpublished_eq_ok.mp hfetched.symm).1
      obtain ⟨k, rfl⟩ := Nat.exists_eq_add_of_le' hbatch
      exact absurd (hall _ List.mem_cons_self) Value.not_readable_nested

/-- Every event has all its attempts, and after any number of ticks both are still there. -/
theorem pill_blocks :
    (∀ r ∈ (blocked.outbox ()).unpublished, r.attempts = 0) ∧
      ∀ batch, 1 ≤ batch → ∀ n, ∃ w, Ticks pill [Pipeline.source] batch n blocked w ∧
        (w.outbox ()).unpublished.length = 2 ∧ w.handed () = [] := by
  refine ⟨by decide, fun batch hbatch n => ?_⟩
  obtain ⟨w, hticks⟩ := exists_ticks pill [Pipeline.source] batch n blocked
  obtain rfl := queue_blocked pill hbatch rfl hticks
  exact ⟨_, hticks, rfl, rfl⟩

end TinyShop.PoisonPill
