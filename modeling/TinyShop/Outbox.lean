import TinyShop.Shared

/-!
# Transactional outbox

The `outbox` table of a context and the statements of `crates/db/src/outbox.rs`.
The key is `AUTOINCREMENT`, so the rows are kept in the order of their ids and
`seq` is the largest id handed out; both facts are fields of the table.
-/

namespace TinyShop

set_option autoImplicit false

/-- `sqlx::Error`, as far as the statements of this program can raise it. -/
inductive SqlxError where
  | primaryKey (columns : String)
  | unique (columns : String)
  | foreignKey (table : String)
  | check (constraint : String)
  | integerOverflow
  | rowNotFound
  | other (message : String)
deriving DecidableEq, Repr

def databaseError (code : Nat) (message : String) : String :=
  "error returned from database: (code: " ++ code.repr ++ ") " ++ message

def SqlxError.toString : SqlxError → String
  | .primaryKey columns => databaseError 1555 ("UNIQUE constraint failed: " ++ columns)
  | .unique columns => databaseError 2067 ("UNIQUE constraint failed: " ++ columns)
  | .foreignKey _ => databaseError 787 "FOREIGN KEY constraint failed"
  | .check constraint => databaseError 275 ("CHECK constraint failed: " ++ constraint)
  | .integerOverflow => databaseError 1 "integer overflow"
  | .rowNotFound => "no rows returned by a query that expected to return at least one row"
  | .other message => message

inductive DbError where
  | sqlx (e : SqlxError)
  | json (message : String)
deriving DecidableEq, Repr

def DbError.toString : DbError → String
  | .sqlx e => "sqlx: " ++ e.toString
  | .json message => "json: " ++ message

structure OutboxRow where
  id : Nat
  aggregate : String
  aggregateId : String
  eventType : String
  payload : Value
  createdAt : Int64
  publishedAt : Option Int64
  attempts : Nat
  lastError : Option String

def OutboxRow.toEvent (r : OutboxRow) : DomainEvent where
  id := r.id
  aggregate := r.aggregate
  aggregateId := r.aggregateId
  eventType := r.eventType
  payload := r.payload
  createdAt := r.createdAt

/-- `serde_json::from_str(&payload_str)?`. -/
def OutboxRow.readEvent (r : OutboxRow) : Except DbError DomainEvent :=
  if r.payload.Readable then .ok r.toEvent else .error (.json "recursion limit exceeded")

@[ext]
structure Outbox where
  rows : List OutboxRow
  seq : Nat
  sorted : rows.Pairwise fun a b => a.id < b.id
  bounded : ∀ r ∈ rows, r.id ≤ seq

namespace Outbox

def empty : Outbox := ⟨[], 0, .nil, by simp⟩

theorem eq_of_id_eq (o : Outbox) {r s : OutboxRow} (hr : r ∈ o.rows) (hs : s ∈ o.rows)
    (h : r.id = s.id) : r = s := by
  have hsorted := o.sorted
  by_contra hne
  have hlt := List.pairwise_iff_getElem.mp hsorted
  obtain ⟨i, hi, rfl⟩ := List.getElem_of_mem hr
  obtain ⟨j, hj, rfl⟩ := List.getElem_of_mem hs
  rcases Nat.lt_trichotomy i j with hij | rfl | hij
  · have := hlt i j hi hj hij
    omega
  · exact hne rfl
  · have := hlt j i hj hi hij
    omega

def newRow (o : Outbox) (ev : NewEvent) (now : Int64) : OutboxRow where
  id := o.seq + 1
  aggregate := ev.aggregate
  aggregateId := ev.aggregateId
  eventType := ev.eventType
  payload := ev.payload
  createdAt := now
  publishedAt := none
  attempts := 0
  lastError := none

/-- `enqueue`; the returned id is the new `seq`. -/
def enqueue (o : Outbox) (ev : NewEvent) (now : Int64) : Outbox where
  rows := o.rows ++ [o.newRow ev now]
  seq := o.seq + 1
  sorted := by
    refine List.pairwise_append.mpr ⟨o.sorted, List.pairwise_singleton _ _, ?_⟩
    intro r hr s hs
    rw [List.mem_singleton] at hs
    have := o.bounded r hr
    simp only [hs, newRow]
    omega
  bounded := by
    intro r hr
    rcases List.mem_append.mp hr with hr | hr
    · exact Nat.le_succ_of_le (o.bounded r hr)
    · rw [List.mem_singleton] at hr
      simp [hr, newRow]

/-- An update of rows that leaves their ids alone. -/
def update (o : Outbox) (f : OutboxRow → OutboxRow) (keeps : ∀ r, (f r).id = r.id) : Outbox where
  rows := o.rows.map f
  seq := o.seq
  sorted := by
    rw [List.pairwise_map]
    exact o.sorted.imp fun {a b} h => by rw [keeps a, keeps b]; exact h
  bounded := by
    intro r hr
    obtain ⟨s, hs, rfl⟩ := List.mem_map.mp hr
    rw [keeps s]
    exact o.bounded s hs

def unpublished (o : Outbox) : List OutboxRow := o.rows.filter fun r => r.publishedAt.isNone

/-- `published_at IS NULL ORDER BY id ASC LIMIT ?`; one payload that cannot be read ends the
reading of all. -/
def fetchUnpublished (o : Outbox) (limit : Nat) : Except DbError (List DomainEvent) :=
  (o.unpublished.take limit).mapM OutboxRow.readEvent

theorem mapM_readEvent_eq_ok {rows : List OutboxRow} {events : List DomainEvent} :
    rows.mapM OutboxRow.readEvent = .ok events ↔
      (∀ r ∈ rows, r.payload.Readable) ∧ events = rows.map OutboxRow.toEvent := by
  induction rows generalizing events with
  | nil =>
    rw [List.mapM_nil]
    constructor
    · rintro ⟨⟩
      exact ⟨by simp, rfl⟩
    · rintro ⟨_, rfl⟩
      rfl
  | cons r rows ih =>
    rw [List.mapM_cons, OutboxRow.readEvent]
    by_cases hr : r.payload.Readable
    · rw [if_pos hr]
      cases hrest : rows.mapM OutboxRow.readEvent with
      | error e =>
        constructor
        · rintro ⟨⟩
        · rintro ⟨hall, _⟩
          have hok := ih.mpr ⟨fun s hs => hall s (List.mem_cons_of_mem r hs), rfl⟩
          rw [hrest] at hok
          cases hok
      | ok rest =>
        obtain ⟨hall, rfl⟩ := ih.mp hrest
        constructor
        · rintro ⟨⟩
          exact ⟨List.forall_mem_cons.mpr ⟨hr, hall⟩, rfl⟩
        · rintro ⟨_, rfl⟩
          rfl
    · rw [if_neg hr]
      constructor
      · rintro ⟨⟩
      · rintro ⟨hall, _⟩
        exact absurd (hall r List.mem_cons_self) hr

theorem fetchUnpublished_eq_ok {o : Outbox} {limit : Nat} {events : List DomainEvent} :
    o.fetchUnpublished limit = .ok events ↔
      (∀ r ∈ o.unpublished.take limit, r.payload.Readable) ∧
        events = (o.unpublished.take limit).map OutboxRow.toEvent :=
  mapM_readEvent_eq_ok

/-- What was read is the beginning of what waits. -/
theorem prefix_of_fetchUnpublished {o : Outbox} {limit : Nat} {events : List DomainEvent}
    (h : o.fetchUnpublished limit = .ok events) :
    events <+: o.unpublished.map OutboxRow.toEvent := by
  rw [(fetchUnpublished_eq_ok.mp h).2]
  exact (List.take_prefix _ _).map _

def fail (id : Nat) (error : String) (r : OutboxRow) : OutboxRow :=
  if r.id = id then { r with attempts := r.attempts + 1, lastError := some error } else r

@[simp] theorem fail_id (id : Nat) (error : String) (r : OutboxRow) :
    (fail id error r).id = r.id := by
  unfold fail
  split <;> rfl

@[simp] theorem fail_publishedAt (id : Nat) (error : String) (r : OutboxRow) :
    (fail id error r).publishedAt = r.publishedAt := by
  unfold fail
  split <;> rfl

@[simp] theorem fail_toEvent (id : Nat) (error : String) (r : OutboxRow) :
    (fail id error r).toEvent = r.toEvent := by
  unfold fail
  split <;> rfl

theorem attempts_le_fail (id : Nat) (error : String) (r : OutboxRow) :
    r.attempts ≤ (fail id error r).attempts := by
  unfold fail
  split
  · exact Nat.le_succ _
  · exact Nat.le_refl _

/-- `UPDATE … RETURNING attempts`: the new number of attempts. -/
def recordFailure (o : Outbox) (id : Nat) (error : String) : Except DbError (Nat × Outbox) :=
  match o.rows.find? fun r => r.id = id with
  | none => .error (.sqlx .rowNotFound)
  | some r => .ok (r.attempts + 1, o.update (fail id error) (fail_id id error))

theorem recordFailure_ok {o o' : Outbox} {id n : Nat} {error : String}
    (h : o.recordFailure id error = .ok (n, o')) :
    o' = o.update (fail id error) (fail_id id error) ∧
      ∃ r ∈ o'.rows, r.id = id ∧ r.attempts = n := by
  unfold recordFailure at h
  split at h
  · cases h
  · rename_i r hr
    simp only [Except.ok.injEq, Prod.mk.injEq] at h
    obtain ⟨rfl, rfl⟩ := h
    have hid : r.id = id := by simpa using List.find?_some hr
    refine ⟨rfl, fail id error r, List.mem_map_of_mem (List.mem_of_find?_eq_some hr), ?_, ?_⟩
    · rw [fail_id, hid]
    · simp [fail, hid]

theorem recordFailure_of_mem (o : Outbox) {r : OutboxRow} (hr : r ∈ o.rows) (error : String) :
    o.recordFailure r.id error =
      .ok (r.attempts + 1, o.update (fail r.id error) (fail_id r.id error)) := by
  unfold recordFailure
  split
  · rename_i hno
    have := List.find?_eq_none.mp hno r hr
    simp at this
  · rename_i s hs
    have hid : s.id = r.id := by simpa using List.find?_some hs
    rw [o.eq_of_id_eq (List.mem_of_find?_eq_some hs) hr hid]

def publish (now : Int64) (id : Nat) (r : OutboxRow) : OutboxRow :=
  if r.id = id then { r with publishedAt := some now } else r

theorem publish_id (now : Int64) (id : Nat) (r : OutboxRow) : (publish now id r).id = r.id := by
  unfold publish
  split <;> rfl

/-- One `UPDATE` for each id, in one transaction. -/
def markPublished (o : Outbox) (ids : List Nat) (now : Int64) : Outbox :=
  ids.foldl (fun o id => o.update (publish now id) (publish_id now id)) o

def publishAll (now : Int64) (ids : List Nat) (r : OutboxRow) : OutboxRow :=
  if r.id ∈ ids then { r with publishedAt := some now } else r

@[simp] theorem publishAll_id (now : Int64) (ids : List Nat) (r : OutboxRow) :
    (publishAll now ids r).id = r.id := by
  unfold publishAll
  split <;> rfl

@[simp] theorem publishAll_attempts (now : Int64) (ids : List Nat) (r : OutboxRow) :
    (publishAll now ids r).attempts = r.attempts := by
  unfold publishAll
  split <;> rfl

@[simp] theorem publishAll_toEvent (now : Int64) (ids : List Nat) (r : OutboxRow) :
    (publishAll now ids r).toEvent = r.toEvent := by
  unfold publishAll
  split <;> rfl

theorem publishAll_publishedAt_isNone (now : Int64) (ids : List Nat) (r : OutboxRow) :
    (publishAll now ids r).publishedAt.isNone = (r.publishedAt.isNone && !(ids.contains r.id)) := by
  unfold publishAll
  split <;> simp_all

theorem publish_publishAll (now : Int64) (id : Nat) (ids : List Nat) (r : OutboxRow) :
    publishAll now ids (publish now id r) = publishAll now (id :: ids) r := by
  unfold publishAll publish
  by_cases h : r.id = id <;> by_cases h' : r.id ∈ ids <;> simp [h, h']

theorem markPublished_eq (o : Outbox) (ids : List Nat) (now : Int64) :
    o.markPublished ids now = o.update (publishAll now ids) (publishAll_id now ids) := by
  induction ids generalizing o with
  | nil =>
    have hid : publishAll now [] = id := by
      funext r
      simp [publishAll]
    have hrows : o.rows.map (publishAll now []) = o.rows := by rw [hid, List.map_id]
    exact Outbox.ext hrows.symm rfl
  | cons id ids ih =>
    have hstep := ih (o.update (publish now id) (publish_id now id))
    rw [markPublished, List.foldl_cons]
    rw [markPublished] at hstep
    rw [hstep]
    simp [update, Function.comp_def, publish_publishAll]

theorem mem_update {o : Outbox} {f : OutboxRow → OutboxRow} {keeps : ∀ r, (f r).id = r.id}
    {r : OutboxRow} : r ∈ (o.update f keeps).rows ↔ ∃ s ∈ o.rows, f s = r := by
  simp [update]

theorem mem_enqueue {o : Outbox} {ev : NewEvent} {now : Int64} {r : OutboxRow} :
    r ∈ (o.enqueue ev now).rows ↔ r ∈ o.rows ∨ r = o.newRow ev now := by
  simp [enqueue]

@[simp] theorem rows_empty : empty.rows = [] := rfl

@[simp] theorem rows_update (o : Outbox) (f : OutboxRow → OutboxRow)
    (keeps : ∀ r, (f r).id = r.id) : (o.update f keeps).rows = o.rows.map f := rfl

@[simp] theorem rows_enqueue (o : Outbox) (ev : NewEvent) (now : Int64) :
    (o.enqueue ev now).rows = o.rows ++ [o.newRow ev now] := rfl

end Outbox

end TinyShop
