import TinyShop.Base.Program
import TinyShop.Outbox

/-!
# In-process relay

`relay_tick` of `crates/db/src/relay.rs` as a program over its atomic database
steps and the calls of the dispatcher. Every `?` of the source is the error case of
`ExceptT`; `break` is the return from `deliver`.
-/

namespace TinyShop.Relay

open Base
set_option autoImplicit false

/-- Name given to the dispatcher, and the pool of the source's database. -/
structure RelaySource (Pool : Type) where
  name : String
  pool : Pool

structure DispatchError where
  message : String
deriving DecidableEq, Repr

def DispatchError.toString (e : DispatchError) : String := "dispatch error: " ++ e.message

def maxDispatchAttempts : Nat := 10

inductive RelayOp (Pool : Type) where
  | fetchUnpublished (pool : Pool) (limit : Nat)
  | dispatch (src : RelaySource Pool) (ev : DomainEvent)
  | recordFailure (pool : Pool) (id : Nat) (error : String)
  | markPublished (pool : Pool) (ids : List Nat)

variable {Pool : Type}

def RelayOp.Res : RelayOp Pool → Type
  | .fetchUnpublished _ _ => Except DbError (List DomainEvent)
  | .dispatch _ _ => Except DispatchError Unit
  | .recordFailure _ _ _ => Except DbError Nat
  | .markPublished _ _ => Except DbError Unit

abbrev RelayProg (Pool α : Type) := Prog (RelayOp Pool) RelayOp.Res α

abbrev RelayM (Pool : Type) := ExceptT DbError (Prog (RelayOp Pool) RelayOp.Res)

def fetchUnpublished (pool : Pool) (limit : Nat) : RelayM Pool (List DomainEvent) :=
  ExceptT.mk (Prog.perform (RelayOp.fetchUnpublished pool limit))

def dispatch (src : RelaySource Pool) (ev : DomainEvent) :
    RelayM Pool (Except DispatchError Unit) :=
  ExceptT.lift (Prog.perform (RelayOp.dispatch src ev))

def recordFailure (pool : Pool) (id : Nat) (error : String) : RelayM Pool Nat :=
  ExceptT.mk (Prog.perform (RelayOp.recordFailure pool id error))

def markPublished (pool : Pool) (ids : List Nat) : RelayM Pool Unit :=
  ExceptT.mk (Prog.perform (RelayOp.markPublished pool ids))

/-- The loop over the events of one batch. -/
def deliver (src : RelaySource Pool) : List DomainEvent → List Nat → RelayM Pool (List Nat)
  | [], delivered => return delivered
  | ev :: events, delivered => do
    match ← dispatch src ev with
    | .ok () => deliver src events (delivered ++ [ev.id])
    | .error e =>
      let attempts ← recordFailure src.pool ev.id e.toString
      if maxDispatchAttempts ≤ attempts then
        -- dead letter: the queue goes on behind it
        markPublished src.pool [ev.id]
        deliver src events delivered
      else
        -- transient: the order is kept, the next tick tries again
        return delivered

/-- The loop over the sources; `total` counts the delivered events. -/
def relayTick : List (RelaySource Pool) → (batch : Nat) → (total : Nat) → RelayM Pool Nat
  | [], _, total => return total
  | src :: sources, batch, total => do
    let events ← fetchUnpublished src.pool batch
    let delivered ← deliver src events []
    if delivered.isEmpty then
      relayTick sources batch total
    else
      markPublished src.pool delivered
      relayTick sources batch (total + delivered.length)

theorem deliver_nil (src : RelaySource Pool) (delivered : List Nat) :
    (deliver src [] delivered).run = .pure (.ok delivered) := rfl

/-- The rest of `deliver` after the dispatcher has refused `ev`. -/
def refused (src : RelaySource Pool) (ev : DomainEvent) (events : List DomainEvent)
    (delivered : List Nat) (e : DispatchError) : RelayProg Pool (Except DbError (List Nat)) :=
  .call (.recordFailure src.pool ev.id e.toString) fun
    | .error d => .pure (.error d)
    | .ok attempts =>
      if maxDispatchAttempts ≤ attempts then
        .call (.markPublished src.pool [ev.id]) fun
          | .error d => .pure (.error d)
          | .ok () => (deliver src events delivered).run
      else .pure (.ok delivered)

theorem deliver_cons (src : RelaySource Pool) (ev : DomainEvent) (events : List DomainEvent)
    (delivered : List Nat) :
    (deliver src (ev :: events) delivered).run = .call (.dispatch src ev) fun
      | .ok () => (deliver src events (delivered ++ [ev.id])).run
      | .error e => refused src ev events delivered e := by
  change Prog.call _ _ = Prog.call _ _
  congr 1
  funext r
  rcases r with e | ⟨⟩
  · change Prog.call _ _ = Prog.call _ _
    congr 1
    funext r
    rcases r with d | attempts
    · rfl
    · change ExceptT.run (ite _ _ _) = ite _ _ _
      split
      · change Prog.call _ _ = Prog.call _ _
        congr 1
        funext r
        rcases r with d | ⟨⟩ <;> rfl
      · rfl
  · rfl

theorem relayTick_nil (batch total : Nat) :
    (relayTick ([] : List (RelaySource Pool)) batch total).run = .pure (.ok total) := rfl

theorem relayTick_cons (src : RelaySource Pool) (sources : List (RelaySource Pool))
    (batch total : Nat) :
    (relayTick (src :: sources) batch total).run = .call (.fetchUnpublished src.pool batch) fun
      | .error d => .pure (.error d)
      | .ok events => (deliver src events []).run >>= fun
        | .error d => .pure (.error d)
        | .ok delivered =>
          if delivered.isEmpty then (relayTick sources batch total).run
          else .call (.markPublished src.pool delivered) fun
            | .error d => .pure (.error d)
            | .ok () => (relayTick sources batch (total + delivered.length)).run := by
  change Prog.call _ _ = Prog.call _ _
  congr 1
  funext r
  rcases r with d | events
  · rfl
  · change (deliver src events []).run >>= _ = (deliver src events []).run >>= _
    congr 1
    funext r
    rcases r with d | delivered
    · rfl
    · change ExceptT.run (ite _ _ _) = ite _ _ _
      split
      · rfl
      · change Prog.call _ _ = Prog.call _ _
        congr 1
        funext r
        rcases r with d | ⟨⟩ <;> rfl

end TinyShop.Relay
