import TinyShop.Base.Transaction
import TinyShop.OrdersHistory

/-!
# The orders database over a connection

The writing calls of `repository.rs` and `cart_repo.rs`, statement by statement, each in
one transaction: an early return drops it. Whatever fails on the way, a call does what
`OrderRepo` and `CartRepo` say in one step, or nothing.
-/

namespace TinyShop

open Base
set_option autoImplicit false

/-- The statements that write; the results are numbers of affected rows. -/
inductive OrdersStatement where
  | insertOrder (id buyerId currency : String) (now : Int64)
  | insertOrderItem (orderId : String) (item : NewOrderItem)
  | updateTotal (orderId : String)
  | insertContact (orderId : String) (contact : NewOrderContact) (now : Int64)
  | enqueue (ev : NewEvent) (clock : Int64)
  | insertCart (tokenHash : String) (now : Int64)
  | upsertItem (cartId : String) (item : NewCartItem) (now : Int64)
  | setQty (cartId : String) (itemId qty : Int)
  | deleteItem (cartId : String) (itemId : Int)
  | deleteItems (cartId : String)
  | touchCart (cartId : String) (now : Int64)

@[reducible] def OrdersStatement.Res (_ : OrdersStatement) : Type := Nat

namespace OrdersDb

def one : Except SqlxError OrdersDb → Except SqlxError (Nat × OrdersDb) :=
  Except.map fun db => (1, db)

def count (db : OrdersDb) (p : CartItem → Bool) : Nat := db.cartItems.rows.countP p

/-- `CHECK (qty > 0)` is looked at for the rows that are written. -/
def apply (db : OrdersDb) : (st : OrdersStatement) → Except SqlxError (st.Res × OrdersDb)
  | .insertOrder id buyerId currency now => one (OrderRepo.insertOrder db id buyerId currency now)
  | .insertOrderItem orderId item => one (OrderRepo.insertItem db orderId item)
  | .updateTotal orderId => one (OrderRepo.updateTotal db orderId)
  | .insertContact orderId contact now => one (OrderRepo.insertContact db orderId contact now)
  | .enqueue ev clock => one (.ok (db.enqueue ev clock))
  | .insertCart tokenHash now =>
    if free : db.carts.find? tokenHash = none then
      .ok (1, { db with carts := db.carts.insert (CartRepo.newCart tokenHash now) free })
    else .error (.primaryKey "carts.token_hash")
  | .upsertItem cartId item now =>
    if hqty : 0 < item.qty then one (CartRepo.insertItem db cartId item hqty now)
    else .error (.check "qty > 0")
  | .setQty cartId itemId qty =>
    let affected := db.count (CartRepo.isItem cartId itemId)
    if hqty : 0 < qty then
      .ok (affected, { db with cartItems := CartRepo.setQty db cartId itemId qty hqty })
    else if affected = 0 then .ok (0, db)
    else .error (.check "qty > 0")
  | .deleteItem cartId itemId =>
    .ok (db.count (CartRepo.isItem cartId itemId),
      CartRepo.deleteItems db (CartRepo.isItem cartId itemId))
  | .deleteItems cartId =>
    .ok (db.count fun r => r.cartId = cartId, CartRepo.deleteItems db fun r => r.cartId = cartId)
  | .touchCart cartId now => .ok (1, CartRepo.touchCart db cartId now)

end OrdersDb

namespace OrdersConnection

abbrev Body := Statements SqlxError OrdersStatement.Res

abbrev Call (δ α : Type) := Client SqlxError OrdersStatement.Res (Except δ α)

/-! ## Orders -/

def createOrder (o : NewOrder) (now clock : Int64) : Call OrderError Unit :=
  inTransaction .db do
    let _ ← statement (.insertOrder o.id o.buyerId o.currency now)
    let _ ← statement (.enqueue (OrderRepo.orderCreated o.id o.buyerId o.currency) clock)
    return ()

def addOrderItem (item : NewOrderItem) : Call OrderError Unit :=
  inTransaction .db do
    let _ ← statement (.insertOrderItem item.orderId item)
    let _ ← statement (.updateTotal item.orderId)
    return ()

/-- The loop over the items of a checkout. -/
def insertItems (orderId : String) : List NewOrderItem → Body Unit
  | [] => return ()
  | item :: items => do
    let _ ← statement (.insertOrderItem orderId item)
    insertItems orderId items

def insertContact (orderId : String) (now : Int64) : Option NewOrderContact → Body Unit
  | some contact => do
    let _ ← statement (.insertContact orderId contact now)
    return ()
  | none => return ()

def checkout (buyerId currency : String) (items : List NewOrderItem)
    (contact : Option NewOrderContact) (orderId : String) (now clock : Int64) :
    Call OrderError String :=
  if items.isEmpty then .pure (.error .emptyCheckout)
  else match items.find? fun item => item.currency ≠ currency with
    | some item => .pure (.error (.currencyMismatch currency item.currency))
    | none => inTransaction .db do
      let _ ← statement (.insertOrder orderId buyerId currency now)
      insertItems orderId items
      let _ ← statement (.updateTotal orderId)
      insertContact orderId now contact
      let _ ← statement (.enqueue (OrderRepo.orderCreated orderId buyerId currency) clock)
      return orderId

/-! ## Carts -/

/-- A single statement is a transaction of its own. -/
def createCart (hashToken : String → String) (raw : String) (now : Int64) :
    Call CartError (CartToken × Cart) :=
  inTransaction .db do
    let _ ← statement (.insertCart (hashToken raw) now)
    return (⟨raw⟩, CartRepo.newCart (hashToken raw) now)

def addItem (cartId : String) (item : NewCartItem) (now : Int64) : Call CartError Unit :=
  if item.qty ≤ 0 ∨ CartRepo.maxQty < item.qty then .pure (.error (.invalidQty item.qty))
  else inTransaction .db do
    let _ ← statement (.upsertItem cartId item now)
    let _ ← statement (.touchCart cartId now)
    return ()

def touchAffected (cartId : String) (now : Int64) (affected : Nat) : Body Unit :=
  if 0 < affected then do
    let _ ← statement (.touchCart cartId now)
    return ()
  else return ()

def updateQty (cartId : String) (itemId qty : Int) (now : Int64) : Call CartError Unit :=
  if qty < 0 ∨ CartRepo.maxQty < qty then .pure (.error (.invalidQty qty))
  else inTransaction .db do
    let affected ← if qty = 0 then statement (.deleteItem cartId itemId)
      else statement (.setQty cartId itemId qty)
    touchAffected cartId now affected

def removeItem (cartId : String) (itemId : Int) (now : Int64) : Call CartError Unit :=
  inTransaction .db do
    let affected ← statement (.deleteItem cartId itemId)
    touchAffected cartId now affected

def clear (cartId : String) (now : Int64) : Call CartError Unit :=
  inTransaction .db do
    let affected ← statement (.deleteItems cartId)
    touchAffected cartId now affected

/-! ## Each call is one step -/

section Refinement
variable {fails : SqlxError → Prop}

/-- A call without a result. -/
def unit {δ : Type} : Except δ OrdersDb → Except δ (Unit × OrdersDb) := Except.map fun db => ((), db)

theorem createOrder_atomic (o : NewOrder) (now clock : Int64) :
    Atomic OrdersDb.apply fails .db (createOrder o now clock)
      fun db => unit (OrderRepo.createOrder db o now clock) := by
  refine atomic_transaction (does_bind (does_statement _) fun _ =>
    does_bind (does_statement _) fun _ => does_pure ()) _ fun db => ?_
  simp only [OrdersDb.apply, OrdersDb.one, bind_step, OrderRepo.createOrder]
  cases OrderRepo.insertOrder db o.id o.buyerId o.currency now <;> rfl

theorem addOrderItem_atomic (item : NewOrderItem) :
    Atomic OrdersDb.apply fails .db (addOrderItem item)
      fun db => unit (OrderRepo.addItem db item) := by
  refine atomic_transaction (does_bind (does_statement _) fun _ =>
    does_bind (does_statement _) fun _ => does_pure ()) _ fun db => ?_
  simp only [OrdersDb.apply, OrdersDb.one, bind_step, OrderRepo.addItem]
  cases OrderRepo.insertItem db item.orderId item with
  | error e => rfl
  | ok db₁ =>
    simp only [bind, Except.bind]
    cases OrderRepo.updateTotal db₁ item.orderId <;> rfl

theorem insertItems_does (orderId : String) (items : List NewOrderItem) :
    Does OrdersDb.apply fails (insertItems orderId items) fun db =>
      unit (items.foldlM (fun db item => OrderRepo.insertItem db orderId item) db) := by
  induction items with
  | nil => exact does_pure ()
  | cons item items ih =>
    refine (does_bind (does_statement _) fun _ => ih).congr fun db => ?_
    simp only [OrdersDb.apply, OrdersDb.one, bind_step, List.foldlM_cons]
    cases OrderRepo.insertItem db orderId item <;> rfl

def contactOf (orderId : String) (now : Int64) (contact : Option NewOrderContact) (db : OrdersDb) :
    Except SqlxError OrdersDb :=
  match contact with
  | some contact => OrderRepo.insertContact db orderId contact now
  | none => .ok db

theorem insertContact_does (orderId : String) (now : Int64) (contact : Option NewOrderContact) :
    Does OrdersDb.apply fails (insertContact orderId now contact) fun db =>
      unit (contactOf orderId now contact db) := by
  cases contact with
  | none => exact does_pure ()
  | some contact =>
    refine (does_bind (does_statement _) fun _ => does_pure ()).congr fun db => ?_
    simp only [OrdersDb.apply, OrdersDb.one, bind_step, contactOf]
    cases OrderRepo.insertContact db orderId contact now <;> rfl

theorem checkoutTx_eq (db : OrdersDb) (buyerId currency : String) (items : List NewOrderItem)
    (contact : Option NewOrderContact) (orderId : String) (now clock : Int64) :
    OrderRepo.checkoutTx db buyerId currency items contact orderId now clock = do
      let db ← OrderRepo.insertOrder db orderId buyerId currency now
      let db ← items.foldlM (fun db item => OrderRepo.insertItem db orderId item) db
      let db ← OrderRepo.updateTotal db orderId
      let db ← contactOf orderId now contact db
      return db.enqueue (OrderRepo.orderCreated orderId buyerId currency) clock := by
  cases contact <;> rfl

theorem checkout_atomic (buyerId currency : String) (items : List NewOrderItem)
    (contact : Option NewOrderContact) (orderId : String) (now clock : Int64) :
    Atomic OrdersDb.apply fails .db (checkout buyerId currency items contact orderId now clock)
      fun db => (OrderRepo.checkout db buyerId currency items contact orderId now clock).map
        Prod.swap := by
  unfold checkout OrderRepo.checkout
  by_cases hempty : items.isEmpty = true
  · simp only [hempty, if_true]
    exact atomic_error _ fun _ => rfl
  · simp only [hempty, Bool.false_eq_true, if_false]
    cases items.find? fun item => item.currency ≠ currency with
    | some item => exact atomic_error _ fun _ => rfl
    | none =>
      refine atomic_transaction (does_bind (does_statement _) fun _ =>
        does_bind (insertItems_does orderId items) fun _ =>
        does_bind (does_statement _) fun _ =>
        does_bind (insertContact_does orderId now contact) fun _ =>
        does_bind (does_statement _) fun _ => does_pure orderId) _ fun db => ?_
      have hbody : OrderRepo.checkoutTx db buyerId currency items contact orderId now clock >>=
          (fun db => Except.ok (orderId, db)) = _ := congrArg (· >>= _) (checkoutTx_eq ..)
      simp only [bind_assoc, pure_bind] at hbody
      simp only [OrdersDb.apply, OrdersDb.one, unit, bind_step]
      refine Eq.trans ?_ (congrArg (Except.mapError OrderError.db) hbody)
      cases OrderRepo.checkoutTx db buyerId currency items contact orderId now clock <;> rfl

theorem createCart_atomic (hashToken : String → String) (raw : String) (now : Int64) :
    Atomic OrdersDb.apply fails .db (createCart hashToken raw now)
      fun db => (CartRepo.createCart db hashToken raw now).map Prod.swap := by
  refine atomic_transaction (does_bind (does_statement _) fun _ => does_pure _) _ fun db => ?_
  unfold CartRepo.createCart
  split
  · rename_i free
    rw [bind_of_ok (by rw [OrdersDb.apply, dif_pos free])]
    rfl
  · rename_i taken
    rw [bind_of_error (by rw [OrdersDb.apply, dif_neg taken])]
    rfl

theorem addItem_atomic (cartId : String) (item : NewCartItem) (now : Int64) :
    Atomic OrdersDb.apply fails .db (addItem cartId item now)
      fun db => unit (CartRepo.addItem db cartId item now) := by
  unfold addItem CartRepo.addItem
  by_cases hqty : item.qty ≤ 0 ∨ CartRepo.maxQty < item.qty
  · simp only [hqty, if_true, dif_pos]
    exact atomic_error _ fun _ => rfl
  · simp only [hqty, if_false, dif_neg, not_false_eq_true]
    refine atomic_transaction (does_bind (does_statement _) fun _ =>
      does_bind (does_statement _) fun _ => does_pure ()) _ fun db => ?_
    have hpos : 0 < item.qty := by omega
    simp only [OrdersDb.apply, dif_pos hpos, OrdersDb.one, bind_step]
    cases CartRepo.insertItem db cartId item hpos now <;> rfl

theorem touchAffected_does (cartId : String) (now : Int64) (affected : Nat) :
    Does OrdersDb.apply fails (touchAffected cartId now affected)
      fun db => unit (.ok (CartRepo.touchIf db (0 < affected) cartId now)) := by
  unfold touchAffected
  by_cases h : 0 < affected
  · simp only [h, if_true, decide_true]
    exact (does_bind (does_statement _) fun _ => does_pure ()).congr fun db => rfl
  · simp only [h, if_false, decide_false]
    exact does_pure ()

/-- A statement that counts rows, and the touch of the cart that has them. -/
theorem touching_atomic {counted : Body Nat}
    {f : StateT OrdersDb (Except SqlxError) Nat} (h : Does OrdersDb.apply fails counted f)
    (cartId : String) (now : Int64) {g : StateT OrdersDb (Except CartError) Unit}
    (hg : ∀ db, g db = ((f >>= fun affected db =>
      unit (.ok (CartRepo.touchIf db (0 < affected) cartId now))) db).mapError .db) :
    Atomic OrdersDb.apply fails .db (inTransaction .db (counted >>= touchAffected cartId now)) g :=
  atomic_transaction (does_bind h fun affected => touchAffected_does cartId now affected) _ hg

/-- Rows were affected if some row is addressed. -/
theorem count_pos (db : OrdersDb) (p : CartItem → Bool) :
    decide (0 < db.count p) = db.cartItems.rows.any p := by
  rw [Bool.eq_iff_iff, decide_eq_true_iff, List.any_eq_true]
  exact List.countP_pos_iff

theorem removeItem_atomic (cartId : String) (itemId : Int) (now : Int64) :
    Atomic OrdersDb.apply fails .db (removeItem cartId itemId now)
      fun db => unit (.ok (CartRepo.removeItem db cartId itemId now)) := by
  refine touching_atomic (does_statement _) cartId now fun db => ?_
  rw [bind_of_ok rfl, count_pos]
  rfl

theorem clear_atomic (cartId : String) (now : Int64) :
    Atomic OrdersDb.apply fails .db (clear cartId now)
      fun db => unit (.ok (CartRepo.clear db cartId now)) := by
  refine touching_atomic (does_statement _) cartId now fun db => ?_
  rw [bind_of_ok rfl, count_pos]
  rfl

theorem updateQty_atomic (cartId : String) (itemId qty : Int) (now : Int64) :
    Atomic OrdersDb.apply fails .db (updateQty cartId itemId qty now)
      fun db => unit (CartRepo.updateQty db cartId itemId qty now) := by
  unfold updateQty CartRepo.updateQty
  by_cases hqty : qty < 0 ∨ CartRepo.maxQty < qty
  · simp only [hqty, if_true, dif_pos]
    exact atomic_error _ fun _ => rfl
  · simp only [hqty, if_false, dif_neg, not_false_eq_true]
    by_cases hzero : qty = 0
    · simp only [hzero, if_true, dif_pos]
      refine touching_atomic (does_statement _) cartId now fun db => ?_
      rw [bind_of_ok rfl, count_pos]
      rfl
    · have hpos : 0 < qty := by omega
      simp only [hzero, if_false, dif_neg, not_false_eq_true]
      refine touching_atomic (does_statement _) cartId now fun db => ?_
      rw [bind_of_ok (by rw [OrdersDb.apply, dif_pos hpos]), count_pos]
      rfl

end Refinement

end OrdersConnection

/-! ## Runs of calls -/

inductive OrdersError where
  | order (e : OrderError)
  | cart (e : CartError)
deriving DecidableEq, Repr

inductive OrdersAnswer where
  | done
  | placed (orderId : String)
  | cart (token : CartToken) (cart : Cart)
deriving DecidableEq, Repr

def OrdersAnswer.ofCart (r : CartToken × Cart) : OrdersAnswer := .cart r.1 r.2

namespace OrdersCall
open OrdersConnection

def orderCall {α : Type} (onOk : α → OrdersAnswer) (p : Call OrderError α) :
    Call OrdersError OrdersAnswer :=
  Prog.bind p fun r => .pure ((r.map onOk).mapError .order)

def cartCall {α : Type} (onOk : α → OrdersAnswer) (p : Call CartError α) :
    Call OrdersError OrdersAnswer :=
  Prog.bind p fun r => .pure ((r.map onOk).mapError .cart)

/-- The call over a connection. -/
def send (hashToken : String → String) (now clock : Int64) :
    OrdersCall → Call OrdersError OrdersAnswer
  | .createOrder o => orderCall (fun _ => .done) (OrdersConnection.createOrder o now clock)
  | .addOrderItem item => orderCall (fun _ => .done) (OrdersConnection.addOrderItem item)
  | .checkout buyerId currency items contact orderId => orderCall .placed
    (OrdersConnection.checkout buyerId currency items contact orderId now clock)
  | .createCart raw => cartCall .ofCart (OrdersConnection.createCart hashToken raw now)
  | .addItem cartId item => cartCall (fun _ => .done) (OrdersConnection.addItem cartId item now)
  | .updateQty cartId itemId qty =>
    cartCall (fun _ => .done) (OrdersConnection.updateQty cartId itemId qty now)
  | .removeItem cartId itemId =>
    cartCall (fun _ => .done) (OrdersConnection.removeItem cartId itemId now)
  | .clear cartId => cartCall (fun _ => .done) (OrdersConnection.clear cartId now)

/-- The error of a call whose database fails. -/
def failed : OrdersCall → SqlxError → OrdersError
  | .createOrder _, e => .order (.db e)
  | .addOrderItem _, e => .order (.db e)
  | .checkout _ _ _ _ _, e => .order (.db e)
  | _, e => .cart (.db e)

/-- The call in one step. -/
def perform (hashToken : String → String) (now clock : Int64) (db : OrdersDb) :
    OrdersCall → Except OrdersError (OrdersAnswer × OrdersDb)
  | .createOrder o => ((OrderRepo.createOrder db o now clock).map fun db => (.done, db)).mapError .order
  | .addOrderItem item => ((OrderRepo.addItem db item).map fun db => (.done, db)).mapError .order
  | .checkout buyerId currency items contact orderId =>
    ((OrderRepo.checkout db buyerId currency items contact orderId now clock).map
      fun x => (.placed x.2, x.1)).mapError .order
  | .createCart raw =>
    ((CartRepo.createCart db hashToken raw now).map fun x => (.ofCart x.2, x.1)).mapError .cart
  | .addItem cartId item =>
    ((CartRepo.addItem db cartId item now).map fun db => (.done, db)).mapError .cart
  | .updateQty cartId itemId qty =>
    ((CartRepo.updateQty db cartId itemId qty now).map fun db => (.done, db)).mapError .cart
  | .removeItem cartId itemId => .ok (.done, CartRepo.removeItem db cartId itemId now)
  | .clear cartId => .ok (.done, CartRepo.clear db cartId now)

theorem send_atomic {fails : SqlxError → Prop} (hashToken : String → String) (now clock : Int64)
    (c : OrdersCall) : Atomic OrdersDb.apply fails c.failed (c.send hashToken now clock)
      fun db => c.perform hashToken now clock db := by
  cases c with
  | createOrder o =>
    refine (createOrder_atomic o now clock).map _ _ fun db => ?_
    simp only [perform]
    cases OrderRepo.createOrder db o now clock <;> rfl
  | addOrderItem item =>
    refine (addOrderItem_atomic item).map _ _ fun db => ?_
    simp only [perform]
    cases OrderRepo.addItem db item <;> rfl
  | checkout buyerId currency items contact orderId =>
    refine (checkout_atomic buyerId currency items contact orderId now clock).map _ _ fun db => ?_
    simp only [perform]
    cases OrderRepo.checkout db buyerId currency items contact orderId now clock <;> rfl
  | createCart raw =>
    refine (createCart_atomic hashToken raw now).map _ _ fun db => ?_
    simp only [perform]
    cases CartRepo.createCart db hashToken raw now <;> rfl
  | addItem cartId item =>
    refine (addItem_atomic cartId item now).map _ _ fun db => ?_
    simp only [perform]
    cases CartRepo.addItem db cartId item now <;> rfl
  | updateQty cartId itemId qty =>
    refine (updateQty_atomic cartId itemId qty now).map _ _ fun db => ?_
    simp only [perform]
    cases CartRepo.updateQty db cartId itemId qty now <;> rfl
  | removeItem cartId itemId =>
    exact (removeItem_atomic cartId itemId now).map _ _ fun db => rfl
  | clear cartId =>
    exact (clear_atomic cartId now).map _ _ fun db => rfl

/-- What a call that takes effect did. -/
inductive Effect (hashToken : String → String) (now clock : Int64) (db db' : OrdersDb) :
    OrdersCall → OrdersAnswer → Prop where
  | createOrder (o : NewOrder) : OrderRepo.createOrder db o now clock = .ok db' →
      Effect hashToken now clock db db' (.createOrder o) .done
  | addOrderItem (item : NewOrderItem) : OrderRepo.addItem db item = .ok db' →
      Effect hashToken now clock db db' (.addOrderItem item) .done
  | checkout (buyerId currency : String) (items : List NewOrderItem)
      (contact : Option NewOrderContact) (orderId placed : String) :
      OrderRepo.checkout db buyerId currency items contact orderId now clock = .ok (db', placed) →
      Effect hashToken now clock db db' (.checkout buyerId currency items contact orderId)
        (.placed placed)
  | createCart (raw : String) (created : CartToken × Cart) :
      CartRepo.createCart db hashToken raw now = .ok (db', created) →
      Effect hashToken now clock db db' (.createCart raw) (.ofCart created)
  | addItem (cartId : String) (item : NewCartItem) :
      CartRepo.addItem db cartId item now = .ok db' →
      Effect hashToken now clock db db' (.addItem cartId item) .done
  | updateQty (cartId : String) (itemId qty : Int) :
      CartRepo.updateQty db cartId itemId qty now = .ok db' →
      Effect hashToken now clock db db' (.updateQty cartId itemId qty) .done
  | removeItem (cartId : String) (itemId : Int) :
      db' = CartRepo.removeItem db cartId itemId now →
      Effect hashToken now clock db db' (.removeItem cartId itemId) .done
  | clear (cartId : String) : db' = CartRepo.clear db cartId now →
      Effect hashToken now clock db db' (.clear cartId) .done

section Effects
variable {hashToken : String → String} {now clock : Int64} {db db' : OrdersDb} {c : OrdersCall}
  {a : OrdersAnswer}

theorem effect_of_perform (h : c.perform hashToken now clock db = .ok (a, db')) :
    Effect hashToken now clock db db' c a := by
  cases c with
  | createOrder o =>
    obtain ⟨x, hx, heq⟩ := ok_of_mapped h
    obtain ⟨rfl, rfl⟩ := Prod.mk.inj heq
    exact .createOrder o hx
  | addOrderItem item =>
    obtain ⟨x, hx, heq⟩ := ok_of_mapped h
    obtain ⟨rfl, rfl⟩ := Prod.mk.inj heq
    exact .addOrderItem item hx
  | checkout buyerId currency items contact orderId =>
    obtain ⟨x, hx, heq⟩ := ok_of_mapped h
    obtain ⟨rfl, rfl⟩ := Prod.mk.inj heq
    exact .checkout buyerId currency items contact orderId x.2 hx
  | createCart raw =>
    obtain ⟨x, hx, heq⟩ := ok_of_mapped h
    obtain ⟨rfl, rfl⟩ := Prod.mk.inj heq
    exact .createCart raw x.2 hx
  | addItem cartId item =>
    obtain ⟨x, hx, heq⟩ := ok_of_mapped h
    obtain ⟨rfl, rfl⟩ := Prod.mk.inj heq
    exact .addItem cartId item hx
  | updateQty cartId itemId qty =>
    obtain ⟨x, hx, heq⟩ := ok_of_mapped h
    obtain ⟨rfl, rfl⟩ := Prod.mk.inj heq
    exact .updateQty cartId itemId qty hx
  | removeItem cartId itemId =>
    obtain ⟨rfl, hdb⟩ := Prod.mk.inj (Except.ok.inj h)
    exact .removeItem cartId itemId hdb.symm
  | clear cartId =>
    obtain ⟨rfl, hdb⟩ := Prod.mk.inj (Except.ok.inj h)
    exact .clear cartId hdb.symm

theorem run_of_perform (h : c.perform hashToken now clock db = .ok (a, db')) :
    c.run hashToken db now clock = some db' := by
  cases effect_of_perform h with
  | removeItem _ _ hdb | clear _ hdb => rw [run, hdb]
  | createOrder _ hx | addOrderItem _ hx | checkout _ _ _ _ _ _ hx | createCart _ _ hx
  | addItem _ _ hx | updateQty _ _ _ hx =>
    rw [run, hx]
    rfl

end Effects

end OrdersCall

namespace OrdersConnection

/-- A call that has been made. -/
structure Entry where
  call : OrdersCall
  answer : Except OrdersError OrdersAnswer
  before : OrdersDb
  after : OrdersDb

/-- A run of calls on tables that are empty at first; the newest call comes first. -/
inductive Session (hashToken : String → String) (fails : SqlxError → Prop) :
    List Entry → OrdersDb → Prop where
  | empty : Session hashToken fails [] .empty
  | call {log : List Entry} {db db' : OrdersDb} {now clock : Int64}
      {r : Except OrdersError OrdersAnswer} (c : OrdersCall) : Session hashToken fails log db →
      Runs (Connection.exec OrdersDb.apply fails) (c.send hashToken now clock)
        ⟨db, none⟩ r ⟨db', none⟩ →
      Session hashToken fails (⟨c, r, db, db'⟩ :: log) db'

section Session
variable {hashToken : String → String} {fails : SqlxError → Prop}

/-- A call took effect as one step, or it failed and changed nothing. -/
theorem call_cases {c : OrdersCall} {now clock : Int64} {db db' : OrdersDb}
    {r : Except OrdersError OrdersAnswer}
    (h : Runs (Connection.exec OrdersDb.apply fails) (c.send hashToken now clock)
      ⟨db, none⟩ r ⟨db', none⟩) :
    (∃ a, r = .ok a ∧ c.perform hashToken now clock db = .ok (a, db')) ∨
      (∃ e, r = .error e) ∧ db' = db := by
  rcases c.send_atomic hashToken now clock db r _ h with ⟨a, t, hok, hr, heq⟩ | ⟨e, _, hr, heq⟩
  · obtain rfl : db' = t := congrArg Connection.committed heq
    exact Or.inl ⟨a, hr, hok⟩
  · exact Or.inr ⟨⟨e, hr⟩, congrArg Connection.committed heq⟩

/-- What each call keeps holds in every run. -/
theorem Session.induct {J : List Entry → OrdersDb → Prop} (hempty : J [] .empty)
    (hok : ∀ {log db db' now clock c a}, Session hashToken fails log db → J log db →
      c.perform hashToken now clock db = .ok (a, db') → J (⟨c, .ok a, db, db'⟩ :: log) db')
    (herror : ∀ {log db c e}, J log db → J (⟨c, .error e, db, db⟩ :: log) db)
    {log : List Entry} {db : OrdersDb} (h : Session hashToken fails log db) : J log db := by
  induction h with
  | empty => exact hempty
  | call c hs hrun ih =>
    rcases call_cases hrun with ⟨a, rfl, hperform⟩ | ⟨⟨e, rfl⟩, rfl⟩
    · exact hok hs ih hperform
    · exact herror ih

/-- The calls over a connection reach nothing that the calls in one step do not. -/
theorem Session.reachable {log : List Entry} {db : OrdersDb} (h : Session hashToken fails log db) :
    db.Reachable hashToken :=
  h.induct (J := fun _ db => db.Reachable hashToken) .empty
    (fun {_ _ _ _ _ c _} _ hdb hperform => .call c hdb (c.run_of_perform hperform)) fun hdb => hdb

/-- A call that returned an error left the database as it was. -/
theorem Session.unchanged {log : List Entry} {db : OrdersDb} (h : Session hashToken fails log db) :
    ∀ e ∈ log, (∃ error, e.answer = .error error) → e.after = e.before := by
  refine h.induct (J := fun log _ => ∀ e ∈ log, (∃ error, e.answer = .error error) →
    e.after = e.before) (by simp) ?_ ?_
  · intro log db db' now clock c a _ ih _ e he herror
    rcases List.mem_cons.mp he with rfl | he
    · obtain ⟨error, herror⟩ := herror
      cases herror
    · exact ih e he herror
  · intro log db c error ih e he herror
    rcases List.mem_cons.mp he with rfl | he
    · rfl
    · exact ih e he herror

/-- The calls of a script, with a database that never fails and a clock that stands still. -/
def play (hashToken : String → String) : List OrdersCall → List Entry × OrdersDb
  | [] => ([], .empty)
  | c :: earlier =>
    let (log, db) := play hashToken earlier
    match (c.send hashToken 0 0).eval (Connection.answer OrdersDb.apply) ⟨db, none⟩ with
    | some (r, ⟨db', none⟩) => (⟨c, r, db, db'⟩ :: log, db')
    | _ => (log, db)

theorem session_play (hashToken : String → String) (calls : List OrdersCall) :
    Session hashToken fails (play hashToken calls).1 (play hashToken calls).2 := by
  induction calls with
  | nil => exact .empty
  | cons c earlier ih =>
    simp only [play]
    split
    · rename_i r db' heval
      have hanswer : ∀ conn op r conn', Connection.answer OrdersDb.apply conn op = some (r, conn') →
          Connection.exec OrdersDb.apply fails conn op r conn' :=
        fun _ _ _ _ h => Connection.exec_of_answer h
      exact .call c ih (runs_of_eval hanswer heval)
    · exact ih

end Session

end OrdersConnection

end TinyShop
