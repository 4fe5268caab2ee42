import TinyShop.Orders
import TinyShop.Text

/-!
# Orders

`OrderRepo` of `crates/orders/src/repository.rs`. A write is one transaction: it
returns the new database or an error that leaves the old one. `orderId` is the id
that `checkout` generates, `now` and `clock` are the readings of the clock.
-/

namespace TinyShop

open Base
set_option autoImplicit false

inductive OrderError where
  | db (e : SqlxError)
  | invalidEnum (field value : String)
  | notFound (id : String)
  | json (message : String)
  | emptyCheckout
  | currencyMismatch (currency found : String)
deriving DecidableEq, Repr

def OrderError.toString : OrderError → String
  | .db e => "db: " ++ e.toString
  | .invalidEnum field value => "invalid " ++ field ++ " in row: " ++ value
  | .notFound id => "order not found: " ++ id
  | .json message => "serialization: " ++ message
  | .emptyCheckout => "checkout requires at least one item"
  | .currencyMismatch currency found =>
    "checkout items must all use order currency '" ++ currency ++ "', found '" ++ found ++ "'"

namespace OrderRepo

def aggregate : String := "order"

def orderCreated (orderId buyerId currency : String) : NewEvent :=
  ⟨aggregate, orderId, "OrderCreated", .object [
    ("order_id", .string orderId),
    ("buyer_id", .string buyerId),
    ("currency", .string currency)]⟩

/-- `SUM` over integers: an error as soon as a partial sum leaves 64 bits. -/
def sumFrom : Int64 → List Int64 → Except SqlxError Int64
  | total, [] => .ok total
  | total, x :: xs =>
    if -2 ^ 63 ≤ total.toInt + x.toInt ∧ total.toInt + x.toInt < 2 ^ 63 then sumFrom (total + x) xs
    else .error .integerOverflow

section Operations
variable (db : OrdersDb)

def insertOrder (id buyerId currency : String) (now : Int64) : Except SqlxError OrdersDb :=
  if free : db.orders.find? id = none then
    .ok { db with orders := db.orders.insert ⟨id, buyerId, .created, 0, currency, now⟩ free }
  else .error (.primaryKey "orders.id")

def itemRow (orderId : String) (item : NewOrderItem) : OrderItem :=
  ⟨item.id, orderId, item.productId, item.sellerId, item.variantId, item.title,
    item.unitPriceMinor, item.currency, item.configSnapshot⟩

/-- The key is checked at once, the foreign key at the end of the statement. -/
def insertItem (orderId : String) (item : NewOrderItem) : Except SqlxError OrdersDb :=
  if free : db.orderItems.find? item.id = none then
    if (db.orders.find? orderId).isSome then
      .ok { db with orderItems := db.orderItems.insert (itemRow orderId item) free }
    else .error (.foreignKey "order_items")
  else .error (.primaryKey "order_items.id")

/-- `WHERE order_id = ? ORDER BY rowid`. A configuration is kept as the value that it is the text
of, so reading it back cannot fail. -/
def fetchItems (orderId : String) : List OrderItem :=
  db.orderItems.rows.filter fun i => i.orderId = orderId

def updateTotal (orderId : String) : Except SqlxError OrdersDb := do
  let total ← sumFrom 0 ((fetchItems db orderId).map OrderItem.unitPriceMinor)
  return { db with
    orders := db.orders.update (fun o => o.id = orderId) fun o => { o with totalMinor := total } }

def contactRow (orderId : String) (contact : NewOrderContact) (now : Int64) : OrderContact :=
  ⟨orderId, contact.email, contact.name, now⟩

def insertContact (orderId : String) (contact : NewOrderContact) (now : Int64) :
    Except SqlxError OrdersDb :=
  if Text.sqlLength (Text.sqlTrim contact.email) = 0 then
    .error (.check "length(trim(email)) > 0")
  else if free : db.orderContact.find? orderId = none then
    if (db.orders.find? orderId).isSome then
      .ok { db with orderContact := db.orderContact.insert (contactRow orderId contact now) free }
    else .error (.foreignKey "order_contact")
  else .error (.primaryKey "order_contact.order_id")

def createOrder (o : NewOrder) (now clock : Int64) : Except OrderError OrdersDb :=
  match insertOrder db o.id o.buyerId o.currency now with
  | .error e => .error (.db e)
  | .ok db => .ok (db.enqueue (orderCreated o.id o.buyerId o.currency) clock)

def addItem (item : NewOrderItem) : Except OrderError OrdersDb :=
  match (do updateTotal (← insertItem db item.orderId item) item.orderId) with
  | .error e => .error (.db e)
  | .ok db => .ok db

/-- The statements of the transaction of `checkout`. -/
def checkoutTx (buyerId currency : String) (items : List NewOrderItem)
    (contact : Option NewOrderContact) (orderId : String) (now clock : Int64) :
    Except SqlxError OrdersDb := do
  let db ← insertOrder db orderId buyerId currency now
  let db ← items.foldlM (fun db item => insertItem db orderId item) db
  let db ← updateTotal db orderId
  let db ← match contact with
    | some contact => insertContact db orderId contact now
    | none => pure db
  return db.enqueue (orderCreated orderId buyerId currency) clock

def checkout (buyerId currency : String) (items : List NewOrderItem)
    (contact : Option NewOrderContact) (orderId : String) (now clock : Int64) :
    Except OrderError (OrdersDb × String) :=
  if items.isEmpty then .error .emptyCheckout
  else match items.find? fun item => item.currency ≠ currency with
    | some item => .error (.currencyMismatch currency item.currency)
    | none =>
      match checkoutTx db buyerId currency items contact orderId now clock with
      | .error e => .error (.db e)
      | .ok db => .ok (db, orderId)

def mapOrderRow (r : OrderRow) : Except OrderError Order :=
  match OrderStatus.parse r.status.asStr with
  | none => .error (.invalidEnum "status" r.status.asStr)
  | some status => .ok ⟨r.id, r.buyerId, status, r.totalMinor, r.currency, r.createdAt, []⟩

def getOrder (id : String) : Except OrderError (Option Order) :=
  match db.orders.find? id with
  | none => .ok none
  | some r => some <$> mapOrderRow r

def getOrderWithItems (id : String) : Except OrderError (Option Order) :=
  match db.orders.find? id with
  | none => .ok none
  | some r => do
    let order ← mapOrderRow r
    return some { order with items := fetchItems db id }

end Operations

theorem sumFrom_ok {total result : Int64} {xs : List Int64} (h : sumFrom total xs = .ok result) :
    result.toInt = total.toInt + (xs.map Int64.toInt).sum := by
  induction xs generalizing total with
  | nil =>
    obtain rfl := Except.ok.inj h
    simp
  | cons x xs ih =>
    rw [sumFrom] at h
    split at h
    · rename_i hrange
      have hadd : (total + x).toInt = total.toInt + x.toInt := by
        rw [Int64.toInt_add]
        apply Int.bmod_eq_of_le <;> omega
      rw [ih h, hadd, List.map_cons, List.sum_cons]
      omega
    · cases h

section Inversion
variable {db db' : OrdersDb}

theorem insertOrder_ok {id buyerId currency : String} {now : Int64}
    (h : insertOrder db id buyerId currency now = .ok db') :
    db.orders.find? id = none ∧ ∃ orders, db' = { db with orders } ∧
      orders.rows = db.orders.rows ++ [⟨id, buyerId, .created, 0, currency, now⟩] := by
  unfold insertOrder at h
  split at h
  · rename_i free
    obtain rfl := Except.ok.inj h
    exact ⟨free, _, rfl, rfl⟩
  · cases h

theorem insertItem_ok {orderId : String} {item : NewOrderItem}
    (h : insertItem db orderId item = .ok db') :
    (db.orders.find? orderId).isSome ∧ ∃ orderItems, db' = { db with orderItems } ∧
      orderItems.rows = db.orderItems.rows ++ [itemRow orderId item] := by
  unfold insertItem at h
  split at h
  · split at h
    · rename_i horder
      obtain rfl := Except.ok.inj h
      exact ⟨horder, _, rfl, rfl⟩
    · cases h
  · cases h

/-- The loop over the items of a checkout. -/
theorem insertItems_ok {orderId : String} {items : List NewOrderItem}
    (h : items.foldlM (fun db item => insertItem db orderId item) db = .ok db') :
    ∃ orderItems, db' = { db with orderItems } ∧
      orderItems.rows = db.orderItems.rows ++ items.map (itemRow orderId) := by
  induction items generalizing db with
  | nil =>
    obtain rfl := Except.ok.inj h
    exact ⟨_, rfl, by simp⟩
  | cons item items ih =>
    rw [List.foldlM_cons] at h
    cases hfirst : insertItem db orderId item with
    | error e =>
      rw [hfirst] at h
      cases h
    | ok next =>
      rw [hfirst] at h
      obtain ⟨_, orderItems, rfl, hrows⟩ := insertItem_ok hfirst
      obtain ⟨all, rfl, hall⟩ := ih h
      exact ⟨all, rfl, by simp [hall, hrows]⟩

theorem updateTotal_ok {orderId : String} (h : updateTotal db orderId = .ok db') :
    ∃ total orders, sumFrom 0 ((fetchItems db orderId).map OrderItem.unitPriceMinor) = .ok total ∧
      db' = { db with orders } ∧
      orders.rows = db.orders.rows.map fun o =>
        if o.id = orderId then { o with totalMinor := total } else o := by
  unfold updateTotal at h
  cases hsum : sumFrom 0 ((fetchItems db orderId).map OrderItem.unitPriceMinor) with
  | error e =>
    rw [hsum] at h
    cases h
  | ok total =>
    rw [hsum] at h
    obtain rfl := Except.ok.inj h
    exact ⟨total, _, rfl, rfl, by simp [Table.update]⟩

theorem addItem_ok {item : NewOrderItem} (h : addItem db item = .ok db') :
    ∃ db₁, insertItem db item.orderId item = .ok db₁ ∧ updateTotal db₁ item.orderId = .ok db' := by
  unfold addItem at h
  cases hins : insertItem db item.orderId item with
  | error e => simp [hins, bind, Except.bind] at h
  | ok db₁ =>
    simp only [hins, bind, Except.bind] at h
    split at h
    · cases h
    · rename_i db₂ htotal
      obtain rfl := Except.ok.inj h
      exact ⟨db₁, rfl, htotal⟩

theorem insertContact_ok {orderId : String} {contact : NewOrderContact} {now : Int64}
    (h : insertContact db orderId contact now = .ok db') :
    ∃ orderContact, db' = { db with orderContact } ∧
      orderContact.rows = db.orderContact.rows ++ [contactRow orderId contact now] := by
  unfold insertContact at h
  split at h
  · cases h
  · split at h
    · split at h
      · obtain rfl := Except.ok.inj h
        exact ⟨_, rfl, rfl⟩
      · cases h
    · cases h

/-- An update of the row that was inserted last. -/
theorem update_last {rows : List OrderRow} {id : String} (hold : ∀ o ∈ rows, o.id ≠ id)
    {new : OrderRow} (hnew : new.id = id) (f : OrderRow → OrderRow) :
    (rows ++ [new]).map (fun o => if o.id = id then f o else o) = rows ++ [f new] := by
  have hsame : rows.map (fun o => if o.id = id then f o else o) = rows.map fun o => o := by
    apply List.map_congr_left
    intro o ho
    rw [if_neg (hold o ho)]
  rw [List.map_append, hsame, List.map_id', List.map_singleton, if_pos hnew]

/-- Everything that a committed checkout has written. -/
structure Written (db db' : OrdersDb) (buyerId currency : String) (items : List NewOrderItem)
    (contact : Option NewOrderContact) (orderId : String) (total now clock : Int64) : Prop where
  free : db.orders.find? orderId = none
  sum : sumFrom 0 ((fetchItems db orderId).map OrderItem.unitPriceMinor ++
    items.map NewOrderItem.unitPriceMinor) = .ok total
  orders : db'.orders.rows = db.orders.rows ++ [⟨orderId, buyerId, .created, total, currency, now⟩]
  orderItems : db'.orderItems.rows = db.orderItems.rows ++ items.map (itemRow orderId)
  orderContact : db'.orderContact.rows =
    db.orderContact.rows ++ (contact.map fun c => contactRow orderId c now).toList
  carts : db'.carts = db.carts
  cartItems : db'.cartItems = db.cartItems
  outbox : db'.outbox = db.outbox.enqueue (orderCreated orderId buyerId currency) clock

theorem checkoutTx_ok {buyerId currency : String} {items : List NewOrderItem}
    {contact : Option NewOrderContact} {orderId : String} {now clock : Int64}
    (h : checkoutTx db buyerId currency items contact orderId now clock = .ok db') :
    ∃ total, Written db db' buyerId currency items contact orderId total now clock := by
  unfold checkoutTx at h
  cases horder : insertOrder db orderId buyerId currency now with
  | error e => simp [horder, bind, Except.bind] at h
  | ok db₁ =>
    obtain ⟨hfree, orders, rfl, horders⟩ := insertOrder_ok horder
    simp only [horder, bind, Except.bind] at h
    cases hitems : items.foldlM (fun db item => insertItem db orderId item) { db with orders } with
    | error e => simp [hitems] at h
    | ok db₂ =>
      obtain ⟨orderItems, rfl, hrows⟩ := insertItems_ok hitems
      simp only [hitems] at h
      cases htotal : updateTotal { db with orders, orderItems } orderId with
      | error e => simp [htotal] at h
      | ok db₃ =>
        obtain ⟨total, updated, hsum, rfl, hupdated⟩ := updateTotal_ok htotal
        simp only [htotal] at h
        have hold : ∀ o ∈ db.orders.rows, o.id ≠ orderId := Table.find?_eq_none_iff.mp hfree
        have hfetch : fetchItems { db with orders, orderItems } orderId =
            fetchItems db orderId ++ items.map (itemRow orderId) := by
          simp [fetchItems, hrows, itemRow, List.filter_append, List.filter_map, Function.comp_def]
        rw [hfetch, List.map_append, List.map_map] at hsum
        rw [horders, update_last hold rfl] at hupdated
        cases contact with
        | none =>
          obtain rfl := Except.ok.inj h
          exact ⟨total, hfree, hsum, hupdated, hrows, (List.append_nil _).symm, rfl, rfl, rfl⟩
        | some contact =>
          cases hcontact : insertContact { db with orders := updated, orderItems } orderId
              contact now with
          | error e => simp [hcontact] at h
          | ok db₄ =>
            obtain ⟨orderContact, rfl, hcontacts⟩ := insertContact_ok hcontact
            simp only [hcontact] at h
            obtain rfl := Except.ok.inj h
            exact ⟨total, hfree, hsum, hupdated, hrows, hcontacts, rfl, rfl, rfl⟩

/-- What is checked before the transaction. -/
theorem checkout_ok {buyerId currency : String} {items : List NewOrderItem}
    {contact : Option NewOrderContact} {orderId id : String} {now clock : Int64}
    (h : checkout db buyerId currency items contact orderId now clock = .ok (db', id)) :
    id = orderId ∧ (∀ item ∈ items, item.currency = currency) ∧
      ∃ total, Written db db' buyerId currency items contact orderId total now clock := by
  unfold checkout at h
  split at h
  · cases h
  · split at h
    · cases h
    · rename_i hsame
      split at h
      · cases h
      · rename_i db₁ htx
        obtain ⟨rfl, rfl⟩ := Prod.mk.inj (Except.ok.inj h)
        refine ⟨rfl, ?_, checkoutTx_ok htx⟩
        simpa using List.find?_eq_none.mp hsame

end Inversion

end OrderRepo

end TinyShop
