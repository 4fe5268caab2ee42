import TinyShop.Orders
import TinyShop.Text

/-!
# Carts

`CartRepo` of `crates/orders/src/cart_repo.rs`. A cart is addressed by the hash of
its token; BLAKE3 is not in the repository and stays a parameter, and so does the
random token of a new cart. `now` is the reading of the clock.
-/

namespace TinyShop

open Base
set_option autoImplicit false

inductive CartError where
  | db (e : SqlxError)
  | invalidQty (qty : Int)
deriving DecidableEq, Repr

def CartRepo.maxQty : Int := 999

def CartError.toString : CartError → String
  | .db e => "db: " ++ e.toString
  | .invalidQty qty =>
    "quantity " ++ qty.repr ++ " out of range (0..=" ++ CartRepo.maxQty.repr ++ ")"

namespace CartRepo

section Operations
variable (db : OrdersDb)

def newCart (tokenHash : String) (now : Int64) : Cart := ⟨tokenHash, now, now⟩

def createCart (hashToken : String → String) (raw : String) (now : Int64) :
    Except CartError (OrdersDb × CartToken × Cart) :=
  if free : db.carts.find? (hashToken raw) = none then
    .ok ({ db with carts := db.carts.insert (newCart (hashToken raw) now) free }, ⟨raw⟩,
      newCart (hashToken raw) now)
  else .error (.db (.primaryKey "carts.token_hash"))

def findByToken (hashToken : String → String) (rawToken : String) : Option Cart :=
  db.carts.find? (hashToken rawToken)

def touchCart (cartId : String) (now : Int64) : OrdersDb :=
  { db with carts := db.carts.update (fun c => c.tokenHash = cartId) fun c =>
    { c with updatedAt := now } }

/-- The cart is touched only if rows were affected. -/
def touchIf (affected : Bool) (cartId : String) (now : Int64) : OrdersDb :=
  if affected then touchCart db cartId now else db

/-- `ON CONFLICT … DO UPDATE`: the quantities add up to at most `MAX_QTY` and the
snapshot is renewed. -/
def merge (item : NewCartItem) (now : Int64) (r : CartItem) : CartItem :=
  { r with
    qty := min (r.qty + item.qty) maxQty
    title := item.title
    unitPriceMinor := item.unitPriceMinor
    currency := item.currency
    addedAt := now }

theorem merge_id (item : NewCartItem) (now : Int64) (r : CartItem) : (merge item now r).id = r.id := rfl

theorem merge_line (item : NewCartItem) (now : Int64) (r : CartItem) :
    (merge item now r).line = r.line := rfl

theorem merge_qty_pos {item : NewCartItem} (hqty : 0 < item.qty) (now : Int64) (r : CartItem)
    (h : 0 < r.qty) : 0 < (merge item now r).qty := by
  simp only [merge, maxQty]
  omega

/-- The row of a new line; its id is given by the table. -/
def newRow (cartId : String) (item : NewCartItem) (now : Int64) : CartItem :=
  ⟨0, cartId, item.productId, item.variantId, item.qty, item.title, item.unitPriceMinor,
    item.currency, now⟩

def lineOf (cartId : String) (item : NewCartItem) : String × String × String :=
  (cartId, item.productId, item.variantId.getD "")

/-- The insertion that becomes an update has used up an id. -/
def addToLine (cartId : String) (item : NewCartItem) (hqty : 0 < item.qty) (now : Int64) :
    CartItems :=
  (db.cartItems.update (fun r => r.line = lineOf cartId item) (merge item now)
    (merge_id item now) (merge_line item now) (merge_qty_pos hqty now)).skipId

/-- The statement that adds an item. `CHECK` comes before the index, the foreign key of
a new row is checked at the end. -/
def insertItem (cartId : String) (item : NewCartItem) (hqty : 0 < item.qty) (now : Int64) :
    Except SqlxError OrdersDb :=
  if item.variantId.any fun v => Text.sqlLength v = 0 then
    .error (.check "variant_id IS NULL OR length(variant_id) > 0")
  else if free : ∀ r ∈ db.cartItems.rows, r.line ≠ lineOf cartId item then
    if (db.carts.find? cartId).isSome then
      .ok { db with cartItems := db.cartItems.insert (newRow cartId item now) free hqty }
    else .error (.foreignKey "cart_items")
  else .ok { db with cartItems := addToLine db cartId item hqty now }

def addItem (cartId : String) (item : NewCartItem) (now : Int64) : Except CartError OrdersDb :=
  if hqty : item.qty ≤ 0 ∨ maxQty < item.qty then .error (.invalidQty item.qty)
  else
    match insertItem db cartId item (by omega) now with
    | .error e => .error (.db e)
    | .ok db => .ok (touchCart db cartId now)

/-- The row that `update_qty` and `remove_item` address. -/
def isItem (cartId : String) (itemId : Int) (r : CartItem) : Bool := r.id = itemId ∧ r.cartId = cartId

def deleteItems (p : CartItem → Bool) : OrdersDb :=
  { db with cartItems := db.cartItems.delete p }

def setQty (cartId : String) (itemId qty : Int) (hqty : 0 < qty) : CartItems :=
  db.cartItems.update (isItem cartId itemId) (fun r => { r with qty }) (fun _ => rfl)
    (fun _ => rfl) fun _ _ => hqty

def updateQty (cartId : String) (itemId qty : Int) (now : Int64) : Except CartError OrdersDb :=
  if hqty : qty < 0 ∨ maxQty < qty then .error (.invalidQty qty)
  else .ok (touchIf
    (if hzero : qty = 0 then deleteItems db (isItem cartId itemId)
      else { db with cartItems := setQty db cartId itemId qty (by omega) })
    (db.cartItems.rows.any (isItem cartId itemId)) cartId now)

def removeItem (cartId : String) (itemId : Int) (now : Int64) : OrdersDb :=
  touchIf (deleteItems db (isItem cartId itemId)) (db.cartItems.rows.any (isItem cartId itemId))
    cartId now

/-- `WHERE cart_id = ? ORDER BY id`; the rows lie in the order of their ids. -/
def listItems (cartId : String) : List CartItem :=
  db.cartItems.rows.filter fun r => r.cartId = cartId

def clear (cartId : String) (now : Int64) : OrdersDb :=
  touchIf (deleteItems db fun r => r.cartId = cartId)
    (db.cartItems.rows.any fun r => r.cartId = cartId) cartId now

end Operations

theorem rows_addToLine (db : OrdersDb) (cartId : String) (item : NewCartItem) (hqty : 0 < item.qty)
    (now : Int64) : (addToLine db cartId item hqty now).rows =
      db.cartItems.rows.map fun r =>
        if r.line = lineOf cartId item then merge item now r else r := by
  unfold addToLine
  rw [CartItems.rows_skipId, CartItems.rows_update]
  simp only [decide_eq_true_eq]

@[simp] theorem touchIf_orders (db : OrdersDb) (b : Bool) (cartId : String) (now : Int64) :
    (touchIf db b cartId now).orders = db.orders := by
  cases b <;> rfl

@[simp] theorem touchIf_orderItems (db : OrdersDb) (b : Bool) (cartId : String) (now : Int64) :
    (touchIf db b cartId now).orderItems = db.orderItems := by
  cases b <;> rfl

@[simp] theorem touchIf_orderContact (db : OrdersDb) (b : Bool) (cartId : String) (now : Int64) :
    (touchIf db b cartId now).orderContact = db.orderContact := by
  cases b <;> rfl

@[simp] theorem touchIf_cartItems (db : OrdersDb) (b : Bool) (cartId : String) (now : Int64) :
    (touchIf db b cartId now).cartItems = db.cartItems := by
  cases b <;> rfl

@[simp] theorem touchIf_outbox (db : OrdersDb) (b : Bool) (cartId : String) (now : Int64) :
    (touchIf db b cartId now).outbox = db.outbox := by
  cases b <;> rfl

/-- Touching a cart leaves the other carts alone. -/
theorem find?_touchIf (db : OrdersDb) (b : Bool) {cartId other : String} (h : other ≠ cartId)
    (now : Int64) : (touchIf db b cartId now).carts.find? other = db.carts.find? other := by
  cases b with
  | false => rfl
  | true =>
    simp only [touchIf, if_true, touchCart, Table.find?_update]
    cases hf : db.carts.find? other with
    | none => rfl
    | some c =>
      have hc := Table.key_of_find? hf
      simp [hc, h]

section Inversion
variable {db db' : OrdersDb} {now : Int64}

/-- A call of `CartRepo` writes nothing but carts and their items. -/
structure CartsOnly (db db' : OrdersDb) : Prop where
  orders : db'.orders = db.orders
  orderItems : db'.orderItems = db.orderItems
  orderContact : db'.orderContact = db.orderContact
  outbox : db'.outbox = db.outbox

theorem createCart_ok {hashToken : String → String} {raw : String} {token : CartToken} {cart : Cart}
    (h : createCart db hashToken raw now = .ok (db', token, cart)) :
    CartsOnly db db' ∧ db'.cartItems = db.cartItems := by
  unfold createCart at h
  split at h
  · obtain ⟨rfl, _⟩ := Prod.mk.inj (Except.ok.inj h)
    exact ⟨⟨rfl, rfl, rfl, rfl⟩, rfl⟩
  · cases h

/-- An item that is added gets a row of its own or is merged into the row of its line. -/
theorem addItem_ok {cartId : String} {item : NewCartItem}
    (h : addItem db cartId item now = .ok db') :
    CartsOnly db db' ∧ 0 < item.qty ∧
      ((∀ r ∈ db.cartItems.rows, r.line ≠ lineOf cartId item) ∧
          db'.cartItems.rows = db.cartItems.rows ++
            [{ newRow cartId item now with id := db.cartItems.seq + 1 }] ∨
        (∃ r ∈ db.cartItems.rows, r.line = lineOf cartId item) ∧
          db'.cartItems.rows = db.cartItems.rows.map fun r =>
            if r.line = lineOf cartId item then merge item now r else r) := by
  unfold addItem at h
  split at h
  · cases h
  · rename_i hqty
    have hpos : 0 < item.qty := by omega
    split at h
    · cases h
    · rename_i db₁ hins
      obtain rfl := Except.ok.inj h
      unfold insertItem at hins
      split at hins
      · cases hins
      · split at hins
        · rename_i free
          split at hins
          · obtain rfl := Except.ok.inj hins
            exact ⟨⟨rfl, rfl, rfl, rfl⟩, hpos, Or.inl ⟨free, rfl⟩⟩
          · cases hins
        · rename_i taken
          obtain rfl := Except.ok.inj hins
          refine ⟨⟨rfl, rfl, rfl, rfl⟩, hpos, Or.inr ⟨by simpa using taken, ?_⟩⟩
          exact rows_addToLine db cartId item hpos now

/-- What `add_item` and the `CHECK`s of the table let through. -/
structure Accepted (item : NewCartItem) : Prop where
  positive : 0 < item.qty
  bounded : item.qty ≤ maxQty
  variant : ∀ v ∈ item.variantId, Text.sqlLength v ≠ 0

theorem addItem_accepted {cartId : String} {item : NewCartItem}
    (h : addItem db cartId item now = .ok db') : Accepted item := by
  unfold addItem at h
  split at h
  · cases h
  · rename_i hqty
    split at h
    · cases h
    · rename_i db₁ hins
      unfold insertItem at hins
      split at hins
      · cases hins
      · rename_i hvariant
        refine ⟨by omega, by omega, fun v hv hzero => hvariant ?_⟩
        rw [Option.mem_def.mp hv, Option.any_some, hzero]
        rfl

theorem clear_cartsOnly (cartId : String) : CartsOnly db (clear db cartId now) := by
  constructor <;> simp [clear, deleteItems]

theorem clear_cartItems (cartId : String) : (clear db cartId now).cartItems.rows =
    db.cartItems.rows.filter fun r => !decide (r.cartId = cartId) := by
  simp [clear, deleteItems]

theorem removeItem_cartsOnly (cartId : String) (itemId : Int) :
    CartsOnly db (removeItem db cartId itemId now) := by
  constructor <;> simp [removeItem, deleteItems]

theorem updateQty_ok {cartId : String} {itemId qty : Int}
    (h : updateQty db cartId itemId qty now = .ok db') : CartsOnly db db' := by
  unfold updateQty at h
  split at h
  · cases h
  · obtain rfl := Except.ok.inj h
    split <;> constructor <;> simp [deleteItems, setQty]

end Inversion

end CartRepo

end TinyShop
