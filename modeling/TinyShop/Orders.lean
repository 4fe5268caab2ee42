import TinyShop.Base.Table
import TinyShop.Outbox

/-!
# Orders and carts

Domain types of `crates/orders/src/order.rs` and `cart.rs`, and the tables of
`migrations/orders`. `CHECK (qty > 0)` and the unique index on the line of a cart are
fields of the table of cart items, and so is the order of its keys.
-/

namespace TinyShop

open Base
set_option autoImplicit false

inductive OrderStatus where
  | created
  | paid
  | fulfilled
  | cancelled
deriving DecidableEq, Repr

namespace OrderStatus

def asStr : OrderStatus → String
  | .created => "created"
  | .paid => "paid"
  | .fulfilled => "fulfilled"
  | .cancelled => "cancelled"

def parse (s : String) : Option OrderStatus :=
  if s = "created" then some .created
  else if s = "paid" then some .paid
  else if s = "fulfilled" then some .fulfilled
  else if s = "cancelled" then some .cancelled
  else none

@[simp] theorem parse_asStr (s : OrderStatus) : parse s.asStr = some s := by
  cases s <;> decide

end OrderStatus

/-- Row of the table `orders`. -/
structure OrderRow where
  id : String
  buyerId : String
  status : OrderStatus
  totalMinor : Int64
  currency : String
  createdAt : Int64
deriving DecidableEq, Repr

/-- One unit of a product in an order, with the snapshot taken at checkout. -/
structure OrderItem where
  id : String
  orderId : String
  productId : String
  sellerId : String
  variantId : Option String
  title : String
  unitPriceMinor : Int64
  currency : String
  configSnapshot : Option Value

structure Order where
  id : String
  buyerId : String
  status : OrderStatus
  totalMinor : Int64
  currency : String
  createdAt : Int64
  items : List OrderItem

structure NewOrder where
  id : String
  buyerId : String
  currency : String

structure NewOrderItem where
  id : String
  orderId : String
  productId : String
  sellerId : String
  variantId : Option String
  title : String
  unitPriceMinor : Int64
  currency : String
  configSnapshot : Option Value

structure OrderContact where
  orderId : String
  email : String
  name : Option String
  createdAt : Int64
deriving DecidableEq, Repr

structure NewOrderContact where
  email : String
  name : Option String
deriving DecidableEq, Repr

structure Cart where
  tokenHash : String
  createdAt : Int64
  updatedAt : Int64
deriving DecidableEq, Repr

structure CartItem where
  id : Int
  cartId : String
  productId : String
  variantId : Option String
  qty : Int
  title : String
  unitPriceMinor : Int64
  currency : String
  addedAt : Int64
deriving DecidableEq, Repr

/-- The columns of the index `cart_items_unique`. -/
def CartItem.line (i : CartItem) : String × String × String :=
  (i.cartId, i.productId, i.variantId.getD "")

structure NewCartItem where
  productId : String
  variantId : Option String
  qty : Int
  title : String
  unitPriceMinor : Int64
  currency : String
deriving DecidableEq, Repr

/-- Raw token of a cart, as the cookie carries it. -/
structure CartToken where
  raw : String
deriving DecidableEq, Repr

/-- The table `cart_items`; `seq` is the largest id handed out. -/
structure CartItems where
  rows : List CartItem
  seq : Int
  sorted : rows.Pairwise fun a b => a.id < b.id
  bounded : ∀ r ∈ rows, r.id ≤ seq
  distinct : (rows.map CartItem.line).Nodup
  positive : ∀ r ∈ rows, 0 < r.qty

namespace CartItems

def empty : CartItems := ⟨[], 0, .nil, by simp, List.nodup_nil, by simp⟩

/-- `INSERT` of a row whose line is free; the row gets the next id. -/
def insert (t : CartItems) (row : CartItem) (free : ∀ r ∈ t.rows, r.line ≠ row.line)
    (hqty : 0 < row.qty) : CartItems where
  rows := t.rows ++ [{ row with id := t.seq + 1 }]
  seq := t.seq + 1
  sorted := by
    refine List.pairwise_append.mpr ⟨t.sorted, List.pairwise_singleton _ _, ?_⟩
    intro r hr s hs
    rw [List.mem_singleton] at hs
    have hle := t.bounded r hr
    subst hs
    change r.id < t.seq + 1
    omega
  bounded := by
    intro r hr
    rcases List.mem_append.mp hr with hr | hr
    · have hle := t.bounded r hr
      omega
    · rw [List.mem_singleton] at hr
      subst hr
      exact Int.le_refl _
  distinct := by
    rw [List.map_append, List.nodup_append]
    refine ⟨t.distinct, List.nodup_singleton _, ?_⟩
    intro l hl l' hl'
    obtain ⟨r, hr, rfl⟩ := List.mem_map.mp hl
    rw [List.map_singleton, List.mem_singleton] at hl'
    subst hl'
    exact free r hr
  positive := by
    intro r hr
    rcases List.mem_append.mp hr with hr | hr
    · exact t.positive r hr
    · rw [List.mem_singleton.mp hr]
      exact hqty

/-- An update that leaves the key and the line of a row alone. -/
def update (t : CartItems) (p : CartItem → Bool) (f : CartItem → CartItem)
    (keepsId : ∀ r, (f r).id = r.id) (keepsLine : ∀ r, (f r).line = r.line)
    (hqty : ∀ r, 0 < r.qty → 0 < (f r).qty) : CartItems where
  rows := t.rows.map fun r => if p r then f r else r
  seq := t.seq
  sorted := by
    rw [List.pairwise_map]
    refine t.sorted.imp fun {a b} h => ?_
    have hid : ∀ r, (if p r then f r else r).id = r.id := by
      intro r
      split <;> simp [keepsId]
    rw [hid, hid]
    exact h
  bounded := by
    intro r hr
    obtain ⟨s, hs, rfl⟩ := List.mem_map.mp hr
    have hle := t.bounded s hs
    split <;> simp [keepsId, hle]
  distinct := by
    have hline : (fun r => CartItem.line (if p r then f r else r)) = CartItem.line := by
      funext r
      split <;> simp [keepsLine]
    simpa [List.map_map, Function.comp_def, hline] using t.distinct
  positive := by
    intro r hr
    obtain ⟨s, hs, rfl⟩ := List.mem_map.mp hr
    have hpos := t.positive s hs
    split
    · exact hqty s hpos
    · exact hpos

/-- The next id is handed out to no row. -/
def skipId (t : CartItems) : CartItems where
  rows := t.rows
  seq := t.seq + 1
  sorted := t.sorted
  bounded := fun r hr => (t.bounded r hr).trans (Int.le_of_lt (Int.lt_succ t.seq))
  distinct := t.distinct
  positive := t.positive

def delete (t : CartItems) (p : CartItem → Bool) : CartItems where
  rows := t.rows.filter fun r => !p r
  seq := t.seq
  sorted := t.sorted.sublist List.filter_sublist
  bounded := fun r hr => t.bounded r (List.mem_of_mem_filter hr)
  distinct := t.distinct.sublist (List.Sublist.map _ List.filter_sublist)
  positive := fun r hr => t.positive r (List.mem_of_mem_filter hr)

@[simp] theorem rows_empty : empty.rows = [] := rfl

@[simp] theorem rows_insert (t : CartItems) (row : CartItem)
    (free : ∀ r ∈ t.rows, r.line ≠ row.line) (hqty : 0 < row.qty) :
    (t.insert row free hqty).rows = t.rows ++ [{ row with id := t.seq + 1 }] := rfl

@[simp] theorem rows_update (t : CartItems) (p : CartItem → Bool) (f : CartItem → CartItem)
    (keepsId : ∀ r, (f r).id = r.id) (keepsLine : ∀ r, (f r).line = r.line)
    (hqty : ∀ r, 0 < r.qty → 0 < (f r).qty) :
    (t.update p f keepsId keepsLine hqty).rows = t.rows.map fun r => if p r then f r else r := rfl

@[simp] theorem rows_skipId (t : CartItems) : t.skipId.rows = t.rows := rfl

@[simp] theorem rows_delete (t : CartItems) (p : CartItem → Bool) :
    (t.delete p).rows = t.rows.filter fun r => !p r := rfl

end CartItems

structure OrdersDb where
  orders : Table OrderRow String OrderRow.id
  orderItems : Table OrderItem String OrderItem.id
  orderContact : Table OrderContact String OrderContact.orderId
  carts : Table Cart String Cart.tokenHash
  cartItems : CartItems
  outbox : Outbox

namespace OrdersDb

def empty : OrdersDb := ⟨∅, ∅, ∅, ∅, .empty, .empty⟩

def enqueue (db : OrdersDb) (ev : NewEvent) (clock : Int64) : OrdersDb :=
  { db with outbox := db.outbox.enqueue ev clock }

end OrdersDb

end TinyShop
