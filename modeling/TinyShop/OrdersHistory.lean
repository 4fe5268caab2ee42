import TinyShop.CartRepo
import TinyShop.OrderRepo

/-!
# Histories of the orders database

What any calls of `OrderRepo` and `CartRepo` can lead to, with any arguments.
-/

namespace TinyShop

open Base
set_option autoImplicit false

inductive OrdersCall where
  | createOrder (o : NewOrder)
  | addOrderItem (item : NewOrderItem)
  | checkout (buyerId currency : String) (items : List NewOrderItem)
      (contact : Option NewOrderContact) (orderId : String)
  | createCart (raw : String)
  | addItem (cartId : String) (item : NewCartItem)
  | updateQty (cartId : String) (itemId qty : Int)
  | removeItem (cartId : String) (itemId : Int)
  | clear (cartId : String)

/-- The database after a call that commits. -/
def OrdersCall.run (hashToken : String → String) (db : OrdersDb) (now clock : Int64) :
    OrdersCall → Option OrdersDb
  | .createOrder o => (OrderRepo.createOrder db o now clock).toOption
  | .addOrderItem item => (OrderRepo.addItem db item).toOption
  | .checkout buyerId currency items contact orderId =>
    (OrderRepo.checkout db buyerId currency items contact orderId now clock).toOption.map Prod.fst
  | .createCart raw => (CartRepo.createCart db hashToken raw now).toOption.map Prod.fst
  | .addItem cartId item => (CartRepo.addItem db cartId item now).toOption
  | .updateQty cartId itemId qty => (CartRepo.updateQty db cartId itemId qty now).toOption
  | .removeItem cartId itemId => some (CartRepo.removeItem db cartId itemId now)
  | .clear cartId => some (CartRepo.clear db cartId now)

theorem ok_of_toOption {ε α : Type} {x : Except ε α} {a : α} (h : x.toOption = some a) :
    x = .ok a := by
  cases x with
  | error e => cases h
  | ok b => exact congrArg Except.ok (Option.some.inj h)

namespace OrdersDb

inductive Reachable (hashToken : String → String) : OrdersDb → Prop where
  | empty : Reachable hashToken .empty
  | call {db db' : OrdersDb} {now clock : Int64} (c : OrdersCall) :
      Reachable hashToken db → c.run hashToken db now clock = some db' → Reachable hashToken db'

/-- What a list of calls leads to; a call that fails changes nothing. -/
def script (hashToken : String → String) (calls : List OrdersCall) : OrdersDb :=
  calls.foldl (fun db c => (c.run hashToken db 0 0).getD db) .empty

theorem reachable_script (hashToken : String → String) (calls : List OrdersCall) :
    Reachable hashToken (script hashToken calls) := by
  have hfold : ∀ db, Reachable hashToken db →
      Reachable hashToken (calls.foldl (fun db c => (c.run hashToken db 0 0).getD db) db) := by
    induction calls with
    | nil => exact fun db h => h
    | cons c calls ih =>
      intro db h
      have hnext : Reachable hashToken ((c.run hashToken db 0 0).getD db) := by
        cases hrun : c.run hashToken db 0 0 with
        | none => exact h
        | some db' => exact .call c h hrun
      exact ih _ hnext
  exact hfold .empty .empty

/-- `order_items.order_id REFERENCES orders(id)`. -/
def ItemsOrdered (db : OrdersDb) : Prop :=
  ∀ i ∈ db.orderItems.rows, ∃ o ∈ db.orders.rows, o.id = i.orderId

theorem itemsOrdered_of_append {db db' : OrdersDb} (news : List OrderItem)
    (h : db.ItemsOrdered) (hitems : db'.orderItems.rows = db.orderItems.rows ++ news)
    (horders : ∀ o ∈ db.orders.rows, ∃ o' ∈ db'.orders.rows, o'.id = o.id)
    (hnews : ∀ i ∈ news, ∃ o ∈ db'.orders.rows, o.id = i.orderId) : db'.ItemsOrdered := by
  intro i hi
  rw [hitems] at hi
  rcases List.mem_append.mp hi with hi | hi
  · obtain ⟨o, ho, hid⟩ := h i hi
    obtain ⟨o', ho', hid'⟩ := horders o ho
    exact ⟨o', ho', hid'.trans hid⟩
  · exact hnews i hi

end OrdersDb

namespace OrdersDb
variable {db db' : OrdersDb} {now clock : Int64}

theorem createOrder_itemsOrdered {o : NewOrder} (hdb : db.ItemsOrdered)
    (h : OrderRepo.createOrder db o now clock = .ok db') : db'.ItemsOrdered := by
  unfold OrderRepo.createOrder at h
  split at h
  · cases h
  · rename_i db₁ hins
    obtain ⟨_, orders, rfl, horders⟩ := OrderRepo.insertOrder_ok hins
    obtain rfl := Except.ok.inj h
    refine itemsOrdered_of_append [] hdb (by simp [enqueue]) (fun o ho => ?_) (by simp)
    refine ⟨o, ?_, rfl⟩
    simp only [enqueue, horders]
    exact List.mem_append_left _ ho

theorem updateTotal_itemsOrdered {orderId : String} (hdb : db.ItemsOrdered)
    (h : OrderRepo.updateTotal db orderId = .ok db') : db'.ItemsOrdered := by
  obtain ⟨total, orders, _, rfl, horders⟩ := OrderRepo.updateTotal_ok h
  refine itemsOrdered_of_append [] hdb (by simp) (fun o ho => ?_) (by simp)
  refine ⟨if o.id = orderId then { o with totalMinor := total } else o, ?_, ?_⟩
  · simp only [horders]
    exact List.mem_map_of_mem ho
  · split <;> rfl

theorem addOrderItem_itemsOrdered {item : NewOrderItem} (hdb : db.ItemsOrdered)
    (h : OrderRepo.addItem db item = .ok db') : db'.ItemsOrdered := by
  obtain ⟨db₁, hins, htotal⟩ := OrderRepo.addItem_ok h
  refine updateTotal_itemsOrdered ?_ htotal
  obtain ⟨horder, orderItems, rfl, hitems⟩ := OrderRepo.insertItem_ok hins
  refine itemsOrdered_of_append _ hdb hitems (fun o ho => ⟨o, ho, rfl⟩) fun i hi => ?_
  rw [List.mem_singleton.mp hi]
  exact Table.find?_isSome_iff.mp horder

theorem checkout_itemsOrdered {buyerId currency : String} {items : List NewOrderItem}
    {contact : Option NewOrderContact} {orderId id : String} (hdb : db.ItemsOrdered)
    (h : OrderRepo.checkout db buyerId currency items contact orderId now clock = .ok (db', id)) :
    db'.ItemsOrdered := by
  obtain ⟨_, _, total, hwritten⟩ := OrderRepo.checkout_ok h
  refine itemsOrdered_of_append _ hdb hwritten.orderItems (fun o ho => ⟨o, ?_, rfl⟩) fun i hi => ?_
  · rw [hwritten.orders]
    exact List.mem_append_left _ ho
  · obtain ⟨item, _, rfl⟩ := List.mem_map.mp hi
    refine ⟨⟨orderId, buyerId, .created, total, currency, now⟩, ?_, rfl⟩
    rw [hwritten.orders]
    exact List.mem_append_right _ List.mem_cons_self

theorem itemsOrdered_of_cartsOnly (hdb : db.ItemsOrdered) (h : CartRepo.CartsOnly db db') :
    db'.ItemsOrdered := by
  unfold ItemsOrdered
  rw [h.orders, h.orderItems]
  exact hdb

/-- The foreign key of the order items holds in every history. -/
theorem Reachable.itemsOrdered {hashToken : String → String} (h : Reachable hashToken db) :
    db.ItemsOrdered := by
  induction h with
  | empty => intro i hi; cases hi
  | call c _ hrun ih =>
    cases c with
    | createOrder o =>
      exact createOrder_itemsOrdered ih (ok_of_toOption hrun)
    | addOrderItem item =>
      exact addOrderItem_itemsOrdered ih (ok_of_toOption hrun)
    | checkout buyerId currency items contact orderId =>
      obtain ⟨⟨db₁, id⟩, hok, rfl⟩ := Option.map_eq_some_iff.mp hrun
      exact checkout_itemsOrdered ih (ok_of_toOption hok)
    | createCart raw =>
      obtain ⟨⟨db₁, token, cart⟩, hok, rfl⟩ := Option.map_eq_some_iff.mp hrun
      exact itemsOrdered_of_cartsOnly ih
        (CartRepo.createCart_ok (ok_of_toOption hok)).1
    | addItem cartId item =>
      exact itemsOrdered_of_cartsOnly ih
        (CartRepo.addItem_ok (ok_of_toOption hrun)).1
    | updateQty cartId itemId qty =>
      exact itemsOrdered_of_cartsOnly ih
        (CartRepo.updateQty_ok (ok_of_toOption hrun))
    | removeItem cartId itemId =>
      obtain rfl := Option.some.inj hrun
      exact itemsOrdered_of_cartsOnly ih (CartRepo.removeItem_cartsOnly cartId itemId)
    | clear cartId =>
      obtain rfl := Option.some.inj hrun
      exact itemsOrdered_of_cartsOnly ih (CartRepo.clear_cartsOnly cartId)

end OrdersDb

namespace OrderRepo
variable {db db' : OrdersDb}

/-- Only the orders and their items are read. -/
theorem getOrderWithItems_congr (horders : db'.orders = db.orders)
    (hitems : db'.orderItems = db.orderItems) (id : String) :
    getOrderWithItems db' id = getOrderWithItems db id := by
  unfold getOrderWithItems fetchItems
  rw [horders, hitems]

theorem fetchItems_of_free {id : String} (hdb : db.ItemsOrdered) (hfree : db.orders.find? id = none) :
    fetchItems db id = [] := by
  refine List.filter_eq_nil_iff.mpr fun i hi hid => ?_
  obtain ⟨o, ho, hoid⟩ := hdb i hi
  rw [decide_eq_true_eq] at hid
  exact Table.find?_eq_none_iff.mp hfree o ho (hoid.trans hid)

namespace Written
variable {buyerId currency : String} {items : List NewOrderItem} {contact : Option NewOrderContact}
  {orderId : String} {total now clock : Int64}

/-- The order that a checkout has written is read back with its items. -/
theorem stored (h : Written db db' buyerId currency items contact orderId total now clock)
    (hdb : db.ItemsOrdered) : getOrderWithItems db' orderId =
      .ok (some ⟨orderId, buyerId, .created, total, currency, now, items.map (itemRow orderId)⟩) := by
  have hrow := (Table.find?_of_append h.orders orderId).trans (if_pos rfl)
  have hitems : fetchItems db' orderId = items.map (itemRow orderId) := by
    have hold := fetchItems_of_free hdb h.free
    unfold fetchItems at hold ⊢
    rw [h.orderItems, List.filter_append, hold, List.nil_append]
    simp [itemRow, List.filter_map, Function.comp_def]
  simp [getOrderWithItems, hrow, hitems, mapOrderRow, bind, Except.bind, pure, Except.pure]

theorem others (h : Written db db' buyerId currency items contact orderId total now clock)
    {id : String} (hid : id ≠ orderId) : getOrderWithItems db' id = getOrderWithItems db id := by
  have hrow : db'.orders.find? id = db.orders.find? id :=
    (Table.find?_of_append h.orders id).trans (if_neg hid.symm)
  have hitems : fetchItems db' id = fetchItems db id := by
    unfold fetchItems
    rw [h.orderItems]
    simp [itemRow, List.filter_append, List.filter_map, Function.comp_def, hid.symm]
  unfold getOrderWithItems
  rw [hrow, hitems]

/-- The total is the exact sum of the prices of the units. -/
theorem total_eq (h : Written db db' buyerId currency items contact orderId total now clock)
    (hdb : db.ItemsOrdered) :
    total.toInt = (items.map fun item => item.unitPriceMinor.toInt).sum := by
  have hsum := sumFrom_ok h.sum
  rw [fetchItems_of_free hdb h.free] at hsum
  simpa [Function.comp_def] using hsum

end Written

end OrderRepo

end TinyShop
