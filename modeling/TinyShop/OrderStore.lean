import TinyShop.OrdersConnection

/-!
# The order store

What any run of calls keeps: totals, references and events, and, as long as no item is
added in another currency than that of its order, one currency in each order.
-/

namespace TinyShop

open Base
set_option autoImplicit false

namespace OrderStore
open OrderRepo OrdersConnection

/-- The sum of the prices, as a number without a bound. -/
def priceSum (items : List OrderItem) : Int := (items.map fun i => i.unitPriceMinor.toInt).sum

/-- The number of `OrderCreated` events about an order. -/
def created (o : Outbox) (id : String) : Nat :=
  o.rows.countP fun r => r.eventType = "OrderCreated" ∧ r.aggregateId = id

theorem created_enqueue (o : Outbox) (id buyerId currency other : String) (clock : Int64) :
    created (o.enqueue (orderCreated id buyerId currency) clock) other =
      created o other + if other = id then 1 else 0 := by
  by_cases h : other = id
  · simp [created, Outbox.newRow, orderCreated, h]
  · simp [created, Outbox.newRow, orderCreated, h, Ne.symm h]

/-- What a committed call does: it writes to one order. -/
structure Step (db db' : OrdersDb) (id : String) : Prop where
  total : ∃ o, db'.orders.find? id = some o ∧ o.totalMinor.toInt = priceSum (fetchItems db' id)
  currency : ∀ o, db.orders.find? id = some o →
    ∃ o', db'.orders.find? id = some o' ∧ o'.currency = o.currency
  items : fetchItems db id <+: fetchItems db' id
  others : ∀ other, other ≠ id →
    db'.orders.find? other = db.orders.find? other ∧ fetchItems db' other = fetchItems db other
  contacts : ∀ c ∈ db'.orderContact.rows, c ∈ db.orderContact.rows ∨ c.orderId = id
  outbox : ∀ other, created db'.outbox other = created db.outbox other +
    if other = id ∧ db.orders.find? id = none then 1 else 0
  carts : db'.carts = db.carts
  cartItems : db'.cartItems = db.cartItems

section Steps
variable {db db' : OrdersDb} {now clock : Int64}

theorem mem_fetchItems {i : OrderItem} {id : String} :
    i ∈ fetchItems db id ↔ i ∈ db.orderItems.rows ∧ i.orderId = id := by
  simp [fetchItems]

/-- Rows of one order are appended. -/
theorem fetchItems_append {orderId : String} {items : List NewOrderItem}
    (h : db'.orderItems.rows = db.orderItems.rows ++ items.map (itemRow orderId)) (id : String) :
    fetchItems db' id =
      fetchItems db id ++ if id = orderId then items.map (itemRow orderId) else [] := by
  unfold fetchItems
  rw [h, List.filter_append]
  by_cases hid : id = orderId
  · simp [hid, itemRow, List.filter_map, Function.comp_def]
  · simp [hid, Ne.symm hid, itemRow, List.filter_map, Function.comp_def]

theorem createOrder_step {o : NewOrder} (hdb : db.ItemsOrdered)
    (h : OrderRepo.createOrder db o now clock = .ok db') :
    Step db db' o.id ∧ db'.orderItems = db.orderItems := by
  unfold OrderRepo.createOrder at h
  split at h
  · cases h
  · rename_i db₁ hins
    obtain ⟨hfree, orders, rfl, horders⟩ := insertOrder_ok hins
    obtain rfl := Except.ok.inj h
    have hnone : fetchItems db o.id = [] := fetchItems_of_free hdb hfree
    refine ⟨⟨⟨⟨o.id, o.buyerId, .created, 0, o.currency, now⟩, ?_, ?_⟩, ?_, List.prefix_rfl,
      fun other hother => ⟨?_, rfl⟩, fun c hc => Or.inl hc, fun other => ?_, rfl, rfl⟩, rfl⟩
    · exact (Table.find?_of_append horders o.id).trans (if_pos rfl)
    · change 0 = priceSum (fetchItems db o.id)
      rw [hnone]
      rfl
    · intro old hold
      rw [hfree] at hold
      cases hold
    · exact (Table.find?_of_append horders other).trans (if_neg hother.symm)
    · simp only [OrdersDb.enqueue, created_enqueue, hfree, and_true]

theorem addItem_step {item : NewOrderItem} (h : OrderRepo.addItem db item = .ok db') :
    Step db db' item.orderId ∧ (db.orders.find? item.orderId).isSome ∧
      db'.orderItems.rows = db.orderItems.rows ++ [itemRow item.orderId item] := by
  obtain ⟨db₁, hins, htotal⟩ := addItem_ok h
  obtain ⟨hsome, orderItems, rfl, hitems⟩ := insertItem_ok hins
  obtain ⟨total, orders, hsum, rfl, horders⟩ := updateTotal_ok htotal
  have hfind : ∀ k, orders.find? k = (db.orders.find? k).map fun o =>
      if o.id = item.orderId then { o with totalMinor := total } else o :=
    Table.find?_of_map horders fun o => by split <;> rfl
  have hfetch : ∀ id, fetchItems { db with orders, orderItems } id = _ :=
    fetchItems_append (show _ = _ ++ [item].map _ from hitems)
  obtain ⟨o, ho⟩ := Option.isSome_iff_exists.mp hsome
  have hid := Table.key_of_find? ho
  have hrow : orders.find? item.orderId = some { o with totalMinor := total } := by
    rw [hfind, ho, Option.map_some, if_pos hid]
  refine ⟨⟨⟨_, hrow, ?_⟩, ?_, ?_, fun other hother => ⟨?_, ?_⟩, fun c hc => Or.inl hc,
    fun other => ?_, rfl, rfl⟩, hsome, hitems⟩
  · have hexact := sumFrom_ok hsum
    rw [List.map_map, Int64.toInt_zero, Int.zero_add] at hexact
    exact hexact
  · intro old hold
    obtain rfl := Option.some.inj (ho.symm.trans hold)
    exact ⟨_, hrow, rfl⟩
  · rw [hfetch]
    exact List.prefix_append _ _
  · simp only [hfind]
    cases hf : db.orders.find? other with
    | none => rfl
    | some x =>
      have hx := Table.key_of_find? hf
      rw [Option.map_some, if_neg (by rw [hx]; exact hother)]
  · rw [hfetch, if_neg hother, List.append_nil]
  · simp [ho]

theorem checkout_step {buyerId currency : String} {items : List NewOrderItem}
    {contact : Option NewOrderContact} {orderId : String} {total : Int64} (hdb : db.ItemsOrdered)
    (h : Written db db' buyerId currency items contact orderId total now clock) :
    Step db db' orderId := by
  have hfind := Table.find?_of_append h.orders
  have hnone : fetchItems db orderId = [] := fetchItems_of_free hdb h.free
  refine ⟨⟨_, (hfind orderId).trans (if_pos rfl), ?_⟩, ?_, ?_, fun other hother => ⟨?_, ?_⟩,
    fun c hc => ?_, fun other => ?_, h.carts, h.cartItems⟩
  · have hexact := sumFrom_ok h.sum
    rw [hnone, List.map_nil, List.nil_append, Int64.toInt_zero, Int.zero_add, List.map_map] at hexact
    rw [fetchItems_append h.orderItems, hnone, if_pos rfl, List.nil_append, priceSum, List.map_map]
    exact hexact
  · intro old hold
    rw [h.free] at hold
    cases hold
  · rw [hnone]
    exact List.nil_prefix
  · rw [hfind, if_neg hother.symm]
  · rw [fetchItems_append h.orderItems, if_neg hother, List.append_nil]
  · rw [h.orderContact] at hc
    rcases List.mem_append.mp hc with hc | hc
    · exact Or.inl hc
    · obtain ⟨a, _, rfl⟩ := Option.map_eq_some_iff.mp (Option.mem_toList.mp hc)
      exact Or.inr rfl
  · rw [h.outbox, created_enqueue]
    simp [h.free]

end Steps

/-! ## Totals, references and events -/

/-- What holds of the order store between two calls. -/
structure Sound (db : OrdersDb) : Prop where
  total : ∀ o ∈ db.orders.rows, o.totalMinor.toInt = priceSum (fetchItems db o.id)
  contacts : ∀ c ∈ db.orderContact.rows, ∃ o ∈ db.orders.rows, o.id = c.orderId
  created : ∀ id, created db.outbox id = if (db.orders.find? id).isSome then 1 else 0

section Sound
variable {db db' : OrdersDb} {now clock : Int64} {hashToken : String → String}

theorem sound_empty : Sound .empty where
  total := fun o ho => by cases ho
  contacts := fun c hc => by cases hc
  created := fun _ => rfl

theorem Step.isSome {id k : String} (hs : Step db db' id) (h : (db.orders.find? k).isSome) :
    (db'.orders.find? k).isSome := by
  by_cases hk : k = id
  · obtain ⟨o, ho, _⟩ := hs.total
    rw [hk, ho]
    rfl
  · rw [(hs.others k hk).1]
    exact h

theorem Sound.step (h : Sound db) {id : String} (hs : Step db db' id) : Sound db' where
  total := by
    intro o ho
    have hfind := Table.find?_of_mem ho
    by_cases hid : o.id = id
    · obtain ⟨o', ho', htotal⟩ := hs.total
      rw [hid] at hfind ⊢
      obtain rfl := Option.some.inj (hfind.symm.trans ho')
      exact htotal
    · obtain ⟨hrow, hitems⟩ := hs.others o.id hid
      rw [hrow] at hfind
      rw [hitems]
      exact h.total o (Table.mem_of_find? hfind)
  contacts := by
    intro c hc
    have hsome : (db'.orders.find? c.orderId).isSome := by
      rcases hs.contacts c hc with hc | hid
      · obtain ⟨o, ho, hoc⟩ := h.contacts c hc
        exact hs.isSome (Table.find?_isSome_iff.mpr ⟨o, ho, hoc⟩)
      · obtain ⟨o, ho, _⟩ := hs.total
        rw [hid, ho]
        rfl
    exact Table.find?_isSome_iff.mp hsome
  created := by
    intro other
    rw [hs.outbox, h.created]
    by_cases hother : other = id
    · obtain ⟨o, ho, _⟩ := hs.total
      rw [hother, ho]
      cases db.orders.find? id <;> simp
    · rw [(hs.others other hother).1]
      simp [hother]

theorem Sound.cartsOnly (h : Sound db) (hc : CartRepo.CartsOnly db db') : Sound db' where
  total := by
    unfold fetchItems
    rw [hc.orders, hc.orderItems]
    exact h.total
  contacts := by
    rw [hc.orders, hc.orderContact]
    exact h.contacts
  created := by
    rw [hc.orders, hc.outbox]
    exact h.created

/-- A call of `CartRepo`. -/
def OnCarts : OrdersCall → Prop
  | .createOrder _ | .addOrderItem _ | .checkout _ _ _ _ _ => False
  | _ => True

theorem cartsOnly_of_perform {c : OrdersCall} {a : OrdersAnswer}
    (h : c.perform hashToken now clock db = .ok (a, db')) (hc : OnCarts c) :
    CartRepo.CartsOnly db db' := by
  cases OrdersCall.effect_of_perform h with
  | createOrder _ _ | addOrderItem _ _ | checkout _ _ _ _ _ _ _ => cases hc
  | createCart raw created hx => exact (CartRepo.createCart_ok hx).1
  | addItem cartId item hx => exact (CartRepo.addItem_ok hx).1
  | updateQty cartId itemId qty hx => exact CartRepo.updateQty_ok hx
  | removeItem cartId itemId hdb => exact hdb ▸ CartRepo.removeItem_cartsOnly cartId itemId
  | clear cartId hdb => exact hdb ▸ CartRepo.clear_cartsOnly cartId

/-- The other calls write to one order. -/
theorem step_of_perform (hdb : db.ItemsOrdered) {c : OrdersCall} {a : OrdersAnswer}
    (h : c.perform hashToken now clock db = .ok (a, db')) (hc : ¬OnCarts c) :
    ∃ id, Step db db' id := by
  cases OrdersCall.effect_of_perform h with
  | createOrder o hx => exact ⟨_, (createOrder_step hdb hx).1⟩
  | addOrderItem item hx => exact ⟨_, (addItem_step hx).1⟩
  | checkout buyerId currency items contact orderId placed hx =>
    obtain ⟨_, _, _, hwritten⟩ := checkout_ok hx
    exact ⟨_, checkout_step hdb hwritten⟩
  | createCart _ _ _ | addItem _ _ _ | updateQty _ _ _ _ | removeItem _ _ _ | clear _ _ =>
    exact absurd trivial hc

theorem perform_step (hdb : db.ItemsOrdered) {c : OrdersCall} {a : OrdersAnswer}
    (h : c.perform hashToken now clock db = .ok (a, db')) :
    (∃ id, Step db db' id) ∨ CartRepo.CartsOnly db db' := by
  by_cases hc : OnCarts c
  · exact Or.inr (cartsOnly_of_perform h hc)
  · exact Or.inl (step_of_perform hdb h hc)

/-- No call takes an item away from an order. -/
theorem items_prefix (hdb : db.ItemsOrdered) {c : OrdersCall} {a : OrdersAnswer}
    (h : c.perform hashToken now clock db = .ok (a, db')) (id : String) :
    fetchItems db id <+: fetchItems db' id := by
  rcases perform_step hdb h with ⟨written, hs⟩ | hc
  · by_cases hid : id = written
    · exact hid ▸ hs.items
    · rw [(hs.others id hid).2]
  · unfold fetchItems
    rw [hc.orderItems]

/-- The order that a checkout answers has an item. -/
theorem items_of_placed {c : OrdersCall} {orderId : String}
    (h : c.perform hashToken now clock db = .ok (.placed orderId, db')) :
    fetchItems db' orderId ≠ [] := by
  cases OrdersCall.effect_of_perform h with
  | checkout buyerId currency items contact id placed hx =>
    have hsome : items ≠ [] := by
      rintro rfl
      cases hx
    obtain ⟨rfl, _, _, hwritten⟩ := checkout_ok hx
    rw [fetchItems_append hwritten.orderItems, if_pos rfl]
    simp [hsome]

end Sound

section Runs
variable {hashToken : String → String} {fails : SqlxError → Prop} {log : List Entry}
  {db : OrdersDb}

theorem sound_of_session (h : Session hashToken fails log db) : Sound db := by
  refine h.induct (J := fun _ db => Sound db) sound_empty ?_ id
  intro log db db' now clock c a hs ih hperform
  rcases perform_step hs.reachable.itemsOrdered hperform with ⟨id, hstep⟩ | hcarts
  · exact ih.step hstep
  · exact ih.cartsOnly hcarts

theorem placed_of_session (h : Session hashToken fails log db) : ∀ e ∈ log, ∀ orderId,
    e.answer = .ok (.placed orderId) → fetchItems db orderId ≠ [] := by
  refine h.induct (J := fun log db => ∀ e ∈ log, ∀ orderId,
    e.answer = .ok (.placed orderId) → fetchItems db orderId ≠ []) (by simp) ?_ ?_
  · intro log db db' now clock c a hs ih hperform e he orderId hanswer
    have hdb := hs.reachable.itemsOrdered
    rcases List.mem_cons.mp he with rfl | he
    · obtain rfl := Except.ok.inj hanswer
      exact items_of_placed hperform
    · obtain ⟨rest, hrest⟩ := items_prefix hdb hperform orderId
      rw [← hrest]
      exact List.append_ne_nil_of_left_ne_nil (ih e he orderId hanswer) rest
  · intro log db c error ih e he orderId hanswer
    rcases List.mem_cons.mp he with rfl | he
    · cases hanswer
    · exact ih e he orderId hanswer

/-- Whatever the calls and their arguments, and whichever of them fail: totals are exact
sums, rows belong to orders, each order has one `OrderCreated` event and nothing else has,
what a checkout made has items, and a call that returned an error changed nothing. -/
theorem order_store (h : Session hashToken fails log db) :
    (∀ o ∈ db.orders.rows, o.totalMinor.toInt =
      ((db.orderItems.rows.filter fun i => i.orderId = o.id).map
        fun i => i.unitPriceMinor.toInt).sum) ∧
    (∀ i ∈ db.orderItems.rows, ∃ o ∈ db.orders.rows, o.id = i.orderId) ∧
    (∀ c ∈ db.orderContact.rows, ∃ o ∈ db.orders.rows, o.id = c.orderId) ∧
    (∀ id, db.outbox.rows.countP (fun r => r.eventType = "OrderCreated" ∧ r.aggregateId = id) =
      if (db.orders.find? id).isSome then 1 else 0) ∧
    (∀ e ∈ log, ∀ orderId, e.answer = .ok (.placed orderId) →
      ∃ i ∈ db.orderItems.rows, i.orderId = orderId) ∧
    ∀ e ∈ log, (∃ error, e.answer = .error error) → e.after = e.before := by
  have hsound := sound_of_session h
  refine ⟨hsound.total, h.reachable.itemsOrdered, hsound.contacts, hsound.created, ?_, h.unchanged⟩
  intro e he orderId hanswer
  obtain ⟨i, hi⟩ := List.exists_mem_of_ne_nil _ (placed_of_session h e he orderId hanswer)
  exact ⟨i, mem_fetchItems.mp hi⟩

end Runs

section Script

def scriptItem (id orderId : String) (unitPriceMinor : Int64) (currency : String) : NewOrderItem where
  id := id
  orderId := orderId
  productId := "p1"
  sellerId := "s1"
  variantId := none
  title := "Lamp"
  unitPriceMinor := unitPriceMinor
  currency := currency
  configSnapshot := none

/-- An order with items, a taken id, a sum that leaves 64 bits, and two checkouts, of which
one fails at its second item. -/
def scriptCalls : List OrdersCall :=
  [.checkout "b2" "UAH" [scriptItem "i9" "" 7 "UAH"] (some ⟨"a@b.ua", none⟩) "o3",
    .checkout "b2" "UAH" [scriptItem "i8" "" 7 "UAH", scriptItem "i1" "" 7 "UAH"] none "o2",
    .addOrderItem (scriptItem "i2" "o1" Int64.maxValue "UAH"),
    .createOrder ⟨"o1", "b2", "UAH"⟩,
    .addOrderItem (scriptItem "i1" "o1" 100 "UAH"),
    .createOrder ⟨"o1", "b1", "UAH"⟩]

theorem order_store_script :
    let run := play id scriptCalls
    run.1.map (fun e => e.answer.toOption) =
        [some (.placed "o3"), none, none, none, some .done, some .done] ∧
      run.2.orders.rows.map (fun o => (o.id, o.totalMinor)) = [("o1", 100), ("o3", 7)] ∧
      ∀ e ∈ run.1, (∃ error, e.answer = .error error) → e.after = e.before :=
  have hsession : Session id (fun _ => False) _ _ := session_play id scriptCalls
  ⟨by decide, by decide, (order_store hsession).2.2.2.2.2⟩

end Script

/-! ## Currencies -/

/-- Each item is priced in the currency of its order. -/
def OneCurrency (db : OrdersDb) : Prop :=
  ∀ i ∈ db.orderItems.rows, ∀ o ∈ db.orders.rows, o.id = i.orderId → i.currency = o.currency

/-- `add_item` writes the currency it is given; `checkout` compares it before. -/
def KeepsCurrency (db : OrdersDb) : OrdersCall → Prop
  | .addOrderItem item => ∀ o ∈ db.orders.rows, o.id = item.orderId → item.currency = o.currency
  | _ => True

section Currency
variable {db db' : OrdersDb} {now clock : Int64} {hashToken : String → String}

/-- The currency of an order is never written again. -/
theorem Step.currency_kept {id : String} (hs : Step db db' id) {k : String} {o : OrderRow}
    (h : db.orders.find? k = some o) :
    ∃ o', db'.orders.find? k = some o' ∧ o'.currency = o.currency := by
  by_cases hk : k = id
  · rw [hk] at h ⊢
    exact hs.currency o h
  · refine ⟨o, ?_, rfl⟩
    rw [(hs.others k hk).1]
    exact h

theorem find?_of_id {k : String} {o : OrderRow} (h : o ∈ db.orders.rows) (hid : o.id = k) :
    db.orders.find? k = some o :=
  hid ▸ Table.find?_of_mem h

/-- What a step adds decides whether the currencies still agree. -/
theorem oneCurrency_append {id : String} (hs : Step db db' id) (hdb : db.ItemsOrdered)
    {news : List OrderItem} (hitems : db'.orderItems.rows = db.orderItems.rows ++ news) :
    OneCurrency db' ↔ OneCurrency db ∧
      ∀ i ∈ news, ∀ o ∈ db'.orders.rows, o.id = i.orderId → i.currency = o.currency := by
  unfold OneCurrency
  simp only [hitems, List.forall_mem_append]
  refine and_congr_left fun _ => ⟨fun h i hi o ho hid => ?_, fun h i hi o' ho' hid => ?_⟩
  · obtain ⟨o', ho', hcurrency⟩ := hs.currency_kept (find?_of_id ho hid)
    rw [← hcurrency]
    exact h i hi o' (Table.mem_of_find? ho') (Table.key_of_find? ho')
  · obtain ⟨o, ho, hoid⟩ := hdb i hi
    obtain ⟨o₁, ho₁, hcurrency⟩ := hs.currency_kept (find?_of_id ho hoid)
    obtain rfl := Option.some.inj (ho₁.symm.trans (find?_of_id ho' hid))
    rw [hcurrency]
    exact h i hi o ho hoid

/-- A call that commits leaves one currency in each order if and only if it found one and
keeps it. -/
theorem oneCurrency_perform (hdb : db.ItemsOrdered) {c : OrdersCall} {a : OrdersAnswer}
    (h : c.perform hashToken now clock db = .ok (a, db')) :
    OneCurrency db' ↔ OneCurrency db ∧ KeepsCurrency db c := by
  cases OrdersCall.effect_of_perform h with
  | createOrder o hx =>
    obtain ⟨hs, hsame⟩ := createOrder_step hdb hx
    have hitems : db'.orderItems.rows = db.orderItems.rows ++ [] := by
      rw [hsame, List.append_nil]
    rw [oneCurrency_append hs hdb hitems]
    simp [KeepsCurrency]
  | addOrderItem item hx =>
    obtain ⟨hs, hsome, hitems⟩ := addItem_step hx
    rw [oneCurrency_append hs hdb hitems, List.forall_mem_singleton]
    refine and_congr_right fun _ => ⟨fun h o ho hid => ?_, fun h o' ho' hid => ?_⟩
    · obtain ⟨o', ho', hcurrency⟩ := hs.currency_kept (find?_of_id ho hid)
      rw [← hcurrency]
      exact h o' (Table.mem_of_find? ho') (Table.key_of_find? ho')
    · obtain ⟨o, ho⟩ := Option.isSome_iff_exists.mp hsome
      obtain ⟨o₁, ho₁, hcurrency⟩ := hs.currency_kept ho
      obtain rfl := Option.some.inj (ho₁.symm.trans (find?_of_id ho' hid))
      rw [hcurrency]
      exact h o (Table.mem_of_find? ho) (Table.key_of_find? ho)
  | checkout buyerId currency items contact orderId placed hx =>
    obtain ⟨_, hsame, _, hwritten⟩ := checkout_ok hx
    rw [oneCurrency_append (checkout_step hdb hwritten) hdb hwritten.orderItems]
    refine and_congr_right fun _ => iff_of_true (fun i hi o ho hid => ?_) trivial
    obtain ⟨item, hitem, rfl⟩ := List.mem_map.mp hi
    have hnew := (Table.find?_of_append hwritten.orders orderId).trans (if_pos rfl)
    obtain rfl := Option.some.inj ((find?_of_id ho hid).symm.trans hnew)
    exact hsame item hitem
  | createCart _ _ _ | addItem _ _ _ | updateQty _ _ _ _ | removeItem _ _ _ | clear _ _ =>
    have hcarts := cartsOnly_of_perform h trivial
    simp [OneCurrency, KeepsCurrency, hcarts.orders, hcarts.orderItems]

end Currency

section Runs
variable {hashToken : String → String} {fails : SqlxError → Prop} {log : List Entry}
  {db : OrdersDb}

/-- Orders hold one currency each if and only if every call that committed kept it. -/
theorem one_currency_iff (h : Session hashToken fails log db) :
    (∀ i ∈ db.orderItems.rows, ∀ o ∈ db.orders.rows, o.id = i.orderId → i.currency = o.currency) ↔
      ∀ e ∈ log, (∃ a, e.answer = .ok a) → KeepsCurrency e.before e.call := by
  refine h.induct (J := fun log db => OneCurrency db ↔
    ∀ e ∈ log, (∃ a, e.answer = .ok a) → KeepsCurrency e.before e.call) ?_ ?_ ?_
  · exact iff_of_true (fun i hi => by cases hi) (by simp)
  · intro log db db' now clock c a hs ih hperform
    rw [oneCurrency_perform hs.reachable.itemsOrdered hperform, ih, List.forall_mem_cons]
    constructor
    · rintro ⟨hlog, hkeeps⟩
      exact ⟨fun _ => hkeeps, hlog⟩
    · rintro ⟨hkeeps, hlog⟩
      exact ⟨hlog, hkeeps ⟨a, rfl⟩⟩
  · intro log db c error ih
    rw [ih, List.forall_mem_cons]
    refine (and_iff_right ?_).symm
    rintro ⟨a, ha⟩
    cases ha

end Runs

section Script

def mixedCalls : List OrdersCall :=
  [.addOrderItem (scriptItem "i1" "o1" 100 "USD"), .createOrder ⟨"o1", "b1", "UAH"⟩]

theorem one_currency_iff_script :
    ¬ ∀ e ∈ (play id mixedCalls).1, (∃ a, e.answer = .ok a) → KeepsCurrency e.before e.call := by
  have hsession : Session id (fun _ => False) _ _ := session_play id mixedCalls
  rw [← one_currency_iff hsession]
  decide

/-- An item in dollars joins an order in hryvnias. -/
theorem mixed_currencies : ¬ ∀ (hashToken : String → String) (fails : SqlxError → Prop)
    (log : List Entry) (db : OrdersDb), Session hashToken fails log db →
      ∀ i ∈ db.orderItems.rows, ∀ o ∈ db.orders.rows, o.id = i.orderId → i.currency = o.currency := by
  intro h
  have hmixed := h id (fun _ => False) _ _ (session_play id mixedCalls)
  revert hmixed
  decide

end Script

end OrderStore

end TinyShop
