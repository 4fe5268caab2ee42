import TinyShop.Base.History
import TinyShop.CartPage
import TinyShop.Checkout

/-!
# Where orders come from

Any number of requests to the cart and to the checkout, in any interleaving, while the catalog
changes. Whatever the others do, an order is the content of one cart at one moment, and each
position was on sale at the price charged at some time between that moment and the order.
-/

namespace TinyShop

open Base
set_option autoImplicit false

namespace OrderOrigin
open CheckoutPage (SoldUnit soldUnit published)

/-- A position of a cart, and the row of the catalog that gave its price. -/
abbrev Priced := CartItem × ProjectionRow

def units (p : Priced) : List SoldUnit :=
  List.replicate p.1.qty.toNat
    ⟨p.1.productId, p.1.variantId, p.2.sellerId, p.2.title, p.2.priceMinor, p.2.currency⟩

def cost (p : Priced) : Int := p.1.qty * p.2.priceMinor.toInt

/-- The rows were on sale at some time from `c` to `d`. -/
def OnSale (c d : Recorded Site) (positions : List Priced) : Prop :=
  ∀ p ∈ positions, ∃ s, Recorded.Between c d s ∧ published s.catalog p.1.productId = some p.2

/-- The content of the cart at the moment `c`, priced from then on. -/
structure Snapshot (c d : Recorded Site) (cartId : String) (positions : List Priced) : Prop where
  later : Recorded.Later c d
  listed : positions.map Prod.fst = CartRepo.listItems c.now.orders cartId
  onSale : OnSale c d positions

def Guest (buyerId : String) : Prop := ∃ u, Site.isUuid u ∧ buyerId = "guest:" ++ u

/-- What is known of an order and its items in the state `d`. Its prices are from before it was
there. -/
structure Explained (d : Recorded Site) (o : OrderRow) : Prop where
  buyer : Guest o.buyerId
  contact : ∃ form contact now, CheckoutPage.validateContact form = .ok contact ∧
    d.now.orders.orderContact.find? o.id = some (OrderRepo.contactRow o.id contact now)
  origin : ∃ c e cartId positions, positions ≠ [] ∧ Snapshot c e cartId positions ∧
    Recorded.Later e d ∧ e.now.orders.orders.find? o.id = none ∧
    (OrderRepo.fetchItems d.now.orders o.id).map soldUnit = positions.flatMap units ∧
    o.totalMinor.toInt = (positions.map cost).sum ∧ ∀ p ∈ positions, p.2.currency = o.currency

section Requests
variable (hashToken : String → String) (faults : WebOp → Prop)

/-- Every handler that writes. The catalog changes at any time, any call may fail, and any
request may be cut off. -/
def requests : System Site WebOp WebOp.Res Response where
  exec := Site.exec hashToken faults
  env s t := t.orders = s.orders
  start _ p := ∃ app headers, (∃ form, p = CartPage.add app headers form) ∨
    (∃ form, p = CartPage.update app headers form) ∨
    (∃ form, p = CartPage.remove app headers form) ∨ ∃ form, p = CheckoutPage.submit app headers form
  stop _ := True
  gate _ _ := True

end Requests

/-! ## Orders stay -/

/-- The orders of the first database are those of the second, with their items and contacts. -/
def Kept (db db' : OrdersDb) : Prop := ∀ o ∈ db.orders.rows, o ∈ db'.orders.rows ∧
  OrderRepo.fetchItems db' o.id = OrderRepo.fetchItems db o.id ∧
    ∀ row, db.orderContact.find? o.id = some row → db'.orderContact.find? o.id = some row

section Keep
variable {db db' db'' : OrdersDb}

theorem Kept.refl (db : OrdersDb) : Kept db db := fun _ ho => ⟨ho, rfl, fun _ h => h⟩

theorem Kept.trans (h : Kept db db') (h' : Kept db' db'') : Kept db db'' := by
  intro o ho
  obtain ⟨ho', hitems, hcontact⟩ := h o ho
  obtain ⟨ho'', hitems', hcontact'⟩ := h' o ho'
  exact ⟨ho'', hitems'.trans hitems, fun row hrow => hcontact' row (hcontact row hrow)⟩

theorem kept_of_cartsOnly (h : CartRepo.CartsOnly db db') : Kept db db' := by
  intro o ho
  refine ⟨h.orders ▸ ho, ?_, fun row hrow => h.orderContact ▸ hrow⟩
  unfold OrderRepo.fetchItems
  rw [h.orderItems]

theorem kept_of_written {buyerId currency : String} {items : List NewOrderItem}
    {contact : Option NewOrderContact} {orderId : String} {total now clock : Int64}
    (h : OrderRepo.Written db db' buyerId currency items contact orderId total now clock) :
    Kept db db' := by
  intro o ho
  have hid : o.id ≠ orderId := Table.find?_eq_none_iff.mp h.free o ho
  refine ⟨?_, ?_, fun row hrow => ?_⟩
  · rw [h.orders]
    exact List.mem_append_left _ ho
  · unfold OrderRepo.fetchItems
    rw [h.orderItems]
    simp [OrderRepo.itemRow, List.filter_append, List.filter_map, Function.comp_def, hid.symm]
  · unfold Table.find? at hrow ⊢
    rw [h.orderContact, List.find?_append, hrow, Option.some_or]

end Keep

def isCheckout : WebOp → Bool
  | .checkout _ _ _ _ => true
  | _ => false

section Exec
variable {hashToken : String → String} {faults : WebOp → Prop} {s t : Site}

theorem cartsOnly_refl (db : OrdersDb) : CartRepo.CartsOnly db db := ⟨rfl, rfl, rfl, rfl⟩

/-- Only `OrderRepo::checkout` writes orders. -/
theorem cartsOnly_of_exec {op : WebOp} {r : op.Res} (hop : isCheckout op = false)
    (h : Site.exec hashToken faults s op r t) : CartRepo.CartsOnly s.orders t.orders := by
  cases op with
  | findByToken raw =>
    obtain ⟨rfl, _⟩ := Site.exec_findByToken h
    exact cartsOnly_refl _
  | listItems cartId =>
    obtain ⟨rfl, _⟩ := Site.exec_listItems h
    exact cartsOnly_refl _
  | getCardBySlug slug =>
    obtain ⟨rfl, _⟩ := Site.exec_getCardBySlug h
    exact cartsOnly_refl _
  | getCardById id =>
    obtain ⟨rfl, _⟩ := Site.exec_getCardById h
    exact cartsOnly_refl _
  | newUuid =>
    obtain ⟨_, rfl⟩ := Site.exec_newUuid h
    exact cartsOnly_refl _
  | createCart => exact (Site.exec_createCart h).1
  | addItem cartId item =>
    rcases Site.exec_addItem h with ⟨rfl, _⟩ | ⟨now, db, hrun, _, rfl⟩
    · exact cartsOnly_refl _
    · exact (CartRepo.addItem_ok hrun).1
  | updateQty cartId itemId qty =>
    rcases Site.exec_updateQty h with ⟨rfl, _⟩ | ⟨now, db, hrun, _, rfl⟩
    · exact cartsOnly_refl _
    · exact CartRepo.updateQty_ok hrun
  | removeItem cartId itemId =>
    rcases Site.exec_removeItem h with ⟨now, _, rfl⟩ | ⟨_, rfl⟩
    · exact CartRepo.removeItem_cartsOnly cartId itemId
    · exact cartsOnly_refl _
  | clear cartId =>
    rcases Site.exec_clear h with ⟨now, _, rfl⟩ | ⟨_, _, rfl⟩
    · exact CartRepo.clear_cartsOnly cartId
    · exact cartsOnly_refl _
  | checkout buyerId currency items contact => cases hop

theorem kept_of_exec {op : WebOp} {r : op.Res} (h : Site.exec hashToken faults s op r t) :
    Kept s.orders t.orders := by
  cases hop : isCheckout op with
  | false => exact kept_of_cartsOnly (cartsOnly_of_exec hop h)
  | true =>
    cases op with
    | checkout buyerId currency items contact =>
      rcases Site.exec_checkout h with ⟨hsame, _⟩ | ⟨id, now, clock, db, _, _, hrun, rfl⟩
      · rw [hsame.orders]
        exact .refl _
      · obtain ⟨_, _, _, hwritten⟩ := OrderRepo.checkout_ok hrun
        exact kept_of_written hwritten
    | _ => cases hop

/-- An order that is there is there for good, as it is. -/
theorem kept_of_reachable {c d : Config Site WebOp WebOp.Res Response}
    (h : (requests hashToken faults).Reachable c d) : Kept c.state.orders d.state.orders := by
  induction h with
  | refl => exact .refl _
  | tail _ step ih =>
    cases step with
    | @env s t ps he =>
      have hsame : t.orders = s.orders := he
      rw [hsame]
      exact ih
    | start _ => exact ih
    | stop _ => exact ih
    | call _ hx => exact ih.trans (kept_of_exec hx)

end Exec

/-! ## The walk through the handler -/

theorem OnSale.mono {c d e : Recorded Site} {positions : List Priced} (h : OnSale c d positions)
    (hde : Recorded.Later d e) : OnSale c e positions := by
  intro p hp
  obtain ⟨s, hs, hrow⟩ := h p hp
  exact ⟨s, hs.mono hde, hrow⟩

theorem Snapshot.mono {c d e : Recorded Site} {cartId : String} {positions : List Priced}
    (h : Snapshot c d cartId positions) (hde : Recorded.Later d e) :
    Snapshot c e cartId positions :=
  ⟨h.later.trans hde, h.listed, h.onSale.mono hde⟩

theorem Explained.mono {d e : Recorded Site} {o : OrderRow} (h : Explained d o)
    (ho : o ∈ d.now.orders.orders.rows) (hde : Recorded.Later d e)
    (hkept : Kept d.now.orders e.now.orders) : Explained e o := by
  obtain ⟨_, hitems, hcontact⟩ := hkept o ho
  obtain ⟨form, contact, now, hvalid, hrow⟩ := h.contact
  obtain ⟨c, c', cartId, positions, hne, hsnapshot, hlater, hfree, hunits, hrest⟩ := h.origin
  exact ⟨h.buyer, ⟨form, contact, now, hvalid, hcontact _ hrow⟩, c, c', cartId, positions, hne,
    hsnapshot, hlater.trans hde, hfree, by rw [hitems, hunits], hrest⟩

/-- The unit that a new row of an order stands for. -/
def newUnit (item : NewOrderItem) : SoldUnit :=
  ⟨item.productId, item.variantId, item.sellerId, item.title, item.unitPriceMinor, item.currency⟩

/-- `news` are the units of the positions that the loop is past. -/
structure Gathered (c d : Recorded Site) (positions : List Priced) (news : List NewOrderItem) :
    Prop where
  later : Recorded.Later c d
  onSale : OnSale c d positions
  counted : news.map newUnit = positions.flatMap units

theorem Gathered.mono {c d e : Recorded Site} {positions : List Priced} {news : List NewOrderItem}
    (h : Gathered c d positions news) (hde : Recorded.Later d e) : Gathered c e positions news :=
  ⟨h.later.trans hde, h.onSale.mono hde, h.counted⟩

/-- One more position. -/
theorem Gathered.snoc {c d : Recorded Site} {positions : List Priced} {news : List NewOrderItem}
    (h : Gathered c d positions news) {cartItem : CartItem} {row : ProjectionRow} {s : Site}
    (hs : Recorded.Between c d s) (hrow : published s.catalog cartItem.productId = some row)
    {ids : List String} (hlen : ids.length = cartItem.qty.toNat) :
    Gathered c d (positions ++ [(cartItem, row)])
      (news ++ ids.map (CheckoutPage.orderItem (SqliteCatalogSearch.mapViewRow row) cartItem)) := by
  refine ⟨h.later, fun p hp => ?_, ?_⟩
  · rcases List.mem_append.mp hp with hp | hp
    · exact h.onSale p hp
    · obtain rfl := List.mem_singleton.mp hp
      exact ⟨s, hs, hrow⟩
  · obtain ⟨hfind, _⟩ := Option.filter_eq_some_iff.mp hrow
    have hid : row.id = cartItem.productId := Table.key_of_find? hfind
    have hunit : ∀ id, newUnit
        (CheckoutPage.orderItem (SqliteCatalogSearch.mapViewRow row) cartItem id) =
        ⟨cartItem.productId, cartItem.variantId, row.sellerId, row.title, row.priceMinor,
          row.currency⟩ := by
      intro id
      rw [← hid]
      rfl
    rw [List.map_append, List.flatMap_append, h.counted, List.flatMap_singleton, List.map_map]
    congr 1
    simp [units, Function.comp_def, hunit, hlen]

/-- What the call of `OrderRepo::checkout` is given. -/
def Ready (d : Recorded Site) : WebOp → Prop
  | .checkout buyerId _ items contact => Guest buyerId ∧
    (∃ form valid, CheckoutPage.validateContact form = .ok valid ∧ contact = some valid) ∧
    ∃ c cartId positions, Snapshot c d cartId positions ∧
      items.map newUnit = positions.flatMap units
  | _ => True

/-- The foreign key, and a reason for every order. -/
def Sound (d : Recorded Site) : Prop :=
  d.now.orders.ItemsOrdered ∧ ∀ o ∈ d.now.orders.orders.rows, Explained d o

def Moved (c d : Recorded Site) : Prop := Recorded.Later c d ∧ Kept c.now.orders d.now.orders

def contract : Contract (Recorded Site) WebOp where
  inv := Sound
  rely := Moved
  guar := Moved
  pre op d := Ready d op
  refl d := ⟨.refl d, .refl _⟩
  trans h h' := ⟨h.1.trans h'.1, h.2.trans h'.2⟩

theorem Sound.mono {c d : Recorded Site} (h : Sound c) (hmoved : Moved c d)
    (hcarts : CartRepo.CartsOnly c.now.orders d.now.orders) : Sound d := by
  refine ⟨OrdersDb.itemsOrdered_of_cartsOnly h.1 hcarts, fun o ho => ?_⟩
  rw [hcarts.orders] at ho
  exact (h.2 o ho).mono ho hmoved.1 hmoved.2

section Walk
variable {hashToken : String → String} {faults : WebOp → Prop} {c d e : Recorded Site}

/-- The prices of the units of a cart. -/
theorem sum_units {positions : List Priced} (hqty : ∀ p ∈ positions, 0 < p.1.qty) :
    ((positions.flatMap units).map fun u => u.priceMinor.toInt).sum = (positions.map cost).sum := by
  induction positions with
  | nil => rfl
  | cons p positions ih =>
    have hpos := hqty p List.mem_cons_self
    have hcast : (p.1.qty.toNat : Int) = p.1.qty := by omega
    rw [List.flatMap_cons, List.map_append, List.sum_append, List.map_cons, List.sum_cons,
      ih fun q hq => hqty q (List.mem_cons_of_mem p hq)]
    simp [units, cost, hcast]

theorem Snapshot.positive {cartId : String} {positions : List Priced}
    (h : Snapshot c d cartId positions) : ∀ p ∈ positions, 0 < p.1.qty := by
  intro p hp
  have hmem : p.1 ∈ CartRepo.listItems c.now.orders cartId := by
    rw [← h.listed]
    exact List.mem_map_of_mem hp
  exact c.now.orders.cartItems.positive _ (List.mem_of_mem_filter hmem)

theorem ne_nil_of_checkout {db : OrdersDb} {buyerId currency : String} {items : List NewOrderItem}
    {contact : Option NewOrderContact} {orderId : String} {now clock : Int64}
    {out : OrdersDb × String}
    (h : OrderRepo.checkout db buyerId currency items contact orderId now clock = .ok out) :
    items ≠ [] := by
  rintro rfl
  cases h

/-- A checkout that was given the units of a cart leaves an order of just them. -/
theorem explained_of_checkout {buyerId currency : String} {items : List NewOrderItem}
    {contact : Option NewOrderContact} {orderId id : String} {now clock : Int64}
    (hdb : c.now.orders.ItemsOrdered) (hready : Ready c (.checkout buyerId currency items contact))
    (hlater : Recorded.Later c d)
    (h : OrderRepo.checkout c.now.orders buyerId currency items contact orderId now clock =
      .ok (d.now.orders, id)) :
    ∃ o, d.now.orders.orders.rows = c.now.orders.orders.rows ++ [o] ∧ Explained d o := by
  obtain ⟨hbuyer, ⟨form, valid, hvalid, rfl⟩, a, cartId, positions, hsnapshot, hunits⟩ := hready
  obtain ⟨rfl, hcurrency, total, hwritten⟩ := OrderRepo.checkout_ok h
  refine ⟨_, hwritten.orders, hbuyer, ⟨form, valid, now, hvalid, ?_⟩, a, c, cartId, positions, ?_,
    hsnapshot, hlater, hwritten.free, ?_, ?_, ?_⟩
  · exact (Table.find?_of_append hwritten.orderContact _).trans (if_pos rfl)
  · rintro rfl
    rw [List.flatMap_nil, List.map_eq_nil_iff] at hunits
    exact ne_nil_of_checkout h hunits
  · have hitems : OrderRepo.fetchItems d.now.orders id = items.map (OrderRepo.itemRow id) := by
      have hold := OrderRepo.fetchItems_of_free hdb hwritten.free
      unfold OrderRepo.fetchItems at hold ⊢
      rw [hwritten.orderItems, List.filter_append, hold, List.nil_append]
      simp [OrderRepo.itemRow, List.filter_map, Function.comp_def]
    rw [hitems, List.map_map]
    exact hunits
  · have hprices : (items.map fun item => item.unitPriceMinor.toInt) =
        (items.map newUnit).map fun u => u.priceMinor.toInt := by
      rw [List.map_map]
      rfl
    exact (hwritten.total_eq hdb).trans (by rw [hprices, hunits, sum_units hsnapshot.positive])
  · intro p hp
    have hpos := hsnapshot.positive p hp
    have hmem : (⟨p.1.productId, p.1.variantId, p.2.sellerId, p.2.title, p.2.priceMinor,
        p.2.currency⟩ : SoldUnit) ∈ items.map newUnit := by
      rw [hunits, List.mem_flatMap]
      exact ⟨p, hp, List.mem_replicate.mpr ⟨by omega, rfl⟩⟩
    obtain ⟨item, hitem, heq⟩ := List.mem_map.mp hmem
    exact (congrArg SoldUnit.currency heq).symm.trans (hcurrency item hitem)

/-- A call of the recorded site. -/
def exec (hashToken : String → String) (faults : WebOp → Prop) (c : Recorded Site) (op : WebOp)
    (r : op.Res) (d : Recorded Site) : Prop :=
  (requests hashToken faults).recorded.exec c op r d

theorem moved_of_exec {op : WebOp} {r : op.Res} (h : exec hashToken faults c op r d) :
    Moved c d :=
  ⟨Recorded.later_of_past h.2, kept_of_exec h.1⟩

theorem sound_of_exec {op : WebOp} {r : op.Res} (hc : Sound c) (hready : Ready c op)
    (h : exec hashToken faults c op r d) : Sound d := by
  have hmoved := moved_of_exec h
  cases hop : isCheckout op with
  | false => exact hc.mono hmoved (cartsOnly_of_exec hop h.1)
  | true =>
    cases op with
    | checkout buyerId currency items contact =>
      rcases Site.exec_checkout h.1 with ⟨hsame, _⟩ | ⟨id, now, clock, db, _, _, hrun, hd⟩
      · exact hc.mono hmoved (by rw [hsame.orders]; exact cartsOnly_refl _)
      · have horders : d.now.orders = db := by rw [hd]
        rw [← horders] at hrun
        obtain ⟨o, hrows, hnew⟩ := explained_of_checkout hc.1 hready hmoved.1 hrun
        refine ⟨OrdersDb.checkout_itemsOrdered hc.1 hrun, fun o' ho' => ?_⟩
        rw [hrows] at ho'
        rcases List.mem_append.mp ho' with ho' | ho'
        · exact (hc.2 o' ho').mono ho' hmoved.1 hmoved.2
        · rw [List.mem_singleton.mp ho']
          exact hnew
    | _ => cases hop

/-- What is asked of how a program ends is `post`. -/
abbrev Walks {α : Type} (hashToken : String → String) (faults : WebOp → Prop)
    (post : α → Recorded Site → Prop) (p : WebProg α) (c : Recorded Site) : Prop :=
  Safe (exec hashToken faults) contract post p c

theorem sound_exec : contract.Sound (exec hashToken faults) :=
  ⟨fun hsound hready hx => ⟨sound_of_exec hsound hready hx, moved_of_exec hx⟩, fun h => h⟩

theorem walks_call {α : Type} {post : α → Recorded Site → Prop} {op : WebOp}
    {next : op.Res → WebProg α} (hready : ∀ d, Recorded.Later c d → Ready d op)
    (hnext : ∀ d r e, Recorded.Later c d → exec hashToken faults d op r e →
      Walks hashToken faults post (next r) e) :
    Walks hashToken faults post (.call op next) c :=
  sound_exec.safe_call (fun d hd => hready d hd.1) fun d r e hd _ hx => hnext d r e hd.1 hx

/-! ## Where a response leads -/

/-- The order on whose page the buyer ends is there. -/
def Leads (response : Response) (d : Recorded Site) : Prop :=
  ∀ id, response.location = some ("/checkout/done/" ++ id) →
    ∃ o ∈ d.now.orders.orders.rows, o.id = id

/-- Not to the page of an order. -/
def Elsewhere (response : Response) : Prop :=
  ∀ id, response.location ≠ some ("/checkout/done/" ++ id)

def Leading (r : Except WebError Response) (d : Recorded Site) : Prop :=
  Leads (Response.ofResult r) d

theorem Leads.mono {response : Response} (h : Leads response c) (hmoved : Moved c d) :
    Leads response d := by
  intro id hid
  obtain ⟨o, ho, hoid⟩ := h id hid
  exact ⟨o, (hmoved.2 o ho).1, hoid⟩

theorem Elsewhere.leads {response : Response} (h : Elsewhere response) (d : Recorded Site) :
    Leads response d := fun id hid => absurd hid (h id)

theorem elsewhere_error (e : WebError) : Elsewhere e.intoResponse := by
  intro id h
  rw [CheckoutPage.location_failed] at h
  cases h

theorem elsewhere_invalid (items : List CartItem) (form : ContactForm) (message : String) :
    Elsewhere (CheckoutPage.invalidContactResponse items form message) :=
  CheckoutPage.location_answered (Or.inr ⟨items, message, rfl⟩)

theorem elsewhere_cart : Elsewhere (Response.redirect "/cart") := by
  have hanswered : Response.redirect "/cart" = Response.redirect "/cart" ∨ ∃ items message,
      Response.redirect "/cart" = CheckoutPage.invalidContactResponse items ⟨"", none⟩ message :=
    Or.inl rfl
  exact CheckoutPage.location_answered hanswered

theorem elsewhere_redirectToCart (app : AppState) (newToken : Option String) :
    Elsewhere (CartPage.redirectToCart app newToken) := by
  cases newToken with
  | none => exact elsewhere_cart
  | some raw => exact elsewhere_cart

theorem elsewhere_product (slug : String) : Elsewhere (Response.redirect ("/p/" ++ slug)) := by
  intro id h
  unfold Response.redirect at h
  split at h
  · have hchars := congrArg String.toList (Option.some.inj h)
    rw [String.toList_append, String.toList_append] at hchars
    exact absurd (List.cons.inj (List.cons.inj hchars).2).1 (by decide)
  · cases h

theorem ends_add (app : AppState) (headers : HeaderMap) (form : AddForm) :
    (CartPage.renderAdd app headers form).run.Ends fun r => Elsewhere (Response.ofResult r) := by
  refine WebM.ends_bind elsewhere_error fun found => ?_
  cases found with
  | none => exact elsewhere_product form.slug
  | some card =>
    refine WebM.ends_bind elsewhere_error fun (cart, newToken) => WebM.ends_bind elsewhere_error fun items => ?_
    split
    · exact elsewhere_error _
    · exact WebM.ends_bind elsewhere_error fun _ => elsewhere_redirectToCart app newToken

theorem ends_update (app : AppState) (headers : HeaderMap) (form : UpdateForm) :
    (CartPage.renderUpdate app headers form).run.Ends fun r =>
      Elsewhere (Response.ofResult r) := by
  refine WebM.ends_bind elsewhere_error fun found => ?_
  cases found with
  | none => exact elsewhere_redirectToCart app none
  | some cart => exact WebM.ends_bind elsewhere_error fun _ => elsewhere_redirectToCart app none

theorem ends_remove (app : AppState) (headers : HeaderMap) (form : RemoveForm) :
    (CartPage.renderRemove app headers form).run.Ends fun r =>
      Elsewhere (Response.ofResult r) := by
  refine WebM.ends_bind elsewhere_error fun found => ?_
  cases found with
  | none => exact elsewhere_redirectToCart app none
  | some cart => exact WebM.ends_bind elsewhere_error fun _ => elsewhere_redirectToCart app none

/-! ## The checkout -/

theorem leading_error (e : WebError) : Walks hashToken faults Leading (.pure (.error e)) c :=
  safe_pure fun d _ => (elsewhere_error e).leads d

theorem walks_pushUnits {card : ProductView} {cartItem : CartItem} {n : Nat}
    {acc : List NewOrderItem} {k : List NewOrderItem → WebM Response}
    (hk : ∀ (ids : List String) e, ids.length = n → Recorded.Later c e →
      Walks hashToken faults Leading
        (k (acc ++ ids.map (CheckoutPage.orderItem card cartItem))).run e) :
    Walks hashToken faults Leading (CheckoutPage.pushUnits card cartItem n acc >>= k).run c := by
  induction n generalizing acc c with
  | zero =>
    have hnil := hk [] c rfl (.refl c)
    rw [List.map_nil, List.append_nil] at hnil
    exact hnil
  | succ n ih =>
    rw [CheckoutPage.pushUnits, bind_assoc, WebM.newUuid, WebM.run_call_bind]
    refine walks_call (fun _ _ => trivial) fun d id e hlater hx => ih fun ids f hlen hlater' => ?_
    have hcons := hk (id :: ids) f (by rw [List.length_cons, hlen])
      ((hlater.trans (moved_of_exec hx).1).trans hlater')
    rw [List.map_cons, List.append_cons] at hcons
    exact hcons

/-- The loop over the rest of the cart that was read at the moment `a`. -/
theorem walks_collect {a : Recorded Site} {cartItems : List CartItem} {positions : List Priced}
    {acc : List NewOrderItem} {k : List NewOrderItem → WebM Response}
    (hacc : Gathered a c positions acc)
    (hk : ∀ more news e, more.map Prod.fst = cartItems → Gathered a e (positions ++ more) news →
      Walks hashToken faults Leading (k news).run e) :
    Walks hashToken faults Leading (CheckoutPage.collect cartItems acc >>= k).run c := by
  induction cartItems generalizing c positions acc with
  | nil => exact hk [] acc c rfl (by rw [List.append_nil]; exact hacc)
  | cons cartItem cartItems ih =>
    rw [CheckoutPage.collect, bind_assoc, WebM.getCardById, WebM.run_call_bind]
    refine walks_call (fun _ _ => trivial) fun d r e hlater hx => ?_
    obtain ⟨hsame, rfl | ⟨err, rfl⟩⟩ := Site.exec_getCardById hx.1
    · rw [CheckoutPage.getCardById_eq]
      cases hrow : published d.now.catalog cartItem.productId with
      | none => exact leading_error _
      | some row =>
        have hbetween := (hacc.later.trans hlater).between_now
        have hlater' := hlater.trans (moved_of_exec hx).1
        change Walks hashToken faults Leading
          ((CheckoutPage.pushUnits _ cartItem cartItem.qty.toNat acc >>=
            CheckoutPage.collect cartItems) >>= k).run e
        rw [bind_assoc]
        refine walks_pushUnits fun ids f hlen hlater'' => ?_
        have hgathered := (hacc.mono (hlater'.trans hlater'')).snoc
          (hbetween.mono ((moved_of_exec hx).1.trans hlater'')) hrow hlen
        refine ih hgathered fun more news g hmore hg => ?_
        refine hk ((cartItem, row) :: more) news g (by rw [List.map_cons, hmore]) ?_
        rw [List.append_cons]
        exact hg
    · exact leading_error _

/-- A checkout that succeeds leads to the order that it has written. -/
theorem leads_of_checkout (app : AppState) {buyerId currency id : String}
    {items : List NewOrderItem} {contact : Option NewOrderContact}
    (h : exec hashToken faults c (.checkout buyerId currency items contact) (.ok id) d) :
    Leads (CheckoutPage.done app id) d := by
  rcases Site.exec_checkout h.1 with ⟨_, e, he⟩ | ⟨id', now, clock, db, hfresh, hid, hrun, hd⟩
  · cases he
  · obtain rfl := Except.ok.inj hid
    obtain ⟨_, _, _, hwritten⟩ := OrderRepo.checkout_ok hrun
    intro other hother
    rw [CheckoutPage.location_done hfresh.text] at hother
    obtain rfl := (String.append_right_inj _).mp (Option.some.inj hother)
    rw [hd, hwritten.orders]
    exact ⟨_, List.mem_append_right _ (List.mem_singleton_self _), rfl⟩

theorem walks_placeOrder {a : Recorded Site} {app : AppState} {cart : Cart} {form : ContactForm}
    {contact : NewOrderContact} {positions : List Priced} {news : List NewOrderItem}
    {cartId : String} (hvalid : CheckoutPage.validateContact form = .ok contact)
    (hlisted : positions.map Prod.fst = CartRepo.listItems a.now.orders cartId)
    (hnews : Gathered a c positions news) :
    Walks hashToken faults Leading (CheckoutPage.placeOrder app cart contact news).run c := by
  unfold CheckoutPage.placeOrder
  split
  · exact leading_error _
  · split
    · exact leading_error _
    · rw [CheckoutPage.guestBuyerId, bind_assoc, WebM.newUuid, WebM.run_call_bind]
      refine walks_call (fun _ _ => trivial) fun d guest e hlater hx => ?_
      have hguest : Guest ("guest:" ++ guest) := ⟨guest, (Site.exec_newUuid hx.1).1.text, rfl⟩
      have hlater' := hlater.trans (moved_of_exec hx).1
      change Walks hashToken faults Leading (WebM.checkout _ _ _ _ >>= _).run e
      rw [WebM.checkout, WebM.run_call_bind]
      refine walks_call (fun f hf => ?_) fun f r g _ hplaced => ?_
      · have hready := hnews.mono (hlater'.trans hf)
        exact ⟨hguest, ⟨form, contact, hvalid, rfl⟩, a, cartId, positions,
          ⟨hready.later, hlisted, hready.onSale⟩, hready.counted⟩
      · cases r with
        | error err => exact leading_error _
        | ok id =>
          have hleads := leads_of_checkout app hplaced
          change Walks hashToken faults Leading (WebM.clear _ >>= _).run g
          rw [WebM.clear, WebM.run_call_bind]
          refine sound_exec.safe_call (fun _ _ => trivial) fun h r i hmoved _ hclear => ?_
          cases r with
          | error err => exact leading_error _
          | ok _ =>
            exact safe_pure fun j hj => hleads.mono
              (contract.trans (contract.trans hmoved (moved_of_exec hclear)) hj)

theorem walks_submit (app : AppState) (headers : HeaderMap) (form : ContactForm) :
    Walks hashToken faults Leads (CheckoutPage.submit app headers form) c := by
  refine safe_bind ((?_ : Walks hashToken faults Leading
    (CheckoutPage.renderSubmit app headers form).run c).mono
      fun r d hr => safe_pure fun e he => Leads.mono hr he)
  rw [CheckoutPage.renderSubmit, WebM.run_bind]
  have hfind : Walks hashToken faults (fun _ _ => True) (CheckoutPage.findCart headers).run c :=
    sound_exec.safe_of_calls (CartPage.calls_findCart fun _ _ _ => trivial)
      (Prog.ends_of_forall (fun _ _ _ => trivial) _)
  refine safe_bind (hfind.mono fun found d _ => ?_)
  cases found with
  | error err => exact leading_error _
  | ok found =>
    cases found with
    | none => exact safe_pure fun e _ => elsewhere_cart.leads e
    | some cart =>
      change Walks hashToken faults Leading (WebM.listItems _ >>= _).run d
      rw [WebM.listItems, WebM.run_call_bind]
      refine walks_call (fun _ _ => trivial) fun a r e _ hx => ?_
      obtain ⟨_, rfl | ⟨err, rfl⟩⟩ := Site.exec_listItems hx.1
      · change Walks hashToken faults Leading
          (CheckoutPage.submitItems app cart form (CartRepo.listItems _ _)).run e
        unfold CheckoutPage.submitItems
        split
        · exact safe_pure fun f _ => elsewhere_cart.leads f
        · split
          · rename_i message _
            exact safe_pure fun f _ => (elsewhere_invalid _ form message).leads f
          · rename_i contact hvalid
            have hnone : Gathered a e [] [] :=
              ⟨(moved_of_exec hx).1, List.forall_mem_nil _, rfl⟩
            refine walks_collect hnone fun more news f hmore hnews => ?_
            exact walks_placeOrder hvalid hmore hnews
      · exact leading_error _

theorem walks_start (ps : List (WebProg Response)) {p : WebProg Response}
    (h : (requests hashToken faults).start ps p) : Walks hashToken faults Leads p c := by
  have hleads : ∀ response, Elsewhere response → ∀ d, Moved c d → Leads response d :=
    fun _ h d _ => h.leads d
  obtain ⟨app, headers, ⟨form, rfl⟩ | ⟨form, rfl⟩ | ⟨form, rfl⟩ | ⟨form, rfl⟩⟩ := h
  · have hends : (CartPage.add app headers form).Ends Elsewhere :=
      Prog.ends_bind (ends_add app headers form)
    exact sound_exec.safe_of_calls (CartPage.calls_add (fun _ _ _ => trivial) (fun _ _ _ => trivial)
      (fun _ _ => trivial) (fun _ _ _ => trivial) fun _ _ _ _ => trivial) (hends.mono hleads)
  · have hends : (CartPage.update app headers form).Ends Elsewhere :=
      Prog.ends_bind (ends_update app headers form)
    exact sound_exec.safe_of_calls
      (CartPage.calls_update (fun _ _ _ => trivial) fun _ _ _ _ _ => trivial) (hends.mono hleads)
  · have hends : (CartPage.remove app headers form).Ends Elsewhere :=
      Prog.ends_bind (ends_remove app headers form)
    exact sound_exec.safe_of_calls
      (CartPage.calls_remove (fun _ _ _ => trivial) fun _ _ _ _ => trivial) (hends.mono hleads)
  · exact walks_submit app headers form

/-- Every state is sound, and what is left of a request is safe in it. -/
theorem walks_of_reachable {s : Site} {d : Config (Recorded Site) WebOp WebOp.Res Response}
    (hs : s.orders.orders.rows = []) (hitems : s.orders.orderItems.rows = [])
    (h : (requests hashToken faults).recorded.Reachable ⟨.start s, []⟩ d) :
    Sound d.state ∧ ∀ p ∈ d.procs, Walks hashToken faults Leads p d.state := by
  have hstart : Sound (.start s) := by
    constructor
    · intro i hi
      change i ∈ s.orders.orderItems.rows at hi
      rw [hitems] at hi
      cases hi
    · intro o ho
      change o ∈ s.orders.orders.rows at ho
      rw [hs] at ho
      cases ho
  refine System.safe_of_reachable (C := contract) (fun _ _ hmoved => hmoved) ?_
    (fun ps _ hp _ => walks_start ps hp) h hstart (by simp)
  rintro a b ⟨horders, hpast⟩ ha
  have hsame : b.now.orders = a.now.orders := horders
  have hmoved : Moved a b := ⟨Recorded.later_of_past hpast, by rw [hsame]; exact .refl _⟩
  exact ⟨ha.mono hmoved (by rw [hsame]; exact cartsOnly_refl _), hmoved⟩

/-- Whatever the requests do at the same time, every order is that of a guest with a valid
contact; it has exactly the units that one cart held at one moment, each at the price, title and
seller that its product had on sale at some time between that moment and the order; its total is
their exact sum, in the one currency of all of them. -/
theorem orders_explained {s : Site} {d : Config (Recorded Site) WebOp WebOp.Res Response}
    (hs : s.orders.orders.rows = []) (hitems : s.orders.orderItems.rows = [])
    (h : (requests hashToken faults).recorded.Reachable ⟨.start s, []⟩ d) :
    ∀ o ∈ d.state.now.orders.orders.rows, Explained d.state o :=
  (walks_of_reachable hs hitems h).1.2

end Walk

section Script
open CheckoutPage (scriptSite scriptHeaders scriptForm noFault)

def request : WebProg Response := CheckoutPage.submit ⟨"https://shop"⟩ scriptHeaders scriptForm

theorem reachable_requests : (requests id fun _ => False).Reachable ⟨scriptSite, []⟩
    ⟨scriptSite, [request, request]⟩ := by
  have hstart : ∀ ps, (requests id fun _ => False).start ps request :=
    fun _ => ⟨_, _, Or.inr (Or.inr (Or.inr ⟨_, rfl⟩))⟩
  exact (Relation.ReflTransGen.single (.start (hstart []))).tail (.start (hstart _))

theorem answers_script :
    System.Answers (fun _ => Site.answer id noFault) (requests id fun _ => False) :=
  fun _ _ _ _ _ h => ⟨trivial,
    Site.exec_mono (fun _ hfault => Bool.false_ne_true hfault) (Site.exec_of_answer h)⟩

/-- Two checkouts of one cart that take turns. -/
theorem orders_explained_script : ∃ d : Config (Recorded Site) WebOp WebOp.Res Response,
    (requests id fun _ => False).recorded.Reachable ⟨.start scriptSite, []⟩ d ∧
      d.state.now.orders.orders.rows.map OrderRow.currency = ["UAH", "UAH"] ∧
      ∀ o ∈ d.state.now.orders.orders.rows, Explained d.state o := by
  obtain ⟨past, hrun⟩ := System.exists_record (reachable_requests.trans
    (System.reachable_drive answers_script (List.replicate 10 [0, 1]).flatten _)) []
  exact ⟨_, hrun, rfl, orders_explained rfl rfl hrun⟩

end Script

end OrderOrigin

end TinyShop
