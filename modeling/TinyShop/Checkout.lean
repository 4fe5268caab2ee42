import TinyShop.CheckoutPage
import TinyShop.OrdersHistory

/-!
# What a checkout does

Every run of `POST /checkout` with nobody else moving: it orders what the cart held
at the current prices, or it leaves the orders alone. The one exception is an error
of `CartRepo::clear`, which comes after the order was committed.
-/

namespace TinyShop

open Base
set_option autoImplicit false

namespace CheckoutPage
variable {hashToken : String → String} {faults : WebOp → Prop}

/-- The units that the loop over a cart collects. -/
inductive Collected (catalog : CatalogDb) : List CartItem → List NewOrderItem → Prop where
  | nil : Collected catalog [] []
  | cons {cartItem : CartItem} {cartItems : List CartItem} {card : ProductView}
      {ids : List String} {items : List NewOrderItem} :
      SqliteCatalogSearch.getCardById catalog cartItem.productId = some card →
      ids.length = cartItem.qty.toNat → Collected catalog cartItems items →
      Collected catalog (cartItem :: cartItems) (ids.map (orderItem card cartItem) ++ items)

section Loops
variable {s t : Site}

theorem pushUnits_runs {card : ProductView} {cartItem : CartItem} {n : Nat}
    {acc : List NewOrderItem} {r : Except WebError (List NewOrderItem)}
    (h : Runs (Site.exec hashToken faults) (pushUnits card cartItem n acc).run s r t) :
    s.Unchanged t ∧ ∃ ids : List String, ids.length = n ∧
      r = .ok (acc ++ ids.map (orderItem card cartItem)) := by
  induction n generalizing acc s with
  | zero =>
    obtain ⟨rfl, rfl⟩ := WebM.runs_pure h
    exact ⟨.refl _, [], rfl, by simp⟩
  | succ n ih =>
    obtain ⟨a, u, hid, hrest⟩ := WebM.runs_bind h
    obtain ⟨id, hexec, rfl⟩ := WebM.runs_call hid
    obtain ⟨_, rfl⟩ := Site.exec_newUuid hexec
    obtain ⟨hsame, ids, hlen, rfl⟩ := ih hrest
    refine ⟨⟨hsame.orders, hsame.catalog⟩, id :: ids, ?_, ?_⟩
    · rw [List.length_cons, hlen]
    · simp

theorem collect_runs {cartItems : List CartItem} {acc : List NewOrderItem}
    {r : Except WebError (List NewOrderItem)}
    (h : Runs (Site.exec hashToken faults) (collect cartItems acc).run s r t) :
    s.Unchanged t ∧ ((∃ e, r = .error e) ∨
      ∃ items, r = .ok (acc ++ items) ∧ Collected s.catalog cartItems items) := by
  induction cartItems generalizing acc s with
  | nil =>
    obtain ⟨rfl, rfl⟩ := WebM.runs_pure h
    exact ⟨.refl _, Or.inr ⟨[], by simp, .nil⟩⟩
  | cons cartItem cartItems ih =>
    obtain ⟨a, u, hcard, hrest⟩ := WebM.runs_bind h
    obtain ⟨answer, hexec, rfl⟩ := WebM.runs_call hcard
    obtain ⟨rfl, rfl | ⟨e, rfl⟩⟩ := Site.exec_getCardById hexec
    · cases hview : SqliteCatalogSearch.getCardById u.catalog cartItem.productId with
      | none =>
        rw [hview] at hrest
        obtain ⟨rfl, rfl⟩ := WebM.runs_throw hrest
        exact ⟨.refl _, Or.inl ⟨_, rfl⟩⟩
      | some card =>
        rw [hview] at hrest
        obtain ⟨b, v, hpush, hrest⟩ := WebM.runs_bind hrest
        obtain ⟨hunits, ids, hlen, rfl⟩ := pushUnits_runs hpush
        obtain ⟨hsame, hend⟩ := ih hrest
        refine ⟨hunits.trans hsame, hend.imp id ?_⟩
        rintro ⟨items, rfl, hitems⟩
        rw [hunits.catalog] at hitems
        exact ⟨_, by rw [List.append_assoc], .cons hview hlen hitems⟩
    · obtain ⟨rfl, rfl⟩ := WebM.runs_after_error hrest
      exact ⟨.refl _, Or.inl ⟨_, rfl⟩⟩

end Loops

/-- What a request has read and written when its order is committed. -/
structure Receipt where
  cart : Cart
  contact : NewOrderContact
  items : List NewOrderItem
  buyerId : String
  currency : String
  orderId : String
  total : Int64
  now : Int64
  clock : Int64

structure Receipt.Valid (receipt : Receipt) (hashToken : String → String) (headers : HeaderMap)
    (form : ContactForm) (s : Site) (db : OrdersDb) : Prop where
  cart : ∃ raw, CartCookie.extractCartToken headers = some raw ∧
    CartRepo.findByToken s.orders hashToken raw = some receipt.cart
  contact : validateContact form = .ok receipt.contact
  items : Collected s.catalog (CartRepo.listItems s.orders receipt.cart.tokenHash) receipt.items
  currency : ∀ item ∈ receipt.items, item.currency = receipt.currency
  orderId : Site.isUuid receipt.orderId
  written : OrderRepo.Written s.orders db receipt.buyerId receipt.currency receipt.items
    (some receipt.contact) receipt.orderId receipt.total receipt.now receipt.clock

/-- The outcomes of a request: nothing is done, the order is placed, or the order is
placed and the cart could not be cleared. -/
inductive Outcome (hashToken : String → String) (faults : WebOp → Prop) (app : AppState)
    (headers : HeaderMap) (form : ContactForm) (s t : Site) : Except WebError Response → Prop where
  | failed (e : WebError) : s.Unchanged t → Outcome hashToken faults app headers form s t (.error e)
  | answered (response : Response) : s.Unchanged t →
      (response = Response.redirect "/cart" ∨
        ∃ items message, response = invalidContactResponse items form message) →
      Outcome hashToken faults app headers form s t (.ok response)
  | placed (receipt : Receipt) (db : OrdersDb) (now : Int64) :
      receipt.Valid hashToken headers form s db →
      t.orders = CartRepo.clear db receipt.cart.tokenHash now → t.catalog = s.catalog →
      Outcome hashToken faults app headers form s t (.ok (done app receipt.orderId))
  | uncleared (receipt : Receipt) (message : String) :
      receipt.Valid hashToken headers form s t.orders →
      faults (.clear receipt.cart.tokenHash) → t.catalog = s.catalog →
      Outcome hashToken faults app headers form s t (.error (.internal message))

section Handler
variable {app : AppState} {headers : HeaderMap} {form : ContactForm} {s t : Site}

theorem findCart_runs {r : Except WebError (Option Cart)}
    (h : Runs (Site.exec hashToken faults) (findCart headers).run s r t) :
    t = s ∧ ((∃ e, r = .error e) ∨ r = .ok none ∨
      ∃ raw cart, CartCookie.extractCartToken headers = some raw ∧
        CartRepo.findByToken s.orders hashToken raw = some cart ∧ r = .ok (some cart)) := by
  unfold findCart at h
  split at h
  · obtain ⟨rfl, rfl⟩ := WebM.runs_pure h
    exact ⟨rfl, Or.inr (Or.inl rfl)⟩
  · rename_i raw hraw
    obtain ⟨answer, hexec, rfl⟩ := WebM.runs_call h
    obtain ⟨rfl, rfl | ⟨e, rfl⟩⟩ := Site.exec_findByToken hexec
    · refine ⟨rfl, Or.inr ?_⟩
      cases hcart : CartRepo.findByToken t.orders hashToken raw with
      | none => exact Or.inl rfl
      | some cart => exact Or.inr ⟨raw, cart, hraw, hcart, rfl⟩
    · exact ⟨rfl, Or.inl ⟨_, rfl⟩⟩

theorem placeOrder_runs {cart : Cart} {contact : NewOrderContact} {items : List NewOrderItem}
    {raw : String} {u : Site} {r : Except WebError Response}
    (hraw : CartCookie.extractCartToken headers = some raw)
    (hcart : CartRepo.findByToken s.orders hashToken raw = some cart)
    (hcontact : validateContact form = .ok contact)
    (hitems : Collected s.catalog (CartRepo.listItems s.orders cart.tokenHash) items)
    (hsame : s.Unchanged u)
    (h : Runs (Site.exec hashToken faults) (placeOrder app cart contact items).run u r t) :
    Outcome hashToken faults app headers form s t r := by
  unfold placeOrder at h
  split at h
  · obtain ⟨rfl, rfl⟩ := WebM.runs_throw h
    exact .failed _ hsame
  · rename_i first rest
    split at h
    · obtain ⟨rfl, rfl⟩ := WebM.runs_throw h
      exact .failed _ hsame
    · obtain ⟨buyer, u, hbuyer, h⟩ := WebM.runs_bind h
      obtain ⟨guest, w, hguest, hbuyer⟩ := WebM.runs_bind hbuyer
      obtain ⟨guestId, hexec, rfl⟩ := WebM.runs_call hguest
      obtain ⟨_, rfl⟩ := Site.exec_newUuid hexec
      obtain ⟨rfl, rfl⟩ := WebM.runs_pure hbuyer
      obtain ⟨order, w, horder, h⟩ := WebM.runs_bind h
      obtain ⟨answer, hexec, rfl⟩ := WebM.runs_call horder
      rcases Site.exec_checkout hexec with ⟨hlater, e, rfl⟩ |
        ⟨id, now, clock, db, hfresh, rfl, hrun, rfl⟩
      · obtain ⟨rfl, rfl⟩ := WebM.runs_after_error h
        exact .failed _ (hsame.trans ⟨hlater.orders, hlater.catalog⟩)
      · obtain ⟨_, hcurrency, total, hwritten⟩ := OrderRepo.checkout_ok hrun
        rw [show (u.issue guestId).orders = s.orders from hsame.orders] at hwritten
        let receipt : Receipt := ⟨cart, contact, first :: rest, "guest:" ++ guestId, first.currency,
          id, total, now, clock⟩
        have hvalid : receipt.Valid hashToken headers form s db :=
          ⟨⟨raw, hraw, hcart⟩, hcontact, hitems, hcurrency, hfresh.text, hwritten⟩
        obtain ⟨answer, x, hclear, h⟩ := WebM.runs_bind h
        obtain ⟨answer, hexec, rfl⟩ := WebM.runs_call hclear
        rcases Site.exec_clear hexec with ⟨later, rfl, rfl⟩ | ⟨hfault, ⟨e, rfl⟩, rfl⟩
        · obtain ⟨rfl, rfl⟩ := WebM.runs_pure h
          exact .placed receipt db later hvalid rfl hsame.catalog
        · obtain ⟨rfl, rfl⟩ := WebM.runs_after_error h
          exact .uncleared receipt _ hvalid hfault hsame.catalog

theorem submitItems_runs {cart : Cart} {raw : String} {r : Except WebError Response}
    (hraw : CartCookie.extractCartToken headers = some raw)
    (hcart : CartRepo.findByToken s.orders hashToken raw = some cart)
    (h : Runs (Site.exec hashToken faults)
      (submitItems app cart form (CartRepo.listItems s.orders cart.tokenHash)).run s r t) :
    Outcome hashToken faults app headers form s t r := by
  unfold submitItems at h
  split at h
  · obtain ⟨rfl, rfl⟩ := WebM.runs_pure h
    exact .answered _ (.refl _) (Or.inl rfl)
  · split at h
    · rename_i message _
      obtain ⟨rfl, rfl⟩ := WebM.runs_pure h
      exact .answered _ (.refl _) (Or.inr ⟨_, message, rfl⟩)
    · rename_i contact hcontact
      obtain ⟨collected, u, hcollect, h⟩ := WebM.runs_bind h
      obtain ⟨hsame, ⟨e, rfl⟩ | ⟨items, rfl, hitems⟩⟩ := collect_runs hcollect
      · obtain ⟨rfl, rfl⟩ := WebM.runs_after_error h
        exact .failed _ hsame
      · exact placeOrder_runs hraw hcart hcontact hitems hsame h

theorem renderSubmit_runs {r : Except WebError Response}
    (h : Runs (Site.exec hashToken faults) (renderSubmit app headers form).run s r t) :
    Outcome hashToken faults app headers form s t r := by
  obtain ⟨found, u, hfind, h⟩ := WebM.runs_bind h
  obtain ⟨rfl, ⟨e, rfl⟩ | rfl | ⟨raw, cart, hraw, hcart, rfl⟩⟩ := findCart_runs hfind
  · obtain ⟨rfl, rfl⟩ := WebM.runs_after_error h
    exact .failed _ (.refl _)
  · obtain ⟨rfl, rfl⟩ := WebM.runs_pure h
    exact .answered _ (.refl _) (Or.inl rfl)
  · obtain ⟨listed, v, hlist, h⟩ := WebM.runs_bind h
    obtain ⟨answer, hexec, rfl⟩ := WebM.runs_call hlist
    obtain ⟨rfl, rfl | ⟨e, rfl⟩⟩ := Site.exec_listItems hexec
    · exact submitItems_runs hraw hcart h
    · obtain ⟨rfl, rfl⟩ := WebM.runs_after_error h
      exact .failed _ (.refl _)

theorem submit_runs {response : Response}
    (h : Runs (Site.exec hashToken faults) (submit app headers form) s response t) :
    ∃ r, response = Response.ofResult r ∧ Outcome hashToken faults app headers form s t r := by
  obtain ⟨r, u, hrun, h⟩ := runs_bind_iff.mp h
  obtain ⟨rfl, rfl⟩ := runs_pure_iff.mp h
  exact ⟨r, rfl, renderSubmit_runs hrun⟩

end Handler

/-! ## What an order should be -/

/-- One unit of a product as it is sold. -/
structure SoldUnit where
  productId : String
  variantId : Option String
  sellerId : String
  title : String
  priceMinor : Int64
  currency : String
deriving DecidableEq, Repr

def soldUnit (item : OrderItem) : SoldUnit :=
  ⟨item.productId, item.variantId, item.sellerId, item.title, item.unitPriceMinor, item.currency⟩

/-- The current row of a product that is on sale. -/
def published (catalog : CatalogDb) (productId : String) : Option ProjectionRow :=
  (catalog.projection.find? productId).filter fun row => row.status = "published"

/-- The units that a position of a cart stands for. -/
def unitsOf (catalog : CatalogDb) (cartItem : CartItem) : List SoldUnit :=
  match published catalog cartItem.productId with
  | none => []
  | some row => List.replicate cartItem.qty.toNat
      ⟨cartItem.productId, cartItem.variantId, row.sellerId, row.title, row.priceMinor, row.currency⟩

def costOf (catalog : CatalogDb) (cartItem : CartItem) : Int :=
  match published catalog cartItem.productId with
  | none => 0
  | some row => cartItem.qty * row.priceMinor.toInt

theorem getCardById_eq (catalog : CatalogDb) (productId : String) :
    SqliteCatalogSearch.getCardById catalog productId =
      (published catalog productId).map SqliteCatalogSearch.mapViewRow := by
  cases hpub : published catalog productId with
  | some row =>
    obtain ⟨hfind, hstatus⟩ := Option.filter_eq_some_iff.mp hpub
    rw [← Table.key_of_find? hfind]
    exact SqliteCatalogSearch.getCardById_of_mem _ (Table.mem_of_find? hfind)
      (by simpa using hstatus)
  | none =>
    cases hcard : SqliteCatalogSearch.getCardById catalog productId with
    | none => rfl
    | some card =>
      obtain ⟨row, hrow, hstatus, rfl, _⟩ := SqliteCatalogSearch.getCardById_some _ hcard
      rw [published, Table.find?_of_mem hrow, Option.filter_eq_none_iff] at hpub
      exact absurd (decide_eq_true hstatus) (hpub row rfl)

section Expected
variable {catalog : CatalogDb} {cartItems : List CartItem} {items : List NewOrderItem}

theorem Collected.published (h : Collected catalog cartItems items) :
    ∀ cartItem ∈ cartItems, (published catalog cartItem.productId).isSome := by
  induction h with
  | nil => simp
  | cons hcard _ _ ih =>
    rw [getCardById_eq] at hcard
    obtain ⟨row, hrow, _⟩ := Option.map_eq_some_iff.mp hcard
    intro cartItem hmem
    rcases List.mem_cons.mp hmem with rfl | hmem
    · rw [hrow]
      rfl
    · exact ih cartItem hmem

/-- The rows of the order are the units of the cart, position by position. -/
theorem Collected.units (h : Collected catalog cartItems items) (orderId : String) :
    (items.map (OrderRepo.itemRow orderId)).map soldUnit = cartItems.flatMap (unitsOf catalog) := by
  induction h with
  | nil => rfl
  | @cons cartItem _ card ids _ hcard hlen _ ih =>
    rw [getCardById_eq] at hcard
    obtain ⟨row, hrow, rfl⟩ := Option.map_eq_some_iff.mp hcard
    have hid : row.id = cartItem.productId := by
      obtain ⟨hfind, _⟩ := Option.filter_eq_some_iff.mp hrow
      exact Table.key_of_find? hfind
    have hunit : ∀ id, soldUnit (OrderRepo.itemRow orderId
        (orderItem (SqliteCatalogSearch.mapViewRow row) cartItem id)) =
        ⟨cartItem.productId, cartItem.variantId, row.sellerId, row.title, row.priceMinor,
          row.currency⟩ := by
      intro id
      rw [← hid]
      rfl
    have hfirst : (ids.map (orderItem (SqliteCatalogSearch.mapViewRow row) cartItem)).map
        (fun item => soldUnit (OrderRepo.itemRow orderId item)) = unitsOf catalog cartItem := by
      simp [unitsOf, hrow, ← hlen, Function.comp_def, hunit]
    rw [List.map_map] at ih ⊢
    rw [List.map_append, List.flatMap_cons, ih]
    exact congrArg (· ++ _) hfirst

/-- The prices of the units add up to the cost of the cart. -/
theorem Collected.cost (h : Collected catalog cartItems items) (hqty : ∀ c ∈ cartItems, 0 < c.qty) :
    (items.map fun item => item.unitPriceMinor.toInt).sum = (cartItems.map (costOf catalog)).sum := by
  induction h with
  | nil => rfl
  | @cons cartItem _ card ids _ hcard hlen _ ih =>
    rw [getCardById_eq] at hcard
    obtain ⟨row, hrow, rfl⟩ := Option.map_eq_some_iff.mp hcard
    have hpos := hqty cartItem List.mem_cons_self
    have hfirst : costOf catalog cartItem = ids.length * row.priceMinor.toInt := by
      have hcast : (ids.length : Int) = cartItem.qty := by omega
      simp [costOf, hrow, hcast]
    have hrest := ih fun c hc => hqty c (List.mem_cons_of_mem _ hc)
    rw [List.map_append, List.sum_append, hrest, List.map_cons, List.sum_cons, hfirst]
    congr 1
    simp [Function.comp_def, orderItem, SqliteCatalogSearch.mapViewRow]

end Expected

/-- `order` is what the cart held at the current prices, and nothing else happened. -/
structure Exact (s t : Site) (cart : Cart) (contact : NewOrderContact) (order : Order) : Prop where
  free : s.orders.orders.find? order.id = none
  added : ∃ row, row.id = order.id ∧ t.orders.orders.rows = s.orders.orders.rows ++ [row]
  stored : OrderRepo.getOrderWithItems t.orders order.id = .ok (some order)
  onSale : ∀ cartItem ∈ CartRepo.listItems s.orders cart.tokenHash,
    (published s.catalog cartItem.productId).isSome
  items : order.items.map soldUnit =
    (CartRepo.listItems s.orders cart.tokenHash).flatMap (unitsOf s.catalog)
  total : order.totalMinor.toInt =
    ((CartRepo.listItems s.orders cart.tokenHash).map (costOf s.catalog)).sum
  currency : ∀ item ∈ order.items, item.currency = order.currency
  contact : ∃ now, t.orders.orderContact.rows =
    s.orders.orderContact.rows ++ [OrderRepo.contactRow order.id contact now]
  event : ∃ clock, t.orders.outbox =
    s.orders.outbox.enqueue (OrderRepo.orderCreated order.id order.buyerId order.currency) clock
  emptied : CartRepo.listItems t.orders cart.tokenHash = []
  otherOrders : ∀ id, id ≠ order.id →
    OrderRepo.getOrderWithItems t.orders id = OrderRepo.getOrderWithItems s.orders id
  otherCarts : ∀ other, other ≠ cart.tokenHash →
    t.orders.carts.find? other = s.orders.carts.find? other ∧
      CartRepo.listItems t.orders other = CartRepo.listItems s.orders other

/-- The order of a receipt, as it is read back. -/
def Receipt.order (r : Receipt) : Order :=
  ⟨r.orderId, r.buyerId, .created, r.total, r.currency, r.now,
    r.items.map (OrderRepo.itemRow r.orderId)⟩

theorem Receipt.Valid.exact {receipt : Receipt} {headers : HeaderMap} {form : ContactForm}
    {s t : Site} {db : OrdersDb} {now : Int64}
    (h : receipt.Valid hashToken headers form s db) (hdb : s.orders.ItemsOrdered)
    (ht : t.orders = CartRepo.clear db receipt.cart.tokenHash now) :
    Exact s t receipt.cart receipt.contact receipt.order := by
  have hw := h.written
  have hclear : CartRepo.CartsOnly db t.orders := by
    rw [ht]
    exact CartRepo.clear_cartsOnly _
  have hreads := OrderRepo.getOrderWithItems_congr hclear.orders hclear.orderItems
  have hpositive : ∀ c ∈ CartRepo.listItems s.orders receipt.cart.tokenHash, 0 < c.qty :=
    fun c hc => s.orders.cartItems.positive c (List.mem_of_mem_filter hc)
  have hleft : t.orders.cartItems.rows = s.orders.cartItems.rows.filter fun r =>
      !decide (r.cartId = receipt.cart.tokenHash) := by
    rw [ht, CartRepo.clear_cartItems, hw.cartItems]
  constructor
  case free => exact hw.free
  case added => exact ⟨_, rfl, hclear.orders ▸ hw.orders⟩
  case stored => exact (hreads _).trans (hw.stored hdb)
  case onSale => exact h.items.published
  case items => exact h.items.units receipt.orderId
  case total => exact (hw.total_eq hdb).trans (h.items.cost hpositive)
  case currency =>
    intro item hitem
    obtain ⟨new, hnew, rfl⟩ := List.mem_map.mp hitem
    exact h.currency new hnew
  case contact => exact ⟨receipt.now, hclear.orderContact ▸ hw.orderContact⟩
  case event => exact ⟨receipt.clock, hclear.outbox ▸ hw.outbox⟩
  case emptied =>
    unfold CartRepo.listItems
    rw [hleft, List.filter_filter]
    simp
  case otherOrders => exact fun id hid => (hreads id).trans (hw.others hid)
  case otherCarts =>
    intro other hother
    constructor
    · rw [ht, CartRepo.clear, CartRepo.find?_touchIf _ _ hother, ← hw.carts]
      rfl
    · unfold CartRepo.listItems
      rw [hleft, List.filter_filter]
      apply List.filter_congr
      intro r _
      by_cases hr : r.cartId = other
      · simp [hr, hother]
      · simp [hr]

theorem location_done {app : AppState} {orderId : String} (h : Site.isUuid orderId) :
    (done app orderId).location = some ("/checkout/done/" ++ orderId) := by
  have hchars : ("/checkout/done/" ++ orderId).toList.all fun c =>
      c = '\t' || (32 ≤ c.toNat && c.toNat ≠ 127) := by
    rw [String.toList_append, List.all_append, Bool.and_eq_true]
    refine ⟨by decide, List.all_eq_true.mpr fun c hc => ?_⟩
    have huuid := List.all_eq_true.mp h c hc
    simp only [Bool.or_eq_true, Bool.and_eq_true, decide_eq_true_eq, Char.le_def,
      UInt32.le_iff_toNat_le] at huuid ⊢
    rcases huuid with (rfl | hdigit) | hletter
    · decide
    · have hlow : 48 ≤ c.toNat := hdigit.1
      have hhigh : c.toNat ≤ 57 := hdigit.2
      omega
    · have hlow : 97 ≤ c.toNat := hletter.1
      have hhigh : c.toNat ≤ 102 := hletter.2
      omega
  unfold done Response.redirect
  rw [if_pos hchars]

section Script

def shopRow (id : String) (priceMinor : Int64) : ProjectionRow :=
  ⟨id, "seller", "title", id, "", priceMinor, "UAH", "published", none, none, 0, 0⟩

/-- A cart with two units of one product and one of another, at prices of the past. -/
def scriptSite : Site where
  orders := OrdersDb.script id [.createCart "t", .addItem "t" ⟨"p", none, 2, "title", 90, "UAH"⟩,
    .addItem "t" ⟨"q", none, 1, "title", 90, "UAH"⟩]
  catalog :=
    { projection := (((∅ : ProjectionTable).insert? (shopRow "p" 100)).bind fun table =>
        table.insert? (shopRow "q" 250)).getD ∅
      attrIndex := ∅
      fts := []
      attributes := ∅ }
  issued := []

def scriptHeaders : HeaderMap := [("cookie", "cart=t".toList.map fun c => UInt8.ofNat c.toNat)]

def scriptForm : ContactForm := ⟨"a@b.c", none⟩

def scriptRun (faulty : WebOp → Bool) : Option (Response × Site) :=
  (submit ⟨"https://shop"⟩ scriptHeaders scriptForm).eval (Site.answer id faulty) scriptSite

def noFault (_ : WebOp) : Bool := false

def checkoutFault : WebOp → Bool
  | .checkout _ _ _ _ => true
  | _ => false

def clearFault : WebOp → Bool
  | .clear _ => true
  | _ => false

theorem runs_script (faulty : WebOp → Bool) {β : Type} (f : Response × Site → β) {b : β}
    (h : (scriptRun faulty).map f = some b) : ∃ response t,
      Runs (Site.exec id fun op => faulty op)
        (submit ⟨"https://shop"⟩ scriptHeaders scriptForm) scriptSite response t ∧
      f (response, t) = b := by
  obtain ⟨⟨response, t⟩, hrun, hf⟩ := Option.map_eq_some_iff.mp h
  have hanswer : ∀ s op r u, Site.answer id faulty s op = some (r, u) →
      Site.exec id (fun op => faulty op) s op r u := fun _ _ _ _ => Site.exec_of_answer
  exact ⟨response, t, runs_of_eval hanswer hrun, hf⟩

end Script


section Results
variable {app : AppState} {headers : HeaderMap} {form : ContactForm} {s t : Site}
  {response : Response}

theorem location_answered (h : response = Response.redirect "/cart" ∨
    ∃ items message, response = invalidContactResponse items form message) (orderId : String) :
    response.location ≠ some ("/checkout/done/" ++ orderId) := by
  intro hlocation
  rcases h with rfl | ⟨items, message, rfl⟩
  · have hcart : (Response.redirect "/cart").location = some "/cart" := by decide
    have hlength := congrArg String.length (Option.some.inj (hcart.symm.trans hlocation))
    rw [String.length_append] at hlength
    have hfive : "/cart".length = 5 := rfl
    have hfifteen : "/checkout/done/".length = 15 := rfl
    omega
  · cases hlocation

theorem location_failed (e : WebError) : e.intoResponse.location = none := by
  cases e <;> rfl

/-- A checkout that ends on the page of its order has ordered what the cart held, at the
current prices, and emptied the cart. -/
theorem submit_exact {orderId : String} (hdb : OrdersDb.Reachable hashToken s.orders)
    (h : Runs (Site.exec hashToken faults) (submit app headers form) s response t)
    (hdone : response.location = some ("/checkout/done/" ++ orderId)) :
    ∃ raw cart contact order, CartCookie.extractCartToken headers = some raw ∧
      CartRepo.findByToken s.orders hashToken raw = some cart ∧
      validateContact form = .ok contact ∧ order.id = orderId ∧ Exact s t cart contact order := by
  obtain ⟨r, rfl, hout⟩ := submit_runs h
  cases hout with
  | failed e _ | uncleared _ _ _ _ _ =>
    rw [Response.ofResult, location_failed] at hdone
    cases hdone
  | answered response _ hanswer => exact absurd hdone (location_answered hanswer orderId)
  | placed receipt db now hvalid hcleared _ =>
    obtain ⟨raw, hraw, hcart⟩ := hvalid.cart
    have hlocation := (location_done hvalid.orderId).symm.trans hdone
    refine ⟨raw, receipt.cart, receipt.contact, receipt.order, hraw, hcart, hvalid.contact, ?_, ?_⟩
    · exact (String.append_right_inj _).mp (Option.some.inj hlocation)
    · exact hvalid.exact hdb.itemsOrdered hcleared

theorem submit_exact_script : ∃ response t raw cart contact order,
    Runs (Site.exec id fun op => noFault op) (submit ⟨"https://shop"⟩ scriptHeaders scriptForm)
      scriptSite response t ∧ response.location = some ("/checkout/done/" ++ "4") ∧
      CartCookie.extractCartToken scriptHeaders = some raw ∧
      CartRepo.findByToken scriptSite.orders id raw = some cart ∧
      validateContact scriptForm = .ok contact ∧ order.id = "4" ∧
      Exact scriptSite t cart contact order := by
  obtain ⟨response, t, hrun, hlocation⟩ := runs_script noFault (fun out => out.1.location)
    (b := some ("/checkout/done/" ++ "4")) rfl
  obtain ⟨raw, cart, contact, order, h⟩ :=
    submit_exact (OrdersDb.reachable_script id _) hrun hlocation
  exact ⟨response, t, raw, cart, contact, order, hrun, hlocation, h⟩

/-- A checkout that does not end on the page of its order leaves the cart alone, and the
orders too unless the call that failed is `CartRepo::clear`. -/
theorem submit_failed
    (h : Runs (Site.exec hashToken faults) (submit app headers form) s response t)
    (hfailed : ∀ orderId, response.location ≠ some ("/checkout/done/" ++ orderId)) :
    t.orders.cartItems = s.orders.cartItems ∧ (t.orders = s.orders ∨
      ∃ (receipt : Receipt) (message : String), faults (.clear receipt.cart.tokenHash) ∧
        response = (WebError.internal message).intoResponse ∧
        receipt.Valid hashToken headers form s t.orders) := by
  obtain ⟨r, rfl, hout⟩ := submit_runs h
  cases hout with
  | failed _ hsame => exact ⟨by rw [hsame.orders], Or.inl hsame.orders⟩
  | answered _ hsame _ => exact ⟨by rw [hsame.orders], Or.inl hsame.orders⟩
  | placed receipt db now hvalid _ _ => exact absurd (location_done hvalid.orderId) (hfailed _)
  | uncleared receipt message hvalid hfault _ =>
    exact ⟨hvalid.written.cartItems, Or.inr ⟨receipt, message, hfault, rfl, hvalid⟩⟩

theorem submit_failed_script : ∃ response t,
    Runs (Site.exec id fun op => checkoutFault op)
      (submit ⟨"https://shop"⟩ scriptHeaders scriptForm) scriptSite response t ∧
    response.status = 500 ∧ t.orders.cartItems = scriptSite.orders.cartItems ∧
    t.orders = scriptSite.orders := by
  obtain ⟨response, t, hrun, hresponse⟩ := runs_script checkoutFault
    (fun out => (out.1.status, out.1.location)) (b := (500, none)) rfl
  obtain ⟨hstatus, hlocation⟩ := Prod.mk.inj hresponse
  have hfailed : ∀ orderId, response.location ≠ some ("/checkout/done/" ++ orderId) := by
    intro orderId h
    rw [hlocation] at h
    cases h
  obtain ⟨hcart, horders | ⟨_, _, hfault, _⟩⟩ := submit_failed hrun hfailed
  · exact ⟨response, t, hrun, hstatus, hcart, horders⟩
  · cases hfault

/-- The order is there, the cart is as it was, and the buyer is told to try again. -/
theorem submit_uncleared_script : ∃ response t,
    Runs (Site.exec id fun op => clearFault op)
      (submit ⟨"https://shop"⟩ scriptHeaders scriptForm) scriptSite response t ∧
    response = (WebError.internal "").intoResponse ∧ scriptSite.orders.orders.rows = [] ∧
    t.orders.orders.rows.map OrderRow.id = ["4"] ∧
    t.orders.cartItems.rows = scriptSite.orders.cartItems.rows := by
  obtain ⟨response, t, hrun, hresult⟩ := runs_script clearFault
    (fun out => (out.1, out.2.orders.orders.rows.map OrderRow.id, out.2.orders.cartItems.rows))
    (b := ((WebError.internal "").intoResponse, ["4"], scriptSite.orders.cartItems.rows)) rfl
  obtain ⟨hresponse, hrest⟩ := Prod.mk.inj hresult
  obtain ⟨horders, hcart⟩ := Prod.mk.inj hrest
  exact ⟨response, t, hrun, hresponse, rfl, horders, hcart⟩

end Results

end CheckoutPage

end TinyShop
