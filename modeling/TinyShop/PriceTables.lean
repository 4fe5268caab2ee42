import TinyShop.Base.Saturating
import TinyShop.CartPage
import TinyShop.Checkout

/-!
# What the buyer is shown

The tables of `/cart` and `/checkout` (`cart_table` of `routes/cart.rs` and `summary_table`
of `routes/checkout.rs`), as the trees that `html!` builds, and `format_price_minor` of
`jsonld.rs`. What a cart is shown to cost is what a checkout charges, as long as its
snapshots are those of the catalog.
-/

namespace TinyShop

open Base
set_option autoImplicit false

/-- `maud::Markup`; attributes and texts are escaped when it is written out. -/
inductive Markup where
  | text (s : String)
  | element (tag : String) (attrs : List (String × String)) (children : List Markup)

namespace Markup

mutual

def innerText : Markup → String
  | .text s => s
  | .element _ _ children => innerTexts children

def innerTexts : List Markup → String
  | [] => ""
  | m :: ms => m.innerText ++ innerTexts ms

end

mutual

/-- The outermost elements with the tag. -/
def select (tag : String) : Markup → List Markup
  | .text _ => []
  | .element name attrs children =>
    if name = tag then [.element name attrs children] else selectAll tag children

def selectAll (tag : String) : List Markup → List Markup
  | [] => []
  | m :: ms => m.select tag ++ selectAll tag ms

end

/-- The value of an attribute. -/
def attr (name : String) : Markup → Option String
  | .text _ => none
  | .element _ attrs _ => attrs.lookup name

theorem selectAll_append (tag : String) (ms ns : List Markup) :
    selectAll tag (ms ++ ns) = selectAll tag ms ++ selectAll tag ns := by
  induction ms with
  | nil => rfl
  | cons m ms ih => rw [List.cons_append, selectAll, selectAll, ih, List.append_assoc]

theorem selectAll_map {α : Type} {tag : String} {f : α → Markup} (h : ∀ a, (f a).select tag = [])
    (as : List α) : selectAll tag (as.map f) = [] := by
  induction as with
  | nil => rfl
  | cons a as ih => rw [List.map_cons, selectAll, h, ih, List.nil_append]

end Markup

namespace Jsonld

/-- `{:02}`. -/
def twoDigits (n : Nat) : String := if n < 10 then "0" ++ n.repr else n.repr

def formatPriceMinor (priceMinor : Int64) : String :=
  let sign := if priceMinor < 0 then "-" else ""
  let abs := priceMinor.toInt.natAbs
  sign ++ (abs / 100).repr ++ "." ++ twoDigits (abs % 100)

end Jsonld

open Jsonld

/-- `unit_price_minor.saturating_mul(qty)`. -/
def CartItem.sumMinor (i : CartItem) : Int64 := saturate (i.unitPriceMinor.toInt * i.qty)

def totalMinor (items : List CartItem) : Int64 :=
  (items.map CartItem.sumMinor).foldl saturatingAdd 0

/-- The currency of the first position; a cart holds one. -/
def shownCurrency (items : List CartItem) : String :=
  (items.head?.map CartItem.currency).getD "UAH"

section Tables
open Markup

def price (minor : Int64) (currency : String) : List Markup :=
  [text (formatPriceMinor minor), text " ", text currency]

def column (title : String) : Markup := element "th" [("scope", "col")] [text title]

def CheckoutPage.summaryRow (item : CartItem) : Markup :=
  element "tr" [] [
    element "td" [] [text item.title],
    element "td" [] [text item.qty.repr],
    element "td" [] (price item.unitPriceMinor item.currency),
    element "td" [] (price item.sumMinor item.currency)]

def CheckoutPage.summaryTable (items : List CartItem) : Markup :=
  element "table" [("class", "table table-striped align-middle")] [
    element "caption" [] [text "Товари в замовленні"],
    element "thead" [] [element "tr" [] [
      column "Товар", column "Кількість", column "Ціна за од.", column "Сума"]],
    element "tbody" [] (items.map CheckoutPage.summaryRow),
    element "tfoot" [("class", "table-group-divider")] [element "tr" [] [
      element "th" [("scope", "row"), ("colspan", "3"), ("class", "fw-bold")] [text "Разом"],
      element "td" [("class", "fw-bold")] (price (totalMinor items) (shownCurrency items))]]]

def CartPage.updateForm (item : CartItem) : Markup :=
  element "form" [("method", "post"), ("action", "/cart/update"),
      ("class", "input-group input-group-sm")] [
    element "input" [("type", "number"), ("name", "qty"), ("value", item.qty.repr), ("min", "0"),
      ("max", CartRepo.maxQty.repr), ("aria-label", "Кількість для " ++ item.title),
      ("class", "form-control")] [],
    element "input" [("type", "hidden"), ("name", "item_id"), ("value", item.id.repr)] [],
    element "button" [("type", "submit"), ("class", "btn btn-outline-secondary btn-sm")]
      [text "Оновити"]]

def CartPage.removeForm (item : CartItem) : Markup :=
  element "form" [("method", "post"), ("action", "/cart/remove")] [
    element "input" [("type", "hidden"), ("name", "item_id"), ("value", item.id.repr)] [],
    element "button" [("type", "submit"), ("class", "btn btn-outline-danger btn-sm")]
      [text "Видалити"]]

def CartPage.cartRow (item : CartItem) : Markup :=
  element "tr" [] [
    element "td" [] [text item.title],
    element "td" [] [CartPage.updateForm item],
    element "td" [] (price item.unitPriceMinor item.currency),
    element "td" [] (price item.sumMinor item.currency),
    element "td" [] [CartPage.removeForm item]]

def CartPage.cartTable (items : List CartItem) : List Markup := [
  element "h1" [] [text "Кошик"],
  element "table" [("class", "table table-striped align-middle")] [
    element "caption" [] [text "Товари в кошику"],
    element "thead" [] [element "tr" [] [
      column "Товар", column "Кількість", column "Ціна за од.", column "Сума", column "Дії"]],
    element "tbody" [] (items.map CartPage.cartRow),
    element "tfoot" [("class", "table-group-divider")] [element "tr" [] [
      element "th" [("scope", "row"), ("colspan", "3"), ("class", "fw-bold")] [text "Разом"],
      element "td" [("colspan", "2"), ("class", "fw-bold")]
        (price (totalMinor items) (shownCurrency items))]]]]

end Tables

/-- The texts of the cells at the foot of a page's tables. -/
def shownTotals (page : List Markup) : List String :=
  (Markup.selectAll "td" (Markup.selectAll "tfoot" page)).map Markup.innerText

/-- What the total of a cart looks like. -/
def shownTotal (items : List CartItem) : String :=
  formatPriceMinor (totalMinor items) ++ " " ++ shownCurrency items

section Shown
open Markup

theorem innerTexts_price (minor : Int64) (currency : String) :
    innerTexts (price minor currency) = formatPriceMinor minor ++ " " ++ currency := by
  simp only [price, innerTexts, innerText]
  rw [String.append_empty, String.append_assoc]

theorem shownTotals_summaryTable (items : List CartItem) :
    shownTotals [CheckoutPage.summaryTable items] = [shownTotal items] := by
  have hrows : selectAll "tfoot" (items.map CheckoutPage.summaryRow) = [] :=
    selectAll_map (fun _ => rfl) items
  simp [shownTotals, CheckoutPage.summaryTable, column, select, selectAll, hrows, innerText,
    innerTexts_price, shownTotal]

theorem shownTotals_cartTable (items : List CartItem) :
    shownTotals (CartPage.cartTable items) = [shownTotal items] := by
  have hrows : selectAll "tfoot" (items.map CartPage.cartRow) = [] :=
    selectAll_map (fun _ => rfl) items
  simp [shownTotals, CartPage.cartTable, column, select, selectAll, hrows, innerText,
    innerTexts_price, shownTotal]

end Shown

/-! ## Sums that fit -/

/-- The cost of a position, without a bound. -/
def CartItem.cost (i : CartItem) : Int := i.unitPriceMinor.toInt * i.qty

section Sums
variable {items : List CartItem}

theorem sum_cost_nonneg (hcost : ∀ i ∈ items, 0 ≤ i.cost) : 0 ≤ (items.map CartItem.cost).sum := by
  refine List.sum_nonneg fun n hn => ?_
  obtain ⟨i, hi, rfl⟩ := List.mem_map.mp hn
  exact hcost i hi

theorem cost_le_sum (hcost : ∀ i ∈ items, 0 ≤ i.cost) {i : CartItem} (hi : i ∈ items) :
    i.cost ≤ (items.map CartItem.cost).sum := by
  refine List.single_le_sum (fun n hn => ?_) _ (List.mem_map_of_mem hi)
  obtain ⟨j, hj, rfl⟩ := List.mem_map.mp hn
  exact hcost j hj

/-- Neither a product nor a partial sum is clamped if the whole sum fits. -/
theorem totalMinor_exact (hcost : ∀ i ∈ items, 0 ≤ i.cost)
    (hsum : (items.map CartItem.cost).sum < 2 ^ 63) :
    (totalMinor items).toInt = (items.map CartItem.cost).sum := by
  have hterm : ∀ i ∈ items, i.sumMinor.toInt = i.cost := by
    intro i hi
    have hle := cost_le_sum hcost hi
    have hlow := hcost i hi
    exact toInt_saturate_of_mem (by change _ ≤ i.cost; omega) (by change i.cost < _; omega)
  have hterms : (items.map CartItem.sumMinor).map Int64.toInt = items.map CartItem.cost := by
    rw [List.map_map]
    exact List.map_congr_left hterm
  have hnonneg : ∀ x ∈ items.map CartItem.sumMinor, 0 ≤ x.toInt := by
    intro x hx
    obtain ⟨i, hi, rfl⟩ := List.mem_map.mp hx
    rw [hterm i hi]
    exact hcost i hi
  unfold totalMinor
  rw [toInt_foldl_saturatingAdd hnonneg (by simp), hterms, Int64.toInt_zero]
  omega

/-- The fold is exact from the first position on. -/
theorem totalMinor_of_prefix (hcost : ∀ i ∈ items, 0 ≤ i.cost)
    (hsum : (items.map CartItem.cost).sum < 2 ^ 63) {u : List CartItem} (hu : u <+: items) :
    (totalMinor u).toInt = (u.map CartItem.cost).sum := by
  obtain ⟨v, rfl⟩ := hu
  have hleft : ∀ i ∈ u, 0 ≤ i.cost := fun i hi => hcost i (List.mem_append_left _ hi)
  have hright := sum_cost_nonneg fun i hi => hcost i (List.mem_append_right u hi)
  rw [List.map_append, List.sum_append] at hsum
  exact totalMinor_exact hleft (by omega)

end Sums

/-! ## What is charged -/

namespace CheckoutPage
variable {hashToken : String → String} {faults : WebOp → Prop} {app : AppState}
  {headers : HeaderMap} {form : ContactForm} {s t : Site} {response : Response} {orderId : String}

/-- The snapshot of the position is that of the published row. -/
def Current (catalog : CatalogDb) (item : CartItem) : Prop :=
  ∃ row, published catalog item.productId = some row ∧
    item.unitPriceMinor = row.priceMinor ∧ item.currency = row.currency

theorem Current.costOf_eq {catalog : CatalogDb} {item : CartItem} (h : Current catalog item) :
    costOf catalog item = item.cost := by
  obtain ⟨row, hrow, hprice, _⟩ := h
  rw [costOf, hrow, CartItem.cost, hprice]
  exact mul_comm _ _

/-- An empty cart is not ordered. -/
theorem listItems_of_done {raw : String} {cart : Cart}
    (h : Runs (Site.exec hashToken faults) (submit app headers form) s response t)
    (hdone : response.location = some ("/checkout/done/" ++ orderId))
    (hraw : CartCookie.extractCartToken headers = some raw)
    (hcart : CartRepo.findByToken s.orders hashToken raw = some cart) :
    CartRepo.listItems s.orders cart.tokenHash ≠ [] := by
  intro hempty
  obtain ⟨r, u, hrun, h⟩ := runs_bind_iff.mp h
  obtain ⟨rfl, rfl⟩ := runs_pure_iff.mp h
  cases r with
  | error e =>
    rw [Response.ofResult, location_failed] at hdone
    cases hdone
  | ok response =>
    have hredirect : response = Response.redirect "/cart" := by
      obtain ⟨found, v, hfind, hrun⟩ := WebM.runs_bind hrun
      obtain ⟨rfl, ⟨e, rfl⟩ | rfl | ⟨raw', cart', hraw', hcart', rfl⟩⟩ := findCart_runs hfind
      · obtain ⟨heq, _⟩ := WebM.runs_after_error hrun
        cases heq
      · obtain ⟨heq, _⟩ := WebM.runs_pure hrun
        exact Except.ok.inj heq
      · obtain rfl := Option.some.inj (hraw.symm.trans hraw')
        obtain rfl := Option.some.inj (hcart.symm.trans hcart')
        obtain ⟨listed, w, hlist, hrun⟩ := WebM.runs_bind hrun
        obtain ⟨answer, hexec, rfl⟩ := WebM.runs_call hlist
        obtain ⟨rfl, rfl | ⟨e, rfl⟩⟩ := Site.exec_listItems hexec
        · rw [hempty] at hrun
          obtain ⟨heq, _⟩ := WebM.runs_pure hrun
          exact Except.ok.inj heq
        · obtain ⟨heq, _⟩ := WebM.runs_after_error hrun
          cases heq
    have hanswer : response = Response.redirect "/cart" ∨
        ∃ items message, response = invalidContactResponse items form message := Or.inl hredirect
    exact location_answered hanswer orderId hdone

/-- The order has the currency that the cart is shown in. -/
theorem Exact.shownCurrency {cart : Cart} {contact : NewOrderContact} {order : Order}
    (h : Exact s t cart contact order) (hsome : CartRepo.listItems s.orders cart.tokenHash ≠ [])
    (hcurrent : ∀ item ∈ CartRepo.listItems s.orders cart.tokenHash, Current s.catalog item) :
    TinyShop.shownCurrency (CartRepo.listItems s.orders cart.tokenHash) = order.currency := by
  have hitems := h.items
  cases hlist : CartRepo.listItems s.orders cart.tokenHash with
  | nil => exact absurd hlist hsome
  | cons first rest =>
    have hfirst : first ∈ CartRepo.listItems s.orders cart.tokenHash := by
      rw [hlist]
      exact List.mem_cons_self
    obtain ⟨row, hrow, _, hcurrency⟩ := hcurrent first hfirst
    have hqty := s.orders.cartItems.positive first (List.mem_of_mem_filter hfirst)
    let unit : SoldUnit := ⟨first.productId, first.variantId, row.sellerId, row.title,
      row.priceMinor, row.currency⟩
    have hunit : unit ∈ order.items.map soldUnit := by
      rw [hitems, hlist, List.flatMap_cons]
      refine List.mem_append_left _ ?_
      rw [unitsOf, hrow]
      exact List.mem_replicate.mpr ⟨by omega, rfl⟩
    obtain ⟨item, hitem, hsold⟩ := List.mem_map.mp hunit
    have hitemCurrency : item.currency = row.currency := congrArg SoldUnit.currency hsold
    exact hcurrency.trans (hitemCurrency.symm.trans (h.currency item hitem))

/-- A checkout that ends on the page of its order has charged the total that the cart page and
the checkout page show for the cart, and nothing was clamped in showing it. -/
theorem charged_as_shown {raw : String} {cart : Cart} (hdb : OrdersDb.Reachable hashToken s.orders)
    (h : Runs (Site.exec hashToken faults) (submit app headers form) s response t)
    (hdone : response.location = some ("/checkout/done/" ++ orderId))
    (hraw : CartCookie.extractCartToken headers = some raw)
    (hcart : CartRepo.findByToken s.orders hashToken raw = some cart)
    (hprices : ∀ item ∈ CartRepo.listItems s.orders cart.tokenHash,
      0 ≤ item.unitPriceMinor.toInt ∧ Current s.catalog item) :
    ∃ order, OrderRepo.getOrderWithItems t.orders orderId = .ok (some order) ∧
      order.totalMinor = totalMinor (CartRepo.listItems s.orders cart.tokenHash) ∧
      shownTotals (CartPage.cartTable (CartRepo.listItems s.orders cart.tokenHash)) =
        [formatPriceMinor order.totalMinor ++ " " ++ order.currency] ∧
      shownTotals [summaryTable (CartRepo.listItems s.orders cart.tokenHash)] =
        [formatPriceMinor order.totalMinor ++ " " ++ order.currency] ∧
      ∀ u, u <+: CartRepo.listItems s.orders cart.tokenHash →
        (totalMinor u).toInt = (u.map CartItem.cost).sum := by
  have hsome := listItems_of_done h hdone hraw hcart
  obtain ⟨r, rfl, hout⟩ := submit_runs h
  cases hout with
  | failed e _ | uncleared _ _ _ _ _ =>
    rw [Response.ofResult, location_failed] at hdone
    cases hdone
  | answered response _ hanswer => exact absurd hdone (location_answered hanswer orderId)
  | placed receipt db now hvalid hcleared _ =>
    obtain ⟨raw', hraw', hcart'⟩ := hvalid.cart
    obtain rfl := Option.some.inj (hraw.symm.trans hraw')
    obtain rfl := Option.some.inj (hcart.symm.trans hcart')
    have hid : receipt.order.id = orderId := by
      have hlocation := (location_done hvalid.orderId).symm.trans hdone
      exact (String.append_right_inj _).mp (Option.some.inj hlocation)
    have hexact := hvalid.exact hdb.itemsOrdered hcleared
    have hcosts : (CartRepo.listItems s.orders receipt.cart.tokenHash).map (costOf s.catalog) =
        (CartRepo.listItems s.orders receipt.cart.tokenHash).map CartItem.cost :=
      List.map_congr_left fun item hitem => (hprices item hitem).2.costOf_eq
    have hnonneg : ∀ item ∈ CartRepo.listItems s.orders receipt.cart.tokenHash, 0 ≤ item.cost := by
      intro item hitem
      have hqty := s.orders.cartItems.positive item (List.mem_of_mem_filter hitem)
      exact mul_nonneg (hprices item hitem).1 (by omega)
    have hcharged := hexact.total
    rw [hcosts] at hcharged
    have hfits := hcharged ▸ receipt.order.totalMinor.toInt_lt
    have htotal : receipt.order.totalMinor =
        totalMinor (CartRepo.listItems s.orders receipt.cart.tokenHash) := by
      rw [← Int64.toInt_inj, hcharged, totalMinor_exact hnonneg hfits]
    have hshown : shownTotal (CartRepo.listItems s.orders receipt.cart.tokenHash) =
        formatPriceMinor receipt.order.totalMinor ++ " " ++ receipt.order.currency := by
      rw [shownTotal, htotal, hexact.shownCurrency hsome fun item hitem => (hprices item hitem).2]
    refine ⟨receipt.order, hid ▸ hexact.stored, htotal, ?_, ?_, ?_⟩
    · rw [shownTotals_cartTable, hshown]
    · rw [shownTotals_summaryTable, hshown]
    · exact fun u hu => totalMinor_of_prefix hnonneg hfits hu

/-- Two units of one product and one of another, at the prices of the catalog. -/
def pricedSite : Site :=
  { scriptSite with
    orders := OrdersDb.script id [.createCart "t", .addItem "t" ⟨"p", none, 2, "title", 100, "UAH"⟩,
      .addItem "t" ⟨"q", none, 1, "title", 250, "UAH"⟩] }

theorem current_pricedSite : ∀ item ∈ CartRepo.listItems pricedSite.orders "t",
    0 ≤ item.unitPriceMinor.toInt ∧ Current pricedSite.catalog item := by
  have hlist : CartRepo.listItems pricedSite.orders "t" =
      [⟨1, "t", "p", none, 2, "title", 100, "UAH", 0⟩, ⟨2, "t", "q", none, 1, "title", 250, "UAH", 0⟩] :=
    rfl
  rw [hlist]
  refine List.forall_mem_cons.mpr ⟨⟨by decide, shopRow "p" 100, rfl, rfl, rfl⟩, ?_⟩
  exact List.forall_mem_singleton.mpr ⟨by decide, shopRow "q" 250, rfl, rfl, rfl⟩

theorem charged_as_shown_priced : ∃ response t order,
    Runs (Site.exec id fun op => noFault op) (submit ⟨"https://shop"⟩ scriptHeaders scriptForm)
      pricedSite response t ∧ response.location = some ("/checkout/done/" ++ "4") ∧
      OrderRepo.getOrderWithItems t.orders "4" = .ok (some order) ∧ order.totalMinor = 450 ∧
      shownTotals [summaryTable (CartRepo.listItems pricedSite.orders "t")] = ["4.50 UAH"] := by
  have heval : ((submit ⟨"https://shop"⟩ scriptHeaders scriptForm).eval (Site.answer id noFault)
      pricedSite).map (fun out => out.1.location) = some (some ("/checkout/done/" ++ "4")) := rfl
  obtain ⟨⟨response, t⟩, hanswers, hdone⟩ := Option.map_eq_some_iff.mp heval
  have hanswer : ∀ s op r u, Site.answer id noFault s op = some (r, u) →
      Site.exec id (fun op => noFault op) s op r u := fun _ _ _ _ => Site.exec_of_answer
  have hrun := runs_of_eval hanswer hanswers
  have hraw : CartCookie.extractCartToken scriptHeaders = some "t" := rfl
  have hcart : CartRepo.findByToken pricedSite.orders id "t" = some ⟨"t", 0, 0⟩ := rfl
  obtain ⟨order, hstored, htotal, _⟩ := charged_as_shown (OrdersDb.reachable_script id _) hrun hdone
    hraw hcart current_pricedSite
  exact ⟨response, t, order, hrun, hdone, hstored, htotal, rfl⟩

end CheckoutPage

end TinyShop
