import TinyShop.CheckoutPage

/-!
# Cart pages

`POST /cart/add`, `/cart/update` and `/cart/remove` of `crates/web/src/routes/cart.rs`.
-/

namespace TinyShop

open Base
set_option autoImplicit false

def CartPage.defaultQty : Int := 1

structure AddForm where
  slug : String
  qty : Int := CartPage.defaultQty

structure UpdateForm where
  itemId : Int
  qty : Int

structure RemoveForm where
  itemId : Int

namespace CartPage

def findCart (headers : HeaderMap) : WebM (Option Cart) := CheckoutPage.findCart headers

/-- The token is given if the cart is new. -/
def getOrCreateCart (headers : HeaderMap) : WebM (Cart × Option String) := do
  match ← findCart headers with
  | some cart => return (cart, none)
  | none => do
    let (token, cart) ← WebM.createCart
    return (cart, some token.raw)

def redirectToCart (app : AppState) : Option String → Response
  | some raw =>
    { Response.redirect "/cart" with setCookie := some (CartCookie.setCartCookie raw app.secure) }
  | none => Response.redirect "/cart"

def newItem (card : ProductView) (qty : Int) : NewCartItem where
  productId := card.id
  variantId := none
  qty := qty
  title := card.title
  unitPriceMinor := card.priceMinor
  currency := card.currency

/-- From the cart on: a cart holds one currency. -/
def addTo (app : AppState) (form : AddForm) (card : ProductView) (cart : Cart)
    (newToken : Option String) : WebM Response := do
  let existingItems ← WebM.listItems cart.tokenHash
  if existingItems.head?.any fun existing => existing.currency ≠ card.currency then
    throw (.badRequest "Товар у іншій валюті не можна додати до цього кошика")
  else do
    WebM.addItem cart.tokenHash (newItem card form.qty)
    return redirectToCart app newToken

def renderAdd (app : AppState) (headers : HeaderMap) (form : AddForm) : WebM Response := do
  match ← WebM.getCardBySlug form.slug with
  | none => return Response.redirect ("/p/" ++ form.slug)
  | some card => do
    let (cart, newToken) ← getOrCreateCart headers
    addTo app form card cart newToken

def add (app : AppState) (headers : HeaderMap) (form : AddForm) : WebProg Response := do
  let result ← (renderAdd app headers form).run
  return Response.ofResult result

/-- Without a cart there is nothing to update. -/
def renderUpdate (app : AppState) (headers : HeaderMap) (form : UpdateForm) : WebM Response := do
  match ← findCart headers with
  | none => return redirectToCart app none
  | some cart => do
    WebM.updateQty cart.tokenHash form.itemId form.qty
    return redirectToCart app none

def update (app : AppState) (headers : HeaderMap) (form : UpdateForm) : WebProg Response := do
  let result ← (renderUpdate app headers form).run
  return Response.ofResult result

def renderRemove (app : AppState) (headers : HeaderMap) (form : RemoveForm) : WebM Response := do
  match ← findCart headers with
  | none => return redirectToCart app none
  | some cart => do
    WebM.removeItem cart.tokenHash form.itemId
    return redirectToCart app none

def remove (app : AppState) (headers : HeaderMap) (form : RemoveForm) : WebProg Response := do
  let result ← (renderRemove app headers form).run
  return Response.ofResult result

theorem calls_addTo {P : WebOp → Prop} {app : AppState} {form : AddForm} {card : ProductView}
    {cart : Cart} {newToken : Option String} (hlist : ∀ cartId, P (.listItems cartId))
    (hadd : ∀ cartId item, P (.addItem cartId item)) :
    (addTo app form card cart newToken).run.Calls P := by
  refine WebM.calls_bind (WebM.calls_call (hlist _)) fun items => ?_
  split
  · trivial
  · exact WebM.calls_bind (WebM.calls_call (hadd _ _)) fun _ => trivial

theorem calls_findCart {P : WebOp → Prop} {headers : HeaderMap}
    (hfind : ∀ raw, P (.findByToken raw)) : (findCart headers).run.Calls P := by
  unfold findCart CheckoutPage.findCart
  split
  · trivial
  · exact WebM.calls_call (hfind _)

theorem calls_getOrCreateCart {P : WebOp → Prop} {headers : HeaderMap}
    (hfind : ∀ raw, P (.findByToken raw)) (hcreate : P .createCart) :
    (getOrCreateCart headers).run.Calls P := by
  refine WebM.calls_bind (calls_findCart hfind) fun found => ?_
  cases found with
  | some cart => trivial
  | none => exact WebM.calls_bind (WebM.calls_call hcreate) fun _ => trivial

theorem calls_add {P : WebOp → Prop} {app : AppState} {headers : HeaderMap} {form : AddForm}
    (hcard : ∀ slug, P (.getCardBySlug slug)) (hfind : ∀ raw, P (.findByToken raw))
    (hcreate : P .createCart) (hlist : ∀ cartId, P (.listItems cartId))
    (hadd : ∀ cartId item, P (.addItem cartId item)) : (add app headers form).Calls P := by
  refine Prog.calls_bind (WebM.calls_bind (WebM.calls_call (hcard _)) fun found => ?_) fun _ => trivial
  cases found with
  | none => trivial
  | some card =>
    exact WebM.calls_bind (calls_getOrCreateCart hfind hcreate) fun _ => calls_addTo hlist hadd

theorem calls_update {P : WebOp → Prop} {app : AppState} {headers : HeaderMap} {form : UpdateForm}
    (hfind : ∀ raw, P (.findByToken raw)) (hupdate : ∀ cartId itemId qty, P (.updateQty cartId itemId qty)) :
    (update app headers form).Calls P := by
  refine Prog.calls_bind (WebM.calls_bind (calls_findCart hfind) fun found => ?_) fun _ => trivial
  cases found with
  | none => trivial
  | some cart => exact WebM.calls_bind (WebM.calls_call (hupdate _ _ _)) fun _ => trivial

theorem calls_remove {P : WebOp → Prop} {app : AppState} {headers : HeaderMap} {form : RemoveForm}
    (hfind : ∀ raw, P (.findByToken raw)) (hremove : ∀ cartId itemId, P (.removeItem cartId itemId)) :
    (remove app headers form).Calls P := by
  refine Prog.calls_bind (WebM.calls_bind (calls_findCart hfind) fun found => ?_) fun _ => trivial
  cases found with
  | none => trivial
  | some cart => exact WebM.calls_bind (WebM.calls_call (hremove _ _)) fun _ => trivial

end CartPage

namespace CheckoutPage

theorem calls_pushUnits {P : WebOp → Prop} {card : ProductView} {cartItem : CartItem} {n : Nat}
    {orderItems : List NewOrderItem} (huuid : P .newUuid) :
    (pushUnits card cartItem n orderItems).run.Calls P := by
  induction n generalizing orderItems with
  | zero => trivial
  | succ n ih => exact WebM.calls_bind (WebM.calls_call huuid) fun _ => ih

theorem calls_collect {P : WebOp → Prop} {cartItems : List CartItem}
    {orderItems : List NewOrderItem} (hcard : ∀ id, P (.getCardById id)) (huuid : P .newUuid) :
    (collect cartItems orderItems).run.Calls P := by
  induction cartItems generalizing orderItems with
  | nil => trivial
  | cons cartItem cartItems ih =>
    refine WebM.calls_bind (WebM.calls_call (hcard _)) fun found => ?_
    cases found with
    | none => trivial
    | some card => exact WebM.calls_bind (calls_pushUnits huuid) fun _ => ih

theorem calls_placeOrder {P : WebOp → Prop} {app : AppState} {cart : Cart}
    {contact : NewOrderContact} {orderItems : List NewOrderItem} (huuid : P .newUuid)
    (hcheckout : ∀ buyerId currency items contact, P (.checkout buyerId currency items contact))
    (hclear : P (.clear cart.tokenHash)) : (placeOrder app cart contact orderItems).run.Calls P := by
  unfold placeOrder
  split
  · trivial
  · split
    · trivial
    · refine WebM.calls_bind (WebM.calls_bind (WebM.calls_call huuid) fun _ => trivial) fun _ => ?_
      refine WebM.calls_bind (WebM.calls_call (hcheckout _ _ _ _)) fun _ => ?_
      exact WebM.calls_bind (WebM.calls_call hclear) fun _ => trivial

theorem calls_submitItems {P : WebOp → Prop} {app : AppState} {cart : Cart} {form : ContactForm}
    {cartItems : List CartItem} (hcard : ∀ id, P (.getCardById id)) (huuid : P .newUuid)
    (hcheckout : ∀ buyerId currency items contact, P (.checkout buyerId currency items contact))
    (hclear : P (.clear cart.tokenHash)) : (submitItems app cart form cartItems).run.Calls P := by
  unfold submitItems
  split
  · trivial
  · split
    · trivial
    · exact WebM.calls_bind (calls_collect hcard huuid)
        fun _ => calls_placeOrder huuid hcheckout hclear

end CheckoutPage

end TinyShop
