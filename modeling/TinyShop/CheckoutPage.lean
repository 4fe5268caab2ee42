import TinyShop.Site

/-!
# Checkout

`POST /checkout` of `crates/web/src/routes/checkout.rs`, for guests. Prices and
sellers are taken from the catalog when the order is placed.
-/

namespace TinyShop

open Base
set_option autoImplicit false

structure AppState where
  baseUrl : String

def AppState.secure (app : AppState) : Bool := "https://".toList.isPrefixOf app.baseUrl.toList

namespace CheckoutPage

def maxEmailLen : Nat := 254

def maxNameLen : Nat := 200

def badEmail : String := "Вкажіть коректну електронну пошту."

def validateContact (form : ContactForm) : Except String NewOrderContact :=
  let email := Text.trim form.email.toList
  if email.isEmpty || maxEmailLen < Text.len email then .error badEmail
  else if email.any fun c => Text.isControl c || Text.isWhitespace c then
    .error "Електронна пошта містить недопустимі символи."
  else
    match Text.splitOnce '@' email with
    | none => .error badEmail
    | some (before, domain) =>
      if before.isEmpty || domain.isEmpty || !domain.contains '.' then .error badEmail
      else
        let name := (form.name.map fun s => Text.trim s.toList).filter fun s => !s.isEmpty
        if name.any fun s => maxNameLen < Text.len s || s.any Text.isControl then
          .error "Ім'я містить недопустимі символи або занадто довге."
        else .ok ⟨String.ofList email, name.map String.ofList⟩

def invalidContactResponse (items : List CartItem) (form : ContactForm) (message : String) :
    Response :=
  ⟨400, none, none, .contactForm items form message⟩

def findCart (headers : HeaderMap) : WebM (Option Cart) :=
  match CartCookie.extractCartToken headers with
  | none => return none
  | some token => WebM.findByToken token

/-- The snapshot of one unit; the id of the order is filled in by `OrderRepo::checkout`. -/
def orderItem (card : ProductView) (cartItem : CartItem) (id : String) : NewOrderItem where
  id := id
  orderId := ""
  productId := card.id
  sellerId := card.sellerId
  variantId := cartItem.variantId
  title := card.title
  unitPriceMinor := card.priceMinor
  currency := card.currency
  configSnapshot := none

/-- The loop over the `n` units of one position of the cart. -/
def pushUnits (card : ProductView) (cartItem : CartItem) :
    Nat → List NewOrderItem → WebM (List NewOrderItem)
  | 0, orderItems => return orderItems
  | n + 1, orderItems => do
    let id ← WebM.newUuid
    pushUnits card cartItem n (orderItems ++ [orderItem card cartItem id])

def unavailable (cartItem : CartItem) : WebError :=
  .badRequest ("Товар \"" ++ cartItem.title ++
    "\" більше не доступний для замовлення. Будь ласка, поверніться до кошика.")

/-- The loop over the positions of the cart. -/
def collect : List CartItem → List NewOrderItem → WebM (List NewOrderItem)
  | [], orderItems => return orderItems
  | cartItem :: cartItems, orderItems => do
    match ← WebM.getCardById cartItem.productId with
    | none => throw (unavailable cartItem)
    | some card =>
      let orderItems ← pushUnits card cartItem cartItem.qty.toNat orderItems
      collect cartItems orderItems

def guestBuyerId : WebM String := do
  let id ← WebM.newUuid
  return "guest:" ++ id

def done (app : AppState) (orderId : String) : Response :=
  { Response.redirect ("/checkout/done/" ++ orderId) with
    setCookie := some (CartCookie.expireCartCookie app.secure) }

/-- From the collected rows on. -/
def placeOrder (app : AppState) (cart : Cart) (contact : NewOrderContact)
    (orderItems : List NewOrderItem) : WebM Response :=
  match orderItems with
  | [] => throw (.badRequest "усі товари кошика більше не доступні")
  | first :: _ =>
    if orderItems.any fun item => item.currency ≠ first.currency then
      throw (.badRequest "товари в кошику мають різні валюти, оформлення неможливе")
    else do
      let buyerId ← guestBuyerId
      let orderId ← WebM.checkout buyerId first.currency orderItems (some contact)
      WebM.clear cart.tokenHash
      return done app orderId

/-- From the positions of the cart on. -/
def submitItems (app : AppState) (cart : Cart) (form : ContactForm) (cartItems : List CartItem) :
    WebM Response :=
  if cartItems.isEmpty then return Response.redirect "/cart"
  else
    match validateContact form with
    | .error message => return invalidContactResponse cartItems form message
    | .ok contact => do
      let orderItems ← collect cartItems []
      placeOrder app cart contact orderItems

def renderSubmit (app : AppState) (headers : HeaderMap) (form : ContactForm) : WebM Response := do
  match ← findCart headers with
  | none => return Response.redirect "/cart"
  | some cart =>
    let cartItems ← WebM.listItems cart.tokenHash
    submitItems app cart form cartItems

def submit (app : AppState) (headers : HeaderMap) (form : ContactForm) : WebProg Response := do
  let result ← (renderSubmit app headers form).run
  return Response.ofResult result

end CheckoutPage

end TinyShop
