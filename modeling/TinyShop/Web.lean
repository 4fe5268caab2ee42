import TinyShop.CartRepo
import TinyShop.OrderRepo

/-!
# Requests and responses

Headers, the cart cookie of `cart_cookie.rs` and the errors of `error.rs`. Of a page
only what decides its contents is kept, not its HTML.
-/

namespace TinyShop

set_option autoImplicit false

/-- `HeaderMap`: names in lower case and the bytes of the values, in their order. -/
abbrev HeaderMap := List (String × List UInt8)

/-- `HeaderValue::to_str`: only visible ASCII, the space and the tab. -/
def HeaderMap.toStr (value : List UInt8) : Option (List Char) :=
  if value.all fun b => b = 9 || (32 ≤ b && b < 127) then
    some (value.map fun b => Char.ofNat b.toNat)
  else none

namespace CartCookie

def cartCookieName : List Char := "cart".toList

def maxAgeSecs : Nat := 60 * 60 * 24 * 30

/-- The value of one pair, if it is a cart token. -/
def tokenOf (pair : List Char) : Option String :=
  match Text.splitOnce '=' (Text.trim pair) with
  | none => none
  | some (name, value) =>
    if name = cartCookieName ∧ value ≠ [] then some (String.ofList value) else none

/-- Only the first `Cookie` header is looked at. -/
def extractCartToken (headers : HeaderMap) : Option String := do
  let value ← headers.lookup "cookie"
  let raw ← HeaderMap.toStr value
  (Text.split ';' raw []).findSome? tokenOf

def secureAttr (secure : Bool) : String := if secure then "; Secure" else ""

def setCartCookie (rawToken : String) (secure : Bool) : String :=
  "cart=" ++ rawToken ++ "; HttpOnly; SameSite=Lax; Path=/; Max-Age=" ++ maxAgeSecs.repr ++
    secureAttr secure

def expireCartCookie (secure : Bool) : String :=
  "cart=; HttpOnly; SameSite=Lax; Path=/; Max-Age=0" ++ secureAttr secure

end CartCookie

/-- The form of `POST /checkout`. -/
structure ContactForm where
  email : String
  name : Option String
deriving DecidableEq, Repr

/-- What a page shows. -/
inductive Body where
  | empty
  | text (message : String)
  | notFound
  | badRequest
  | serverError
  | contactForm (items : List CartItem) (form : ContactForm) (message : String)
deriving DecidableEq, Repr

structure Response where
  status : Nat
  location : Option String
  setCookie : Option String
  body : Body
deriving DecidableEq, Repr

/-- `Redirect::to`; axum answers 500 if the URI is no header value. -/
def Response.redirect (uri : String) : Response :=
  if uri.toList.all fun c => c = '\t' || (32 ≤ c.toNat && c.toNat ≠ 127) then
    ⟨303, some uri, none, .empty⟩
  else ⟨500, none, none, .text "failed to parse header value"⟩

inductive WebError where
  | notFound
  | badRequest (message : String)
  | internal (message : String)
deriving DecidableEq, Repr

namespace WebError

/-- `From<CartError>`. -/
def ofCart : CartError → WebError
  | .invalidQty qty => .badRequest ("invalid quantity: " ++ qty.repr)
  | .db e => .internal e.toString

/-- `From<OrderError>`. -/
def ofOrder : OrderError → WebError
  | .emptyCheckout => .badRequest "cart is empty"
  | other => .internal other.toString

/-- The message goes to the log only. -/
def intoResponse : WebError → Response
  | .notFound => ⟨404, none, none, .notFound⟩
  | .badRequest _ => ⟨400, none, none, .badRequest⟩
  | .internal _ => ⟨500, none, none, .serverError⟩

end WebError

/-- What `render_…` returns, as a response. -/
def Response.ofResult : Except WebError Response → Response
  | .ok response => response
  | .error e => e.intoResponse

end TinyShop
