import TinyShop.Base.Exclusion
import TinyShop.CartPage
import TinyShop.Checkout

/-!
# Requests that overlap

What a checkout does between reading the cart and its end, while other requests
move. `Steps` names what has to be known of each of its calls; the handler is walked
through once, for every property that is stated in this form.
-/

namespace TinyShop

open Base
set_option autoImplicit false

namespace Overlap

/-- The calls of a checkout after it has read the cart. -/
def afterListing : WebOp → Bool
  | .getCardById _ => true
  | .newUuid => true
  | .checkout _ _ _ _ => true
  | .clear _ => true
  | _ => false

/-- Product and variant of one unit. -/
def kind (item : NewOrderItem) : String × Option String := (item.productId, item.variantId)

/-- What a position of a cart asks for, unit by unit. -/
def kinds (cartItem : CartItem) : List (String × Option String) :=
  List.replicate cartItem.qty.toNat (cartItem.productId, cartItem.variantId)

section Answers
variable {hashToken : String → String} {faults : WebOp → Prop} {s t : Site}

theorem tokenHash_of_findByToken {raw : String} {r : Except CartError (Option Cart)} {cart : Cart}
    (h : Site.exec hashToken faults s (.findByToken raw) r t) (hr : r = .ok (some cart)) :
    cart.tokenHash = hashToken raw := by
  obtain ⟨_, rfl | ⟨e, rfl⟩⟩ := Site.exec_findByToken h
  · exact Table.key_of_find? (Except.ok.inj hr)
  · cases hr

theorem id_of_getCardById {id : String} {r : Except SearchError (Option ProductView)}
    {card : ProductView} (h : Site.exec hashToken faults s (.getCardById id) r t)
    (hr : r = .ok (some card)) : card.id = id := by
  obtain ⟨_, rfl | ⟨e, rfl⟩⟩ := Site.exec_getCardById h
  · obtain ⟨row, _, _, hid, rfl⟩ := SqliteCatalogSearch.getCardById_some _ (Except.ok.inj hr)
    exact hid
  · cases hr

end Answers

section Handler
variable {σ : Type} (exec : σ → (op : WebOp) → op.Res → σ → Prop) (D : Exclusion σ WebOp)

/-- `listed items` holds from the reading of the cart on, `placed` once the order is there. -/
structure Steps (token cartId : String) where
  listed : List CartItem → σ → Prop
  placed : σ → Prop
  inside : D.inside = afterListing
  listed_stable : ∀ {items s t}, D.calm s t → listed items s → listed items t
  placed_stable : ∀ {s t}, D.calm s t → placed s → placed t
  listed_idle : ∀ {items s}, listed items s → D.idle s
  findByToken : ∀ {s r t}, exec s (.findByToken token) r t → D.inv s →
    D.inv t ∧ D.calm s t ∧ (D.idle s → D.idle t) ∧
      ∀ cart, r = .ok (some cart) → cart.tokenHash = cartId
  listItems : ∀ {s r t}, exec s (.listItems cartId) r t → D.inv s →
    (D.lone (.listItems cartId) → D.idle s) →
    D.inv t ∧ D.calm s t ∧ (D.idle s → D.idle t) ∧
      ∀ items, r = .ok items → items ≠ [] → listed items t
  getCardById : ∀ {s id r t}, exec s (.getCardById id) r t → D.inv s →
    D.inv t ∧ D.calm s t ∧ ∀ card, r = .ok (some card) → card.id = id
  newUuid : ∀ {s r t}, exec s .newUuid r t → D.inv s → D.inv t ∧ D.calm s t
  checkout : ∀ {s buyerId currency items news contact r t},
    exec s (.checkout buyerId currency news contact) r t → D.inv s → listed items s →
    news.map kind = items.flatMap kinds →
    D.inv t ∧ (D.lone (.checkout buyerId currency news contact) = false → D.calm s t) ∧
      ((∃ e, r = .error e) ∧ D.idle t ∨ (∃ id, r = .ok id) ∧ placed t)
  clear : ∀ {s r t}, exec s (.clear cartId) r t → D.inv s → placed s →
    D.inv t ∧ (D.lone (.clear cartId) = false → D.calm s t) ∧ D.idle t

variable {exec D} {token cartId : String} (S : Steps exec D token cartId)
include S

/-- A call inside that changes nothing of interest. -/
theorem Steps.held_quiet {α : Type} {op : WebOp} {next : op.Res → WebProg α}
    {items : List CartItem} {s : σ} (hop : afterListing op)
    (hquiet : ∀ {t r u}, exec t op r u → D.inv t → D.inv u ∧ D.calm t u)
    (hs : S.listed items s)
    (hnext : ∀ {t r u}, exec t op r u → D.inv t → S.listed items u → Held exec D (next r) u) :
    Held exec D (.call op next) s := by
  intro t hst hi _ r u hx
  have hin : D.inside op := by
    rw [S.inside]
    exact hop
  obtain ⟨hu, hcalm⟩ := hquiet hx hi
  have hlisted := S.listed_stable hcalm (S.listed_stable (hst hin) hs)
  exact ⟨hu, fun _ => hcalm, fun _ _ => S.listed_idle hlisted, hnext hx hi hlisted⟩

theorem Steps.held_pushUnits {α : Type} {card : ProductView} {cartItem : CartItem} {n : Nat}
    {acc : List NewOrderItem} {items : List CartItem} {s : σ}
    {k : List NewOrderItem → WebM α} (hs : S.listed items s)
    (hk : ∀ (ids : List String) t, ids.length = n → S.listed items t →
      Held exec D (k (acc ++ ids.map (CheckoutPage.orderItem card cartItem))).run t) :
    Held exec D (CheckoutPage.pushUnits card cartItem n acc >>= k).run s := by
  induction n generalizing acc s with
  | zero =>
    have hnil := hk [] s rfl hs
    rw [List.map_nil, List.append_nil] at hnil
    exact hnil
  | succ n ih =>
    rw [CheckoutPage.pushUnits, bind_assoc, WebM.newUuid, WebM.run_call_bind]
    refine S.held_quiet rfl S.newUuid hs fun {_ id _} _ _ hlisted => ih hlisted ?_
    intro ids t hlen ht
    have hcons := hk (id :: ids) t (by rw [List.length_cons, hlen]) ht
    rw [List.map_cons, List.append_cons] at hcons
    exact hcons

theorem Steps.held_collect {α : Type} {cartItems : List CartItem} {acc : List NewOrderItem}
    {items : List CartItem} {s : σ} {k : List NewOrderItem → WebM α} (hs : S.listed items s)
    (hk : ∀ news t, news.map kind = cartItems.flatMap kinds → S.listed items t →
      Held exec D (k (acc ++ news)).run t) :
    Held exec D (CheckoutPage.collect cartItems acc >>= k).run s := by
  induction cartItems generalizing acc s with
  | nil =>
    have hnil := hk [] s rfl hs
    rw [List.append_nil] at hnil
    exact hnil
  | cons cartItem cartItems ih =>
    rw [CheckoutPage.collect, bind_assoc, WebM.getCardById, WebM.run_call_bind]
    refine S.held_quiet rfl (fun hx hi => ?_) hs fun {t r u} hx hi hlisted => ?_
    · obtain ⟨hu, hcalm, _⟩ := S.getCardById hx hi
      exact ⟨hu, hcalm⟩
    · cases r with
      | error e => trivial
      | ok found =>
        cases found with
        | none => trivial
        | some card =>
          have hid := (S.getCardById hx hi).2.2 card rfl
          change Held exec D ((CheckoutPage.pushUnits card cartItem cartItem.qty.toNat acc >>=
            CheckoutPage.collect cartItems) >>= k).run u
          rw [bind_assoc]
          refine S.held_pushUnits hlisted fun ids v hlen hv => ih hv fun news w hnews hw => ?_
          have hkinds : (ids.map (CheckoutPage.orderItem card cartItem) ++ news).map kind =
              (cartItem :: cartItems).flatMap kinds := by
            rw [List.map_append, List.flatMap_cons, hnews, kinds, ← hlen]
            simp [kind, CheckoutPage.orderItem, Function.comp_def, hid]
          rw [List.append_assoc]
          exact hk _ w hkinds hw

theorem Steps.held_placeOrder {app : AppState} {cart : Cart} {contact : NewOrderContact}
    {items : List CartItem} {news : List NewOrderItem} {s : σ} (hcart : cart.tokenHash = cartId)
    (hnews : news.map kind = items.flatMap kinds) (hs : S.listed items s) :
    Held exec D (CheckoutPage.placeOrder app cart contact news).run s := by
  cases news with
  | nil => trivial
  | cons first rest =>
    unfold CheckoutPage.placeOrder
    simp only
    split
    · trivial
    · rw [CheckoutPage.guestBuyerId, bind_assoc, WebM.newUuid, WebM.run_call_bind]
      refine S.held_quiet rfl S.newUuid hs fun {t guest u} _ _ hlisted => ?_
      change Held exec D (WebM.checkout _ _ _ _ >>= _).run u
      rw [WebM.checkout, WebM.run_call_bind]
      intro v hst hi _ r w hx
      have hin : ∀ op, afterListing op → D.inside op := by
        rw [S.inside]
        exact fun _ h => h
      have hv := S.listed_stable (hst (hin _ rfl)) hlisted
      obtain ⟨hw, hcalm, ⟨⟨e, rfl⟩, hidle⟩ | ⟨⟨id, rfl⟩, hplaced⟩⟩ := S.checkout hx hi hv hnews
      · exact ⟨hw, hcalm, fun _ _ => hidle, trivial⟩
      · refine ⟨hw, hcalm, fun hout _ => ?_, ?_⟩
        · rw [show D.inside = afterListing from S.inside] at hout
          cases hout
        · change Held exec D (WebM.clear _ >>= _).run w
          rw [WebM.clear, WebM.run_call_bind, hcart]
          intro x hst hi _ r y hx
          obtain ⟨hy, hcalm, hidle⟩ := S.clear hx hi (S.placed_stable (hst (hin _ rfl)) hplaced)
          refine ⟨hy, hcalm, fun _ _ => hidle, ?_⟩
          cases r <;> trivial

theorem Steps.not_inside {op : WebOp} (h : afterListing op = false) {s : σ}
    (hor : D.inside op ∨ D.idle s) : D.idle s := by
  rw [S.inside, h] at hor
  exact hor.resolve_left Bool.false_ne_true

theorem Steps.held_submitItems {app : AppState} {cart : Cart} {form : ContactForm}
    {items : List CartItem} {s : σ} (hcart : cart.tokenHash = cartId)
    (hs : items ≠ [] → S.listed items s) :
    Held exec D (CheckoutPage.submitItems app cart form items).run s := by
  unfold CheckoutPage.submitItems
  split
  · trivial
  · rename_i hne
    have hlisted := hs fun hnil => hne (List.isEmpty_iff.mpr hnil)
    split
    · trivial
    · exact S.held_collect hlisted fun _ _ hnews ht => S.held_placeOrder hcart hnews ht

/-- The whole handler, from any state. -/
theorem Steps.held_submit {app : AppState} {headers : HeaderMap} {form : ContactForm}
    (htoken : CartCookie.extractCartToken headers = some token) (s : σ) :
    Held exec D (CheckoutPage.submit app headers form) s := by
  have hfind : CheckoutPage.findCart headers = WebM.findByToken token := by
    unfold CheckoutPage.findCart
    rw [htoken]
  refine Held.map _ ?_
  rw [CheckoutPage.renderSubmit, hfind, WebM.findByToken, WebM.run_call_bind]
  intro t _ hi _ r u hx
  obtain ⟨hu, hcalm, hidle, hcart⟩ := S.findByToken hx hi
  refine ⟨hu, fun _ => hcalm, fun _ hor => hidle (S.not_inside rfl hor), ?_⟩
  cases r with
  | error e => trivial
  | ok found =>
    cases found with
    | none => trivial
    | some cart =>
      have hid := hcart cart rfl
      change Held exec D (WebM.listItems _ >>= _).run u
      rw [WebM.listItems, WebM.run_call_bind, hid]
      intro v _ hi hlone r w hx
      obtain ⟨hw, hcalm, hidle, hlisted⟩ :=
        S.listItems hx hi fun hl => S.not_inside rfl (hlone hl)
      refine ⟨hw, fun _ => hcalm, fun _ hor => hidle (S.not_inside rfl hor), ?_⟩
      cases r with
      | error e => trivial
      | ok items => exact S.held_submitItems hid (hlisted items rfl)

end Handler

/-! ## Entering -/

def isListing : WebOp → Bool
  | .listItems _ => true
  | _ => false

section Calls
variable {P : WebOp → Prop} (h : ∀ op, afterListing op → P op)
open WebM (calls_bind calls_call)
include h

theorem calls_pushUnits {card : ProductView} {cartItem : CartItem} {n : Nat}
    {acc : List NewOrderItem} : (CheckoutPage.pushUnits card cartItem n acc).run.Calls P := by
  induction n generalizing acc with
  | zero => trivial
  | succ n ih => exact calls_bind (calls_call (h _ rfl)) fun _ => ih

theorem calls_collect {cartItems : List CartItem} {acc : List NewOrderItem} :
    (CheckoutPage.collect cartItems acc).run.Calls P := by
  induction cartItems generalizing acc with
  | nil => trivial
  | cons cartItem cartItems ih =>
    refine calls_bind (calls_call (h _ rfl)) fun found => ?_
    cases found with
    | none => trivial
    | some card => exact calls_bind (calls_pushUnits h) fun _ => ih

theorem calls_placeOrder {app : AppState} {cart : Cart} {contact : NewOrderContact}
    {items : List NewOrderItem} : (CheckoutPage.placeOrder app cart contact items).run.Calls P := by
  unfold CheckoutPage.placeOrder
  split
  · trivial
  · split
    · trivial
    · refine calls_bind (calls_bind (calls_call (h _ rfl)) fun _ => trivial) fun _ => ?_
      refine calls_bind (calls_call (h _ rfl)) fun _ => ?_
      exact calls_bind (calls_call (h _ rfl)) fun _ => trivial

theorem calls_submitItems {app : AppState} {cart : Cart} {form : ContactForm}
    {items : List CartItem} : (CheckoutPage.submitItems app cart form items).run.Calls P := by
  unfold CheckoutPage.submitItems
  split
  · trivial
  · split
    · trivial
    · exact calls_bind (calls_collect h) fun _ => calls_placeOrder h

end Calls

/-- A checkout gets to its later calls by reading the cart, and in no other way. -/
theorem entersBy_submit (app : AppState) (headers : HeaderMap) (form : ContactForm) :
    (CheckoutPage.submit app headers form).within afterListing = false ∧
      (CheckoutPage.submit app headers form).EntersBy afterListing isListing := by
  have hrender : (CheckoutPage.renderSubmit app headers form).run.within afterListing = false ∧
      (CheckoutPage.renderSubmit app headers form).run.EntersBy afterListing isListing := by
    rw [CheckoutPage.renderSubmit, WebM.run_bind]
    unfold CheckoutPage.findCart
    split
    · exact ⟨rfl, trivial⟩
    · refine ⟨rfl, fun r => ?_⟩
      cases r with
      | error e => exact ⟨fun hw => absurd hw Bool.false_ne_true, trivial⟩
      | ok found =>
        cases found with
        | none => exact ⟨fun hw => absurd hw Bool.false_ne_true, trivial⟩
        | some cart =>
          refine ⟨fun hw => absurd hw Bool.false_ne_true, entersBy_of_calls ?_⟩
          refine WebM.calls_bind (WebM.calls_call (Or.inr rfl)) fun items => ?_
          exact calls_submitItems fun op hop => Or.inl hop
  exact ⟨(Prog.within_map _ _).trans hrender.1, entersBy_map _ hrender.2⟩

end Overlap

end TinyShop
