import TinyShop.CartPage
import TinyShop.CartStore
import TinyShop.Checkout

/-!
# Requests that are turned away

A `POST /cart/add` that does not end on the cart should leave no trace. It does leave a new
and empty cart behind if it fails after `get_or_create_cart`.
-/

namespace TinyShop

open Base
set_option autoImplicit false

namespace RejectedAdd
open CartPage CartStore

/-- `cart_items.cart_id REFERENCES carts(token_hash)`. -/
def ItemsInCarts (db : OrdersDb) : Prop :=
  ∀ r ∈ db.cartItems.rows, (db.carts.find? r.cartId).isSome

/-- The cart that the cookie of a request names. -/
def cartOf (hashToken : String → String) (db : OrdersDb) (headers : HeaderMap) : Option Cart :=
  (CartCookie.extractCartToken headers).bind (CartRepo.findByToken db hashToken)

/-- The request creates a cart with the token `raw`. -/
structure Creates (hashToken : String → String) (s : Site) (headers : HeaderMap) (form : AddForm)
    (card : ProductView) (raw : String) : Prop where
  card : SqliteCatalogSearch.getCardBySlug s.catalog form.slug = some card
  cart : cartOf hashToken s.orders headers = none
  token : Site.isToken raw
  free : s.orders.carts.find? (hashToken raw) = none

/-- Nothing fails any more once the cart is there. -/
structure Safe (hashToken : String → String) (faults : WebOp → Prop) (form : AddForm)
    (card : ProductView) (raw : String) : Prop where
  qty : InRange form.qty
  listed : ¬faults (.listItems (hashToken raw))
  added : ¬faults (.addItem (hashToken raw) (newItem card form.qty))

section Repository
variable {db : OrdersDb} {cartId : String} {item : NewCartItem}

theorem addItem_invalid (h : ¬InRange item.qty) (now : Int64) :
    CartRepo.addItem db cartId item now = .error (.invalidQty item.qty) := by
  unfold CartRepo.addItem
  unfold InRange at h
  rw [dif_pos]
  omega

/-- An item without a variant is added to every cart that exists. -/
theorem addItem_valid (h : InRange item.qty) (hvariant : item.variantId = none)
    (hcart : (db.carts.find? cartId).isSome) (now : Int64) :
    ∃ db', CartRepo.addItem db cartId item now = .ok db' := by
  have hpos : 0 < item.qty := h.1
  obtain ⟨db', hdb'⟩ : ∃ db', CartRepo.insertItem db cartId item hpos now = .ok db' := by
    unfold CartRepo.insertItem
    simp only [hvariant, hcart, Option.any_none, if_true, Bool.false_eq_true, if_false]
    split <;> exact ⟨_, rfl⟩
  refine ⟨CartRepo.touchCart db' cartId now, ?_⟩
  unfold CartRepo.addItem
  unfold InRange at h
  rw [dif_neg (by omega), hdb']

theorem createCart_free {hashToken : String → String} {raw : String} {now : Int64}
    (free : db.carts.find? (hashToken raw) = none) :
    CartRepo.createCart db hashToken raw now =
      .ok ({ db with carts := db.carts.insert (CartRepo.newCart (hashToken raw) now) free }, ⟨raw⟩,
        CartRepo.newCart (hashToken raw) now) := dif_pos free

end Repository

section Handler
variable {hashToken : String → String} {faults : WebOp → Prop} {app : AppState}
  {headers : HeaderMap} {form : AddForm} {card : ProductView} {cart : Cart}
  {newToken : Option String} {s t u : Site}

/-- From the cart on, a request fails without a trace or ends on the cart. -/
theorem addTo_runs {r : Except WebError Response}
    (h : Runs (Site.exec hashToken faults) (addTo app form card cart newToken).run u r t) :
    (∃ e, r = .error e) ∧ t = u ∨ r = .ok (redirectToCart app newToken) := by
  obtain ⟨listed, v, hlist, h⟩ := WebM.runs_bind h
  obtain ⟨answer, hexec, rfl⟩ := WebM.runs_call hlist
  obtain ⟨rfl, rfl | ⟨e, rfl⟩⟩ := Site.exec_listItems hexec
  · simp only [Except.mapError, WebM.after] at h
    split at h
    · obtain ⟨rfl, rfl⟩ := WebM.runs_throw h
      exact Or.inl ⟨⟨_, rfl⟩, rfl⟩
    · obtain ⟨added, w, hadd, h⟩ := WebM.runs_bind h
      obtain ⟨answer, hexec, rfl⟩ := WebM.runs_call hadd
      rcases Site.exec_addItem hexec with ⟨rfl, e, rfl⟩ | ⟨now, db, _, rfl, _⟩
      · obtain ⟨rfl, rfl⟩ := WebM.runs_after_error h
        exact Or.inl ⟨⟨_, rfl⟩, rfl⟩
      · exact Or.inr (WebM.runs_pure h).1
  · obtain ⟨rfl, rfl⟩ := WebM.runs_after_error h
    exact Or.inl ⟨⟨_, rfl⟩, rfl⟩

theorem location_redirectToCart : (redirectToCart app newToken).location = some "/cart" := by
  cases newToken <;> rfl

/-- In a new cart nothing is left that could fail. -/
theorem addTo_safe {raw : String} {r : Except WebError Response}
    (hcart : cart.tokenHash = hashToken raw)
    (hempty : CartRepo.listItems u.orders cart.tokenHash = [])
    (hsome : (u.orders.carts.find? cart.tokenHash).isSome)
    (hsafe : Safe hashToken faults form card raw)
    (h : Runs (Site.exec hashToken faults) (addTo app form card cart newToken).run u r t) :
    r = .ok (redirectToCart app newToken) := by
  obtain ⟨listed, v, hlist, h⟩ := WebM.runs_bind h
  obtain ⟨answer, hexec, rfl⟩ := WebM.runs_call hlist
  rcases hexec with ⟨rfl, rfl⟩ | ⟨hfault, _⟩
  · simp only [Except.mapError, WebM.after, hempty, List.head?_nil, Option.any_none,
      Bool.false_eq_true, if_false] at h
    obtain ⟨added, w, hadd, h⟩ := WebM.runs_bind h
    obtain ⟨answer, hexec, rfl⟩ := WebM.runs_call hadd
    rcases hexec with ⟨now, hout⟩ | ⟨hfault, _⟩
    · have hqty : InRange (newItem card form.qty).qty := hsafe.qty
      obtain ⟨db', hdb'⟩ := addItem_valid hqty rfl hsome now
      rw [hdb'] at hout
      obtain ⟨rfl, rfl⟩ := hout
      exact (WebM.runs_pure h).1
    · rw [hcart] at hfault
      exact absurd hfault hsafe.added
  · rw [hcart] at hfault
    exact absurd hfault hsafe.listed

/-- Whatever is left to fail can fail. -/
theorem addTo_unsafe (app : AppState) (newToken : Option String) {raw : String}
    (hcart : cart.tokenHash = hashToken raw)
    (hempty : CartRepo.listItems u.orders cart.tokenHash = [])
    (hfailing : ¬Safe hashToken faults form card raw) :
    ∃ e, Runs (Site.exec hashToken faults) (addTo app form card cart newToken).run u (.error e) u := by
  by_cases hlist : faults (.listItems (hashToken raw))
  · have hfailed : Site.exec hashToken faults u (.listItems cart.tokenHash)
        (.error (.db (.other ""))) u := by
      rw [hcart]
      exact Or.inr ⟨hlist, ⟨_, rfl⟩, rfl⟩
    have hlisted : Runs (Site.exec hashToken faults) (WebM.listItems cart.tokenHash).run u
        (.error (.ofCart (.db (.other "")))) u := .call hfailed (.pure _ _)
    exact ⟨_, WebM.runs_bind_error hlisted⟩
  · have hanswered : Site.exec hashToken faults u (.listItems cart.tokenHash) (.ok []) u := by
      rw [← hempty]
      exact Or.inl ⟨rfl, rfl⟩
    have hlisted : Runs (Site.exec hashToken faults) (WebM.listItems cart.tokenHash).run u
        (.ok []) u := .call hanswered (.pure _ _)
    obtain ⟨e, hfailed⟩ : ∃ e, Site.exec hashToken faults u
        (.addItem cart.tokenHash (newItem card form.qty)) (.error e) u := by
      by_cases hadd : faults (.addItem (hashToken raw) (newItem card form.qty))
      · rw [hcart]
        exact ⟨.db (.other ""), Or.inr ⟨hadd, ⟨_, rfl⟩, rfl⟩⟩
      · have hqty : ¬InRange (newItem card form.qty).qty := fun hqty => hfailing ⟨hqty, hlist, hadd⟩
        refine ⟨.invalidQty form.qty, Or.inl ⟨0, ?_⟩⟩
        rw [addItem_invalid hqty]
        exact ⟨rfl, rfl⟩
    have hadded : Runs (Site.exec hashToken faults)
        (WebM.addItem cart.tokenHash (newItem card form.qty)).run u (.error (.ofCart e)) u :=
      .call hfailed (.pure _ _)
    refine ⟨.ofCart e, WebM.runs_bind_ok hlisted ?_⟩
    exact WebM.runs_bind_error hadded

theorem findCart_runs {r : Except WebError (Option Cart)}
    (h : Runs (Site.exec hashToken faults) (findCart headers).run s r t) :
    t = s ∧ (r = .ok (cartOf hashToken s.orders headers) ∨ ∃ e, r = .error e) := by
  unfold findCart CheckoutPage.findCart at h
  unfold cartOf
  split at h
  · rename_i hnone
    obtain ⟨rfl, rfl⟩ := WebM.runs_pure h
    rw [hnone]
    exact ⟨rfl, Or.inl rfl⟩
  · rename_i raw hraw
    obtain ⟨answer, hexec, rfl⟩ := WebM.runs_call h
    rw [hraw]
    obtain ⟨rfl, rfl | ⟨e, rfl⟩⟩ := Site.exec_findByToken hexec
    · exact ⟨rfl, Or.inl rfl⟩
    · exact ⟨rfl, Or.inr ⟨_, rfl⟩⟩

theorem findCart_answered (s : Site) (headers : HeaderMap) :
    Runs (Site.exec hashToken faults) (findCart headers).run s
      (.ok (cartOf hashToken s.orders headers)) s := by
  unfold findCart CheckoutPage.findCart cartOf
  cases CartCookie.extractCartToken headers with
  | none => exact .pure _ _
  | some raw =>
    have hfound : Site.exec hashToken faults s (.findByToken raw)
        (.ok (CartRepo.findByToken s.orders hashToken raw)) s := Or.inl ⟨rfl, rfl⟩
    exact .call hfound (.pure _ _)

theorem listItems_of_free {raw : String} (hdb : ItemsInCarts s.orders)
    (free : s.orders.carts.find? (hashToken raw) = none) :
    CartRepo.listItems s.orders (hashToken raw) = [] := by
  refine List.filter_eq_nil_iff.mpr fun r hr hcart => ?_
  have hsome := hdb r hr
  rw [of_decide_eq_true hcart, free] at hsome
  cases hsome

/-- The site with a new cart. -/
def withCart (hashToken : String → String) (s : Site) (raw : String) (now : Int64)
    (free : s.orders.carts.find? (hashToken raw) = none) : Site :=
  { s with orders := { s.orders with
      carts := s.orders.carts.insert (CartRepo.newCart (hashToken raw) now) free } }

/-- The cart is found, or it is new. -/
theorem getOrCreateCart_runs {r : Except WebError (Cart × Option String)}
    (h : Runs (Site.exec hashToken faults) (getOrCreateCart headers).run s r t) :
    t = s ∧ ((∃ e, r = .error e) ∨ ∃ cart, r = .ok (cart, none)) ∨
      cartOf hashToken s.orders headers = none ∧ ∃ raw now free, Site.isToken raw ∧
        r = .ok (CartRepo.newCart (hashToken raw) now, some raw) ∧
        t = withCart hashToken s raw now free := by
  obtain ⟨found, u, hfind, hrest⟩ := WebM.runs_bind h
  obtain ⟨rfl, rfl | ⟨e, rfl⟩⟩ := findCart_runs hfind
  · cases hold : cartOf hashToken u.orders headers with
    | some cart =>
      rw [hold] at hrest
      obtain ⟨rfl, rfl⟩ := WebM.runs_pure hrest
      exact Or.inl ⟨rfl, Or.inr ⟨cart, rfl⟩⟩
    | none =>
      rw [hold] at hrest
      obtain ⟨created, v, hcreate, hend⟩ := WebM.runs_bind hrest
      obtain ⟨answer, hexec, rfl⟩ := WebM.runs_call hcreate
      rcases hexec with ⟨raw, now, htoken, hout⟩ | ⟨_, ⟨e, rfl⟩, rfl⟩
      · by_cases free : u.orders.carts.find? (hashToken raw) = none
        · rw [createCart_free free] at hout
          obtain ⟨rfl, rfl⟩ := hout
          obtain ⟨rfl, rfl⟩ := WebM.runs_pure hend
          exact Or.inr ⟨rfl, raw, now, free, htoken, rfl, rfl⟩
        · rw [CartRepo.createCart, dif_neg free] at hout
          obtain ⟨rfl, rfl⟩ := hout
          obtain ⟨rfl, rfl⟩ := WebM.runs_after_error hend
          exact Or.inl ⟨rfl, Or.inl ⟨_, rfl⟩⟩
      · obtain ⟨rfl, rfl⟩ := WebM.runs_after_error hend
        exact Or.inl ⟨rfl, Or.inl ⟨_, rfl⟩⟩
  · obtain ⟨rfl, rfl⟩ := WebM.runs_after_error hrest
    exact Or.inl ⟨rfl, Or.inl ⟨_, rfl⟩⟩

/-- A request that does not create a cart, or cannot fail afterwards, leaves no trace when it
is turned away. -/
theorem untouched_of_safe (hdb : ItemsInCarts s.orders)
    (hsafe : ∀ card raw, Creates hashToken s headers form card raw →
      Safe hashToken faults form card raw)
    {r : Except WebError Response}
    (h : Runs (Site.exec hashToken faults) (renderAdd app headers form).run s r t) :
    t.orders = s.orders ∨ ∃ newToken, r = .ok (redirectToCart app newToken) := by
  obtain ⟨found, u, hcard, hrest⟩ := WebM.runs_bind h
  obtain ⟨answer, hexec, rfl⟩ := WebM.runs_call hcard
  obtain ⟨rfl, rfl | ⟨e, rfl⟩⟩ := Site.exec_getCardBySlug hexec
  · cases hview : SqliteCatalogSearch.getCardBySlug u.catalog form.slug with
    | none =>
      rw [hview] at hrest
      obtain ⟨rfl, rfl⟩ := WebM.runs_pure hrest
      exact Or.inl rfl
    | some card =>
      rw [hview] at hrest
      obtain ⟨given, v, hcart, hadd⟩ := WebM.runs_bind hrest
      rcases getOrCreateCart_runs hcart with ⟨rfl, ⟨e, rfl⟩ | ⟨cart, rfl⟩⟩ |
        ⟨hnone, raw, now, free, htoken, rfl, rfl⟩
      · obtain ⟨rfl, rfl⟩ := WebM.runs_after_error hadd
        exact Or.inl rfl
      · rcases addTo_runs hadd with ⟨_, rfl⟩ | hr
        · exact Or.inl rfl
        · exact Or.inr ⟨none, hr⟩
      · have hsome : ((withCart hashToken u raw now free).orders.carts.find?
            (hashToken raw)).isSome := by
          have hnew : (CartRepo.newCart (hashToken raw) now).tokenHash = hashToken raw := rfl
          rw [withCart, Table.find?_of_append rfl, if_pos hnew]
          rfl
        have hcreates : Creates hashToken u headers form card raw := ⟨hview, hnone, htoken, free⟩
        exact Or.inr ⟨some raw, addTo_safe rfl (listItems_of_free hdb free) hsome
          (hsafe card raw hcreates) hadd⟩
  · obtain ⟨rfl, rfl⟩ := WebM.runs_after_error hrest
    exact Or.inl rfl

/-- The cart stays behind when the request fails after it has created it. -/
theorem left_of_unsafe (app : AppState) (hdb : ItemsInCarts s.orders) {raw : String}
    (hcreates : Creates hashToken s headers form card raw)
    (hfailing : ¬Safe hashToken faults form card raw) :
    ∃ e t, Runs (Site.exec hashToken faults) (renderAdd app headers form).run s (.error e) t ∧
      t.orders.carts ≠ s.orders.carts := by
  let cart : Cart := CartRepo.newCart (hashToken raw) 0
  let u : Site := withCart hashToken s raw 0 hcreates.free
  have hempty : CartRepo.listItems s.orders (hashToken raw) = [] := listItems_of_free hdb hcreates.free
  obtain ⟨e, hrun⟩ : ∃ e, Runs (Site.exec hashToken faults)
      (addTo app form card cart (some raw)).run u (.error e) u :=
    addTo_unsafe app (some raw) rfl hempty hfailing
  have hview : Site.exec hashToken faults s (.getCardBySlug form.slug) (.ok (some card)) s := by
    rw [← hcreates.card]
    exact Or.inl ⟨rfl, rfl⟩
  have hcard : Runs (Site.exec hashToken faults) (WebM.getCardBySlug form.slug).run s
      (.ok (some card)) s := .call hview (.pure _ _)
  have hfind : Runs (Site.exec hashToken faults) (findCart headers).run s (.ok none) s :=
    hcreates.cart ▸ findCart_answered s headers
  have hnew : Site.exec hashToken faults s .createCart (.ok (⟨raw⟩, cart)) u := by
    refine Or.inl ⟨raw, 0, hcreates.token, ?_⟩
    rw [createCart_free hcreates.free]
    exact ⟨rfl, rfl⟩
  have hcreate : Runs (Site.exec hashToken faults) WebM.createCart.run s (.ok (⟨raw⟩, cart)) u :=
    .call hnew (.pure _ _)
  have hcart : Runs (Site.exec hashToken faults) (getOrCreateCart headers).run s
      (.ok (cart, some raw)) u := by
    refine WebM.runs_bind_ok hfind ?_
    refine WebM.runs_bind_ok hcreate ?_
    exact .pure _ _
  refine ⟨e, u, WebM.runs_bind_ok hcard ?_, fun heq => ?_⟩
  · exact WebM.runs_bind_ok hcart hrun
  · have hrows : s.orders.carts.rows ++ [cart] = s.orders.carts.rows := congrArg Table.rows heq
    exact List.cons_ne_nil _ _ (List.append_right_eq_self.mp hrows)

/-- A request that is turned away leaves carts and items as they were if and only if none
that creates a cart can fail afterwards: its quantity is in range, and the database does not
fail. -/
theorem rejected_add_iff (hdb : ItemsInCarts s.orders) :
    (∀ response t, Runs (Site.exec hashToken faults) (add app headers form) s response t →
      response.location ≠ some "/cart" →
        t.orders.carts = s.orders.carts ∧ t.orders.cartItems = s.orders.cartItems) ↔
      ∀ card raw, Creates hashToken s headers form card raw → Safe hashToken faults form card raw := by
  constructor
  · intro h card raw hcreates
    by_contra hfailing
    obtain ⟨e, t, hrun, hleft⟩ := left_of_unsafe app hdb hcreates hfailing
    refine hleft (h _ t (runs_bind_iff.mpr ⟨_, _, hrun, .pure _ _⟩) ?_).1
    rw [Response.ofResult, CheckoutPage.location_failed]
    simp
  · intro hsafe response t hrun hlocation
    obtain ⟨r, u, hrun, h⟩ := runs_bind_iff.mp hrun
    obtain ⟨rfl, rfl⟩ := runs_pure_iff.mp h
    rcases untouched_of_safe hdb hsafe hrun with hsame | ⟨newToken, rfl⟩
    · rw [hsame]
      exact ⟨rfl, rfl⟩
    · exact absurd location_redirectToCart hlocation

end Handler

section Script
open CheckoutPage (shopRow noFault)

/-- No carts yet, and one product. -/
def scriptSite : Site where
  orders := .empty
  catalog :=
    { projection := ((∅ : ProjectionTable).insert? (shopRow "p" 100)).getD ∅
      attrIndex := ∅
      fts := []
      attributes := ∅ }
  issued := []

def scriptRun (qty : Int) : Option (Response × Site) :=
  (add ⟨"https://shop"⟩ [] { slug := "p", qty := qty }).eval (Site.answer id noFault) scriptSite

theorem itemsInCarts_scriptSite : ItemsInCarts scriptSite.orders := fun r hr => by cases hr

theorem rejected_add_iff_script :
    (scriptRun 999).map (fun x => (x.1.status, x.2.orders.cartItems.rows.map CartItem.qty)) =
        some (303, [999]) ∧
      ∀ response t, Runs (Site.exec id fun _ => False)
        (add ⟨"https://shop"⟩ [] { slug := "p", qty := 999 }) scriptSite response t →
        response.location ≠ some "/cart" →
          t.orders.carts = scriptSite.orders.carts ∧ t.orders.cartItems = scriptSite.orders.cartItems := by
  refine ⟨by decide, (rejected_add_iff itemsInCarts_scriptSite).mpr fun card raw _ => ?_⟩
  exact ⟨by unfold InRange; decide, not_false, not_false⟩

/-- A thousand units are too many, and the cart that was created for them is still there. -/
theorem cart_left : ∃ response t, Runs (Site.exec id fun _ => False)
    (add ⟨"https://shop"⟩ [] { slug := "p", qty := 1000 }) scriptSite response t ∧
      response.status = 400 ∧ response.location ≠ some "/cart" ∧
      scriptSite.orders.carts.rows = [] ∧ t.orders.carts.rows.length = 1 := by
  have hresult : (scriptRun 1000).map (fun x => (x.1.status, x.1.location,
      x.2.orders.carts.rows.length)) = some (400, none, 1) := by decide
  obtain ⟨⟨response, t⟩, heval, hanswer⟩ := Option.map_eq_some_iff.mp hresult
  obtain ⟨hstatus, hrest⟩ := Prod.mk.inj hanswer
  obtain ⟨hlocation, hcarts⟩ := Prod.mk.inj hrest
  have hrun : Runs (Site.exec id fun _ => False)
      (add ⟨"https://shop"⟩ [] { slug := "p", qty := 1000 }) scriptSite response t := by
    refine runs_of_eval (fun s op r u h => ?_) heval
    exact Site.exec_mono (fun _ hfault => Bool.false_ne_true hfault) (Site.exec_of_answer h)
  exact ⟨response, t, hrun, hstatus, by rw [hlocation]; simp, rfl, hcarts⟩

end Script

end RejectedAdd

end TinyShop
