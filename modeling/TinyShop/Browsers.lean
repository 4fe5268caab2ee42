import TinyShop.Base.Clients
import TinyShop.CartStore
import TinyShop.CookieHeader
import TinyShop.Pages

/-!
# Browsers

Any number of browsers, each with its cookies and any number of requests on their way. All that
links a browser with a cart is the cookie, and it leads to no cart but those that were made
for this browser.
-/

namespace TinyShop

open Base
set_option autoImplicit false

namespace CartCookie

/-- `Max-Age=0` deletes the cookie. -/
def expires (setCookie : String) : Bool :=
  (Text.split ';' setCookie.toList []).any fun part => Text.trim part = "Max-Age=0".toList

/-- The cart of a browser after a response. -/
def stored (old : Option (List UInt8)) : Option String → Option (List UInt8)
  | none => old
  | some setCookie => if expires setCookie then none else some (keptPair setCookie)

/-- The headers of a request: the cart, unless the browser leaves it out, among other cookies. -/
def Sends (jar : Option (List UInt8)) (headers : HeaderMap) : Prop :=
  ∃ (before after : List Cookie) (sent : Option (List UInt8)), (∀ pair ∈ sent, jar = some pair) ∧
    headers.lookup "cookie" =
      match before.map Cookie.pair ++ sent.toList ++ after.map Cookie.pair with
      | [] => none
      | pairs => some (cookieHeader pairs)

end CartCookie

namespace Browsers
open CartCookie
variable {B : Type}

/-- What a browser asks for. -/
inductive Request where
  | add (form : AddForm)
  | update (form : UpdateForm)
  | remove (form : RemoveForm)
  | submit (form : ContactForm)
  | showCart
  | showCheckout

inductive Reply where
  | response (r : Response)
  | answer (a : Answer)

def Reply.setCookie : Reply → Option String
  | .response r => r.setCookie
  | .answer _ => none

def Request.handle (app : AppState) (headers : HeaderMap) : Request → WebProg Reply
  | .add form => Reply.response <$> CartPage.add app headers form
  | .update form => Reply.response <$> CartPage.update app headers form
  | .remove form => Reply.response <$> CartPage.remove app headers form
  | .submit form => Reply.response <$> CheckoutPage.submit app headers form
  | .showCart => Reply.answer <$> CartPage.show headers
  | .showCheckout => Reply.answer <$> CheckoutPage.show headers

/-- The cookies are sent, the handler makes its calls, and the reply comes back. -/
inductive Op (B : Type) where
  | send (b : B)
  | call (b : B) (op : WebOp)
  | receive (b : B) (reply : Reply)

def Op.browser : Op B → B
  | .send b => b
  | .call b _ => b
  | .receive b _ => b

@[reducible] def Op.Res : Op B → Type
  | .send _ => HeaderMap
  | .call _ op => op.Res
  | .receive _ _ => Unit

def Request.exchange (app : AppState) (b : B) (request : Request) : Prog (Op B) Op.Res Unit :=
  .call (.send b) fun headers =>
    Prog.relabel Op.Res (Op.call b) (request.handle app headers) >>= fun reply =>
      .call (.receive b reply) fun _ => .pure ()

structure World (B : Type) where
  site : Site
  /-- The cart cookie of each browser. -/
  jar : B → Option (List UInt8)
  /-- Which cart was made for whom; nothing looks at it. -/
  made : List (B × String)

/-- The cart that a call has made. -/
def madeBy : (op : WebOp) → op.Res → Option String
  | .createCart, .ok (_, cart) => some cart.tokenHash
  | _, _ => none

section Exec
variable [DecidableEq B] (hashToken : String → String) (faults : WebOp → Prop)

def exec (w : World B) : (op : Op B) → op.Res → World B → Prop
  | .send b, headers, w' => Sends (w.jar b) headers ∧ w' = w
  | .call b op, r, w' => Site.exec hashToken faults w.site op r w'.site ∧ w'.jar = w.jar ∧
    w'.made = ((madeBy op r).map fun cartId => (b, cartId)).toList ++ w.made
  | .receive b reply, _, w' =>
    w' = { w with jar := Function.update w.jar b (stored (w.jar b) reply.setCookie) }

/-- Any request of any browser may start at any time, and any may be cut off. -/
def shop : System (World B) (Op B) Op.Res Unit where
  exec := exec hashToken faults
  env w w' := w'.site.orders = w.site.orders ∧ w'.jar = w.jar ∧ w'.made = w.made
  start _ p := ∃ app b request, p = Request.exchange app b request
  stop _ := True
  gate _ _ := True

end Exec

/-! ## Whose carts are touched -/

/-- The cart that a call looks at or writes to. -/
def cart? (hashToken : String → String) : WebOp → Option String
  | .findByToken raw => some (hashToken raw)
  | .addItem cartId _ => some cartId
  | .listItems cartId => some cartId
  | .updateQty cartId _ _ => some cartId
  | .removeItem cartId _ => some cartId
  | .clear cartId => some cartId
  | _ => none

section Step
variable {hashToken : String → String} {faults : WebOp → Prop} {s t : Site}

theorem cartStep_of_eq (a : String) {db db' : OrdersDb} (hcarts : db'.carts = db.carts)
    (hitems : db'.cartItems = db.cartItems) : CartStore.CartStep a db db' :=
  ⟨fun k hk => by rw [hcarts]; exact hk, fun _ _ => by rw [hcarts], .same hitems⟩

/-- A cart that is made is new. -/
theorem createCart_cases {r : Except CartError (CartToken × Cart)}
    (h : Site.exec hashToken faults s .createCart r t) :
    t = s ∧ (∃ e, r = .error e) ∨ ∃ token cart, r = .ok (token, cart) ∧
      Site.isToken token.raw = true ∧ cart.tokenHash = hashToken token.raw ∧
      s.orders.carts.find? cart.tokenHash = none ∧
      (t.orders.carts.find? cart.tokenHash).isSome = true ∧
      CartStore.CartStep cart.tokenHash s.orders t.orders := by
  rcases h with ⟨raw, now, htoken, hout⟩ | ⟨_, ⟨e, rfl⟩, rfl⟩
  · cases hrun : CartRepo.createCart s.orders hashToken raw now with
    | error e =>
      rw [hrun] at hout
      obtain ⟨rfl, rfl⟩ := hout
      exact Or.inl ⟨rfl, e, rfl⟩
    | ok out =>
      obtain ⟨db, token, cart⟩ := out
      have hstep := CartStore.createCart_step hrun
      rw [hrun] at hout
      obtain ⟨rfl, rfl⟩ := hout
      unfold CartRepo.createCart at hrun
      split at hrun
      · rename_i free
        obtain ⟨rfl, hpair⟩ := Prod.mk.inj (Except.ok.inj hrun)
        obtain ⟨rfl, rfl⟩ := Prod.mk.inj hpair
        refine Or.inr ⟨_, _, rfl, htoken, rfl, free, ?_, hstep⟩
        exact Option.isSome_iff_exists.mpr ⟨_, (Table.find?_insert _ _ free _).trans (if_pos rfl)⟩
      · cases hrun
  · exact Or.inl ⟨rfl, _, rfl⟩

/-- A call writes to no cart but the one that it names or makes. -/
theorem cartStep_of_exec {op : WebOp} {r : op.Res} (h : Site.exec hashToken faults s op r t) :
    (t.orders.carts = s.orders.carts ∧ t.orders.cartItems = s.orders.cartItems) ∨
      ∃ a, (cart? hashToken op = some a ∨ madeBy op r = some a) ∧
        CartStore.CartStep a s.orders t.orders := by
  cases op with
  | findByToken raw =>
    obtain ⟨rfl, _⟩ := Site.exec_findByToken h
    exact Or.inl ⟨rfl, rfl⟩
  | listItems cartId =>
    obtain ⟨rfl, _⟩ := Site.exec_listItems h
    exact Or.inl ⟨rfl, rfl⟩
  | getCardBySlug slug =>
    obtain ⟨rfl, _⟩ := Site.exec_getCardBySlug h
    exact Or.inl ⟨rfl, rfl⟩
  | getCardById id =>
    obtain ⟨rfl, _⟩ := Site.exec_getCardById h
    exact Or.inl ⟨rfl, rfl⟩
  | newUuid =>
    obtain ⟨_, rfl⟩ := Site.exec_newUuid h
    exact Or.inl ⟨rfl, rfl⟩
  | createCart =>
    rcases createCart_cases h with ⟨rfl, _⟩ | ⟨token, cart, rfl, _, _, _, _, hstep⟩
    · exact Or.inl ⟨rfl, rfl⟩
    · exact Or.inr ⟨_, Or.inr rfl, hstep⟩
  | addItem cartId item =>
    rcases Site.exec_addItem h with ⟨rfl, _⟩ | ⟨now, db, hrun, _, rfl⟩
    · exact Or.inl ⟨rfl, rfl⟩
    · exact Or.inr ⟨cartId, Or.inl rfl, CartStore.addItem_step hrun⟩
  | updateQty cartId itemId qty =>
    rcases Site.exec_updateQty h with ⟨rfl, _⟩ | ⟨now, db, hrun, _, rfl⟩
    · exact Or.inl ⟨rfl, rfl⟩
    · exact Or.inr ⟨cartId, Or.inl rfl, CartStore.updateQty_step hrun⟩
  | removeItem cartId itemId =>
    rcases Site.exec_removeItem h with ⟨now, _, rfl⟩ | ⟨_, rfl⟩
    · exact Or.inr ⟨cartId, Or.inl rfl, CartStore.removeItem_step _ cartId itemId now⟩
    · exact Or.inl ⟨rfl, rfl⟩
  | clear cartId =>
    rcases Site.exec_clear h with ⟨now, _, rfl⟩ | ⟨_, _, rfl⟩
    · exact Or.inr ⟨cartId, Or.inl rfl, CartStore.clear_step _ cartId now⟩
    · exact Or.inl ⟨rfl, rfl⟩
  | checkout buyerId currency items contact =>
    rcases Site.exec_checkout h with ⟨hsame, _⟩ | ⟨id, now, clock, db, _, _, hrun, rfl⟩
    · rw [hsame.orders]
      exact Or.inl ⟨rfl, rfl⟩
    · obtain ⟨_, _, _, hwritten⟩ := OrderRepo.checkout_ok hrun
      exact Or.inl ⟨hwritten.carts, hwritten.cartItems⟩

end Step

/-! ## What is owed -/

section Owed
variable (hashToken : String → String)

/-- A token that was made for the browser. -/
structure Held (w : World B) (b : B) (token : String) : Prop where
  letters : ∀ c ∈ token.toList, c.isAlphanum = true
  nonempty : token ≠ ""
  made : (b, hashToken token) ∈ w.made

structure Private (w : World B) : Prop where
  owner : ∀ {a b cartId}, (a, cartId) ∈ w.made → (b, cartId) ∈ w.made → a = b
  there : ∀ {b cartId}, (b, cartId) ∈ w.made → (w.site.orders.carts.find? cartId).isSome = true
  cookie : ∀ {b pair}, w.jar b = some pair → ∃ token, Held hashToken w b token ∧ pair = cartPair token

/-- What a reply may set. -/
def Given (w : World B) (b : B) (reply : Reply) : Prop :=
  ∀ setCookie ∈ reply.setCookie, expires setCookie = true ∨
    ∃ token secure, setCookie = setCartCookie token secure ∧ Held hashToken w b token

def Owed (w : World B) : Op B → Prop
  | .send _ => True
  | .call b op => ∀ cartId ∈ cart? hashToken op, (b, cartId) ∈ w.made
  | .receive b reply => Given hashToken w b reply

def Grows (w w' : World B) : Prop := w.made ⊆ w'.made

def contract : Contract (World B) (Op B) where
  inv := Private hashToken
  rely := Grows
  guar := Grows
  pre op w := Owed hashToken w op
  refl w := List.Subset.refl w.made
  trans h h' := List.Subset.trans h h'

end Owed

theorem stored_cases {old : Option (List UInt8)} {setCookie : Option String} {pair : List UInt8}
    (h : stored old setCookie = some pair) :
    old = some pair ∨ ∃ s, setCookie = some s ∧ expires s = false ∧ pair = keptPair s := by
  cases setCookie with
  | none => exact Or.inl h
  | some s =>
    cases hexpires : expires s with
    | true =>
      rw [stored, if_pos hexpires] at h
      cases h
    | false =>
      rw [stored, if_neg (by rw [hexpires]; decide)] at h
      exact Or.inr ⟨s, rfl, hexpires, (Option.some.inj h).symm⟩

theorem expires_expireCartCookie (secure : Bool) :
    expires (expireCartCookie secure) = true := by
  cases secure <;> decide +kernel

/-- No cart is found among other cookies. -/
theorem extractCartToken_others {headers : HeaderMap} {cookies : List Cookie}
    (h : headers.lookup "cookie" = some (cookieHeader (cookies.map Cookie.pair))) :
    extractCartToken headers = none := by
  rw [extractCartToken, h]
  change ((HeaderMap.toStr (cookieHeader _)).bind fun raw => _) = _
  rw [toStr_eq, all_cookieHeader]
  split
  · rename_i hvisible
    change (Text.split ';' (Utf8.ascii (cookieHeader _)) []).findSome? tokenOf = _
    rw [ascii_cookieHeader, findSome_split, List.findSome?_eq_none_iff]
    · intro p hp
      obtain ⟨pair, hpair, rfl⟩ := List.mem_map.mp hp
      obtain ⟨c, _, rfl⟩ := List.mem_map.mp hpair
      exact tokenOf_pair c
    · intro p hp
      obtain ⟨pair, hpair, rfl⟩ := List.mem_map.mp hp
      have hseen := List.all_eq_true.mp hvisible pair hpair
      obtain ⟨c, _, rfl⟩ := List.mem_map.mp hpair
      exact not_mem_pair c hseen
  · rfl

/-- The token that the server finds is that of the browser. -/
theorem token_of_sends {hashToken : String → String} {w : World B} {b : B} {headers : HeaderMap}
    {raw : String} (hw : Private hashToken w) (h : Sends (w.jar b) headers)
    (hraw : extractCartToken headers = some raw) : (b, hashToken raw) ∈ w.made := by
  obtain ⟨before, after, sent, hsent, hlookup⟩ := h
  have hnone : headers.lookup "cookie" = none → extractCartToken headers = none := by
    intro hlookup
    rw [extractCartToken, hlookup]
    rfl
  cases sent with
  | none =>
    rw [Option.toList_none, List.append_nil, ← List.map_append] at hlookup
    split at hlookup
    · rw [hnone hlookup] at hraw
      cases hraw
    · rw [extractCartToken_others hlookup] at hraw
      cases hraw
  | some pair =>
    obtain ⟨token, hheld, rfl⟩ := hw.cookie (hsent pair rfl)
    have hpairs : headers.lookup "cookie" = some (cookieHeader
        (before.map Cookie.pair ++ cartPair token :: after.map Cookie.pair)) := by
      rw [hlookup, Option.toList_some, List.append_assoc, List.singleton_append]
      split
      · rename_i hempty
        exact absurd hempty (by simp)
      · rfl
    rw [extractCartToken_eq hheld.letters hpairs hheld.nonempty] at hraw
    split at hraw
    · obtain rfl := Option.some.inj hraw
      exact hheld.made
    · cases hraw

/-! ## One call -/

section Sound
variable {hashToken : String → String} {faults : WebOp → Prop} {w w' : World B} {b : B}

theorem Held.mono {token : String} (h : Held hashToken w b token) (hw : Grows w w') :
    Held hashToken w' b token := ⟨h.letters, h.nonempty, hw h.made⟩

theorem Given.mono {reply : Reply} (h : Given hashToken w b reply) (hw : Grows w w') :
    Given hashToken w' b reply := by
  intro setCookie hset
  rcases h setCookie hset with hexpires | ⟨token, secure, heq, hheld⟩
  · exact Or.inl hexpires
  · exact Or.inr ⟨token, secure, heq, hheld.mono hw⟩

variable [DecidableEq B]

/-- Nothing that was made is forgotten. -/
theorem grows_of_call {op : WebOp} {r : op.Res}
    (h : exec hashToken faults w (.call b op) r w') : Grows w w' :=
  fun _ hx => h.2.2 ▸ List.mem_append_right _ hx

/-- What was made is there, and every new cart is that of the one who made it. -/
theorem private_of_call {op : WebOp} {r : op.Res} (hw : Private hashToken w)
    (h : exec hashToken faults w (.call b op) r w') :
    Private hashToken w' ∧ Grows w w' := by
  obtain ⟨hsite, hjar, hmade⟩ := h
  have hgrows : Grows w w' := grows_of_call ⟨hsite, hjar, hmade⟩
  have hkept : ∀ k, (w.site.orders.carts.find? k).isSome = true →
      (w'.site.orders.carts.find? k).isSome = true := by
    intro k hk
    rcases cartStep_of_exec hsite with ⟨hcarts, _⟩ | ⟨a, _, hstep⟩
    · rw [hcarts]
      exact hk
    · exact hstep.kept k hk
  have hcookie : ∀ {a pair}, w'.jar a = some pair →
      ∃ token, Held hashToken w' a token ∧ pair = cartPair token := by
    intro a pair hpair
    rw [hjar] at hpair
    obtain ⟨token, hheld, heq⟩ := hw.cookie hpair
    exact ⟨token, hheld.mono hgrows, heq⟩
  refine ⟨?_, hgrows⟩
  have hold : madeBy op r = none → Private hashToken w' := by
    intro hnone
    have hsame : w'.made = w.made := by
      rw [hmade, hnone]
      rfl
    exact ⟨fun ha hb => hw.owner (hsame ▸ ha) (hsame ▸ hb), fun hb => hkept _ (hw.there (hsame ▸ hb)),
      hcookie⟩
  cases op with
  | createCart =>
    rcases createCart_cases hsite with ⟨_, e, rfl⟩ | ⟨token, cart, rfl, _, _, hfree, hthere, _⟩
    · exact hold rfl
    · have hmem : ∀ {a cartId}, (a, cartId) ∈ w'.made →
          (a = b ∧ cartId = cart.tokenHash) ∨ (a, cartId) ∈ w.made := by
        intro a cartId ha
        rw [hmade] at ha
        rcases List.mem_cons.mp ha with heq | ha
        · exact Or.inl (Prod.mk.inj heq)
        · exact Or.inr ha
      have hnew : ∀ {a}, (a, cart.tokenHash) ∉ w.made := by
        intro a ha
        have hsome := hw.there ha
        rw [hfree] at hsome
        cases hsome
      refine ⟨fun {a c cartId} ha hc => ?_, fun {a cartId} ha => ?_, hcookie⟩
      · rcases hmem ha with ⟨rfl, rfl⟩ | ha <;> rcases hmem hc with ⟨rfl, hcart⟩ | hc
        · rfl
        · exact absurd hc hnew
        · exact absurd (hcart ▸ ha) hnew
        · exact hw.owner ha hc
      · rcases hmem ha with ⟨_, rfl⟩ | ha
        · exact hthere
        · exact hkept _ (hw.there ha)
  | _ => exact hold rfl

theorem sound_exec : (contract (B := B) hashToken).Sound (exec hashToken faults) where
  step := by
    intro w op r w' hw howed h
    cases op with
    | send b =>
      obtain ⟨_, rfl⟩ := h
      exact ⟨hw, List.Subset.refl _⟩
    | call b op => exact private_of_call hw h
    | receive b reply =>
      have hgrows : Grows w w' := by
        rw [show w' = _ from h]
        exact List.Subset.refl _
      have hold : ∀ {a pair}, w.jar a = some pair →
          ∃ token, Held hashToken w' a token ∧ pair = cartPair token := by
        intro a pair hpair
        obtain ⟨token, hheld, heq⟩ := hw.cookie hpair
        exact ⟨token, hheld.mono hgrows, heq⟩
      obtain rfl := h
      refine ⟨⟨hw.owner, hw.there, fun {a pair} hpair => ?_⟩, hgrows⟩
      by_cases hab : a = b
      · subst hab
        simp only [Function.update_self] at hpair
        rcases stored_cases hpair with hpair | ⟨setCookie, hset, hexpires, rfl⟩
        · exact hold hpair
        · rcases howed setCookie hset with hgone | ⟨token, secure, rfl, hheld⟩
          · rw [hgone] at hexpires
            cases hexpires
          · exact ⟨token, hheld.mono hgrows, keptPair_setCartCookie hheld.letters secure⟩
      · simp only [Function.update_of_ne hab] at hpair
        exact hold hpair
  rely := fun h => h

end Sound

/-! ## The requests -/

section Replies
variable {hashToken : String → String} {w : World B} {b : B} {app : AppState}

/-- A reply without a cookie. -/
theorem given_none {reply : Reply} (h : reply.setCookie = none) : Given hashToken w b reply := by
  intro setCookie hset
  rw [h] at hset
  cases hset

theorem setCookie_redirect (uri : String) : (Response.redirect uri).setCookie = none := by
  unfold Response.redirect
  split <;> rfl

theorem setCookie_error (e : WebError) : (e.intoResponse).setCookie = none := by
  cases e <;> rfl

/-- What a reply of a handler sets belongs to its browser. -/
def Gives (hashToken : String → String) (b : B) (r : Except WebError Response) (w : World B) : Prop :=
  Given hashToken w b (.response (Response.ofResult r))

theorem gives_error (e : WebError) (w : World B) : Gives hashToken b (.error e) w :=
  given_none (setCookie_error e)

theorem given_redirectToCart {newToken : Option String}
    (h : ∀ raw ∈ newToken, Held hashToken w b raw) :
    Given hashToken w b (.response (CartPage.redirectToCart app newToken)) := by
  cases newToken with
  | none => exact given_none (setCookie_redirect "/cart")
  | some raw =>
    intro setCookie hset
    exact Or.inr ⟨raw, app.secure, (Option.some.inj hset).symm, h raw rfl⟩

theorem setCookie_submitItems (app : AppState) (cart : Cart) (form : ContactForm)
    (items : List CartItem) : (CheckoutPage.submitItems app cart form items).run.Ends fun r =>
      ∀ w : World B, Gives hashToken b r w := by
  have herror : ∀ (e : WebError) (w : World B), Gives hashToken b (.error e) w := gives_error
  unfold CheckoutPage.submitItems
  split
  · exact fun w => given_none (setCookie_redirect "/cart")
  · split
    · exact fun w => given_none rfl
    · refine WebM.ends_bind herror fun orderItems => ?_
      unfold CheckoutPage.placeOrder
      split
      · exact herror _
      · split
        · exact herror _
        · refine WebM.ends_bind herror fun _ => WebM.ends_bind herror fun _ =>
            WebM.ends_bind herror fun _ => ?_
          intro w setCookie hset
          obtain rfl := Option.some.inj hset
          exact Or.inl (expires_expireCartCookie app.secure)

end Replies

section Requests
variable [DecidableEq B] {hashToken : String → String} {faults : WebOp → Prop} {w : World B} {b : B}
  {app : AppState} {headers : HeaderMap}

variable (hashToken faults b) in
/-- A handler at work for the browser. -/
abbrev Serves {α : Type} (post : α → World B → Prop) (p : WebProg α) (w : World B) : Prop :=
  Safe (fun w op r w' => exec hashToken faults w (.call b op) r w')
    ((contract hashToken).comap (Op.call b)) post p w

variable (hashToken faults b) in
theorem sound_serving : ((contract (B := B) hashToken).comap (Op.call b)).Sound
    fun w op r w' => exec hashToken faults w (.call b op) r w' :=
  sound_exec.comap

/-- The browser's token is the only one that the handler learns from the headers. -/
def Knows (hashToken : String → String) (w : World B) (b : B) (headers : HeaderMap) : Prop :=
  ∀ raw, extractCartToken headers = some raw → (b, hashToken raw) ∈ w.made

theorem serves_bind {α β : Type} {post : Except WebError β → World B → Prop} {p : WebM α}
    {f : α → WebM β} (hp : Serves hashToken faults b (fun r w' => ∀ a, r = .ok a →
      Serves hashToken faults b post (f a).run w') p.run w)
    (herror : ∀ e w', post (.error e) w') : Serves hashToken faults b post (p >>= f).run w := by
  rw [WebM.run_bind]
  refine safe_bind (hp.mono fun r w' hr => ?_)
  cases r with
  | error e => exact safe_pure fun w'' _ => herror e w''
  | ok a => exact hr a rfl

/-- A cart that is found by the cookie is the browser's own. -/
theorem serves_findCart (hknows : Knows hashToken w b headers) :
    Serves hashToken faults b (fun r w' => ∀ cart, r = .ok (some cart) →
      (b, cart.tokenHash) ∈ w'.made) (CheckoutPage.findCart headers).run w := by
  unfold CheckoutPage.findCart
  split
  · exact safe_pure fun _ _ cart hcart => by cases hcart
  · rename_i token htoken
    refine (sound_serving hashToken faults b).safe_call (fun w' hw' cartId hcart => ?_)
      fun w' r w'' hw' _ hx => ?_
    · obtain rfl := Option.some.inj hcart
      exact hw' (hknows token htoken)
    · have hmade : Grows w' w'' := grows_of_call hx
      refine safe_pure fun w₃ hw₃ cart hcart => ?_
      have hhash : cart.tokenHash = hashToken token := by
        obtain ⟨_, rfl | ⟨e, rfl⟩⟩ := Site.exec_findByToken hx.1
        · exact Table.key_of_find? (Except.ok.inj hcart)
        · cases hcart
      rw [hhash]
      exact hw₃ (hmade (hw' (hknows token htoken)))

theorem serves_getOrCreateCart (hknows : Knows hashToken w b headers) :
    Serves hashToken faults b (fun r w' => ∀ out, r = .ok out → (b, out.1.tokenHash) ∈ w'.made ∧
      ∀ raw ∈ out.2, Held hashToken w' b raw) (CartPage.getOrCreateCart headers).run w := by
  refine serves_bind ((serves_findCart hknows).mono fun r w' hr found hfound => ?_)
    fun e w' out hout => by cases hout
  cases found with
  | some cart =>
    refine safe_pure fun w'' hw'' out hout => ?_
    obtain rfl := Except.ok.inj hout
    refine ⟨hw'' (hr cart hfound), fun raw hraw => by cases hraw⟩
  | none =>
    refine serves_bind ((sound_serving hashToken faults b).safe_call
      (fun w'' _ cartId hcart => by cases hcart) fun w'' r w₃ _ _ hx => ?_)
      fun e w' out hout => by cases hout
    refine safe_pure fun w₄ hw₄ out hout => safe_pure fun w₅ hw₅ out' hout' => ?_
    obtain rfl := Except.ok.inj hout'
    rcases createCart_cases hx.1 with ⟨_, e, rfl⟩ | ⟨token, cart, rfl, htoken, hhash, _⟩
    · cases hout
    · obtain rfl := Except.ok.inj hout
      have hmem : (b, cart.tokenHash) ∈ w₃.made := by
        rw [hx.2.2]
        exact List.mem_cons_self
      have hlater : (b, cart.tokenHash) ∈ w₅.made := hw₅ (hw₄ hmem)
      refine ⟨hlater, fun raw hraw => ?_⟩
      obtain rfl := Option.some.inj hraw
      simp only [Site.isToken, Bool.and_eq_true, decide_eq_true_eq] at htoken
      refine ⟨List.all_eq_true.mp htoken.2, ?_, hhash ▸ hlater⟩
      rintro hempty
      rw [hempty] at htoken
      exact absurd htoken.1 (by decide)

theorem serves_call {α : Type} {op : WebOp} {result : op.Res → Except WebError α}
    (h : ∀ cartId ∈ cart? hashToken op, (b, cartId) ∈ w.made) :
    Serves hashToken faults b (fun _ w' => Grows w w') (WebM.call op result).run w :=
  (sound_serving hashToken faults b).safe_call (fun _ hw' cartId hcart => hw' (h cartId hcart))
    fun _ _ _ hw' _ hx => safe_pure fun _ hw'' =>
      List.Subset.trans (List.Subset.trans hw' (grows_of_call hx)) hw''

theorem serves_renderAdd (hknows : Knows hashToken w b headers) (form : AddForm) :
    Serves hashToken faults b (Gives hashToken b) (CartPage.renderAdd app headers form).run w := by
  have hother : ∀ cartId ∈ cart? hashToken (.getCardBySlug form.slug), (b, cartId) ∈ w.made :=
    fun _ hcart => by cases hcart
  refine serves_bind ((serves_call hother).mono fun _ w' hw' found _ => ?_) gives_error
  cases found with
  | none => exact safe_pure fun _ _ => given_none (setCookie_redirect _)
  | some card =>
    have hknows' : Knows hashToken w' b headers := fun raw hraw => hw' (hknows raw hraw)
    refine serves_bind ((serves_getOrCreateCart hknows').mono fun _ w₁ hout out hok => ?_) gives_error
    obtain ⟨hcart, hheld⟩ := hout out hok
    have hlist : ∀ cartId ∈ cart? hashToken (.listItems out.1.tokenHash), (b, cartId) ∈ w₁.made :=
      fun _ hmem => Option.some.inj hmem ▸ hcart
    refine serves_bind ((serves_call hlist).mono fun _ w₂ hw₂ items _ => ?_) gives_error
    split
    · exact safe_pure fun _ _ => gives_error _ _
    · have hadd : ∀ item, ∀ cartId ∈ cart? hashToken (.addItem out.1.tokenHash item),
          (b, cartId) ∈ w₂.made := fun _ _ hmem => Option.some.inj hmem ▸ hw₂ hcart
      refine serves_bind ((serves_call (hadd _)).mono fun _ w₃ hw₃ _ _ => ?_) gives_error
      refine safe_pure fun w₄ hw₄ => given_redirectToCart fun raw hraw => ?_
      exact (hheld raw hraw).mono (List.Subset.trans (List.Subset.trans hw₂ hw₃) hw₄)

/-- A change of the cart that the cookie leads to. -/
theorem serves_change (hknows : Knows hashToken w b headers) (op : Cart → WebOp)
    {result : ∀ cart, (op cart).Res → Except WebError Unit}
    (hop : ∀ cart, cart? hashToken (op cart) = some cart.tokenHash) :
    Serves hashToken faults b (Gives hashToken b) (do
      match ← CartPage.findCart headers with
      | none => return CartPage.redirectToCart app none
      | some cart => do
        WebM.call (op cart) (result cart)
        return CartPage.redirectToCart app none : WebM Response).run w := by
  refine serves_bind ((serves_findCart hknows).mono fun _ w' hfound found hok => ?_) gives_error
  have hnone : ∀ w' : World B, Given hashToken w' b
      (.response (CartPage.redirectToCart app none)) :=
    fun _ => given_redirectToCart fun _ hraw => by cases hraw
  cases found with
  | none => exact safe_pure fun w'' _ => hnone w''
  | some cart =>
    have hcart : ∀ cartId ∈ cart? hashToken (op cart), (b, cartId) ∈ w'.made := by
      intro cartId hmem
      rw [hop] at hmem
      exact Option.some.inj hmem ▸ hfound cart hok
    exact serves_bind ((serves_call hcart).mono fun _ _ _ _ _ => safe_pure fun w'' _ => hnone w'')
      gives_error

theorem serves_renderSubmit (hknows : Knows hashToken w b headers) (form : ContactForm) :
    Serves hashToken faults b (Gives hashToken b) (CheckoutPage.renderSubmit app headers form).run
      w := by
  refine serves_bind ((serves_findCart hknows).mono fun _ w₁ hfound found hok => ?_) gives_error
  cases found with
  | none => exact safe_pure fun _ _ => given_none (setCookie_redirect "/cart")
  | some cart =>
    have hcart := hfound cart hok
    have hlist : ∀ cartId ∈ cart? hashToken (.listItems cart.tokenHash), (b, cartId) ∈ w₁.made :=
      fun _ hmem => Option.some.inj hmem ▸ hcart
    refine serves_bind ((serves_call hlist).mono fun _ w₂ hw₂ items _ => ?_) gives_error
    refine (sound_serving hashToken faults b).safe_of_calls (CheckoutPage.calls_submitItems
      (fun _ _ _ _ hmem => by cases hmem) (fun _ _ _ hmem => by cases hmem)
      (fun _ _ _ _ _ _ _ hmem => by cases hmem) fun w₃ hw₃ cartId hmem => ?_)
      ((setCookie_submitItems app cart form items).mono fun r hr w₃ _ => hr w₃)
    exact Option.some.inj hmem ▸ hw₃ (hw₂ hcart)

theorem serves_cartItems (hknows : Knows hashToken w b headers) :
    Serves hashToken faults b (fun _ _ => True) (CheckoutPage.cartItems headers).run w := by
  refine serves_bind ((serves_findCart hknows).mono fun _ w₁ hfound found hok => ?_)
    fun _ _ => trivial
  cases found with
  | none => exact safe_pure fun _ _ => trivial
  | some cart =>
    have hlist : ∀ cartId ∈ cart? hashToken (.listItems cart.tokenHash), (b, cartId) ∈ w₁.made :=
      fun _ hmem => Option.some.inj hmem ▸ hfound cart hok
    exact (serves_call hlist).mono fun _ _ _ => trivial

theorem serves_render (hknows : Knows hashToken w b headers) :
    Serves hashToken faults b (fun _ _ => True) (CartPage.render headers).run w := by
  refine serves_bind ((serves_findCart hknows).mono fun _ w₁ hfound found hok => ?_)
    fun _ _ => trivial
  cases found with
  | none => exact safe_pure fun _ _ => trivial
  | some cart =>
    have hlist : ∀ cartId ∈ cart? hashToken (.listItems cart.tokenHash), (b, cartId) ∈ w₁.made :=
      fun _ hmem => Option.some.inj hmem ▸ hfound cart hok
    exact serves_bind ((serves_call hlist).mono fun _ _ _ _ _ => safe_pure fun _ _ => trivial)
      fun _ _ => trivial

/-- The reply of `render_…` under its handler. -/
theorem serves_response {p : WebM Response}
    (h : Serves hashToken faults b (Gives hashToken b) p.run w) :
    Serves hashToken faults b (fun reply w' => Given hashToken w' b reply)
      (Reply.response <$> (p.run >>= fun r => pure (Response.ofResult r))) w := by
  rw [map_eq_pure_bind]
  refine safe_bind (safe_bind (h.mono fun r w₁ hr => ?_))
  have hgiven : Given hashToken w₁ b (.response (Response.ofResult r)) := hr
  exact safe_pure fun w₂ hw₂ => safe_pure fun w₃ hw₃ =>
    hgiven.mono (List.Subset.trans hw₂ hw₃)

theorem serves_answer {α : Type} {p : WebM α}
    (h : Serves hashToken faults b (fun _ _ => True) p.run w) (f : Except WebError α → Answer) :
    Serves hashToken faults b (fun reply w' => Given hashToken w' b reply)
      (Reply.answer <$> (p.run >>= fun r => pure (f r))) w := by
  rw [map_eq_pure_bind]
  exact safe_bind (safe_bind (h.mono fun _ _ _ => safe_pure fun _ _ => safe_pure fun _ _ =>
    given_none rfl))

theorem serves_handle (hknows : Knows hashToken w b headers) (request : Request) :
    Serves hashToken faults b (fun reply w' => Given hashToken w' b reply)
      (request.handle app headers) w := by
  cases request with
  | add form => exact serves_response (serves_renderAdd hknows form)
  | update form =>
    exact serves_response (serves_change hknows
      (fun cart => .updateQty cart.tokenHash form.itemId form.qty) fun _ => rfl)
  | remove form =>
    exact serves_response (serves_change hknows
      (fun cart => .removeItem cart.tokenHash form.itemId) fun _ => rfl)
  | submit form => exact serves_response (serves_renderSubmit hknows form)
  | showCart => exact serves_answer (serves_render hknows) Answer.ofPage
  | showCheckout =>
    refine serves_answer (serves_bind ((serves_cartItems hknows).mono fun _ w₁ _ items _ => ?_)
      fun _ _ => trivial) Answer.ofResult
    split
    · exact safe_pure fun _ _ => trivial
    · exact safe_pure fun _ _ => trivial

/-- A request sends what the browser has and takes what was made for it. -/
theorem safe_exchange (app : AppState) (b : B) (request : Request) (w : World B) :
    Safe (exec hashToken faults) (contract hashToken) (fun _ _ => True)
      (request.exchange app b) w := by
  have hsound : (contract (B := B) hashToken).Sound (exec hashToken faults) := sound_exec
  refine hsound.safe_call (fun _ _ => trivial) fun w₁ headers w₂ _ hw₁ hx => ?_
  have hknows : Knows hashToken w₂ b headers := by
    obtain ⟨hsends, rfl⟩ := hx
    exact fun raw hraw => token_of_sends hw₁ hsends hraw
  refine safe_bind ((safe_relabel (serves_handle hknows request)).mono fun reply w₃ hgiven => ?_)
  exact hsound.safe_call (fun w₄ hw₄ => Given.mono hgiven hw₄)
    fun _ _ _ _ _ _ => safe_pure fun _ _ => trivial

end Requests

/-! ## Every run -/

section Runs
variable {hashToken : String → String} {faults : WebOp → Prop} {w w' : World B} {a : B}

/-- What `a` has is as it was. -/
structure Undisturbed (a : B) (w w' : World B) : Prop where
  jar : w'.jar a = w.jar a
  made : ∀ cartId, (a, cartId) ∈ w.made → (a, cartId) ∈ w'.made
  items : ∀ cartId, (a, cartId) ∈ w.made →
    CartRepo.listItems w'.site.orders cartId = CartRepo.listItems w.site.orders cartId
  row : ∀ cartId, (a, cartId) ∈ w.made →
    w'.site.orders.carts.find? cartId = w.site.orders.carts.find? cartId

theorem Undisturbed.refl (a : B) (w : World B) : Undisturbed a w w :=
  ⟨rfl, fun _ h => h, fun _ _ => rfl, fun _ _ => rfl⟩

theorem Undisturbed.trans {w'' : World B} (h : Undisturbed a w w') (h' : Undisturbed a w' w'') :
    Undisturbed a w w'' where
  jar := h'.jar.trans h.jar
  made cartId hmade := h'.made cartId (h.made cartId hmade)
  items cartId hmade := (h'.items cartId (h.made cartId hmade)).trans (h.items cartId hmade)
  row cartId hmade := (h'.row cartId (h.made cartId hmade)).trans (h.row cartId hmade)

theorem undisturbed_of_env (h : w'.site.orders = w.site.orders ∧ w'.jar = w.jar ∧ w'.made = w.made) :
    Undisturbed a w w' := by
  obtain ⟨horders, hjar, hmade⟩ := h
  refine ⟨by rw [hjar], fun _ hx => hmade ▸ hx, fun _ _ => by rw [horders], fun _ _ => by rw [horders]⟩

variable [DecidableEq B]

/-- A call of another browser, made as it is owed. -/
theorem undisturbed_of_exec {op : Op B} {r : op.Res} (hw : Private hashToken w)
    (howed : Owed hashToken w op) (hop : op.browser ≠ a) (h : exec hashToken faults w op r w') :
    Undisturbed a w w' := by
  cases op with
  | send b =>
    obtain ⟨_, rfl⟩ := h
    exact .refl a _
  | receive b reply =>
    obtain rfl := h
    exact ⟨Function.update_of_ne (Ne.symm hop) _ _, fun _ h => h, fun _ _ => rfl, fun _ _ => rfl⟩
  | call b op =>
    have hmade := grows_of_call h
    obtain ⟨hsite, hjar, _⟩ := h
    rcases cartStep_of_exec hsite with ⟨hcarts, hitems⟩ | ⟨k, hk, hstep⟩
    · refine ⟨by rw [hjar], fun _ hx => hmade hx, fun cartId _ => ?_, fun cartId _ => by rw [hcarts]⟩
      unfold CartRepo.listItems
      rw [hitems]
    · have hne : ∀ cartId, (a, cartId) ∈ w.made → cartId ≠ k := by
        rintro cartId ha rfl
        rcases hk with hk | hk
        · exact hop (hw.owner (howed cartId hk) ha)
        · cases op with
          | createCart =>
            rcases createCart_cases hsite with ⟨_, e, rfl⟩ | ⟨token, cart, rfl, _, _, hfree, _, _⟩
            · cases hk
            · obtain rfl := Option.some.inj hk
              have hsome := hw.there ha
              rw [hfree] at hsome
              cases hsome
          | _ => cases hk
      exact ⟨by rw [hjar], fun _ hx => hmade hx,
        fun cartId ha => CartStore.listItems_other hstep (hne cartId ha),
        fun cartId ha => hstep.others cartId (hne cartId ha)⟩

/-- What is so of the carts in every configuration. -/
structure PrivateCarts (hashToken : String → String) (faults : WebOp → Prop)
    (c : Config (World B) (Op B) Op.Res Unit) : Prop where
  /-- Two browsers send no tokens of the same cart. -/
  apart : ∀ a b, a ≠ b → ∀ headers headers' raw raw', Sends (c.state.jar a) headers →
    Sends (c.state.jar b) headers' → extractCartToken headers = some raw →
    extractCartToken headers' = some raw' → hashToken raw ≠ hashToken raw'
  /-- A call that is about to be made is about a cart of its own browser. -/
  own : ∀ b op next, Prog.call (Op.call b op) next ∈ c.procs →
    ∀ cartId ∈ cart? hashToken op, (b, cartId) ∈ c.state.made
  /-- While a browser makes no call its carts stay as they are, whatever the others do. -/
  undisturbed : ∀ a d, ((shop hashToken faults).only fun op => op.browser ≠ a).Reachable c d →
    Undisturbed a c.state d.state

/-- Whatever the requests of the browsers do at the same time, a browser reads and changes only
the carts that were made for it, and no two browsers share one. -/
theorem carts_private {c : Config (World B) (Op B) Op.Res Unit} (hjar : ∀ b, w.jar b = none)
    (hmade : w.made = []) (hc : (shop hashToken faults).Reachable ⟨w, []⟩ c) :
    PrivateCarts hashToken faults c := by
  have hsound : (contract (B := B) hashToken).Sound (exec hashToken faults) := sound_exec
  have hinit : Private hashToken w := by
    refine ⟨fun {_ _ _} ha _ => ?_, fun {_ _} ha => ?_, fun {b pair} hpair => ?_⟩
    · rw [hmade] at ha
      cases ha
    · rw [hmade] at ha
      cases ha
    · rw [hjar] at hpair
      cases hpair
  have henv : ∀ u v, (shop (B := B) hashToken faults).env u v → Private hashToken u →
      Private hashToken v ∧ Grows u v := by
    rintro u v ⟨horders, hsame, hmade⟩ hu
    have hgrows : Grows u v := fun _ hx => hmade ▸ hx
    refine ⟨⟨fun ha hb => hu.owner (hmade ▸ ha) (hmade ▸ hb), fun hb => ?_, fun hpair => ?_⟩, hgrows⟩
    · rw [horders]
      exact hu.there (hmade ▸ hb)
    · rw [hsame] at hpair
      obtain ⟨token, hheld, heq⟩ := hu.cookie hpair
      exact ⟨token, hheld.mono hgrows, heq⟩
  have hstart : ∀ ps p, (shop (B := B) hashToken faults).start ps p → ∀ u,
      Safe (exec hashToken faults) (contract hashToken) (fun _ _ => True) p u := by
    rintro ps p ⟨app, b, request, rfl⟩ u
    exact safe_exchange app b request u
  obtain ⟨hnow, _⟩ := System.safe_of_reachable (C := contract hashToken) (fun _ _ h => h) henv hstart
    hc hinit (by simp)
  refine ⟨fun a b hne headers headers' raw raw' ha hb hraw hraw' heq => ?_,
    fun b op next hmem => ?_, fun a d hd => ?_⟩
  · have hleft := token_of_sends hnow ha hraw
    rw [heq] at hleft
    exact hne (hnow.owner hleft (token_of_sends hnow hb hraw'))
  · exact System.pre_of_reachable (C := contract hashToken) (fun _ _ h => h) henv hstart hc hinit hmem
  · exact System.frame_of_only (C := contract hashToken) (fun _ _ h => h) henv hstart
      (Undisturbed.refl a) Undisturbed.trans (fun _ _ hmoved => undisturbed_of_env hmoved)
      (fun u op r v hu howed hop hx => undisturbed_of_exec hu howed hop hx) hinit hc hd

end Runs

section Script
open CheckoutPage (scriptSite noFault)

def scriptHeaders (jar : Option (List UInt8)) : HeaderMap :=
  (jar.map fun pair => ("cookie", pair)).toList

theorem sends_scriptHeaders (jar : Option (List UInt8)) : Sends jar (scriptHeaders jar) := by
  refine ⟨[], [], jar, fun pair hpair => hpair, ?_⟩
  cases jar with
  | none => rfl
  | some pair => simp [scriptHeaders, cookieHeader]

/-- A token for each cart. -/
def scriptToken (w : World Bool) : String :=
  String.ofList (List.replicate 47 '0') ++ w.made.length.repr

/-- The world after a call that the site has answered. -/
def noted (w : World Bool) (b : Bool) (op : WebOp) (out : op.Res × Site) : op.Res × World Bool :=
  (out.1, { w with
    site := out.2
    made := ((madeBy op out.1).map fun cartId => (b, cartId)).toList ++ w.made })

def answer (w : World Bool) : (op : Op Bool) → Option (op.Res × World Bool)
  | .send b => some (scriptHeaders (w.jar b), w)
  | .call b .createCart =>
    if Site.isToken (scriptToken w) then some (noted w b .createCart
      (w.site.settle (CartRepo.createCart w.site.orders id (scriptToken w) 0)))
    else none
  | .call b op => (Site.answer id noFault w.site op).map (noted w b op)
  | .receive b reply =>
    some ((), { w with jar := Function.update w.jar b (stored (w.jar b) reply.setCookie) })

theorem exec_of_answer {w w' : World Bool} {op : Op Bool} {r : op.Res}
    (h : answer w op = some (r, w')) : exec id (fun _ => False) w op r w' := by
  cases op with
  | send b =>
    obtain ⟨rfl, rfl⟩ := Prod.mk.inj (Option.some.inj h)
    exact ⟨sends_scriptHeaders _, rfl⟩
  | receive b reply =>
    obtain ⟨-, rfl⟩ := Prod.mk.inj (Option.some.inj h)
    rfl
  | call b op =>
    by_cases hop : op = .createCart
    · subst hop
      simp only [answer] at h
      split at h
      · rename_i htoken
        obtain ⟨rfl, rfl⟩ := Prod.mk.inj (Option.some.inj h)
        exact ⟨Or.inl ⟨_, 0, htoken, Site.outcome_settle _ _⟩, rfl, rfl⟩
      · cases h
    · have hmap : answer w (.call b op) = (Site.answer id noFault w.site op).map (noted w b op) := by
        cases op with
        | createCart => exact absurd rfl hop
        | _ => rfl
      obtain ⟨out, hout, heq⟩ := Option.map_eq_some_iff.mp (hmap.symm.trans h)
      obtain ⟨rfl, rfl⟩ := Prod.mk.inj heq
      exact ⟨Site.exec_mono (fun _ hfault => Bool.false_ne_true hfault) (Site.exec_of_answer hout),
        rfl, rfl⟩

/-- Each of two browsers puts a product into a cart. -/
def scriptStart : World Bool := ⟨{ scriptSite with orders := .empty }, fun _ => none, []⟩

def addRequest (b : Bool) : Prog (Op Bool) Op.Res Unit :=
  (Request.add ⟨"p", 1⟩).exchange ⟨"https://shop"⟩ b

theorem reachable_requests : (shop id fun _ => False).Reachable ⟨scriptStart, []⟩
    ⟨scriptStart, [addRequest true, addRequest false]⟩ := by
  have hstart : ∀ ps b, (shop id fun _ => False).start ps (addRequest b) :=
    fun _ b => ⟨_, b, _, rfl⟩
  exact (Relation.ReflTransGen.single (.start (hstart [] false))).tail (.start (hstart _ true))

/-- Two browsers that take turns have a cart each. -/
theorem carts_private_script : ∃ c : Config (World Bool) (Op Bool) Op.Res Unit,
    (shop id fun _ => False).Reachable ⟨scriptStart, []⟩ c ∧ c.state.made.map Prod.fst = [false, true] ∧
      PrivateCarts id (fun _ => False) c := by
  have hanswers : System.Answers (fun _ => answer) (shop id fun _ => False) :=
    fun _ _ _ _ _ h => ⟨trivial, exec_of_answer h⟩
  have hrun := reachable_requests.trans
    (System.reachable_drive hanswers (List.replicate 10 [0, 1]).flatten _)
  exact ⟨_, hrun, rfl, carts_private (fun _ => rfl) rfl hrun⟩

end Script

end Browsers

end TinyShop
