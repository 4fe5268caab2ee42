import TinyShop.Base.Exclusion
import TinyShop.Base.Reliance
import TinyShop.CartPage
import TinyShop.Checkout

/-!
# The currency of a cart

Any number of `POST /cart/add`, `/cart/update` and `/cart/remove` requests. An add compares
its currency with the first item that it has read, and the item is inserted by a later call;
a cart keeps one currency as long as no add comes between the two with another one.
-/

namespace TinyShop

open Base
set_option autoImplicit false

namespace CartCurrency

/-- What `cart_table` takes for granted. -/
def OneCurrency (db : OrdersDb) : Prop := ∀ cartId, ∀ i ∈ CartRepo.listItems db cartId,
  ∀ j ∈ CartRepo.listItems db cartId, i.currency = j.currency

/-- An item that is added finds no item of another currency in the cart. -/
def need : WebOp → Site → Prop
  | .addItem cartId item, s => ∀ i ∈ CartRepo.listItems s.orders cartId, i.currency = item.currency
  | _, _ => True

/-- No item is added while another request, past its comparison, is about to add one of
another currency to the same cart. -/
def NoClash (others : List (WebProg Response)) : WebOp → Prop
  | .addItem cartId item => ∀ item' next, Prog.call (.addItem cartId item') next ∈ others →
    item'.currency = item.currency
  | _ => True

section Requests
variable (hashToken : String → String) (faults : WebOp → Prop)

/-- The catalog changes at any time, any call may fail, and any request may be cut off. -/
def requests (gate : List (WebProg Response) → WebOp → Prop) :
    System Site WebOp WebOp.Res Response where
  exec := Site.exec hashToken faults
  env s t := t.orders = s.orders
  start _ p := ∃ app headers, (∃ form, p = CartPage.add app headers form) ∨
    (∃ form, p = CartPage.update app headers form) ∨ ∃ form, p = CartPage.remove app headers form
  stop _ := True
  gate := gate

variable {hashToken faults} {s t : Site}

theorem mem_listItems {db : OrdersDb} {cartId : String} {i : CartItem} :
    i ∈ CartRepo.listItems db cartId ↔ i ∈ db.cartItems.rows ∧ i.cartId = cartId := by
  simp [CartRepo.listItems]

/-- Cart and currency of an item. -/
def tag (i : CartItem) : String × String := (i.cartId, i.currency)

theorem tags_delete {db : OrdersDb} {p : CartItem → Bool} {i : CartItem}
    (h : i ∈ (db.cartItems.delete p).rows) : ∃ j ∈ db.cartItems.rows, tag j = tag i := by
  rw [CartItems.rows_delete] at h
  exact ⟨i, List.mem_of_mem_filter h, rfl⟩

theorem tags_updateQty {db db' : OrdersDb} {cartId : String} {itemId qty : Int} {now : Int64}
    (h : CartRepo.updateQty db cartId itemId qty now = .ok db') {i : CartItem}
    (hi : i ∈ db'.cartItems.rows) : ∃ j ∈ db.cartItems.rows, tag j = tag i := by
  unfold CartRepo.updateQty at h
  split at h
  · cases h
  · obtain rfl := Except.ok.inj h
    rw [CartRepo.touchIf_cartItems] at hi
    split at hi
    · exact tags_delete hi
    · obtain ⟨j, hj, rfl⟩ := List.mem_map.mp hi
      refine ⟨j, hj, ?_⟩
      split <;> rfl

theorem tags_addItem {db db' : OrdersDb} {cartId : String} {item : NewCartItem} {now : Int64}
    (h : CartRepo.addItem db cartId item now = .ok db') {i : CartItem}
    (hi : i ∈ db'.cartItems.rows) :
    (∃ j ∈ db.cartItems.rows, tag j = tag i) ∨ tag i = (cartId, item.currency) := by
  rcases (CartRepo.addItem_ok h).2.2 with ⟨_, hrows⟩ | ⟨_, hrows⟩
  · rw [hrows] at hi
    rcases List.mem_append.mp hi with hi | hi
    · exact Or.inl ⟨i, hi, rfl⟩
    · rw [List.mem_singleton.mp hi]
      exact Or.inr rfl
  · rw [hrows] at hi
    obtain ⟨j, hj, rfl⟩ := List.mem_map.mp hi
    split
    · rename_i hline
      have hcart : j.cartId = cartId := congrArg Prod.fst hline
      right
      simp only [tag, CartRepo.merge, hcart]
    · exact Or.inl ⟨j, hj, rfl⟩

/-- A call brings a new currency into a cart only by adding an item. -/
theorem tags_of_exec {op : WebOp} {r : op.Res} (h : Site.exec hashToken faults s op r t)
    {i : CartItem} (hi : i ∈ t.orders.cartItems.rows) :
    (∃ j ∈ s.orders.cartItems.rows, tag j = tag i) ∨
      ∃ cartId item, op = .addItem cartId item ∧ tag i = (cartId, item.currency) := by
  cases op with
  | findByToken raw =>
    obtain ⟨rfl, _⟩ := Site.exec_findByToken h
    exact Or.inl ⟨i, hi, rfl⟩
  | listItems cartId =>
    obtain ⟨rfl, _⟩ := Site.exec_listItems h
    exact Or.inl ⟨i, hi, rfl⟩
  | getCardBySlug slug =>
    obtain ⟨rfl, _⟩ := Site.exec_getCardBySlug h
    exact Or.inl ⟨i, hi, rfl⟩
  | getCardById id =>
    obtain ⟨rfl, _⟩ := Site.exec_getCardById h
    exact Or.inl ⟨i, hi, rfl⟩
  | newUuid =>
    obtain ⟨_, rfl⟩ := Site.exec_newUuid h
    exact Or.inl ⟨i, hi, rfl⟩
  | createCart =>
    rw [(Site.exec_createCart h).2] at hi
    exact Or.inl ⟨i, hi, rfl⟩
  | addItem cartId item =>
    rcases Site.exec_addItem h with ⟨rfl, _⟩ | ⟨now, db, hrun, _, rfl⟩
    · exact Or.inl ⟨i, hi, rfl⟩
    · exact (tags_addItem hrun hi).imp id fun htag => ⟨cartId, item, rfl, htag⟩
  | updateQty cartId itemId qty =>
    rcases Site.exec_updateQty h with ⟨rfl, _⟩ | ⟨now, db, hrun, _, rfl⟩
    · exact Or.inl ⟨i, hi, rfl⟩
    · exact Or.inl (tags_updateQty hrun hi)
  | removeItem cartId itemId =>
    rcases Site.exec_removeItem h with ⟨now, _, rfl⟩ | ⟨_, rfl⟩
    · unfold CartRepo.removeItem at hi
      rw [CartRepo.touchIf_cartItems] at hi
      exact Or.inl (tags_delete hi)
    · exact Or.inl ⟨i, hi, rfl⟩
  | clear cartId =>
    rcases Site.exec_clear h with ⟨now, _, rfl⟩ | ⟨_, _, rfl⟩
    · unfold CartRepo.clear at hi
      rw [CartRepo.touchIf_cartItems] at hi
      exact Or.inl (tags_delete hi)
    · exact Or.inl ⟨i, hi, rfl⟩
  | checkout buyerId currency items contact =>
    rcases Site.exec_checkout h with ⟨hsame, _⟩ | ⟨id, now, clock, db, _, _, hrun, rfl⟩
    · rw [hsame.orders] at hi
      exact Or.inl ⟨i, hi, rfl⟩
    · obtain ⟨_, _, _, hwritten⟩ := OrderRepo.checkout_ok hrun
      rw [show _ = db.cartItems from rfl, hwritten.cartItems] at hi
      exact Or.inl ⟨i, hi, rfl⟩

theorem oneCurrency_iff {db : OrdersDb} : OneCurrency db ↔ ∀ i ∈ db.cartItems.rows,
    ∀ j ∈ db.cartItems.rows, i.cartId = j.cartId → i.currency = j.currency := by
  simp only [OneCurrency, mem_listItems]
  constructor
  · exact fun h i hi j hj hcart => h j.cartId i ⟨hi, hcart⟩ j ⟨hj, rfl⟩
  · exact fun h cartId i hi j hj => h i hi.1 j hj.1 (hi.2.trans hj.2.symm)

/-- A call that finds what it needs leaves one currency in each cart. -/
theorem oneCurrency_of_exec {op : WebOp} {r : op.Res} (hs : OneCurrency s.orders)
    (hneed : need op s) (h : Site.exec hashToken faults s op r t) : OneCurrency t.orders := by
  rw [oneCurrency_iff] at hs ⊢
  have hfresh : ∀ i j : CartItem, i.cartId = j.cartId →
      (∃ cartId item, op = .addItem cartId item ∧ tag i = (cartId, item.currency)) →
      (∃ k ∈ s.orders.cartItems.rows, tag k = tag j) → i.currency = j.currency := by
    rintro i j hcart ⟨cartId, item, rfl, htag⟩ ⟨k, hk, hkj⟩
    obtain ⟨hi, hcurrency⟩ := Prod.mk.inj htag
    obtain ⟨hkcart, hkcurrency⟩ := Prod.mk.inj hkj
    have hmem := mem_listItems.mpr ⟨hk, hkcart.trans (hcart.symm.trans hi)⟩
    rw [hcurrency, ← hkcurrency]
    exact (hneed k hmem).symm
  intro i hi j hj hcart
  rcases tags_of_exec h hi with ⟨k, hk, hki⟩ | hnew
  · rcases tags_of_exec h hj with ⟨l, hl, hlj⟩ | hnew
    · obtain ⟨hkcart, hkcurrency⟩ := Prod.mk.inj hki
      obtain ⟨hlcart, hlcurrency⟩ := Prod.mk.inj hlj
      rw [← hkcurrency, ← hlcurrency]
      exact hs k hk l hl (hkcart.trans (hcart.trans hlcart.symm))
    · exact (hfresh j i hcart.symm hnew ⟨k, hk, hki⟩).symm
  · rcases tags_of_exec h hj with hold | ⟨cartId, item, rfl, htag⟩
    · exact hfresh i j hcart hnew hold
    · obtain ⟨cartId', item', heq, htag'⟩ := hnew
      obtain ⟨rfl, rfl⟩ := WebOp.addItem.inj heq
      exact (Prod.mk.inj htag').2.trans (Prod.mk.inj htag).2.symm

/-- What the others are about to add still fits. -/
theorem need_of_exec {others : List (WebProg Response)} {op : WebOp} {r : op.Res}
    (hgate : NoClash others op) (h : Site.exec hashToken faults s op r t) {other : WebOp}
    {next : other.Res → WebProg Response} (hother : Prog.call other next ∈ others)
    (hneed : need other s) : need other t := by
  cases other with
  | addItem cartId item =>
    intro i hi
    obtain ⟨hmem, hcart⟩ := mem_listItems.mp hi
    rcases tags_of_exec h hmem with ⟨j, hj, htag⟩ | ⟨cartId', item', rfl, htag⟩
    · obtain ⟨hjcart, hjcurrency⟩ := Prod.mk.inj htag
      rw [← hjcurrency]
      exact hneed j (mem_listItems.mpr ⟨hj, hjcart.trans hcart⟩)
    · obtain ⟨hicart, hicurrency⟩ := Prod.mk.inj htag
      obtain rfl := hcart.symm.trans hicart
      rw [hicurrency]
      exact (hgate item next hother).symm
  | _ => trivial

/-! ## The requests -/

theorem supplied_bind_web {α β : Type} {p : WebM α} {f : α → WebM β}
    (hp : p.run.Calls fun op => ∀ s, need op s)
    (hf : ∀ a s, Supplied (Site.exec hashToken faults) (fun s => OneCurrency s.orders) need
      (f a).run s) (s : Site) :
    Supplied (Site.exec hashToken faults) (fun s => OneCurrency s.orders) need (p >>= f).run s := by
  rw [WebM.run_bind]
  refine supplied_bind hp (fun a s => ?_) s
  cases a with
  | error e => trivial
  | ok a => exact hf a s

/-- The first item speaks for all. -/
theorem need_of_listItems {cartId : String} {item : NewCartItem} (hs : OneCurrency s.orders)
    (hfirst : ¬(CartRepo.listItems s.orders cartId).head?.any fun existing =>
      existing.currency ≠ item.currency) : need (.addItem cartId item) s := by
  intro i hi
  cases hlist : CartRepo.listItems s.orders cartId with
  | nil =>
    rw [hlist] at hi
    cases hi
  | cons first rest =>
    have hmem : first ∈ CartRepo.listItems s.orders cartId := hlist ▸ List.mem_cons_self
    rw [hlist] at hfirst
    have hcurrency : first.currency = item.currency := by simpa using hfirst
    exact (hs cartId i hi first hmem).trans hcurrency

theorem supplied_addTo (app : AppState) (form : AddForm) (card : ProductView) (cart : Cart)
    (newToken : Option String) (s : Site) : Supplied (Site.exec hashToken faults)
      (fun s => OneCurrency s.orders) need (CartPage.addTo app form card cart newToken).run s := by
  unfold CartPage.addTo WebM.listItems
  rw [WebM.run_call_bind]
  refine ⟨trivial, fun t r u ht _ hx => ?_⟩
  obtain ⟨rfl, rfl | ⟨e, rfl⟩⟩ := Site.exec_listItems hx
  · simp only [Except.mapError, WebM.after]
    split
    · trivial
    · rename_i hfirst
      unfold WebM.addItem
      rw [WebM.run_call_bind]
      refine ⟨need_of_listItems ht hfirst, fun _ r v _ _ _ => ?_⟩
      cases r <;> trivial
  · trivial

theorem supplied_add (app : AppState) (headers : HeaderMap) (form : AddForm) (s : Site) :
    Supplied (Site.exec hashToken faults) (fun s => OneCurrency s.orders) need
      (CartPage.add app headers form) s := by
  have hcard : (WebM.getCardBySlug form.slug).run.Calls fun op => ∀ s, need op s :=
    WebM.calls_call fun _ => trivial
  refine Supplied.map Response.ofResult (supplied_bind_web hcard (fun found s => ?_) s)
  cases found with
  | none => trivial
  | some card =>
    have hcalls : (CartPage.getOrCreateCart headers).run.Calls fun op => ∀ s, need op s :=
      CartPage.calls_getOrCreateCart (fun _ _ => trivial) fun _ => trivial
    exact supplied_bind_web hcalls (fun found s => supplied_addTo app form card found.1 found.2 s) s

theorem supplied_start {gate : List (WebProg Response) → WebOp → Prop}
    {ps : List (WebProg Response)} {p : WebProg Response}
    (h : (requests hashToken faults gate).start ps p) (s : Site) :
    Supplied (Site.exec hashToken faults) (fun s => OneCurrency s.orders) need p s := by
  obtain ⟨app, headers, ⟨form, rfl⟩ | ⟨form, rfl⟩ | ⟨form, rfl⟩⟩ := h
  · exact supplied_add app headers form s
  · exact supplied_of_calls (CartPage.calls_update (fun _ _ => trivial) fun _ _ _ _ => trivial) s
  · exact supplied_of_calls (CartPage.calls_remove (fun _ _ => trivial) fun _ _ _ => trivial) s

/-- Every cart keeps one currency, as long as no two adds with different currencies are both
past their comparison when the first of them adds its item. -/
theorem cart_currency {d : Config Site WebOp WebOp.Res Response} (hs : OneCurrency s.orders)
    (h : (requests hashToken faults NoClash).Reachable ⟨s, []⟩ d) : OneCurrency d.state.orders := by
  have hcall : ∀ others s op r t, NoClash others op → OneCurrency s.orders → need op s →
      Site.exec hashToken faults s op r t → OneCurrency t.orders ∧
        ∀ other next, Prog.call other next ∈ others → need other s → need other t :=
    fun others s op r t hgate hi hneed hx =>
      ⟨oneCurrency_of_exec hi hneed hx, fun other next hm => need_of_exec hgate hx hm⟩
  have henv : ∀ s t : Site, t.orders = s.orders → OneCurrency s.orders →
      OneCurrency t.orders ∧ ∀ op, need op s → need op t := by
    intro s t he hi
    refine ⟨he ▸ hi, fun op hneed => ?_⟩
    cases op with
    | addItem cartId item =>
      change ∀ i ∈ CartRepo.listItems t.orders cartId, i.currency = item.currency
      rw [he]
      exact hneed
    | _ => trivial
  exact (System.supplied_of_reachable hcall henv (fun ps p hstart s => supplied_start hstart s)
    h hs (by simp)).1

end Requests

section Script
open CheckoutPage (scriptHeaders shopRow noFault)

/-- An empty cart, and products in two currencies. -/
def scriptSite : Site where
  orders := OrdersDb.script id [.createCart "t"]
  catalog :=
    { projection := (((∅ : ProjectionTable).insert? (shopRow "p" 100)).bind fun table =>
        table.insert? { shopRow "q" 250 with currency := "USD" }).getD ∅
      attrIndex := ∅
      fts := []
      attributes := ∅ }
  issued := []

theorem oneCurrency_scriptSite : OneCurrency scriptSite.orders := by
  rw [oneCurrency_iff]
  decide

def addRequest (slug : String) : WebProg Response :=
  CartPage.add ⟨"https://shop"⟩ scriptHeaders { slug := slug }

def twoAdds : Config Site WebOp WebOp.Res Response := ⟨scriptSite, [addRequest "p", addRequest "q"]⟩

theorem reachable_twoAdds (gate : List (WebProg Response) → WebOp → Prop) :
    (requests id (fun _ => False) gate).Reachable ⟨scriptSite, []⟩ twoAdds := by
  have hstart : ∀ ps slug, (requests id (fun _ => False) gate).start ps (addRequest slug) :=
    fun _ _ => ⟨_, _, Or.inl ⟨_, rfl⟩⟩
  exact (Relation.ReflTransGen.single (.start (hstart [] "q"))).tail (.start (hstart _ "p"))

def aboutToAdd : WebOp → Bool
  | .addItem _ _ => true
  | _ => false

theorem exec_of_answer {s t : Site} {op : WebOp} {r : op.Res}
    (h : Site.answer id noFault s op = some (r, t)) : Site.exec id (fun _ => False) s op r t :=
  Site.exec_mono (fun _ hfault => Bool.false_ne_true hfault) (Site.exec_of_answer h)

/-- Nobody adds an item while another request is about to. -/
def inTurn : List (WebProg Response) → (s : Site) → (op : WebOp) → Option (op.Res × Site) :=
  System.waiting aboutToAdd aboutToAdd (Site.answer id noFault)

theorem answers_inTurn : System.Answers inTurn (requests id (fun _ => False) NoClash) := by
  refine System.answers_waiting (fun others op h => ?_) fun _ _ _ _ => exec_of_answer
  cases op with
  | addItem cartId item =>
    intro item' next hm
    have hnot := h rfl _ hm
    cases hnot
  | _ => trivial

def freely : List (WebProg Response) → (s : Site) → (op : WebOp) → Option (op.Res × Site) :=
  System.waiting aboutToAdd (fun _ => false) (Site.answer id noFault)

theorem answers_freely : System.Answers freely (requests id (fun _ => False) fun _ _ => True) :=
  System.answers_waiting (fun _ _ _ => trivial) fun _ _ _ _ => exec_of_answer

/-- The second request is told that its currency is another one. -/
theorem cart_currency_script : ∃ d : Config Site WebOp WebOp.Res Response,
    (requests id (fun _ => False) NoClash).Reachable ⟨scriptSite, []⟩ d ∧
      (CartRepo.listItems d.state.orders "t").map CartItem.currency = ["UAH"] ∧
      OneCurrency d.state.orders := by
  have hreach := (reachable_twoAdds NoClash).trans
    (System.reachable_drive answers_inTurn [0, 0, 0, 0, 1, 1, 1, 1] twoAdds)
  exact ⟨_, hreach, rfl, cart_currency oneCurrency_scriptSite hreach⟩

/-- Both requests read the empty cart before either of them adds its item. -/
theorem two_currencies : ∃ d : Config Site WebOp WebOp.Res Response,
    OneCurrency scriptSite.orders ∧
      (requests id (fun _ => False) fun _ _ => True).Reachable ⟨scriptSite, []⟩ d ∧
      (CartRepo.listItems d.state.orders "t").map CartItem.currency = ["UAH", "USD"] ∧
      ¬OneCurrency d.state.orders := by
  have hreach := (reachable_twoAdds fun _ _ => True).trans
    (System.reachable_drive answers_freely [0, 1, 0, 1, 0, 1, 0, 1] twoAdds)
  refine ⟨_, oneCurrency_scriptSite, hreach, rfl, ?_⟩
  rw [oneCurrency_iff]
  decide

end Script

end CartCurrency

end TinyShop
