import TinyShop.DoubleSubmit

/-!
# Adding to a cart that is being ordered

Any number of `POST /cart/add` and `POST /checkout` requests with one cart token. The
last call of a checkout empties the cart as it is then, with what was added since it
was read; if nothing is added meanwhile, each unit stays in the cart or is ordered. A cart
can be ordered twice, so what is taken out of it is looked for in one order, and in another
one each time.
-/

namespace TinyShop

open Base
set_option autoImplicit false

namespace AddDuringCheckout
open Overlap (afterListing kind kinds)

/-! ## Counting units -/

/-- Product and variant, as the index on the lines of a cart tells them apart. -/
abbrev Key := String × String

def keyOf (productId : String) (variantId : Option String) : Key := (productId, variantId.getD "")

def added (items : List NewCartItem) (key : Key) : Int :=
  ((items.filter fun i => keyOf i.productId i.variantId = key).map NewCartItem.qty).sum

def inCart (rows : List CartItem) (cartId : String) (key : Key) : Int :=
  ((rows.filter fun r => r.line = (cartId, key)).map CartItem.qty).sum

def ordered (rows : List OrderItem) (key : Key) : Int :=
  rows.countP fun i => keyOf i.productId i.variantId = key

/-- What the positions that a checkout has read ask for. -/
def asked (items : List CartItem) (key : Key) : Int :=
  ((items.filter fun r => keyOf r.productId r.variantId = key).map CartItem.qty).sum

theorem asked_listItems (db : OrdersDb) (cartId : String) (key : Key) :
    asked (CartRepo.listItems db cartId) key = inCart db.cartItems.rows cartId key := by
  unfold asked inCart CartRepo.listItems
  rw [List.filter_filter]
  congr 2
  apply List.filter_congr
  intro r _
  have hline : r.line = (cartId, key) ↔ r.cartId = cartId ∧ keyOf r.productId r.variantId = key :=
    Prod.mk.injEq _ _ _ _ ▸ Iff.rfl
  rw [Bool.and_comm, ← Bool.decide_and, decide_eq_decide]
  exact hline.symm

theorem count_kinds {items : List CartItem} (h : ∀ r ∈ items, 0 < r.qty) (key : Key) :
    ((items.flatMap kinds).countP fun k => keyOf k.1 k.2 = key : Int) = asked items key := by
  induction items with
  | nil => rfl
  | cons r items ih =>
    have hr := h r List.mem_cons_self
    have hrest := ih fun s hs => h s (List.mem_cons_of_mem _ hs)
    unfold asked at hrest ⊢
    rw [List.flatMap_cons, List.countP_append, Int.natCast_add, hrest, kinds, List.countP_replicate,
      List.filter_cons]
    by_cases hkey : keyOf r.productId r.variantId = key
    · simp [hkey]
      omega
    · simp [hkey]

theorem ordered_append (rows more : List OrderItem) (key : Key) :
    ordered (rows ++ more) key = ordered rows key + ordered more key := by
  unfold ordered
  rw [List.countP_append, Int.natCast_add]

theorem ordered_nonneg (rows : List OrderItem) (key : Key) : 0 ≤ ordered rows key :=
  Int.natCast_nonneg _

theorem ordered_mono {rows rows' : List OrderItem} (h : rows <+: rows') (key : Key) :
    ordered rows key ≤ ordered rows' key := by
  obtain ⟨more, rfl⟩ := h
  have hmore := ordered_nonneg more key
  rw [ordered_append]
  omega

/-- The rows of one order. -/
def ofOrder (orderId : String) (rows : List OrderItem) : List OrderItem :=
  rows.filter fun i => i.orderId = orderId

theorem ordered_ofOrder_le (orderId : String) (rows : List OrderItem) (key : Key) :
    ordered (ofOrder orderId rows) key ≤ ordered rows key :=
  Int.ofNat_le.mpr (List.Sublist.countP_le List.filter_sublist)

theorem ordered_ofOrder_drop {rows rows' : List OrderItem} (h : rows <+: rows') (orderId : String)
    (n : Nat) (key : Key) :
    ordered (ofOrder orderId (rows.drop n)) key ≤ ordered (ofOrder orderId (rows'.drop n)) key := by
  obtain ⟨more, rfl⟩ := h
  unfold ofOrder
  rw [List.drop_append, List.filter_append]
  exact ordered_mono (List.prefix_append _ _) key

/-- The rows of the order count as what the positions asked for. -/
theorem ordered_news {items : List CartItem} {news : List NewOrderItem} (orderId : String)
    (h : ∀ r ∈ items, 0 < r.qty) (hnews : news.map kind = items.flatMap kinds) (key : Key) :
    ordered (ofOrder orderId (news.map (OrderRepo.itemRow orderId))) key = asked items key := by
  have hall : ofOrder orderId (news.map (OrderRepo.itemRow orderId)) =
      news.map (OrderRepo.itemRow orderId) := by
    refine List.filter_eq_self.mpr fun i hi => ?_
    obtain ⟨item, _, rfl⟩ := List.mem_map.mp hi
    exact decide_eq_true rfl
  have hcount := count_kinds h key
  rw [← hnews, List.countP_map] at hcount
  rw [hall, ordered, List.countP_map, ← hcount]
  rfl

theorem inCart_nonneg (items : CartItems) (cartId : String) (key : Key) :
    0 ≤ inCart items.rows cartId key := by
  apply List.sum_nonneg
  intro n hn
  obtain ⟨r, hr, rfl⟩ := List.mem_map.mp hn
  exact Int.le_of_lt (items.positive r (List.mem_of_mem_filter hr))

/-- A line has one row. -/
theorem filter_line {rows : List CartItem} (hnodup : (rows.map CartItem.line).Nodup) {r : CartItem}
    (hr : r ∈ rows) : (rows.filter fun s => s.line = r.line) = [r] := by
  induction rows with
  | nil => cases hr
  | cons a rows ih =>
    obtain ⟨hfresh, hrest⟩ := List.nodup_cons.mp hnodup
    rcases List.mem_cons.mp hr with rfl | hr
    · have hnone : (rows.filter fun s => s.line = r.line) = [] := by
        refine List.filter_eq_nil_iff.mpr fun s hs heq => hfresh ?_
        exact List.mem_map.mpr ⟨s, hs, by simpa using heq⟩
      simp [hnone]
    · have hne : a.line ≠ r.line := fun heq => hfresh (List.mem_map.mpr ⟨r, hr, heq.symm⟩)
      simp [hne, ih hrest hr]

/-- An update that keeps the lines only touches the rows it is about. -/
theorem inCart_map {rows : List CartItem} {f : CartItem → CartItem} (hf : ∀ r, (f r).line = r.line)
    (cartId : String) (key : Key) : inCart (rows.map f) cartId key =
      ((rows.filter fun r => r.line = (cartId, key)).map fun r => (f r).qty).sum := by
  unfold inCart
  rw [List.filter_map, List.map_map]
  congr 3
  funext r
  exact decide_eq_decide.mpr (by rw [hf])

theorem inCart_clear (db : OrdersDb) (cartId : String) (now : Int64) (key : Key) :
    inCart (CartRepo.clear db cartId now).cartItems.rows cartId key = 0 := by
  have hnone : (CartRepo.clear db cartId now).cartItems.rows.filter
      (fun r => r.line = (cartId, key)) = [] := by
    rw [CartRepo.clear_cartItems, List.filter_filter, List.filter_eq_nil_iff]
    intro r _ hr
    simp only [Bool.and_eq_true, decide_eq_true_eq, Bool.not_eq_true', decide_eq_false_iff_not] at hr
    exact hr.2 (congrArg Prod.fst hr.1)
  rw [inCart, hnone]
  rfl

/-- An item that is added is counted in its line, unless the clamp cuts it. -/
theorem inCart_addItem {db db' : OrdersDb} {target : String} {item : NewCartItem} {now : Int64}
    (h : CartRepo.addItem db target item now = .ok db')
    (hclamp : ∀ r ∈ db.cartItems.rows, r.line = CartRepo.lineOf target item →
      r.qty + item.qty ≤ CartRepo.maxQty) (cartId : String) (key : Key) :
    inCart db'.cartItems.rows cartId key = inCart db.cartItems.rows cartId key +
      if CartRepo.lineOf target item = (cartId, key) then item.qty else 0 := by
  obtain ⟨_, _, ⟨hfree, hrows⟩ | ⟨⟨r, hr, hline⟩, hrows⟩⟩ := CartRepo.addItem_ok h
  · have hnew : ({ CartRepo.newRow target item now with id := db.cartItems.seq + 1 } : CartItem).line =
        CartRepo.lineOf target item := rfl
    rw [hrows]
    unfold inCart
    rw [List.filter_append, List.map_append, List.sum_append, List.filter_singleton, hnew]
    by_cases hthis : CartRepo.lineOf target item = (cartId, key)
    · simp [hthis, CartRepo.newRow]
    · simp [hthis]
  · let f : CartItem → CartItem := fun r =>
      if r.line = CartRepo.lineOf target item then CartRepo.merge item now r else r
    have hf : ∀ r, (f r).line = r.line := by
      intro r
      simp only [f]
      split <;> rfl
    rw [hrows, inCart_map hf]
    unfold inCart
    by_cases hthis : CartRepo.lineOf target item = (cartId, key)
    · have hsum := hclamp r hr hline
      have hmerged : (f r).qty = r.qty + item.qty := by
        simp only [f, if_pos hline, CartRepo.merge]
        omega
      rw [← hthis, ← hline, filter_line db.cartItems.distinct hr]
      simp [hmerged]
    · have hother : ∀ s ∈ db.cartItems.rows.filter fun r => r.line = (cartId, key),
          (f s).qty = s.qty := by
        intro s hs
        have hline : s.line = (cartId, key) := by simpa using List.of_mem_filter hs
        have hne : s.line ≠ CartRepo.lineOf target item := by
          rw [hline]
          exact fun heq => hthis heq.symm
        simp only [f, if_neg hne]
      rw [List.map_congr_left hother]
      simp [hthis]

theorem added_cons (item : NewCartItem) (items : List NewCartItem) (key : Key) :
    added (item :: items) key =
      added items key + if keyOf item.productId item.variantId = key then item.qty else 0 := by
  unfold added
  rw [List.filter_cons]
  by_cases hkey : keyOf item.productId item.variantId = key
  · simp [hkey]
    omega
  · simp [hkey]

/-! ## Orders for what is taken out -/

/-- What a checkout took out of the cart, and the rows of all orders at that moment. -/
structure Taking where
  rows : List CartItem
  sold : List OrderItem

/-- The rows of the orders when the cart was emptied last, and before that those of the start. -/
def soldBefore (start : List OrderItem) : List Taking → List OrderItem
  | [] => start
  | t :: _ => t.sold

/-- Each time one order that was not there the time before has all that was taken out. -/
def Paid (start : List OrderItem) : List Taking → Prop
  | [] => True
  | t :: older => (∃ more orderId, t.sold = soldBefore start older ++ more ∧
      ∀ key, asked t.rows key ≤ ordered (ofOrder orderId more) key) ∧ Paid start older

def taken (takings : List Taking) (key : Key) : Int := (takings.map fun t => asked t.rows key).sum

/-- No row of an order pays twice. -/
theorem taken_le {start : List OrderItem} {takings : List Taking} (h : Paid start takings)
    (key : Key) : ordered start key + taken takings key ≤ ordered (soldBefore start takings) key := by
  induction takings with
  | nil => simp [taken, soldBefore]
  | cons t older ih =>
    obtain ⟨⟨more, orderId, hsold, hasked⟩, hpaid⟩ := h
    have hrest := ih hpaid
    have hkey := (hasked key).trans (ordered_ofOrder_le orderId more key)
    change ordered start key + taken (t :: older) key ≤ ordered t.sold key
    rw [hsold, ordered_append]
    unfold taken at hrest ⊢
    rw [List.map_cons, List.sum_cons]
    omega

/-! ## The requests -/

/-- The site, the items whose `add_item` on the cart was committed, and what was taken out of
the cart, the last time first. -/
structure Tally where
  site : Site
  items : List NewCartItem
  takings : List Taking

def Tally.held (c : Tally) (cartId : String) (key : Key) : Int :=
  inCart c.site.orders.cartItems.rows cartId key

def Tally.sold (c : Tally) : List OrderItem := c.site.orders.orderItems.rows

/-- The clamp of `add_item` cuts nothing off. -/
def Unclamped (s : Site) : (op : WebOp) → op.Res → Prop
  | .addItem cartId item, .ok _ => ∀ r ∈ s.orders.cartItems.rows,
    r.line = CartRepo.lineOf cartId item → r.qty + item.qty ≤ CartRepo.maxQty
  | _, _ => True

instance (s : Site) (op : WebOp) (r : op.Res) : Decidable (Unclamped s op r) :=
  match op, r with
  | .addItem cartId item, .ok _ => inferInstanceAs (Decidable (∀ r ∈ s.orders.cartItems.rows,
      r.line = CartRepo.lineOf cartId item → r.qty + item.qty ≤ CartRepo.maxQty))
  | .addItem _ _, .error _ => .isTrue trivial
  | .findByToken _, _ => .isTrue trivial
  | .createCart, _ => .isTrue trivial
  | .listItems _, _ => .isTrue trivial
  | .updateQty _ _ _, _ => .isTrue trivial
  | .removeItem _ _, _ => .isTrue trivial
  | .clear _, _ => .isTrue trivial
  | .getCardBySlug _, _ => .isTrue trivial
  | .getCardById _, _ => .isTrue trivial
  | .newUuid, _ => .isTrue trivial
  | .checkout _ _ _ _, _ => .isTrue trivial

def record (cartId : String) (items : List NewCartItem) : (op : WebOp) → op.Res → List NewCartItem
  | .addItem target item, .ok _ => if target = cartId then item :: items else items
  | _, _ => items

def recordTaking (cartId : String) (c : Tally) : (op : WebOp) → op.Res → List Taking
  | .clear target, .ok _ =>
    if target = cartId then ⟨CartRepo.listItems c.site.orders cartId, c.sold⟩ :: c.takings
    else c.takings
  | _, _ => c.takings

def isAdd (cartId : String) : WebOp → Bool
  | .addItem target _ => target = cartId
  | _ => false

/-- Nothing is added to the cart while a checkout that has read it has not yet emptied it. -/
def NoAddDuring (cartId : String) : List (WebProg Response) → WebOp → Prop :=
  System.Waits afterListing (isAdd cartId)

/-- The orders' items and the items of the carts are as they were. -/
structure Same (c d : Tally) : Prop where
  items : d.items = c.items
  takings : d.takings = c.takings
  orderItems : d.site.orders.orderItems = c.site.orders.orderItems
  cartItems : d.site.orders.cartItems = c.site.orders.cartItems

section Requests
variable (hashToken : String → String) (faults : WebOp → Prop) (token : String)

def exec (c : Tally) (op : WebOp) (r : op.Res) (d : Tally) : Prop :=
  Site.exec hashToken faults c.site op r d.site ∧ Unclamped c.site op r ∧
    d.items = record (hashToken token) c.items op r ∧
    d.takings = recordTaking (hashToken token) c op r

/-- Any call may fail and any request may be cut off. -/
def requests (gate : List (WebProg Response) → WebOp → Prop) :
    System Tally WebOp WebOp.Res Response where
  exec := exec hashToken faults token
  env := Same
  start _ p := ∃ app headers, CartCookie.extractCartToken headers = some token ∧
    ((∃ form, p = CartPage.add app headers form) ∨ ∃ form, p = CheckoutPage.submit app headers form)
  stop _ := True
  gate := gate

/-- What was there and what was added is in the cart or was taken out, and then it is in an
order. -/
structure Accounted (cartId : String) (first : Site) (c : Tally) : Prop where
  balanced : ∀ key, inCart first.orders.cartItems.rows cartId key + added c.items key =
    c.held cartId key + taken c.takings key
  paid : Paid first.orders.orderItems.rows c.takings
  sold : soldBefore first.orders.orderItems.rows c.takings <+: c.sold

/-- Nothing was added, what is ordered stays ordered, and whenever something was taken out nothing
is left. -/
structure Calm (cartId : String) (c d : Tally) : Prop where
  held : ∀ key, d.held cartId key ≤ c.held cartId key
  sold : c.sold <+: d.sold
  takings : d.takings = c.takings ∨ ∀ key, d.held cartId key = 0

theorem held_nonneg (c : Tally) (cartId : String) (key : Key) : 0 ≤ c.held cartId key :=
  inCart_nonneg c.site.orders.cartItems cartId key

theorem Calm.trans {cartId : String} {c d e : Tally} (h : Calm cartId c d) (h' : Calm cartId d e) :
    Calm cartId c e where
  held key := Int.le_trans (h'.held key) (h.held key)
  sold := h.sold.trans h'.sold
  takings := by
    rcases h'.takings with hsame' | hempty
    · rcases h.takings with hsame | hempty
      · exact .inl (hsame'.trans hsame)
      · refine .inr fun key => ?_
        have hless := h'.held key
        have hsome := held_nonneg e cartId key
        rw [hempty] at hless
        omega
    · exact .inr hempty

variable (first : Site)

def exclusion : Exclusion Tally WebOp where
  inside := afterListing
  lone := isAdd (hashToken token)
  inv := Accounted (hashToken token) first
  calm := Calm (hashToken token)
  idle _ := True
  refl _ := ⟨fun _ => Int.le_refl _, List.prefix_refl _, .inl rfl⟩
  trans := Calm.trans

variable {hashToken faults token first} {c d : Tally} {cartId : String}

theorem Same.accounted (h : Same c d) (hc : Accounted cartId first c) :
    Accounted cartId first d where
  balanced := by
    unfold Tally.held
    rw [h.items, h.cartItems, h.takings]
    exact hc.balanced
  paid := by
    rw [h.takings]
    exact hc.paid
  sold := by
    unfold Tally.sold
    rw [h.takings, h.orderItems]
    exact hc.sold

theorem Same.calm (h : Same c d) : Calm cartId c d where
  held key := by
    unfold Tally.held
    rw [h.cartItems]
  sold := by
    unfold Tally.sold
    rw [h.orderItems]
  takings := .inl h.takings

theorem Same.of_site (hitems : d.items = c.items) (htakings : d.takings = c.takings)
    (hs : d.site = c.site) : Same c d :=
  ⟨hitems, htakings, by rw [hs], by rw [hs]⟩

/-- The calls that write neither items of carts nor orders. -/
def quiet : WebOp → Bool
  | .addItem _ _ => false
  | .updateQty _ _ _ => false
  | .removeItem _ _ => false
  | .clear _ => false
  | .checkout _ _ _ _ => false
  | _ => true

theorem same_of_quiet {op : WebOp} {r : op.Res} (hop : quiet op)
    (h : exec hashToken faults token c op r d) : Same c d := by
  obtain ⟨hx, _, hitems, htakings⟩ := h
  cases op with
  | addItem _ _ | updateQty _ _ _ | removeItem _ _ | clear _ | checkout _ _ _ _ => cases hop
  | findByToken raw =>
    obtain ⟨hs, _⟩ := Site.exec_findByToken hx
    exact .of_site hitems htakings hs
  | listItems cartId =>
    obtain ⟨hs, _⟩ := Site.exec_listItems hx
    exact .of_site hitems htakings hs
  | getCardBySlug slug =>
    obtain ⟨hs, _⟩ := Site.exec_getCardBySlug hx
    exact .of_site hitems htakings hs
  | getCardById id =>
    obtain ⟨hs, _⟩ := Site.exec_getCardById hx
    exact .of_site hitems htakings hs
  | newUuid =>
    obtain ⟨_, hs⟩ := Site.exec_newUuid hx
    exact ⟨hitems, htakings, by rw [hs]; rfl, by rw [hs]; rfl⟩
  | createCart =>
    obtain ⟨hcarts, hrows⟩ := Site.exec_createCart hx
    exact ⟨hitems, htakings, hcarts.orderItems, hrows⟩

/-- An item that is added to the cart is there, and one added to another cart is not counted. -/
theorem accounted_addItem {target : String} {item : NewCartItem} {r : Except CartError Unit}
    (hc : Accounted (hashToken token) first c)
    (h : exec hashToken faults token c (.addItem target item) r d) :
    Accounted (hashToken token) first d ∧ (target ≠ hashToken token → Calm (hashToken token) c d) := by
  obtain ⟨hx, hclamp, hitems, htakings⟩ := h
  rcases Site.exec_addItem hx with ⟨hs, e, rfl⟩ | ⟨now, db, hrun, rfl, hs⟩
  · have hsame : Same c d := .of_site hitems htakings hs
    exact ⟨hsame.accounted hc, fun _ => hsame.calm⟩
  · have hsold : d.sold = c.sold := by
      unfold Tally.sold
      rw [hs]
      exact congrArg Table.rows (CartRepo.addItem_ok hrun).1.orderItems
    change d.items = if target = hashToken token then item :: c.items else c.items at hitems
    change d.takings = c.takings at htakings
    have hheld : ∀ key, d.held (hashToken token) key = c.held (hashToken token) key +
        if CartRepo.lineOf target item = (hashToken token, key) then item.qty else 0 := by
      intro key
      unfold Tally.held
      rw [hs]
      exact inCart_addItem hrun hclamp (hashToken token) key
    constructor
    · refine ⟨fun key => ?_, by rw [htakings]; exact hc.paid, by rw [htakings, hsold]; exact hc.sold⟩
      have hkey := hc.balanced key
      rw [hheld, hitems, htakings]
      by_cases htarget : target = hashToken token
      · have hline : CartRepo.lineOf target item = (hashToken token, key) ↔
            keyOf item.productId item.variantId = key := by
          rw [htarget]
          exact ⟨fun h => (Prod.mk.inj h).2, fun h => by rw [← h]; rfl⟩
        simp only [if_pos htarget, added_cons, hline]
        omega
      · have hline : CartRepo.lineOf target item ≠ (hashToken token, key) :=
          fun h => htarget (Prod.mk.inj h).1
        simp only [if_neg htarget, if_neg hline]
        omega
    · intro htarget
      refine ⟨fun key => ?_, by rw [hsold], .inl htakings⟩
      have hline : CartRepo.lineOf target item ≠ (hashToken token, key) :=
        fun h => htarget (Prod.mk.inj h).1
      rw [hheld, if_neg hline]
      omega

/-- What a checkout has read covers what is in the cart. -/
structure Listed (cartId : String) (items : List CartItem) (c : Tally) : Prop where
  positive : ∀ r ∈ items, 0 < r.qty
  covers : ∀ key, c.held cartId key ≤ asked items key

/-- What is in the cart is in one order that was not there when the cart was emptied last. -/
def Placed (cartId : String) (first : Site) (c : Tally) : Prop := ∃ orderId, ∀ key,
  c.held cartId key ≤ ordered (ofOrder orderId
    (c.sold.drop (soldBefore first.orders.orderItems.rows c.takings).length)) key

theorem Listed.stable {items : List CartItem} (h : Listed cartId items c)
    (hcalm : Calm cartId c d) : Listed cartId items d :=
  ⟨h.positive, fun key => Int.le_trans (hcalm.held key) (h.covers key)⟩

theorem Placed.stable (h : Placed cartId first c) (hcalm : Calm cartId c d) :
    Placed cartId first d := by
  obtain ⟨orderId, hcovers⟩ := h
  refine ⟨orderId, fun key => ?_⟩
  rcases hcalm.takings with hsame | hempty
  · rw [hsame]
    refine Int.le_trans (hcalm.held key) (Int.le_trans (hcovers key) ?_)
    exact ordered_ofOrder_drop hcalm.sold orderId _ key
  · rw [hempty]
    exact ordered_nonneg _ key

theorem listed_of_listItems {r : Except CartError (List CartItem)} {items : List CartItem}
    (h : exec hashToken faults token c (.listItems (hashToken token)) r d) (hr : r = .ok items) :
    Listed (hashToken token) items d := by
  obtain ⟨hs, rfl | ⟨e, rfl⟩⟩ := Site.exec_listItems h.1
  · obtain rfl := Except.ok.inj hr
    refine ⟨fun r hr => c.site.orders.cartItems.positive r (List.mem_of_mem_filter hr), fun key => ?_⟩
    unfold Tally.held
    rw [asked_listItems, hs]
  · cases hr

/-- A checkout that commits orders all that is in the cart. -/
theorem accounted_checkout {buyerId currency : String} {items : List CartItem}
    {news : List NewOrderItem} {contact : Option NewOrderContact} {r : Except OrderError String}
    (hc : Accounted cartId first c) (hlisted : Listed cartId items c)
    (hnews : news.map kind = items.flatMap kinds)
    (h : exec hashToken faults token c (.checkout buyerId currency news contact) r d) :
    Accounted cartId first d ∧ Calm cartId c d ∧
      ((∃ e, r = .error e) ∨ (∃ id, r = .ok id) ∧ Placed cartId first d) := by
  obtain ⟨hx, _, hitems, htakings⟩ := h
  change d.items = c.items at hitems
  change d.takings = c.takings at htakings
  rcases Site.exec_checkout hx with ⟨hs, hr⟩ | ⟨id, now, clock, db, _, rfl, hrun, hs⟩
  · have hsame : Same c d := ⟨hitems, htakings, by rw [hs.orders], by rw [hs.orders]⟩
    exact ⟨hsame.accounted hc, hsame.calm, Or.inl hr⟩
  · obtain ⟨_, _, total, hwritten⟩ := OrderRepo.checkout_ok hrun
    have hsold : d.sold = c.sold ++ news.map (OrderRepo.itemRow id) := by
      unfold Tally.sold
      rw [hs]
      exact hwritten.orderItems
    have hheld : ∀ key, d.held cartId key = c.held cartId key := by
      intro key
      unfold Tally.held
      rw [hs, hwritten.cartItems]
    have hgrows : c.sold <+: d.sold := by
      rw [hsold]
      exact List.prefix_append _ _
    refine ⟨⟨fun key => ?_, by rw [htakings]; exact hc.paid, ?_⟩,
      ⟨fun key => by rw [hheld], hgrows, .inl htakings⟩, .inr ⟨⟨id, rfl⟩, id, fun key => ?_⟩⟩
    · rw [hheld, hitems, htakings]
      exact hc.balanced key
    · rw [htakings]
      exact hc.sold.trans hgrows
    · rw [hheld, htakings, hsold, List.drop_append_of_le_length hc.sold.length_le, ofOrder,
        List.filter_append, ordered_append]
      have hnew := ordered_news id hlisted.positive hnews key
      have hsome := hlisted.covers key
      have hmore := ordered_nonneg (List.filter (fun i => i.orderId = id)
        (c.sold.drop (soldBefore first.orders.orderItems.rows c.takings).length)) key
      unfold ofOrder at hnew
      omega

/-- Emptying the cart takes out nothing that is not ordered. -/
theorem accounted_clear {r : Except CartError Unit} (hc : Accounted (hashToken token) first c)
    (hplaced : Placed (hashToken token) first c)
    (h : exec hashToken faults token c (.clear (hashToken token)) r d) :
    Accounted (hashToken token) first d ∧ Calm (hashToken token) c d := by
  obtain ⟨hx, _, hitems, htakings⟩ := h
  change d.items = c.items at hitems
  rcases Site.exec_clear hx with ⟨now, rfl, hs⟩ | ⟨_, ⟨e, rfl⟩, hs⟩
  · have hsold : d.sold = c.sold := by
      unfold Tally.sold
      rw [hs]
      exact congrArg Table.rows (CartRepo.clear_cartsOnly _).orderItems
    have hempty : ∀ key, d.held (hashToken token) key = 0 := by
      intro key
      unfold Tally.held
      rw [hs]
      exact inCart_clear c.site.orders (hashToken token) now key
    have hlisted : ∀ key, asked (CartRepo.listItems c.site.orders (hashToken token)) key =
        c.held (hashToken token) key := fun key => asked_listItems _ _ key
    change d.takings = if hashToken token = hashToken token then _ else _ at htakings
    rw [if_pos rfl] at htakings
    refine ⟨⟨fun key => ?_, ?_, ?_⟩, fun key => ?_, by rw [hsold], .inr hempty⟩
    · have hkey := hc.balanced key
      rw [hempty, hitems, htakings]
      unfold taken at hkey ⊢
      rw [List.map_cons, List.sum_cons, hlisted]
      omega
    · obtain ⟨orderId, hcovers⟩ := hplaced
      obtain ⟨more, hmore⟩ := hc.sold
      rw [htakings]
      refine ⟨⟨more, orderId, hmore.symm, fun key => ?_⟩, hc.paid⟩
      have hkey := hcovers key
      rw [← hmore, List.drop_left] at hkey
      rw [hlisted]
      exact hkey
    · rw [htakings, hsold]
      exact List.prefix_refl _
    · rw [hempty]
      exact held_nonneg c _ key
  · have hsame : Same c d := .of_site hitems htakings hs
    exact ⟨hsame.accounted hc, hsame.calm⟩

variable (hashToken faults token first) in
def steps : Overlap.Steps (exec hashToken faults token) (exclusion hashToken token first)
    token (hashToken token) where
  listed := Listed (hashToken token)
  placed := Placed (hashToken token) first
  inside := rfl
  listed_stable hcalm h := h.stable hcalm
  placed_stable hcalm h := h.stable hcalm
  listed_idle _ := trivial
  findByToken hx hi := by
    have hsame := same_of_quiet rfl hx
    exact ⟨hsame.accounted hi, hsame.calm, id, fun cart => Overlap.tokenHash_of_findByToken hx.1⟩
  listItems hx hi _ := by
    have hsame := same_of_quiet rfl hx
    exact ⟨hsame.accounted hi, hsame.calm, id, fun items hr _ => listed_of_listItems hx hr⟩
  getCardById hx hi := by
    have hsame := same_of_quiet rfl hx
    exact ⟨hsame.accounted hi, hsame.calm, fun card => Overlap.id_of_getCardById hx.1⟩
  newUuid hx hi := by
    have hsame := same_of_quiet rfl hx
    exact ⟨hsame.accounted hi, hsame.calm⟩
  checkout hx hi hlisted hnews := by
    obtain ⟨hd, hcalm, hr⟩ := accounted_checkout hi hlisted hnews hx
    exact ⟨hd, fun _ => hcalm, hr.imp (fun he => ⟨he, trivial⟩) id⟩
  clear hx hi hplaced := by
    obtain ⟨hd, hcalm⟩ := accounted_clear hi hplaced hx
    exact ⟨hd, fun _ => hcalm, trivial⟩

theorem held_add (app : AppState) (headers : HeaderMap) (form : AddForm) (c : Tally) :
    Held (exec hashToken faults token) (exclusion hashToken token first)
      (CartPage.add app headers form) c := by
  have hquiet : ∀ op, quiet op → ∀ c r d, exec hashToken faults token c op r d →
      Accounted (hashToken token) first c → Accounted (hashToken token) first d ∧
        (isAdd (hashToken token) op = false → Calm (hashToken token) c d) ∧ (True → True) := by
    intro op hop c r d hx hc
    have hsame := same_of_quiet hop hx
    exact ⟨hsame.accounted hc, fun _ => hsame.calm, id⟩
  refine held_of_calls (CartPage.calls_add ?_ ?_ ?_ ?_ ?_) c
  · exact fun slug => ⟨rfl, hquiet _ rfl⟩
  · exact fun raw => ⟨rfl, hquiet _ rfl⟩
  · exact ⟨rfl, hquiet _ rfl⟩
  · exact fun cartId => ⟨rfl, hquiet _ rfl⟩
  · refine fun target item => ⟨rfl, fun c r d hx hc => ?_⟩
    obtain ⟨hd, hcalm⟩ := accounted_addItem hc hx
    exact ⟨hd, fun hl => hcalm (of_decide_eq_false hl), id⟩

end Requests

section Script
open CheckoutPage (scriptSite noFault)

/-- One request adds a unit of a product to the cart that the other one orders. -/
def addRequest : WebProg Response :=
  CartPage.add ⟨"https://shop"⟩ CheckoutPage.scriptHeaders { slug := "p" }

def start : Tally := ⟨scriptSite, [], []⟩

def bothRequests : Config Tally WebOp WebOp.Res Response := ⟨start, [DoubleSubmit.request, addRequest]⟩

theorem reachable_bothRequests (gate : List (WebProg Response) → WebOp → Prop) :
    (requests id (fun _ => False) "t" gate).Reachable ⟨start, []⟩ bothRequests := by
  have hadd : (requests id (fun _ => False) "t" gate).start [] addRequest :=
    ⟨_, _, rfl, Or.inl ⟨_, rfl⟩⟩
  have hsubmit : (requests id (fun _ => False) "t" gate).start [addRequest] DoubleSubmit.request :=
    ⟨_, _, rfl, Or.inr ⟨_, rfl⟩⟩
  exact (Relation.ReflTransGen.single (.start hadd)).tail (.start hsubmit)

def answer (c : Tally) (op : WebOp) : Option (op.Res × Tally) :=
  match Site.answer id noFault c.site op with
  | some (r, t) =>
    if Unclamped c.site op r then some (r, ⟨t, record "t" c.items op r, recordTaking "t" c op r⟩)
    else none
  | none => none

theorem exec_of_answer {c d : Tally} {op : WebOp} {r : op.Res} (h : answer c op = some (r, d)) :
    exec id (fun _ => False) "t" c op r d := by
  unfold answer at h
  split at h
  · rename_i r' t hans
    split at h
    · rename_i hclamp
      obtain ⟨rfl, rfl⟩ := Prod.mk.inj (Option.some.inj h)
      refine ⟨Site.exec_mono (fun _ hfault => ?_) (Site.exec_of_answer hans), hclamp, rfl, rfl⟩
      exact Bool.false_ne_true hfault
    · cases h
  · cases h

/-- No call waits for another request. -/
def freely : List (WebProg Response) → (c : Tally) → (op : WebOp) → Option (op.Res × Tally) :=
  System.waiting afterListing (fun _ => false) answer

theorem answers_freely :
    System.Answers freely (requests id (fun _ => False) "t" fun _ _ => True) :=
  System.answers_waiting (fun _ _ _ => trivial) fun _ _ _ _ => exec_of_answer

def waiting : List (WebProg Response) → (c : Tally) → (op : WebOp) → Option (op.Res × Tally) :=
  System.waiting afterListing (isAdd "t") answer

theorem answers_waiting :
    System.Answers waiting (requests id (fun _ => False) "t" (NoAddDuring "t")) :=
  System.answers_waiting (fun _ _ h => h) fun _ _ _ _ => exec_of_answer

/-- The checkout reads the cart, the unit is added, and the checkout ends. -/
def schedule : List Nat := [0, 0, 1, 1, 1, 1, 0, 0, 0, 0, 0, 0, 0, 0, 1]

/-- Whatever was added stays in the cart or is ordered, as long as nothing is added to the cart
while a checkout that has read it has not yet emptied it. What each checkout takes out of the cart is in one
order, which was not there when the cart was emptied before, so that no unit that is ordered twice
stands for a lost one. -/
theorem no_unit_lost {hashToken : String → String} {faults : WebOp → Prop} {token : String}
    {s : Site} {d : Config Tally WebOp WebOp.Res Response}
    (h : (requests hashToken faults token (NoAddDuring (hashToken token))).Reachable
      ⟨⟨s, [], []⟩, []⟩ d) :
    Paid s.orders.orderItems.rows d.state.takings ∧ ∀ key,
      inCart s.orders.cartItems.rows (hashToken token) key + added d.state.items key =
        inCart d.state.site.orders.cartItems.rows (hashToken token) key +
          taken d.state.takings key ∧
      inCart s.orders.cartItems.rows (hashToken token) key + ordered s.orders.orderItems.rows key +
          added d.state.items key ≤
        inCart d.state.site.orders.cartItems.rows (hashToken token) key +
          ordered d.state.site.orders.orderItems.rows key := by
  have hstart : Accounted (hashToken token) s ⟨s, [], []⟩ :=
    ⟨fun _ => rfl, trivial, List.prefix_refl _⟩
  have hheld := System.held_of_reachable (D := exclusion hashToken token s)
    (fun _ _ hgate => hgate) ?_ ?_ (fun _ _ => Or.inr fun _ _ => trivial) h hstart
    (Or.inr trivial) (by simp)
  · have hd : Accounted (hashToken token) s d.state := hheld.1
    refine ⟨hd.paid, fun key => ⟨hd.balanced key, ?_⟩⟩
    have hbalance := hd.balanced key
    have htaken := (taken_le hd.paid key).trans (ordered_mono hd.sold key)
    unfold Tally.held at hbalance
    unfold Tally.sold at htaken
    omega
  · exact fun c d hsame hc => ⟨hsame.accounted hc, hsame.calm, id⟩
  · rintro ps p ⟨app, headers, htoken, ⟨form, rfl⟩ | ⟨form, rfl⟩⟩ c
    · exact held_add app headers form c
    · exact (steps hashToken faults token s).held_submit htoken c

/-- The checkout has taken two units out, the third one was added afterwards. -/
theorem no_unit_lost_script : ∃ d : Config Tally WebOp WebOp.Res Response,
    (requests id (fun _ => False) "t" (NoAddDuring "t")).Reachable ⟨start, []⟩ d ∧
      added d.state.items ("p", "") = 1 ∧ taken d.state.takings ("p", "") = 2 ∧
      Paid scriptSite.orders.orderItems.rows d.state.takings := by
  have hreach := (reachable_bothRequests (NoAddDuring "t")).trans
    (System.reachable_drive answers_waiting schedule bothRequests)
  exact ⟨_, hreach, rfl, rfl, (no_unit_lost hreach).1⟩

/-- Both requests have finished; three units were in the cart, two are ordered, none is left. -/
theorem unit_lost : ∃ d : Config Tally WebOp WebOp.Res Response,
    (requests id (fun _ => False) "t" fun _ _ => True).Reachable ⟨start, []⟩ d ∧
      (d.procs.all fun p => match p with | .pure _ => true | .call _ _ => false) ∧
      inCart scriptSite.orders.cartItems.rows "t" ("p", "") = 2 ∧
      ordered scriptSite.orders.orderItems.rows ("p", "") = 0 ∧
      added d.state.items ("p", "") = 1 ∧
      inCart d.state.site.orders.cartItems.rows "t" ("p", "") = 0 ∧
      ordered d.state.site.orders.orderItems.rows ("p", "") = 2 := by
  have hreach := (reachable_bothRequests fun _ _ => True).trans
    (System.reachable_drive answers_freely schedule bothRequests)
  exact ⟨_, hreach, rfl, rfl, rfl, rfl, rfl, rfl⟩

end Script

end AddDuringCheckout

end TinyShop
