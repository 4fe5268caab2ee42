import TinyShop.Base.Program
import TinyShop.Search
import TinyShop.Web

/-!
# The site over its databases

The handlers are programs over the calls of the repositories, each of which is
atomic. What is random in the source is chosen by the step: a fresh uuid, the token
of a new cart, the readings of the clock.
-/

namespace TinyShop

open Base
set_option autoImplicit false

inductive WebOp where
  | findByToken (rawToken : String)
  | createCart
  | addItem (cartId : String) (item : NewCartItem)
  | listItems (cartId : String)
  | updateQty (cartId : String) (itemId qty : Int)
  | removeItem (cartId : String) (itemId : Int)
  | clear (cartId : String)
  | getCardBySlug (slug : String)
  | getCardById (productId : String)
  | newUuid
  | checkout (buyerId currency : String) (items : List NewOrderItem)
      (contact : Option NewOrderContact)

@[reducible] def WebOp.Res : WebOp → Type
  | .findByToken _ => Except CartError (Option Cart)
  | .createCart => Except CartError (CartToken × Cart)
  | .addItem _ _ => Except CartError Unit
  | .listItems _ => Except CartError (List CartItem)
  | .updateQty _ _ _ => Except CartError Unit
  | .removeItem _ _ => Except CartError Unit
  | .clear _ => Except CartError Unit
  | .getCardBySlug _ => Except SearchError (Option ProductView)
  | .getCardById _ => Except SearchError (Option ProductView)
  | .newUuid => String
  | .checkout _ _ _ _ => Except OrderError String

abbrev WebProg (α : Type) := Prog WebOp WebOp.Res α

abbrev WebM := ExceptT WebError (Prog WebOp WebOp.Res)

namespace WebM

/-- One call; `?` converts its error. -/
def call {α : Type} (op : WebOp) (result : op.Res → Except WebError α) : WebM α :=
  ExceptT.mk (Prog.call op fun r => .pure (result r))

def findByToken (rawToken : String) : WebM (Option Cart) :=
  call (.findByToken rawToken) fun r => Except.mapError WebError.ofCart r

def createCart : WebM (CartToken × Cart) := call .createCart fun r => Except.mapError WebError.ofCart r

def addItem (cartId : String) (item : NewCartItem) : WebM Unit :=
  call (.addItem cartId item) fun r => Except.mapError WebError.ofCart r

def listItems (cartId : String) : WebM (List CartItem) :=
  call (.listItems cartId) fun r => Except.mapError WebError.ofCart r

def updateQty (cartId : String) (itemId qty : Int) : WebM Unit :=
  call (.updateQty cartId itemId qty) fun r => Except.mapError WebError.ofCart r

def removeItem (cartId : String) (itemId : Int) : WebM Unit :=
  call (.removeItem cartId itemId) fun r => Except.mapError WebError.ofCart r

def clear (cartId : String) : WebM Unit :=
  call (.clear cartId) fun r => Except.mapError WebError.ofCart r

def getCardBySlug (slug : String) : WebM (Option ProductView) :=
  call (.getCardBySlug slug) fun r => Except.mapError (fun e => .internal e.toString) r

def getCardById (productId : String) : WebM (Option ProductView) :=
  call (.getCardById productId) fun r => Except.mapError (fun e => .internal e.toString) r

def newUuid : WebM String := call .newUuid fun r => .ok r

def checkout (buyerId currency : String) (items : List NewOrderItem)
    (contact : Option NewOrderContact) : WebM String :=
  call (.checkout buyerId currency items contact) fun r => Except.mapError WebError.ofOrder r

/-- What follows a call that may fail. -/
def after {α β : Type} (f : α → WebM β) : Except WebError α → WebProg (Except WebError β)
  | .ok a => (f a).run
  | .error e => .pure (.error e)

theorem run_bind {α β : Type} (p : WebM α) (f : α → WebM β) : (p >>= f).run = p.run >>= after f := by
  change p.run >>= _ = p.run >>= _
  congr 1
  funext r
  cases r <;> rfl

theorem run_call_bind {α β : Type} (op : WebOp) (result : op.Res → Except WebError α)
    (f : α → WebM β) :
    (call op result >>= f).run = .call op fun r => after f (result r) := by
  rw [run_bind]
  rfl

section Calls
variable {P : WebOp → Prop} {α β : Type}

theorem calls_bind {p : WebM α} {f : α → WebM β} (hp : p.run.Calls P)
    (hf : ∀ a, (f a).run.Calls P) : (p >>= f).run.Calls P := by
  rw [run_bind]
  refine Prog.calls_bind hp fun r => ?_
  cases r with
  | error e => trivial
  | ok a => exact hf a

theorem calls_call {op : WebOp} {result : op.Res → Except WebError α} (h : P op) :
    (call op result).run.Calls P := ⟨h, fun _ => trivial⟩

/-- Every end is that of what follows the first part, or the first part's error. -/
theorem ends_bind {Q : Except WebError β → Prop} {p : WebM α} {f : α → WebM β}
    (herror : ∀ e, Q (.error e)) (hf : ∀ a, (f a).run.Ends Q) : (p >>= f).run.Ends Q := by
  rw [run_bind]
  refine Prog.ends_bind (Prog.ends_of_forall (fun r => ?_) _)
  cases r with
  | error e => exact herror e
  | ok a => exact hf a

end Calls

section Runs
variable {σ : Type} {exec : σ → (op : WebOp) → op.Res → σ → Prop} {s t : σ} {α β : Type}

theorem runs_bind {p : WebM α} {f : α → WebM β} {b : Except WebError β}
    (h : Runs exec (p >>= f).run s b t) :
    ∃ a u, Runs exec p.run s a u ∧ Runs exec (after f a) u b t := by
  rw [run_bind] at h
  exact runs_bind_iff.mp h

theorem runs_call {op : WebOp} {result : op.Res → Except WebError α} {a : Except WebError α}
    (h : Runs exec (call op result).run s a t) : ∃ r, exec s op r t ∧ a = result r := by
  obtain ⟨r, u, hexec, hrest⟩ := runs_call_iff.mp h
  obtain ⟨rfl, rfl⟩ := runs_pure_iff.mp hrest
  exact ⟨r, hexec, rfl⟩

theorem runs_pure {a : α} {b : Except WebError α} (h : Runs exec (pure a : WebM α).run s b t) :
    b = .ok a ∧ t = s := runs_pure_iff.mp h

theorem runs_throw {e : WebError} {b : Except WebError α}
    (h : Runs exec (throw e : WebM α).run s b t) : b = .error e ∧ t = s := runs_pure_iff.mp h

theorem runs_after_error {f : α → WebM β} {e : WebError} {b : Except WebError β}
    (h : Runs exec (after f (.error e)) s b t) : b = .error e ∧ t = s := runs_pure_iff.mp h

theorem runs_bind_ok {p : WebM α} {f : α → WebM β} {a : α} {b : Except WebError β} {u : σ}
    (hp : Runs exec p.run s (.ok a) u) (hf : Runs exec (f a).run u b t) :
    Runs exec (p >>= f).run s b t := by
  rw [run_bind]
  exact runs_bind_iff.mpr ⟨_, _, hp, hf⟩

theorem runs_bind_error {p : WebM α} {f : α → WebM β} {e : WebError}
    (hp : Runs exec p.run s (.error e) t) : Runs exec (p >>= f).run s (.error e) t := by
  rw [run_bind]
  exact runs_bind_iff.mpr ⟨_, _, hp, .pure _ _⟩

end Runs

end WebM

/-- The databases, and the uuids that were handed out. -/
structure Site where
  orders : OrdersDb
  catalog : CatalogDb
  issued : List String

namespace Site

/-- The text form of a uuid. -/
def isUuid (u : String) : Bool :=
  u.toList.all fun c => c = '-' || ('0' ≤ c && c ≤ '9') || ('a' ≤ c && c ≤ 'f')

/-- A token of `generate_token`: 48 letters and digits. -/
def isToken (raw : String) : Bool := raw.length = 48 && raw.toList.all Char.isAlphanum

/-- A uuid that nothing in the orders database uses. -/
structure Fresh (s : Site) (u : String) : Prop where
  text : isUuid u
  issued : u ∉ s.issued
  orders : s.orders.orders.find? u = none
  orderItems : s.orders.orderItems.find? u = none

def issue (s : Site) (u : String) : Site := { s with issued := u :: s.issued }

/-- The outcome of a transaction: its error leaves the databases alone. -/
def Outcome {ε α : Type} (s : Site) (result : Except ε (OrdersDb × α)) (r : Except ε α)
    (s' : Site) : Prop :=
  match result with
  | .ok (orders, a) => r = .ok a ∧ s' = { s with orders }
  | .error e => r = .error e ∧ s' = s

variable (hashToken : String → String)

def answers (s : Site) : (op : WebOp) → op.Res → Site → Prop
  | .findByToken raw, r, s' => r = .ok (CartRepo.findByToken s.orders hashToken raw) ∧ s' = s
  | .createCart, r, s' => ∃ raw now, isToken raw ∧
    Outcome s (CartRepo.createCart s.orders hashToken raw now) r s'
  | .addItem cartId item, r, s' => ∃ now,
    Outcome s ((CartRepo.addItem s.orders cartId item now).map fun db => (db, ())) r s'
  | .listItems cartId, r, s' => r = .ok (CartRepo.listItems s.orders cartId) ∧ s' = s
  | .updateQty cartId itemId qty, r, s' => ∃ now,
    Outcome s ((CartRepo.updateQty s.orders cartId itemId qty now).map fun db => (db, ())) r s'
  | .removeItem cartId itemId, r, s' => ∃ now, r = .ok () ∧
    s' = { s with orders := CartRepo.removeItem s.orders cartId itemId now }
  | .clear cartId, r, s' => ∃ now, r = .ok () ∧
    s' = { s with orders := CartRepo.clear s.orders cartId now }
  | .getCardBySlug slug, r, s' => r = .ok (SqliteCatalogSearch.getCardBySlug s.catalog slug) ∧ s' = s
  | .getCardById id, r, s' => r = .ok (SqliteCatalogSearch.getCardById s.catalog id) ∧ s' = s
  | .newUuid, r, s' => s.Fresh r ∧ s' = s.issue r
  | .checkout buyerId currency items contact, r, s' => ∃ id now clock, s.Fresh id ∧
    Outcome (s.issue id) (OrderRepo.checkout s.orders buyerId currency items contact id now clock) r s'

/-- The answer of a database that fails. -/
def Failed : (op : WebOp) → op.Res → Prop
  | .findByToken _, r => ∃ e, r = .error (.db e)
  | .createCart, r => ∃ e, r = .error (.db e)
  | .addItem _ _, r => ∃ e, r = .error (.db e)
  | .listItems _, r => ∃ e, r = .error (.db e)
  | .updateQty _ _ _, r => ∃ e, r = .error (.db e)
  | .removeItem _ _, r => ∃ e, r = .error (.db e)
  | .clear _, r => ∃ e, r = .error (.db e)
  | .getCardBySlug _, r => ∃ e, r = .error e
  | .getCardById _, r => ∃ e, r = .error e
  | .newUuid, _ => False
  | .checkout _ _ _ _, r => ∃ e, r = .error (.db e)

/-- A call is answered, or its database fails and nothing is changed. -/
def exec (faults : WebOp → Prop) (s : Site) (op : WebOp) (r : op.Res) (s' : Site) : Prop :=
  answers hashToken s op r s' ∨ faults op ∧ Failed op r ∧ s' = s

/-- Nothing was done but to issue uuids. -/
structure Unchanged (s t : Site) : Prop where
  orders : t.orders = s.orders
  catalog : t.catalog = s.catalog

theorem Unchanged.refl (s : Site) : Unchanged s s := ⟨rfl, rfl⟩

theorem Unchanged.trans {s t u : Site} (h : Unchanged s t) (h' : Unchanged t u) : Unchanged s u :=
  ⟨h'.orders.trans h.orders, h'.catalog.trans h.catalog⟩

section Exec
variable {hashToken} {faults : WebOp → Prop} {s t : Site}

theorem exec_mono {faults' : WebOp → Prop} (h : ∀ op, faults op → faults' op) {op : WebOp}
    {r : op.Res} (hx : exec hashToken faults s op r t) : exec hashToken faults' s op r t :=
  hx.imp id fun ⟨hfault, hrest⟩ => ⟨h op hfault, hrest⟩

/-- A call that only reads. -/
theorem read_cases {ε δ α : Type} {f : δ → ε} {r v : Except ε α} {fault : Prop}
    (h : (r = v ∧ t = s) ∨ fault ∧ (∃ e, r = .error (f e)) ∧ t = s) :
    t = s ∧ (r = v ∨ ∃ e, r = .error (f e)) := by
  rcases h with ⟨hr, ht⟩ | ⟨_, hr, ht⟩
  · exact ⟨ht, Or.inl hr⟩
  · exact ⟨ht, Or.inr hr⟩

theorem exec_findByToken {raw : String} {r : Except CartError (Option Cart)}
    (h : exec hashToken faults s (.findByToken raw) r t) :
    t = s ∧ (r = .ok (CartRepo.findByToken s.orders hashToken raw) ∨ ∃ e, r = .error (.db e)) :=
  read_cases h

theorem exec_listItems {cartId : String} {r : Except CartError (List CartItem)}
    (h : exec hashToken faults s (.listItems cartId) r t) :
    t = s ∧ (r = .ok (CartRepo.listItems s.orders cartId) ∨ ∃ e, r = .error (.db e)) :=
  read_cases h

theorem exec_getCardById {id : String} {r : Except SearchError (Option ProductView)}
    (h : exec hashToken faults s (.getCardById id) r t) :
    t = s ∧ (r = .ok (SqliteCatalogSearch.getCardById s.catalog id) ∨ ∃ e, r = .error e) :=
  read_cases (f := fun e => e) h

theorem exec_getCardBySlug {slug : String} {r : Except SearchError (Option ProductView)}
    (h : exec hashToken faults s (.getCardBySlug slug) r t) :
    t = s ∧ (r = .ok (SqliteCatalogSearch.getCardBySlug s.catalog slug) ∨ ∃ e, r = .error e) :=
  read_cases (f := fun e => e) h

theorem exec_createCart {r : Except CartError (CartToken × Cart)}
    (h : exec hashToken faults s .createCart r t) :
    CartRepo.CartsOnly s.orders t.orders ∧ t.orders.cartItems = s.orders.cartItems := by
  rcases h with ⟨raw, now, _, hout⟩ | ⟨_, _, rfl⟩
  · cases hrun : CartRepo.createCart s.orders hashToken raw now with
    | error e =>
      rw [hrun] at hout
      obtain ⟨_, rfl⟩ := hout
      exact ⟨⟨rfl, rfl, rfl, rfl⟩, rfl⟩
    | ok out =>
      rw [hrun] at hout
      obtain ⟨_, rfl⟩ := hout
      exact CartRepo.createCart_ok hrun
  · exact ⟨⟨rfl, rfl, rfl, rfl⟩, rfl⟩

theorem exec_addItem {cartId : String} {item : NewCartItem} {r : Except CartError Unit}
    (h : exec hashToken faults s (.addItem cartId item) r t) :
    t = s ∧ (∃ e, r = .error e) ∨
      ∃ now db, CartRepo.addItem s.orders cartId item now = .ok db ∧ r = .ok () ∧
        t = { s with orders := db } := by
  rcases h with ⟨now, hout⟩ | ⟨_, ⟨e, rfl⟩, rfl⟩
  · cases hrun : CartRepo.addItem s.orders cartId item now with
    | error e =>
      rw [hrun] at hout
      obtain ⟨rfl, rfl⟩ := hout
      exact Or.inl ⟨rfl, e, rfl⟩
    | ok db =>
      rw [hrun] at hout
      obtain ⟨rfl, rfl⟩ := hout
      exact Or.inr ⟨now, db, hrun, rfl, rfl⟩
  · exact Or.inl ⟨rfl, _, rfl⟩

theorem exec_updateQty {cartId : String} {itemId qty : Int} {r : Except CartError Unit}
    (h : exec hashToken faults s (.updateQty cartId itemId qty) r t) :
    t = s ∧ (∃ e, r = .error e) ∨
      ∃ now db, CartRepo.updateQty s.orders cartId itemId qty now = .ok db ∧ r = .ok () ∧
        t = { s with orders := db } := by
  rcases h with ⟨now, hout⟩ | ⟨_, ⟨e, rfl⟩, rfl⟩
  · cases hrun : CartRepo.updateQty s.orders cartId itemId qty now with
    | error e =>
      rw [hrun] at hout
      obtain ⟨rfl, rfl⟩ := hout
      exact Or.inl ⟨rfl, e, rfl⟩
    | ok db =>
      rw [hrun] at hout
      obtain ⟨rfl, rfl⟩ := hout
      exact Or.inr ⟨now, db, hrun, rfl, rfl⟩
  · exact Or.inl ⟨rfl, _, rfl⟩

theorem exec_removeItem {cartId : String} {itemId : Int} {r : Except CartError Unit}
    (h : exec hashToken faults s (.removeItem cartId itemId) r t) :
    (∃ now, r = .ok () ∧ t = { s with orders := CartRepo.removeItem s.orders cartId itemId now }) ∨
      (∃ e, r = .error (.db e)) ∧ t = s :=
  h.imp id And.right

theorem exec_newUuid {u : String} (h : exec hashToken faults s .newUuid u t) :
    s.Fresh u ∧ t = s.issue u := by
  rcases h with h | ⟨_, hfailed, _⟩
  · exact h
  · cases hfailed

theorem exec_clear {cartId : String} {r : Except CartError Unit}
    (h : exec hashToken faults s (.clear cartId) r t) :
    (∃ now, r = .ok () ∧ t = { s with orders := CartRepo.clear s.orders cartId now }) ∨
      faults (.clear cartId) ∧ (∃ e, r = .error (.db e)) ∧ t = s := by
  rcases h with h | h
  · exact Or.inl h
  · exact Or.inr h

theorem exec_checkout {buyerId currency : String} {items : List NewOrderItem}
    {contact : Option NewOrderContact} {r : Except OrderError String}
    (h : exec hashToken faults s (.checkout buyerId currency items contact) r t) :
    Unchanged s t ∧ (∃ e, r = .error e) ∨
      ∃ id now clock db, s.Fresh id ∧ r = .ok id ∧
        OrderRepo.checkout s.orders buyerId currency items contact id now clock = .ok (db, id) ∧
        t = { s.issue id with orders := db } := by
  rcases h with ⟨id, now, clock, hfresh, hout⟩ | ⟨_, ⟨e, rfl⟩, rfl⟩
  · cases hrun : OrderRepo.checkout s.orders buyerId currency items contact id now clock with
    | error e =>
      rw [hrun] at hout
      obtain ⟨rfl, rfl⟩ := hout
      exact Or.inl ⟨⟨rfl, rfl⟩, e, rfl⟩
    | ok out =>
      obtain ⟨db, id'⟩ := out
      rw [hrun] at hout
      obtain ⟨rfl, rfl⟩ := hout
      obtain ⟨rfl, _⟩ := OrderRepo.checkout_ok hrun
      exact Or.inr ⟨_, now, clock, db, hfresh, rfl, hrun, rfl⟩
  · exact Or.inl ⟨.refl _, _, rfl⟩

end Exec

section Script
variable (faulty : WebOp → Bool)

/-- In a script the uuids are counted and the clock stands still. -/
def freshUuid (s : Site) : Option String :=
  if isUuid s.issued.length.repr ∧ s.issued.length.repr ∉ s.issued ∧
      (s.orders.orders.find? s.issued.length.repr).isNone ∧
      (s.orders.orderItems.find? s.issued.length.repr).isNone then
    some s.issued.length.repr
  else none

def failure : (op : WebOp) → Option op.Res
  | .findByToken _ => some (.error (.db (.other "disk I/O error")))
  | .createCart => some (.error (.db (.other "disk I/O error")))
  | .addItem _ _ => some (.error (.db (.other "disk I/O error")))
  | .listItems _ => some (.error (.db (.other "disk I/O error")))
  | .updateQty _ _ _ => some (.error (.db (.other "disk I/O error")))
  | .removeItem _ _ => some (.error (.db (.other "disk I/O error")))
  | .clear _ => some (.error (.db (.other "disk I/O error")))
  | .getCardBySlug _ => some (.error ⟨"disk I/O error"⟩)
  | .getCardById _ => some (.error ⟨"disk I/O error"⟩)
  | .newUuid => none
  | .checkout _ _ _ _ => some (.error (.db (.other "disk I/O error")))

def settle {ε α : Type} (s : Site) : Except ε (OrdersDb × α) → Except ε α × Site
  | .ok (orders, a) => (.ok a, { s with orders })
  | .error e => (.error e, s)

def scriptToken (s : Site) : String := String.ofList (List.replicate 47 '0') ++ s.issued.length.repr

def answer (s : Site) (op : WebOp) : Option (op.Res × Site) :=
  if faulty op then (failure op).map fun r => (r, s)
  else match op with
    | .findByToken raw => some (.ok (CartRepo.findByToken s.orders hashToken raw), s)
    | .createCart =>
      if isToken s.scriptToken then
        some (s.settle (CartRepo.createCart s.orders hashToken s.scriptToken 0))
      else none
    | .addItem cartId item =>
      some (s.settle ((CartRepo.addItem s.orders cartId item 0).map fun db => (db, ())))
    | .listItems cartId => some (.ok (CartRepo.listItems s.orders cartId), s)
    | .updateQty cartId itemId qty => some (s.settle
      ((CartRepo.updateQty s.orders cartId itemId qty 0).map fun db => (db, ())))
    | .removeItem cartId itemId =>
      some (.ok (), { s with orders := CartRepo.removeItem s.orders cartId itemId 0 })
    | .clear cartId => some (.ok (), { s with orders := CartRepo.clear s.orders cartId 0 })
    | .getCardBySlug slug => some (.ok (SqliteCatalogSearch.getCardBySlug s.catalog slug), s)
    | .getCardById id => some (.ok (SqliteCatalogSearch.getCardById s.catalog id), s)
    | .newUuid => s.freshUuid.map fun u => (u, s.issue u)
    | .checkout buyerId currency items contact => s.freshUuid.map fun id =>
      (s.issue id).settle (OrderRepo.checkout s.orders buyerId currency items contact id 0 0)

variable {hashToken} {faulty} {s t : Site}

theorem fresh_of_freshUuid {u : String} (h : s.freshUuid = some u) : s.Fresh u := by
  unfold freshUuid at h
  split at h
  · rename_i hfresh
    obtain rfl := Option.some.inj h
    exact ⟨hfresh.1, hfresh.2.1, Option.isNone_iff_eq_none.mp hfresh.2.2.1,
      Option.isNone_iff_eq_none.mp hfresh.2.2.2⟩
  · cases h

theorem failed_of_failure {op : WebOp} {r : op.Res} (h : failure op = some r) : Failed op r := by
  cases op with
  | newUuid => cases h
  | _ =>
    obtain rfl := Option.some.inj h
    exact ⟨_, rfl⟩

theorem outcome_settle {ε α : Type} (s : Site) (result : Except ε (OrdersDb × α)) :
    Outcome s result (s.settle result).1 (s.settle result).2 := by
  cases result with
  | error e => exact ⟨rfl, rfl⟩
  | ok out => exact ⟨rfl, rfl⟩

/-- The answers of a script are possible answers. -/
theorem exec_of_answer {op : WebOp} {r : op.Res} (h : answer hashToken faulty s op = some (r, t)) :
    exec hashToken (fun op => faulty op) s op r t := by
  unfold answer at h
  split at h
  · rename_i hfaulty
    obtain ⟨r', hr, heq⟩ := Option.map_eq_some_iff.mp h
    obtain ⟨rfl, rfl⟩ := Prod.mk.inj heq
    exact Or.inr ⟨hfaulty, failed_of_failure hr, rfl⟩
  · refine Or.inl ?_
    cases op with
    | findByToken raw | listItems cartId | getCardBySlug slug | getCardById id =>
      obtain ⟨rfl, rfl⟩ := Prod.mk.inj (Option.some.inj h)
      exact ⟨rfl, rfl⟩
    | removeItem cartId itemId | clear cartId =>
      obtain ⟨rfl, rfl⟩ := Prod.mk.inj (Option.some.inj h)
      exact ⟨0, rfl, rfl⟩
    | createCart =>
      simp only at h
      split at h
      · rename_i htoken
        obtain ⟨rfl, rfl⟩ := Prod.mk.inj (Option.some.inj h)
        exact ⟨s.scriptToken, 0, htoken, outcome_settle _ _⟩
      · cases h
    | addItem cartId item | updateQty cartId itemId qty =>
      obtain ⟨rfl, rfl⟩ := Prod.mk.inj (Option.some.inj h)
      exact ⟨0, outcome_settle _ _⟩
    | newUuid =>
      obtain ⟨u, hu, heq⟩ := Option.map_eq_some_iff.mp h
      obtain ⟨rfl, rfl⟩ := Prod.mk.inj heq
      exact ⟨fresh_of_freshUuid hu, rfl⟩
    | checkout buyerId currency items contact =>
      obtain ⟨id, hid, heq⟩ := Option.map_eq_some_iff.mp h
      obtain ⟨rfl, rfl⟩ := Prod.mk.inj heq
      exact ⟨id, 0, 0, fresh_of_freshUuid hid, outcome_settle _ _⟩

end Script

end Site

end TinyShop
