import TinyShop.Overlap

/-!
# Two checkouts of one cart

Any number of `POST /checkout` requests with one cart token. Nothing in the handler
keeps two of them from ordering the same cart; requests that read the cart one after
the other order it once.
-/

namespace TinyShop

open Base
set_option autoImplicit false

namespace DoubleSubmit
open Overlap (afterListing isListing)

section Requests
variable (hashToken : String → String) (token : String)

/-- Nobody else orders anything or changes the cart. -/
def Others (s t : Site) : Prop :=
  t.orders.orders = s.orders.orders ∧
    CartRepo.listItems t.orders (hashToken token) = CartRepo.listItems s.orders (hashToken token)

/-- Every call may fail but the one that empties the cart. -/
def requests (gate : List (WebProg Response) → WebOp → Prop) :
    System Site WebOp WebOp.Res Response where
  exec := Site.exec hashToken fun op => op ≠ .clear (hashToken token)
  env := Others hashToken token
  start _ p := ∃ app headers form, CartCookie.extractCartToken headers = some token ∧
    p = CheckoutPage.submit app headers form
  stop p := ∃ response, p = .pure response
  gate := gate

/-- No request reads the cart while another is between its reading and its end. -/
def OneByOne : List (WebProg Response) → WebOp → Prop := System.Waits afterListing isListing

/-- The orders and the cart are as they were. -/
def Calm (s t : Site) : Prop :=
  t.orders.orders.rows.length = s.orders.orders.rows.length ∧
    CartRepo.listItems t.orders (hashToken token) = CartRepo.listItems s.orders (hashToken token)

def AtMost (n : Nat) (s : Site) : Prop := s.orders.orders.rows.length ≤ n

def exclusion (n : Nat) : Exclusion Site WebOp where
  inside := afterListing
  lone op := isListing op || afterListing op
  inv := AtMost (n + 1)
  calm := Calm hashToken token
  idle s := AtMost n s ∨ CartRepo.listItems s.orders (hashToken token) = []
  refl _ := ⟨rfl, rfl⟩
  trans h h' := ⟨h'.1.trans h.1, h'.2.trans h.2⟩

variable {hashToken token}

theorem Calm.atMost {n : Nat} {s t : Site} (h : Calm hashToken token s t) (hs : AtMost n s) :
    AtMost n t := Nat.le_trans (Nat.le_of_eq h.1) hs

theorem atMost_of_checkout {n : Nat} {s t : Site} {buyerId currency : String}
    {items : List NewOrderItem} {contact : Option NewOrderContact} {r : Except OrderError String}
    {faults : WebOp → Prop} (hs : AtMost n s)
    (hx : Site.exec hashToken faults s (.checkout buyerId currency items contact) r t) :
    AtMost (n + 1) t ∧ ((∃ e, r = .error e) ∧ AtMost n t ∨ ∃ id, r = .ok id) := by
  rcases Site.exec_checkout hx with ⟨hsame, hr⟩ | ⟨id, now, clock, db, _, rfl, hrun, rfl⟩
  · have ht : AtMost n t := by
      rw [AtMost, hsame.orders]
      exact hs
    exact ⟨Nat.le_succ_of_le ht, Or.inl ⟨hr, ht⟩⟩
  · obtain ⟨_, _, total, hwritten⟩ := OrderRepo.checkout_ok hrun
    refine ⟨?_, Or.inr ⟨id, rfl⟩⟩
    simp only [AtMost, hwritten.orders, List.length_append, List.length_singleton]
    exact Nat.succ_le_succ hs

theorem clear_empties {n : Nat} {s t : Site} {r : Except CartError Unit} (hs : AtMost n s)
    (hx : Site.exec hashToken (fun op => op ≠ .clear (hashToken token)) s
      (.clear (hashToken token)) r t) :
    AtMost n t ∧ CartRepo.listItems t.orders (hashToken token) = [] := by
  rcases Site.exec_clear hx with ⟨now, _, rfl⟩ | ⟨hfault, _⟩
  · constructor
    · simp only [AtMost, (CartRepo.clear_cartsOnly _).orders]
      exact hs
    · simp only [CartRepo.listItems, CartRepo.clear_cartItems, List.filter_filter]
      simp
  · exact absurd rfl hfault

/-- Only a cart that was not ordered yet is found with items in it. -/
def steps (n : Nat) : Overlap.Steps
    (Site.exec hashToken fun op => op ≠ .clear (hashToken token)) (exclusion hashToken token n)
    token (hashToken token) where
  listed _ := AtMost n
  placed _ := True
  inside := rfl
  listed_stable h hs := h.atMost hs
  placed_stable _ _ := trivial
  listed_idle := Or.inl
  findByToken hx hi := by
    obtain ⟨rfl, _⟩ := Site.exec_findByToken hx
    exact ⟨hi, ⟨rfl, rfl⟩, id, fun cart => Overlap.tokenHash_of_findByToken hx⟩
  listItems hx hi hidle := by
    obtain ⟨rfl, hr⟩ := Site.exec_listItems hx
    refine ⟨hi, ⟨rfl, rfl⟩, id, fun items hitems hne => ?_⟩
    rcases hr with rfl | ⟨e, rfl⟩
    · exact (hidle rfl).resolve_right fun hnil => hne ((Except.ok.inj hitems).symm.trans hnil)
    · cases hitems
  getCardById hx hi := by
    obtain ⟨rfl, _⟩ := Site.exec_getCardById hx
    exact ⟨hi, ⟨rfl, rfl⟩, fun card => Overlap.id_of_getCardById hx⟩
  newUuid hx hi := by
    obtain ⟨_, rfl⟩ := Site.exec_newUuid hx
    exact ⟨hi, rfl, rfl⟩
  checkout hx _ hlisted _ := by
    obtain ⟨hi, hr⟩ := atMost_of_checkout hlisted hx
    refine ⟨hi, fun hl => absurd hl Bool.false_ne_true.symm, ?_⟩
    exact hr.imp (fun ⟨he, ht⟩ => ⟨he, Or.inl ht⟩) fun hid => ⟨hid, trivial⟩
  clear hx hi _ := by
    obtain ⟨hi, hnil⟩ := clear_empties hi hx
    exact ⟨hi, fun hl => absurd hl Bool.false_ne_true.symm, Or.inr hnil⟩

theorem Calm.of_others {s t : Site} (h : Others hashToken token s t) : Calm hashToken token s t :=
  ⟨by rw [h.1], h.2⟩

theorem Calm.idle {n : Nat} {s t : Site} (h : Calm hashToken token s t) :
    (exclusion hashToken token n).idle s → (exclusion hashToken token n).idle t :=
  Or.imp h.atMost h.2.trans

end Requests

section Script
open CheckoutPage (scriptSite scriptHeaders scriptForm noFault)

def request : WebProg Response :=
  CheckoutPage.submit ⟨"https://shop"⟩ scriptHeaders scriptForm

def twoRequests : Config Site WebOp WebOp.Res Response := ⟨scriptSite, [request, request]⟩

theorem reachable_twoRequests (gate : List (WebProg Response) → WebOp → Prop) :
    (requests id "t" gate).Reachable ⟨scriptSite, []⟩ twoRequests := by
  have hstart : ∀ ps, (requests id "t" gate).start ps request :=
    fun _ => ⟨_, scriptHeaders, scriptForm, rfl, rfl⟩
  exact (Relation.ReflTransGen.single (.start (hstart []))).tail (.start (hstart _))

theorem exec_of_answer {s t : Site} {op : WebOp} {r : op.Res}
    (h : Site.answer id noFault s op = some (r, t)) :
    Site.exec id (fun op => op ≠ .clear (id "t")) s op r t :=
  Site.exec_mono (fun _ hfault => absurd hfault Bool.false_ne_true) (Site.exec_of_answer h)

/-- No call waits for another request. -/
def freely : List (WebProg Response) → (s : Site) → (op : WebOp) → Option (op.Res × Site) :=
  System.waiting afterListing (fun _ => false) (Site.answer id noFault)

theorem answers_freely : System.Answers freely (requests id "t" fun _ _ => True) :=
  System.answers_waiting (fun _ _ _ => trivial) fun _ _ _ _ => exec_of_answer

def oneByOne : List (WebProg Response) → (s : Site) → (op : WebOp) → Option (op.Res × Site) :=
  System.waiting afterListing isListing (Site.answer id noFault)

theorem answers_oneByOne : System.Answers oneByOne (requests id "t" OneByOne) :=
  System.answers_waiting (fun _ _ h => h) fun _ _ _ _ => exec_of_answer

/-- The two requests take turns. -/
def alternating : List Nat := (List.replicate 10 [0, 1]).flatten

/-- Requests that read the cart one after the other place one order at most. -/
theorem at_most_one_order {hashToken : String → String} {token : String} {s : Site}
    {d : Config Site WebOp WebOp.Res Response}
    (h : (requests hashToken token OneByOne).Reachable ⟨s, []⟩ d) :
    d.state.orders.orders.rows.length ≤ s.orders.orders.rows.length + 1 := by
  have hstart : ∀ ps p, (requests hashToken token OneByOne).start ps p →
      p.within afterListing = false ∧ p.EntersBy afterListing isListing := by
    rintro ps p ⟨app, headers, form, _, rfl⟩
    exact Overlap.entersBy_submit app headers form
  have hexclusive := (System.reachable_exclusive (fun _ _ hgate => hgate) hstart h).1
  have hlone : ∀ others op,
      ((requests hashToken token OneByOne).exclusive afterListing).gate others op →
        System.Waits afterListing (fun op => isListing op || afterListing op) others op := by
    rintro others op ⟨hgate, hinside⟩ hop
    exact (Bool.or_eq_true _ _ ▸ hop).elim hgate hinside
  have hheld := System.held_of_reachable
    (D := exclusion hashToken token s.orders.orders.rows.length) hlone ?_ ?_ ?_ hexclusive
    (Nat.le_succ _) (Or.inr (Or.inl (Nat.le_refl _))) (by simp)
  · exact hheld.1
  · intro s t he hs
    have hcalm := Calm.of_others he
    exact ⟨hcalm.atMost hs, hcalm, hcalm.idle⟩
  · rintro ps p ⟨app, headers, form, htoken, rfl⟩
    exact (steps _).held_submit htoken
  · rintro p ⟨response, rfl⟩
    exact Or.inl rfl

theorem at_most_one_order_script : ∃ d : Config Site WebOp WebOp.Res Response,
    (requests id "t" OneByOne).Reachable ⟨scriptSite, []⟩ d ∧
      d.state.orders.orders.rows.map OrderRow.id = ["4"] ∧
      d.state.orders.orders.rows.length ≤ scriptSite.orders.orders.rows.length + 1 := by
  have hreach := (reachable_twoRequests OneByOne).trans
    (System.reachable_drive answers_oneByOne alternating twoRequests)
  exact ⟨_, hreach, rfl, at_most_one_order hreach⟩

/-- Two requests that both read the cart before either of them orders it. -/
theorem two_orders : ∃ d : Config Site WebOp WebOp.Res Response,
    (requests id "t" fun _ _ => True).Reachable ⟨scriptSite, []⟩ d ∧
      scriptSite.orders.orders.rows = [] ∧
      d.state.orders.orders.rows.map OrderRow.id = ["8", "9"] := by
  have hreach := (reachable_twoRequests fun _ _ => True).trans
    (System.reachable_drive answers_freely alternating twoRequests)
  exact ⟨_, hreach, rfl, rfl⟩

end Script

end DoubleSubmit

end TinyShop
