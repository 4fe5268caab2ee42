import TinyShop.OrderOrigin
import TinyShop.OrderPages
import TinyShop.Pages
import TinyShop.PriceText

/-!
# Receipts

The page on which a checkout ends, `GET /checkout/done/{order_id}`. Once a buyer was sent to
it, it is there for good, and what is printed on it adds up.
-/

namespace TinyShop

open Base
set_option autoImplicit false

/-- An amount and its currency, read from what `price` shows. -/
def readPrice (s : String) : Option (ℚ × String) := do
  let (amount, currency) ← Text.splitOnce ' ' s.toList
  let q ← Decimal.read amount
  return (q, String.ofList currency)

/-- The texts of the cells in the rows of a page's tables. -/
def shownLines (page : List Markup) : List (List String) :=
  (Markup.selectAll "tr" (Markup.selectAll "tbody" page)).map fun tr =>
    (tr.select "td").map Markup.innerText

/-- The amounts at the ends of the lines, in one currency, have the sum that is shown. -/
def AddsUp (page : List Markup) : Prop := ∃ (amounts : List ℚ) (currency : String),
  (shownLines page).map (fun cells => cells.getLast?.bind readPrice) =
      amounts.map (fun q => some (q, currency)) ∧
    (shownTotals page).map readPrice = [some (amounts.sum, currency)]

section Shown
open Markup Jsonld

theorem readPrice_formatPriceMinor (minor : Int64) (currency : String) :
    readPrice (formatPriceMinor minor ++ " " ++ currency) =
      some ((minor.toInt : ℚ) / 10 ^ 2, currency) := by
  have hspace : ' ' ∉ (formatPriceMinor minor).toList := by
    rw [toList_formatPriceMinor]
    intro hmem
    rcases Decimal.mem_write hmem with heq | heq | hdigit
    · cases heq
    · cases heq
    · cases hdigit
  have hsplit : Text.splitOnce ' ' (formatPriceMinor minor ++ " " ++ currency).toList =
      some ((formatPriceMinor minor).toList, currency.toList) := by
    rw [String.toList_append, String.toList_append, List.append_assoc]
    exact Text.splitOnce_append hspace _
  have hread : Decimal.read (formatPriceMinor minor).toList = some ((minor.toInt : ℚ) / 10 ^ 2) := by
    rw [toList_formatPriceMinor, Decimal.read_write (by decide)]
  rw [readPrice, hsplit, Option.bind_eq_bind, Option.bind_some]
  dsimp only
  rw [hread, Option.bind_eq_bind, Option.bind_some, String.ofList_toList]
  rfl

theorem selectAll_rows {α : Type} {row : α → Markup} (h : ∀ a, (row a).select "tr" = [row a])
    (as : List α) : selectAll "tr" (as.map row) = as.map row := by
  induction as with
  | nil => rfl
  | cons a as ih => rw [List.map_cons, selectAll, h, ih, List.singleton_append]

/-- A line for each item. -/
theorem shownLines_donePage (order : Order) : shownLines (CheckoutPage.donePage order).main =
    order.items.map fun item =>
      [item.title, formatPriceMinor item.unitPriceMinor ++ " " ++ item.currency] := by
  have hrows : selectAll "tr" (order.items.map CheckoutPage.orderRow) =
      order.items.map CheckoutPage.orderRow := selectAll_rows (fun _ => rfl) _
  have hbody : selectAll "tbody" (CheckoutPage.donePage order).main =
      [element "tbody" [] (order.items.map CheckoutPage.orderRow)] := by
    simp [CheckoutPage.donePage, CheckoutPage.orderSummary, pageHeading, paragraphLink, column,
      price, select, selectAll]
  rw [shownLines, hbody, selectAll, selectAll, List.append_nil, select, if_neg (by decide), hrows,
    List.map_map]
  refine List.map_congr_left fun item _ => ?_
  simp [CheckoutPage.orderRow, select, selectAll, innerText, innerTexts, innerTexts_price]

theorem shownTotals_donePage (order : Order) : shownTotals (CheckoutPage.donePage order).main =
    [formatPriceMinor order.totalMinor ++ " " ++ order.currency] := by
  have hrows : selectAll "tfoot" (order.items.map CheckoutPage.orderRow) = [] :=
    selectAll_map (fun _ => rfl) _
  simp [shownTotals, CheckoutPage.donePage, CheckoutPage.orderSummary, pageHeading, paragraphLink,
    column, select, selectAll, innerText, innerTexts_price, hrows]

/-- The page adds up if the order does. -/
theorem addsUp_donePage {order : Order}
    (hcurrency : ∀ item ∈ order.items, item.currency = order.currency)
    (htotal : order.totalMinor.toInt = (order.items.map fun i => i.unitPriceMinor.toInt).sum) :
    AddsUp (CheckoutPage.donePage order).main := by
  refine ⟨order.items.map fun item => (item.unitPriceMinor.toInt : ℚ) / 10 ^ 2, order.currency,
    ?_, ?_⟩
  · rw [shownLines_donePage, List.map_map, List.map_map]
    refine List.map_congr_left fun item hitem => ?_
    simp [readPrice_formatPriceMinor, hcurrency item hitem]
  · have hsum : (order.items.map fun item => (item.unitPriceMinor.toInt : ℚ) / 10 ^ 2).sum =
        (order.totalMinor.toInt : ℚ) / 10 ^ 2 := by
      simp only [div_eq_mul_inv]
      rw [List.sum_map_mul_right, htotal, Int.cast_list_sum, List.map_map]
      rfl
    rw [shownTotals_donePage, hsum, List.map_singleton, readPrice_formatPriceMinor]

end Shown

namespace OrderOrigin
open CheckoutPage (SoldUnit soldUnit donePage renderDone)
open Jsonld (formatPriceMinor)

/-- The line of the page for one unit. -/
def line (u : SoldUnit) : List String :=
  [u.title, formatPriceMinor u.priceMinor ++ " " ++ u.currency]

section Confirmed
variable {hashToken : String → String} {faults : WebOp → Prop} {c d : Recorded Site} {o : OrderRow}

/-- The order as the page gets it. -/
def confirmed (db : OrdersDb) (o : OrderRow) : Order :=
  { o.order with items := OrderRepo.fetchItems db o.id }

theorem renderDone_eq {db : OrdersDb} (ho : o ∈ db.orders.rows) :
    renderDone db o.id = .ok (donePage (confirmed db o)) := by
  have hfind : db.orders.find? o.id = some o := Table.find?_of_mem ho
  rw [renderDone, OrderRepo.getOrderWithItems, hfind]
  simp only [OrderRepo.mapOrderRow_ok]
  rfl

/-- What is kept of the order is all that the page shows. -/
theorem confirmed_kept {db db' : OrdersDb} (h : Kept db db') (ho : o ∈ db.orders.rows) :
    confirmed db' o = confirmed db o := by
  rw [confirmed, (h o ho).2.1]
  rfl

theorem shownLines_confirmed {positions : List Priced}
    (h : (OrderRepo.fetchItems d.now.orders o.id).map soldUnit = positions.flatMap units) :
    shownLines (donePage (confirmed d.now.orders o)).main = (positions.flatMap units).map line := by
  rw [shownLines_donePage, ← h, List.map_map]
  rfl

theorem addsUp_confirmed {positions : List Priced} (hqty : ∀ p ∈ positions, 0 < p.1.qty)
    (hitems : (OrderRepo.fetchItems d.now.orders o.id).map soldUnit = positions.flatMap units)
    (htotal : o.totalMinor.toInt = (positions.map cost).sum)
    (hcurrency : ∀ p ∈ positions, p.2.currency = o.currency) :
    AddsUp (donePage (confirmed d.now.orders o)).main := by
  refine addsUp_donePage (fun item hitem => ?_) ?_
  · have hunit : soldUnit item ∈ positions.flatMap units := by
      rw [← hitems]
      exact List.mem_map_of_mem hitem
    obtain ⟨p, hp, hmem⟩ := List.mem_flatMap.mp hunit
    have heq := List.eq_of_mem_replicate hmem
    exact (congrArg SoldUnit.currency heq).trans (hcurrency p hp)
  · have hprices : ((OrderRepo.fetchItems d.now.orders o.id).map fun i => i.unitPriceMinor.toInt) =
        (positions.flatMap units).map fun u => u.priceMinor.toInt := by
      rw [← hitems, List.map_map]
      rfl
    exact htotal.trans ((sum_units hqty).symm.trans (congrArg List.sum hprices).symm)

/-- A buyer who was led to the page of an order finds it there, the same whatever happens later:
it lists the units that one cart held at one moment, at prices on sale from then on, and its
lines add up to its total. -/
theorem receipt_for_good {s : Site} {c d : Config (Recorded Site) WebOp WebOp.Res Response}
    {response : Response} {id : String} (hs : s.orders.orders.rows = [])
    (hitems : s.orders.orderItems.rows = [])
    (hc : (requests hashToken faults).recorded.Reachable ⟨.start s, []⟩ c)
    (hresponse : .pure response ∈ c.procs)
    (hdone : response.location = some ("/checkout/done/" ++ id))
    (hd : (requests hashToken faults).recorded.Reachable c d) :
    ∃ page a cartId positions, renderDone c.state.now.orders id = .ok page ∧
      renderDone d.state.now.orders id = .ok page ∧
      positions ≠ [] ∧ Snapshot a c.state cartId positions ∧
      shownLines page.main = (positions.flatMap units).map line ∧ AddsUp page.main := by
  obtain ⟨hsound, hprocs⟩ := walks_of_reachable hs hitems hc
  obtain ⟨o, ho, rfl⟩ := hprocs _ hresponse _ (contract.refl _) hsound id hdone
  obtain ⟨a, _, cartId, positions, hne, hsnapshot, hlater, _, hunits, htotal, hcurrency⟩ :=
    (hsound.2 o ho).origin
  have hkept : Kept c.state.now.orders d.state.now.orders :=
    kept_of_reachable (System.reachable_of_recorded hd)
  refine ⟨_, a, cartId, positions, renderDone_eq ho, ?_, hne, hsnapshot.mono hlater,
    shownLines_confirmed hunits, addsUp_confirmed hsnapshot.positive hunits htotal hcurrency⟩
  rw [renderDone_eq (hkept o ho).1, confirmed_kept hkept ho]

end Confirmed

section Script
open CheckoutPage (scriptSite noFault)

def play (schedule : List Nat) (c : Config Site WebOp WebOp.Res Response) :
    Config Site WebOp WebOp.Res Response :=
  System.drive (fun _ => Site.answer id noFault) schedule c

/-- The first of two checkouts has come to its end. -/
def firstDone : Config Site WebOp WebOp.Res Response :=
  play (List.replicate 12 0) ⟨scriptSite, [request, request]⟩

/-- The first of two checkouts of one cart runs to its end, then the second. -/
theorem receipt_for_good_script : ∃ (c d : Config (Recorded Site) WebOp WebOp.Res Response)
    (page : PageShell), d.state.now = (play (List.replicate 12 1) firstDone).state ∧
      renderDone c.state.now.orders "4" = .ok page ∧ renderDone d.state.now.orders "4" = .ok page ∧
      AddsUp page.main := by
  obtain ⟨past, hc⟩ := System.exists_record (reachable_requests.trans
    (System.reachable_drive answers_script (List.replicate 12 0) _)) []
  obtain ⟨past', hd⟩ := System.exists_record
    (System.reachable_drive answers_script (List.replicate 12 1) firstDone) past
  have hfirst : firstDone.procs.head? =
      some (.pure (CheckoutPage.done ⟨"https://shop"⟩ "4")) := rfl
  obtain ⟨page, _, _, _, hshown, hlater, _, _, _, hsum⟩ :=
    receipt_for_good (s := scriptSite) rfl rfl hc (List.mem_of_head? hfirst) rfl hd
  exact ⟨_, _, page, rfl, hshown, hlater, hsum⟩

end Script

end OrderOrigin

end TinyShop
