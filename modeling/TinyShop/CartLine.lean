import TinyShop.CartStore

/-!
# One line of a cart

A line is a product in a cart, in one variant or in none. Whatever is added to it, in any
order and among any other calls, it keeps one row, and the quantity of the row is the sum
of what was added, cut off at `MAX_QTY` once.
-/

namespace TinyShop

open Base
set_option autoImplicit false

structure CartLine where
  cartId : String
  productId : String
  variantId : Option String
deriving DecidableEq, Repr

namespace CartLine
open CartRepo CartStore OrdersConnection

/-- The row is about the line itself; the unique index sees an absent variant as `''`. -/
def isRow (l : CartLine) (r : CartItem) : Bool :=
  r.cartId = l.cartId && r.productId = l.productId && r.variantId = l.variantId

theorem isRow_iff {l : CartLine} {r : CartItem} :
    l.isRow r = true ↔ (⟨r.cartId, r.productId, r.variantId⟩ : CartLine) = l := by
  simp only [isRow, Bool.and_eq_true, decide_eq_true_eq]
  constructor
  · rintro ⟨⟨hcart, hproduct⟩, hvariant⟩
    rw [hcart, hproduct, hvariant]
  · rintro rfl
    exact ⟨⟨rfl, rfl⟩, rfl⟩

def rows (l : CartLine) (db : OrdersDb) : List CartItem := db.cartItems.rows.filter l.isRow

/-- The item of an `add_item` on the line. -/
def adds (l : CartLine) : OrdersCall → Option NewCartItem
  | .addItem cartId item =>
    if (⟨cartId, item.productId, item.variantId⟩ : CartLine) = l then some item else none
  | _ => none

/-- What a call that succeeded has added to the line. -/
def added (l : CartLine) (e : Entry) : Option NewCartItem :=
  match e.answer with
  | .ok _ => l.adds e.call
  | .error _ => none

/-- The rows that a call is meant to change or to remove. -/
def addresses : OrdersCall → CartItem → Bool
  | .updateQty cartId itemId _ | .removeItem cartId itemId => isItem cartId itemId
  | .clear cartId => fun r => r.cartId = cartId
  | _ => fun _ => false

/-- The call does not update, remove or clear the line. -/
def Spared (l : CartLine) (e : Entry) : Prop :=
  e.answer.isOk = true → ∀ r ∈ l.rows e.before, addresses e.call r = false

instance (l : CartLine) (e : Entry) : Decidable (l.Spared e) :=
  inferInstanceAs (Decidable (e.answer.isOk = true → ∀ r ∈ l.rows e.before, _))

/-! ## What a call does to the rows -/

/-- What a call that succeeds does to the rows of all carts. -/
inductive RowsStep (c : OrdersCall) (now : Int64) (old new : List CartItem) : Prop where
  | kept (hadd : ∀ cartId item, c ≠ .addItem cartId item) (hrows : new = old)
  | first (cartId : String) (item : NewCartItem) (hadd : c = .addItem cartId item)
      (haccepted : Accepted item) (hfree : ∀ r ∈ old, r.line ≠ lineOf cartId item) (id : Int)
      (hrows : new = old ++ [{ newRow cartId item now with id }])
  | again (cartId : String) (item : NewCartItem) (hadd : c = .addItem cartId item)
      (haccepted : Accepted item) (htaken : ∃ r ∈ old, r.line = lineOf cartId item)
      (hrows : new = old.map fun r => if r.line = lineOf cartId item then merge item now r else r)
  | changed (hadd : ∀ cartId item, c ≠ .addItem cartId item) (qty : Int)
      (hrows : new = old.map fun r => if addresses c r then { r with qty } else r)
  | removed (hadd : ∀ cartId item, c ≠ .addItem cartId item)
      (hrows : new = old.filter fun r => !addresses c r)

section Steps
variable {hashToken : String → String} {now clock : Int64} {db db' : OrdersDb} {c : OrdersCall}
  {a : OrdersAnswer}

theorem rowsStep_of_perform (hdb : db.ItemsOrdered)
    (h : c.perform hashToken now clock db = .ok (a, db')) :
    RowsStep c now db.cartItems.rows db'.cartItems.rows := by
  have hperform := h
  cases OrdersCall.effect_of_perform h with
  | createOrder _ _ | addOrderItem _ _ | checkout _ _ _ _ _ _ _ =>
    obtain ⟨_, hs⟩ := OrderStore.step_of_perform hdb hperform id
    exact .kept (fun _ _ => OrdersCall.noConfusion) (by rw [hs.cartItems])
  | createCart raw created hx =>
    exact .kept (fun _ _ => OrdersCall.noConfusion) (by rw [(createCart_ok hx).2])
  | addItem cartId item hx =>
    obtain ⟨-, -, ⟨hfree, hrows⟩ | ⟨htaken, hrows⟩⟩ := addItem_ok hx
    · exact .first cartId item rfl (addItem_accepted hx) hfree _ hrows
    · exact .again cartId item rfl (addItem_accepted hx) htaken hrows
  | updateQty cartId itemId qty hx =>
    unfold CartRepo.updateQty at hx
    split at hx
    · cases hx
    · obtain rfl := Except.ok.inj hx
      rw [touchIf_cartItems]
      split
      · exact .removed (fun _ _ => OrdersCall.noConfusion) rfl
      · exact .changed (fun _ _ => OrdersCall.noConfusion) qty rfl
  | removeItem cartId itemId hdb' =>
    subst hdb'
    refine .removed (fun _ _ => OrdersCall.noConfusion) ?_
    rw [CartRepo.removeItem, touchIf_cartItems]
    rfl
  | clear cartId hdb' =>
    subst hdb'
    exact .removed (fun _ _ => OrdersCall.noConfusion) (clear_cartItems cartId)

end Steps

/-! ## Rows and lines -/

/-- The `CHECK` on the variants of the rows. -/
def Checked (rows : List CartItem) : Prop :=
  ∀ r ∈ rows, ∀ v ∈ r.variantId, Text.sqlLength v ≠ 0

/-- No variant that is stored looks like an absent one. -/
theorem variant_inj {v w : Option String} (hv : ∀ s ∈ v, Text.sqlLength s ≠ 0)
    (hw : ∀ s ∈ w, Text.sqlLength s ≠ 0) (h : v.getD "" = w.getD "") : v = w := by
  cases v with
  | none =>
    cases w with
    | none => rfl
    | some s => exact absurd (congrArg Text.sqlLength h.symm) (hw s rfl)
  | some s =>
    cases w with
    | none => exact absurd (congrArg Text.sqlLength h) (hv s rfl)
    | some t => exact congrArg some h

section Rows
variable {rows old new : List CartItem} {c : OrdersCall} {now : Int64}

/-- The conflict target meets the rows of the line and no others. -/
theorem line_eq_iff {cartId : String} {item : NewCartItem} (hitem : Accepted item) {r : CartItem}
    (hr : ∀ v ∈ r.variantId, Text.sqlLength v ≠ 0) : r.line = lineOf cartId item ↔
      isRow ⟨cartId, item.productId, item.variantId⟩ r = true := by
  simp only [isRow_iff, CartItem.line, lineOf, Prod.mk.injEq, CartLine.mk.injEq]
  constructor
  · rintro ⟨hcart, hproduct, hvariant⟩
    exact ⟨hcart, hproduct, variant_inj hr hitem.variant hvariant⟩
  · rintro ⟨hcart, hproduct, hvariant⟩
    exact ⟨hcart, hproduct, congrArg (Option.getD · "") hvariant⟩

theorem Checked.map (h : Checked rows) {f : CartItem → CartItem}
    (hf : ∀ r, (f r).variantId = r.variantId) : Checked (rows.map f) := by
  intro r hr
  obtain ⟨s, hs, rfl⟩ := List.mem_map.mp hr
  rw [hf]
  exact h s hs

theorem Checked.step (h : Checked old) (hs : RowsStep c now old new) : Checked new := by
  cases hs with
  | kept _ hrows =>
    rw [hrows]
    exact h
  | first cartId item _ haccepted _ id hrows =>
    rw [hrows]
    intro r hr
    rcases List.mem_append.mp hr with hr | hr
    · exact h r hr
    · rw [List.mem_singleton.mp hr]
      exact haccepted.variant
  | again cartId item _ _ _ hrows =>
    rw [hrows]
    refine h.map fun r => ?_
    split <;> rfl
  | changed _ qty hrows =>
    rw [hrows]
    refine h.map fun r => ?_
    split <;> rfl
  | removed _ hrows =>
    rw [hrows]
    exact fun r hr => h r (List.mem_of_mem_filter hr)

/-- What a call does to the rows of a line that it does not disturb. -/
inductive LineStep (now : Int64) (old new : List CartItem) : Option NewCartItem → Prop where
  | kept (hrows : new = old) : LineStep now old new none
  | first (item : NewCartItem) (haccepted : Accepted item) (hold : old = []) (id : Int)
      (cartId : String) (hrows : new = [{ newRow cartId item now with id }]) :
      LineStep now old new (some item)
  | again (item : NewCartItem) (haccepted : Accepted item) (hold : old ≠ [])
      (hrows : new = old.map (merge item now)) : LineStep now old new (some item)

theorem adds_eq_none (l : CartLine) (hadd : ∀ cartId item, c ≠ .addItem cartId item) :
    l.adds c = none := by
  cases c with
  | addItem cartId item => exact absurd rfl (hadd cartId item)
  | _ => rfl

/-- A change of the rows that keeps their lines. -/
theorem filter_isRow_map (l : CartLine) {f : CartItem → CartItem}
    (hf : ∀ r, l.isRow (f r) = l.isRow r) :
    (rows.map f).filter l.isRow = (rows.filter l.isRow).map f := by
  rw [List.filter_map]
  congr 2
  exact funext hf

/-- A change that meets no row. -/
theorem map_of_none {p : CartItem → Prop} [DecidablePred p] {f : CartItem → CartItem}
    (h : ∀ r ∈ rows, ¬ p r) : (rows.map fun r => if p r then f r else r) = rows :=
  (List.map_congr_left fun r hr => if_neg (h r hr)).trans (List.map_id rows)

section Added
variable {cartId : String} {item : NewCartItem} (l : CartLine) (haccepted : Accepted item)
include haccepted

theorem lineStep_first (hchecked : Checked old) (hfree : ∀ r ∈ old, r.line ≠ lineOf cartId item)
    (id : Int) : LineStep now (old.filter l.isRow)
      ((old ++ [{ newRow cartId item now with id }]).filter l.isRow)
      (l.adds (.addItem cartId item)) := by
  by_cases hl : (⟨cartId, item.productId, item.variantId⟩ : CartLine) = l
  · subst hl
    have hnone : old.filter (isRow ⟨cartId, item.productId, item.variantId⟩) = [] :=
      List.filter_eq_nil_iff.mpr fun r hr hrow =>
        hfree r hr ((line_eq_iff haccepted (hchecked r hr)).mpr hrow)
    rw [adds, if_pos rfl, List.filter_append, hnone]
    refine .first item haccepted rfl id cartId ?_
    simp [isRow, newRow]
  · have hnew : l.isRow { newRow cartId item now with id } = false := by
      rw [← Bool.not_eq_true]
      exact fun hrow => hl (isRow_iff.mp hrow)
    rw [adds, if_neg hl, List.filter_append]
    refine .kept ?_
    simp [hnew]

theorem lineStep_again (hchecked : Checked old) (htaken : ∃ r ∈ old, r.line = lineOf cartId item) :
    LineStep now (old.filter l.isRow)
      ((old.map fun r =>
        if r.line = lineOf cartId item then merge item now r else r).filter l.isRow)
      (l.adds (.addItem cartId item)) := by
  have hkeeps : ∀ r, l.isRow (if r.line = lineOf cartId item then merge item now r else r) =
      l.isRow r := by
    intro r
    split <;> rfl
  rw [filter_isRow_map l hkeeps]
  by_cases hl : (⟨cartId, item.productId, item.variantId⟩ : CartLine) = l
  · subst hl
    rw [adds, if_pos rfl]
    refine .again item haccepted ?_ (List.map_congr_left fun r hr => if_pos ?_)
    · obtain ⟨r, hr, hline⟩ := htaken
      exact List.ne_nil_of_mem
        (List.mem_filter.mpr ⟨hr, (line_eq_iff haccepted (hchecked r hr)).mp hline⟩)
    · obtain ⟨hold, hrow⟩ := List.mem_filter.mp hr
      exact (line_eq_iff haccepted (hchecked r hold)).mpr hrow
  · rw [adds, if_neg hl]
    refine .kept (map_of_none fun r hr hline => hl ?_)
    obtain ⟨hold, hrow⟩ := List.mem_filter.mp hr
    have hitem := (line_eq_iff haccepted (hchecked r hold)).mp hline
    exact (isRow_iff.mp hitem).symm.trans (isRow_iff.mp hrow)

end Added

theorem lineStep (l : CartLine) (hchecked : Checked old) (hs : RowsStep c now old new)
    (hspared : ∀ r ∈ old.filter l.isRow, addresses c r = false) :
    LineStep now (old.filter l.isRow) (new.filter l.isRow) (l.adds c) := by
  cases hs with
  | kept hadd hrows =>
    rw [adds_eq_none l hadd, hrows]
    exact .kept rfl
  | first cartId item hadd haccepted hfree id hrows =>
    subst hadd hrows
    exact lineStep_first l haccepted hchecked hfree id
  | again cartId item hadd haccepted htaken hrows =>
    subst hadd hrows
    exact lineStep_again l haccepted hchecked htaken
  | changed hadd qty hrows =>
    subst hrows
    have hkeeps : ∀ r, l.isRow (if addresses c r then { r with qty } else r) = l.isRow r := by
      intro r
      split <;> rfl
    rw [adds_eq_none l hadd, filter_isRow_map l hkeeps]
    refine .kept (map_of_none fun r hr => ?_)
    rw [hspared r hr]
    exact Bool.false_ne_true
  | removed hadd hrows =>
    rw [adds_eq_none l hadd, hrows, List.filter_filter]
    refine .kept (List.filter_congr fun r hr => ?_)
    cases hrow : l.isRow r with
    | false => rfl
    | true =>
      rw [hspared r (List.mem_filter.mpr ⟨hr, hrow⟩)]
      rfl

end Rows

/-! ## Runs -/

/-- Nothing was added and the line has no row, or it has one for all that was added; `last`
is what was added last. -/
inductive Summed : List NewCartItem → List CartItem → Prop where
  | absent : Summed [] []
  | present (last : NewCartItem) (others : List NewCartItem) (row : CartItem)
      (hqty : row.qty = min maxQty ((last :: others).map NewCartItem.qty).sum)
      (htitle : row.title = last.title) (hprice : row.unitPriceMinor = last.unitPriceMinor)
      (hcurrency : row.currency = last.currency) : Summed (last :: others) [row]

/-- The clamp of an earlier sum is forgotten in a later one. -/
theorem Summed.step {items : List NewCartItem} {old new : List CartItem} {now : Int64}
    {item : Option NewCartItem} (h : Summed items old) (hs : LineStep now old new item) :
    Summed (item.toList ++ items) new := by
  cases hs with
  | kept hrows =>
    rw [hrows]
    exact h
  | first item haccepted hold id cartId hrows =>
    subst hold hrows
    cases h
    have hbounded := haccepted.bounded
    refine .present item [] _ ?_ rfl rfl rfl
    rw [List.map_singleton, List.sum_singleton]
    exact (min_eq_right hbounded).symm
  | again item haccepted hold hrows =>
    cases h with
    | absent => exact absurd rfl hold
    | present last others row hqty =>
      rw [hrows]
      have hpositive := haccepted.positive
      refine .present item (last :: others) (merge item now row) ?_ rfl rfl rfl
      have hsum : ((item :: last :: others).map NewCartItem.qty).sum =
          item.qty + ((last :: others).map NewCartItem.qty).sum := List.sum_cons
      change min (row.qty + item.qty) maxQty = _
      rw [hqty, hsum]
      omega

section Runs
variable {hashToken : String → String} {fails : SqlxError → Prop} {log later earlier : List Entry}
  {db db' : OrdersDb}

theorem checked_of_session (h : Session hashToken fails log db) : Checked db.cartItems.rows := by
  refine h.induct (J := fun _ db => Checked db.cartItems.rows) (fun r hr => by cases hr) ?_ id
  intro log db db' now clock c r hs ih hperform
  exact ih.step (rowsStep_of_perform hs.reachable.itemsOrdered hperform)

/-- The log of a run says what it ends with. -/
theorem eq_of_session (h : Session hashToken fails log db) (h' : Session hashToken fails log db') :
    db = db' := by
  cases h with
  | empty =>
    cases h'
    rfl
  | call c hs hrun =>
    cases h'
    rfl

theorem filterMap_cons_toList {α β : Type} (f : α → Option β) (a : α) (as : List α) :
    (a :: as).filterMap f = (f a).toList ++ as.filterMap f := by
  rw [List.filterMap_cons]
  cases f a <;> rfl

theorem summed_of_session (l : CartLine) (hearlier : Session hashToken fails earlier db)
    (habsent : l.rows db = []) (h : Session hashToken fails (later ++ earlier) db')
    (hspared : ∀ e ∈ later, l.Spared e) : Summed (later.filterMap l.added) (l.rows db') := by
  induction later generalizing db' with
  | nil =>
    obtain rfl := eq_of_session hearlier h
    rw [habsent]
    exact .absent
  | cons e later ih =>
    have hrest : ∀ e' ∈ later, l.Spared e' := fun e' he' => hspared e' (List.mem_cons_of_mem _ he')
    cases h with
    | @call _ before _ now clock answer c hs hrun =>
      have hsummed := ih hs hrest
      rcases call_cases hrun with ⟨a, rfl, hperform⟩ | ⟨⟨error, rfl⟩, rfl⟩
      · have hstep := lineStep l (checked_of_session hs)
          (rowsStep_of_perform hs.reachable.itemsOrdered hperform)
          (hspared _ List.mem_cons_self rfl)
        have hadded : l.added ⟨c, .ok a, before, db'⟩ = l.adds c := rfl
        rw [filterMap_cons_toList, hadded]
        exact hsummed.step hstep
      · exact hsummed

/-- Items that are added to a line, one after the other in any order and among any other calls,
are all counted: the line, absent at first and neither updated nor removed nor cleared in
between, ends with one row, with the sum of the quantities or `MAX_QTY` and with what the last
of them was called and cost. -/
theorem line_sums (l : CartLine) (hearlier : Session hashToken fails earlier db)
    (habsent : l.rows db = []) (h : Session hashToken fails (later ++ earlier) db')
    (hspared : ∀ e ∈ later, l.Spared e) {items : List NewCartItem} {last : NewCartItem}
    (hitems : (later.filterMap l.added).Perm items)
    (hlast : (later.filterMap l.added).head? = some last) :
    ∃ row, l.rows db' = [row] ∧ row.qty = min maxQty (items.map NewCartItem.qty).sum ∧
      row.title = last.title ∧ row.unitPriceMinor = last.unitPriceMinor ∧
      row.currency = last.currency := by
  have hsummed := summed_of_session l hearlier habsent h hspared
  generalize later.filterMap l.added = all at hsummed hitems hlast
  generalize hrows : l.rows db' = rows at hsummed
  cases hsummed with
  | absent => cases hlast
  | present newest others row hqty htitle hprice hcurrency =>
    obtain rfl := Option.some.inj hlast
    refine ⟨row, rfl, ?_, htitle, hprice, hcurrency⟩
    rw [hqty, (hitems.map NewCartItem.qty).sum_eq]

end Runs

/-- Two adds that pass the limit, with another line, another variant, a refused item and a
change of another row among them. -/
def lampCalls : List OrdersCall :=
  [.clear "b", .addItem "a" ⟨"lamp", none, 2, "New lamp", 150, "UAH"⟩, .updateQty "a" 2 5,
    .addItem "a" (scriptItem "lamp" (some "") 7), .addItem "a" (scriptItem "lamp" (some "red") 3),
    .addItem "a" (scriptItem "lamp" none 998), .createCart "a"]

def lamp : CartLine := ⟨"a", "lamp", none⟩

theorem line_sums_lamp : ∃ row, lamp.rows (play id lampCalls).2 = [row] ∧ row.qty = 999 ∧
    row.title = "New lamp" ∧ row.unitPriceMinor = 150 ∧ row.currency = "UAH" :=
  have hsession : Session id (fun _ => False) ((play id lampCalls).1 ++ [])
      (play id lampCalls).2 := by
    rw [List.append_nil]
    exact session_play id lampCalls
  have hitems : ((play id lampCalls).1.filterMap lamp.added).Perm
      [scriptItem "lamp" none 998, ⟨"lamp", none, 2, "New lamp", 150, "UAH"⟩] := by decide
  line_sums lamp .empty rfl hsession (by decide) hitems rfl

end CartLine

end TinyShop
