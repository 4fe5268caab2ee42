import TinyShop.Browsers
import TinyShop.FilterForm
import TinyShop.RejectedAdd

/-!
# The forms of the cart

A product page has a form that adds the product, and each row of the cart two forms that change
its quantity and remove it. A form does what it was sent for, from however old a page: it is the
row that stood next to it that changes, if that is still in the cart, and no other.
-/

namespace TinyShop

open Base Markup
set_option autoImplicit false

/-! ## What the server reads -/

/-- A field of a struct; a repeated field is an error. -/
def field? (raw : List (String × String)) (key : String) : Option (Option String) :=
  match CategoryPage.valuesFor raw key with
  | [] => some none
  | [value] => some (some value)
  | _ => none

/-- A field that has to be there. -/
def field (raw : List (String × String)) (key : String) : Option String := (field? raw key).join

/-- `Form<AddForm>`; a body that does not fit is answered before the handler. -/
def AddForm.extract (raw : List (String × String)) : Option AddForm := do
  let slug ← field raw "slug"
  match ← field? raw "qty" with
  | none => some { slug }
  | some qty => (Text.parseI64 qty.toList).map fun qty => { slug, qty }

def UpdateForm.extract (raw : List (String × String)) : Option UpdateForm := do
  let itemId ← field raw "item_id"
  let qty ← field raw "qty"
  let itemId ← Text.parseI64 itemId.toList
  (Text.parseI64 qty.toList).map fun qty => { itemId, qty }

def RemoveForm.extract (raw : List (String × String)) : Option RemoveForm := do
  let itemId ← field raw "item_id"
  (Text.parseI64 itemId.toList).map fun itemId => { itemId }

/-- The handler of a form of the cart. -/
def CartPage.post (app : AppState) (headers : HeaderMap) (action : String)
    (raw : List (String × String)) : Option (WebProg Response) :=
  if action = "/cart/add" then (AddForm.extract raw).map (CartPage.add app headers)
  else if action = "/cart/update" then (UpdateForm.extract raw).map (CartPage.update app headers)
  else if action = "/cart/remove" then (RemoveForm.extract raw).map (CartPage.remove app headers)
  else none

namespace CartForms
open CartPage

/-! ## The forms on the pages -/

section Forms
variable {c : Choice}

theorem forms_product (db : TaxonomyDb) (baseUrl slug : String) (card : ProductView) :
    selectAll "form" (ProductPage.shown db baseUrl slug card).main = [ProductPage.addForm card] := by
  have hcrumbs := CategoryPage.selectAll_form_breadcrumbNav (ProductPage.crumbs db card)
  have haddForm : (ProductPage.addForm card).select "form" = [ProductPage.addForm card] := by
    simp [ProductPage.addForm, select]
  cases hthumb : card.thumb <;>
    simp [ProductPage.shown, selectAll, select, hcrumbs, haddForm, pageHeading, paragraph, price,
      hthumb]

/-- Every row has two forms. -/
theorem forms_cart (items : List CartItem) : selectAll "form" (CartPage.page items).main =
    items.flatMap fun item => [updateForm item, removeForm item] := by
  have hupdate : ∀ item, (updateForm item).select "form" = [updateForm item] :=
    fun item => by simp [updateForm, select]
  have hremove : ∀ item, (removeForm item).select "form" = [removeForm item] :=
    fun item => by simp [removeForm, select]
  have hrow : ∀ item, (cartRow item).select "form" = [updateForm item, removeForm item] :=
    fun item => by simp [cartRow, select, selectAll, price, hupdate, hremove]
  have hrows : ∀ items : List CartItem, selectAll "form" (items.map cartRow) =
      items.flatMap fun item => [updateForm item, removeForm item] := by
    intro items
    rw [CategoryPage.selectAll_flatMap, List.flatMap_map]
    simp only [hrow]
  cases items with
  | nil => simp [CartPage.page, selectAll, select, pageHeading, paragraph, paragraphLink]
  | cons item items =>
    simp only [CartPage.page, List.isEmpty_cons, Bool.false_eq_true, if_false, selectAll_append]
    simp [cartTable, select, selectAll, column, price, hrow, hrows]

theorem entries_addForm (card : ProductView) :
    entries ((fields (ProductPage.addForm card)).map (Field.fill c)) =
      [("slug", card.slug), ("qty", c.typed "qty")] := by
  simp [fields, ProductPage.addForm, select, selectAll, Field.ofInput, attr, List.lookup, entries,
    Field.fill, Field.entry]

theorem entries_updateForm (item : CartItem) :
    entries ((fields (updateForm item)).map (Field.fill c)) =
      [("qty", c.typed "qty"), ("item_id", item.id.repr)] := by
  simp [fields, updateForm, select, selectAll, Field.ofInput, attr, List.lookup, entries,
    Field.fill, Field.entry]

theorem entries_removeForm (item : CartItem) :
    entries ((fields (removeForm item)).map (Field.fill c)) = [("item_id", item.id.repr)] := by
  simp [fields, removeForm, select, selectAll, Field.ofInput, attr, List.lookup, entries,
    Field.fill, Field.entry]

end Forms

/-! ## The lines of a cart -/

/-- A cart has one line for a product and variant. -/
structure Key where
  productId : String
  variant : String
deriving DecidableEq

/-- A line as the visitor sees it, and the product it is for. -/
structure Line where
  productId : String
  variantId : Option String
  title : String
  unitPriceMinor : Int64
  currency : String
  qty : Int
deriving DecidableEq

namespace Line

def ofItem (r : CartItem) : Line :=
  ⟨r.productId, r.variantId, r.title, r.unitPriceMinor, r.currency, r.qty⟩

def key (l : Line) : Key := ⟨l.productId, l.variantId.getD ""⟩

def fresh (card : ProductView) (qty : Int) : Line :=
  ⟨card.id, none, card.title, card.priceMinor, card.currency, qty⟩

/-- More of a product, at its present price. -/
def raise (card : ProductView) (qty : Int) (l : Line) : Line :=
  { l with
    qty := min (l.qty + qty) CartRepo.maxQty
    title := card.title
    unitPriceMinor := card.priceMinor
    currency := card.currency }

end Line

def lines (db : OrdersDb) (cartId : String) : List Line :=
  (CartRepo.listItems db cartId).map Line.ofItem

def keys (ls : List Line) : List Key := ls.map Line.key

/-- What a visitor wants of the cart. A line that is gone is no target any more. -/
inductive Act where
  | add (card : ProductView) (qty : Int)
  | change (target : Option Key) (qty : Int)
  | delete (target : Option Key)

def without (target : Option Key) (ls : List Line) : List Line :=
  ls.filter fun l => !decide (some l.key = target)

/-- The lines afterwards; a cart takes one currency and quantities up to `MAX_QTY`. -/
def Act.apply (ls : List Line) : Act → Option (List Line)
  | add card qty =>
    if (1 ≤ qty ∧ qty ≤ CartRepo.maxQty) ∧ ls.head?.all (fun l => l.currency = card.currency) then
      some (if ⟨card.id, ""⟩ ∈ keys ls then
          ls.map fun l => if l.key = ⟨card.id, ""⟩ then l.raise card qty else l
        else ls ++ [.fresh card qty])
    else none
  | change target qty =>
    if 0 ≤ qty ∧ qty ≤ CartRepo.maxQty then
      some (if qty = 0 then without target ls
        else ls.map fun l => if some l.key = target then { l with qty } else l)
    else none
  | delete target => some (without target ls)

/-! ## The pages that are open -/

/-- A page of the cart, with the lines that were in the cart ever since. -/
structure Tab where
  items : List CartItem
  alive : List Key
deriving DecidableEq

/-- The line that a row of the page is for. -/
def Tab.target (tab : Tab) (item : CartItem) : Option Key :=
  if (Line.ofItem item).key ∈ tab.alive then some (Line.ofItem item).key else none

/-- The cart of a visitor and the pages that they have of it. -/
structure Visit where
  lines : List Line
  tabs : List Tab
deriving DecidableEq

/-- The cart has changed; a line that is not in it is gone, even if it comes back. -/
def Visit.put (v : Visit) (ls : List Line) : Visit where
  lines := ls
  tabs := v.tabs.map fun tab => { tab with alive := tab.alive.filter fun key => key ∈ keys ls }

/-- `i64`, the type of the ids. -/
def IsI64 (n : Int) : Prop := -2 ^ 63 ≤ n ∧ n < 2 ^ 63

instance (n : Int) : Decidable (IsI64 n) := inferInstanceAs (Decidable (_ ∧ _))

/-- A form that a visitor finds, and what becomes of the cart if it is sent; the request is
refused if this is nothing. -/
inductive Means (v : Visit) (catalog : CatalogDb) (c : Choice) : Markup → Option (List Line) → Prop
  where
  | add (db : TaxonomyDb) (baseUrl slug : String) (card : ProductView) (form : Markup)
      (hform : form ∈ selectAll "form" (ProductPage.shown db baseUrl slug card).main)
      (hslug : OneLine card.slug) : Means v catalog c form do
        let qty ← Text.parseI64 (c.typed "qty").toList
        let card ← SqliteCatalogSearch.getCardBySlug catalog card.slug
        (Act.add card qty).apply v.lines
  | change (tab : Tab) (k : Nat) (item : CartItem) (form : Markup) (htab : tab ∈ v.tabs)
      (hitem : tab.items[k]? = some item) (hid : IsI64 item.id)
      (hform : (selectAll "form" (CartPage.page tab.items).main)[2 * k]? = some form) :
      Means v catalog c form do
        let qty ← Text.parseI64 (c.typed "qty").toList
        (Act.change (tab.target item) qty).apply v.lines
  | delete (tab : Tab) (k : Nat) (item : CartItem) (form : Markup) (htab : tab ∈ v.tabs)
      (hitem : tab.items[k]? = some item) (hid : IsI64 item.id)
      (hform : (selectAll "form" (CartPage.page tab.items).main)[2 * k + 1]? = some form) :
      Means v catalog c form ((Act.delete (tab.target item)).apply v.lines)

/-! ## The rows behind the lines -/

section Rows
open CartRepo
variable {db db' : OrdersDb} {cartId : String} {now : Int64} {r t : CartItem}

/-- The line of an item by its cart and its key. -/
def lineAt (cartId : String) (key : Key) : String × String × String :=
  (cartId, key.productId, key.variant)

theorem lineAt_inj {k k' : Key} {cartId' : String} (h : lineAt cartId k = lineAt cartId' k') :
    k = k' := congrArg (fun line => Key.mk line.2.1 line.2.2) h

theorem line_eq (r : CartItem) : r.line = lineAt r.cartId (Line.ofItem r).key := rfl

theorem line_of_listed (hr : r ∈ listItems db cartId) : r.line = lineAt cartId (Line.ofItem r).key := by
  have hcart : r.cartId = cartId := of_decide_eq_true (List.mem_filter.mp hr).2
  rw [line_eq, hcart]

theorem eq_of_key (hr : r ∈ listItems db cartId) (ht : t ∈ listItems db cartId)
    (hkey : (Line.ofItem r).key = (Line.ofItem t).key) : r = t := by
  refine List.inj_on_of_nodup_map db.cartItems.distinct (List.mem_filter.mp hr).1
    (List.mem_filter.mp ht).1 ?_
  rw [line_of_listed hr, line_of_listed ht, hkey]

theorem lines_addItem {card : ProductView} {qty : Int}
    (h : addItem db cartId (newItem card qty) now = .ok db') :
    lines db' cartId = if ⟨card.id, ""⟩ ∈ keys (lines db cartId) then
        (lines db cartId).map fun l => if l.key = ⟨card.id, ""⟩ then l.raise card qty else l
      else lines db cartId ++ [.fresh card qty] := by
  have hline : ∀ r ∈ listItems db cartId,
      r.line = lineOf cartId (newItem card qty) ↔ (Line.ofItem r).key = ⟨card.id, ""⟩ := by
    intro r hr
    have hnew : lineOf cartId (newItem card qty) = lineAt cartId ⟨card.id, ""⟩ := rfl
    rw [line_of_listed hr, hnew]
    exact ⟨lineAt_inj, congrArg _⟩
  have htaken : ⟨card.id, ""⟩ ∈ keys (lines db cartId) ↔
      ∃ r ∈ db.cartItems.rows, r.line = lineOf cartId (newItem card qty) := by
    constructor
    · intro hkey
      obtain ⟨l, hl, hkey⟩ := List.mem_map.mp hkey
      obtain ⟨r, hr, rfl⟩ := List.mem_map.mp hl
      exact ⟨r, (List.mem_filter.mp hr).1, (hline r hr).mpr hkey⟩
    · rintro ⟨r, hr, hline'⟩
      have hlisted : r ∈ listItems db cartId :=
        List.mem_filter.mpr ⟨hr, decide_eq_true (congrArg Prod.fst hline')⟩
      exact List.mem_map.mpr ⟨_, List.mem_map.mpr ⟨r, hlisted, rfl⟩, (hline r hlisted).mp hline'⟩
  obtain ⟨_, _, ⟨hfree, hrows⟩ | ⟨hexists, hrows⟩⟩ := addItem_ok h
  · have hnone : ⟨card.id, ""⟩ ∉ keys (lines db cartId) := by
      rw [htaken]
      rintro ⟨r, hr, hline'⟩
      exact hfree r hr hline'
    rw [if_neg hnone, lines, listItems, hrows, List.filter_append, List.map_append]
    simp [lines, listItems, newRow, newItem, Line.ofItem, Line.fresh]
  · rw [if_pos (htaken.mpr hexists), lines, listItems, hrows, CartStore.filter_cart_map, lines,
      List.map_map, List.map_map]
    · refine List.map_congr_left fun r hr => ?_
      simp only [Function.comp_apply, hline r hr]
      split <;> rfl
    · intro r
      split
      · exact merge_line _ _ _
      · rfl

variable {itemId : Int} {target : Option Key}
  (htarget : ∀ r ∈ listItems db cartId, r.id = itemId ↔ some (Line.ofItem r).key = target)
include htarget

theorem isItem_of_listed (hr : r ∈ listItems db cartId) :
    isItem cartId itemId r = decide (some (Line.ofItem r).key = target) := by
  have hcart : r.cartId = cartId := of_decide_eq_true (List.mem_filter.mp hr).2
  simp only [isItem, hcart, and_true, htarget r hr]

theorem lines_deleteItems :
    lines (deleteItems db (isItem cartId itemId)) cartId = without target (lines db cartId) := by
  have hrows : (deleteItems db (isItem cartId itemId)).cartItems.rows =
      db.cartItems.rows.filter fun r => !isItem cartId itemId r := rfl
  rw [lines, listItems, hrows, List.filter_comm, ← listItems, without, lines, List.filter_map]
  exact congrArg _ (List.filter_congr fun r hr => by rw [isItem_of_listed htarget hr]; rfl)

theorem lines_removeItem :
    lines (removeItem db cartId itemId now) cartId = without target (lines db cartId) := by
  rw [← lines_deleteItems htarget, lines, listItems, removeItem, touchIf_cartItems]
  rfl

theorem lines_updateQty {qty : Int} (h : updateQty db cartId itemId qty now = .ok db') :
    lines db' cartId = if qty = 0 then without target (lines db cartId)
      else (lines db cartId).map fun l => if some l.key = target then { l with qty } else l := by
  unfold updateQty at h
  split at h
  · cases h
  · obtain rfl := Except.ok.inj h
    rw [lines, listItems, touchIf_cartItems, ← listItems, ← lines]
    split
    · exact lines_deleteItems htarget
    · rename_i hqty hzero
      have hrows : (setQty db cartId itemId qty (by omega)).rows = db.cartItems.rows.map fun r =>
          if isItem cartId itemId r then { r with qty } else r := rfl
      rw [lines, listItems, hrows, CartStore.filter_cart_map, lines, List.map_map, List.map_map]
      · refine List.map_congr_left fun r hr => ?_
        simp only [Function.comp_apply, isItem_of_listed htarget hr, decide_eq_true_eq]
        split <;> rfl
      · intro r
        split <;> rfl

end Rows

/-! ## What the pages have to do with the rows -/

/-- The lines that are still in the cart are those whose rows are. -/
structure Tab.Tracks (tab : Tab) (db : OrdersDb) (cartId : String) : Prop where
  issued : ∀ item ∈ tab.items, item.id ≤ db.cartItems.seq
  row : ∀ item ∈ tab.items, (Line.ofItem item).key ∈ tab.alive →
    ∃ r ∈ CartRepo.listItems db cartId, r.id = item.id
  line : ∀ item ∈ tab.items, ∀ r ∈ CartRepo.listItems db cartId, r.id = item.id →
    (Line.ofItem r).key = (Line.ofItem item).key ∧ (Line.ofItem item).key ∈ tab.alive

structure Tracks (cartId : String) (db : OrdersDb) (v : Visit) : Prop where
  cart : (db.carts.find? cartId).isSome = true
  lines : lines db cartId = v.lines
  tabs : ∀ tab ∈ v.tabs, tab.Tracks db cartId

section Tracks
open CartRepo CartStore
variable {db db' : OrdersDb} {cartId : String} {tab : Tab}

theorem Tab.Tracks.target (h : tab.Tracks db cartId) {item : CartItem} (hitem : item ∈ tab.items) :
    ∀ r ∈ listItems db cartId, r.id = item.id ↔ some (Line.ofItem r).key = tab.target item := by
  intro r hr
  constructor
  · intro hid
    obtain ⟨hkey, halive⟩ := h.line item hitem r hr hid
    rw [Tab.target, if_pos halive, hkey]
  · intro htarget
    unfold Tab.target at htarget
    split at htarget
    · rename_i halive
      obtain ⟨s, hs, hid⟩ := h.row item hitem halive
      have hkey := (Option.some.inj htarget).trans (h.line item hitem s hs hid).1.symm
      rw [eq_of_key hr hs hkey, hid]
    · cases htarget

/-- What a change of any cart leaves: the ids go up, an old row keeps its line, and a line that
stays keeps its row. -/
structure RowsKept (db : OrdersDb) (items : CartItems) : Prop where
  seq : db.cartItems.seq ≤ items.seq
  old : ∀ r ∈ items.rows, r.id ≤ db.cartItems.seq →
    ∃ s ∈ db.cartItems.rows, s.id = r.id ∧ s.line = r.line
  same : ∀ r ∈ items.rows, ∀ s ∈ db.cartItems.rows, r.line = s.line → r.id = s.id

theorem eq_of_line {items : CartItems} {r s : CartItem} (hr : r ∈ items.rows) (hs : s ∈ items.rows)
    (hline : r.line = s.line) : r = s :=
  List.inj_on_of_nodup_map items.distinct hr hs hline

theorem eq_of_id {items : CartItems} {r s : CartItem} (hr : r ∈ items.rows) (hs : s ∈ items.rows)
    (hid : r.id = s.id) : r = s := by
  have hnodup : (items.rows.map CartItem.id).Nodup :=
    List.pairwise_map.mpr (items.sorted.imp fun hlt heq => absurd heq (Int.ne_of_lt hlt))
  exact List.inj_on_of_nodup_map hnodup hr hs hid

theorem rowsKept_of_step {a : String} {items : CartItems} (h : ItemsStep a db items) :
    RowsKept db items := by
  cases h with
  | same h =>
    subst h
    refine ⟨le_rfl, fun r hr _ => ⟨r, hr, rfl, rfl⟩, fun r hr s hs hline => ?_⟩
    rw [eq_of_line hr hs hline]
  | insert row hcart hqty hsome hrows hseq =>
    refine ⟨by omega, fun r hr hle => ?_, fun r hr s hs hline => ?_⟩
    · rw [hrows, List.mem_append, List.mem_singleton] at hr
      rcases hr with hr | rfl
      · exact ⟨r, hr, rfl, rfl⟩
      · exact absurd hle (by simp)
    · have hkept : s ∈ items.rows := by
        rw [hrows]
        exact List.mem_append_left _ hs
      rw [eq_of_line hr hkept hline]
  | patch f hkeeps hothers hqty hrows hseq =>
    refine ⟨by omega, fun r hr _ => ?_, fun r hr s hs hline => ?_⟩
    · rw [hrows] at hr
      obtain ⟨s, hs, rfl⟩ := List.mem_map.mp hr
      exact ⟨s, hs, (hkeeps s).1.symm, (hkeeps s).2.symm⟩
    · rw [hrows] at hr
      obtain ⟨r, hr', rfl⟩ := List.mem_map.mp hr
      rw [(hkeeps r).1, eq_of_line hr' hs ((hkeeps r).2.symm.trans hline)]
  | delete p hcart hrows hseq =>
    refine ⟨by omega, fun r hr _ => ?_, fun r hr s hs hline => ?_⟩
    · rw [hrows] at hr
      exact ⟨r, (List.mem_filter.mp hr).1, rfl, rfl⟩
    · rw [hrows] at hr
      rw [eq_of_line (List.mem_filter.mp hr).1 hs hline]

theorem listed_of_line {items : OrdersDb} {r s : CartItem} (hr : r ∈ listItems items cartId)
    (hs : s ∈ db.cartItems.rows) (hline : s.line = r.line) :
    s ∈ listItems db cartId ∧ (Line.ofItem s).key = (Line.ofItem r).key := by
  have hline' := hline.trans (line_of_listed hr)
  exact ⟨List.mem_filter.mpr ⟨hs, decide_eq_true (congrArg Prod.fst hline')⟩, lineAt_inj hline'⟩

theorem Tab.Tracks.put (h : tab.Tracks db cartId) (hkept : RowsKept db db'.cartItems) :
    ({ tab with alive := tab.alive.filter fun key => key ∈ keys (CartForms.lines db' cartId) } :
      Tab).Tracks db' cartId := by
  refine ⟨fun item hitem => (h.issued item hitem).trans hkept.seq, ?_, ?_⟩
  · intro item hitem halive
    obtain ⟨halive, hkey⟩ := List.mem_filter.mp halive
    obtain ⟨s, hs, hid⟩ := h.row item hitem halive
    obtain ⟨l, hl, hkey⟩ := List.mem_map.mp (of_decide_eq_true hkey)
    obtain ⟨r, hr, rfl⟩ := List.mem_map.mp hl
    have hline : r.line = s.line := by
      rw [line_of_listed hr, line_of_listed hs, hkey, (h.line item hitem s hs hid).1]
    exact ⟨r, hr, (hkept.same r (List.mem_filter.mp hr).1 s (List.mem_filter.mp hs).1
      hline).trans hid⟩
  · intro item hitem r hr hid
    obtain ⟨s, hs, hsid, hline⟩ := hkept.old r (List.mem_filter.mp hr).1
      (hid ▸ h.issued item hitem)
    obtain ⟨hs, hkey⟩ := listed_of_line hr hs hline
    obtain ⟨hkey', halive⟩ := h.line item hitem s hs (hsid.trans hid)
    have hkeys : (Line.ofItem item).key ∈ keys (CartForms.lines db' cartId) :=
      List.mem_map.mpr ⟨_, List.mem_map.mpr ⟨r, hr, rfl⟩, hkey.symm.trans hkey'⟩
    exact ⟨hkey.symm.trans hkey', List.mem_filter.mpr ⟨halive, decide_eq_true hkeys⟩⟩

theorem Tracks.put {v : Visit} {a : String} (h : Tracks cartId db v) (hstep : CartStep a db db') :
    Tracks cartId db' (v.put (CartForms.lines db' cartId)) where
  cart := hstep.kept cartId h.cart
  lines := rfl
  tabs := by
    intro tab htab
    obtain ⟨tab, hopen, rfl⟩ := List.mem_map.mp htab
    exact (h.tabs tab hopen).put (rowsKept_of_step hstep.items)

/-- A page that is opened shows the cart as it is. -/
theorem Tracks.look {v : Visit} (h : Tracks cartId db v) :
    Tracks cartId db { v with tabs := ⟨listItems db cartId, keys v.lines⟩ :: v.tabs } := by
  refine ⟨h.cart, h.lines, fun tab htab => ?_⟩
  rcases List.mem_cons.mp htab with rfl | htab
  · refine ⟨fun item hitem => db.cartItems.bounded item (List.mem_filter.mp hitem).1,
      fun item hitem _ => ⟨item, hitem, rfl⟩, fun item hitem r hr hid => ?_⟩
    have hrow : r = item := eq_of_id (List.mem_filter.mp hr).1 (List.mem_filter.mp hitem).1 hid
    rw [hrow, ← h.lines]
    exact ⟨rfl, List.mem_map.mpr ⟨_, List.mem_map.mpr ⟨item, hitem, rfl⟩, rfl⟩⟩
  · exact h.tabs tab htab

end Tracks

/-! ## What the handlers do -/

/-- A request ends on the cart, which is as it was wished, or it is refused and nothing has
changed: nothing could be wished, or a database failed. -/
inductive Ended (faults : WebOp → Prop) (cartId : String) (wish : Option (List Line)) (s : Site)
    (response : Response) (t : Site) : Prop where
  | done (hlocation : response.location = some "/cart")
      (hwish : wish = some (lines t.orders cartId))
      (hstep : CartStore.CartStep cartId s.orders t.orders)
  | refused (hlocation : response.location ≠ some "/cart") (hsame : t = s)
      (hwhy : wish = none ∨ ∃ op, faults op)

section Handlers
open RejectedAdd
variable {hashToken : String → String} {faults : WebOp → Prop} {app : AppState}
  {headers : HeaderMap} {cart : Cart} {s t : Site} {response : Response}
  {wish : Option (List Line)}

theorem ended_error {cartId : String} (e : WebError) (hwhy : wish = none ∨ ∃ op, faults op) :
    Ended faults cartId wish s (Response.ofResult (.error e)) s := by
  refine .refused ?_ rfl hwhy
  rw [Response.ofResult, CheckoutPage.location_failed]
  simp

/-- The cart of the cookie is found unless the database fails. -/
theorem findCart_found (hcart : cartOf hashToken s.orders headers = some cart)
    {r : Except WebError (Option Cart)}
    (h : Runs (Site.exec hashToken faults) (findCart headers).run s r t) :
    t = s ∧ (r = .ok (some cart) ∨ (∃ e, r = .error e) ∧ ∃ op, faults op) := by
  unfold findCart CheckoutPage.findCart at h
  unfold cartOf at hcart
  split at h
  · rename_i hnone
    rw [hnone] at hcart
    cases hcart
  · rename_i raw hraw
    rw [hraw, Option.bind_some] at hcart
    obtain ⟨answer, hexec, rfl⟩ := WebM.runs_call h
    rcases hexec with ⟨rfl, rfl⟩ | ⟨hfault, ⟨e, rfl⟩, rfl⟩
    · rw [hcart]
      exact ⟨rfl, .inl rfl⟩
    · exact ⟨rfl, .inr ⟨⟨_, rfl⟩, _, hfault⟩⟩

theorem ended_update {form : UpdateForm} {target : Option Key}
    (hcart : cartOf hashToken s.orders headers = some cart)
    (htarget : ∀ r ∈ CartRepo.listItems s.orders cart.tokenHash,
      r.id = form.itemId ↔ some (Line.ofItem r).key = target)
    (h : Runs (Site.exec hashToken faults) (update app headers form) s response t) :
    Ended faults cart.tokenHash
      ((Act.change target form.qty).apply (lines s.orders cart.tokenHash)) s response t := by
  obtain ⟨r, u, hrun, hend⟩ := runs_bind_iff.mp h
  obtain ⟨rfl, rfl⟩ := runs_pure_iff.mp hend
  obtain ⟨found, v, hfind, hrest⟩ := WebM.runs_bind hrun
  obtain ⟨rfl, rfl | ⟨⟨e, rfl⟩, hfault⟩⟩ := findCart_found hcart hfind
  · obtain ⟨updated, w, hupdate, hafter⟩ := WebM.runs_bind hrest
    obtain ⟨answer, hexec, rfl⟩ := WebM.runs_call hupdate
    rcases hexec with ⟨now, hout⟩ | ⟨hfault, ⟨e, rfl⟩, rfl⟩
    · cases hwrite : CartRepo.updateQty v.orders cart.tokenHash form.itemId form.qty now with
      | error e =>
        have hinvalid : ¬ (0 ≤ form.qty ∧ form.qty ≤ CartRepo.maxQty) := by
          intro hqty
          rw [CartRepo.updateQty, dif_neg (by omega)] at hwrite
          cases hwrite
        rw [hwrite] at hout
        obtain ⟨rfl, rfl⟩ := hout
        obtain ⟨rfl, rfl⟩ := WebM.runs_after_error hafter
        exact ended_error _ (.inl (if_neg hinvalid))
      | ok db =>
        have hvalid : 0 ≤ form.qty ∧ form.qty ≤ CartRepo.maxQty := by
          by_contra hqty
          rw [CartRepo.updateQty, dif_pos (by omega)] at hwrite
          cases hwrite
        rw [hwrite] at hout
        obtain ⟨rfl, rfl⟩ := hout
        obtain ⟨rfl, rfl⟩ := WebM.runs_pure hafter
        refine .done rfl ?_ (CartStore.updateQty_step hwrite)
        rw [lines_updateQty htarget hwrite]
        exact if_pos hvalid
    · obtain ⟨rfl, rfl⟩ := WebM.runs_after_error hafter
      exact ended_error _ (.inr ⟨_, hfault⟩)
  · obtain ⟨rfl, rfl⟩ := WebM.runs_after_error hrest
    exact ended_error _ (.inr hfault)

theorem ended_remove {form : RemoveForm} {target : Option Key}
    (hcart : cartOf hashToken s.orders headers = some cart)
    (htarget : ∀ r ∈ CartRepo.listItems s.orders cart.tokenHash,
      r.id = form.itemId ↔ some (Line.ofItem r).key = target)
    (h : Runs (Site.exec hashToken faults) (remove app headers form) s response t) :
    Ended faults cart.tokenHash ((Act.delete target).apply (lines s.orders cart.tokenHash)) s
      response t := by
  obtain ⟨r, u, hrun, hend⟩ := runs_bind_iff.mp h
  obtain ⟨rfl, rfl⟩ := runs_pure_iff.mp hend
  obtain ⟨found, v, hfind, hrest⟩ := WebM.runs_bind hrun
  obtain ⟨rfl, rfl | ⟨⟨e, rfl⟩, hfault⟩⟩ := findCart_found hcart hfind
  · obtain ⟨removed, w, hremove, hafter⟩ := WebM.runs_bind hrest
    obtain ⟨answer, hexec, rfl⟩ := WebM.runs_call hremove
    rcases hexec with ⟨now, rfl, rfl⟩ | ⟨hfault, ⟨e, rfl⟩, rfl⟩
    · obtain ⟨rfl, rfl⟩ := WebM.runs_pure hafter
      refine .done rfl ?_ (CartStore.removeItem_step _ _ _ _)
      rw [lines_removeItem htarget]
      rfl
    · obtain ⟨rfl, rfl⟩ := WebM.runs_after_error hafter
      exact ended_error _ (.inr ⟨_, hfault⟩)
  · obtain ⟨rfl, rfl⟩ := WebM.runs_after_error hrest
    exact ended_error _ (.inr hfault)

/-- A product that is not published any more is answered with its page. -/
theorem location_product (slug : String) :
    (Response.redirect ("/p/" ++ slug)).location ≠ some "/cart" := by
  unfold Response.redirect
  split
  · intro h
    have hlist := congrArg String.toList (Option.some.inj h)
    rw [String.toList_append] at hlist
    have hsecond : 'p' = 'c' := congrArg (fun cs => cs.getD 1 'p') hlist
    exact absurd hsecond (by decide)
  · simp

theorem ended_addTo {form : AddForm} {card : ProductView} {r : Except WebError Response}
    (hsome : (s.orders.carts.find? cart.tokenHash).isSome = true)
    (h : Runs (Site.exec hashToken faults) (addTo app form card cart none).run s r t) :
    Ended faults cart.tokenHash ((Act.add card form.qty).apply (lines s.orders cart.tokenHash)) s
      (Response.ofResult r) t := by
  have hhead : (CartRepo.listItems s.orders cart.tokenHash).head?.any
      (fun existing => existing.currency ≠ card.currency) =
        !(lines s.orders cart.tokenHash).head?.all fun l => l.currency = card.currency := by
    rw [lines, List.head?_map]
    cases (CartRepo.listItems s.orders cart.tokenHash).head? with
    | none => rfl
    | some existing => simp [Line.ofItem]
  obtain ⟨listed, u, hlist, hrest⟩ := WebM.runs_bind h
  obtain ⟨answer, hexec, rfl⟩ := WebM.runs_call hlist
  rcases hexec with ⟨rfl, rfl⟩ | ⟨hfault, ⟨e, rfl⟩, rfl⟩
  · simp only [Except.mapError, WebM.after, hhead] at hrest
    split at hrest
    · rename_i hother
      obtain ⟨rfl, rfl⟩ := WebM.runs_throw hrest
      refine ended_error _ (.inl (if_neg fun hgood => ?_))
      rw [hgood.2] at hother
      cases hother
    · rename_i hsame
      obtain ⟨added, v, hadd, hafter⟩ := WebM.runs_bind hrest
      obtain ⟨answer, hexec, rfl⟩ := WebM.runs_call hadd
      rcases hexec with ⟨now, hout⟩ | ⟨hfault, ⟨e, rfl⟩, rfl⟩
      · by_cases hqty : CartStore.InRange form.qty
        · have hitem : CartStore.InRange (newItem card form.qty).qty := hqty
          obtain ⟨db, hwrite⟩ := addItem_valid hitem rfl hsome now
          rw [hwrite] at hout
          obtain ⟨rfl, rfl⟩ := hout
          obtain ⟨rfl, rfl⟩ := WebM.runs_pure hafter
          refine .done rfl ?_ (CartStore.addItem_step hwrite)
          rw [lines_addItem hwrite]
          exact if_pos ⟨hqty, by simpa using hsame⟩
        · have hitem : ¬CartStore.InRange (newItem card form.qty).qty := hqty
          rw [addItem_invalid hitem] at hout
          obtain ⟨rfl, rfl⟩ := hout
          obtain ⟨rfl, rfl⟩ := WebM.runs_after_error hafter
          exact ended_error _ (.inl (if_neg fun hgood => hqty hgood.1))
      · obtain ⟨rfl, rfl⟩ := WebM.runs_after_error hafter
        exact ended_error _ (.inr ⟨_, hfault⟩)
  · obtain ⟨rfl, rfl⟩ := WebM.runs_after_error hrest
    exact ended_error _ (.inr ⟨_, hfault⟩)

theorem ended_add {form : AddForm} (hcart : cartOf hashToken s.orders headers = some cart)
    (hsome : (s.orders.carts.find? cart.tokenHash).isSome = true)
    (h : Runs (Site.exec hashToken faults) (add app headers form) s response t) :
    Ended faults cart.tokenHash ((SqliteCatalogSearch.getCardBySlug s.catalog form.slug).bind
      fun card => (Act.add card form.qty).apply (lines s.orders cart.tokenHash)) s response t := by
  obtain ⟨r, u, hrun, hend⟩ := runs_bind_iff.mp h
  obtain ⟨rfl, rfl⟩ := runs_pure_iff.mp hend
  obtain ⟨viewed, v, hview, hrest⟩ := WebM.runs_bind hrun
  obtain ⟨answer, hexec, rfl⟩ := WebM.runs_call hview
  rcases hexec with ⟨rfl, rfl⟩ | ⟨hfault, ⟨e, rfl⟩, rfl⟩
  · cases hcard : SqliteCatalogSearch.getCardBySlug v.catalog form.slug with
    | none =>
      rw [hcard] at hrest
      obtain ⟨rfl, rfl⟩ := WebM.runs_pure hrest
      exact .refused (location_product form.slug) rfl (.inl rfl)
    | some card =>
      rw [hcard] at hrest
      obtain ⟨given, w, hget, hadd⟩ := WebM.runs_bind hrest
      obtain ⟨found, x, hfind, hgiven⟩ := WebM.runs_bind hget
      obtain ⟨rfl, rfl | ⟨⟨e, rfl⟩, hfault⟩⟩ := findCart_found hcart hfind
      · obtain ⟨rfl, rfl⟩ := WebM.runs_pure hgiven
        exact ended_addTo hsome hadd
      · obtain ⟨rfl, rfl⟩ := WebM.runs_after_error hgiven
        obtain ⟨rfl, rfl⟩ := WebM.runs_after_error hadd
        exact ended_error _ (.inr hfault)
  · obtain ⟨rfl, rfl⟩ := WebM.runs_after_error hrest
    exact ended_error _ (.inr ⟨_, hfault⟩)

end Handlers

/-! ## What is sent -/

section Sent
variable {app : AppState} {headers : HeaderMap} {c : Choice}

theorem oneLine_repr (n : Int) : OneLine n.repr := by
  have hdigits : ∀ m, ∀ d : Char, d.isDigit = false → d ∉ Nat.toDigits 10 m := by
    intro m d hd hmem
    rw [Nat.isDigit_of_mem_toDigits (by decide) (by decide) hmem] at hd
    cases hd
  cases n with
  | ofNat m =>
    rw [OneLine, show (Int.ofNat m).repr.toList = Nat.toDigits 10 m from Nat.toList_repr]
    exact ⟨hdigits m _ (by decide), hdigits m _ (by decide)⟩
  | negSucc m =>
    have hrepr : (Int.negSucc m).repr.toList = '-' :: Nat.toDigits 10 (m + 1) := by
      simp [Int.repr]
    rw [OneLine, hrepr, List.mem_cons, List.mem_cons, not_or, not_or]
    exact ⟨⟨by decide, hdigits _ _ (by decide)⟩, by decide, hdigits _ _ (by decide)⟩

theorem oneLine_names : OneLine "slug" ∧ OneLine "qty" ∧ OneLine "item_id" := by decide

/-- The handler that a filled form gets to. -/
def sentTo (app : AppState) (headers : HeaderMap) (form : Markup) (c : Choice) :
    Option (WebProg Response) :=
  CartPage.post app headers ((form.attr "action").getD "")
    (CategoryPage.parseQuery (formData (entries ((fields form).map (Field.fill c)))))

theorem sentTo_addForm {card : ProductView} (hslug : OneLine card.slug) :
    sentTo app headers (ProductPage.addForm card) c =
      (Text.parseI64 (c.typed "qty").toList).map fun qty => add app headers ⟨card.slug, qty⟩ := by
  have hread : CategoryPage.parseQuery (formData [("slug", card.slug), ("qty", c.typed "qty")]) =
      [("slug", card.slug), ("qty", c.typed "qty")] := by
    refine parseQuery_formData fun pair hpair => ?_
    rw [List.mem_cons, List.mem_singleton] at hpair
    rcases hpair with rfl | rfl
    · exact ⟨oneLine_names.1, hslug⟩
    · exact ⟨oneLine_names.2.1, c.oneLine _⟩
  have hextract : AddForm.extract [("slug", card.slug), ("qty", c.typed "qty")] =
      (Text.parseI64 (c.typed "qty").toList).map fun qty => ⟨card.slug, qty⟩ := by
    simp [AddForm.extract, field, field?, CategoryPage.valuesFor]
  have haction : (ProductPage.addForm card).attr "action" = some "/cart/add" := by
    simp [ProductPage.addForm, attr, List.lookup]
  rw [sentTo, haction, entries_addForm, hread, Option.getD_some, CartPage.post, if_pos rfl, hextract,
    Option.map_map]
  rfl

theorem sentTo_updateForm {item : CartItem} (hid : IsI64 item.id) :
    sentTo app headers (updateForm item) c =
      (Text.parseI64 (c.typed "qty").toList).map fun qty => update app headers ⟨item.id, qty⟩ := by
  have hread : CategoryPage.parseQuery (formData [("qty", c.typed "qty"), ("item_id", item.id.repr)]) =
      [("qty", c.typed "qty"), ("item_id", item.id.repr)] := by
    refine parseQuery_formData fun pair hpair => ?_
    rw [List.mem_cons, List.mem_singleton] at hpair
    rcases hpair with rfl | rfl
    · exact ⟨oneLine_names.2.1, c.oneLine _⟩
    · exact ⟨oneLine_names.2.2, oneLine_repr _⟩
  have hextract : UpdateForm.extract [("qty", c.typed "qty"), ("item_id", item.id.repr)] =
      (Text.parseI64 (c.typed "qty").toList).map fun qty => ⟨item.id, qty⟩ := by
    simp [UpdateForm.extract, field, field?, CategoryPage.valuesFor,
      Text.parseI64_repr hid.1 hid.2]
  have haction : (updateForm item).attr "action" = some "/cart/update" := by
    simp [updateForm, attr, List.lookup]
  rw [sentTo, haction, entries_updateForm, hread, Option.getD_some, CartPage.post,
    if_neg (by decide), if_pos rfl, hextract, Option.map_map]
  rfl

theorem sentTo_removeForm {item : CartItem} (hid : IsI64 item.id) :
    sentTo app headers (removeForm item) c = some (remove app headers ⟨item.id⟩) := by
  have hread : CategoryPage.parseQuery (formData [("item_id", item.id.repr)]) =
      [("item_id", item.id.repr)] := by
    refine parseQuery_formData fun pair hpair => ?_
    rw [List.mem_singleton.mp hpair]
    exact ⟨oneLine_names.2.2, oneLine_repr _⟩
  have hextract : RemoveForm.extract [("item_id", item.id.repr)] = some ⟨item.id⟩ := by
    simp [RemoveForm.extract, field, field?, CategoryPage.valuesFor,
      Text.parseI64_repr hid.1 hid.2]
  have haction : (removeForm item).attr "action" = some "/cart/remove" := by
    simp [removeForm, attr, List.lookup]
  rw [sentTo, haction, entries_removeForm, hread, Option.getD_some, CartPage.post,
    if_neg (by decide), if_neg (by decide), if_pos rfl, hextract]
  rfl

/-- The forms of a page stand in pairs. -/
theorem getElem?_pairs {α β : Type} (f g : α → β) (xs : List α) (k : Nat) :
    (xs.flatMap fun x => [f x, g x])[2 * k]? = xs[k]?.map f ∧
      (xs.flatMap fun x => [f x, g x])[2 * k + 1]? = xs[k]?.map g := by
  induction xs generalizing k with
  | nil => simp
  | cons x xs ih =>
    cases k with
    | zero => simp
    | succ k => exact ih k

theorem form_of_row {items : List CartItem} {k : Nat} {item : CartItem}
    (hitem : items[k]? = some item) :
    (selectAll "form" (CartPage.page items).main)[2 * k]? = some (updateForm item) ∧
      (selectAll "form" (CartPage.page items).main)[2 * k + 1]? = some (removeForm item) := by
  have hpairs := getElem?_pairs updateForm removeForm items k
  rw [hitem] at hpairs
  rw [forms_cart]
  exact hpairs

end Sent

/-! ## A session -/

section Sessions
variable (hashToken : String → String) (faults : WebOp → Prop) (app : AppState)
  (headers : HeaderMap)

/-- What is done with a filled form, call by call; a body that does not fit is refused. -/
def Posts (form : Markup) (c : Choice) (s : Site) (log : List ((op : WebOp) × op.Res))
    (accepted : Bool) (t : Site) : Prop :=
  match sentTo app headers form c with
  | none => log = [] ∧ accepted = false ∧ t = s
  | some handler => ∃ response, Logs (Site.exec hashToken faults) handler s log response t ∧
    accepted = decide (response.location = some "/cart")

/-- A visitor with a cart opens pages and sends their forms, as long afterwards as they like. In
between anything may happen to the carts, to this one too, and to the products. -/
inductive Session (cartId : String) : Site → Visit → Prop where
  | start {s : Site} (hcart : (s.orders.carts.find? cartId).isSome = true) :
      Session cartId s ⟨lines s.orders cartId, []⟩
  | look {s t : Site} {v : Visit} (h : Session cartId s v)
      (hshow : Runs (Site.exec hashToken faults) (CartPage.show headers) s
        (.page 200 (CartPage.page (CartRepo.listItems s.orders cartId))) t) :
      Session cartId t { v with tabs := ⟨CartRepo.listItems s.orders cartId, keys v.lines⟩ :: v.tabs }
  | elsewhere {s t : Site} {v : Visit} {op : WebOp} {r : op.Res} (h : Session cartId s v)
      (hexec : Site.exec hashToken faults s op r t) :
      Session cartId t (v.put (lines t.orders cartId))
  | publish {s t : Site} {v : Visit} (h : Session cartId s v) (horders : t.orders = s.orders) :
      Session cartId t v
  | post {s t : Site} {v : Visit} {form : Markup} {c : Choice} {wish : Option (List Line)}
      {log : List ((op : WebOp) × op.Res)} {accepted : Bool} (h : Session cartId s v)
      (hposts : Posts hashToken faults app headers form c s log accepted t)
      (hmeans : Means v s.catalog c form wish) :
      Session cartId t (v.put (if accepted then wish.getD v.lines else v.lines))

variable {hashToken faults app headers} {raw : String}
  (hcookie : CartCookie.extractCartToken headers = some raw) {s t : Site} {v : Visit}
include hcookie

theorem cartOf_tracks (h : Tracks (hashToken raw) s.orders v) :
    ∃ cart, RejectedAdd.cartOf hashToken s.orders headers = some cart ∧
      cart.tokenHash = hashToken raw := by
  obtain ⟨cart, hcart⟩ := Option.isSome_iff_exists.mp h.cart
  refine ⟨cart, ?_, Table.key_of_find? hcart⟩
  rw [RejectedAdd.cartOf, hcookie, Option.bind_some, CartRepo.findByToken, hcart]

/-- A form does what it is sent for, or nothing. -/
theorem ended_posts (h : Tracks (hashToken raw) s.orders v) {form : Markup} {c : Choice}
    {wish : Option (List Line)} {log : List ((op : WebOp) × op.Res)} {accepted : Bool}
    (hmeans : Means v s.catalog c form wish)
    (hposts : Posts hashToken faults app headers form c s log accepted t) :
    accepted = false ∧ t = s ∧ wish = none ∨ ∃ response,
      accepted = decide (response.location = some "/cart") ∧
        Ended faults (hashToken raw) wish s response t := by
  obtain ⟨cart, hcart, hkey⟩ := cartOf_tracks hcookie h
  unfold Posts at hposts
  cases hmeans with
  | add db baseUrl slug card form hform hslug =>
    rw [forms_product, List.mem_singleton] at hform
    rw [hform, sentTo_addForm hslug] at hposts
    cases hqty : Text.parseI64 (c.typed "qty").toList with
    | none =>
      rw [hqty] at hposts
      exact .inl ⟨hposts.2.1, hposts.2.2, rfl⟩
    | some qty =>
      rw [hqty] at hposts
      obtain ⟨response, hlog, haccepted⟩ := hposts
      have hended := ended_add hcart (hkey ▸ h.cart) hlog.runs
      rw [hkey, h.lines] at hended
      exact .inr ⟨response, haccepted, hended⟩
  | change tab k item form htab hitem hid hform =>
    obtain rfl := Option.some.inj (hform.symm.trans (form_of_row hitem).1)
    rw [sentTo_updateForm hid] at hposts
    cases hqty : Text.parseI64 (c.typed "qty").toList with
    | none =>
      rw [hqty] at hposts
      exact .inl ⟨hposts.2.1, hposts.2.2, rfl⟩
    | some qty =>
      rw [hqty] at hposts
      obtain ⟨response, hlog, haccepted⟩ := hposts
      have htarget := (h.tabs tab htab).target (List.mem_of_getElem? hitem)
      have hended := ended_update hcart (hkey ▸ htarget) hlog.runs
      rw [hkey, h.lines] at hended
      exact .inr ⟨response, haccepted, hended⟩
  | delete tab k item form htab hitem hid hform =>
    obtain rfl := Option.some.inj (hform.symm.trans (form_of_row hitem).2)
    rw [sentTo_removeForm hid] at hposts
    obtain ⟨response, hlog, haccepted⟩ := hposts
    have htarget := (h.tabs tab htab).target (List.mem_of_getElem? hitem)
    have hended := ended_remove hcart (hkey ▸ htarget) hlog.runs
    rw [hkey, h.lines] at hended
    exact .inr ⟨response, haccepted, hended⟩

omit hcookie in
theorem posts_of_sentTo {form : Markup} {c : Choice} {handler : WebProg Response}
    {response : Response} (hsent : sentTo app headers form c = some handler)
    (hrun : Runs (Site.exec hashToken faults) handler s response t) :
    ∃ log, Posts hashToken faults app headers form c s log
      (decide (response.location = some "/cart")) t := by
  obtain ⟨log, hlog⟩ := hrun.exists_log
  refine ⟨log, ?_⟩
  unfold Posts
  rw [hsent]
  exact ⟨response, hlog, rfl⟩

omit hcookie in
/-- A request of which no call fails is one to databases that never fail. -/
theorem posts_of_answered {form : Markup} {c : Choice} {log : List ((op : WebOp) × op.Res)}
    {accepted : Bool} (h : Posts hashToken faults app headers form c s log accepted t)
    (hlog : ∀ call ∈ log, ¬(faults call.1 ∧ Site.Failed call.1 call.2)) :
    Posts hashToken (fun _ => False) app headers form c s log accepted t := by
  unfold Posts at h ⊢
  cases hsent : sentTo app headers form c with
  | none =>
    rw [hsent] at h
    exact h
  | some handler =>
    rw [hsent] at h
    obtain ⟨response, hrun, haccepted⟩ := h
    refine ⟨response, hrun.mono fun call hmem u w hexec => ?_, haccepted⟩
    exact hexec.imp id fun hfailed => absurd ⟨hfailed.1, hfailed.2.1⟩ (hlog call hmem)

theorem tracks_posts (h : Tracks (hashToken raw) s.orders v) {form : Markup} {c : Choice}
    {wish : Option (List Line)} {log : List ((op : WebOp) × op.Res)} {accepted : Bool}
    (hmeans : Means v s.catalog c form wish)
    (hposts : Posts hashToken faults app headers form c s log accepted t) :
    Tracks (hashToken raw) t.orders (v.put (if accepted then wish.getD v.lines else v.lines)) := by
  have hkept : Tracks (hashToken raw) s.orders (v.put v.lines) := by
    have hput := h.put (CartStore.cartStep_refl (hashToken raw) s.orders)
    rwa [h.lines] at hput
  rcases ended_posts hcookie h hmeans hposts with ⟨rfl, rfl, _⟩ | ⟨response, rfl, hended⟩
  · exact hkept
  · cases hended with
    | done hlocation hwish hstep =>
      rw [hlocation, decide_eq_true rfl, if_pos rfl, hwish]
      exact h.put hstep
    | refused hlocation hsame hwhy =>
      rw [decide_eq_false hlocation, hsame]
      exact hkept

theorem outcome_posts (h : Tracks (hashToken raw) s.orders v) {form : Markup} {c : Choice}
    {wish : Option (List Line)} {log : List ((op : WebOp) × op.Res)} {accepted : Bool}
    (hmeans : Means v s.catalog c form wish)
    (hposts : Posts hashToken faults app headers form c s log accepted t) :
    accepted = true ∧ wish = some (lines t.orders (hashToken raw)) ∨
      accepted = false ∧ t = s ∧ (wish = none ∨ ∃ op, faults op) := by
  rcases ended_posts hcookie h hmeans hposts with ⟨rfl, rfl, hwish⟩ | ⟨response, rfl, hended⟩
  · exact .inr ⟨rfl, rfl, .inl hwish⟩
  · cases hended with
    | done hlocation hwish hstep => exact .inl ⟨decide_eq_true hlocation, hwish⟩
    | refused hlocation hsame hwhy => exact .inr ⟨decide_eq_false hlocation, hsame, hwhy⟩

omit hcookie in
theorem show_runs {answer : Answer}
    (h : Runs (Site.exec hashToken faults) (CartPage.show headers) s answer t) : t = s := by
  obtain ⟨r, u, hrun, hend⟩ := runs_bind_iff.mp h
  obtain ⟨rfl, rfl⟩ := runs_pure_iff.mp hend
  obtain ⟨found, w, hfind, hrest⟩ := WebM.runs_bind hrun
  obtain ⟨rfl, hfound⟩ := RejectedAdd.findCart_runs hfind
  rcases found with e | cart
  · exact (WebM.runs_after_error hrest).2
  · cases cart with
    | none => exact (WebM.runs_pure hrest).2
    | some cart =>
      obtain ⟨listed, x, hlist, hlast⟩ := WebM.runs_bind hrest
      obtain ⟨answer, hexec, rfl⟩ := WebM.runs_call hlist
      obtain ⟨rfl, rfl | ⟨e, rfl⟩⟩ := Site.exec_listItems hexec
      · exact (WebM.runs_pure hlast).2
      · exact (WebM.runs_after_error hlast).2

theorem tracks_session (h : Session hashToken faults app headers (hashToken raw) s v) :
    Tracks (hashToken raw) s.orders v := by
  induction h with
  | start hcart => exact ⟨hcart, rfl, fun tab htab => by cases htab⟩
  | look h hshow ih =>
    rw [show_runs hshow]
    exact ih.look
  | elsewhere h hexec ih =>
    rcases Browsers.cartStep_of_exec hexec with ⟨hcarts, hitems⟩ | ⟨a, _, hstep⟩
    · exact ih.put (Browsers.cartStep_of_eq (hashToken raw) hcarts hitems)
    · exact ih.put hstep
  | publish h horders ih =>
    rw [horders]
    exact ih
  | post h hposts hmeans ih => exact tracks_posts hcookie ih hmeans hposts

end Sessions

/-- Whatever pages of the cart are open and whatever has happened since, the cart is what the forms
that were accepted have made of it. A form changes the line that it stood next to as it was asked
to, or nothing if that line is gone, and is refused only if the cart may not be so or one of the
calls of this request fails; then nothing has changed. -/
theorem forms_as_meant {hashToken : String → String} {faults : WebOp → Prop} {app : AppState}
    {headers : HeaderMap} {raw : String} {s : Site} {v : Visit}
    (hcookie : CartCookie.extractCartToken headers = some raw)
    (h : Session hashToken faults app headers (hashToken raw) s v) :
    lines s.orders (hashToken raw) = v.lines ∧
      ∀ form c wish log accepted t, Means v s.catalog c form wish →
        Posts hashToken faults app headers form c s log accepted t →
        accepted = true ∧ wish = some (lines t.orders (hashToken raw)) ∨
          accepted = false ∧ t = s ∧
            (wish = none ∨ ∃ call ∈ log, faults call.1 ∧ Site.Failed call.1 call.2) := by
  have htracks := tracks_session hcookie h
  refine ⟨htracks.lines, fun form c wish log accepted t hmeans hposts => ?_⟩
  by_cases hfailed : ∃ call ∈ log, faults call.1 ∧ Site.Failed call.1 call.2
  · rcases outcome_posts hcookie htracks hmeans hposts with hdone | ⟨hrefused, hsame, _⟩
    · exact .inl hdone
    · exact .inr ⟨hrefused, hsame, .inr hfailed⟩
  · have hanswered := posts_of_answered hposts fun call hmem hcall => hfailed ⟨call, hmem, hcall⟩
    rcases outcome_posts hcookie htracks hmeans hanswered with
      hdone | ⟨hrefused, hsame, hwish | ⟨_, hno⟩⟩
    · exact .inl hdone
    · exact .inr ⟨hrefused, hsame, .inl hwish⟩
    · exact hno.elim

section Script
open CheckoutPage (scriptSite noFault)

def scriptHeaders : HeaderMap := [("cookie", "cart=t".toList.map fun c => UInt8.ofNat c.toNat)]

def after (s : Site) (op : WebOp) : Site :=
  ((Site.answer id noFault s op).map Prod.snd).getD s

theorem exec_after (s : Site) (op : WebOp) (h : (Site.answer id noFault s op).isSome = true) :
    ∃ r, Site.exec id (fun _ => False) s op r (after s op) := by
  obtain ⟨⟨r, t⟩, hanswer⟩ := Option.isSome_iff_exists.mp h
  refine ⟨r, ?_⟩
  rw [after, hanswer]
  exact Site.exec_mono (fun _ hfault => Bool.false_ne_true hfault) (Site.exec_of_answer hanswer)

theorem runs_script {α : Type} {p : WebProg α} {s t : Site} {a : α}
    (h : p.eval (Site.answer id noFault) s = some (a, t)) :
    Runs (Site.exec id fun _ => False) p s a t := by
  refine runs_of_eval (fun s op r u hans => ?_) h
  exact Site.exec_mono (fun _ hfault => Bool.false_ne_true hfault) (Site.exec_of_answer hans)

/-- The first product is taken out of the cart and put in again. -/
def againSite : Site :=
  after (after scriptSite (.removeItem "t" 1)) (.addItem "t" ⟨"p", none, 5, "title", 90, "UAH"⟩)

/-- A page that was opened before. -/
def oldTab : Tab := ⟨CartRepo.listItems scriptSite.orders "t", [⟨"q", ""⟩]⟩

def rowP : CartItem := ⟨1, "t", "p", none, 2, "title", 90, "UAH", 0⟩

def rowQ : CartItem := ⟨2, "t", "q", none, 1, "title", 90, "UAH", 0⟩

def three : Choice where
  checked _ _ := false
  typed _ := "3"
  number _ := .inr (by decide)

theorem session_againSite : Session id (fun _ => False) ⟨"https://shop"⟩ scriptHeaders "t" againSite
    ⟨lines againSite.orders "t", [oldTab]⟩ := by
  have hshow := runs_script (p := CartPage.show scriptHeaders) (s := scriptSite) rfl
  obtain ⟨_, hremoved⟩ := exec_after scriptSite (.removeItem "t" 1) rfl
  obtain ⟨_, hadded⟩ := exec_after (after scriptSite (.removeItem "t" 1))
    (.addItem "t" ⟨"p", none, 5, "title", 90, "UAH"⟩) rfl
  exact (((Session.start rfl).look hshow).elsewhere hremoved).elsewhere hadded

theorem posts_rowP : ∃ log, Posts id (fun _ => False) ⟨"https://shop"⟩ scriptHeaders
    (removeForm rowP) three againSite log true (after againSite (.removeItem "t" 1)) := by
  have heval : (remove ⟨"https://shop"⟩ scriptHeaders ⟨1⟩).eval (Site.answer id noFault) againSite =
      some (Response.redirect "/cart", after againSite (.removeItem "t" 1)) := rfl
  have hsent : sentTo ⟨"https://shop"⟩ scriptHeaders (removeForm rowP) three =
      some (remove ⟨"https://shop"⟩ scriptHeaders ⟨1⟩) := sentTo_removeForm (by decide)
  exact posts_of_sentTo hsent (runs_script heval)

theorem posts_rowQ : ∃ log, Posts id (fun _ => False) ⟨"https://shop"⟩ scriptHeaders
    (updateForm rowQ) three (after againSite (.removeItem "t" 1)) log true
    (after (after againSite (.removeItem "t" 1)) (.updateQty "t" 2 3)) := by
  have heval : (update ⟨"https://shop"⟩ scriptHeaders ⟨2, 3⟩).eval (Site.answer id noFault)
      (after againSite (.removeItem "t" 1)) = some (Response.redirect "/cart",
        after (after againSite (.removeItem "t" 1)) (.updateQty "t" 2 3)) := rfl
  have hthree : Text.parseI64 (three.typed "qty").toList = some 3 := by decide
  have hsent : sentTo ⟨"https://shop"⟩ scriptHeaders (updateForm rowQ) three =
      some (update ⟨"https://shop"⟩ scriptHeaders ⟨2, 3⟩) := by
    rw [sentTo_updateForm (by decide), hthree]
    rfl
  exact posts_of_sentTo hsent (runs_script heval)

theorem items_oldTab : oldTab.items[0]? = some rowP ∧ oldTab.items[1]? = some rowQ := by
  decide +kernel

/-- The line that came back is safe from the old page. -/
theorem session_kept : Session id (fun _ => False) ⟨"https://shop"⟩ scriptHeaders "t"
    (after againSite (.removeItem "t" 1)) ⟨lines againSite.orders "t", [oldTab]⟩ := by
  have hmeans : Means ⟨lines againSite.orders "t", [oldTab]⟩ againSite.catalog three
      (removeForm rowP) ((Act.delete (oldTab.target rowP)).apply (lines againSite.orders "t")) :=
    .delete oldTab 0 rowP _ List.mem_cons_self items_oldTab.1 (by decide)
      (form_of_row items_oldTab.1).2
  have hsame : Visit.put ⟨lines againSite.orders "t", [oldTab]⟩ (if true then
      ((Act.delete (oldTab.target rowP)).apply (lines againSite.orders "t")).getD
        (lines againSite.orders "t") else lines againSite.orders "t") =
      ⟨lines againSite.orders "t", [oldTab]⟩ := by decide +kernel
  obtain ⟨_, hposts⟩ := posts_rowP
  exact hsame ▸ session_againSite.post hposts hmeans

/-- The line that stayed is changed. -/
theorem forms_as_meant_script : ∃ t v, Session id (fun _ => False) ⟨"https://shop"⟩ scriptHeaders "t" t v ∧
    v.lines.map Line.qty = [3, 5] ∧ lines t.orders "t" = v.lines := by
  have hcookie : CartCookie.extractCartToken scriptHeaders = some "t" := by decide +kernel
  have hmeans : Means ⟨lines againSite.orders "t", [oldTab]⟩
      (after againSite (.removeItem "t" 1)).catalog three (updateForm rowQ) _ :=
    .change oldTab 1 rowQ _ List.mem_cons_self items_oldTab.2 (by decide)
      (form_of_row items_oldTab.2).1
  obtain ⟨_, hposts⟩ := posts_rowQ
  have hdone := session_kept.post hposts hmeans
  obtain ⟨hlines, _⟩ := forms_as_meant hcookie hdone
  exact ⟨_, _, hdone, by decide +kernel, hlines⟩

end Script

end CartForms

end TinyShop
