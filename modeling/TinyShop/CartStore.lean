import TinyShop.OrderStore

/-!
# The cart store

What a call may write to the carts, said once, and what follows for every run of calls:
the bounds of the quantities, one row for each line, the order of the items, and that a
call on one cart leaves every other cart alone.
-/

namespace TinyShop

open Base
set_option autoImplicit false

/-- The cart that a call is about. -/
def OrdersCall.cartId? (hashToken : String → String) : OrdersCall → Option String
  | .createOrder _ | .addOrderItem _ | .checkout _ _ _ _ _ => none
  | .createCart raw => some (hashToken raw)
  | .addItem cartId _ => some cartId
  | .updateQty cartId _ _ => some cartId
  | .removeItem cartId _ => some cartId
  | .clear cartId => some cartId

namespace CartItems

theorem eq_of_rows {t u : CartItems} (hrows : t.rows = u.rows) (hseq : t.seq = u.seq) : t = u := by
  cases t
  cases u
  simp only at hrows hseq
  subst hrows hseq
  rfl

theorem update_eq_self {t : CartItems} {p : CartItem → Bool} {f : CartItem → CartItem}
    {keepsId : ∀ r, (f r).id = r.id} {keepsLine : ∀ r, (f r).line = r.line}
    {hqty : ∀ r, 0 < r.qty → 0 < (f r).qty} (h : ∀ r ∈ t.rows, p r = false) :
    t.update p f keepsId keepsLine hqty = t := by
  refine eq_of_rows ?_ rfl
  have hsame : t.rows.map (fun r => if p r then f r else r) = t.rows.map fun r => r := by
    apply List.map_congr_left
    intro r hr
    simp [h r hr]
  rw [rows_update, hsame, List.map_id']

theorem delete_eq_self {t : CartItems} {p : CartItem → Bool} (h : ∀ r ∈ t.rows, p r = false) :
    t.delete p = t := by
  refine eq_of_rows ?_ rfl
  rw [rows_delete]
  exact List.filter_eq_self.mpr fun r hr => by rw [h r hr]; rfl

end CartItems

namespace CartStore
open CartRepo OrdersConnection

/-- The quantities that a row may have. -/
def InRange (qty : Int) : Prop := 1 ≤ qty ∧ qty ≤ maxQty

/-- What a call on the cart `a` does to the table of the items. -/
inductive ItemsStep (a : String) (db : OrdersDb) (items : CartItems) : Prop where
  | same (h : items = db.cartItems)
  | insert (row : CartItem) (hcart : row.cartId = a) (hqty : InRange row.qty)
      (hsome : (db.carts.find? a).isSome)
      (hrows : items.rows = db.cartItems.rows ++ [{ row with id := db.cartItems.seq + 1 }])
      (hseq : items.seq = db.cartItems.seq + 1)
  | patch (f : CartItem → CartItem) (hkeeps : ∀ r, (f r).id = r.id ∧ (f r).line = r.line)
      (hothers : ∀ r, r.cartId ≠ a → f r = r) (hqty : ∀ r, InRange r.qty → InRange (f r).qty)
      (hrows : items.rows = db.cartItems.rows.map f) (hseq : db.cartItems.seq ≤ items.seq)
  | delete (p : CartItem → Bool) (hcart : ∀ r, p r = true → r.cartId = a)
      (hrows : items.rows = db.cartItems.rows.filter fun r => !p r)
      (hseq : items.seq = db.cartItems.seq)

structure CartStep (a : String) (db db' : OrdersDb) : Prop where
  kept : ∀ k, (db.carts.find? k).isSome → (db'.carts.find? k).isSome
  others : ∀ b, b ≠ a → db'.carts.find? b = db.carts.find? b
  items : ItemsStep a db db'.cartItems

section Steps
variable {db db' : OrdersDb} {now clock : Int64} {hashToken : String → String}

theorem isSome_touchIf (db : OrdersDb) (b : Bool) (cartId : String) (now : Int64) (k : String) :
    ((touchIf db b cartId now).carts.find? k).isSome = (db.carts.find? k).isSome := by
  cases b with
  | false => rfl
  | true => simp only [touchIf, if_true, touchCart, Table.find?_update, Option.isSome_map]

/-- Items are written first, then the cart is touched. -/
theorem cartStep_touchIf {a : String} {items : CartItems} (h : ItemsStep a db items) (b : Bool)
    (now : Int64) : CartStep a db (touchIf { db with cartItems := items } b a now) where
  kept := by
    intro k hk
    rw [isSome_touchIf]
    exact hk
  others := fun _ hb => find?_touchIf _ b hb now
  items := by
    rw [touchIf_cartItems]
    exact h

theorem cartStep_refl (a : String) (db : OrdersDb) : CartStep a db db :=
  ⟨fun _ => id, fun _ _ => rfl, .same rfl⟩

theorem createCart_step {raw : String} {token : CartToken} {cart : Cart}
    (h : CartRepo.createCart db hashToken raw now = .ok (db', token, cart)) :
    CartStep (hashToken raw) db db' := by
  unfold CartRepo.createCart at h
  split at h
  · rename_i free
    obtain ⟨rfl, _⟩ := Prod.mk.inj (Except.ok.inj h)
    have hfind := Table.find?_insert db.carts (newCart (hashToken raw) now) free
    refine ⟨fun k hk => ?_, fun b hb => (hfind b).trans (if_neg hb.symm), .same rfl⟩
    rw [hfind]
    split
    · rfl
    · exact hk
  · cases h

theorem lineOf_eq {r : CartItem} {cartId : String} {item : NewCartItem}
    (h : r.line = lineOf cartId item) : r.cartId = cartId :=
  congrArg Prod.fst h

theorem merge_inRange {item : NewCartItem} (hqty : 0 < item.qty) (now : Int64) {r : CartItem}
    (h : InRange r.qty) : InRange (merge item now r).qty := by
  unfold InRange merge maxQty at *
  simp only
  omega

theorem addItem_step {cartId : String} {item : NewCartItem}
    (h : CartRepo.addItem db cartId item now = .ok db') : CartStep cartId db db' := by
  unfold CartRepo.addItem at h
  split at h
  · cases h
  · rename_i hqty
    have hpos : 0 < item.qty := by omega
    split at h
    · cases h
    · rename_i db₁ hins
      obtain rfl := Except.ok.inj h
      unfold insertItem at hins
      split at hins
      · cases hins
      · split at hins
        · rename_i free
          split at hins
          · rename_i hsome
            obtain rfl := Except.ok.inj hins
            have hrange : InRange item.qty := by unfold InRange; omega
            exact cartStep_touchIf (.insert (newRow cartId item now) rfl hrange hsome rfl rfl) true now
          · cases hins
        · obtain rfl := Except.ok.inj hins
          refine cartStep_touchIf (.patch _ (fun r => ?_) (fun r hr => if_neg fun hline => ?_)
            (fun r hr => ?_) (rows_addToLine db cartId item hpos now)
            (Int.le_of_lt (Int.lt_succ _))) true now
          · split <;> exact ⟨rfl, rfl⟩
          · exact hr (lineOf_eq hline)
          · split
            · exact merge_inRange hpos now hr
            · exact hr

theorem isItem_cart {cartId : String} {itemId : Int} {r : CartItem}
    (h : isItem cartId itemId r = true) : r.cartId = cartId := by
  simp only [isItem, decide_eq_true_eq] at h
  exact h.2

theorem removeItem_step (db : OrdersDb) (cartId : String) (itemId : Int) (now : Int64) :
    CartStep cartId db (CartRepo.removeItem db cartId itemId now) :=
  have hitems : ItemsStep cartId db (db.cartItems.delete (isItem cartId itemId)) :=
    .delete _ (fun _ => isItem_cart) rfl rfl
  cartStep_touchIf hitems _ now

theorem clear_step (db : OrdersDb) (cartId : String) (now : Int64) :
    CartStep cartId db (CartRepo.clear db cartId now) :=
  have hitems : ItemsStep cartId db (db.cartItems.delete fun r => r.cartId = cartId) :=
    .delete _ (fun _ hr => of_decide_eq_true hr) rfl rfl
  cartStep_touchIf hitems _ now

theorem updateQty_step {cartId : String} {itemId qty : Int}
    (h : CartRepo.updateQty db cartId itemId qty now = .ok db') : CartStep cartId db db' := by
  unfold CartRepo.updateQty at h
  split at h
  · cases h
  · rename_i hqty
    obtain rfl := Except.ok.inj h
    split
    · exact removeItem_step db cartId itemId now
    · have hrange : InRange qty := by unfold InRange; omega
      have hitems : ItemsStep cartId db (CartRepo.setQty db cartId itemId qty hrange.1) := by
        refine .patch _ (fun r => ?_) (fun r hr => if_neg fun hitem => ?_) (fun r hr => ?_) rfl
          le_rfl
        · split <;> exact ⟨rfl, rfl⟩
        · exact hr (isItem_cart hitem)
        · split
          · exact hrange
          · exact hr
      exact cartStep_touchIf hitems _ now

/-- The calls of `OrderRepo` leave the carts as they are. -/
theorem orders_step (a : String) {id : String} (h : OrderStore.Step db db' id) :
    CartStep a db db' where
  kept := by
    intro k hk
    rw [h.carts]
    exact hk
  others := by
    intro b _
    rw [h.carts]
  items := .same h.cartItems

/-- Everything that a committed call of `CartRepo` does. -/
theorem perform_step {a : String} {c : OrdersCall} {r : OrdersAnswer}
    (h : c.perform hashToken now clock db = .ok (r, db'))
    (hcart : c.cartId? hashToken = some a) : CartStep a db db' := by
  cases OrdersCall.effect_of_perform h with
  | createOrder _ _ | addOrderItem _ _ | checkout _ _ _ _ _ _ _ => cases hcart
  | createCart raw created hx => exact Option.some.inj hcart ▸ createCart_step hx
  | addItem cartId item hx => exact Option.some.inj hcart ▸ addItem_step hx
  | updateQty cartId itemId qty hx => exact Option.some.inj hcart ▸ updateQty_step hx
  | removeItem cartId itemId hdb =>
    rw [hdb]
    exact Option.some.inj hcart ▸ removeItem_step db cartId itemId now
  | clear cartId hdb =>
    rw [hdb]
    exact Option.some.inj hcart ▸ clear_step db cartId now

/-- Every call writes to the items of at most one cart. -/
theorem exists_step (hdb : db.ItemsOrdered) {c : OrdersCall} {r : OrdersAnswer}
    (h : c.perform hashToken now clock db = .ok (r, db')) : ∃ a, CartStep a db db' := by
  cases hcart : c.cartId? hashToken with
  | some a => exact ⟨a, perform_step h hcart⟩
  | none =>
    have horders : ¬OrderStore.OnCarts c := by
      cases c with
      | createOrder _ | addOrderItem _ | checkout _ _ _ _ _ => exact id
      | createCart _ | addItem _ _ | updateQty _ _ _ | removeItem _ _ | clear _ => cases hcart
    obtain ⟨_, hs⟩ := OrderStore.step_of_perform hdb h horders
    exact ⟨"", orders_step "" hs⟩

end Steps

/-! ## Bounds and references -/

/-- What holds of the cart store between two calls, beside the fields of its table. -/
structure Sound (db : OrdersDb) : Prop where
  qty : ∀ r ∈ db.cartItems.rows, InRange r.qty
  cart : ∀ r ∈ db.cartItems.rows, (db.carts.find? r.cartId).isSome

section Sound
variable {db db' : OrdersDb} {a : String}

theorem sound_empty : Sound .empty where
  qty := fun r hr => by cases hr
  cart := fun r hr => by cases hr

theorem cartId_of_line {r s : CartItem} (h : r.line = s.line) : r.cartId = s.cartId :=
  congrArg Prod.fst h

theorem Sound.step (h : Sound db) (hs : CartStep a db db') : Sound db' := by
  cases hs.items with
  | same hsame =>
    refine ⟨?_, fun r hr => hs.kept _ (h.cart r ?_)⟩
    · rw [hsame]
      exact h.qty
    · rw [← hsame]
      exact hr
  | insert row hcart hqty hsome hrows hseq =>
    have hcases : ∀ r ∈ db'.cartItems.rows,
        r ∈ db.cartItems.rows ∨ r = { row with id := db.cartItems.seq + 1 } := by
      intro r hr
      rw [hrows] at hr
      exact (List.mem_append.mp hr).imp_right List.mem_singleton.mp
    refine ⟨fun r hr => ?_, fun r hr => hs.kept _ ?_⟩
    · rcases hcases r hr with hr | rfl
      · exact h.qty r hr
      · exact hqty
    · rcases hcases r hr with hr | rfl
      · exact h.cart r hr
      · rw [← hcart] at hsome
        exact hsome
  | patch f hkeeps hothers hqty hrows hseq =>
    refine ⟨fun r hr => ?_, fun r hr => hs.kept _ ?_⟩
    · rw [hrows] at hr
      obtain ⟨s, hmem, rfl⟩ := List.mem_map.mp hr
      exact hqty s (h.qty s hmem)
    · rw [hrows] at hr
      obtain ⟨s, hmem, rfl⟩ := List.mem_map.mp hr
      rw [cartId_of_line (hkeeps s).2]
      exact h.cart s hmem
  | delete p hcart hrows hseq =>
    have hsub : ∀ r ∈ db'.cartItems.rows, r ∈ db.cartItems.rows := by
      intro r hr
      rw [hrows] at hr
      exact List.mem_of_mem_filter hr
    exact ⟨fun r hr => h.qty r (hsub r hr), fun r hr => hs.kept _ (h.cart r (hsub r hr))⟩

end Sound

/-! ## The order of the items -/

/-- The ids of the items of a cart, in their order. -/
def ids (items : CartItems) (cartId : String) : List Int :=
  (items.rows.filter fun r => r.cartId = cartId).map CartItem.id

/-- The ids that a call has added to a cart. -/
def Entry.inserted (cartId : String) (e : Entry) : List Int :=
  (ids e.after.cartItems cartId).filter fun i => i ∉ ids e.before.cartItems cartId

/-- The ids that a run has added to a cart, in the order of the calls. -/
def inserted (cartId : String) : List Entry → List Int
  | [] => []
  | e :: earlier => inserted cartId earlier ++ Entry.inserted cartId e

section Order
variable {db db' : OrdersDb} {a : String} {items : CartItems}

theorem filter_cart_map {f : CartItem → CartItem} (hkeeps : ∀ r, (f r).line = r.line)
    (rows : List CartItem) (cartId : String) :
    (rows.map f).filter (fun r => r.cartId = cartId) =
      (rows.filter fun r => r.cartId = cartId).map f := by
  rw [List.filter_map]
  congr 2
  funext r
  simp only [Function.comp_apply, cartId_of_line (hkeeps r)]

/-- Some ids go, and new ones come behind those that stay. -/
theorem ids_step (h : ItemsStep a db items) (cartId : String) : ∃ kept news,
    ids items cartId = kept ++ news ∧ kept.Sublist (ids db.cartItems cartId) ∧
      news.Pairwise (· < ·) ∧ ∀ i ∈ news, db.cartItems.seq < i ∧ i ≤ items.seq := by
  cases h with
  | same hsame =>
    subst hsame
    exact ⟨_, [], (List.append_nil _).symm, List.Sublist.refl _, .nil, by simp⟩
  | insert row hcart hqty hsome hrows hseq =>
    by_cases hrow : row.cartId = cartId
    · refine ⟨_, [db.cartItems.seq + 1], ?_, List.Sublist.refl _, List.pairwise_singleton _ _, ?_⟩
      · simp [ids, hrows, hrow]
      · intro i hi
        rw [List.mem_singleton.mp hi]
        omega
    · refine ⟨_, [], ?_, List.Sublist.refl _, .nil, by simp⟩
      simp [ids, hrows, hrow]
  | patch f hkeeps hothers hqty hrows hseq =>
    refine ⟨_, [], ?_, List.Sublist.refl _, .nil, by simp⟩
    unfold ids
    rw [hrows, filter_cart_map fun r => (hkeeps r).2, List.map_map, List.append_nil]
    exact List.map_congr_left fun r _ => (hkeeps r).1
  | delete p hcart hrows hseq =>
    refine ⟨_, [], (List.append_nil _).symm, ?_, .nil, by simp⟩
    unfold ids
    rw [hrows]
    exact (List.filter_sublist.filter _).map _

theorem seq_step (h : ItemsStep a db items) : db.cartItems.seq ≤ items.seq := by
  cases h with
  | same hsame => rw [hsame]
  | insert _ _ _ _ _ hseq => omega
  | patch _ _ _ _ _ hseq | delete _ _ _ hseq => omega

theorem ids_le_seq (items : CartItems) {cartId : String} {i : Int} (h : i ∈ ids items cartId) :
    i ≤ items.seq := by
  obtain ⟨r, hr, rfl⟩ := List.mem_map.mp h
  exact items.bounded r (List.mem_of_mem_filter hr)

/-- The ids that are added are the new ones. -/
theorem inserted_eq {e : Entry} {cartId : String} {kept news : List Int}
    (hids : ids e.after.cartItems cartId = kept ++ news)
    (hkept : kept.Sublist (ids e.before.cartItems cartId))
    (hnews : ∀ i ∈ news, e.before.cartItems.seq < i) : Entry.inserted cartId e = news := by
  unfold Entry.inserted
  rw [hids, List.filter_append]
  have hgone : kept.filter (fun i => i ∉ ids e.before.cartItems cartId) = [] :=
    List.filter_eq_nil_iff.mpr fun i hi => by simp [hkept.subset hi]
  have hstay : news.filter (fun i => i ∉ ids e.before.cartItems cartId) = news := by
    refine List.filter_eq_self.mpr fun i hi => decide_eq_true fun hold => ?_
    have hle := ids_le_seq _ hold
    have hlt := hnews i hi
    omega
  rw [hgone, hstay, List.nil_append]

/-- The items of a cart lie in the order in which they were inserted. -/
structure Ordered (log : List Entry) (db : OrdersDb) (cartId : String) : Prop where
  sublist : (ids db.cartItems cartId).Sublist (inserted cartId log)
  increasing : (inserted cartId log).Pairwise (· < ·)
  bounded : ∀ i ∈ inserted cartId log, i ≤ db.cartItems.seq

theorem Ordered.step {log : List Entry} {cartId : String} (h : Ordered log db cartId)
    {e : Entry} (hbefore : e.before = db) (hafter : e.after = db') (hs : CartStep a db db') :
    Ordered (e :: log) db' cartId := by
  obtain ⟨kept, news, hids, hkept, hnews, hbounds⟩ := ids_step hs.items cartId
  have hseq := seq_step hs.items
  have heq : Entry.inserted cartId e = news := by
    subst hbefore hafter
    exact inserted_eq hids hkept fun i hi => (hbounds i hi).1
  constructor
  · rw [hids, inserted, heq]
    exact (hkept.trans h.sublist).append (List.Sublist.refl news)
  · rw [inserted, heq]
    refine List.pairwise_append.mpr ⟨h.increasing, hnews, fun i hi j hj => ?_⟩
    have hold := h.bounded i hi
    have hnew := (hbounds j hj).1
    omega
  · rw [inserted, heq]
    intro i hi
    rcases List.mem_append.mp hi with hi | hi
    · exact le_trans (h.bounded i hi) hseq
    · exact (hbounds i hi).2

end Order

/-- A repeated add or a change of the quantity. -/
def Repeats (db : OrdersDb) : OrdersCall → Prop
  | .addItem cartId item => ∃ r ∈ db.cartItems.rows, r.line = lineOf cartId item
  | .updateQty _ _ qty => qty ≠ 0
  | _ => False

/-- The id of a row and its line. -/
def place (r : CartItem) : Int × String × String × String := (r.id, r.line)

section Places
variable {db db' : OrdersDb} {now clock : Int64} {hashToken : String → String}

theorem places_of_map {f : CartItem → CartItem} (hid : ∀ r, (f r).id = r.id)
    (hline : ∀ r, (f r).line = r.line) (hrows : db'.cartItems.rows = db.cartItems.rows.map f)
    (cartId : String) : (listItems db' cartId).map place = (listItems db cartId).map place := by
  unfold listItems
  rw [hrows, filter_cart_map hline, List.map_map]
  refine List.map_congr_left fun r _ => ?_
  simp only [Function.comp_apply, place, hid, hline]

/-- A row that is written again keeps its place. -/
theorem places_of_perform {c : OrdersCall} {r : OrdersAnswer}
    (h : c.perform hashToken now clock db = .ok (r, db')) (hrepeats : Repeats db c)
    (cartId : String) : (listItems db' cartId).map place = (listItems db cartId).map place := by
  cases OrdersCall.effect_of_perform h with
  | addItem a item hx =>
    obtain ⟨s, hs, hline⟩ := hrepeats
    rcases (addItem_ok hx).2.2 with ⟨hfree, _⟩ | ⟨_, hrows⟩
    · exact absurd hline (hfree s hs)
    · refine places_of_map (fun r => ?_) (fun r => ?_) hrows cartId
      · split <;> rfl
      · split <;> rfl
  | updateQty a itemId qty hx =>
    unfold CartRepo.updateQty at hx
    split at hx
    · cases hx
    · obtain rfl := Except.ok.inj hx
      rw [dif_neg hrepeats]
      refine places_of_map (f := fun r => if isItem a itemId r then { r with qty } else r)
        (fun r => ?_) (fun r => ?_) (by rw [touchIf_cartItems]; rfl) cartId
      · split <;> rfl
      · split <;> rfl
  | _ => cases hrepeats

end Places

section Runs
variable {hashToken : String → String} {fails : SqlxError → Prop} {log : List Entry}
  {db : OrdersDb}

theorem sound_of_session (h : Session hashToken fails log db) : Sound db := by
  refine h.induct (J := fun _ db => Sound db) sound_empty ?_ id
  intro log db db' now clock c r hs ih hperform
  obtain ⟨a, hstep⟩ := exists_step hs.reachable.itemsOrdered hperform
  exact ih.step hstep

theorem ordered_of_session (h : Session hashToken fails log db) (cartId : String) :
    Ordered log db cartId := by
  refine h.induct (J := fun log db => Ordered log db cartId) ?_ ?_ ?_
  · exact ⟨List.Sublist.refl _, .nil, by simp [inserted]⟩
  · intro log db db' now clock c r hs ih hperform
    obtain ⟨a, hstep⟩ := exists_step hs.reachable.itemsOrdered hperform
    exact ih.step rfl rfl hstep
  · intro log db c error ih
    exact ih.step rfl rfl (cartStep_refl "" db)

theorem places_of_session (h : Session hashToken fails log db) :
    ∀ e ∈ log, Repeats e.before e.call → ∀ cartId,
      (listItems e.after cartId).map place = (listItems e.before cartId).map place := by
  refine h.induct (J := fun log _ => ∀ e ∈ log, Repeats e.before e.call → ∀ cartId,
    (listItems e.after cartId).map place = (listItems e.before cartId).map place) (by simp) ?_ ?_
  · intro log db db' now clock c r _ ih hperform
    exact List.forall_mem_cons.mpr ⟨places_of_perform hperform, ih⟩
  · intro log db c error ih
    exact List.forall_mem_cons.mpr ⟨fun _ _ => rfl, ih⟩

end Runs

section Script

def scriptItem (productId : String) (variantId : Option String) (qty : Int) : NewCartItem :=
  ⟨productId, variantId, qty, "Lamp", 100, "UAH"⟩

/-- Two carts, adds that repeat, fail or reach the limit, and a row that goes. -/
def scriptCalls : List OrdersCall :=
  [.updateQty "a" 1 (-1), .updateQty "a" 3 5, .removeItem "a" 2, .addItem "a" (scriptItem "p1" none 998),
    .addItem "a" (scriptItem "p3" (some "v") 1), .addItem "a" (scriptItem "p2" none 1),
    .addItem "a" (scriptItem "p2" (some "") 1), .addItem "a" (scriptItem "p1" none 2),
    .addItem "a" (scriptItem "p1" none 0), .addItem "b" (scriptItem "p1" none 1), .createCart "a"]

end Script

/-! ## Isolation -/

/-- The call addresses no item of its cart. -/
def Misses (db : OrdersDb) : OrdersCall → Prop
  | .updateQty cartId itemId _ => ∀ r ∈ db.cartItems.rows, r.id = itemId → r.cartId ≠ cartId
  | .removeItem cartId itemId => ∀ r ∈ db.cartItems.rows, r.id = itemId → r.cartId ≠ cartId
  | .clear cartId => listItems db cartId = []
  | _ => False

section Isolation
variable {db db' : OrdersDb} {now clock : Int64} {hashToken : String → String} {a b : String}

/-- The rows of another cart stay as they are. -/
theorem listItems_other (hs : CartStep a db db') (hb : b ≠ a) : listItems db' b = listItems db b := by
  unfold listItems
  cases hs.items with
  | same hsame => rw [hsame]
  | insert row hcart _ _ hrows _ =>
    rw [hrows, List.filter_append]
    simp [hcart, hb.symm]
  | patch f hkeeps hothers _ hrows _ =>
    rw [hrows, filter_cart_map fun r => (hkeeps r).2]
    have hsame : (db.cartItems.rows.filter fun r => r.cartId = b).map f =
        (db.cartItems.rows.filter fun r => r.cartId = b).map fun r => r := by
      refine List.map_congr_left fun r hr => hothers r ?_
      have hcart := of_decide_eq_true (List.mem_filter.mp hr).2
      exact hcart ▸ hb
    rw [hsame, List.map_id']
  | delete p hcart hrows _ =>
    rw [hrows, List.filter_filter]
    refine List.filter_congr fun r _ => ?_
    by_cases hr : r.cartId = b
    · have hp : p r = false := by
        rw [Bool.eq_false_iff]
        intro hp
        exact hb (hr.symm.trans (hcart r hp))
      simp [hr, hp]
    · simp [hr]

theorem any_eq_false {p : CartItem → Bool} (h : ∀ r ∈ db.cartItems.rows, p r = false) :
    db.cartItems.rows.any p = false := by
  rw [List.any_eq_false]
  intro r hr
  rw [h r hr]
  exact Bool.false_ne_true

/-- Rows that are not there are not deleted, and the cart is not touched. -/
theorem delete_misses {p : CartItem → Bool} (h : ∀ r ∈ db.cartItems.rows, p r = false)
    (cartId : String) (now : Int64) :
    touchIf (deleteItems db p) (db.cartItems.rows.any p) cartId now = db := by
  rw [any_eq_false h, deleteItems, CartItems.delete_eq_self h]
  rfl

theorem isItem_misses {itemId : Int}
    (h : ∀ r ∈ db.cartItems.rows, r.id = itemId → r.cartId ≠ a) :
    ∀ r ∈ db.cartItems.rows, isItem a itemId r = false := by
  intro r hr
  simp only [isItem, decide_eq_false_iff_not, not_and]
  exact h r hr

theorem setQty_misses {itemId qty : Int} (hqty : 0 < qty)
    (h : ∀ r ∈ db.cartItems.rows, isItem a itemId r = false) :
    CartRepo.setQty db a itemId qty hqty = db.cartItems :=
  CartItems.update_eq_self h

theorem perform_misses {c : OrdersCall} {r : OrdersAnswer}
    (h : c.perform hashToken now clock db = .ok (r, db')) (hmisses : Misses db c) : db' = db := by
  cases OrdersCall.effect_of_perform h with
  | updateQty cartId itemId qty hx =>
    have hnone := isItem_misses hmisses
    unfold CartRepo.updateQty at hx
    split at hx
    · cases hx
    · obtain rfl := Except.ok.inj hx
      split
      · exact delete_misses hnone cartId now
      · rw [any_eq_false hnone, setQty_misses _ hnone]
        rfl
  | removeItem cartId itemId hdb =>
    rw [hdb]
    exact delete_misses (isItem_misses hmisses) cartId now
  | clear cartId hdb =>
    rw [hdb]
    refine delete_misses (fun r hr => decide_eq_false fun hcart => ?_) cartId now
    exact List.filter_eq_nil_iff.mp hmisses r hr (decide_eq_true hcart)
  | _ => cases hmisses

/-- A call on one cart leaves every other cart alone, whatever item it names, and changes
nothing at all if it addresses no item. -/
theorem carts_isolated {fails : SqlxError → Prop} {c : OrdersCall}
    (hcart : c.cartId? hashToken = some a) {r : Except OrdersError OrdersAnswer} {conn : Connection OrdersDb}
    (h : Runs (Connection.exec OrdersDb.apply fails) (c.send hashToken now clock) ⟨db, none⟩ r conn) :
    (∀ b, b ≠ a → listItems conn.committed b = listItems db b ∧
      conn.committed.carts.find? b = db.carts.find? b) ∧
    (Misses db c → conn.committed = db) := by
  rcases c.send_atomic hashToken now clock db r _ h with ⟨x, db', hok, _, rfl⟩ | ⟨_, _, _, rfl⟩
  · have hs := perform_step hok hcart
    exact ⟨fun b hb => ⟨listItems_other hs hb, hs.others b hb⟩, perform_misses hok⟩
  · exact ⟨fun b _ => ⟨rfl, rfl⟩, fun _ => rfl⟩

/-- The cart `b` asks for an item of the cart `a`. -/
theorem carts_isolated_script : ∃ r conn,
    ((OrdersCall.removeItem "b" 1).send id 0 0).eval (Connection.answer OrdersDb.apply)
        ⟨(play id scriptCalls).2, none⟩ = some (r, conn) ∧
      conn.committed = (play id scriptCalls).2 := by
  cases heval : ((OrdersCall.removeItem "b" 1).send id 0 0).eval (Connection.answer OrdersDb.apply)
      ⟨(play id scriptCalls).2, none⟩ with
  | none => exact absurd heval (by decide)
  | some x =>
    have hmisses : Misses (play id scriptCalls).2 (.removeItem "b" 1) := by
      unfold Misses
      decide
    have hrun : Runs (Connection.exec OrdersDb.apply fun _ => False) _ _ x.1 x.2 :=
      runs_of_eval (fun _ _ _ _ h => Connection.exec_of_answer h) heval
    exact ⟨x.1, x.2, rfl, (carts_isolated rfl hrun).2 hmisses⟩

end Isolation

end CartStore

end TinyShop
