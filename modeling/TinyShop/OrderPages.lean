import TinyShop.Base.Ties
import TinyShop.OrderRepo

/-!
# The history of a buyer

`OrderRepo::list_by_buyer` of `crates/orders/src/repository.rs`. Each page is a query of
its own, and `ORDER BY created_at DESC` leaves the orders of one millisecond in any order.
The pages put the history together as long as no such group lies on two of them.
-/

namespace TinyShop

open Base
set_option autoImplicit false

/-- What `map_order_row` reads. -/
def OrderRow.order (r : OrderRow) : Order :=
  ⟨r.id, r.buyerId, r.status, r.totalMinor, r.currency, r.createdAt, []⟩

theorem OrderRow.order_injective : Function.Injective OrderRow.order := by
  intro r s h
  cases r
  cases s
  simpa [OrderRow.order] using h

namespace OrderRepo

theorem mapOrderRow_ok (r : OrderRow) : mapOrderRow r = .ok r.order := by
  rw [mapOrderRow, OrderStatus.parse_asStr]
  rfl

/-- `ORDER BY created_at DESC`. -/
abbrev NewestFirst := Sorter fun r : OrderRow => -r.createdAt.toInt

section Listing
variable (db : OrdersDb)

def buyerRows (buyerId : String) : List OrderRow :=
  db.orders.rows.filter fun r => r.buyerId = buyerId

/-- `orderBy` is the order in which the database returns the rows of this query. -/
def listByBuyer (orderBy : NewestFirst) (buyerId : String) (pg : Pagination) :
    Except OrderError (Page Order) := do
  let total := Int64.ofNat (buyerRows db buyerId).length
  let rows := slice (orderBy.sort (buyerRows db buyerId)) pg.offset.toNat pg.limit.toNat
  let items ← rows.mapM mapOrderRow
  return ⟨items, total.toUInt64, pg⟩

end Listing

/-- The number of offsets `0, limit, 2 * limit, …` that are numbers of 32 bits. -/
def offsets (limit : UInt32) : Nat := (2 ^ 32 - 1) / limit.toNat + 1

def pageAt (limit : UInt32) (k : Nat) : Pagination := ⟨UInt32.ofNat (k * limit.toNat), limit⟩

/-- The first `n` pages show each of the orders once, and each page tells their number. -/
structure Partition (orders : List Order) (n : Nat) (pages : Nat → Page Order) : Prop where
  disjoint : ∀ j < n, ∀ k < n, j ≠ k → (pages j).items.Disjoint (pages k).items
  complete : ((List.range n).flatMap fun k => (pages k).items).Perm orders
  total : ∀ k < n, (pages k).total.toNat = orders.length

/-- However the queries order equal keys. -/
def PagesPartition (db : OrdersDb) (buyerId : String) (limit : UInt32) : Prop :=
  ∀ orderBy : Nat → NewestFirst, ∃ pages : Nat → Page Order,
    (∀ k < offsets limit,
      listByBuyer db (orderBy k) buyerId (pageAt limit k) = .ok (pages k)) ∧
      Partition ((buyerRows db buyerId).map OrderRow.order) (offsets limit) pages

section Pages
variable {db : OrdersDb} {buyerId : String} {limit : UInt32}

theorem buyerRows_nodup : (buyerRows db buyerId).Nodup :=
  (List.Nodup.of_map _ db.orders.unique).filter _

theorem listByBuyer_ok (orderBy : NewestFirst) (pg : Pagination) :
    listByBuyer db orderBy buyerId pg = .ok
      ⟨(slice (orderBy.sort (buyerRows db buyerId)) pg.offset.toNat pg.limit.toNat).map
        OrderRow.order, UInt64.ofNat (buyerRows db buyerId).length, pg⟩ := by
  rw [listByBuyer, mapM_ok fun r _ => mapOrderRow_ok r]
  rfl

section Offsets
variable (hlimit : 0 < limit)
include hlimit

theorem toNat_offset {k : Nat} (hk : k < offsets limit) :
    (pageAt limit k).offset.toNat = k * limit.toNat := by
  have hpos : 0 < limit.toNat := UInt32.lt_iff_toNat_lt.mp hlimit
  have hle : k * limit.toNat ≤ 2 ^ 32 - 1 := by
    rw [← Nat.le_div_iff_mul_le hpos]
    exact Nat.lt_succ_iff.mp hk
  have hsize : UInt32.size = 2 ^ 32 := rfl
  rw [pageAt, UInt32.toNat_ofNat_of_lt']
  omega

theorem offsets_mul_lt : offsets limit * limit.toNat < 2 ^ 64 := by
  have hpos : 0 < limit.toNat := UInt32.lt_iff_toNat_lt.mp hlimit
  have hle := Nat.div_mul_le_self (2 ^ 32 - 1) limit.toNat
  have hlt := limit.toNat_lt
  rw [offsets, Nat.succ_mul]
  omega

variable {orderBy : Nat → NewestFirst} {pages : Nat → Page Order}
  (hpages : ∀ k < offsets limit,
    listByBuyer db (orderBy k) buyerId (pageAt limit k) = .ok (pages k))
include hpages

theorem items_page {k : Nat} (hk : k < offsets limit) : (pages k).items =
    (slice ((orderBy k).sort (buyerRows db buyerId)) (k * limit.toNat) limit.toNat).map
      OrderRow.order := by
  have hpage := hpages k hk
  rw [listByBuyer_ok, toNat_offset hlimit hk] at hpage
  rw [← Except.ok.inj hpage]
  rfl

theorem flatMap_items :
    ((List.range (offsets limit)).flatMap fun k => (pages k).items) =
      ((List.range (offsets limit)).flatMap fun k =>
        slice ((orderBy k).sort (buyerRows db buyerId)) (k * limit.toNat) limit.toNat).map
        OrderRow.order := by
  rw [List.map_flatMap]
  exact List.flatMap_congr fun k hk => items_page hlimit hpages (List.mem_range.mp hk)

theorem complete_iff :
    ((List.range (offsets limit)).flatMap fun k => (pages k).items).Perm
        ((buyerRows db buyerId).map OrderRow.order) ↔
      ((List.range (offsets limit)).flatMap fun k =>
        slice ((orderBy k).sort (buyerRows db buyerId)) (k * limit.toNat) limit.toNat).Perm
        (buyerRows db buyerId) := by
  rw [flatMap_items hlimit hpages, List.map_perm_map_iff OrderRow.order_injective]

/-- Pages that are complete are also disjoint and tell the number of the orders. -/
theorem partition_of_complete (hreach : (buyerRows db buyerId).length ≤ offsets limit * limit.toNat)
    (hcomplete : ((List.range (offsets limit)).flatMap fun k => (pages k).items).Perm
      ((buyerRows db buyerId).map OrderRow.order)) :
    Partition ((buyerRows db buyerId).map OrderRow.order) (offsets limit) pages where
  disjoint := by
    have hnodup : ((buyerRows db buyerId).map OrderRow.order).Nodup :=
      buyerRows_nodup.map OrderRow.order_injective
    have hpair := (List.nodup_flatMap.mp (hcomplete.nodup_iff.mpr hnodup)).2
    have hlt : ∀ j k, j < k → k < offsets limit →
        (pages j).items.Disjoint (pages k).items := by
      intro j k hjk hk
      have hpair := List.pairwise_iff_getElem.mp hpair j k (by simp; omega) (by simpa using hk) hjk
      simpa [Function.onFun] using hpair
    intro j hj k hk hne
    by_cases hjk : j < k
    · exact hlt j k hjk hk
    · exact (hlt k j (by omega) hj).symm
  complete := hcomplete
  total := by
    intro k hk
    have hpage := hpages k hk
    rw [listByBuyer_ok] at hpage
    have hlt := offsets_mul_lt hlimit
    rw [← Except.ok.inj hpage, List.length_map, UInt64.toNat_ofNat_of_lt']
    exact lt_of_le_of_lt hreach hlt

end Offsets

variable (db buyerId limit) in
theorem exists_pages (orderBy : Nat → NewestFirst) : ∃ pages : Nat → Page Order,
    ∀ k < offsets limit, listByBuyer db (orderBy k) buyerId (pageAt limit k) = .ok (pages k) :=
  ⟨_, fun k _ => listByBuyer_ok (orderBy k) (pageAt limit k)⟩

theorem reach_and_unsplit_of_pagesPartition (hlimit : 0 < limit)
    (h : PagesPartition db buyerId limit) :
    (buyerRows db buyerId).length ≤ offsets limit * limit.toNat ∧
      Unsplit (fun r : OrderRow => -r.createdAt.toInt) (buyerRows db buyerId) limit.toNat := by
  have hpos : 0 < limit.toNat := UInt32.lt_iff_toNat_lt.mp hlimit
  have hperm : ∀ orderBy : Nat → NewestFirst, ((List.range (offsets limit)).flatMap fun k =>
      slice ((orderBy k).sort (buyerRows db buyerId)) (k * limit.toNat) limit.toNat).Perm
        (buyerRows db buyerId) := by
    intro orderBy
    obtain ⟨pages, hpages, hpartition⟩ := h orderBy
    exact (complete_iff hlimit hpages).mp hpartition.complete
  have hreach : (buyerRows db buyerId).length ≤ offsets limit * limit.toNat := by
    have hlength := (hperm fun _ => .insertion _).length_eq
    rw [flatMap_slices, List.length_take] at hlength
    omega
  exact ⟨hreach, (perm_pages_iff hpos buyerRows_nodup hreach).mp hperm⟩

/-- The pages of a buyer partition the orders exactly when the offsets reach all of them and no
group of orders of one millisecond lies on two pages. -/
theorem pagesPartition_iff (db : OrdersDb) (buyerId : String) (limit : UInt32)
    (hlimit : 0 < limit) :
    PagesPartition db buyerId limit ↔
      (buyerRows db buyerId).length ≤ offsets limit * limit.toNat ∧
        Unsplit (fun r : OrderRow => -r.createdAt.toInt) (buyerRows db buyerId) limit.toNat := by
  constructor
  · exact reach_and_unsplit_of_pagesPartition hlimit
  · rintro ⟨hreach, hunsplit⟩ orderBy
    have hpos : 0 < limit.toNat := UInt32.lt_iff_toNat_lt.mp hlimit
    obtain ⟨pages, hpages⟩ := exists_pages db buyerId limit orderBy
    have hcomplete := (perm_pages_iff hpos buyerRows_nodup hreach).mpr hunsplit orderBy
    exact ⟨pages, hpages, partition_of_complete hlimit hpages hreach
      ((complete_iff hlimit hpages).mpr hcomplete)⟩

end Pages

/-- Two orders of one millisecond and an older one. -/
def history : OrdersDb :=
  { OrdersDb.empty with
    orders := ⟨[⟨"o1", "b1", .paid, 100, "UAH", 1000⟩, ⟨"o2", "b1", .created, 200, "UAH", 2000⟩,
      ⟨"o3", "b1", .created, 300, "UAH", 2000⟩], by decide⟩ }

/-- The two share the first page. -/
theorem history_in_twos : PagesPartition history "b1" 2 :=
  (pagesPartition_iff history "b1" 2 (by decide)).mpr ⟨by decide, by decide⟩

/-- A page each: one of the two may be shown twice and the other one not at all. -/
theorem history_one_by_one : ¬ PagesPartition history "b1" 1 := by
  intro h
  have hunsplit := (reach_and_unsplit_of_pagesPartition (by decide) h).2
  revert hunsplit
  decide

end OrderRepo

end TinyShop
