import Mathlib.Data.List.Sort
import Mathlib.Order.Lattice
import Mathlib.Data.Prod.Lex

/-!
# Pages of a sorted list

A page is a slice of a list. Consecutive pages of one size put the list together
again. A list of distinct keys that is sorted is strictly sorted, so each of its
elements has one place. Pages that link to each other are visited one after the other.
-/

namespace TinyShop.Base

set_option autoImplicit false

variable {α β : Type}

/-- `LIMIT limit OFFSET offset`. -/
def slice (l : List α) (offset limit : Nat) : List α := (l.drop offset).take limit

theorem flatMap_slices (l : List α) (size n : Nat) :
    ((List.range n).flatMap fun k => slice l (k * size) size) = l.take (n * size) := by
  induction n with
  | zero => simp
  | succ n ih =>
    rw [List.range_succ, List.flatMap_append, ih, List.flatMap_singleton, Nat.succ_mul,
      List.take_add]
    rfl

theorem slice_map (f : α → β) (l : List α) (offset limit : Nat) :
    slice (l.map f) offset limit = (slice l offset limit).map f := by
  rw [slice, slice, List.map_take, List.map_drop]

theorem drop_eq_slice_append (l : List α) (offset limit : Nat) :
    l.drop offset = slice l offset limit ++ l.drop (offset + limit) := by
  rw [slice, ← List.drop_drop, List.take_append_drop]

/-- Calls that all succeed, one after the other. -/
theorem mapM_ok {α β ε : Type} {f : α → Except ε β} {g : α → β} {l : List α}
    (h : ∀ a ∈ l, f a = .ok (g a)) : l.mapM f = .ok (l.map g) := by
  induction l with
  | nil => rfl
  | cons a l ih =>
    rw [List.mapM_cons, h a List.mem_cons_self, ih fun b hb => h b (List.mem_cons_of_mem a hb)]
    rfl

section Walks

/-- The pages visited from one of them, link after link, until a page has no link. -/
inductive Walk (get : β → Option α) (link : α → Option β) : α → List α → Prop where
  | stop {page : α} (h : link page = none) : Walk get link page [page]
  | follow {page next : α} {url : β} {pages : List α} (hlink : link page = some url)
      (hget : get url = some next) (hrest : Walk get link next pages) :
      Walk get link page (page :: pages)

variable {get : β → Option α} {link : α → Option β} {p : Nat → α}

theorem Walk.ascending {n : Nat}
    (hstep : ∀ k < n, ∃ url, link (p k) = some url ∧ get url = some (p (k + 1)))
    (hlast : link (p n) = none) : Walk get link (p 0) ((List.range (n + 1)).map p) := by
  -- from the last page back to the first
  have hfrom : ∀ m ≤ n, Walk get link (p (n - m)) ((List.range' (n - m) (m + 1)).map p) := by
    intro m
    induction m with
    | zero => exact fun _ => .stop hlast
    | succ m ih =>
      intro hm
      obtain ⟨url, hlink, hget⟩ := hstep (n - (m + 1)) (by omega)
      have hnext : n - (m + 1) + 1 = n - m := by omega
      rw [hnext] at hget
      rw [List.range'_succ, List.map_cons, hnext]
      exact .follow hlink hget (ih (by omega))
  have hall := hfrom n (Nat.le_refl n)
  rwa [Nat.sub_self, ← List.range_eq_range'] at hall

theorem Walk.descending (hfirst : link (p 0) = none) {n : Nat}
    (hstep : ∀ k < n, ∃ url, link (p (k + 1)) = some url ∧ get url = some (p k)) :
    Walk get link (p n) ((List.range (n + 1)).map p).reverse := by
  induction n with
  | zero => exact .stop hfirst
  | succ n ih =>
    obtain ⟨url, hlink, hget⟩ := hstep n (Nat.lt_succ_self n)
    rw [List.range_succ, List.map_append, List.reverse_append]
    exact .follow hlink hget (ih fun k hk => hstep k (Nat.lt_succ_of_lt hk))

end Walks

section Sorted
variable [LinearOrder β] {f : α → β}

theorem pairwise_lt_of_le {l : List α} (hsorted : l.Pairwise fun a b => f a ≤ f b)
    (distinct : (l.map f).Nodup) : l.Pairwise fun a b => f a < f b := by
  rw [List.Nodup, List.pairwise_map] at distinct
  refine (hsorted.and distinct).imp ?_
  rintro a b ⟨hab, hne⟩
  exact lt_of_le_of_ne hab hne

theorem insertionSort_strict {le : α → α → Prop} [DecidableRel le]
    (hle : ∀ a b, le a b ↔ f a ≤ f b) {l : List α} (distinct : (l.map f).Nodup) :
    (l.insertionSort le).Pairwise fun a b => f a < f b := by
  have : Std.Total le := ⟨fun a b => by rw [hle, hle]; exact le_total _ _⟩
  have : IsTrans α le := ⟨fun a b c hab hbc => by
    rw [hle] at hab hbc ⊢
    exact hab.trans hbc⟩
  have hsorted := List.pairwise_insertionSort le l
  exact pairwise_lt_of_le (hsorted.imp fun {a b} => (hle a b).mp)
    ((List.Perm.map f (List.perm_insertionSort le l)).nodup_iff.mpr distinct)

end Sorted

end TinyShop.Base
