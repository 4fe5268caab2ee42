import Mathlib
import TinyShop.Base.Paging

/-!
# Pages of a list sorted with ties

An order by a key leaves the elements of one key in any order, and each query may choose
another. Pages cut from several answers put the list together again exactly when no
group of equal keys lies on two pages.
-/

namespace TinyShop.Base

set_option autoImplicit false

section Countings
variable {α : Type} {p : α → Bool} {l : List α}

theorem countP_eq_zero_of_head {a : α} (ha : p a = false)
    (hfirst : (a :: l).Pairwise fun x y => p y = true → p x = true) : l.countP p = 0 := by
  rw [List.countP_eq_zero]
  intro b hb hpb
  have hpa := List.rel_of_pairwise_cons hfirst hb hpb
  rw [ha] at hpa
  cases hpa

/-- Where `p` holds on a first part of the list, that part is cut out by counting. -/
theorem filter_eq_take_countP (hfirst : l.Pairwise fun x y => p y = true → p x = true) :
    l.filter p = l.take (l.countP p) := by
  induction l with
  | nil => rfl
  | cons a l ih =>
    cases ha : p a with
    | true =>
      rw [List.filter_cons_of_pos ha, List.countP_cons_of_pos ha, List.take_succ_cons,
        ih hfirst.of_cons]
    | false =>
      have hzero := countP_eq_zero_of_head ha hfirst
      have hneg : ¬ p a = true := by simp [ha]
      rw [List.filter_cons_of_neg hneg, ih hfirst.of_cons, List.countP_cons_of_neg hneg, hzero,
        List.take_zero, List.take_zero]

theorem lt_countP_iff (hfirst : l.Pairwise fun x y => p y = true → p x = true) {i : Nat} {a : α}
    (ha : l[i]? = some a) : i < l.countP p ↔ p a = true := by
  induction l generalizing i with
  | nil => cases ha
  | cons b l ih =>
    cases hb : p b with
    | true =>
      rw [List.countP_cons_of_pos hb]
      cases i with
      | zero =>
        obtain rfl := Option.some.inj ha
        simp [hb]
      | succ i =>
        rw [Nat.succ_lt_succ_iff]
        exact ih hfirst.of_cons ha
    | false =>
      have hzero := countP_eq_zero_of_head hb hfirst
      have hneg : ¬ p b = true := by simp [hb]
      rw [List.countP_cons_of_neg hneg, hzero]
      cases i with
      | zero =>
        obtain rfl := Option.some.inj ha
        simp [hb]
      | succ i =>
        have hi := ih hfirst.of_cons ha
        rw [hzero] at hi
        simpa using hi

end Countings

theorem exists_perm_of_perm_map {α β : Type} {f : α → β} {l : List β} {xs : List α}
    (h : l.Perm (xs.map f)) : ∃ ys : List α, ys.Perm xs ∧ l = ys.map f := by
  generalize hys : xs.map f = ys at h
  induction h generalizing xs with
  | nil =>
    rw [List.map_eq_nil_iff] at hys
    exact ⟨[], by rw [hys], rfl⟩
  | cons b _ ih =>
    obtain ⟨a, rest, rfl, rfl, rfl⟩ := List.map_eq_cons_iff.mp hys
    obtain ⟨ys, hperm, rfl⟩ := ih rfl
    exact ⟨a :: ys, hperm.cons a, rfl⟩
  | swap b c l =>
    obtain ⟨a, rest, rfl, rfl, hrest⟩ := List.map_eq_cons_iff.mp hys
    obtain ⟨a', rest', rfl, rfl, rfl⟩ := List.map_eq_cons_iff.mp hrest
    exact ⟨a' :: a :: rest', List.Perm.swap _ _ _, rfl⟩
  | trans _ _ ih₁ ih₂ =>
    obtain ⟨ys, hperm, rfl⟩ := ih₂ hys
    obtain ⟨zs, hperm', rfl⟩ := ih₁ rfl
    exact ⟨zs, hperm'.trans hperm, rfl⟩

/-- `ORDER BY key`. -/
structure Sorter {α β : Type} [LinearOrder β] (key : α → β) where
  sort : List α → List α
  perm : ∀ l, (sort l).Perm l
  sorted : ∀ l, (sort l).Pairwise fun a b => key a ≤ key b

section Ties
variable {α β : Type} [LinearOrder β] {key : α → β}

namespace Sorter

def insertion (key : α → β) : Sorter key where
  sort l := l.insertionSort fun a b => key a ≤ key b
  perm := List.perm_insertionSort _
  sorted := by
    have : Std.Total fun a b : α => key a ≤ key b := ⟨fun a b => le_total (key a) (key b)⟩
    have : IsTrans α fun a b => key a ≤ key b := ⟨fun a b c => le_trans⟩
    exact List.pairwise_insertionSort _

/-- Another answer to one query. -/
def update [DecidableEq α] (s : Sorter key) (l answer : List α) (hperm : answer.Perm l)
    (hsorted : answer.Pairwise fun a b => key a ≤ key b) : Sorter key where
  sort l' := if l' = l then answer else s.sort l'
  perm := by
    intro l'
    split
    · rename_i h
      rw [h]
      exact hperm
    · exact s.perm l'
  sorted := by
    intro l'
    split
    · exact hsorted
    · exact s.sorted l'

/-- A sorted answer of rows that come from `xs`, read back as elements of `xs`. -/
theorem exists_sorted {γ : Type} (s : Sorter key) (f : γ → α) (xs : List γ) :
    ∃ sorted : List γ, sorted.Perm xs ∧ s.sort (xs.map f) = sorted.map f ∧
      sorted.Pairwise fun a b => key (f a) ≤ key (f b) := by
  obtain ⟨sorted, hperm, hsort⟩ := exists_perm_of_perm_map (s.perm (xs.map f))
  have hsorted := s.sorted (xs.map f)
  rw [hsort, List.pairwise_map] at hsorted
  exact ⟨sorted, hperm, hsort, hsorted⟩

end Sorter

/-- How many keys are smaller. -/
def ahead (key : α → β) (l : List α) (t : β) : Nat := l.countP fun a => key a < t

/-- How many keys are not larger. -/
def upTo (key : α → β) (l : List α) (t : β) : Nat := l.countP fun a => key a ≤ t

/-- Each group of equal keys lies on one page. -/
def Unsplit (key : α → β) (l : List α) (size : Nat) : Prop :=
  ∀ a ∈ l, ahead key l (key a) / size = (upTo key l (key a) - 1) / size

instance (l : List α) (size : Nat) : Decidable (Unsplit key l size) :=
  inferInstanceAs (Decidable (∀ a ∈ l, _))

section Counted
variable {l rows : List α} (hsorted : l.Pairwise fun a b => key a ≤ key b) (hperm : l.Perm rows)

include hsorted in
/-- What holds of a key and of all smaller ones holds on a first part of the list. -/
theorem pairwise_of_lower {p : β → Prop} [DecidablePred p] (hp : ∀ t u, t ≤ u → p u → p t) :
    l.Pairwise fun a b => decide (p (key b)) = true → decide (p (key a)) = true := by
  refine hsorted.imp fun {a b} hab hb => ?_
  rw [decide_eq_true_eq] at hb ⊢
  exact hp (key a) (key b) hab hb

include hsorted hperm

theorem take_upTo (t : β) :
    l.take (upTo key rows t) = l.filter fun a => key a ≤ t := by
  rw [filter_eq_take_countP (pairwise_of_lower hsorted fun _ _ => le_trans), upTo, hperm.countP_eq]

theorem lt_upTo_iff {i : Nat} {a : α} (ha : l[i]? = some a) (t : β) :
    i < upTo key rows t ↔ key a ≤ t := by
  rw [upTo, ← hperm.countP_eq, lt_countP_iff (pairwise_of_lower hsorted fun _ _ => le_trans) ha,
    decide_eq_true_eq]

theorem lt_ahead_iff {i : Nat} {a : α} (ha : l[i]? = some a) (t : β) :
    i < ahead key rows t ↔ key a < t := by
  rw [ahead, ← hperm.countP_eq, lt_countP_iff (pairwise_of_lower hsorted fun _ _ => lt_of_le_of_lt)
    ha, decide_eq_true_eq]

/-- A page that splits no group starts where a key ends. -/
theorem exists_upTo {size : Nat} (hsize : 0 < size) (hunsplit : Unsplit key rows size) {k : Nat}
    (hk : (k + 1) * size ≤ rows.length) : ∃ t, upTo key rows t = (k + 1) * size := by
  have hpos : 0 < (k + 1) * size := Nat.mul_pos k.succ_pos hsize
  have hlength := hperm.length_eq
  have hlast : (k + 1) * size - 1 < l.length := by omega
  have ha : l[(k + 1) * size - 1]? = some l[(k + 1) * size - 1] := List.getElem?_eq_getElem hlast
  have hmem := hperm.mem_iff.mp (List.getElem_mem hlast)
  generalize l[(k + 1) * size - 1] = a at ha hmem
  refine ⟨key a, ?_⟩
  have hreach := (lt_upTo_iff hsorted hperm ha (key a)).mpr le_rfl
  have hbefore := mt (lt_ahead_iff hsorted hperm ha (key a)).mp (lt_irrefl _)
  have hpage := hunsplit a hmem
  -- otherwise the group goes on behind the end of the page
  by_contra hne
  have hfirst : ahead key rows (key a) / size ≤ k := by
    rw [← Nat.lt_succ_iff, Nat.div_lt_iff_lt_mul hsize]
    change _ < (k + 1) * size
    omega
  have hover : k + 1 ≤ (upTo key rows (key a) - 1) / size := by
    rw [Nat.le_div_iff_mul_le hsize]
    omega
  omega

end Counted

section Pages
variable {rows : List α} {size : Nat}

theorem take_perm (hsize : 0 < size) (hunsplit : Unsplit key rows size) (s s' : Sorter key)
    (k : Nat) : ((s.sort rows).take (k * size)).Perm ((s'.sort rows).take (k * size)) := by
  have hperm : (s.sort rows).Perm (s'.sort rows) := (s.perm rows).trans (s'.perm rows).symm
  cases k with
  | zero => simp
  | succ k =>
    by_cases hk : (k + 1) * size ≤ rows.length
    · obtain ⟨t, ht⟩ := exists_upTo (s.sorted rows) (s.perm rows) hsize hunsplit hk
      rw [← ht, take_upTo (s.sorted rows) (s.perm rows), take_upTo (s'.sorted rows) (s'.perm rows)]
      exact hperm.filter _
    · have hs := (s.perm rows).length_eq
      have hs' := (s'.perm rows).length_eq
      rw [List.take_of_length_le (by omega), List.take_of_length_le (by omega)]
      exact hperm

theorem slice_perm (hsize : 0 < size) (hunsplit : Unsplit key rows size) (s s' : Sorter key)
    (k : Nat) :
    (slice (s.sort rows) (k * size) size).Perm (slice (s'.sort rows) (k * size) size) := by
  have hnext := take_perm hsize hunsplit s s' (k + 1)
  rw [Nat.succ_mul, List.take_add, List.take_add] at hnext
  have hfirst := (take_perm hsize hunsplit s s' k).append_right
    (slice (s'.sort rows) (k * size) size)
  exact (List.perm_append_left_iff _).mp (hnext.trans hfirst.symm)

theorem mem_slice {l : List α} {offset i : Nat} {a : α} (ha : l[i]? = some a) (hlow : offset ≤ i)
    (hhigh : i < offset + size) : a ∈ slice l offset size := by
  apply List.mem_of_getElem? (i := i - offset)
  rw [slice, List.getElem?_take_of_lt (by omega), List.getElem?_drop,
    Nat.add_sub_cancel' hlow, ha]

/-- Two neighbours with one key may change places. -/
theorem exists_swapped {l : List α} (hsorted : l.Pairwise fun a b => key a ≤ key b) {i : Nat}
    {a b : α} (ha : l[i]? = some a) (hb : l[i + 1]? = some b) (hkey : key a = key b) :
    ∃ l' : List α, l'.Perm l ∧ (l'.Pairwise fun a b => key a ≤ key b) ∧ l'[i + 1]? = some a := by
  have hlength : i < l.length := (List.getElem?_eq_some_iff.mp ha).1
  have hsplit : l = l.take i ++ a :: b :: l.drop (i + 2) := by
    conv_lhs => rw [← List.take_append_drop i l]
    rw [List.drop_eq_getElem?_toList_append, ha,
      List.drop_eq_getElem?_toList_append (i := i + 1), hb]
    rfl
  refine ⟨l.take i ++ b :: a :: l.drop (i + 2), ?_, ?_, ?_⟩
  · conv_rhs => rw [hsplit]
    exact (List.Perm.swap a b _).append_left _
  · rw [hsplit] at hsorted
    rw [← List.pairwise_map] at hsorted ⊢
    simpa [hkey] using hsorted
  · rw [List.getElem?_append_right (by simp), List.length_take_of_le (by omega)]
    simp

/-- A range of positions lies on one page, or a later page begins inside it. -/
theorem div_eq_or_exists_boundary (hsize : 0 < size) {first last : Nat} (hle : first ≤ last) :
    first / size = last / size ∨ ∃ k, first < (k + 1) * size ∧ (k + 1) * size ≤ last := by
  rcases (Nat.div_le_div_right hle).eq_or_lt with heq | hlt
  · exact .inl heq
  · obtain ⟨k, hk⟩ := Nat.exists_eq_succ_of_ne_zero (Nat.ne_of_gt (Nat.zero_lt_of_lt hlt))
    refine .inr ⟨k, ?_, ?_⟩
    · rw [← Nat.div_lt_iff_lt_mul hsize]
      omega
    · rw [← Nat.le_div_iff_mul_le hsize]
      omega

theorem unsplit_of_disjoint [DecidableEq α] (hsize : 0 < size)
    (hdisjoint : ∀ s s' : Sorter key, ∀ k, (k + 1) * size < rows.length →
      (slice (s.sort rows) (k * size) size).Disjoint
        (slice (s'.sort rows) ((k + 1) * size) size)) : Unsplit key rows size := by
  intro a ha
  let s := Sorter.insertion key
  have hsorted := s.sorted rows
  have hperm := s.perm rows
  have hkey : ∀ {i : Nat} {b : α}, (s.sort rows)[i]? = some b →
      ahead key rows (key a) ≤ i → i < upTo key rows (key a) → key b = key a := by
    intro i b hb hlow hhigh
    refine le_antisymm ((lt_upTo_iff hsorted hperm hb _).mp hhigh) (le_of_not_gt fun hlt => ?_)
    have := (lt_ahead_iff hsorted hperm hb _).mpr hlt
    omega
  obtain ⟨i, hi⟩ := List.mem_iff_getElem?.mp (hperm.mem_iff.mpr ha)
  have hreach := (lt_upTo_iff hsorted hperm hi (key a)).mpr le_rfl
  have hbefore := mt (lt_ahead_iff hsorted hperm hi (key a)).mp (lt_irrefl _)
  -- the group begins before page `k + 1` and reaches into it
  refine (div_eq_or_exists_boundary hsize (by omega)).resolve_right ?_
  rintro ⟨k, hbegin, hend⟩
  have hcount : upTo key rows (key a) ≤ rows.length := List.countP_le_length
  have hlength := hperm.length_eq
  have hnext : (k + 1) * size = k * size + size := Nat.succ_mul k size
  obtain ⟨j, hj⟩ : ∃ j, (k + 1) * size = j + 1 := ⟨(k + 1) * size - 1, by omega⟩
  have hx := List.getElem?_eq_getElem (l := s.sort rows) (i := j) (by omega)
  have hy := List.getElem?_eq_getElem (l := s.sort rows) (i := j + 1) (by omega)
  generalize (s.sort rows)[j] = x at hx
  generalize (s.sort rows)[j + 1] = y at hy
  have hsame : key x = key y :=
    (hkey hx (by omega) (by omega)).trans (hkey hy (by omega) (by omega)).symm
  obtain ⟨answer, hanswer, hordered, hmoved⟩ := exists_swapped hsorted hx hy hsame
  refine hdisjoint s (s.update rows answer (hanswer.trans hperm) hordered) k (by omega)
    (mem_slice hx (by omega) (by omega)) ?_
  have hsort : (s.update rows answer (hanswer.trans hperm) hordered).sort rows = answer :=
    if_pos rfl
  rw [hsort]
  exact mem_slice hmoved (by omega) (by omega)

theorem perm_pages_iff [DecidableEq α] (hsize : 0 < size) (hdistinct : rows.Nodup) {n : Nat}
    (hn : rows.length ≤ n * size) :
    (∀ s : Nat → Sorter key,
      ((List.range n).flatMap fun k => slice ((s k).sort rows) (k * size) size).Perm rows) ↔
      Unsplit key rows size := by
  constructor
  · intro hpages
    apply unsplit_of_disjoint hsize
    intro s s' k hk
    have hlast : k + 1 < n := by
      by_contra hge
      have := Nat.mul_le_mul_right size (Nat.le_of_not_lt hge)
      omega
    have hnodup := (hpages fun j => if j = k then s else s').nodup_iff.mpr hdistinct
    have hpages := List.pairwise_iff_getElem.mp (List.nodup_flatMap.mp hnodup).2 k (k + 1)
      (by simp; omega) (by simpa using hlast) (Nat.lt_succ_self k)
    simpa [Function.onFun] using hpages
  · intro hunsplit s
    have hall : ((List.range n).flatMap fun k => slice ((s k).sort rows) (k * size) size).Perm
        ((List.range n).flatMap fun k => slice ((s 0).sort rows) (k * size) size) :=
      List.Perm.flatMap_left _ fun k _ => slice_perm hsize hunsplit (s k) (s 0) k
    rw [flatMap_slices, List.take_of_length_le (by rwa [((s 0).perm rows).length_eq])] at hall
    exact hall.trans ((s 0).perm rows)

end Pages

end Ties

end TinyShop.Base
