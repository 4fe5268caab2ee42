import TinyShop.Base.Ties

/-!
# Pages of a list that moves

The pages of a sorted list are read one after the other, and the list changes in between. An
entry that stays moves to the back as others come in before it, and to the front only if some of
them go. As long as none goes, a reader that follows the pages does not miss it.
-/

namespace TinyShop.Base

set_option autoImplicit false

variable {α β : Type} [LinearOrder β] {key : α → β} {k : β}

/-- Nothing up to a key is taken away. -/
def KeepsUpTo (key : α → β) (k : β) (l l' : List α) : Prop :=
  ∀ a ∈ l, key a ≤ k → ∃ a' ∈ l', key a' = key a

section Places
variable {l l' l'' : List α}

theorem KeepsUpTo.refl : KeepsUpTo key k l l := fun a ha _ => ⟨a, ha, rfl⟩

theorem KeepsUpTo.trans (h : KeepsUpTo key k l l') (h' : KeepsUpTo key k l' l'') :
    KeepsUpTo key k l l'' := by
  intro a ha hle
  obtain ⟨b, hb, hkey⟩ := h a ha hle
  obtain ⟨c, hc, hkey'⟩ := h' b hb (hkey.le.trans hle)
  exact ⟨c, hc, hkey'.trans hkey⟩

theorem ahead_le_of_keeps (hl : (l.map key).Nodup) (h : KeepsUpTo key k l l') :
    ahead key l k ≤ ahead key l' k := by
  have hcount : ∀ l : List α, ahead key l k = ((l.map key).filter (· < k)).length := by
    intro l
    rw [ahead, ← List.countP_eq_length_filter, List.countP_map]
    rfl
  rw [hcount, hcount]
  refine List.Nodup.length_le_of_subset (hl.filter _) fun b hb => ?_
  obtain ⟨hmem, hlt⟩ := List.mem_filter.mp hb
  obtain ⟨a, ha, rfl⟩ := List.mem_map.mp hmem
  obtain ⟨a', ha', hkey⟩ := h a ha (le_of_lt (of_decide_eq_true hlt))
  exact List.mem_filter.mpr ⟨hkey ▸ List.mem_map_of_mem ha', hlt⟩

/-- An entry stands where the smaller keys end. -/
theorem getElem?_ahead (hsorted : l.Pairwise fun a b => key a < key b) {a : α} (ha : a ∈ l) :
    l[ahead key l (key a)]? = some a := by
  have hle := hsorted.imp fun {_ _} => le_of_lt
  obtain ⟨i, hi⟩ := List.mem_iff_getElem?.mp ha
  have hbefore := mt (lt_ahead_iff hle (List.Perm.refl l) hi (key a)).mp (lt_irrefl _)
  -- whatever stands between is smaller, and counted
  have hat : ahead key l (key a) = i := by
    refine le_antisymm (le_of_not_gt hbefore) (le_of_not_gt fun hlt => ?_)
    obtain ⟨hlength, hget⟩ := List.getElem?_eq_some_iff.mp hi
    have hat := List.getElem?_eq_getElem (hlt.trans hlength)
    have hsmaller := List.pairwise_iff_getElem.mp hsorted _ i (hlt.trans hlength) hlength hlt
    rw [hget] at hsmaller
    exact lt_irrefl _ ((lt_ahead_iff hle (List.Perm.refl l) hat (key a)).mpr hsmaller)
  rw [hat, hi]

theorem ahead_lt_length (hsorted : l.Pairwise fun a b => key a < key b) {a : α} (ha : a ∈ l) :
    ahead key l (key a) < l.length :=
  (List.getElem?_eq_some_iff.mp (getElem?_ahead hsorted ha)).1

end Places

/-- An entry that is not taken away is on one of the pages that were read, or behind them. -/
theorem exists_slice_or_behind (lists : Nat → List α) (size : Nat)
    (hsorted : ∀ i, (lists i).Pairwise fun a b => key a < key b)
    (hmem : ∃ a ∈ lists 0, key a = k) (n : Nat)
    (hkeeps : ∀ i < n, KeepsUpTo key k (lists i) (lists (i + 1))) :
    (∃ i ≤ n, ∃ a ∈ slice (lists i) (i * size) size, key a = k) ∨
      ∃ a ∈ lists n, key a = k ∧ (n + 1) * size ≤ ahead key (lists n) k := by
  induction n with
  | zero =>
    obtain ⟨a, ha, rfl⟩ := hmem
    by_cases hfirst : ahead key (lists 0) (key a) < size
    · exact .inl ⟨0, le_rfl, a, mem_slice (getElem?_ahead (hsorted 0) ha) (by omega) (by omega), rfl⟩
    · exact .inr ⟨a, ha, rfl, by omega⟩
  | succ n ih =>
    rcases ih fun i hi => hkeeps i (by omega) with ⟨i, hi, hslice⟩ | ⟨a, ha, rfl, hbehind⟩
    · exact .inl ⟨i, by omega, hslice⟩
    · have hkeep := hkeeps n (by omega)
      obtain ⟨b, hb, hkey⟩ := hkeep a ha le_rfl
      have hnodup : ((lists n).map key).Nodup :=
        List.pairwise_map.mpr ((hsorted n).imp fun {_ _} => ne_of_lt)
      have hback := ahead_le_of_keeps hnodup hkeep
      by_cases hpage : ahead key (lists (n + 1)) (key a) < (n + 1) * size + size
      · refine .inl ⟨n + 1, le_rfl, b, ?_, hkey⟩
        have hat := getElem?_ahead (hsorted (n + 1)) hb
        rw [hkey] at hat
        exact mem_slice hat (by omega) (by omega)
      · refine .inr ⟨b, hb, hkey, ?_⟩
        rw [Nat.succ_mul]
        omega

end TinyShop.Base
