import Mathlib.Data.List.Nodup
import Mathlib.Data.List.Perm.Subperm

/-!
# Trees through a queue

Rows name their parent by its key. A queue of parents starts with the rows that have none;
the children of a parent are put out and their keys queued. No row is marked as visited:
that a row is put out once follows from its having one parent, and so does termination,
whether or not the rows form a tree.
-/

namespace TinyShop.Base

set_option autoImplicit false

variable {ρ κ : Type}

section Search
variable (children : Option κ → List ρ) (key : ρ → κ)

/-- `none` when the fuel runs out. -/
def breadthFirst : Nat → List (Option κ) → Option (List ρ)
  | _, [] => some []
  | 0, _ :: _ => none
  | n + 1, parent :: queue =>
    (breadthFirst n (queue ++ (children parent).map fun r => some (key r))).map (children parent ++ ·)

end Search

section Spec
variable (rows : List ρ) (parent : ρ → Option κ) (key : ρ → κ)

/-- A row without a parent, or below one that is rooted. -/
inductive Rooted : ρ → Prop where
  | root {r : ρ} (hr : r ∈ rows) (h : parent r = none) : Rooted r
  | child {r p : ρ} (hp : Rooted p) (hr : r ∈ rows) (h : parent r = some (key p)) : Rooted r

/-- The parents in `done` have been taken from the queue, and `out` is what was put out. -/
structure Progress (done queue : List (Option κ)) (out : List ρ) : Prop where
  keys : (none :: out.map fun r => some (key r)).Perm (done ++ queue)
  mem_iff : ∀ r, r ∈ out ↔ r ∈ rows ∧ parent r ∈ done
  nodup : out.Nodup
  rooted : ∀ r ∈ out, Rooted rows parent key r

theorem progress_start : Progress rows parent key [] [none] [] where
  keys := List.Perm.refl _
  mem_iff := by simp
  nodup := List.nodup_nil
  rooted := List.forall_mem_nil _

variable {rows parent key} {children : Option κ → List ρ} {done queue : List (Option κ)}
  {out : List ρ}

/-- No parent is queued twice. -/
theorem Progress.nodup_keys (h : Progress rows parent key done queue out)
    (unique : (rows.map key).Nodup) : (done ++ queue).Nodup := by
  have hinj : ∀ r ∈ out, ∀ s ∈ out, some (key r) = some (key s) → r = s := by
    intro r hr s hs hsame
    exact List.inj_on_of_nodup_map unique ((h.mem_iff r).mp hr).1 ((h.mem_iff s).mp hs).1
      (Option.some.inj hsame)
  rw [← h.keys.nodup_iff, List.nodup_cons]
  exact ⟨by simp, h.nodup.map_on hinj⟩

theorem Progress.length_le (h : Progress rows parent key done queue out) :
    done.length + queue.length ≤ rows.length + 1 := by
  have hout : out.length ≤ rows.length :=
    (h.nodup.subperm fun r hr => ((h.mem_iff r).mp hr).1).length_le
  have hkeys := h.keys.length_eq
  simp only [List.length_cons, List.length_map, List.length_append] at hkeys
  omega

variable [DecidableEq κ]

theorem Progress.step {k : Option κ} (h : Progress rows parent key done (k :: queue) out)
    (unique : (rows.map key).Nodup)
    (hchildren : ∀ k, (children k).Perm (rows.filter fun r => parent r = k)) :
    Progress rows parent key (done ++ [k])
      (queue ++ (children k).map fun r => some (key r)) (out ++ children k) := by
  have hmem : ∀ r, r ∈ children k ↔ r ∈ rows ∧ parent r = k := by
    intro r
    rw [(hchildren k).mem_iff, List.mem_filter, decide_eq_true_iff]
  have hnew : k ∉ done := by
    have hnodup := h.nodup_keys unique
    rw [List.nodup_append] at hnodup
    exact fun hk => hnodup.2.2 k hk k List.mem_cons_self rfl
  refine ⟨?_, ?_, ?_, ?_⟩
  · rw [List.map_append, ← List.cons_append]
    have hkeys := h.keys.append_right ((children k).map fun r => some (key r))
    simpa only [List.append_assoc, List.cons_append, List.nil_append] using hkeys
  · intro r
    rw [List.mem_append, h.mem_iff, hmem, List.mem_append, List.mem_singleton, and_or_left]
  · rw [List.nodup_append]
    refine ⟨h.nodup, (hchildren k).nodup_iff.mpr ((List.Nodup.of_map key unique).filter _), ?_⟩
    rintro r hr s hs rfl
    exact hnew (((hmem r).mp hs).2 ▸ ((h.mem_iff r).mp hr).2)
  · intro r hr
    rcases List.mem_append.mp hr with hr | hr
    · exact h.rooted r hr
    · obtain ⟨hrow, hparent⟩ := (hmem r).mp hr
      -- the parent was queued, so it is none or the key of a row that was put out
      have hqueued : k ∈ none :: out.map fun r => some (key r) :=
        h.keys.mem_iff.mpr (List.mem_append_right _ List.mem_cons_self)
      rcases List.mem_cons.mp hqueued with hnone | hkey
      · exact .root hrow (hparent.trans hnone)
      · obtain ⟨p, hp, hkey⟩ := List.mem_map.mp hkey
        exact .child (h.rooted p hp) hrow (hparent.trans hkey.symm)

section Run
variable (unique : (rows.map key).Nodup)
  (hchildren : ∀ k, (children k).Perm (rows.filter fun r => parent r = k))
include unique hchildren

theorem Progress.run (n : Nat) : ∀ {done queue out result},
    Progress rows parent key done queue out → breadthFirst children key n queue = some result →
      ∃ done, Progress rows parent key done [] (out ++ result) := by
  induction n with
  | zero =>
    intro done queue out result h hresult
    cases queue with
    | nil =>
      obtain rfl := Option.some.inj hresult
      exact ⟨done, by rwa [List.append_nil]⟩
    | cons k queue => cases hresult
  | succ n ih =>
    intro done queue out result h hresult
    cases queue with
    | nil =>
      obtain rfl := Option.some.inj hresult
      exact ⟨done, by rwa [List.append_nil]⟩
    | cons k queue =>
      obtain ⟨rest, hrest, rfl⟩ := Option.map_eq_some_iff.mp hresult
      rw [← List.append_assoc]
      exact ih (h.step unique hchildren) hrest

/-- Each round takes one of finitely many parents. -/
theorem Progress.terminates (n : Nat) : ∀ {done queue out},
    Progress rows parent key done queue out → rows.length + 1 ≤ n + done.length →
      ∃ result, breadthFirst children key n queue = some result := by
  induction n with
  | zero =>
    intro done queue out h hn
    have hlength := h.length_le
    obtain rfl : queue = [] := List.length_eq_zero_iff.mp (by omega)
    exact ⟨[], rfl⟩
  | succ n ih =>
    intro done queue out h hn
    cases queue with
    | nil => exact ⟨[], rfl⟩
    | cons k queue =>
      obtain ⟨rest, hrest⟩ := ih (h.step unique hchildren)
        (by rw [List.length_append, List.length_singleton]; omega)
      exact ⟨children k ++ rest, by rw [breadthFirst, hrest]; rfl⟩

theorem breadthFirst_terminates :
    ∃ result, breadthFirst children key (rows.length + 1) [none] = some result :=
  (progress_start rows parent key).terminates unique hchildren _ (by simp)

/-- What is put out are the rows that are rooted, each once. -/
theorem mem_breadthFirst {n : Nat} {result : List ρ}
    (h : breadthFirst children key n [none] = some result) :
    result.Nodup ∧ ∀ r, r ∈ result ↔ Rooted rows parent key r := by
  obtain ⟨done, hend⟩ := (progress_start rows parent key).run unique hchildren n h
  rw [List.nil_append] at hend
  have hkeys : ∀ k, k ∈ done ↔ k ∈ none :: result.map fun r => some (key r) := by
    intro k
    rw [hend.keys.mem_iff, List.append_nil]
  refine ⟨hend.nodup, fun r => ⟨hend.rooted r, fun hrooted => ?_⟩⟩
  induction hrooted with
  | root hr hparent =>
    refine (hend.mem_iff _).mpr ⟨hr, ?_⟩
    rw [hparent, hkeys]
    exact List.mem_cons_self
  | child _ hr hparent ih =>
    refine (hend.mem_iff _).mpr ⟨hr, ?_⟩
    rw [hparent, hkeys]
    exact List.mem_cons_of_mem _ (List.mem_map_of_mem ih)

end Run

end Spec

end TinyShop.Base
