import Mathlib.Data.List.Induction

/-!
# Replaying a log

A consumer applies a log of operations, forgets how far it got and starts again at
an earlier place. `Caught x pre mid` says that a consumer in the state `x`, which
will now read `mid`, ends where one pass over `pre ++ mid` ends. Reading on keeps
it; going back keeps it too, for a cell whose log is lawful and for a register.
-/

namespace TinyShop.Base

set_option autoImplicit false

/-- Patches that overwrite parts of a record. -/
class Overwrites (π ρ : Type) where
  act : π → ρ → ρ
  merge : π → π → π
  act_merge : ∀ p q r, act (merge p q) r = act q (act p r)
  act_act : ∀ p r, act p (act p r) = act p r
  act_congr : ∀ (q p : π) (r s : ρ), act q r = act q s → act q (act p r) = act q (act p s)

/-- What a log entry does to a cell: it creates it if there is none, changes it or drops it. -/
inductive CellOp (ρ π : Type) where
  | create (r : ρ)
  | patch (p : π)
  | drop

namespace CellOp
variable {ρ π : Type} [Overwrites π ρ]

def step : Option ρ → CellOp ρ π → Option ρ
  | none, .create r => some r
  | none, _ => none
  | some r, .create _ => some r
  | some r, .patch p => some (Overwrites.act p r)
  | some _, .drop => none

def run (x : Option ρ) (log : List (CellOp ρ π)) : Option ρ := log.foldl step x

@[simp] theorem run_nil (x : Option ρ) : run x ([] : List (CellOp ρ π)) = x := rfl

@[simp] theorem run_cons (x : Option ρ) (e : CellOp ρ π) (log : List (CellOp ρ π)) :
    run x (e :: log) = run (step x e) log := rfl

theorem run_append (x : Option ρ) (u v : List (CellOp ρ π)) : run x (u ++ v) = run (run x u) v :=
  List.foldl_append

theorem step_patch (x : Option ρ) (p : π) : step x (.patch p) = x.map (Overwrites.act p) := by
  cases x <;> rfl

theorem step_drop (x : Option ρ) : step x (.drop : CellOp ρ π) = none := by
  cases x <;> rfl

/-- An operation that may be meant for another cell. -/
theorem foldl_ite (b : Prop) [Decidable b] (x : Option ρ) (e : CellOp ρ π) :
    (if b then some e else none).toList.foldl step x = if b then step x e else x := by
  split <;> rfl

theorem step_none_patch (p : π) : step (none : Option ρ) (.patch p) = none := rfl

omit [Overwrites π ρ] in
def isDrop : CellOp ρ π → Bool
  | .drop => true
  | _ => false

omit [Overwrites π ρ] in
def Patches (log : List (CellOp ρ π)) : Prop := ∀ e ∈ log, ∃ p, e = .patch p

omit [Overwrites π ρ] in
/-- Only an absent cell is created and only a present one dropped. An absent one may be
patched in vain, but then no other entry follows. -/
def Lawful : Bool → List (CellOp ρ π) → Prop
  | _, [] => True
  | present, .create _ :: log => present = false ∧ Lawful true log
  | true, .patch _ :: log => Lawful true log
  | false, .patch _ :: log => Patches log
  | present, .drop :: log => present = true ∧ Lawful false log

theorem run_patches_none {log : List (CellOp ρ π)} (h : Patches log) :
    run (none : Option ρ) log = none := by
  induction log with
  | nil => rfl
  | cons e log ih =>
    obtain ⟨p, rfl⟩ := h e List.mem_cons_self
    exact ih fun d hd => h d (List.mem_cons_of_mem _ hd)

theorem run_patches_some {log : List (CellOp ρ π)} (h : Patches log) (r : ρ) :
    (run (some r) log).isSome := by
  induction log generalizing r with
  | nil => rfl
  | cons e log ih =>
    obtain ⟨p, rfl⟩ := h e List.mem_cons_self
    exact ih (fun d hd => h d (List.mem_cons_of_mem _ hd)) _

omit [Overwrites π ρ] in
theorem lawful_of_patches {log : List (CellOp ρ π)} (h : Patches log) : Lawful false log := by
  cases log with
  | nil => trivial
  | cons e log =>
    obtain ⟨p, rfl⟩ := h e List.mem_cons_self
    exact fun d hd => h d (List.mem_cons_of_mem _ hd)

theorem lawful_append {x : Option ρ} {u v : List (CellOp ρ π)} (h : Lawful x.isSome (u ++ v)) :
    Lawful x.isSome u ∧ Lawful (run x u).isSome v := by
  induction u generalizing x with
  | nil => exact ⟨trivial, h⟩
  | cons e u ih =>
    cases e with
    | create r =>
      cases x with
      | none => exact ⟨⟨rfl, (@ih (some r) h.2).1⟩, (@ih (some r) h.2).2⟩
      | some y => cases h.1
    | drop =>
      cases x with
      | none => cases h.1
      | some y => exact ⟨⟨rfl, (@ih none h.2).1⟩, (@ih none h.2).2⟩
    | patch p =>
      cases x with
      | none =>
        have hu : Patches u := fun d hd => h d (List.mem_append_left _ hd)
        refine ⟨hu, ?_⟩
        rw [run_cons, step_none_patch, run_patches_none hu]
        exact lawful_of_patches fun d hd => h d (List.mem_append_right _ hd)
      | some y => exact @ih (some (Overwrites.act p y)) h

/-- The entry can follow the log. -/
def Follows (x : Option ρ) (log : List (CellOp ρ π)) : CellOp ρ π → Prop
  | .create _ => run x log = none ∧ ∀ e ∈ log.getLast?, e.isDrop
  | .patch _ => True
  | .drop => (run x log).isSome

theorem Follows.tail {x : Option ρ} {d e : CellOp ρ π} {log : List (CellOp ρ π)}
    (h : Follows x (d :: log) e) : Follows (step x d) log e := by
  cases e with
  | create r =>
    refine ⟨h.1, fun c hc => h.2 c ?_⟩
    rw [Option.mem_def] at hc ⊢
    rw [List.getLast?_cons, hc]
    rfl
  | patch p => trivial
  | drop => exact h

theorem Follows.patches {p : π} {e : CellOp ρ π} {log : List (CellOp ρ π)}
    (h : Follows none (.patch p :: log) e) (hlog : Patches log) : Patches (log ++ [e]) := by
  cases e with
  | create r =>
    have hpatches : Patches (.patch p :: log) := by
      intro d hd
      rcases List.mem_cons.mp hd with rfl | hd
      · exact ⟨p, rfl⟩
      · exact hlog d hd
    obtain ⟨q, hq⟩ := hpatches _ (List.getLast_mem (List.cons_ne_nil _ _))
    have hdrop := h.2 _ (List.getLast?_eq_some_getLast (List.cons_ne_nil _ _))
    rw [hq] at hdrop
    cases hdrop
  | patch q =>
    intro d hd
    rcases List.mem_append.mp hd with hd | hd
    · exact hlog d hd
    · exact ⟨q, List.mem_singleton.mp hd⟩
  | drop =>
    have hsome : (run none (.patch p :: log)).isSome := h
    rw [run_cons, step_none_patch, run_patches_none hlog] at hsome
    cases hsome

theorem lawful_concat {x : Option ρ} {log : List (CellOp ρ π)} {e : CellOp ρ π}
    (h : Lawful x.isSome log) (he : Follows x log e) : Lawful x.isSome (log ++ [e]) := by
  induction log generalizing x with
  | nil =>
    cases e with
    | create r =>
      have hx : x = none := he.1
      subst hx
      exact ⟨rfl, trivial⟩
    | patch p =>
      cases x with
      | none => exact fun d hd => by cases hd
      | some y => trivial
    | drop => exact ⟨he, trivial⟩
  | cons d log ih =>
    have htail := ih (x := step x d)
    cases d with
    | create r =>
      cases x with
      | none => exact ⟨rfl, htail h.2 he.tail⟩
      | some y => cases h.1
    | drop =>
      cases x with
      | none => cases h.1
      | some y => exact ⟨rfl, htail h.2 he.tail⟩
    | patch p =>
      cases x with
      | none => exact he.patches h
      | some y => exact htail h he.tail

/-- Without a drop the log only overwrites; after one the old contents do not matter. -/
theorem run_some_cases {log : List (CellOp ρ π)} (h : Lawful true log) :
    (∀ r s : ρ, run (some r) log = run (some s) log) ∨
      (∀ r : ρ, run (some r) log = some r) ∨
      ∃ p : π, ∀ r : ρ, run (some r) log = some (Overwrites.act p r) := by
  induction log with
  | nil => exact Or.inr (Or.inl fun r => rfl)
  | cons e log ih =>
    cases e with
    | create r => exact absurd h.1 (by decide)
    | drop => exact Or.inl fun r s => rfl
    | patch p =>
      rcases ih h with hconst | hsame | ⟨q, hq⟩
      · exact Or.inl fun r s => hconst _ _
      · exact Or.inr (Or.inr ⟨p, fun r => hsame _⟩)
      · refine Or.inr (Or.inr ⟨Overwrites.merge ρ p q, fun r => ?_⟩)
        rw [Overwrites.act_merge]
        exact hq _

/-- One entry read again. `z` is the cell as the first pass found it. -/
theorem run_again {x z : Option ρ} {e : CellOp ρ π} {log : List (CellOp ρ π)}
    (hl : Lawful z.isSome (e :: log)) (h : run x log = run (step z e) log) :
    run (step x e) log = run (step z e) log := by
  cases e with
  | create r =>
    have hz : z = none := by simpa [Lawful] using hl.1
    subst hz
    cases x with
    | none => rfl
    | some y => exact h
  | drop =>
    cases z with
    | none => cases hl.1
    | some z => cases x <;> rfl
  | patch p =>
    cases z with
    | none =>
      cases x with
      | none => rfl
      | some y =>
        -- a cell that is there after a patch in vain would still be there at the end
        have hsome := run_patches_some hl y
        rw [h, step_none_patch, run_patches_none hl] at hsome
        cases hsome
    | some z =>
      cases x with
      | none => exact h
      | some y =>
        have hlog : Lawful true log := hl
        simp only [step] at h ⊢
        rcases run_some_cases hlog with hconst | hsame | ⟨q, hq⟩
        · exact hconst _ _
        · rw [hsame, hsame, Option.some.injEq] at h ⊢
          rw [h, Overwrites.act_act]
        · rw [hq, hq, Option.some.injEq] at h ⊢
          rw [Overwrites.act_congr q p _ _ h, Overwrites.act_act]

end CellOp

/-- A register: an entry replaces whatever it holds. -/
def overwrite {α : Type} (_ : α) (new : α) : α := new

/-- The state `x` and what is still to be read end where one pass over everything ends. -/
def Caught {ε σ : Type} (step : σ → ε → σ) (start x : σ) (pre mid : List ε) : Prop :=
  mid.foldl step x = (pre ++ mid).foldl step start

namespace Caught
variable {ε σ : Type} {step : σ → ε → σ} {start x : σ} {pre mid : List ε}

theorem finished (h : Caught step start x pre []) : x = pre.foldl step start := by
  rw [Caught, List.append_nil] at h
  exact h

theorem next {es : List ε} (h : Caught step start x pre (es ++ mid)) :
    Caught step start (es.foldl step x) (pre ++ es) mid := by
  rw [Caught, List.append_assoc, ← h, List.foldl_append]

theorem fresh (es : List ε) (h : Caught step start x pre []) :
    Caught step start (es.foldl step x) (pre ++ es) [] := by
  rw [Caught, h.finished, List.append_nil, List.foldl_append]
  rfl

/-- To go back over a list it is enough to be able to go back over one entry. -/
theorem back (again : List ε)
    (hone : ∀ u e v, u ++ e :: v = again ++ mid →
      Caught step start x (pre ++ u ++ [e]) v → Caught step start x (pre ++ u) (e :: v))
    (h : Caught step start x (pre ++ again) mid) :
    Caught step start x pre (again ++ mid) := by
  induction again using List.reverseRecOn generalizing mid with
  | nil => simpa using h
  | append_singleton again e ih =>
    rw [← List.append_assoc] at h
    have hstep := ih (fun u d v heq => hone u d v (by simp [heq]))
      (hone _ _ _ (by simp) h)
    simpa using hstep

theorem back_cell {ρ π : Type} [Overwrites π ρ] {x : Option ρ} {pre again mid : List (CellOp ρ π)}
    (hl : CellOp.Lawful (CellOp.run none pre).isSome (again ++ mid))
    (h : Caught CellOp.step none x (pre ++ again) mid) :
    Caught CellOp.step none x pre (again ++ mid) := by
  refine h.back again fun u e v heq hcaught => ?_
  rw [← heq] at hl
  have htail := (CellOp.lawful_append hl).2
  rw [← CellOp.run_append] at htail
  rw [Caught, List.append_assoc, List.singleton_append, List.foldl_append] at hcaught
  rw [Caught, List.foldl_append]
  exact CellOp.run_again htail hcaught

theorem back_register {α : Type} {start x : α} {pre again mid : List α}
    (h : Caught overwrite start x (pre ++ again) mid) :
    Caught overwrite start x pre (again ++ mid) := by
  refine h.back again fun u e v _ hcaught => ?_
  rw [Caught, List.foldl_append]
  rw [Caught, List.append_assoc, List.foldl_append] at hcaught
  cases v with
  | nil => rfl
  | cons d v => rfl

end Caught

end TinyShop.Base
