import TinyShop.Base.Program

/-!
# Runs that are remembered

A system together with the list of all its states so far. The record is there for statements
only: no step looks at it, and every run has one.
-/

namespace TinyShop.Base

set_option autoImplicit false

/-- A state, and the states before it with the last one first. -/
structure Recorded (σ : Type) where
  now : σ
  past : List σ

namespace Recorded
variable {σ : Type}

def start (s : σ) : Recorded σ := ⟨s, []⟩

def moments (c : Recorded σ) : List σ := c.now :: c.past

/-- `d` is `c` after some steps. -/
def Later (c d : Recorded σ) : Prop := c.moments <:+ d.moments

/-- The state was there at some time from `c` to `d`. -/
def Between (c d : Recorded σ) (s : σ) : Prop :=
  ∃ steps, d.moments = steps ++ c.moments ∧ s ∈ steps ++ [c.now]

variable {c d e : Recorded σ} {s : σ}

theorem Later.refl (c : Recorded σ) : Later c c := List.suffix_refl _

theorem Later.trans (h : Later c d) (h' : Later d e) : Later c e := List.IsSuffix.trans h h'

theorem later_of_past (h : d.past = c.moments) : Later c d :=
  ⟨[d.now], congrArg (d.now :: ·) h.symm⟩

theorem Later.between_now (h : Later c d) : Between c d d.now := by
  obtain ⟨steps, hsteps⟩ := h
  refine ⟨steps, hsteps.symm, ?_⟩
  cases steps with
  | nil =>
    obtain ⟨hnow, _⟩ := List.cons.inj hsteps
    rw [← hnow]
    exact List.mem_singleton_self _
  | cons t steps =>
    obtain ⟨rfl, _⟩ := List.cons.inj hsteps
    exact List.mem_cons_self

theorem Between.later (h : Between c d s) : Later c d := by
  obtain ⟨steps, hsteps, _⟩ := h
  exact ⟨steps, hsteps.symm⟩

theorem Between.mono (h : Between c d s) (hde : Later d e) : Between c e s := by
  obtain ⟨steps, hsteps, hs⟩ := h
  obtain ⟨more, hmore⟩ := hde
  refine ⟨more ++ steps, ?_, ?_⟩
  · rw [← hmore, hsteps, List.append_assoc]
  · rw [List.append_assoc]
    exact List.mem_append_right more hs

end Recorded

namespace System
variable {σ Op : Type} {Res : Op → Type} {α : Type} (M : System σ Op Res α)

/-- The same system, with its record. -/
def recorded : System (Recorded σ) Op Res α where
  exec c op r d := M.exec c.now op r d.now ∧ d.past = c.moments
  env c d := M.env c.now d.now ∧ d.past = c.moments
  start := M.start
  stop := M.stop
  gate := M.gate

variable {M}

/-- Every run can be recorded, whatever was there before it. -/
theorem exists_record {c d : Config σ Op Res α} (h : M.Reachable c d) (before : List σ) :
    ∃ past, M.recorded.Reachable ⟨⟨c.state, before⟩, c.procs⟩ ⟨⟨d.state, past⟩, d.procs⟩ := by
  induction h with
  | refl => exact ⟨before, .refl⟩
  | tail _ step ih =>
    obtain ⟨past, hrun⟩ := ih
    cases step with
    | @env s t ps he => exact ⟨s :: past, hrun.tail (.env ⟨he, rfl⟩)⟩
    | start hs => exact ⟨past, hrun.tail (.start hs)⟩
    | stop hs => exact ⟨past, hrun.tail (.stop hs)⟩
    | @call s t ps qs op next r hgate hx =>
      exact ⟨s :: past, hrun.tail (.call (M := M.recorded) hgate ⟨hx, rfl⟩)⟩

/-- Without its record the run is one of the system. -/
theorem reachable_of_recorded {c d : Config (Recorded σ) Op Res α}
    (h : M.recorded.Reachable c d) : M.Reachable ⟨c.state.now, c.procs⟩ ⟨d.state.now, d.procs⟩ := by
  induction h with
  | refl => exact .refl
  | tail _ step ih =>
    cases step with
    | env he => exact ih.tail (.env he.1)
    | start hs => exact ih.tail (.start hs)
    | stop hs => exact ih.tail (.stop hs)
    | call hgate hx => exact ih.tail (.call hgate hx.1)

end System

end TinyShop.Base
