import Mathlib.Data.List.Induction

/-!
# Logs of calls

A log lists the calls of a run in their order, each with its answer and with the
states before and after it. `step` says which answers and states a call can lead to,
so one log covers calls that fail as well as those that succeed.
-/

namespace TinyShop.Base

set_option autoImplicit false

structure CallLog.Entry (σ Call Answer : Type) where
  call : Call
  answer : Answer
  before : σ
  after : σ

variable {σ Call Answer : Type}

inductive CallLog (step : σ → Call → Answer → σ → Prop) (start : σ) :
    List (CallLog.Entry σ Call Answer) → σ → Prop where
  | nil : CallLog step start [] start
  | call {log : List (CallLog.Entry σ Call Answer)} {s s' : σ} {c : Call} {a : Answer} :
      CallLog step start log s → step s c a s' → CallLog step start (log ++ [⟨c, a, s, s'⟩]) s'

namespace CallLog
variable {step : σ → Call → Answer → σ → Prop} {start s : σ} {log : List (Entry σ Call Answer)}

/-- What every step keeps holds at the end. -/
theorem keeps {P : σ → Prop} (h : CallLog step start log s) (hstart : P start)
    (hstep : ∀ s c a s', P s → step s c a s' → P s') : P s := by
  induction h with
  | nil => exact hstart
  | call _ hcall ih => exact hstep _ _ _ _ ih hcall

/-- What every step keeps holds around every call, and the call was a step. -/
theorem mem_keeps {P : σ → Prop} (h : CallLog step start log s) (hstart : P start)
    (hstep : ∀ s c a s', P s → step s c a s' → P s') :
    ∀ e ∈ log, P e.before ∧ step e.before e.call e.answer e.after := by
  induction h with
  | nil => simp
  | call hlog hcall ih =>
    intro e he
    rcases List.mem_append.mp he with hold | hnew
    · exact ih e hold
    · obtain rfl := List.mem_singleton.mp hnew
      exact ⟨hlog.keeps hstart hstep, hcall⟩

theorem step_of_mem (h : CallLog step start log s) {e : Entry σ Call Answer} (he : e ∈ log) :
    step e.before e.call e.answer e.after :=
  (h.mem_keeps (P := fun _ => True) trivial (fun _ _ _ _ _ _ => trivial) e he).2

/-- A value that every step changes as `f` says is folded along the log. -/
theorem foldl_eq {α : Type} (value : σ → α) (f : α → Entry σ Call Answer → α)
    (h : CallLog step start log s)
    (hstep : ∀ e ∈ log, step e.before e.call e.answer e.after →
      value e.after = f (value e.before) e) :
    value s = log.foldl f (value start) := by
  induction h with
  | nil => rfl
  | call hlog hcall ih =>
    rw [List.foldl_append, ← ih fun e he => hstep e (List.mem_append_left _ he)]
    exact hstep _ (List.mem_append_right _ (List.mem_singleton_self _)) hcall

section Record
variable (exec : σ → Call → Answer × σ)

/-- The log of some calls, where a call has one answer. -/
def record : σ → List Call → List (Entry σ Call Answer) × σ
  | s, [] => ([], s)
  | s, c :: cs =>
    let (a, s') := exec s c
    let (log, t) := record s' cs
    (⟨c, a, s, s'⟩ :: log, t)

theorem of_record (hexec : ∀ s c, step s c (exec s c).1 (exec s c).2) (start : σ)
    (calls : List Call) :
    CallLog step start (record exec start calls).1 (record exec start calls).2 := by
  have hfrom : ∀ (log : List (Entry σ Call Answer)) (s : σ), CallLog step start log s →
      CallLog step start (log ++ (record exec s calls).1) (record exec s calls).2 := by
    induction calls with
    | nil =>
      intro log s hlog
      simpa [record] using hlog
    | cons c cs ih =>
      intro log s hlog
      have hnext := ih _ _ (.call hlog (hexec s c))
      rw [List.append_assoc, List.singleton_append] at hnext
      exact hnext
  exact hfrom [] start .nil

end Record

end CallLog

end TinyShop.Base
