import Mathlib.Logic.Relation

/-!
# Programs made of atomic calls

A program is a tree of atomic calls and their possible answers. A system runs
any number of programs side by side on one shared state: each call is atomic, and
between two calls anybody else may move. The rules below reduce a statement about
every run to one obligation for each call, read off the tree of the program.
-/

namespace TinyShop.Base

set_option autoImplicit false

/-- `call op next` performs the atomic call `op` and goes on with its answer. -/
inductive Prog (Op : Type) (Res : Op → Type) (α : Type) where
  | pure (a : α)
  | call (op : Op) (next : Res op → Prog Op Res α)

namespace Prog

variable {Op : Type} {Res : Op → Type} {α β : Type}

def bind (p : Prog Op Res α) (f : α → Prog Op Res β) : Prog Op Res β :=
  match p with
  | .pure a => f a
  | .call op next => .call op fun r => (next r).bind f

instance : Monad (Prog Op Res) where
  pure := Prog.pure
  bind := Prog.bind

def perform (op : Op) : Prog Op Res (Res op) := .call op .pure

@[simp] theorem pure_bind (a : α) (f : α → Prog Op Res β) :
    (Prog.pure a : Prog Op Res α) >>= f = f a := rfl

@[simp] theorem call_bind (op : Op) (next : Res op → Prog Op Res α) (f : α → Prog Op Res β) :
    Prog.call op next >>= f = .call op fun r => next r >>= f := rfl

theorem bind_assoc {γ : Type} (p : Prog Op Res α) (f : α → Prog Op Res β)
    (g : β → Prog Op Res γ) : (p.bind f).bind g = p.bind fun a => (f a).bind g := by
  induction p with
  | pure a => rfl
  | call op next ih => exact congrArg (Prog.call op) (funext ih)

theorem bind_pure (p : Prog Op Res α) : p.bind .pure = p := by
  induction p with
  | pure a => rfl
  | call op next ih => exact congrArg (Prog.call op) (funext ih)

instance : LawfulMonad (Prog Op Res) :=
  .mk' (Prog Op Res) bind_pure (fun _ _ => rfl) bind_assoc

/-- Every call that some sequence of answers leads to satisfies `P`. -/
def Calls (P : Op → Prop) : Prog Op Res α → Prop
  | .pure _ => True
  | .call op next => P op ∧ ∀ r, Calls P (next r)

theorem calls_bind {P : Op → Prop} {p : Prog Op Res α} {f : α → Prog Op Res β}
    (hp : p.Calls P) (hf : ∀ a, (f a).Calls P) : (p >>= f).Calls P := by
  induction p with
  | pure a => exact hf a
  | call op next ih => exact ⟨hp.1, fun r => ih r (hp.2 r)⟩

/-- Whatever the answers are, the program ends with a value that satisfies `P`. -/
def Ends (P : α → Prop) : Prog Op Res α → Prop
  | .pure a => P a
  | .call _ next => ∀ r, Ends P (next r)

theorem ends_bind {P : β → Prop} {p : Prog Op Res α} {f : α → Prog Op Res β}
    (h : p.Ends fun a => (f a).Ends P) : (p >>= f).Ends P := by
  induction p with
  | pure a => exact h
  | call op next ih => exact fun r => ih r (h r)

theorem Ends.mono {P Q : α → Prop} {p : Prog Op Res α} (h : p.Ends P) (hPQ : ∀ a, P a → Q a) :
    p.Ends Q := by
  induction p with
  | pure a => exact hPQ a h
  | call op next ih => exact fun r => ih r (h r)

theorem ends_of_forall {P : α → Prop} (h : ∀ a, P a) (p : Prog Op Res α) : p.Ends P := by
  induction p with
  | pure a => exact h a
  | call op next ih => exact fun r => ih r

end Prog

section Sequential
variable {σ Op : Type} {Res : Op → Type} {α β : Type}
variable (exec : σ → (op : Op) → Res op → σ → Prop)

/-- A complete run of one program with nobody else moving. -/
inductive Runs : Prog Op Res α → σ → α → σ → Prop where
  | pure (a : α) (s : σ) : Runs (.pure a) s a s
  | call {op : Op} {next : Res op → Prog Op Res α} {r : Res op} {s t u : σ} {a : α} :
      exec s op r t → Runs (next r) t a u → Runs (.call op next) s a u

/-- A complete run with its calls and their answers. -/
inductive Logs : Prog Op Res α → σ → List ((op : Op) × Res op) → α → σ → Prop where
  | pure (a : α) (s : σ) : Logs (.pure a) s [] a s
  | call {op : Op} {next : Res op → Prog Op Res α} {r : Res op} {s t u : σ} {a : α}
      {log : List ((op : Op) × Res op)} :
      exec s op r t → Logs (next r) t log a u → Logs (.call op next) s (⟨op, r⟩ :: log) a u

variable {exec}

theorem Logs.runs {p : Prog Op Res α} {s t : σ} {a : α} {log : List ((op : Op) × Res op)}
    (h : Logs exec p s log a t) : Runs exec p s a t := by
  induction h with
  | pure a s => exact .pure a s
  | call hexec _ ih => exact .call hexec ih

theorem Runs.exists_log {p : Prog Op Res α} {s t : σ} {a : α} (h : Runs exec p s a t) :
    ∃ log, Logs exec p s log a t := by
  induction h with
  | pure a s => exact ⟨[], .pure a s⟩
  | call hexec _ ih =>
    obtain ⟨log, hrest⟩ := ih
    exact ⟨_, .call hexec hrest⟩

/-- A run is also one of another system that gives each of its calls the same answer. -/
theorem Logs.mono {exec' : σ → (op : Op) → Res op → σ → Prop} {p : Prog Op Res α} {s t : σ} {a : α}
    {log : List ((op : Op) × Res op)} (h : Logs exec p s log a t)
    (hcalls : ∀ call ∈ log, ∀ u v, exec u call.1 call.2 v → exec' u call.1 call.2 v) :
    Logs exec' p s log a t := by
  induction h with
  | pure a s => exact .pure a s
  | call hexec _ ih =>
    refine .call (hcalls _ List.mem_cons_self _ _ hexec) (ih fun call hmem => ?_)
    exact hcalls call (List.mem_cons_of_mem _ hmem)

theorem runs_pure_iff {a b : α} {s t : σ} :
    Runs exec (.pure a : Prog Op Res α) s b t ↔ b = a ∧ t = s := by
  constructor
  · intro h
    cases h
    exact ⟨rfl, rfl⟩
  · rintro ⟨rfl, rfl⟩
    exact .pure b t

theorem runs_call_iff {op : Op} {next : Res op → Prog Op Res α} {s u : σ} {a : α} :
    Runs exec (.call op next) s a u ↔ ∃ r t, exec s op r t ∧ Runs exec (next r) t a u := by
  constructor
  · intro h
    cases h with
    | call hx hr => exact ⟨_, _, hx, hr⟩
  · rintro ⟨r, t, hx, hr⟩
    exact .call hx hr

theorem runs_bind_iff {p : Prog Op Res α} {f : α → Prog Op Res β} {s u : σ} {b : β} :
    Runs exec (p >>= f) s b u ↔ ∃ a t, Runs exec p s a t ∧ Runs exec (f a) t b u := by
  induction p generalizing s with
  | pure a =>
    simp only [Prog.pure_bind, runs_pure_iff]
    constructor
    · exact fun h => ⟨a, s, ⟨rfl, rfl⟩, h⟩
    · rintro ⟨_, _, ⟨rfl, rfl⟩, h⟩
      exact h
  | call op next ih =>
    simp only [Prog.call_bind, runs_call_iff, ih]
    constructor
    · rintro ⟨r, t, hx, a, v, hp, hf⟩
      exact ⟨a, v, ⟨r, t, hx, hp⟩, hf⟩
    · rintro ⟨a, v, ⟨r, t, hx, hp⟩, hf⟩
      exact ⟨r, t, hx, a, v, hp, hf⟩

/-- A program comes to an end if each call is answered. -/
theorem exists_runs (h : ∀ s op, ∃ r t, exec s op r t) (p : Prog Op Res α) (s : σ) :
    ∃ a t, Runs exec p s a t := by
  induction p generalizing s with
  | pure a => exact ⟨a, s, .pure a s⟩
  | call op next ih =>
    obtain ⟨r, t, hcall⟩ := h s op
    obtain ⟨a, u, hrest⟩ := ih r t
    exact ⟨a, u, .call hcall hrest⟩

end Sequential

section Evaluate
variable {σ Op : Type} {Res : Op → Type} {α : Type}
variable (answer : σ → (op : Op) → Option (Res op × σ))

/-- The run in which every call gets the given answer. -/
def Prog.eval : Prog Op Res α → σ → Option (α × σ)
  | .pure a, s => some (a, s)
  | .call op next, s =>
    match answer s op with
    | some (r, t) => Prog.eval (next r) t
    | none => none

variable {answer} {exec : σ → (op : Op) → Res op → σ → Prop}

theorem runs_of_eval (h : ∀ s op r t, answer s op = some (r, t) → exec s op r t)
    {p : Prog Op Res α} {s t : σ} {a : α} (heval : p.eval answer s = some (a, t)) :
    Runs exec p s a t := by
  induction p generalizing s with
  | pure b =>
    obtain ⟨rfl, rfl⟩ := Prod.mk.inj (Option.some.inj heval)
    exact .pure b s
  | call op next ih =>
    rw [Prog.eval] at heval
    split at heval
    · rename_i r u hans
      exact .call (h s op r u hans) (ih r heval)
    · cases heval

end Evaluate

/-- What a program may assume of the others (`rely`), owes them (`guar`), keeps
true throughout (`inv`) and must establish before a call (`pre`). -/
structure Contract (σ Op : Type) where
  inv : σ → Prop
  rely : σ → σ → Prop
  guar : σ → σ → Prop
  pre : Op → σ → Prop
  refl : ∀ s, rely s s
  trans : ∀ {s t u}, rely s t → rely t u → rely s u

section Safe
variable {σ Op : Type} {Res : Op → Type} {α β : Type}
variable (exec : σ → (op : Op) → Res op → σ → Prop) (C : Contract σ Op)

/-- Each call of the program meets the contract, whatever the others did before it. -/
def Safe (post : α → σ → Prop) : Prog Op Res α → σ → Prop
  | .pure a, s => ∀ t, C.rely s t → C.inv t → post a t
  | .call op next, s => ∀ t, C.rely s t → C.inv t →
      C.pre op t ∧ ∀ r u, exec t op r u → C.inv u ∧ C.guar t u ∧ Safe post (next r) u

variable {exec C}

theorem Safe.stable {post : α → σ → Prop} {p : Prog Op Res α} {s t : σ}
    (h : Safe exec C post p s) (hst : C.rely s t) : Safe exec C post p t := by
  cases p with
  | pure a => exact fun u hu hi => h u (C.trans hst hu) hi
  | call op next => exact fun u hu hi => h u (C.trans hst hu) hi

theorem safe_of_later {post : α → σ → Prop} {p : Prog Op Res α} {s : σ}
    (h : ∀ t, C.rely s t → C.inv t → Safe exec C post p t) : Safe exec C post p s := by
  cases p with
  | pure a => exact fun t ht hi => h t ht hi t (C.refl t) hi
  | call op next => exact fun t ht hi => h t ht hi t (C.refl t) hi

theorem Safe.mono {post post' : α → σ → Prop} {p : Prog Op Res α} {s : σ}
    (h : Safe exec C post p s) (hp : ∀ a t, post a t → post' a t) :
    Safe exec C post' p s := by
  induction p generalizing s with
  | pure a => exact fun t ht hi => hp a t (h t ht hi)
  | call op next ih =>
    intro t ht hi
    obtain ⟨hpre, hall⟩ := h t ht hi
    refine ⟨hpre, fun r u hx => ?_⟩
    obtain ⟨hu, hg, hn⟩ := hall r u hx
    exact ⟨hu, hg, ih r hn⟩

theorem safe_bind {post : β → σ → Prop} {p : Prog Op Res α} {f : α → Prog Op Res β} {s : σ}
    (h : Safe exec C (fun a t => Safe exec C post (f a) t) p s) :
    Safe exec C post (p >>= f) s := by
  induction p generalizing s with
  | pure a => exact safe_of_later fun t ht hi => h t ht hi
  | call op next ih =>
    intro t ht hi
    obtain ⟨hpre, hall⟩ := h t ht hi
    refine ⟨hpre, fun r u hx => ?_⟩
    obtain ⟨hu, hg, hn⟩ := hall r u hx
    exact ⟨hu, hg, ih r hn⟩

theorem safe_pure {post : α → σ → Prop} {a : α} {s : σ}
    (h : ∀ t, C.rely s t → post a t) : Safe exec C post (.pure a) s :=
  fun t ht _ => h t ht

end Safe

section Sound
variable {σ Op : Type} {Res : Op → Type} {α : Type}
variable (C : Contract σ Op) (exec : σ → (op : Op) → Res op → σ → Prop)

/-- A call that is made as it is owed keeps the invariant and the guarantee. -/
structure Contract.Sound : Prop where
  step : ∀ {s op r t}, C.inv s → C.pre op s → exec s op r t → C.inv t ∧ C.guar s t
  rely : ∀ {s t}, C.guar s t → C.rely s t

variable {exec C} {post : α → σ → Prop} {s : σ}

/-- One call, whatever the others did before it. -/
theorem Contract.Sound.safe_call (h : C.Sound exec) {op : Op} {next : Res op → Prog Op Res α}
    (hpre : ∀ t, C.rely s t → C.pre op t)
    (hnext : ∀ t r u, C.rely s t → C.inv t → exec t op r u → Safe exec C post (next r) u) :
    Safe exec C post (.call op next) s := by
  intro t hst hi
  refine ⟨hpre t hst, fun r u hx => ?_⟩
  obtain ⟨hu, hguar⟩ := h.step hi (hpre t hst) hx
  exact ⟨hu, hguar, hnext t r u hst hi hx⟩

/-- A program all of whose calls are owed from now on. -/
theorem Contract.Sound.safe_of_calls (h : C.Sound exec) {p : Prog Op Res α}
    (hcalls : p.Calls fun op => ∀ t, C.rely s t → C.pre op t)
    (hends : p.Ends fun a => ∀ t, C.rely s t → post a t) : Safe exec C post p s := by
  suffices hlater : ∀ u, C.rely s u → Safe exec C post p u from hlater s (C.refl s)
  induction p with
  | pure a => exact fun u hu => safe_pure fun t ht => hends t (C.trans hu ht)
  | call op next ih =>
    refine fun u hu => h.safe_call (fun t ht => hcalls.1 t (C.trans hu ht)) fun t r v ht hi hx => ?_
    have hguar := (h.step hi (hcalls.1 t (C.trans hu ht)) hx).2
    exact ih r (hcalls.2 r) (hends r) v (C.trans (C.trans hu ht) (h.rely hguar))

end Sound

/-- `env` moves without a program; `start` and `stop` say which programs may join
and leave; `gate others op` says when the scheduler lets a call run. -/
structure System (σ Op : Type) (Res : Op → Type) (α : Type) where
  exec : σ → (op : Op) → Res op → σ → Prop
  env : σ → σ → Prop
  start : List (Prog Op Res α) → Prog Op Res α → Prop
  stop : Prog Op Res α → Prop
  gate : List (Prog Op Res α) → Op → Prop

structure Config (σ Op : Type) (Res : Op → Type) (α : Type) where
  state : σ
  procs : List (Prog Op Res α)

theorem mem_middle {α : Type} {ps qs : List α} {p q : α} :
    p ∈ ps ++ q :: qs ↔ p = q ∨ p ∈ ps ++ qs := by
  simp only [List.mem_append, List.mem_cons]
  exact or_left_comm

namespace System
variable {σ Op : Type} {Res : Op → Type} {α : Type} (M : System σ Op Res α)

inductive Step : Config σ Op Res α → Config σ Op Res α → Prop where
  | env {s t ps} : M.env s t → Step ⟨s, ps⟩ ⟨t, ps⟩
  | start {s ps p} : M.start ps p → Step ⟨s, ps⟩ ⟨s, p :: ps⟩
  | stop {s ps p qs} : M.stop p → Step ⟨s, ps ++ p :: qs⟩ ⟨s, ps ++ qs⟩
  | call {s t ps qs op next r} : M.gate (ps ++ qs) op → M.exec s op r t →
      Step ⟨s, ps ++ .call op next :: qs⟩ ⟨t, ps ++ next r :: qs⟩

/-- Some interleaving leads from the first configuration to the second. -/
def Reachable : Config σ Op Res α → Config σ Op Res α → Prop :=
  Relation.ReflTransGen M.Step

variable {M} {C : Contract σ Op}

/-- Any number of programs: what each of them guarantees is what the others rely on. -/
theorem safe_of_reachable {post : α → σ → Prop}
    (hguar : ∀ s t, C.guar s t → C.rely s t)
    (henv : ∀ s t, M.env s t → C.inv s → C.inv t ∧ C.rely s t)
    (hstart : ∀ ps p, M.start ps p → ∀ s, Safe M.exec C post p s)
    {c d : Config σ Op Res α} (h : M.Reachable c d) (hinv : C.inv c.state)
    (hprocs : ∀ p ∈ c.procs, Safe M.exec C post p c.state) :
    C.inv d.state ∧ ∀ p ∈ d.procs, Safe M.exec C post p d.state := by
  induction h with
  | refl => exact ⟨hinv, hprocs⟩
  | tail _ step ih =>
    obtain ⟨hi, hp⟩ := ih
    cases step with
    | env he =>
      obtain ⟨ht, hr⟩ := henv _ _ he hi
      exact ⟨ht, fun p hm => (hp p hm).stable hr⟩
    | start hs =>
      refine ⟨hi, fun p hm => ?_⟩
      rcases List.mem_cons.mp hm with rfl | hm
      · exact hstart _ _ hs _
      · exact hp p hm
    | stop _ => exact ⟨hi, fun p hm => hp p (mem_middle.mpr (Or.inr hm))⟩
    | @call s t ps qs op next r _ hx =>
      have hcall := hp (.call op next) (mem_middle.mpr (Or.inl rfl))
      obtain ⟨ht, hg, hn⟩ := (hcall s (C.refl s) hi).2 r t hx
      have hr := hguar s t hg
      refine ⟨ht, fun p hm => ?_⟩
      rcases mem_middle.mp hm with rfl | hm
      · exact hn
      · exact (hp p (mem_middle.mpr (Or.inr hm))).stable hr

/-- The precondition of every call that is about to run holds. -/
theorem pre_of_reachable
    (hguar : ∀ s t, C.guar s t → C.rely s t)
    (henv : ∀ s t, M.env s t → C.inv s → C.inv t ∧ C.rely s t)
    (hstart : ∀ ps p, M.start ps p → ∀ s, Safe M.exec C (fun _ _ => True) p s)
    {s : σ} {d : Config σ Op Res α} (h : M.Reachable ⟨s, []⟩ d) (hinv : C.inv s)
    {op : Op} {next : Res op → Prog Op Res α} (hm : Prog.call op next ∈ d.procs) :
    C.pre op d.state := by
  obtain ⟨hi, hp⟩ := safe_of_reachable hguar henv hstart h hinv (by simp)
  exact (hp _ hm d.state (C.refl _) hi).1

/-- At most one program at a time: `idle` holds whenever none is running. -/
theorem idle_of_reachable {idle : σ → Prop}
    (henv : ∀ s t, M.env s t → C.inv s → C.inv t ∧ C.rely s t ∧ (idle s → idle t))
    (hstart : ∀ ps p, M.start ps p → ps = [] ∧
      ∀ s, C.inv s → idle s → Safe M.exec C (fun _ => idle) p s)
    (hstop : ∀ p, M.stop p → (∃ a, p = .pure a) ∨ ∀ s, C.inv s → idle s)
    {s : σ} {d : Config σ Op Res α} (h : M.Reachable ⟨s, []⟩ d)
    (hinv : C.inv s) (hidle : idle s) :
    C.inv d.state ∧ (d.procs = [] ∧ idle d.state ∨
      ∃ p, d.procs = [p] ∧ Safe M.exec C (fun _ => idle) p d.state) := by
  induction h with
  | refl => exact ⟨hinv, Or.inl ⟨rfl, hidle⟩⟩
  | tail _ step ih =>
    obtain ⟨hi, hp⟩ := ih
    cases step with
    | env he =>
      obtain ⟨ht, hr, hid⟩ := henv _ _ he hi
      refine ⟨ht, ?_⟩
      rcases hp with ⟨hnil, hs⟩ | ⟨p, hone, hs⟩
      · exact Or.inl ⟨hnil, hid hs⟩
      · exact Or.inr ⟨p, hone, hs.stable hr⟩
    | start hs =>
      obtain ⟨hnil, hsafe⟩ := hstart _ _ hs
      simp only [hnil] at hp ⊢
      refine ⟨hi, Or.inr ⟨_, rfl, hsafe _ hi ?_⟩⟩
      rcases hp with ⟨_, hs⟩ | ⟨p, hone, _⟩
      · exact hs
      · simp at hone
    | @stop s ps p qs hs =>
      refine ⟨hi, ?_⟩
      rcases hp with ⟨hnil, _⟩ | ⟨q, hone, hq⟩
      · simp at hnil
      · obtain ⟨rfl, hone⟩ := List.append_eq_singleton_iff.mp hone |>.resolve_right (by simp)
        obtain ⟨rfl, rfl⟩ := List.cons.inj hone
        refine Or.inl ⟨rfl, ?_⟩
        rcases hstop p hs with ⟨a, rfl⟩ | hid
        · exact hq s (C.refl s) hi
        · exact hid s hi
    | @call s t ps qs op next r _ hx =>
      rcases hp with ⟨hnil, _⟩ | ⟨q, hone, hq⟩
      · simp at hnil
      · obtain ⟨rfl, hone⟩ := List.append_eq_singleton_iff.mp hone |>.resolve_right (by simp)
        obtain ⟨rfl, rfl⟩ := List.cons.inj hone
        obtain ⟨ht, _, hn⟩ := (hq s (C.refl s) hi).2 r t hx
        exact ⟨ht, Or.inr ⟨_, rfl, hn⟩⟩

section Drive
variable (answer : List (Prog Op Res α) → σ → (op : Op) → Option (Res op × σ))

/-- The `i`-th program performs its next call, if there is an answer for it. -/
def advance (c : Config σ Op Res α) (i : Nat) : Config σ Op Res α :=
  match c.procs[i]? with
  | some (.call op next) =>
    match answer (c.procs.take i ++ c.procs.drop (i + 1)) c.state op with
    | some (r, t) => ⟨t, c.procs.take i ++ next r :: c.procs.drop (i + 1)⟩
    | none => c
  | _ => c

def drive (schedule : List Nat) (c : Config σ Op Res α) : Config σ Op Res α :=
  schedule.foldl (advance answer) c

/-- The answers are answers that the system can give. -/
def Answers (M : System σ Op Res α) : Prop :=
  ∀ others s op r t, answer others s op = some (r, t) → M.gate others op ∧ M.exec s op r t

variable {answer}

theorem reachable_advance (h : Answers answer M) (c : Config σ Op Res α) (i : Nat) :
    M.Reachable c (advance answer c i) := by
  unfold advance
  split
  · rename_i op next hget
    obtain ⟨hi, hget⟩ := List.getElem?_eq_some_iff.mp hget
    split
    · rename_i r t hans
      have hsplit : c.procs = c.procs.take i ++ .call op next :: c.procs.drop (i + 1) := by
        rw [← hget, List.getElem_cons_drop, List.take_append_drop]
      obtain ⟨hgate, hexec⟩ := h _ _ _ _ _ hans
      have hstep : M.Step ⟨c.state, c.procs.take i ++ .call op next :: c.procs.drop (i + 1)⟩
          ⟨t, c.procs.take i ++ next r :: c.procs.drop (i + 1)⟩ := .call hgate hexec
      rw [← hsplit] at hstep
      exact .single hstep
    · exact .refl
  · exact .refl

theorem reachable_drive (h : Answers answer M) (schedule : List Nat) (c : Config σ Op Res α) :
    M.Reachable c (drive answer schedule c) := by
  induction schedule generalizing c with
  | nil => exact .refl
  | cons i schedule ih => exact (reachable_advance h c i).trans (ih _)

end Drive

end System

end TinyShop.Base
