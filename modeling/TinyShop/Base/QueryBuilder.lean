import Mathlib.Data.List.Basic

/-!
# Statements built piece by piece

A builder appends parts to a statement and values to its list of arguments; a part
names an argument by its number. `Builds` says what a builder appends, and says it
under every list of arguments that may still be pushed later, so a part never
changes its meaning while the statement grows.
-/

namespace TinyShop.Base

set_option autoImplicit false

structure QueryBuilder (χ ν : Type) where
  parts : List χ
  arguments : List ν

namespace QueryBuilder
variable {χ ν α β : Type}

def new : QueryBuilder χ ν := ⟨[], []⟩

/-- The argument with a number. -/
def bound (qb : QueryBuilder χ ν) (i : Nat) : Option ν := qb.arguments[i]?

abbrev Build (χ ν α : Type) := StateM (QueryBuilder χ ν) α

def push (c : χ) : Build χ ν Unit := modify fun qb => { qb with parts := qb.parts ++ [c] }

/-- The number of the argument is that of the arguments before it. -/
def pushBind (v : ν) : Build χ ν Nat :=
  modifyGet fun qb => (qb.arguments.length, { qb with arguments := qb.arguments ++ [v] })

def Builds (b : Build χ ν α) (P : (Nat → Option ν) → α → List χ → Prop) : Prop :=
  ∀ qb, ∃ parts arguments,
    (b.run qb).2 = ⟨qb.parts ++ parts, qb.arguments ++ arguments⟩ ∧
      ∀ later, P (fun i => (qb.arguments ++ arguments ++ later)[i]?) (b.run qb).1 parts

section Rules
variable {P Q : (Nat → Option ν) → α → List χ → Prop}

theorem Builds.imp {b : Build χ ν α} (hb : Builds b P)
    (h : ∀ arg a parts, P arg a parts → Q arg a parts) : Builds b Q := by
  intro qb
  obtain ⟨parts, arguments, hrun, hP⟩ := hb qb
  exact ⟨parts, arguments, hrun, fun later => h _ _ _ (hP later)⟩

theorem builds_pure {a : α} (h : ∀ arg, P arg a []) : Builds (pure a) P := by
  intro qb
  refine ⟨[], [], ?_, fun later => h _⟩
  rw [List.append_nil, List.append_nil]
  rfl

theorem builds_push (c : χ) :
    Builds (push c : Build χ ν Unit) fun _ _ parts => parts = [c] := by
  intro qb
  refine ⟨[c], [], ?_, fun _ => rfl⟩
  rw [List.append_nil]
  rfl

theorem builds_pushBind (v : ν) :
    Builds (pushBind v : Build χ ν Nat) fun arg i parts => arg i = some v ∧ parts = [] := by
  intro qb
  refine ⟨[], [v], ?_, fun later => ⟨?_, rfl⟩⟩
  · rw [List.append_nil]
    rfl
  · change (qb.arguments ++ [v] ++ later)[qb.arguments.length]? = some v
    simp

theorem builds_bind {R : (Nat → Option ν) → β → List χ → Prop} {b : Build χ ν α}
    {f : α → Build χ ν β} {Q : α → (Nat → Option ν) → β → List χ → Prop} (hb : Builds b P)
    (hf : ∀ a, Builds (f a) (Q a))
    (h : ∀ arg a c ps qs, P arg a ps → Q a arg c qs → R arg c (ps ++ qs)) :
    Builds (b >>= f) R := by
  intro qb
  obtain ⟨ps, vs, hrun, hP⟩ := hb qb
  obtain ⟨qs, ws, hrun', hQ⟩ := hf (b.run qb).1 (b.run qb).2
  have hbind : (b >>= f).run qb = (f (b.run qb).1).run (b.run qb).2 := rfl
  rw [hrun] at hrun' hQ
  refine ⟨ps ++ qs, vs ++ ws, ?_, fun later => ?_⟩
  · rw [hbind, hrun, hrun']
    simp
  · -- what is pushed later by `b` is what `f` pushes, and then the rest
    have hp := hP (ws ++ later)
    have hq := hQ later
    rw [hbind, hrun]
    simp only [List.append_assoc] at hp hq ⊢
    exact h _ _ _ _ _ hp hq

/-- A part that names one argument. -/
theorem builds_pushBind_push (v : ν) (c : Nat → χ) :
    Builds (pushBind v >>= fun i => push (c i) : Build χ ν Unit) fun arg _ parts =>
      ∃ i, arg i = some v ∧ parts = [c i] := by
  refine builds_bind (builds_pushBind v) (fun i => builds_push (c i)) ?_
  rintro arg i _ ps qs ⟨hi, rfl⟩ rfl
  exact ⟨i, hi, rfl⟩

/-- One argument for each value, in their order. -/
theorem builds_mapM_pushBind (vs : List ν) :
    Builds (vs.mapM pushBind : Build χ ν (List Nat)) fun arg is parts =>
      is.map arg = vs.map some ∧ parts = [] := by
  induction vs with
  | nil =>
    rw [List.mapM_nil]
    exact builds_pure fun _ => ⟨rfl, rfl⟩
  | cons v vs ih =>
    rw [List.mapM_cons]
    refine builds_bind (builds_pushBind v)
      (fun i => builds_bind (R := fun arg is parts => ∃ js, is = i :: js ∧
        js.map arg = vs.map some ∧ parts = []) ih
        (fun is => builds_pure (P := fun _ js parts => js = i :: is ∧ parts = []) fun _ => ⟨rfl, rfl⟩)
        ?_) ?_
    · rintro arg is js ps qs ⟨his, rfl⟩ ⟨rfl, rfl⟩
      exact ⟨is, rfl, his, rfl⟩
    · rintro arg i is ps qs ⟨hi, rfl⟩ ⟨js, rfl, hjs, rfl⟩
      simp [hi, hjs]

/-- A loop that pushes the parts of one item after those of another. -/
theorem builds_forM {ι : Type} {f : ι → Build χ ν Unit}
    {P : ι → (Nat → Option ν) → Unit → List χ → Prop}
    {Q : List ι → (Nat → Option ν) → List χ → Prop} (hf : ∀ x, Builds (f x) (P x))
    (hnil : ∀ arg, Q [] arg [])
    (hcons : ∀ arg x xs ps qs, P x arg () ps → Q xs arg qs → Q (x :: xs) arg (ps ++ qs))
    (xs : List ι) : Builds (forM xs f) fun arg _ parts => Q xs arg parts := by
  induction xs with
  | nil => exact builds_pure hnil
  | cons x xs ih =>
    rw [List.forM_cons]
    exact builds_bind (hf x) (fun _ => ih) fun arg _ _ ps qs => hcons arg x xs ps qs

theorem builds_option {ι : Type} {f : ι → Build χ ν Unit}
    {P : ι → (Nat → Option ν) → Unit → List χ → Prop} {Q : (Nat → Option ν) → List χ → Prop}
    (o : Option ι) (hf : ∀ x, Builds (f x) (P x)) (hnone : o = none → ∀ arg, Q arg [])
    (hsome : ∀ x, o = some x → ∀ arg ps, P x arg () ps → Q arg ps) :
    Builds (forM o f) fun arg _ parts => Q arg parts := by
  cases o with
  | none => exact builds_pure (hnone rfl)
  | some x => exact (hf x).imp fun arg _ ps => hsome x rfl arg ps

end Rules

/-- What is built from nothing means what was said, under exactly its own arguments. -/
theorem Builds.run_new {b : Build χ ν α} {P : (Nat → Option ν) → α → List χ → Prop}
    (hb : Builds b P) : P (b.run new).2.bound (b.run new).1 (b.run new).2.parts := by
  obtain ⟨parts, arguments, hrun, hP⟩ := hb new
  have h := hP []
  rw [hrun]
  simp only [new, List.nil_append, List.append_nil] at h ⊢
  exact h

end QueryBuilder

end TinyShop.Base
