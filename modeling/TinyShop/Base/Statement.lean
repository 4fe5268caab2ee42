import Mathlib
import TinyShop.Base.Table

/-!
# Statements with arguments by position

A statement is read from left to right, and each `?` in it takes the next of the values
that were bound. A left join keeps each row of its left table; the row comes once if it
has at most one partner.
-/

namespace TinyShop.Base

set_option autoImplicit false

/-- A piece of a statement. -/
abbrev Prepared (ν α : Type) := StateM (List ν) α

namespace Prepared
variable {ν α β : Type}

/-- A placeholder `?`; without a value it is `NULL`. -/
def arg : Prepared ν (Option ν) := fun vs => (vs.head?, vs.tail)

def execute (s : Prepared ν α) (args : List ν) : α := (s.run args).1

/-- A piece that takes some arguments and leaves the others alone. -/
def Takes (s : Prepared ν α) (args : List ν) (a : α) : Prop :=
  ∀ rest, s.run (args ++ rest) = (a, rest)

theorem takes_pure (a : α) : Takes (pure a : Prepared ν α) [] a := fun _ => rfl

theorem Takes.bind {s : Prepared ν α} {f : α → Prepared ν β} {args args' : List ν} {a : α} {b : β}
    (hs : Takes s args a) (hf : Takes (f a) args' b) : Takes (s >>= f) (args ++ args') b := by
  intro rest
  have hrun : (s >>= f).run (args ++ args' ++ rest) =
      (f (s.run (args ++ args' ++ rest)).1).run (s.run (args ++ args' ++ rest)).2 := rfl
  rw [hrun, List.append_assoc, hs, hf]

theorem Takes.execute {s : Prepared ν α} {args : List ν} {a : α} (hs : Takes s args a) :
    s.execute args = a := by
  have hrun := hs []
  rw [List.append_nil] at hrun
  rw [Prepared.execute, hrun]

end Prepared

section Joins
variable {α β : Type}

/-- `left LEFT JOIN right ON on`. -/
def leftJoin (left : List α) (right : List β) (on : α → β → Bool) : List (α × Option β) :=
  left.flatMap fun a => match right.filter (on a) with
    | [] => [(a, none)]
    | partners => partners.map fun b => (a, some b)

theorem leftJoin_eq_map {left : List α} {right : List β} {on : α → β → Bool}
    {partner : α → Option β}
    (h : ∀ a ∈ left, right.filter (on a) = (partner a).toList) :
    leftJoin left right on = left.map fun a => (a, partner a) := by
  rw [List.map_eq_flatMap]
  refine List.flatMap_congr fun a ha => ?_
  rw [h a ha]
  cases partner a with
  | none => rfl
  | some b => rfl

end Joins

end TinyShop.Base
