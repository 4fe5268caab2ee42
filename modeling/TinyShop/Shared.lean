import Mathlib

/-!
# Kernel types shared by all contexts

Event envelopes (`crates/shared/src/lib.rs`) and the JSON values they carry. The
text form of a payload is not modelled: what `serde_json::to_string` wrote is taken
to be read back as the same value, unless it nests too deep to be read at all.
-/

namespace TinyShop

set_option autoImplicit false

/-- `f64`, with the finite values as exact numbers. -/
inductive F64 where
  | nan
  | inf (negative : Bool)
  | fin (value : Rat)
deriving DecidableEq, Repr

/-- A `REAL` column stores `NaN` as `NULL`. -/
def F64.column : Option F64 → Option F64
  | some .nan => none
  | value => value

/-- `n as f64`: the nearest number with a significand of 53 bits, ties to even. -/
def F64.ofNat (n : Nat) : F64 :=
  let e := n.log2 + 1 - 53
  let unit := 2 ^ e
  let q := n / unit
  let r := n % unit
  let q' := if unit < 2 * r ∨ (unit = 2 * r ∧ q % 2 = 1) then q + 1 else q
  .fin (if e = 0 then n else (q' * unit : Nat))

/-- `serde_json::Number`. -/
inductive Number where
  | posInt (n : UInt64)
  | negInt (n : Int64)
  | float (value : Rat)
deriving DecidableEq, Repr

/-- `serde_json::Value`. -/
inductive Value where
  | null
  | bool (b : Bool)
  | number (n : Number)
  | string (s : String)
  | array (items : List Value)
  | object (fields : List (String × Value))

namespace Value

/-- `value[key]`: `null` for a missing key and for anything but an object. -/
def get (v : Value) (key : String) : Value :=
  match v with
  | .object fields => (fields.lookup key).getD .null
  | _ => .null

def asStr : Value → Option String
  | .string s => some s
  | _ => none

/-- `as_i64`: `None` for an integer above `i64::MAX` and for a float. -/
def asI64 : Value → Option Int64
  | .number (.posInt n) => if n.toNat < 2 ^ 63 then some (Int64.ofNat n.toNat) else none
  | .number (.negInt n) => some n
  | _ => none

def asF64 : Value → Option F64
  | .number (.posInt n) => some (F64.ofNat n.toNat)
  | .number (.negInt n) =>
    some (match F64.ofNat n.toInt.natAbs with
      | .fin q => .fin (-q)
      | other => other)
  | .number (.float q) => some (.fin q)
  | _ => none

/-- `Value::from(i64)`. -/
def ofI64 (n : Int64) : Value :=
  .number (if n.toInt < 0 then .negInt n else .posInt (UInt64.ofNat n.toInt.toNat))

def ofOptStr : Option String → Value
  | some s => .string s
  | none => .null

/-- `json!` of an `Option<f64>`: a number that is not finite becomes `null`. -/
def ofOptF64 : Option F64 → Value
  | some (.fin q) => .number (.float q)
  | _ => .null

@[simp] theorem asStr_string (s : String) : (string s).asStr = some s := rfl

@[simp] theorem asStr_null : null.asStr = none := rfl

@[simp] theorem asStr_ofOptStr (s : Option String) : (ofOptStr s).asStr = s := by
  cases s <;> rfl

@[simp] theorem asI64_ofI64 (n : Int64) : (ofI64 n).asI64 = some n := by
  have hlt := n.toInt_lt
  unfold ofI64
  split
  · rfl
  · rename_i hneg
    have hn : n.toInt.toNat < 2 ^ 63 := by omega
    have hsize : (UInt64.ofNat n.toInt.toNat).toNat = n.toInt.toNat :=
      UInt64.toNat_ofNat_of_lt' (by change _ < 2 ^ 64; omega)
    simp only [asI64, hsize, hn, if_true, Option.some.injEq]
    rw [← Int64.toInt_inj, Int64.toInt_ofNat_of_lt hn]
    omega

mutual

/-- How many arrays and objects lie within each other. -/
def depth : Value → Nat
  | .null => 0
  | .bool _ => 0
  | .number _ => 0
  | .string _ => 0
  | .array items => depthItems items + 1
  | .object fields => depthFields fields + 1

def depthItems : List Value → Nat
  | [] => 0
  | v :: rest => max v.depth (depthItems rest)

def depthFields : List (String × Value) → Nat
  | [] => 0
  | (_, v) :: rest => max v.depth (depthFields rest)

end

/-- `remaining_depth` of a `serde_json::Deserializer`: the array or object that uses it up
is refused. `to_string` has no such limit. -/
def recursionLimit : Nat := 128

/-- `serde_json::from_str` accepts the text that `to_string` wrote. -/
def Readable (v : Value) : Prop := v.depth < recursionLimit

instance : DecidablePred Readable := fun v => inferInstanceAs (Decidable (v.depth < recursionLimit))

/-- So many arrays, each within the one before it. -/
def nested : Nat → Value
  | 0 => .null
  | n + 1 => .array [nested n]

theorem depth_nested (n : Nat) : (nested n).depth = n := by
  induction n with
  | zero => rfl
  | succ n ih => rw [nested, depth, depthItems, depthItems, ih, Nat.max_zero]

theorem not_readable_nested : ¬(nested recursionLimit).Readable := by
  rw [Readable, depth_nested]
  exact Nat.lt_irrefl _

end Value

/-- Event before it is written to an outbox. -/
structure NewEvent where
  aggregate : String
  aggregateId : String
  eventType : String
  payload : Value

/-- Event as it lies in an outbox and is handed to a dispatcher. -/
structure DomainEvent where
  id : Nat
  aggregate : String
  aggregateId : String
  eventType : String
  payload : Value
  createdAt : Int64

/-- Type of an attribute value. -/
inductive DataType where
  | string
  | number
  | enum
  | bool
deriving DecidableEq, Repr

def DataType.asStr : DataType → String
  | .string => "string"
  | .number => "number"
  | .enum => "enum"
  | .bool => "bool"

def DataType.parse (s : String) : Option DataType :=
  if s = "string" then some .string
  else if s = "number" then some .number
  else if s = "enum" then some .enum
  else if s = "bool" then some .bool
  else none

@[simp] theorem DataType.parse_asStr (t : DataType) : DataType.parse t.asStr = some t := by
  cases t <;> decide

/-- Pagination input; both numbers are `u32`. -/
structure Pagination where
  offset : UInt32
  limit : UInt32
deriving DecidableEq, Repr

namespace Pagination

def maxLimit : UInt32 := 100

def defaultLimit : UInt32 := 24

/-- `limit.clamp(1, MAX_LIMIT)`. -/
def clampLimit (limit : UInt32) : UInt32 :=
  if limit < 1 then 1 else if maxLimit < limit then maxLimit else limit

def clamped (offset limit : UInt32) : Pagination := ⟨offset, clampLimit limit⟩

end Pagination

structure Page (α : Type) where
  items : List α
  total : UInt64
  page : Pagination

end TinyShop
