import TinyShop.Shared
import TinyShop.Base.Saturating

/-!
# Numbers of 64 bits

What the program does with an `f64`: `str::parse`, a product, `round` and the cast
`as i64`. A finite result is the nearest number of the format, ties to even.
-/

namespace TinyShop.F64

open Base
set_option autoImplicit false

def roundTiesEven (q : Rat) : Int :=
  let rest := q - q.floor
  if rest < 1 / 2 ∨ (rest = 1 / 2 ∧ q.floor % 2 = 0) then q.floor else q.floor + 1

/-- The last bit of a significand of 53 bits; below `2 ^ -1022` there are fewer. -/
def lastBit (q : Rat) : Rat := 2 ^ max (-1074) (Int.log 2 |q| - 52)

def nearest (q : Rat) : F64 :=
  let rounded := roundTiesEven (q / lastBit q) * lastBit q
  if 2 ^ 1024 ≤ |rounded| then .inf (q < 0) else .fin rounded

def sign : List Char → Bool × List Char
  | '-' :: cs => (true, cs)
  | '+' :: cs => (false, cs)
  | cs => (false, cs)

def digits (cs : List Char) : Nat := cs.foldl (fun n c => 10 * n + (c.toNat - '0'.toNat)) 0

def exponent : List Char → Option Int
  | [] => some 0
  | c :: cs =>
    let (negative, ds) := sign cs
    if (c = 'e' ∨ c = 'E') ∧ ds ≠ [] ∧ ds.all Char.isDigit then
      some (if negative then -(digits ds) else digits ds)
    else none

/-- Digits with at most one point among them, and perhaps an exponent. -/
def number (cs : List Char) : Option Rat :=
  let whole := cs.takeWhile Char.isDigit
  let (fraction, rest) := match cs.dropWhile Char.isDigit with
    | '.' :: ds => (ds.takeWhile Char.isDigit, ds.dropWhile Char.isDigit)
    | rest => ([], rest)
  if whole ++ fraction = [] then none
  else (exponent rest).map fun e : Int => digits (whole ++ fraction) * 10 ^ (e - fraction.length)

/-- `str::parse::<f64>`. -/
def parse (cs : List Char) : Option F64 :=
  let (negative, cs) := sign cs
  let word := cs.map Char.toLower
  if word ∈ ["inf".toList, "infinity".toList] then some (.inf negative)
  else if word = "nan".toList then some .nan
  else (number cs).map fun q => nearest (if negative then -q else q)

example : parse "0.1".toList = some (.fin (3602879701896397 / 36028797018963968)) := by
  decide +kernel

def mul : F64 → F64 → F64
  | .fin a, .fin b => nearest (a * b)
  | .inf s, .inf t => .inf (s != t)
  | .inf s, .fin q => if q = 0 then .nan else .inf (s != decide (q < 0))
  | .fin q, .inf s => if q = 0 then .nan else .inf (s != decide (q < 0))
  | .nan, _ => .nan
  | _, .nan => .nan

/-- `f64::round`: halves away from zero. -/
def round : F64 → F64
  | .fin q => .fin (if 0 ≤ q then (q + 1 / 2).floor else -(-q + 1 / 2).floor)
  | x => x

/-- `as i64`. -/
def toI64 : F64 → Int64
  | .nan => 0
  | .inf negative => if negative then .minValue else .maxValue
  | .fin q => saturate (q.num.tdiv q.den)

end TinyShop.F64
