import Mathlib
import TinyShop.Base.Json

/-!
# Decimal numbers with a fixed number of places

A number is written with its sign, its whole part and so many digits behind the point.
A reader of decimal numbers gets the exact value back, so no two numbers share a text.
-/

namespace TinyShop.Base

set_option autoImplicit false

namespace Decimal

/-- Digits, and perhaps a point with digits behind it. -/
def readUnsigned (cs : List Char) : Option ℚ :=
  let whole := cs.takeWhile Char.isDigit
  match cs.dropWhile Char.isDigit with
  | [] => if whole = [] then none else some (Nat.ofDigitChars 10 whole 0)
  | '.' :: fraction =>
    if whole ≠ [] ∧ Json.isDigits fraction then
      some ((Nat.ofDigitChars 10 (whole ++ fraction) 0 : ℚ) / 10 ^ fraction.length)
    else none
  | _ => none

def read : List Char → Option ℚ
  | '-' :: cs => (readUnsigned cs).map fun q => -q
  | cs => readUnsigned cs

/-- A sign or none, a whole part without superfluous zeros, a point and `places` digits. -/
def HasPlaces (places : Nat) (cs : List Char) : Prop :=
  ∃ sign whole fraction, cs = sign ++ whole ++ '.' :: fraction ∧
    (sign = [] ∨ sign = ['-']) ∧ Json.isInteger whole = true ∧
    fraction.length = places ∧ ∀ c ∈ fraction, c.isDigit = true

/-- Zeros in front fill the digits up. -/
def padded (width n : Nat) : List Char := (Nat.toDigits 10 n).leftpad width '0'

def write (places : Nat) (n : Int) : List Char :=
  (if n < 0 then ['-'] else []) ++ Nat.toDigits 10 (n.natAbs / 10 ^ places) ++
    '.' :: padded places (n.natAbs % 10 ^ places)

section Digits
variable {width n : Nat}

theorem isDigit_of_mem_padded {c : Char} (h : c ∈ padded width n) : c.isDigit = true := by
  rcases List.mem_append.mp h with hzero | hdigit
  · rw [List.eq_of_mem_replicate hzero]
    decide
  · exact Nat.isDigit_of_mem_toDigits (by decide) (by decide) hdigit

theorem length_padded (hwidth : 0 < width) (hn : n < 10 ^ width) :
    (padded width n).length = width := by
  have hle := (Nat.length_toDigits_le_iff (by decide) hwidth).mpr hn
  rw [padded, List.leftpad, List.length_append, List.length_replicate]
  omega

theorem ofDigitChars_padded (width n : Nat) : Nat.ofDigitChars 10 (padded width n) 0 = n := by
  rw [padded, List.leftpad, Nat.ofDigitChars_append, Nat.ofDigitChars_replicate_zero, Nat.mul_zero,
    Nat.ofDigitChars_ten_toDigits]

theorem isDigits_padded (width n : Nat) : Json.isDigits (padded width n) = true := by
  have hne : padded width n ≠ [] := List.append_ne_nil_of_right_ne_nil _ Nat.toDigits_ne_nil
  rw [Json.isDigits, Bool.and_eq_true, List.all_eq_true, Bool.not_eq_true',
    List.isEmpty_eq_false_iff]
  exact ⟨hne, fun c hc => isDigit_of_mem_padded hc⟩

end Digits

section Reading
variable {whole fraction : List Char}

theorem readUnsigned_point (hwhole : Json.isDigits whole = true)
    (hfraction : Json.isDigits fraction = true) : readUnsigned (whole ++ '.' :: fraction) =
      some ((Nat.ofDigitChars 10 (whole ++ fraction) 0 : ℚ) / 10 ^ fraction.length) := by
  have hne : whole ≠ [] := by
    rintro rfl
    cases hwhole
  have hall : ∀ c ∈ whole, c.isDigit = true := by
    have hboth := hwhole
    rw [Json.isDigits, Bool.and_eq_true] at hboth
    exact List.all_eq_true.mp hboth.2
  have hpoint : ∀ c ∈ ('.' :: fraction).head?, c.isDigit = false := Json.stops_cons rfl fraction
  obtain ⟨htake, hdrop⟩ := Json.span_append hall hpoint
  have hboth : whole ≠ [] ∧ Json.isDigits fraction = true := ⟨hne, hfraction⟩
  simp only [readUnsigned, htake, hdrop]
  rw [if_pos hboth]

/-- Digits carry no sign. -/
theorem read_of_digit {c : Char} (hc : c.isDigit = true) (cs : List Char) :
    read (c :: cs) = readUnsigned (c :: cs) := by
  unfold read
  split
  · rename_i heq
    rw [(List.cons.inj heq).1] at hc
    cases hc
  · rfl

theorem read_toDigits (n : Nat) (rest : List Char) :
    read (Nat.toDigits 10 n ++ rest) = readUnsigned (Nat.toDigits 10 n ++ rest) := by
  obtain ⟨c, cs, heq⟩ := List.exists_cons_of_ne_nil (Nat.toDigits_ne_nil (n := n) (b := 10))
  have hc : c.isDigit = true :=
    Nat.isDigit_of_mem_toDigits (by decide) (by decide) (heq ▸ List.mem_cons_self)
  rw [heq, List.cons_append]
  exact read_of_digit hc _

/-- Behind the digits of the whole part the places go on. -/
theorem ofDigitChars_places {places a b : Nat} (hplaces : 0 < places) (hb : b < 10 ^ places) :
    Nat.ofDigitChars 10 (Nat.toDigits 10 a ++ padded places b) 0 = a * 10 ^ places + b := by
  rw [Nat.ofDigitChars_append, Nat.ofDigitChars_ten_toDigits, Nat.ofDigitChars_eq_ofDigitChars_zero,
    ofDigitChars_padded, length_padded hplaces hb, Nat.mul_comm]

end Reading

theorem mem_write {places : Nat} {n : Int} {c : Char} (h : c ∈ write places n) :
    c = '-' ∨ c = '.' ∨ c.isDigit = true := by
  have hdigit : ∀ m, c ∈ Nat.toDigits 10 m → c.isDigit = true :=
    fun m => Nat.isDigit_of_mem_toDigits (by decide) (by decide)
  rw [write, List.mem_append, List.mem_append, List.mem_cons] at h
  rcases h with (hsign | hwhole) | rfl | hplaces
  · split at hsign
    · exact .inl (List.mem_singleton.mp hsign)
    · cases hsign
  · exact .inr (.inr (hdigit _ hwhole))
  · exact .inr (.inl rfl)
  · exact .inr (.inr (isDigit_of_mem_padded hplaces))

section Writing
variable {places : Nat} (hplaces : 0 < places)
include hplaces

theorem hasPlaces_write (n : Int) : HasPlaces places (write places n) := by
  refine ⟨if n < 0 then ['-'] else [], Nat.toDigits 10 (n.natAbs / 10 ^ places),
    padded places (n.natAbs % 10 ^ places), rfl, ?_, Json.isInteger_toDigits _,
    length_padded hplaces (Nat.mod_lt _ (by positivity)), fun c hc => isDigit_of_mem_padded hc⟩
  split
  · exact .inr rfl
  · exact .inl rfl

theorem readUnsigned_write (m : Nat) :
    readUnsigned (Nat.toDigits 10 (m / 10 ^ places) ++ '.' :: padded places (m % 10 ^ places)) =
      some ((m : ℚ) / 10 ^ places) := by
  have hvalue : (((m / 10 ^ places * 10 ^ places + m % 10 ^ places : Nat)) : ℚ) = m := by
    rw [Nat.div_add_mod']
  have hrest : m % 10 ^ places < 10 ^ places := Nat.mod_lt _ (by positivity)
  have hwhole : Json.isDigits (Nat.toDigits 10 (m / 10 ^ places)) = true :=
    (Bool.and_eq_true _ _ ▸ Json.isInteger_toDigits _).1
  rw [readUnsigned_point hwhole (isDigits_padded _ _), ofDigitChars_places hplaces hrest,
    length_padded hplaces hrest, hvalue]

/-- What is read is the number itself. -/
theorem read_write (n : Int) : read (write places n) = some ((n : ℚ) / 10 ^ places) := by
  by_cases hn : n < 0
  · have habs : (n.natAbs : ℚ) = -n := by
      rw [Nat.cast_natAbs, abs_of_neg (by exact_mod_cast hn)]
      push_cast
      rfl
    rw [write, if_pos hn, List.append_assoc, List.singleton_append, read,
      readUnsigned_write hplaces, Option.map_some, habs, neg_div, neg_neg]
  · have habs : (n.natAbs : ℚ) = n := by
      rw [Nat.cast_natAbs, abs_of_nonneg (by omega)]
    rw [write, if_neg hn, List.nil_append, read_toDigits, readUnsigned_write hplaces, habs]

theorem write_injective : Function.Injective (write places) := by
  intro m n h
  have hread := (read_write hplaces m).symm.trans ((congrArg read h).trans (read_write hplaces n))
  have hpow : (10 : ℚ) ^ places ≠ 0 := by positivity
  have heq := (div_left_inj' hpow).mp (Option.some.inj hread)
  exact_mod_cast heq

end Writing

end Decimal

end TinyShop.Base
