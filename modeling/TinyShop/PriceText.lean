import TinyShop.Base.Decimal
import TinyShop.PriceTables

/-!
# The text of a price

The amount is written from its 64-bit words: the sign, and the quotient and the remainder of
the absolute value, which also `i64::MIN` has as a `u64`. A reader of decimal numbers gets
the amount back, so two amounts that differ are never shown alike.
-/

namespace TinyShop

open Base
set_option autoImplicit false

namespace Jsonld

/-- `unsigned_abs`; at `i64::MIN` the negation wraps, and the bits read as its absolute
value. -/
def unsignedAbs (n : Int64) : UInt64 := (if n < 0 then -n else n).toUInt64

/-- `format_price_minor` in the words of the machine. -/
def formatPriceWords (priceMinor : Int64) : String :=
  let sign := if priceMinor < 0 then "-" else ""
  let abs := unsignedAbs priceMinor
  sign ++ (abs / 100).toNat.repr ++ "." ++ twoDigits (abs % 100).toNat

theorem lt_zero_iff (n : Int64) : n < 0 ↔ n.toInt < 0 := Int64.lt_iff_toInt_lt

theorem toNat_unsignedAbs (n : Int64) : (unsignedAbs n).toNat = n.toInt.natAbs := by
  have hbits : n.toInt = if 2 * n.toBitVec.toNat < 2 ^ 64 then (n.toBitVec.toNat : Int)
      else (n.toBitVec.toNat : Int) - 2 ^ 64 := BitVec.toInt_eq_toNat_cond n.toBitVec
  have hlt : n.toBitVec.toNat < 2 ^ 64 := n.toBitVec.isLt
  unfold unsignedAbs
  split
  · rename_i hn
    have hneg := (lt_zero_iff n).mp hn
    have hword : (-n).toUInt64.toNat = (2 ^ 64 - n.toBitVec.toNat) % 2 ^ 64 := by
      rw [← Int64.toNat_toBitVec, Int64.toBitVec_neg, BitVec.toNat_neg]
    omega
  · rename_i hn
    have hneg := mt (lt_zero_iff n).mpr hn
    have hword : n.toUInt64.toNat = n.toBitVec.toNat := rfl
    omega

/-- The quotient and the remainder of the words are those of the amount. -/
theorem words_exact (n : Int64) : (unsignedAbs n / 100).toNat = n.toInt.natAbs / 100 ∧
    (unsignedAbs n % 100).toNat = n.toInt.natAbs % 100 := by
  rw [UInt64.toNat_div, UInt64.toNat_mod, toNat_unsignedAbs]
  exact ⟨rfl, rfl⟩

theorem formatPriceWords_eq (n : Int64) : formatPriceWords n = formatPriceMinor n := by
  simp only [formatPriceWords, formatPriceMinor, (words_exact n).1, (words_exact n).2]

theorem toList_twoDigits {n : Nat} (hn : n < 100) :
    (twoDigits n).toList = Decimal.padded 2 n := by
  have hall : ∀ n < 100, (twoDigits n).toList = Decimal.padded 2 n := by decide +kernel
  exact hall n hn

theorem toList_formatPriceMinor (n : Int64) :
    (formatPriceMinor n).toList = Decimal.write 2 n.toInt := by
  have hsign : (if n < 0 then "-" else "").toList = if n.toInt < 0 then ['-'] else [] := by
    simp only [lt_zero_iff]
    split <;> rfl
  have hrest : n.toInt.natAbs % 100 < 100 := Nat.mod_lt _ (by decide)
  simp only [formatPriceMinor, String.toList_append, hsign, toList_twoDigits hrest,
    Nat.toList_repr, Decimal.write]
  rw [List.append_assoc _ ".".toList]
  rfl

/-- The text of an amount has two places, a reader gets the exact amount back, so that no
other amount has this text, and every step in the words of the machine has the value that it
has among the integers. -/
theorem price_text_exact (n : Int64) :
    Decimal.HasPlaces 2 (formatPriceMinor n).toList ∧
      (∃ q, Decimal.read (formatPriceMinor n).toList = some q ∧ q * 100 = n.toInt) ∧
      (∀ m, formatPriceMinor m = formatPriceMinor n → m = n) ∧
      formatPriceWords n = formatPriceMinor n ∧ (unsignedAbs n).toNat = n.toInt.natAbs ∧
      (unsignedAbs n / 100).toNat = n.toInt.natAbs / 100 ∧
      (unsignedAbs n % 100).toNat = n.toInt.natAbs % 100 := by
  rw [toList_formatPriceMinor]
  refine ⟨Decimal.hasPlaces_write (by decide) _, ⟨_, Decimal.read_write (by decide) _, ?_⟩, ?_,
    formatPriceWords_eq n, toNat_unsignedAbs n, words_exact n⟩
  · norm_num
  · intro m h
    have hlist := congrArg String.toList h
    rw [toList_formatPriceMinor, toList_formatPriceMinor] at hlist
    exact Int64.toInt_inj.mp (Decimal.write_injective (by decide) hlist)

end Jsonld

end TinyShop
