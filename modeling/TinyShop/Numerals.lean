import TinyShop.Base.Decimal
import TinyShop.F64
import TinyShop.Text

/-!
# Numerals

`str::parse::<f64>` reads the decimal numbers, each as the nearest number of the format, and
whatever a browser lets pass as a number.
-/

namespace TinyShop

open Base
set_option autoImplicit false

namespace F64

theorem digits_eq (cs : List Char) : digits cs = Nat.ofDigitChars 10 cs 0 := rfl

section Lead
variable {c : Char} (hc : c.isDigit = true ∨ c = '.')
include hc

theorem plain_of_lead : c ≠ '-' ∧ c ≠ '+' ∧ c.toLower ≠ 'i' ∧ c.toLower ≠ 'n' := by
  rcases hc with hc | rfl
  case inr => decide
  have hrange : 48 ≤ c.toNat ∧ c.toNat ≤ 57 := by
    simp only [Char.isDigit, Bool.and_eq_true, decide_eq_true_eq, UInt32.le_iff_toNat_le] at hc
    exact hc
  have hall : ∀ n < 10, Char.ofNat (48 + n) ≠ '-' ∧ Char.ofNat (48 + n) ≠ '+' ∧
      (Char.ofNat (48 + n)).toLower ≠ 'i' ∧ (Char.ofNat (48 + n)).toLower ≠ 'n' := by decide
  have hchar : Char.ofNat (48 + (c.toNat - 48)) = c := by
    rw [Nat.add_sub_cancel' hrange.1, Char.ofNat_toNat]
  rw [← hchar]
  exact hall _ (by omega)

theorem sign_of_lead (cs : List Char) : sign (c :: cs) = (false, c :: cs) := by
  obtain ⟨hminus, hplus, _⟩ := plain_of_lead hc
  unfold sign
  split
  · rename_i heq
    exact absurd (List.cons.inj heq).1 hminus
  · rename_i heq
    exact absurd (List.cons.inj heq).1 hplus
  · rfl

/-- What starts with a digit or a point is no word. -/
theorem parse_of_sign {cs ds : List Char} {negative : Bool} (h : sign cs = (negative, c :: ds)) :
    parse cs = (number (c :: ds)).map fun q => nearest (if negative then -q else q) := by
  obtain ⟨_, _, hi, hn⟩ := plain_of_lead hc
  have hword : ∀ d w, c.toLower ≠ d → (c :: ds).map Char.toLower ≠ d :: w :=
    fun d w hne heq => hne (List.cons.inj heq).1
  have hinf : (c :: ds).map Char.toLower ∉ ["inf".toList, "infinity".toList] := by
    rw [List.mem_cons, List.mem_singleton, not_or]
    exact ⟨hword 'i' _ hi, hword 'i' _ hi⟩
  have hnan : (c :: ds).map Char.toLower ≠ "nan".toList := hword 'n' _ hn
  simp only [parse, h]
  rw [if_neg hinf, if_neg hnan]

end Lead

theorem number_of_readUnsigned {cs : List Char} {q : ℚ} (h : Decimal.readUnsigned cs = some q) :
    number cs = some q := by
  simp only [Decimal.readUnsigned] at h
  split at h
  · rename_i hdrop
    by_cases hwhole : cs.takeWhile Char.isDigit = []
    · rw [if_pos hwhole] at h
      cases h
    · rw [if_neg hwhole] at h
      simp only [number, hdrop, List.append_nil]
      rw [if_neg hwhole, exponent, Option.map_some, digits_eq, ← h]
      simp
  · rename_i fraction hdrop
    split at h
    · rename_i hboth
      obtain ⟨hwhole, hfraction⟩ := hboth
      rw [Json.isDigits, Bool.and_eq_true, List.all_eq_true] at hfraction
      have hend : ∀ c ∈ ([] : List Char).head?, c.isDigit = false := fun _ hc => by cases hc
      obtain ⟨htake, hrest⟩ := Json.span_append hfraction.2 hend
      rw [List.append_nil] at htake hrest
      simp only [number, hdrop, htake, hrest]
      rw [if_neg (List.append_ne_nil_of_left_ne_nil hwhole _), exponent, Option.map_some, digits_eq,
        ← h]
      simp [div_eq_mul_inv]
    · cases h
  · cases h

theorem exists_lead {cs : List Char} {q : ℚ} (h : Decimal.readUnsigned cs = some q) :
    ∃ c ds, (c.isDigit = true ∨ c = '.') ∧ cs = c :: ds := by
  have hwhole : cs.takeWhile Char.isDigit ≠ [] := by
    intro hnone
    simp only [Decimal.readUnsigned, hnone] at h
    split at h
    · cases h
    · split at h
      · rename_i hboth
        exact hboth.1 rfl
      · cases h
    · cases h
  cases cs with
  | nil => exact absurd rfl hwhole
  | cons c ds =>
    refine ⟨c, ds, .inl ?_, rfl⟩
    by_contra hno
    exact hwhole (List.takeWhile_cons_of_neg hno)

/-- A decimal number is no word, and it is rounded once. -/
theorem parse_of_read {cs : List Char} {q : ℚ} (h : Decimal.read cs = some q) :
    parse cs = some (nearest q) := by
  unfold Decimal.read at h
  split at h
  · obtain ⟨p, hp, rfl⟩ := Option.map_eq_some_iff.mp h
    obtain ⟨c, ds, hc, rfl⟩ := exists_lead hp
    rw [parse_of_sign hc rfl, number_of_readUnsigned hp, Option.map_some, if_pos rfl]
  · obtain ⟨c, ds, hc, rfl⟩ := exists_lead h
    rw [parse_of_sign hc (sign_of_lead hc _), number_of_readUnsigned h, Option.map_some,
      if_neg (by decide)]

/-! ## Numbers in a browser -/

/-- An exponent or nothing. -/
def isExponent : List Char → Bool
  | [] => true
  | c :: cs => (c = 'e' || c = 'E') && Json.isDigits (sign cs).2

def isUnsigned (cs : List Char) : Bool :=
  match cs.dropWhile Char.isDigit with
  | '.' :: ds => Json.isDigits (ds.takeWhile Char.isDigit) && isExponent (ds.dropWhile Char.isDigit)
  | rest => !(cs.takeWhile Char.isDigit).isEmpty && isExponent rest

/-- A valid floating-point number of HTML. -/
def isNumber : List Char → Bool
  | '-' :: cs => isUnsigned cs
  | cs => isUnsigned cs

theorem isDigits_iff {ds : List Char} :
    Json.isDigits ds = true ↔ ds ≠ [] ∧ ds.all Char.isDigit = true := by
  rw [Json.isDigits, Bool.and_eq_true, Bool.not_eq_true', List.isEmpty_eq_false_iff]

theorem isSome_exponent {cs : List Char} (h : isExponent cs = true) :
    (exponent cs).isSome = true := by
  cases cs with
  | nil => rfl
  | cons c cs =>
    simp only [isExponent, Bool.and_eq_true, Bool.or_eq_true, decide_eq_true_eq, isDigits_iff] at h
    simp only [exponent]
    rw [if_pos h]
    rfl

theorem isSome_number_point {cs ds : List Char} (hdrop : cs.dropWhile Char.isDigit = '.' :: ds)
    (hdigits : ds.takeWhile Char.isDigit ≠ []) :
    (number cs).isSome = (exponent (ds.dropWhile Char.isDigit)).isSome := by
  unfold number
  simp only [hdrop]
  rw [if_neg (List.append_ne_nil_of_right_ne_nil _ hdigits), Option.isSome_map]

theorem isSome_number_plain {cs : List Char}
    (hpoint : ∀ ds, cs.dropWhile Char.isDigit = '.' :: ds → False)
    (hdigits : cs.takeWhile Char.isDigit ≠ []) :
    (number cs).isSome = (exponent (cs.dropWhile Char.isDigit)).isSome := by
  unfold number
  split
  rename_i heq
  split at heq
  · rename_i hdrop
    exact absurd hdrop (hpoint _)
  · obtain ⟨rfl, rfl⟩ := Prod.mk.inj heq
    rw [if_neg (by simpa using hdigits), Option.isSome_map]

theorem isSome_number {cs : List Char} (h : isUnsigned cs = true) :
    (number cs).isSome = true := by
  unfold isUnsigned at h
  split at h
  · rename_i ds hdrop
    rw [Bool.and_eq_true, isDigits_iff] at h
    rw [isSome_number_point hdrop h.1.1]
    exact isSome_exponent h.2
  · rename_i rest hpoint
    rw [Bool.and_eq_true, Bool.not_eq_true', List.isEmpty_eq_false_iff] at h
    rw [isSome_number_plain hpoint h.1]
    exact isSome_exponent h.2

theorem lead_of_isUnsigned {cs : List Char} (h : isUnsigned cs = true) :
    ∃ c ds, (c.isDigit = true ∨ c = '.') ∧ cs = c :: ds := by
  cases cs with
  | nil => cases h
  | cons c ds =>
    refine ⟨c, ds, ?_, rfl⟩
    by_cases hc : c.isDigit = true
    · exact .inl hc
    · unfold isUnsigned at h
      rw [List.dropWhile_cons_of_neg hc, List.takeWhile_cons_of_neg hc] at h
      split at h
      · rename_i heq
        exact .inr (List.cons.inj heq).1
      · cases h

/-- What a browser lets pass is read. -/
theorem isSome_parse {cs : List Char} (h : isNumber cs = true) : (parse cs).isSome = true := by
  unfold isNumber at h
  split at h
  · obtain ⟨c, ds, hc, rfl⟩ := lead_of_isUnsigned h
    rw [parse_of_sign hc rfl, Option.isSome_map]
    exact isSome_number h
  · obtain ⟨c, ds, hc, rfl⟩ := lead_of_isUnsigned h
    rw [parse_of_sign hc (sign_of_lead hc _), Option.isSome_map]
    exact isSome_number h

/-- The characters of a number. -/
def IsNumeric (c : Char) : Prop := c.isDigit = true ∨ c ∈ ['-', '+', '.', 'e', 'E']

theorem not_isWhitespace_of_isNumeric {c : Char} (h : IsNumeric c) :
    Text.isWhitespace c = false := by
  rcases h with hdigit | hmem
  · have hrange : 48 ≤ c.toNat ∧ c.toNat ≤ 57 := by
      simp only [Char.isDigit, Bool.and_eq_true, decide_eq_true_eq,
        UInt32.le_iff_toNat_le] at hdigit
      exact hdigit
    exact Text.not_isWhitespace (by omega) (by omega)
  · have hall : ∀ c ∈ ['-', '+', '.', 'e', 'E'], 0x20 < c.toNat ∧ c.toNat < 0x7F := by simp
    exact Text.not_isWhitespace (hall c hmem).1 (hall c hmem).2

theorem isNumeric_of_sign {cs : List Char} (h : ∀ c ∈ (sign cs).2, c.isDigit = true) :
    ∀ c ∈ cs, IsNumeric c := by
  intro c hc
  unfold sign at h
  split at h
  · rcases List.mem_cons.mp hc with rfl | hc
    · exact .inr (by decide)
    · exact .inl (h c hc)
  · rcases List.mem_cons.mp hc with rfl | hc
    · exact .inr (by decide)
    · exact .inl (h c hc)
  · exact .inl (h c hc)

theorem isNumeric_of_isExponent {cs : List Char} (h : isExponent cs = true) :
    ∀ c ∈ cs, IsNumeric c := by
  cases cs with
  | nil => exact List.forall_mem_nil _
  | cons e cs =>
    simp only [isExponent, Bool.and_eq_true, Bool.or_eq_true, decide_eq_true_eq, isDigits_iff,
      List.all_eq_true] at h
    refine List.forall_mem_cons.mpr ⟨.inr ?_, isNumeric_of_sign h.2.2⟩
    rcases h.1 with rfl | rfl
    · decide
    · decide

theorem isNumeric_of_isUnsigned {cs : List Char} (h : isUnsigned cs = true) :
    ∀ c ∈ cs, IsNumeric c := by
  have htake : ∀ ds : List Char, ∀ c ∈ ds.takeWhile Char.isDigit, IsNumeric c :=
    fun ds c hc => .inl (List.mem_takeWhile_imp hc)
  intro c hc
  rw [← List.takeWhile_append_dropWhile (p := Char.isDigit) (l := cs), List.mem_append] at hc
  rcases hc with hc | hc
  · exact htake cs c hc
  · unfold isUnsigned at h
    split at h
    · rename_i ds hdrop
      rw [Bool.and_eq_true] at h
      rw [hdrop, List.mem_cons] at hc
      rcases hc with rfl | hc
      · exact .inr (by decide)
      · rw [← List.takeWhile_append_dropWhile (p := Char.isDigit) (l := ds), List.mem_append] at hc
        rcases hc with hc | hc
        · exact htake ds c hc
        · exact isNumeric_of_isExponent h.2 c hc
    · rw [Bool.and_eq_true] at h
      exact isNumeric_of_isExponent h.2 c hc

theorem isNumeric_of_isNumber {cs : List Char} (h : isNumber cs = true) :
    ∀ c ∈ cs, IsNumeric c := by
  unfold isNumber at h
  split at h
  · exact List.forall_mem_cons.mpr ⟨.inr (by decide), isNumeric_of_isUnsigned h⟩
  · exact isNumeric_of_isUnsigned h

theorem trim_of_isNumber {cs : List Char} (h : isNumber cs = true) : Text.trim cs = cs :=
  Text.trim_of_plain fun c hc => not_isWhitespace_of_isNumeric (isNumeric_of_isNumber h c hc)

end F64

end TinyShop
