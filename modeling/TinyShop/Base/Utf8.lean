import Mathlib.Data.List.Basic

/-!
# UTF-8 with replacement

Decoding never fails: what is no character reads as `U+FFFD`, and a byte that breaks a
character off is read again as the first byte of the next one. The decoder is a machine
that takes one byte at a time.
-/

namespace TinyShop.Base.Utf8

set_option autoImplicit false

def encode (cs : List Char) : List UInt8 := cs.flatMap String.utf8EncodeChar

/-- The text of bytes that are all below `0x80`. -/
def ascii (bs : List UInt8) : List Char := bs.map fun b => Char.ofNat b.toNat

/-- A character that is being read. The next byte is between `lower` and `upper`. -/
structure Pending where
  codePoint : Nat
  needed : Nat
  lower : Nat
  upper : Nat
deriving DecidableEq, Repr

def replacement : Char := '\uFFFD'

/-- A byte between two characters. -/
def start (b : Nat) : List Char × Option Pending :=
  if b < 0x80 then ([Char.ofNat b], none)
  else if b < 0xC2 then ([replacement], none)
  else if b < 0xE0 then ([], some ⟨b - 0xC0, 1, 0x80, 0xBF⟩)
  -- the bounds after E0 and F0 refuse overlong forms, after ED surrogates, after F4 what
  -- lies above U+10FFFF
  else if b < 0xF0 then
    ([], some ⟨b - 0xE0, 2, if b = 0xE0 then 0xA0 else 0x80, if b = 0xED then 0x9F else 0xBF⟩)
  else if b < 0xF5 then
    ([], some ⟨b - 0xF0, 3, if b = 0xF0 then 0x90 else 0x80, if b = 0xF4 then 0x8F else 0xBF⟩)
  else ([replacement], none)

def read : Option Pending → Nat → List Char × Option Pending
  | none, b => start b
  | some p, b =>
    if p.lower ≤ b ∧ b ≤ p.upper then
      let codePoint := p.codePoint * 64 + (b - 0x80)
      if p.needed = 1 then ([Char.ofNat codePoint], none)
      else ([], some ⟨codePoint, p.needed - 1, 0x80, 0xBF⟩)
    else (replacement :: (start b).1, (start b).2)

def decode : Option Pending → List UInt8 → List Char
  | none, [] => []
  | some _, [] => [replacement]
  | p, b :: bs => (read p b.toNat).1 ++ decode (read p b.toNat).2 bs

theorem encode_append (cs ds : List Char) : encode (cs ++ ds) = encode cs ++ encode ds :=
  List.flatMap_append

theorem encode_eq_nil {cs : List Char} : encode cs = [] ↔ cs = [] := by
  cases cs with
  | nil => exact ⟨fun _ => rfl, fun _ => rfl⟩
  | cons c cs => simp [encode, String.utf8EncodeChar_ne_nil]

theorem utf8EncodeChar_ascii {c : Char} (hc : c.toNat < 0x80) :
    String.utf8EncodeChar c = [UInt8.ofNat c.toNat] := by
  have hle : c.val.toNat ≤ 0x7F := Nat.lt_succ_iff.mp hc
  unfold String.utf8EncodeChar
  rw [if_pos hle]
  rfl

theorem toNat_ofNat_ascii {n : Nat} (hn : n < 0x80) : (Char.ofNat n).toNat = n := by
  have hvalid : n.isValidChar := Or.inl (by omega)
  rw [Char.ofNat, dif_pos hvalid]
  rfl

theorem encode_ascii {bs : List UInt8} (hbs : ∀ b ∈ bs, b.toNat < 0x80) :
    encode (ascii bs) = bs := by
  induction bs with
  | nil => rfl
  | cons b bs ih =>
    have hb : b.toNat < 0x80 := hbs b List.mem_cons_self
    have hrest : encode (ascii bs) = bs := ih fun c hc => hbs c (List.mem_cons_of_mem _ hc)
    have hchar := toNat_ofNat_ascii hb
    rw [ascii, List.map_cons, encode, List.flatMap_cons, utf8EncodeChar_ascii (by omega), hchar,
      UInt8.ofNat_toNat, List.singleton_append]
    exact congrArg (b :: ·) hrest

theorem ascii_encode {cs : List Char} (hcs : ∀ c ∈ cs, c.toNat < 0x80) :
    ascii (encode cs) = cs := by
  induction cs with
  | nil => rfl
  | cons c cs ih =>
    have hc : c.toNat < 0x80 := hcs c List.mem_cons_self
    have hrest : ascii (encode cs) = cs := ih fun d hd => hcs d (List.mem_cons_of_mem c hd)
    have hbyte : (UInt8.ofNat c.toNat).toNat = c.toNat :=
      UInt8.toNat_ofNat_of_lt' (Nat.lt_trans hc (by decide))
    rw [encode, List.flatMap_cons, utf8EncodeChar_ascii hc, List.singleton_append, ascii,
      List.map_cons, hbyte, Char.ofNat_toNat]
    exact congrArg (c :: ·) hrest

theorem decode_cons (p : Option Pending) (b : UInt8) (bs : List UInt8) :
    decode p (b :: bs) = (read p b.toNat).1 ++ decode (read p b.toNat).2 bs := by
  cases p <;> simp [decode]

/-- A byte that does not end the character only adds its bits. -/
theorem decode_continue {b : Nat} (hb : b < 0x40) (codePoint needed : Nat) {lower upper : Nat}
    (hlower : lower ≤ b + 0x80) (hupper : b + 0x80 ≤ upper) (bs : List UInt8) :
    decode (some ⟨codePoint, needed + 2, lower, upper⟩) (UInt8.ofNat (b + 0x80) :: bs) =
      decode (some ⟨codePoint * 64 + b, needed + 1, 0x80, 0xBF⟩) bs := by
  have hbyte : (UInt8.ofNat (b + 0x80)).toNat = b + 0x80 := by
    rw [UInt8.toNat_ofNat']
    omega
  rw [decode_cons, hbyte]
  simp [read, hlower, hupper]

theorem decode_last {b : Nat} (hb : b < 0x40) (codePoint : Nat) {lower upper : Nat}
    (hlower : lower ≤ b + 0x80) (hupper : b + 0x80 ≤ upper) (bs : List UInt8) :
    decode (some ⟨codePoint, 1, lower, upper⟩) (UInt8.ofNat (b + 0x80) :: bs) =
      Char.ofNat (codePoint * 64 + b) :: decode none bs := by
  have hbyte : (UInt8.ofNat (b + 0x80)).toNat = b + 0x80 := by
    rw [UInt8.toNat_ofNat']
    omega
  rw [decode_cons, hbyte]
  simp [read, hlower, hupper]

section Lengths
variable (bs : List UInt8) {n : Nat}

theorem decode_one (hn : n < 0x80) :
    decode none (UInt8.ofNat n :: bs) = Char.ofNat n :: decode none bs := by
  have hbyte : (UInt8.ofNat n).toNat = n := by
    rw [UInt8.toNat_ofNat']
    omega
  rw [decode_cons, hbyte]
  simp [read, start, hn]

theorem decode_two (hlow : 0x80 ≤ n) (hhigh : n < 0x800) :
    decode none (UInt8.ofNat (n / 64 % 0x20 + 0xC0) :: UInt8.ofNat (n % 0x40 + 0x80) :: bs) =
      Char.ofNat n :: decode none bs := by
  have hbyte : (UInt8.ofNat (n / 64 % 0x20 + 0xC0)).toNat = n / 64 + 0xC0 := by
    rw [UInt8.toNat_ofNat']
    omega
  have hstart : start (n / 64 + 0xC0) = ([], some ⟨n / 64, 1, 0x80, 0xBF⟩) := by
    unfold start
    rw [if_neg (by omega), if_neg (by omega), if_pos (by omega), Nat.add_sub_cancel]
  rw [decode_cons, hbyte, read, hstart, List.nil_append,
    decode_last (by omega) _ (by omega) (by omega)]
  congr 2
  omega

theorem decode_three (hlow : 0x800 ≤ n) (hhigh : n < 0x10000) (hscalar : n < 0xD800 ∨ 0xDFFF < n) :
    decode none (UInt8.ofNat (n / 4096 % 0x10 + 0xE0) :: UInt8.ofNat (n / 64 % 0x40 + 0x80) ::
      UInt8.ofNat (n % 0x40 + 0x80) :: bs) = Char.ofNat n :: decode none bs := by
  have hbyte : (UInt8.ofNat (n / 4096 % 0x10 + 0xE0)).toNat = n / 4096 + 0xE0 := by
    rw [UInt8.toNat_ofNat']
    omega
  have hstart : start (n / 4096 + 0xE0) = ([], some ⟨n / 4096, 2,
      if n / 4096 + 0xE0 = 0xE0 then 0xA0 else 0x80,
      if n / 4096 + 0xE0 = 0xED then 0x9F else 0xBF⟩) := by
    unfold start
    rw [if_neg (by omega), if_neg (by omega), if_neg (by omega), if_pos (by omega),
      Nat.add_sub_cancel]
  rw [decode_cons, hbyte, read, hstart, List.nil_append,
    decode_continue (by omega) _ 0 (by split <;> omega) (by split <;> omega),
    decode_last (by omega) _ (by omega) (by omega)]
  congr 2
  omega

theorem decode_four (hlow : 0x10000 ≤ n) (hhigh : n < 0x110000) :
    decode none (UInt8.ofNat (n / 262144 % 0x08 + 0xF0) :: UInt8.ofNat (n / 4096 % 0x40 + 0x80) ::
      UInt8.ofNat (n / 64 % 0x40 + 0x80) :: UInt8.ofNat (n % 0x40 + 0x80) :: bs) =
      Char.ofNat n :: decode none bs := by
  have hbyte : (UInt8.ofNat (n / 262144 % 0x08 + 0xF0)).toNat = n / 262144 + 0xF0 := by
    rw [UInt8.toNat_ofNat']
    omega
  have hstart : start (n / 262144 + 0xF0) = ([], some ⟨n / 262144, 3,
      if n / 262144 + 0xF0 = 0xF0 then 0x90 else 0x80,
      if n / 262144 + 0xF0 = 0xF4 then 0x8F else 0xBF⟩) := by
    unfold start
    rw [if_neg (by omega), if_neg (by omega), if_neg (by omega), if_neg (by omega),
      if_pos (by omega), Nat.add_sub_cancel]
  rw [decode_cons, hbyte, read, hstart, List.nil_append,
    decode_continue (by omega) _ 1 (by split <;> omega) (by split <;> omega),
    decode_continue (by omega) _ 0 (by omega) (by omega),
    decode_last (by omega) _ (by omega) (by omega)]
  congr 2
  omega

end Lengths

theorem decode_utf8EncodeChar (c : Char) (bs : List UInt8) :
    decode none (String.utf8EncodeChar c ++ bs) = c :: decode none bs := by
  have hscalar : c.val.toNat < 0xD800 ∨ 0xDFFF < c.val.toNat ∧ c.val.toNat < 0x110000 := c.valid
  have hc : Char.ofNat c.val.toNat = c := Char.ofNat_toNat c
  unfold String.utf8EncodeChar
  dsimp only
  split
  · rw [List.singleton_append, decode_one bs (by omega), hc]
  · split
    · rw [List.cons_append, List.singleton_append, decode_two bs (by omega) (by omega), hc]
    · split
      · simp only [List.cons_append, List.nil_append]
        rw [decode_three bs (by omega) (by omega) (by omega), hc]
      · simp only [List.cons_append, List.nil_append]
        rw [decode_four bs (by omega) (by omega), hc]

theorem decode_encode (cs : List Char) : decode none (encode cs) = cs := by
  induction cs with
  | nil => rfl
  | cons c cs ih => rw [encode, List.flatMap_cons, decode_utf8EncodeChar, ← encode, ih]

end TinyShop.Base.Utf8
