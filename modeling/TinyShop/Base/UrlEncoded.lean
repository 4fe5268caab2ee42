import TinyShop.Base.Utf8

/-!
# Forms in a URL

`application/x-www-form-urlencoded`: pairs of texts as bytes. A writer may keep any bytes
but the separators and the two escapes; whatever it keeps, a reader gets the pairs back.
-/

namespace TinyShop.Base.UrlEncoded

set_option autoImplicit false

def percent : UInt8 := 0x25
def ampersand : UInt8 := 0x26
def plus : UInt8 := 0x2B
def equals : UInt8 := 0x3D

/-- The bytes that are written as they are. -/
structure KeepSet where
  keeps : Nat → Bool
  ascii : ∀ {b}, keeps b = true → b < 0x80
  plain : ∀ b ∈ [percent, ampersand, plus, equals], keeps b.toNat = false

def hexDigit (n : Nat) : UInt8 := UInt8.ofNat (if n < 10 then 0x30 + n else 0x37 + n)

def hexValue (b : UInt8) : Option Nat :=
  if 0x30 ≤ b.toNat ∧ b.toNat ≤ 0x39 then some (b.toNat - 0x30)
  else if 0x41 ≤ b.toNat ∧ b.toNat ≤ 0x46 then some (b.toNat - 0x37)
  else if 0x61 ≤ b.toNat ∧ b.toNat ≤ 0x66 then some (b.toNat - 0x57)
  else none

/-- An escape with no two digits after it is left alone. -/
def percentDecode : List UInt8 → List UInt8
  | b :: x :: y :: bs =>
    if b = percent then
      match hexValue x, hexValue y with
      | some m, some n => UInt8.ofNat (16 * m + n) :: percentDecode bs
      | _, _ => b :: percentDecode (x :: y :: bs)
    else b :: percentDecode (x :: y :: bs)
  | bs => bs

def plusToSpace (bs : List UInt8) : List UInt8 := bs.map fun b => if b = plus then 0x20 else b

def decodeComponent (bs : List UInt8) : List Char :=
  Utf8.decode none (percentDecode (plusToSpace bs))

def parsePart (part : List UInt8) : List Char × List Char :=
  (decodeComponent (part.takeWhile (· ≠ equals)),
    decodeComponent ((part.dropWhile (· ≠ equals)).drop 1))

def parse (bs : List UInt8) : List (List Char × List Char) :=
  ((bs.splitOn ampersand).filter (· ≠ [])).map parsePart

theorem hexValue_hexDigit : ∀ n < 16, hexValue (hexDigit n) = some n := by decide

theorem percentDecode_cons {b : UInt8} (hb : b ≠ percent) (bs : List UInt8) :
    percentDecode (b :: bs) = b :: percentDecode bs := by
  match bs with
  | [] => rfl
  | [_] => rfl
  | _ :: _ :: _ => rw [percentDecode, if_neg hb]

section Encode
variable (set : KeepSet)

def escape (b : UInt8) : List UInt8 :=
  if set.keeps b.toNat then [b]
  else [percent, hexDigit (b.toNat / 16), hexDigit (b.toNat % 16)]

def percentEncode (bs : List UInt8) : List UInt8 := bs.flatMap (escape set)

def encodeComponent (cs : List Char) : List UInt8 := percentEncode set (Utf8.encode cs)

def encodePart (pair : List Char × List Char) : List UInt8 :=
  encodeComponent set pair.1 ++ equals :: encodeComponent set pair.2

/-- One more pair behind those already written. -/
def append (out : List UInt8) (pair : List Char × List Char) : List UInt8 :=
  (if out = [] then [] else out ++ [ampersand]) ++ encodePart set pair

variable {set}

/-- What an escape consists of. -/
theorem mem_percentEncode {bs : List UInt8} {c : UInt8} (hc : c ∈ percentEncode set bs) :
    set.keeps c.toNat = true ∨ c = percent ∨ ∃ n < 16, c = hexDigit n := by
  obtain ⟨b, _, hcb⟩ := List.mem_flatMap.mp hc
  unfold escape at hcb
  split at hcb
  · rename_i hkeep
    rw [List.mem_singleton.mp hcb]
    exact Or.inl hkeep
  · have hlt := b.toNat_lt
    simp only [List.mem_cons, List.not_mem_nil, or_false] at hcb
    rcases hcb with rfl | rfl | rfl
    · exact Or.inr (Or.inl rfl)
    · exact Or.inr (Or.inr ⟨_, by omega, rfl⟩)
    · exact Or.inr (Or.inr ⟨_, by omega, rfl⟩)

theorem percentEncode_ascii {bs : List UInt8} {c : UInt8} (hc : c ∈ percentEncode set bs) :
    c.toNat < 0x80 := by
  have hdigit : ∀ n < 16, (hexDigit n).toNat < 0x80 := by decide
  rcases mem_percentEncode hc with hkeep | rfl | ⟨n, hn, rfl⟩
  · exact set.ascii hkeep
  · decide
  · exact hdigit n hn

theorem not_mem_percentEncode {sep : UInt8} (hsep : sep ∈ [ampersand, plus, equals])
    (bs : List UInt8) : sep ∉ percentEncode set bs := by
  intro hmem
  have hpercent : percent ∉ [ampersand, plus, equals] := by decide
  have hdigit : ∀ n < 16, hexDigit n ∉ [ampersand, plus, equals] := by decide
  rcases mem_percentEncode hmem with hkeep | rfl | ⟨n, hn, rfl⟩
  · rw [set.plain sep (List.mem_cons_of_mem _ hsep)] at hkeep
    cases hkeep
  · exact hpercent hsep
  · exact hdigit n hn hsep

theorem percentDecode_escape (b : UInt8) (bs : List UInt8) :
    percentDecode (escape set b ++ bs) = b :: percentDecode bs := by
  unfold escape
  split
  · rename_i hkeep
    apply percentDecode_cons
    rintro rfl
    rw [set.plain percent List.mem_cons_self] at hkeep
    cases hkeep
  · have hlt := b.toNat_lt
    have hbyte : 16 * (b.toNat / 16) + b.toNat % 16 = b.toNat := Nat.div_add_mod _ _
    simp only [List.cons_append, List.nil_append, percentDecode, if_true]
    rw [hexValue_hexDigit _ (by omega), hexValue_hexDigit _ (by omega)]
    dsimp only
    rw [hbyte, UInt8.ofNat_toNat]

theorem percentDecode_percentEncode (bs : List UInt8) :
    percentDecode (percentEncode set bs) = bs := by
  induction bs with
  | nil => rfl
  | cons b bs ih => rw [percentEncode, List.flatMap_cons, percentDecode_escape, ← percentEncode, ih]

theorem plusToSpace_percentEncode (bs : List UInt8) :
    plusToSpace (percentEncode set bs) = percentEncode set bs := by
  have hplus : plus ∉ percentEncode set bs := not_mem_percentEncode (by decide) bs
  calc plusToSpace (percentEncode set bs)
      = (percentEncode set bs).map id := by
        refine List.map_congr_left fun b hb => if_neg ?_
        rintro rfl
        exact hplus hb
    _ = percentEncode set bs := List.map_id _

theorem decodeComponent_encodeComponent (cs : List Char) :
    decodeComponent (encodeComponent set cs) = cs := by
  rw [decodeComponent, encodeComponent, plusToSpace_percentEncode, percentDecode_percentEncode,
    Utf8.decode_encode]

theorem encodeComponent_of_keeps {cs : List Char} (hcs : ∀ c ∈ cs, set.keeps c.toNat = true) :
    encodeComponent set cs = Utf8.encode cs := by
  induction cs with
  | nil => rfl
  | cons c cs ih =>
    have hkeep := hcs c List.mem_cons_self
    have hascii := set.ascii hkeep
    have hbyte : (UInt8.ofNat c.toNat).toNat = c.toNat := by
      rw [UInt8.toNat_ofNat']
      omega
    have hchar : percentEncode set (String.utf8EncodeChar c) = String.utf8EncodeChar c := by
      rw [Utf8.utf8EncodeChar_ascii hascii, percentEncode, List.flatMap_singleton, escape, hbyte,
        if_pos hkeep]
    have hrest := ih fun d hd => hcs d (List.mem_cons_of_mem _ hd)
    rw [encodeComponent, percentEncode] at hrest
    rw [encodeComponent, Utf8.encode, List.flatMap_cons, percentEncode, List.flatMap_append,
      ← percentEncode, hchar, ← Utf8.encode, hrest]

/-- The first `=` of a part is the separator: a name contains none. -/
theorem parsePart_encodePart (pair : List Char × List Char) :
    parsePart (encodePart set pair) = pair := by
  have hname : ∀ b ∈ encodeComponent set pair.1, decide (b ≠ equals) = true := by
    intro b hb
    rw [decide_eq_true_iff]
    rintro rfl
    exact not_mem_percentEncode (by decide) _ hb
  have htake : (encodePart set pair).takeWhile (· ≠ equals) = encodeComponent set pair.1 := by
    rw [encodePart, List.takeWhile_append_of_pos hname]
    simp
  have hdrop : ((encodePart set pair).dropWhile (· ≠ equals)).drop 1 =
      encodeComponent set pair.2 := by
    rw [encodePart, List.dropWhile_append_of_pos hname]
    simp
  rw [parsePart, htake, hdrop, decodeComponent_encodeComponent, decodeComponent_encodeComponent]

theorem parse_encodePart (pair : List Char × List Char) : parse (encodePart set pair) = [pair] := by
  have hsep : ampersand ∉ encodePart set pair := by
    intro hmem
    rcases List.mem_append.mp hmem with hname | hvalue
    · exact not_mem_percentEncode (by decide) _ hname
    · rcases List.mem_cons.mp hvalue with heq | hvalue
      · cases heq
      · exact not_mem_percentEncode (by decide) _ hvalue
  have hnonempty : encodePart set pair ≠ [] := by simp [encodePart]
  rw [parse, List.splitOn_eq_singleton hsep, List.filter_singleton, decide_eq_true hnonempty]
  exact congrArg (fun pair => [pair]) (parsePart_encodePart pair)

/-- Whatever is already there, an appended pair is read as one more pair. -/
theorem parse_append (out : List UInt8) (pair : List Char × List Char) :
    parse (append set out pair) = parse out ++ [pair] := by
  unfold append
  split
  · rename_i hout
    rw [hout, List.nil_append, parse_encodePart]
    rfl
  · have hlast : parse (encodePart set pair) = [pair] := parse_encodePart pair
    rw [List.append_assoc, List.singleton_append, ← hlast]
    simp only [parse, List.splitOn_append_cons_self, List.filter_append, List.map_append]

theorem parse_foldl_append (out : List UInt8) (pairs : List (List Char × List Char)) :
    parse (pairs.foldl (append set) out) = parse out ++ pairs := by
  induction pairs generalizing out with
  | nil => rw [List.foldl_nil, List.append_nil]
  | cons pair pairs ih =>
    rw [List.foldl_cons, ih, parse_append, List.append_assoc, List.singleton_append]

end Encode

/-! ## Plus for a space -/

def spaceToPlus (bs : List UInt8) : List UInt8 := bs.map fun b => if b = 0x20 then plus else b

theorem plusToSpace_spaceToPlus (bs : List UInt8) :
    plusToSpace (spaceToPlus bs) = plusToSpace bs := by
  rw [plusToSpace, spaceToPlus, List.map_map, plusToSpace]
  refine List.map_congr_left fun b _ => ?_
  by_cases hb : b = 0x20
  · simp [hb, plus]
  · simp [hb]

theorem spaceToPlus_eq_iff {sep : UInt8} (hsep : sep ∈ [ampersand, equals]) (b : UInt8) :
    (if b = 0x20 then plus else b) = sep ↔ b = sep := by
  have hplus : plus ∉ [ampersand, equals] := by decide
  have hspace : (0x20 : UInt8) ∉ [ampersand, equals] := by decide
  by_cases hb : b = 0x20
  · rw [if_pos hb, hb]
    exact ⟨fun h => absurd (h ▸ hsep) hplus, fun h => absurd (h ▸ hsep) hspace⟩
  · rw [if_neg hb]

theorem parsePart_spaceToPlus (part : List UInt8) : parsePart (spaceToPlus part) = parsePart part := by
  have hname : ((fun b : UInt8 => decide (b ≠ equals)) ∘ fun b => if b = 0x20 then plus else b) =
      fun b => decide (b ≠ equals) := by
    funext b
    simp only [Function.comp_apply, ne_eq, spaceToPlus_eq_iff (by decide : equals ∈ _)]
  have htake : (spaceToPlus part).takeWhile (· ≠ equals) =
      spaceToPlus (part.takeWhile (· ≠ equals)) := by
    rw [spaceToPlus, List.takeWhile_map, hname, spaceToPlus]
  have hdrop : ((spaceToPlus part).dropWhile (· ≠ equals)).drop 1 =
      spaceToPlus ((part.dropWhile (· ≠ equals)).drop 1) := by
    rw [spaceToPlus, List.dropWhile_map, hname, ← List.map_drop, spaceToPlus]
  rw [parsePart, htake, hdrop, decodeComponent, decodeComponent, plusToSpace_spaceToPlus,
    plusToSpace_spaceToPlus, parsePart, decodeComponent, decodeComponent]

theorem splitOn_spaceToPlus (bs : List UInt8) :
    (spaceToPlus bs).splitOn ampersand = (bs.splitOn ampersand).map spaceToPlus := by
  induction bs with
  | nil => rfl
  | cons b bs ih =>
    have hb := spaceToPlus_eq_iff (by decide : ampersand ∈ [ampersand, equals]) b
    rw [spaceToPlus, List.map_cons, List.splitOn_cons_eq_if_modifyHead, ← spaceToPlus, ih,
      List.splitOn_cons_eq_if_modifyHead]
    simp only [beq_iff_eq, hb]
    split
    · rfl
    · cases hrest : bs.splitOn ampersand with
      | nil => rfl
      | cons part parts => rfl

/-- Whether spaces are written as they are or as `+`, the same is read. -/
theorem parse_spaceToPlus (bs : List UInt8) : parse (spaceToPlus bs) = parse bs := by
  have hempty : ((fun part : List UInt8 => decide (part ≠ [])) ∘ spaceToPlus) =
      fun part => decide (part ≠ []) := by
    funext part
    cases part <;> rfl
  rw [parse, splitOn_spaceToPlus, List.filter_map, hempty, List.map_map, parse]
  exact List.map_congr_left fun part _ => parsePart_spaceToPlus part

end TinyShop.Base.UrlEncoded
