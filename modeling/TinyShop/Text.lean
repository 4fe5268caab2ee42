import Mathlib

/-!
# Text

The methods of `char` and `str` that the program calls, on lists of characters.
-/

namespace TinyShop.Text

set_option autoImplicit false

/-- `White_Space` of Unicode, as `str::split_whitespace` and `str::trim` use it. -/
def isWhitespace (c : Char) : Bool :=
  c.toNat ∈ [0x20, 0x85, 0xA0, 0x1680, 0x2028, 0x2029, 0x202F, 0x205F, 0x3000] ||
    (0x9 ≤ c.toNat && c.toNat ≤ 0xD) || (0x2000 ≤ c.toNat && c.toNat ≤ 0x200A)

/-- General category `Cc`. -/
def isControl (c : Char) : Bool := c.toNat < 0x20 || (0x7F ≤ c.toNat && c.toNat ≤ 0x9F)

/-- The words of a text; `word` is the one being read. -/
def splitWhitespace : List Char → (word : List Char) → List (List Char)
  | [], word => if word.isEmpty then [] else [word]
  | c :: cs, word =>
    if isWhitespace c then
      if word.isEmpty then splitWhitespace cs [] else word :: splitWhitespace cs []
    else splitWhitespace cs (word ++ [c])

def trim (cs : List Char) : List Char := (cs.dropWhile isWhitespace).rdropWhile isWhitespace

/-- `split_once(sep)`. -/
def splitOnce (sep : Char) : List Char → Option (List Char × List Char)
  | [] => none
  | c :: cs =>
    if c = sep then some ([], cs)
    else (splitOnce sep cs).map fun (before, after) => (c :: before, after)

/-- `split(sep)`; `part` is the one being read. -/
def split (sep : Char) : List Char → (part : List Char) → List (List Char)
  | [], part => [part]
  | c :: cs, part => if c = sep then part :: split sep cs [] else split sep cs (part ++ [c])

/-- `str::len`: bytes of the UTF-8 form. -/
def len (cs : List Char) : Nat := (cs.map Char.utf8Size).sum

/-- Code units of the UTF-16 form. -/
def utf16Len (cs : List Char) : Nat := (cs.map fun c => if c.toNat < 0x10000 then 1 else 2).sum

/-- `str::contains`. -/
def contains (s part : String) : Bool := decide (part.toList <:+: s.toList)

/-- `length(text)` of SQLite: the characters before the first NUL. -/
def sqlLength (s : String) : Nat := (s.toList.takeWhile (· ≠ '\x00')).length

/-- `trim(text)` of SQLite removes spaces only. -/
def sqlTrim (s : String) : String :=
  String.ofList ((s.toList.dropWhile (· = ' ')).rdropWhile (· = ' '))

/-- `str::parse::<u32>`. -/
def parseU32 (cs : List Char) : Option UInt32 :=
  let digits := if cs.head? = some '+' then cs.drop 1 else cs
  if digits ≠ [] ∧ digits.all Char.isDigit ∧ Nat.ofDigitChars 10 digits 0 < 2 ^ 32 then
    some (UInt32.ofNat (Nat.ofDigitChars 10 digits 0))
  else none

/-- `str::parse::<i64>`. -/
def parseI64 (cs : List Char) : Option Int :=
  let digits := if cs.head? = some '-' ∨ cs.head? = some '+' then cs.drop 1 else cs
  let n : Int := Nat.ofDigitChars 10 digits 0
  let n := if cs.head? = some '-' then -n else n
  if digits ≠ [] ∧ digits.all Char.isDigit ∧ -2 ^ 63 ≤ n ∧ n < 2 ^ 63 then some n else none

theorem parseI64_repr {n : Int} (hlow : -2 ^ 63 ≤ n) (hhigh : n < 2 ^ 63) :
    parseI64 n.repr.toList = some n := by
  have hdigits : ∀ m, ∀ c ∈ Nat.toDigits 10 m, c.isDigit = true := fun m c hc =>
    Nat.isDigit_of_mem_toDigits (by decide) (by decide) hc
  have hvalue : ∀ m, Nat.ofDigitChars 10 (Nat.toDigits 10 m) 0 = m :=
    fun m => Nat.ofDigitChars_ten_toDigits
  have hhead : ∀ m d, d.isDigit = false → (Nat.toDigits 10 m).head? ≠ some d := by
    intro m d hd h
    obtain ⟨cs, hcs⟩ := List.head?_eq_some_iff.mp h
    rw [hdigits m d (by rw [hcs]; exact List.mem_cons_self)] at hd
    cases hd
  cases n with
  | ofNat m =>
    have hrepr : (Int.ofNat m).repr.toList = Nat.toDigits 10 m := Nat.toList_repr
    have hminus := hhead m '-' (by decide)
    have hplus := hhead m '+' (by decide)
    rw [hrepr]
    simp only [parseI64, hminus, hplus, or_false, if_false, hvalue]
    exact if_pos ⟨Nat.toDigits_ne_nil, List.all_eq_true.mpr (hdigits m), hlow, hhigh⟩
  | negSucc m =>
    have hrepr : (Int.negSucc m).repr.toList = '-' :: Nat.toDigits 10 (m + 1) := by
      simp [Int.repr]
    rw [hrepr]
    simp only [parseI64, List.head?_cons, true_or, if_true, List.drop_one, List.tail_cons, hvalue]
    exact if_pos ⟨Nat.toDigits_ne_nil, List.all_eq_true.mpr (hdigits _), hlow, hhigh⟩

theorem parseU32_repr (n : UInt32) : parseU32 n.toNat.repr.toList = some n := by
  have hdigits : ∀ c ∈ Nat.toDigits 10 n.toNat, c.isDigit = true := fun c hc =>
    Nat.isDigit_of_mem_toDigits (by decide) (by decide) hc
  have hplus : (Nat.toDigits 10 n.toNat).head? ≠ some '+' := by
    intro hhead
    obtain ⟨cs, hcs⟩ := List.head?_eq_some_iff.mp hhead
    have hplus := hdigits '+' (by rw [hcs]; exact List.mem_cons_self)
    exact absurd hplus (by decide)
  have hvalue : Nat.ofDigitChars 10 (Nat.toDigits 10 n.toNat) 0 = n.toNat :=
    Nat.ofDigitChars_ten_toDigits
  rw [Nat.toList_repr]
  simp only [parseU32, if_neg hplus, hvalue]
  rw [if_pos ⟨Nat.toDigits_ne_nil, List.all_eq_true.mpr hdigits, n.toNat_lt⟩]
  exact congrArg some (UInt32.ofNat_toNat)

theorem splitWhitespace_append (cs ds word : List Char) {d : Char} (h : isWhitespace d = true) :
    splitWhitespace (cs ++ d :: ds) word = splitWhitespace cs word ++ splitWhitespace ds [] := by
  induction cs generalizing word with
  | nil =>
    simp only [List.nil_append, splitWhitespace, h, if_true]
    split <;> simp
  | cons c cs ih =>
    simp only [List.cons_append, splitWhitespace]
    split
    · split
      · exact ih []
      · rw [ih [], List.cons_append]
    · exact ih (word ++ [c])

theorem splitOnce_append {sep : Char} {before : List Char} (hsep : sep ∉ before)
    (after : List Char) : splitOnce sep (before ++ sep :: after) = some (before, after) := by
  induction before with
  | nil => simp [splitOnce]
  | cons c before ih =>
    have hc : c ≠ sep := fun h => hsep (h ▸ List.mem_cons_self)
    have hrest : sep ∉ before := fun h => hsep (List.mem_cons_of_mem _ h)
    rw [List.cons_append, splitOnce, if_neg hc, ih hrest]
    rfl

theorem eq_of_splitOnce {sep : Char} {cs before after : List Char}
    (h : splitOnce sep cs = some (before, after)) : cs = before ++ sep :: after ∧ sep ∉ before := by
  induction cs generalizing before with
  | nil => cases h
  | cons c cs ih =>
    rw [splitOnce] at h
    split at h
    · rename_i hc
      obtain ⟨rfl, rfl⟩ := Prod.mk.inj (Option.some.inj h)
      exact ⟨by rw [hc]; rfl, List.not_mem_nil⟩
    · rename_i hc
      obtain ⟨⟨first, rest⟩, hrest, heq⟩ := Option.map_eq_some_iff.mp h
      obtain ⟨rfl, rfl⟩ := Prod.mk.inj heq
      obtain ⟨rfl, hfirst⟩ := ih hrest
      refine ⟨rfl, ?_⟩
      rw [List.mem_cons, not_or]
      exact ⟨Ne.symm hc, hfirst⟩

theorem split_of_not_mem {sep : Char} {cs : List Char} (h : sep ∉ cs) (part : List Char) :
    split sep cs part = [part ++ cs] := by
  induction cs generalizing part with
  | nil => rw [List.append_nil, split]
  | cons c cs ih =>
    rw [List.mem_cons, not_or] at h
    rw [split, if_neg (Ne.symm h.1), ih h.2, List.append_assoc]
    rfl

theorem split_append {sep : Char} {cs : List Char} (h : sep ∉ cs) (rest part : List Char) :
    split sep (cs ++ sep :: rest) part = (part ++ cs) :: split sep rest [] := by
  induction cs generalizing part with
  | nil => rw [List.append_nil, List.nil_append, split, if_pos rfl]
  | cons c cs ih =>
    rw [List.mem_cons, not_or] at h
    rw [List.cons_append, split, if_neg (Ne.symm h.1), ih h.2, List.append_assoc]
    rfl

/-- What follows a separator stays in front of the next part. -/
theorem split_intercalate {sep : Char} (lead : List Char) (hlead : sep ∉ lead)
    (parts : List (List Char)) (hparts : ∀ p ∈ parts, sep ∉ p) (first : List Char)
    (hfirst : sep ∉ first) :
    split sep ((sep :: lead).intercalate (first :: parts)) [] = first :: parts.map (lead ++ ·) := by
  induction parts generalizing first with
  | nil => rw [List.intercalate_singleton, split_of_not_mem hfirst]; rfl
  | cons p parts ih =>
    have hp : sep ∉ lead ++ p := by
      rw [List.mem_append, not_or]
      exact ⟨hlead, hparts p List.mem_cons_self⟩
    have hrest : (sep :: lead).intercalate (first :: p :: parts) =
        first ++ sep :: (sep :: lead).intercalate ((lead ++ p) :: parts) := by
      rw [List.intercalate_cons_cons]
      cases parts with
      | nil => simp
      | cons q parts => simp [List.intercalate_cons_cons]
    rw [hrest, split_append hfirst, ih (fun q hq => hparts q (List.mem_cons_of_mem _ hq)) _ hp]
    rfl

theorem not_isWhitespace {c : Char} (hlow : 0x20 < c.toNat) (hhigh : c.toNat < 0x7F) :
    isWhitespace c = false := by
  simp only [isWhitespace, List.mem_cons, List.not_mem_nil, or_false, Bool.or_eq_false_iff,
    Bool.and_eq_false_iff, decide_eq_false_iff_not]
  omega

theorem toNat_of_isAlphanum {c : Char} (h : c.isAlphanum = true) :
    (97 ≤ c.toNat ∧ c.toNat ≤ 122 ∨ 65 ≤ c.toNat ∧ c.toNat ≤ 90) ∨
      48 ≤ c.toNat ∧ c.toNat ≤ 57 := by
  simpa [Char.isAlphanum, Char.isAlpha, Char.isUpper, Char.isLower, Char.isDigit,
    UInt32.le_iff_toNat_le, or_comm] using h

/-! ## Trimming -/

theorem rdropWhile_append_cons {p : Char → Bool} {c : Char} (hc : p c = false)
    (xs ys : List Char) : (xs ++ c :: ys).rdropWhile p = xs ++ c :: ys.rdropWhile p := by
  induction ys using List.reverseRecOn with
  | nil => rw [List.rdropWhile_nil, List.rdropWhile_concat_neg _ _ _ (Bool.eq_false_iff.mp hc)]
  | append_singleton ys d ih =>
    have hassoc : xs ++ c :: (ys ++ [d]) = (xs ++ c :: ys) ++ [d] := by simp
    by_cases hd : p d = true
    · rw [hassoc, List.rdropWhile_concat_pos _ _ _ hd, List.rdropWhile_concat_pos _ _ _ hd, ih]
    · rw [hassoc, List.rdropWhile_concat_neg _ _ _ hd, List.rdropWhile_concat_neg _ _ _ hd, hassoc]

theorem trim_cons_of_whitespace {c : Char} (hc : isWhitespace c = true) (cs : List Char) :
    trim (c :: cs) = trim cs := by
  rw [trim, List.dropWhile_cons_of_pos hc, trim]

theorem trim_cons {c : Char} (hc : isWhitespace c = false) (cs : List Char) :
    trim (c :: cs) = c :: cs.rdropWhile isWhitespace := by
  rw [trim, List.dropWhile_cons_of_neg (Bool.eq_false_iff.mp hc)]
  exact rdropWhile_append_cons hc [] cs

theorem trim_cases (cs : List Char) : trim cs = [] ∨
    ∃ (c : Char) (ds : List Char), isWhitespace c = false ∧
      trim cs = c :: ds.rdropWhile isWhitespace := by
  induction cs with
  | nil => exact .inl rfl
  | cons c cs ih =>
    cases hc : isWhitespace c with
    | true => rwa [trim_cons_of_whitespace hc]
    | false => exact .inr ⟨c, cs, hc, trim_cons hc cs⟩

theorem trim_trim (cs : List Char) : trim (trim cs) = trim cs := by
  rcases trim_cases cs with h | ⟨c, ds, hc, h⟩
  · rw [h]
    rfl
  · rw [h, trim_cons hc, List.rdropWhile_idempotent]

theorem trim_of_plain {cs : List Char} (h : ∀ c ∈ cs, isWhitespace c = false) : trim cs = cs := by
  cases cs with
  | nil => rfl
  | cons c cs =>
    rw [trim_cons (h c List.mem_cons_self), List.rdropWhile_eq_self_iff.mpr]
    exact fun hne => Bool.eq_false_iff.mp
      (h _ (List.mem_cons_of_mem c (List.getLast_mem hne)))

theorem mem_of_mem_trim {cs : List Char} {c : Char} (h : c ∈ trim cs) : c ∈ cs :=
  (List.dropWhile_sublist isWhitespace).mem ((List.rdropWhile_prefix isWhitespace _).mem h)

end TinyShop.Text
