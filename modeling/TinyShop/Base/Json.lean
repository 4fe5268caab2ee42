import Mathlib

/-!
# JSON as text

Values of JSON, a compact writer and a reader of the standard syntax. A writer may choose
how it escapes the characters of a string; whatever it chooses, a reader gets the value
back. A number is kept as the literal that stands for it.
-/

namespace TinyShop.Base

set_option autoImplicit false

namespace Json

def isNumberChar (c : Char) : Bool := c.isDigit || c ∈ ['+', '-', '.', 'e', 'E']

def isDigits (cs : List Char) : Bool := !cs.isEmpty && cs.all Char.isDigit

/-- `0`, or digits without a leading zero. -/
def isInteger (cs : List Char) : Bool := isDigits cs && (cs.head? ≠ some '0' || cs.length = 1)

def isFraction : List Char → Bool
  | [] => true
  | _ :: cs => isDigits cs

def isExponent : List Char → Bool
  | [] => true
  | _ :: '+' :: cs => isDigits cs
  | _ :: '-' :: cs => isDigits cs
  | _ :: cs => isDigits cs

def unsigned : List Char → List Char
  | '-' :: cs => cs
  | cs => cs

def isNumber (cs : List Char) : Bool :=
  let mantissa := (unsigned cs).takeWhile fun c => c ≠ 'e' && c ≠ 'E'
  isInteger (mantissa.takeWhile (· ≠ '.')) && isFraction (mantissa.dropWhile (· ≠ '.')) &&
    isExponent ((unsigned cs).dropWhile fun c => c ≠ 'e' && c ≠ 'E')

structure NumberLiteral where
  chars : List Char
  lexical : ∀ c ∈ chars, isNumberChar c = true
  grammar : isNumber chars = true

theorem head?_toDigits (n : Nat) (hn : n ≠ 0) : (Nat.toDigits 10 n).head? ≠ some '0' := by
  induction n using Nat.strong_induction_on with
  | h n ih =>
    by_cases hlt : n < 10
    · rw [Nat.toDigits_of_lt_base hlt]
      have hdigit : ∀ n < 10, n ≠ 0 → [n.digitChar].head? ≠ some '0' := by decide
      exact hdigit n hlt hn
    · rw [Nat.toDigits_of_base_le (by decide) (by omega), List.head?_append_of_ne_nil _
        Nat.toDigits_ne_nil]
      exact ih (n / 10) (by omega) (by omega)

theorem isInteger_toDigits (n : Nat) : isInteger (Nat.toDigits 10 n) = true := by
  have hall : isDigits (Nat.toDigits 10 n) = true := by
    simpa [isDigits, Nat.toDigits_ne_nil] using fun c hc =>
      Nat.isDigit_of_mem_toDigits (b := 10) (n := n) (by decide) (by decide) hc
  rw [isInteger, hall, Bool.true_and, Bool.or_eq_true, decide_eq_true_iff, decide_eq_true_iff]
  by_cases hn : n = 0
  · rw [hn]
    exact Or.inr rfl
  · exact Or.inl (head?_toDigits n hn)

theorem isNumber_toDigits (n : Nat) : isNumber (Nat.toDigits 10 n) = true := by
  have hdigits : ∀ c ∈ Nat.toDigits 10 n, c.isDigit = true := fun c hc =>
    Nat.isDigit_of_mem_toDigits (by decide) (by decide) hc
  have hplain : ∀ d, d.isDigit = false → ∀ c ∈ Nat.toDigits 10 n, c ≠ d := by
    rintro d hd c hc rfl
    rw [hdigits c hc] at hd
    cases hd
  have hunsigned : unsigned (Nat.toDigits 10 n) = Nat.toDigits 10 n := by
    unfold unsigned
    split
    · rename_i cs heq
      exact absurd rfl (hplain '-' (by decide) '-' (by rw [heq]; exact List.mem_cons_self))
    · rfl
  have hmantissa : ∀ c ∈ Nat.toDigits 10 n, (c ≠ 'e' && c ≠ 'E') = true := by
    intro c hc
    simp [hplain 'e' (by decide) c hc, hplain 'E' (by decide) c hc]
  have hpoint : ∀ c ∈ Nat.toDigits 10 n, decide (c ≠ '.') = true := fun c hc =>
    decide_eq_true (hplain '.' (by decide) c hc)
  simp only [isNumber, hunsigned, List.takeWhile_eq_self_iff.mpr hmantissa,
    List.dropWhile_eq_nil_iff.mpr hmantissa, List.takeWhile_eq_self_iff.mpr hpoint,
    List.dropWhile_eq_nil_iff.mpr hpoint, isInteger_toDigits]
  rfl

def NumberLiteral.ofNat (n : Nat) : NumberLiteral where
  chars := Nat.toDigits 10 n
  lexical := by
    intro c hc
    rw [isNumberChar, Nat.isDigit_of_mem_toDigits (by decide) (by decide) hc, Bool.true_or]
  grammar := isNumber_toDigits n

end Json

inductive Json where
  | null
  | bool (b : Bool)
  | number (literal : Json.NumberLiteral)
  | string (s : List Char)
  | array (items : List Json)
  | object (fields : List (List Char × Json))

namespace Json

/-! ## Reading -/

def isSpace (c : Char) : Bool := c ∈ [' ', '\t', '\n', '\r']

def skipSpace (cs : List Char) : List Char := cs.dropWhile isSpace

/-- The text behind one punctuation mark. -/
def token (mark : Char) (cs : List Char) : Option (List Char) :=
  match skipSpace cs with
  | [] => none
  | c :: cs => if c = mark then some cs else none

def hexValue (c : Char) : Option Nat :=
  if '0' ≤ c ∧ c ≤ '9' then some (c.toNat - '0'.toNat)
  else if 'a' ≤ c ∧ c ≤ 'f' then some (c.toNat - 'a'.toNat + 10)
  else if 'A' ≤ c ∧ c ≤ 'F' then some (c.toNat - 'A'.toNat + 10)
  else none

/-- A unit of UTF-16 in four digits. -/
def readUnit : List Char → Option (Nat × List Char)
  | a :: b :: c :: d :: cs =>
    match hexValue a, hexValue b, hexValue c, hexValue d with
    | some a, some b, some c, some d => some (((a * 16 + b) * 16 + c) * 16 + d, cs)
    | _, _, _, _ => none
  | _ => none

/-- A unit below the surrogates or above them stands alone, and a pair of them for one
character. -/
def readUnicode (cs : List Char) : Option (Char × List Char) :=
  match readUnit cs with
  | none => none
  | some (high, cs) =>
    if high < 0xD800 ∨ 0xDFFF < high then some (Char.ofNat high, cs)
    else match cs with
      | '\\' :: 'u' :: cs =>
        match readUnit cs with
        | none => none
        | some (low, cs) =>
          if high < 0xDC00 ∧ 0xDC00 ≤ low ∧ low ≤ 0xDFFF then
            some (Char.ofNat (0x10000 + (high - 0xD800) * 0x400 + (low - 0xDC00)), cs)
          else none
      | _ => none

def unescape : Char → Option Char
  | '"' => some '"'
  | '\\' => some '\\'
  | '/' => some '/'
  | 'b' => some '\x08'
  | 'f' => some '\x0c'
  | 'n' => some '\n'
  | 'r' => some '\r'
  | 't' => some '\t'
  | _ => none

/-- One character of a string; a quote ends the string. -/
def readChar : List Char → Option (Char × List Char)
  | [] => none
  | c :: cs =>
    if c = '"' ∨ c.toNat < 0x20 then none
    else if c = '\\' then
      match cs with
      | [] => none
      | d :: cs => if d = 'u' then readUnicode cs else (unescape d).map fun c => (c, cs)
    else some (c, cs)

def readString : Nat → List Char → Option (List Char × List Char)
  | 0, _ => none
  | n + 1, cs =>
    if cs.head? = some '"' then some ([], cs.drop 1)
    else (readChar cs).bind fun (c, cs) => (readString n cs).map fun (s, cs) => (c :: s, cs)

def readNumber (cs : List Char) : Option (Json × List Char) :=
  if grammar : isNumber (cs.takeWhile isNumberChar) = true then
    some (.number ⟨cs.takeWhile isNumberChar, fun _ => List.mem_takeWhile_imp, grammar⟩,
      cs.dropWhile isNumberChar)
  else none

def readScalar (cs : List Char) : Option (Json × List Char) :=
  if ['n', 'u', 'l', 'l'] <+: cs then some (.null, cs.drop 4)
  else if ['t', 'r', 'u', 'e'] <+: cs then some (.bool true, cs.drop 4)
  else if ['f', 'a', 'l', 's', 'e'] <+: cs then some (.bool false, cs.drop 5)
  else readNumber cs

mutual

/-- The number bounds the length of what is read. -/
def readValue : Nat → List Char → Option (Json × List Char)
  | 0, _ => none
  | n + 1, cs =>
    match skipSpace cs with
    | [] => none
    | c :: cs =>
      if c = '"' then (readString n cs).map fun (s, cs) => (.string s, cs)
      else if c = '[' then
        match token ']' cs with
        | some cs => some (.array [], cs)
        | none => (readItems n cs).map fun (items, cs) => (.array items, cs)
      else if c = '{' then
        match token '}' cs with
        | some cs => some (.object [], cs)
        | none => (readFields n cs).map fun (fields, cs) => (.object fields, cs)
      else readScalar (c :: cs)

def readItems : Nat → List Char → Option (List Json × List Char)
  | 0, _ => none
  | n + 1, cs =>
    match readValue n cs with
    | none => none
    | some (v, cs) =>
      match token ']' cs with
      | some cs => some ([v], cs)
      | none => (token ',' cs).bind fun cs =>
        (readItems n cs).map fun (items, cs) => (v :: items, cs)

def readFields : Nat → List Char → Option (List (List Char × Json) × List Char)
  | 0, _ => none
  | n + 1, cs =>
    match (token '"' cs).bind (readString n) with
    | none => none
    | some (name, cs) =>
      match (token ':' cs).bind (readValue n) with
      | none => none
      | some (v, cs) =>
        match token '}' cs with
        | some cs => some ([(name, v)], cs)
        | none => (token ',' cs).bind fun cs =>
          (readFields n cs).map fun (fields, cs) => ((name, v) :: fields, cs)

end

def parse (cs : List Char) : Option Json :=
  (readValue (cs.length + 1) cs).bind fun (v, rest) =>
    if skipSpace rest = [] then some v else none

/-! ## Writing -/

/-- How the characters of a string are written. -/
structure Escaping where
  escape : Char → List Char
  reads : ∀ c rest, readChar (escape c ++ rest) = some (c, rest)

section Write
variable (e : Escaping)

def quoted (s : List Char) : List Char := '"' :: s.flatMap e.escape ++ ['"']

mutual

def write : Json → List Char
  | .null => ['n', 'u', 'l', 'l']
  | .bool true => ['t', 'r', 'u', 'e']
  | .bool false => ['f', 'a', 'l', 's', 'e']
  | .number literal => literal.chars
  | .string s => quoted e s
  | .array [] => ['[', ']']
  | .array (v :: items) => '[' :: write v ++ closeItems items
  | .object [] => ['{', '}']
  | .object ((name, v) :: fields) => '{' :: quoted e name ++ ':' :: write v ++ closeFields fields

/-- What follows an item of an array. -/
def closeItems : List Json → List Char
  | [] => [']']
  | v :: items => ',' :: write v ++ closeItems items

def closeFields : List (List Char × Json) → List Char
  | [] => ['}']
  | (name, v) :: fields => ',' :: quoted e name ++ ':' :: write v ++ closeFields fields

end

/-! ## A reader gets the value back -/

theorem skipSpace_cons {c : Char} (hc : isSpace c = false) (cs : List Char) :
    skipSpace (c :: cs) = c :: cs := by
  rw [skipSpace, List.dropWhile_cons_of_neg (by simp [hc])]

theorem token_cons {mark : Char} (hmark : isSpace mark = false) (cs : List Char) :
    token mark (mark :: cs) = some cs := by
  rw [token, skipSpace_cons hmark]
  exact if_pos rfl

theorem token_of_ne {mark c : Char} (hc : isSpace c = false) (hne : c ≠ mark) (cs : List Char) :
    token mark (c :: cs) = none := by
  rw [token, skipSpace_cons hc]
  exact if_neg hne

theorem not_space_of_isNumberChar {c : Char} (hc : isNumberChar c = true) : isSpace c = false := by
  by_contra hspace
  simp only [Bool.not_eq_false, isSpace, decide_eq_true_eq, List.mem_cons, List.not_mem_nil,
    or_false] at hspace
  rcases hspace with rfl | rfl | rfl | rfl <;> exact absurd hc (by decide)

theorem ne_of_isNumberChar {c d : Char} (hc : isNumberChar c = true)
    (hd : isNumberChar d = false) : c ≠ d := by
  rintro rfl
  rw [hc] at hd
  cases hd

theorem NumberLiteral.exists_cons (l : NumberLiteral) :
    ∃ c cs, l.chars = c :: cs ∧ isNumberChar c = true := by
  cases hl : l.chars with
  | nil =>
    have hgrammar := l.grammar
    rw [hl] at hgrammar
    exact absurd hgrammar (by decide)
  | cons c cs =>
    refine ⟨c, cs, rfl, l.lexical c ?_⟩
    rw [hl]
    exact List.mem_cons_self

/-- What holds of the characters in front, and not of the next one, splits the text there. -/
theorem span_append {p : Char → Bool} {cs rest : List Char} (hcs : ∀ c ∈ cs, p c = true)
    (hrest : ∀ c ∈ rest.head?, p c = false) :
    (cs ++ rest).takeWhile p = cs ∧ (cs ++ rest).dropWhile p = rest := by
  rw [List.takeWhile_append_of_pos hcs, List.dropWhile_append_of_pos hcs]
  cases rest with
  | nil => exact ⟨List.append_nil cs, rfl⟩
  | cons c rest =>
    have hc : ¬ p c = true := Bool.eq_false_iff.mp (hrest c rfl)
    rw [List.takeWhile_cons_of_neg hc, List.dropWhile_cons_of_neg hc, List.append_nil]
    exact ⟨rfl, rfl⟩

theorem stops_cons {p : Char → Bool} {c : Char} (hc : p c = false) (cs : List Char) :
    ∀ d ∈ (c :: cs).head?, p d = false := by
  intro d hd
  obtain rfl := Option.some.inj hd
  exact hc

/-- No number goes on here. -/
def Ends (rest : List Char) : Prop := ∀ c ∈ rest.head?, isNumberChar c = false

theorem ends_nil : Ends [] := by
  intro c hc
  cases hc

theorem ends_cons {c : Char} (hc : isNumberChar c = false) (cs : List Char) : Ends (c :: cs) :=
  stops_cons hc cs

theorem readNumber_append (l : NumberLiteral) {rest : List Char} (hrest : Ends rest) :
    readNumber (l.chars ++ rest) = some (.number l, rest) := by
  obtain ⟨htake, hdrop⟩ := span_append l.lexical hrest
  obtain ⟨chars, lexical, grammar⟩ := l
  simp only at htake hdrop
  unfold readNumber
  simp only [htake, hdrop, grammar, dif_pos]

theorem readScalar_append (l : NumberLiteral) {rest : List Char} (hrest : Ends rest) :
    readScalar (l.chars ++ rest) = some (.number l, rest) := by
  obtain ⟨c, cs, hl, hc⟩ := l.exists_cons
  have hword : ∀ (d : Char) (w : List Char), isNumberChar d = false →
      ¬ (d :: w) <+: l.chars ++ rest := by
    intro d w hd hprefix
    rw [hl, List.cons_append, List.cons_prefix_cons] at hprefix
    exact ne_of_isNumberChar hc hd hprefix.1.symm
  rw [readScalar, if_neg (hword 'n' _ (by decide)), if_neg (hword 't' _ (by decide)),
    if_neg (hword 'f' _ (by decide)), readNumber_append l hrest]

variable {e : Escaping}

theorem escape_ne_nil (c : Char) : e.escape c ≠ [] := by
  intro h
  have hreads := e.reads c []
  rw [h] at hreads
  cases hreads

theorem head?_escape (c : Char) (rest : List Char) : (e.escape c ++ rest).head? ≠ some '"' := by
  intro hhead
  obtain ⟨cs, hcs⟩ := List.head?_eq_some_iff.mp hhead
  have hreads := e.reads c rest
  simp [hcs, readChar] at hreads

theorem length_le_flatMap_escape (s : List Char) : s.length ≤ (s.flatMap e.escape).length := by
  induction s with
  | nil => exact Nat.le_refl 0
  | cons c s ih =>
    have hpos := List.length_pos_iff.mpr (escape_ne_nil (e := e) c)
    rw [List.flatMap_cons, List.length_append, List.length_cons]
    omega

theorem readString_escaped (s rest : List Char) {n : Nat}
    (hn : (s.flatMap e.escape).length + 1 ≤ n) :
    readString n (s.flatMap e.escape ++ '"' :: rest) = some (s, rest) := by
  replace hn : s.length + 1 ≤ n := by
    have hlength := length_le_flatMap_escape (e := e) s
    omega
  induction s generalizing n with
  | nil =>
    obtain ⟨n, rfl⟩ := Nat.exists_eq_add_of_le' hn
    rfl
  | cons c s ih =>
    obtain ⟨n, rfl⟩ := Nat.exists_eq_add_of_le' (Nat.le_trans (Nat.le_add_left 1 _) hn)
    rw [List.length_cons] at hn
    rw [List.flatMap_cons, List.append_assoc, readString, if_neg (head?_escape c _), e.reads,
      Option.bind_some]
    simp only
    rw [ih (by omega)]
    rfl

theorem length_quoted (s : List Char) : (quoted e s).length = (s.flatMap e.escape).length + 2 := by
  simp [quoted]

theorem quoted_append (s rest : List Char) :
    quoted e s ++ rest = '"' :: (s.flatMap e.escape ++ '"' :: rest) := by
  simp [quoted]

/-- A value starts with neither a space nor a bracket that closes. -/
theorem write_cons (v : Json) :
    ∃ c cs, write e v = c :: cs ∧ isSpace c = false ∧ c ≠ ']' ∧ c ≠ '}' := by
  cases v with
  | null => exact ⟨'n', _, rfl, by decide⟩
  | bool b =>
    cases b with
    | true => exact ⟨'t', _, rfl, by decide⟩
    | false => exact ⟨'f', _, rfl, by decide⟩
  | number l =>
    obtain ⟨c, cs, hl, hc⟩ := l.exists_cons
    exact ⟨c, cs, hl, not_space_of_isNumberChar hc, ne_of_isNumberChar hc (by decide),
      ne_of_isNumberChar hc (by decide)⟩
  | string s => exact ⟨'"', _, rfl, by decide⟩
  | array items =>
    cases items with
    | nil => exact ⟨'[', _, rfl, by decide⟩
    | cons v items => exact ⟨'[', _, rfl, by decide⟩
  | object fields =>
    cases fields with
    | nil => exact ⟨'{', _, rfl, by decide⟩
    | cons field fields => exact ⟨'{', _, rfl, by decide⟩

variable (e) in
/-- With enough fuel a reader finds the value where it was written. -/
def Reads (v : Json) : Prop :=
  ∀ n rest, (write e v).length ≤ n → Ends rest → readValue n (write e v ++ rest) = some (v, rest)

theorem ends_closeItems (items : List Json) (rest : List Char) :
    Ends (closeItems e items ++ rest) := by
  cases items with
  | nil => exact ends_cons (by decide) _
  | cons v items => exact ends_cons (by decide) _

theorem ends_closeFields (fields : List (List Char × Json)) (rest : List Char) :
    Ends (closeFields e fields ++ rest) := by
  cases fields with
  | nil => exact ends_cons (by decide) _
  | cons field fields => exact ends_cons (by decide) _

theorem reads_scalar {v : Json} {c : Char} {cs : List Char} (hwrite : write e v = c :: cs)
    (hspace : isSpace c = false) (hc : c ≠ '"' ∧ c ≠ '[' ∧ c ≠ '{')
    (hscalar : ∀ rest, Ends rest → readScalar (write e v ++ rest) = some (v, rest)) :
    Reads e v := by
  intro n rest hn hrest
  rw [hwrite, List.length_cons] at hn
  obtain ⟨n, rfl⟩ := Nat.exists_eq_add_of_le' (Nat.le_trans (Nat.le_add_left 1 _) hn)
  have hread := hscalar rest hrest
  rw [hwrite, List.cons_append] at hread ⊢
  rw [readValue, skipSpace_cons hspace]
  simp only [hc.1, hc.2.1, hc.2.2, if_false]
  exact hread

theorem reads_string (s : List Char) : Reads e (.string s) := by
  intro n rest hn _
  rw [write, length_quoted] at hn
  obtain ⟨n, rfl⟩ := Nat.exists_eq_add_of_le' (Nat.le_trans (Nat.le_add_left 1 _) hn)
  rw [write, quoted_append, readValue, skipSpace_cons (by decide)]
  simp only [if_true]
  rw [readString_escaped s rest (by omega)]
  rfl

theorem readItems_write (items : List Json) : ∀ {v : Json}, Reads e v → (∀ w ∈ items, Reads e w) →
    ∀ n rest, (write e v ++ closeItems e items).length ≤ n →
      readItems n (write e v ++ (closeItems e items ++ rest)) = some (v :: items, rest) := by
  induction items with
  | nil =>
    intro v hv _ n rest hn
    rw [closeItems, List.length_append, List.length_singleton] at hn
    obtain ⟨n, rfl⟩ := Nat.exists_eq_add_of_le' (Nat.le_trans (Nat.le_add_left 1 _) hn)
    rw [readItems, hv n _ (by omega) (ends_closeItems [] rest)]
    simp only
    rw [closeItems, List.singleton_append, token_cons (by decide)]
  | cons w items ih =>
    intro v hv hitems n rest hn
    rw [closeItems, List.length_append, List.length_append, List.length_cons] at hn
    obtain ⟨n, rfl⟩ := Nat.exists_eq_add_of_le' (Nat.le_trans (by omega) hn : 1 ≤ n)
    have hw := ih (hitems w List.mem_cons_self) (fun x hx => hitems x (List.mem_cons_of_mem w hx))
      n rest (by rw [List.length_append]; omega)
    rw [readItems, hv n _ (by omega) (ends_closeItems (w :: items) rest)]
    simp only
    rw [closeItems, List.cons_append, List.cons_append, token_of_ne (by decide) (by decide)]
    simp only
    rw [token_cons (by decide), Option.bind_some, List.append_assoc, hw]
    rfl

theorem readFields_write (fields : List (List Char × Json)) : ∀ (name : List Char) {v : Json},
    Reads e v → (∀ field ∈ fields, Reads e field.2) →
    ∀ n rest, (quoted e name ++ ':' :: write e v ++ closeFields e fields).length ≤ n →
      readFields n (quoted e name ++ ':' :: (write e v ++ (closeFields e fields ++ rest))) =
        some ((name, v) :: fields, rest) := by
  -- what is done before the field ends is the same for every field
  have hfield : ∀ (name : List Char) {v : Json} (fields : List (List Char × Json)), Reads e v →
      ∀ n rest, (quoted e name).length + (write e v).length ≤ n →
        ((token '"' (quoted e name ++ ':' :: (write e v ++ (closeFields e fields ++ rest)))).bind
            (readString n) = some (name, ':' :: (write e v ++ (closeFields e fields ++ rest)))) ∧
          (token ':' (':' :: (write e v ++ (closeFields e fields ++ rest)))).bind (readValue n) =
            some (v, closeFields e fields ++ rest) := by
    intro name v fields hv n rest hn
    rw [length_quoted] at hn
    constructor
    · rw [quoted_append, token_cons (by decide), Option.bind_some,
        readString_escaped name _ (by omega)]
    · rw [token_cons (by decide), Option.bind_some, hv n _ (by omega) (ends_closeFields fields rest)]
  induction fields with
  | nil =>
    intro name v hv _ n rest hn
    rw [closeFields] at hn
    simp only [List.length_append, List.length_cons, List.length_nil] at hn
    obtain ⟨n, rfl⟩ := Nat.exists_eq_add_of_le' (Nat.le_trans (by omega) hn : 1 ≤ n)
    obtain ⟨hname, hvalue⟩ := hfield name [] hv n rest (by omega)
    rw [readFields, hname]
    simp only
    rw [hvalue]
    simp only
    rw [closeFields, List.singleton_append, token_cons (by decide)]
  | cons field fields ih =>
    intro name v hv hfields n rest hn
    obtain ⟨name', w⟩ := field
    rw [closeFields] at hn
    simp only [List.length_append, List.length_cons] at hn
    obtain ⟨n, rfl⟩ := Nat.exists_eq_add_of_le' (Nat.le_trans (by omega) hn : 1 ≤ n)
    obtain ⟨hname, hvalue⟩ := hfield name ((name', w) :: fields) hv n rest (by omega)
    have hrest := ih name' (hfields _ List.mem_cons_self)
      (fun x hx => hfields x (List.mem_cons_of_mem _ hx)) n rest
      (by simp only [List.length_append, List.length_cons]; omega)
    rw [readFields, hname]
    simp only
    rw [hvalue]
    simp only
    simp only [closeFields, List.append_assoc, List.cons_append]
    rw [token_of_ne (by decide) (by decide)]
    simp only
    rw [token_cons (by decide), Option.bind_some, hrest]
    rfl

theorem reads_array {items : List Json} (hitems : ∀ v ∈ items, Reads e v) :
    Reads e (.array items) := by
  intro n rest hn _
  cases items with
  | nil =>
    rw [write] at hn ⊢
    obtain ⟨n, rfl⟩ := Nat.exists_eq_add_of_le' (Nat.le_trans (by decide) hn : 1 ≤ n)
    rfl
  | cons v items =>
    rw [write, List.cons_append, List.length_cons] at hn
    obtain ⟨n, rfl⟩ := Nat.exists_eq_add_of_le' (Nat.le_trans (Nat.le_add_left 1 _) hn)
    obtain ⟨c, cs, hwrite, hspace, hclose, _⟩ := write_cons (e := e) v
    have hread := readItems_write items (hitems v List.mem_cons_self)
      (fun w hw => hitems w (List.mem_cons_of_mem v hw)) n rest (by omega)
    have htoken : token ']' (write e v ++ (closeItems e items ++ rest)) = none := by
      rw [hwrite, List.cons_append]
      exact token_of_ne hspace hclose _
    rw [write, List.cons_append, List.cons_append, List.append_assoc, readValue,
      skipSpace_cons (by decide)]
    simp only [if_true, if_neg (by decide : ¬ '[' = '"')]
    rw [htoken]
    simp only
    rw [hread]
    rfl

theorem reads_object {fields : List (List Char × Json)}
    (hfields : ∀ field ∈ fields, Reads e field.2) : Reads e (.object fields) := by
  intro n rest hn _
  cases fields with
  | nil =>
    rw [write] at hn ⊢
    obtain ⟨n, rfl⟩ := Nat.exists_eq_add_of_le' (Nat.le_trans (by decide) hn : 1 ≤ n)
    rfl
  | cons field fields =>
    obtain ⟨name, v⟩ := field
    rw [write] at hn
    simp only [List.length_append, List.length_cons] at hn
    obtain ⟨n, rfl⟩ := Nat.exists_eq_add_of_le' (Nat.le_trans (by omega) hn : 1 ≤ n)
    have hread := readFields_write fields name (hfields _ List.mem_cons_self)
      (fun w hw => hfields w (List.mem_cons_of_mem _ hw)) n rest
      (by simp only [List.length_append, List.length_cons]; omega)
    have htoken : ∀ more, token '}' (quoted e name ++ more) = none := by
      intro more
      rw [quoted_append]
      exact token_of_ne (by decide) (by decide) _
    rw [write]
    simp only [List.cons_append, List.append_assoc]
    rw [readValue, skipSpace_cons (by decide)]
    simp only [if_true, if_neg (by decide : ¬ '{' = '"'), if_neg (by decide : ¬ '{' = '[')]
    rw [htoken]
    simp only
    rw [hread]
    rfl

variable (e) in
mutual

theorem reads_write : ∀ v : Json, Reads e v
  | .null => reads_scalar rfl (by decide) (by decide) fun _ _ => by simp [write, readScalar]
  | .bool true => reads_scalar rfl (by decide) (by decide) fun _ _ => by simp [write, readScalar]
  | .bool false => reads_scalar rfl (by decide) (by decide) fun _ _ => by simp [write, readScalar]
  | .number l => by
    obtain ⟨c, cs, hl, hc⟩ := l.exists_cons
    exact reads_scalar hl (not_space_of_isNumberChar hc)
      ⟨ne_of_isNumberChar hc (by decide), ne_of_isNumberChar hc (by decide),
        ne_of_isNumberChar hc (by decide)⟩ fun _ hrest => readScalar_append l hrest
  | .string s => reads_string s
  | .array items => reads_array (reads_items items)
  | .object fields => reads_object (reads_fields fields)

theorem reads_items : ∀ items : List Json, ∀ v ∈ items, Reads e v
  | [] => List.forall_mem_nil _
  | v :: items => List.forall_mem_cons.mpr ⟨reads_write v, reads_items items⟩

theorem reads_fields : ∀ fields : List (List Char × Json), ∀ field ∈ fields, Reads e field.2
  | [] => List.forall_mem_nil _
  | (_, v) :: fields => List.forall_mem_cons.mpr ⟨reads_write v, reads_fields fields⟩

end

variable (e) in
theorem parse_write (v : Json) : parse (write e v) = some v := by
  have hread := reads_write e v ((write e v).length + 1) [] (Nat.le_succ _) ends_nil
  rw [List.append_nil] at hread
  rw [parse, hread, Option.bind_some]
  rfl

end Write

/-! ## Replacing a character of the text -/

/-- The characters that escapes consist of. -/
def isEscapeChar (c : Char) : Bool :=
  c ∈ ['\\', '"', '/', 'b', 'f', 'n', 'r', 't', 'u'] || (hexValue c).isSome

/-- The characters of a text outside of its strings, and the quotes. -/
def isSyntax (c : Char) : Bool :=
  isNumberChar c || c ∈ ['"', '[', ']', '{', '}', ',', ':', 'n', 'u', 'l', 't', 'r', 'f', 'a', 's']

theorem isEscapeChar_of_unescape {c d : Char} (h : unescape c = some d) :
    isEscapeChar c = true := by
  unfold unescape at h
  split at h
  case h_9 => cases h
  all_goals rfl

theorem exists_of_readUnit {cs rest : List Char} {n : Nat} (h : readUnit cs = some (n, rest)) :
    ∃ digits, cs = digits ++ rest ∧ ∀ c ∈ digits, isEscapeChar c = true := by
  unfold readUnit at h
  split at h
  · rename_i a b c d cs
    split at h
    · rename_i ha hb hc hd
      obtain ⟨-, rfl⟩ := Prod.mk.inj (Option.some.inj h)
      exact ⟨[a, b, c, d], rfl, by simp [isEscapeChar, ha, hb, hc, hd]⟩
    · cases h
  · cases h

theorem isEscapeChar_of_readUnicode {cs : List Char} {c : Char}
    (h : readUnicode cs = some (c, [])) : ∀ d ∈ cs, isEscapeChar d = true := by
  unfold readUnicode at h
  split at h
  · cases h
  · rename_i high rest hhigh
    obtain ⟨digits, rfl, hdigits⟩ := exists_of_readUnit hhigh
    split at h
    · obtain ⟨-, rfl⟩ := Prod.mk.inj (Option.some.inj h)
      rw [List.append_nil]
      exact hdigits
    · split at h
      · rename_i more
        split at h
        · cases h
        · rename_i low rest' hlow
          obtain ⟨digits', rfl, hdigits'⟩ := exists_of_readUnit hlow
          split at h
          · obtain ⟨-, rfl⟩ := Prod.mk.inj (Option.some.inj h)
            intro d hd
            simp only [List.append_nil, List.mem_append, List.mem_cons] at hd
            rcases hd with hd | rfl | rfl | hd
            · exact hdigits d hd
            · decide
            · decide
            · exact hdigits' d hd
          · cases h
      · cases h

/-- An escape of one character holds another only if it is that character. -/
theorem eq_singleton_of_readChar {cs : List Char} {c d : Char} (h : readChar cs = some (c, []))
    (hd : d ∈ cs) (hplain : isEscapeChar d = false) : cs = [d] ∧ c = d := by
  have hne : ∀ {x : Char}, isEscapeChar x = true → d ≠ x := by
    rintro x hx rfl
    rw [hx] at hplain
    cases hplain
  unfold readChar at h
  split at h
  · cases h
  · rename_i x cs
    split at h
    · cases h
    · split at h
      · rename_i hx
        subst hx
        have hmem : d ∈ cs := (List.mem_cons.mp hd).resolve_left (hne (by decide))
        split at h
        · cases h
        · rename_i y cs
          split at h
          · rename_i hy
            subst hy
            have hrest := isEscapeChar_of_readUnicode h
            have hd' := (List.mem_cons.mp hmem).resolve_left (hne (by decide))
            exact absurd rfl (hne (hrest d hd'))
          · obtain ⟨z, hz, heq⟩ := Option.map_eq_some_iff.mp h
            obtain ⟨-, rfl⟩ := Prod.mk.inj heq
            obtain rfl := List.mem_singleton.mp hmem
            exact absurd rfl (hne (isEscapeChar_of_unescape hz))
      · obtain ⟨rfl, rfl⟩ := Prod.mk.inj (Option.some.inj h)
        obtain rfl := List.mem_singleton.mp hd
        exact ⟨rfl, rfl⟩

/-- `replace(c, text)`. -/
def replaceChar (c : Char) (text cs : List Char) : List Char :=
  cs.flatMap fun d => if d = c then text else [d]

section Replace
variable {c : Char} {text : List Char}

theorem replaceChar_append (xs ys : List Char) :
    replaceChar c text (xs ++ ys) = replaceChar c text xs ++ replaceChar c text ys :=
  List.flatMap_append

theorem replaceChar_cons_of_ne {d : Char} (hd : d ≠ c) (cs : List Char) :
    replaceChar c text (d :: cs) = d :: replaceChar c text cs := by
  rw [replaceChar, List.flatMap_cons, if_neg hd]
  rfl

theorem replaceChar_of_not_mem {cs : List Char} (h : c ∉ cs) : replaceChar c text cs = cs := by
  induction cs with
  | nil => rfl
  | cons d cs ih =>
    rw [List.mem_cons, not_or] at h
    rw [replaceChar_cons_of_ne (Ne.symm h.1), ih h.2]

theorem not_mem_replaceChar (h : c ∉ text) (cs : List Char) : c ∉ replaceChar c text cs := by
  intro hmem
  obtain ⟨d, _, hd⟩ := List.mem_flatMap.mp hmem
  split at hd
  · exact h hd
  · rename_i hne
    exact hne (List.mem_singleton.mp hd).symm

/-- A character that is no escape may be written in another way. -/
def Escaping.replace (e : Escaping) (hc : isEscapeChar c = false)
    (htext : ∀ rest, readChar (text ++ rest) = some (c, rest)) : Escaping where
  escape d := replaceChar c text (e.escape d)
  reads := by
    intro d rest
    by_cases hmem : c ∈ e.escape d
    · have hread := e.reads d []
      rw [List.append_nil] at hread
      obtain ⟨hescape, rfl⟩ := eq_singleton_of_readChar hread hmem hc
      have hreplace : replaceChar d text [d] = text := by simp [replaceChar]
      rw [hescape, hreplace, htext]
    · rw [replaceChar_of_not_mem hmem]
      exact e.reads d rest

variable {e : Escaping} {hc : isEscapeChar c = false}
  {htext : ∀ rest, readChar (text ++ rest) = some (c, rest)} (houter : isSyntax c = false)

include houter in
theorem ne_of_isSyntax {d : Char} (hd : isSyntax d = true) : d ≠ c := by
  rintro rfl
  rw [houter] at hd
  cases hd

variable (e hc htext) in
include houter in
theorem replace_quoted (s : List Char) :
    replaceChar c text (quoted e s) = quoted (e.replace hc htext) s := by
  have hquote : '"' ≠ c := ne_of_isSyntax houter (by decide)
  have hbody : replaceChar c text (s.flatMap e.escape) =
      s.flatMap (e.replace hc htext).escape := by
    rw [replaceChar, List.flatMap_assoc]
    rfl
  rw [quoted, quoted, List.cons_append, replaceChar_cons_of_ne hquote, replaceChar_append, hbody,
    replaceChar_cons_of_ne hquote]
  rfl

include houter in
theorem replaceChar_of_isSyntax {cs : List Char} (h : cs.all isSyntax = true) :
    replaceChar c text cs = cs :=
  replaceChar_of_not_mem fun hmem => ne_of_isSyntax houter (List.all_eq_true.mp h c hmem) rfl

variable (e hc htext) in
include houter in
mutual

/-- Outside of the strings there is nothing to replace. -/
theorem replace_write : ∀ v : Json,
    replaceChar c text (write e v) = write (e.replace hc htext) v
  | .null => replaceChar_of_isSyntax houter (by rw [write]; decide)
  | .bool true => replaceChar_of_isSyntax houter (by rw [write]; decide)
  | .bool false => replaceChar_of_isSyntax houter (by rw [write]; decide)
  | .number l => replaceChar_of_isSyntax houter <| List.all_eq_true.mpr fun d hd => by
      rw [isSyntax, l.lexical d hd, Bool.true_or]
  | .string s => replace_quoted e hc htext houter s
  | .array [] => replaceChar_of_isSyntax houter (by rw [write]; decide)
  | .array (v :: items) => by
    have hopen : '[' ≠ c := ne_of_isSyntax houter (by decide)
    rw [write, write, List.cons_append, replaceChar_cons_of_ne hopen, replaceChar_append,
      replace_write v, replace_closeItems items]
    rfl
  | .object [] => replaceChar_of_isSyntax houter (by rw [write]; decide)
  | .object ((name, v) :: fields) => by
    have hopen : '{' ≠ c := ne_of_isSyntax houter (by decide)
    have hcolon : ':' ≠ c := ne_of_isSyntax houter (by decide)
    simp only [write, List.cons_append, replaceChar_cons_of_ne hopen,
      replaceChar_cons_of_ne hcolon, replaceChar_append, replace_quoted e hc htext houter,
      replace_write v, replace_closeFields fields]

theorem replace_closeItems : ∀ items : List Json,
    replaceChar c text (closeItems e items) = closeItems (e.replace hc htext) items
  | [] => replaceChar_of_isSyntax houter (by rw [closeItems]; decide)
  | v :: items => by
    have hcomma : ',' ≠ c := ne_of_isSyntax houter (by decide)
    simp only [closeItems, List.cons_append, replaceChar_cons_of_ne hcomma, replaceChar_append,
      replace_write v, replace_closeItems items]

theorem replace_closeFields : ∀ fields : List (List Char × Json),
    replaceChar c text (closeFields e fields) = closeFields (e.replace hc htext) fields
  | [] => replaceChar_of_isSyntax houter (by rw [closeFields]; decide)
  | (name, v) :: fields => by
    have hcomma : ',' ≠ c := ne_of_isSyntax houter (by decide)
    have hcolon : ':' ≠ c := ne_of_isSyntax houter (by decide)
    simp only [closeFields, List.cons_append, replaceChar_cons_of_ne hcomma,
      replaceChar_cons_of_ne hcolon, replaceChar_append, replace_quoted e hc htext houter,
      replace_write v, replace_closeFields fields]

end

variable (e hc htext) in
include hc htext houter in
theorem parse_replaceChar (v : Json) : parse (replaceChar c text (write e v)) = some v := by
  rw [replace_write e hc htext houter, parse_write]

end Replace

end Json

end TinyShop.Base
