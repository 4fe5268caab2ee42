import Mathlib
import TinyShop.Base.Json

/-!
# XML as text

Elements with their attributes and texts, a reader of the documents that declare no document
type, and a compact writer. A writer may choose how it escapes the characters of a text;
whatever it chooses, a reader gets the tree back.
-/

namespace TinyShop.Base

set_option autoImplicit false

namespace Xml

open Json (isSpace skipSpace token hexValue)

/-- The characters that a document may hold. -/
def isChar (c : Char) : Bool :=
  c ∈ ['\t', '\n', '\r'] || 0x20 ≤ c.toNat && c.toNat ≤ 0xFFFD || 0x10000 ≤ c.toNat

/-- A reader sees the character as it stands; a carriage return it takes for the end of a
line. -/
def isStable (c : Char) : Bool := isChar c && c ≠ '\r'

def inRanges (ranges : List (Nat × Nat)) (c : Char) : Bool :=
  ranges.any fun (first, last) => first ≤ c.toNat && c.toNat ≤ last

def isNameStart (c : Char) : Bool :=
  c.isAlpha || c ∈ [':', '_'] || inRanges [(0xC0, 0xD6), (0xD8, 0xF6), (0xF8, 0x2FF),
    (0x370, 0x37D), (0x37F, 0x1FFF), (0x200C, 0x200D), (0x2070, 0x218F), (0x2C00, 0x2FEF),
    (0x3001, 0xD7FF), (0xF900, 0xFDCF), (0xFDF0, 0xFFFD), (0x10000, 0xEFFFF)] c

def isNameChar (c : Char) : Bool :=
  isNameStart c || c.isDigit || c ∈ ['-', '.'] ||
    inRanges [(0xB7, 0xB7), (0x300, 0x36F), (0x203F, 0x2040)] c

def isName : List Char → Bool
  | [] => false
  | c :: cs => isNameStart c && cs.all isNameChar

structure Name where
  chars : List Char
  valid : isName chars = true
deriving DecidableEq

structure Attribute where
  name : Name
  value : List Char

/-- No attribute is given twice. -/
structure Tag where
  name : Name
  attributes : List Attribute
  distinct : (attributes.map Attribute.name).Nodup

end Xml

/-- The text in front of the children, and each child with the text behind it. -/
inductive Xml where
  | element (tag : Xml.Tag) (text : List Char) (children : List (Xml × List Char))

namespace Xml

open Json (isSpace skipSpace token hexValue)

def tag : Xml → Tag
  | element tag _ _ => tag

def children : Xml → List Xml
  | element _ _ children => children.map Prod.fst

mutual

/-- The text of the whole element. -/
def innerText : Xml → List Char
  | element _ text children => text ++ childrenText children

def childrenText : List (Xml × List Char) → List Char
  | [] => []
  | (child, tail) :: children => innerText child ++ tail ++ childrenText children

end

/-! ## Reading -/

/-- A line ends with one line feed, however the text has it. -/
def normalizeNewlines : List Char → List Char
  | [] => []
  | '\r' :: '\n' :: cs => '\n' :: normalizeNewlines cs
  | c :: cs => (if c = '\r' then '\n' else c) :: normalizeNewlines cs

def number (base : Nat) (digits : List Char) : Option Nat :=
  if digits = [] then none
  else digits.foldlM (fun n c =>
    (hexValue c).bind fun d => if d < base then some (n * base + d) else none) 0

/-- The character that stands between `&` and `;`. -/
def reference : List Char → Option Char
  | '#' :: 'x' :: digits => character (number 16 digits)
  | '#' :: digits => character (number 10 digits)
  | name => [("amp".toList, '&'), ("lt".toList, '<'), ("gt".toList, '>'), ("quot".toList, '"'),
      ("apos".toList, '\'')].lookup name
where
  character (n : Option Nat) : Option Char :=
    n.bind fun n => if n.isValidChar ∧ isChar (Char.ofNat n) then some (Char.ofNat n) else none

/-- The name of a reference is collected up to its semicolon. -/
def decodeFrom : Option (List Char) → List Char → Option (List Char)
  | none, [] => some []
  | some _, [] => none
  | none, c :: cs =>
    if c = '&' then decodeFrom (some []) cs else (decodeFrom none cs).map fun s => c :: s
  | some name, c :: cs =>
    if c = ';' then (reference name).bind fun d => (decodeFrom none cs).map fun s => d :: s
    else decodeFrom (some (name ++ [c])) cs

def decode (cs : List Char) : Option (List Char) := decodeFrom none cs

def expect (mark cs : List Char) : Option (List Char) :=
  if mark <+: cs then some (cs.drop mark.length) else none

/-- The text in front of a mark and the text behind it. -/
def upTo (mark : List Char) : List Char → Option (List Char × List Char)
  | [] => none
  | c :: cs =>
    match expect mark (c :: cs) with
    | some rest => some ([], rest)
    | none => (upTo mark cs).map fun (s, rest) => (c :: s, rest)

def readName (cs : List Char) : Option (Name × List Char) :=
  if valid : isName (cs.takeWhile isNameChar) = true then
    some (⟨cs.takeWhile isNameChar, valid⟩, cs.dropWhile isNameChar)
  else none

/-- A value stands between two quotes or two apostrophes; each space in it becomes a blank,
unless a reference stands for it. -/
def readValue : List Char → Option (List Char × List Char)
  | [] => none
  | quote :: cs =>
    if quote = '"' ∨ quote = '\'' then
      (upTo [quote] cs).bind fun (raw, rest) =>
        if '<' ∈ raw then none
        else (decode (raw.map fun c => if isSpace c then ' ' else c)).map fun value => (value, rest)
    else none

/-- The attributes of a tag, and the end of the tag. -/
def readAttributes : Nat → List Char → Option (List Attribute × List Char)
  | 0, _ => none
  | n + 1, cs =>
    match readName (skipSpace cs) with
    | none => some ([], skipSpace cs)
    | some (name, rest) =>
      if cs.head?.any isSpace then
        (token '=' rest).bind fun rest => (readValue (skipSpace rest)).bind fun (value, rest) =>
          (readAttributes n rest).map fun (attributes, rest) => (⟨name, value⟩ :: attributes, rest)
      else none

def readTag (n : Nat) (cs : List Char) : Option (Tag × List Char) :=
  (expect ['<'] cs).bind fun cs => (readName cs).bind fun (name, cs) =>
    (readAttributes n cs).bind fun (attributes, cs) =>
      if distinct : (attributes.map Attribute.name).Nodup then
        some (⟨name, attributes, distinct⟩, cs)
      else none

def readEnd (name : Name) (cs : List Char) : Option (List Char) :=
  (expect ('<' :: '/' :: name.chars) cs).bind (token '>')

/-- A comment or an instruction is no part of the tree. -/
def isSkipped (cs : List Char) : Bool :=
  ['<', '!', '-', '-'].isPrefixOf cs || ['<', '?'].isPrefixOf cs

def skip (cs : List Char) : Option (List Char) :=
  match expect ['<', '!', '-', '-'] cs with
  | some cs => (upTo ['-', '-'] cs).bind fun (_, rest) => expect ['>'] rest
  | none => (expect ['<', '?'] cs).bind fun cs => (readName cs).bind fun (target, cs) =>
    if target.chars.map Char.toLower = ['x', 'm', 'l'] then none
    else if cs.head?.any isSpace ∨ ['?', '>'] <+: cs then (upTo ['?', '>'] cs).map Prod.snd
    else none

/-- Text up to the next tag. -/
def readText : Nat → List Char → Option (List Char × List Char)
  | 0, _ => none
  | n + 1, cs =>
    let raw := cs.takeWhile (· ≠ '<')
    let rest := cs.dropWhile (· ≠ '<')
    if [']', ']', '>'] <:+: raw then none
    else (decode raw).bind fun s =>
      if isSkipped rest then
        (skip rest).bind fun rest => (readText n rest).map fun (t, rest) => (s ++ t, rest)
      else match expect "<![CDATA[".toList rest with
        | some rest => (upTo [']', ']', '>'] rest).bind fun (data, rest) =>
          (readText n rest).map fun (t, rest) => (s ++ data ++ t, rest)
        | none => some (s, rest)

mutual

/-- The elements up to the end of their parent. -/
def readChildren : Nat → List Char → Option (List (Xml × List Char) × List Char)
  | 0, _ => none
  | n + 1, cs =>
    if ['<', '/'] <+: cs then some ([], cs)
    else (readElement n cs).bind fun (child, cs) => (readText n cs).bind fun (tail, cs) =>
      (readChildren n cs).map fun (children, cs) => ((child, tail) :: children, cs)

def readElement : Nat → List Char → Option (Xml × List Char)
  | 0, _ => none
  | n + 1, cs => (readTag n cs).bind fun (tag, cs) =>
    match expect ['/', '>'] cs with
    | some cs => some (element tag [] [], cs)
    | none => (expect ['>'] cs).bind fun cs => (readText n cs).bind fun (text, cs) =>
      (readChildren n cs).bind fun (children, cs) =>
        (readEnd tag.name cs).map fun cs => (element tag text children, cs)

end

/-- The version comes first, and of the other two each at its place. -/
def isDeclaration (attributes : List Attribute) : Bool :=
  attributes.head?.any (fun a => a.name.chars = "version".toList && ['1', '.'].isPrefixOf a.value &&
      Json.isDigits (a.value.drop 2)) &&
    (attributes.map fun a => a.name.chars).isSublist
      ["version".toList, "encoding".toList, "standalone".toList]

def readDeclaration (cs : List Char) : Option (List Char) :=
  match expect ['<', '?', 'x', 'm', 'l'] cs with
  | none => some cs
  | some rest =>
    if rest.head?.any isSpace then
      (readAttributes rest.length rest).bind fun (attributes, rest) =>
        if isDeclaration attributes then expect ['?', '>'] rest else none
    else some cs

/-- What stands outside of the root. -/
def skipMisc : Nat → List Char → Option (List Char)
  | 0, _ => none
  | n + 1, cs =>
    if isSkipped (skipSpace cs) then (skip (skipSpace cs)).bind (skipMisc n)
    else some (skipSpace cs)

def readDocument (cs : List Char) : Option Xml :=
  (readDeclaration cs).bind fun cs => (skipMisc (cs.length + 1) cs).bind fun cs =>
    (readElement cs.length cs).bind fun (root, cs) =>
      (skipMisc (cs.length + 1) cs).bind fun rest => if rest = [] then some root else none

def parse (cs : List Char) : Option Xml :=
  if (normalizeNewlines cs).all isChar then readDocument (normalizeNewlines cs) else none

/-! ## Writing -/

/-- How the characters of a text are written. -/
structure Escaping where
  escape : Char → List Char
  decodes : ∀ c rest, decode (escape c ++ rest) = (decode rest).map fun s => c :: s
  unmarked : ∀ c, ∀ d ∈ escape c, d ≠ '<' ∧ d ≠ '>'

/-- How the characters of a value are written. -/
def escapeValue (c : Char) : List Char :=
  if c = '&' then "&amp;".toList
  else if c = '<' then "&lt;".toList
  else if c = '"' then "&quot;".toList
  else if c = '\t' then "&#9;".toList
  else if c = '\n' then "&#10;".toList
  else if c = '\r' then "&#13;".toList
  else [c]

def writeAttributes : List Attribute → List Char
  | [] => []
  | a :: attributes =>
    ' ' :: a.name.chars ++ '=' :: '"' :: a.value.flatMap escapeValue ++
      '"' :: writeAttributes attributes

section Write
variable (e : Escaping)

mutual

def write : Xml → List Char
  | element tag text children =>
    '<' :: tag.name.chars ++ writeAttributes tag.attributes ++ '>' :: text.flatMap e.escape ++
      writeChildren children ++ '<' :: '/' :: tag.name.chars ++ ['>']

def writeChildren : List (Xml × List Char) → List Char
  | [] => []
  | (child, tail) :: children => write child ++ tail.flatMap e.escape ++ writeChildren children

end

end Write

/-- The root on its own lines. -/
def document (e : Escaping) (declared : List Attribute) (root : Xml) : List Char :=
  ['<', '?', 'x', 'm', 'l'] ++ writeAttributes declared ++ '?' :: '>' :: '\n' :: write e root ++
    ['\n']

/-! ## A reader gets the tree back -/

section Decoding

theorem decode_cons {c : Char} (hc : c ≠ '&') (cs : List Char) :
    decode (c :: cs) = (decode cs).map fun s => c :: s := by
  rw [decode, decodeFrom, if_neg hc]
  rfl

theorem decode_flatMap {escape : Char → List Char}
    (h : ∀ c rest, decode (escape c ++ rest) = (decode rest).map fun s => c :: s)
    (s : List Char) : decode (s.flatMap escape) = some s := by
  induction s with
  | nil => rfl
  | cons c s ih =>
    rw [List.flatMap_cons, h, ih]
    rfl

/-- The blanks that a reader sees in a value are the blanks of the value. -/
theorem decode_escapeValue (c : Char) (rest : List Char) :
    decode ((escapeValue c).map (fun c => if isSpace c then ' ' else c) ++ rest) =
      (decode rest).map fun s => c :: s := by
  unfold escapeValue
  split_ifs with hand hless hquote htab hfeed hreturn
  · subst hand
    rfl
  · subst hless
    rfl
  · subst hquote
    rfl
  · subst htab
    rfl
  · subst hfeed
    rfl
  · subst hreturn
    rfl
  · have hblank : (if isSpace c then ' ' else c) = c := by
      split
      · rename_i hspace
        simp only [isSpace, List.mem_cons, List.not_mem_nil, or_false, decide_eq_true_eq, htab,
          hfeed, hreturn] at hspace
        exact hspace.symm
      · rfl
    rw [List.map_singleton, hblank, List.singleton_append]
    exact decode_cons hand rest

theorem unmarked_escapeValue (c : Char) : ∀ d ∈ escapeValue c, d ≠ '"' ∧ d ≠ '<' := by
  unfold escapeValue
  split_ifs with hand hless hquote
  iterate 6 simp
  · intro d hd
    obtain rfl := List.mem_singleton.mp hd
    exact ⟨hquote, hless⟩

end Decoding

section Reading

theorem expect_append (mark rest : List Char) : expect mark (mark ++ rest) = some rest := by
  rw [expect, if_pos (List.prefix_append mark rest), List.drop_left]

theorem expect_of_ne {c d : Char} (h : c ≠ d) (mark cs : List Char) :
    expect (c :: mark) (d :: cs) = none := by
  refine if_neg fun hprefix => ?_
  exact h (List.cons_prefix_cons.mp hprefix).1

theorem upTo_singleton {mark : Char} {s : List Char} (hs : ∀ c ∈ s, c ≠ mark) (rest : List Char) :
    upTo [mark] (s ++ mark :: rest) = some (s, rest) := by
  induction s with
  | nil =>
    have hexpect : expect [mark] (mark :: rest) = some rest := expect_append [mark] rest
    rw [List.nil_append, upTo, hexpect]
  | cons c s ih =>
    obtain ⟨hc, hs⟩ := List.forall_mem_cons.mp hs
    rw [List.cons_append, upTo, expect_of_ne hc.symm, ih hs]
    rfl

theorem Name.exists_cons (name : Name) : ∃ c cs, name.chars = c :: cs ∧ isNameStart c = true ∧
    ∀ d ∈ name.chars, isNameChar d = true := by
  have hvalid := name.valid
  cases hchars : name.chars with
  | nil =>
    rw [hchars] at hvalid
    cases hvalid
  | cons c cs =>
    rw [hchars, isName, Bool.and_eq_true, List.all_eq_true] at hvalid
    refine ⟨c, cs, rfl, hvalid.1, List.forall_mem_cons.mpr ⟨?_, hvalid.2⟩⟩
    rw [isNameChar, hvalid.1]
    rfl

/-- What comes next is no part of a name. -/
def Bounded (rest : List Char) : Prop := ∀ c ∈ rest.head?, isNameChar c = false

theorem bounded_cons {c : Char} (hc : isNameChar c = false) (cs : List Char) :
    Bounded (c :: cs) :=
  Json.stops_cons hc cs

theorem readName_append (name : Name) {rest : List Char} (hrest : Bounded rest) :
    readName (name.chars ++ rest) = some (name, rest) := by
  obtain ⟨_, _, -, -, hall⟩ := name.exists_cons
  obtain ⟨htake, hdrop⟩ := Json.span_append hall hrest
  unfold readName
  simp only [htake, hdrop, name.valid, dif_pos]

theorem readName_of_not {c : Char} (hc : isNameStart c = false) (cs : List Char) :
    readName (c :: cs) = none := by
  refine dif_neg fun hvalid => ?_
  by_cases hname : isNameChar c = true
  · rw [List.takeWhile_cons_of_pos hname, isName, hc] at hvalid
    cases hvalid
  · rw [List.takeWhile_cons_of_neg hname] at hvalid
    cases hvalid

theorem readValue_quoted (value rest : List Char) :
    readValue ('"' :: (value.flatMap escapeValue ++ '"' :: rest)) = some (value, rest) := by
  have hunmarked : ∀ d ∈ value.flatMap escapeValue, d ≠ '"' ∧ d ≠ '<' := by
    intro d hd
    obtain ⟨c, -, hc⟩ := List.mem_flatMap.mp hd
    exact unmarked_escapeValue c d hc
  have hless : '<' ∉ value.flatMap escapeValue := fun hmem => (hunmarked _ hmem).2 rfl
  rw [readValue, if_pos (Or.inl rfl), upTo_singleton (fun d hd => (hunmarked d hd).1),
    Option.bind_some]
  simp only
  rw [if_neg hless, List.map_flatMap, decode_flatMap decode_escapeValue]
  rfl

theorem ne_of_isNameStart {c d : Char} (hc : isNameStart c = true) (hd : isNameStart d = false) :
    c ≠ d := by
  rintro rfl
  rw [hc] at hd
  cases hd

theorem not_space_of_isNameStart {c : Char} (hc : isNameStart c = true) : isSpace c = false := by
  by_contra hspace
  simp only [Bool.not_eq_false, isSpace, decide_eq_true_eq, List.mem_cons, List.not_mem_nil,
    or_false] at hspace
  rcases hspace with rfl | rfl | rfl | rfl <;> exact absurd hc (by decide)

theorem readAttributes_write (attributes : List Attribute) {n : Nat} (hn : attributes.length < n)
    {c : Char} (hspace : isSpace c = false) (hname : isNameStart c = false) (rest : List Char) :
    readAttributes n (writeAttributes attributes ++ c :: rest) = some (attributes, c :: rest) := by
  induction attributes generalizing n with
  | nil =>
    obtain ⟨n, rfl⟩ := Nat.exists_eq_add_of_le' (Nat.le_trans (by decide) hn : 1 ≤ n)
    rw [writeAttributes, List.nil_append, readAttributes, Json.skipSpace_cons hspace,
      readName_of_not hname]
  | cons a attributes ih =>
    rw [List.length_cons] at hn
    obtain ⟨n, rfl⟩ := Nat.exists_eq_add_of_le' (Nat.le_trans (by omega) hn : 1 ≤ n)
    obtain ⟨d, ds, hchars, hstart, -⟩ := a.name.exists_cons
    -- only the blank in front of the name is skipped
    have hskip : ∀ more, skipSpace (' ' :: (a.name.chars ++ more)) = a.name.chars ++ more := by
      intro more
      have hblank : skipSpace (' ' :: (a.name.chars ++ more)) =
          skipSpace (a.name.chars ++ more) := List.dropWhile_cons_of_pos (by decide)
      rw [hblank, hchars, List.cons_append, Json.skipSpace_cons (not_space_of_isNameStart hstart)]
    simp only [writeAttributes, List.append_assoc, List.cons_append]
    rw [readAttributes, hskip, readName_append a.name (bounded_cons (by decide) _)]
    simp only [List.head?_cons, Option.any_some]
    rw [if_pos (by decide), Json.token_cons (by decide), Option.bind_some,
      Json.skipSpace_cons (by decide), readValue_quoted, Option.bind_some]
    simp only
    rw [ih (by omega)]
    rfl

theorem readTag_write (tag : Tag) {n : Nat} (hn : tag.attributes.length < n) (rest : List Char) :
    readTag n ('<' :: (tag.name.chars ++ (writeAttributes tag.attributes ++ '>' :: rest))) =
      some (tag, '>' :: rest) := by
  have hbounded : Bounded (writeAttributes tag.attributes ++ '>' :: rest) := by
    cases tag.attributes with
    | nil => exact bounded_cons (by decide) _
    | cons a attributes => exact bounded_cons (by decide) _
  have hexpect : ∀ cs, expect ['<'] ('<' :: cs) = some cs := expect_append ['<']
  rw [readTag, hexpect, Option.bind_some, readName_append tag.name hbounded, Option.bind_some]
  simp only
  rw [readAttributes_write tag.attributes hn (by decide) (by decide), Option.bind_some]
  exact dif_pos tag.distinct

theorem readEnd_write (name : Name) (rest : List Char) :
    readEnd name ('<' :: '/' :: (name.chars ++ '>' :: rest)) = some rest := by
  have hexpect : expect ('<' :: '/' :: name.chars) ('<' :: '/' :: (name.chars ++ '>' :: rest)) =
      some ('>' :: rest) := expect_append ('<' :: '/' :: name.chars) ('>' :: rest)
  rw [readEnd, hexpect, Option.bind_some, Json.token_cons (by decide)]

/-- A tag comes next, and no section of another kind. -/
def Tagged (rest : List Char) : Prop := ∃ c cs, rest = '<' :: c :: cs ∧ c ≠ '!' ∧ c ≠ '?'

theorem isSkipped_of_tagged {rest : List Char} (hrest : Tagged rest) : isSkipped rest = false := by
  obtain ⟨c, cs, rfl, hbang, hquestion⟩ := hrest
  simp [isSkipped, List.isPrefixOf, hbang.symm, hquestion.symm]

variable {e : Escaping}

theorem readText_escaped (s : List Char) {n : Nat} (hn : 0 < n) {rest : List Char}
    (hrest : Tagged rest) : readText n (s.flatMap e.escape ++ rest) = some (s, rest) := by
  obtain ⟨n, rfl⟩ := Nat.exists_eq_add_of_le' (Nat.succ_le_of_lt hn)
  have hunmarked : ∀ d ∈ s.flatMap e.escape, d ≠ '<' ∧ d ≠ '>' := by
    intro d hd
    obtain ⟨c, -, hc⟩ := List.mem_flatMap.mp hd
    exact e.unmarked c d hc
  have hless : ∀ d ∈ s.flatMap e.escape, decide (d ≠ '<') = true := fun d hd =>
    decide_eq_true (hunmarked d hd).1
  have hsection : ¬ [']', ']', '>'] <:+: s.flatMap e.escape := fun hmark =>
    (hunmarked '>' (hmark.subset (by decide))).2 rfl
  have hskipped := isSkipped_of_tagged hrest
  obtain ⟨c, cs, rfl, hbang, -⟩ := hrest
  have hstop : ∀ d ∈ ('<' :: c :: cs).head?, decide (d ≠ '<') = false :=
    Json.stops_cons (p := fun d => decide (d ≠ '<')) rfl (c :: cs)
  obtain ⟨htake, hdrop⟩ := Json.span_append hless hstop
  have hdata : expect "<![CDATA[".toList ('<' :: c :: cs) = none := by
    refine if_neg fun hprefix => ?_
    exact hbang (List.cons_prefix_cons.mp (List.cons_prefix_cons.mp hprefix).2).1.symm
  rw [readText, htake, hdrop]
  simp only [if_neg hsection, decode_flatMap e.decodes, Option.bind_some, hskipped, hdata]
  rfl

/-- An element starts with the name of its tag. -/
theorem write_cons (x : Xml) : ∃ c cs, write e x = '<' :: c :: cs ∧ isNameStart c = true := by
  obtain ⟨tag, text, children⟩ := x
  obtain ⟨c, cs, hchars, hstart, -⟩ := tag.name.exists_cons
  rw [write, hchars]
  exact ⟨c, _, rfl, hstart⟩

theorem tagged_of_isNameStart {c : Char} (hc : isNameStart c = true) (cs : List Char) :
    Tagged ('<' :: c :: cs) :=
  ⟨c, cs, rfl, ne_of_isNameStart hc (by decide), ne_of_isNameStart hc (by decide)⟩

theorem tagged_write (x : Xml) (rest : List Char) : Tagged (write e x ++ rest) := by
  obtain ⟨c, cs, hwrite, hc⟩ := write_cons (e := e) x
  rw [hwrite]
  exact tagged_of_isNameStart hc _

theorem tagged_writeChildren (children : List (Xml × List Char)) (rest : List Char) :
    Tagged (writeChildren e children ++ '<' :: '/' :: rest) := by
  cases children with
  | nil => exact ⟨'/', rest, rfl, by decide⟩
  | cons child children =>
    rw [writeChildren, List.append_assoc, List.append_assoc]
    exact tagged_write child.1 _

/-- Whatever follows, a reader gets the element back. -/
def Reads (e : Escaping) (x : Xml) : Prop :=
  ∀ n rest, (write e x).length ≤ n → readElement n (write e x ++ rest) = some (x, rest)

theorem readChildren_write (children : List (Xml × List Char))
    (h : ∀ child ∈ children, Reads e child.1) (rest : List Char) :
    ∀ n, (writeChildren e children).length < n →
      readChildren n (writeChildren e children ++ '<' :: '/' :: rest) =
        some (children, '<' :: '/' :: rest) := by
  induction children with
  | nil =>
    intro n hn
    obtain ⟨n, rfl⟩ := Nat.exists_eq_add_of_le' (Nat.le_trans (by omega) hn : 1 ≤ n)
    rfl
  | cons child children ih =>
    intro n hn
    obtain ⟨child, tail⟩ := child
    have hchild : Reads e child := h _ List.mem_cons_self
    have hchildren := (List.forall_mem_cons.mp h).2
    obtain ⟨c, cs, hwrite, hc⟩ := write_cons (e := e) child
    have hpos : 0 < (write e child).length := by
      rw [hwrite]
      exact Nat.succ_pos _
    rw [writeChildren, List.length_append, List.length_append] at hn
    obtain ⟨n, rfl⟩ := Nat.exists_eq_add_of_le' (Nat.le_trans (by omega) hn : 1 ≤ n)
    -- the child is not taken for the end of its parent
    have hopen : ∀ more, ¬ ['<', '/'] <+: write e child ++ more := by
      intro more hprefix
      rw [hwrite] at hprefix
      have hslash := (List.cons_prefix_cons.mp (List.cons_prefix_cons.mp hprefix).2).1
      exact ne_of_isNameStart hc (by decide) hslash.symm
    simp only [writeChildren, List.append_assoc]
    rw [readChildren, if_neg (hopen _), hchild n _ (by omega), Option.bind_some]
    simp only
    rw [readText_escaped tail (by omega) (tagged_writeChildren children rest), Option.bind_some]
    simp only
    rw [ih hchildren n (by omega)]
    rfl

theorem length_attributes_le (attributes : List Attribute) :
    attributes.length ≤ (writeAttributes attributes).length := by
  induction attributes with
  | nil => exact Nat.le_refl 0
  | cons a attributes ih =>
    simp only [writeAttributes, List.length_append, List.length_cons]
    omega

theorem reads_element (tag : Tag) (text : List Char) {children : List (Xml × List Char)}
    (h : ∀ child ∈ children, Reads e child.1) : Reads e (element tag text children) := by
  intro n rest hn
  have hattributes := length_attributes_le tag.attributes
  rw [write] at hn
  simp only [List.length_append, List.length_cons] at hn
  obtain ⟨n, rfl⟩ := Nat.exists_eq_add_of_le' (Nat.le_trans (by omega) hn : 1 ≤ n)
  have hclose : ∀ cs, expect ['>'] ('>' :: cs) = some cs := expect_append ['>']
  simp only [write, List.append_assoc, List.cons_append, List.nil_append]
  rw [readElement, readTag_write tag (by omega), Option.bind_some]
  simp only
  rw [expect_of_ne (by decide)]
  simp only
  rw [hclose, Option.bind_some, readText_escaped text (by omega) (tagged_writeChildren children _),
    Option.bind_some]
  simp only
  rw [readChildren_write children h _ n (by omega), Option.bind_some]
  simp only
  rw [readEnd_write]
  rfl

variable (e) in
mutual

theorem reads_write : ∀ x : Xml, Reads e x
  | element tag text children => reads_element tag text (reads_children children)

theorem reads_children : ∀ children : List (Xml × List Char), ∀ child ∈ children, Reads e child.1
  | [] => List.forall_mem_nil _
  | (x, _) :: children => List.forall_mem_cons.mpr ⟨reads_write x, reads_children children⟩

end

/-! ### Documents -/

theorem normalizeNewlines_of_not_mem {cs : List Char} (h : '\r' ∉ cs) :
    normalizeNewlines cs = cs := by
  induction cs with
  | nil => rfl
  | cons c cs ih =>
    rw [List.mem_cons, not_or] at h
    have hreturn : c ≠ '\r' := Ne.symm h.1
    unfold normalizeNewlines
    split
    · cases ‹_ = ([] : List Char)›
    · rename_i heq
      exact absurd (List.cons.inj heq).1 hreturn
    · rename_i heq
      obtain ⟨rfl, rfl⟩ := List.cons.inj heq
      rw [if_neg hreturn, ih h.2]

theorem skipMisc_tagged (n : Nat) {cs : List Char} (h : Tagged (skipSpace cs)) :
    skipMisc (n + 1) cs = some (skipSpace cs) := by
  rw [skipMisc, isSkipped_of_tagged h]
  rfl

theorem readDeclaration_write {declared : List Attribute} (h : isDeclaration declared = true)
    (rest : List Char) : readDeclaration (['<', '?', 'x', 'm', 'l'] ++
      (writeAttributes declared ++ '?' :: '>' :: rest)) = some rest := by
  have hlength := length_attributes_le declared
  have hspace : (writeAttributes declared ++ '?' :: '>' :: rest).head?.any isSpace = true := by
    cases declared with
    | nil => cases h
    | cons a attributes => rfl
  have hclose : expect ['?', '>'] ('?' :: '>' :: rest) = some rest := expect_append ['?', '>'] rest
  rw [readDeclaration, expect_append]
  simp only
  rw [if_pos hspace, readAttributes_write _ _ (by decide) (by decide), Option.bind_some]
  · simp only
    rw [if_pos h, hclose]
  · simp only [List.length_append, List.length_cons]
    omega

/-- The document of a tree is read as the tree, as long as a reader sees its characters as
they stand. -/
theorem parse_document {declared : List Attribute} (hdeclared : isDeclaration declared = true)
    (root : Xml) (hchars : ∀ c ∈ document e declared root, isStable c = true) :
    parse (document e declared root) = some root := by
  simp only [isStable, Bool.and_eq_true, decide_eq_true_eq] at hchars
  have hnormal : normalizeNewlines (document e declared root) = document e declared root :=
    normalizeNewlines_of_not_mem fun hmem => (hchars _ hmem).2 rfl
  have hall : (document e declared root).all isChar = true :=
    List.all_eq_true.mpr fun c hc => (hchars c hc).1
  have hdocument : document e declared root = ['<', '?', 'x', 'm', 'l'] ++
      (writeAttributes declared ++ '?' :: '>' :: '\n' :: (write e root ++ ['\n'])) := by
    simp only [document, List.append_assoc, List.cons_append]
  have htagged := tagged_write (e := e) root ['\n']
  have hskip : skipSpace ('\n' :: (write e root ++ ['\n'])) = write e root ++ ['\n'] := by
    obtain ⟨c, cs, hwrite, -⟩ := htagged
    rw [hwrite]
    rfl
  have hread := reads_write e root (write e root ++ ['\n']).length ['\n'] (by simp)
  rw [parse, hnormal, if_pos hall, readDocument, hdocument, readDeclaration_write hdeclared,
    Option.bind_some, skipMisc_tagged _ (by rwa [hskip]), hskip, Option.bind_some, hread]
  rfl

end Reading

end Xml

end TinyShop.Base
