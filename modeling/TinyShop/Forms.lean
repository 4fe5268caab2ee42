import TinyShop.CategoryPage
import TinyShop.Numerals
import TinyShop.PriceTables

/-!
# Forms in a browser

The controls of a form, as a visitor finds and fills them, and what the browser sends for them.
The server reads from it the pairs that the form held.
-/

namespace TinyShop

open Base UrlEncoded
set_option autoImplicit false

/-! ## What is sent -/

/-- Every line break becomes a carriage return and a line feed. -/
def normalizeNewlines : List Char → List Char
  | '\r' :: '\n' :: cs => '\r' :: '\n' :: normalizeNewlines cs
  | '\r' :: cs => '\r' :: '\n' :: normalizeNewlines cs
  | '\n' :: cs => '\r' :: '\n' :: normalizeNewlines cs
  | c :: cs => c :: normalizeNewlines cs
  | [] => []

/-- What the serializer of forms leaves as it is; a space becomes `+` in the end. -/
def formSet : KeepSet where
  keeps b := (0x30 ≤ b && b ≤ 0x39) || (0x41 ≤ b && b ≤ 0x5A) || (0x61 ≤ b && b ≤ 0x7A) ||
    b ∈ ['*', '-', '.', '_', ' '].map Char.toNat
  ascii {b} h := by
    have hchars : ∀ b ∈ ['*', '-', '.', '_', ' '].map Char.toNat, b < 0x80 := by decide
    simp only [Bool.or_eq_true, Bool.and_eq_true, decide_eq_true_eq] at h
    rcases h with ((h | h) | h) | h
    · omega
    · omega
    · omega
    · exact hchars b h
  plain := by decide +kernel

/-- The pairs in the form encoding. -/
def formData (pairs : List (String × String)) : String :=
  String.ofList (Utf8.ascii (spaceToPlus ((pairs.map fun pair =>
    (normalizeNewlines pair.1.toList, normalizeNewlines pair.2.toList)).foldl (append formSet) [])))

/-- A text without line breaks. -/
def OneLine (s : String) : Prop := '\r' ∉ s.toList ∧ '\n' ∉ s.toList

instance (s : String) : Decidable (OneLine s) := inferInstanceAs (Decidable (_ ∧ _))

theorem normalizeNewlines_of_oneLine {cs : List Char} (hr : '\r' ∉ cs) (hn : '\n' ∉ cs) :
    normalizeNewlines cs = cs := by
  induction cs with
  | nil => rfl
  | cons c cs ih =>
    rw [List.mem_cons, not_or] at hr hn
    unfold normalizeNewlines
    split
    · rename_i heq
      exact absurd (List.cons.inj heq).1.symm hr.1
    · rename_i heq
      exact absurd (List.cons.inj heq).1.symm hr.1
    · rename_i heq
      exact absurd (List.cons.inj heq).1.symm hn.1
    · rename_i heq
      obtain ⟨rfl, rfl⟩ := List.cons.inj heq
      rw [ih hr.2 hn.2]
    · rename_i heq
      cases heq

/-- A byte of the form encoding. -/
def IsFormByte (b : UInt8) : Prop :=
  formSet.keeps b.toNat = true ∨ b ∈ [percent, ampersand, plus, equals] ∨ ∃ n < 16, b = hexDigit n

theorem isFormByte_encodeComponent {cs : List Char} {b : UInt8}
    (hb : b ∈ encodeComponent formSet cs) : IsFormByte b := by
  rcases mem_percentEncode hb with hkeep | rfl | hdigit
  · exact .inl hkeep
  · exact .inr (.inl (by decide))
  · exact .inr (.inr hdigit)

theorem isFormByte_append {out : List UInt8} {pair : List Char × List Char}
    (hout : ∀ b ∈ out, IsFormByte b) : ∀ b ∈ append formSet out pair, IsFormByte b := by
  intro b hb
  rw [append, encodePart, List.mem_append, List.mem_append, List.mem_cons] at hb
  rcases hb with hb | hb | rfl | hb
  · split at hb
    · cases hb
    · rcases List.mem_append.mp hb with hb | hb
      · exact hout b hb
      · rw [List.mem_singleton.mp hb]
        exact .inr (.inl (by decide))
  · exact isFormByte_encodeComponent hb
  · exact .inr (.inl (by decide))
  · exact isFormByte_encodeComponent hb

theorem isFormByte_foldl (pairs : List (List Char × List Char)) {out : List UInt8}
    (hout : ∀ b ∈ out, IsFormByte b) :
    ∀ b ∈ pairs.foldl (append formSet) out, IsFormByte b := by
  induction pairs generalizing out with
  | nil => exact hout
  | cons pair pairs ih => exact ih (isFormByte_append hout)

theorem isFormByte_spaceToPlus {bs : List UInt8} (hbs : ∀ b ∈ bs, IsFormByte b) :
    ∀ b ∈ spaceToPlus bs, IsFormByte b := by
  intro b hb
  obtain ⟨a, ha, rfl⟩ := List.mem_map.mp hb
  split
  · exact .inr (.inl (by decide))
  · exact hbs a ha

theorem ascii_of_isFormByte {b : UInt8} (h : IsFormByte b) : b.toNat < 0x80 ∧ b ≠ 0x23 := by
  have hplain : ∀ b ∈ [percent, ampersand, plus, equals], b.toNat < 0x80 ∧ b ≠ 0x23 := by
    simp [percent, ampersand, plus, equals]
  have hdigit : ∀ n < 16, (hexDigit n).toNat < 0x80 ∧ hexDigit n ≠ 0x23 := by decide
  rcases h with hkeep | hmem | ⟨n, hn, rfl⟩
  · refine ⟨formSet.ascii hkeep, ?_⟩
    rintro rfl
    exact absurd hkeep (by decide +kernel)
  · exact hplain b hmem
  · exact hdigit n hn

section Sent
variable {pairs : List (String × String)}

theorem isFormByte_formData (pairs : List (String × String)) :
    ∀ b ∈ spaceToPlus ((pairs.map fun pair =>
      (normalizeNewlines pair.1.toList, normalizeNewlines pair.2.toList)).foldl (append formSet) []),
        IsFormByte b :=
  isFormByte_spaceToPlus (isFormByte_foldl _ (List.forall_mem_nil _))

/-- The server reads what the form held. -/
theorem parseQuery_formData (h : ∀ pair ∈ pairs, OneLine pair.1 ∧ OneLine pair.2) :
    CategoryPage.parseQuery (formData pairs) = pairs := by
  have hlines : (pairs.map fun pair => (normalizeNewlines pair.1.toList,
      normalizeNewlines pair.2.toList)) = pairs.map CategoryPage.chars := by
    refine List.map_congr_left fun pair hpair => ?_
    obtain ⟨⟨hr, hn⟩, hr', hn'⟩ := h pair hpair
    rw [normalizeNewlines_of_oneLine hr hn, normalizeNewlines_of_oneLine hr' hn']
    rfl
  have hascii := isFormByte_formData pairs
  rw [hlines] at hascii
  rw [CategoryPage.parseQuery, formData, hlines, String.toList_ofList,
    Utf8.encode_ascii fun b hb => (ascii_of_isFormByte (hascii b hb)).1, parse_spaceToPlus,
    parse_foldl_append]
  simp [UrlEncoded.parse, CategoryPage.chars, Function.comp_def, String.ofList_toList]

theorem hash_not_mem_formData (pairs : List (String × String)) : '#' ∉ (formData pairs).toList := by
  rw [formData, String.toList_ofList, Utf8.ascii]
  intro hmem
  obtain ⟨b, hb, heq⟩ := List.mem_map.mp hmem
  obtain ⟨hlt, hne⟩ := ascii_of_isFormByte (isFormByte_formData pairs b hb)
  have hnat := congrArg Char.toNat heq
  rw [Utf8.toNat_ofNat_ascii hlt] at hnat
  exact hne (UInt8.toNat_inj.mp hnat)

end Sent

/-! ## Controls -/

/-- A control of a form and what it holds. -/
inductive Field where
  | hidden (name value : String)
  | checkbox (name value : String) (checked : Bool)
  | number (name typed : String)
deriving DecidableEq

namespace Field

/-- What a field for numbers keeps of its value. -/
def sanitized (value : String) : String := if F64.isNumber value.toList then value else ""

/-- The kinds that the forms for filters and for the cart are made of. -/
def ofInput (input : Markup) : Option Field := do
  let type ← input.attr "type"
  let name ← input.attr "name"
  let value := input.attr "value"
  if type = "hidden" then some (.hidden name (value.getD ""))
  else if type = "checkbox" then
    some (.checkbox name (value.getD "on") (input.attr "checked").isSome)
  else if type = "number" then some (.number name (sanitized (value.getD "")))
  else none

/-- What a control adds to the request. -/
def entry : Field → Option (String × String)
  | hidden name value => some (name, value)
  | checkbox name value checked => if checked then some (name, value) else none
  | number name typed => some (name, typed)

end Field

def fields (markup : Markup) : List Field := (markup.select "input").filterMap Field.ofInput

def entries (fs : List Field) : List (String × String) := fs.filterMap Field.entry

/-- Where a form leads that is sent with `GET`; its action has no query of its own. -/
def formUrl (form : Markup) (fs : List Field) : String :=
  (form.attr "action").getD "" ++ "?" ++ formData (entries fs)

/-- What a visitor makes of a form: which boxes are checked and what stands in the fields for
numbers, where a browser keeps nothing else. -/
structure Choice where
  checked : String → String → Bool
  typed : String → String
  number : ∀ name, typed name = "" ∨ F64.isNumber (typed name).toList = true

/-- The control as the visitor leaves it. -/
def Field.fill (c : Choice) : Field → Field
  | hidden name value => .hidden name value
  | checkbox name value _ => .checkbox name value (c.checked name value)
  | number name _ => .number name (c.typed name)

theorem Field.sanitized_typed (c : Choice) (name : String) :
    sanitized (c.typed name) = c.typed name := by
  unfold sanitized
  split
  · rfl
  · rename_i hno
    exact ((c.number name).resolve_right hno).symm

theorem oneLine_of_isNumber {s : String} (h : F64.isNumber s.toList = true) : OneLine s := by
  have hblank : ∀ c ∈ s.toList, Text.isWhitespace c = false :=
    fun c hc => F64.not_isWhitespace_of_isNumeric (F64.isNumeric_of_isNumber h c hc)
  constructor
  · intro hmem
    exact absurd (hblank _ hmem) (by decide)
  · intro hmem
    exact absurd (hblank _ hmem) (by decide)

theorem Choice.oneLine (c : Choice) (name : String) : OneLine (c.typed name) := by
  rcases c.number name with hempty | hnumber
  · rw [hempty]
    decide
  · exact oneLine_of_isNumber hnumber

end TinyShop
