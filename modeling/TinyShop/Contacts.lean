import TinyShop.PriceTables

/-!
# The contact of a buyer

What `validate_contact` of `routes/checkout.rs` lets through, and what the form of the page
lets the browser send. Both limit the name by `MAX_NAME_LEN`, one in bytes and the other
in units of UTF-16.
-/

namespace TinyShop

set_option autoImplicit false

namespace CheckoutPage

open Markup

/-- The form that `contact_form` shows. -/
def contactForm (prefill : Option ContactForm) : Markup :=
  let email := (prefill.map ContactForm.email).getD ""
  let name := (prefill.bind ContactForm.name).getD ""
  element "form" [("method", "post"), ("action", "/checkout"), ("class", "row g-3")] [
    element "div" [("class", "col-md-6")] [
      element "label" [("for", "email"), ("class", "form-label")]
        [text "Електронна пошта (обов'язково)"],
      element "input" [("type", "email"), ("id", "email"), ("name", "email"), ("value", email),
        ("class", "form-control"), ("maxlength", maxEmailLen.repr), ("required", ""),
        ("aria-required", "true")] []],
    element "div" [("class", "col-md-6")] [
      element "label" [("for", "name"), ("class", "form-label")] [text "Ім'я (необов'язково)"],
      element "input" [("type", "text"), ("id", "name"), ("name", "name"), ("value", name),
        ("maxlength", maxNameLen.repr), ("class", "form-control")] []],
    element "div" [("class", "col-12")] [
      element "button" [("type", "submit"), ("class", "btn btn-primary btn-lg")]
        [text "Оформити замовлення"]]]

/-- The `maxlength` of the input with a name. -/
def maxLength (form : Markup) (name : String) : Option Nat := do
  let field ← (form.select "input").find? fun m => m.attr "name" = some name
  let limit ← field.attr "maxlength"
  limit.toNat?

/-- A browser counts units of UTF-16, and a line of text has no control characters. -/
def CanBeTyped (form : Markup) (name value : String) : Prop :=
  (∀ limit, maxLength form name = some limit → Text.utf16Len value.toList ≤ limit) ∧
    ∀ c ∈ value.toList, Text.isControl c = false

/-! ## What is let through -/

/-- An address without spaces around it. -/
structure ValidEmail (email : List Char) : Prop where
  nonempty : email ≠ []
  short : Text.len email ≤ maxEmailLen
  plain : ∀ c ∈ email, Text.isControl c = false ∧ Text.isWhitespace c = false
  parts : ∃ before domain, email = before ++ '@' :: domain ∧ '@' ∉ before ∧ before ≠ [] ∧
    '.' ∈ domain

structure ValidName (name : List Char) : Prop where
  short : Text.len name ≤ maxNameLen
  plain : ∀ c ∈ name, Text.isControl c = false

/-- The name without spaces around it, unless it is blank. -/
def givenName (name : Option String) : Option (List Char) :=
  (name.map fun s => Text.trim s.toList).filter fun s => !s.isEmpty

/-- The three tests of an address, as the code makes them. -/
theorem validEmail_iff (email : List Char) : ValidEmail email ↔
    ¬ (email.isEmpty || maxEmailLen < Text.len email) = true ∧
      ¬ (email.any fun c => Text.isControl c || Text.isWhitespace c) = true ∧
      ∃ before domain, Text.splitOnce '@' email = some (before, domain) ∧
        ¬ (before.isEmpty || domain.isEmpty || !domain.contains '.') = true := by
  constructor
  · rintro ⟨hnonempty, hshort, hplain, before, domain, rfl, hfirst, hbefore, hdot⟩
    refine ⟨?_, ?_, before, domain, Text.splitOnce_append hfirst domain, ?_⟩
    · simp [hshort]
    · rw [List.any_eq_true]
      rintro ⟨c, hc, htest⟩
      rw [(hplain c hc).1, (hplain c hc).2] at htest
      cases htest
    · have hdomain : domain ≠ [] := List.ne_nil_of_mem hdot
      simp [hbefore, hdomain, hdot]
  · rintro ⟨hlength, hplain, before, domain, hsplit, hparts⟩
    obtain ⟨heq, hfirst⟩ := Text.eq_of_splitOnce hsplit
    simp only [Bool.or_eq_true, List.isEmpty_iff, decide_eq_true_eq, not_or, Nat.not_lt] at hlength
    simp only [Bool.or_eq_true, List.isEmpty_iff, Bool.not_eq_true', not_or, Bool.not_eq_false,
      List.contains_iff_mem] at hparts
    refine ⟨hlength.1, hlength.2, ?_, before, domain, heq, hfirst, hparts.1.1, hparts.2⟩
    intro c hc
    have hnone := mt (fun htest => List.any_eq_true.mpr ⟨c, hc, htest⟩) hplain
    simpa using hnone

theorem validName_iff (name : List Char) : ValidName name ↔
    ¬ (maxNameLen < Text.len name || name.any Text.isControl) = true := by
  rw [Bool.or_eq_true, decide_eq_true_eq, not_or, Nat.not_lt, List.any_eq_true]
  constructor
  · rintro ⟨hshort, hplain⟩
    refine ⟨hshort, ?_⟩
    rintro ⟨c, hc, hcontrol⟩
    rw [hplain c hc] at hcontrol
    cases hcontrol
  · rintro ⟨hshort, hplain⟩
    exact ⟨hshort, fun c hc => Bool.not_eq_true _ ▸ fun hcontrol => hplain ⟨c, hc, hcontrol⟩⟩

theorem validateContact_iff {form : ContactForm} {contact : NewOrderContact} :
    validateContact form = .ok contact ↔ ValidEmail (Text.trim form.email.toList) ∧
      (∀ name ∈ givenName form.name, ValidName name) ∧
      contact = ⟨String.ofList (Text.trim form.email.toList),
        (givenName form.name).map String.ofList⟩ := by
  have hname : (¬ (givenName form.name).any (fun s =>
      maxNameLen < Text.len s || s.any Text.isControl) = true) ↔
      ∀ name ∈ givenName form.name, ValidName name := by
    cases givenName form.name with
    | none => simp
    | some name => simp [validName_iff]
  rw [validEmail_iff, ← hname]
  unfold validateContact
  constructor
  · intro h
    dsimp only at h
    split at h
    · cases h
    · rename_i hlength
      split at h
      · cases h
      · rename_i hplain
        split at h
        · cases h
        · rename_i before domain hsplit
          split at h
          · cases h
          · rename_i hparts
            split at h
            · cases h
            · rename_i hvalid
              exact ⟨⟨hlength, hplain, before, domain, hsplit, hparts⟩, hvalid,
                (Except.ok.inj h).symm⟩
  · rintro ⟨⟨hlength, hplain, before, domain, hsplit, hparts⟩, hvalid, rfl⟩
    rw [if_neg hlength, if_neg hplain, hsplit]
    exact (if_neg hparts).trans (if_neg hvalid)

section GivenNames
variable {name : Option String} {given : List Char}

theorem givenName_eq_some (h : givenName name = some given) :
    (∃ s ∈ name, given = Text.trim s.toList) ∧ given ≠ [] := by
  obtain ⟨hmap, hnonempty⟩ := Option.filter_eq_some_iff.mp h
  obtain ⟨s, hs, rfl⟩ := Option.map_eq_some_iff.mp hmap
  refine ⟨⟨s, hs, rfl⟩, ?_⟩
  simpa using hnonempty

theorem trim_givenName (h : givenName name = some given) : Text.trim given = given := by
  obtain ⟨⟨s, -, rfl⟩, -⟩ := givenName_eq_some h
  exact Text.trim_trim s.toList

/-- A name is given once: trimmed, it is given again. -/
theorem givenName_givenName (name : Option String) :
    givenName ((givenName name).map String.ofList) = givenName name := by
  cases h : givenName name with
  | none => rfl
  | some given =>
    have hnonempty : (!given.isEmpty) = true := by simpa using (givenName_eq_some h).2
    rw [Option.map_some, givenName, Option.map_some, String.toList_ofList, trim_givenName h,
      Option.filter_some, if_pos hnonempty]

theorem exists_not_whitespace (h : givenName name = some given) :
    ∃ c ∈ given, Text.isWhitespace c = false := by
  obtain ⟨⟨s, -, rfl⟩, hnonempty⟩ := givenName_eq_some h
  rcases Text.trim_cases s.toList with hnil | ⟨c, cs, hc, hcons⟩
  · exact absurd hnil hnonempty
  · rw [hcons]
    exact ⟨c, List.mem_cons_self, hc⟩

end GivenNames

/-- `CHECK (length(trim(email)) > 0)`. -/
theorem check_of_validEmail {email : String} (h : ValidEmail email.toList) :
    0 < Text.sqlLength (Text.sqlTrim email) := by
  have hspace : ∀ c ∈ email.toList, ¬ decide (c = ' ') = true := by
    intro c hc heq
    have hplain := (h.plain c hc).2
    rw [of_decide_eq_true heq] at hplain
    exact absurd hplain (by decide)
  have hzero : ∀ c ∈ email.toList, decide (c ≠ '\x00') = true := by
    intro c hc
    rw [decide_eq_true_eq]
    rintro rfl
    exact absurd (h.plain _ hc).1 (by decide)
  have hdrop : email.toList.dropWhile (· = ' ') = email.toList := by
    cases hlist : email.toList with
    | nil => rfl
    | cons c cs =>
      exact List.dropWhile_cons_of_neg (hspace c (by rw [hlist]; exact List.mem_cons_self))
  have hrdrop : email.toList.rdropWhile (· = ' ') = email.toList :=
    List.rdropWhile_eq_self_iff.mpr fun hlast => hspace _ (List.getLast_mem hlast)
  rw [Text.sqlTrim, hdrop, hrdrop, String.ofList_toList, Text.sqlLength,
    List.takeWhile_eq_self_iff.mpr hzero]
  exact List.length_pos_iff.mpr h.nonempty

/-- An accepted contact is clean, the table takes it, and it is accepted again as it is. -/
theorem validateContact_clean (form : ContactForm) (contact : NewOrderContact)
    (h : validateContact form = .ok contact) :
    ValidEmail contact.email.toList ∧
      (∀ name ∈ contact.name, ValidName name.toList ∧ Text.trim name.toList = name.toList ∧
        ∃ c ∈ name.toList, Text.isWhitespace c = false) ∧
      0 < Text.sqlLength (Text.sqlTrim contact.email) ∧
      validateContact ⟨contact.email, contact.name⟩ = .ok contact := by
  obtain ⟨hemail, hname, rfl⟩ := validateContact_iff.mp h
  have hlist : (String.ofList (Text.trim form.email.toList)).toList = Text.trim form.email.toList :=
    String.toList_ofList
  refine ⟨by rwa [hlist], ?_, check_of_validEmail (by rwa [hlist]), validateContact_iff.mpr ?_⟩
  · intro name hmem
    obtain ⟨given, hgiven, rfl⟩ := Option.map_eq_some_iff.mp hmem
    rw [String.toList_ofList]
    exact ⟨hname given hgiven, trim_givenName hgiven, exists_not_whitespace hgiven⟩
  · rw [hlist, Text.trim_trim, givenName_givenName]
    exact ⟨hemail, hname, rfl⟩

theorem validateContact_clean_oksana :
    ValidEmail "oksana@shop.ua".toList ∧
      validateContact ⟨"oksana@shop.ua", some "Оксана К."⟩ =
        .ok ⟨"oksana@shop.ua", some "Оксана К."⟩ := by
  have hclean := validateContact_clean ⟨" oksana@shop.ua ", some " Оксана К. "⟩
    ⟨"oksana@shop.ua", some "Оксана К."⟩ (by decide)
  exact ⟨hclean.1, hclean.2.2.2⟩

/-! ## Names of two hundred characters -/

theorem maxLength_contactForm (prefill : Option ContactForm) :
    maxLength (contactForm prefill) "name" = some maxNameLen := by
  have hlimit : maxNameLen.repr.toNat? = some maxNameLen := Nat.toNat?_repr maxNameLen
  simp [maxLength, contactForm, select, selectAll, attr, List.lookup, hlimit]

theorem canBeTyped_name (prefill : Option ContactForm) {name : String}
    (hlength : Text.utf16Len name.toList ≤ maxNameLen)
    (hplain : (name.toList.all fun c => !Text.isControl c) = true) :
    CanBeTyped (contactForm prefill) "name" name := by
  refine ⟨fun limit hlimit => ?_, fun c hc => ?_⟩
  · rw [maxLength_contactForm] at hlimit
    exact Option.some.inj hlimit ▸ hlength
  · simpa using List.all_eq_true.mp hplain c hc

/-- With an address that is valid, a name that can be typed is accepted exactly when it has no
more than two hundred bytes. -/
theorem typedName_accepted_iff (prefill : Option ContactForm) (email name : String)
    (hemail : ValidEmail (Text.trim email.toList))
    (hname : CanBeTyped (contactForm prefill) "name" name) :
    (∃ contact, validateContact ⟨email, some name⟩ = .ok contact) ↔
      Text.len (Text.trim name.toList) ≤ maxNameLen := by
  have hgiven : (∀ given ∈ givenName (some name), ValidName given) ↔
      Text.len (Text.trim name.toList) ≤ maxNameLen := by
    cases h : givenName (some name) with
    | none =>
      have hblank : Text.trim name.toList = [] := by
        simpa [givenName] using h
      simp [hblank, Text.len]
    | some given =>
      obtain ⟨⟨s, hs, rfl⟩, -⟩ := givenName_eq_some h
      obtain rfl := Option.some.inj hs
      constructor
      · intro hvalid
        exact (hvalid _ rfl).short
      · intro hshort given hgiven
        obtain rfl := Option.some.inj hgiven
        exact ⟨hshort, fun c hc => hname.2 c (Text.mem_of_mem_trim hc)⟩
  rw [← hgiven]
  constructor
  · rintro ⟨contact, hcontact⟩
    exact (validateContact_iff.mp hcontact).2.1
  · intro hvalid
    exact ⟨_, validateContact_iff.mpr ⟨hemail, hvalid, rfl⟩⟩

def shopEmail : String := "oksana@shop.ua"

theorem validEmail_shopEmail : ValidEmail (Text.trim shopEmail.toList) :=
  (validEmail_iff _).mpr ⟨by decide, by decide, "oksana".toList, "shop.ua".toList, by decide,
    by decide⟩

theorem typedName_accepted_oksana :
    ∃ contact, validateContact ⟨shopEmail, some "Оксана"⟩ = .ok contact :=
  (typedName_accepted_iff none shopEmail "Оксана" validEmail_shopEmail
    (canBeTyped_name none (by decide) (by decide))).mpr (by decide)

/-- A hundred and one letters `і`: two bytes each, and one unit of UTF-16. -/
def longName : String := String.ofList (List.replicate 101 'і')

theorem toList_longName : longName.toList = List.replicate 101 'і' := String.toList_ofList

theorem longName_typed_and_rejected :
    ValidEmail (Text.trim shopEmail.toList) ∧ CanBeTyped (contactForm none) "name" longName ∧
      validateContact ⟨shopEmail, some longName⟩ =
        .error "Ім'я містить недопустимі символи або занадто довге." := by
  refine ⟨validEmail_shopEmail, canBeTyped_name none ?_ ?_, by decide +kernel⟩
  · rw [toList_longName, Text.utf16Len, List.map_replicate, List.sum_replicate_nat]
    decide
  · rw [toList_longName, List.all_replicate]
    decide

end CheckoutPage

end TinyShop
