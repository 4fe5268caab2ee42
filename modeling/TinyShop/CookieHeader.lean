import TinyShop.Base.Utf8
import TinyShop.Web

/-!
# The cart cookie among other cookies

`cart_cookie.rs` with whatever else the browser sends. The header is read as a text first,
so one byte outside of ASCII in another cookie hides the cart.
-/

namespace TinyShop

open Base
set_option autoImplicit false

/-- `sample` is what the random number generator yields for `Alphanumeric`. -/
def CartRepo.generateToken (sample : Nat → {c : Char // c.isAlphanum = true}) : String :=
  String.ofList ((List.range 48).map fun i => (sample i).val)

namespace CartCookie

/-- The characters of a `token` of RFC 6265. -/
def isTokenByte (b : UInt8) : Bool :=
  0x20 < b && b < 0x7F && Char.ofNat b.toNat ∉
    ['(', ')', '<', '>', '@', ',', ';', ':', '\\', '"', '/', '[', ']', '?', '=', '{', '}']

/-- What the value of a header may consist of, without the `;` between two cookies. -/
def isValueByte (b : UInt8) : Bool := (b = 0x09 || (0x20 ≤ b && b ≠ 0x7F)) && b ≠ 0x3B

/-- A cookie that is not the cart. -/
structure Cookie where
  name : List UInt8
  value : List UInt8
  nonempty : name ≠ []
  token : name.all isTokenByte = true
  other : name ≠ Utf8.encode cartCookieName
  carried : value.all isValueByte = true

def Cookie.pair (c : Cookie) : List UInt8 := c.name ++ 0x3D :: c.value

def cartPair (token : String) : List UInt8 := Utf8.encode ("cart=" ++ token).toList

/-- The pairs of a `Cookie` header, with `; ` between them. -/
def cookieHeader (pairs : List (List UInt8)) : List UInt8 := [0x3B, 0x20].intercalate pairs

/-- What a browser keeps of `Set-Cookie` and sends back. -/
def keptPair (setCookie : String) : List UInt8 :=
  Utf8.encode (setCookie.toList.takeWhile (· ≠ ';'))

/-! ## Bytes and characters -/

section Bytes
variable {b : UInt8}

/-- `visible_ascii` of a header value, or a tab. -/
def isVisible (b : UInt8) : Bool := b = 9 || (32 ≤ b && b < 127)

theorem toStr_eq (value : List UInt8) :
    HeaderMap.toStr value = if value.all isVisible then some (Utf8.ascii value) else none := rfl

theorem isVisible_of_isTokenByte (hb : isTokenByte b = true) :
    isVisible b = true ∧ b.toNat < 0x7F ∧ 0x20 < b.toNat := by
  simp only [isTokenByte, Bool.and_eq_true, decide_eq_true_eq, UInt8.lt_iff_toNat_lt] at hb
  obtain ⟨⟨hlow, hhigh⟩, -⟩ := hb
  have hlow : 0x20 < b.toNat := hlow
  have hhigh : b.toNat < 0x7F := hhigh
  refine ⟨?_, hhigh, hlow⟩
  simp only [isVisible, Bool.or_eq_true, Bool.and_eq_true, decide_eq_true_eq, UInt8.le_iff_toNat_le,
    UInt8.lt_iff_toNat_lt]
  exact .inr ⟨Nat.le_of_lt hlow, hhigh⟩

theorem not_separator_of_isTokenByte (hb : isTokenByte b = true) :
    Char.ofNat b.toNat ≠ '=' ∧ Char.ofNat b.toNat ≠ ';' := by
  simp only [isTokenByte, Bool.and_eq_true, decide_eq_true_eq] at hb
  constructor
  · rintro heq
    exact hb.2 (by rw [heq]; decide)
  · rintro heq
    exact hb.2 (by rw [heq]; decide)

theorem not_whitespace_of_isTokenByte (hb : isTokenByte b = true) :
    Text.isWhitespace (Char.ofNat b.toNat) = false := by
  obtain ⟨-, hhigh, hlow⟩ := isVisible_of_isTokenByte hb
  have hnat := Utf8.toNat_ofNat_ascii (Nat.lt_succ_of_lt hhigh)
  exact Text.not_isWhitespace (by omega) (by omega)

theorem isVisible_of_isValueByte (hb : isValueByte b = true) :
    isVisible b = true ↔ b < 0x80 := by
  simp only [isValueByte, isVisible, Bool.and_eq_true, Bool.or_eq_true, decide_eq_true_eq,
    UInt8.le_iff_toNat_le, UInt8.lt_iff_toNat_lt, ← UInt8.toNat_inj, ne_eq, UInt8.reduceToNat] at hb ⊢
  omega

end Bytes

/-! ## One pair -/

section Others
variable (c : Cookie)

theorem Cookie.name_ascii : ∀ b ∈ c.name, isTokenByte b = true := List.all_eq_true.mp c.token

/-- Another cookie is no cart. -/
theorem tokenOf_pair : tokenOf (Utf8.ascii c.pair) = none := by
  have hname : ∀ d ∈ Utf8.ascii c.name, d ≠ '=' ∧ Text.isWhitespace d = false := by
    intro d hd
    obtain ⟨b, hb, rfl⟩ := List.mem_map.mp hd
    exact ⟨(not_separator_of_isTokenByte (c.name_ascii b hb)).1,
      not_whitespace_of_isTokenByte (c.name_ascii b hb)⟩
  have hother : Utf8.ascii c.name ≠ cartCookieName := by
    intro heq
    apply c.other
    rw [← heq, Utf8.encode_ascii]
    exact fun b hb => Nat.lt_succ_of_lt (isVisible_of_isTokenByte (c.name_ascii b hb)).2.1
  have hpair : Utf8.ascii c.pair = Utf8.ascii c.name ++ '=' :: Utf8.ascii c.value :=
    List.map_append
  have hnonempty : Utf8.ascii c.name ≠ [] := by
    simpa [Utf8.ascii] using c.nonempty
  rw [hpair]
  generalize Utf8.ascii c.name = name at hname hother hnonempty
  have hequals : '=' ∉ name := fun hmem => (hname '=' hmem).1 rfl
  have htrim : Text.trim (name ++ '=' :: Utf8.ascii c.value) =
      name ++ '=' :: (Utf8.ascii c.value).rdropWhile Text.isWhitespace := by
    cases name with
    | nil => exact absurd rfl hnonempty
    | cons d ds =>
      rw [List.cons_append, Text.trim_cons (hname d List.mem_cons_self).2,
        Text.rdropWhile_append_cons rfl, List.cons_append]
  rw [tokenOf, htrim, Text.splitOnce_append hequals]
  exact if_neg fun h => hother h.1

theorem all_pair : c.pair.all isVisible = true ↔ ∀ b ∈ c.value, b < 0x80 := by
  have hname : c.name.all isVisible = true :=
    List.all_eq_true.mpr fun b hb => (isVisible_of_isTokenByte (c.name_ascii b hb)).1
  have hequals : isVisible 0x3D = true := by decide
  rw [Cookie.pair, List.all_append, hname, List.all_cons, hequals, Bool.true_and, Bool.true_and,
    List.all_eq_true]
  exact forall₂_congr fun b hb => isVisible_of_isValueByte (List.all_eq_true.mp c.carried b hb)

theorem not_mem_pair (hvisible : c.pair.all isVisible = true) : ';' ∉ Utf8.ascii c.pair := by
  intro hmem
  obtain ⟨b, hb, hchar⟩ := List.mem_map.mp hmem
  have hvalue := (all_pair c).mp hvisible
  rcases List.mem_append.mp hb with hb | hb
  · exact (not_separator_of_isTokenByte (c.name_ascii b hb)).2 hchar
  · rcases List.mem_cons.mp hb with rfl | hb
    · exact absurd hchar (by decide)
    · have hnat := Utf8.toNat_ofNat_ascii (UInt8.lt_iff_toNat_lt.mp (hvalue b hb))
      have hbyte : b = 0x3B := by
        rw [hchar] at hnat
        exact UInt8.toNat_inj.mp hnat.symm
      have hcarried := List.all_eq_true.mp c.carried b hb
      rw [hbyte] at hcarried
      exact absurd hcarried (by decide)

end Others

section Cart
variable {token : String} (htoken : ∀ c ∈ token.toList, c.isAlphanum = true)
include htoken

theorem token_range : ∀ c ∈ token.toList, 48 ≤ c.toNat ∧ c.toNat ≤ 122 ∧ c.toNat ≠ 59 := by
  intro c hc
  have hrange := Text.toNat_of_isAlphanum (htoken c hc)
  omega

omit htoken in
theorem toList_cartPair : ("cart=" ++ token).toList = cartCookieName ++ '=' :: token.toList := by
  rw [String.toList_append]
  rfl

theorem cart_range : ∀ c ∈ cartCookieName ++ '=' :: token.toList, 32 ≤ c.toNat ∧ c.toNat < 127 := by
  intro c hc
  have hname : cartCookieName.all (fun c => 32 ≤ c.toNat ∧ c.toNat < 127) = true := by decide
  rcases List.mem_append.mp hc with hc | hc
  · exact of_decide_eq_true (List.all_eq_true.mp hname c hc)
  · rcases List.mem_cons.mp hc with rfl | hc
    · decide
    · have hrange := token_range htoken c hc
      omega

theorem ascii_cartPair : Utf8.ascii (cartPair token) = cartCookieName ++ '=' :: token.toList := by
  rw [cartPair, toList_cartPair, Utf8.ascii_encode]
  intro c hc
  have hrange := cart_range htoken c hc
  omega

theorem tokenOf_cartPair (hnonempty : token ≠ "") :
    tokenOf (Utf8.ascii (cartPair token)) = some token := by
  have hspace : ∀ c ∈ token.toList, Text.isWhitespace c = false := by
    intro c hc
    have hrange := token_range htoken c hc
    exact Text.not_isWhitespace (by omega) (by omega)
  have htrim : Text.trim (cartCookieName ++ '=' :: token.toList) =
      cartCookieName ++ '=' :: token.toList := by
    have hlast : token.toList.rdropWhile Text.isWhitespace = token.toList :=
      List.rdropWhile_eq_self_iff.mpr fun h =>
        Bool.eq_false_iff.mp (hspace _ (List.getLast_mem h))
    change Text.trim ('c' :: (['a', 'r', 't'] ++ '=' :: token.toList)) = _
    rw [Text.trim_cons rfl, Text.rdropWhile_append_cons rfl, hlast]
    rfl
  have hvalue : token.toList ≠ [] := fun h => hnonempty (String.toList_eq_nil_iff.mp h)
  rw [ascii_cartPair htoken, tokenOf, htrim, Text.splitOnce_append (by decide)]
  simp [hvalue]

/-- The first part of `Set-Cookie` is the pair that comes back. -/
theorem keptPair_setCartCookie (secure : Bool) :
    keptPair (setCartCookie token secure) = cartPair token := by
  have hpair : ∀ c ∈ ("cart=" ++ token).toList, decide (c ≠ ';') = true := by
    intro c hc
    rw [decide_eq_true_eq]
    rintro rfl
    rw [toList_cartPair, List.mem_append, List.mem_cons] at hc
    rcases hc with hc | hc | hc
    · exact absurd hc (by decide)
    · exact absurd hc (by decide)
    · exact (token_range htoken ';' hc).2.2 rfl
  have hsplit : (setCartCookie token secure).toList = ("cart=" ++ token).toList ++
      ';' :: (" HttpOnly; SameSite=Lax; Path=/; Max-Age=".toList ++ maxAgeSecs.repr.toList ++
        (secureAttr secure).toList) := by
    rw [setCartCookie, String.toList_append, String.toList_append, String.toList_append,
      List.append_assoc, List.append_assoc]
    rfl
  rw [keptPair, hsplit, List.takeWhile_append_of_pos hpair, List.takeWhile_cons_of_neg (by decide),
    List.append_nil, cartPair]

end Cart

/-! ## The header -/

theorem generateToken_isAlphanum (sample : Nat → {c : Char // c.isAlphanum = true}) :
    ∀ c ∈ (CartRepo.generateToken sample).toList, c.isAlphanum = true := by
  intro c hc
  rw [CartRepo.generateToken, String.toList_ofList] at hc
  obtain ⟨i, _, rfl⟩ := List.mem_map.mp hc
  exact (sample i).property

theorem generateToken_ne_empty (sample : Nat → {c : Char // c.isAlphanum = true}) :
    CartRepo.generateToken sample ≠ "" := by
  intro h
  have hlist : (CartRepo.generateToken sample).toList = [] := by rw [h]; rfl
  rw [CartRepo.generateToken, String.toList_ofList] at hlist
  cases hlist

theorem all_cookieHeader (pairs : List (List UInt8)) :
    (cookieHeader pairs).all isVisible = pairs.all fun pair => pair.all isVisible := by
  induction pairs with
  | nil => rfl
  | cons pair pairs ih =>
    cases pairs with
    | nil => simp [cookieHeader]
    | cons next pairs =>
      have hmark : ([0x3B, 0x20] : List UInt8).all isVisible = true := by decide
      rw [cookieHeader, List.intercalate_cons_cons, List.all_append, List.all_append, hmark,
        List.all_cons, ← ih, Bool.and_true]
      rfl

theorem ascii_cookieHeader (pairs : List (List UInt8)) :
    Utf8.ascii (cookieHeader pairs) = [';', ' '].intercalate (pairs.map Utf8.ascii) := by
  induction pairs with
  | nil => rfl
  | cons pair pairs ih =>
    cases pairs with
    | nil => simp [cookieHeader]
    | cons next pairs =>
      rw [List.map_cons, List.map_cons, List.intercalate_cons_cons, ← List.map_cons, ← ih,
        cookieHeader, List.intercalate_cons_cons]
      simp only [Utf8.ascii, List.map_append]
      rfl

/-- Each part of the header is looked at without the space in front of it. -/
theorem findSome_split {parts : List (List Char)} (hparts : ∀ p ∈ parts, ';' ∉ p) :
    (Text.split ';' ([';', ' '].intercalate parts) []).findSome? tokenOf =
      parts.findSome? tokenOf := by
  cases parts with
  | nil => rfl
  | cons p parts =>
    have hspace : (tokenOf ∘ fun q => [' '] ++ q) = tokenOf := by
      funext q
      change tokenOf (' ' :: q) = tokenOf q
      rw [tokenOf, Text.trim_cons_of_whitespace (by decide), tokenOf]
    rw [Text.split_intercalate [' '] (by decide) parts
      (fun q hq => hparts q (List.mem_cons_of_mem p hq)) p (hparts p List.mem_cons_self),
      List.findSome?_cons, List.findSome?_cons, List.findSome?_map, hspace]

section Header
variable {headers : HeaderMap} {before after : List Cookie} {token : String}
  (htoken : ∀ c ∈ token.toList, c.isAlphanum = true)
include htoken

theorem not_mem_cartPair : ';' ∉ Utf8.ascii (cartPair token) := by
  rw [ascii_cartPair htoken, List.mem_append, List.mem_cons]
  rintro (hmem | hmem | hmem)
  · exact absurd hmem (by decide)
  · exact absurd hmem (by decide)
  · exact (token_range htoken ';' hmem).2.2 rfl

theorem all_cartPair : (cartPair token).all isVisible = true := by
  rw [List.all_eq_true, cartPair, toList_cartPair]
  intro b hb
  obtain ⟨c, hc, hb⟩ := List.mem_flatMap.mp hb
  have hrange := cart_range htoken c hc
  rw [Utf8.utf8EncodeChar_ascii (by omega), List.mem_singleton] at hb
  have hnat : b.toNat = c.toNat := by
    rw [hb]
    exact UInt8.toNat_ofNat_of_lt' (Nat.lt_trans hrange.2 (by decide))
  simp only [isVisible, Bool.or_eq_true, Bool.and_eq_true, decide_eq_true_eq,
    UInt8.le_iff_toNat_le, UInt8.lt_iff_toNat_lt, UInt8.reduceToNat]
  omega

theorem all_pairs : ((before.map Cookie.pair ++ cartPair token :: after.map Cookie.pair).all
    fun pair => pair.all isVisible) = true ↔ ∀ c ∈ before ++ after, ∀ b ∈ c.value, b < 0x80 := by
  have hmap : ∀ cookies : List Cookie, ((cookies.map Cookie.pair).all fun pair =>
      pair.all isVisible) = true ↔ ∀ c ∈ cookies, ∀ b ∈ c.value, b < 0x80 := by
    intro cookies
    rw [List.all_map, List.all_eq_true]
    exact forall₂_congr fun c _ => all_pair c
  rw [List.all_append, List.all_cons, all_cartPair htoken, Bool.true_and, Bool.and_eq_true, hmap,
    hmap, List.forall_mem_append]

/-- The token is found, wherever its pair stands. -/
theorem findSome_pairs (hnonempty : token ≠ "") :
    ((before.map Cookie.pair ++ cartPair token :: after.map Cookie.pair).map
      Utf8.ascii).findSome? tokenOf = some token := by
  have hothers : ((before.map Cookie.pair).map Utf8.ascii).findSome? tokenOf = none := by
    rw [List.findSome?_eq_none_iff, List.map_map]
    intro p hp
    obtain ⟨c, _, rfl⟩ := List.mem_map.mp hp
    exact tokenOf_pair c
  rw [List.map_append, List.map_cons, List.findSome?_append, hothers, Option.none_or,
    List.findSome?_cons, tokenOf_cartPair htoken hnonempty]

variable (hcookie : headers.lookup "cookie" =
  some (cookieHeader (before.map Cookie.pair ++ cartPair token :: after.map Cookie.pair)))
include hcookie

theorem extractCartToken_eq (hnonempty : token ≠ "") : extractCartToken headers =
    if ∀ c ∈ before ++ after, ∀ b ∈ c.value, b < 0x80 then some token else none := by
  rw [extractCartToken, hcookie]
  change ((HeaderMap.toStr (cookieHeader _)).bind fun raw => _) = _
  rw [toStr_eq, all_cookieHeader]
  by_cases hascii : ∀ c ∈ before ++ after, ∀ b ∈ c.value, b < 0x80
  · rw [if_pos hascii, if_pos ((all_pairs htoken).mpr hascii)]
    change (Text.split ';' (Utf8.ascii (cookieHeader _)) []).findSome? tokenOf = _
    rw [ascii_cookieHeader, findSome_split, findSome_pairs htoken hnonempty]
    intro p hp
    obtain ⟨pair, hpair, rfl⟩ := List.mem_map.mp hp
    have hvisible := List.all_eq_true.mp ((all_pairs htoken).mpr hascii) pair hpair
    have hcookies : ∀ cookies : List Cookie, pair ∈ cookies.map Cookie.pair →
        ';' ∉ Utf8.ascii pair := by
      intro cookies hmem
      obtain ⟨c, _, rfl⟩ := List.mem_map.mp hmem
      exact not_mem_pair c hvisible
    rcases List.mem_append.mp hpair with hpair | hpair
    · exact hcookies before hpair
    · rcases List.mem_cons.mp hpair with rfl | hpair
      · exact not_mem_cartPair htoken
      · exact hcookies after hpair
  · rw [if_neg hascii, if_neg (mt (all_pairs htoken).mp hascii)]
    rfl

end Header

/-- The cart that `set_cart_cookie` sets is found again exactly when no other cookie carries a
byte outside of ASCII. -/
theorem extractCartToken_iff (sample : Nat → {c : Char // c.isAlphanum = true})
    (headers : HeaderMap) (before after : List Cookie)
    (hcookie : headers.lookup "cookie" = some (cookieHeader (before.map Cookie.pair ++
      cartPair (CartRepo.generateToken sample) :: after.map Cookie.pair))) :
    (extractCartToken headers = some (CartRepo.generateToken sample) ↔
      ∀ c ∈ before ++ after, ∀ b ∈ c.value, b < 0x80) ∧
      ∀ secure, keptPair (setCartCookie (CartRepo.generateToken sample) secure) =
        cartPair (CartRepo.generateToken sample) := by
  have htoken := generateToken_isAlphanum sample
  refine ⟨?_, keptPair_setCartCookie htoken⟩
  rw [extractCartToken_eq htoken hcookie (generateToken_ne_empty sample)]
  split
  · rename_i hascii
    exact iff_of_true rfl hascii
  · rename_i hascii
    exact iff_of_false (fun h => Option.some_ne_none _ h.symm) hascii

def sampled : Nat → {c : Char // c.isAlphanum = true} := fun _ => ⟨'k', by decide⟩

def themeCookie : Cookie where
  name := Utf8.encode "theme".toList
  value := Utf8.encode "dark".toList
  nonempty := by decide
  token := by decide
  other := by decide
  carried := by decide

/-- `city=Львів`. -/
def cityCookie : Cookie where
  name := Utf8.encode "city".toList
  value := Utf8.encode "Львів".toList
  nonempty := by decide
  token := by decide
  other := by decide
  carried := by decide

theorem extractCartToken_beside_theme :
    extractCartToken [("cookie", cookieHeader
      [themeCookie.pair, cartPair (CartRepo.generateToken sampled), themeCookie.pair])] =
      some (CartRepo.generateToken sampled) :=
  (extractCartToken_iff sampled _ [themeCookie] [themeCookie] rfl).1.mpr (by decide +kernel)

/-- A city outside of ASCII hides the cart. -/
theorem extractCartToken_beside_city :
    extractCartToken [("cookie", cookieHeader
      [cityCookie.pair, cartPair (CartRepo.generateToken sampled)])] = none := by
  have hcookies : ¬ ∀ c ∈ [cityCookie] ++ [], ∀ b ∈ c.value, b < 0x80 := by decide +kernel
  exact (extractCartToken_eq (generateToken_isAlphanum sampled) rfl
    (generateToken_ne_empty sampled)).trans (if_neg hcookies)

end CartCookie

end TinyShop
