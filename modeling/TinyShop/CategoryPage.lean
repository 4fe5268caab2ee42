import TinyShop.Base.UrlEncoded
import TinyShop.F64
import TinyShop.Search
import TinyShop.Taxonomy

/-!
# Filters of a category page

The query of `GET /c/{slug}` in `crates/web/src/routes/category.rs`: the filter conditions
read from it, and the links to other pages of the list, which write it anew. A link loses
no parameter, so the filters stay what they are however many links are followed.
-/

namespace TinyShop.CategoryPage

open Base UrlEncoded
set_option autoImplicit false

section Parameters
variable (raw : List (String × String))

def valuesFor (key : String) : List String := (raw.filter (·.1 = key)).map Prod.snd

def parsedF64 (key : String) : Option F64 :=
  (raw.find? (·.1 = key)).bind fun pair => F64.parse (Text.trim pair.2.toList)

def checkboxValues (attributeId : String) : Option (List String) :=
  let values := valuesFor raw ("attr_" ++ attributeId)
  if values.isEmpty then none else some values

def rangeBounds (minKey maxKey : String) : Option (Option F64 × Option F64) :=
  let min := parsedF64 raw minKey
  let max := parsedF64 raw maxKey
  if min.isSome || max.isSome then some (min, max) else none

theorem parsedF64_eq (key : String) :
    parsedF64 raw key =
      (valuesFor raw key).head?.bind fun value => F64.parse (Text.trim value.toList) := by
  rw [parsedF64, valuesFor, List.head?_map, List.head?_filter]
  cases raw.find? (·.1 = key) <;> rfl

/-- The parameters of one name do not depend on those of another. -/
theorem valuesFor_filter {key other : String} (hne : other ≠ key) :
    valuesFor (raw.filter (·.1 ≠ key)) other = valuesFor raw other := by
  rw [valuesFor, valuesFor, List.filter_filter]
  congr 1
  refine List.filter_congr fun pair _ => ?_
  by_cases h : pair.1 = other
  · simp [h, hne]
  · simp [h]

end Parameters

/-- Hryvnias to kopecks. -/
def majorToMinor (major : F64) : Int64 := (F64.round (F64.mul major (.fin 100))).toI64

def filterCondFor (filter : Filter) (raw : List (String × String)) : Option FilterCond :=
  match filter.filterType with
  | .checkboxOr =>
    (checkboxValues raw filter.attributeId).map fun values => .checkboxOr filter.attributeId values
  | .enumAnd =>
    (checkboxValues raw filter.attributeId).map fun values => .enumAnd filter.attributeId values
  | .rangeGeneric =>
    (rangeBounds raw ("attr_" ++ filter.attributeId ++ "_min")
      ("attr_" ++ filter.attributeId ++ "_max")).map fun (min, max) =>
        .rangeGeneric filter.attributeId min max
  | .rangePrice =>
    (rangeBounds raw "price_min" "price_max").map fun (min, max) =>
      .rangePrice (min.map majorToMinor) (max.map majorToMinor)
  | .string => none
  | .number => none

def buildFilterConds (filters : List Filter) (raw : List (String × String)) : List FilterCond :=
  filters.filterMap fun filter => filterCondFor filter raw

/-- The parameters a filter reads. -/
def filterKeys (filter : Filter) : List String :=
  match filter.filterType with
  | .checkboxOr => ["attr_" ++ filter.attributeId]
  | .enumAnd => ["attr_" ++ filter.attributeId]
  | .rangeGeneric =>
    ["attr_" ++ filter.attributeId ++ "_min", "attr_" ++ filter.attributeId ++ "_max"]
  | .rangePrice => ["price_min", "price_max"]
  | .string => []
  | .number => []

/-- A filter reads its own parameters and no others. -/
theorem filterCondFor_congr {raw raw' : List (String × String)} {filter : Filter}
    (h : ∀ key ∈ filterKeys filter, valuesFor raw key = valuesFor raw' key) :
    filterCondFor filter raw = filterCondFor filter raw' := by
  have hnumber : ∀ key ∈ filterKeys filter, parsedF64 raw key = parsedF64 raw' key := by
    intro key hkey
    rw [parsedF64_eq, parsedF64_eq, h key hkey]
  unfold filterCondFor
  cases htype : filter.filterType <;> simp only [filterKeys, htype] at h hnumber
  case checkboxOr => simp only [checkboxValues, h _ List.mem_cons_self]
  case enumAnd => simp only [checkboxValues, h _ List.mem_cons_self]
  case rangeGeneric =>
    simp only [rangeBounds, hnumber _ List.mem_cons_self,
      hnumber _ (List.mem_cons_of_mem _ List.mem_cons_self)]
  case rangePrice =>
    simp only [rangeBounds, hnumber _ List.mem_cons_self,
      hnumber _ (List.mem_cons_of_mem _ List.mem_cons_self)]
  case string => rfl
  case number => rfl

theorem attr_append_ne_page (s : String) : "attr_" ++ s ≠ "page" := by
  intro h
  have hlist := congrArg String.toList h
  rw [String.toList_append] at hlist
  exact absurd (List.head_eq_of_cons_eq hlist) (by decide)

/-- `page` is no parameter of a filter, whatever its attribute is called. -/
theorem ne_page_of_mem_filterKeys {filter : Filter} {key : String} (h : key ∈ filterKeys filter) :
    key ≠ "page" := by
  unfold filterKeys at h
  split at h
  · rw [List.mem_singleton.mp h]
    exact attr_append_ne_page _
  · rw [List.mem_singleton.mp h]
    exact attr_append_ne_page _
  · simp only [List.mem_cons, List.not_mem_nil, or_false, String.append_assoc] at h
    rcases h with rfl | rfl
    · exact attr_append_ne_page _
    · exact attr_append_ne_page _
  · simp only [List.mem_cons, List.not_mem_nil, or_false] at h
    rcases h with rfl | rfl
    · decide
    · decide
  · cases h
  · cases h

/-- `NON_ALPHANUMERIC` without `_`, `-`, `.` and `~`. -/
def queryEncodeSet (b : Nat) : Bool :=
  !((0x30 ≤ b && b ≤ 0x39) || (0x41 ≤ b && b ≤ 0x5A) || (0x61 ≤ b && b ≤ 0x7A)) &&
    b ∉ ['_', '-', '.', '~'].map Char.toNat

/-- What `utf8_percent_encode` leaves as it is: it also escapes every byte beyond ASCII. -/
def unescaped : KeepSet where
  keeps b := decide (b < 0x80) && !queryEncodeSet b
  ascii h := of_decide_eq_true (Bool.and_eq_true_iff.mp h).1
  plain := by decide +kernel

def encodeQs (s : String) : String :=
  String.ofList (Utf8.ascii (encodeComponent unescaped s.toList))

def separated (qs : String) : String := if qs.isEmpty then qs else qs.push '&'

/-- One round of the loop in `pagination_href`. -/
def pushPair (qs : String) (pair : String × String) : String :=
  if pair.1 = "page" then qs
  else (separated qs ++ encodeQs pair.1).push '=' ++ encodeQs pair.2

def queryString (raw : List (String × String)) (page : UInt32) : String :=
  separated (raw.foldl pushPair "") ++ "page=" ++ page.toNat.repr

def paginationHref (slug : String) (raw : List (String × String)) (page : UInt32) : String :=
  "/c/" ++ slug ++ "?" ++ queryString raw page

/-- `Query<Vec<(String, String)>>`. -/
def parseQuery (query : String) : List (String × String) :=
  (UrlEncoded.parse (Utf8.encode query.toList)).map fun (key, value) =>
    (String.ofList key, String.ofList value)

/-- The query of a URL: behind the first `?`, up to the fragment. -/
def urlQuery (url : String) : Option String :=
  (Text.splitOnce '?' (url.toList.takeWhile (· ≠ '#'))).map fun (_, query) => String.ofList query

/-- The pairs of a query as the form encoding has them. -/
def chars (pair : String × String) : List Char × List Char := (pair.1.toList, pair.2.toList)

theorem encode_encodeQs (s : String) :
    Utf8.encode (encodeQs s).toList = encodeComponent unescaped s.toList := by
  rw [encodeQs, String.toList_ofList]
  exact Utf8.encode_ascii fun b hb => percentEncode_ascii hb

theorem encode_separated (qs : String) : Utf8.encode (separated qs).toList =
    if Utf8.encode qs.toList = [] then [] else Utf8.encode qs.toList ++ [ampersand] := by
  have hempty : Utf8.encode qs.toList = [] ↔ qs = "" := by
    rw [Utf8.encode_eq_nil, String.toList_eq_nil_iff]
  by_cases hqs : qs = ""
  · rw [if_pos (hempty.mpr hqs), separated, if_pos (String.isEmpty_iff.mpr hqs), hempty.mpr hqs]
  · have hne : ¬ qs.isEmpty := fun h => hqs (String.isEmpty_iff.mp h)
    rw [if_neg fun h => hqs (hempty.mp h), separated, if_neg hne, String.toList_push,
      Utf8.encode_append]
    rfl

theorem encode_pushPair (qs : String) {pair : String × String} (hkey : pair.1 ≠ "page") :
    Utf8.encode (pushPair qs pair).toList =
      append unescaped (Utf8.encode qs.toList) (chars pair) := by
  rw [pushPair, if_neg hkey]
  simp only [String.toList_append, String.toList_push, Utf8.encode_append, encode_separated,
    encode_encodeQs, append, encodePart, chars, List.append_assoc]
  rfl

/-- The loop drops `page` and appends every other pair. -/
theorem encode_foldl_pushPair (raw : List (String × String)) (qs : String) :
    Utf8.encode (raw.foldl pushPair qs).toList =
      ((raw.filter (·.1 ≠ "page")).map chars).foldl (append unescaped)
        (Utf8.encode qs.toList) := by
  induction raw generalizing qs with
  | nil => rfl
  | cons pair raw ih =>
    rw [List.foldl_cons, ih]
    by_cases hkey : pair.1 = "page"
    · rw [List.filter_cons_of_neg (by simpa using hkey), pushPair, if_pos hkey]
    · rw [List.filter_cons_of_pos (by simpa using hkey), List.map_cons, List.foldl_cons,
        encode_pushPair qs hkey]

theorem keeps_of_isAlphanum {c : Char} (hc : c.isAlphanum = true) :
    unescaped.keeps c.toNat = true := by
  have hrange := Text.toNat_of_isAlphanum hc
  have hascii : c.toNat < 0x80 := by omega
  have hset : queryEncodeSet c.toNat = false := by
    rcases hrange with (h | h) | h
    · simp [queryEncodeSet, h]
    · simp [queryEncodeSet, h]
    · simp [queryEncodeSet, h]
  simp [unescaped, hascii, hset]

theorem encode_queryString (raw : List (String × String)) (page : UInt32) :
    Utf8.encode (queryString raw page).toList =
      ((raw.filter (·.1 ≠ "page") ++ [("page", page.toNat.repr)]).map chars).foldl
        (append unescaped) [] := by
  have hletters : "page".toList.all Char.isAlphanum = true := by decide
  have hname : encodeComponent unescaped "page".toList = Utf8.encode "page".toList :=
    encodeComponent_of_keeps fun c hc => keeps_of_isAlphanum (List.all_eq_true.mp hletters c hc)
  have hnumber : encodeComponent unescaped page.toNat.repr.toList =
      Utf8.encode page.toNat.repr.toList := by
    refine encodeComponent_of_keeps fun c hc => keeps_of_isAlphanum ?_
    rw [Nat.repr, String.toList_ofList] at hc
    have hdigit := Nat.isDigit_of_mem_toDigits (by decide) (by decide) hc
    rw [Char.isAlphanum, hdigit, Bool.or_true]
  have hfold := encode_foldl_pushPair raw ""
  rw [String.toList_empty] at hfold
  have hsplit : "page=".toList = "page".toList ++ ['='] := by decide +kernel
  rw [List.map_append, List.foldl_append, List.map_singleton, List.foldl_cons, List.foldl_nil,
    append, encodePart, chars, hname, hnumber, queryString]
  simp only [String.toList_append, Utf8.encode_append, encode_separated, hfold, hsplit,
    List.append_assoc]
  rfl

/-- A reader of the query gets the filters back and the page behind them. -/
theorem parseQuery_queryString (raw : List (String × String)) (page : UInt32) :
    parseQuery (queryString raw page) =
      raw.filter (·.1 ≠ "page") ++ [("page", page.toNat.repr)] := by
  have hread : ∀ pairs : List (String × String),
      (pairs.map chars).map (fun pair => (String.ofList pair.1, String.ofList pair.2)) = pairs := by
    intro pairs
    rw [List.map_map]
    exact List.map_id'' (fun pair => by simp [chars]) pairs
  rw [parseQuery, encode_queryString, parse_foldl_append]
  exact hread _

example : queryString [("attr_color", "Синій"), ("page", "3"), ("a&b", "50%")] 4 =
    "attr_color=%D0%A1%D0%B8%D0%BD%D1%96%D0%B9&a%26b=50%25&page=4" := by rfl

theorem valuesFor_parseQuery (raw : List (String × String)) (page : UInt32) {key : String}
    (hkey : key ≠ "page") :
    valuesFor (parseQuery (queryString raw page)) key = valuesFor raw key := by
  have hpage : valuesFor [("page", page.toNat.repr)] key = [] := by
    simp [valuesFor, hkey.symm]
  have happend : ∀ pairs : List (String × String),
      valuesFor (pairs ++ [("page", page.toNat.repr)]) key = valuesFor pairs key := by
    intro pairs
    rw [valuesFor, List.filter_append, List.map_append]
    change valuesFor pairs key ++ valuesFor _ key = _
    rw [hpage, List.append_nil]
  rw [parseQuery_queryString, happend, valuesFor_filter raw hkey]

theorem buildFilterConds_parseQuery (raw : List (String × String)) (page : UInt32)
    (filters : List Filter) :
    buildFilterConds filters (parseQuery (queryString raw page)) = buildFilterConds filters raw :=
  List.filterMap_congr fun _ _ => filterCondFor_congr fun _ hkey =>
    valuesFor_parseQuery raw page (ne_page_of_mem_filterKeys hkey)

theorem hash_not_mem_encodeQs (s : String) : '#' ∉ (encodeQs s).toList := by
  intro hmem
  rw [encodeQs, String.toList_ofList] at hmem
  obtain ⟨b, hb, hchar⟩ := List.mem_map.mp hmem
  have hbyte : b.toNat = '#'.toNat := by
    rw [← hchar, Utf8.toNat_ofNat_ascii (percentEncode_ascii hb)]
  have hdigit : ∀ n < 16, (hexDigit n).toNat ≠ '#'.toNat := by decide
  rcases mem_percentEncode hb with hkeep | rfl | ⟨n, hn, rfl⟩
  · rw [hbyte] at hkeep
    exact absurd hkeep (by decide)
  · exact absurd hbyte (by decide)
  · exact hdigit n hn hbyte

theorem hash_not_mem_separated {qs : String} (hqs : '#' ∉ qs.toList) :
    '#' ∉ (separated qs).toList := by
  unfold separated
  split
  · exact hqs
  · rw [String.toList_push, List.mem_append, List.mem_singleton]
    rintro (hmem | heq)
    · exact hqs hmem
    · cases heq

theorem hash_not_mem_foldl_pushPair (raw : List (String × String)) {qs : String}
    (hqs : '#' ∉ qs.toList) : '#' ∉ (raw.foldl pushPair qs).toList := by
  induction raw generalizing qs with
  | nil => exact hqs
  | cons pair raw ih =>
    apply ih
    unfold pushPair
    split
    · exact hqs
    · simp [hash_not_mem_separated hqs, hash_not_mem_encodeQs]

theorem hash_not_mem_queryString (raw : List (String × String)) (page : UInt32) :
    '#' ∉ (queryString raw page).toList := by
  have hpairs : '#' ∉ (raw.foldl pushPair "").toList :=
    hash_not_mem_foldl_pushPair raw (by simp)
  have hdigits : '#' ∉ Nat.toDigits 10 page.toNat := by
    intro hmem
    exact absurd (Nat.isDigit_of_mem_toDigits (by decide) (by decide) hmem) (by decide)
  simp [queryString, hash_not_mem_separated hpairs, hdigits]

theorem urlQuery_paginationHref {slug : String} (hquestion : '?' ∉ slug.toList)
    (hhash : '#' ∉ slug.toList) (raw : List (String × String)) (page : UInt32) :
    urlQuery (paginationHref slug raw page) = some (queryString raw page) := by
  have hurl : (paginationHref slug raw page).toList =
      ("/c/".toList ++ slug.toList) ++ '?' :: (queryString raw page).toList := by
    simp [paginationHref]
  have hpath : '?' ∉ "/c/".toList ++ slug.toList := by
    simp [hquestion]
  have hwhole : (paginationHref slug raw page).toList.takeWhile (· ≠ '#') =
      (paginationHref slug raw page).toList := by
    rw [List.takeWhile_eq_self_iff]
    intro c hc
    rw [decide_eq_true_iff]
    rintro rfl
    rw [hurl] at hc
    simp [hhash, hash_not_mem_queryString] at hc
  rw [urlQuery, hwhole, hurl, Text.splitOnce_append hpath, Option.map_some]
  exact congrArg some String.ofList_toList

/-- What a link to another page carries: every pair but `page`, in order, and the page
behind them. The conditions read from the link are those of the page it stands on. -/
theorem pagination_keeps_filters (raw : List (String × String)) (page : UInt32) :
    ∃ query : String,
      (∀ slug, paginationHref slug raw page = "/c/" ++ slug ++ "?" ++ query) ∧
      (∀ slug : String, '?' ∉ slug.toList → '#' ∉ slug.toList →
        urlQuery (paginationHref slug raw page) = some query) ∧
      parseQuery query = raw.filter (·.1 ≠ "page") ++ [("page", page.toNat.repr)] ∧
      ∀ filters, buildFilterConds filters (parseQuery query) = buildFilterConds filters raw :=
  ⟨queryString raw page, fun _ => rfl,
    fun _ hquestion hhash => urlQuery_paginationHref hquestion hhash raw page,
    parseQuery_queryString raw page, buildFilterConds_parseQuery raw page⟩

end TinyShop.CategoryPage
