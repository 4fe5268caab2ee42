import TinyShop.Base.Json
import TinyShop.PriceTables
import TinyShop.Search

/-!
# Data for search engines

The values of `crates/web/src/jsonld.rs` and the scripts that carry them in the head of a
page. Titles and descriptions are those of the sellers; whatever they contain, the text of
a script has no `<`, and a reader gets the value back.
-/

namespace TinyShop

open Base
set_option autoImplicit false

namespace Jsonld

/-! ## Values -/

def text (s : String) : Json := .string s.toList

/-- A field of an object. -/
def field (name : String) (v : Json) : List Char × Json := (name.toList, v)

def schemaOrg : Json := text "https://schema.org"

def absoluteUrl (baseUrl path : String) : String := baseUrl ++ path

structure Offer where
  price : String
  priceCurrency : String
  availability : String

def Offer.serialize (o : Offer) : Json :=
  .object [field "@type" (text "Offer"), field "price" (text o.price),
    field "priceCurrency" (text o.priceCurrency), field "availability" (text o.availability)]

structure Product where
  name : String
  description : String
  image : Option String
  offers : Offer

/-- `None` is written as `null`. -/
def Product.serialize (p : Product) : Json :=
  .object [field "@context" schemaOrg, field "@type" (text "Product"), field "name" (text p.name),
    field "description" (text p.description), field "image" ((p.image.map text).getD .null),
    field "offers" p.offers.serialize]

structure ListItem where
  position : UInt32
  name : String
  item : String

def ListItem.serialize (i : ListItem) : Json :=
  .object [field "@type" (text "ListItem"),
    field "position" (.number (.ofNat i.position.toNat)), field "name" (text i.name),
    field "item" (text i.item)]

structure BreadcrumbList where
  itemListElement : List ListItem

def BreadcrumbList.serialize (l : BreadcrumbList) : Json :=
  .object [field "@context" schemaOrg, field "@type" (text "BreadcrumbList"),
    field "itemListElement" (.array (l.itemListElement.map ListItem.serialize))]

structure ItemProduct where
  name : String
  url : String
  image : Option String

/-- `skip_serializing_if`: without an image there is no field. -/
def ItemProduct.serialize (p : ItemProduct) : Json :=
  .object ([field "@type" (text "Product"), field "name" (text p.name), field "url" (text p.url)] ++
    (p.image.map fun image => field "image" (text image)).toList)

structure ItemListElement where
  position : UInt32
  item : ItemProduct

def ItemListElement.serialize (e : ItemListElement) : Json :=
  .object [field "@type" (text "ListItem"),
    field "position" (.number (.ofNat e.position.toNat)), field "item" e.item.serialize]

structure ItemList where
  itemListElement : List ItemListElement

def ItemList.serialize (l : ItemList) : Json :=
  .object [field "@context" schemaOrg, field "@type" (text "ItemList"),
    field "itemListElement" (.array (l.itemListElement.map ItemListElement.serialize))]

/-- A crumb without a link is the page itself. -/
def breadcrumbListLd (baseUrl : String) (crumbs : List (String × Option String))
    (currentPath : String) : BreadcrumbList where
  itemListElement := crumbs.zipIdx.map fun ((name, url), i) =>
    ⟨UInt32.ofNat (i + 1), name, absoluteUrl baseUrl (url.getD currentPath)⟩

/-- The product of `render` in `routes/product.rs`. -/
def productLd (baseUrl : String) (card : ProductView) : Product where
  name := card.title
  description := card.description
  image := card.thumb.map (absoluteUrl baseUrl)
  offers := {
    price := formatPriceMinor card.priceMinor
    priceCurrency := card.currency
    availability := "https://schema.org/InStock" }

/-! ## Scripts -/

def hexDigit (n : Nat) : Char := Char.ofNat (if n < 10 then '0'.toNat + n else 'a'.toNat + n - 10)

/-- The characters that `serde_json` escapes with one letter. -/
def letter : Char → Option Char
  | '"' => some '"'
  | '\\' => some '\\'
  | '\x08' => some 'b'
  | '\t' => some 't'
  | '\n' => some 'n'
  | '\x0c' => some 'f'
  | '\r' => some 'r'
  | _ => none

def escape (c : Char) : List Char :=
  match letter c with
  | some d => ['\\', d]
  | none =>
    if c.toNat < 0x20 then
      ['\\', 'u', '0', '0', hexDigit (c.toNat / 16), hexDigit (c.toNat % 16)]
    else [c]

theorem unescape_letter {c d : Char} (h : letter c = some d) :
    Json.unescape d = some c ∧ d ≠ 'u' := by
  unfold letter at h
  split at h
  case h_8 => cases h
  all_goals
    obtain rfl := Option.some.inj h
    decide

theorem ne_of_letter {c : Char} (h : letter c = none) : c ≠ '"' ∧ c ≠ '\\' := by
  constructor
  · rintro rfl
    cases h
  · rintro rfl
    cases h

theorem readChar_escape (c : Char) (rest : List Char) :
    Json.readChar (escape c ++ rest) = some (c, rest) := by
  unfold escape
  split
  · rename_i d hd
    obtain ⟨hread, hu⟩ := unescape_letter hd
    simp [Json.readChar, hu, hread]
  · rename_i hletter
    obtain ⟨hquote, hbackslash⟩ := ne_of_letter hletter
    split
    · rename_i hcontrol
      have hdigits : ∀ n < 0x20, Json.hexValue (hexDigit (n / 16)) = some (n / 16) ∧
          Json.hexValue (hexDigit (n % 16)) = some (n % 16) := by decide
      have hzero : Json.hexValue '0' = some 0 := by decide
      have hcode : c.toNat / 16 * 16 + c.toNat % 16 = c.toNat := by omega
      have hlow : c.toNat < 0xD800 := by omega
      obtain ⟨hhigh, hlast⟩ := hdigits c.toNat hcontrol
      simp [Json.readChar, Json.readUnicode, Json.readUnit, hzero, hhigh, hlast, hcode, hlow]
    · rename_i hplain
      simp [Json.readChar, hquote, hbackslash, hplain]

/-- The escapes of `serde_json`. -/
def serdeJson : Json.Escaping := ⟨escape, readChar_escape⟩

/-- `serde_json::to_string`, whatever escapes it uses. -/
def toJson (serde : Json.Escaping) (v : Json) : List Char := Json.write serde v

structure Script where
  type_ : String
  /-- Written as it is, without the escapes of HTML. -/
  content : String

/-- `"\\u003c"`. -/
def escapedLess : List Char := ['\\', 'u', '0', '0', '3', 'c']

def jsonldScript (serde : Json.Escaping) (v : Json) : Script where
  type_ := "application/ld+json"
  content := String.ofList (Json.replaceChar '<' escapedLess (toJson serde v))

theorem readChar_escapedLess (rest : List Char) :
    Json.readChar (escapedLess ++ rest) = some ('<', rest) := by
  rfl

/-- The head of `/p/{slug}`. -/
def productHead (baseUrl slug : String) (crumbs : List (String × Option String))
    (card : ProductView) : List Script :=
  [jsonldScript serdeJson (productLd baseUrl card).serialize,
    jsonldScript serdeJson (breadcrumbListLd baseUrl crumbs ("/p/" ++ slug)).serialize]

/-- A script cannot be closed from within, and says what it would say without the escape. -/
theorem jsonldScript_safe (serde : Json.Escaping) (v : Json) :
    '<' ∉ (jsonldScript serde v).content.toList ∧
      Json.parse (jsonldScript serde v).content.toList = some v := by
  rw [jsonldScript, String.toList_ofList]
  refine ⟨Json.not_mem_replaceChar (by decide) _, ?_⟩
  exact Json.parse_replaceChar serde (by decide) readChar_escapedLess (by decide) v

example : (jsonldScript serdeJson (.object [field "name" (text "\"</script>\\")])).content =
    "\x7b\"name\":\"\\\"\\u003c/script>\\\\\"\x7d" := by rfl

end Jsonld

end TinyShop
