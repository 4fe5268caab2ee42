import TinyShop.Base.Xml
import TinyShop.Sitemap

/-!
# The document of the sitemap

`render` and `escape_xml` of `crates/web/src/routes/sitemap.rs`: three replacements, one after
the other, and a loop that writes a `<loc>` for every URL. A reader of XML finds the very URLs
that were put in, whatever their texts look like.
-/

namespace TinyShop.Sitemap

open Base Jsonld
set_option autoImplicit false

/-- `str::replace` of one character. -/
def replace (c : Char) (text s : String) : String :=
  String.ofList (Json.replaceChar c text.toList s.toList)

def escapeXml (s : String) : String :=
  replace '>' "&gt;" (replace '<' "&lt;" (replace '&' "&amp;" s))

def renderLoc (xml loc : String) : String :=
  xml ++ "  <url><loc>" ++ escapeXml loc ++ "</loc></url>\n"

def opening : String :=
  "<?xml version=\"1.0\" encoding=\"UTF-8\"?>\n" ++
    "<urlset xmlns=\"http://www.sitemaps.org/schemas/sitemap/0.9\">\n"

def renderLocs (locs : List String) : String := locs.foldl renderLoc opening ++ "</urlset>\n"

/-- The categories come first; each loop has its own fuel. -/
def render (db : TaxonomyDb) (env : SearchEnv) (baseUrl : String) (categories products : Nat) :
    Option (Except WebError String) :=
  (categoryPaths db baseUrl categories).bind fun categories =>
    (productPaths db.toCatalogDb env baseUrl products).map fun products =>
      products.map fun products =>
        renderLocs (absoluteUrl baseUrl "/" :: (categories ++ products))

/-! ## Reading a sitemap -/

def named (name : String) (x : Xml) : Bool := x.tag.name.chars = name.toList

def namespaceUrl : String := "http://www.sitemaps.org/schemas/sitemap/0.9"

/-- The texts of the `loc` elements of a `urlset`. -/
def locTexts (root : Xml) : Option (List String) :=
  if named "urlset" root ∧ root.tag.attributes.any fun a =>
      a.name.chars = "xmlns".toList && a.value = namespaceUrl.toList
  then some (((root.children.filter (named "url")).flatMap fun url =>
    url.children.filter (named "loc")).map fun loc => String.ofList loc.innerText)
  else none

def readLocs (xml : String) : Option (List String) := (Xml.parse xml.toList).bind locTexts

/-! ## Escaping -/

/-- The three replacements. -/
def escapeChars (cs : List Char) : List Char :=
  Json.replaceChar '>' "&gt;".toList (Json.replaceChar '<' "&lt;".toList
    (Json.replaceChar '&' "&amp;".toList cs))

theorem toList_escapeXml (s : String) : (escapeXml s).toList = escapeChars s.toList := by
  simp only [escapeXml, replace, String.toList_ofList]
  rfl

theorem escapeChars_append (xs ys : List Char) :
    escapeChars (xs ++ ys) = escapeChars xs ++ escapeChars ys := by
  simp only [escapeChars, Json.replaceChar_append]

/-- Each character is written by itself: the ampersands that the later replacements put in come
too late for the first. -/
theorem escapeChars_eq_flatMap (cs : List Char) :
    escapeChars cs = cs.flatMap fun c => escapeChars [c] := by
  induction cs with
  | nil => rfl
  | cons c cs ih =>
    rw [← List.singleton_append, escapeChars_append, ih, List.flatMap_append,
      List.flatMap_singleton]

/-- The texts of the entities behind their ampersands. -/
def entities : List (List Char) := ["amp;".toList, "lt;".toList, "gt;".toList]

theorem escapeChars_singleton (c : Char) :
    (c = '&' ∧ escapeChars [c] = "&amp;".toList) ∨ (c = '<' ∧ escapeChars [c] = "&lt;".toList) ∨
      (c = '>' ∧ escapeChars [c] = "&gt;".toList) ∨
      (c ≠ '&' ∧ c ≠ '<' ∧ c ≠ '>' ∧ escapeChars [c] = [c]) := by
  by_cases hand : c = '&'
  · subst hand
    exact Or.inl ⟨rfl, rfl⟩
  · by_cases hless : c = '<'
    · subst hless
      exact Or.inr (Or.inl ⟨rfl, rfl⟩)
    · by_cases hgreater : c = '>'
      · subst hgreater
        exact Or.inr (Or.inr (Or.inl ⟨rfl, rfl⟩))
      · refine Or.inr (Or.inr (Or.inr ⟨hand, hless, hgreater, ?_⟩))
        have hkeep : ∀ {d : Char} (text : List Char), c ≠ d → Json.replaceChar d text [c] = [c] :=
          fun text hne => Json.replaceChar_cons_of_ne hne []
        rw [escapeChars, hkeep _ hand, hkeep _ hless, hkeep _ hgreater]

def escaping : Xml.Escaping where
  escape c := escapeChars [c]
  decodes c rest := by
    obtain ⟨rfl, h⟩ | ⟨rfl, h⟩ | ⟨rfl, h⟩ | ⟨hand, -, -, h⟩ := escapeChars_singleton c
    · rw [h]
      rfl
    · rw [h]
      rfl
    · rw [h]
      rfl
    · rw [h]
      exact Xml.decode_cons hand rest
  unmarked c := by
    obtain ⟨rfl, h⟩ | ⟨rfl, h⟩ | ⟨rfl, h⟩ | ⟨-, hless, hgreater, h⟩ := escapeChars_singleton c
    · rw [h]
      simp
    · rw [h]
      simp
    · rw [h]
      simp
    · rw [h, List.forall_mem_singleton]
      exact ⟨hless, hgreater⟩

theorem unmarked_escapeChars (cs : List Char) : '<' ∉ escapeChars cs ∧ '>' ∉ escapeChars cs := by
  have hunmarked : ∀ d ∈ escapeChars cs, d ≠ '<' ∧ d ≠ '>' := by
    intro d hd
    rw [escapeChars_eq_flatMap] at hd
    obtain ⟨c, -, hc⟩ := List.mem_flatMap.mp hd
    exact escaping.unmarked c d hc
  exact ⟨fun hmem => (hunmarked _ hmem).1 rfl, fun hmem => (hunmarked _ hmem).2 rfl⟩

theorem decode_escapeChars (cs : List Char) : Xml.decode (escapeChars cs) = some cs := by
  rw [escapeChars_eq_flatMap]
  exact Xml.decode_flatMap escaping.decodes cs

/-- In what stands for one character an ampersand can only come first. -/
theorem entity_of_singleton {c : Char} {before rest : List Char}
    (h : escapeChars [c] = before ++ '&' :: rest) : rest ∈ entities := by
  have hfirst : ∀ (text : List Char) {before rest : List Char}, '&' ∉ text →
      '&' :: text = before ++ '&' :: rest → rest = text := by
    intro text before rest hand h
    cases before with
    | nil => exact (List.cons.inj h).2.symm
    | cons d before =>
      refine absurd ?_ hand
      rw [(List.cons.inj h).2]
      exact List.mem_append_right _ List.mem_cons_self
  obtain ⟨-, hc⟩ | ⟨-, hc⟩ | ⟨-, hc⟩ | ⟨hand, -, -, hc⟩ := escapeChars_singleton c
  · rw [hfirst "amp;".toList (by simp) (hc.symm.trans h)]
    simp [entities]
  · rw [hfirst "lt;".toList (by simp) (hc.symm.trans h)]
    simp [entities]
  · rw [hfirst "gt;".toList (by simp) (hc.symm.trans h)]
    simp [entities]
  · refine absurd ?_ hand
    have hmem : '&' ∈ [c] := (hc.symm.trans h) ▸ List.mem_append_right _ List.mem_cons_self
    exact (List.mem_singleton.mp hmem).symm

theorem entity_of_escapeChars (cs : List Char) : ∀ before rest : List Char,
    escapeChars cs = before ++ '&' :: rest → ∃ entity ∈ entities, entity <+: rest := by
  induction cs with
  | nil =>
    intro before rest h
    exact absurd h.symm (List.append_ne_nil_of_right_ne_nil _ (List.cons_ne_nil _ _))
  | cons c cs ih =>
    intro before rest h
    rw [← List.singleton_append, escapeChars_append] at h
    rcases List.append_eq_append_iff.mp h with ⟨behind, -, hcs⟩ | ⟨behind, hc, hrest⟩
    · exact ih _ _ hcs
    · cases behind with
      | nil => exact ih [] _ hrest.symm
      | cons d behind =>
        obtain ⟨rfl, rfl⟩ := List.cons.inj hrest
        exact ⟨behind, entity_of_singleton hc, List.prefix_append _ _⟩

/-! ## The tree of the document -/

section Tree
open Xml (Tag)

/-- `xml` declares its version and its encoding. -/
def declared : List Xml.Attribute :=
  [⟨⟨"version".toList, by decide⟩, "1.0".toList⟩, ⟨⟨"encoding".toList, by decide⟩, "UTF-8".toList⟩]

def urlsetTag : Tag where
  name := ⟨"urlset".toList, by decide⟩
  attributes := [⟨⟨"xmlns".toList, by decide⟩, namespaceUrl.toList⟩]
  distinct := by decide

def urlTag : Tag := ⟨⟨"url".toList, by decide⟩, [], List.nodup_nil⟩

def locTag : Tag := ⟨⟨"loc".toList, by decide⟩, [], List.nodup_nil⟩

def urlElement (loc : String) : Xml :=
  .element urlTag [] [(.element locTag loc.toList [], [])]

/-- What stands in front of the next URL, or of the end. -/
def gap : List String → List Char
  | [] => ['\n']
  | _ :: _ => ['\n', ' ', ' ']

def entries : List String → List (Xml × List Char)
  | [] => []
  | loc :: locs => (urlElement loc, gap locs) :: entries locs

def tree (locs : List String) : Xml := .element urlsetTag (gap locs) (entries locs)

/-- A line of the loop. -/
def line (loc : String) : List Char :=
  ' ' :: ' ' :: (Xml.write escaping (urlElement loc) ++ ['\n'])

theorem toList_renderLoc (xml loc : String) :
    (renderLoc xml loc).toList = xml.toList ++ line loc := by
  have hloc : loc.toList.flatMap escaping.escape = escapeChars loc.toList :=
    (escapeChars_eq_flatMap loc.toList).symm
  simp [renderLoc, line, toList_escapeXml, urlElement, Xml.write, Xml.writeChildren, hloc, urlTag,
    locTag, Xml.writeAttributes]

theorem toList_foldl_renderLoc (locs : List String) : ∀ xml : String,
    (locs.foldl renderLoc xml).toList = xml.toList ++ locs.flatMap line := by
  induction locs with
  | nil => exact fun xml => (List.append_nil _).symm
  | cons loc locs ih =>
    intro xml
    rw [List.foldl_cons, ih, List.flatMap_cons, toList_renderLoc, List.append_assoc]

/-- The lines of the loop, with the line feed in front of the first. -/
theorem write_entries (locs : List String) :
    (gap locs).flatMap escaping.escape ++ Xml.writeChildren escaping (entries locs) =
      '\n' :: locs.flatMap line := by
  induction locs with
  | nil => rfl
  | cons loc locs ih =>
    have hgap : (gap (loc :: locs)).flatMap escaping.escape = ['\n', ' ', ' '] := rfl
    rw [entries, Xml.writeChildren, List.append_assoc _ (List.flatMap _ _), ih, hgap,
      List.flatMap_cons, line]
    simp only [List.cons_append, List.nil_append, List.append_assoc]

theorem toList_opening : opening.toList = ['<', '?', 'x', 'm', 'l'] ++
    (Xml.writeAttributes declared ++ '?' :: '>' :: '\n' :: '<' :: (urlsetTag.name.chars ++
      (Xml.writeAttributes urlsetTag.attributes ++ ['>', '\n']))) := by
  decide +kernel

theorem toList_renderLocs (locs : List String) :
    (renderLocs locs).toList = Xml.document escaping declared (tree locs) := by
  have hclosing : "</urlset>\n".toList = '<' :: '/' :: urlsetTag.name.chars ++ ['>', '\n'] := rfl
  have hlines : ∀ rest, (gap locs).flatMap escaping.escape ++
      (Xml.writeChildren escaping (entries locs) ++ rest) =
        '\n' :: (locs.flatMap line ++ rest) := by
    intro rest
    rw [← List.append_assoc, write_entries, List.cons_append]
  rw [renderLocs, String.toList_append, toList_foldl_renderLoc, toList_opening, hclosing]
  simp only [Xml.document, tree, Xml.write, List.append_assoc, List.cons_append, List.nil_append,
    hlines]

/-! ## What a reader finds -/

theorem children_tree (locs : List String) : (tree locs).children = locs.map urlElement := by
  have hentries : (entries locs).map Prod.fst = locs.map urlElement := by
    induction locs with
    | nil => rfl
    | cons loc locs ih => rw [entries, List.map_cons, ih, List.map_cons]
  exact hentries

theorem locTexts_tree (locs : List String) : locTexts (tree locs) = some locs := by
  have htexts : ((locs.map urlElement).flatMap fun url => url.children.filter (named "loc")).map
      (fun loc => String.ofList loc.innerText) = locs := by
    induction locs with
    | nil => rfl
    | cons loc locs ih =>
      have hloc : ((urlElement loc).children.filter (named "loc")).map
          (fun loc => String.ofList loc.innerText) = [loc] := by
        have htext : String.ofList (loc.toList ++ []) = loc := by
          rw [List.append_nil, String.ofList_toList]
        exact congrArg (fun loc => [loc]) htext
      rw [List.map_cons, List.flatMap_cons, List.map_append, ih, hloc]
      rfl
  have hurls : (locs.map urlElement).filter (named "url") = locs.map urlElement := by
    refine List.filter_eq_self.mpr fun url hurl => ?_
    obtain ⟨loc, -, rfl⟩ := List.mem_map.mp hurl
    rfl
  have hroot : named "urlset" (tree locs) = true := rfl
  have hnamespace : (tree locs).tag.attributes.any (fun a =>
      a.name.chars = "xmlns".toList && a.value = namespaceUrl.toList) = true := by
    simp [tree, Xml.tag, urlsetTag]
  rw [locTexts, if_pos ⟨hroot, hnamespace⟩, children_tree, hurls, htexts]

/-- A reader of XML sees every character of the text as it stands. -/
def Stable (s : String) : Prop := ∀ c ∈ s.toList, Xml.isStable c = true

theorem stable_of_all {s : String} (h : s.toList.all Xml.isStable = true) : Stable s :=
  List.all_eq_true.mp h

theorem stable_append {s t : String} (hs : Stable s) (ht : Stable t) : Stable (s ++ t) := by
  intro c hc
  rw [String.toList_append] at hc
  exact (List.mem_append.mp hc).elim (hs c) (ht c)

theorem stable_escapeXml {s : String} (hs : Stable s) : Stable (escapeXml s) := by
  have hentity : ∀ text ∈ ["&amp;", "&lt;", "&gt;"], Stable text := by
    intro text htext
    refine stable_of_all ?_
    simp only [List.mem_cons, List.not_mem_nil, or_false] at htext
    rcases htext with rfl | rfl | rfl <;> decide +kernel
  intro d hd
  rw [toList_escapeXml, escapeChars_eq_flatMap] at hd
  obtain ⟨c, hc, hd⟩ := List.mem_flatMap.mp hd
  obtain ⟨-, h⟩ | ⟨-, h⟩ | ⟨-, h⟩ | ⟨-, -, -, h⟩ := escapeChars_singleton c
  · exact hentity "&amp;" (by simp) d (h ▸ hd)
  · exact hentity "&lt;" (by simp) d (h ▸ hd)
  · exact hentity "&gt;" (by simp) d (h ▸ hd)
  · rw [h, List.mem_singleton] at hd
    exact hd ▸ hs c hc

theorem stable_foldl_renderLoc {locs : List String} (h : ∀ loc ∈ locs, Stable loc) :
    ∀ {xml : String}, Stable xml → Stable (locs.foldl renderLoc xml) := by
  have hopen : Stable "  <url><loc>" := stable_of_all (by decide +kernel)
  have hclose : Stable "</loc></url>\n" := stable_of_all (by decide +kernel)
  induction locs with
  | nil => exact fun {_} hxml => hxml
  | cons loc locs ih =>
    intro xml hxml
    obtain ⟨hloc, hlocs⟩ := List.forall_mem_cons.mp h
    exact ih hlocs (stable_append (stable_append (stable_append hxml hopen)
      (stable_escapeXml hloc)) hclose)

theorem stable_renderLocs {locs : List String} (h : ∀ loc ∈ locs, Stable loc) :
    Stable (renderLocs locs) := by
  have hopening : Stable opening := stable_of_all (by decide +kernel)
  have hclosing : Stable "</urlset>\n" := stable_of_all (by decide +kernel)
  exact stable_append (stable_foldl_renderLoc h hopening) hclosing

/-- A reader of the document finds the URLs that were put in, in their order. -/
theorem readLocs_renderLocs {locs : List String} (h : ∀ loc ∈ locs, Stable loc) :
    readLocs (renderLocs locs) = some locs := by
  have hstable := stable_renderLocs h
  rw [Stable, toList_renderLocs] at hstable
  rw [readLocs, toList_renderLocs, Xml.parse_document (by decide +kernel) _ hstable,
    Option.bind_some, locTexts_tree]

/-- What the two loops have collected is what a reader of the page finds. -/
theorem readLocs_render (db : TaxonomyDb) (env : SearchEnv) (baseUrl : String) (m n : Nat)
    (categories products : List String) (hcategories : categoryPaths db baseUrl m = some categories)
    (hproducts : productPaths db.toCatalogDb env baseUrl n = some (.ok products))
    (h : ∀ url ∈ absoluteUrl baseUrl "/" :: (categories ++ products), Stable url) :
    ∃ xml, render db env baseUrl m n = some (.ok xml) ∧
      readLocs xml = some (absoluteUrl baseUrl "/" :: (categories ++ products)) := by
  refine ⟨_, ?_, readLocs_renderLocs h⟩
  rw [render, hcategories, Option.bind_some, hproducts]
  rfl

/-- The URLs come through the document of the page as they are, and each text through the
replacements, whatever it looks like: they leave no bracket, and no ampersand that starts no entity. -/
theorem urls_survive_escaping {locs : List String} (h : ∀ loc ∈ locs, Stable loc) :
    readLocs (renderLocs locs) = some locs ∧
      (∀ db env baseUrl m n categories products, categoryPaths db baseUrl m = some categories →
        productPaths db.toCatalogDb env baseUrl n = some (.ok products) →
        locs = absoluteUrl baseUrl "/" :: (categories ++ products) →
        ∃ xml, render db env baseUrl m n = some (.ok xml) ∧ readLocs xml = some locs) ∧
      ∀ s : String, '<' ∉ (escapeXml s).toList ∧ '>' ∉ (escapeXml s).toList ∧
        (∀ before rest, (escapeXml s).toList = before ++ '&' :: rest →
          ∃ entity ∈ entities, entity <+: rest) ∧
        Xml.decode (escapeXml s).toList = some s.toList := by
  refine ⟨readLocs_renderLocs h, ?_, fun s => ?_⟩
  · rintro db env baseUrl m n categories products hcategories hproducts rfl
    exact readLocs_render db env baseUrl m n categories products hcategories hproducts h
  rw [toList_escapeXml]
  obtain ⟨hless, hgreater⟩ := unmarked_escapeChars s.toList
  exact ⟨hless, hgreater, entity_of_escapeChars s.toList, decode_escapeChars s.toList⟩

/-- A slug that looks like markup, and one that looks like an escaped text. -/
theorem urls_survive_escaping_markup :
    readLocs (renderLocs ["http://shop/p/</loc>&", "http://shop/p/&lt;&amp;gt;"]) =
        some ["http://shop/p/</loc>&", "http://shop/p/&lt;&amp;gt;"] ∧
      ∀ s : String, '<' ∉ (escapeXml s).toList ∧ '>' ∉ (escapeXml s).toList ∧
        (∀ before rest, (escapeXml s).toList = before ++ '&' :: rest →
          ∃ entity ∈ entities, entity <+: rest) ∧
        Xml.decode (escapeXml s).toList = some s.toList := by
  have hstable : ∀ loc ∈ ["http://shop/p/</loc>&", "http://shop/p/&lt;&amp;gt;"], Stable loc :=
    List.forall_mem_cons.mpr ⟨stable_of_all (by decide +kernel),
      List.forall_mem_singleton.mpr (stable_of_all (by decide +kernel))⟩
  obtain ⟨hread, _, htexts⟩ := urls_survive_escaping hstable
  exact ⟨hread, htexts⟩

end Tree

end TinyShop.Sitemap
