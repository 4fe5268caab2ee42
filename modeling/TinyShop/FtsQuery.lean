import TinyShop.SearchSql

/-!
# Text in the full-text query

What a buyer types becomes a query of FTS5. The query is well formed if it is a
sequence of prefix terms `word*` whose words are barewords and not operators.
`build_fts_query` keeps the minus sign, which FTS5 does not take in a bareword, and
lets the words `AND`, `OR` and `NOT` through.
-/

namespace TinyShop

open Base
set_option autoImplicit false

namespace FtsQuery

/-- The characters of an FTS5 bareword. -/
def isBare (c : Char) : Bool := c.isAlphanum || c = '_' || 127 < c.toNat

def operators : List (List Char) := ["AND".toList, "OR".toList, "NOT".toList]

def Bareword (word : List Char) : Prop :=
  word ≠ [] ∧ (∀ c ∈ word, isBare c = true) ∧ word ∉ operators

/-- `word* word* …` -/
def prefixTerms (words : List (List Char)) : String :=
  " ".intercalate (words.map fun word => String.ofList word ++ "*")

def WellFormed (term : String) : Prop :=
  ∃ words, words ≠ [] ∧ (∀ word ∈ words, Bareword word) ∧ term = prefixTerms words

section Build
variable (env : SearchEnv)

/-- The characters of a word that are kept. -/
def kept (word : List Char) : List Char :=
  word.filter fun c => env.isAlphanumeric c || c = '-' || c = '_'

def keptWords (raw : String) : List (List Char) :=
  ((Text.splitWhitespace raw.toList []).map (kept env)).filter fun word => !word.isEmpty

theorem buildFtsQuery_eq (raw : String) :
    SqliteCatalogSearch.buildFtsQuery env raw = prefixTerms (keptWords env raw) := rfl

end Build

theorem splitOn_prefixTerms {words : List (List Char)} (hspace : ∀ word ∈ words, ' ' ∉ word)
    (hne : words ≠ []) :
    (prefixTerms words).toList.splitOn ' ' = words.map fun word => word ++ ['*'] := by
  have htext : (prefixTerms words).toList =
      [' '].intercalate (words.map fun word => word ++ ['*']) := by
    simp [prefixTerms, Function.comp_def]
  rw [htext, List.splitOn_intercalate]
  · intro part hpart
    obtain ⟨word, hword, rfl⟩ := List.mem_map.mp hpart
    simp [hspace word hword]
  · simpa using hne

/-- Words without a space can be read back from the query. -/
theorem prefixTerms_inj {xs ys : List (List Char)} (hxs : ∀ x ∈ xs, ' ' ∉ x)
    (hys : ∀ y ∈ ys, ' ' ∉ y) (hx : xs ≠ []) (hy : ys ≠ [])
    (h : prefixTerms xs = prefixTerms ys) : xs = ys := by
  have hsplit : xs.map (fun x => x ++ ['*']) = ys.map fun y => y ++ ['*'] := by
    rw [← splitOn_prefixTerms hxs hx, h, splitOn_prefixTerms hys hy]
  exact List.map_injective_iff.mpr (List.append_left_injective ['*']) hsplit

theorem space_notMem_of_bareword {word : List Char} (h : Bareword word) : ' ' ∉ word :=
  fun hmem => by simpa [isBare] using h.2.1 ' ' hmem

theorem wellFormed_prefixTerms {words : List (List Char)} (hspace : ∀ word ∈ words, ' ' ∉ word)
    (hne : words ≠ []) : WellFormed (prefixTerms words) ↔ ∀ word ∈ words, Bareword word := by
  constructor
  · rintro ⟨barewords, hbne, hbare, heq⟩
    have hsame : words = barewords := prefixTerms_inj hspace
      (fun word hword => space_notMem_of_bareword (hbare word hword)) hne hbne heq
    rw [hsame]
    exact hbare
  · intro hbare
    exact ⟨words, hne, hbare, rfl⟩

theorem mem_prefixTerms {words : List (List Char)} {c : Char}
    (hc : c ∈ (prefixTerms words).toList) : c = ' ' ∨ c = '*' ∨ ∃ word ∈ words, c ∈ word := by
  induction words with
  | nil => simp [prefixTerms] at hc
  | cons word words ih =>
    have hsplit : c ∈ word ∨ c = '*' ∨ c = ' ' ∨ c ∈ (prefixTerms words).toList := by
      cases words with
      | nil =>
        have hlast : c ∈ word ∨ c = '*' := by simpa [prefixTerms] using hc
        exact hlast.imp_right Or.inl
      | cons v vs => simpa [prefixTerms, or_assoc] using hc
    rcases hsplit with hword | hstar | hspace | hrest
    · exact Or.inr (Or.inr ⟨word, List.mem_cons_self, hword⟩)
    · exact Or.inr (Or.inl hstar)
    · exact Or.inl hspace
    · exact (ih hrest).imp_right (Or.imp_right fun ⟨w, hw, hmem⟩ => ⟨w, List.mem_cons_of_mem word hw, hmem⟩)

theorem minus_notMem_of_wellFormed {term : String} (h : WellFormed term) : '-' ∉ term.toList := by
  obtain ⟨words, _, hbare, rfl⟩ := h
  intro hminus
  rcases mem_prefixTerms hminus with hspace | hstar | ⟨word, hword, hmem⟩
  · cases hspace
  · cases hstar
  · have hminus := (hbare word hword).2.1 '-' hmem
    simp [isBare] at hminus

/-! ## The words that are kept -/

theorem mem_splitWhitespace (cs word : List Char) {c : Char} (hc : Text.isWhitespace c = false) :
    (∃ w ∈ Text.splitWhitespace cs word, c ∈ w) ↔ c ∈ word ∨ c ∈ cs := by
  induction cs generalizing word with
  | nil =>
    unfold Text.splitWhitespace
    split
    · rename_i hempty
      simp [List.isEmpty_iff.mp hempty]
    · simp
  | cons d cs ih =>
    unfold Text.splitWhitespace
    split
    · rename_i hd
      have hne : c ≠ d := by
        rintro rfl
        rw [hc] at hd
        cases hd
      split
      · rename_i hempty
        rw [ih, List.isEmpty_iff.mp hempty]
        simp [hne]
      · simp [ih, hne]
    · rw [ih]
      simp [or_assoc]

section Safe
variable {env : SearchEnv} {raw : String}

theorem mem_keptWords {w : List Char} :
    w ∈ keptWords env raw ↔ ∃ word ∈ Text.splitWhitespace raw.toList [], kept env word = w ∧ w ≠ [] := by
  simp only [keptWords, List.mem_filter, List.mem_map, Bool.not_eq_true', List.isEmpty_eq_false_iff]
  exact ⟨fun ⟨⟨word, hword, hkept⟩, hne⟩ => ⟨word, hword, hkept, hne⟩,
    fun ⟨word, hword, hkept, hne⟩ => ⟨⟨word, hword, hkept⟩, hne⟩⟩

/-- The minus sign is no white space and is kept. -/
theorem minus_mem_keptWords : (∃ w ∈ keptWords env raw, '-' ∈ w) ↔ '-' ∈ raw.toList := by
  have hminus : ∀ word, '-' ∈ kept env word ↔ '-' ∈ word := by
    intro word
    simp [kept]
  have hwords := mem_splitWhitespace raw.toList [] (c := '-') (by decide)
  constructor
  · rintro ⟨w, hw, hmem⟩
    obtain ⟨word, hword, rfl, _⟩ := mem_keptWords.mp hw
    simpa using hwords.mp ⟨word, hword, (hminus word).mp hmem⟩
  · intro hmem
    obtain ⟨word, hword, hmem⟩ := hwords.mpr (Or.inr hmem)
    have hkept := (hminus word).mpr hmem
    exact ⟨kept env word, mem_keptWords.mpr ⟨word, hword, rfl, List.ne_nil_of_mem hkept⟩, hkept⟩

section Ascii
variable (halnum : ∀ c : Char, c.toNat ≤ 127 → env.isAlphanumeric c = c.isAlphanum)
include halnum

theorem isBare_of_mem_kept {word : List Char} {c : Char} (hc : c ∈ kept env word) :
    c = '-' ∨ isBare c = true := by
  have hkept := (List.mem_filter.mp hc).2
  simp only [Bool.or_eq_true, decide_eq_true_eq] at hkept
  rcases hkept with (halpha | hminus) | hunder
  · right
    by_cases hascii : c.toNat ≤ 127
    · rw [halnum c hascii] at halpha
      simp [isBare, halpha]
    · simp [isBare, not_le.mp hascii]
  · exact Or.inl hminus
  · right
    simp [isBare, hunder]

theorem space_notMem_keptWords : ∀ w ∈ keptWords env raw, ' ' ∉ w := by
  intro w hw hspace
  obtain ⟨word, _, rfl, _⟩ := mem_keptWords.mp hw
  rcases isBare_of_mem_kept halnum hspace with hminus | hbare
  · cases hminus
  · simp [isBare] at hbare

theorem barewords_iff : (∀ w ∈ keptWords env raw, Bareword w) ↔
    '-' ∉ raw.toList ∧ ∀ word ∈ Text.splitWhitespace raw.toList [], kept env word ∉ operators := by
  constructor
  · intro h
    refine ⟨fun hminus => ?_, fun word hword hop => ?_⟩
    · obtain ⟨w, hw, hmem⟩ := minus_mem_keptWords.mpr hminus
      have hbare := (h w hw).2.1 '-' hmem
      simp [isBare] at hbare
    · have hne : kept env word ≠ [] := by
        rintro hnil
        rw [hnil] at hop
        simp [operators] at hop
      exact (h _ (mem_keptWords.mpr ⟨word, hword, rfl, hne⟩)).2.2 hop
  · rintro ⟨hminus, hops⟩ w hw
    obtain ⟨word, hword, rfl, hne⟩ := mem_keptWords.mp hw
    refine ⟨hne, fun c hc => ?_, hops word hword⟩
    rcases isBare_of_mem_kept halnum hc with rfl | hbare
    · exact absurd (minus_mem_keptWords.mp ⟨_, hw, hc⟩) hminus
    · exact hbare

end Ascii

/-- Nothing is left of the text, or a well-formed query. -/
def Clean (env : SearchEnv) (raw : String) : Prop :=
  SqliteCatalogSearch.buildFtsQuery env raw = "" ∨
    WellFormed (SqliteCatalogSearch.buildFtsQuery env raw)

theorem clean_iff (halnum : ∀ c : Char, c.toNat ≤ 127 → env.isAlphanumeric c = c.isAlphanum) :
    Clean env raw ↔ ∀ w ∈ keptWords env raw, Bareword w := by
  rw [Clean, buildFtsQuery_eq]
  by_cases hne : keptWords env raw = []
  · simp [hne, prefixTerms]
  · rw [wellFormed_prefixTerms (space_notMem_keptWords halnum) hne, or_iff_right]
    intro hempty
    have hsplit := splitOn_prefixTerms (space_notMem_keptWords halnum) hne
    rw [hempty] at hsplit
    obtain ⟨w, ws, hws⟩ := List.exists_cons_of_ne_nil hne
    rw [hws] at hsplit
    simp at hsplit

/-- A query that is not sent cannot fail. -/
theorem search_ok (hmatch : ∀ fts term, WellFormed term → ∃ ids, env.ftsMatch fts term = .ok ids)
    (hclean : Clean env raw) (db : CatalogDb) {query : SearchQuery} (htext : query.text = some raw) :
    ∃ result, SearchSql.search db env query = .ok result := by
  rw [SearchSql.search_eq, SqliteCatalogSearch.search_eq_answer]
  have hterm : SqliteCatalogSearch.ftsTerm env query =
      (some (SqliteCatalogSearch.buildFtsQuery env raw)).filter (· ≠ "") := by
    simp [SqliteCatalogSearch.ftsTerm, htext]
  rcases hclean with hempty | hformed
  · rw [hterm, hempty]
    exact ⟨_, rfl⟩
  · obtain ⟨ids, hids⟩ := hmatch db.fts _ hformed
    rw [hterm, Option.filter_some]
    split
    · rw [SqliteCatalogSearch.matchedIds, hids]
      exact ⟨_, rfl⟩
    · exact ⟨_, rfl⟩

end Safe

/-- What a buyer types gives a clean query, and no search for it fails. -/
def Safe (env : SearchEnv) (raw : String) : Prop :=
  Clean env raw ∧ ∀ db query, query.text = some raw →
    ∃ result, SearchSql.search db env query = .ok result

/-- What FTS5 and `char::is_alphanumeric` are relied on for: well-formed queries run, and
among the ASCII characters only letters and digits are alphanumeric. -/
theorem safe_iff (env : SearchEnv) (raw : String)
    (halnum : ∀ c : Char, c.toNat ≤ 127 → env.isAlphanumeric c = c.isAlphanum)
    (hmatch : ∀ fts term, WellFormed term → ∃ ids, env.ftsMatch fts term = .ok ids) :
    Safe env raw ↔ '-' ∉ raw.toList ∧
      ∀ word ∈ Text.splitWhitespace raw.toList [], kept env word ∉ operators := by
  rw [← barewords_iff halnum, ← clean_iff halnum]
  exact ⟨fun h => h.1, fun hclean => ⟨hclean, fun db _ htext => search_ok hmatch hclean db htext⟩⟩

/-- Letters and digits of ASCII only; a minus sign in a query is an error. -/
def ascii : SearchEnv where
  isAlphanumeric := Char.isAlphanum
  ftsMatch := fun _ term =>
    if '-' ∈ term.toList then .error ⟨"no such column: c"⟩ else .ok []

theorem safe_iff_office : Safe ascii "red pens" ↔ '-' ∉ "red pens".toList ∧
    ∀ word ∈ Text.splitWhitespace "red pens".toList [], kept ascii word ∉ operators := by
  apply safe_iff ascii "red pens" fun c _ => rfl
  intro fts term hformed
  exact ⟨[], if_neg (minus_notMem_of_wellFormed hformed)⟩

theorem usb_c : SqliteCatalogSearch.buildFtsQuery ascii "usb-c" = "usb-c*" ∧
    SearchSql.search (.initial ∅) ascii ⟨some "usb-c", none, [], .relevance, ⟨0, 24⟩⟩ =
      .error ⟨"no such column: c"⟩ ∧ ¬ Safe ascii "usb-c" := by
  have hterm : SqliteCatalogSearch.buildFtsQuery ascii "usb-c" = "usb-c*" := by rfl
  refine ⟨hterm, by rfl, fun hsafe => ?_⟩
  rcases hsafe.1 with hempty | hformed
  · simp [hterm] at hempty
  · rw [hterm] at hformed
    exact minus_notMem_of_wellFormed hformed (by decide)

end FtsQuery

end TinyShop
