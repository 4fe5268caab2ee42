import Mathlib.Data.List.Perm.Basic
import Mathlib.Data.List.Nodup

/-!
# Tables with a primary key

Rows are listed in the order of their insertion. That no two rows share a key is
a field of the table, so no statement below can break the primary key: `insert`
asks for a free key and an update has to leave the key of a row alone.
-/

namespace TinyShop.Base

set_option autoImplicit false

structure Table (ρ κ : Type) (key : ρ → κ) where
  rows : List ρ
  unique : (rows.map key).Nodup

namespace Table
variable {ρ κ : Type} {key : ρ → κ}

def empty : Table ρ κ key := ⟨[], List.nodup_nil⟩

instance : EmptyCollection (Table ρ κ key) := ⟨empty⟩

@[simp] theorem rows_empty : (∅ : Table ρ κ key).rows = [] := rfl

/-- `UPDATE … SET f WHERE p`. -/
def update (t : Table ρ κ key) (p : ρ → Bool) (f : ρ → ρ)
    (keeps : ∀ r, key (f r) = key r := by intro _; rfl) : Table ρ κ key where
  rows := t.rows.map fun r => if p r then f r else r
  unique := by
    have hkey : (fun r => key (if p r then f r else r)) = key := by
      funext r
      split <;> simp [keeps]
    simpa [List.map_map, Function.comp_def, hkey] using t.unique

theorem mem_update {t : Table ρ κ key} {p : ρ → Bool} {f : ρ → ρ}
    {keeps : ∀ r, key (f r) = key r} {r : ρ} :
    r ∈ (t.update p f keeps).rows ↔ ∃ s ∈ t.rows, (if p s then f s else s) = r := by
  simp [update]

/-- `DELETE … WHERE p`. -/
def delete (t : Table ρ κ key) (p : ρ → Bool) : Table ρ κ key where
  rows := t.rows.filter fun r => !p r
  unique := t.unique.sublist (List.Sublist.map key List.filter_sublist)

@[simp] theorem mem_delete {t : Table ρ κ key} {p : ρ → Bool} {r : ρ} :
    r ∈ (t.delete p).rows ↔ r ∈ t.rows ∧ p r = false := by
  simp [delete]

variable [DecidableEq κ]

/-- `SELECT … WHERE key = ?`. -/
def find? (t : Table ρ κ key) (k : κ) : Option ρ := t.rows.find? fun r => key r = k

theorem key_of_find? {t : Table ρ κ key} {k : κ} {r : ρ} (h : t.find? k = some r) : key r = k := by
  simpa using List.find?_some h

theorem mem_of_find? {t : Table ρ κ key} {k : κ} {r : ρ} (h : t.find? k = some r) : r ∈ t.rows :=
  List.mem_of_find?_eq_some h

theorem find?_eq_none_iff {t : Table ρ κ key} {k : κ} :
    t.find? k = none ↔ ∀ r ∈ t.rows, key r ≠ k := by
  simp [find?, List.find?_eq_none]

theorem find?_of_mem {t : Table ρ κ key} {r : ρ} (h : r ∈ t.rows) : t.find? (key r) = some r := by
  obtain ⟨rows, unique⟩ := t
  simp only [find?]
  induction rows with
  | nil => simp at h
  | cons a as ih =>
    rw [List.map_cons, List.nodup_cons] at unique
    rcases List.mem_cons.mp h with rfl | h
    · simp
    · have hne : key a ≠ key r := fun he => unique.1 (he ▸ List.mem_map_of_mem h)
      simpa [List.find?_cons, hne] using ih unique.2 h

theorem mem_rows_iff {t : Table ρ κ key} {r : ρ} : r ∈ t.rows ↔ t.find? (key r) = some r :=
  ⟨find?_of_mem, mem_of_find?⟩

theorem find?_isSome_iff {t : Table ρ κ key} {k : κ} :
    (t.find? k).isSome ↔ ∃ r ∈ t.rows, key r = k := by
  rw [Option.isSome_iff_exists]
  constructor
  · rintro ⟨r, h⟩
    exact ⟨r, mem_of_find? h, key_of_find? h⟩
  · rintro ⟨r, hr, rfl⟩
    exact ⟨r, find?_of_mem hr⟩

/-- `WHERE key = ?` keeps one row at most. -/
theorem filter_key (t : Table ρ κ key) (k : κ) :
    (t.rows.filter fun r => key r = k) = (t.find? k).toList := by
  obtain ⟨rows, unique⟩ := t
  simp only [find?]
  induction rows with
  | nil => rfl
  | cons a as ih =>
    rw [List.map_cons, List.nodup_cons] at unique
    by_cases ha : key a = k
    · have hrest : as.filter (fun r => key r = k) = [] := by
        refine List.filter_eq_nil_iff.mpr fun r hr hkey => unique.1 ?_
        rw [ha, ← of_decide_eq_true hkey]
        exact List.mem_map_of_mem hr
      simp [ha, hrest]
    · simpa [ha] using ih unique.2

/-- Two tables with the same answers to every lookup hold the same rows. -/
theorem rows_perm_of_find? {t u : Table ρ κ key} (h : ∀ k, t.find? k = u.find? k) :
    t.rows.Perm u.rows := by
  refine (List.perm_ext_iff_of_nodup (List.Nodup.of_map key t.unique)
    (List.Nodup.of_map key u.unique)).mpr fun r => ?_
  rw [mem_rows_iff, mem_rows_iff, h]

/-- `INSERT` of a row whose key is free. -/
def insert (t : Table ρ κ key) (r : ρ) (free : t.find? (key r) = none) : Table ρ κ key where
  rows := t.rows ++ [r]
  unique := by
    have hfree := find?_eq_none_iff.mp free
    rw [List.map_append, List.nodup_append]
    refine ⟨t.unique, List.nodup_singleton _, ?_⟩
    intro k hk k' hk'
    obtain ⟨s, hs, rfl⟩ := List.mem_map.mp hk
    rw [List.map_singleton, List.mem_singleton] at hk'
    exact hk' ▸ hfree s hs

@[simp] theorem rows_insert (t : Table ρ κ key) (r : ρ) (free : t.find? (key r) = none) :
    (t.insert r free).rows = t.rows ++ [r] := rfl

/-- A table with one row more. -/
theorem find?_of_append {t u : Table ρ κ key} {r : ρ} (h : u.rows = t.rows ++ [r]) (k : κ) :
    u.find? k = if key r = k then some r else t.find? k := by
  by_cases hk : key r = k
  · subst hk
    rw [if_pos rfl]
    exact find?_of_mem (by rw [h]; exact List.mem_append_right _ List.mem_cons_self)
  · rw [if_neg hk]
    unfold find?
    rw [h, List.find?_append]
    simp [hk]

theorem find?_insert (t : Table ρ κ key) (r : ρ) (free : t.find? (key r) = none) (k : κ) :
    (t.insert r free).find? k = if key r = k then some r else t.find? k :=
  find?_of_append (rows_insert t r free) k

/-- A table with the same rows, changed. -/
theorem find?_of_map {t u : Table ρ κ key} {f : ρ → ρ} (h : u.rows = t.rows.map f)
    (keeps : ∀ r, key (f r) = key r) (k : κ) : u.find? k = (t.find? k).map f := by
  unfold find?
  rw [h, List.find?_map]
  congr 2
  funext r
  simp only [Function.comp_apply, keeps]

theorem find?_update (t : Table ρ κ key) (p : ρ → Bool) (f : ρ → ρ)
    (keeps : ∀ r, key (f r) = key r) (k : κ) :
    (t.update p f keeps).find? k = (t.find? k).map fun r => if p r then f r else r := by
  have hkey : ∀ r, key (if p r then f r else r) = key r := by
    intro r
    split <;> simp [keeps]
  have hcond : ((fun r => decide (key r = k)) ∘ fun r => if p r then f r else r) =
      fun r => decide (key r = k) := by
    funext r
    simp only [Function.comp_apply, hkey]
  unfold find? update
  rw [List.find?_map, hcond]

theorem find?_delete (t : Table ρ κ key) (p : ρ → Bool) (k : κ) :
    (t.delete p).find? k = (t.find? k).filter fun r => !p r := by
  cases h : t.find? k with
  | none =>
    have hno := find?_eq_none_iff.mp h
    simp only [Option.filter_none]
    exact find?_eq_none_iff.mpr fun r hr => hno r (mem_delete.mp hr).1
  | some r =>
    have hr := mem_of_find? h
    have hk := key_of_find? h
    by_cases hp : p r = true
    · simp only [Option.filter_some, hp]
      refine find?_eq_none_iff.mpr fun s hs hsk => ?_
      obtain ⟨hmem, hfalse⟩ := mem_delete.mp hs
      have hs' := find?_of_mem hmem
      rw [hsk, h, Option.some.injEq] at hs'
      subst hs'
      simp [hp] at hfalse
    · have hmem : r ∈ (t.delete p).rows := mem_delete.mpr ⟨hr, by simpa using hp⟩
      have hf := find?_of_mem hmem
      rw [hk] at hf
      simpa [Option.filter_some, hp] using hf

/-- A condition on the key and on other columns. -/
theorem find?_delete_filter (t : Table ρ κ key) {p : ρ → Bool} {q : κ → ρ → Bool}
    (h : ∀ r, p r = !q (key r) r) (k : κ) :
    (t.delete p).find? k = (t.find? k).filter (q k) := by
  rw [find?_delete]
  cases hf : t.find? k with
  | none => rfl
  | some r => rw [Option.filter_some, Option.filter_some, h, Bool.not_not, key_of_find? hf]

/-- The condition says the same of every row with the key. -/
theorem find?_delete_of_key (t : Table ρ κ key) {p : ρ → Bool} {k : κ} {b : Bool}
    (h : ∀ r, key r = k → p r = b) :
    (t.delete p).find? k = if b then none else t.find? k := by
  rw [find?_delete]
  cases hf : t.find? k with
  | none => simp
  | some r =>
    rw [Option.filter_some, h r (key_of_find? hf)]
    cases b <;> rfl

/-- The row with one key goes. -/
theorem find?_delete_key (t : Table ρ κ key) (k k' : κ) :
    (t.delete fun r => key r = k).find? k' = if k' = k then none else t.find? k' := by
  rw [find?_delete_of_key (b := decide (k' = k)) t ?_]
  · simp only [decide_eq_true_eq]
  · rintro r rfl
    rfl

omit [DecidableEq κ] in
theorem delete_eq_self {t : Table ρ κ key} {p : ρ → Bool} (h : ∀ r ∈ t.rows, p r = false) :
    t.delete p = t := by
  obtain ⟨rows, unique⟩ := t
  have hrows : rows.filter (fun r => !p r) = rows :=
    List.filter_eq_self.mpr fun r hr => by rw [h r hr]; rfl
  simp only [delete, hrows]

/-- `INSERT … ON CONFLICT (key) DO UPDATE SET f`. -/
def upsert (t : Table ρ κ key) (r : ρ) (f : ρ → ρ)
    (keeps : ∀ s, key (f s) = key s := by intro _; rfl) : Table ρ κ key :=
  if free : t.find? (key r) = none then t.insert r free
  else t.update (fun s => key s = key r) f keeps

theorem find?_upsert (t : Table ρ κ key) (r : ρ) (f : ρ → ρ)
    (keeps : ∀ s, key (f s) = key s) (k : κ) :
    (t.upsert r f keeps).find? k =
      if key r = k then some ((t.find? k).elim r f) else t.find? k := by
  unfold upsert
  split
  · rename_i free
    rw [find?_insert]
    by_cases h : key r = k
    · subst h
      simp [free]
    · simp [h]
  · rename_i taken
    rw [find?_update]
    cases hf : t.find? k with
    | none =>
      by_cases h : key r = k
      · subst h
        exact absurd hf taken
      · simp [h]
    | some s =>
      have hk := key_of_find? hf
      by_cases h : key r = k
      · simp [h, hk]
      · simp [h, hk, Ne.symm h]

/-- An update that writes every column but the key leaves the row that was given. -/
theorem find?_upsert_of_replaces (t : Table ρ κ key) {r : ρ} {f : ρ → ρ}
    {keeps : ∀ s, key (f s) = key s} (h : ∀ s, key s = key r → f s = r) (k : κ) :
    (t.upsert r f keeps).find? k = if key r = k then some r else t.find? k := by
  rw [find?_upsert]
  by_cases hk : key r = k
  · rw [if_pos hk, if_pos hk]
    cases hf : t.find? k with
    | none => rfl
    | some s => exact congrArg some (h s ((key_of_find? hf).trans hk.symm))
  · rw [if_neg hk, if_neg hk]

/-- A row of the result was put in, was changed or was there before. -/
theorem mem_of_mem_upsert {t : Table ρ κ key} {r s : ρ} {f : ρ → ρ}
    {keeps : ∀ s, key (f s) = key s} (hs : s ∈ (t.upsert r f keeps).rows) :
    s = r ∨ ∃ old ∈ t.rows, s = old ∨ key old = key r ∧ s = f old := by
  unfold upsert at hs
  split at hs
  · rcases List.mem_append.mp hs with hold | hnew
    · exact Or.inr ⟨s, hold, Or.inl rfl⟩
    · exact Or.inl (List.mem_singleton.mp hnew)
  · obtain ⟨old, hold, rfl⟩ := mem_update.mp hs
    split
    · rename_i hkey
      exact Or.inr ⟨old, hold, Or.inr ⟨of_decide_eq_true hkey, rfl⟩⟩
    · exact Or.inr ⟨old, hold, Or.inl rfl⟩

/-- An upsert changes nothing if the row is there and the update keeps it. -/
theorem rows_upsert_of_mem {t : Table ρ κ key} {r : ρ} {f : ρ → ρ}
    {keeps : ∀ s, key (f s) = key s} (hr : r ∈ t.rows) (hf : f r = r) :
    (t.upsert r f keeps).rows = t.rows := by
  unfold upsert
  split
  · rename_i free
    rw [find?_of_mem hr] at free
    cases free
  · change (t.rows.map fun s => if decide (key s = key r) = true then f s else s) = t.rows
    refine (List.map_congr_left ?_).trans (List.map_id _)
    intro s hs
    split
    · rename_i hkey
      have hfind := find?_of_mem hs
      rw [of_decide_eq_true hkey, find?_of_mem hr] at hfind
      obtain rfl := Option.some.inj hfind
      exact hf
    · rfl

/-! ## Selections -/

section Selections
variable {t : Table ρ κ key} {P p : ρ → Bool} {f : ρ → ρ} {r : ρ}

theorem filter_insert (free : t.find? (key r) = none) (hr : P r = false) :
    (t.insert r free).rows.filter P = t.rows.filter P := by
  rw [rows_insert, List.filter_append, List.filter_singleton, hr]
  exact List.append_nil _

omit [DecidableEq κ] in
/-- An update is not seen if it changes nothing of the rows that are selected. -/
theorem filter_update {keeps : ∀ r, key (f r) = key r}
    (h : ∀ r ∈ t.rows, p r = true → f r = r ∨ P r = false ∧ P (f r) = false) :
    (t.update p f keeps).rows.filter P = t.rows.filter P := by
  change (t.rows.map fun r => if p r then f r else r).filter P = _
  generalize t.rows = rows at h ⊢
  induction rows with
  | nil => rfl
  | cons a rows ih =>
    have htail := ih fun r hr => h r (List.mem_cons_of_mem a hr)
    rw [List.map_cons]
    by_cases hp : p a = true
    · rw [if_pos hp]
      rcases h a List.mem_cons_self hp with hsame | ⟨hold, hnew⟩
      · rw [hsame, List.filter_cons, htail, ← List.filter_cons]
      · rw [List.filter_cons_of_neg (by simp [hnew]), List.filter_cons_of_neg (by simp [hold]), htail]
    · rw [if_neg hp, List.filter_cons, htail, ← List.filter_cons]

omit [DecidableEq κ] in
theorem filter_delete (h : ∀ r ∈ t.rows, p r = true → P r = false) :
    (t.delete p).rows.filter P = t.rows.filter P := by
  change (t.rows.filter fun r => !p r).filter P = _
  rw [List.filter_filter]
  apply List.filter_congr
  intro r hr
  cases hp : p r with
  | false => exact Bool.and_true _
  | true => rw [h r hr hp]; rfl

theorem filter_upsert {keeps : ∀ s, key (f s) = key s} (hr : P r = false)
    (h : ∀ s ∈ t.rows, key s = key r → P s = false ∧ P (f s) = false) :
    (t.upsert r f keeps).rows.filter P = t.rows.filter P := by
  unfold upsert
  split
  · exact filter_insert _ hr
  · apply filter_update
    intro s hs hkey
    exact Or.inr (h s hs (of_decide_eq_true hkey))

end Selections

end Table

/-- A table with a second unique index. -/
structure IndexedTable (ρ κ ι : Type) (key : ρ → κ) (index : ρ → ι) extends Table ρ κ key where
  distinct : (rows.map index).Nodup

namespace IndexedTable
variable {ρ κ ι : Type} {key : ρ → κ} {index : ρ → ι}

def empty : IndexedTable ρ κ ι key index := ⟨∅, List.nodup_nil⟩

instance : EmptyCollection (IndexedTable ρ κ ι key index) := ⟨empty⟩

@[simp] theorem toTable_empty : (∅ : IndexedTable ρ κ ι key index).toTable = ∅ := rfl

/-- The table as its unique index sees it. -/
def byIndex (t : IndexedTable ρ κ ι key index) : Table ρ ι index := ⟨t.rows, t.distinct⟩

/-- An update that leaves both the key and the index of a row alone. -/
def patch (t : IndexedTable ρ κ ι key index) (p : ρ → Bool) (f : ρ → ρ)
    (keeps : ∀ r, key (f r) = key r := by intro _; rfl)
    (keepsIndex : ∀ r, index (f r) = index r := by intro _; rfl) :
    IndexedTable ρ κ ι key index where
  toTable := t.toTable.update p f keeps
  distinct := by
    have hindex : (fun r => index (if p r then f r else r)) = index := by
      funext r
      split <;> simp [keepsIndex]
    simpa [Table.update, List.map_map, Function.comp_def, hindex] using t.distinct

def delete (t : IndexedTable ρ κ ι key index) (p : ρ → Bool) : IndexedTable ρ κ ι key index where
  toTable := t.toTable.delete p
  distinct := t.distinct.sublist (List.Sublist.map index List.filter_sublist)

@[simp] theorem toTable_patch (t : IndexedTable ρ κ ι key index) (p : ρ → Bool) (f : ρ → ρ)
    (keeps : ∀ r, key (f r) = key r) (keepsIndex : ∀ r, index (f r) = index r) :
    (t.patch p f keeps keepsIndex).toTable = t.toTable.update p f keeps := rfl

@[simp] theorem toTable_delete (t : IndexedTable ρ κ ι key index) (p : ρ → Bool) :
    (t.delete p).toTable = t.toTable.delete p := rfl

theorem mem_patch {t : IndexedTable ρ κ ι key index} {p : ρ → Bool} {f : ρ → ρ}
    {keeps : ∀ r, key (f r) = key r} {keepsIndex : ∀ r, index (f r) = index r} {r : ρ} :
    r ∈ (t.patch p f keeps keepsIndex).rows ↔ ∃ s ∈ t.rows, (if p s then f s else s) = r := by
  rw [toTable_patch, Table.mem_update]

theorem find?_patch [DecidableEq κ] (t : IndexedTable ρ κ ι key index) (p : ρ → Bool) (f : ρ → ρ)
    (keeps : ∀ r, key (f r) = key r) (keepsIndex : ∀ r, index (f r) = index r) (k : κ) :
    (t.patch p f keeps keepsIndex).find? k = (t.find? k).map fun r => if p r then f r else r := by
  rw [toTable_patch, Table.find?_update]

/-- The row with one key changes. -/
theorem find?_patch_key [DecidableEq κ] (t : IndexedTable ρ κ ι key index) (k k' : κ) (f : ρ → ρ)
    (keeps : ∀ r, key (f r) = key r) (keepsIndex : ∀ r, index (f r) = index r) :
    (t.patch (fun r => key r = k) f keeps keepsIndex).find? k' =
      if k' = k then (t.find? k').map f else t.find? k' := by
  rw [find?_patch]
  cases hf : t.find? k' with
  | none => simp
  | some r =>
    have hkey := Table.key_of_find? hf
    by_cases h : k' = k
    · simp [h, hkey]
    · simp [h, hkey]

variable [DecidableEq κ] [DecidableEq ι]

/-- No row but the one with key `k` has the index `i`. -/
def IndexFree (t : IndexedTable ρ κ ι key index) (k : κ) (i : ι) : Prop :=
  ∀ s ∈ t.rows, index s = i → key s = k

instance (t : IndexedTable ρ κ ι key index) (k : κ) (i : ι) : Decidable (t.IndexFree k i) :=
  inferInstanceAs (Decidable (∀ s ∈ t.rows, index s = i → key s = k))

/-- `INSERT`: `none` when the key or the index is taken. -/
def insert? (t : IndexedTable ρ κ ι key index) (r : ρ) : Option (IndexedTable ρ κ ι key index) :=
  if h : t.find? (key r) = none ∧ t.IndexFree (key r) (index r) then
    some {
      toTable := t.toTable.insert r h.1
      distinct := by
        rw [Table.rows_insert, List.map_append, List.nodup_append]
        refine ⟨t.distinct, List.nodup_singleton _, ?_⟩
        intro i hi j hj
        obtain ⟨s, hs, rfl⟩ := List.mem_map.mp hi
        rw [List.map_singleton, List.mem_singleton] at hj
        subst hj
        exact fun hindex => Table.find?_eq_none_iff.mp h.1 s hs (h.2 s hs hindex) }
  else none

/-- `UPDATE … SET f WHERE key = k`: `none` when the new index is taken by another row. -/
def update? (t : IndexedTable ρ κ ι key index) (k : κ) (f : ρ → ρ)
    (keeps : ∀ r, key (f r) = key r := by intro _; rfl) :
    Option (IndexedTable ρ κ ι key index) :=
  if h : ∀ r ∈ t.rows, key r = k → t.IndexFree k (index (f r)) then
    some {
      toTable := t.toTable.update (fun r => key r = k) f keeps
      distinct := by
        have hkeys := List.pairwise_map.mp t.unique
        have hindexes := List.pairwise_map.mp t.distinct
        simp only [Table.update, List.map_map]
        refine List.pairwise_map.mpr ((hkeys.and hindexes).imp_of_mem ?_)
        intro r s hr hs hne heq
        simp only [Function.comp_apply] at heq
        by_cases hrk : key r = k
        · have hsk : key s ≠ k := fun hsk => hne.1 (hrk.trans hsk.symm)
          simp only [hrk, hsk, decide_true, decide_false, if_true, if_false,
            Bool.false_eq_true] at heq
          exact hsk (h r hr hrk s hs heq.symm)
        · by_cases hsk : key s = k
          · simp only [hrk, hsk, decide_true, decide_false, if_true, if_false,
              Bool.false_eq_true] at heq
            exact hrk (h s hs hsk r hr heq)
          · simp only [hrk, hsk, decide_false, if_false, Bool.false_eq_true] at heq
            exact hne.2 heq }
  else none

theorem insert?_eq_some {t u : IndexedTable ρ κ ι key index} {r : ρ} (h : t.insert? r = some u) :
    t.find? (key r) = none ∧ t.IndexFree (key r) (index r) ∧ u.rows = t.rows ++ [r] := by
  unfold insert? at h
  split at h
  · rename_i hfree
    obtain rfl := Option.some.inj h
    exact ⟨hfree.1, hfree.2, rfl⟩
  · cases h

theorem insert?_eq_none_iff {t : IndexedTable ρ κ ι key index} {r : ρ} :
    t.insert? r = none ↔ ¬(t.find? (key r) = none ∧ t.IndexFree (key r) (index r)) := by
  unfold insert?
  split <;> simp_all

theorem find?_insert? {t u : IndexedTable ρ κ ι key index} {r : ρ} (h : t.insert? r = some u)
    (k : κ) : u.find? k = if key r = k then some r else t.find? k := by
  unfold insert? at h
  split at h
  · rename_i hfree
    obtain rfl := Option.some.inj h
    exact Table.find?_insert t.toTable r hfree.1 k
  · cases h

theorem update?_eq_some_iff {t u : IndexedTable ρ κ ι key index} {k : κ} {f : ρ → ρ}
    {keeps : ∀ r, key (f r) = key r} :
    t.update? k f keeps = some u ↔
      (∀ r ∈ t.rows, key r = k → t.IndexFree k (index (f r))) ∧
        u.toTable = t.toTable.update (fun r => key r = k) f keeps := by
  unfold update?
  split
  · rename_i hfree
    obtain ⟨u, hu⟩ := u
    simp only [Option.some.injEq, IndexedTable.mk.injEq]
    exact ⟨fun h => ⟨hfree, h.symm⟩, fun h => h.2.symm⟩
  · rename_i htaken
    simp [htaken]

theorem update?_eq_none_iff {t : IndexedTable ρ κ ι key index} {k : κ} {f : ρ → ρ}
    {keeps : ∀ r, key (f r) = key r} :
    t.update? k f keeps = none ↔ ¬∀ r ∈ t.rows, key r = k → t.IndexFree k (index (f r)) := by
  unfold update?
  split <;> simp_all

theorem find?_update? {t u : IndexedTable ρ κ ι key index} {k : κ} {f : ρ → ρ}
    {keeps : ∀ r, key (f r) = key r} (h : t.update? k f keeps = some u) (k' : κ) :
    u.find? k' = if k' = k then (t.find? k').map f else t.find? k' := by
  rw [(update?_eq_some_iff.mp h).2, Table.find?_update]
  cases hf : t.find? k' with
  | none => simp
  | some r =>
    have hk := Table.key_of_find? hf
    by_cases hkk : k' = k <;> simp [hk, hkk]

end IndexedTable

end TinyShop.Base
