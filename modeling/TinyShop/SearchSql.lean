import TinyShop.Base.QueryBuilder
import TinyShop.Search

/-!
# The statements behind a search

`search` of `crates/catalog/src/search.rs` asks the database twice, once for the
number of rows and once for a page of them, and builds both statements while it
walks over the query. The conditions of a statement are kept as a tree with the
numbers of its placeholders; that both statements say what `pushWhere` says is
proved at the end.
-/

namespace TinyShop

open Base QueryBuilder
set_option autoImplicit false

namespace SearchSql

open SqliteCatalogSearch (matchedIds found orderLe)

/-- A value bound to a placeholder. A real number that is `NaN` is bound as `NULL`. -/
inductive SqlValue where
  | text (s : String)
  | integer (n : Int)
  | real (x : F64)
deriving DecidableEq

namespace SqlValue

def text? : SqlValue → Option String
  | text s => some s
  | _ => none

def integer? : SqlValue → Option Int
  | integer n => some n
  | _ => none

def real? : SqlValue → Option F64
  | real x => some x
  | _ => none

end SqlValue

/-- A condition on a row of `product_attr_index`. -/
inductive AttrCond where
  | valTextIn (values : List Nat)
  | valNumEq (value : Nat)
  | valNumGe (min : Nat)
  | valNumLe (max : Nat)

/-- A condition on a row `pp` of `product_projection`. -/
inductive Cond where
  | published
  | idInFts (term : Nat)
  | idInCategory (categoryId : Nat)
  | priceGe (min : Nat)
  | priceLe (max : Nat)
  /-- `pp.id IN (SELECT product_id … WHERE attribute_id = ? AND …)`, and with a count
  `GROUP BY product_id HAVING COUNT(DISTINCT val_text) = ?`. -/
  | idInAttr (attributeId : Nat) (conds : List AttrCond) (count : Option Nat)

/-! ## Building -/

abbrev SqlBuild := Build Cond SqlValue

def pushFilterCond : FilterCond → SqlBuild Unit
  | .rangePrice minMinor maxMinor => do
    forM minMinor fun min => do
      let min ← pushBind (.integer min.toInt)
      push (.priceGe min)
    forM maxMinor fun max => do
      let max ← pushBind (.integer max.toInt)
      push (.priceLe max)
  | .checkboxOr attributeId values =>
    if values.isEmpty then pure ()
    else do
      let attributeId ← pushBind (.text attributeId)
      let values ← (values.map SqlValue.text).mapM pushBind
      push (.idInAttr attributeId [.valTextIn values] none)
  | .enumAnd attributeId values =>
    if values.isEmpty then pure ()
    else do
      let n : Int := values.length
      let attributeId ← pushBind (.text attributeId)
      let values ← (values.map SqlValue.text).mapM pushBind
      let n ← pushBind (.integer n)
      push (.idInAttr attributeId [.valTextIn values] (some n))
  | .number attributeId value => do
    let attributeId ← pushBind (.text attributeId)
    let value ← pushBind (.real value)
    push (.idInAttr attributeId [.valNumEq value] none)
  | .rangeGeneric attributeId min max => do
    let attributeId ← pushBind (.text attributeId)
    let min ← (min.toList.map SqlValue.real).mapM pushBind
    let max ← (max.toList.map SqlValue.real).mapM pushBind
    push (.idInAttr attributeId (min.map .valNumGe ++ max.map .valNumLe) none)

def pushWhere (query : SearchQuery) (ftsTerm : Option String) : SqlBuild Unit := do
  push .published
  forM ftsTerm fun term => do
    let term ← pushBind (.text term)
    push (.idInFts term)
  forM query.categoryId fun catId => do
    let catId ← pushBind (.text catId)
    push (.idInCategory catId)
  forM query.filters pushFilterCond

/-- What follows the conditions: `ORDER BY … LIMIT ? OFFSET ?`. -/
structure Tail where
  order : ProjectionRow → ProjectionRow → Bool
  limit : Nat
  offset : Nat

def pushCards (query : SearchQuery) (ftsTerm : Option String) (limit offset : Int) :
    SqlBuild Tail := do
  pushWhere query ftsTerm
  let limit ← pushBind (.integer limit)
  let offset ← pushBind (.integer offset)
  pure ⟨orderLe query.sort, limit, offset⟩

/-! ## Running -/

section Run
variable (db : CatalogDb)

/-- A comparison with `NULL` is not true. -/
def AttrCond.test (arg : Nat → Option SqlValue) (a : AttrIndexRow) : AttrCond → Bool
  | .valTextIn values =>
    a.valText.any fun s => values.any fun i => (arg i).bind SqlValue.text? = some s
  | .valNumEq value =>
    a.valNum.any fun n => ((arg value).bind SqlValue.real?).any fun x => n.le x && x.le n
  | .valNumGe min => a.valNum.any fun n => ((arg min).bind SqlValue.real?).any fun x => x.le n
  | .valNumLe max => a.valNum.any fun n => ((arg max).bind SqlValue.real?).any fun x => n.le x

/-- The rows that a subquery on `product_attr_index` reads for one product. -/
def attrRows (arg : Nat → Option SqlValue) (attributeId : Nat) (conds : List AttrCond)
    (productId : String) : List AttrIndexRow :=
  db.attrIndex.rows.filter fun a =>
    a.productId = productId && (arg attributeId).bind SqlValue.text? = some a.attributeId &&
      conds.all fun c => c.test arg a

variable (env : SearchEnv)

/-- Of the conditions only `MATCH` can fail. -/
def Cond.test (arg : Nat → Option SqlValue) : Cond → Except SearchError (ProjectionRow → Bool)
  | .published => .ok fun pp => pp.status = "published"
  | .idInFts term => do
    let ids ← env.ftsMatch db.fts (((arg term).bind SqlValue.text?).getD "")
    .ok fun pp => pp.id ∈ ids
  | .idInCategory categoryId => .ok fun pp => db.attrIndex.rows.any fun a =>
      a.productId = pp.id && (arg categoryId).bind SqlValue.text? = some a.categoryId
  | .priceGe min => .ok fun pp =>
      ((arg min).bind SqlValue.integer?).any fun min => min ≤ pp.priceMinor.toInt
  | .priceLe max => .ok fun pp =>
      ((arg max).bind SqlValue.integer?).any fun max => pp.priceMinor.toInt ≤ max
  | .idInAttr attributeId conds none => .ok fun pp =>
      !(attrRows db arg attributeId conds pp.id).isEmpty
  | .idInAttr attributeId conds (some count) => .ok fun pp =>
      let group := attrRows db arg attributeId conds pp.id
      !group.isEmpty && ((arg count).bind SqlValue.integer?).any fun n =>
        ((group.filterMap AttrIndexRow.valText).dedup.length : Int) = n

def whereTest (arg : Nat → Option SqlValue) : List Cond → Except SearchError (ProjectionRow → Bool)
  | [] => .ok fun _ => true
  | c :: cs => do
    let p ← c.test db env arg
    let q ← whereTest arg cs
    .ok fun pp => p pp && q pp

/-- The rows that the conditions of a statement keep. -/
def select (qb : QueryBuilder Cond SqlValue) : Except SearchError (List ProjectionRow) := do
  let p ← whereTest db env qb.bound qb.parts
  .ok (db.projection.rows.filter p)

def countResults (query : SearchQuery) (ftsTerm : Option String) :
    Except SearchError UInt64 := do
  let rows ← select db env ((pushWhere query ftsTerm).run .new).2
  let count := Int64.ofNat rows.length
  .ok count.toUInt64

def limitOf (v : Option SqlValue) : Nat := ((v.bind SqlValue.integer?).getD 0).toNat

def search (query : SearchQuery) : Except SearchError SearchResult := do
  let limit : Int := (Pagination.clampLimit query.page.limit).toNat
  let offset : Int := query.page.offset.toNat
  let ftsTerm := SqliteCatalogSearch.ftsTerm env query
  let total ← countResults db env query ftsTerm
  if total = 0 then return ⟨[], 0⟩
  else
    let (tail, qb) := (pushCards query ftsTerm limit offset).run .new
    let rows ← select db env qb
    let page := ((rows.insertionSort fun a b => tail.order a b).drop
      (limitOf (qb.bound tail.offset))).take (limitOf (qb.bound tail.limit))
    return ⟨page.map SqliteCatalogSearch.mapCardRow, total⟩

/-! ## What the conditions say -/

/-- The conditions that were pushed test for `p`. -/
def Tests {α : Type} (p : Except SearchError (ProjectionRow → Bool)) :
    (Nat → Option SqlValue) → α → List Cond → Prop :=
  fun arg _ conds => whereTest db env arg conds = p

def both (p q : Except SearchError (ProjectionRow → Bool)) :
    Except SearchError (ProjectionRow → Bool) := do
  let p ← p
  let q ← q
  .ok fun pp => p pp && q pp

theorem whereTest_append (arg : Nat → Option SqlValue) (ps qs : List Cond) :
    whereTest db env arg (ps ++ qs) = both (whereTest db env arg ps) (whereTest db env arg qs) := by
  induction ps with
  | nil =>
    cases hq : whereTest db env arg qs <;> simp [whereTest, both, hq, bind, Except.bind]
  | cons c ps ih =>
    simp only [List.cons_append, whereTest, ih, both]
    cases c.test db env arg with
    | error e => rfl
    | ok p =>
      cases whereTest db env arg ps with
      | error e => rfl
      | ok q =>
        cases whereTest db env arg qs with
        | error e => rfl
        | ok r => simp [bind, Except.bind, Bool.and_assoc]

theorem whereTest_singleton (arg : Nat → Option SqlValue) (c : Cond) :
    whereTest db env arg [c] = c.test db env arg := by
  cases hc : c.test db env arg <;> simp [whereTest, hc, bind, Except.bind]

variable {db env}

theorem tests_bind {α β : Type} {b : SqlBuild α} {f : α → SqlBuild β}
    {p q r : Except SearchError (ProjectionRow → Bool)} (hb : Builds b (Tests db env p))
    (hf : ∀ a, Builds (f a) (Tests db env q)) (h : both p q = r) :
    Builds (b >>= f) (Tests db env r) := by
  refine builds_bind hb hf ?_
  rintro arg a c ps qs rfl rfl
  rw [Tests, whereTest_append, h]

theorem tests_option {ι : Type} {o : Option ι} {f : ι → SqlBuild Unit}
    {p : ι → Except SearchError (ProjectionRow → Bool)}
    {q : Except SearchError (ProjectionRow → Bool)} (hf : ∀ x, Builds (f x) (Tests db env (p x)))
    (hnone : o = none → q = .ok fun _ => true) (hsome : ∀ x, o = some x → p x = q) :
    Builds (forM o f) (Tests db env q) := by
  refine builds_option o hf (fun ho arg => ?_) fun x hx arg ps hps => ?_
  · exact (hnone ho).symm
  · exact Eq.trans hps (hsome x hx)

/-- A condition with one placeholder. -/
theorem tests_pushBind_push {v : SqlValue} {c : Nat → Cond}
    {p : Except SearchError (ProjectionRow → Bool)}
    (h : ∀ arg i, arg i = some v → (c i).test db env arg = p) :
    Builds (pushBind v >>= fun i => push (c i)) (Tests db env p) := by
  refine (builds_pushBind_push v c).imp ?_
  rintro arg _ parts ⟨i, hi, rfl⟩
  exact (whereTest_singleton db env arg (c i)).trans (h arg i hi)

/-- A condition that is pushed if there is a value for its placeholder. -/
theorem tests_optional {ι : Type} {o : Option ι} {v : ι → SqlValue} {c : Nat → Cond}
    {t : ι → ProjectionRow → Bool}
    (h : ∀ x arg i, arg i = some (v x) → (c i).test db env arg = .ok (t x)) :
    Builds (forM o fun x => pushBind (v x) >>= fun i => push (c i))
      (Tests db env (.ok fun pp => o.all fun x => t x pp)) := by
  refine tests_option (fun x => tests_pushBind_push (h x)) ?_ ?_
  · rintro rfl
    rfl
  · rintro x rfl
    rfl

theorem tests_nothing {q : ProjectionRow → Bool} (hq : ∀ pp, q pp = true) :
    Builds (pure () : SqlBuild Unit) (Tests db env (.ok q)) := by
  apply builds_pure
  intro arg
  rw [Tests, whereTest, funext hq]

/-- A condition on the index rows of one attribute, whose id is bound first. -/
theorem tests_idInAttr {attributeId : String} {rest : Nat → SqlBuild Unit}
    {P : (Nat → Option SqlValue) → List AttrCond → Option Nat → Prop}
    {p : Except SearchError (ProjectionRow → Bool)}
    (hrest : ∀ i, Builds (rest i) fun arg _ parts =>
      ∃ conds count, P arg conds count ∧ parts = [.idInAttr i conds count])
    (h : ∀ arg i conds count, arg i = some (.text attributeId) → P arg conds count →
      (Cond.idInAttr i conds count).test db env arg = p) :
    Builds (pushBind (.text attributeId) >>= rest) (Tests db env p) := by
  refine builds_bind (builds_pushBind _) hrest ?_
  rintro arg i _ ps qs ⟨hi, rfl⟩ ⟨conds, count, hP, rfl⟩
  exact (whereTest_singleton db env arg _).trans (h arg i conds count hi hP)

theorem attrRows_eq {arg : Nat → Option SqlValue} {i : Nat} {attributeId : String}
    (hi : arg i = some (.text attributeId)) (conds : List AttrCond) (productId : String) :
    attrRows db arg i conds productId = db.attrIndex.rows.filter fun a =>
      a.productId = productId && a.attributeId = attributeId && conds.all fun c => c.test arg a := by
  unfold attrRows
  apply List.filter_congr
  intro a _
  simp [hi, SqlValue.text?, eq_comm]

/-- Without a count it is enough that one row is read. -/
theorem test_idInAttr {arg : Nat → Option SqlValue} {i : Nat} {attributeId : String}
    (hi : arg i = some (.text attributeId)) {conds : List AttrCond} {t : AttrIndexRow → Bool}
    (ht : ∀ a, (conds.all fun c => c.test arg a) = t a) :
    (Cond.idInAttr i conds none).test db env arg = .ok fun pp => db.attrIndex.rows.any fun a =>
      a.productId = pp.id && a.attributeId = attributeId && t a := by
  simp only [Cond.test, attrRows_eq hi, ht]
  congr 1
  funext pp
  rw [Bool.eq_iff_iff]
  simp [and_assoc]

theorem valTextIn_test {arg : Nat → Option SqlValue} {is : List Nat} {values : List String}
    (his : is.map arg = (values.map SqlValue.text).map some) (a : AttrIndexRow) :
    (AttrCond.valTextIn is).test arg a = a.valText.any (· ∈ values) := by
  have hmem : ∀ s, (is.any fun i => (arg i).bind SqlValue.text? = some s) = decide (s ∈ values) := by
    intro s
    have hany : (is.any fun i => (arg i).bind SqlValue.text? = some s) =
        (is.map arg).any fun v => v.bind SqlValue.text? = some s := by
      simp [List.any_map, Function.comp_def]
    rw [hany, his, Bool.eq_iff_iff]
    simp [SqlValue.text?]
  simp only [AttrCond.test, hmem]

section Bounds
variable {arg : Nat → Option SqlValue} {is : List Nat} {bound : Option F64}

/-- A bound that is given has one placeholder, and one that is not has none. -/
theorem bound_cases (his : is.map arg = (bound.toList.map SqlValue.real).map some) :
    (bound = none ∧ is = []) ∨ ∃ x i, bound = some x ∧ is = [i] ∧ arg i = some (.real x) := by
  cases bound with
  | none => exact Or.inl ⟨rfl, by simpa using his⟩
  | some x =>
    simp only [Option.toList_some, List.map_cons, List.map_nil, List.map_eq_cons_iff,
      List.map_eq_nil_iff] at his
    obtain ⟨i, rest, rfl, hi, rfl⟩ := his
    exact Or.inr ⟨x, i, rfl, rfl, hi⟩

theorem valNumGe_test (his : is.map arg = (bound.toList.map SqlValue.real).map some)
    (a : AttrIndexRow) : ((is.map AttrCond.valNumGe).all fun c => c.test arg a) =
      bound.all fun x => a.valNum.any fun n => x.le n := by
  rcases bound_cases his with ⟨rfl, rfl⟩ | ⟨x, i, rfl, rfl, hi⟩
  · rfl
  · simp [AttrCond.test, hi, SqlValue.real?]

theorem valNumLe_test (his : is.map arg = (bound.toList.map SqlValue.real).map some)
    (a : AttrIndexRow) : ((is.map AttrCond.valNumLe).all fun c => c.test arg a) =
      bound.all fun x => a.valNum.any fun n => n.le x := by
  rcases bound_cases his with ⟨rfl, rfl⟩ | ⟨x, i, rfl, rfl, hi⟩
  · rfl
  · simp [AttrCond.test, hi, SqlValue.real?]

end Bounds

/-- The texts that a subquery groups are those that `enumAnd` counts. -/
theorem filterMap_valText (rows : List AttrIndexRow) (productId attributeId : String)
    (values : List String) :
    (rows.filter fun a => a.productId = productId && a.attributeId = attributeId &&
      a.valText.any (· ∈ values)).filterMap AttrIndexRow.valText =
    rows.filterMap fun a => if a.productId = productId ∧ a.attributeId = attributeId then
      a.valText.filter (· ∈ values) else none := by
  rw [List.filterMap_filter]
  apply List.filterMap_congr
  intro a _
  by_cases hkey : a.productId = productId ∧ a.attributeId = attributeId
  · cases a.valText with
    | none => simp
    | some s => by_cases hs : s ∈ values <;> simp [hkey, hs, Option.filter]
  · have hno : (decide (a.productId = productId) && decide (a.attributeId = attributeId)) = false := by
      rw [← Bool.decide_and]
      exact decide_eq_false hkey
    simp [hno, hkey]

theorem test_idInAttr_count {arg : Nat → Option SqlValue} {i j : Nat} {attributeId : String}
    {is : List Nat} {values : List String} (hi : arg i = some (.text attributeId))
    (his : is.map arg = (values.map SqlValue.text).map some)
    (hj : arg j = some (.integer values.length)) (hvalues : values ≠ []) :
    (Cond.idInAttr i [.valTextIn is] (some j)).test db env arg =
      .ok fun pp => SqliteCatalogSearch.pushFilterCond db pp (.enumAnd attributeId values) := by
  simp only [Cond.test, attrRows_eq hi, List.all_cons, List.all_nil, valTextIn_test his,
    Bool.and_true, filterMap_valText, hj, SqlValue.integer?, Option.bind_some, Option.any_some]
  congr 1
  funext pp
  rw [Bool.eq_iff_iff]
  simp only [SqliteCatalogSearch.pushFilterCond, Bool.and_eq_true, Bool.or_eq_true,
    decide_eq_true_eq, Nat.cast_inj, beq_iff_eq, List.isEmpty_iff, hvalues, false_or,
    and_iff_right_iff_imp, Bool.not_eq_true', List.isEmpty_eq_false_iff]
  -- an empty group has no text to count
  intro hcount hempty
  rw [← filterMap_valText, hempty] at hcount
  exact hvalues (List.length_eq_zero_iff.mp hcount.symm)

section FilterConds
variable (db env)

theorem tests_rangePrice (minMinor maxMinor : Option Int64) :
    Builds (pushFilterCond (.rangePrice minMinor maxMinor)) (Tests db env
      (.ok fun pp => SqliteCatalogSearch.pushFilterCond db pp (.rangePrice minMinor maxMinor))) := by
  have hmin : Builds (forM minMinor fun min => pushBind (.integer min.toInt) >>= fun i =>
      push (.priceGe i)) (Tests db env (.ok fun pp => minMinor.all fun min => min ≤ pp.priceMinor)) := by
    apply tests_optional
    intro min arg i hi
    simp [Cond.test, hi, SqlValue.integer?, Int64.le_iff_toInt_le]
  have hmax : Builds (forM maxMinor fun max => pushBind (.integer max.toInt) >>= fun i =>
      push (.priceLe i)) (Tests db env (.ok fun pp => maxMinor.all fun max => pp.priceMinor ≤ max)) := by
    apply tests_optional
    intro max arg i hi
    simp [Cond.test, hi, SqlValue.integer?, Int64.le_iff_toInt_le]
  exact tests_bind hmin (fun _ => hmax) rfl

theorem tests_checkboxOr (attributeId : String) (values : List String) :
    Builds (pushFilterCond (.checkboxOr attributeId values)) (Tests db env
      (.ok fun pp => SqliteCatalogSearch.pushFilterCond db pp (.checkboxOr attributeId values))) := by
  simp only [pushFilterCond]
  split
  · rename_i hempty
    apply tests_nothing
    simp [SqliteCatalogSearch.pushFilterCond, hempty]
  · rename_i hempty
    refine tests_idInAttr (P := fun arg conds count => ∃ is, conds = [.valTextIn is] ∧
      is.map arg = (values.map SqlValue.text).map some ∧ count = none) (fun i => ?_) ?_
    · refine builds_bind (builds_mapM_pushBind _) (fun is => builds_push _) ?_
      rintro arg is _ ps qs ⟨his, rfl⟩ rfl
      exact ⟨_, _, ⟨is, rfl, his, rfl⟩, rfl⟩
    · rintro arg i conds count hi ⟨is, rfl, his, rfl⟩
      rw [test_idInAttr (t := fun a => a.valText.any (· ∈ values)) hi]
      · simp [SqliteCatalogSearch.pushFilterCond, hempty]
      · intro a
        simp [valTextIn_test his]

theorem tests_enumAnd (attributeId : String) (values : List String) :
    Builds (pushFilterCond (.enumAnd attributeId values)) (Tests db env
      (.ok fun pp => SqliteCatalogSearch.pushFilterCond db pp (.enumAnd attributeId values))) := by
  simp only [pushFilterCond]
  split
  · rename_i hempty
    apply tests_nothing
    simp [SqliteCatalogSearch.pushFilterCond, hempty]
  · rename_i hempty
    refine tests_idInAttr (P := fun arg conds count => ∃ is j, conds = [.valTextIn is] ∧
      is.map arg = (values.map SqlValue.text).map some ∧ count = some j ∧
      arg j = some (.integer values.length)) (fun i => ?_) ?_
    · refine builds_bind (builds_mapM_pushBind _) (fun is => builds_pushBind_push _ _) ?_
      rintro arg is _ ps qs ⟨his, rfl⟩ ⟨j, hj, rfl⟩
      exact ⟨_, _, ⟨is, j, rfl, his, rfl, hj⟩, rfl⟩
    · rintro arg i conds count hi ⟨is, j, rfl, his, rfl, hj⟩
      exact test_idInAttr_count hi his hj (by simpa using hempty)

theorem tests_number (attributeId : String) (value : F64) :
    Builds (pushFilterCond (.number attributeId value)) (Tests db env
      (.ok fun pp => SqliteCatalogSearch.pushFilterCond db pp (.number attributeId value))) := by
  refine tests_idInAttr (P := fun arg conds count => ∃ j, conds = [.valNumEq j] ∧
    arg j = some (.real value) ∧ count = none) (fun i => ?_) ?_
  · refine (builds_pushBind_push _ _).imp ?_
    rintro arg _ parts ⟨j, hj, rfl⟩
    exact ⟨_, _, ⟨j, rfl, hj, rfl⟩, rfl⟩
  · rintro arg i conds count hi ⟨j, rfl, hj, rfl⟩
    rw [test_idInAttr (t := fun a => a.valNum.any fun n => n.le value && value.le n) hi]
    · simp [SqliteCatalogSearch.pushFilterCond]
    · intro a
      simp [AttrCond.test, hj, SqlValue.real?]

theorem tests_rangeGeneric (attributeId : String) (min max : Option F64) :
    Builds (pushFilterCond (.rangeGeneric attributeId min max)) (Tests db env
      (.ok fun pp => SqliteCatalogSearch.pushFilterCond db pp (.rangeGeneric attributeId min max))) := by
  refine tests_idInAttr (P := fun arg conds count => ∃ is js : List Nat,
    conds = is.map .valNumGe ++ js.map .valNumLe ∧
    is.map arg = (min.toList.map SqlValue.real).map some ∧
    js.map arg = (max.toList.map SqlValue.real).map some ∧ count = none) (fun i => ?_) ?_
  · refine builds_bind (builds_mapM_pushBind _) (fun is => builds_bind
      (R := fun arg _ parts => ∃ js : List Nat, js.map arg = (max.toList.map SqlValue.real).map some ∧
        parts = [.idInAttr i (is.map .valNumGe ++ js.map .valNumLe) none])
      (builds_mapM_pushBind _) (fun js => builds_push _) ?_) ?_
    · rintro arg js _ ps qs ⟨hjs, rfl⟩ rfl
      exact ⟨js, hjs, rfl⟩
    · rintro arg is _ ps qs ⟨his, rfl⟩ ⟨js, hjs, rfl⟩
      exact ⟨_, _, ⟨is, js, rfl, his, hjs, rfl⟩, rfl⟩
  · rintro arg i conds count hi ⟨is, js, rfl, his, hjs, rfl⟩
    rw [test_idInAttr (t := fun a => min.all (fun mn => a.valNum.any fun n => mn.le n) &&
      max.all fun mx => a.valNum.any fun n => n.le mx) hi]
    · simp [SqliteCatalogSearch.pushFilterCond, Bool.and_assoc]
    · intro a
      rw [List.all_append, valNumGe_test his, valNumLe_test hjs]

end FilterConds

variable (db env) in
theorem tests_pushFilterCond (f : FilterCond) :
    Builds (pushFilterCond f) (Tests db env
      (.ok fun pp => SqliteCatalogSearch.pushFilterCond db pp f)) := by
  cases f with
  | rangePrice minMinor maxMinor => exact tests_rangePrice db env minMinor maxMinor
  | checkboxOr attributeId values => exact tests_checkboxOr db env attributeId values
  | enumAnd attributeId values => exact tests_enumAnd db env attributeId values
  | number attributeId value => exact tests_number db env attributeId value
  | rangeGeneric attributeId min max => exact tests_rangeGeneric db env attributeId min max

theorem both_ok (p q : ProjectionRow → Bool) :
    both (.ok p) (.ok q) = .ok fun pp => p pp && q pp := rfl

variable (db env) in
theorem tests_filters (filters : List FilterCond) :
    Builds (forM filters pushFilterCond) (Tests db env
      (.ok fun pp => filters.all fun f => SqliteCatalogSearch.pushFilterCond db pp f)) := by
  refine builds_forM (Q := fun fs arg conds => whereTest db env arg conds =
    .ok fun pp => fs.all fun f => SqliteCatalogSearch.pushFilterCond db pp f)
    (tests_pushFilterCond db env) (fun arg => ?_) (fun arg f fs ps qs hf hfs => ?_) filters
  · simp [whereTest]
  · rw [whereTest_append, hf, hfs, both_ok]
    simp

variable (db env) in
theorem tests_pushWhere (query : SearchQuery) (ftsTerm : Option String) :
    Builds (pushWhere query ftsTerm) (Tests db env ((matchedIds db env ftsTerm).map fun ids =>
      SqliteCatalogSearch.pushWhere db query ids)) := by
  have hpublished : Builds (push .published : SqlBuild Unit)
      (Tests db env (.ok fun pp => pp.status = "published")) := by
    refine (builds_push _).imp ?_
    rintro arg _ parts rfl
    exact whereTest_singleton db env arg _
  have hfound : Builds (forM ftsTerm fun term => pushBind (.text term) >>= fun i =>
      push (.idInFts i)) (Tests db env ((matchedIds db env ftsTerm).map fun ids pp =>
        ids.all fun ids => decide (pp.id ∈ ids))) := by
    refine tests_option (fun term => tests_pushBind_push (p := (env.ftsMatch db.fts term).map
      fun ids pp => decide (pp.id ∈ ids)) ?_) ?_ ?_
    · intro arg i hi
      simp only [Cond.test, hi, Option.bind_some, SqlValue.text?, Option.getD_some]
      rfl
    · rintro rfl
      rfl
    · rintro term rfl
      simp only [SqliteCatalogSearch.matchedIds]
      cases env.ftsMatch db.fts term <;> rfl
  have hcategory : Builds (forM query.categoryId fun cat => pushBind (.text cat) >>= fun i =>
      push (.idInCategory i)) (Tests db env (.ok fun pp => query.categoryId.all fun cat =>
        db.attrIndex.rows.any fun a => a.productId = pp.id && a.categoryId = cat)) := by
    apply tests_optional
    intro cat arg i hi
    simp [Cond.test, hi, SqlValue.text?, eq_comm]
  refine tests_bind hpublished (fun _ => tests_bind hfound (fun _ =>
    tests_bind hcategory (fun _ => tests_filters db env query.filters) rfl) rfl) ?_
  cases matchedIds db env ftsTerm with
  | error e => rfl
  | ok ids =>
    simp only [Except.map, both, bind, Except.bind]
    congr 1
    funext pp
    simp only [SqliteCatalogSearch.pushWhere, Bool.and_assoc]

theorem select_eq {qb : QueryBuilder Cond SqlValue} {query : SearchQuery} {ftsTerm : Option String}
    (h : whereTest db env qb.bound qb.parts = (matchedIds db env ftsTerm).map fun ids =>
      SqliteCatalogSearch.pushWhere db query ids) :
    select db env qb = (matchedIds db env ftsTerm).map
      (found db query) := by
  unfold select
  rw [h]
  cases matchedIds db env ftsTerm <;> rfl

theorem countResults_eq (query : SearchQuery) (ftsTerm : Option String) :
    countResults db env query ftsTerm = (matchedIds db env ftsTerm).map fun ids =>
      UInt64.ofNat (found db query ids).length := by
  unfold countResults
  rw [select_eq (tests_pushWhere db env query ftsTerm).run_new]
  cases matchedIds db env ftsTerm with
  | error e => rfl
  | ok ids => simp [Except.map, bind, Except.bind]

variable (db env) in
/-- Both numbers after the conditions are read back as they were pushed. -/
theorem builds_pushCards (query : SearchQuery) (ftsTerm : Option String) (limit offset : Nat) :
    Builds (pushCards query ftsTerm limit offset) fun arg tail conds =>
      Tests db env ((matchedIds db env ftsTerm).map fun ids =>
        SqliteCatalogSearch.pushWhere db query ids) arg () conds ∧
      tail.order = orderLe query.sort ∧
      limitOf (arg tail.limit) = limit ∧ limitOf (arg tail.offset) = offset := by
  have hlimitOf : ∀ {v : Option SqlValue} {n : Nat}, v = some (.integer n) → limitOf v = n := by
    rintro v n rfl
    exact Int.toNat_natCast n
  refine builds_bind (tests_pushWhere db env query ftsTerm) (fun _ => builds_bind
    (R := fun arg tail parts => parts = [] ∧ tail.order = orderLe query.sort ∧
      limitOf (arg tail.limit) = limit ∧ limitOf (arg tail.offset) = offset)
    (builds_pushBind _) (fun i => builds_bind (R := fun arg tail parts => parts = [] ∧
      tail.order = orderLe query.sort ∧ tail.limit = i ∧
      limitOf (arg tail.offset) = offset) (builds_pushBind _)
      (fun j => builds_pure (P := fun _ tail parts => parts = [] ∧
        tail = ⟨orderLe query.sort, i, j⟩) fun _ => ⟨rfl, rfl⟩) ?_) ?_) ?_
  · rintro arg j tail ps qs ⟨hj, rfl⟩ ⟨rfl, rfl⟩
    exact ⟨rfl, rfl, rfl, hlimitOf hj⟩
  · rintro arg i tail ps qs ⟨hi, rfl⟩ ⟨rfl, horder, rfl, hoffset⟩
    exact ⟨rfl, horder, hlimitOf hi, hoffset⟩
  · rintro arg _ tail ps qs hps ⟨rfl, hrest⟩
    rw [List.append_nil]
    exact ⟨hps, hrest⟩

end Run

/-- The two statements together give what `search` gives. -/
theorem search_eq (db : CatalogDb) (env : SearchEnv) (query : SearchQuery) :
    search db env query = SqliteCatalogSearch.search db env query := by
  rw [SqliteCatalogSearch.search_eq_answer]
  change (countResults db env query (SqliteCatalogSearch.ftsTerm env query) >>= _) = _
  have hcards := (builds_pushCards db env query (SqliteCatalogSearch.ftsTerm env query)
    (Pagination.clampLimit query.page.limit).toNat query.page.offset.toNat).run_new
  generalize hrun : (pushCards query (SqliteCatalogSearch.ftsTerm env query)
    (Pagination.clampLimit query.page.limit).toNat query.page.offset.toNat).run new = built at hcards
  obtain ⟨tail, qb⟩ := built
  obtain ⟨hwhere, horder, hlimit, hoffset⟩ := hcards
  rw [countResults_eq]
  have hselect := select_eq hwhere
  cases hids : matchedIds db env (SqliteCatalogSearch.ftsTerm env query) with
  | error e => rfl
  | ok ids =>
    rw [hids] at hselect
    simp only [Except.map, bind, Except.bind, SqliteCatalogSearch.answer]
    by_cases hnone : UInt64.ofNat (found db query ids).length = 0
    · rw [if_pos hnone, if_pos hnone]
      rfl
    · rw [if_neg hnone, if_neg hnone]
      rw [hselect]
      simp only [Except.map, hlimit, hoffset, SqliteCatalogSearch.page, ← horder]
      rfl

end SearchSql

end TinyShop
