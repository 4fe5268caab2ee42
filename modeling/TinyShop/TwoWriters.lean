import TinyShop.Base.CallLog
import TinyShop.ProjectionView
import TinyShop.Search

/-!
# Events and documents on one row

A projection row is written by the events of its product and by documents put in
past them. A document carries no seller, no status and no time of creation. It leaves
these columns of a row alone; where there is no row it makes one that is on sale and
has no seller, and the event that creates the product leaves that one alone.
-/

namespace TinyShop

open Base CatalogProjection
set_option autoImplicit false

namespace TwoWriters

inductive Write where
  | dispatch (source : String) (ev : DomainEvent)
  | upsert (doc : ProductDoc)

/-- A write that fails, for a reason of its own or of the database, leaves the catalog alone. -/
inductive Step (db : CatalogDb) : Write → Except String Unit → CatalogDb → Prop where
  | dispatch {source : String} {ev : DomainEvent} {db' : CatalogDb} :
      CatalogProjection.dispatch db source ev = .ok db' → Step db (.dispatch source ev) (.ok ()) db'
  | upsert {doc : ProductDoc} {db' : CatalogDb} :
      SqliteCatalogSearch.upsert db doc = .ok db' → Step db (.upsert doc) (.ok ()) db'
  | failed (write : Write) (e : String) : Step db write (.error e) db

abbrev Entry := CallLog.Entry CatalogDb Write (Except String Unit)

/-- The event meets no slug that another row holds; a document that meets one fails. -/
def Write.Fits (t : ProjectionTable) : Write → Prop
  | .dispatch _ ev => ev.meaning.Fits t
  | .upsert _ => True

instance (t : ProjectionTable) : (write : Write) → Decidable (write.Fits t)
  | .dispatch _ ev => inferInstanceAs (Decidable (ev.meaning.Fits t))
  | .upsert _ => isTrue trivial

def NoClash (log : List Entry) : Prop := ∀ e ∈ log, e.call.Fits e.before.projection

/-- The columns that only the events carry. -/
structure Facts where
  sellerId : String
  status : String
  createdAt : Int64
deriving DecidableEq, Repr

def facts (db : CatalogDb) (id : String) : Option Facts :=
  (db.projection.find? id).map fun r => ⟨r.sellerId, r.status, r.createdAt⟩

/-- What an event says about these columns of the product `id`. -/
def eventFacts (id : String) (x : Option Facts) : ProductEvent → Option Facts
  | .created row =>
    if row.id = id then some (x.getD ⟨row.sellerId, row.status, row.createdAt⟩) else x
  | .statusChanged id' status _ =>
    if id' = id then x.map fun f => { f with status } else x
  | .deleted id' => if id' = id then none else x
  | _ => x

/-- A document leaves them alone, or makes a row of its own. -/
def docFacts (id : String) (x : Option Facts) (doc : ProductDoc) : Option Facts :=
  if doc.productId = id then some (x.getD ⟨"", "published", 0⟩) else x

def writeFacts (id : String) (x : Option Facts) (e : Entry) : Option Facts :=
  match e.answer, e.call with
  | .error _, _ => x
  | .ok _, .dispatch _ ev => eventFacts id x ev.meaning
  | .ok _, .upsert doc => docFacts id x doc

/-- The events that were applied, in their order. -/
def applied (log : List Entry) : List ProductEvent :=
  log.filterMap fun e =>
    match e.answer, e.call with
    | .ok _, .dispatch _ ev => some ev.meaning
    | _, _ => none

section Steps
variable {db db' : CatalogDb} (id : String)

theorem facts_apply {e : ProductEvent} (hfits : e.Fits db.projection) (h : e.apply db = .ok db') :
    facts db' id = eventFacts id (facts db id) e := by
  unfold facts
  rw [ProductEvent.find?_apply hfits h id]
  cases e with
  | created row =>
    by_cases hid : row.id = id <;> cases db.projection.find? id <;>
      simp [ProductEvent.onRow, eventFacts, hid, CellOp.step]
  | core id' title slug description priceMinor currency updatedAt =>
    by_cases hid : id' = id <;> cases db.projection.find? id <;>
      simp [ProductEvent.onRow, eventFacts, hid, CellOp.step, Overwrites.act, RowPatch.act]
  | touched id' updatedAt =>
    cases updatedAt with
    | none => rfl
    | some ts =>
      by_cases hid : id' = id <;> cases db.projection.find? id <;>
        simp [ProductEvent.onRow, eventFacts, hid, CellOp.step, Overwrites.act, RowPatch.act]
  | statusChanged id' status ts =>
    by_cases hid : id' = id <;> cases db.projection.find? id <;>
      simp [ProductEvent.onRow, eventFacts, hid, CellOp.step, Overwrites.act, RowPatch.act]
  | deleted id' =>
    by_cases hid : id' = id <;> cases db.projection.find? id <;>
      simp [ProductEvent.onRow, eventFacts, hid, CellOp.step]
  | attributeSet id' attributeId valText valNum => rfl
  | attributeCleared id' attributeId => rfl
  | other => rfl

theorem facts_dispatch {source : String} {ev : DomainEvent}
    (hfits : ev.meaning.Fits db.projection)
    (h : CatalogProjection.dispatch db source ev = .ok db') :
    facts db' id = eventFacts id (facts db id) ev.meaning :=
  facts_apply id hfits (dispatch_ok_iff.mp h)

theorem upsertRow_of_upsert {doc : ProductDoc} (h : SqliteCatalogSearch.upsert db doc = .ok db') :
    SqliteCatalogSearch.upsertRow db doc = some db'.projection := by
  unfold SqliteCatalogSearch.upsert at h
  split at h
  · cases h
  · rename_i t hrow
    obtain rfl := Except.ok.inj h
    exact hrow

theorem facts_upsert {doc : ProductDoc} (h : SqliteCatalogSearch.upsert db doc = .ok db') :
    facts db' id = docFacts id (facts db id) doc := by
  have hrow := upsertRow_of_upsert h
  unfold SqliteCatalogSearch.upsertRow at hrow
  unfold facts docFacts
  split at hrow
  · rename_i hnone
    rw [IndexedTable.find?_insert? hrow]
    by_cases hid : doc.productId = id
    · subst hid
      simp [hnone, SqliteCatalogSearch.newRow]
    · simp [SqliteCatalogSearch.newRow, hid]
  · rename_i hthere
    rw [IndexedTable.find?_update? hrow]
    by_cases hid : doc.productId = id
    · subst hid
      obtain ⟨old, hold⟩ := Option.ne_none_iff_exists'.mp hthere
      simp [hold, SqliteCatalogSearch.setDoc]
    · simp [hid, Ne.symm hid]

/-- One write changes the columns as `writeFacts` says. -/
theorem facts_step {e : Entry} (hfits : e.call.Fits e.before.projection)
    (h : Step e.before e.call e.answer e.after) :
    facts e.after id = writeFacts id (facts e.before id) e := by
  obtain ⟨write, answer, before, after⟩ := e
  cases h with
  | dispatch hrun => exact facts_dispatch id hfits hrun
  | upsert hrun => exact facts_upsert id hrun
  | failed write e => rfl

end Steps

section Log
variable {db db' : CatalogDb} {log : List Entry}

theorem facts_log (h : CallLog Step db log db') (hclash : NoClash log) (id : String) :
    facts db' id = log.foldl (writeFacts id) (facts db id) :=
  h.foldl_eq (fun s => facts s id) (writeFacts id) fun e he hstep => facts_step id (hclash e he) hstep

theorem isSome_facts (db : CatalogDb) (id : String) :
    (facts db id).isSome = (db.projection.find? id).isSome := Option.isSome_map

/-- Documents that find the row of the product are not seen in these columns. -/
theorem facts_events (h : CallLog Step db log db') (hclash : NoClash log) {id : String}
    (hthere : ∀ e ∈ log, ∀ doc, e.call = .upsert doc → e.answer = .ok () → doc.productId = id →
      (e.before.projection.find? id).isSome) :
    facts db' id = (applied log).foldl (eventFacts id) (facts db id) := by
  induction h with
  | nil => rfl
  | call hlog hstep ih =>
    rename_i log s s' write answer
    have hlast := List.mem_append_right log (List.mem_singleton_self
      (⟨write, answer, s, s'⟩ : Entry))
    have hs := ih (fun e he => hclash e (List.mem_append_left _ he))
      fun e he => hthere e (List.mem_append_left _ he)
    have hs' := facts_step (e := ⟨write, answer, s, s'⟩) id (hclash _ hlast) hstep
    unfold applied at hs ⊢
    rw [List.filterMap_append, List.foldl_append, ← hs]
    change facts s' id = _ at hs'
    rw [hs']
    cases hstep with
    | dispatch hrun => rfl
    | failed write e => cases write <;> rfl
    | upsert hrun =>
      rename_i doc
      change docFacts id (facts s id) doc = facts s id
      unfold docFacts
      split
      · rename_i hid
        have hsome := hthere _ hlast doc rfl rfl hid
        rw [← isSome_facts] at hsome
        obtain ⟨f, hf⟩ := Option.isSome_iff_exists.mp hsome
        rw [hf]
        rfl
      · rfl

/-- Whether a document is put in before or after the product is created matters for a new row. -/
theorem upsert_created_iff {doc : ProductDoc} {source : String} {ev : DomainEvent}
    {row : ProjectionRow} {u uc c cu : CatalogDb} (hmeaning : ev.meaning = .created row)
    (hid : row.id = doc.productId) (hu : SqliteCatalogSearch.upsert db doc = .ok u)
    (huc : CatalogProjection.dispatch u source ev = .ok uc)
    (hc : CatalogProjection.dispatch db source ev = .ok c)
    (hcu : SqliteCatalogSearch.upsert c doc = .ok cu) (hfits : ev.meaning.Fits db.projection) :
    facts uc doc.productId = facts cu doc.productId ↔
      (db.projection.find? doc.productId).isSome ∨
        row.sellerId = "" ∧ row.status = "published" ∧ row.createdAt = 0 := by
  have hfu := facts_upsert doc.productId hu
  have hfc := facts_dispatch doc.productId hfits hc
  have hfcu := facts_upsert doc.productId hcu
  have hfits' : ev.meaning.Fits u.projection := by
    rw [hmeaning]
    intro hnone
    have hsome : (facts u doc.productId).isSome := by
      rw [hfu]
      simp [docFacts]
    rw [isSome_facts, ← hid, hnone] at hsome
    cases hsome
  have hfuc := facts_dispatch doc.productId hfits' huc
  rw [hmeaning] at hfc hfuc
  simp only [eventFacts, docFacts, if_pos hid, if_true] at hfu hfc hfcu hfuc
  rw [hfuc, hfcu, hfc, hfu, ← isSome_facts]
  cases facts db doc.productId with
  | some f => simp
  | none =>
    simp only [Option.getD_none, Option.getD_some, Option.isSome_none, Bool.false_eq_true, false_or,
      Option.some.injEq, Facts.mk.injEq]
    exact ⟨fun ⟨hseller, hstatus, hcreated⟩ => ⟨hseller.symm, hstatus.symm, hcreated.symm⟩,
      fun ⟨hseller, hstatus, hcreated⟩ => ⟨hseller.symm, hstatus.symm, hcreated.symm⟩⟩

/-- The columns of a row that only the events carry follow the applied writes: an event sets what
it says, a document that meets no row of its product makes one with no seller that is on sale,
and any other document leaves them alone. Where every document met a row, the events alone
decide. A document and the creation can be exchanged exactly if the row was there before, or
the product is created as the document makes it. -/
theorem two_writers (h : CallLog Step db log db') (hclash : NoClash log) (id : String) :
    facts db' id = log.foldl (writeFacts id) (facts db id) ∧
      ((∀ e ∈ log, ∀ doc, e.call = .upsert doc → e.answer = .ok () → doc.productId = id →
          (e.before.projection.find? id).isSome) →
        facts db' id = (applied log).foldl (eventFacts id) (facts db id)) ∧
      ∀ doc source ev row u uc c cu, doc.productId = id → ev.meaning = .created row → row.id = id →
        SqliteCatalogSearch.upsert db' doc = .ok u →
        CatalogProjection.dispatch u source ev = .ok uc →
        CatalogProjection.dispatch db' source ev = .ok c →
        SqliteCatalogSearch.upsert c doc = .ok cu → ev.meaning.Fits db'.projection →
        (facts uc id = facts cu id ↔ (db'.projection.find? id).isSome ∨
          row.sellerId = "" ∧ row.status = "published" ∧ row.createdAt = 0) := by
  refine ⟨facts_log h hclash id, facts_events h hclash, ?_⟩
  rintro doc source ev row u uc c cu rfl hmeaning hid hu huc hc hcu hfits
  exact upsert_created_iff hmeaning hid hu huc hc hcu hfits

end Log

/-! ## A run -/

/-- A write without a failure of the database. -/
def exec (db : CatalogDb) : Write → Except String Unit × CatalogDb
  | .dispatch source ev =>
    match CatalogProjection.dispatch db source ev with
    | .ok db' => (.ok (), db')
    | .error e => (.error e.message, db)
  | .upsert doc =>
    match SqliteCatalogSearch.upsert db doc with
    | .ok db' => (.ok (), db')
    | .error e => (.error e.toString, db)

theorem step_exec (db : CatalogDb) (write : Write) :
    Step db write (exec db write).1 (exec db write).2 := by
  cases write with
  | dispatch source ev =>
    simp only [exec]
    split
    · exact .dispatch ‹_›
    · exact .failed _ _
  | upsert doc =>
    simp only [exec]
    split
    · exact .upsert ‹_›
    · exact .failed _ _

def pen : ProductDoc := ⟨"pen", "office", "Pen", "", 100, "UAH", "pen", "blue"⟩

def event (eventType : String) (fields : List (String × Value)) : DomainEvent :=
  ⟨1, "product", "pen", eventType, .object fields, 0⟩

def penCreated : DomainEvent :=
  event "ProductCreated" [("id", .string "pen"), ("seller_id", .string "ann"),
    ("title", .string "Pen"), ("slug", .string "pen"), ("status", .string "draft"),
    ("created_at", Value.ofI64 5)]

def penPublished : DomainEvent :=
  event "ProductPublished" [("id", .string "pen"), ("to", .string "published")]

/-- The log of some writes to an empty catalog. -/
def script (writes : List Write) : List Entry × CatalogDb := CallLog.record exec (.initial ∅) writes

/-- The draft of a seller, a document for it, the publication. -/
def inOrder : List Write :=
  [.dispatch "product" penCreated, .upsert pen, .dispatch "product" penPublished, .upsert pen]

theorem two_writers_inOrder :
    facts (script inOrder).2 "pen" = some ⟨"ann", "published", 5⟩ ∧
      (facts (script inOrder).2 "pen" =
          (script inOrder).1.foldl (writeFacts "pen") (facts (.initial ∅) "pen") ∧
        ((∀ e ∈ (script inOrder).1, ∀ doc, e.call = .upsert doc → e.answer = .ok () →
            doc.productId = "pen" → (e.before.projection.find? "pen").isSome) →
          facts (script inOrder).2 "pen" =
            (applied (script inOrder).1).foldl (eventFacts "pen") (facts (.initial ∅) "pen"))) := by
  have hclash : NoClash (script inOrder).1 := by
    unfold NoClash
    decide
  have hall := two_writers (CallLog.of_record exec step_exec (.initial ∅) inOrder) hclash "pen"
  exact ⟨by rfl, hall.1, hall.2.1⟩

/-- A document before the creation puts the draft on sale and has no seller. -/
theorem upsert_before_created :
    facts (script [.upsert pen, .dispatch "product" penCreated]).2 "pen" =
        some ⟨"", "published", 0⟩ ∧
      facts (script [.dispatch "product" penCreated, .upsert pen]).2 "pen" =
        some ⟨"ann", "draft", 5⟩ ∧
      (applied (script [.upsert pen, .dispatch "product" penCreated]).1).foldl (eventFacts "pen")
        (facts (.initial ∅) "pen") = some ⟨"ann", "draft", 5⟩ ∧
      NoClash (script [.upsert pen, .dispatch "product" penCreated]).1 := by
  refine ⟨by rfl, by rfl, by rfl, ?_⟩
  unfold NoClash
  decide

end TwoWriters

end TinyShop
