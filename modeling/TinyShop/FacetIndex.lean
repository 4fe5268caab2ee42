import Mathlib.Logic.Relation
import TinyShop.Pipeline
import TinyShop.ProjectionView
import TinyShop.Taxonomy

/-!
# The facet index

The taxonomy joins the shop: categories and attributes are created while events are on
their way. A value is indexed with the category that its attribute has when the event
arrives; a value that arrives before its attribute is skipped, and nothing makes up for it.
-/

namespace TinyShop

open Base CatalogProjection
set_option autoImplicit false

/-! ## Payloads as text -/

mutual

/-- The value read back from its JSON text. `f` says which number comes back for one that
is written with a fraction: `serde_json` may round. -/
def Value.reread (f : Rat → Rat) : Value → Value
  | .number (.float q) => .number (.float (f q))
  | .number (.posInt n) => .number (.posInt n)
  | .number (.negInt n) => .number (.negInt n)
  | .null => .null
  | .bool b => .bool b
  | .string s => .string s
  | .array items => .array (rereadItems f items)
  | .object fields => .object (rereadFields f fields)

def Value.rereadItems (f : Rat → Rat) : List Value → List Value
  | [] => []
  | v :: rest => v.reread f :: rereadItems f rest

def Value.rereadFields (f : Rat → Rat) : List (String × Value) → List (String × Value)
  | [] => []
  | (key, v) :: rest => (key, v.reread f) :: rereadFields f rest

end

def DomainEvent.reread (f : Rat → Rat) (ev : DomainEvent) : DomainEvent :=
  { ev with payload := ev.payload.reread f }

def F64.isFinite : F64 → Bool
  | .fin _ => true
  | _ => false

def F64.reread (f : Rat → Rat) : F64 → F64
  | .fin q => .fin (f q)
  | x => x

section Reread
variable (f : Rat → Rat)

theorem lookup_rereadFields (fields : List (String × Value)) (key : String) :
    (Value.rereadFields f fields).lookup key = (fields.lookup key).map (Value.reread f) := by
  induction fields with
  | nil => rfl
  | cons field rest ih =>
    obtain ⟨k, v⟩ := field
    rw [Value.rereadFields, List.lookup_cons, List.lookup_cons, ih]
    cases key == k <;> rfl

@[simp] theorem get_reread (v : Value) (key : String) :
    (v.reread f).get key = (v.get key).reread f := by
  cases v with
  | object fields =>
    rw [Value.reread, Value.get, Value.get, lookup_rereadFields]
    cases fields.lookup key with
    | none => rfl
    | some v => rfl
  | number n => cases n <;> rfl
  | _ => rfl

@[simp] theorem asStr_reread (v : Value) : (v.reread f).asStr = v.asStr := by
  cases v with
  | number n => cases n <;> rfl
  | _ => rfl

@[simp] theorem asI64_reread (v : Value) : (v.reread f).asI64 = v.asI64 := by
  cases v with
  | number n => cases n <;> rfl
  | _ => rfl

@[simp] theorem strVal_reread (p : Value) (key : String) :
    strVal (p.reread f) key = strVal p key := by
  simp [strVal]

theorem asF64_reread_ofOptF64 {n : Option F64} (h : n.all F64.isFinite = true) :
    ((Value.ofOptF64 n).reread f).asF64 = n.map (F64.reread f) := by
  cases n with
  | none => rfl
  | some x =>
    cases x with
    | fin q => rfl
    | _ => cases h

end Reread

namespace ProductEvent

/-- The event with another number. -/
def withNum (n : Option F64) : ProductEvent → ProductEvent
  | .attributeSet id attributeId valText _ => .attributeSet id attributeId valText n
  | e => e

/-- Nothing but the number of an attribute can be read differently. -/
theorem read_reread (f : Rat → Rat) (eventType : String) (p : Value) :
    read eventType (p.reread f) =
      (read eventType p).withNum ((p.get "val_num").reread f).asF64 := by
  unfold read readUpdated
  simp only [strVal_reread, get_reread, asStr_reread, asI64_reread]
  split
  · rfl
  · split
    · split
      · rfl
      · split
        · rfl
        · split <;> rfl
    · split
      · rfl
      · split <;> rfl

/-- The event is about the attribute of the product. -/
def concerns (id attributeId : String) : ProductEvent → Bool
  | .attributeSet id' attributeId' _ _ => id' = id ∧ attributeId' = attributeId
  | .attributeCleared id' attributeId' => id' = id ∧ attributeId' = attributeId
  | .deleted id' => id' = id
  | _ => false

/-- The text and the number that an event gives an attribute; none if it takes them away. -/
def content : ProductEvent → Option (Option String × Option F64)
  | .attributeSet _ _ valText valNum => some (valText, valNum)
  | _ => none

/-- The event sets an attribute that is not there. -/
def unknown (t : Table Attribute String Attribute.id) : ProductEvent → Bool
  | .attributeSet _ attributeId _ _ => (t.find? attributeId).isNone
  | _ => false

@[simp] theorem concerns_withNum (id attributeId : String) (n : Option F64) (e : ProductEvent) :
    (e.withNum n).concerns id attributeId = e.concerns id attributeId := by
  cases e <;> rfl

end ProductEvent

namespace FacetIndex

/-! ## The system -/

structure Store where
  product : ProductDb
  categories : Categories
  catalog : CatalogDb
  /-- History: the events that set an attribute before it was there. -/
  early : List Nat

def Store.initial : Store where
  product := .empty
  categories := { toIndexedTable := ∅, siblings := List.nodup_nil }
  catalog := .initial ∅
  early := []

/-- The number of an attribute is absent or finite. -/
def finiteNum : ProductRepo.Call → Bool
  | .setAttributeValue v => v.valNum.all F64.isFinite
  | _ => true

/-- One of the three at work: a seller, the platform or the relay, which hands over the
oldest event that is not published. -/
inductive Step (f : Rat → Rat) (s : Store) : Store → Prop where
  | call {c : ProductRepo.Call} {now clock : Int64} {db : ProductDb} :
      finiteNum c = true → c.run s.product now clock = .ok db → Step f s { s with product := db }
  | createCategory {c : Category} {t : Categories} :
      TaxonomyRepo.createCategory s.categories c = .ok t → Step f s { s with categories := t }
  | createAttribute {a : Attribute} {t : Table Attribute String Attribute.id} :
      TaxonomyRepo.createAttribute s.categories s.catalog.attributes a = .ok t →
      Step f s { s with catalog := { s.catalog with attributes := t } }
  | deliver {r : OutboxRow} {now : Int64} {c : CatalogDb} :
      s.product.outbox.unpublished.head? = some r →
      dispatch s.catalog "product" (r.toEvent.reread f) = .ok c →
      Step f s { s with
        product := { s.product with outbox := s.product.outbox.markPublished [r.id] now }
        catalog := c
        early := if r.toEvent.meaning.unknown s.catalog.attributes then s.early ++ [r.id]
          else s.early }

abbrev Reaches (f : Rat → Rat) : Store → Store → Prop := Relation.ReflTransGen (Step f)

/-- The last event about the attribute of the product. -/
def last (events : List DomainEvent) (id attributeId : String) : Option DomainEvent :=
  events.reverse.find? fun ev => ev.meaning.concerns id attributeId

/-- The last event about the attribute of the product set it before it was there. -/
def Skipped (s : Store) (id attributeId : String) : Prop :=
  ∃ ev ∈ last (s.product.outbox.rows.map OutboxRow.toEvent) id attributeId, ev.id ∈ s.early

instance (s : Store) (id attributeId : String) : Decidable (Skipped s id attributeId) :=
  inferInstanceAs (Decidable (∃ ev ∈ last _ _ _, ev.id ∈ s.early))

section Values
variable {db db' : ProductDb} {now clock : Int64} {f : Rat → Rat} {id attributeId : String}

/-- The text and the number of an attribute, as the catalog will read them. -/
def shown (f : Rat → Rat) (db : ProductDb) (id attributeId : String) :
    Option (Option String × Option F64) :=
  (db.productAttributeValues.find? (id, attributeId)).map fun v =>
    (v.valText, v.valNum.map (F64.reread f))

def NewEvent.reread (f : Rat → Rat) (ev : NewEvent) : NewEvent :=
  { ev with payload := ev.payload.reread f }

theorem meaning_reread (f : Rat → Rat) (ev : NewEvent) :
    (NewEvent.reread f ev).meaning =
      ev.meaning.withNum ((ev.payload.get "val_num").reread f).asF64 :=
  ProductEvent.read_reread f ev.eventType ev.payload

/-- What an event that is about the attribute makes of it. -/
def shownAfter (f : Rat → Rat) (db : ProductDb) (id attributeId : String) (ev : Option NewEvent) :
    Option (Option String × Option F64) :=
  match ev with
  | none => shown f db id attributeId
  | some ev =>
    if ev.meaning.concerns id attributeId then (NewEvent.reread f ev).meaning.content
    else shown f db id attributeId

/-- The call may change the values of attributes. -/
def writesValues : ProductRepo.Call → Bool
  | .setAttributeValue _ => true
  | .clearAttributeValue _ _ => true
  | .deleteProduct _ => true
  | _ => false

theorem values_of_run {c : ProductRepo.Call} (hc : writesValues c = false)
    (h : c.run db now clock = .ok db') : db'.productAttributeValues = db.productAttributeValues := by
  cases c with
  | createProduct p =>
    obtain ⟨_, _, rfl⟩ := ProductRepo.createProduct_ok h
    rfl
  | updateProduct id title slug description priceMinor currency =>
    obtain ⟨_, _, rfl⟩ := ProductRepo.updateProduct_ok h
    rfl
  | setStatus id new =>
    rcases ProductRepo.setStatus_ok h with rfl | ⟨_, _, _, rfl⟩
    · rfl
    · rfl
  | upsertDigitalConfig config =>
    obtain rfl := ProductRepo.upsertDigitalConfig_ok h
    rfl
  | addVariant v =>
    obtain ⟨_, rfl⟩ := ProductRepo.addVariant_ok h
    rfl
  | addMedia m =>
    obtain ⟨_, rfl⟩ := ProductRepo.addMedia_ok h
    rfl
  | setTranslation productId entityType entityId lang field value =>
    obtain ⟨_, rfl⟩ := ProductRepo.setTranslation_ok h
    rfl
  | updateVariant v =>
    obtain rfl := Except.ok.inj h
    rfl
  | removeVariant productId variantId =>
    obtain rfl := Except.ok.inj h
    rfl
  | removeMedia productId mediaId =>
    obtain rfl := Except.ok.inj h
    rfl
  | setAttributeValue v => cases hc
  | clearAttributeValue productId attributeId => cases hc
  | deleteProduct id => cases hc

/-- The other calls write no event about an attribute. -/
theorem concerns_of_change {t u : Products} {c : ProductRepo.Call} {ev : Option NewEvent}
    (hc : writesValues c = false) (h : ProductRepo.Change t c u ev) :
    ∀ e ∈ ev, e.meaning.concerns id attributeId = false := by
  intro e he
  cases h with
  | created p hins =>
    obtain rfl := Option.mem_some.mp he
    rw [ProductRepo.productCreated_meaning]
    rfl
  | core id title slug description priceMinor currency now hupdate =>
    obtain rfl := Option.mem_some.mp he
    rw [ProductRepo.coreUpdated_meaning]
    rfl
  | status id new now hp hne =>
    obtain ⟨ty, hty, rfl⟩ := Option.map_eq_some_iff.mp he
    rw [ProductRepo.statusChanged_meaning hty]
    rfl
  | deleted id hp => cases hc
  | attributeSet v now => cases hc
  | attributeCleared productId attributeId now => cases hc
  | touched call now hcall hreason =>
    obtain rfl := Option.mem_some.mp he
    rw [ProductRepo.productUpdated_meaning hreason]
    rfl
  | unchanged call hcall => cases he

theorem setAttributeValue_shown {v : ProductAttributeValue}
    (hnum : v.valNum.all F64.isFinite = true)
    (h : ProductRepo.setAttributeValue db v now clock = .ok db') :
    shown f db' id attributeId =
      shownAfter f db id attributeId (some (ProductRepo.attributeValueSet v now)) := by
  have hcolumn : F64.column v.valNum = v.valNum := by
    cases hv : v.valNum with
    | none => rfl
    | some x =>
      rw [hv] at hnum
      cases x with
      | fin q => rfl
      | _ => cases hnum
  obtain rfl := ProductRepo.setAttributeValue_ok h
  simp only [shownAfter, meaning_reread, ProductRepo.attributeValueSet_meaning]
  by_cases hkey : v.productId = id ∧ v.attributeId = attributeId
  · obtain ⟨rfl, rfl⟩ := hkey
    have hnumber : ((((ProductRepo.attributeValueSet v now).payload.get "val_num").reread f).asF64) =
        v.valNum.map (F64.reread f) := asF64_reread_ofOptF64 f hnum
    rw [if_pos (by simp [ProductEvent.concerns]), ProductEvent.withNum, hnumber]
    change Option.map _ ((Table.upsert _ _ _ _).find? _) = _
    rw [Table.find?_upsert, if_pos rfl, hcolumn]
    cases db.productAttributeValues.find? (v.productId, v.attributeId) <;> rfl
  · rw [if_neg (by simpa [ProductEvent.concerns] using hkey)]
    change Option.map _ ((Table.upsert _ _ _ _).find? _) = _
    rw [Table.find?_upsert, if_neg (by simpa using hkey)]
    rfl

theorem clearAttributeValue_shown {productId attr : String}
    (h : ProductRepo.clearAttributeValue db productId attr now clock = .ok db') :
    shown f db' id attributeId = shownAfter f db id attributeId
      (some (ProductRepo.attributeValueCleared productId attr now)) := by
  obtain rfl := Except.ok.inj h
  simp only [shownAfter, meaning_reread, ProductRepo.attributeValueCleared_meaning]
  change Option.map _ ((Table.delete _ _).find? _) = _
  rw [Table.find?_delete_of_key (b := decide (productId = id ∧ attr = attributeId)) _ ?_]
  · by_cases hkey : productId = id ∧ attr = attributeId
    · simp [hkey, ProductEvent.concerns, ProductEvent.withNum, ProductEvent.content]
    · simp [hkey, ProductEvent.concerns, shown]
  · intro v hv
    obtain ⟨rfl, rfl⟩ := Prod.mk.inj hv
    simp only [eq_comm]

theorem deleteProduct_shown {p : String} (hp : db.HasProduct p)
    (h : ProductRepo.deleteProduct db p clock = .ok db') :
    shown f db' id attributeId =
      shownAfter f db id attributeId (some (ProductRepo.productDeleted p)) := by
  obtain ⟨_, rfl⟩ | ⟨hnone, _⟩ := ProductRepo.deleteProduct_ok h
  swap
  · exact absurd hp hnone
  simp only [shownAfter, meaning_reread, ProductRepo.productDeleted_meaning]
  change Option.map _ ((Table.delete _ _).find? _) = _
  rw [Table.find?_delete_of_key (b := decide (p = id)) _ ?_]
  · by_cases hkey : p = id
    · simp [hkey, ProductEvent.concerns, ProductEvent.withNum, ProductEvent.content]
    · simp [hkey, ProductEvent.concerns, shown]
  · intro v hv
    obtain ⟨rfl, rfl⟩ := Prod.mk.inj hv
    simp only [eq_comm]

/-- Every successful call writes at most one event, which tells what it did to the values. -/
theorem shown_of_run {c : ProductRepo.Call} (hnum : finiteNum c = true)
    (h : c.run db now clock = .ok db') :
    ∃ ev, db'.outbox = ProductRepo.record db.outbox clock ev ∧
      ∀ id attributeId, shown f db' id attributeId = shownAfter f db id attributeId ev := by
  cases hc : writesValues c with
  | false =>
    obtain ⟨ev, hchange, hrecord⟩ := ProductRepo.Call.run_commits h
    refine ⟨ev, hrecord, fun id attributeId => ?_⟩
    have hsame : shown f db' id attributeId = shown f db id attributeId := by
      rw [shown, values_of_run hc h, ← shown]
    have hquiet : ∀ e ∈ ev, e.meaning.concerns id attributeId = false :=
      concerns_of_change hc hchange
    rw [hsame]
    cases ev with
    | none => rfl
    | some e => simp [shownAfter, hquiet e rfl]
  | true =>
    cases c with
    | setAttributeValue v =>
      refine ⟨_, ?_, fun id attributeId => setAttributeValue_shown hnum h⟩
      obtain rfl := ProductRepo.setAttributeValue_ok h
      rfl
    | clearAttributeValue productId attr =>
      refine ⟨_, ?_, fun id attributeId => clearAttributeValue_shown h⟩
      obtain rfl := Except.ok.inj h
      rfl
    | deleteProduct p =>
      rcases ProductRepo.deleteProduct_ok h with ⟨hp, hdb⟩ | ⟨_, rfl⟩
      · refine ⟨_, ?_, fun id attributeId => deleteProduct_shown hp h⟩
        rw [hdb]
        rfl
      · exact ⟨none, rfl, fun _ _ => rfl⟩
    | _ => cases hc

end Values

/-! ## What the index knows -/

section Index
variable {f : Rat → Rat} {id attributeId : String}

/-- The row of the index for a text and a number, if the attribute is there. -/
def entry (t : Table Attribute String Attribute.id) (id attributeId : String)
    (c : Option String × Option F64) : Option AttrIndexRow :=
  (t.find? attributeId).map fun a => ⟨id, a.categoryId, attributeId, c.1, c.2⟩

/-- An event about the attribute replaces the row by what it can make of it. -/
theorem overwrite_onAttr (t : Table Attribute String Attribute.id) (e : ProductEvent)
    (old : Option AttrIndexRow) :
    (e.onAttr t id attributeId).toList.foldl overwrite old =
      if e.concerns id attributeId then
        match e.content with
        | none => none
        | some c => (entry t id attributeId c).or old
      else old := by
  cases e with
  | attributeSet id' attributeId' valText valNum =>
    by_cases hkey : id' = id ∧ attributeId' = attributeId
    · obtain ⟨rfl, rfl⟩ := hkey
      cases ha : t.find? attributeId' <;>
        simp [ProductEvent.onAttr, ProductEvent.concerns, ProductEvent.content, entry, ha, overwrite]
    · simp [ProductEvent.onAttr, ProductEvent.concerns, hkey]
  | attributeCleared id' attributeId' =>
    by_cases hkey : id' = id ∧ attributeId' = attributeId
    · simp [ProductEvent.onAttr, ProductEvent.concerns, ProductEvent.content, hkey, overwrite]
    · simp [ProductEvent.onAttr, ProductEvent.concerns, hkey]
  | deleted id' =>
    by_cases hkey : id' = id
    · simp [ProductEvent.onAttr, ProductEvent.concerns, ProductEvent.content, hkey, overwrite]
    · simp [ProductEvent.onAttr, ProductEvent.concerns, hkey]
  | touched id' updatedAt => cases updatedAt <;> rfl
  | _ => rfl

theorem last_append (events : List DomainEvent) (ev : DomainEvent) :
    last (events ++ [ev]) id attributeId =
      if ev.meaning.concerns id attributeId then some ev else last events id attributeId := by
  rw [last, List.reverse_append, List.reverse_singleton, List.singleton_append, List.find?_cons]
  cases ev.meaning.concerns id attributeId <;> rfl

theorem mem_of_last {events : List DomainEvent} {ev : DomainEvent}
    (h : last events id attributeId = some ev) : ev ∈ events :=
  List.mem_reverse.mp (List.mem_of_find?_eq_some h)

theorem concerns_of_last {events : List DomainEvent} {ev : DomainEvent}
    (h : last events id attributeId = some ev) : ev.meaning.concerns id attributeId = true := by
  apply List.find?_some (p := fun ev : DomainEvent => ev.meaning.concerns id attributeId)
  exact h

/-- The row of the index after the last event about the attribute, unless it came too early. -/
def indexed (f : Rat → Rat) (t : Table Attribute String Attribute.id) (early : List Nat)
    (events : List DomainEvent) (id attributeId : String) : Option AttrIndexRow :=
  (last events id attributeId).bind fun ev =>
    if ev.id ∈ early then none else (ev.reread f).meaning.content.bind (entry t id attributeId)

theorem indexed_of_missing {t : Table Attribute String Attribute.id} {early : List Nat}
    {events : List DomainEvent} (h : t.find? attributeId = none) :
    indexed f t early events id attributeId = none := by
  unfold indexed entry
  cases last events id attributeId with
  | none => rfl
  | some ev =>
    rw [Option.bind_some, h]
    split
    · rfl
    · cases (ev.reread f).meaning.content <;> rfl

/-- `done` is what the catalog has heard of the outbox. -/
structure Heard (f : Rat → Rat) (s : Store) (done : List DomainEvent) : Prop where
  split : s.product.outbox.rows.map OutboxRow.toEvent =
    done ++ s.product.outbox.unpublished.map OutboxRow.toEvent
  early : ∀ i ∈ s.early, ∃ ev ∈ done, ev.id = i
  known : ∀ ev ∈ done, ev.meaning.unknown s.catalog.attributes → ev.id ∈ s.early
  values : ∀ id attributeId, shown f s.product id attributeId =
    (last (s.product.outbox.rows.map OutboxRow.toEvent) id attributeId).bind
      fun ev => (ev.reread f).meaning.content
  index : ∀ id attributeId, s.catalog.attrIndex.find? (id, attributeId) =
    indexed f s.catalog.attributes s.early done id attributeId

def Inv (f : Rat → Rat) (s : Store) : Prop := ∃ done, Heard f s done

theorem DomainEvent.meaning_reread (f : Rat → Rat) (ev : DomainEvent) :
    (ev.reread f).meaning = ev.meaning.withNum ((ev.payload.get "val_num").reread f).asF64 :=
  ProductEvent.read_reread f ev.eventType ev.payload

/-- An event that gives the attribute a value needs the attribute. -/
theorem unknown_of_content {t : Table Attribute String Attribute.id} {ev : DomainEvent}
    {c : Option String × Option F64} (hev : ev.meaning.concerns id attributeId = true)
    (hc : (ev.reread f).meaning.content = some c) :
    ev.meaning.unknown t = (t.find? attributeId).isNone := by
  rw [DomainEvent.meaning_reread] at hc
  cases hm : ev.meaning with
  | attributeSet id' attributeId' valText valNum =>
    rw [hm] at hev
    obtain ⟨rfl, rfl⟩ := of_decide_eq_true hev
    rfl
  | _ =>
    rw [hm] at hc
    cases hc

/-- One more event: it is about the attribute and replaces the row, or it is not and the row
stays; a value for an attribute that is not there is left out. -/
theorem indexed_append {t : Table Attribute String Attribute.id} {early : List Nat}
    {events : List DomainEvent} {ev : DomainEvent} (hfresh : ∀ old ∈ events, old.id ≠ ev.id)
    (hnew : ev.id ∉ early) :
    indexed f t (if ev.meaning.unknown t then early ++ [ev.id] else early) (events ++ [ev]) id
        attributeId =
      if ev.meaning.concerns id attributeId then
        match (ev.reread f).meaning.content with
        | none => none
        | some c => (entry t id attributeId c).or (indexed f t early events id attributeId)
      else indexed f t early events id attributeId := by
  unfold indexed
  rw [last_append]
  by_cases hev : ev.meaning.concerns id attributeId = true
  · rw [if_pos hev, if_pos hev, Option.bind_some]
    cases hc : (ev.reread f).meaning.content with
    | none => simp
    | some c =>
      have hunknown := unknown_of_content (t := t) hev hc
      cases hfind : t.find? attributeId with
      | none =>
        have hmissing : indexed f t early events id attributeId = none := indexed_of_missing hfind
        rw [indexed] at hmissing
        rw [hfind] at hunknown
        simp [entry, hfind, hunknown, hmissing]
      | some a =>
        rw [hfind] at hunknown
        simp [entry, hfind, hunknown, hnew]
  · rw [if_neg hev, if_neg hev]
    cases hlast : last events id attributeId with
    | none => rfl
    | some old =>
      have hne := hfresh old (mem_of_last hlast)
      have hmem : old.id ∈ (if ev.meaning.unknown t then early ++ [ev.id] else early) ↔
          old.id ∈ early := by
        split
        · simp [hne]
        · rfl
      simp only [Option.bind_some, hmem]

theorem heard_initial (f : Rat → Rat) : Heard f .initial [] where
  split := rfl
  early := by simp [Store.initial]
  known := by simp
  values := fun _ _ => rfl
  index := fun _ _ => rfl

variable {s : Store} {done : List DomainEvent}

theorem Heard.call {c : ProductRepo.Call} {now clock : Int64} {db : ProductDb} (hnum : finiteNum c = true)
    (hrun : c.run s.product now clock = .ok db) (h : Heard f s done) :
    Heard f { s with product := db } done := by
  obtain ⟨ev, hrecord, hshown⟩ := shown_of_run (f := f) hnum hrun
  refine ⟨?_, h.early, h.known, ?_, h.index⟩
  · cases ev with
    | none => rw [hrecord]; exact h.split
    | some ev =>
      have hqueue : (s.product.outbox.enqueue ev clock).queue [] = _ :=
        Outbox.queue_enqueue (by simp) ev clock
      rw [Outbox.queue_nil, Outbox.queue_nil] at hqueue
      simp only [hrecord, ProductRepo.record, Outbox.rows_enqueue, hqueue, List.map_append, h.split,
        List.append_assoc]
  · intro id attributeId
    rw [hshown]
    cases ev with
    | none => rw [shownAfter, hrecord]; exact h.values id attributeId
    | some ev =>
      simp only [hrecord, ProductRepo.record, Outbox.rows_enqueue, List.map_append, List.map_cons,
        List.map_nil, last_append, shownAfter]
      rw [h.values id attributeId]
      change (if ev.meaning.concerns id attributeId then _ else _) =
        (if ev.meaning.concerns id attributeId then _ else _ : Option DomainEvent).bind _
      split <;> rfl

theorem Heard.createAttribute {a : Attribute} {t : Table Attribute String Attribute.id}
    (hcreate : TaxonomyRepo.createAttribute s.categories s.catalog.attributes a = .ok t)
    (h : Heard f s done) :
    Heard f { s with catalog := { s.catalog with attributes := t } } done := by
  have hknown : ∀ ev ∈ done, ev.meaning.unknown t → ev.meaning.unknown s.catalog.attributes := by
    intro ev _ hunknown
    cases hm : ev.meaning with
    | attributeSet id attributeId valText valNum =>
      rw [hm] at hunknown
      cases hfind : s.catalog.attributes.find? attributeId with
      | none => simp [ProductEvent.unknown, hfind]
      | some old =>
        have hkept := TaxonomyRepo.find?_createAttribute hcreate hfind
        simp [ProductEvent.unknown, hkept] at hunknown
    | _ =>
      rw [hm] at hunknown
      cases hunknown
  refine ⟨h.split, h.early, fun ev hev hunknown => h.known ev hev (hknown ev hev hunknown),
    h.values, ?_⟩
  intro id attributeId
  rw [h.index id attributeId]
  unfold indexed
  cases hlast : last done id attributeId with
  | none => rfl
  | some ev =>
    by_cases hearly : ev.id ∈ s.early
    · simp [hearly]
    · cases hc : (ev.reread f).meaning.content with
      | none => simp [hc]
      | some c =>
        -- the attribute was there when the event was heard, and it still is
        have hunknown := unknown_of_content (t := s.catalog.attributes) (concerns_of_last hlast) hc
        cases hfind : s.catalog.attributes.find? attributeId with
        | none =>
          rw [hfind] at hunknown
          exact absurd (h.known ev (mem_of_last hlast) hunknown) hearly
        | some old =>
          have hkept := TaxonomyRepo.find?_createAttribute hcreate hfind
          simp [hearly, hc, entry, hfind, hkept]

/-- What has been heard has smaller ids than what waits. -/
theorem Heard.fresh {r : OutboxRow} (hr : r ∈ s.product.outbox.unpublished) (h : Heard f s done) :
    ∀ ev ∈ done, ev.id ≠ r.id := by
  have hsorted : (s.product.outbox.rows.map OutboxRow.toEvent).Pairwise fun a b => a.id < b.id :=
    List.pairwise_map.mpr s.product.outbox.sorted
  rw [h.split, List.pairwise_append] at hsorted
  intro ev hev
  exact Nat.ne_of_lt (hsorted.2.2 ev hev r.toEvent (List.mem_map_of_mem hr))

theorem Heard.deliver {r : OutboxRow} {now : Int64} {c : CatalogDb}
    (hnext : s.product.outbox.unpublished.head? = some r)
    (hdispatch : dispatch s.catalog "product" (r.toEvent.reread f) = .ok c) (h : Heard f s done) :
    Heard f { s with
      product := { s.product with outbox := s.product.outbox.markPublished [r.id] now }
      catalog := c
      early := if r.toEvent.meaning.unknown s.catalog.attributes then s.early ++ [r.id]
        else s.early } (done ++ [r.toEvent]) := by
  have happly := dispatch_ok_iff.mp hdispatch
  have hattributes := ProductEvent.attributes_apply happly
  have hqueue := Outbox.unpublished_of_head hnext now
  have hhistory := s.product.outbox.events_markPublished [r.id] now
  have hfresh := h.fresh (hqueue ▸ List.mem_cons_self)
  have hnew : r.id ∉ s.early := by
    intro hmem
    obtain ⟨ev, hev, hid⟩ := h.early r.id hmem
    exact hfresh ev hev hid
  refine ⟨?_, ?_, ?_, ?_, ?_⟩
  · rw [hhistory, h.split, List.append_assoc, List.singleton_append, ← List.map_cons, ← hqueue]
  · intro i hi
    have hcases : i ∈ s.early ∨ i = r.id := by
      split at hi
      · exact (List.mem_append.mp hi).imp_right List.mem_singleton.mp
      · exact Or.inl hi
    rcases hcases with hold | rfl
    · obtain ⟨ev, hev, hid⟩ := h.early i hold
      exact ⟨ev, List.mem_append_left _ hev, hid⟩
    · exact ⟨r.toEvent, List.mem_append_right _ (List.mem_singleton_self _), rfl⟩
  · intro ev hev hunknown
    rw [hattributes] at hunknown
    rcases List.mem_append.mp hev with hold | hlast
    · have hmem := h.known ev hold hunknown
      split
      · exact List.mem_append_left _ hmem
      · exact hmem
    · obtain rfl := List.mem_singleton.mp hlast
      rw [if_pos hunknown]
      exact List.mem_append_right _ (List.mem_singleton_self _)
  · intro id attributeId
    simp only [hhistory]
    exact h.values id attributeId
  · intro id attributeId
    have hconcerns : (r.toEvent.reread f).meaning.concerns id attributeId =
        r.toEvent.meaning.concerns id attributeId := by
      rw [DomainEvent.meaning_reread, ProductEvent.concerns_withNum]
    rw [ProductEvent.find?_attr_apply happly, overwrite_onAttr, hconcerns, h.index id attributeId]
    simp only [hattributes]
    exact (indexed_append hfresh hnew).symm

theorem inv_step {s s' : Store} (h : Step f s s') (hs : Inv f s) : Inv f s' := by
  obtain ⟨done, hdone⟩ := hs
  cases h with
  | call hnum hrun => exact ⟨done, hdone.call hnum hrun⟩
  | createCategory hcreate =>
    exact ⟨done, hdone.split, hdone.early, hdone.known, hdone.values, hdone.index⟩
  | createAttribute hcreate => exact ⟨done, hdone.createAttribute hcreate⟩
  | deliver hnext hdispatch => exact ⟨_, hdone.deliver hnext hdispatch⟩

theorem inv_of_reaches {s : Store} (h : Reaches f .initial s) : Inv f s := by
  induction h with
  | refl => exact ⟨[], heard_initial f⟩
  | tail _ hstep ih => exact inv_step hstep ih

end Index

/-- Once everything is delivered, the index has the values of an attribute that exists with the
category of the attribute, but for a value that was delivered before the attribute was there. -/
theorem facet_index {f : Rat → Rat} {s : Store} (h : Reaches f .initial s)
    (hd : s.product.outbox.unpublished = []) (id : String) {a : Attribute}
    (ha : a ∈ s.catalog.attributes.rows) :
    (¬Skipped s id a.id → s.catalog.attrIndex.find? (id, a.id) =
      (s.product.productAttributeValues.find? (id, a.id)).map fun v =>
        ⟨id, a.categoryId, a.id, v.valText, v.valNum.map (F64.reread f)⟩) ∧
    (Skipped s id a.id → s.catalog.attrIndex.find? (id, a.id) = none) := by
  obtain ⟨done, hheard⟩ := inv_of_reaches h
  have hall : s.product.outbox.rows.map OutboxRow.toEvent = done := by
    rw [hheard.split, hd]
    exact List.append_nil done
  have hvalues := hheard.values id a.id
  rw [hall] at hvalues
  rw [hheard.index id a.id]
  unfold Skipped indexed
  rw [hall]
  constructor
  · intro htimely
    have hshown : (s.product.productAttributeValues.find? (id, a.id)).map (fun v =>
        (⟨id, a.categoryId, a.id, v.valText, v.valNum.map (F64.reread f)⟩ : AttrIndexRow)) =
          (shown f s.product id a.id).bind (entry s.catalog.attributes id a.id) := by
      unfold shown entry
      rw [Table.find?_of_mem ha]
      cases s.product.productAttributeValues.find? (id, a.id) <;> rfl
    rw [hshown, hvalues]
    cases hlast : last done id a.id with
    | none => rfl
    | some ev =>
      have hnot : ev.id ∉ s.early := fun hmem => htimely ⟨ev, hlast, hmem⟩
      rw [Option.bind_some, Option.bind_some, if_neg hnot]
  · rintro ⟨ev, hlast, hmem⟩
    rw [Option.mem_def.mp hlast, Option.bind_some, if_pos hmem]

/-! ## Runs -/

inductive Move where
  | call (c : ProductRepo.Call)
  | createCategory (c : Category)
  | createAttribute (a : Attribute)
  | deliver

/-- One move at the time 0; what cannot be done is left out. -/
def move (f : Rat → Rat) (s : Store) : Move → Store
  | .call c =>
    if finiteNum c then
      match c.run s.product 0 0 with
      | .ok db => { s with product := db }
      | .error _ => s
    else s
  | .createCategory c =>
    match TaxonomyRepo.createCategory s.categories c with
    | .ok t => { s with categories := t }
    | .error _ => s
  | .createAttribute a =>
    match TaxonomyRepo.createAttribute s.categories s.catalog.attributes a with
    | .ok t => { s with catalog := { s.catalog with attributes := t } }
    | .error _ => s
  | .deliver =>
    match s.product.outbox.unpublished.head? with
    | none => s
    | some r =>
      match dispatch s.catalog "product" (r.toEvent.reread f) with
      | .ok c => { s with
        product := { s.product with outbox := s.product.outbox.markPublished [r.id] 0 }
        catalog := c
        early := if r.toEvent.meaning.unknown s.catalog.attributes then s.early ++ [r.id]
          else s.early }
      | .error _ => s

theorem reaches_move (f : Rat → Rat) (s : Store) (m : Move) : Reaches f s (move f s m) := by
  cases m with
  | call c =>
    rw [move]
    split
    · rename_i hnum
      split
      · rename_i hrun
        exact .single (.call hnum hrun)
      · exact .refl
    · exact .refl
  | createCategory c =>
    rw [move]
    split
    · rename_i hcreate
      exact .single (.createCategory hcreate)
    · exact .refl
  | createAttribute a =>
    rw [move]
    split
    · rename_i hcreate
      exact .single (.createAttribute hcreate)
    · exact .refl
  | deliver =>
    rw [move]
    split
    · exact .refl
    · rename_i hnext
      split
      · rename_i hdispatch
        exact .single (.deliver hnext hdispatch)
      · exact .refl

theorem reaches_moves (f : Rat → Rat) (moves : List Move) (s : Store) :
    Reaches f s (moves.foldl (move f) s) := by
  induction moves generalizing s with
  | nil => exact .refl
  | cons m moves ih => exact (reaches_move f s m).trans (ih _)

def pen : Product := ⟨"pen", "s", "Pen", "pen", "", 100, "UAH", .draft, 0, 0⟩

def office : Category := ⟨"office", none, "Office", "office", "/office", 0⟩

def color : Attribute := ⟨"color", "office", "Color", .string, none, false, 0⟩

def red : ProductAttributeValue := ⟨"pen", "color", .string, some "red", none⟩

/-- The attribute is created, the product gets a value for it. -/
def timely : Store :=
  [Move.createCategory office, .createAttribute color, .call (.createProduct pen),
    .call (.setAttributeValue red), .deliver, .deliver].foldl (move id) .initial

theorem facet_index_timely :
    ¬Skipped timely "pen" "color" ∧ timely.catalog.attrIndex.find? ("pen", "color") =
      some ⟨"pen", "office", "color", some "red", none⟩ := by
  have hindex := (facet_index (reaches_moves id _ .initial : Reaches id .initial timely) (by rfl)
    "pen" (a := color) (by decide)).1
  have htimely : ¬Skipped timely "pen" "color" := by decide
  exact ⟨htimely, (hindex htimely).trans (by rfl)⟩

/-- The value arrives before the attribute is created, and is not indexed later. -/
theorem value_before_attribute :
    let s := [Move.call (.createProduct pen), .call (.setAttributeValue red), .deliver, .deliver,
      .createCategory office, .createAttribute color].foldl (move id) .initial
    Reaches id .initial s ∧ s.product.outbox.unpublished = [] ∧ color ∈ s.catalog.attributes.rows ∧
      s.product.productAttributeValues.find? ("pen", "color") = some red ∧
      s.catalog.attrIndex.find? ("pen", "color") = none :=
  ⟨reaches_moves id _ .initial, by rfl, by decide, by rfl, by rfl⟩

end FacetIndex

end TinyShop
