import TinyShop.IdentityConnection

/-!
# What the accounts are for

A reference model: who registered with which password, who sells, and who has which roles.
The tables refine it whatever is called, and the readers of `AccountRepo` answer from it.
-/

namespace TinyShop

open Base Identity
set_option autoImplicit false

namespace Accounts
open AccountRepo
open IdentityConnection (Entry Log)

/-! ## The reference model -/

structure Reference where
  accounts : List NewAccount
  sellers : List NewSeller
  roles : String → Finset AccountRole

namespace Reference

def empty : Reference := ⟨[], [], fun _ => ∅⟩

def grant (m : Reference) (id : String) (role : AccountRole) : Reference :=
  { m with roles := Function.update m.roles id (insert role (m.roles id)) }

def take (m : Reference) (id : String) (role : AccountRole) : Reference :=
  { m with roles := Function.update m.roles id ((m.roles id).erase role) }

def apply (m : Reference) : IdentityCall → Reference
  | .register new => { m.grant new.id .customer with accounts := m.accounts ++ [new] }
  | .registerSeller new => { m.grant new.accountId .seller with sellers := m.sellers ++ [new] }
  | .grantRole id role => m.grant id role
  | .revokeRole id role => m.take id role
  | _ => m

/-- Calls that failed count for nothing. -/
def after (m : Reference) (e : Entry) : Reference :=
  match e.answer with
  | .ok _ => m.apply e.call
  | .error _ => m

def ofLog (log : List Entry) : Reference := log.foldl after empty

theorem ofLog_concat (log : List Entry) (e : Entry) : ofLog (log ++ [e]) = (ofLog log).after e :=
  List.foldl_append

end Reference

/-- Some call registered the account. -/
def Registered (log : List Entry) (new : NewAccount) : Prop :=
  ∃ e ∈ log, e.call = .register new ∧ ∃ a, e.answer = .ok a

/-- Some call registered the seller. -/
def BecameSeller (log : List Entry) (new : NewSeller) : Prop :=
  ∃ e ∈ log, e.call = .registerSeller new ∧ ∃ a, e.answer = .ok a

section Reference
variable {log : List Entry} {m : Reference}

theorem mem_accounts_after {e : Entry} {new : NewAccount} : new ∈ (m.after e).accounts ↔
    new ∈ m.accounts ∨ e.call = .register new ∧ ∃ a, e.answer = .ok a := by
  unfold Reference.after
  split
  · rename_i a hanswer
    cases hcall : e.call with
    | register new' => simp [Reference.apply, hanswer, eq_comm]
    | _ => simp [Reference.apply, Reference.grant, Reference.take]
  · rename_i error hanswer
    simp [hanswer]

theorem mem_sellers_after {e : Entry} {new : NewSeller} : new ∈ (m.after e).sellers ↔
    new ∈ m.sellers ∨ e.call = .registerSeller new ∧ ∃ a, e.answer = .ok a := by
  unfold Reference.after
  split
  · rename_i a hanswer
    cases hcall : e.call with
    | registerSeller new' => simp [Reference.apply, hanswer, eq_comm]
    | _ => simp [Reference.apply, Reference.grant, Reference.take]
  · rename_i error hanswer
    simp [hanswer]

theorem mem_accounts_iff {new : NewAccount} :
    new ∈ (Reference.ofLog log).accounts ↔ Registered log new := by
  induction log using List.reverseRecOn with
  | nil => simp [Reference.ofLog, Reference.empty, Registered]
  | append_singleton log e ih =>
    rw [Reference.ofLog_concat, mem_accounts_after, ih]
    simp [Registered, or_and_right, exists_or]

theorem mem_sellers_iff {new : NewSeller} :
    new ∈ (Reference.ofLog log).sellers ↔ BecameSeller log new := by
  induction log using List.reverseRecOn with
  | nil => simp [Reference.ofLog, Reference.empty, BecameSeller]
  | append_singleton log e ih =>
    rw [Reference.ofLog_concat, mem_sellers_after, ih]
    simp [BecameSeller, or_and_right, exists_or]

end Reference

/-! ## The tables refine it -/

/-- The row of an account, with a hash of its password. -/
def Stores (hashes : Hashes) (new : NewAccount) (row : AccountRow) : Prop :=
  row.id = new.id ∧ row.email = new.email ∧
    ∃ salt, hashes.hashPasswordSync salt new.password = .ok row.passHash

/-- What an outbox row says of the event that was given to `enqueue`. -/
def recorded (r : OutboxRow) : NewEvent := ⟨r.aggregate, r.aggregateId, r.eventType, r.payload⟩

structure Refines (hashes : Hashes) (db : IdentityDb) (m : Reference) : Prop where
  ids : db.accounts.rows.map AccountRow.id = m.accounts.map NewAccount.id
  emails : db.accounts.rows.map AccountRow.email = m.accounts.map NewAccount.email
  stored : ∀ new ∈ m.accounts, ∃ row ∈ db.accounts.rows, Stores hashes new row
  roles : ∀ id role, (db.accountRoles.find? (id, role)).isSome ↔ role ∈ m.roles id
  sellers : db.sellers.rows.map (fun s => (s.accountId, s.displayName)) =
    m.sellers.map fun new => (new.accountId, new.displayName)
  events : db.outbox.rows.map recorded = m.accounts.map accountRegistered

section Refines
variable {hashes : Hashes} {db db' : IdentityDb} {m : Reference}

theorem refines_empty : Refines hashes .empty .empty where
  ids := rfl
  emails := rfl
  stored := by
    intro new hnew
    cases hnew
  roles := by simp [IdentityDb.empty, Reference.empty, Table.find?]
  sellers := rfl
  events := rfl

/-- A role that is granted, in the table and in the model. -/
theorem Refines.grant {id : String} {role : AccountRole} (h : Refines hashes db m)
    (hroles : ∀ k, (db'.accountRoles.find? k).isSome ↔
      k = (id, role) ∨ (db.accountRoles.find? k).isSome) (id' : String) (role' : AccountRole) :
    (db'.accountRoles.find? (id', role')).isSome ↔ role' ∈ (m.grant id role).roles id' := by
  rw [hroles, h.roles]
  by_cases hid : id' = id
  · subst hid
    simp [Reference.grant]
  · simp [Reference.grant, hid]

theorem Refines.take {id : String} {role : AccountRole} (h : Refines hashes db m)
    (id' : String) (role' : AccountRole) :
    ((deleteRole db id role).accountRoles.find? (id', role')).isSome ↔
      role' ∈ (m.take id role).roles id' := by
  rw [find?_deleteRole, h.roles]
  by_cases hid : id' = id
  · subst hid
    simp [Reference.take]
  · simp [Reference.take, hid]

theorem Refines.register {new : NewAccount} {join : Option String} {salt : String}
    {now clock : Int64} (h : Refines hashes db m)
    (hrun : register db hashes.hashPasswordSync join salt new now clock = .ok db') :
    Refines hashes db' (m.apply (.register new)) := by
  obtain ⟨passHash, accounts, accountRoles, hpass, hins, hroles, rfl⟩ := register_ok hrun
  obtain ⟨_, _, hrows⟩ := IndexedTable.insert?_eq_some hins
  constructor
  · change accounts.rows.map AccountRow.id = (m.accounts ++ [new]).map NewAccount.id
    rw [hrows, List.map_append, List.map_append, h.ids]
    rfl
  · change accounts.rows.map AccountRow.email = (m.accounts ++ [new]).map NewAccount.email
    rw [hrows, List.map_append, List.map_append, h.emails]
    rfl
  · intro n hn
    change ∃ row ∈ accounts.rows, Stores hashes n row
    rw [hrows]
    rcases List.mem_append.mp hn with hold | hnew
    · obtain ⟨row, hrow, hstores⟩ := h.stored n hold
      exact ⟨row, List.mem_append_left _ hrow, hstores⟩
    · obtain rfl := List.mem_singleton.mp hnew
      exact ⟨_, List.mem_append_right _ (List.mem_singleton_self _), rfl, rfl, salt, hpass⟩
  · exact h.grant hroles
  · exact h.sellers
  · change (db.outbox.rows ++ [db.outbox.newRow (accountRegistered new) clock]).map _ =
      (m.accounts ++ [new]).map accountRegistered
    rw [List.map_append, List.map_append, h.events]
    rfl

theorem Refines.registerSeller {new : NewSeller} {now : Int64} (h : Refines hashes db m)
    (hrun : registerSeller db new now = .ok db') :
    Refines hashes db' (m.apply (.registerSeller new)) := by
  obtain ⟨free, accountRoles, rfl, hroles⟩ := registerSeller_ok hrun
  refine ⟨h.ids, h.emails, h.stored, h.grant hroles, ?_, h.events⟩
  change (db.sellers.rows ++ [newSellerRow new now]).map _ = (m.sellers ++ [new]).map _
  rw [List.map_append, List.map_append, h.sellers]
  rfl

/-- A call that takes effect. -/
theorem Refines.perform {draw : Draw} {c : IdentityCall} {a : IdentityAnswer}
    (h : Refines hashes db m) (hrun : c.perform hashes draw db = .ok (a, db')) :
    Refines hashes db' (m.apply c) := by
  cases IdentityCall.effect_of_perform hrun with
  | register new hdb => exact h.register hdb
  | registerSeller new hdb => exact h.registerSeller hdb
  | grantRole id role hdb =>
    obtain ⟨accountRoles, rfl, hroles⟩ := grantRole_ok hdb
    exact ⟨h.ids, h.emails, h.stored, h.grant hroles, h.sellers, h.events⟩
  | revokeRole id role hdb =>
    obtain rfl := Except.ok.inj hdb
    exact ⟨h.ids, h.emails, h.stored, h.take, h.sellers, h.events⟩
  | create new t hdb =>
    obtain ⟨_, _, rfl⟩ := SessionRepo.create_ok hdb
    exact ⟨h.ids, h.emails, h.stored, h.roles, h.sellers, h.events⟩
  | revoke rawToken hdb =>
    rw [hdb]
    exact ⟨h.ids, h.emails, h.stored, h.roles, h.sellers, h.events⟩
  | revokeAllForAccount accountId hdb =>
    rw [hdb]
    exact ⟨h.ids, h.emails, h.stored, h.roles, h.sellers, h.events⟩

theorem refines_log {fails : SqlxError → Prop} {log : List Entry}
    (h : Log hashes fails .empty log db) : Refines hashes db (.ofLog log) := by
  induction h with
  | nil => exact refines_empty
  | call hlog hstep ih =>
    rw [Reference.ofLog_concat]
    rcases IdentityConnection.step_cases hstep with ⟨a, draw, rfl, hperform⟩ | ⟨⟨e, rfl⟩, rfl⟩
    · exact ih.perform hperform
    · exact ih

end Refines

/-! ## The readers answer from it -/

/-- An account as a reader returns it: its roles are those of the model, without duplicates. -/
def HasRoles (m : Reference) (a : Account) : Prop := a.roles.Nodup ∧ a.roles.toFinset = m.roles a.id

section Readers
variable {hashes : Hashes} {db : IdentityDb} {m : Reference}

/-- `verify` accepts the password that was hashed and no other. -/
def Verifies (hashes : Hashes) : Prop :=
  ∀ salt password hash, hashes.hashPasswordSync salt password = .ok hash →
    ∀ other, hashes.verifyPasswordSync hash other = true ↔ other = password

theorem Refines.stores_of_row (h : Refines hashes db m) {row : AccountRow}
    (hrow : row ∈ db.accounts.rows) : ∃ new ∈ m.accounts, Stores hashes new row := by
  have hid : row.id ∈ m.accounts.map NewAccount.id := h.ids ▸ List.mem_map_of_mem hrow
  obtain ⟨new, hnew, heq⟩ := List.mem_map.mp hid
  obtain ⟨row', hrow', hstores⟩ := h.stored new hnew
  have hfind := Table.find?_of_mem hrow'
  rw [hstores.1, heq, Table.find?_of_mem hrow] at hfind
  obtain rfl := Option.some.inj hfind
  exact ⟨new, hnew, hstores⟩

/-- No two accounts share an id or an email. -/
theorem Refines.unique (h : Refines hashes db m) {new new' : NewAccount} (hnew : new ∈ m.accounts)
    (hnew' : new' ∈ m.accounts) (hsame : new.id = new'.id ∨ new.email = new'.email) : new = new' := by
  rcases hsame with hid | hemail
  · exact List.inj_on_of_nodup_map (h.ids ▸ db.accounts.unique) hnew hnew' hid
  · exact List.inj_on_of_nodup_map (h.emails ▸ db.accounts.distinct) hnew hnew' hemail

theorem Refines.findRow_isSome (h : Refines hashes db m) (id : String) :
    (db.accounts.find? id).isSome ↔ ∃ new ∈ m.accounts, new.id = id := by
  have hids : id ∈ db.accounts.rows.map AccountRow.id ↔ id ∈ m.accounts.map NewAccount.id := by
    rw [h.ids]
  rw [List.mem_map, List.mem_map] at hids
  exact Table.find?_isSome_iff.trans hids

theorem Refines.hasRoles (h : Refines hashes db m) {a : Account}
    (ha : a.roles.Nodup ∧ ∀ role, role ∈ a.roles ↔ (db.accountRoles.find? (a.id, role)).isSome) :
    HasRoles m a := by
  refine ⟨ha.1, Finset.ext fun role => ?_⟩
  rw [List.mem_toFinset, ha.2, h.roles]

theorem Refines.findById_ok (h : Refines hashes db m) (id : String) :
    ∃ o, findById db id = .ok o ∧ (o.isSome ↔ ∃ new ∈ m.accounts, new.id = id) ∧
      ∀ a, o = some a → a.id = id ∧ HasRoles m a := by
  obtain ⟨o, ho, hid, _, _, hroles⟩ := hydrate_ok db (db.accounts.find? id)
  refine ⟨o, ho, ?_, fun a ha => ⟨?_, h.hasRoles (hroles a ha)⟩⟩
  · rw [← h.findRow_isSome, ← Option.isSome_map (f := Account.id), hid, Option.isSome_map]
  · rw [ha] at hid
    obtain ⟨row, hrow, heq⟩ := Option.map_eq_some_iff.mp hid.symm
    rw [← heq]
    exact Table.key_of_find? hrow

/-- The row that is found by its email. -/
theorem Refines.findEmail (h : Refines hashes db m) (email : String) :
    (∀ new ∈ m.accounts, new.email = email → ∃ row, db.accounts.rows.find? (fun r => r.email = email) =
      some row ∧ Stores hashes new row) ∧
    ∀ row, db.accounts.rows.find? (fun r => r.email = email) = some row →
      ∃ new ∈ m.accounts, new.email = email ∧ Stores hashes new row := by
  have hrow : ∀ row, db.accounts.rows.find? (fun r => r.email = email) = some row →
      ∃ new ∈ m.accounts, new.email = email ∧ Stores hashes new row := by
    intro row hfind
    have hemail := List.find?_some hfind
    obtain ⟨new, hnew, hstores⟩ := h.stores_of_row (List.mem_of_find?_eq_some hfind)
    exact ⟨new, hnew, hstores.2.1.symm.trans (of_decide_eq_true hemail), hstores⟩
  refine ⟨fun new hnew hemail => ?_, hrow⟩
  obtain ⟨row, hmem, hstores⟩ := h.stored new hnew
  have hsome : (db.accounts.rows.find? fun r => r.email = email).isSome :=
    List.find?_isSome.mpr ⟨row, hmem, decide_eq_true (hstores.2.1.trans hemail)⟩
  obtain ⟨row', hfind⟩ := Option.isSome_iff_exists.mp hsome
  obtain ⟨new', hnew', hemail', hstores'⟩ := hrow row' hfind
  obtain rfl := h.unique hnew hnew' (Or.inr (hemail.trans hemail'.symm))
  exact ⟨row', hfind, hstores'⟩

theorem Refines.findByEmail_ok (h : Refines hashes db m) (email : String) :
    ∃ o, findByEmail db email = .ok o ∧ (o.isSome ↔ ∃ new ∈ m.accounts, new.email = email) ∧
      ∀ a, o = some a → a.email = email ∧ HasRoles m a := by
  obtain ⟨hstored, hfound⟩ := h.findEmail email
  obtain ⟨o, ho, _, hemail, _, hroles⟩ :=
    hydrate_ok db (db.accounts.rows.find? fun r => r.email = email)
  refine ⟨o, ho, ?_, fun a ha => ⟨?_, h.hasRoles (hroles a ha)⟩⟩
  · rw [← Option.isSome_map (f := Account.email), hemail, Option.isSome_map,
      Option.isSome_iff_exists]
    constructor
    · rintro ⟨row, hrow⟩
      obtain ⟨new, hnew, hsame, _⟩ := hfound row hrow
      exact ⟨new, hnew, hsame⟩
    · rintro ⟨new, hnew, hsame⟩
      obtain ⟨row, hrow, _⟩ := hstored new hnew hsame
      exact ⟨row, hrow⟩
  · rw [ha] at hemail
    obtain ⟨row, hrow, heq⟩ := Option.map_eq_some_iff.mp hemail.symm
    have hcond := List.find?_some hrow
    rw [← heq]
    exact of_decide_eq_true hcond

/-- One account is found by its email, and its password is the one it was registered with. -/
theorem Refines.authenticate_ok (h : Refines hashes db m) (hverify : Verifies hashes)
    (email password : String) :
    ∃ o, authenticate db hashes.verifyPasswordSync none email password = .ok o ∧
      ∀ id, o.map Account.id = some id ↔
        ∃ new ∈ m.accounts, new.id = id ∧ new.email = email ∧ new.password = password := by
  obtain ⟨hstored, hfound⟩ := h.findEmail email
  obtain ⟨o, ho, hid, _, hhash, _⟩ :=
    hydrate_ok db (db.accounts.rows.find? fun r => r.email = email)
  have hanswer : authenticate db hashes.verifyPasswordSync none email password =
      .ok (o.filter fun _ =>
        hashes.verifyPasswordSync ((o.map Account.passHash).getD dummyHash) password) := by
    unfold AccountRepo.authenticate AccountRepo.findByEmail
    rw [ho]
    rfl
  refine ⟨_, hanswer, fun id => ?_⟩
  cases o with
  | none =>
    constructor
    · intro hnone
      cases hnone
    · rintro ⟨new, hnew, _, hemail, _⟩
      obtain ⟨row, hrow, _⟩ := hstored new hnew hemail
      rw [hrow] at hid
      cases hid
  | some a =>
    obtain ⟨row, hrow, hrowid⟩ := Option.map_eq_some_iff.mp hid.symm
    obtain ⟨new, hnew, hemail, hnewid, _, salt, hpass⟩ := hfound row hrow
    rw [hrow] at hhash
    have hsame : a.passHash = row.passHash := Option.some.inj hhash
    have hok := hverify salt new.password row.passHash hpass password
    rw [Option.map_some, Option.getD_some, hsame, Option.filter_some]
    constructor
    · intro hsome
      split at hsome
      · rename_i hverified
        have haid : a.id = id := Option.some.inj hsome
        exact ⟨new, hnew, (hnewid.symm.trans hrowid).trans haid, hemail, (hok.mp hverified).symm⟩
      · cases hsome
    · rintro ⟨new', hnew', rfl, hemail', rfl⟩
      obtain rfl := h.unique hnew hnew' (Or.inr (hemail.trans hemail'.symm))
      rw [if_pos (hok.mpr rfl), Option.map_some, ← hrowid, hnewid]

theorem Refines.getSeller_iff (h : Refines hashes db m) (id : String) :
    (getSeller db id).isSome ↔ ∃ new ∈ m.sellers, new.accountId = id := by
  have hids : id ∈ (db.sellers.rows.map fun s => (s.accountId, s.displayName)).map Prod.fst ↔
      id ∈ (m.sellers.map fun new => (new.accountId, new.displayName)).map Prod.fst := by
    rw [h.sellers]
  simp only [List.map_map, List.mem_map, Function.comp_apply] at hids
  exact Table.find?_isSome_iff.trans hids

/-- One event for each account. -/
theorem Refines.countP_events (h : Refines hashes db m) (id : String) :
    db.outbox.rows.countP (fun r => r.eventType = "AccountRegistered" ∧ r.aggregateId = id) =
      if (db.accounts.find? id).isSome then 1 else 0 := by
  have hcount : db.outbox.rows.countP
      (fun r => r.eventType = "AccountRegistered" ∧ r.aggregateId = id) =
        (db.accounts.rows.map AccountRow.id).count id := by
    have hevents := congrArg
      (List.countP fun ev : NewEvent => ev.eventType = "AccountRegistered" ∧ ev.aggregateId = id)
      h.events
    rw [List.countP_map, List.countP_map] at hevents
    rw [h.ids, List.count, List.countP_map]
    refine hevents.trans (List.countP_congr fun new _ => ?_)
    simp only [Function.comp_apply, accountRegistered, true_and, beq_iff_eq]
    exact decide_eq_true_iff
  rw [hcount, List.Nodup.count db.accounts.unique]
  refine if_congr ?_ rfl rfl
  rw [List.mem_map, Table.find?_isSome_iff]

/-- Each event is that of a registration. -/
theorem Refines.event_of_row (h : Refines hashes db m) {r : OutboxRow} (hr : r ∈ db.outbox.rows) :
    ∃ new ∈ m.accounts, accountRegistered new = recorded r := by
  have hmem : recorded r ∈ db.outbox.rows.map recorded := List.mem_map_of_mem hr
  rw [h.events] at hmem
  exact List.mem_map.mp hmem

end Readers

/-! ## Every run -/

/-- What the readers and the outbox say after the calls of a log. -/
structure Answers (hashes : Hashes) (log : List Entry) (db : IdentityDb) : Prop where
  authenticates : ∀ email password, ∃ o,
    authenticate db hashes.verifyPasswordSync none email password = .ok o ∧
      ∀ id, o.map Account.id = some id ↔
        ∃ new, Registered log new ∧ new.id = id ∧ new.email = email ∧ new.password = password
  unique : ∀ new new', Registered log new → Registered log new' →
    new.id = new'.id ∨ new.email = new'.email → new = new'
  byId : ∀ id, ∃ o, findById db id = .ok o ∧
    (o.isSome ↔ ∃ new, Registered log new ∧ new.id = id) ∧
      ∀ a, o = some a → a.id = id ∧ HasRoles (.ofLog log) a
  byEmail : ∀ email, ∃ o, findByEmail db email = .ok o ∧
    (o.isSome ↔ ∃ new, Registered log new ∧ new.email = email) ∧
      ∀ a, o = some a → a.email = email ∧ HasRoles (.ofLog log) a
  seller : ∀ id, (getSeller db id).isSome ↔ ∃ new, BecameSeller log new ∧ new.accountId = id
  event : ∀ new, Registered log new →
    db.outbox.rows.countP (fun r => r.eventType = "AccountRegistered" ∧ r.aggregateId = new.id) = 1
  noOther : ∀ r ∈ db.outbox.rows, r.eventType = "AccountRegistered" ∧
    ∃ new, Registered log new ∧ new.id = r.aggregateId
  unchanged : ∀ e ∈ log, (∃ error, e.answer = .error error) → e.after = e.before

/-- Any sequence of calls, with any arguments and whichever of them fail. -/
theorem accounts_refine {hashes : Hashes} {fails : SqlxError → Prop} {log : List Entry}
    {db : IdentityDb} (h : Log hashes fails .empty log db) (hverify : Verifies hashes) :
    Answers hashes log db := by
  have hrefines := refines_log h
  constructor
  · intro email password
    obtain ⟨o, ho, hid⟩ := hrefines.authenticate_ok hverify email password
    simp only [mem_accounts_iff] at hid
    exact ⟨o, ho, hid⟩
  · intro new new' hnew hnew' hsame
    exact hrefines.unique (mem_accounts_iff.mpr hnew) (mem_accounts_iff.mpr hnew') hsame
  · intro id
    obtain ⟨o, ho, hsome, hroles⟩ := hrefines.findById_ok id
    simp only [mem_accounts_iff] at hsome
    exact ⟨o, ho, hsome, hroles⟩
  · intro email
    obtain ⟨o, ho, hsome, hroles⟩ := hrefines.findByEmail_ok email
    simp only [mem_accounts_iff] at hsome
    exact ⟨o, ho, hsome, hroles⟩
  · intro id
    have hseller := hrefines.getSeller_iff id
    simp only [mem_sellers_iff] at hseller
    exact hseller
  · intro new hnew
    rw [hrefines.countP_events, if_pos]
    exact (hrefines.findRow_isSome new.id).mpr ⟨new, mem_accounts_iff.mpr hnew, rfl⟩
  · intro r hr
    obtain ⟨new, hnew, heq⟩ := hrefines.event_of_row hr
    refine ⟨(congrArg NewEvent.eventType heq).symm, new, mem_accounts_iff.mp hnew, ?_⟩
    exact congrArg NewEvent.aggregateId heq
  · rintro e he ⟨error, herror⟩
    have hstep := h.step_of_mem he
    rw [herror] at hstep
    exact IdentityConnection.unchanged_of_error hstep

theorem verifies_plain : Verifies IdentityConnection.plain := by
  intro salt password hash hhash other
  obtain rfl := Except.ok.inj hhash
  rw [IdentityConnection.plain, decide_eq_true_iff, String.append_right_inj]
  exact eq_comm

/-- Registrations, of which one has a taken email, a seller who registers twice, and roles that
come and go; the newest call comes first. -/
def annCalls : List IdentityCall :=
  [.revokeRole "ann" .customer, .grantRole "ann" .admin, .grantRole "nobody" .admin,
    .registerSeller ⟨"ann", "Ann's"⟩, .registerSeller ⟨"ann", "Ann"⟩,
    .register ⟨"bob", "ann@b.ua", "bobs"⟩, .register ⟨"ann", "ann@b.ua", "anns"⟩]

theorem accounts_refine_ann :
    let run := IdentityConnection.play IdentityConnection.plain annCalls
    run.1.map (fun e => e.answer.toOption) =
        [some .done, none, some .done, none, none, some .done, some .done] ∧
      (findById run.2 "ann").map (fun o => o.map Account.roles) = .ok (some [.seller, .admin]) ∧
      Answers IdentityConnection.plain run.1 run.2 :=
  have hlog : Log IdentityConnection.plain (fun _ => False) .empty _ _ :=
    IdentityConnection.log_play IdentityConnection.plain annCalls
  ⟨by decide, by decide, accounts_refine hlog verifies_plain⟩

end Accounts

end TinyShop
