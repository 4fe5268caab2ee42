import TinyShop.Identity
import TinyShop.Text

/-!
# Accounts

`AccountRepo` of `crates/identity/src/account_repo.rs`. Argon2 is not in the repository:
the functions that make and verify a hash are parameters, and so is the random salt.
`join` is the error of a blocking task that could not be joined.
-/

namespace TinyShop

open Base Identity
set_option autoImplicit false

inductive AccountError where
  | emailTaken
  | db (e : SqlxError)
  | hashError (message : String)
  | join (message : String)
  | invalidRole (accountId role : String)
deriving DecidableEq, Repr

def AccountError.toString : AccountError → String
  | .emailTaken => "email already taken"
  | .db e => "db: " ++ e.toString
  | .hashError message => "password hashing: " ++ message
  | .join message => "task join: " ++ message
  | .invalidRole accountId role =>
    "invalid persisted role " ++ role.quote ++ " for account " ++ accountId

/-- `message()` of an error that the database itself reports. -/
def SqlxError.message : SqlxError → Option String
  | .primaryKey columns => some ("UNIQUE constraint failed: " ++ columns)
  | .unique columns => some ("UNIQUE constraint failed: " ++ columns)
  | .foreignKey _ => some "FOREIGN KEY constraint failed"
  | .check constraint => some ("CHECK constraint failed: " ++ constraint)
  | .integerOverflow => some "integer overflow"
  | .rowNotFound => none
  | .other _ => none

namespace AccountRepo

def aggregate : String := "account"

def accountRegistered (new : NewAccount) : NewEvent :=
  ⟨aggregate, new.id, "AccountRegistered", .object [
    ("account_id", .string new.id),
    ("email", .string new.email)]⟩

/-- Only for the index on `accounts.email`. -/
def isUniqueViolation (e : SqlxError) : Bool :=
  match e.message with
  | some message => Text.contains message "UNIQUE constraint failed" &&
    Text.contains message "accounts.email"
  | none => false

section Hashing
variable (hashPasswordSync : (salt password : String) → Except String String)

def hashPassword (join : Option String) (salt password : String) : Except AccountError String :=
  match join with
  | some message => .error (.join message)
  | none => (hashPasswordSync salt password).mapError .hashError

end Hashing

section Operations
variable (db : IdentityDb)

def EmailTaken (email : String) : Prop := ∃ r ∈ db.accounts.rows, r.email = email

instance (email : String) : Decidable (EmailTaken db email) :=
  inferInstanceAs (Decidable (∃ r ∈ db.accounts.rows, r.email = email))

def newAccountRow (id email passHash : String) (now : Int64) : AccountRow :=
  ⟨id, email, passHash, none, now, now⟩

/-- The index on the email is looked at before the key. -/
def insertAccount (id email passHash : String) (now : Int64) : Except SqlxError IdentityDb :=
  match db.accounts.insert? (newAccountRow id email passHash now) with
  | some accounts => .ok { db with accounts }
  | none =>
    if EmailTaken db email then .error (.unique "accounts.email")
    else .error (.primaryKey "accounts.id")

/-- The key is checked at once, the foreign key at the end of the statement. -/
def insertRole (accountId : String) (role : AccountRole) (now : Int64) :
    Except SqlxError IdentityDb :=
  if free : db.accountRoles.find? (accountId, role) = none then
    if db.HasAccount accountId then
      .ok { db with accountRoles := db.accountRoles.insert ⟨accountId, role, now⟩ free }
    else .error (.foreignKey "account_roles")
  else .error (.primaryKey "account_roles.account_id, account_roles.role")

/-- `ON CONFLICT (account_id, role) DO NOTHING`. -/
def addRole (accountId : String) (role : AccountRole) (now : Int64) : Except SqlxError IdentityDb :=
  if (db.accountRoles.find? (accountId, role)).isSome then .ok db
  else insertRole db accountId role now

def deleteRole (accountId : String) (role : AccountRole) : IdentityDb :=
  { db with accountRoles := db.accountRoles.delete fun r => r.accountId = accountId ∧ r.role = role }

def newSellerRow (new : NewSeller) (now : Int64) : Seller :=
  ⟨new.accountId, new.displayName, none, none, now⟩

def insertSeller (new : NewSeller) (now : Int64) : Except SqlxError IdentityDb :=
  if free : db.sellers.find? new.accountId = none then
    if db.HasAccount new.accountId then
      .ok { db with sellers := db.sellers.insert (newSellerRow new now) free }
    else .error (.foreignKey "sellers")
  else .error (.primaryKey "sellers.account_id")

/-- The password was hashed before, and no hash is made within the transaction. -/
def registerTx (new : NewAccount) (passHash : String) (now clock : Int64) :
    Except AccountError IdentityDb :=
  match insertAccount db new.id new.email passHash now with
  | .error e => if isUniqueViolation e then .error .emailTaken else .error (.db e)
  | .ok db =>
    match insertRole db new.id .customer now with
    | .error e => .error (.db e)
    | .ok db => .ok (db.enqueue (accountRegistered new) clock)

def register (hashPasswordSync : (salt password : String) → Except String String)
    (join : Option String) (salt : String) (new : NewAccount) (now clock : Int64) :
    Except AccountError IdentityDb := do
  let passHash ← hashPassword hashPasswordSync join salt new.password
  registerTx db new passHash now clock

def grantRole (accountId : String) (role : AccountRole) (now : Int64) :
    Except AccountError IdentityDb :=
  (addRole db accountId role now).mapError .db

def revokeRole (accountId : String) (role : AccountRole) : Except AccountError IdentityDb :=
  .ok (deleteRole db accountId role)

def registerSeller (new : NewSeller) (now : Int64) : Except AccountError IdentityDb :=
  (do addRole (← insertSeller db new now) new.accountId .seller now).mapError .db

end Operations

/-! ## What the operations write -/

section Inversion
variable {db db' : IdentityDb} {now clock : Int64}

theorem insertAccount_ok {id email passHash : String}
    (h : insertAccount db id email passHash now = .ok db') :
    ∃ accounts, db.accounts.insert? (newAccountRow id email passHash now) = some accounts ∧
      db' = { db with accounts } := by
  unfold insertAccount at h
  split at h
  · rename_i accounts hins
    exact ⟨accounts, hins, (Except.ok.inj h).symm⟩
  · split at h
    · cases h
    · cases h

theorem insertRole_ok {accountId : String} {role : AccountRole}
    (h : insertRole db accountId role now = .ok db') :
    ∃ accountRoles, db' = { db with accountRoles } ∧ ∀ k, (accountRoles.find? k).isSome ↔
      k = (accountId, role) ∨ (db.accountRoles.find? k).isSome := by
  unfold insertRole at h
  split at h
  · rename_i free
    split at h
    · refine ⟨_, (Except.ok.inj h).symm, fun k => ?_⟩
      rw [Table.find?_insert]
      split
      · simp_all
      · rename_i hne
        exact ⟨Or.inr, fun hk => hk.resolve_left fun heq => hne heq.symm⟩
    · cases h
  · cases h

theorem addRole_ok {accountId : String} {role : AccountRole}
    (h : addRole db accountId role now = .ok db') :
    ∃ accountRoles, db' = { db with accountRoles } ∧ ∀ k, (accountRoles.find? k).isSome ↔
      k = (accountId, role) ∨ (db.accountRoles.find? k).isSome := by
  unfold addRole at h
  split at h
  · rename_i hhas
    refine ⟨db.accountRoles, (Except.ok.inj h).symm, fun k => ⟨Or.inr, ?_⟩⟩
    rintro (rfl | hk)
    · exact hhas
    · exact hk
  · exact insertRole_ok h

theorem find?_deleteRole (accountId : String) (role : AccountRole) (k : String × AccountRole) :
    (((deleteRole db accountId role).accountRoles).find? k).isSome ↔
      k ≠ (accountId, role) ∧ (db.accountRoles.find? k).isSome := by
  have hkey : ∀ r : AccountRoleRow, (r.accountId, r.role) = k →
      decide (r.accountId = accountId ∧ r.role = role) = decide (k = (accountId, role)) := by
    rintro r rfl
    simp
  unfold deleteRole
  rw [Table.find?_delete_of_key _ hkey]
  by_cases hk : k = (accountId, role)
  · simp [hk]
  · simp [hk]

theorem insertSeller_ok {new : NewSeller} (h : insertSeller db new now = .ok db') :
    ∃ free, db' = { db with sellers := db.sellers.insert (newSellerRow new now) free } := by
  unfold insertSeller at h
  split at h
  · rename_i free
    split at h
    · exact ⟨free, (Except.ok.inj h).symm⟩
    · cases h
  · cases h

theorem register_ok {hashPasswordSync : (salt password : String) → Except String String}
    {join : Option String} {salt : String} {new : NewAccount}
    (h : register db hashPasswordSync join salt new now clock = .ok db') :
    ∃ passHash accounts accountRoles, hashPasswordSync salt new.password = .ok passHash ∧
      db.accounts.insert? (newAccountRow new.id new.email passHash now) = some accounts ∧
      (∀ k, (accountRoles.find? k).isSome ↔
        k = (new.id, .customer) ∨ (db.accountRoles.find? k).isSome) ∧
      db' = { db with
        accounts, accountRoles
        outbox := db.outbox.enqueue (accountRegistered new) clock } := by
  have hhash : ∃ passHash, hashPasswordSync salt new.password = .ok passHash ∧
      registerTx db new passHash now clock = .ok db' := by
    unfold register hashPassword at h
    split at h
    · cases h
    · cases hpass : hashPasswordSync salt new.password with
      | error e =>
        rw [hpass] at h
        cases h
      | ok passHash =>
        rw [hpass] at h
        exact ⟨passHash, rfl, h⟩
  obtain ⟨passHash, hpass, htx⟩ := hhash
  unfold registerTx at htx
  split at htx
  · split at htx
    · cases htx
    · cases htx
  · rename_i db₁ hins
    obtain ⟨accounts, haccounts, rfl⟩ := insertAccount_ok hins
    split at htx
    · cases htx
    · rename_i db₂ hrole
      obtain ⟨accountRoles, rfl, hroles⟩ := insertRole_ok hrole
      exact ⟨passHash, accounts, accountRoles, hpass, haccounts, hroles, (Except.ok.inj htx).symm⟩

theorem grantRole_ok {accountId : String} {role : AccountRole}
    (h : grantRole db accountId role now = .ok db') :
    ∃ accountRoles, db' = { db with accountRoles } ∧ ∀ k, (accountRoles.find? k).isSome ↔
      k = (accountId, role) ∨ (db.accountRoles.find? k).isSome := by
  unfold grantRole at h
  cases hadd : addRole db accountId role now with
  | error e =>
    rw [hadd] at h
    cases h
  | ok db₁ =>
    rw [hadd] at h
    obtain rfl := Except.ok.inj h
    exact addRole_ok hadd

theorem registerSeller_ok {new : NewSeller} (h : registerSeller db new now = .ok db') :
    ∃ free accountRoles, db' = { db with
        sellers := db.sellers.insert (newSellerRow new now) free
        accountRoles } ∧
      ∀ k, (accountRoles.find? k).isSome ↔
        k = (new.accountId, .seller) ∨ (db.accountRoles.find? k).isSome := by
  unfold registerSeller at h
  cases hins : insertSeller db new now with
  | error e =>
    rw [hins] at h
    cases h
  | ok db₁ =>
    rw [hins] at h
    obtain ⟨free, rfl⟩ := insertSeller_ok hins
    cases hadd : addRole { db with sellers := db.sellers.insert (newSellerRow new now) free }
        new.accountId .seller now with
    | error e =>
      simp only [bind, Except.bind, hadd] at h
      cases h
    | ok db₂ =>
      simp only [bind, Except.bind, hadd] at h
      obtain rfl := Except.ok.inj h
      obtain ⟨accountRoles, rfl, hroles⟩ := addRole_ok hadd
      exact ⟨free, accountRoles, rfl, hroles⟩

end Inversion

section Reads
variable (db : IdentityDb)

/-- The rows come in no order that the query asks for. -/
def fetchRoles (accountId : String) : Except AccountError (List AccountRole) :=
  ((db.accountRoles.rows.filter fun r => r.accountId = accountId).map
    fun r => r.role.asStr).mapM fun role =>
      match AccountRole.parse role with
      | some r => .ok r
      | none => .error (.invalidRole accountId role)

def hydrate : Option AccountRow → Except AccountError (Option Account)
  | none => .ok none
  | some r => do
    let roles ← fetchRoles db r.id
    return some ⟨r.id, r.email, r.passHash, r.emailVerifiedAt, r.createdAt, r.updatedAt, roles⟩

def findByEmail (email : String) : Except AccountError (Option Account) :=
  hydrate db (db.accounts.rows.find? fun r => r.email = email)

def findById (id : String) : Except AccountError (Option Account) :=
  hydrate db (db.accounts.find? id)

def dummyHash : String :=
  "$argon2id$v=19$m=19456,t=2,p=1$Y2hvb2NvbGF0ZQ$MTIzNDU2Nzg5MDEyMzQ1Njc4OTAxMjM0NTY3ODkwMTI"

/-- A hash is verified in any case, that of a fixed password for an unknown email. -/
def authenticate (verifyPasswordSync : (hash password : String) → Bool) (join : Option String)
    (email password : String) : Except AccountError (Option Account) := do
  let account ← findByEmail db email
  let hash := (account.map Account.passHash).getD dummyHash
  match join with
  | some message => .error (.join message)
  | none =>
    let ok := verifyPasswordSync hash password
    return account.filter fun _ => ok

def getSeller (accountId : String) : Option Seller := db.sellers.find? accountId

/-- The stored roles are all known, and a role is stored once. -/
theorem fetchRoles_ok (accountId : String) : ∃ roles, fetchRoles db accountId = .ok roles ∧
    roles.Nodup ∧ ∀ role, role ∈ roles ↔ (db.accountRoles.find? (accountId, role)).isSome := by
  have hparse : ∀ rows : List AccountRoleRow, (rows.map fun r => r.role.asStr).mapM (fun role =>
      match AccountRole.parse role with
      | some r => Except.ok r
      | none => .error (AccountError.invalidRole accountId role)) =
        .ok (rows.map AccountRoleRow.role) := by
    intro rows
    induction rows with
    | nil => rfl
    | cons row rows ih =>
      rw [List.map_cons, List.mapM_cons, ih, AccountRole.parse_asStr]
      rfl
  refine ⟨_, hparse _, ?_, fun role => ?_⟩
  · have hkeys := (List.filter_sublist (p := fun r => decide (r.accountId = accountId))).map
      (fun r : AccountRoleRow => (r.accountId, r.role)) |>.nodup db.accountRoles.unique
    refine List.Nodup.of_map (fun role => (accountId, role)) ?_
    rw [List.map_map]
    refine (List.map_congr_left fun r hr => ?_) ▸ hkeys
    rw [← of_decide_eq_true (List.mem_filter.mp hr).2]
    rfl
  · rw [List.mem_map, Table.find?_isSome_iff]
    constructor
    · rintro ⟨r, hr, rfl⟩
      obtain ⟨hmem, hid⟩ := List.mem_filter.mp hr
      exact ⟨r, hmem, by rw [of_decide_eq_true hid]⟩
    · rintro ⟨r, hr, hkey⟩
      obtain ⟨hid, hrole⟩ := Prod.mk.inj hkey
      exact ⟨r, List.mem_filter.mpr ⟨hr, decide_eq_true hid⟩, hrole⟩

/-- A row is read with its roles. -/
theorem hydrate_ok (row : Option AccountRow) : ∃ o, hydrate db row = .ok o ∧
    o.map Account.id = row.map AccountRow.id ∧ o.map Account.email = row.map AccountRow.email ∧
    o.map Account.passHash = row.map AccountRow.passHash ∧
    ∀ a, o = some a → a.roles.Nodup ∧
      ∀ role, role ∈ a.roles ↔ (db.accountRoles.find? (a.id, role)).isSome := by
  cases row with
  | none => exact ⟨none, rfl, rfl, rfl, rfl, by simp⟩
  | some r =>
    obtain ⟨roles, hroles, hrest⟩ := fetchRoles_ok db r.id
    refine ⟨_, by rw [hydrate, hroles]; rfl, rfl, rfl, rfl, fun a ha => ?_⟩
    obtain rfl := Option.some.inj ha
    exact hrest

end Reads

end AccountRepo

end TinyShop
