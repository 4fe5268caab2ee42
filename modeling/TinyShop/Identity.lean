import TinyShop.Base.Table
import TinyShop.Outbox

/-!
# Accounts, roles and sessions

Domain types of `crates/identity/src/account.rs` and `session.rs`, and the tables of
`migrations/identity`. A row of `accounts` has no roles; the readers join them.
-/

namespace TinyShop

open Base
set_option autoImplicit false

namespace Identity

inductive AccountRole where
  | customer
  | seller
  | admin
deriving DecidableEq, Repr

namespace AccountRole

def asStr : AccountRole → String
  | .customer => "customer"
  | .seller => "seller"
  | .admin => "admin"

def parse (s : String) : Option AccountRole :=
  if s = "customer" then some .customer
  else if s = "seller" then some .seller
  else if s = "admin" then some .admin
  else none

@[simp] theorem parse_asStr (r : AccountRole) : parse r.asStr = some r := by
  cases r <;> decide

end AccountRole

/-- Row of the table `accounts`. -/
structure AccountRow where
  id : String
  email : String
  passHash : String
  emailVerifiedAt : Option Int64
  createdAt : Int64
  updatedAt : Int64
deriving DecidableEq, Repr

structure Account where
  id : String
  email : String
  passHash : String
  emailVerifiedAt : Option Int64
  createdAt : Int64
  updatedAt : Int64
  roles : List AccountRole
deriving DecidableEq, Repr

structure NewAccount where
  id : String
  email : String
  password : String
deriving DecidableEq, Repr

/-- Row of the table `account_roles`; its `CHECK` admits the texts of the three roles. -/
structure AccountRoleRow where
  accountId : String
  role : AccountRole
  grantedAt : Int64
deriving DecidableEq, Repr

structure Seller where
  accountId : String
  displayName : String
  splitReceiverId : Option String
  verifiedAt : Option Int64
  createdAt : Int64
deriving DecidableEq, Repr

structure NewSeller where
  accountId : String
  displayName : String
deriving DecidableEq, Repr

/-- The token itself is not stored. -/
structure Session where
  tokenHash : String
  accountId : String
  expiresAt : Int64
  userAgent : Option String
  ipAddr : Option String
  createdAt : Int64
deriving DecidableEq, Repr

structure NewSession where
  accountId : String
  expiresAt : Int64
  userAgent : Option String
  ipAddr : Option String
deriving DecidableEq, Repr

structure SessionToken where
  asStr : String
deriving DecidableEq, Repr

/-- `PRIMARY KEY (id)` and `UNIQUE (email)`. -/
abbrev Accounts := IndexedTable AccountRow String String AccountRow.id AccountRow.email

end Identity

open Identity

structure IdentityDb where
  accounts : Accounts
  accountRoles : Table AccountRoleRow (String × AccountRole) fun r => (r.accountId, r.role)
  sessions : Table Session String Session.tokenHash
  sellers : Table Seller String Seller.accountId
  outbox : Outbox

namespace IdentityDb

def empty : IdentityDb := ⟨∅, ∅, ∅, ∅, .empty⟩

def HasAccount (db : IdentityDb) (id : String) : Prop := (db.accounts.find? id).isSome

instance (db : IdentityDb) (id : String) : Decidable (db.HasAccount id) :=
  inferInstanceAs (Decidable ((db.accounts.find? id).isSome = true))

def enqueue (db : IdentityDb) (ev : NewEvent) (clock : Int64) : IdentityDb :=
  { db with outbox := db.outbox.enqueue ev clock }

end IdentityDb

end TinyShop
