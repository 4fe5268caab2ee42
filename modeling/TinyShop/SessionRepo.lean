import TinyShop.Identity

/-!
# Sessions

`SessionRepo` of `crates/identity/src/session_repo.rs`. BLAKE3 is not in the repository and
stays a parameter, and so does the random token of a new session.
-/

namespace TinyShop

open Base Identity
set_option autoImplicit false

inductive SessionError where
  | invalidExpiry
  | db (e : SqlxError)
deriving DecidableEq, Repr

def SessionError.toString : SessionError → String
  | .invalidExpiry => "session expiry must be in the future"
  | .db e => "db: " ++ e.toString

namespace SessionRepo

section Operations
variable (db : IdentityDb)

/-- The key is checked at once, the foreign key at the end of the statement. -/
def insertSession (s : Session) : Except SqlxError IdentityDb :=
  if free : db.sessions.find? s.tokenHash = none then
    if db.HasAccount s.accountId then .ok { db with sessions := db.sessions.insert s free }
    else .error (.foreignKey "sessions")
  else .error (.primaryKey "sessions.token_hash")

def newSessionRow (tokenHash : String) (new : NewSession) (now : Int64) : Session :=
  ⟨tokenHash, new.accountId, new.expiresAt, new.userAgent, new.ipAddr, now⟩

def deleteSessions (p : Session → Bool) : IdentityDb :=
  { db with sessions := db.sessions.delete p }

variable (hashToken : String → String)

def create (raw : String) (new : NewSession) (now : Int64) :
    Except SessionError (IdentityDb × SessionToken) :=
  if new.expiresAt ≤ now then .error .invalidExpiry
  else
    match insertSession db (newSessionRow (hashToken raw) new now) with
    | .error e => .error (.db e)
    | .ok db => .ok (db, ⟨raw⟩)

/-- `WHERE token_hash = ? AND expires_at > ?`. -/
def verify (rawToken : String) (now : Int64) : Option Session :=
  db.sessions.rows.find? fun s => s.tokenHash = hashToken rawToken ∧ now < s.expiresAt

def revoke (rawToken : String) : IdentityDb :=
  deleteSessions db fun s => s.tokenHash = hashToken rawToken

def revokeAllForAccount (accountId : String) : IdentityDb :=
  deleteSessions db fun s => s.accountId = accountId

end Operations

/-- A new session is written, and nothing else. -/
theorem create_ok {db db' : IdentityDb} {hashToken : String → String} {raw : String}
    {new : NewSession} {now : Int64} {t : SessionToken}
    (h : create db hashToken raw new now = .ok (db', t)) :
    t = ⟨raw⟩ ∧ ∃ free, db' = { db with
      sessions := db.sessions.insert (newSessionRow (hashToken raw) new now) free } := by
  unfold create at h
  split at h
  · cases h
  · split at h
    · cases h
    · rename_i db₁ hins
      obtain ⟨rfl, rfl⟩ := Prod.mk.inj (Except.ok.inj h)
      unfold insertSession at hins
      split at hins
      · rename_i free
        split at hins
        · exact ⟨rfl, free, (Except.ok.inj hins).symm⟩
        · cases hins
      · cases hins

end SessionRepo

end TinyShop
