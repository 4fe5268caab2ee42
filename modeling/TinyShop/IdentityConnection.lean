import TinyShop.AccountRepo
import TinyShop.Base.CallLog
import TinyShop.Base.Transaction
import TinyShop.SessionRepo

/-!
# The identity database over a connection

The writing calls of `account_repo.rs` and `session_repo.rs`, statement by statement, each
in one transaction. Whatever fails on the way, a call does what `AccountRepo` and
`SessionRepo` say in one step, or nothing.
-/

namespace TinyShop

open Base Identity
set_option autoImplicit false

/-- The statements that write. -/
inductive IdentityStatement where
  | insertAccount (id email passHash : String) (now : Int64)
  | insertRole (accountId : String) (role : AccountRole) (now : Int64)
  | addRole (accountId : String) (role : AccountRole) (now : Int64)
  | deleteRole (accountId : String) (role : AccountRole)
  | insertSeller (new : NewSeller) (now : Int64)
  | insertSession (s : Session)
  | deleteSession (tokenHash : String)
  | deleteSessions (accountId : String)
  | enqueue (ev : NewEvent) (clock : Int64)

@[reducible] def IdentityStatement.Res (_ : IdentityStatement) : Type := Unit

namespace IdentityDb

def done : Except SqlxError IdentityDb → Except SqlxError (Unit × IdentityDb) :=
  Except.map fun db => ((), db)

def apply (db : IdentityDb) : (st : IdentityStatement) → Except SqlxError (st.Res × IdentityDb)
  | .insertAccount id email passHash now =>
    done (AccountRepo.insertAccount db id email passHash now)
  | .insertRole accountId role now => done (AccountRepo.insertRole db accountId role now)
  | .addRole accountId role now => done (AccountRepo.addRole db accountId role now)
  | .deleteRole accountId role => done (.ok (AccountRepo.deleteRole db accountId role))
  | .insertSeller new now => done (AccountRepo.insertSeller db new now)
  | .insertSession s => done (SessionRepo.insertSession db s)
  | .deleteSession tokenHash =>
    done (.ok (SessionRepo.deleteSessions db fun s => s.tokenHash = tokenHash))
  | .deleteSessions accountId =>
    done (.ok (SessionRepo.deleteSessions db fun s => s.accountId = accountId))
  | .enqueue ev clock => done (.ok (db.enqueue ev clock))

end IdentityDb

/-- What the calls take from packages outside of the repository. -/
structure Hashes where
  hashToken : String → String
  hashPasswordSync : (salt password : String) → Except String String
  verifyPasswordSync : (hash password : String) → Bool

/-- What one call draws: the readings of the clock, the random token and salt, and the
error of its blocking task, if that cannot be joined. -/
structure Draw where
  now : Int64
  clock : Int64
  token : String
  salt : String
  join : Option String

namespace IdentityConnection

abbrev Call (δ α : Type) := Client SqlxError IdentityStatement.Res (Except δ α)

/-- Only the first statement of `register` can violate the index on the email, so the
error is looked at here for the whole transaction. -/
def registerError (e : SqlxError) : AccountError :=
  if AccountRepo.isUniqueViolation e then .emailTaken else .db e

def register (hashes : Hashes) (draw : Draw) (new : NewAccount) : Call AccountError Unit :=
  match AccountRepo.hashPassword hashes.hashPasswordSync draw.join draw.salt new.password with
  | .error e => .pure (.error e)
  | .ok passHash => inTransaction registerError do
    let _ ← statement (.insertAccount new.id new.email passHash draw.now)
    let _ ← statement (.insertRole new.id .customer draw.now)
    let _ ← statement (.enqueue (AccountRepo.accountRegistered new) draw.clock)
    return ()

/-- A single statement is a transaction of its own. -/
def grantRole (accountId : String) (role : AccountRole) (now : Int64) : Call AccountError Unit :=
  inTransaction .db do
    let _ ← statement (.addRole accountId role now)
    return ()

def revokeRole (accountId : String) (role : AccountRole) : Call AccountError Unit :=
  inTransaction .db do
    let _ ← statement (.deleteRole accountId role)
    return ()

def registerSeller (new : NewSeller) (now : Int64) : Call AccountError Unit :=
  inTransaction .db do
    let _ ← statement (.insertSeller new now)
    let _ ← statement (.addRole new.accountId .seller now)
    return ()

def create (hashToken : String → String) (raw : String) (new : NewSession) (now : Int64) :
    Call SessionError SessionToken :=
  if new.expiresAt ≤ now then .pure (.error .invalidExpiry)
  else inTransaction .db do
    let _ ← statement (.insertSession (SessionRepo.newSessionRow (hashToken raw) new now))
    return ⟨raw⟩

def revoke (hashToken : String → String) (rawToken : String) : Call SessionError Unit :=
  inTransaction .db do
    let _ ← statement (.deleteSession (hashToken rawToken))
    return ()

def revokeAllForAccount (accountId : String) : Call SessionError Unit :=
  inTransaction .db do
    let _ ← statement (.deleteSessions accountId)
    return ()

/-! ## Each call is one step -/

section Refinement
variable {fails : SqlxError → Prop}

/-- A call without a result. -/
def unit {δ : Type} : Except δ IdentityDb → Except δ (Unit × IdentityDb) :=
  Except.map fun db => ((), db)

/-- A violation in `account_roles` is not about the email. -/
theorem registerError_insertRole {db : IdentityDb} {accountId : String} {role : AccountRole}
    {now : Int64} {e : SqlxError} (h : AccountRepo.insertRole db accountId role now = .error e) :
    registerError e = .db e := by
  have hother : AccountRepo.isUniqueViolation e = false := by
    unfold AccountRepo.insertRole at h
    split at h
    · split at h
      · cases h
      · cases h
        decide +kernel
    · cases h
      decide +kernel
  rw [registerError, hother]
  rfl

theorem registerTx_atomic (new : NewAccount) (passHash : String) (now clock : Int64) :
    Atomic IdentityDb.apply fails registerError
      (inTransaction registerError (do
        let _ ← statement (.insertAccount new.id new.email passHash now)
        let _ ← statement (.insertRole new.id .customer now)
        let _ ← statement (.enqueue (AccountRepo.accountRegistered new) clock)
        return ()))
      fun db => unit (AccountRepo.registerTx db new passHash now clock) := by
  refine atomic_transaction (does_bind (does_statement _) fun _ =>
    does_bind (does_statement _) fun _ =>
    does_bind (does_statement _) fun _ => does_pure ()) _ fun db => ?_
  simp only [IdentityDb.apply, IdentityDb.done, bind_step, AccountRepo.registerTx]
  cases AccountRepo.insertAccount db new.id new.email passHash now with
  | error e =>
    simp only [bind, Except.bind, Except.mapError, registerError, unit]
    split <;> rfl
  | ok db₁ =>
    simp only [bind, Except.bind]
    cases hrole : AccountRepo.insertRole db₁ new.id .customer now with
    | error e =>
      simp only [Except.mapError, registerError_insertRole hrole]
      rfl
    | ok db₂ => rfl

theorem register_atomic (hashes : Hashes) (draw : Draw) (new : NewAccount) :
    Atomic IdentityDb.apply fails registerError (register hashes draw new)
      fun db => unit (AccountRepo.register db hashes.hashPasswordSync draw.join draw.salt new
        draw.now draw.clock) := by
  unfold register AccountRepo.register
  cases AccountRepo.hashPassword hashes.hashPasswordSync draw.join draw.salt new.password with
  | error e => exact atomic_error _ fun _ => rfl
  | ok passHash => exact registerTx_atomic new passHash draw.now draw.clock

theorem grantRole_atomic (accountId : String) (role : AccountRole) (now : Int64) :
    Atomic IdentityDb.apply fails .db (grantRole accountId role now)
      fun db => unit (AccountRepo.grantRole db accountId role now) := by
  refine atomic_transaction (does_bind (does_statement _) fun _ => does_pure ()) _ fun db => ?_
  simp only [IdentityDb.apply, IdentityDb.done, bind_step, AccountRepo.grantRole]
  cases AccountRepo.addRole db accountId role now <;> rfl

theorem revokeRole_atomic (accountId : String) (role : AccountRole) :
    Atomic IdentityDb.apply fails .db (revokeRole accountId role)
      fun db => unit (AccountRepo.revokeRole db accountId role) :=
  atomic_transaction (does_bind (does_statement _) fun _ => does_pure ()) _ fun _ => rfl

theorem registerSeller_atomic (new : NewSeller) (now : Int64) :
    Atomic IdentityDb.apply fails .db (registerSeller new now)
      fun db => unit (AccountRepo.registerSeller db new now) := by
  refine atomic_transaction (does_bind (does_statement _) fun _ =>
    does_bind (does_statement _) fun _ => does_pure ()) _ fun db => ?_
  simp only [IdentityDb.apply, IdentityDb.done, bind_step, AccountRepo.registerSeller]
  cases AccountRepo.insertSeller db new now with
  | error e => rfl
  | ok db₁ =>
    simp only [bind, Except.bind]
    cases AccountRepo.addRole db₁ new.accountId .seller now <;> rfl

theorem create_atomic (hashToken : String → String) (raw : String) (new : NewSession) (now : Int64) :
    Atomic IdentityDb.apply fails .db (create hashToken raw new now)
      fun db => (SessionRepo.create db hashToken raw new now).map Prod.swap := by
  unfold create SessionRepo.create
  by_cases hexpiry : new.expiresAt ≤ now
  · simp only [hexpiry, if_true]
    exact atomic_error _ fun _ => rfl
  · simp only [hexpiry, if_false]
    refine atomic_transaction (does_bind (does_statement _) fun _ => does_pure _) _ fun db => ?_
    simp only [IdentityDb.apply, IdentityDb.done, bind_step]
    cases SessionRepo.insertSession db (SessionRepo.newSessionRow (hashToken raw) new now) <;> rfl

theorem revoke_atomic (hashToken : String → String) (rawToken : String) :
    Atomic IdentityDb.apply fails .db (revoke hashToken rawToken)
      fun db => unit (.ok (SessionRepo.revoke db hashToken rawToken)) :=
  atomic_transaction (does_bind (does_statement _) fun _ => does_pure ()) _ fun _ => rfl

theorem revokeAllForAccount_atomic (accountId : String) :
    Atomic IdentityDb.apply fails .db (revokeAllForAccount accountId)
      fun db => unit (.ok (SessionRepo.revokeAllForAccount db accountId)) :=
  atomic_transaction (does_bind (does_statement _) fun _ => does_pure ()) _ fun _ => rfl

end Refinement

end IdentityConnection

/-! ## Runs of calls -/

inductive IdentityCall where
  | register (new : NewAccount)
  | grantRole (accountId : String) (role : AccountRole)
  | revokeRole (accountId : String) (role : AccountRole)
  | registerSeller (new : NewSeller)
  | create (new : NewSession)
  | revoke (rawToken : String)
  | revokeAllForAccount (accountId : String)

inductive IdentityError where
  | account (e : AccountError)
  | session (e : SessionError)
deriving DecidableEq, Repr

inductive IdentityAnswer where
  | done
  | token (t : SessionToken)
deriving DecidableEq, Repr

namespace IdentityCall
open IdentityConnection

def accountCall (p : Call AccountError Unit) : Call IdentityError IdentityAnswer :=
  Prog.bind p fun r => .pure ((r.map fun _ => .done).mapError .account)

def sessionCall {α : Type} (onOk : α → IdentityAnswer) (p : Call SessionError α) :
    Call IdentityError IdentityAnswer :=
  Prog.bind p fun r => .pure ((r.map onOk).mapError .session)

/-- The call over a connection. -/
def send (hashes : Hashes) (draw : Draw) : IdentityCall → Call IdentityError IdentityAnswer
  | .register new => accountCall (IdentityConnection.register hashes draw new)
  | .grantRole accountId role =>
    accountCall (IdentityConnection.grantRole accountId role draw.now)
  | .revokeRole accountId role => accountCall (IdentityConnection.revokeRole accountId role)
  | .registerSeller new => accountCall (IdentityConnection.registerSeller new draw.now)
  | .create new =>
    sessionCall .token (IdentityConnection.create hashes.hashToken draw.token new draw.now)
  | .revoke rawToken =>
    sessionCall (fun _ => .done) (IdentityConnection.revoke hashes.hashToken rawToken)
  | .revokeAllForAccount accountId =>
    sessionCall (fun _ => .done) (IdentityConnection.revokeAllForAccount accountId)

/-- The error of a call whose database fails. -/
def failed : IdentityCall → SqlxError → IdentityError
  | .register _, e => .account (registerError e)
  | .grantRole _ _, e => .account (.db e)
  | .revokeRole _ _, e => .account (.db e)
  | .registerSeller _, e => .account (.db e)
  | _, e => .session (.db e)

/-- The call in one step. -/
def perform (hashes : Hashes) (draw : Draw) (db : IdentityDb) :
    IdentityCall → Except IdentityError (IdentityAnswer × IdentityDb)
  | .register new => ((AccountRepo.register db hashes.hashPasswordSync draw.join draw.salt new
      draw.now draw.clock).map fun db => (.done, db)).mapError .account
  | .grantRole accountId role =>
    ((AccountRepo.grantRole db accountId role draw.now).map fun db => (.done, db)).mapError .account
  | .revokeRole accountId role =>
    ((AccountRepo.revokeRole db accountId role).map fun db => (.done, db)).mapError .account
  | .registerSeller new =>
    ((AccountRepo.registerSeller db new draw.now).map fun db => (.done, db)).mapError .account
  | .create new => ((SessionRepo.create db hashes.hashToken draw.token new draw.now).map
      fun x => (.token x.2, x.1)).mapError .session
  | .revoke rawToken => .ok (.done, SessionRepo.revoke db hashes.hashToken rawToken)
  | .revokeAllForAccount accountId => .ok (.done, SessionRepo.revokeAllForAccount db accountId)

/-- What a call that takes effect did. -/
inductive Effect (hashes : Hashes) (draw : Draw) (db db' : IdentityDb) :
    IdentityCall → IdentityAnswer → Prop where
  | register (new : NewAccount) :
      AccountRepo.register db hashes.hashPasswordSync draw.join draw.salt new draw.now draw.clock =
        .ok db' → Effect hashes draw db db' (.register new) .done
  | grantRole (accountId : String) (role : AccountRole) :
      AccountRepo.grantRole db accountId role draw.now = .ok db' →
      Effect hashes draw db db' (.grantRole accountId role) .done
  | revokeRole (accountId : String) (role : AccountRole) :
      AccountRepo.revokeRole db accountId role = .ok db' →
      Effect hashes draw db db' (.revokeRole accountId role) .done
  | registerSeller (new : NewSeller) : AccountRepo.registerSeller db new draw.now = .ok db' →
      Effect hashes draw db db' (.registerSeller new) .done
  | create (new : NewSession) (t : SessionToken) :
      SessionRepo.create db hashes.hashToken draw.token new draw.now = .ok (db', t) →
      Effect hashes draw db db' (.create new) (.token t)
  | revoke (rawToken : String) : db' = SessionRepo.revoke db hashes.hashToken rawToken →
      Effect hashes draw db db' (.revoke rawToken) .done
  | revokeAllForAccount (accountId : String) :
      db' = SessionRepo.revokeAllForAccount db accountId →
      Effect hashes draw db db' (.revokeAllForAccount accountId) .done

theorem effect_of_perform {hashes : Hashes} {draw : Draw} {db db' : IdentityDb} {c : IdentityCall}
    {a : IdentityAnswer} (h : c.perform hashes draw db = .ok (a, db')) :
    Effect hashes draw db db' c a := by
  cases c with
  | register new =>
    obtain ⟨db₁, hrun, heq⟩ := ok_of_mapped h
    obtain ⟨rfl, rfl⟩ := Prod.mk.inj heq
    exact .register new hrun
  | grantRole accountId role =>
    obtain ⟨db₁, hrun, heq⟩ := ok_of_mapped h
    obtain ⟨rfl, rfl⟩ := Prod.mk.inj heq
    exact .grantRole accountId role hrun
  | revokeRole accountId role =>
    obtain ⟨rfl, hdb⟩ := Prod.mk.inj (Except.ok.inj h)
    exact .revokeRole accountId role (congrArg Except.ok hdb)
  | registerSeller new =>
    obtain ⟨db₁, hrun, heq⟩ := ok_of_mapped h
    obtain ⟨rfl, rfl⟩ := Prod.mk.inj heq
    exact .registerSeller new hrun
  | create new =>
    obtain ⟨⟨db₁, t⟩, hrun, heq⟩ := ok_of_mapped h
    obtain ⟨rfl, rfl⟩ := Prod.mk.inj heq
    exact .create new t hrun
  | revoke rawToken =>
    obtain ⟨rfl, hdb⟩ := Prod.mk.inj (Except.ok.inj h)
    exact .revoke rawToken hdb.symm
  | revokeAllForAccount accountId =>
    obtain ⟨rfl, hdb⟩ := Prod.mk.inj (Except.ok.inj h)
    exact .revokeAllForAccount accountId hdb.symm

theorem send_atomic {fails : SqlxError → Prop} (hashes : Hashes) (draw : Draw) (c : IdentityCall) :
    Atomic IdentityDb.apply fails c.failed (c.send hashes draw)
      fun db => c.perform hashes draw db := by
  cases c with
  | register new =>
    refine (register_atomic hashes draw new).map _ _ fun db => ?_
    simp only [perform]
    cases AccountRepo.register db hashes.hashPasswordSync draw.join draw.salt new
      draw.now draw.clock <;> rfl
  | grantRole accountId role =>
    refine (grantRole_atomic accountId role draw.now).map _ _ fun db => ?_
    simp only [perform]
    cases AccountRepo.grantRole db accountId role draw.now <;> rfl
  | revokeRole accountId role =>
    exact (revokeRole_atomic accountId role).map _ _ fun db => rfl
  | registerSeller new =>
    refine (registerSeller_atomic new draw.now).map _ _ fun db => ?_
    simp only [perform]
    cases AccountRepo.registerSeller db new draw.now <;> rfl
  | create new =>
    refine (create_atomic hashes.hashToken draw.token new draw.now).map _ _ fun db => ?_
    simp only [perform]
    cases SessionRepo.create db hashes.hashToken draw.token new draw.now <;> rfl
  | revoke rawToken =>
    exact (revoke_atomic hashes.hashToken rawToken).map _ _ fun db => rfl
  | revokeAllForAccount accountId =>
    exact (revokeAllForAccount_atomic accountId).map _ _ fun db => rfl

end IdentityCall

namespace IdentityConnection

/-- A call over a connection, outside of a transaction before and after. -/
def Step (hashes : Hashes) (fails : SqlxError → Prop) (db : IdentityDb) (c : IdentityCall)
    (r : Except IdentityError IdentityAnswer) (db' : IdentityDb) : Prop :=
  ∃ draw, Runs (Connection.exec IdentityDb.apply fails) (c.send hashes draw) ⟨db, none⟩ r ⟨db', none⟩

abbrev Entry := CallLog.Entry IdentityDb IdentityCall (Except IdentityError IdentityAnswer)

/-- A run of calls with any arguments. -/
abbrev Log (hashes : Hashes) (fails : SqlxError → Prop) (start : IdentityDb) :
    List Entry → IdentityDb → Prop :=
  CallLog (Step hashes fails) start

section Log
variable {hashes : Hashes} {fails : SqlxError → Prop}

/-- A call took effect as one step, or it failed and changed nothing. -/
theorem step_cases {c : IdentityCall} {db db' : IdentityDb} {r : Except IdentityError IdentityAnswer}
    (h : Step hashes fails db c r db') :
    (∃ a draw, r = .ok a ∧ c.perform hashes draw db = .ok (a, db')) ∨
      (∃ e, r = .error e) ∧ db' = db := by
  obtain ⟨draw, hrun⟩ := h
  rcases c.send_atomic hashes draw db r _ hrun with ⟨a, t, hok, hr, heq⟩ | ⟨e, _, hr, heq⟩
  · obtain rfl : db' = t := congrArg Connection.committed heq
    exact Or.inl ⟨a, draw, hr, hok⟩
  · exact Or.inr ⟨⟨e, hr⟩, congrArg Connection.committed heq⟩

/-- A call that returned an error left the database as it was. -/
theorem unchanged_of_error {c : IdentityCall} {db db' : IdentityDb} {e : IdentityError}
    (h : Step hashes fails db c (.error e) db') : db' = db := by
  rcases step_cases h with ⟨a, draw, hr, _⟩ | ⟨_, hsame⟩
  · cases hr
  · exact hsame

/-- Hashes that hide nothing. -/
def plain : Hashes where
  hashToken := id
  hashPasswordSync := fun _ password => .ok ("$argon2id$" ++ password)
  verifyPasswordSync := fun hash password => hash = "$argon2id$" ++ password

/-- The calls of a script, the newest first, with a database that never fails, a clock that
stands still, and the number of the calls before as the token. -/
def play (hashes : Hashes) : List IdentityCall → List Entry × IdentityDb
  | [] => ([], .empty)
  | c :: earlier =>
    let (log, db) := play hashes earlier
    match (c.send hashes ⟨0, 0, log.length.repr, "salt", none⟩).eval
        (Connection.answer IdentityDb.apply) ⟨db, none⟩ with
    | some (r, ⟨db', none⟩) => (log ++ [⟨c, r, db, db'⟩], db')
    | _ => (log, db)

theorem log_play (hashes : Hashes) (calls : List IdentityCall) :
    Log hashes fails .empty (play hashes calls).1 (play hashes calls).2 := by
  induction calls with
  | nil => exact .nil
  | cons c earlier ih =>
    simp only [play]
    split
    · rename_i r db' heval
      have hanswer : ∀ conn op r conn', Connection.answer IdentityDb.apply conn op = some (r, conn') →
          Connection.exec IdentityDb.apply fails conn op r conn' :=
        fun _ _ _ _ h => Connection.exec_of_answer h
      exact .call ih ⟨_, runs_of_eval hanswer heval⟩
    · exact ih

end Log

end IdentityConnection

end TinyShop
