import TinyShop.IdentityConnection

/-!
# The life of a session

A token is live from the call that returns it to the first call that revokes it or all
sessions of its account. Whatever was called before, `verify` answers the live tokens that
have not expired, and nothing else.
-/

namespace TinyShop

open Base Identity
set_option autoImplicit false

namespace Sessions
open SessionRepo
open IdentityConnection (Entry Log)

/-- What a session has from the call that created it. -/
def issued (s : Session) : NewSession := ⟨s.accountId, s.expiresAt, s.userAgent, s.ipAddr⟩

/-- The call revoked the token or all sessions of the account. -/
def Revokes (t accountId : String) (e : Entry) : Prop :=
  (e.call = .revoke t ∨ e.call = .revokeAllForAccount accountId) ∧ e.answer = .ok .done

/-- The call created a session and returned its token. -/
def Creates (t : String) (new : NewSession) (e : Entry) : Prop :=
  e.call = .create new ∧ e.answer = .ok (.token ⟨t⟩)

/-- Some call created the session, and none has revoked it since. -/
def Live (log : List Entry) (t : String) (new : NewSession) : Prop :=
  ∃ u e v, log = u ++ e :: v ∧ Creates t new e ∧ ∀ f ∈ v, ¬Revokes t new.accountId f

/-- The tokens that the calls returned or were given. -/
def tokens (log : List Entry) : Set String :=
  {t | ∃ e ∈ log, e.answer = .ok (.token ⟨t⟩) ∨ e.call = .revoke t}

section Live
variable {log : List Entry} {e : Entry} {t : String} {new : NewSession}

theorem live_concat_iff :
    Live (log ++ [e]) t new ↔ Creates t new e ∨ Live log t new ∧ ¬Revokes t new.accountId e := by
  constructor
  · rintro ⟨u, f, v, heq, hf, hv⟩
    rcases List.eq_nil_or_concat v with rfl | ⟨v', g, rfl⟩
    · obtain ⟨_, hlast⟩ := List.append_inj' heq rfl
      obtain rfl := List.singleton_injective hlast
      exact Or.inl hf
    · rw [List.concat_eq_append, ← List.cons_append, ← List.append_assoc] at heq
      obtain ⟨hinit, hlast⟩ := List.append_inj' heq rfl
      obtain rfl := List.singleton_injective hlast
      rw [List.concat_eq_append] at hv
      refine Or.inr ⟨⟨u, f, v', hinit, hf, fun g hg => hv g (List.mem_append_left _ hg)⟩, ?_⟩
      exact hv _ (List.mem_append_right _ (List.mem_singleton_self _))
  · rintro (hcreates | ⟨⟨u, f, v, rfl, hf, hv⟩, hkept⟩)
    · exact ⟨log, e, [], rfl, hcreates, by simp⟩
    · refine ⟨u, f, v ++ [e], by simp, hf, fun g hg => ?_⟩
      rcases List.mem_append.mp hg with hg | hg
      · exact hv g hg
      · obtain rfl := List.mem_singleton.mp hg
        exact hkept

theorem mem_tokens_of_live (h : Live log t new) : t ∈ tokens log := by
  obtain ⟨u, f, v, rfl, hf, _⟩ := h
  exact ⟨f, List.mem_append_right _ List.mem_cons_self, Or.inl hf.2⟩

theorem tokens_mono (e : Entry) : tokens log ⊆ tokens (log ++ [e]) := by
  rintro t ⟨f, hf, h⟩
  exact ⟨f, List.mem_append_left _ hf, h⟩

/-- An answer without a token, to a call that revokes nothing. -/
theorem live_concat_of_other (hcall : ∀ t, e.call ≠ .revoke t)
    (hall : ∀ a, e.call ≠ .revokeAllForAccount a) (hanswer : ∀ t, e.answer ≠ .ok (.token t)) :
    Live (log ++ [e]) t new ↔ Live log t new := by
  rw [live_concat_iff]
  constructor
  · rintro (hcreates | ⟨hlive, _⟩)
    · exact absurd hcreates.2 (hanswer _)
    · exact hlive
  · intro hlive
    refine Or.inr ⟨hlive, ?_⟩
    rintro ⟨hrevoke | hrevoke, _⟩
    · exact hcall _ hrevoke
    · exact hall _ hrevoke

end Live

/-! ## One call -/

/-- What a call that takes effect does to the table of sessions. -/
inductive Change (hashToken : String → String) (db db' : IdentityDb) :
    IdentityCall → IdentityAnswer → Prop where
  | created (new : NewSession) (raw : String) (now : Int64) :
      db'.sessions.rows = db.sessions.rows ++ [newSessionRow (hashToken raw) new now] →
      Change hashToken db db' (.create new) (.token ⟨raw⟩)
  | revoked (t : String) : db'.sessions = db.sessions.delete (fun s => s.tokenHash = hashToken t) →
      Change hashToken db db' (.revoke t) .done
  | revokedAll (accountId : String) :
      db'.sessions = db.sessions.delete (fun s => s.accountId = accountId) →
      Change hashToken db db' (.revokeAllForAccount accountId) .done
  | other (c : IdentityCall) : db'.sessions = db.sessions → (∀ t, c ≠ .revoke t) →
      (∀ a, c ≠ .revokeAllForAccount a) → Change hashToken db db' c .done

section Calls
variable {hashes : Hashes} {fails : SqlxError → Prop} {db db' : IdentityDb}

theorem change_of_perform {draw : Draw} {c : IdentityCall} {a : IdentityAnswer}
    (h : c.perform hashes draw db = .ok (a, db')) : Change hashes.hashToken db db' c a := by
  cases IdentityCall.effect_of_perform h with
  | register new hrun =>
    obtain ⟨_, _, _, _, _, _, rfl⟩ := AccountRepo.register_ok hrun
    exact .other _ rfl (by simp) (by simp)
  | grantRole accountId role hrun =>
    obtain ⟨_, rfl, _⟩ := AccountRepo.grantRole_ok hrun
    exact .other _ rfl (by simp) (by simp)
  | revokeRole accountId role hrun =>
    obtain rfl := Except.ok.inj hrun
    exact .other _ rfl (by simp) (by simp)
  | registerSeller new hrun =>
    obtain ⟨_, _, rfl, _⟩ := AccountRepo.registerSeller_ok hrun
    exact .other _ rfl (by simp) (by simp)
  | create new t hrun =>
    obtain ⟨rfl, free, rfl⟩ := create_ok hrun
    exact .created new draw.token draw.now rfl
  | revoke rawToken hrun => exact .revoked rawToken (congrArg IdentityDb.sessions hrun)
  | revokeAllForAccount accountId hrun =>
    exact .revokedAll accountId (congrArg IdentityDb.sessions hrun)

/-- The table holds the live tokens, each with the data of its creation. -/
structure Stores (hashToken : String → String) (log : List Entry) (db : IdentityDb) : Prop where
  live : ∀ s ∈ db.sessions.rows, ∃ t, Live log t (issued s) ∧ s.tokenHash = hashToken t
  stored : ∀ t new, Live log t new → ∃ s ∈ db.sessions.rows, s.tokenHash = hashToken t ∧ issued s = new

variable {log : List Entry} {hashToken : String → String}

/-- The tokens that are live stay, and so do the rows. -/
theorem Stores.congr {log' : List Entry} (h : Stores hashToken log db)
    (hsame : db'.sessions = db.sessions) (hlive : ∀ t new, Live log' t new ↔ Live log t new) :
    Stores hashToken log' db' := by
  constructor
  · intro s hs
    rw [hsame] at hs
    obtain ⟨t, ht, hhash⟩ := h.live s hs
    exact ⟨t, (hlive _ _).mpr ht, hhash⟩
  · intro t new ht
    rw [hsame]
    exact h.stored t new ((hlive t new).mp ht)

/-- Tokens end together with their rows. -/
theorem Stores.delete {log' : List Entry} {p : Identity.Session → Bool}
    (h : Stores hashToken log db) (ends : String → NewSession → Prop)
    (hdelete : db'.sessions = db.sessions.delete p)
    (hlive : ∀ t new, Live log' t new ↔ Live log t new ∧ ¬ ends t new)
    (hends : ∀ s t, Live log t (issued s) → s.tokenHash = hashToken t →
      (p s = true ↔ ends t (issued s))) : Stores hashToken log' db' := by
  constructor
  · intro s hs
    rw [hdelete] at hs
    obtain ⟨hold, hkept⟩ := Table.mem_delete.mp hs
    obtain ⟨t, ht, hhash⟩ := h.live s hold
    refine ⟨t, (hlive _ _).mpr ⟨ht, fun hend => ?_⟩, hhash⟩
    rw [(hends s t ht hhash).mpr hend] at hkept
    cases hkept
  · intro t new ht
    obtain ⟨hold, hstays⟩ := (hlive t new).mp ht
    obtain ⟨s, hs, hhash, rfl⟩ := h.stored t new hold
    refine ⟨s, ?_, hhash, rfl⟩
    rw [hdelete]
    refine Table.mem_delete.mpr ⟨hs, ?_⟩
    rw [← Bool.not_eq_true, hends s t hold hhash]
    exact hstays

theorem Stores.change {c : IdentityCall} {a : IdentityAnswer} (h : Stores hashToken log db)
    (hinj : Set.InjOn hashToken (tokens (log ++ [⟨c, .ok a, db, db'⟩])))
    (hchange : Change hashToken db db' c a) :
    Stores hashToken (log ++ [⟨c, .ok a, db, db'⟩]) db' := by
  cases hchange with
  | created new raw now hrows =>
    have hlive : ∀ t n, Live (log ++ [⟨.create new, .ok (.token ⟨raw⟩), db, db'⟩]) t n ↔
        (raw = t ∧ new = n) ∨ Live log t n := by
      intro t n
      rw [live_concat_iff]
      simp [Creates, Revokes, and_comm]
    constructor
    · intro s hs
      rw [hrows] at hs
      rcases List.mem_append.mp hs with hold | hnew
      · obtain ⟨t, ht, hhash⟩ := h.live s hold
        exact ⟨t, (hlive _ _).mpr (Or.inr ht), hhash⟩
      · obtain rfl := List.mem_singleton.mp hnew
        exact ⟨raw, (hlive _ _).mpr (Or.inl ⟨rfl, rfl⟩), rfl⟩
    · intro t n ht
      rw [hrows]
      rcases (hlive t n).mp ht with ⟨rfl, rfl⟩ | hold
      · exact ⟨_, List.mem_append_right _ (List.mem_singleton_self _), rfl, rfl⟩
      · obtain ⟨s, hs, hsame⟩ := h.stored t n hold
        exact ⟨s, List.mem_append_left _ hs, hsame⟩
  | revoked t hdelete =>
    have hmem : t ∈ tokens (log ++ [⟨.revoke t, .ok .done, db, db'⟩]) :=
      ⟨_, List.mem_append_right _ (List.mem_singleton_self _), Or.inr rfl⟩
    apply h.delete (fun t' _ => t = t') hdelete
    · intro t' n
      rw [live_concat_iff]
      simp [Creates, Revokes]
    · -- two tokens of the log with one hash are the same token
      intro s t' hold hhash
      rw [decide_eq_true_iff, hhash]
      constructor
      · exact fun hsame => hinj hmem (tokens_mono _ (mem_tokens_of_live hold)) hsame.symm
      · rintro rfl
        rfl
  | revokedAll accountId hdelete =>
    apply h.delete (fun _ new => accountId = new.accountId) hdelete
    · intro t n
      rw [live_concat_iff]
      simp [Creates, Revokes]
    · intro s t _ _
      rw [decide_eq_true_iff]
      exact eq_comm
  | other c hsame hrevoke hall =>
    exact h.congr hsame fun t n => live_concat_of_other hrevoke hall (by simp)

/-- A call that failed. -/
theorem Stores.failed {c : IdentityCall} {e : IdentityError} (h : Stores hashToken log db) :
    Stores hashToken (log ++ [⟨c, .error e, db, db⟩]) db := by
  apply h.congr rfl
  intro t new
  rw [live_concat_iff]
  simp [Creates, Revokes]

end Calls

/-! ## Every run -/

section Runs
variable {hashes : Hashes} {fails : SqlxError → Prop} {start db db' : IdentityDb}
  {log : List Entry} {hashToken : String → String} {t : String} {now : Int64} {s : Session}

theorem stores_of_log (h : Log hashes fails start log db) (hstart : start.sessions = ∅)
    (hinj : Set.InjOn hashes.hashToken (tokens log)) : Stores hashes.hashToken log db := by
  induction h with
  | nil =>
    constructor
    · intro s hs
      rw [hstart] at hs
      cases hs
    · rintro t new ⟨u, e, v, heq, _⟩
      simp at heq
  | call hlog hstep ih =>
    have hbefore := ih (hinj.mono (tokens_mono _))
    rcases IdentityConnection.step_cases hstep with ⟨a, draw, rfl, hperform⟩ | ⟨⟨e, rfl⟩, rfl⟩
    · exact hbefore.change hinj (change_of_perform hperform)
    · exact hbefore.failed

theorem verify_eq_some_iff : verify db hashToken t now = some s ↔
    s ∈ db.sessions.rows ∧ s.tokenHash = hashToken t ∧ now < s.expiresAt := by
  constructor
  · intro h
    have hcond := List.find?_some h
    exact ⟨List.mem_of_find?_eq_some h, of_decide_eq_true hcond⟩
  · rintro ⟨hs, hhash, hexpiry⟩
    have hsome : (verify db hashToken t now).isSome :=
      List.find?_isSome.mpr ⟨s, hs, decide_eq_true ⟨hhash, hexpiry⟩⟩
    obtain ⟨s', hs'⟩ := Option.isSome_iff_exists.mp hsome
    have hfound := List.find?_some hs'
    have hcond := of_decide_eq_true hfound
    have hfind := Table.find?_of_mem (List.mem_of_find?_eq_some hs')
    rw [hcond.1, ← hhash, Table.find?_of_mem hs] at hfind
    rw [hs', Option.some.inj hfind]

/-- Sessions that stay are verified as before. -/
theorem verify_congr (h : ∀ s, s.tokenHash = hashToken t →
    (s ∈ db'.sessions.rows ↔ s ∈ db.sessions.rows)) :
    verify db' hashToken t now = verify db hashToken t now := by
  apply Option.ext
  intro s
  rw [verify_eq_some_iff, verify_eq_some_iff]
  constructor
  · rintro ⟨hs, hhash, hexpiry⟩
    exact ⟨(h s hhash).mp hs, hhash, hexpiry⟩
  · rintro ⟨hs, hhash, hexpiry⟩
    exact ⟨(h s hhash).mpr hs, hhash, hexpiry⟩

/-- Revoking one token leaves the others as they are. -/
theorem verify_revoke {e : Entry} {t' : String} (h : Log hashes fails start log db) (he : e ∈ log)
    (hcall : e.call = .revoke t') (hinj : Set.InjOn hashes.hashToken (insert t (tokens log)))
    (hne : t' ≠ t) :
    verify e.after hashes.hashToken t now = verify e.before hashes.hashToken t now := by
  have hmem : t' ∈ tokens log := ⟨e, he, Or.inr hcall⟩
  rcases IdentityConnection.step_cases (h.step_of_mem he) with ⟨a, draw, _, hperform⟩ | ⟨_, hsame⟩
  · rw [hcall] at hperform
    obtain ⟨_, hafter⟩ := Prod.mk.inj (Except.ok.inj hperform)
    refine verify_congr fun s hhash => ?_
    rw [← hafter]
    refine Table.mem_delete.trans (and_iff_left (decide_eq_false fun hsame => hne ?_))
    exact hinj (Set.mem_insert_of_mem _ hmem) (Set.mem_insert _ _) (hsame.symm.trans hhash)
  · rw [hsame]

/-- Revoking one account leaves the sessions of the others as they are. -/
theorem verify_revokeAll {e : Entry} {accountId : String} (h : Log hashes fails start log db)
    (he : e ∈ log) (hcall : e.call = .revokeAllForAccount accountId)
    (hs : verify e.before hashes.hashToken t now = some s) (hne : s.accountId ≠ accountId) :
    verify e.after hashes.hashToken t now = some s := by
  rcases IdentityConnection.step_cases (h.step_of_mem he) with ⟨a, draw, _, hperform⟩ | ⟨_, hsame⟩
  · rw [hcall] at hperform
    obtain ⟨_, hafter⟩ := Prod.mk.inj (Except.ok.inj hperform)
    obtain ⟨hmem, hrest⟩ := verify_eq_some_iff.mp hs
    refine verify_eq_some_iff.mpr ⟨?_, hrest⟩
    rw [← hafter]
    exact Table.mem_delete.mpr ⟨hmem, decide_eq_false hne⟩
  · rw [hsame, hs]

/-- After any run of calls, with any expiries and at any time, `verify` returns a session
exactly for a token that is live and not expired, with the data of its creation, and
revoking a token or an account concerns no other. -/
theorem session_life_cycle (h : Log hashes fails start log db) (hstart : start.sessions = ∅)
    (t : String) (hinj : Set.InjOn hashes.hashToken (insert t (tokens log))) :
    (∀ now new, (verify db hashes.hashToken t now).map issued = some new ↔
      Live log t new ∧ now < new.expiresAt) ∧
    (∀ e ∈ log, ∀ t' now, e.call = .revoke t' → t' ≠ t →
      verify e.after hashes.hashToken t now = verify e.before hashes.hashToken t now) ∧
    ∀ e ∈ log, ∀ accountId now s, e.call = .revokeAllForAccount accountId →
      verify e.before hashes.hashToken t now = some s → s.accountId ≠ accountId →
      verify e.after hashes.hashToken t now = some s := by
  have hstores := stores_of_log h hstart (hinj.mono (Set.subset_insert _ _))
  refine ⟨fun now new => ?_, fun e he t' now hcall hne => verify_revoke h he hcall hinj hne,
    fun e he accountId now s hcall hs hne => verify_revokeAll h he hcall hs hne⟩
  rw [Option.map_eq_some_iff]
  constructor
  · rintro ⟨s, hs, rfl⟩
    obtain ⟨hmem, hhash, hexpiry⟩ := verify_eq_some_iff.mp hs
    obtain ⟨t', hlive, hhash'⟩ := hstores.live s hmem
    have hsame : t' = t := hinj (Set.mem_insert_of_mem _ (mem_tokens_of_live hlive))
      (Set.mem_insert _ _) (hhash'.symm.trans hhash)
    exact ⟨hsame ▸ hlive, hexpiry⟩
  · rintro ⟨hlive, hexpiry⟩
    obtain ⟨s, hmem, hhash, rfl⟩ := hstores.stored t new hlive
    exact ⟨s, verify_eq_some_iff.mpr ⟨hmem, hhash, hexpiry⟩, rfl⟩

end Runs

def phone (accountId : String) : NewSession := ⟨accountId, 1000, some "Phone", none⟩

/-- Ann has a session and Bob has two, of which one is revoked; the newest call comes first. -/
def annCalls : List IdentityCall :=
  [.revoke "3", .create (phone "bob"), .create (phone "bob"), .create (phone "ann"),
    .register ⟨"bob", "bob@b.ua", "bobs"⟩, .register ⟨"ann", "ann@b.ua", "anns"⟩]

theorem session_life_cycle_ann :
    let run := IdentityConnection.play IdentityConnection.plain annCalls
    run.1.map (fun e => e.answer.toOption) =
        [some .done, some .done, some (.token ⟨"2"⟩), some (.token ⟨"3"⟩), some (.token ⟨"4"⟩),
          some .done] ∧
      ∀ now new, (verify run.2 id "3" now).map issued = some new ↔
        Live run.1 "3" new ∧ now < new.expiresAt :=
  have hlog : Log IdentityConnection.plain (fun _ => False) .empty _ _ :=
    IdentityConnection.log_play IdentityConnection.plain annCalls
  ⟨by decide, (session_life_cycle hlog rfl "3" Function.injective_id.injOn).1⟩

end Sessions

end TinyShop
