import TinyShop.Base.Program

/-!
# Transactions

Statements work on the copy of the database that `begin` takes, and `commit` puts the
copy in its place. A statement that fails is undone, a transaction that returns early is
dropped, and the database itself may fail at every step. `Does` and `Atomic` compare all
runs of a program with one function on databases.
-/

namespace TinyShop.Base

set_option autoImplicit false

/-- The database, and the copy that an open transaction works on. -/
structure Connection (σ : Type) where
  committed : σ
  working : Option σ

inductive Sql (St : Type) where
  | begin
  | statement (st : St)
  | commit
  | rollback

section Programs
variable {ε St : Type} {Res : St → Type} {α : Type}

@[reducible] def Sql.Answer (ε : Type) (Res : St → Type) : Sql St → Type
  | .begin => Except ε Unit
  | .statement st => Except ε (Res st)
  | .commit => Except ε Unit
  | .rollback => Unit

/-- The body of a transaction; the error of a statement ends it. -/
abbrev Statements (ε : Type) (Res : St → Type) := ExceptT ε (Prog St fun st => Except ε (Res st))

abbrev Client (ε : Type) (Res : St → Type) := Prog (Sql St) (Sql.Answer ε Res)

def statement (st : St) : Statements ε Res (Res st) := ExceptT.mk (Prog.perform st)

def Prog.send : Prog St (fun st => Except ε (Res st)) α → Client ε Res α
  | .pure a => .pure a
  | .call st next => .call (.statement st) fun r => (next r).send

def drop (e : ε) : Client ε Res (Except ε α) := .call .rollback fun _ => .pure (.error e)

def commit (a : α) : Client ε Res (Except ε α) :=
  .call .commit fun
    | .error e => drop e
    | .ok () => .pure (.ok a)

def transaction (body : Statements ε Res α) : Client ε Res (Except ε α) :=
  .call .begin fun
    | .error e => .pure (.error e)
    | .ok () => body.run.send >>= fun
      | .error e => drop e
      | .ok a => commit a

/-- The caller gets the error of the database in a type of its own. -/
def inTransaction {δ : Type} (wrap : ε → δ) (body : Statements ε Res α) :
    Client ε Res (Except δ α) :=
  transaction body >>= fun r => .pure (r.mapError wrap)

theorem ok_of_mapped {δ ε β γ : Type} {x : Except δ β} {f : β → γ} {g : δ → ε} {y : γ}
    (h : (x.map f).mapError g = .ok y) : ∃ b, x = .ok b ∧ f b = y := by
  cases x with
  | error e => cases h
  | ok b => exact ⟨b, rfl, Except.ok.inj h⟩

end Programs

section Semantics
variable {σ ε St : Type} {Res : St → Type}
variable (apply : σ → (st : St) → Except ε (Res st × σ)) (fails : ε → Prop)

/-- One statement on a copy: what it says, or an error that changes nothing. -/
def stepOn (s : σ) (st : St) (r : Except ε (Res st)) (t : σ) : Prop :=
  (∃ a, apply s st = .ok (a, t) ∧ r = .ok a) ∨
    ∃ e, (apply s st = .error e ∨ fails e) ∧ r = .error e ∧ t = s

def Connection.exec (c : Connection σ) : (op : Sql St) → op.Answer ε Res → Connection σ → Prop
  | .begin, r, d => (c.working = none ∧ r = .ok () ∧ d = ⟨c.committed, some c.committed⟩) ∨
    ∃ e, fails e ∧ r = .error e ∧ d = c
  | .statement st, r, d => ∃ s t, c.working = some s ∧ stepOn apply fails s st r t ∧
    d = ⟨c.committed, some t⟩
  | .commit, r, d => (∃ s, c.working = some s ∧ r = .ok () ∧ d = ⟨s, none⟩) ∨
    ∃ e, fails e ∧ r = .error e ∧ d = c
  | .rollback, _, d => d = ⟨c.committed, none⟩

/-- The answers of a database that never fails. -/
def Connection.answer (c : Connection σ) : (op : Sql St) → Option (op.Answer ε Res × Connection σ)
  | .begin => if c.working.isNone then some (.ok (), ⟨c.committed, some c.committed⟩) else none
  | .statement st => c.working.map fun s => match apply s st with
    | .ok (a, t) => (.ok a, ⟨c.committed, some t⟩)
    | .error e => (.error e, ⟨c.committed, some s⟩)
  | .commit => c.working.map fun s => (.ok (), ⟨s, none⟩)
  | .rollback => some ((), ⟨c.committed, none⟩)

variable {apply fails}

theorem Connection.exec_of_answer {c d : Connection σ} {op : Sql St} {r : op.Answer ε Res}
    (h : c.answer apply op = some (r, d)) : c.exec apply fails op r d := by
  cases op with
  | begin =>
    simp only [answer] at h
    split at h
    · rename_i hnone
      obtain ⟨rfl, rfl⟩ := Prod.mk.inj (Option.some.inj h)
      exact Or.inl ⟨Option.isNone_iff_eq_none.mp hnone, rfl, rfl⟩
    · cases h
  | statement st =>
    obtain ⟨s, hs, heq⟩ := Option.map_eq_some_iff.mp h
    split at heq
    · rename_i a t happly
      obtain ⟨rfl, rfl⟩ := Prod.mk.inj heq
      exact ⟨s, t, hs, Or.inl ⟨a, happly, rfl⟩, rfl⟩
    · rename_i e happly
      obtain ⟨rfl, rfl⟩ := Prod.mk.inj heq
      exact ⟨s, s, hs, Or.inr ⟨e, Or.inl happly, rfl, rfl⟩, rfl⟩
  | commit =>
    obtain ⟨s, hs, heq⟩ := Option.map_eq_some_iff.mp h
    obtain ⟨rfl, rfl⟩ := Prod.mk.inj heq
    exact Or.inl ⟨s, hs, rfl, rfl⟩
  | rollback =>
    obtain ⟨_, rfl⟩ := Prod.mk.inj (Option.some.inj h)
    rfl

end Semantics

section Does
variable {σ ε St : Type} {Res : St → Type} {α β : Type}
variable (apply : σ → (st : St) → Except ε (Res st × σ)) (fails : ε → Prop)

/-- Every run of the statements ends as the function says or with a failure of the database. -/
def Does (p : Statements ε Res α) (f : StateT σ (Except ε) α) : Prop :=
  ∀ s r t, Runs (stepOn apply fails) p.run s r t →
    (∃ a, f s = .ok (a, t) ∧ r = .ok a) ∨ ∃ e, (f s = .error e ∨ fails e) ∧ r = .error e

variable {apply fails}

theorem Does.congr {p : Statements ε Res α} {f g : StateT σ (Except ε) α} (h : Does apply fails p f)
    (hg : ∀ s, g s = f s) : Does apply fails p g :=
  (funext hg : g = f) ▸ h

theorem does_pure (a : α) : Does apply fails (pure a) (pure a) := by
  intro s r t h
  obtain ⟨rfl, rfl⟩ := runs_pure_iff.mp h
  exact Or.inl ⟨a, rfl, rfl⟩

theorem does_statement (st : St) : Does apply fails (statement st) fun s => apply s st := by
  intro s r t h
  obtain ⟨r', t', hstep, hrest⟩ := runs_call_iff.mp h
  obtain ⟨rfl, rfl⟩ := runs_pure_iff.mp hrest
  rcases hstep with hok | ⟨e, he, hr, _⟩
  · exact Or.inl hok
  · exact Or.inr ⟨e, he, hr⟩

theorem bind_of_ok {f : StateT σ (Except ε) α} {g : α → StateT σ (Except ε) β} {s t : σ} {a : α}
    (h : f s = .ok (a, t)) : (f >>= g) s = g a t := by
  change (f s >>= fun x => g x.1 x.2) = g a t
  rw [h]
  rfl

theorem bind_of_error {f : StateT σ (Except ε) α} {g : α → StateT σ (Except ε) β} {s : σ} {e : ε}
    (h : f s = .error e) : (f >>= g) s = .error e := by
  change (f s >>= fun x => g x.1 x.2) = .error e
  rw [h]
  rfl

/-- A function on databases as a step with a given result. -/
theorem bind_step (f : σ → Except ε σ) (a : α) (g : α → StateT σ (Except ε) β) (s : σ) :
    ((fun s => (f s).map fun t => (a, t) : StateT σ (Except ε) α) >>= g) s =
      (f s >>= fun t => g a t) := by
  cases h : f s with
  | error e => exact bind_of_error (by rw [h]; rfl)
  | ok t => exact bind_of_ok (by rw [h]; rfl)

theorem does_bind {p : Statements ε Res α} {q : α → Statements ε Res β} {f : StateT σ (Except ε) α}
    {g : α → StateT σ (Except ε) β} (hp : Does apply fails p f)
    (hq : ∀ a, Does apply fails (q a) (g a)) : Does apply fails (p >>= q) (f >>= g) := by
  intro s r t h
  change Runs _ (p.run >>= ExceptT.bindCont q) s r t at h
  obtain ⟨x, u, hx, hrest⟩ := runs_bind_iff.mp h
  rcases hp s x u hx with ⟨a, hf, rfl⟩ | ⟨e, he, rfl⟩
  · rw [bind_of_ok hf]
    exact hq a u r t hrest
  · obtain ⟨rfl, _⟩ := runs_pure_iff.mp hrest
    exact Or.inr ⟨e, he.imp_left bind_of_error, rfl⟩

end Does

section Atomic
variable {σ ε δ St : Type} {Res : St → Type} {α β : Type}
variable (apply : σ → (st : St) → Except ε (Res st × σ)) (fails : ε → Prop)

/-- Every run outside of a transaction ends with what the function gives, or with an error
and the database as it was. -/
def Atomic (wrap : ε → δ) (p : Client ε Res (Except δ α)) (f : StateT σ (Except δ) α) : Prop :=
  ∀ s r c, Runs (Connection.exec apply fails) p ⟨s, none⟩ r c →
    (∃ a t, f s = .ok (a, t) ∧ r = .ok a ∧ c = ⟨t, none⟩) ∨
      ∃ e, (f s = .error e ∨ ∃ x, fails x ∧ e = wrap x) ∧ r = .error e ∧ c = ⟨s, none⟩

variable {apply fails}

/-- Statements sent over the connection run on its copy. -/
theorem runs_send {p : Prog St (fun st => Except ε (Res st)) α} {base s : σ} {a : α}
    {c : Connection σ} (h : Runs (Connection.exec apply fails) p.send ⟨base, some s⟩ a c) :
    ∃ t, Runs (stepOn apply fails) p s a t ∧ c = ⟨base, some t⟩ := by
  induction p generalizing s with
  | pure b =>
    obtain ⟨rfl, rfl⟩ := runs_pure_iff.mp h
    exact ⟨s, .pure _ _, rfl⟩
  | call st next ih =>
    obtain ⟨r, _, ⟨s', u, hs, hstep, rfl⟩, hrest⟩ := runs_call_iff.mp h
    obtain rfl := Option.some.inj hs
    obtain ⟨t, ht, hc⟩ := ih r hrest
    exact ⟨t, .call hstep ht, hc⟩

theorem runs_drop {e : ε} {r : Except ε α} {c d : Connection σ}
    (h : Runs (Connection.exec apply fails) (drop e) c r d) :
    r = .error e ∧ d = ⟨c.committed, none⟩ := by
  obtain ⟨_, _, hx, hrest⟩ := runs_call_iff.mp h
  obtain ⟨rfl, rfl⟩ := runs_pure_iff.mp hrest
  exact ⟨rfl, hx⟩

theorem runs_commit {a : α} {base s : σ} {r : Except ε α} {d : Connection σ}
    (h : Runs (Connection.exec apply fails) (commit a) ⟨base, some s⟩ r d) :
    (r = .ok a ∧ d = ⟨s, none⟩) ∨ ∃ e, fails e ∧ r = .error e ∧ d = ⟨base, none⟩ := by
  obtain ⟨x, c, hx, hrest⟩ := runs_call_iff.mp h
  rcases hx with ⟨t, ht, rfl, rfl⟩ | ⟨e, he, rfl, rfl⟩
  · obtain rfl := Option.some.inj ht
    exact Or.inl (runs_pure_iff.mp hrest)
  · exact Or.inr ⟨e, he, runs_drop hrest⟩

/-- A transaction takes effect as a whole or not at all. -/
theorem atomic_transaction {body : Statements ε Res α} {f : StateT σ (Except ε) α}
    (h : Does apply fails body f) (wrap : ε → δ) {g : StateT σ (Except δ) α}
    (hg : ∀ s, g s = (f s).mapError wrap) :
    Atomic apply fails wrap (inTransaction wrap body) g := by
  intro s r c hrun
  obtain ⟨x, d, hx, hrest⟩ := runs_bind_iff.mp hrun
  obtain ⟨rfl, rfl⟩ := runs_pure_iff.mp hrest
  obtain ⟨b, c', hbegin, hbody⟩ := runs_call_iff.mp hx
  have failed : ∀ e, f s = .error e ∨ fails e → g s = .error (wrap e) ∨
      ∃ x, fails x ∧ wrap e = wrap x := by
    rintro e (hf | he)
    · left
      rw [hg, hf]
      rfl
    · exact Or.inr ⟨e, he, rfl⟩
  rcases hbegin with ⟨_, rfl, rfl⟩ | ⟨e, he, rfl, rfl⟩
  · obtain ⟨y, u, hsent, hend⟩ := runs_bind_iff.mp hbody
    obtain ⟨t, ht, rfl⟩ := runs_send hsent
    rcases h s y t ht with ⟨a, hf, rfl⟩ | ⟨e, he, rfl⟩
    · rcases runs_commit hend with ⟨rfl, rfl⟩ | ⟨e, he, rfl, rfl⟩
      · refine Or.inl ⟨a, t, ?_, rfl, rfl⟩
        rw [hg, hf]
        rfl
      · exact Or.inr ⟨wrap e, failed e (Or.inr he), rfl, rfl⟩
    · obtain ⟨rfl, rfl⟩ := runs_drop hend
      exact Or.inr ⟨wrap e, failed e he, rfl, rfl⟩
  · obtain ⟨rfl, rfl⟩ := runs_pure_iff.mp hbody
    exact Or.inr ⟨wrap e, failed e (Or.inr he), rfl, rfl⟩

/-- What is made of the result of a call makes no difference to the database. -/
theorem Atomic.map {γ : Type} {wrap : ε → δ} {p : Client ε Res (Except δ α)}
    {f : StateT σ (Except δ) α} (h : Atomic apply fails wrap p f) (onError : δ → γ) (onOk : α → β)
    {g : StateT σ (Except γ) β}
    (hg : ∀ s, g s = ((f s).map fun x => (onOk x.1, x.2)).mapError onError) :
    Atomic apply fails (fun e => onError (wrap e))
      (p >>= fun r => .pure ((r.map onOk).mapError onError)) g := by
  intro s r c hrun
  obtain ⟨x, d, hx, hrest⟩ := runs_bind_iff.mp hrun
  obtain ⟨rfl, rfl⟩ := runs_pure_iff.mp hrest
  rcases h s x c hx with ⟨a, t, hf, rfl, rfl⟩ | ⟨e, he, rfl, rfl⟩
  · refine Or.inl ⟨onOk a, t, ?_, rfl, rfl⟩
    rw [hg, hf]
    rfl
  · refine Or.inr ⟨onError e, ?_, rfl, rfl⟩
    rcases he with hf | ⟨y, hy, rfl⟩
    · left
      rw [hg, hf]
      rfl
    · exact Or.inr ⟨y, hy, rfl⟩

/-- A call that fails before it opens a transaction. -/
theorem atomic_error (wrap : ε → δ) {e : δ} {f : StateT σ (Except δ) α}
    (hf : ∀ s, f s = .error e) :
    Atomic apply fails wrap (.pure (.error e) : Client ε Res (Except δ α)) f := by
  intro s r c h
  obtain ⟨rfl, rfl⟩ := runs_pure_iff.mp h
  exact Or.inr ⟨e, Or.inl (hf s), rfl, rfl⟩

end Atomic

end TinyShop.Base
