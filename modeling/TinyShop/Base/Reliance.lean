import TinyShop.Base.Program

/-!
# Calls that rely on what was read

A program reads, and its next call relies on what it has read. The scheduler holds back
only what would break the needs of somebody's next call; then every call of every program
finds what it needs.
-/

namespace TinyShop.Base

set_option autoImplicit false

section Programs
variable {σ Op : Type} {Res : Op → Type} {α β : Type}
variable (exec : σ → (op : Op) → Res op → σ → Prop) (inv : σ → Prop) (need : Op → σ → Prop)

/-- The next call finds what it needs, and so will every later one, as long as the others
leave alone what the next call needs. -/
def Supplied : Prog Op Res α → σ → Prop
  | .pure _, _ => True
  | .call op next, s => need op s ∧
      ∀ t r u, inv t → need op t → exec t op r u → Supplied (next r) u

variable {exec inv need}

theorem Supplied.stable {p : Prog Op Res α} {s t : σ} (h : Supplied exec inv need p s)
    (hkeep : ∀ op next, p = .call op next → need op s → need op t) :
    Supplied exec inv need p t := by
  cases p with
  | pure a => trivial
  | call op next => exact ⟨hkeep op next rfl h.1, h.2⟩

theorem Supplied.map (f : α → β) {p : Prog Op Res α} {s : σ} (h : Supplied exec inv need p s) :
    Supplied exec inv need (p >>= fun a => .pure (f a)) s := by
  induction p generalizing s with
  | pure a => trivial
  | call op next ih => exact ⟨h.1, fun t r u hi hn hx => ih r (h.2 t r u hi hn hx)⟩

/-- Calls without needs may come first. -/
theorem supplied_bind {p : Prog Op Res α} {f : α → Prog Op Res β}
    (hp : p.Calls fun op => ∀ s, need op s) (hf : ∀ a s, Supplied exec inv need (f a) s) (s : σ) :
    Supplied exec inv need (p >>= f) s := by
  induction p generalizing s with
  | pure a => exact hf a s
  | call op next ih => exact ⟨hp.1 s, fun _ r u _ _ _ => ih r (hp.2 r) u⟩

theorem supplied_of_calls {p : Prog Op Res α} (h : p.Calls fun op => ∀ s, need op s) (s : σ) :
    Supplied exec inv need p s := by
  induction p generalizing s with
  | pure a => trivial
  | call op next ih => exact ⟨h.1 s, fun _ r u _ _ _ => ih r (h.2 r) u⟩

end Programs

namespace System
variable {σ Op : Type} {Res : Op → Type} {α : Type} {M : System σ Op Res α}
  {inv : σ → Prop} {need : Op → σ → Prop}

/-- Whoever may run leaves the needs of the others alone. -/
theorem supplied_of_reachable
    (hcall : ∀ others s op r t, M.gate others op → inv s → need op s → M.exec s op r t →
      inv t ∧ ∀ other next, Prog.call other next ∈ others → need other s → need other t)
    (henv : ∀ s t, M.env s t → inv s → inv t ∧ ∀ op, need op s → need op t)
    (hstart : ∀ ps p, M.start ps p → ∀ s, Supplied M.exec inv need p s)
    {c d : Config σ Op Res α} (h : M.Reachable c d) (hinv : inv c.state)
    (hprocs : ∀ p ∈ c.procs, Supplied M.exec inv need p c.state) :
    inv d.state ∧ ∀ p ∈ d.procs, Supplied M.exec inv need p d.state := by
  induction h with
  | refl => exact ⟨hinv, hprocs⟩
  | tail _ step ih =>
    obtain ⟨hi, hp⟩ := ih
    cases step with
    | env he =>
      obtain ⟨ht, hneed⟩ := henv _ _ he hi
      exact ⟨ht, fun p hm => (hp p hm).stable fun op _ _ => hneed op⟩
    | start hs =>
      refine ⟨hi, fun p hm => ?_⟩
      rcases List.mem_cons.mp hm with rfl | hm
      · exact hstart _ _ hs _
      · exact hp p hm
    | stop _ => exact ⟨hi, fun p hm => hp p (mem_middle.mpr (Or.inr hm))⟩
    | @call s t ps qs op next r hopen hx =>
      have hcaller := hp (.call op next) (mem_middle.mpr (Or.inl rfl))
      obtain ⟨ht, hothers⟩ := hcall _ s op r t hopen hi hcaller.1 hx
      refine ⟨ht, fun p hm => ?_⟩
      rcases mem_middle.mp hm with rfl | hm
      · exact hcaller.2 s r t hi hcaller.1 hx
      · refine (hp p (mem_middle.mpr (Or.inr hm))).stable fun other next heq => ?_
        subst heq
        exact hothers other next hm

end System

end TinyShop.Base
