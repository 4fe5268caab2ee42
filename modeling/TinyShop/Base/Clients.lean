import TinyShop.Base.Program

/-!
# Clients of one system

The calls of a program can be given other names, so that it is known who makes them. A part
of a run in which only some calls are made is a run of a system with fewer calls.
-/

namespace TinyShop.Base

set_option autoImplicit false

section Relabel
variable {σ Op Op' : Type} (Res : Op' → Type) {α β : Type} (f : Op → Op')

/-- The same program with other names for its calls. -/
def Prog.relabel : Prog Op (fun op => Res (f op)) α → Prog Op' Res α
  | .pure a => .pure a
  | .call op next => .call (f op) fun r => relabel (next r)

def Contract.comap (C : Contract σ Op') : Contract σ Op where
  inv := C.inv
  rely := C.rely
  guar := C.guar
  pre op := C.pre (f op)
  refl := C.refl
  trans := C.trans

variable {Res f} {exec : σ → (op : Op') → Res op → σ → Prop} {C : Contract σ Op'}

theorem Contract.Sound.comap (h : C.Sound exec) :
    (C.comap f).Sound fun s op r t => exec s (f op) r t :=
  ⟨h.step, h.rely⟩

/-- It owes under its own names what it owes under the others. -/
theorem safe_relabel {post : α → σ → Prop} {p : Prog Op (fun op => Res (f op)) α} {s : σ}
    (h : Safe (fun s op r t => exec s (f op) r t) (C.comap f) post p s) :
    Safe exec C post (Prog.relabel Res f p) s := by
  induction p generalizing s with
  | pure a => exact h
  | call op next ih =>
    intro t ht hi
    obtain ⟨hpre, hall⟩ := h t ht hi
    refine ⟨hpre, fun r u hx => ?_⟩
    obtain ⟨hu, hg, hn⟩ := hall r u hx
    exact ⟨hu, hg, ih r hn⟩

end Relabel

namespace System
variable {σ Op : Type} {Res : Op → Type} {α : Type} {M : System σ Op Res α} {P : Op → Prop}
  {C : Contract σ Op}

variable (M P) in
/-- No other calls than those with `P` are made. -/
def only : System σ Op Res α :=
  { M with gate := fun others op => P op ∧ M.gate others op }

theorem step_of_only {c d : Config σ Op Res α} (h : (M.only P).Step c d) : M.Step c d := by
  cases h with
  | env he => exact .env he
  | start hs => exact .start hs
  | stop hs => exact .stop hs
  | call hgate hx => exact .call hgate.2 hx

theorem reachable_of_only {c d : Config σ Op Res α} (h : (M.only P).Reachable c d) :
    M.Reachable c d :=
  Relation.ReflTransGen.mono (fun _ _ => step_of_only) _ _ h

/-- What every call with `P` keeps, where it is made as its program owes it, is kept by a part of
a run that has no other calls. -/
theorem frame_of_only
    (hguar : ∀ s t, C.guar s t → C.rely s t)
    (henv : ∀ s t, M.env s t → C.inv s → C.inv t ∧ C.rely s t)
    (hstart : ∀ ps p, M.start ps p → ∀ s, Safe M.exec C (fun _ _ => True) p s)
    {F : σ → σ → Prop} (hrefl : ∀ s, F s s) (htrans : ∀ {s t u}, F s t → F t u → F s u)
    (hmoved : ∀ s t, M.env s t → F s t)
    (hcall : ∀ s op r t, C.inv s → C.pre op s → P op → M.exec s op r t → F s t)
    {s : σ} {c d : Config σ Op Res α} (hinv : C.inv s) (hc : M.Reachable ⟨s, []⟩ c)
    (hd : (M.only P).Reachable c d) : F c.state d.state := by
  induction hd with
  | refl => exact hrefl _
  | tail hrun step ih =>
    have hmid := hc.trans (reachable_of_only hrun)
    cases step with
    | env he => exact htrans ih (hmoved _ _ he)
    | start _ => exact ih
    | stop _ => exact ih
    | call hgate hx =>
      obtain ⟨hnow, _⟩ := safe_of_reachable hguar henv hstart hmid hinv (by simp)
      have hpre := pre_of_reachable hguar henv hstart hmid hinv (mem_middle.mpr (Or.inl rfl))
      exact htrans ih (hcall _ _ _ _ hnow hpre hgate.1 hx)

end System

end TinyShop.Base
