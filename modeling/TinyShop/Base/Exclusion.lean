import TinyShop.Base.Program

/-!
# Calls that others must wait for

A program is inside its section while its next call is one of those made there. Some
calls run only while nobody else is inside. In return a program may rely, from its
entry to its last call inside, on every step of the others being calm.
-/

namespace TinyShop.Base

set_option autoImplicit false

/-- `inside` marks the calls of the section and `lone` those that run only while no other
program is inside; `idle` holds whenever no program is. -/
structure Exclusion (σ Op : Type) where
  inside : Op → Bool
  lone : Op → Bool
  inv : σ → Prop
  calm : σ → σ → Prop
  idle : σ → Prop
  refl : ∀ s, calm s s
  trans : ∀ {s t u}, calm s t → calm t u → calm s u

section Programs
variable {σ Op : Type} {Res : Op → Type} {α β : Type}

/-- The next call of the program is one of the section. -/
def Prog.within (inside : Op → Bool) : Prog Op Res α → Bool
  | .pure _ => false
  | .call op _ => inside op

@[simp] theorem Prog.within_call {inside : Op → Bool} {op : Op} {next : Res op → Prog Op Res α} :
    (Prog.call op next).within inside = inside op := rfl

/-- The section is entered through the calls `entry` only. -/
def Prog.EntersBy (inside entry : Op → Bool) : Prog Op Res α → Prop
  | .pure _ => True
  | .call op next => ∀ r, ((next r).within inside → inside op ∨ entry op) ∧
      Prog.EntersBy inside entry (next r)

variable (exec : σ → (op : Op) → Res op → σ → Prop) (D : Exclusion σ Op)

/-- Each call keeps the invariant, is calm if it need not be alone, and leaves the section
with `idle`, whatever the others did before it. -/
def Held : Prog Op Res α → σ → Prop
  | .pure _, _ => True
  | .call op next, s => ∀ t, (D.inside op → D.calm s t) → D.inv t →
      (D.lone op → D.inside op ∨ D.idle t) → ∀ r u, exec t op r u →
        D.inv u ∧ (D.lone op = false → D.calm t u) ∧
        ((next r).within D.inside = false → D.inside op ∨ D.idle t → D.idle u) ∧ Held (next r) u

variable {exec D}

theorem Held.stable {p : Prog Op Res α} {s t : σ} (h : Held exec D p s) (hst : D.calm s t) :
    Held exec D p t := by
  cases p with
  | pure a => trivial
  | call op next => exact fun u hu => h u fun hin => D.trans hst (hu hin)

/-- Outside of the section nothing is relied on. -/
theorem Held.outside {p : Prog Op Res α} {s t : σ} (h : Held exec D p s)
    (hout : p.within D.inside = false) : Held exec D p t := by
  cases p with
  | pure a => trivial
  | call op next =>
    have hnot : ¬D.inside op := by
      intro hin
      exact Bool.false_ne_true (hout.symm.trans hin)
    exact fun u _ => h u fun hin => absurd hin hnot

/-- What is done with the result of a program makes no difference. -/
theorem Prog.within_map {inside : Op → Bool} (f : α → β) (p : Prog Op Res α) :
    (p >>= fun a => .pure (f a)).within inside = p.within inside := by
  cases p <;> rfl

theorem Held.map (f : α → β) {p : Prog Op Res α} {s : σ} (h : Held exec D p s) :
    Held exec D (p >>= fun a => .pure (f a)) s := by
  induction p generalizing s with
  | pure a => trivial
  | call op next ih =>
    intro t hst hi hl r u hx
    obtain ⟨hu, hcalm, hleave, hnext⟩ := h t hst hi hl r u hx
    exact ⟨hu, hcalm, fun hw => hleave ((Prog.within_map f (next r)).symm.trans hw), ih r hnext⟩

/-- A program that is never inside relies on nothing. -/
theorem held_of_calls {p : Prog Op Res α}
    (h : p.Calls fun op => D.inside op = false ∧ ∀ t r u, exec t op r u → D.inv t →
      D.inv u ∧ (D.lone op = false → D.calm t u) ∧ (D.idle t → D.idle u)) (s : σ) :
    Held exec D p s := by
  induction p generalizing s with
  | pure a => trivial
  | call op next ih =>
    obtain ⟨⟨hout, hop⟩, hnext⟩ := h
    intro t _ hi _ r u hx
    obtain ⟨hu, hcalm, hidle⟩ := hop t r u hx hi
    refine ⟨hu, hcalm, fun _ hor => hidle ?_, ih r (hnext r) u⟩
    rw [hout] at hor
    exact hor.resolve_left Bool.false_ne_true

theorem entersBy_of_calls {inside entry : Op → Bool} {p : Prog Op Res α}
    (h : p.Calls fun op => inside op ∨ entry op) : p.EntersBy inside entry := by
  induction p with
  | pure a => trivial
  | call op next ih => exact fun r => ⟨fun _ => h.1, ih r (h.2 r)⟩

theorem entersBy_map {inside entry : Op → Bool} (f : α → β) {p : Prog Op Res α}
    (h : p.EntersBy inside entry) : (p >>= fun a => .pure (f a)).EntersBy inside entry := by
  induction p with
  | pure a => trivial
  | call op next ih =>
    intro r
    exact ⟨fun hw => (h r).1 ((Prog.within_map f (next r)).symm.trans hw), ih r (h r).2⟩

end Programs

namespace System
variable {σ Op : Type} {Res : Op → Type} {α : Type} {M : System σ Op Res α} {D : Exclusion σ Op}

/-- A call of `entry` waits until no other program is inside. -/
def Waits (inside entry : Op → Bool) (others : List (Prog Op Res α)) (op : Op) : Prop :=
  entry op → ∀ p ∈ others, p.within inside = false

/-- A program is inside, or `idle` holds. -/
def Guarded (D : Exclusion σ Op) (c : Config σ Op Res α) : Prop :=
  (∃ p ∈ c.procs, p.within D.inside) ∨ D.idle c.state

theorem held_of_reachable
    (hgate : ∀ others op, M.gate others op → Waits D.inside D.lone others op)
    (henv : ∀ s t, M.env s t → D.inv s → D.inv t ∧ D.calm s t ∧ (D.idle s → D.idle t))
    (hstart : ∀ ps p, M.start ps p → ∀ s, Held M.exec D p s)
    (hstop : ∀ p, M.stop p → p.within D.inside = false ∨ ∀ s, D.inv s → D.idle s)
    {c d : Config σ Op Res α} (h : M.Reachable c d) (hinv : D.inv c.state) (hguard : Guarded D c)
    (hprocs : ∀ p ∈ c.procs, Held M.exec D p c.state) :
    D.inv d.state ∧ Guarded D d ∧ ∀ p ∈ d.procs, Held M.exec D p d.state := by
  induction h with
  | refl => exact ⟨hinv, hguard, hprocs⟩
  | tail _ step ih =>
    obtain ⟨hi, hg, hp⟩ := ih
    cases step with
    | env he =>
      obtain ⟨ht, hcalm, hidle⟩ := henv _ _ he hi
      exact ⟨ht, hg.imp id hidle, fun p hm => (hp p hm).stable hcalm⟩
    | start hs =>
      refine ⟨hi, hg.imp (fun ⟨p, hm, hin⟩ => ⟨p, List.mem_cons_of_mem _ hm, hin⟩) id, ?_⟩
      intro p hm
      rcases List.mem_cons.mp hm with rfl | hm
      · exact hstart _ _ hs _
      · exact hp p hm
    | @stop s ps p qs hs =>
      refine ⟨hi, ?_, fun q hm => hp q (mem_middle.mpr (Or.inr hm))⟩
      rcases hstop p hs with hout | hidle
      · refine hg.imp ?_ id
        rintro ⟨q, hm, hin⟩
        rcases mem_middle.mp hm with rfl | hm
        · rw [hout] at hin
          cases hin
        · exact ⟨q, hm, hin⟩
      · exact Or.inr (hidle s hi)
    | @call s t ps qs op next r hopen hx =>
      have hothers : ∀ p ∈ ps ++ qs, Held M.exec D p s :=
        fun p hm => hp p (mem_middle.mpr (Or.inr hm))
      have halone := hgate _ _ hopen
      -- somebody else is inside, or the caller is, or nobody
      have hwho : (∃ p ∈ ps ++ qs, p.within D.inside) ∨ D.inside op ∨ D.idle s := by
        rcases hg with ⟨p, hm, hin⟩ | hidle
        · rcases mem_middle.mp hm with rfl | hm
          · exact Or.inr (Or.inl hin)
          · exact Or.inl ⟨p, hm, hin⟩
        · exact Or.inr (Or.inr hidle)
      have hlone : D.lone op → D.inside op ∨ D.idle s := by
        intro hl
        rcases hwho with ⟨p, hm, hin⟩ | hwho
        · rw [halone hl p hm] at hin
          cases hin
        · exact hwho
      have hcall := hp (.call op next) (mem_middle.mpr (Or.inl rfl))
      obtain ⟨ht, hcalm, hleave, hnext⟩ := hcall s (fun _ => D.refl s) hi hlone r t hx
      refine ⟨ht, ?_, fun p hm => ?_⟩
      · rcases hwho with ⟨p, hm, hin⟩ | hwho
        · exact Or.inl ⟨p, mem_middle.mpr (Or.inr hm), hin⟩
        · cases hw : (next r).within D.inside with
          | true => exact Or.inl ⟨_, mem_middle.mpr (Or.inl rfl), hw⟩
          | false => exact Or.inr (hleave hw hwho)
      · rcases mem_middle.mp hm with rfl | hm
        · exact hnext
        · cases hl : D.lone op with
          | false => exact (hothers p hm).stable (hcalm hl)
          | true => exact (hothers p hm).outside (halone hl p hm)

section Entry
variable {inside entry : Op → Bool}

/-- The system in which the calls of the section, too, wait for the others to leave it. -/
def exclusive (M : System σ Op Res α) (inside : Op → Bool) : System σ Op Res α :=
  { M with gate := fun others op =>
      M.gate others op ∧ (inside op → ∀ p ∈ others, p.within inside = false) }

theorem countP_within_eq_zero {ps : List (Prog Op Res α)} :
    ps.countP (Prog.within inside) = 0 ↔ ∀ p ∈ ps, p.within inside = false := by
  simp [List.countP_eq_zero]

theorem countP_middle {ps qs : List (Prog Op Res α)} {p : Prog Op Res α} :
    (ps ++ p :: qs).countP (Prog.within inside) =
      (ps ++ qs).countP (Prog.within inside) + if p.within inside then 1 else 0 := by
  rw [List.countP_append, List.countP_append, List.countP_cons]
  omega

/-- If the section is entered while nobody is inside, then one program at most is. -/
theorem reachable_exclusive
    (hgate : ∀ others op, M.gate others op → Waits inside entry others op)
    (hstart : ∀ ps p, M.start ps p → p.within inside = false ∧ p.EntersBy inside entry)
    {s : σ} {d : Config σ Op Res α} (h : M.Reachable ⟨s, []⟩ d) :
    (M.exclusive inside).Reachable ⟨s, []⟩ d ∧ (∀ p ∈ d.procs, p.EntersBy inside entry) ∧
      d.procs.countP (Prog.within inside) ≤ 1 := by
  induction h with
  | refl => exact ⟨.refl, by simp, by simp⟩
  | tail _ step ih =>
    obtain ⟨hr, hp, hone⟩ := ih
    cases step with
    | env he => exact ⟨hr.tail (.env he), hp, hone⟩
    | start hs =>
      obtain ⟨hout, henters⟩ := hstart _ _ hs
      refine ⟨hr.tail (.start hs), fun p hm => ?_, ?_⟩
      · rcases List.mem_cons.mp hm with rfl | hm
        · exact henters
        · exact hp p hm
      · rw [List.countP_cons_of_neg (by simp [hout])]
        exact hone
    | stop hs =>
      refine ⟨hr.tail (.stop hs), fun p hm => hp p (mem_middle.mpr (Or.inr hm)), ?_⟩
      rw [countP_middle] at hone
      exact Nat.le_trans (Nat.le_add_right _ _) hone
    | @call s t ps qs op next r hopen hx =>
      have hcaller := hp (.call op next) (mem_middle.mpr (Or.inl rfl)) r
      have hothers : inside op ∨ entry op → (ps ++ qs).countP (Prog.within inside) = 0 := by
        rintro (hin | hentry)
        · rw [countP_middle, Prog.within_call, if_pos hin] at hone
          omega
        · exact countP_within_eq_zero.mpr (hgate _ _ hopen hentry)
      refine ⟨hr.tail (.call ⟨hopen, fun hin => ?_⟩ hx), fun p hm => ?_, ?_⟩
      · exact countP_within_eq_zero.mp (hothers (Or.inl hin))
      · rcases mem_middle.mp hm with rfl | hm
        · exact hcaller.2
        · exact hp p (mem_middle.mpr (Or.inr hm))
      · rw [countP_middle] at hone ⊢
        cases hw : (next r).within inside with
        | true =>
          rw [hothers (hcaller.1 hw)]
          decide
        | false =>
          rw [if_neg Bool.false_ne_true]
          omega

variable {answer : σ → (op : Op) → Option (Res op × σ)}

/-- Answers that are given only to calls that need not wait. -/
def waiting (inside entry : Op → Bool) (answer : σ → (op : Op) → Option (Res op × σ))
    (others : List (Prog Op Res α)) (s : σ) (op : Op) : Option (Res op × σ) :=
  if entry op ∧ others.any (Prog.within inside) then none else answer s op

theorem answers_waiting
    (hgate : ∀ others op, Waits inside entry others op → M.gate others op)
    (hexec : ∀ s op r t, answer s op = some (r, t) → M.exec s op r t) :
    Answers (waiting inside entry answer) M := by
  intro others s op r t h
  unfold waiting at h
  split at h
  · cases h
  · rename_i hopen
    refine ⟨hgate others op fun hop => ?_, hexec s op r t h⟩
    simpa [hop] using hopen

end Entry

end System

end TinyShop.Base
