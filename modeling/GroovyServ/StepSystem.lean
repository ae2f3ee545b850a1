import Mathlib

/-!
# Labelled partial steps, runs and their invariants

A step system moves from a state by a label, or has no such move. `run` follows
a list of labels. `StatesMeet` asks a property of every state that a run visits
and `StepsMeet` asks a condition of every step before it is taken. An invariant
that only some steps preserve holds along each run whose steps all meet the
condition, and characterizes those runs when any other step breaks it.
-/

namespace GroovyServ

structure StepSystem (σ ℓ : Type*) where
  step : σ → ℓ → Option σ

namespace StepSystem

variable {σ ℓ : Type*} (M : StepSystem σ ℓ)

def run (s : σ) : List ℓ → Option σ
  | [] => some s
  | l :: ls => (M.step s l).bind fun s' => run s' ls

def StatesMeet (I : σ → Prop) (s : σ) : List ℓ → Prop
  | [] => I s
  | l :: ls => I s ∧ ∀ s', M.step s l = some s' → StatesMeet I s' ls

def StepsMeet (P : σ → ℓ → Prop) (s : σ) : List ℓ → Prop
  | [] => True
  | l :: ls => P s l ∧ ∀ s', M.step s l = some s' → StepsMeet P s' ls

@[simp] theorem run_nil (s : σ) : M.run s [] = some s := rfl

theorem run_cons (s : σ) (l : ℓ) (ls : List ℓ) :
    M.run s (l :: ls) = (M.step s l).bind fun s' => M.run s' ls := rfl

theorem run_cons_eq_some {s t : σ} {l : ℓ} {ls : List ℓ} :
    M.run s (l :: ls) = some t ↔ ∃ u, M.step s l = some u ∧ M.run u ls = some t := by
  rw [run_cons, Option.bind_eq_some_iff]

variable {M} {I J : σ → Prop} {P : σ → ℓ → Prop}

theorem StatesMeet.head {s : σ} {ls : List ℓ} (h : M.StatesMeet I s ls) : I s := by
  cases ls with
  | nil => exact h
  | cons l ls => exact h.1

theorem StatesMeet.mono (hIJ : ∀ s, I s → J s) {s : σ} {ls : List ℓ}
    (h : M.StatesMeet I s ls) : M.StatesMeet J s ls := by
  induction ls generalizing s with
  | nil => exact hIJ s h
  | cons l ls ih => exact ⟨hIJ s h.1, fun s' hs' => ih (h.2 s' hs')⟩

theorem StatesMeet.last {s t : σ} {ls : List ℓ} (h : M.StatesMeet I s ls)
    (hrun : M.run s ls = some t) : I t := by
  induction ls generalizing s with
  | nil =>
    rw [run_nil, Option.some.injEq] at hrun
    exact hrun ▸ h
  | cons l ls ih =>
    obtain ⟨u, hu, hrun⟩ := M.run_cons_eq_some.mp hrun
    exact ih (h.2 u hu) hrun

/-- An invariant of the steps that meet the condition holds in every state
visited by a run whose steps all meet it. -/
theorem StepsMeet.statesMeet
    (hstep : ∀ s l s', I s → P s l → M.step s l = some s' → I s') {s : σ} {ls : List ℓ}
    (hs : I s) (h : M.StepsMeet P s ls) : M.StatesMeet I s ls := by
  induction ls generalizing s with
  | nil => exact hs
  | cons l ls ih =>
    exact ⟨hs, fun s' hs' => ih (hstep s l s' hs h.1 hs') (h.2 s' hs')⟩

/-- Conditions that agree on the states that meet an invariant hold along the same runs. -/
theorem stepsMeet_congr {Q : σ → ℓ → Prop} (hstep : ∀ s l s', I s → M.step s l = some s' → I s')
    (hPQ : ∀ s l, I s → (P s l ↔ Q s l)) {s : σ} {ls : List ℓ} (hs : I s) :
    M.StepsMeet P s ls ↔ M.StepsMeet Q s ls := by
  induction ls generalizing s with
  | nil => exact Iff.rfl
  | cons l ls ih =>
    exact and_congr (hPQ s l hs) (forall₂_congr fun s' hs' => ih (hstep s l s' hs hs'))

instance decidableStepsMeet [∀ s l, Decidable (P s l)] :
    ∀ (s : σ) (ls : List ℓ), Decidable (M.StepsMeet P s ls)
  | _, [] => isTrue trivial
  | s, l :: ls =>
    match hstep : M.step s l with
    | none => decidable_of_iff (P s l) ⟨fun h => ⟨h, by simp [hstep]⟩, And.left⟩
    | some s' =>
      have := decidableStepsMeet s' ls
      decidable_of_iff (P s l ∧ M.StepsMeet P s' ls) (by simp [StepsMeet, hstep])

theorem stepsMeet_true (s : σ) (ls : List ℓ) : M.StepsMeet (fun _ _ => True) s ls := by
  induction ls generalizing s with
  | nil => trivial
  | cons l ls ih => exact ⟨trivial, fun s' _ => ih s'⟩

theorem stepsMeet_of_forall {s : σ} {ls : List ℓ} (h : ∀ l ∈ ls, ∀ s, P s l) :
    M.StepsMeet P s ls := by
  induction ls generalizing s with
  | nil => trivial
  | cons l ls ih =>
    rw [List.forall_mem_cons] at h
    exact ⟨h.1 s, fun s' _ => ih h.2⟩

theorem run_invariant (hstep : ∀ s l s', I s → M.step s l = some s' → I s') {s t : σ}
    {ls : List ℓ} (hs : I s) (hrun : M.run s ls = some t) : I t :=
  ((stepsMeet_true s ls).statesMeet (fun s l s' hI _ => hstep s l s' hI) hs).last hrun

theorem run_map {τ m : Type*} {N : StepSystem τ m} (f : σ → τ) (g : ℓ → m)
    (hstep : ∀ s l s', I s → P s l → M.step s l = some s' → I s' ∧ N.step (f s) (g l) = some (f s'))
    {s t : σ} {ls : List ℓ} (hs : I s) (hmeet : M.StepsMeet P s ls) (hrun : M.run s ls = some t) :
    I t ∧ N.run (f s) (ls.map g) = some (f t) := by
  induction ls generalizing s with
  | nil =>
    rw [run_nil, Option.some.injEq] at hrun
    exact hrun ▸ ⟨hs, rfl⟩
  | cons l ls ih =>
    obtain ⟨u, hu, hrun⟩ := M.run_cons_eq_some.mp hrun
    obtain ⟨hu', himage⟩ := hstep s l u hs hmeet.1 hu
    obtain ⟨ht, hruns⟩ := ih hu' (hmeet.2 u hu) hrun
    exact ⟨ht, N.run_cons_eq_some.mpr ⟨f u, himage, hruns⟩⟩

/-- When every step outside the condition leads out of `I`, the runs that stay
in `I` are exactly the runs whose steps all meet the condition. -/
theorem statesMeet_iff_stepsMeet
    (hstep : ∀ s l s', J s → P s l → M.step s l = some s' → J s') (hJI : ∀ s, J s → I s)
    (hbreak : ∀ s l s', J s → ¬ P s l → M.step s l = some s' → ¬ I s')
    {s t : σ} {ls : List ℓ} (hs : J s) (hrun : M.run s ls = some t) :
    M.StatesMeet I s ls ↔ M.StepsMeet P s ls := by
  refine ⟨fun h => ?_, fun h => (h.statesMeet hstep hs).mono hJI⟩
  induction ls generalizing s with
  | nil => trivial
  | cons l ls ih =>
    obtain ⟨u, hu, hrun⟩ := M.run_cons_eq_some.mp hrun
    have hP : P s l := by
      by_contra hP
      exact hbreak s l u hs hP hu (h.2 u hu).head
    refine ⟨hP, fun s' hs' => ?_⟩
    obtain rfl : u = s' := Option.some.inj (hu.symm.trans hs')
    exact ih (hstep s l u hs hP hu) hrun (h.2 u hu)

def Reaches (M : StepSystem σ ℓ) (P : σ → ℓ → Prop) (s t : σ) : Prop :=
  ∃ ls, M.run s ls = some t ∧ M.StepsMeet P s ls

theorem Reaches.refl (s : σ) : M.Reaches P s s := ⟨[], rfl, trivial⟩

theorem Reaches.head {s u t : σ} {l : ℓ} (hP : P s l) (hl : M.step s l = some u)
    (h : M.Reaches P u t) : M.Reaches P s t := by
  obtain ⟨ls, hrun, hmeet⟩ := h
  refine ⟨l :: ls, M.run_cons_eq_some.mpr ⟨u, hl, hrun⟩, hP, fun s' hs' => ?_⟩
  obtain rfl : u = s' := Option.some.inj (hl.symm.trans hs')
  exact hmeet

/-- Where a step with a smaller measure can always be taken, measure zero is reached. -/
theorem exists_reaches_of_measure {κ : Type*} {R : κ → σ → Prop} (μ : κ → ℕ)
    (hstep : ∀ k s, R k s → μ k ≠ 0 →
      ∃ l s' k', P s l ∧ M.step s l = some s' ∧ R k' s' ∧ μ k' < μ k) {k : κ} {s : σ}
    (hR : R k s) : ∃ t k', M.Reaches P s t ∧ R k' t ∧ μ k' = 0 := by
  induction hn : μ k using Nat.strong_induction_on generalizing k s with
  | _ n ih =>
    by_cases hzero : μ k = 0
    · exact ⟨s, k, Reaches.refl s, hR, hzero⟩
    · obtain ⟨l, s', k', hP, hl, hR', hlt⟩ := hstep k s hR hzero
      obtain ⟨t, k'', hreach, hend⟩ := ih (μ k') (hn ▸ hlt) hR' rfl
      exact ⟨t, k'', hreach.head hP hl, hend⟩

section Replies

variable {β : Type*} (f g : σ → ℓ → β × σ)

def ofReplies : StepSystem σ ℓ := ⟨fun s l => some (f s l).2⟩

def replies (s : σ) : List ℓ → List (β × σ)
  | [] => []
  | l :: ls => f s l :: replies (f s l).2 ls

variable {f g}

theorem replies_eq_iff (hstep : ∀ s l, I s → I (g s l).2)
    (heq : ∀ s l, I s → (f s l = g s l ↔ P s l)) {s : σ} {ls : List ℓ} (hs : I s) :
    replies f s ls = replies g s ls ↔ (ofReplies g).StepsMeet P s ls := by
  induction ls generalizing s with
  | nil => exact iff_of_true rfl trivial
  | cons l ls ih =>
    have hnext : (ofReplies g).step s l = some (g s l).2 := rfl
    rw [replies, replies, List.cons.injEq, heq s l hs, StepsMeet]
    refine and_congr_right fun hP => ?_
    rw [(heq s l hs).mpr hP, ih (hstep s l hs), hnext]
    exact ⟨fun h s' hs' => Option.some.inj hs' ▸ h, fun h => h _ rfl⟩

end Replies

end StepSystem
end GroovyServ
