import GroovyServ.StepSystem

/-!
# Programs behind queues

A program reads elements, writes chunks and exits with a status. `Local` is a run
beside its user. In `Queued` the same program is far away: the user's elements are
sent in batches that arrive later, and what the program writes waits in a queue until
it is shown. `Serves` relates such a run to a system that carries it out: the system
never shows more than the run beside the user, and it can always get to its end.
-/

namespace GroovyServ.Remoting

open Relation

variable {σ α β ε ω ℓ : Type*}

inductive Action (σ α β ε : Type*) where
  | write (chunk : β) (next : σ)
  | read (next : α → σ)
  | exit (status : ε)

/-- What a program does next in each of its states. -/
abbrev Program (σ α β ε : Type*) := σ → Action σ α β ε

structure Local (σ α β ε : Type*) where
  state : σ
  input : List α
  written : List β := []
  status : Option ε := none

namespace Local

def step (p : Program σ α β ε) (l : Local σ α β ε) : Option (Local σ α β ε) :=
  match l.status, p l.state, l.input with
  | some _, _, _ => none
  | none, .write chunk next, _ => some { l with state := next, written := l.written ++ [chunk] }
  | none, .read next, a :: input => some { l with state := next a, input := input }
  | none, .read _, [] => none
  | none, .exit status, _ => some { l with status := some status }

def Runs (p : Program σ α β ε) : Local σ α β ε → Local σ α β ε → Prop :=
  ReflTransGen fun l l' => l.step p = some l'

def RunsIn (p : Program σ α β ε) : ℕ → Local σ α β ε → Local σ α β ε → Prop
  | 0, l, l' => l = l'
  | n + 1, l, l' => ∃ u, l.step p = some u ∧ RunsIn p n u l'

theorem Runs.exists_runsIn {p : Program σ α β ε} {l l' : Local σ α β ε} (h : Runs p l l') :
    ∃ n, RunsIn p n l l' := by
  induction h using ReflTransGen.head_induction_on with
  | refl => exact ⟨0, rfl⟩
  | head hstep _ ih =>
    obtain ⟨n, hn⟩ := ih
    exact ⟨n + 1, _, hstep, hn⟩

theorem status_eq_none_of_step {p : Program σ α β ε} {l l' : Local σ α β ε}
    (h : l.step p = some l') : l.status = none := by
  unfold step at h
  split at h
  · cases h
  all_goals assumption

theorem Runs.eq_of_status {p : Program σ α β ε} {l l' : Local σ α β ε} (h : Runs p l l')
    {status : ε} (hl : l.status = some status) : l' = l := by
  induction h with
  | refl => rfl
  | tail _ hstep ih =>
    subst ih
    rw [status_eq_none_of_step hstep] at hl
    cases hl

theorem Runs.total {p : Program σ α β ε} {l l₁ l₂ : Local σ α β ε} (h₁ : Runs p l l₁)
    (h₂ : Runs p l l₂) : Runs p l₁ l₂ ∨ Runs p l₂ l₁ := by
  refine ReflTransGen.total_of_right_unique ?_ h₁ h₂
  intro a b c hb hc
  exact Option.some.inj (hb.symm.trans hc)

end Local

/-- `status` is what the user has been told, `exited` what the program has said. -/
structure Queued (σ α β ε : Type*) where
  state : σ
  unsent : List α
  sent : List (List α) := []
  arrived : List α := []
  queued : List β := []
  shown : List β := []
  exited : Option ε := none
  status : Option ε := none

inductive QueuedStep where
  | send (n : ℕ)
  | arrive
  | work
  | display
  | finish

namespace Queued

/-- The run beside the user that a run at a distance stands for. -/
def toLocal (q : Queued σ α β ε) : Local σ α β ε where
  state := q.state
  input := q.arrived ++ (q.sent.flatten ++ q.unsent)
  written := q.shown ++ q.queued
  status := q.exited

def work (p : Program σ α β ε) (q : Queued σ α β ε) : Option (Queued σ α β ε) :=
  match q.exited, p q.state, q.arrived with
  | some _, _, _ => none
  | none, .write chunk next, _ => some { q with state := next, queued := q.queued ++ [chunk] }
  | none, .read next, a :: arrived => some { q with state := next a, arrived := arrived }
  | none, .read _, [] => none
  | none, .exit status, _ => some { q with exited := some status }

def step (p : Program σ α β ε) (q : Queued σ α β ε) : QueuedStep → Option (Queued σ α β ε)
  | .send n =>
    if 0 < n ∧ n ≤ q.unsent.length then
      some { q with unsent := q.unsent.drop n, sent := q.sent ++ [q.unsent.take n] }
    else none
  | .arrive =>
    match q.sent with
    | [] => none
    | batch :: sent => some { q with sent := sent, arrived := q.arrived ++ batch }
  | .work => q.work p
  | .display =>
    match q.queued with
    | [] => none
    | chunk :: queued => some { q with queued := queued, shown := q.shown ++ [chunk] }
  | .finish =>
    match q.status, q.queued, q.exited with
    | none, [], some status => some { q with status := some status }
    | _, _, _ => none

variable {p : Program σ α β ε} {q q' : Queued σ α β ε}

theorem work_toLocal (h : q.work p = some q') : q.toLocal.step p = some q'.toLocal := by
  obtain ⟨state, unsent, sent, arrived, queued, shown, exited, status⟩ := q
  unfold work at h
  unfold Local.step toLocal
  cases exited with
  | some st => cases h
  | none =>
    dsimp only at h ⊢
    cases hnext : p state with
    | write chunk next =>
      rw [hnext] at h
      cases h
      simp
    | read next =>
      rw [hnext] at h
      cases arrived with
      | nil => cases h
      | cons a arrived =>
        cases h
        rfl
    | exit st =>
      rw [hnext] at h
      cases h
      rfl

theorem step_toLocal {k : QueuedStep} (h : q.step p k = some q') :
    Local.Runs p q.toLocal q'.toLocal := by
  cases k with
  | send n =>
    rw [step] at h
    split_ifs at h
    cases h
    simp only [toLocal, List.flatten_append, List.flatten_singleton, List.append_assoc,
      List.take_append_drop]
    exact ReflTransGen.refl
  | arrive =>
    rw [step] at h
    split at h
    · cases h
    · rename_i batch sent hsent
      cases h
      simp only [toLocal, hsent, List.flatten_cons, List.append_assoc]
      exact ReflTransGen.refl
  | work => exact ReflTransGen.single (work_toLocal h)
  | display =>
    rw [step] at h
    split at h
    · cases h
    · rename_i chunk queued hqueued
      cases h
      simp only [toLocal, hqueued, List.append_assoc, List.singleton_append]
      exact ReflTransGen.refl
  | finish =>
    rw [step] at h
    split at h
    · cases h
      exact ReflTransGen.refl
    · cases h

/-- What the user is told is what the program has said, and is told last. -/
def Told (q : Queued σ α β ε) : Prop :=
  ∀ status, q.status = some status → q.exited = some status ∧ q.queued = []

theorem told_of_none (h : q.status = none) : q.Told := by
  intro status hstatus
  rw [h] at hstatus
  cases hstatus

theorem told_step {k : QueuedStep} (hq : q.Told) (h : q.step p k = some q') : q'.Told := by
  cases k with
  | send n =>
    rw [step] at h
    split_ifs at h
    cases h
    exact hq
  | arrive =>
    rw [step] at h
    split at h
    · cases h
    · cases h
      exact hq
  | work =>
    intro status hstatus
    have hrun := Local.status_eq_none_of_step (work_toLocal h)
    have hkept : q'.status = q.status := by
      rw [step, work] at h
      split at h <;> cases h <;> rfl
    have hexited := (hq status (hkept ▸ hstatus)).1
    rw [toLocal] at hrun
    rw [hexited] at hrun
    cases hrun
  | display =>
    rw [step] at h
    split at h
    · cases h
    · rename_i chunk queued hqueued
      cases h
      intro status hstatus
      have hnil := (hq status hstatus).2
      rw [hqueued] at hnil
      cases hnil
  | finish =>
    rw [step] at h
    split at h
    · rename_i status hnone hqueued hexited
      cases h
      intro status' hstatus'
      exact ⟨hexited.trans hstatus', hqueued⟩
    · cases h

/-- With all input there, the program steps as beside the user. -/
theorem exists_work {l : Local σ α β ε} (hunsent : q.unsent = []) (hsent : q.sent = [])
    (h : q.toLocal.step p = some l) :
    ∃ q', q.work p = some q' ∧ q'.toLocal = l ∧ q'.unsent = [] ∧ q'.sent = [] ∧
      q'.status = q.status ∧ q'.queued.length ≤ q.queued.length + 1 := by
  obtain ⟨state, unsent, sent, arrived, queued, shown, exited, status⟩ := q
  dsimp only at hunsent hsent
  subst hunsent hsent
  have hinput : arrived ++ (([] : List (List α)).flatten ++ []) = arrived := by simp
  unfold Local.step toLocal at h
  unfold work
  dsimp only at h ⊢
  rw [hinput] at h
  cases exited with
  | some st => cases h
  | none =>
    cases hnext : p state with
    | write chunk next =>
      rw [hnext] at h
      cases h
      exact ⟨_, rfl, by simp [toLocal], rfl, rfl, rfl, by simp⟩
    | read next =>
      rw [hnext] at h
      cases arrived with
      | nil => cases h
      | cons a arrived =>
        cases h
        exact ⟨_, rfl, by simp [toLocal], rfl, rfl, rfl, by simp⟩
    | exit st =>
      rw [hnext] at h
      cases h
      exact ⟨_, rfl, by simp [toLocal], rfl, rfl, rfl, by simp⟩

end Queued

/-- The system `M`, taking steps that meet `P`, carries out the run at a distance that
`R` relates it to, and can take each of its steps, but for the size of a batch. -/
structure Serves (M : StepSystem ω ℓ) (P : ω → ℓ → Prop) (p : Program σ α β ε)
    (R : Queued σ α β ε → ω → Prop) : Prop where
  refines : ∀ q w l w', R q w → P w l → M.step w l = some w' →
    R q w' ∨ ∃ k q', q.step p k = some q' ∧ R q' w'
  sends : ∀ q w, R q w → q.status = none → q.unsent ≠ [] →
    ∃ l w' n q', P w l ∧ M.step w l = some w' ∧ q.step p (.send n) = some q' ∧ R q' w'
  follows : ∀ q w k q', R q w → q.status = none → (∀ n, k ≠ .send n) → q.step p k = some q' →
    ∃ l w', P w l ∧ M.step w l = some w' ∧ R q' w'

namespace Serves

variable {M : StepSystem ω ℓ} {P : ω → ℓ → Prop} {p : Program σ α β ε}
  {R : Queued σ α β ε → ω → Prop}

/-- In every run the user has been shown the beginning of what the program writes beside
the user, and is told the status when that is all of it. -/
theorem safe (h : Serves M P p R) {q₀ : Queued σ α β ε} {w₀ w : ω} {ls : List ℓ}
    (hR : R q₀ w₀) (htold : q₀.Told) (hrun : M.run w₀ ls = some w) (hP : M.StepsMeet P w₀ ls) :
    ∃ q, R q w ∧ q.Told ∧ Local.Runs p q₀.toLocal q.toLocal := by
  have hinv := hP.statesMeet
    (I := fun w => ∃ q, R q w ∧ q.Told ∧ Local.Runs p q₀.toLocal q.toLocal) ?_
    ⟨q₀, hR, htold, ReflTransGen.refl⟩
  · exact hinv.last hrun
  · rintro w l w' ⟨q, hR, htold, hruns⟩ hPl hl
    rcases h.refines q w l w' hR hPl hl with hR' | ⟨k, q', hk, hR'⟩
    · exact ⟨q, hR', htold, hruns⟩
    · exact ⟨q', hR', Queued.told_step htold hk, hruns.trans (Queued.step_toLocal hk)⟩

/-- What is left to do when the program has `n` steps to go and the user has not been
told the status. -/
def remaining (q : Queued σ α β ε) (n : ℕ) : ℕ :=
  if q.status.isSome then 0
  else 2 * q.unsent.length + q.sent.length + 2 * n + q.queued.length + 1

theorem remaining_of_none {q : Queued σ α β ε} (hq : q.status = none) (n : ℕ) :
    remaining q n =
      2 * q.unsent.length + q.sent.length + 2 * n + q.queued.length + 1 := by
  rw [remaining, hq]
  rfl

theorem remaining_le (q : Queued σ α β ε) (n : ℕ) : remaining q n ≤
    2 * q.unsent.length + q.sent.length + 2 * n + q.queued.length + 1 := by
  unfold remaining
  split_ifs <;> omega

/-- The program has `k.2` steps to go from the run `k.1` to where it ends. -/
structure Leads (p : Program σ α β ε) (R : Queued σ α β ε → ω → Prop) (l : Local σ α β ε)
    (k : Queued σ α β ε × ℕ) (w : ω) : Prop where
  related : R k.1 w
  told : k.1.Told
  runs : Local.RunsIn p k.2 k.1.toLocal l

/-- While the user has not been told the status there is a step that leaves less to do. -/
theorem exists_step (h : Serves M P p R) {q : Queued σ α β ε} {w : ω} {n : ℕ}
    {l : Local σ α β ε} {status : ε} (hR : R q w) (hq : q.status = none)
    (hruns : Local.RunsIn p n q.toLocal l) (hstatus : l.status = some status) :
    ∃ lab w' k q' n', P w lab ∧ M.step w lab = some w' ∧ R q' w' ∧ q.step p k = some q' ∧
      Local.RunsIn p n' q'.toLocal l ∧ remaining q' n' < remaining q n := by
  rw [remaining_of_none hq]
  by_cases hunsent : q.unsent = []
  · by_cases hsent : q.sent = []
    · cases n with
      | succ n =>
        obtain ⟨u, hu, hrest⟩ := hruns
        obtain ⟨q', hwork, rfl, hunsent', hsent', -, hqueued⟩ :=
          Queued.exists_work hunsent hsent hu
        obtain ⟨lab, w', hP, hlab, hR'⟩ := h.follows q w .work q' hR hq (fun n => nofun) hwork
        refine ⟨lab, w', .work, q', n, hP, hlab, hR', hwork, hrest, ?_⟩
        have hle := remaining_le q' n
        rw [hunsent', hsent'] at hle
        rw [hunsent, hsent]
        simp only [List.length_nil] at hle ⊢
        omega
      | zero =>
        obtain rfl : q.toLocal = l := hruns
        change q.exited = some status at hstatus
        cases hqueued : q.queued with
        | cons chunk queued =>
          have hstep : q.step p .display =
              some { q with queued := queued, shown := q.shown ++ [chunk] } := by
            rw [Queued.step, hqueued]
          obtain ⟨lab, w', hP, hlab, hR'⟩ :=
            h.follows q w .display _ hR hq (fun n => nofun) hstep
          refine ⟨lab, w', .display, _, 0, hP, hlab, hR', hstep, ?_, ?_⟩
          · change _ = q.toLocal
            simp [Queued.toLocal, hqueued]
          · refine (remaining_le _ _).trans_lt ?_
            simp
        | nil =>
          have hstep : q.step p .finish = some { q with status := some status } := by
            rw [Queued.step, hq, hqueued, hstatus]
          obtain ⟨lab, w', hP, hlab, hR'⟩ :=
            h.follows q w .finish _ hR hq (fun n => nofun) hstep
          exact ⟨lab, w', .finish, _, 0, hP, hlab, hR', hstep, rfl, Nat.succ_pos _⟩
    · obtain ⟨batch, sent, hcons⟩ := List.exists_cons_of_ne_nil hsent
      have hstep : q.step p .arrive =
          some { q with sent := sent, arrived := q.arrived ++ batch } := by
        rw [Queued.step, hcons]
      obtain ⟨lab, w', hP, hlab, hR'⟩ := h.follows q w .arrive _ hR hq (fun n => nofun) hstep
      refine ⟨lab, w', .arrive, _, n, hP, hlab, hR', hstep, ?_, ?_⟩
      · simpa [Queued.toLocal, hcons] using hruns
      · refine (remaining_le _ _).trans_lt ?_
        simp [hcons]
  · obtain ⟨lab, w', m, q', hP, hlab, hstep, hR'⟩ := h.sends q w hR hq hunsent
    have hstep' := hstep
    rw [Queued.step] at hstep'
    split_ifs at hstep' with hm
    cases hstep'
    refine ⟨lab, w', .send m, _, n, hP, hlab, hR', hstep, ?_, ?_⟩
    · simpa [Queued.toLocal] using hruns
    · refine (remaining_le _ _).trans_lt ?_
      simp only [List.length_drop, List.length_append, List.length_singleton]
      omega

/-- From every state that is reached the run can go on to the end that the program comes
to beside the user. -/
theorem completes (h : Serves M P p R) {q : Queued σ α β ε} {w : ω} (hR : R q w)
    (htold : q.Told) {l : Local σ α β ε} {status : ε} (hruns : Local.Runs p q.toLocal l)
    (hstatus : l.status = some status) :
    ∃ w' q', M.Reaches P w w' ∧ R q' w' ∧ q'.status = some status ∧ q'.shown = l.written := by
  have hless : ∀ k w, Leads p R l k w → remaining k.1 k.2 ≠ 0 → ∃ lab w' k',
      P w lab ∧ M.step w lab = some w' ∧ Leads p R l k' w' ∧
        remaining k'.1 k'.2 < remaining k.1 k.2 := by
    rintro ⟨q, n⟩ w ⟨hR, htold, hn⟩ hne
    have hq : q.status = none := by
      by_contra hsome
      obtain ⟨status', hq⟩ := Option.ne_none_iff_exists'.mp hsome
      exact hne (by rw [remaining, hq]; rfl)
    obtain ⟨lab, w', k, q', n', hP, hlab, hR', hstep, hn', hlt⟩ := h.exists_step hR hq hn hstatus
    exact ⟨lab, w', (q', n'), hP, hlab, ⟨hR', Queued.told_step htold hstep, hn'⟩, hlt⟩
  obtain ⟨n, hn⟩ := hruns.exists_runsIn
  obtain ⟨w', ⟨q', n'⟩, hreach, ⟨hR', htold', hn'⟩, hzero⟩ :=
    StepSystem.exists_reaches_of_measure _ hless (k := (q, n)) ⟨hR, htold, hn⟩
  dsimp only at hR' htold' hn' hzero
  obtain ⟨status', hq'⟩ : ∃ status', q'.status = some status' := by
    cases hq' : q'.status with
    | none =>
      rw [remaining_of_none hq'] at hzero
      omega
    | some status' => exact ⟨status', rfl⟩
  obtain ⟨hexited, hqueued⟩ := htold' status' hq'
  obtain rfl : q'.toLocal = l := by
    cases n' with
    | zero => exact hn'
    | succ n' =>
      obtain ⟨u, hu, -⟩ := hn'
      have hnone : q'.exited = none := Local.status_eq_none_of_step hu
      rw [hexited] at hnone
      cases hnone
  obtain rfl : status' = status := Option.some.inj (hexited.symm.trans hstatus)
  exact ⟨w', q', hreach, hR', hq', by simp [Queued.toLocal, hqueued]⟩

end Serves
end GroovyServ.Remoting
