import GroovyServ.Exceptions
import GroovyServ.InheritedLocals
import GroovyServ.StepSystem

/-!
# Which connection a thread's standard streams belong to

`connectionHolder` is an inheritable thread-local variable. The accept loop sets it
on its own thread, in the constructor of `ClientConnection`, right before it creates
the thread of the `RequestWorker`; a thread that closes a connection clears its own
value. The threads of a session resolve the session's connection or none.
-/

namespace GroovyServ.Server

open InheritedLocals

inductive StandardStream where
  | ins
  | out
  | err
  deriving DecidableEq

/-- The threads `τ` of the server and the connections `κ` that it has accepted.
`constructed` is a connection whose worker has no thread yet; `uses` are the
operations on standard streams, by thread, and the connections that they got to. -/
structure ServerThreads (τ κ : Type*) where
  connectionHolder : InheritedLocals τ κ
  constructed : Option κ := none
  accepted : κ → Bool := fun _ => false
  worker : κ → Option τ := fun _ => none
  closed : κ → Bool := fun _ => false
  uses : List (τ × StandardStream × κ) := []

inductive ThreadStep (τ κ : Type*) where
  | newRequestWorker (c : κ)
  | newWorkerThread (t : τ)
  | newThread (parent child : τ)
  | close (t : τ) (c : κ)
  | useStream (t : τ) (stream : StandardStream)

namespace ServerThreads

variable {τ κ : Type*} [DecidableEq τ] [DecidableEq κ] (threadText : τ → Bytes) (acceptThread : τ)

def start : ServerThreads τ κ := { connectionHolder := single acceptThread }

def getCurrentConnection (s : ServerThreads τ κ) (t : τ) : Except JException κ :=
  match s.connectionHolder.value t with
  | some c => .ok c
  | none => .error (.gservIllegalState (ascii "Not found client connection: " ++ threadText t))

def OfSession (s : ServerThreads τ κ) (t : τ) (c : κ) : Prop :=
  ∃ root ∈ s.worker c, s.connectionHolder.Descends t root

instance (s : ServerThreads τ κ) (t : τ) (c : κ) : Decidable (s.OfSession t c) :=
  match h : s.worker c with
  | none => isFalse fun ⟨root, hroot, _⟩ => by rw [h] at hroot; cases hroot
  | some root => decidable_of_iff (s.connectionHolder.Descends t root)
      ⟨fun hd => ⟨root, h, hd⟩, fun ⟨root', hroot, hd⟩ => by rw [h] at hroot; cases hroot; exact hd⟩

def step (s : ServerThreads τ κ) : ThreadStep τ κ → Option (ServerThreads τ κ)
  | .newRequestWorker c =>
    if s.constructed = none ∧ s.accepted c = false then
      some { s with
        connectionHolder := s.connectionHolder.set acceptThread (some c)
        constructed := some c
        accepted := Function.update s.accepted c true }
    else none
  | .newWorkerThread t =>
    match s.constructed with
    | none => none
    | some c =>
      if s.connectionHolder.ancestry t = [] then
        some { s with
          connectionHolder := s.connectionHolder.create acceptThread t
          constructed := none
          worker := Function.update s.worker c (some t) }
      else none
  | .newThread parent child =>
    if s.connectionHolder.ancestry parent ≠ [] ∧ parent ≠ acceptThread ∧
        s.connectionHolder.ancestry child = [] then
      some { s with connectionHolder := s.connectionHolder.create parent child }
    else none
  | .close t c =>
    if s.OfSession t c then
      if s.closed c then some s
      else
        some { s with
          connectionHolder := s.connectionHolder.set t none
          closed := Function.update s.closed c true }
    else none
  | .useStream t stream =>
    if s.connectionHolder.ancestry t ≠ [] then
      match s.getCurrentConnection threadText t with
      | .ok c => some { s with uses := s.uses ++ [(t, stream, c)] }
      | .error _ => some s
    else none

end ServerThreads

def threadSystem {τ κ : Type*} [DecidableEq τ] [DecidableEq κ] (threadText : τ → Bytes)
    (acceptThread : τ) : StepSystem (ServerThreads τ κ) (ThreadStep τ κ) :=
  ⟨ServerThreads.step threadText acceptThread⟩

variable {τ κ : Type*} {threadText : τ → Bytes} {acceptThread : τ}

/-- The threads of a session get to the session's connection or to none, and so do
their operations on standard streams. -/
structure Isolated (threadText : τ → Bytes) (s : ServerThreads τ κ) : Prop where
  resolves : ∀ t c, s.OfSession t c → s.getCurrentConnection threadText t = .ok c ∨
    s.getCurrentConnection threadText t =
      .error (.gservIllegalState (ascii "Not found client connection: " ++ threadText t))
  uses : ∀ t stream c c', (t, stream, c') ∈ s.uses → s.OfSession t c → c' = c

def NoneOr (c : κ) (v : Option κ) : Prop := v = none ∨ v = some c

structure ThreadsInvariant (acceptThread : τ) (s : ServerThreads τ κ) : Prop where
  rooted : s.connectionHolder.Rooted
  accept : s.connectionHolder.ancestry acceptThread = [acceptThread]
  constructed : ∀ c ∈ s.constructed, s.connectionHolder.value acceptThread = some c
  worker : ∀ c, ∀ root ∈ s.worker c,
    root ≠ acceptThread ∧ s.connectionHolder.ancestry root ≠ [] ∧
      s.connectionHolder.Confined root (NoneOr c)
  uses : ∀ t stream c', (t, stream, c') ∈ s.uses → s.connectionHolder.ancestry t ≠ [] ∧
    ∀ c, s.OfSession t c → c' = c

variable {s s' : ServerThreads τ κ}

theorem ThreadsInvariant.isolated (h : ThreadsInvariant acceptThread s) :
    Isolated threadText s where
  resolves t c ht := by
    obtain ⟨root, hroot, hdescends⟩ := ht
    rcases (h.worker c root hroot).2.2 t hdescends with hnone | hsome
    · exact .inr (by rw [ServerThreads.getCurrentConnection, hnone])
    · exact .inl (by rw [ServerThreads.getCurrentConnection, hsome])
  uses t stream c c' hmem ht := (h.uses t stream c' hmem).2 c ht

theorem ne_of_fresh {t child : τ} (hfresh : s.connectionHolder.ancestry child = [])
    (ht : s.connectionHolder.ancestry t ≠ []) : t ≠ child := fun heq => ht (heq ▸ hfresh)

variable [DecidableEq τ]

theorem threadsInvariant_start :
    ThreadsInvariant acceptThread (ServerThreads.start acceptThread : ServerThreads τ κ) where
  rooted := rooted_single acceptThread
  accept := ancestry_single_self acceptThread
  constructed _ h := by cases h
  worker _ _ h := by cases h
  uses _ _ _ h := by cases h

theorem ThreadsInvariant.confined_set (h : ThreadsInvariant acceptThread s) {t : τ} {v : Option κ}
    (hv : t = acceptThread ∨ v = none) (c : κ) (root : τ) (hroot : root ∈ s.worker c) :
    (s.connectionHolder.set t v).Confined root (NoneOr c) := by
  obtain ⟨hne, -, hconfined⟩ := h.worker c root hroot
  apply hconfined.set
  intro hdescends
  rcases hv with rfl | rfl
  · rw [Descends, h.accept, List.mem_singleton] at hdescends
    exact absurd hdescends hne
  · exact .inl rfl

theorem descends_create {parent child t root : τ} (hfresh : s.connectionHolder.ancestry child = [])
    (ht : s.connectionHolder.ancestry t ≠ []) :
    (s.connectionHolder.create parent child).Descends t root ↔
      s.connectionHolder.Descends t root := by
  rw [Descends, Descends, ancestry_create_of_ne (ne_of_fresh hfresh ht)]

variable [DecidableEq κ]

theorem ThreadsInvariant.newRequestWorker (h : ThreadsInvariant acceptThread s) {c : κ}
    (hstep : s.step threadText acceptThread (.newRequestWorker c) = some s') :
    ThreadsInvariant acceptThread s' := by
  simp only [ServerThreads.step, Option.ite_none_right_eq_some, Option.some.injEq] at hstep
  obtain ⟨-, rfl⟩ := hstep
  exact
    { rooted := h.rooted.set acceptThread (some c)
      accept := h.accept
      constructed := fun c' hc' => by
        obtain rfl := Option.mem_some_iff.mp hc'
        exact Function.update_self _ _ _
      worker := fun c' root hroot => ⟨(h.worker c' root hroot).1, (h.worker c' root hroot).2.1,
        h.confined_set (.inl rfl) c' root hroot⟩
      uses := h.uses }

theorem ThreadsInvariant.newWorkerThread (h : ThreadsInvariant acceptThread s) {t : τ}
    (hstep : s.step threadText acceptThread (.newWorkerThread t) = some s') :
    ThreadsInvariant acceptThread s' := by
  rw [ServerThreads.step] at hstep
  split at hstep
  · cases hstep
  · rename_i c hc
    simp only [Option.ite_none_right_eq_some, Option.some.injEq] at hstep
    obtain ⟨hfresh, rfl⟩ := hstep
    have haccept : acceptThread ≠ t := ne_of_fresh hfresh (by rw [h.accept]; simp)
    refine ⟨h.rooted.create, ?_, fun c' hc' => (by cases hc'), ?_, ?_⟩
    · exact (ancestry_create_of_ne haccept).trans h.accept
    · intro c' root hroot
      dsimp only at hroot
      by_cases heq : c' = c
      · subst heq
        rw [Function.update_self, Option.mem_some_iff] at hroot
        subst hroot
        exact ⟨Ne.symm haccept, created_create_self,
          confined_create_self h.rooted hfresh (.inr (h.constructed c' hc))⟩
      · rw [Function.update_of_ne heq] at hroot
        obtain ⟨hne, hcreated, hconfined⟩ := h.worker c' root hroot
        have hroot' : root ≠ t := ne_of_fresh hfresh hcreated
        refine ⟨hne, ?_, hconfined.create (Ne.symm hroot')⟩
        exact (ancestry_create_of_ne hroot').symm ▸ hcreated
    · intro u stream c' hmem
      obtain ⟨hcreated, huses⟩ := h.uses u stream c' hmem
      refine ⟨(ancestry_create_of_ne (ne_of_fresh hfresh hcreated)).symm ▸ hcreated, ?_⟩
      rintro c'' ⟨root, hroot, hdescends⟩
      have hold : s.connectionHolder.Descends u root :=
        (descends_create hfresh hcreated).mp hdescends
      dsimp only at hroot
      by_cases heq : c'' = c
      · subst heq
        rw [Function.update_self, Option.mem_some_iff] at hroot
        subst hroot
        exact absurd hold (h.rooted.not_descends hfresh u)
      · rw [Function.update_of_ne heq] at hroot
        exact huses c'' ⟨root, hroot, hold⟩

theorem ThreadsInvariant.newThread (h : ThreadsInvariant acceptThread s) {parent child : τ}
    (hstep : s.step threadText acceptThread (.newThread parent child) = some s') :
    ThreadsInvariant acceptThread s' := by
  simp only [ServerThreads.step, Option.ite_none_right_eq_some, Option.some.injEq] at hstep
  obtain ⟨⟨-, -, hfresh⟩, rfl⟩ := hstep
  have haccept : acceptThread ≠ child := ne_of_fresh hfresh (by rw [h.accept]; simp)
  refine ⟨h.rooted.create, (ancestry_create_of_ne haccept).trans h.accept, fun c hc => ?_,
    fun c root hroot => ?_, fun u stream c hmem => ?_⟩
  · exact (Function.update_of_ne haccept _ _).trans (h.constructed c hc)
  · obtain ⟨hne, hcreated, hconfined⟩ := h.worker c root hroot
    have hroot' : root ≠ child := ne_of_fresh hfresh hcreated
    exact ⟨hne, (ancestry_create_of_ne hroot').symm ▸ hcreated, hconfined.create (Ne.symm hroot')⟩
  · obtain ⟨hcreated, huses⟩ := h.uses u stream c hmem
    refine ⟨(ancestry_create_of_ne (ne_of_fresh hfresh hcreated)).symm ▸ hcreated, ?_⟩
    rintro c' ⟨root, hroot, hdescends⟩
    exact huses c' ⟨root, hroot, (descends_create hfresh hcreated).mp hdescends⟩

theorem ThreadsInvariant.close (h : ThreadsInvariant acceptThread s) {t : τ} {c : κ}
    (hstep : s.step threadText acceptThread (.close t c) = some s') :
    ThreadsInvariant acceptThread s' := by
  simp only [ServerThreads.step, Option.ite_none_right_eq_some] at hstep
  obtain ⟨⟨root, hroot, hdescends⟩, hstep⟩ := hstep
  split_ifs at hstep with hclosed
  · obtain rfl := Option.some.inj hstep
    exact h
  · obtain rfl := Option.some.inj hstep
    have haccept : acceptThread ≠ t := by
      rintro rfl
      rw [Descends, h.accept, List.mem_singleton] at hdescends
      exact (h.worker c root hroot).1 hdescends
    refine ⟨h.rooted.set t none, h.accept, fun c' hc' => ?_, fun c' root' hroot' => ?_, h.uses⟩
    · exact (Function.update_of_ne haccept _ _).trans (h.constructed c' hc')
    · exact ⟨(h.worker c' root' hroot').1, (h.worker c' root' hroot').2.1,
        h.confined_set (.inr rfl) c' root' hroot'⟩

theorem ThreadsInvariant.useStream (h : ThreadsInvariant acceptThread s) {t : τ}
    {stream : StandardStream}
    (hstep : s.step threadText acceptThread (.useStream t stream) = some s') :
    ThreadsInvariant acceptThread s' := by
  simp only [ServerThreads.step, Option.ite_none_right_eq_some] at hstep
  obtain ⟨hcreated, hstep⟩ := hstep
  split at hstep
  · rename_i c hcurrent
    obtain rfl := Option.some.inj hstep
    refine ⟨h.rooted, h.accept, h.constructed, h.worker, fun u stream' c' hmem => ?_⟩
    rcases List.mem_append.mp hmem with hold | hnew
    · exact h.uses u stream' c' hold
    · obtain ⟨rfl, rfl, rfl⟩ : u = t ∧ stream' = stream ∧ c' = c := by simpa using hnew
      refine ⟨hcreated, fun c'' ht => ?_⟩
      have hisolated : Isolated threadText s := h.isolated
      rcases hisolated.resolves u c'' ht with hok | herror
      · rw [hok] at hcurrent
        exact (Except.ok.inj hcurrent).symm
      · rw [herror] at hcurrent
        cases hcurrent
  · obtain rfl := Option.some.inj hstep
    exact h

theorem ThreadsInvariant.step (h : ThreadsInvariant acceptThread s) {label : ThreadStep τ κ}
    (hstep : s.step threadText acceptThread label = some s') :
    ThreadsInvariant acceptThread s' := by
  cases label with
  | newRequestWorker c => exact h.newRequestWorker hstep
  | newWorkerThread t => exact h.newWorkerThread hstep
  | newThread parent child => exact h.newThread hstep
  | close t c => exact h.close hstep
  | useStream t stream => exact h.useStream hstep

/-- Whatever is accepted, created and closed in between, the threads of a session
get to its own connection or to none. -/
theorem isolated_of_run {labels : List (ThreadStep τ κ)}
    (hrun : (threadSystem threadText acceptThread).run (.start acceptThread) labels = some s) :
    Isolated threadText s :=
  (StepSystem.run_invariant (fun _ _ _ h hstep => h.step hstep) threadsInvariant_start
    hrun).isolated

/-- The accept loop has gone on to the next connection when a thread of the first
session is created. -/
theorem isolated_of_run_two : ∃ s : ServerThreads ℕ Bool,
    (threadSystem (fun _ => []) 0).run (.start 0) [.newRequestWorker true, .newWorkerThread 1,
      .newRequestWorker false, .newThread 1 2, .newWorkerThread 3, .useStream 2 .out,
      .close 2 true, .newThread 2 4, .useStream 4 .err] = some s ∧
    s.uses = [(2, .out, true)] ∧ Isolated (fun _ => []) s := by
  obtain ⟨s, hs, huses⟩ : ∃ s : ServerThreads ℕ Bool,
      (threadSystem (fun _ => []) 0).run (.start 0) [.newRequestWorker true, .newWorkerThread 1,
        .newRequestWorker false, .newThread 1 2, .newWorkerThread 3, .useStream 2 .out,
        .close 2 true, .newThread 2 4, .useStream 4 .err] = some s ∧
      s.uses = [(2, .out, true)] := ⟨_, rfl, rfl⟩
  exact ⟨s, hs, huses, isolated_of_run hs⟩

end GroovyServ.Server
