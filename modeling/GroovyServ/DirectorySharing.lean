import GroovyServ.CurrentDirHolder
import GroovyServ.ServerProtocol
import GroovyServ.StepSystem

/-!
# Sessions that share the directory of the process

Any number of `GroovyInvokeHandler.run` over the one directory holder. A session
enters by taking its directory, puts its environment variables, and leaves when
its script has ended; each of these is a step. The first session of a directory
to leave resets it, whoever else is in it.
-/

namespace GroovyServ.Server

/-- How far a run of `GroovyInvokeHandler.run` is; a running one knows whether it
is to reset the directory. -/
inductive SessionPhase where
  | ready
  | running (shouldResetCurrentDir : Bool)
  | ended (handlerEnd : HandlerEnd)
  deriving DecidableEq

structure Sessions (ι π : Type*) where
  host : Host π
  phase : ι → SessionPhase

inductive SessionStep (ι : Type*) where
  | enter (i : ι)
  | putEnvVar (i : ι) (envVar : Bytes)
  | leave (i : ι) (body : Except JException Unit)

variable {ι π : Type*}

namespace Sessions

def start (host : Host π) : Sessions ι π := ⟨{ host with currentDir := none }, fun _ => .ready⟩

def InDir (s : Sessions ι π) (i : ι) : Prop := s.phase i = .running true

variable [DecidableEq ι] (p : Platform π) (request : ι → InvocationRequest)

def finish (s : Sessions ι π) (i : ι) (shouldResetCurrentDir : Bool)
    (body : Except JException Unit) : Sessions ι π where
  host := if resetsDir shouldResetCurrentDir body then p.reset s.host else s.host
  phase := Function.update s.phase i (.ended (invokeHandlerEnd body))

def step (s : Sessions ι π) : SessionStep ι → Option (Sessions ι π)
  | .enter i =>
    if s.phase i = .ready then
      if truth (request i).cwd then
        match p.setDir ((request i).cwd.getD []) s.host with
        | .ok host => some ⟨host, Function.update s.phase i (.running true)⟩
        | .error e => some (s.finish p i true (.error e))
      else some { s with phase := Function.update s.phase i (.running false) }
    else none
  | .putEnvVar i envVar =>
    match s.phase i with
    | .running _ =>
      if envVar ∈ (request i).envVars.getD [] then some { s with host := p.put envVar s.host }
      else none
    | _ => none
  | .leave i body =>
    match s.phase i with
    | .running shouldResetCurrentDir => some (s.finish p i shouldResetCurrentDir body)
    | _ => none

end Sessions

/-- Every session in a directory still has it, and they all have the same. -/
structure DirKept (request : ι → InvocationRequest) (s : Sessions ι π) : Prop where
  kept : ∀ i dir, s.InDir i → (request i).cwd = some dir →
    s.host.currentDir = some dir ∧ s.host.userDir = dir
  same : ∀ i j, s.InDir i → s.InDir j → (request i).cwd = (request j).cwd

/-- A session that resets the directory is the last one in it. -/
def LastOut (s : Sessions ι π) : SessionStep ι → Prop
  | .leave i body => s.InDir i → resetsDir true body = true → ∀ j, s.InDir j → j = i
  | _ => True

/-- What the steps preserve: the holder agrees with `user.dir`, and the sessions in
a directory hold it. -/
structure SharedInvariant (request : ι → InvocationRequest) (s : Sessions ι π) : Prop where
  agrees : s.host.Agrees
  held : ∀ i, s.InDir i → (request i).cwd = s.host.currentDir ∧ s.host.currentDir.isSome = true

variable {request : ι → InvocationRequest}

theorem SharedInvariant.dirKept {s : Sessions ι π} (h : SharedInvariant request s) :
    DirKept request s where
  kept i dir hi hcwd := by
    have hdir : s.host.currentDir = some dir := (h.held i hi).1.symm.trans hcwd
    exact ⟨hdir, h.agrees dir hdir⟩
  same i j hi hj := (h.held i hi).1.trans (h.held j hj).1.symm

theorem sharedInvariant_start (host : Host π) :
    SharedInvariant request (Sessions.start host : Sessions ι π) where
  agrees _ h := by cases h
  held _ h := by cases h

variable [DecidableEq ι] {p : Platform π}

theorem cwd_of_truth {cwd : Option Bytes} (h : truth cwd = true) : cwd = some (cwd.getD []) := by
  cases cwd with
  | none => cases h
  | some dir => rfl

theorem inDir_update {host : Host π} {phase : ι → SessionPhase} {i j : ι} {q : SessionPhase} :
    (⟨host, Function.update phase i q⟩ : Sessions ι π).InDir j ↔
      if j = i then q = .running true else phase j = .running true := by
  unfold Sessions.InDir
  by_cases hj : j = i
  · subst hj
    simp
  · simp [hj]

theorem SharedInvariant.enter {s s' : Sessions ι π} (h : SharedInvariant request s) {i : ι}
    (hstep : s.step p request (.enter i) = some s') : SharedInvariant request s' := by
  rw [Sessions.step] at hstep
  split_ifs at hstep with hready hcwd
  · cases hset : p.setDir ((request i).cwd.getD []) s.host with
    | ok host =>
      simp only [hset, Option.some.injEq] at hstep
      subst hstep
      obtain ⟨hdir, huser⟩ := setDir_agrees p h.agrees hset
      have hown : (request i).cwd = host.currentDir := hdir ▸ cwd_of_truth hcwd
      refine ⟨fun dir hd => ?_, fun j hj => ?_⟩
      · rw [hdir, Option.some.injEq] at hd
        exact huser.trans hd
      · rw [inDir_update] at hj
        by_cases hji : j = i
        · subst hji
          exact ⟨hown, by rw [hdir]; rfl⟩
        · rw [if_neg hji] at hj
          obtain ⟨hheld, hsome⟩ := h.held j hj
          rcases setDir_ok p hset with ⟨rfl, -⟩ | ⟨hfree, -⟩
          · exact ⟨hheld, hsome⟩
          · rw [hfree] at hsome
            cases hsome
    | error e =>
      obtain ⟨message, rfl⟩ := setDir_error p hset
      simp only [hset, Option.some.injEq] at hstep
      subst hstep
      refine ⟨h.agrees, fun j hj => ?_⟩
      rw [Sessions.finish, inDir_update] at hj
      split_ifs at hj with hji
      exact h.held j hj
  · cases hstep
    refine ⟨h.agrees, fun j hj => ?_⟩
    rw [inDir_update] at hj
    split_ifs at hj with hji
    · cases hj
    · exact h.held j hj

theorem SharedInvariant.putEnvVar {s s' : Sessions ι π} (h : SharedInvariant request s) {i : ι}
    {envVar : Bytes} (hstep : s.step p request (.putEnvVar i envVar) = some s') :
    SharedInvariant request s' := by
  rw [Sessions.step] at hstep
  cases hphase : s.phase i with
  | running shouldReset =>
    simp only [hphase, Option.ite_none_right_eq_some, Option.some.injEq] at hstep
    obtain ⟨-, rfl⟩ := hstep
    exact ⟨h.agrees, h.held⟩
  | ready => simp [hphase] at hstep
  | ended handlerEnd => simp [hphase] at hstep

theorem step_leave {s s' : Sessions ι π} {i : ι} {body : Except JException Unit}
    (hstep : s.step p request (.leave i body) = some s') :
    ∃ shouldReset, s.phase i = .running shouldReset ∧ s' = s.finish p i shouldReset body := by
  rw [Sessions.step] at hstep
  cases hphase : s.phase i with
  | running shouldReset =>
    simp only [hphase, Option.some.injEq] at hstep
    exact ⟨shouldReset, rfl, hstep.symm⟩
  | ready => simp [hphase] at hstep
  | ended handlerEnd => simp [hphase] at hstep

theorem resetsDir_eq_true {shouldReset : Bool} {body : Except JException Unit}
    (h : resetsDir shouldReset body = true) : shouldReset = true := by
  unfold resetsDir at h
  split at h
  · cases h
  · exact h

theorem SharedInvariant.leave {s s' : Sessions ι π} (h : SharedInvariant request s) {i : ι}
    {body : Except JException Unit} (hlast : LastOut s (.leave i body))
    (hstep : s.step p request (.leave i body) = some s') : SharedInvariant request s' := by
  obtain ⟨shouldReset, hphase, rfl⟩ := step_leave hstep
  have hothers : ∀ j, (s.finish p i shouldReset body).InDir j → j ≠ i ∧ s.InDir j := by
    intro j hj
    rw [Sessions.finish, inDir_update] at hj
    split_ifs at hj with hji
    exact ⟨hji, hj⟩
  by_cases hreset : resetsDir shouldReset body = true
  · obtain rfl := resetsDir_eq_true hreset
    have hdir : (s.finish p i true body).host.currentDir = none := by
      rw [Sessions.finish, if_pos hreset, currentDir_reset]
    refine ⟨fun dir hd => ?_, fun j hj => ?_⟩
    · rw [hdir] at hd
      cases hd
    · exact absurd (hlast hphase hreset j (hothers j hj).2) (hothers j hj).1
  · have hhost : (s.finish p i shouldReset body).host = s.host := by
      rw [Sessions.finish, if_neg hreset]
    refine ⟨hhost ▸ h.agrees, fun j hj => ?_⟩
    rw [hhost]
    exact h.held j (hothers j hj).2

theorem SharedInvariant.step {s s' : Sessions ι π} {label : SessionStep ι}
    (h : SharedInvariant request s) (hlast : LastOut s label)
    (hstep : s.step p request label = some s') : SharedInvariant request s' := by
  cases label with
  | enter i => exact h.enter hstep
  | putEnvVar i envVar => exact h.putEnvVar hstep
  | leave i body => exact h.leave hlast hstep

/-- A session that resets the directory with another one in it takes it away. -/
theorem not_dirKept_of_not_lastOut {s s' : Sessions ι π} {label : SessionStep ι}
    (h : SharedInvariant request s) (hlast : ¬ LastOut s label)
    (hstep : s.step p request label = some s') : ¬ DirKept request s' := by
  cases label with
  | enter i => exact absurd trivial hlast
  | putEnvVar i envVar => exact absurd trivial hlast
  | leave i body =>
    simp only [LastOut, not_forall] at hlast
    obtain ⟨hi, hreset, j, hj, hji⟩ := hlast
    obtain ⟨shouldReset, hphase, rfl⟩ := step_leave hstep
    obtain rfl : shouldReset = true := by
      rw [Sessions.InDir, hphase] at hi
      cases hi
      rfl
    obtain ⟨hheld, hsome⟩ := h.held j hj
    obtain ⟨dir, hdir⟩ := Option.isSome_iff_exists.mp hsome
    have hstill : (s.finish p i true body).InDir j := by
      rw [Sessions.finish, inDir_update, if_neg hji]
      exact hj
    intro hkept
    have hcurrent := (hkept.kept j dir hstill (hheld.trans hdir)).1
    rw [Sessions.finish, if_pos hreset, currentDir_reset] at hcurrent
    cases hcurrent

def sessionSystem (p : Platform π) (request : ι → InvocationRequest) :
    StepSystem (Sessions ι π) (SessionStep ι) := ⟨Sessions.step p request⟩

/-- Along a run every session keeps its directory exactly when each session that
resets it is the last one in it. -/
theorem dirKept_iff_lastOut (p : Platform π) (request : ι → InvocationRequest) (host : Host π)
    {labels : List (SessionStep ι)} {s : Sessions ι π}
    (hrun : (sessionSystem p request).run (.start host) labels = some s) :
    (sessionSystem p request).StatesMeet (DirKept request) (.start host) labels ↔
      (sessionSystem p request).StepsMeet LastOut (.start host) labels :=
  StepSystem.statesMeet_iff_stepsMeet (fun _ _ _ h hlast hstep => h.step hlast hstep)
    (fun _ h => h.dirKept) (fun _ _ _ h hlast hstep => not_dirKept_of_not_lastOut h hlast hstep)
    (sharedInvariant_start host) hrun

/-- A process with its working directory and its environment, started in `/`. -/
def unixPlatform : Platform (Bytes × (Bytes → Option Bytes)) where
  isWindows := false
  chdir process dir := (dir, process.2)
  putenvWindows process _ := process
  setenv process name value := (process.1, Function.update process.2 name (some value))
  originalUserDir := ascii "/"
  originalPwd := some (ascii "/")

def unixHost : Host (Bytes × (Bytes → Option Bytes)) where
  process := (ascii "/", fun _ => none)
  cache _ := none
  userDir := ascii "/"
  currentDir := none

def workRequest : InvocationRequest where
  port := 1961
  cwd := some (ascii "/work")
  classpath := none
  args := []
  clientAuthToken := none
  serverAuthToken := none
  envVars := none
  protocol := none
  command := none

theorem dirKept_iff_lastOut_inTurn : ∃ s,
    (sessionSystem unixPlatform fun _ : ℕ => workRequest).run (.start unixHost)
      [.enter 0, .leave 0 (.ok ()), .enter 1, .leave 1 (.ok ())] = some s ∧
    ((sessionSystem unixPlatform fun _ : ℕ => workRequest).StatesMeet
        (DirKept fun _ => workRequest) (.start unixHost)
        [.enter 0, .leave 0 (.ok ()), .enter 1, .leave 1 (.ok ())] ↔
      (sessionSystem unixPlatform fun _ : ℕ => workRequest).StepsMeet LastOut (.start unixHost)
        [.enter 0, .leave 0 (.ok ()), .enter 1, .leave 1 (.ok ())]) :=
  ⟨_, rfl, dirKept_iff_lastOut unixPlatform _ unixHost rfl⟩

/-- Two sessions in one directory: the first to leave takes it from the other. -/
theorem not_dirKept_shared : ∃ s,
    (sessionSystem unixPlatform fun _ : ℕ => workRequest).run (.start unixHost)
      [.enter 0, .enter 1, .leave 0 (.ok ())] = some s ∧
    s.InDir 1 ∧ s.host.userDir = ascii "/" ∧ ¬ DirKept (fun _ => workRequest) s :=
  ⟨_, rfl, rfl, rfl, fun h => absurd (h.kept 1 (ascii "/work") rfl rfl).2 (by decide +kernel)⟩

end GroovyServ.Server
