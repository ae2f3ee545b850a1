import GroovyServ.ServerReports
import GroovyServ.ServerStart

/-!
# What a late deletion leads to

The start commands by themselves are a part of the server commands: each of their runs is a
run in which the commands with other options wait. When one of them deletes the authtoken
file of the server that another one has started, that server is out of reach for good.
-/

namespace GroovyServ.ServerCLI

open Server

/-- A start command that has found the port in use is about to make sure of the server. -/
def phaseOf {κ : Type*} (options : Options) : CommandPhase → Phase κ
  | .invoked => .canConnect options.begin
  | .unconnected => .unconnected .startServerAsDaemon
  | .oldFile => .oldFile .startServerAsDaemon
  | .ready => .daemonize
  | .daemonized => .waitUp
  | .alreadyRunning => .makeSure .startServerAsDaemon

def serverOf : DaemonPhase → ServerPhase
  | .notStarted => .notStarted
  | .starting => .starting
  | .started => .started
  | .handling => .handling
  | .exited => .exited

/-- The daemon of a start command has the command's number. -/
def ofStarts {ι : Type*} (options : ι → Options) (s : Starts ι) : State ι ι where
  server := fun i => serverOf (s.daemon i)
  port := s.port
  authtokenFile := s.authtokenFile
  command := fun i => ⟨phaseOf (options i) (s.command i), none⟩

def commandOf {ι : Type*} : StartStep ι → Option ι
  | .canConnect i => some i
  | .fileExists i => some i
  | .deleteFile i => some i
  | .daemonize i => some i
  | _ => none

def stepOf {ι : Type*} : StartStep ι → Step ι ι
  | .canConnect i => .command i
  | .fileExists i => .command i
  | .deleteFile i => .command i
  | .daemonize i => .daemonize i i
  | .startServer i => .startServer i
  | .setupAuthToken i => .setupAuthToken i
  | .setupAuthTokenFails i left => .setupAuthTokenFails i left

/-- A command that has not spawned its daemon has none. -/
def Fresh {ι : Type*} (s : Starts ι) : Prop :=
  ∀ i, s.command i ≠ .daemonized → s.daemon i = .notStarted

section Simulation

variable {ι : Type*} [DecidableEq ι] {options : ι → Options} {daemon : ι → Daemon}
  {s s' : Starts ι}

omit [DecidableEq ι] in
theorem ofStarts_eq {t : State ι ι} (hserver : (ofStarts options s).server = t.server)
    (hport : s.port = t.port) (hfile : s.authtokenFile = t.authtokenFile)
    (hcommand : (ofStarts options s).command = t.command) : ofStarts options s = t := by
  obtain ⟨⟨server, port, file⟩, command⟩ := t
  obtain rfl : _ = server := hserver
  obtain rfl : s.port = port := hport
  obtain rfl : s.authtokenFile = file := hfile
  obtain rfl : _ = command := hcommand
  rfl

theorem ofStarts_command (s : Starts ι) (i : ι) (phase : CommandPhase) :
    (ofStarts options (s.setCommand i phase)).command =
      ((ofStarts options s).goto i (phaseOf (options i) phase)).command := by
  funext k
  by_cases hk : k = i
  · subst hk
    simp [ofStarts, State.goto, State.setCommand, Starts.setCommand]
  · simp [ofStarts, State.goto, State.setCommand, Starts.setCommand, hk]

theorem ofStarts_setCommand (s : Starts ι) (i : ι) (phase : CommandPhase) :
    ofStarts options (s.setCommand i phase) =
      (ofStarts options s).goto i (phaseOf (options i) phase) :=
  ofStarts_eq rfl rfl rfl (ofStarts_command s i phase)

theorem ofStarts_setDaemon (s : Starts ι) (i : ι) (phase : DaemonPhase) :
    (ofStarts options (s.setDaemon i phase)).server =
      ((ofStarts options s).toServers.setServer i (serverOf phase)).server :=
  Function.comp_update serverOf s.daemon i phase

omit [DecidableEq ι] in
theorem ofStarts_phase {i : ι} {phase : CommandPhase} (h : s.command i = phase) :
    ((ofStarts options s).command i).phase = phaseOf (options i) phase :=
  congrArg (phaseOf (options i)) h

omit [DecidableEq ι] in
theorem ofStarts_server {i : ι} {phase : DaemonPhase} (h : s.daemon i = phase) :
    (ofStarts options s).server i = serverOf phase :=
  congrArg serverOf h

theorem Fresh.setCommand (h : Fresh s) {i : ι} (hphase : s.command i ≠ .daemonized)
    (phase : CommandPhase) : Fresh (s.setCommand i phase) := by
  intro k hk
  by_cases hki : k = i
  · exact h k (hki ▸ hphase)
  · exact h k (by simpa [Starts.setCommand, hki] using hk)

theorem Fresh.setDaemon (h : Fresh s) {i : ι} (hserver : s.daemon i ≠ .notStarted)
    (phase : DaemonPhase) : Fresh (s.setDaemon i phase) := by
  intro k hk
  by_cases hki : k = i
  · subst hki
    exact absurd (h k hk) hserver
  · simpa [Starts.setDaemon, hki] using h k hk

/-- Each step of the start commands and their daemons is a step here. -/
theorem step_ofStarts {l : StartStep ι} (hfresh : Fresh s)
    (hstart : ∀ i ∈ commandOf l, options i = .start)
    (hstep : s.step (fun i => (daemon i).authToken.token) l = some s') :
    Fresh s' ∧
      (ofStarts options s).step options daemon (stepOf l) = some (ofStarts options s') := by
  cases l with
  | canConnect i =>
    simp only [Starts.step, Option.ite_none_right_eq_some, Option.some.injEq] at hstep
    obtain ⟨hphase, rfl⟩ := hstep
    refine ⟨hfresh.setCommand (by simp [hphase]) _, ?_⟩
    rw [stepOf, State.step, State.commandStep, ofStarts_phase hphase, ofStarts_setCommand,
      hstart i rfl, apply_ite (phaseOf Options.start)]
    rfl
  | fileExists i =>
    simp only [Starts.step, Option.ite_none_right_eq_some, Option.some.injEq] at hstep
    obtain ⟨hphase, rfl⟩ := hstep
    refine ⟨hfresh.setCommand (by simp [hphase]) _, ?_⟩
    rw [stepOf, State.step, State.commandStep, ofStarts_phase hphase, ofStarts_setCommand,
      hstart i rfl, apply_ite (phaseOf Options.start)]
    rfl
  | deleteFile i =>
    simp only [Starts.step, Option.ite_none_right_eq_some, Option.some.injEq] at hstep
    obtain ⟨hphase, rfl⟩ := hstep
    refine ⟨hfresh.setCommand (by simp [hphase]) _, ?_⟩
    rw [stepOf, State.step, State.commandStep, ofStarts_phase hphase]
    refine congrArg some ?_
    symm
    refine ofStarts_eq rfl rfl rfl ?_
    exact ofStarts_command s i .ready
  | daemonize i =>
    simp only [Starts.step, Option.ite_none_right_eq_some, Option.some.injEq] at hstep
    obtain ⟨hphase, rfl⟩ := hstep
    have hnone := hfresh i (by simp [hphase])
    refine ⟨fun k hk => ?_, ?_⟩
    · by_cases hki : k = i
      · subst hki
        exact absurd (by simp [Starts.setDaemon, Starts.setCommand]) hk
      · have hcommand : s.command k ≠ .daemonized := by
          simpa [Starts.setDaemon, Starts.setCommand, hki] using hk
        simpa [Starts.setDaemon, Starts.setCommand, hki] using hfresh k hcommand
    · refine (if_pos ⟨ofStarts_phase hphase, ofStarts_server hnone⟩).trans (congrArg some ?_)
      symm
      exact ofStarts_eq (ofStarts_setDaemon _ i .starting) rfl rfl
        (ofStarts_command s i .daemonized)
  | startServer i =>
    simp only [Starts.step, Option.ite_none_right_eq_some] at hstep
    obtain ⟨hserver, hstep⟩ := hstep
    have hstarting : (ofStarts options s).server i = .starting := ofStarts_server hserver
    cases hport : s.port with
    | none =>
      rw [hport] at hstep
      obtain rfl := Option.some.inj hstep
      refine ⟨hfresh.setDaemon (by simp [hserver]) _, ?_⟩
      have hfree : (ofStarts options s).port = none := hport
      rw [stepOf, State.step, if_pos hstarting, hfree]
      refine congrArg some ?_
      symm
      exact ofStarts_eq (ofStarts_setDaemon s i .started) rfl rfl rfl
    | some k =>
      rw [hport] at hstep
      obtain rfl := Option.some.inj hstep
      refine ⟨hfresh.setDaemon (by simp [hserver]) _, ?_⟩
      have hheld : (ofStarts options s).port = some k := hport
      rw [stepOf, State.step, if_pos hstarting, hheld]
      refine congrArg some ?_
      symm
      exact ofStarts_eq (ofStarts_setDaemon s i .exited) rfl rfl rfl
  | setupAuthToken i =>
    simp only [Starts.step, Option.ite_none_right_eq_some, Option.some.injEq] at hstep
    obtain ⟨hserver, rfl⟩ := hstep
    refine ⟨hfresh.setDaemon (by simp [hserver]) _, ?_⟩
    refine (if_pos (ofStarts_server hserver)).trans (congrArg some ?_)
    symm
    exact ofStarts_eq (ofStarts_setDaemon s i .handling) rfl rfl rfl
  | setupAuthTokenFails i left =>
    simp only [Starts.step, Option.ite_none_right_eq_some, Option.some.injEq] at hstep
    obtain ⟨hserver, rfl⟩ := hstep
    refine ⟨hfresh.setDaemon (by simp [hserver]) _, ?_⟩
    refine (if_pos (ofStarts_server hserver)).trans (congrArg some ?_)
    symm
    exact ofStarts_eq (ofStarts_setDaemon s i .exited) rfl rfl rfl

theorem run_ofStarts {file : Option Bytes} {ls : List (StartStep ι)}
    (hrun : (startSystem fun i => (daemon i).authToken.token).run { authtokenFile := file } ls =
      some s) (hstarts : ∀ l ∈ ls, ∀ i ∈ commandOf l, options i = .start) :
    (system options daemon).run (State.start options file) (ls.map stepOf) =
      some (ofStarts options s) := by
  have hmeet : (startSystem fun i => (daemon i).authToken.token).StepsMeet
      (fun _ l => ∀ i ∈ commandOf l, options i = .start) { authtokenFile := file } ls :=
    StepSystem.stepsMeet_of_forall fun l hl _ => hstarts l hl
  exact (StepSystem.run_map (ofStarts options) stepOf
    (fun _ _ _ hfresh hstart hstep => step_ofStarts hfresh hstart hstep)
    (fun _ _ => rfl) hmeet hrun).2

omit [DecidableEq ι] in
/-- The start commands send nothing to a server that would shut it down. -/
theorem orphaned_ofStarts {j : ι} (hserver : s.daemon j = .handling)
    (hfile : s.authtokenFile = none) : (ofStarts options s).Orphaned daemon j where
  handling := ofStarts_server hserver
  file := hfile
  asked := by
    rintro ⟨i, authtoken, hasked, -⟩
    cases hasked
  asking i authtoken hphase := by
    change phaseOf (options i) (s.command i) = _ at hphase
    cases hcommand : s.command i <;> rw [hcommand] at hphase <;> cases hphase
  socket i authtoken hphase := by
    change phaseOf (options i) (s.command i) = _ at hphase
    cases hcommand : s.command i <;> rw [hcommand] at hphase <;> cases hphase

/-- When start commands at once have lost the token of the server that runs, that server
runs for ever: whatever is done from then on with any commands, it is not shut down, its
file does not come back, and every command that had not begun fails. -/
theorem lost_token_orphans (options : ι → Options) (daemon : ι → Daemon) {file : Option Bytes}
    {ls : List (StartStep ι)}
    (hrun : (startSystem fun i => (daemon i).authToken.token).run { authtokenFile := file } ls =
      some s) (hstarts : ∀ l ∈ ls, ∀ i ∈ commandOf l, options i = .start)
    (hlost : ¬ TokenThere (fun i => (daemon i).authToken.token) s) :
    ∃ j, s.daemon j = .handling ∧
      (system options daemon).run (State.start options file) (ls.map stepOf) =
        some (ofStarts options s) ∧
      ∀ ls' t, (system options daemon).run (ofStarts options s) ls' = some t →
        t.server j = .handling ∧ t.authtokenFile = none ∧
          ∀ i, s.command i = .invoked → (t.command i).phase.Fails := by
  have hruns := run_ofStarts hrun hstarts
  have hsound := State.sound_of_run hruns
  simp only [TokenThere, not_forall] at hlost
  obtain ⟨j, -, hserver, hfile⟩ := hlost
  have hnone : s.authtokenFile = none :=
    (hsound.servers.handling j (ofStarts_server hserver)).resolve_right hfile
  refine ⟨j, hserver, hruns, fun ls' t hrun' => ?_⟩
  obtain ⟨horphaned, hfails⟩ := (orphaned_ofStarts hserver hnone).run hsound hrun'
  exact ⟨horphaned.handling, horphaned.file, fun i hi => hfails i (.inl ⟨_, ofStarts_phase hi⟩)⟩

end Simulation

/-- Two start commands, and then one that is to shut the server down. -/
theorem lost_token_orphans_two : ∃ s,
    (startSystem fun _ : ℕ => sampleDaemon.authToken.token).run { authtokenFile := none }
      [.canConnect 0, .canConnect 1, .fileExists 0, .daemonize 0, .startServer 0,
        .setupAuthToken 0, .fileExists 1, .deleteFile 1] = some s ∧
    ∃ j, s.daemon j = .handling ∧
      ∀ ls' t, (system (fun i : ℕ => if i < 2 then .start else .kill) fun _ => sampleDaemon).run
          (ofStarts (fun i => if i < 2 then .start else .kill) s) ls' = some t →
        t.server j = .handling := by
  have hstates : ((startSystem fun _ : ℕ => sampleDaemon.authToken.token).run
      { authtokenFile := none } [.canConnect 0, .canConnect 1, .fileExists 0, .daemonize 0,
        .startServer 0, .setupAuthToken 0, .fileExists 1, .deleteFile 1]).map
        (fun s => (s.port, s.daemon 0, s.authtokenFile)) = some (some 0, .handling, none) := by
    decide +kernel
  obtain ⟨s, hrun, hstate⟩ := Option.map_eq_some_iff.mp hstates
  obtain ⟨hport, hstate⟩ := Prod.mk.inj hstate
  obtain ⟨hserver, hfile⟩ := Prod.mk.inj hstate
  have hlost : ¬ TokenThere (fun _ : ℕ => sampleDaemon.authToken.token) s := by
    intro hthere
    cases hfile.symm.trans (hthere 0 hport hserver)
  obtain ⟨j, hj, -, hkept⟩ := lost_token_orphans (fun i => if i < 2 then .start else .kill)
    (fun _ => sampleDaemon) hrun (by decide) hlost
  exact ⟨s, hrun, j, hj, fun ls' t ht => (hkept ls' t ht).1⟩

end GroovyServ.ServerCLI
