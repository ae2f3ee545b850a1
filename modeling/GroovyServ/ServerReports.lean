import GroovyServ.ServerLifecycle

/-!
# What server commands report

A command that reports that the server is shut down has outlived the server that it has
asked, and a command that restarts the server ends with another one. A server without its
authtoken file is out of reach for every later command, unless a token is on its way to it.
-/

namespace GroovyServ.ServerCLI

open Server

def Phase.server? {κ : Type*} : Phase κ → Option κ
  | .pinging _ j _ => some j
  | .asking j _ => some j
  | .alreadyRunning j => some j
  | .startedUp j => some j
  | _ => none

def Phase.Waits {κ : Type*} (phase : Phase κ) : Prop := phase = .waitDown ∨ phase = .waitPort

/-- What a command has asked has exited once it waits no longer, and what it is connected
to afterwards is another server. -/
structure Command.Sound {κ : Type*} (w : Servers κ) (c : Command κ) : Prop where
  asked : c.phase.Waits ∨ c.phase = .shutDown → c.asked.isSome = true
  bound : ∀ j authtoken, c.asked = some (j, authtoken) →
    (w.server j).Listening ∨ w.server j = .exited
  down : ∀ j authtoken, c.asked = some (j, authtoken) → c.phase.Waits ∨ w.server j = .exited
  contacted : ∀ j, c.phase.server? = some j → (w.server j).Listening ∨ w.server j = .exited
  other : ∀ j authtoken k, c.asked = some (j, authtoken) → c.phase.server? = some k → k ≠ j

section Commands

variable {κ : Type*} {options : Options} {w : Servers κ} {phase phase' : Phase κ}

/-- The command is not connected nor about to be, does not wait and has nothing to report
of a server. -/
structure Phase.Idle (phase : Phase κ) : Prop where
  server : phase.server? = none
  waits : ¬ phase.Waits
  shutDown : phase ≠ .shutDown
  socket : ∀ purpose authtoken, phase ≠ .socket purpose authtoken

theorem Phase.idle_ite {b : Prop} [Decidable b] {p q : Phase κ} (hp : p.Idle) (hq : q.Idle) :
    (if b then p else q).Idle := by
  split_ifs
  · exact hp
  · exact hq

theorem Options.idle_returned (options : Options) (h : phase.Idle) :
    (options.returned phase).Idle :=
  Phase.idle_ite ⟨rfl, by simp [Phase.Waits], nofun, nofun⟩ h

theorem Options.idle_fileGone (options : Options) (caller : Caller) :
    (options.fileGone caller : Phase κ).Idle := by
  cases caller with
  | shutdownServer => exact options.idle_returned ⟨rfl, by simp [Phase.Waits], nofun, nofun⟩
  | startServerAsDaemon => exact ⟨rfl, by simp [Options.fileGone, Phase.Waits], nofun, nofun⟩

theorem Purpose.idle_failed (purpose : Purpose) : (purpose.failed : Phase κ).Idle := by
  rcases purpose with (_ | _) | _ <;>
    exact ⟨rfl, by simp [Purpose.failed, Phase.Waits], nofun, nofun⟩

theorem Servers.next_cases (h : w.next options phase = some phase') :
    (¬ phase.Waits ∧ phase'.Idle) ∨
      (∃ purpose authtoken, phase = .text purpose ∧ w.authtokenFile = some authtoken ∧
        phase' = .socket purpose authtoken) ∨
      (∃ purpose j authtoken, phase = .socket purpose authtoken ∧ w.port = some j ∧
        phase' = purpose.connected j authtoken) ∨
      (phase.Waits ∧ phase'.Waits) ∨
      (phase = .waitPort ∧ w.port = none ∧ phase' = options.returned .shutDown) := by
  cases phase with
  | canConnect caller =>
    obtain rfl := Option.some.inj h
    exact .inl ⟨by simp [Phase.Waits], Phase.idle_ite ⟨rfl, by simp [Phase.Waits], nofun, nofun⟩
      ⟨rfl, by simp [Phase.Waits], nofun, nofun⟩⟩
  | unconnected caller =>
    obtain rfl := Option.some.inj h
    exact .inl ⟨by simp [Phase.Waits], Phase.idle_ite ⟨rfl, by simp [Phase.Waits], nofun, nofun⟩
      (options.idle_fileGone caller)⟩
  | makeSure caller =>
    obtain rfl := Option.some.inj h
    exact .inl ⟨by simp [Phase.Waits], Phase.idle_ite ⟨rfl, by simp [Phase.Waits], nofun, nofun⟩
      ⟨rfl, by simp [Phase.Waits], nofun, nofun⟩⟩
  | connect purpose =>
    obtain rfl := Option.some.inj h
    exact .inl ⟨by simp [Phase.Waits], Phase.idle_ite ⟨rfl, by simp [Phase.Waits], nofun, nofun⟩
      purpose.idle_failed⟩
  | waitUp =>
    obtain rfl := Option.some.inj h
    exact .inl ⟨by simp [Phase.Waits], Phase.idle_ite ⟨rfl, by simp [Phase.Waits], nofun, nofun⟩
      ⟨rfl, by simp [Phase.Waits], nofun, nofun⟩⟩
  | text purpose =>
    rw [Servers.next] at h
    split at h
    · rename_i authtoken hfile
      cases h
      exact .inr (.inl ⟨purpose, authtoken, rfl, hfile, rfl⟩)
    · cases h
      exact .inl ⟨by simp [Phase.Waits], purpose.idle_failed⟩
  | socket purpose authtoken =>
    rw [Servers.next] at h
    split at h
    · rename_i j hport
      cases h
      exact .inr (.inr (.inl ⟨purpose, j, authtoken, rfl, hport, rfl⟩))
    · cases h
      exact .inl ⟨by simp [Phase.Waits], purpose.idle_failed⟩
  | waitDown =>
    obtain rfl := Option.some.inj h
    refine .inr (.inr (.inr (.inl ⟨.inl rfl, ?_⟩)))
    split_ifs
    · exact .inl rfl
    · exact .inr rfl
  | waitPort =>
    obtain rfl := Option.some.inj h
    split_ifs with hport
    · exact .inr (.inr (.inr (.inl ⟨.inr rfl, .inl rfl⟩)))
    · exact .inr (.inr (.inr (.inr ⟨rfl, Option.not_isSome_iff_eq_none.mp hport, rfl⟩)))
  | oldFile caller => cases h
  | pinging caller j authtoken => cases h
  | asking j authtoken => cases h
  | daemonize => cases h
  | notRunning => cases h
  | shutDown => cases h
  | alreadyRunning j => cases h
  | startedUp j => cases h
  | died => cases h

theorem PhaseMove.cases (h : PhaseMove options w phase phase') :
    (¬ phase.Waits ∧ ¬ phase'.Waits ∧ phase' ≠ .shutDown ∧
        ∀ k, phase'.server? = some k → phase.server? = some k ∨ w.port = some k) ∨
      (phase.Waits ∧ phase'.Waits) ∨
      (phase.Waits ∧ w.port = none ∧ phase' = options.returned .shutDown) := by
  have hidle : ∀ {p q : Phase κ}, ¬ p.Waits → q.Idle → ¬ p.Waits ∧ ¬ q.Waits ∧ q ≠ .shutDown ∧
      ∀ k, q.server? = some k → p.server? = some k ∨ w.port = some k := by
    intro p q hp hq
    refine ⟨hp, hq.waits, hq.shutDown, fun k hk => ?_⟩
    cases hq.server.symm.trans hk
  cases h with
  | next h =>
    rcases Servers.next_cases h with ⟨hwaits, hq⟩ | ⟨purpose, authtoken, rfl, -, rfl⟩ |
      ⟨purpose, j, authtoken, rfl, hport, rfl⟩ | hwaits | ⟨rfl, hport, rfl⟩
    · exact .inl (hidle hwaits hq)
    · exact .inl ⟨by simp [Phase.Waits], by simp [Phase.Waits], nofun, nofun⟩
    · left
      cases purpose with
      | ping caller =>
        exact ⟨by simp [Phase.Waits], by simp [Purpose.connected, Phase.Waits], nofun,
          fun k hk => .inr (hport.trans hk)⟩
      | shutdown =>
        exact ⟨by simp [Phase.Waits], by simp [Purpose.connected, Phase.Waits], nofun,
          fun k hk => .inr (hport.trans hk)⟩
    · exact .inr (.inl hwaits)
    · exact .inr (.inr ⟨.inr rfl, hport, rfl⟩)
  | fileDeleted caller =>
    exact .inl (hidle (by simp [Phase.Waits]) (options.idle_fileGone caller))
  | daemonized =>
    exact .inl (hidle (by simp [Phase.Waits]) ⟨rfl, by simp [Phase.Waits], nofun, nofun⟩)
  | answered caller j authtoken status =>
    left
    rcases caller with _ | _ | _
    · exact ⟨by simp [Phase.Waits], by simp [ServerCLI.answered, Phase.Waits], nofun,
        fun k hk => .inl hk⟩
    · exact hidle (by simp [Phase.Waits]) (Phase.idle_ite ⟨rfl, by simp [Phase.Waits], nofun, nofun⟩
        ⟨rfl, by simp [Phase.Waits], nofun, nofun⟩)
    · rw [ServerCLI.answered]
      split_ifs
      · exact ⟨by simp [Phase.Waits], by simp [Phase.Waits], nofun, fun k hk => .inl hk⟩
      · exact hidle (by simp [Phase.Waits]) ⟨rfl, by simp [Phase.Waits], nofun, nofun⟩
  | pingBreaks caller j authtoken =>
    exact .inl (hidle (by simp [Phase.Waits]) (Purpose.idle_failed _))
  | breaks j authtoken =>
    exact .inl (hidle (by simp [Phase.Waits]) ⟨rfl, by simp [Phase.Waits], nofun, nofun⟩)

theorem Phase.Waits.server (h : phase.Waits) : phase.server? = none := by
  rcases h with rfl | rfl <;> rfl

theorem PhaseMove.of_socket {purpose : Purpose} {authtoken : Bytes}
    (h : PhaseMove options w phase (.socket purpose authtoken)) :
    w.authtokenFile = some authtoken := by
  generalize hphase : (Phase.socket purpose authtoken : Phase κ) = phase' at h
  have hidle : ¬ phase'.Idle := fun h => h.socket purpose authtoken hphase.symm
  cases h with
  | next h =>
    rcases Servers.next_cases h with ⟨-, hq⟩ | ⟨purpose', authtoken', -, hfile, rfl⟩ |
      ⟨purpose', j, authtoken', -, -, rfl⟩ | ⟨-, hwaits⟩ | ⟨-, -, rfl⟩
    · exact absurd hq hidle
    · cases hphase
      exact hfile
    · cases purpose' <;> cases hphase
    · rcases hwaits with rfl | rfl <;> cases hphase
    · rw [Options.returned] at hphase
      split_ifs at hphase
  | fileDeleted caller => exact absurd (options.idle_fileGone caller) hidle
  | daemonized => cases hphase
  | answered caller j authtoken status =>
    rcases caller with _ | _ | _
    · cases hphase
    · rw [ServerCLI.answered] at hphase
      split_ifs at hphase
    · rw [ServerCLI.answered] at hphase
      split_ifs at hphase
  | pingBreaks caller j authtoken => exact absurd (Purpose.idle_failed _) hidle
  | breaks j authtoken => cases hphase

theorem PhaseMove.of_asking {j : κ} {authtoken : Bytes}
    (h : PhaseMove options w phase (.asking j authtoken)) :
    phase = .socket .shutdown authtoken := by
  generalize hphase : (Phase.asking j authtoken : Phase κ) = phase' at h
  have hidle : ¬ phase'.Idle := by
    rintro ⟨hserver, -⟩
    rw [← hphase] at hserver
    cases hserver
  cases h with
  | next h =>
    rcases Servers.next_cases h with ⟨-, hq⟩ | ⟨purpose', authtoken', -, hfile, rfl⟩ |
      ⟨purpose', j', authtoken', rfl, -, rfl⟩ | ⟨-, hwaits⟩ | ⟨-, -, rfl⟩
    · exact absurd hq hidle
    · cases hphase
    · cases purpose' <;> cases hphase
      rfl
    · rcases hwaits with rfl | rfl <;> cases hphase
    · rw [Options.returned] at hphase
      split_ifs at hphase
  | fileDeleted caller => exact absurd (options.idle_fileGone caller) hidle
  | daemonized => cases hphase
  | answered caller j authtoken status =>
    rcases caller with _ | _ | _
    · cases hphase
    · rw [ServerCLI.answered] at hphase
      split_ifs at hphase
    · rw [ServerCLI.answered] at hphase
      split_ifs at hphase
  | pingBreaks caller j authtoken => exact absurd (Purpose.idle_failed _) hidle
  | breaks j authtoken => cases hphase

variable {daemon : κ → Daemon} {asked : κ → Prop} {fails : Prop} {w' : Servers κ}
  {c c' : Command κ}

theorem CommandMove.of_asked (h : CommandMove options w c c') {j : κ} {authtoken : Bytes}
    (hasked : c'.asked = some (j, authtoken)) :
    c.asked = some (j, authtoken) ∨ c.phase = .asking j authtoken := by
  cases h with
  | rests => exact .inl hasked
  | goes hgoes => exact .inl hasked
  | asks hasks =>
    obtain ⟨rfl, rfl⟩ := Prod.mk.inj (Option.some.inj hasked)
    exact .inr hasks

theorem CommandMove.of_asking (h : CommandMove options w c c') {j : κ} {authtoken : Bytes}
    (hphase : c'.phase = .asking j authtoken) :
    c.phase = .asking j authtoken ∨ c.phase = .socket .shutdown authtoken := by
  cases h with
  | rests => exact .inl hphase
  | goes hgoes =>
    dsimp only at hphase
    exact .inr (hphase ▸ hgoes).of_asking
  | asks hasks => cases hphase

theorem CommandMove.of_socket (h : CommandMove options w c c') {purpose : Purpose}
    {authtoken : Bytes} (hphase : c'.phase = .socket purpose authtoken) :
    c.phase = .socket purpose authtoken ∨ w.authtokenFile = some authtoken := by
  cases h with
  | rests => exact .inl hphase
  | goes hgoes =>
    dsimp only at hphase
    exact .inr (hphase ▸ hgoes).of_socket
  | asks hasks => cases hphase

theorem Command.Sound.commandMove (h : c.Sound w) (hw : w.Sound daemon)
    (hmove : CommandMove options w c c') : c'.Sound w := by
  cases hmove with
  | rests => exact h
  | @asks j authtoken hphase =>
    refine ⟨fun _ => rfl, fun j' authtoken' hasked => ?_, fun _ _ _ => .inl (.inl rfl), nofun,
      nofun⟩
    obtain ⟨rfl, rfl⟩ := Prod.mk.inj (Option.some.inj hasked)
    exact h.contacted j (by rw [hphase]; rfl)
  | @goes phase hphase =>
    rcases hphase.cases with ⟨hbefore, hafter, hshutDown, hserver⟩ | ⟨hbefore, hafter⟩ |
      ⟨hbefore, hport, rfl⟩
    · have hdown : ∀ j authtoken, c.asked = some (j, authtoken) → w.server j = .exited :=
        fun j authtoken hasked => (h.down j authtoken hasked).resolve_left hbefore
      refine
        { asked := fun hwaits => absurd hwaits (not_or.mpr ⟨hafter, hshutDown⟩)
          bound := h.bound
          down := fun j authtoken hasked => .inr (hdown j authtoken hasked)
          contacted := fun k hk => ?_
          other := fun j authtoken k hasked hk => ?_ }
      · rcases hserver k hk with hk | hport
        · exact h.contacted k hk
        · exact .inl ((hw.port k).mp hport)
      · rcases hserver k hk with hk | hport
        · exact h.other j authtoken k hasked hk
        · rintro rfl
          have hlistening := (hw.port k).mp hport
          rw [hdown k authtoken hasked] at hlistening
          simp [ServerPhase.Listening] at hlistening
    · exact
        { asked := fun _ => h.asked (.inl hbefore)
          bound := h.bound
          down := fun _ _ _ => .inl hafter
          contacted := fun k hk => by cases hafter.server.symm.trans hk
          other := fun _ _ k _ hk => by cases hafter.server.symm.trans hk }
    · have hnone : (options.returned .shutDown : Phase κ).server? = none := by
        rw [Options.returned]
        split_ifs <;> rfl
      exact
        { asked := fun _ => h.asked (.inl hbefore)
          bound := h.bound
          down := fun j authtoken hasked => .inr ((h.bound j authtoken hasked).resolve_left
            fun hlistening => by cases hport.symm.trans ((hw.port j).mpr hlistening))
          contacted := fun k hk => by cases hnone.symm.trans hk
          other := fun _ _ k _ hk => by cases hnone.symm.trans hk }

theorem Command.Sound.serverMove [DecidableEq κ] (h : c.Sound w)
    (hmove : ServerMove daemon asked fails w w') : c.Sound w' := by
  have hbound : ∀ j, (w.server j).Listening ∨ w.server j = .exited →
      (w'.server j).Listening ∨ w'.server j = .exited := by
    intro j hj
    rcases hj with hlistening | hexited
    · exact hmove.listening hlistening
    · exact .inr (hmove.exited hexited)
  exact
    { asked := h.asked
      bound := fun j authtoken hasked => hbound j (h.bound j authtoken hasked)
      down := fun j authtoken hasked => (h.down j authtoken hasked).imp_right hmove.exited
      contacted := fun j hj => hbound j (h.contacted j hj)
      other := h.other }

end Commands

structure State.Sound {ι κ : Type*} (daemon : κ → Daemon) (s : State ι κ) : Prop where
  servers : s.toServers.Sound daemon
  commands : ∀ i, (s.command i).Sound s.toServers

section Runs

variable {ι κ : Type*} [DecidableEq ι] [DecidableEq κ] {options : ι → Options}
  {daemon : κ → Daemon} {s s' : State ι κ} {l : Step ι κ} {ls : List (Step ι κ)}

theorem State.Sound.step (h : s.Sound daemon) (hstep : s.step options daemon l = some s') :
    s'.Sound daemon := by
  obtain ⟨hservers, hcommands⟩ := step_moves hstep
  exact ⟨hservers.sound h.servers, fun i =>
    ((h.commands i).commandMove h.servers (hcommands i)).serverMove hservers⟩

omit [DecidableEq ι] [DecidableEq κ] in
theorem State.sound_start (options : ι → Options) (daemon : κ → Daemon) (file : Option Bytes) :
    (State.start options file : State ι κ).Sound daemon where
  servers :=
    { port := fun _ => iff_of_false nofun (by simp [State.start, ServerPhase.Listening])
      handling := nofun
      shutDown := nofun }
  commands i :=
    { asked := by simp [State.start, Phase.Waits]
      bound := nofun
      down := nofun
      contacted := nofun
      other := nofun }

theorem State.sound_of_run {file : Option Bytes}
    (hrun : (system options daemon).run (State.start options file) ls = some s) :
    s.Sound daemon :=
  StepSystem.run_invariant (fun _ _ _ h hstep => h.step hstep)
    (State.sound_start options daemon file) hrun

/-- The first command starts a server, the second shuts it down and the others restart it. -/
def sampleOptions (i : ℕ) : Options := if i = 0 then .start else if i = 1 then .kill else .restart

def sampleDaemon : Daemon where
  authToken := .create none 51966
  connection := GroovyClient.sampleConnection

def sampleStart : List (Step ℕ ℕ) :=
  [.command 0, .command 0, .daemonize 0 0, .startServer 0, .setupAuthToken 0]

def sampleShutdown (i j : ℕ) : List (Step ℕ ℕ) :=
  [.command i, .command i, .command i, .command i, .command i, .answer i 0, .command i,
    .command i, .command i, .command i, .shutdown i, .command i, .exit j, .command i]

def sampleRestart : List (Step ℕ ℕ) :=
  sampleStart ++ sampleShutdown 2 0 ++
    [.command 2, .command 2, .daemonize 2 1, .startServer 1, .setupAuthToken 1, .command 2,
      .command 2, .command 2, .command 2, .answer 2 0] ++ sampleShutdown 1 1

/-- As long as every token is saved, whatever a command finds in the file is the token of
the server that is running: there is no old authtoken file to be deleted. -/
theorem fileCurrent_of_run (options : ι → Options) (daemon : κ → Daemon)
    (hsaves : ∀ j left, .setupAuthTokenFails j left ∉ ls) :
    (system options daemon).StatesMeet (fun s => s.FileCurrent daemon)
      (State.start options none) ls := by
  have hmeet : (system options daemon).StepsMeet
      (fun _ l => ¬ ∃ j left, l = .setupAuthTokenFails j left) (State.start options none) ls :=
    StepSystem.stepsMeet_of_forall fun l hl _ ⟨j, left, heq⟩ => hsaves j left (heq ▸ hl)
  have hstart : (State.start options none : State ι κ).FileCurrent daemon := by
    intro authtoken hfile
    cases hfile
  have hstates : (system options daemon).StatesMeet
      (fun s => s.Sound daemon ∧ s.FileCurrent daemon) (State.start options none) ls :=
    hmeet.statesMeet (fun s l s' h hsaves hstep => ⟨h.1.step hstep,
      (step_moves hstep).1.fileCurrent h.1.servers h.2 hsaves⟩)
      ⟨State.sound_start options daemon none, hstart⟩
  exact hstates.mono fun _ h => h.2

theorem fileCurrent_of_run_kill :
    (system sampleOptions fun _ : ℕ => sampleDaemon).StatesMeet
      (fun s => s.FileCurrent fun _ => sampleDaemon) (State.start sampleOptions none)
      sampleRestart := by
  refine fileCurrent_of_run sampleOptions (fun _ => sampleDaemon) fun j left => ?_
  simp [sampleRestart, sampleStart, sampleShutdown]

/-- The server handles requests, but its file is gone, and no token is on its way to it
that it would obey. -/
structure State.Orphaned (daemon : κ → Daemon) (s : State ι κ) (j : κ) : Prop where
  handling : s.server j = .handling
  file : s.authtokenFile = none
  asked : ¬ s.Asked daemon j
  asking : ∀ i authtoken, (s.command i).phase = .asking j authtoken →
    (daemon j).obeys authtoken = false
  socket : ∀ i authtoken, (s.command i).phase = .socket .shutdown authtoken →
    (daemon j).obeys authtoken = false

theorem State.Orphaned.step (hsound : s.Sound daemon) {j : κ} (h : s.Orphaned daemon j)
    (hstep : s.step options daemon l = some s') : s'.Orphaned daemon j := by
  obtain ⟨hmove, hcommands⟩ := step_moves hstep
  obtain ⟨hhandling, hfile⟩ := hmove.handling hsound.servers h.handling h.asked
  have hnone : s'.authtokenFile = none := by
    rcases hfile with hfile | hfile
    · exact hfile.trans h.file
    · exact hfile
  refine ⟨hhandling, hnone, ?_, fun i authtoken hphase => ?_, fun i authtoken hphase => ?_⟩
  · rintro ⟨i, authtoken, hasked, hobeys⟩
    rcases (hcommands i).of_asked hasked with hasked | hphase
    · exact h.asked ⟨i, authtoken, hasked, hobeys⟩
    · cases (h.asking i authtoken hphase).symm.trans hobeys
  · rcases (hcommands i).of_asking hphase with hphase | hphase
    · exact h.asking i authtoken hphase
    · exact h.socket i authtoken hphase
  · rcases (hcommands i).of_socket hphase with hphase | hfile
    · exact h.socket i authtoken hphase
    · cases h.file.symm.trans hfile

def Phase.Fails (phase : Phase κ) : Prop :=
  (∃ caller, phase = .canConnect caller) ∨ (∃ caller, phase = .makeSure caller) ∨ phase = .died

theorem State.Orphaned.fails (hsound : s.Sound daemon) {j : κ} (h : s.Orphaned daemon j)
    (hstep : s.step options daemon l = some s') {i : ι} (hphase : (s.command i).phase.Fails) :
    (s'.command i).phase.Fails := by
  have hmove := (step_moves hstep).2 i
  have hport : s.port = some j := (hsound.servers.port j).mpr (.inr (.inl h.handling))
  generalize s'.command i = c' at hmove
  cases hmove with
  | rests => exact hphase
  | @goes phase' hgoes =>
    rcases hphase with ⟨caller, hphase⟩ | ⟨caller, hphase⟩ | hphase
    · rw [hphase] at hgoes
      cases hgoes with
      | next hnext =>
        rw [Servers.next, hport] at hnext
        cases hnext
        exact .inr (.inl ⟨caller, rfl⟩)
    · rw [hphase] at hgoes
      cases hgoes with
      | next hnext =>
        rw [Servers.next, h.file] at hnext
        cases hnext
        exact .inr (.inr rfl)
    · rw [hphase] at hgoes
      cases hgoes with
      | next hnext => cases hnext
  | asks hasks =>
    rcases hphase with ⟨caller, hphase⟩ | ⟨caller, hphase⟩ | hphase <;>
      cases hphase.symm.trans hasks

theorem State.Orphaned.run (hsound : s.Sound daemon) {j : κ} (h : s.Orphaned daemon j)
    (hrun : (system options daemon).run s ls = some s') :
    s'.Orphaned daemon j ∧ ∀ i, (s.command i).phase.Fails → (s'.command i).phase.Fails :=
  (StepSystem.run_invariant (I := fun t => t.Sound daemon ∧ t.Orphaned daemon j ∧
      ∀ i, (s.command i).phase.Fails → (t.command i).phase.Fails)
    (fun _ _ _ h hstep => ⟨h.1.step hstep, h.2.1.step h.1 hstep, fun i hi =>
      h.2.1.fails h.1 hstep (h.2.2 i hi)⟩)
    ⟨hsound, h, fun _ hi => hi⟩ hrun).2

/-- The token can stand in a header line, and connections from the same machine are let in. -/
structure Daemon.Usable (d : Daemon) : Prop where
  localLoopback : d.connection.socket.localLoopback = true
  token_ne_nil : d.authToken.token ≠ []
  plain : lf ∉ d.authToken.token ∧ Trimmed d.authToken.token

theorem Daemon.Usable.answers {d : Daemon} (h : d.Usable) :
    d.answers (GroovyClient.pingRequest d.authToken.token) ExitStatus.success.code = true := by
  have hworker : d.worker (GroovyClient.pingRequest d.authToken.token) =
      closeSafely false ExitStatus.success.code := by
    have hping := GroovyClient.runRequestWorker_ping
      (a := { d.connection with
        server := { d.connection.server with authToken := some d.authToken } })
      rfl h.token_ne_nil (.inl h.localLoopback) h.plain []
    rwa [List.append_nil] at hping
  rw [Daemon.answers, hworker]
  rfl

theorem Daemon.Usable.obeys {d : Daemon} (h : d.Usable) :
    d.obeys d.authToken.token = true := by
  have hworker : d.worker (GroovyClient.shutdownRequest d.authToken.token) =
      closeSafely false ExitStatus.success.code ++ [.shutdownServer] := by
    have hshutdown := GroovyClient.runRequestWorker_shutdown
      (a := { d.connection with
        server := { d.connection.server with authToken := some d.authToken } })
      rfl h.token_ne_nil (.inl h.localLoopback) h.plain []
    rwa [List.append_nil] at hshutdown
  rw [Daemon.obeys, hworker]
  rfl

def CanExit (options : ι → Options) (daemon : κ → Daemon) (s : State ι κ) (j : κ) : Prop :=
  ∃ s', (system options daemon).Reaches (fun _ _ => True) s s' ∧ s'.server j = .exited

theorem CanExit.head {j : κ} (hstep : s.step options daemon l = some s')
    (h : CanExit options daemon s' j) : CanExit options daemon s j := by
  obtain ⟨t, hreach, hexited⟩ := h
  exact ⟨t, hreach.head trivial hstep, hexited⟩

theorem canExit_of_shutDown {j : κ} (hserver : s.server j = .shutDown) :
    CanExit options daemon s j := by
  have hexit : s.step options daemon (.exit j) =
      some { s with toServers := { s.toServers.setServer j .exited with port := none } } :=
    if_pos hserver
  exact CanExit.head hexit ⟨_, .refl _, Servers.setServer_self _ j .exited⟩

theorem canExit_of_asked {j : κ} (hserver : s.server j = .handling) (hasked : s.Asked daemon j) :
    CanExit options daemon s j := by
  obtain ⟨i, authtoken, hasked, hobeys⟩ := hasked
  have hshutdown : s.step options daemon (.shutdown i) =
      some { s with
        toServers := { s.toServers.setServer j .shutDown with authtokenFile := none } } := by
    rw [State.step, hasked]
    exact if_pos ⟨.inl hserver, hobeys⟩
  exact (canExit_of_shutDown (Servers.setServer_self _ j .shutDown)).head hshutdown

theorem canExit_of_asking {j : κ} (hserver : s.server j = .handling) {i : ι} {authtoken : Bytes}
    (hphase : (s.command i).phase = .asking j authtoken)
    (hobeys : (daemon j).obeys authtoken = true) : CanExit options daemon s j := by
  have hasks : s.step options daemon (.command i) =
      some (s.setCommand i ⟨.waitDown, some (j, authtoken)⟩) := by
    rw [State.step, State.commandStep, hphase]
  refine CanExit.head hasks (canExit_of_asked hserver ⟨i, authtoken, ?_, hobeys⟩)
  change (Function.update s.command i _ i).asked = _
  rw [Function.update_self]

theorem CanExit.next {j : κ} {i : ι} {phase phase' : Phase κ}
    (hphase : (s.command i).phase = phase) (hnext : s.next (options i) phase = some phase')
    (h : CanExit options daemon (s.goto i phase') j) : CanExit options daemon s j := by
  refine CanExit.head (l := .command i) ?_ h
  rw [State.step, State.commandStep, hphase]
  cases phase with
  | oldFile caller => cases hnext
  | asking k authtoken => cases hnext
  | _ =>
    dsimp only
    rw [hnext]
    rfl

omit [DecidableEq κ] in
theorem State.goto_goto (s : State ι κ) (i : ι) (phase phase' : Phase κ) :
    (s.goto i phase).goto i phase' = s.goto i phase' := by
  simp [State.goto, State.setCommand]

omit [DecidableEq κ] in
theorem State.goto_phase (s : State ι κ) (i : ι) (phase : Phase κ) :
    ((s.goto i phase).command i).phase = phase := by
  simp [State.goto, State.setCommand]

theorem CanExit.goto_next {j : κ} {i : ι} {phase phase' : Phase κ}
    (hnext : s.next (options i) phase = some phase')
    (h : CanExit options daemon (s.goto i phase') j) :
    CanExit options daemon (s.goto i phase) j := by
  refine CanExit.next (s.goto_phase i phase) hnext ?_
  rwa [State.goto_goto]

theorem canExit_of_socket (hsound : s.Sound daemon) {j : κ} (hserver : s.server j = .handling)
    {i : ι} {authtoken : Bytes} (hphase : (s.command i).phase = .socket .shutdown authtoken)
    (hobeys : (daemon j).obeys authtoken = true) : CanExit options daemon s j := by
  have hport : s.port = some j := (hsound.servers.port j).mpr (.inr (.inl hserver))
  have hnext : s.next (options i) (.socket .shutdown authtoken) = some (.asking j authtoken) := by
    rw [Servers.next, hport]
    rfl
  exact .next hphase hnext (canExit_of_asking hserver (s.goto_phase i _) hobeys)

theorem canExit_of_connect {j k : κ} {i : ι} {purpose : Purpose} {authtoken : Bytes}
    (hfile : s.authtokenFile = some authtoken) (hport : s.port = some k)
    (h : CanExit options daemon (s.goto i (purpose.connected k authtoken)) j) :
    CanExit options daemon (s.goto i (.connect purpose)) j := by
  have hconnect : s.next (options i) (.connect purpose) = some (.text purpose) := by
    rw [Servers.next, hfile]
    rfl
  have htext : s.next (options i) (.text purpose) = some (.socket purpose authtoken) := by
    rw [Servers.next, hfile]
  have hsocket : s.next (options i) (.socket purpose authtoken) =
      some (purpose.connected k authtoken) := by
    rw [Servers.next, hport]
  exact .goto_next hconnect (.goto_next htext (.goto_next hsocket h))

theorem step_answer {i : ι} {caller : Option Caller} {j : κ} {authtoken : Bytes}
    (hphase : (s.command i).phase = .pinging caller j authtoken)
    (hserver : s.server j = .handling) {status : ℤ}
    (hanswers : (daemon j).answers (GroovyClient.pingRequest authtoken) status = true) :
    s.step options daemon (.answer i status) = some (s.goto i (answered j status caller)) := by
  rw [State.step, hphase]
  exact if_pos ⟨.inl hserver, hanswers⟩

/-- A command that has just been invoked reads the token from the file, makes sure that the
server is there, and shuts it down. -/
theorem canExit_of_file (hsound : s.Sound daemon) {j : κ} (hserver : s.server j = .handling)
    (husable : (daemon j).Usable)
    (hfile : s.authtokenFile = some (daemon j).authToken.token) {i : ι}
    (hphase : (s.command i).phase = .canConnect .shutdownServer) : CanExit options daemon s j := by
  have hport : s.port = some j := (hsound.servers.port j).mpr (.inr (.inl hserver))
  have hshutdown : CanExit options daemon (s.goto i (.connect .shutdown)) j :=
    canExit_of_connect hfile hport
      (canExit_of_asking hserver (s.goto_phase i _) husable.obeys)
  have hping : CanExit options daemon (s.goto i (.connect (.ping (some .shutdownServer)))) j := by
    have hanswer : (s.goto i (.pinging (some .shutdownServer) j (daemon j).authToken.token)).step
        options daemon (.answer i ExitStatus.success.code) =
          some (s.goto i (.connect .shutdown)) := by
      rw [step_answer (s.goto_phase i _) hserver husable.answers, State.goto_goto]
      rfl
    exact canExit_of_connect hfile hport (hshutdown.head hanswer)
  have hcanConnect : s.next (options i) (.canConnect .shutdownServer) =
      some (.makeSure .shutdownServer) := by
    rw [Servers.next, hport]
    rfl
  have hmakeSure : s.next (options i) (.makeSure .shutdownServer) =
      some (.connect (.ping (some .shutdownServer))) := by
    rw [Servers.next, hfile]
    rfl
  exact .next hphase hcanConnect (.goto_next hmakeSure hping)

/-- While there is a command that can still be invoked to shut it down, a server can be shut
down by the commands if and only if it has not been orphaned; otherwise every command that
begins fails, and the server goes on for ever. -/
theorem canExit_iff (husable : ∀ j, (daemon j).Usable) {file : Option Bytes}
    (hrun : (system options daemon).run (State.start options file) ls = some s) {j : κ}
    (hserver : s.server j = .handling) {i : ι}
    (hphase : (s.command i).phase = .canConnect .shutdownServer) :
    (CanExit options daemon s j ↔ ¬ s.Orphaned daemon j) ∧
      (s.Orphaned daemon j → ∀ ls' s', (system options daemon).run s ls' = some s' →
        s'.server j = .handling ∧ s'.authtokenFile = none ∧
          ∀ i, (s.command i).phase.Fails → (s'.command i).phase.Fails) := by
  have hsound := State.sound_of_run hrun
  refine ⟨⟨?_, fun horphaned => ?_⟩, fun horphaned ls' s' hrun' => ?_⟩
  · rintro ⟨s', ⟨ls', hrun', -⟩, hexited⟩ horphaned
    cases (horphaned.run hsound hrun').1.handling.symm.trans hexited
  · by_contra hnot
    refine horphaned ⟨hserver, ?_, fun hasked => hnot (canExit_of_asked hserver hasked),
      fun i authtoken hphase => ?_, fun i authtoken hphase => ?_⟩
    · rcases hsound.servers.handling j hserver with hnone | hfile
      · exact hnone
      · exact absurd (canExit_of_file hsound hserver (husable j) hfile hphase) hnot
    · exact Bool.eq_false_iff.mpr fun hobeys => hnot (canExit_of_asking hserver hphase hobeys)
    · exact Bool.eq_false_iff.mpr fun hobeys =>
        hnot (canExit_of_socket hsound hserver hphase hobeys)
  · obtain ⟨horphaned', hfails⟩ := horphaned.run hsound hrun'
    exact ⟨horphaned'.handling, horphaned'.file, hfails⟩

end Runs

theorem canExit_iff_started : ∃ s, (system sampleOptions fun _ : ℕ => sampleDaemon).run
      (State.start sampleOptions none) sampleStart = some s ∧
    (CanExit sampleOptions (fun _ => sampleDaemon) s 0 ↔
      ¬ s.Orphaned (fun _ => sampleDaemon) 0) := by
  have husable : sampleDaemon.Usable :=
    { localLoopback := rfl
      token_ne_nil := AuthToken.create_ne_nil none 51966
      plain := ⟨(usable_generated 51966).line, (usable_generated 51966).trimmed⟩ }
  have hstates : ((system sampleOptions fun _ : ℕ => sampleDaemon).run
      (State.start sampleOptions none) sampleStart).map
        (fun s => (s.server 0, (s.command 1).phase)) =
      some (.handling, .canConnect .shutdownServer) := by
    decide +kernel
  obtain ⟨s, hrun, hstate⟩ := Option.map_eq_some_iff.mp hstates
  obtain ⟨hserver, hphase⟩ := Prod.mk.inj hstate
  exact ⟨s, hrun, (canExit_iff (fun _ => husable) hrun hserver hphase).1⟩

end GroovyServ.ServerCLI
