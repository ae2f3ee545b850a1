import GroovyServ.GroovyRequests
import GroovyServ.StepSystem

/-!
# Server commands on one port

Any number of commands start, kill or restart the server on a port, each as
`ServerCLI.invoke` with its `GroovyClient`, while the daemons that they spawn start, answer
and shut down; steps are taken in any order. Saving the token is one step, and so are the
checks of the file in `makeSureServerAvailableOrDie`. A server that listens holds the port,
and the file has its token, if any.
-/

namespace GroovyServ.ServerCLI

open Server

inductive Options where
  | start
  | kill
  | restart
  deriving DecidableEq

inductive Caller where
  | shutdownServer
  | startServerAsDaemon
  deriving DecidableEq

/-- What the client connects for: `isServerAvailable`, called to make sure that there is a
server or in the loop that waits for one, or the shutdown. -/
inductive Purpose where
  | ping (caller : Option Caller)
  | shutdown
  deriving DecidableEq

/-- What a command does next. `connect`, `text` and `socket` are the three parts of
`GroovyClient.connect`, a command that is `asking` writes its shutdown to a connection,
`waitUp` is the loop of `startServerAsDaemon`, `waitDown` and
`waitPort` the two conditions of that of `shutdownServer`. -/
inductive Phase (κ : Type*) where
  | canConnect (caller : Caller)
  | unconnected (caller : Caller)
  | oldFile (caller : Caller)
  | makeSure (caller : Caller)
  | connect (purpose : Purpose)
  | text (purpose : Purpose)
  | socket (purpose : Purpose) (authtoken : Bytes)
  | pinging (caller : Option Caller) (server : κ) (authtoken : Bytes)
  | asking (server : κ) (authtoken : Bytes)
  | waitDown
  | waitPort
  | daemonize
  | waitUp
  | notRunning
  | shutDown
  | alreadyRunning (server : κ)
  | startedUp (server : κ)
  | died
  deriving DecidableEq

/-- `asked` is the server that the command has sent its shutdown to, with the token that it
has sent. -/
structure Command (κ : Type*) where
  phase : Phase κ
  asked : Option (κ × Bytes) := none

def Options.begin : Options → Caller
  | .start => .startServerAsDaemon
  | .kill => .shutdownServer
  | .restart => .shutdownServer

def Options.returned {κ : Type*} (options : Options) (phase : Phase κ) : Phase κ :=
  if options = .restart then .canConnect .startServerAsDaemon else phase

def Options.fileGone {κ : Type*} (options : Options) : Caller → Phase κ
  | .shutdownServer => options.returned .notRunning
  | .startServerAsDaemon => .daemonize

/-- What an exception of `connect` or of a request leads to. -/
def Purpose.failed {κ : Type*} : Purpose → Phase κ
  | .ping none => .waitUp
  | _ => .died

def Purpose.connected {κ : Type*} (server : κ) (authtoken : Bytes) : Purpose → Phase κ
  | .ping caller => .pinging caller server authtoken
  | .shutdown => .asking server authtoken

/-- What the status that answers a ping leads to. The status of the ping is still there
when `waitForExit` is called after the shutdown, which therefore does not wait. -/
def answered {κ : Type*} (server : κ) (status : ℤ) : Option Caller → Phase κ
  | none => .startedUp server
  | some caller =>
    if status = ExitStatus.success.code then
      match caller with
      | .shutdownServer => .connect .shutdown
      | .startServerAsDaemon => .alreadyRunning server
    else .died

/-- How far a daemon's `GroovyServer` is. `shutDown` has deleted the authtoken file. -/
inductive ServerPhase where
  | notStarted
  | starting
  | started
  | handling
  | shutDown
  | exited
  deriving DecidableEq

/-- A server, as what its connections from the same machine have in common. -/
structure Daemon where
  authToken : AuthToken
  connection : Accepted

def Daemon.worker (d : Daemon) (request : Bytes) : List Action :=
  runRequestWorker { d.connection with
    server := { d.connection.server with authToken := some d.authToken }
    bytes := request }

/-- Whether a status may be what a request is answered with: handlers send any status. -/
def Daemon.answers (d : Daemon) (request : Bytes) (status : ℤ) : Bool :=
  (d.worker request).any fun action =>
    match action with
    | .sendStatus sent _ => decide (sent = status)
    | .submitGroovyInvokeHandler _ => true
    | _ => false

def Daemon.obeys (d : Daemon) (authtoken : Bytes) : Bool :=
  (d.worker (GroovyClient.shutdownRequest authtoken)).any fun action =>
    match action with
    | .shutdownServer => true
    | _ => false

/-- `port` is the server that holds the port, and `authtokenFile` the text of the file if
it exists. -/
structure Servers (κ : Type*) where
  server : κ → ServerPhase := fun _ => .notStarted
  port : Option κ := none
  authtokenFile : Option Bytes

structure State (ι κ : Type*) extends Servers κ where
  command : ι → Command κ

inductive Step (ι κ : Type*) where
  | command (i : ι)
  | daemonize (i : ι) (j : κ)
  | answer (i : ι) (status : ℤ)
  | breaks (i : ι)
  | startServer (j : κ)
  | setupAuthToken (j : κ)
  | setupAuthTokenFails (j : κ) (left : Option Bytes)
  | shutdown (i : ι)
  | exit (j : κ)

def Servers.next {κ : Type*} (w : Servers κ) (options : Options) : Phase κ → Option (Phase κ)
  | .canConnect caller => some (if w.port.isSome then .makeSure caller else .unconnected caller)
  | .unconnected caller =>
    some (if w.authtokenFile.isSome then .oldFile caller else options.fileGone caller)
  | .makeSure caller =>
    some (if w.authtokenFile.isSome then .connect (.ping (some caller)) else .died)
  | .connect purpose => some (if w.authtokenFile.isSome then .text purpose else purpose.failed)
  | .text purpose =>
    match w.authtokenFile with
    | some authtoken => some (.socket purpose authtoken)
    | none => some purpose.failed
  | .socket purpose authtoken =>
    match w.port with
    | some j => some (purpose.connected j authtoken)
    | none => some purpose.failed
  | .waitDown => some (if w.authtokenFile.isSome then .waitDown else .waitPort)
  | .waitPort => some (if w.port.isSome then .waitDown else options.returned .shutDown)
  | .waitUp => some (if w.authtokenFile.isSome then .connect (.ping none) else .waitUp)
  | _ => none

section Steps

variable {ι κ : Type*} [DecidableEq ι] [DecidableEq κ]

def Servers.setServer (w : Servers κ) (j : κ) (phase : ServerPhase) : Servers κ :=
  { w with server := Function.update w.server j phase }

namespace State

def setCommand (s : State ι κ) (i : ι) (c : Command κ) : State ι κ :=
  { s with command := Function.update s.command i c }

def goto (s : State ι κ) (i : ι) (phase : Phase κ) : State ι κ :=
  s.setCommand i { s.command i with phase := phase }

def commandStep (options : Options) (s : State ι κ) (i : ι) : Option (State ι κ) :=
  match (s.command i).phase with
  | .oldFile caller => some { s.goto i (options.fileGone caller) with authtokenFile := none }
  | .asking j authtoken => some (s.setCommand i ⟨.waitDown, some (j, authtoken)⟩)
  | phase => (s.next options phase).map (s.goto i)

/-- A request is answered as long as the server has not exited, and may break afterwards. -/
def step (options : ι → Options) (daemon : κ → Daemon) (s : State ι κ) :
    Step ι κ → Option (State ι κ)
  | .command i => s.commandStep (options i) i
  | .daemonize i j =>
    if (s.command i).phase = .daemonize ∧ s.server j = .notStarted then
      some { s.goto i .waitUp with toServers := s.toServers.setServer j .starting }
    else none
  | .answer i status =>
    match (s.command i).phase with
    | .pinging caller j authtoken =>
      if (s.server j = .handling ∨ s.server j = .shutDown) ∧
          (daemon j).answers (GroovyClient.pingRequest authtoken) status then
        some (s.goto i (answered j status caller))
      else none
    | _ => none
  | .breaks i =>
    match (s.command i).phase with
    | .pinging caller j _ =>
      if s.server j = .exited then some (s.goto i (Purpose.ping caller).failed) else none
    | .asking j _ => if s.server j = .exited then some (s.goto i .died) else none
    | _ => none
  | .startServer j =>
    if s.server j = .starting then
      match s.port with
      | none =>
        some { s with toServers := { s.toServers.setServer j .started with port := some j } }
      | some _ => some { s with toServers := s.toServers.setServer j .exited }
    else none
  | .setupAuthToken j =>
    if s.server j = .started then
      some { s with
        toServers := { s.toServers.setServer j .handling with
          authtokenFile := some (daemon j).authToken.token } }
    else none
  | .setupAuthTokenFails j left =>
    if s.server j = .started then
      some { s with
        toServers := { s.toServers.setServer j .exited with
          port := none
          authtokenFile := left } }
    else none
  | .shutdown i =>
    match (s.command i).asked with
    | some (j, authtoken) =>
      if (s.server j = .handling ∨ s.server j = .shutDown) ∧ (daemon j).obeys authtoken then
        some { s with
          toServers := { s.toServers.setServer j .shutDown with authtokenFile := none } }
      else none
    | none => none
  | .exit j =>
    if s.server j = .shutDown then
      some { s with toServers := { s.toServers.setServer j .exited with port := none } }
    else none

end State

def system (options : ι → Options) (daemon : κ → Daemon) : StepSystem (State ι κ) (Step ι κ) :=
  ⟨State.step options daemon⟩

def State.start (options : ι → Options) (authtokenFile : Option Bytes) : State ι κ where
  authtokenFile := authtokenFile
  command := fun i => ⟨.canConnect (options i).begin, none⟩

end Steps

inductive ServerMove {κ : Type*} [DecidableEq κ] (daemon : κ → Daemon) (asked : κ → Prop)
    (fails : Prop) (w : Servers κ) : Servers κ → Prop where
  | rests : ServerMove daemon asked fails w w
  | fileDeleted : ServerMove daemon asked fails w { w with authtokenFile := none }
  | spawned (j : κ) (hserver : w.server j = .notStarted) :
    ServerMove daemon asked fails w (w.setServer j .starting)
  | bound (j : κ) (hserver : w.server j = .starting) (hport : w.port = none) :
    ServerMove daemon asked fails w { w.setServer j .started with port := some j }
  | unbound (j : κ) (hserver : w.server j = .starting) :
    ServerMove daemon asked fails w (w.setServer j .exited)
  | saved (j : κ) (hserver : w.server j = .started) :
    ServerMove daemon asked fails w
      { w.setServer j .handling with authtokenFile := some (daemon j).authToken.token }
  | unsaved (j : κ) (left : Option Bytes) (hserver : w.server j = .started) (hfails : fails) :
    ServerMove daemon asked fails w
      { w.setServer j .exited with port := none, authtokenFile := left }
  | shutDown (j : κ) (hserver : w.server j = .handling ∨ w.server j = .shutDown)
    (hasked : asked j) :
    ServerMove daemon asked fails w { w.setServer j .shutDown with authtokenFile := none }
  | exits (j : κ) (hserver : w.server j = .shutDown) :
    ServerMove daemon asked fails w { w.setServer j .exited with port := none }

inductive PhaseMove {κ : Type*} (options : Options) (w : Servers κ) : Phase κ → Phase κ → Prop where
  | next {phase phase' : Phase κ} (h : w.next options phase = some phase') :
    PhaseMove options w phase phase'
  | fileDeleted (caller : Caller) :
    PhaseMove options w (.oldFile caller) (options.fileGone caller)
  | daemonized : PhaseMove options w .daemonize .waitUp
  | answered (caller : Option Caller) (j : κ) (authtoken : Bytes) (status : ℤ) :
    PhaseMove options w (.pinging caller j authtoken) (answered j status caller)
  | pingBreaks (caller : Option Caller) (j : κ) (authtoken : Bytes) :
    PhaseMove options w (.pinging caller j authtoken) (Purpose.ping caller).failed
  | breaks (j : κ) (authtoken : Bytes) : PhaseMove options w (.asking j authtoken) .died

inductive CommandMove {κ : Type*} (options : Options) (w : Servers κ) (c : Command κ) :
    Command κ → Prop where
  | rests : CommandMove options w c c
  | goes {phase : Phase κ} (h : PhaseMove options w c.phase phase) :
    CommandMove options w c { c with phase := phase }
  | asks {j : κ} {authtoken : Bytes} (h : c.phase = .asking j authtoken) :
    CommandMove options w c ⟨.waitDown, some (j, authtoken)⟩

/-- Some command has sent the server a shutdown that it obeys. -/
def State.Asked {ι κ : Type*} (daemon : κ → Daemon) (s : State ι κ) (j : κ) : Prop :=
  ∃ i authtoken, (s.command i).asked = some (j, authtoken) ∧ (daemon j).obeys authtoken = true

section Moves

variable {ι κ : Type*} [DecidableEq ι] [DecidableEq κ] {options : ι → Options}
  {daemon : κ → Daemon} {s s' : State ι κ} {l : Step ι κ}

omit [DecidableEq κ] in
theorem State.setCommand_moves {i : ι} {c : Command κ}
    (h : CommandMove (options i) s.toServers (s.command i) c) (i' : ι) :
    CommandMove (options i') s.toServers (s.command i') ((s.setCommand i c).command i') := by
  change CommandMove _ _ _ (Function.update s.command i c i')
  by_cases hi : i' = i
  · subst hi
    rwa [Function.update_self]
  · rw [Function.update_of_ne hi]
    exact .rests

omit [DecidableEq κ] in
theorem State.goto_moves {i : ι} {phase : Phase κ}
    (h : PhaseMove (options i) s.toServers (s.command i).phase phase) (i' : ι) :
    CommandMove (options i') s.toServers (s.command i') ((s.goto i phase).command i') :=
  State.setCommand_moves (.goes h) i'

theorem step_moves (h : s.step options daemon l = some s') :
    ServerMove daemon (s.Asked daemon) (∃ j left, l = .setupAuthTokenFails j left) s.toServers
        s'.toServers ∧
      ∀ i, CommandMove (options i) s.toServers (s.command i) (s'.command i) := by
  cases l with
  | command i =>
    simp only [State.step, State.commandStep] at h
    split at h
    · rename_i caller hphase
      cases h
      exact ⟨.fileDeleted, State.goto_moves (hphase ▸ .fileDeleted caller)⟩
    · rename_i j authtoken hphase
      cases h
      exact ⟨.rests, State.setCommand_moves (.asks hphase)⟩
    · obtain ⟨phase, hnext, rfl⟩ := Option.map_eq_some_iff.mp h
      exact ⟨.rests, State.goto_moves (.next hnext)⟩
  | daemonize i j =>
    simp only [State.step, Option.ite_none_right_eq_some, Option.some.injEq] at h
    obtain ⟨⟨hphase, hserver⟩, rfl⟩ := h
    exact ⟨.spawned j hserver, State.goto_moves (hphase ▸ .daemonized)⟩
  | answer i status =>
    simp only [State.step] at h
    split at h
    · rename_i caller j authtoken hphase
      simp only [Option.ite_none_right_eq_some, Option.some.injEq] at h
      obtain ⟨-, rfl⟩ := h
      exact ⟨.rests, State.goto_moves (hphase ▸ .answered caller j authtoken status)⟩
    · cases h
  | breaks i =>
    simp only [State.step] at h
    split at h
    · rename_i caller j authtoken hphase
      simp only [Option.ite_none_right_eq_some, Option.some.injEq] at h
      obtain ⟨-, rfl⟩ := h
      exact ⟨.rests, State.goto_moves (hphase ▸ .pingBreaks caller j authtoken)⟩
    · rename_i j authtoken hphase
      simp only [Option.ite_none_right_eq_some, Option.some.injEq] at h
      obtain ⟨-, rfl⟩ := h
      exact ⟨.rests, State.goto_moves (hphase ▸ .breaks j authtoken)⟩
    · cases h
  | startServer j =>
    simp only [State.step, Option.ite_none_right_eq_some] at h
    obtain ⟨hserver, h⟩ := h
    split at h
    · rename_i hport
      cases h
      exact ⟨.bound j hserver hport, fun _ => .rests⟩
    · cases h
      exact ⟨.unbound j hserver, fun _ => .rests⟩
  | setupAuthToken j =>
    simp only [State.step, Option.ite_none_right_eq_some, Option.some.injEq] at h
    obtain ⟨hserver, rfl⟩ := h
    exact ⟨.saved j hserver, fun _ => .rests⟩
  | setupAuthTokenFails j left =>
    simp only [State.step, Option.ite_none_right_eq_some, Option.some.injEq] at h
    obtain ⟨hserver, rfl⟩ := h
    exact ⟨.unsaved j left hserver ⟨j, left, rfl⟩, fun _ => .rests⟩
  | shutdown i =>
    simp only [State.step] at h
    split at h
    · rename_i j authtoken hasked
      simp only [Option.ite_none_right_eq_some, Option.some.injEq] at h
      obtain ⟨⟨hserver, hobeys⟩, rfl⟩ := h
      exact ⟨.shutDown j hserver ⟨i, authtoken, hasked, hobeys⟩, fun _ => .rests⟩
    · cases h
  | exit j =>
    simp only [State.step, Option.ite_none_right_eq_some, Option.some.injEq] at h
    obtain ⟨hserver, rfl⟩ := h
    exact ⟨.exits j hserver, fun _ => .rests⟩

end Moves

def ServerPhase.Listening (phase : ServerPhase) : Prop :=
  phase = .started ∨ phase = .handling ∨ phase = .shutDown

/-- The server that listens holds the port, and what it leaves of the file is its token. -/
structure Servers.Sound {κ : Type*} (daemon : κ → Daemon) (w : Servers κ) : Prop where
  port : ∀ j, w.port = some j ↔ (w.server j).Listening
  handling : ∀ j, w.server j = .handling →
    w.authtokenFile = none ∨ w.authtokenFile = some (daemon j).authToken.token
  shutDown : ∀ j, w.server j = .shutDown → w.authtokenFile = none

section Servers

variable {κ : Type*} [DecidableEq κ] {daemon : κ → Daemon} {asked : κ → Prop} {fails : Prop}
  {w w' : Servers κ}

theorem Servers.setServer_self (w : Servers κ) (j : κ) (phase : ServerPhase) :
    (w.setServer j phase).server j = phase := Function.update_self ..

theorem Servers.setServer_of_ne (w : Servers κ) {j k : κ} (h : k ≠ j) (phase : ServerPhase) :
    (w.setServer j phase).server k = w.server k := Function.update_of_ne h ..

omit [DecidableEq κ] in
theorem Servers.Sound.eq_of_listening (h : w.Sound daemon) {j k : κ} (hj : (w.server j).Listening)
    (hk : (w.server k).Listening) : k = j :=
  Option.some.inj (((h.port k).mpr hk).symm.trans ((h.port j).mpr hj))

theorem Servers.Sound.idle (h : w.Sound daemon) {j : κ} {phase : ServerPhase}
    (hbefore : ¬ (w.server j).Listening) (hafter : ¬ phase.Listening) :
    (w.setServer j phase).Sound daemon where
  port k := by
    by_cases hk : k = j
    · subst hk
      rw [Servers.setServer_self]
      exact iff_of_false (fun hport => hbefore ((h.port k).mp hport)) hafter
    · rw [Servers.setServer_of_ne w hk]
      exact h.port k
  handling k hserver := by
    by_cases hk : k = j
    · subst hk
      rw [Servers.setServer_self] at hserver
      exact absurd (.inr (.inl hserver)) hafter
    · rw [Servers.setServer_of_ne w hk] at hserver
      exact h.handling k hserver
  shutDown k hserver := by
    by_cases hk : k = j
    · subst hk
      rw [Servers.setServer_self] at hserver
      exact absurd (.inr (.inr hserver)) hafter
    · rw [Servers.setServer_of_ne w hk] at hserver
      exact h.shutDown k hserver

theorem Servers.sound_of_listening {j : κ} {phase : ServerPhase} {file : Option Bytes}
    (hothers : ∀ k, k ≠ j → ¬ (w.server k).Listening) (hphase : phase.Listening)
    (hhandling : phase = .handling → file = none ∨ file = some (daemon j).authToken.token)
    (hshutDown : phase = .shutDown → file = none) :
    Servers.Sound daemon
      { w.setServer j phase with port := some j, authtokenFile := file } where
  port k := by
    by_cases hk : k = j
    · subst hk
      exact iff_of_true rfl ((w.setServer_self k phase).symm ▸ hphase)
    · refine iff_of_false (fun hport => hk (Option.some.inj hport).symm) ?_
      exact (w.setServer_of_ne hk phase).symm ▸ hothers k hk
  handling k hserver := by
    by_cases hk : k = j
    · subst hk
      exact hhandling ((w.setServer_self k phase).symm.trans hserver)
    · exact absurd (.inr (.inl ((w.setServer_of_ne hk phase).symm.trans hserver))) (hothers k hk)
  shutDown k hserver := by
    by_cases hk : k = j
    · subst hk
      exact hshutDown ((w.setServer_self k phase).symm.trans hserver)
    · exact absurd (.inr (.inr ((w.setServer_of_ne hk phase).symm.trans hserver))) (hothers k hk)

theorem Servers.sound_of_gone {j : κ} {phase : ServerPhase} {file : Option Bytes}
    (hothers : ∀ k, k ≠ j → ¬ (w.server k).Listening) (hphase : ¬ phase.Listening) :
    Servers.Sound daemon { w.setServer j phase with port := none, authtokenFile := file } := by
  have hnone : ∀ k, ¬ ((w.setServer j phase).server k).Listening := by
    intro k
    by_cases hk : k = j
    · subst hk
      rwa [Servers.setServer_self]
    · rw [Servers.setServer_of_ne w hk]
      exact hothers k hk
  exact
    { port := fun k => iff_of_false nofun (hnone k)
      handling := fun k hserver => absurd (.inr (.inl hserver)) (hnone k)
      shutDown := fun k hserver => absurd (.inr (.inr hserver)) (hnone k) }

theorem ServerMove.sound (hmove : ServerMove daemon asked fails w w') (h : w.Sound daemon) :
    w'.Sound daemon := by
  have hothers : ∀ {j : κ}, (w.server j).Listening → ∀ k, k ≠ j → ¬ (w.server k).Listening :=
    fun hj k hk hlistening => hk (h.eq_of_listening hj hlistening)
  cases hmove with
  | rests => exact h
  | fileDeleted => exact ⟨h.port, fun _ _ => .inl rfl, fun _ _ => rfl⟩
  | spawned j hserver =>
    exact h.idle (by simp [ServerPhase.Listening, hserver]) (by simp [ServerPhase.Listening])
  | bound j hserver hport =>
    refine Servers.sound_of_listening (fun k _ hlistening => ?_) (.inl rfl) nofun nofun
    cases hport.symm.trans ((h.port k).mpr hlistening)
  | unbound j hserver =>
    exact h.idle (by simp [ServerPhase.Listening, hserver]) (by simp [ServerPhase.Listening])
  | saved j hserver =>
    have hport : w.port = some j := (h.port j).mpr (.inl hserver)
    change Servers.Sound daemon { w.setServer j .handling with port := w.port, authtokenFile := _ }
    rw [hport]
    exact Servers.sound_of_listening (hothers (.inl hserver)) (.inr (.inl rfl))
      (fun _ => .inr rfl) nofun
  | unsaved j left hserver =>
    exact Servers.sound_of_gone (hothers (.inl hserver)) (by simp [ServerPhase.Listening])
  | shutDown j hserver =>
    have hport : w.port = some j := (h.port j).mpr (.inr hserver)
    change Servers.Sound daemon { w.setServer j .shutDown with port := w.port, authtokenFile := _ }
    rw [hport]
    exact Servers.sound_of_listening (hothers (.inr hserver)) (.inr (.inr rfl))
      (fun _ => .inl rfl) (fun _ => rfl)
  | exits j hserver =>
    exact Servers.sound_of_gone (hothers (.inr (.inr hserver))) (by simp [ServerPhase.Listening])

theorem ServerMove.exited (hmove : ServerMove daemon asked fails w w') {j : κ}
    (h : w.server j = .exited) : w'.server j = .exited := by
  have hset : ∀ k phase, w.server k ≠ .exited → (w.setServer k phase).server j = .exited := by
    intro k phase hk
    rw [Servers.setServer_of_ne w fun heq : j = k => hk (heq ▸ h)]
    exact h
  cases hmove with
  | rests => exact h
  | fileDeleted => exact h
  | spawned k hserver => exact hset k _ (by simp [hserver])
  | bound k hserver => exact hset k _ (by simp [hserver])
  | unbound k hserver => exact hset k _ (by simp [hserver])
  | saved k hserver => exact hset k _ (by simp [hserver])
  | unsaved k left hserver => exact hset k _ (by simp [hserver])
  | shutDown k hserver => exact hset k _ (by rcases hserver with h | h <;> simp [h])
  | exits k hserver => exact hset k _ (by simp [hserver])

theorem ServerMove.listening (hmove : ServerMove daemon asked fails w w') {j : κ}
    (h : (w.server j).Listening) : (w'.server j).Listening ∨ w'.server j = .exited := by
  have hset : ∀ k phase, (phase = .exited ∨ phase.Listening ∨ w.server k ≠ w.server j) →
      ((w.setServer k phase).server j).Listening ∨ (w.setServer k phase).server j = .exited := by
    intro k phase hphase
    by_cases hk : j = k
    · subst hk
      rw [Servers.setServer_self]
      rcases hphase with h | h | h
      · exact .inr h
      · exact .inl h
      · exact absurd rfl h
    · rw [Servers.setServer_of_ne w hk]
      exact .inl h
  cases hmove with
  | rests => exact .inl h
  | fileDeleted => exact .inl h
  | spawned k hserver =>
    refine hset k _ (.inr (.inr fun heq => ?_))
    rw [← heq, hserver] at h
    simp [ServerPhase.Listening] at h
  | bound k hserver => exact hset k _ (.inr (.inl (.inl rfl)))
  | unbound k hserver => exact hset k _ (.inl rfl)
  | saved k hserver => exact hset k _ (.inr (.inl (.inr (.inl rfl))))
  | unsaved k left hserver => exact hset k _ (.inl rfl)
  | shutDown k hserver => exact hset k _ (.inr (.inl (.inr (.inr rfl))))
  | exits k hserver => exact hset k _ (.inl rfl)

theorem ServerMove.handling (hmove : ServerMove daemon asked fails w w') (h : w.Sound daemon)
    {j : κ} (hserver : w.server j = .handling) (hasked : ¬ asked j) :
    w'.server j = .handling ∧ (w'.authtokenFile = w.authtokenFile ∨ w'.authtokenFile = none) := by
  have hset : ∀ k phase, w.server k ≠ .handling → (w.setServer k phase).server j = .handling := by
    intro k phase hk
    rw [Servers.setServer_of_ne w fun heq : j = k => hk (heq ▸ hserver)]
    exact hserver
  have hother : ∀ k, (w.server k).Listening → k = j := fun k hk =>
    h.eq_of_listening (.inr (.inl hserver)) hk
  cases hmove with
  | rests => exact ⟨hserver, .inl rfl⟩
  | fileDeleted => exact ⟨hserver, .inr rfl⟩
  | spawned k hk => exact ⟨hset k _ (by simp [hk]), .inl rfl⟩
  | bound k hk => exact ⟨hset k _ (by simp [hk]), .inl rfl⟩
  | unbound k hk => exact ⟨hset k _ (by simp [hk]), .inl rfl⟩
  | saved k hk =>
    obtain rfl := hother k (.inl hk)
    cases hserver.symm.trans hk
  | unsaved k left hk =>
    obtain rfl := hother k (.inl hk)
    cases hserver.symm.trans hk
  | shutDown k hk hk' =>
    obtain rfl := hother k (.inr hk)
    exact absurd hk' hasked
  | exits k hk =>
    obtain rfl := hother k (.inr (.inr hk))
    cases hserver.symm.trans hk

/-- What is in the file is the token of the server that handles requests on the port. -/
def Servers.FileCurrent (daemon : κ → Daemon) (w : Servers κ) : Prop :=
  ∀ authtoken, w.authtokenFile = some authtoken → ∃ j, w.port = some j ∧
    w.server j = .handling ∧ authtoken = (daemon j).authToken.token

theorem ServerMove.fileCurrent (hmove : ServerMove daemon asked fails w w') (h : w.Sound daemon)
    (hfile : w.FileCurrent daemon) (hfails : ¬ fails) : w'.FileCurrent daemon := by
  have hset : ∀ k phase, w.server k ≠ .handling → (w.setServer k phase).FileCurrent daemon := by
    intro k phase hk authtoken hsome
    obtain ⟨j, hport, hserver, htoken⟩ := hfile authtoken hsome
    refine ⟨j, hport, ?_, htoken⟩
    rw [Servers.setServer_of_ne w fun heq : j = k => hk (heq ▸ hserver)]
    exact hserver
  cases hmove with
  | rests => exact hfile
  | fileDeleted => exact fun _ hsome => by cases hsome
  | spawned k hk => exact hset k _ (by simp [hk])
  | bound k hk hport =>
    intro authtoken hsome
    obtain ⟨j, hport', -⟩ := hfile authtoken hsome
    cases hport.symm.trans hport'
  | unbound k hk => exact hset k _ (by simp [hk])
  | saved k hk =>
    intro authtoken hsome
    obtain rfl := Option.some.inj hsome
    exact ⟨k, (h.port k).mpr (.inl hk), w.setServer_self k .handling, rfl⟩
  | unsaved k left hk hk' => exact absurd hk' hfails
  | shutDown k hk hk' => exact fun _ hsome => by cases hsome
  | exits k hk =>
    intro authtoken hsome
    cases (h.shutDown k hk).symm.trans hsome

end Servers

end GroovyServ.ServerCLI
