import GroovyServ.ClientMain

/-!
# When the C client runs the server's command

A run gives `system` a command when it is told to kill or restart the server, or when
its first connection is refused; that the host was chosen explicitly does not enter
into it. `scan_options` excludes only a host given as an option together with the
control of the server.
-/

namespace GroovyServ.Client

open CLib Statements

def RunsServer (events : List ClientEvent) : Prop := ∃ command, .system command ∈ events

/-- The host that an option or `GROOVYSERV_HOST` chooses. -/
def explicitHost (option : OptionT) (environ : List Bytes) : Option Bytes :=
  (option.host.map Subtype.val).or (getenv environ (ascii "GROOVYSERV_HOST"))

theorem Adds.mem {α : Type} {P : ClientEvent → Prop} {x : ClientAction α} (hx : Adds P x)
    {events : List ClientEvent} {event : ClientEvent} (hmem : event ∈ events) :
    event ∈ (x.runOn events).2 := by
  obtain ⟨added, hadded, -⟩ := hx events
  rw [hadded]
  exact List.mem_append_left _ hmem

section Runs

variable (w : Surroundings) (option : OptionT) (scriptPath : CString) (host : Bytes) (port : ℤ)

theorem runsServer_of_emit {command : Bytes} {rest : ClientAction Unit}
    (hrest : Adds (fun _ => True) rest) (events : List ClientEvent) :
    RunsServer (((do emit (.system command); rest) : ClientAction Unit).runOn events).2 := by
  refine ⟨command, ?_⟩
  rw [runOn_bind, emit, runOn_modify]
  exact hrest.mem (by simp)

/-- Events that are no commands. -/
def ClientEvent.NotSystem (event : ClientEvent) : Prop := ∀ command, event ≠ .system command

theorem not_runsServer {x : ClientAction Unit} (hx : Adds ClientEvent.NotSystem x) :
    ¬ RunsServer (eventsOf x) := fun ⟨command, hmem⟩ => hx.eventsOf _ hmem command rfl

theorem connectServer_not_refused (hrefused : w.outcomes 0 ≠ .refused) :
    Adds ClientEvent.NotSystem (connectServer w option scriptPath host port) := by
  rw [connectServer, connectLoop]
  cases houtcome : w.outcomes 0 with
  | unresolved => exact .of_unchanged fun _ => rfl
  | noSocket => exact .of_unchanged fun _ => rfl
  | connected =>
    exact fun events => ⟨[.connect host (htons port)], rfl, by simp [ClientEvent.NotSystem]⟩
  | refused => exact absurd houtcome hrefused
  | failed =>
    exact fun events => ⟨[.connect host (htons port)], rfl, by simp [ClientEvent.NotSystem]⟩

theorem connectServer_refused (hrefused : w.outcomes 0 = .refused) (events : List ClientEvent) :
    RunsServer ((connectServer w option scriptPath host port).runOn events).2 := by
  have hloop : connectServer w option scriptPath host port = (do
      emit (.connect host (htons port))
      emit (.system (startServer option.quiet w.environ scriptPath port option.authtoken).1)
      connectLoop w option scriptPath host port 1 1) := by
    rw [connectServer, connectLoop, hrefused]
    rfl
  rw [hloop, runOn_bind, emit, runOn_modify]
  exact runsServer_of_emit ((adds_connectLoop w option scriptPath host port 1 1).mono
    fun _ _ => trivial) _

theorem connect_runsServer :
    RunsServer (eventsOf (do
      connectServer w option scriptPath host port
      mainSession w option port)) ↔ w.outcomes 0 = .refused := by
  have hsession : Adds ClientEvent.NotSystem (mainSession w option port) :=
    (adds_mainSession w option port).mono fun event h => by
      rcases h with ⟨path, -, rfl⟩ | ⟨authtoken, rfl⟩ <;> exact fun command h => by cases h
  constructor
  · intro hruns
    by_contra hrefused
    exact not_runsServer (.bind (connectServer_not_refused w option scriptPath host port hrefused)
      fun _ => hsession) hruns
  · intro hrefused
    obtain ⟨command, hmem⟩ := connectServer_refused w option scriptPath host port hrefused []
    refine ⟨command, ?_⟩
    rw [eventsOf, runOn_bind]
    rcases hrun : (connectServer w option scriptPath host port).runOn [] with ⟨e | a, events⟩
    · rwa [hrun] at hmem
    · rw [hrun] at hmem
      exact hsession.mem hmem

theorem mainScanned_runsServer :
    RunsServer (eventsOf (mainScanned w scriptPath option)) ↔
      (∃ port, getPort option w.environ = .ok port) ∧
        (option.kill = true ∨ option.restart = true ∨ w.outcomes 0 = .refused) := by
  cases hport : getPort option w.environ with
  | error e =>
    refine iff_of_false ?_ (by simp)
    rintro ⟨command, hmem⟩
    rw [eventsOf, mainScanned, hport] at hmem
    cases hmem
  | ok port =>
    have hconnect : Adds (fun _ => True) (do
        connectServer w option scriptPath (getHost option w.environ) port
        mainSession w option port) :=
      .bind ((adds_connectLoop w option scriptPath _ port 2 0).mono fun _ _ => trivial)
        fun _ => (adds_mainSession w option port).mono fun _ _ => trivial
    have hcontrol : ∀ command (rest : ClientAction Unit), Adds (fun _ => True) rest →
        (RunsServer (eventsOf (do emit (.system command); rest)) ↔ True) :=
      fun command rest hrest => iff_true_intro (runsServer_of_emit hrest [])
    rw [mainScanned, hport, ofExcept_ok_bind]
    dsimp only
    split_ifs with hkill hrestart
    · rw [hcontrol _ _ (.bind (.throw _) fun _ => hconnect)]
      simp [hkill]
    · rw [hcontrol _ _ hconnect]
      simp [hrestart]
    · rw [connect_runsServer]
      simp [hkill, hrestart]

end Runs

theorem main_of_scanned {scriptPath : CString} {args : List CString}
    {argv : List (Option CString)} {option : OptionT}
    (hscan : scanOptions clientOption (scriptPath :: args) = .ok (argv, option))
    (w : Surroundings) : main w scriptPath args = mainScanned w scriptPath option := by
  rw [main, hscan, ofExcept_ok_bind]

/-- The client runs the local command only where no host that counts as another one was
chosen, exactly if none was, if the client has no port and goes no further, or if there is
nothing to control and the first connection is not refused. -/
theorem main_runsServer_iff (other : Bytes → Prop) {scriptPath : CString} {args : List CString}
    {argv : List (Option CString)} {option : OptionT}
    (hscan : scanOptions clientOption (scriptPath :: args) = .ok (argv, option))
    (w : Surroundings) :
    (RunsServer (eventsOf (main w scriptPath args)) →
        ∀ host ∈ explicitHost option w.environ, ¬ other host) ↔
      (∀ host ∈ explicitHost option w.environ, ¬ other host) ∨
      (∃ e, getPort option w.environ = .error e) ∨
      (option.kill = false ∧ option.restart = false ∧ w.outcomes 0 ≠ .refused) := by
  rw [main_of_scanned hscan, mainScanned_runsServer]
  cases hport : getPort option w.environ with
  | error e => simp
  | ok port =>
    cases option.kill <;> cases option.restart <;> simp [imp_iff_or_not]

def otherHostArgs : List CString :=
  [literal "-Cs", literal "build"]

def refusedFirst (environ : List Bytes) : Surroundings where
  environ := environ
  files _ := none
  outcomes attempt := if attempt = 0 then .refused else .connected

theorem main_runsServer_iff_connected : ∃ argv option,
    scanOptions clientOption (literal "groovyclient" :: otherHostArgs) =
      .ok (argv, option) ∧
    (RunsServer (eventsOf (main { refusedFirst [] with outcomes := fun _ => .connected }
        (literal "groovyclient") otherHostArgs)) →
      ∀ host ∈ explicitHost option [], ¬ host ≠ serverHost) :=
  ⟨_, _, rfl, (main_runsServer_iff (· ≠ serverHost) rfl
    { refusedFirst [] with outcomes := fun _ => .connected }).mpr
      (.inr (.inr ⟨rfl, rfl, by decide⟩))⟩

/-- Another host is chosen by the option, or by the environment together with `-Ck`, and the
local command is run. -/
theorem main_runs_otherHost :
    (∃ argv option,
      scanOptions clientOption (literal "groovyclient" :: otherHostArgs) =
        .ok (argv, option) ∧
      explicitHost option (refusedFirst []).environ = some (ascii "build") ∧
      RunsServer (eventsOf (main (refusedFirst []) (literal "groovyclient")
        otherHostArgs))) ∧
    (∃ argv option,
      scanOptions clientOption [literal "groovyclient", literal "-Ck"] = .ok (argv, option) ∧
      explicitHost option [ascii "GROOVYSERV_HOST=build"] = some (ascii "build") ∧
      RunsServer (eventsOf (main (refusedFirst [ascii "GROOVYSERV_HOST=build"])
        (literal "groovyclient") [literal "-Ck"]))) := by
  refine ⟨⟨_, _, rfl, rfl, ?_⟩, ⟨_, _, rfl, rfl, ?_⟩⟩
  · rw [main_of_scanned rfl, mainScanned_runsServer]
    exact ⟨⟨1961, rfl⟩, .inr (.inr rfl)⟩
  · rw [main_of_scanned rfl, mainScanned_runsServer]
    exact ⟨⟨1961, rfl⟩, .inl rfl⟩

end GroovyServ.Client
