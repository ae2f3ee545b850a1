import GroovyServ.ScannedOptions
import GroovyServ.ServerCommand
import GroovyServ.Statements

/-!
# The main function of the C client

`main` with `get_host`, `get_port`, `open_socket` and `connect_server` up to the session,
as the list of what it does to the outside: commands given to `system`, connections,
the token file it opens, and the session. What comes of each attempt to connect is a
parameter. What the client prints is given where it exits.
-/

namespace GroovyServ.Client

open CLib Statements

def literal (s : String) : CString := ⟨cString (ascii s), notMem_cString _⟩

def serverHost : Bytes := ascii "localhost"

def serverPort : ℤ := 1961

/-- What comes of one call of `open_socket`: the host is not resolved, there is no socket,
or `connect` succeeds, is refused or fails otherwise. -/
inductive SocketOutcome where
  | unresolved
  | noSocket
  | connected
  | refused
  | failed
  deriving DecidableEq

inductive ClientEvent where
  | system (command : Bytes)
  | connect (host : Bytes) (port : ℕ)
  | fopen (path : Bytes)
  | session (authtoken : CString)

/-- The client's statements, with what they have done so far. -/
abbrev ClientAction (α : Type) := Statements Halt (List ClientEvent) α

def emit (event : ClientEvent) : ClientAction Unit := modify (· ++ [event])

def getHost (option : OptionT) (environ : List Bytes) : Bytes :=
  match option.host with
  | some host => host.val
  | none =>
    match getenv environ (ascii "GROOVYSERV_HOST") with
    | some host => host
    | none => serverHost

def getPort (option : OptionT) (environ : List Bytes) : CResult ℤ :=
  if option.port ≠ portNotSpecified then .ok option.port
  else
    match getenv environ (ascii "GROOVYSERV_PORT") with
    | some portStr =>
      match sscanfInt portStr with
      | some port => .ok port
      | none =>
        .error (.exit 1 (ascii "ERROR: could not parse port number from GROOVYSERV_PORT: " ++
          (portStr ++ [lf])))
    | none => .ok serverPort

def htons (port : ℤ) : ℕ := (port % 2 ^ 16).toNat

/-- `open_socket`, which returns a descriptor or, for `false`, -1. -/
def openSocket (host : Bytes) (port : ℤ) (outcome : SocketOutcome) : ClientAction Bool :=
  match outcome with
  | .unresolved =>
    throw (.exit 1 (ascii "ERROR: could not resolve host address: " ++ (host ++ [lf])))
  | .noSocket =>
    throw (.exit 1 (ascii "ERROR: could not open socket: " ++ (host ++ (ascii ":" ++
      decimalInt port))))
  | .connected => do
    emit (.connect host (htons port))
    pure true
  | .refused => do
    emit (.connect host (htons port))
    pure false
  | .failed => do
    emit (.connect host (htons port))
    throw (.exit 1 (ascii "ERROR: could not connect to server"))

structure Surroundings where
  environ : List Bytes
  files : Files
  outcomes : ℕ → SocketOutcome

/-- The loop of `connect_server` with the given number of failures behind it. It ends at the
second one. -/
def connectLoop (w : Surroundings) (option : OptionT) (scriptPath : CString) (host : Bytes)
    (port : ℤ) : ℕ → ℕ → ClientAction Unit
  | 0, _ => throw .diverges
  | fuel + 1, failCount => do
    if !(← openSocket host port (w.outcomes failCount)) then
      if 1 ≤ failCount then
        throw (.exit 1 (ascii "ERROR: could not start server: " ++ (scriptPath.val ++ [lf])))
      emit (.system (startServer option.quiet w.environ scriptPath port option.authtoken).1)
      connectLoop w option scriptPath host port fuel (failCount + 1)

def connectServer (w : Surroundings) (option : OptionT) (scriptPath : CString) (host : Bytes)
    (port : ℤ) : ClientAction Unit :=
  connectLoop w option scriptPath host port 2 0

def openAuthtoken (w : Surroundings) (port : ℤ) : ClientAction CString := do
  emit (.fopen (← ofExcept (authtokenPath w.environ port)))
  ofExcept (getAuthtokenGeneratedByServer w.environ w.files port)

def mainSession (w : Surroundings) (option : OptionT) (port : ℤ) : ClientAction Unit :=
  match option.authtoken with
  | some authtoken => emit (.session authtoken)
  | none => do emit (.session (← openAuthtoken w port))

def mainScanned (w : Surroundings) (scriptPath : CString) (option : OptionT) :
    ClientAction Unit := do
  let host := getHost option w.environ
  let port ← ofExcept (getPort option w.environ)
  if option.kill then
    emit (.system (killServer option.quiet w.environ scriptPath port).1)
    throw (.exit 0 [])
  else if option.restart then
    emit (.system (restartServer option.quiet w.environ scriptPath port option.authtoken).1)
  connectServer w option scriptPath host port
  mainSession w option port

def main (w : Surroundings) (scriptPath : CString) (args : List CString) : ClientAction Unit := do
  let (_, option) ← ofExcept (scanOptions clientOption (scriptPath :: args))
  mainScanned w scriptPath option

def eventsOf (x : ClientAction Unit) : List ClientEvent := (x.runOn []).2

def Adds {α : Type} (P : ClientEvent → Prop) (x : ClientAction α) : Prop :=
  ∀ events, ∃ added, (x.runOn events).2 = events ++ added ∧ ∀ event ∈ added, P event

namespace Adds

variable {α β : Type} {P : ClientEvent → Prop}

theorem of_unchanged {x : ClientAction α} (h : ∀ events, (x.runOn events).2 = events) :
    Adds P x := fun events => ⟨[], by rw [h, List.append_nil], by simp⟩

theorem pure (a : α) : Adds P (pure a : ClientAction α) := of_unchanged fun _ => rfl

theorem throw (e : Halt) : Adds P (throw e : ClientAction α) := of_unchanged fun _ => rfl

theorem emit {event : ClientEvent} (h : P event) : Adds P (emit event) :=
  fun _ => ⟨[event], rfl, by simpa using h⟩

theorem bind {x : ClientAction α} {f : α → ClientAction β} (hx : Adds P x)
    (hf : ∀ a, Adds P (f a)) : Adds P (x >>= f) := by
  intro events
  obtain ⟨added, hadded, hP⟩ := hx events
  rw [runOn_bind]
  rcases hrun : x.runOn events with ⟨e | a, events'⟩
  · rw [hrun] at hadded
    exact ⟨added, hadded, hP⟩
  · rw [hrun] at hadded
    obtain ⟨more, hmore, hP'⟩ := hf a events'
    refine ⟨added ++ more, ?_, List.forall_mem_append.mpr ⟨hP, hP'⟩⟩
    dsimp only at hadded ⊢
    rw [hmore, hadded, List.append_assoc]

theorem mono {Q : ClientEvent → Prop} (hPQ : ∀ event, P event → Q event) {x : ClientAction α}
    (hx : Adds P x) : Adds Q x := fun events => by
  obtain ⟨added, hadded, hP⟩ := hx events
  exact ⟨added, hadded, fun event hmem => hPQ event (hP event hmem)⟩

theorem eventsOf {x : ClientAction Unit} (hx : Adds P x) : ∀ event ∈ eventsOf x, P event := by
  obtain ⟨added, hadded, hP⟩ := hx []
  rw [Client.eventsOf, hadded, List.nil_append]
  exact hP

end Adds

theorem ofExcept_ok_bind {α β : Type} (a : α) (f : α → ClientAction β) :
    (ofExcept (.ok a : CResult α) : ClientAction α) >>= f = f a := pure_bind a f

/-- An event is one that the client makes for a host and a port. -/
inductive ClientEvent.For (host : Bytes) (port : ℤ) : ClientEvent → Prop
  | system (basedirPath arg : Bytes) : ClientEvent.For host port
      (.system (serverCommand basedirPath port arg))
  | connect : ClientEvent.For host port (.connect host (htons port))
  | fopen {environ : List Bytes} {path : Bytes} (hpath : authtokenPath environ port = .ok path) :
      ClientEvent.For host port (.fopen path)
  | session (authtoken : CString) : ClientEvent.For host port (.session authtoken)

section Events

variable (w : Surroundings) (option : OptionT) (scriptPath : CString) (host : Bytes) (port : ℤ)

theorem adds_invokeServer (quiet : Bool) (mainOpt : Bytes) (authtoken : Option CString) :
    Adds (ClientEvent.For host port) (emit (.system
      (invokeServer quiet w.environ scriptPath port mainOpt authtoken).1)) :=
  .emit (.system _ _)

theorem adds_openSocket (outcome : SocketOutcome) :
    Adds (ClientEvent.For host port) (openSocket host port outcome) := by
  cases outcome with
  | unresolved => exact .throw _
  | noSocket => exact .throw _
  | connected => exact .bind (.emit .connect) fun _ => .pure _
  | refused => exact .bind (.emit .connect) fun _ => .pure _
  | failed => exact .bind (.emit .connect) fun _ => .throw _

theorem adds_connectLoop (fuel failCount : ℕ) :
    Adds (ClientEvent.For host port)
      (connectLoop w option scriptPath host port fuel failCount) := by
  induction fuel generalizing failCount with
  | zero => exact .throw _
  | succ fuel ih =>
    refine .bind (adds_openSocket host port _) fun connected => ?_
    cases connected with
    | true => exact .pure _
    | false =>
      have hretry : Adds (ClientEvent.For host port) (do
          emit (.system (startServer option.quiet w.environ scriptPath port option.authtoken).1)
          connectLoop w option scriptPath host port fuel (failCount + 1)) :=
        .bind (adds_invokeServer w scriptPath host port _ _ _) fun _ => ih _
      by_cases hfail : 1 ≤ failCount
      · simp only [Bool.not_false, if_true, hfail]
        exact .throw _
      · simp only [Bool.not_false, if_true, hfail, if_false]
        exact hretry

theorem adds_mainSession : Adds (fun event => (∃ path, authtokenPath w.environ port = .ok path ∧
      event = .fopen path) ∨ ∃ authtoken, event = .session authtoken)
    (mainSession w option port) := by
  rw [mainSession]
  cases option.authtoken with
  | some authtoken => exact .emit (.inr ⟨authtoken, rfl⟩)
  | none =>
    refine .bind (fun events => ?_) fun authtoken => .emit (.inr ⟨authtoken, rfl⟩)
    rw [openAuthtoken, runOn_bind, runOn_ofExcept]
    cases hpath : authtokenPath w.environ port with
    | error e => exact ⟨[], (List.append_nil _).symm, by simp⟩
    | ok path =>
      refine ⟨[.fopen path], ?_, by simp⟩
      simp only [runOn_bind, emit, runOn_modify, runOn_ofExcept]

/-- A run for whose port there is a number does everything for this port. -/
theorem adds_mainScanned (hport : getPort option w.environ = .ok port) :
    Adds (ClientEvent.For (getHost option w.environ) port) (mainScanned w scriptPath option) := by
  have hsession : Adds (ClientEvent.For (getHost option w.environ) port)
      (mainSession w option port) := (adds_mainSession w option port).mono fun event h => by
    rcases h with ⟨path, hpath, rfl⟩ | ⟨authtoken, rfl⟩
    · exact .fopen hpath
    · exact .session authtoken
  have hconnect : Adds (ClientEvent.For (getHost option w.environ) port) (do
      connectServer w option scriptPath (getHost option w.environ) port
      mainSession w option port) :=
    .bind (adds_connectLoop w option scriptPath _ port 2 0) fun _ => hsession
  rw [mainScanned, hport, ofExcept_ok_bind]
  dsimp only
  split_ifs with hkill hrestart
  · exact .bind (adds_invokeServer w scriptPath _ port _ _ _) fun _ => .throw _
  · exact .bind (adds_invokeServer w scriptPath _ port _ _ _) fun _ => hconnect
  · exact hconnect

end Events

end GroovyServ.Client
