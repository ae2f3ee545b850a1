import GroovyServ.ServerProtocol

/-!
# The request worker accepts or refuses a connection

`RequestWorker.run` up to the point where the handlers are submitted, as the list
of what it does to the outside: statuses sent, the connection closed, handlers
submitted, the server shut down. An exception that is not caught ends the run and
with it the list.
-/

namespace GroovyServ.Server

open Lines

/-- The server as a connection sees it. -/
structure GroovyServer where
  allowFrom : List Bytes
  authToken : Option AuthToken

/-- What surrounds one run: how arguments are decoded, the socket and what arrives
on it, and whether the pause after a failed authentication is interrupted. -/
structure Accepted where
  decodeBase64 : Bytes → Option Bytes
  server : GroovyServer
  socket : Socket
  sleepInterrupted : Bool
  ending : Ending
  bytes : Bytes

inductive Action where
  | sendStatus (status : ℤ) (message : Option Bytes)
  | closeConnection
  | submitStreamRequestHandler
  | submitGroovyInvokeHandler (request : InvocationRequest)
  | shutdownExecutor
  | shutdownServer

def showList (ss : List Bytes) : Bytes := ascii "[" ++ ([44, 32].intercalate ss ++ ascii "]")

def isAllowedClientAddress (server : GroovyServer) (socket : Socket) : Bool :=
  if socket.localLoopback then true
  else server.allowFrom.any fun address => socket.hostAddress = address

def checkAllowedClientAddress (server : GroovyServer) (socket : Socket) : Outcome Unit :=
  if !isAllowedClientAddress server socket then
    .error (.threw (.clientNotAllowed (ascii "Cannot accept address: actual=" ++ socket.text ++
      ascii ", allowFrom=" ++ showList server.allowFrom)))
  else .ok ()

def openSession (a : Accepted) : Outcome (InvocationRequest × Bytes) := do
  checkAllowedClientAddress a.server a.socket
  readInvocationRequest a.decodeBase64 a.server.authToken a.socket a.sleepInterrupted a.ending
    a.bytes

/-- Whether the session is in the mode without headers, which `openSession` sets. -/
def InvocationRequest.silentExitStatus (request : InvocationRequest) : Bool :=
  decide (request.protocol = some (ascii "simple"))

def closeSafely (silentExitStatus : Bool) (exitStatus : ℤ) : List Action :=
  (if silentExitStatus then [] else [.sendStatus exitStatus none]) ++ [.closeConnection]

/-- The catch clauses of `parseRequest`; for other exceptions the run ends. -/
def refuse : Stop → List Action
  | .blocked => []
  | .threw e =>
    match e.gserv with
    | some (status, message) => [.sendStatus status.code (some message)]
    | none => []

def handleRequest (request : InvocationRequest) : List Action :=
  [.submitStreamRequestHandler, .submitGroovyInvokeHandler request, .shutdownExecutor]

def runRequestWorker (a : Accepted) : List Action :=
  match openSession a with
  | .error stop => refuse stop
  | .ok (request, _) =>
    if request.command = some (ascii "ping") then
      closeSafely request.silentExitStatus ExitStatus.success.code
    else if request.command = some (ascii "shutdown") then
      closeSafely request.silentExitStatus ExitStatus.success.code ++ [.shutdownServer]
    else handleRequest request

/-- The first value that the request gives to `Auth`. -/
def firstAuth (bytes : Bytes) : Option Bytes :=
  (valuesOf (blockLines (bytes.splitOn lf)) headerKeyAuthtoken).head?

/-- The connection comes from an address that is let in and shows the server's token. -/
def Authorized (server : GroovyServer) (socket : Socket) (bytes : Bytes) : Prop :=
  (socket.localLoopback = true ∨ socket.hostAddress ∈ server.allowFrom) ∧
    ∃ auth ∈ firstAuth bytes, auth ≠ [] ∧ ∃ t ∈ server.authToken, auth = t.token

/-- Everything but a failure status. -/
def Action.Privileged : Action → Prop
  | .sendStatus status _ => status = 0
  | _ => True

theorem checkAllowedClientAddress_ok {server : GroovyServer} {socket : Socket}
    (h : checkAllowedClientAddress server socket = .ok ()) :
    socket.localLoopback = true ∨ socket.hostAddress ∈ server.allowFrom := by
  unfold checkAllowedClientAddress isAllowedClientAddress at h
  by_cases hloop : socket.localLoopback = true
  · exact .inl hloop
  · right
    by_contra hnot
    have hany : (server.allowFrom.any fun address => socket.hostAddress = address) = false := by
      rw [List.any_eq_false]
      intro address hmem heq
      rw [decide_eq_true_eq] at heq
      exact hnot (heq ▸ hmem)
    rw [if_neg hloop, hany] at h
    cases h

theorem checkAllowedClientAddress_of_allowed {server : GroovyServer} {socket : Socket}
    (h : socket.localLoopback = true ∨ socket.hostAddress ∈ server.allowFrom) :
    checkAllowedClientAddress server socket = .ok () := by
  have hallowed : isAllowedClientAddress server socket = true := by
    rw [isAllowedClientAddress]
    split_ifs with hloop
    · rfl
    · rw [List.any_eq_true]
      exact ⟨_, h.resolve_left hloop, decide_eq_true rfl⟩
  rw [checkAllowedClientAddress, hallowed]
  rfl

/-- The check lets through the server's token only. -/
theorem InvocationRequest.check_ok {request : InvocationRequest} {sleepInterrupted : Bool}
    (h : request.check sleepInterrupted = .ok ()) :
    ∃ auth ∈ request.clientAuthToken, auth ≠ [] ∧ ∃ t ∈ request.serverAuthToken,
      auth = t.token := by
  unfold check at h
  split_ifs at h with hcond
  simp only [Bool.not_eq_true, Bool.or_eq_false_iff, Bool.not_eq_false'] at hcond
  obtain ⟨⟨htruth, -⟩, hvalid⟩ := hcond
  obtain ⟨auth, hauth, hne⟩ := (Option.any_eq_true _ _).mp htruth
  obtain ⟨t, htoken, hvalid⟩ := (Option.any_eq_true _ _).mp hvalid
  rw [hauth, Option.any_some, AuthToken.isValid, decide_eq_true_eq] at hvalid
  exact ⟨auth, hauth, of_decide_eq_true hne, t, htoken, hvalid.symm⟩

theorem openSession_ok {a : Accepted} {request : InvocationRequest} {rest : Bytes}
    (h : openSession a = .ok (request, rest)) : Authorized a.server a.socket a.bytes := by
  obtain ⟨_, haddress, h⟩ := bind_eq_ok.mp h
  obtain ⟨⟨headers, rest'⟩, hheaders, h⟩ := bind_eq_ok.mp h
  obtain ⟨args, -, h⟩ := bind_eq_ok.mp h
  obtain ⟨_, hcheck, -⟩ := bind_eq_ok.mp h
  have hfirst : headers.first headerKeyAuthtoken = firstAuth a.bytes := by
    rw [parseHeaders_ok hheaders, first_headersOf, firstAuth]
  obtain ⟨auth, hauth, hvalid⟩ := InvocationRequest.check_ok hcheck
  exact ⟨checkAllowedClientAddress_ok haddress, auth, hfirst ▸ hauth, hvalid⟩

theorem refuse_cases (stop : Stop) : refuse stop = [] ∨
    ∃ status message, status ≠ 0 ∧ refuse stop = [.sendStatus status message] := by
  cases stop with
  | blocked => exact .inl rfl
  | threw e =>
    rw [refuse]
    cases he : e.gserv with
    | none => exact .inl rfl
    | some r => exact .inr ⟨r.1.code, some r.2, e.gserv_code_ne_zero he, rfl⟩

/-- A run that does anything but send one failure status was authorized. -/
theorem runRequestWorker_authorized (a : Accepted) :
    ((∃ action ∈ runRequestWorker a, action.Privileged) →
      Authorized a.server a.socket a.bytes) ∧
    (¬ Authorized a.server a.socket a.bytes → runRequestWorker a = [] ∨
      ∃ status message, status ≠ 0 ∧ runRequestWorker a = [.sendStatus status message]) := by
  cases hopen : openSession a with
  | ok r => exact ⟨fun _ => openSession_ok hopen, fun hnot => absurd (openSession_ok hopen) hnot⟩
  | error stop =>
    have hrun : runRequestWorker a = refuse stop := by rw [runRequestWorker, hopen]
    rw [hrun]
    refine ⟨fun hact => ?_, fun _ => refuse_cases stop⟩
    obtain ⟨action, hmem, hpriv⟩ := hact
    rcases refuse_cases stop with hnil | ⟨status, message, hstatus, hone⟩
    · rw [hnil] at hmem
      cases hmem
    · rw [hone, List.mem_singleton] at hmem
      rw [hmem] at hpriv
      exact absurd hpriv hstatus

end GroovyServ.Server
