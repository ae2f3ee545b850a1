import GroovyServ.ResponseHeaders
import GroovyServ.ResponseStream

/-!
# The C client's session loop

`sessionStep` is one iteration of the loop of `start_session`: a `select`, and
then either a chunk of standard input sent to the server, a response received
from it, or nothing. `receiveFromServer` and `sendToServer` follow the functions
of the same names. What the system calls answer is a parameter; a session that
has ended stays as it is.
-/

namespace GroovyServ.Client

open CLib

inductive Select where
  | failed
  | timeout
  | ready (stdin socket : Bool)
  deriving DecidableEq

/-- The answers of the system: how many bytes the `k`-th `recv` offers, how many
the `k`-th `read` of standard input offers (`none` for an error), and what the
`k`-th `select` reports. -/
structure System where
  recvOffer : ℕ → ℕ
  stdinOffer : ℕ → Option ℕ
  select : ℕ → Select

inductive SessionEnd where
  | returned (status : ℤ)
  | halted (halt : Halt)
  deriving DecidableEq

/-- `socket` and `stdin` are the bytes still to be read from each; `written` are
the writes to the socket. -/
structure Session where
  socket : Bytes
  stdin : Bytes
  headers : List Header
  stdinClosed : Bool := false
  recvs : ℕ := 0
  reads : ℕ := 0
  selects : ℕ := 0
  out : Bytes := []
  err : Bytes := []
  written : List Bytes := []
  ended : Option SessionEnd := none

namespace Session

def emit (s : Session) (channel : Channel) (data : Bytes) : Session :=
  match channel with
  | .out => { s with out := s.out ++ data }
  | .err => { s with err := s.err ++ data }

def finish (s : Session) (status : ℤ) : Session := { s with ended := some (.returned status) }

def halt (s : Session) (h : Halt) : Session :=
  match h with
  | .exit code message =>
    { s with err := s.err ++ message, ended := some (.halted (.exit code message)) }
  | h => { s with ended := some (.halted h) }

def refuse (s : Session) (message : Bytes) : Session :=
  { s with err := s.err ++ message, ended := some (.returned 1) }

end Session

/-- The copy loop, with the bytes that remain to be received; each turn receives
at least one, so their number is fuel enough. -/
def receiveLoop (sys : System) (channel : Channel) : ℕ → ℕ → Session → Session
  | 0, _, s => s
  | fuel + 1, remained, s =>
    let asked := min remained bufferSize
    if asked = 0 ∨ s.socket = [] then s
    else
      let ret := shortCount (sys.recvOffer s.recvs) asked s.socket.length
      receiveLoop sys channel fuel (remained - ret)
        ({ s with socket := s.socket.drop ret, recvs := s.recvs + 1 }.emit channel
          (s.socket.take ret))

def receiveFromServer (sys : System) (channel : Bytes) (size : ℤ) (s : Session) : Session :=
  if strcmpZero channel (ascii "out") then receiveLoop sys .out size.toNat size.toNat s
  else if strcmpZero channel (ascii "err") then receiveLoop sys .err size.toNat size.toNat s
  else s.halt (.exit 1 (ascii "ERROR: unrecognized stream channel: " ++ cString channel ++ [lf]))

def streamRequestHeader (n : ℕ) : Bytes := ascii "Size: " ++ (decimal n ++ [lf, lf])

def sendToServer (sys : System) (s : Session) : Session :=
  match sys.stdinOffer s.reads with
  | none => s.halt (.exit 1 (ascii "ERROR: could not read standard input"))
  | some offer =>
    let ret := if s.stdin = [] then 0 else shortCount offer bufferSize s.stdin.length
    { s with
      stdin := s.stdin.drop ret
      reads := s.reads + 1
      written := s.written ++ [streamRequestHeader ret, s.stdin.take ret]
      stdinClosed := decide (ret = 0) }

def receiveResponse (sys : System) (s : Session) : Session :=
  match readHeaders s.headers s.socket with
  | .error h => s.halt h
  | .ok (size, headers, rest) =>
    let s := { s with headers := headers, socket := rest }
    if size = 0 then s.finish 0
    else
      match findHeader headers headerKeyStatus size with
      | .error h => s.halt h
      | .ok (some status) => s.finish (atoi status)
      | .ok none =>
        match findHeader headers headerKeyChannel size with
        | .error h => s.halt h
        | .ok none => s.refuse (ascii "ERROR: required header Channel not found\n")
        | .ok (some sid) =>
          match findHeader headers headerKeySize size with
          | .error h => s.halt h
          | .ok none => s.refuse (ascii "ERROR: required header Size not found\n")
          | .ok (some chunkSize) => receiveFromServer sys sid (atoi chunkSize) s

def sessionStep (sys : System) (s : Session) : Session :=
  if s.ended.isSome then s
  else
    let s' := { s with selects := s.selects + 1 }
    match sys.select s.selects with
    | .failed => s'.halt (.exit 1 (ascii "ERROR: could not select I/O"))
    | .timeout =>
      s'.emit .err (ascii "ERROR: could not receive return value (might timeout)\n")
    | .ready stdin socket =>
      if s.stdinClosed = false ∧ stdin = true then sendToServer sys s'
      else if socket = false then s'
      else receiveResponse sys s'

def runSession (sys : System) (n : ℕ) (s : Session) : Session := (sessionStep sys)^[n] s

/-- `start_session` before its first `select`: the array of headers is not
initialised. -/
def startSession (headers : List Header) (socket stdin : Bytes) : Session :=
  { socket := socket, stdin := stdin, headers := headers }

theorem sessionStep_of_ended (sys : System) {s : Session} (hs : s.ended.isSome = true) :
    sessionStep sys s = s := by
  rw [sessionStep, if_pos hs]

theorem runSession_of_ended (sys : System) (n : ℕ) {s : Session} (hs : s.ended.isSome = true) :
    runSession sys n s = s :=
  Function.iterate_fixed (sessionStep_of_ended sys hs) n

theorem runSession_add (sys : System) (m n : ℕ) (s : Session) :
    runSession sys (m + n) s = runSession sys m (runSession sys n s) :=
  Function.iterate_add_apply _ m n s

theorem runSession_of_le (sys : System) {m n : ℕ} (hmn : m ≤ n) {s : Session}
    (hs : (runSession sys m s).ended.isSome = true) :
    runSession sys n s = runSession sys m s := by
  obtain ⟨k, rfl⟩ := Nat.exists_eq_add_of_le' hmn
  rw [runSession_add, runSession_of_ended sys k hs]

end GroovyServ.Client
