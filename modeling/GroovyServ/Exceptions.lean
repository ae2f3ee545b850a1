import GroovyServ.Bytes

/-!
# The server's exit statuses and exceptions

The codes of `ExitStatus`, the exceptions that the server's code throws or tells
apart in its catch clauses, the statuses that the subclasses of `GServException`
carry, and the catch clauses of `GroovyInvokeHandler.run`. A message is given where
it reaches the client.
-/

namespace GroovyServ.Server

inductive ExitStatus where
  | success
  | interrupted
  | invalidRequest
  | ioError
  | illegalState
  | terminated
  | commandError
  | invalidAuthtoken
  | clientNotAllowed
  | unexpectedError
  | forcelyShutdown
  deriving DecidableEq

def ExitStatus.code : ExitStatus → ℤ
  | success => 0
  | interrupted => 1
  | invalidRequest => 2
  | ioError => 3
  | illegalState => 4
  | terminated => 5
  | commandError => 6
  | invalidAuthtoken => 201
  | clientNotAllowed => 202
  | unexpectedError => -1
  | forcelyShutdown => 99

/-- `invalidAuthToken` is a subclass of `invalidRequestHeader`, `interruptedIo`
of `io`, and everything but `interrupted`, the two of them and `error` is a
`RuntimeException`. -/
inductive JException where
  | clientNotAllowed (message : Bytes)
  | gservIo (message : Bytes)
  | gservIllegalState (message : Bytes)
  | gservInterrupted (message : Bytes)
  | invalidRequestHeader (message : Bytes)
  | invalidAuthToken (message : Bytes)
  | systemExit (exitStatus : ℤ)
  | runtime
  | interrupted
  | interruptedIo
  | io (message : Bytes)
  | error
  deriving DecidableEq

def JException.gserv : JException → Option (ExitStatus × Bytes)
  | clientNotAllowed message => some (.clientNotAllowed, message)
  | gservIo message => some (.ioError, message)
  | gservIllegalState message => some (.illegalState, message)
  | gservInterrupted message => some (.interrupted, message)
  | invalidRequestHeader message => some (.invalidRequest, message)
  | invalidAuthToken message => some (.invalidAuthtoken, message)
  | _ => none

inductive HandlerEnd where
  | blocked
  | returned
  | threw (e : JException)
  deriving DecidableEq

/-- How `GroovyInvokeHandler.run` ends when its `try` block ends so. -/
def invokeHandlerEnd : Except JException Unit → HandlerEnd
  | .ok () => .returned
  | .error .interrupted => .returned
  | .error e => .threw e

def resetsDir (shouldResetCurrentDir : Bool) : Except JException Unit → Bool
  | .error (.gservIllegalState _) => false
  | _ => shouldResetCurrentDir

/-- No `GServException` carries the status of success. -/
theorem JException.gserv_code_ne_zero {e : JException} {status : ExitStatus} {message : Bytes}
    (h : e.gserv = some (status, message)) : status.code ≠ 0 := by
  cases e with
  | clientNotAllowed m => cases h; decide
  | gservIo m => cases h; decide
  | gservIllegalState m => cases h; decide
  | gservInterrupted m => cases h; decide
  | invalidRequestHeader m => cases h; decide
  | invalidAuthToken m => cases h; decide
  | systemExit status => cases h
  | runtime => cases h
  | interrupted => cases h
  | interruptedIo => cases h
  | io m => cases h
  | error => cases h

end GroovyServ.Server
