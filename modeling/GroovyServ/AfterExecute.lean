import GroovyServ.RequestWorker
import GroovyServ.StepSystem
import GroovyServ.StreamRequestHandler

/-!
# How a session of the request worker ends

The two handlers of a session run as future tasks on threads of their own. A thread
whose task has ended runs `afterExecute`: it takes its own exit status, cancels the
other task if that is not done, and closes the connection unless that has been
done. These are its steps, and `terminated` comes after both threads. A cancelled
task keeps running until its handler ends, and its status is that of a
cancellation.
-/

namespace GroovyServ.Server

inductive Handler where
  | stream
  | invoke
  deriving DecidableEq

def Handler.other : Handler → Handler
  | stream => invoke
  | invoke => stream

inductive FutureState where
  | running
  | done (handlerEnd : HandlerEnd)
  | cancelled
  deriving DecidableEq

namespace FutureState

def complete (handlerEnd : HandlerEnd) : FutureState → FutureState
  | running => done handlerEnd
  | future => future

def cancel : FutureState → FutureState
  | running => cancelled
  | future => future

end FutureState

def getExitStatus : FutureState → Option ℤ
  | .running => none
  | .cancelled => some ExitStatus.interrupted.code
  | .done .blocked => none
  | .done .returned => some ExitStatus.success.code
  | .done (.threw e) =>
    match e with
    | .interrupted => some ExitStatus.interrupted.code
    | .gservInterrupted _ => some ExitStatus.interrupted.code
    | .systemExit exitStatus => some exitStatus
    | e =>
      match e.gserv with
      | some (status, _) => some status.code
      | none => some ExitStatus.unexpectedError.code

inductive ThreadPhase where
  | executing
  | afterExecute
  | statusTaken (exitStatus : ℤ)
  | otherStopped (exitStatus : ℤ)
  | finished
  deriving DecidableEq

inductive Closer where
  | afterExecute (h : Handler)
  | terminated
  deriving DecidableEq

/-- `log` is what has been done to the connection and by whom. -/
structure Worker where
  future : Handler → FutureState := fun _ => .running
  thread : Handler → ThreadPhase := fun _ => .executing
  connected : Bool := true
  log : List (Closer × Action) := []

/-- A handler ends by what its `try` block throws or, in the case of the script's,
returns; `sendFails` is whether `sendExit` throws before the status is written. One
that throws after it is caught, and the worker goes on as if it had returned. -/
inductive WorkerStep where
  | streamEnds (e : JException)
  | invokeEnds (body : Except JException Unit)
  | getExitStatus (h : Handler)
  | cancelAnother (h : Handler)
  | closeSafely (h : Handler) (sendFails : Bool)
  | terminated (sendFails : Bool)

/-- Only scripts call `System.exit`. -/
def JException.isSystemExit : JException → Bool
  | systemExit _ => true
  | _ => false

namespace Worker

def ends (w : Worker) (h : Handler) (handlerEnd : HandlerEnd) : Option Worker :=
  if w.thread h = .executing then
    some { w with
      future := Function.update w.future h ((w.future h).complete handlerEnd)
      thread := Function.update w.thread h .afterExecute }
  else none

def closeSafely (silentExitStatus : Bool) (w : Worker) (closer : Closer) (exitStatus : ℤ)
    (sendFails : Bool) : Worker :=
  if w.connected then
    { w with
      connected := false
      log := w.log ++ (if sendFails then [.closeConnection]
        else Server.closeSafely silentExitStatus exitStatus).map (closer, ·) }
  else w

def step (silentExitStatus : Bool) (w : Worker) : WorkerStep → Option Worker
  | .streamEnds e =>
    if e.isSystemExit then none else w.ends .stream (streamRequestHandlerCatch (.threw e))
  | .invokeEnds body => w.ends .invoke (invokeHandlerEnd body)
  | .getExitStatus h =>
    if w.thread h = .afterExecute then
      (Server.getExitStatus (w.future h)).map fun exitStatus =>
        { w with thread := Function.update w.thread h (.statusTaken exitStatus) }
    else none
  | .cancelAnother h =>
    match w.thread h with
    | .statusTaken exitStatus =>
      some { w with
        future := Function.update w.future h.other (w.future h.other).cancel
        thread := Function.update w.thread h (.otherStopped exitStatus) }
    | _ => none
  | .closeSafely h sendFails =>
    match w.thread h with
    | .otherStopped exitStatus =>
      some { w.closeSafely silentExitStatus (.afterExecute h) exitStatus sendFails with
        thread := Function.update w.thread h .finished }
    | _ => none
  | .terminated sendFails =>
    if w.thread .stream = .finished ∧ w.thread .invoke = .finished then
      some (w.closeSafely silentExitStatus .terminated ExitStatus.terminated.code sendFails)
    else none

end Worker

def workerSystem (silentExitStatus : Bool) : StepSystem Worker WorkerStep :=
  ⟨Worker.step silentExitStatus⟩

end GroovyServ.Server
