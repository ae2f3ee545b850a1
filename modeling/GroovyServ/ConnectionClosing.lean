import GroovyServ.Base64
import GroovyServ.SessionStatus

/-!
# Closing the connection

The worker's executor with what `SessionStatus` leaves out: the wait of
`afterExecute` for the two futures can be interrupted, and then the thread is gone
without having closed the connection. The connection is closed at most once, with
at most one status before it. A connection that is refused is never closed.
-/

namespace GroovyServ.Server

open Lines

/-- `threw` are the threads that `afterExecute` left by an exception. -/
structure Executor where
  worker : Worker := {}
  threw : Handler → Bool := fun _ => false
  terminated : Bool := false

inductive ExecutorStep where
  | worker (label : WorkerStep)
  | afterExecuteThrows (h : Handler)

def WorkerStep.isTerminated : WorkerStep → Bool
  | terminated _ => true
  | _ => false

def Executor.step (silentExitStatus : Bool) (s : Executor) : ExecutorStep → Option Executor
  | .worker label => (s.worker.step silentExitStatus label).map fun w =>
      { s with worker := w, terminated := s.terminated || label.isTerminated }
  | .afterExecuteThrows h =>
    if s.worker.thread h = .afterExecute then
      some { s with
        worker := { s.worker with thread := Function.update s.worker.thread h .finished }
        threw := Function.update s.threw h true }
    else none

def executorSystem (silentExitStatus : Bool) : StepSystem Executor ExecutorStep :=
  ⟨Executor.step silentExitStatus⟩

def Action.isStatus : Action → Bool
  | sendStatus _ _ => true
  | _ => false

def Action.isClose : Action → Bool
  | closeConnection => true
  | _ => false

section Connection

variable {silentExitStatus : Bool} {w w' : Worker}

theorem step_connection {label : WorkerStep} (hstep : w.step silentExitStatus label = some w') :
    (w'.connected = w.connected ∧ w'.log = w.log ∧ label.isTerminated = false) ∨
      ∃ closer exitStatus sendFails,
        w'.connected = (w.closeSafely silentExitStatus closer exitStatus sendFails).connected ∧
        w'.log = (w.closeSafely silentExitStatus closer exitStatus sendFails).log := by
  cases label with
  | streamEnds e =>
    obtain ⟨-, rfl⟩ := ends_eq_some (step_streamEnds hstep).2
    exact .inl ⟨rfl, rfl, rfl⟩
  | invokeEnds body =>
    obtain ⟨-, rfl⟩ := ends_eq_some hstep
    exact .inl ⟨rfl, rfl, rfl⟩
  | getExitStatus h =>
    obtain ⟨exitStatus, -, rfl⟩ := step_getExitStatus hstep
    exact .inl ⟨rfl, rfl, rfl⟩
  | cancelAnother h =>
    obtain ⟨exitStatus, -, rfl⟩ := step_cancelAnother hstep
    exact .inl ⟨rfl, rfl, rfl⟩
  | closeSafely h sendFails =>
    obtain ⟨exitStatus, -, rfl⟩ := step_closeSafely hstep
    exact .inr ⟨.afterExecute h, exitStatus, sendFails, rfl, rfl⟩
  | terminated sendFails =>
    obtain ⟨-, rfl⟩ := step_terminated hstep
    exact .inr ⟨.terminated, _, sendFails, rfl, rfl⟩

def ClosingLog (silentExitStatus : Bool) (w : Worker) : Prop :=
  (w.connected = true ∧ w.log = []) ∨ (w.connected = false ∧ ∃ closer,
    w.log = [(closer, .closeConnection)] ∨ (silentExitStatus = false ∧ ∃ status,
      w.log = [(closer, .sendStatus status none), (closer, .closeConnection)]))

theorem ClosingLog.closeSafely (h : ClosingLog silentExitStatus w) (closer : Closer)
    (exitStatus : ℤ) (sendFails : Bool) :
    ClosingLog silentExitStatus (w.closeSafely silentExitStatus closer exitStatus sendFails) := by
  rcases h with ⟨hconnected, hlog⟩ | ⟨hconnected, hlog⟩
  · rw [Worker.closeSafely, if_pos hconnected, hlog]
    refine .inr ⟨rfl, closer, ?_⟩
    cases sendFails with
    | true => exact .inl rfl
    | false =>
      cases silentExitStatus with
      | true => exact .inl rfl
      | false => exact .inr ⟨rfl, exitStatus, rfl⟩
  · rw [Worker.closeSafely, if_neg (by simp [hconnected])]
    exact .inr ⟨hconnected, hlog⟩

theorem ClosingLog.of_connection (h : ClosingLog silentExitStatus w)
    (hconnected : w'.connected = w.connected) (hlog : w'.log = w.log) :
    ClosingLog silentExitStatus w' := by
  rw [ClosingLog, hconnected, hlog]
  exact h

theorem ClosingLog.step (h : ClosingLog silentExitStatus w) {label : WorkerStep}
    (hstep : w.step silentExitStatus label = some w') : ClosingLog silentExitStatus w' := by
  rcases step_connection hstep with ⟨hconnected, hlog, -⟩ | ⟨closer, exitStatus, sendFails, hc, hl⟩
  · exact h.of_connection hconnected hlog
  · exact (h.closeSafely closer exitStatus sendFails).of_connection hc hl

theorem connected_step {label : WorkerStep} (hstep : w.step silentExitStatus label = some w')
    (hclosed : w.connected = false) : w'.connected = false := by
  rcases step_connection hstep with ⟨hconnected, -, -⟩ | ⟨closer, exitStatus, sendFails, hc, -⟩
  · rw [hconnected, hclosed]
  · rw [hc, connected_closeSafely]

theorem finished_step {label : WorkerStep} (hstep : w.step silentExitStatus label = some w')
    {h : Handler} (hfinished : w'.thread h = .finished) :
    w.thread h = .finished ∨ w'.connected = false := by
  have hupdate : ∀ h' phase, phase ≠ ThreadPhase.finished →
      Function.update w.thread h' phase h = .finished → w.thread h = .finished := by
    intro h' phase hphase hthread
    by_cases hh : h = h'
    · subst hh
      rw [Function.update_self] at hthread
      exact absurd hthread hphase
    · rwa [Function.update_of_ne hh] at hthread
  cases label with
  | streamEnds e =>
    obtain ⟨-, rfl⟩ := ends_eq_some (step_streamEnds hstep).2
    exact .inl (hupdate .stream .afterExecute nofun hfinished)
  | invokeEnds body =>
    obtain ⟨-, rfl⟩ := ends_eq_some hstep
    exact .inl (hupdate .invoke .afterExecute nofun hfinished)
  | getExitStatus h' =>
    obtain ⟨exitStatus, -, rfl⟩ := step_getExitStatus hstep
    exact .inl (hupdate h' (.statusTaken exitStatus) nofun hfinished)
  | cancelAnother h' =>
    obtain ⟨exitStatus, -, rfl⟩ := step_cancelAnother hstep
    exact .inl (hupdate h' (.otherStopped exitStatus) nofun hfinished)
  | closeSafely h' sendFails =>
    obtain ⟨exitStatus, -, rfl⟩ := step_closeSafely hstep
    exact .inr (connected_closeSafely w _ _ _)
  | terminated sendFails =>
    obtain ⟨-, rfl⟩ := step_terminated hstep
    exact .inr (connected_closeSafely w _ _ _)

end Connection

structure Closing (silentExitStatus : Bool) (s : Executor) : Prop where
  log : ClosingLog silentExitStatus s.worker
  finished : ∀ h, s.worker.thread h = .finished → s.threw h = false → s.worker.connected = false
  terminated : s.terminated = true → s.worker.connected = false

theorem closing_start (silentExitStatus : Bool) : Closing silentExitStatus {} where
  log := .inl ⟨rfl, rfl⟩
  finished _ h := by cases h
  terminated h := by cases h

theorem Closing.step {silentExitStatus : Bool} {s s' : Executor} (hs : Closing silentExitStatus s)
    {label : ExecutorStep} (hstep : s.step silentExitStatus label = some s') :
    Closing silentExitStatus s' := by
  cases label with
  | worker label =>
    obtain ⟨w, hw, rfl⟩ := Option.map_eq_some_iff.mp hstep
    refine ⟨hs.log.step hw, fun h hfinished hnormal => ?_, fun hterminated => ?_⟩
    · rcases finished_step hw hfinished with hold | hclosed
      · exact connected_step hw (hs.finished h hold hnormal)
      · exact hclosed
    · rcases step_connection hw with ⟨-, -, hlabel⟩ | ⟨closer, exitStatus, sendFails, hc, -⟩
      · simp only [hlabel, Bool.or_false] at hterminated
        exact connected_step hw (hs.terminated hterminated)
      · exact hc.trans (connected_closeSafely _ _ _ _)
  | afterExecuteThrows h =>
    simp only [Executor.step, Option.ite_none_right_eq_some, Option.some.injEq] at hstep
    obtain ⟨-, rfl⟩ := hstep
    refine ⟨hs.log, fun h' hfinished hnormal => ?_, hs.terminated⟩
    by_cases hh : h' = h
    · subst hh
      simp at hnormal
    · simp only [Function.update_of_ne hh] at hfinished hnormal
      exact hs.finished h' hfinished hnormal

theorem closing_of_run {silentExitStatus : Bool} {labels : List ExecutorStep} {s : Executor}
    (hrun : (executorSystem silentExitStatus).run {} labels = some s) :
    Closing silentExitStatus s :=
  StepSystem.run_invariant (fun _ _ _ h hstep => h.step hstep) (closing_start silentExitStatus) hrun

/-- What the worker does with the connection once its handlers are submitted: it
sends at most one status, none in the mode without headers, closes at most once, and
sends nothing after that; and when both threads have left `afterExecute` normally it
has closed. -/
structure ClosedOnce (silentExitStatus : Bool) (s : Executor) : Prop where
  status : (s.worker.log.countP fun e => e.2.isStatus) ≤ 1
  close : (s.worker.log.countP fun e => e.2.isClose) ≤ 1
  statusFirst : ∀ before closer after,
    s.worker.log = before ++ (closer, Action.closeConnection) :: after →
      ∀ e ∈ after, e.2.isStatus = false
  closed : (∀ h, s.worker.thread h = .finished ∧ s.threw h = false) →
    (s.worker.log.countP fun e => e.2.isClose) = 1
  simple : silentExitStatus = true → (s.worker.log.countP fun e => e.2.isStatus) = 0

theorem ClosingLog.closedOnce {silentExitStatus : Bool} {s : Executor}
    (hlog : ClosingLog silentExitStatus s.worker)
    (hclosed : (∀ h, s.worker.thread h = .finished ∧ s.threw h = false) →
      s.worker.connected = false) : ClosedOnce silentExitStatus s := by
  rcases hlog with ⟨hconnected, hlog⟩ | ⟨-, closer, hlog | ⟨hsilent, status, hlog⟩⟩
  · have hopen : ¬ ∀ h, s.worker.thread h = .finished ∧ s.threw h = false := by
      intro h
      rw [hclosed h] at hconnected
      cases hconnected
    constructor <;> simp [hlog, hopen]
  · refine ⟨by simp [hlog, Action.isStatus], by simp [hlog, Action.isClose],
      fun before closer' after heq => ?_, fun _ => by simp [hlog, Action.isClose],
      fun _ => by simp [hlog, Action.isStatus]⟩
    rw [hlog] at heq
    have hlength := congrArg List.length heq
    simp only [List.length_append, List.length_cons, List.length_nil] at hlength
    have hafter : after = [] := List.eq_nil_of_length_eq_zero (by omega)
    simp [hafter]
  · refine ⟨by simp [hlog, Action.isStatus], by simp [hlog, Action.isClose],
      fun before closer' after heq => ?_, fun _ => by simp [hlog, Action.isClose],
      fun htrue => by rw [hsilent] at htrue; cases htrue⟩
    rw [hlog] at heq
    cases before with
    | nil => cases heq
    | cons e before =>
      have hlength := congrArg List.length heq
      simp only [List.length_append, List.length_cons, List.length_nil] at hlength
      have hafter : after = [] := List.eq_nil_of_length_eq_zero (by omega)
      simp [hafter]

/-- However the two threads and `terminated` are interleaved, the connection is
closed once. -/
theorem closedOnce_of_run {silentExitStatus : Bool} {labels : List ExecutorStep} {s : Executor}
    (hrun : (executorSystem silentExitStatus).run {} labels = some s) :
    ClosedOnce silentExitStatus s := by
  have hclosing := closing_of_run hrun
  exact hclosing.log.closedOnce fun hnormal =>
    hclosing.finished .stream (hnormal .stream).1 (hnormal .stream).2

theorem closedOnce_of_run_both : ∃ s,
    (executorSystem false).run {} [.worker (.invokeEnds (.ok ())), .worker (.getExitStatus .invoke),
      .worker (.cancelAnother .invoke), .worker (.streamEnds (.gservInterrupted [])),
      .worker (.getExitStatus .stream), .worker (.cancelAnother .stream),
      .worker (.closeSafely .stream true), .worker (.closeSafely .invoke false),
      .worker (.terminated false)] = some s ∧ ClosedOnce false s := by
  obtain ⟨s, hs⟩ : ∃ s, (executorSystem false).run {} [.worker (.invokeEnds (.ok ())),
      .worker (.getExitStatus .invoke), .worker (.cancelAnother .invoke),
      .worker (.streamEnds (.gservInterrupted [])), .worker (.getExitStatus .stream),
      .worker (.cancelAnother .stream), .worker (.closeSafely .stream true),
      .worker (.closeSafely .invoke false), .worker (.terminated false)] = some s := ⟨_, rfl⟩
  exact ⟨s, hs, closedOnce_of_run hs⟩

/-- The request whose handlers the worker submits, if it does. -/
def handledRequest (a : Accepted) : Option InvocationRequest :=
  match openSession a with
  | .ok (request, _) =>
    if request.command = some (ascii "ping") ∨ request.command = some (ascii "shutdown") then none
    else some request
  | .error _ => none

def connectionSystem (a : Accepted) : StepSystem Executor ExecutorStep :=
  ⟨fun s label => (handledRequest a).bind fun request => s.step request.silentExitStatus label⟩

/-- What is done with the connection by `run` and by the threads of the handlers. -/
def connectionLog (a : Accepted) (s : Executor) : List Action :=
  runRequestWorker a ++ s.worker.log.map Prod.snd

/-- `run` has come to its end and so have the threads of the handlers that it has
submitted; where none has left `afterExecute` normally, `terminated` has followed. -/
def Ended (a : Accepted) (s : Executor) : Prop :=
  openSession a ≠ .error .blocked ∧ ((handledRequest a).isSome = true →
    (∀ h, s.worker.thread h = .finished) ∧ (s.terminated = true ∨ ∃ h, s.threw h = false))

/-- No outcome leaves the connection open. -/
def AlwaysClosed (a : Accepted) : Prop :=
  ∀ labels s, (connectionSystem a).run {} labels = some s → Ended a s →
    Action.closeConnection ∈ connectionLog a s

/-- The header block that arrives is read to its end, the arguments in it decode,
and it shows the server's token. -/
def AcceptsLines (a : Accepted) (lines : List Bytes) : Prop :=
  (∀ arg ∈ valuesOf lines headerKeyArg, (a.decodeBase64 arg).isSome = true) ∧
    ∃ auth ∈ (valuesOf lines headerKeyAuthtoken).head?, auth ≠ [] ∧
      ∃ t ∈ a.server.authToken, auth = t.token

/-- The address is let in, and the header block is accepted or never ends. -/
def NotRefused (a : Accepted) : Prop :=
  isAllowedClientAddress a.server a.socket = true ∧
    match readLines a.ending a.bytes with
    | .ok (lines, _) => AcceptsLines a lines
    | .error stop => stop = .blocked

theorem decodeArgs_cases (decodeBase64 : Bytes → Option Bytes) (encoded : Option (List Bytes)) :
    ((∀ s ∈ encoded.getD [], (decodeBase64 s).isSome = true) ∧
      ∃ args, decodeArgs decodeBase64 encoded = .ok args) ∨
    ((¬ ∀ s ∈ encoded.getD [], (decodeBase64 s).isSome = true) ∧
      ∃ e, decodeArgs decodeBase64 encoded = .error (.threw e)) := by
  unfold decodeArgs
  induction encoded.getD [] with
  | nil => exact .inl ⟨fun s hs => (by cases hs), [], rfl⟩
  | cons s ss ih =>
    rw [List.mapM_cons, List.forall_mem_cons]
    cases hdecode : decodeBase64 s with
    | none => exact .inr ⟨fun h => (by simp at h), _, rfl⟩
    | some arg =>
      rcases ih with ⟨hall, args, hargs⟩ | ⟨hnot, e, he⟩
      · exact .inl ⟨⟨rfl, hall⟩, arg :: args, by rw [hargs]; rfl⟩
      · exact .inr ⟨fun h => hnot h.2, e, by rw [he]; rfl⟩

theorem InvocationRequest.check_cases (request : InvocationRequest) (sleepInterrupted : Bool) :
    request.check sleepInterrupted = .ok () ∨
      ∃ e, request.check sleepInterrupted = .error (.threw e) := by
  unfold InvocationRequest.check
  split_ifs
  · exact .inr ⟨_, rfl⟩
  · exact .inr ⟨_, rfl⟩
  · exact .inl rfl

theorem openSession_cases (a : Accepted) :
    (NotRefused a ∧ (openSession a = .error .blocked ∨ ∃ r, openSession a = .ok r)) ∨
      (¬ NotRefused a ∧ ∃ e, openSession a = .error (.threw e)) := by
  rw [openSession, checkAllowedClientAddress]
  by_cases haddress : isAllowedClientAddress a.server a.socket = true
  swap
  · rw [if_pos (by simp [haddress])]
    exact .inr ⟨fun h => haddress h.1, _, rfl⟩
  rw [if_neg (by simp [haddress]), ok_bind, NotRefused, readInvocationRequest, parseHeaders]
  cases hlines : readLines a.ending a.bytes with
  | error stop =>
    cases stop with
    | blocked => exact .inl ⟨⟨haddress, rfl⟩, .inl rfl⟩
    | threw e =>
      refine .inr ⟨fun h => (by cases h.2), ?_⟩
      cases e <;> exact ⟨_, rfl⟩
  | ok r =>
    obtain ⟨lines, rest⟩ := r
    have hargs : ((headersOf lines).get headerKeyArg).getD [] = valuesOf lines headerKeyArg := by
      rw [get_headersOf]
      split_ifs with hnil
      · exact hnil.symm
      · rfl
    dsimp only
    rw [ok_bind]
    dsimp only
    rcases decodeArgs_cases a.decodeBase64 ((headersOf lines).get headerKeyArg) with
      ⟨hdecode, args, hok⟩ | ⟨hdecode, e, he⟩
    · rw [hargs] at hdecode
      rw [hok, ok_bind]
      set request : InvocationRequest :=
        { port := a.socket.port
          cwd := (headersOf lines).first headerKeyCurrentWorkingDir
          classpath := (headersOf lines).first headerKeyCp
          args := args
          clientAuthToken := (headersOf lines).first headerKeyAuthtoken
          serverAuthToken := a.server.authToken
          envVars := (headersOf lines).get headerKeyEnv
          protocol := (headersOf lines).first headerKeyProtocol
          command := (headersOf lines).first headerKeyCommand }
      rcases request.check_cases a.sleepInterrupted with hcheck | ⟨e, hcheck⟩
      · obtain ⟨auth, hauth, hne, htoken⟩ := InvocationRequest.check_ok hcheck
        have hfirst : auth ∈ (headersOf lines).first headerKeyAuthtoken := hauth
        rw [first_headersOf] at hfirst
        rw [hcheck]
        exact .inl ⟨⟨haddress, hdecode, auth, hfirst, hne, htoken⟩, .inr ⟨_, rfl⟩⟩
      · rw [hcheck]
        refine .inr ⟨fun h => ?_, e, rfl⟩
        obtain ⟨auth, hauth, hne, t, htoken, heq⟩ := h.2.2
        rw [InvocationRequest.check_of_token ((first_headersOf _ _).trans hauth) hne htoken heq]
          at hcheck
        cases hcheck
    · rw [hargs] at hdecode
      rw [he]
      exact .inr ⟨fun h => hdecode h.2.1, e, rfl⟩

theorem closeConnection_mem_of_ended {silentExitStatus : Bool} {labels : List ExecutorStep}
    {s : Executor} (hrun : (executorSystem silentExitStatus).run {} labels = some s)
    (hfinished : ∀ h, s.worker.thread h = .finished)
    (hlast : s.terminated = true ∨ ∃ h, s.threw h = false) :
    Action.closeConnection ∈ s.worker.log.map Prod.snd := by
  have hclosing := closing_of_run hrun
  have hclosed : s.worker.connected = false := by
    rcases hlast with hterminated | ⟨h, hnormal⟩
    · exact hclosing.terminated hterminated
    · exact hclosing.finished h (hfinished h) hnormal
  rcases hclosing.log with ⟨hconnected, -⟩ | ⟨-, closer, hlog | ⟨-, status, hlog⟩⟩
  · rw [hclosed] at hconnected
    cases hconnected
  · simp [hlog]
  · simp [hlog]

/-- The connection is always closed in the end, exactly if it is not refused. -/
theorem alwaysClosed_iff_notRefused (a : Accepted) : AlwaysClosed a ↔ NotRefused a := by
  rcases openSession_cases a with ⟨hnot, hopen⟩ | ⟨hrefused, e, hopen⟩
  · refine iff_of_true (fun labels s hrun hended => ?_) hnot
    rcases hopen with hblocked | ⟨⟨request, rest⟩, hok⟩
    · exact absurd hblocked hended.1
    rw [connectionLog, List.mem_append]
    by_cases hping : request.command = some (ascii "ping")
    · left
      rw [runRequestWorker, hok]
      simp [hping, closeSafely]
    by_cases hshutdown : request.command = some (ascii "shutdown")
    · left
      rw [runRequestWorker, hok]
      dsimp only
      rw [if_neg hping, if_pos hshutdown]
      simp [closeSafely]
    · right
      have hhandled : handledRequest a = some request := by
        rw [handledRequest, hok]
        simp [hping, hshutdown]
      have hsystem : connectionSystem a = executorSystem request.silentExitStatus := by
        rw [connectionSystem, executorSystem, hhandled]
        rfl
      rw [hsystem] at hrun
      obtain ⟨hfinished, hlast⟩ := hended.2 (by rw [hhandled]; rfl)
      exact closeConnection_mem_of_ended hrun hfinished hlast
  · refine iff_of_false (fun hclosed => ?_) hrefused
    have hhandled : handledRequest a = none := by rw [handledRequest, hopen]
    have hrun : runRequestWorker a = refuse (.threw e) := by rw [runRequestWorker, hopen]
    have hmem := hclosed [] {} rfl
      ⟨fun h => (by rw [hopen] at h; cases h), fun h => (by rw [hhandled] at h; cases h)⟩
    rw [connectionLog, hrun] at hmem
    rcases refuse_cases (.threw e) with hnil | ⟨status, message, -, hone⟩
    · rw [hnil] at hmem
      cases hmem
    · rw [hone] at hmem
      simp at hmem

def wrongToken : Accepted where
  decodeBase64 := Base64.decode
  server := { allowFrom := [], authToken := some ⟨ascii "cafe"⟩ }
  socket := ⟨1961, true, [], []⟩
  sleepInterrupted := false
  ending := .waiting
  bytes := ascii "Auth: babe\n\n"

/-- It gets a status, and the worker ends with the connection open. -/
theorem not_alwaysClosed_wrongToken :
    (∃ message, runRequestWorker wrongToken = [.sendStatus 201 message]) ∧
      ¬ AlwaysClosed wrongToken := by
  have hopen : ∃ e message, openSession wrongToken = .error (.threw e) ∧
      refuse (.threw e) = [.sendStatus 201 message] :=
    ⟨_, _, rfl, rfl⟩
  obtain ⟨e, message, hopen, hrefuse⟩ := hopen
  refine ⟨⟨message, by rw [runRequestWorker, hopen]; exact hrefuse⟩, fun hclosed => ?_⟩
  have hhandled : handledRequest wrongToken = none := by rw [handledRequest, hopen]
  have hmem := hclosed [] {} rfl
    ⟨fun h => (by rw [hopen] at h; cases h), fun h => (by rw [hhandled] at h; cases h)⟩
  rw [connectionLog, runRequestWorker, hopen] at hmem
  simp [hrefuse] at hmem

end GroovyServ.Server
