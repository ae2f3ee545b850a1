import GroovyServ.AfterExecute

/-!
# The exit status that a session reports

The handler whose thread closes the connection first reports its own status. When
the script has ended first this is the script's status as long as the handler of
standard input, which the script's thread cancels before it closes the connection,
does not get there earlier. The handler of standard input reports success when an
error of I/O ends it, though it has the script cancelled.
-/

namespace GroovyServ.Server

theorem getExitStatus_complete {future : FutureState} {exitStatus : ℤ}
    (h : getExitStatus future = some exitStatus) : future ≠ .running := by
  rintro rfl
  cases h

theorem FutureState.complete_of_ne {future : FutureState} (h : future ≠ running)
    (handlerEnd : HandlerEnd) : future.complete handlerEnd = future := by
  cases future with
  | running => exact absurd rfl h
  | done e => rfl
  | cancelled => rfl

theorem FutureState.cancel_of_ne {future : FutureState} (h : future ≠ running) :
    future.cancel = future := by
  cases future with
  | running => exact absurd rfl h
  | done e => rfl
  | cancelled => rfl

section Steps

variable {silentExitStatus : Bool} {w w' : Worker}

theorem ends_eq_some {h : Handler} {handlerEnd : HandlerEnd}
    (hstep : w.ends h handlerEnd = some w') :
    w.thread h = .executing ∧ w' = { w with
      future := Function.update w.future h ((w.future h).complete handlerEnd)
      thread := Function.update w.thread h .afterExecute } := by
  simp only [Worker.ends, Option.ite_none_right_eq_some, Option.some.injEq] at hstep
  exact ⟨hstep.1, hstep.2.symm⟩

theorem step_streamEnds {e : JException}
    (hstep : w.step silentExitStatus (.streamEnds e) = some w') :
    e.isSystemExit = false ∧ w.ends .stream (streamRequestHandlerCatch (.threw e)) = some w' := by
  simpa only [Worker.step, Option.ite_none_left_eq_some, Bool.not_eq_true] using hstep

theorem step_getExitStatus {h : Handler}
    (hstep : w.step silentExitStatus (.getExitStatus h) = some w') :
    ∃ exitStatus, getExitStatus (w.future h) = some exitStatus ∧
      w' = { w with thread := Function.update w.thread h (.statusTaken exitStatus) } := by
  simp only [Worker.step, Option.ite_none_right_eq_some, Option.map_eq_some_iff] at hstep
  obtain ⟨-, exitStatus, hstatus, rfl⟩ := hstep
  exact ⟨exitStatus, hstatus, rfl⟩

theorem step_cancelAnother {h : Handler}
    (hstep : w.step silentExitStatus (.cancelAnother h) = some w') :
    ∃ exitStatus, w.thread h = .statusTaken exitStatus ∧ w' = { w with
      future := Function.update w.future h.other (w.future h.other).cancel
      thread := Function.update w.thread h (.otherStopped exitStatus) } := by
  rw [Worker.step] at hstep
  split at hstep
  · rename_i exitStatus hthread
    exact ⟨exitStatus, hthread, (Option.some.inj hstep).symm⟩
  · cases hstep

theorem step_closeSafely {h : Handler} {sendFails : Bool}
    (hstep : w.step silentExitStatus (.closeSafely h sendFails) = some w') :
    ∃ exitStatus, w.thread h = .otherStopped exitStatus ∧
      w' = { w.closeSafely silentExitStatus (.afterExecute h) exitStatus sendFails with
        thread := Function.update w.thread h .finished } := by
  rw [Worker.step] at hstep
  split at hstep
  · rename_i exitStatus hthread
    exact ⟨exitStatus, hthread, (Option.some.inj hstep).symm⟩
  · cases hstep

theorem step_terminated {sendFails : Bool}
    (hstep : w.step silentExitStatus (.terminated sendFails) = some w') :
    w.thread .stream = .finished ∧ w' =
      w.closeSafely silentExitStatus .terminated ExitStatus.terminated.code sendFails := by
  simp only [Worker.step, Option.ite_none_right_eq_some, Option.some.injEq] at hstep
  exact ⟨hstep.1.1, hstep.2.symm⟩

theorem connected_closeSafely (w : Worker) (closer : Closer) (exitStatus : ℤ) (sendFails : Bool) :
    (w.closeSafely silentExitStatus closer exitStatus sendFails).connected = false := by
  rw [Worker.closeSafely]
  by_cases h : w.connected = true
  · rw [if_pos h]
  · rw [if_neg h]
    exact Bool.eq_false_of_not_eq_true h

theorem closeSafely_future (w : Worker) (closer : Closer) (exitStatus : ℤ) (sendFails : Bool) :
    (w.closeSafely silentExitStatus closer exitStatus sendFails).future = w.future := by
  unfold Worker.closeSafely
  split_ifs <;> rfl

theorem future_step {label : WorkerStep} (hstep : w.step silentExitStatus label = some w')
    {h : Handler} (hfuture : w.future h ≠ .running) : w'.future h = w.future h := by
  have hends : ∀ h' handlerEnd, w.ends h' handlerEnd = some w' → w'.future h = w.future h := by
    intro h' handlerEnd hstep
    obtain ⟨-, rfl⟩ := ends_eq_some hstep
    by_cases hh : h = h'
    · subst hh
      exact (Function.update_self _ _ _).trans (FutureState.complete_of_ne hfuture handlerEnd)
    · exact Function.update_of_ne hh _ _
  cases label with
  | streamEnds e => exact hends _ _ (step_streamEnds hstep).2
  | invokeEnds body => exact hends _ _ hstep
  | getExitStatus h' =>
    obtain ⟨exitStatus, -, rfl⟩ := step_getExitStatus hstep
    rfl
  | cancelAnother h' =>
    obtain ⟨exitStatus, -, rfl⟩ := step_cancelAnother hstep
    by_cases hh : h = h'.other
    · subst hh
      exact (Function.update_self _ _ _).trans (FutureState.cancel_of_ne hfuture)
    · exact Function.update_of_ne hh _ _
  | closeSafely h' sendFails =>
    obtain ⟨exitStatus, -, rfl⟩ := step_closeSafely hstep
    exact congrFun (closeSafely_future w _ _ _) h
  | terminated sendFails =>
    obtain ⟨-, rfl⟩ := step_terminated hstep
    exact congrFun (closeSafely_future w _ _ _) h

end Steps

theorem future_stream_step {silentExitStatus : Bool} {w w' : Worker} {label : WorkerStep}
    (hstep : w.step silentExitStatus label = some w') :
    w'.future .stream = w.future .stream ∨ w'.future .stream = .cancelled ∨
      ∃ e, e.isSystemExit = false ∧
        w'.future .stream = .done (streamRequestHandlerCatch (.threw e)) := by
  by_cases hrunning : w.future .stream = .running
  · cases label with
    | streamEnds e =>
      obtain ⟨he, hends⟩ := step_streamEnds hstep
      obtain ⟨-, rfl⟩ := ends_eq_some hends
      exact .inr (.inr ⟨e, he, by simp [hrunning, FutureState.complete]⟩)
    | invokeEnds body =>
      obtain ⟨-, rfl⟩ := ends_eq_some hstep
      exact .inl rfl
    | getExitStatus h =>
      obtain ⟨exitStatus, -, rfl⟩ := step_getExitStatus hstep
      exact .inl rfl
    | cancelAnother h =>
      obtain ⟨exitStatus, -, rfl⟩ := step_cancelAnother hstep
      cases h with
      | stream => exact .inl rfl
      | invoke => exact .inr (.inl (by simp [Handler.other, hrunning, FutureState.cancel]))
    | closeSafely h sendFails =>
      obtain ⟨exitStatus, -, rfl⟩ := step_closeSafely hstep
      exact .inl (congrFun (closeSafely_future w _ _ _) _)
    | terminated sendFails =>
      obtain ⟨-, rfl⟩ := step_terminated hstep
      exact .inl (congrFun (closeSafely_future w _ _ _) _)
  · exact .inl (future_step hstep hrunning)

/-- What holds however the threads are interleaved: the status a thread has taken is
the one of its future, and a thread that has finished leaves the connection closed. -/
structure Settled (w : Worker) : Prop where
  status : ∀ h exitStatus, w.thread h = .statusTaken exitStatus ∨
    w.thread h = .otherStopped exitStatus → getExitStatus (w.future h) = some exitStatus
  closed : ∀ h, w.thread h = .finished → w.connected = false

theorem settled_start : Settled {} where
  status _ _ h := by rcases h with h | h <;> cases h
  closed _ h := by cases h

section Settled

variable {silentExitStatus : Bool} {w w' : Worker}

theorem Settled.update (hw : Settled w) {h : Handler} {phase : ThreadPhase}
    (hthread : w'.thread = Function.update w.thread h phase)
    (hfuture : ∀ h exitStatus, getExitStatus (w.future h) = some exitStatus →
      w'.future h = w.future h)
    (hconnected : w.connected = false → w'.connected = false)
    (hstatus : ∀ exitStatus, phase = .statusTaken exitStatus ∨ phase = .otherStopped exitStatus →
      getExitStatus (w.future h) = some exitStatus)
    (hclosed : phase = .finished → w'.connected = false) : Settled w' where
  status h' exitStatus hphase := by
    have htaken : getExitStatus (w.future h') = some exitStatus := by
      by_cases hh : h' = h
      · subst hh
        rw [hthread, Function.update_self] at hphase
        exact hstatus exitStatus hphase
      · rw [hthread, Function.update_of_ne hh] at hphase
        exact hw.status h' exitStatus hphase
    rwa [hfuture h' exitStatus htaken]
  closed h' hphase := by
    by_cases hh : h' = h
    · subst hh
      rw [hthread, Function.update_self] at hphase
      exact hclosed hphase
    · rw [hthread, Function.update_of_ne hh] at hphase
      exact hconnected (hw.closed h' hphase)

theorem Settled.step (hw : Settled w) {label : WorkerStep}
    (hstep : w.step silentExitStatus label = some w') : Settled w' := by
  have hfuture : ∀ h exitStatus, getExitStatus (w.future h) = some exitStatus →
      w'.future h = w.future h :=
    fun h exitStatus hstatus => future_step hstep (getExitStatus_complete hstatus)
  have hends : ∀ h handlerEnd, w.ends h handlerEnd = some w' → Settled w' := by
    intro h handlerEnd hstep
    obtain ⟨-, rfl⟩ := ends_eq_some hstep
    exact hw.update rfl hfuture id (fun _ hphase => by rcases hphase with hp | hp <;> cases hp)
      (fun hphase => by cases hphase)
  cases label with
  | streamEnds e => exact hends _ _ (step_streamEnds hstep).2
  | invokeEnds body => exact hends _ _ hstep
  | getExitStatus h =>
    obtain ⟨exitStatus, hstatus, rfl⟩ := step_getExitStatus hstep
    refine hw.update rfl hfuture id (fun c hphase => ?_) (fun hphase => by cases hphase)
    rcases hphase with hp | hp <;> cases hp
    exact hstatus
  | cancelAnother h =>
    obtain ⟨exitStatus, hthread, rfl⟩ := step_cancelAnother hstep
    refine hw.update rfl hfuture id (fun c hphase => ?_) (fun hphase => by cases hphase)
    rcases hphase with hp | hp <;> cases hp
    exact hw.status h exitStatus (.inl hthread)
  | closeSafely h sendFails =>
    obtain ⟨exitStatus, hthread, rfl⟩ := step_closeSafely hstep
    exact hw.update rfl hfuture (fun _ => connected_closeSafely w _ _ _)
      (fun _ hphase => by rcases hphase with hp | hp <;> cases hp)
      (fun _ => connected_closeSafely w _ _ _)
  | terminated sendFails =>
    obtain ⟨hfinished, rfl⟩ := step_terminated hstep
    have hclosed := hw.closed _ hfinished
    have hsame : w.closeSafely silentExitStatus .terminated ExitStatus.terminated.code sendFails =
        w := by
      rw [Worker.closeSafely, if_neg (by simp [hclosed])]
    rwa [hsame]

theorem Settled.sent_step (hw : Settled w) {label : WorkerStep}
    (hstep : w.step silentExitStatus label = some w') {closer : Closer} {status : ℤ}
    {message : Option Bytes} (hmem : (closer, Action.sendStatus status message) ∈ w'.log) :
    (closer, Action.sendStatus status message) ∈ w.log ∨
      ∃ h, label = .closeSafely h false ∧ w.connected = true ∧ closer = .afterExecute h ∧
        getExitStatus (w.future h) = some status := by
  have hclose : ∀ closer' exitStatus sendFails,
      (closer, Action.sendStatus status message) ∈
        (w.closeSafely silentExitStatus closer' exitStatus sendFails).log →
      (closer, Action.sendStatus status message) ∈ w.log ∨
        sendFails = false ∧ w.connected = true ∧ closer = closer' ∧ exitStatus = status := by
    intro closer' exitStatus sendFails hmem
    unfold Worker.closeSafely at hmem
    split_ifs at hmem with hconnected hfails
    · exact .inl (by simpa using hmem)
    · simp only [Server.closeSafely, List.map_append, List.mem_append, List.mem_map] at hmem
      rcases hmem with hmem | ⟨action, hmem, haction⟩ | ⟨action, hmem, haction⟩
      · exact .inl hmem
      · split_ifs at hmem with hsilent
        · cases hmem
        · rw [List.mem_singleton] at hmem
          subst hmem
          cases haction
          exact .inr ⟨by simpa using hfails, hconnected, rfl, rfl⟩
      · rw [List.mem_singleton] at hmem
        subst hmem
        cases haction
    · exact .inl hmem
  cases label with
  | streamEnds e =>
    obtain ⟨-, rfl⟩ := ends_eq_some (step_streamEnds hstep).2
    exact .inl hmem
  | invokeEnds body =>
    obtain ⟨-, rfl⟩ := ends_eq_some hstep
    exact .inl hmem
  | getExitStatus h =>
    obtain ⟨exitStatus, -, rfl⟩ := step_getExitStatus hstep
    exact .inl hmem
  | cancelAnother h =>
    obtain ⟨exitStatus, -, rfl⟩ := step_cancelAnother hstep
    exact .inl hmem
  | closeSafely h sendFails =>
    obtain ⟨exitStatus, hthread, rfl⟩ := step_closeSafely hstep
    rcases hclose _ _ _ hmem with hold | ⟨rfl, hconnected, rfl, rfl⟩
    · exact .inl hold
    · exact .inr ⟨h, rfl, hconnected, rfl, hw.status h _ (.inr hthread)⟩
  | terminated sendFails =>
    obtain ⟨hfinished, rfl⟩ := step_terminated hstep
    rcases hclose _ _ _ hmem with hold | ⟨-, hconnected, -, -⟩
    · exact .inl hold
    · rw [hw.closed _ hfinished] at hconnected
      cases hconnected

theorem Settled.exists_sent (hw : Settled w) {h : Handler}
    (hstep : w.step false (.closeSafely h false) = some w') (hconnected : w.connected = true) :
    ∃ status, getExitStatus (w.future h) = some status ∧
      (Closer.afterExecute h, Action.sendStatus status none) ∈ w'.log := by
  obtain ⟨exitStatus, hthread, rfl⟩ := step_closeSafely hstep
  refine ⟨exitStatus, hw.status h exitStatus (.inr hthread), ?_⟩
  simp [Worker.closeSafely, hconnected, Server.closeSafely]

end Settled

/-- Every status sent is the script's own, sent by its thread. -/
def OwnStatus (own : ℤ) (w : Worker) : Prop :=
  ∀ closer status message, (closer, Action.sendStatus status message) ∈ w.log →
    closer = .afterExecute .invoke ∧ status = own

/-- The thread of standard input does not get to close the connection and send its
status. -/
def StreamTooLate (w : Worker) (label : WorkerStep) : Prop :=
  label = .closeSafely .stream false → w.connected = false

structure ScriptEnded (own : ℤ) (w : Worker) : Prop where
  settled : Settled w
  invoke : getExitStatus (w.future .invoke) = some own
  ownStatus : OwnStatus own w

theorem ScriptEnded.step {own : ℤ} {w w' : Worker} {label : WorkerStep} (hw : ScriptEnded own w)
    (hlabel : StreamTooLate w label) (hstep : w.step false label = some w') :
    ScriptEnded own w' where
  settled := hw.settled.step hstep
  invoke := by rw [future_step hstep (getExitStatus_complete hw.invoke), hw.invoke]
  ownStatus closer status message hmem := by
    rcases hw.settled.sent_step hstep hmem with hold | ⟨h, rfl, hconnected, rfl, hstatus⟩
    · exact hw.ownStatus closer status message hold
    · cases h with
      | stream =>
        rw [hlabel rfl] at hconnected
        cases hconnected
      | invoke =>
        rw [hw.invoke, Option.some.injEq] at hstatus
        exact ⟨rfl, hstatus.symm⟩

theorem ScriptEnded.not_ownStatus {own : ℤ} {w w' : Worker} {label : WorkerStep}
    (hw : ScriptEnded own w) (hlabel : ¬ StreamTooLate w label)
    (hstep : w.step false label = some w') : ¬ OwnStatus own w' := by
  obtain ⟨rfl, hconnected⟩ := Classical.not_imp.mp hlabel
  obtain ⟨status, -, hsent⟩ := hw.settled.exists_sent hstep (by simpa using hconnected)
  intro hown
  cases (hown _ _ _ hsent).1

/-- The script has returned, or called `System.exit` with the status. -/
def ScriptExits (body : Except JException Unit) (own : ℤ) : Prop :=
  (invokeHandlerEnd body = .returned ∧ own = 0) ∨ body = .error (.systemExit own)

theorem getExitStatus_scriptExits {body : Except JException Unit} {own : ℤ}
    (h : ScriptExits body own) : getExitStatus (.done (invokeHandlerEnd body)) = some own := by
  rcases h with ⟨hreturned, rfl⟩ | rfl
  · rw [hreturned]
    rfl
  · rfl

/-- When the script ends before the handler of standard input does, and before it is
cancelled, the status sent is the script's own exactly in the runs in which the thread
of standard input does not close the connection before the script's thread. -/
theorem ownStatus_iff_streamTooLate {body : Except JException Unit} {own : ℤ}
    (hbody : ScriptExits body own) {labels : List WorkerStep} {w : Worker}
    (hrun : (workerSystem false).run {} (.invokeEnds body :: labels) = some w) :
    (workerSystem false).StatesMeet (OwnStatus own) {} (.invokeEnds body :: labels) ↔
      (workerSystem false).StepsMeet StreamTooLate {} (.invokeEnds body :: labels) := by
  obtain ⟨w₁, hfirst, hrun⟩ := (workerSystem false).run_cons_eq_some.mp hrun
  have hscript : ScriptEnded own w₁ := by
    have hstep : Worker.step false {} (.invokeEnds body) = some w₁ := hfirst
    have hsettled := settled_start.step hstep
    have hends : Worker.ends {} .invoke (invokeHandlerEnd body) = some w₁ := hfirst
    obtain ⟨-, rfl⟩ := ends_eq_some hends
    exact ⟨hsettled, getExitStatus_scriptExits hbody, fun _ _ _ h => by cases h⟩
  have hrest := StepSystem.statesMeet_iff_stepsMeet (fun _ _ _ h hl hs => h.step hl hs)
    (fun _ h => h.ownStatus) (fun _ _ _ h hl hs => h.not_ownStatus hl hs) hscript hrun
  constructor
  · intro h
    refine ⟨fun heq => (by cases heq), fun w' hw' => ?_⟩
    obtain rfl : w₁ = w' := Option.some.inj (hfirst.symm.trans hw')
    exact hrest.mp (h.2 w₁ hfirst)
  · intro h
    refine ⟨fun _ _ _ hmem => (by cases hmem), fun w' hw' => ?_⟩
    obtain rfl : w₁ = w' := Option.some.inj (hfirst.symm.trans hw')
    exact hrest.mpr (h.2 w₁ hfirst)

theorem ownStatus_iff_streamTooLate_exit : ∃ w,
    (workerSystem false).run {} [.invokeEnds (.error (.systemExit 33)), .getExitStatus .invoke,
      .cancelAnother .invoke, .closeSafely .invoke false] = some w ∧
    ((workerSystem false).StatesMeet (OwnStatus 33) {} [.invokeEnds (.error (.systemExit 33)),
        .getExitStatus .invoke, .cancelAnother .invoke, .closeSafely .invoke false] ↔
      (workerSystem false).StepsMeet StreamTooLate {} [.invokeEnds (.error (.systemExit 33)),
        .getExitStatus .invoke, .cancelAnother .invoke, .closeSafely .invoke false]) :=
  ⟨_, rfl, ownStatus_iff_streamTooLate (.inr rfl) rfl⟩

/-- The script calls `System.exit(33)` while the handler of standard input waits to
write to the pipe. Cancelled, that handler ends at once and closes the connection
with the status of an interruption. -/
theorem not_ownStatus_cancelled : ∃ w,
    (workerSystem false).run {} [.invokeEnds (.error (.systemExit 33)), .getExitStatus .invoke,
      .cancelAnother .invoke,
      .streamEnds (.gservIo (ascii "Interrupted to write to piped stream")),
      .getExitStatus .stream, .cancelAnother .stream, .closeSafely .stream false,
      .closeSafely .invoke false] = some w ∧
    (Closer.afterExecute .stream, Action.sendStatus 1 none) ∈ w.log ∧ ¬ OwnStatus 33 w := by
  have hsent : ∀ w : Worker, (Closer.afterExecute .stream, Action.sendStatus 1 none) ∈ w.log →
      ¬ OwnStatus 33 w := fun w hmem hown => absurd (hown _ _ _ hmem).2 (by decide)
  exact ⟨_, rfl, .head _, hsent _ (.head _)⟩

/-- The script has returned or called `System.exit(0)`, and was not cancelled before. -/
def ScriptSucceeded (w : Worker) : Prop :=
  w.future .invoke = .done .returned ∨ w.future .invoke = .done (.threw (.systemExit 0))

/-- The status 0 is sent for scripts that have succeeded only. -/
def HonestSuccess (w : Worker) : Prop :=
  ∀ closer message, (closer, Action.sendStatus 0 message) ∈ w.log → ScriptSucceeded w

/-- When the handler of standard input has returned, which errors of I/O and
interruptions make it do, its thread does not close the connection and send its
status before the script has succeeded. -/
def NoSwallowedError (w : Worker) (label : WorkerStep) : Prop :=
  label = .closeSafely .stream false → w.connected = true →
    w.future .stream = .done .returned → ScriptSucceeded w

theorem getExitStatus_eq_zero {future : FutureState} (h : getExitStatus future = some 0) :
    future = .done .returned ∨ future = .done (.threw (.systemExit 0)) := by
  unfold getExitStatus at h
  split at h
  · cases h
  · cases h
  · cases h
  · exact .inl rfl
  · split at h
    · cases h
    · cases h
    · rename_i exitStatus
      cases h
      exact .inr rfl
    · split at h
      · rename_i status message hgserv
        exact absurd (Option.some.inj h) (JException.gserv_code_ne_zero hgserv)
      · cases h

theorem streamRequestHandlerCatch_systemExit {e : JException} (he : e.isSystemExit = false)
    (exitStatus : ℤ) : streamRequestHandlerCatch (.threw e) ≠ .threw (.systemExit exitStatus) := by
  cases e <;> simp_all [streamRequestHandlerCatch, JException.isSystemExit]

structure SuccessInvariant (w : Worker) : Prop where
  settled : Settled w
  stream : ∀ exitStatus, w.future .stream ≠ .done (.threw (.systemExit exitStatus))
  honest : HonestSuccess w

theorem SuccessInvariant.step {w w' : Worker} {label : WorkerStep} (hw : SuccessInvariant w)
    (hlabel : NoSwallowedError w label) (hstep : w.step false label = some w') :
    SuccessInvariant w' where
  settled := hw.settled.step hstep
  stream exitStatus := by
    rcases future_stream_step hstep with hsame | hcancelled | ⟨e, he, hdone⟩
    · rw [hsame]
      exact hw.stream exitStatus
    · rw [hcancelled]
      exact nofun
    · rw [hdone, Ne, FutureState.done.injEq]
      exact streamRequestHandlerCatch_systemExit he exitStatus
  honest closer message hmem := by
    have hkeeps : ScriptSucceeded w → ScriptSucceeded w' := by
      intro hsucceeded
      have hfuture : w'.future .invoke = w.future .invoke :=
        future_step hstep (by rcases hsucceeded with h | h <;> rw [h] <;> exact nofun)
      rwa [ScriptSucceeded, hfuture]
    rcases hw.settled.sent_step hstep hmem with hold | ⟨h, rfl, hconnected, rfl, hstatus⟩
    · exact hkeeps (hw.honest closer message hold)
    · apply hkeeps
      cases h with
      | stream =>
        rcases getExitStatus_eq_zero hstatus with hreturned | hexit
        · exact hlabel rfl hconnected hreturned
        · exact absurd hexit (hw.stream 0)
      | invoke => exact getExitStatus_eq_zero hstatus

theorem successInvariant_start : SuccessInvariant {} where
  settled := settled_start
  stream _ := nofun
  honest _ _ hmem := by cases hmem

theorem SuccessInvariant.not_honestSuccess {w w' : Worker} {label : WorkerStep}
    (hw : SuccessInvariant w) (hlabel : ¬ NoSwallowedError w label)
    (hstep : w.step false label = some w') : ¬ HonestSuccess w' := by
  simp only [NoSwallowedError, Classical.not_imp] at hlabel
  obtain ⟨rfl, hconnected, hreturned, hfailed⟩ := hlabel
  obtain ⟨status, hstatus, hsent⟩ := hw.settled.exists_sent hstep hconnected
  rw [hreturned] at hstatus
  cases hstatus
  intro hhonest
  have hfuture : w'.future .invoke = w.future .invoke := by
    obtain ⟨exitStatus, -, rfl⟩ := step_closeSafely hstep
    exact congrFun (closeSafely_future w _ _ _) _
  have hsucceeded := hhonest _ _ hsent
  rw [ScriptSucceeded, hfuture] at hsucceeded
  exact hfailed hsucceeded

/-- The status 0 is sent for scripts that have succeeded only, exactly in the runs in
which no swallowed error of the handler of standard input is reported for a script
that has not. -/
theorem honestSuccess_iff_noSwallowedError {labels : List WorkerStep} {w : Worker}
    (hrun : (workerSystem false).run {} labels = some w) :
    (workerSystem false).StatesMeet HonestSuccess {} labels ↔
      (workerSystem false).StepsMeet NoSwallowedError {} labels :=
  StepSystem.statesMeet_iff_stepsMeet (fun _ _ _ h hl hs => h.step hl hs) (fun _ h => h.honest)
    (fun _ _ _ h hl hs => h.not_honestSuccess hl hs) successInvariant_start hrun

theorem honestSuccess_iff_noSwallowedError_interrupted : ∃ w,
    (workerSystem false).run {} [.streamEnds (.gservInterrupted []), .getExitStatus .stream,
      .cancelAnother .stream, .closeSafely .stream false] = some w ∧
    ((workerSystem false).StatesMeet HonestSuccess {} [.streamEnds (.gservInterrupted []),
        .getExitStatus .stream, .cancelAnother .stream, .closeSafely .stream false] ↔
      (workerSystem false).StepsMeet NoSwallowedError {} [.streamEnds (.gservInterrupted []),
        .getExitStatus .stream, .cancelAnother .stream, .closeSafely .stream false]) :=
  ⟨_, rfl, honestSuccess_iff_noSwallowedError rfl⟩

/-- The pipe takes one write, and refuses the next one because the thread that has read the
first is dead. -/
def deadReader : StreamEnv where
  socket := ⟨1961, true, [], []⟩
  ending := .waiting
  readOffer _ := 512
  pipeWrite k := if k = 0 then .written else .ioError

/-- A thread of the script that has read standard input is dead while the script runs on,
and the client sends more: the handler's write to the pipe fails, the script is cancelled,
and success is reported. -/
theorem not_honestSuccess_pipe :
    ((streamIteration deadReader)^[2] { input := ascii "Size: 1\n\naSize: 1\n\nb" }).stopped =
      some (.threw (.gservIo (ascii "Failed to write to piped stream"))) ∧ ∃ w,
    (workerSystem false).run {} [.streamEnds (.gservIo (ascii "Failed to write to piped stream")),
      .getExitStatus .stream, .cancelAnother .stream, .closeSafely .stream false] = some w ∧
    w.future .invoke = .cancelled ∧
    (Closer.afterExecute .stream, Action.sendStatus 0 none) ∈ w.log ∧ ¬ HonestSuccess w := by
  have hsent : ∀ w : Worker, (Closer.afterExecute .stream, Action.sendStatus 0 none) ∈ w.log →
      w.future .invoke = .cancelled → ¬ HonestSuccess w := by
    intro w hmem hcancelled hhonest
    have hsucceeded := hhonest _ _ hmem
    rw [ScriptSucceeded, hcancelled] at hsucceeded
    rcases hsucceeded with h | h <;> cases h
  exact ⟨by decide +kernel, _, rfl, rfl, .head _, hsent _ (.head _) rfl⟩

end GroovyServ.Server
