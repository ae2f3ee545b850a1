import GroovyServ.StdinTransfer

/-!
# How the stream request handler ends

Whatever a client sends behind its invocation header, the handler returns after a
failed or interrupted operation or throws a `GServInterruptedException`, and the pipe
to the script is torn down, unless it comes to a request of negative size: no catch
clause is for the exception of its buffer.
-/

namespace GroovyServ.Server

/-- An operation has failed, or the thread has been interrupted in it. -/
def JException.IsIOFailure : JException → Prop
  | .interrupted | .interruptedIo | .io _ | .gservIo _ => True
  | _ => False

/-- The handler still waits, or it has torn down the pipe and has returned after a failed
operation or thrown a `GServInterruptedException`. -/
def EndsInOrder (env : StreamEnv) (input : Bytes) : Prop :=
  let (s, handlerEnd) := runStreamRequestHandler env { input := input }
  handlerEnd = .blocked ∨ s.toreDownPipes = true ∧
    ((handlerEnd = .returned ∧ ∃ e, s.stopped = some (.threw e) ∧ e.IsIOFailure) ∨
      ∃ message, handlerEnd = .threw (.gservInterrupted message))

/-- The handler is about to read a request of negative size. -/
def ReadsNegativeSize (env : StreamEnv) (s : StreamState) : Prop :=
  s.stopped = none ∧ ∃ request rest,
    readStreamRequest env.socket env.ending s.input = .ok (request, rest) ∧ request.getSize < 0

section Turns

variable (env : StreamEnv) {s : StreamState}

/-- Such a request passes the check and is neither an interruption nor empty. -/
theorem streamIteration_of_readsNegativeSize (h : ReadsNegativeSize env s) :
    (streamIteration env s).stopped = some (.threw .runtime) := by
  obtain ⟨hrun, request, rest, hread, hsize⟩ := h
  have hempty : request.isEmpty = false := decide_eq_false hsize.ne
  have hcommand : request.isInterrupted = false := by
    obtain ⟨⟨headers, rest'⟩, -, hchecked⟩ := bind_eq_ok.mp hread
    obtain ⟨_, hcheck, hrequest⟩ := bind_eq_ok.mp hchecked
    obtain ⟨rfl, -⟩ := Prod.mk.inj (Except.ok.inj hrequest)
    unfold StreamRequest.check at hcheck
    rw [hempty] at hcheck
    by_contra hinterrupted
    rw [Bool.not_eq_false, StreamRequest.isInterrupted, decide_eq_true_eq] at hinterrupted
    rw [hinterrupted] at hcheck
    cases hcheck
  rw [streamIteration, if_neg (by simp [hrun]), hread]
  dsimp only
  rw [if_neg (by simp [hcommand]), if_neg (by simp [hempty]), if_pos hsize]
  rfl

theorem parseHeaders_ne_runtime {ending : Ending} {bytes : Bytes} :
    parseHeaders ending bytes ≠ .error (.threw .runtime) := by
  intro h
  unfold parseHeaders at h
  split at h
  · cases h
  · cases h
  · cases h
  · rename_i stop hio hinterrupted hlines
    cases h
    rcases readLinesLoop_error hlines with hblocked | hread
    · cases hblocked
    · cases ending <;> cases hread

theorem readStreamRequest_ne_runtime {socket : Socket} {ending : Ending} {bytes : Bytes} :
    readStreamRequest socket ending bytes ≠ .error (.threw .runtime) := by
  intro h
  rcases bind_eq_error.mp h with hparse | ⟨r, -, h⟩
  · exact parseHeaders_ne_runtime hparse
  · dsimp only at h
    unfold StreamRequest.check at h
    split_ifs at h
    · cases h
    · cases h

theorem readStreamBody_ne_runtime (size : ℕ) (hs : s.stopped = none) :
    (readStreamBody env size s).stopped ≠ some (.threw .runtime) := by
  unfold readStreamBody
  split_ifs with hnil htore
  · intro h
    cases hending : env.ending <;> rw [hending] at h <;> cases h
  · simp [StreamState.take, hs]
  · dsimp only
    unfold transferStreamRequest
    intro h
    split at h
    · cases hs.symm.trans h
    all_goals cases h

theorem readsNegativeSize_of_runtime (hs : s.stopped = none)
    (h : (streamIteration env s).stopped = some (.threw .runtime)) : ReadsNegativeSize env s := by
  rw [streamIteration, if_neg (by simp [hs])] at h
  dsimp only at h
  cases hread : readStreamRequest env.socket env.ending s.input with
  | error stop =>
    rw [hread] at h
    cases h
    exact absurd hread readStreamRequest_ne_runtime
  | ok r =>
    obtain ⟨request, rest⟩ := r
    rw [hread] at h
    dsimp only at h
    split_ifs at h with hinterrupted hempty hnegative
    · cases h
    · cases hs.symm.trans h
    · exact ⟨hs, request, rest, hread, hnegative⟩
    · exact absurd h (readStreamBody_ne_runtime env _ hs)

theorem stopped_iterate_ne_runtime (hs : s.stopped = none)
    (h : ∀ n, ¬ ReadsNegativeSize env ((streamIteration env)^[n] s)) (n : ℕ) :
    ((streamIteration env)^[n] s).stopped ≠ some (.threw .runtime) := by
  induction n with
  | zero =>
    rw [Function.iterate_zero, id_eq, hs]
    nofun
  | succ n ih =>
    rw [Function.iterate_succ_apply']
    intro hruntime
    cases hstopped : ((streamIteration env)^[n] s).stopped with
    | none => exact h n (readsNegativeSize_of_runtime env hstopped hruntime)
    | some stop =>
      rw [streamIteration_of_stopped env (by rw [hstopped]; rfl)] at hruntime
      exact ih hruntime

theorem catch_of_ofStream {stop : Stop} (hof : stop.OfStream) (hne : stop ≠ .threw .runtime) :
    streamRequestHandlerCatch stop = .blocked ∨
      (streamRequestHandlerCatch stop = .returned ∧ ∃ e, stop = .threw e ∧ e.IsIOFailure) ∨
      ∃ message, streamRequestHandlerCatch stop = .threw (.gservInterrupted message) := by
  cases stop with
  | blocked => exact .inl rfl
  | threw e =>
    right
    cases e with
    | interruptedIo => exact .inl ⟨rfl, _, rfl, trivial⟩
    | io message => exact .inl ⟨rfl, _, rfl, trivial⟩
    | gservIo message => exact .inl ⟨rfl, _, rfl, trivial⟩
    | invalidRequestHeader message => exact .inr ⟨_, rfl⟩
    | gservInterrupted message => exact .inr ⟨_, rfl⟩
    | runtime => exact absurd rfl hne
    | clientNotAllowed message => cases hof
    | gservIllegalState message => cases hof
    | invalidAuthToken message => cases hof
    | systemExit exitStatus => cases hof
    | interrupted => cases hof
    | error => cases hof

theorem runStreamRequestHandler_eq {stop : Stop}
    (h : ((streamIteration env)^[s.input.length + 1] s).stopped = some stop) :
    (streamRequestHandlerCatch stop = .blocked → (runStreamRequestHandler env s).2 = .blocked) ∧
      (streamRequestHandlerCatch stop ≠ .blocked →
        runStreamRequestHandler env s =
          ({ (streamIteration env)^[s.input.length + 1] s with toreDownPipes := true },
            streamRequestHandlerCatch stop)) := by
  have hstop : ((streamIteration env)^[s.input.length + 1] s).stopped.getD .blocked = stop := by
    rw [h, Option.getD_some]
  constructor
  · intro hblocked
    rw [(runStreamRequestHandler_fields env s).2.2.2, hstop, hblocked]
  · intro hends
    rw [runStreamRequestHandler]
    dsimp only
    rw [hstop]
    split
    · rename_i hblocked
      exact absurd hblocked hends
    · rfl

end Turns

/-- The handler ends in order exactly when no request of negative size comes to be read. -/
theorem endsInOrder_iff (env : StreamEnv) (input : Bytes) :
    EndsInOrder env input ↔
      ∀ n, ¬ ReadsNegativeSize env ((streamIteration env)^[n] { input := input }) := by
  let s : StreamState := { input := input }
  obtain ⟨stop, hstop⟩ := Option.isSome_iff_exists.mp
    (stopped_iterate env (s.input.length + 1) (Nat.lt_succ_self _))
  obtain ⟨hwaits, hends⟩ := runStreamRequestHandler_eq env hstop
  have hof := stopped_iterate_ofStream env (s.input.length + 1) rfl hstop
  constructor
  · intro h n hnegative
    have hruntime : ((streamIteration env)^[n + 1] s).stopped = some (.threw .runtime) := by
      rw [Function.iterate_succ_apply']
      exact streamIteration_of_readsNegativeSize env hnegative
    have hlast := iterate_eq_of_stopped env (s := s) (n := n + 1) (by rw [hruntime]; rfl)
    rw [hlast, hruntime] at hstop
    obtain rfl := Option.some.inj hstop
    unfold EndsInOrder at h
    rw [show runStreamRequestHandler env { input := input } = _ from hends nofun] at h
    rcases h with hblocked | ⟨-, ⟨hreturned, -⟩ | ⟨message, hthrew⟩⟩
    · cases hblocked
    · cases hreturned
    · cases hthrew
  · intro h
    have hne : stop ≠ .threw .runtime := fun heq =>
      stopped_iterate_ne_runtime env (s := s) rfl h _ (heq ▸ hstop)
    unfold EndsInOrder
    rcases catch_of_ofStream hof hne with hblocked | hcaught
    · exact .inl (hwaits hblocked)
    · rw [show runStreamRequestHandler env { input := input } = _ from hends fun hblocked => by
        rcases hcaught with ⟨hreturned, -⟩ | ⟨message, hthrew⟩
        · rw [hblocked] at hreturned; cases hreturned
        · rw [hblocked] at hthrew; cases hthrew]
      refine .inr ⟨rfl, hcaught.imp ?_ id⟩
      rintro ⟨hreturned, e, rfl, he⟩
      exact ⟨hreturned, e, hstop, he⟩

/-- The size that the protocol has for a client that has exited. -/
theorem not_endsInOrder_minusOne : ¬ EndsInOrder (offering 512) (ascii "Size: -1\n\n") := by
  unfold EndsInOrder
  have hend : (runStreamRequestHandler (offering 512) { input := ascii "Size: -1\n\n" }).2 =
      .threw .runtime := by decide +kernel
  simp [hend]

end GroovyServ.Server
