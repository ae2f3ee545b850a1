import GroovyServ.ServerProtocol

/-!
# The handler that feeds a script's standard input

`streamIteration` is one turn of the loop of `StreamRequestHandler.run`, and
`runStreamRequestHandler` the whole method with its catch clauses. What a read of
a body returns and what the pipe does with a write is given by the surroundings.
The state records of every byte read whether it was parsed as a header or taken
as a body.
-/

namespace GroovyServ.Server

inductive ByteUse where
  | header
  | body
  deriving DecidableEq

inductive PipeWrite where
  | written
  | blocked
  | ioError
  | interruptedIo
  deriving DecidableEq

structure StreamEnv where
  socket : Socket
  ending : Ending
  readOffer : ℕ → ℕ
  pipeWrite : ℕ → PipeWrite

structure StreamState where
  input : Bytes
  uses : List ByteUse := []
  pipe : Bytes := []
  reads : ℕ := 0
  writes : ℕ := 0
  toreDownPipes : Bool := false
  stopped : Option Stop := none

def headerBytes (ending : Ending) (bytes : Bytes) : ℕ :=
  match readLines ending bytes with
  | .ok (_, rest) => bytes.length - rest.length
  | .error _ => bytes.length

namespace StreamState

def stop (s : StreamState) (stop : Stop) : StreamState := { s with stopped := some stop }

def take (s : StreamState) (n : ℕ) (use : ByteUse) : StreamState :=
  { s with input := s.input.drop n, uses := s.uses ++ List.replicate n use }

end StreamState

def transferStreamRequest (env : StreamEnv) (data : Bytes) (s : StreamState) : StreamState :=
  match env.pipeWrite s.writes with
  | .written => { s with pipe := s.pipe ++ data, writes := s.writes + 1 }
  | .blocked => s.stop .blocked
  | .interruptedIo => s.stop (.threw (.gservIo (ascii "Interrupted to write to piped stream")))
  | .ioError => s.stop (.threw (.gservIo (ascii "Failed to write to piped stream")))

/-- The single read of a body, and what is done with the bytes that it returns. -/
def readStreamBody (env : StreamEnv) (size : ℕ) (s : StreamState) : StreamState :=
  if s.input = [] then
    match env.ending.read with
    | .error stop => s.stop stop
    | .ok () =>
      s.stop (.threw (.gservInterrupted (ascii "By EOF of input stream of socket")))
  else
    let result := shortCount (env.readOffer s.reads) size s.input.length
    let s' := { s.take result .body with reads := s.reads + 1 }
    if s.toreDownPipes then s' else transferStreamRequest env (s.input.take result) s'

def streamIteration (env : StreamEnv) (s : StreamState) : StreamState :=
  if s.stopped.isSome then s
  else
    let s' := s.take (headerBytes env.ending s.input) .header
    match readStreamRequest env.socket env.ending s.input with
    | .error stop => s'.stop stop
    | .ok (request, _) =>
      if request.isInterrupted then
        s'.stop (.threw (.gservInterrupted (ascii "By client request")))
      else if request.isEmpty then { s' with toreDownPipes := true }
      else if request.getSize < 0 then s'.stop (.threw .runtime)
      else readStreamBody env request.getSize.toNat s'

def streamRequestHandlerCatch : Stop → HandlerEnd
  | .blocked => .blocked
  | .threw (.invalidRequestHeader _) | .threw (.invalidAuthToken _) =>
    .threw (.gservInterrupted (ascii "By receiving invalid request"))
  | .threw .interrupted | .threw .interruptedIo | .threw (.gservIo _) | .threw (.io _) =>
    .returned
  | .threw e => .threw e

/-- The loop takes a byte in every turn but the last, so their number bounds its
turns; the pipes are torn down unless the handler never ends. -/
def runStreamRequestHandler (env : StreamEnv) (s : StreamState) : StreamState × HandlerEnd :=
  let s' := (streamIteration env)^[s.input.length + 1] s
  match streamRequestHandlerCatch (s'.stopped.getD .blocked) with
  | .blocked => (s', .blocked)
  | ended => ({ s' with toreDownPipes := true }, ended)

theorem streamIteration_of_stopped (env : StreamEnv) {s : StreamState}
    (hs : s.stopped.isSome = true) : streamIteration env s = s := by
  rw [streamIteration, if_pos hs]

theorem iterate_streamIteration_of_stopped (env : StreamEnv) (n : ℕ) {s : StreamState}
    (hs : s.stopped.isSome = true) : (streamIteration env)^[n] s = s :=
  Function.iterate_fixed (streamIteration_of_stopped env hs) n

theorem headerBytes_pos (ending : Ending) {bytes : Bytes} (hne : bytes ≠ []) :
    0 < headerBytes ending bytes := by
  unfold headerBytes
  split
  · rename_i lines rest h
    have := length_readLines_lt hne h
    omega
  · exact List.length_pos_of_ne_nil hne

theorem readStreamRequest_nil (socket : Socket) (ending : Ending) :
    ∃ stop, readStreamRequest socket ending [] = .error stop := by
  cases ending with
  | eof => exact ⟨_, rfl⟩
  | waiting => exact ⟨_, rfl⟩
  | ioError message => exact ⟨_, rfl⟩
  | interruptedIo => exact ⟨_, rfl⟩

theorem transferStreamRequest_input (env : StreamEnv) (data : Bytes) (s : StreamState) :
    (transferStreamRequest env data s).input = s.input := by
  unfold transferStreamRequest
  split <;> rfl

theorem length_readStreamBody_le (env : StreamEnv) (size : ℕ) (s : StreamState) :
    (readStreamBody env size s).input.length ≤ s.input.length := by
  unfold readStreamBody
  split_ifs with hnil htore
  · split <;> exact le_rfl
  · simp [StreamState.take]
  · dsimp only
    rw [transferStreamRequest_input]
    simp [StreamState.take]

theorem streamIteration_progress (env : StreamEnv) {s : StreamState} (hs : s.stopped = none) :
    (streamIteration env s).stopped.isSome = true ∨
      (streamIteration env s).input.length < s.input.length := by
  have hrun : ¬ s.stopped.isSome = true := by simp [hs]
  rw [streamIteration, if_neg hrun]
  dsimp only
  cases hread : readStreamRequest env.socket env.ending s.input with
  | error stop => exact .inl rfl
  | ok r =>
    obtain ⟨request, rest⟩ := r
    have hne : s.input ≠ [] := by
      intro hnil
      obtain ⟨stop, hstop⟩ := readStreamRequest_nil env.socket env.ending
      rw [hnil, hstop] at hread
      cases hread
    have hpos := headerBytes_pos env.ending hne
    have hlen := List.length_pos_of_ne_nil hne
    have hlt : (s.take (headerBytes env.ending s.input) .header).input.length <
        s.input.length := by
      rw [StreamState.take, List.length_drop]
      omega
    dsimp only
    split_ifs with hinterrupted hempty hnegative
    · exact .inl rfl
    · exact .inr hlt
    · exact .inl rfl
    · exact .inr ((length_readStreamBody_le env _ _).trans_lt hlt)

theorem stopped_iterate (env : StreamEnv) (n : ℕ) {s : StreamState} (hn : s.input.length < n) :
    ((streamIteration env)^[n] s).stopped.isSome = true := by
  induction n generalizing s with
  | zero => omega
  | succ n ih =>
    rw [Function.iterate_succ_apply]
    cases hs : s.stopped with
    | some stop =>
      have hstopped : s.stopped.isSome = true := by rw [hs]; rfl
      rw [streamIteration_of_stopped env hstopped,
        iterate_streamIteration_of_stopped env n hstopped, hstopped]
    | none =>
      rcases streamIteration_progress env hs with hstopped | hlt
      · rw [iterate_streamIteration_of_stopped env n hstopped, hstopped]
      · exact ih (by omega)

/-- The method ends as its loop does after any number of turns that stop it. -/
theorem iterate_eq_of_stopped (env : StreamEnv) {n : ℕ} {s : StreamState}
    (h : ((streamIteration env)^[n] s).stopped.isSome = true) :
    (streamIteration env)^[s.input.length + 1] s = (streamIteration env)^[n] s := by
  have hall := stopped_iterate env (s.input.length + 1) (Nat.lt_succ_self s.input.length)
  rcases Nat.le_total n (s.input.length + 1) with hle | hle
  · obtain ⟨k, hk⟩ := Nat.exists_eq_add_of_le' hle
    rw [hk, Function.iterate_add_apply, iterate_streamIteration_of_stopped env k h]
  · obtain ⟨k, rfl⟩ := Nat.exists_eq_add_of_le' hle
    rw [Function.iterate_add_apply (streamIteration env) k,
      iterate_streamIteration_of_stopped env k hall]

theorem runStreamRequestHandler_fields (env : StreamEnv) (s : StreamState) :
    let t := (streamIteration env)^[s.input.length + 1] s
    (runStreamRequestHandler env s).1.pipe = t.pipe ∧
      (runStreamRequestHandler env s).1.uses = t.uses ∧
      (runStreamRequestHandler env s).1.input = t.input ∧
      (runStreamRequestHandler env s).2 = streamRequestHandlerCatch (t.stopped.getD .blocked) := by
  intro t
  rw [runStreamRequestHandler]
  split
  · rename_i h
    exact ⟨rfl, rfl, rfl, h.symm⟩
  · exact ⟨rfl, rfl, rfl, rfl⟩

def Stop.OfStream : Stop → Prop
  | .blocked => True
  | .threw e =>
    match e with
    | .interruptedIo | .io _ | .gservIo _ => True
    | .invalidRequestHeader _ | .gservInterrupted _ | .runtime => True
    | _ => False

theorem ending_read_ofStream {ending : Ending} {stop : Stop} (h : ending.read = .error stop) :
    stop.OfStream := by
  cases ending <;> cases h <;> trivial

theorem readStreamRequest_ofStream {socket : Socket} {ending : Ending} {bytes : Bytes}
    {stop : Stop} (h : readStreamRequest socket ending bytes = .error stop) : stop.OfStream := by
  have hheaders : ∀ stop, parseHeaders ending bytes = .error stop → stop.OfStream := by
    intro stop h
    unfold parseHeaders at h
    split at h
    · cases h
    · cases h
      trivial
    · cases h
      trivial
    · rename_i stop' hstop hio hlines
      cases h
      rcases readLinesLoop_error hlines with rfl | hread
      · trivial
      · exact ending_read_ofStream hread
  rcases bind_eq_error.mp h with hparse | ⟨r, -, h⟩
  · exact hheaders stop hparse
  · dsimp only at h
    unfold StreamRequest.check at h
    split_ifs at h
    · rw [error_bind] at h
      cases h
      trivial
    · cases h

theorem stopped_streamIteration_ofStream (env : StreamEnv) {s : StreamState}
    (hs : ∀ stop, s.stopped = some stop → stop.OfStream) {stop : Stop}
    (h : (streamIteration env s).stopped = some stop) : stop.OfStream := by
  have htransfer : ∀ data (s' : StreamState), s'.stopped = s.stopped →
      (transferStreamRequest env data s').stopped = some stop → stop.OfStream := by
    intro data s' hs' h
    unfold transferStreamRequest at h
    split at h
    · exact hs stop (hs' ▸ h)
    all_goals
      cases h
      trivial
  rw [streamIteration] at h
  split_ifs at h with hstopped
  · exact hs stop h
  · dsimp only at h
    cases hread : readStreamRequest env.socket env.ending s.input with
    | error stop' =>
      rw [hread] at h
      cases h
      exact readStreamRequest_ofStream hread
    | ok r =>
      rw [hread] at h
      dsimp only at h
      split_ifs at h
      · cases h
        trivial
      · exact hs stop h
      · cases h
        trivial
      · unfold readStreamBody at h
        split_ifs at h
        · split at h
          · rename_i stop' hend
            cases h
            exact ending_read_ofStream hend
          · cases h
            trivial
        · exact hs stop h
        · refine htransfer _ _ ?_ h
          rfl

theorem stopped_iterate_ofStream (env : StreamEnv) (n : ℕ) {s : StreamState}
    (hs : s.stopped = none) {stop : Stop}
    (h : ((streamIteration env)^[n] s).stopped = some stop) : stop.OfStream := by
  induction n generalizing stop with
  | zero =>
    rw [Function.iterate_zero, id_eq, hs] at h
    cases h
  | succ n ih =>
    rw [Function.iterate_succ_apply'] at h
    exact stopped_streamIteration_ofStream env (fun _ => ih) h

end GroovyServ.Server
