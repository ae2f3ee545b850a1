import GroovyServ.Exceptions
import GroovyServ.Statements

/-!
# Tearing down and closing a connection

`close` and `tearDownTransferringPipes` of `ClientConnection` over its fields, with
every call that they make of an underlying `close`. Both hold the object's lock, so
that the calls of all threads form one sequence. Three stages describe the object:
it is open, its pipe for standard input is torn down, or it is closed.
-/

namespace GroovyServ.Server

open Statements

inductive Endpoint where
  | pipedOutputStream
  | pipedInputStream
  | socketOutputStream
  deriving DecidableEq

/-- The exceptions that `catch (IOException e)` takes. -/
def JException.isIo : JException → Bool
  | io _ | interruptedIo => true
  | _ => false

/-- How the underlying `close` operations would end during one call: by themselves or
with an `IOException`. -/
structure CloseEnds where
  thrown : Endpoint → Option JException
  thrown_io : ∀ endpoint, ∀ e ∈ thrown endpoint, e.isIo = true

variable {ι : Type}

/-- The fields of a `ClientConnection`; a reference is whether it is not null. `holders`
are the threads whose `connectionHolder` gives it, and `closes` the underlying `close`
operations called so far. -/
structure ConnectionFields (ι : Type) where
  pipedOutputStream : Bool := true
  pipedInputStream : Bool := true
  socket : Bool := true
  closed : Bool := false
  toreDownPipes : Bool := false
  holders : ι → Bool
  closes : List Endpoint := []

inductive ConnectionCall (ι : Type) where
  | close (thread : ι) (ends : CloseEnds)
  | tearDownTransferringPipes (thread : ι) (ends : CloseEnds)

def ConnectionCall.isClose : ConnectionCall ι → Bool
  | close _ _ => true
  | tearDownTransferringPipes _ _ => false

namespace ConnectionFields

def closeEndpoint (endpoint : Endpoint) (ends : CloseEnds) :
    Statements JException (ConnectionFields ι) Unit := do
  modify fun s => { s with closes := s.closes ++ [endpoint] }
  match ends.thrown endpoint with
  | none => pure ()
  | some e => if e.isIo then pure () else throw e

def tearDownTransferringPipes (ends : CloseEnds) :
    Statements JException (ConnectionFields ι) Unit := do
  let s ← get
  if s.toreDownPipes then return
  if s.pipedOutputStream then
    closeEndpoint .pipedOutputStream ends
    modify fun s => { s with pipedOutputStream := false }
  modify fun s => { s with toreDownPipes := true }

variable [DecidableEq ι]

def close (thread : ι) (ends : CloseEnds) : Statements JException (ConnectionFields ι) Unit := do
  if (← get).closed then return
  tearDownTransferringPipes ends
  if (← get).pipedInputStream then
    closeEndpoint .pipedInputStream ends
    modify fun s => { s with pipedInputStream := false }
  if (← get).socket then
    closeEndpoint .socketOutputStream ends
    modify fun s => { s with socket := false }
  modify fun s => { s with holders := Function.update s.holders thread false }
  modify fun s => { s with closed := true }

def call : ConnectionCall ι → Statements JException (ConnectionFields ι) Unit
  | .close thread ends => close thread ends
  | .tearDownTransferringPipes _ ends => tearDownTransferringPipes ends

def run (s : ConnectionFields ι) (calls : List (ConnectionCall ι)) : ConnectionFields ι :=
  calls.foldl (fun s c => ((call c).runOn s).2) s

def new (holders : ι → Bool) : ConnectionFields ι := { holders := holders }

end ConnectionFields

inductive ConnectionStage where
  | opened
  | toreDown
  | closed
  deriving DecidableEq

namespace ConnectionStage

def closes : ConnectionStage → List Endpoint
  | opened => []
  | toreDown => [.pipedOutputStream]
  | closed => [.pipedOutputStream, .pipedInputStream, .socketOutputStream]

def next : ConnectionStage → ConnectionCall ι → ConnectionStage
  | _, .close _ _ => closed
  | opened, .tearDownTransferringPipes _ _ => toreDown
  | stage, .tearDownTransferringPipes _ _ => stage

def fields (holders : ι → Bool) : ConnectionStage → ConnectionFields ι
  | opened => { holders := holders, closes := opened.closes }
  | toreDown =>
    { pipedOutputStream := false
      toreDownPipes := true
      holders := holders
      closes := toreDown.closes }
  | closed =>
    { pipedOutputStream := false
      pipedInputStream := false
      socket := false
      closed := true
      toreDownPipes := true
      holders := holders
      closes := closed.closes }

end ConnectionStage

namespace ConnectionFields

variable {holders : ι → Bool}

theorem runOn_closeEndpoint (endpoint : Endpoint) (ends : CloseEnds) (s : ConnectionFields ι) :
    (closeEndpoint endpoint ends).runOn s =
      (.ok (), { s with closes := s.closes ++ [endpoint] }) := by
  rw [closeEndpoint, runOn_bind, runOn_modify]
  cases hthrown : ends.thrown endpoint with
  | none => rfl
  | some e =>
    have hio : e.isIo = true := ends.thrown_io endpoint e hthrown
    simp only [hio, if_true]
    rfl

theorem runOn_tearDown_opened (ends : CloseEnds) :
    (tearDownTransferringPipes ends).runOn (ConnectionStage.opened.fields holders) =
      (.ok (), ConnectionStage.toreDown.fields holders) := by
  simp [tearDownTransferringPipes, runOn_bind, runOn_closeEndpoint, ConnectionStage.fields,
    ConnectionStage.closes]

theorem runOn_tearDown_again (ends : CloseEnds) {s : ConnectionFields ι}
    (htoreDown : s.toreDownPipes = true) :
    (tearDownTransferringPipes ends).runOn s = (.ok (), s) := by
  simp only [tearDownTransferringPipes, runOn_bind, runOn_get, htoreDown, if_true]
  rfl

variable [DecidableEq ι]

theorem runOn_close {s : ConnectionFields ι} (hopen : s.closed = false) (thread : ι)
    {ends : CloseEnds}
    (htearDown : (tearDownTransferringPipes ends).runOn s =
      (.ok (), ConnectionStage.toreDown.fields holders)) :
    (close thread ends).runOn s =
      (.ok (), ConnectionStage.closed.fields (Function.update holders thread false)) := by
  simp only [close, runOn_bind, runOn_get, hopen, Bool.false_eq_true, if_false, htearDown]
  simp [runOn_bind, runOn_closeEndpoint, ConnectionStage.fields, ConnectionStage.closes]

theorem runOn_close_again (thread : ι) (ends : CloseEnds) {s : ConnectionFields ι}
    (hclosed : s.closed = true) : (close thread ends).runOn s = (.ok (), s) := by
  simp only [close, runOn_bind, runOn_get, hclosed, if_true]
  rfl

theorem runOn_call (stage : ConnectionStage) (holders : ι → Bool) (c : ConnectionCall ι) :
    ∃ holders', (call c).runOn (stage.fields holders) = (.ok (), (stage.next c).fields holders') ∧
      (stage = .closed → holders' = holders) := by
  cases c with
  | close thread ends =>
    cases stage with
    | opened =>
      exact ⟨_, runOn_close rfl thread (runOn_tearDown_opened ends), fun h => by cases h⟩
    | toreDown =>
      exact ⟨_, runOn_close rfl thread (runOn_tearDown_again ends rfl), fun h => by cases h⟩
    | closed => exact ⟨holders, runOn_close_again thread ends rfl, fun _ => rfl⟩
  | tearDownTransferringPipes thread ends =>
    cases stage with
    | opened => exact ⟨holders, runOn_tearDown_opened ends, fun _ => rfl⟩
    | toreDown => exact ⟨holders, runOn_tearDown_again ends rfl, fun _ => rfl⟩
    | closed => exact ⟨holders, runOn_tearDown_again ends rfl, fun _ => rfl⟩

theorem run_fields (stage : ConnectionStage) (holders : ι → Bool)
    (calls : List (ConnectionCall ι)) :
    ∃ holders', (stage.fields holders).run calls =
      (calls.foldl ConnectionStage.next stage).fields holders' := by
  induction calls generalizing stage holders with
  | nil => exact ⟨holders, rfl⟩
  | cons c calls ih =>
    obtain ⟨holders', hcall, -⟩ := runOn_call stage holders c
    have hrun : (stage.fields holders).run (c :: calls) =
        ((stage.next c).fields holders').run calls := by
      rw [run, List.foldl_cons, hcall]
      rfl
    rw [hrun]
    exact ih (stage.next c) holders'

end ConnectionFields

namespace ConnectionStage

theorem next_closed (c : ConnectionCall ι) : closed.next c = closed := by
  cases c <;> rfl

theorem foldl_next_closed (calls : List (ConnectionCall ι)) :
    calls.foldl next closed = closed := by
  induction calls with
  | nil => rfl
  | cons c calls ih => rw [List.foldl_cons, next_closed, ih]

theorem foldl_next_eq_closed_iff {stage : ConnectionStage} (hopen : stage ≠ closed)
    (calls : List (ConnectionCall ι)) :
    calls.foldl next stage = closed ↔ ∃ c ∈ calls, c.isClose = true := by
  induction calls generalizing stage with
  | nil => simpa using hopen
  | cons c calls ih =>
    simp only [List.foldl_cons, List.mem_cons, exists_eq_or_imp]
    cases c with
    | close thread ends => simp [next, foldl_next_closed, ConnectionCall.isClose]
    | tearDownTransferringPipes thread ends =>
      have hnext : stage.next (.tearDownTransferringPipes thread ends) ≠ closed := by
        cases stage <;> simp_all [next]
      rw [ih hnext]
      simp [ConnectionCall.isClose]

end ConnectionStage

namespace ConnectionFields

variable [DecidableEq ι]

theorem run_closed (holders : ι → Bool) (calls : List (ConnectionCall ι)) :
    (ConnectionStage.closed.fields holders).run calls = ConnectionStage.closed.fields holders := by
  induction calls with
  | nil => rfl
  | cons c calls ih =>
    obtain ⟨holders', hcall, hsame⟩ := runOn_call .closed holders c
    rw [hsame rfl, ConnectionStage.next_closed] at hcall
    rw [run, List.foldl_cons, hcall]
    exact ih

/-- Every call returns, and each endpoint is closed at most once. Without a call of `close`
only the writing end of the pipe is closed; from the first such call on each endpoint has
been closed exactly once, and no call changes anything. -/
theorem run_closes (holders : ι → Bool) (calls : List (ConnectionCall ι)) :
    let s := (new holders).run calls
    (∀ c, ((call c).runOn s).1 = .ok ()) ∧
    (∀ endpoint, s.closes.count endpoint ≤ 1) ∧
    ((∀ c ∈ calls, c.isClose = false) → ∀ endpoint ∈ s.closes, endpoint = .pipedOutputStream) ∧
    ((∃ c ∈ calls, c.isClose = true) → (∀ endpoint, s.closes.count endpoint = 1) ∧
      ∀ later, s.run later = s) := by
  intro s
  obtain ⟨holders', hs⟩ := run_fields .opened holders calls
  generalize hstage : calls.foldl ConnectionStage.next .opened = stage at hs
  have hs : s = stage.fields holders' := hs
  have hclosed : stage = .closed ↔ ∃ c ∈ calls, c.isClose = true :=
    hstage ▸ ConnectionStage.foldl_next_eq_closed_iff (by decide) calls
  have hcloses : s.closes = stage.closes := by
    rw [hs]
    cases stage <;> rfl
  refine ⟨fun c => ?_, fun endpoint => ?_, fun hnone => ?_, fun hclose => ?_⟩
  · obtain ⟨_, hcall, -⟩ := runOn_call stage holders' c
    rw [hs, hcall]
  · rw [hcloses]
    cases stage <;> cases endpoint <;> decide
  · have hopen : stage ≠ .closed := fun h => by
      obtain ⟨c, hmem, hc⟩ := hclosed.mp h
      rw [hnone c hmem] at hc
      cases hc
    rw [hcloses]
    cases stage with
    | opened => simp [ConnectionStage.closes]
    | toreDown => simp [ConnectionStage.closes]
    | closed => exact absurd rfl hopen
  · have hlast := hclosed.mpr hclose
    subst hlast
    refine ⟨fun endpoint => ?_, fun later => ?_⟩
    · rw [hcloses]
      cases endpoint <;> decide
    · rw [hs]
      exact run_closed holders' later

end ConnectionFields

end GroovyServ.Server
