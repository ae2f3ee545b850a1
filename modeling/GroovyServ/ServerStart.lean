import GroovyServ.Bytes
import GroovyServ.StepSystem

/-!
# Server start commands at once on one port

A start command looks whether the port answers, deletes the authtoken file that it
finds if it does not, and spawns a daemon; the daemon binds the port or exits, and
then saves its token. Any number of commands take these steps in any order. The
file of a running server stays as long as no command gets to deleting it.
-/

namespace GroovyServ.Server

/-- How far `startServerAsDaemon` is. `unconnected` has found the port unused, and
`oldFile` an authtoken file as well. -/
inductive CommandPhase where
  | invoked
  | unconnected
  | oldFile
  | ready
  | daemonized
  | alreadyRunning
  deriving DecidableEq

/-- How far a daemon's `GroovyServer.start` is. `handling` has executed
`setupAuthToken`. -/
inductive DaemonPhase where
  | notStarted
  | starting
  | started
  | handling
  | exited
  deriving DecidableEq

/-- `port` is the daemon that holds the port, and `authtokenFile` the text of the
file if it exists. -/
structure Starts (ι : Type*) where
  command : ι → CommandPhase := fun _ => .invoked
  daemon : ι → DaemonPhase := fun _ => .notStarted
  port : Option ι := none
  authtokenFile : Option Bytes

inductive StartStep (ι : Type*) where
  | canConnect (i : ι)
  | fileExists (i : ι)
  | deleteFile (i : ι)
  | daemonize (i : ι)
  | startServer (i : ι)
  | setupAuthToken (i : ι)
  | setupAuthTokenFails (i : ι) (left : Option Bytes)

namespace Starts

variable {ι : Type*} [DecidableEq ι] (token : ι → Bytes)

def setCommand (s : Starts ι) (i : ι) (phase : CommandPhase) : Starts ι :=
  { s with command := Function.update s.command i phase }

def setDaemon (s : Starts ι) (i : ι) (phase : DaemonPhase) : Starts ι :=
  { s with daemon := Function.update s.daemon i phase }

/-- A daemon that cannot bind the port or save its token exits; what a failed save
leaves in the file is arbitrary. -/
def step (s : Starts ι) : StartStep ι → Option (Starts ι)
  | .canConnect i =>
    if s.command i = .invoked then
      some (s.setCommand i (if s.port.isSome then .alreadyRunning else .unconnected))
    else none
  | .fileExists i =>
    if s.command i = .unconnected then
      some (s.setCommand i (if s.authtokenFile.isSome then .oldFile else .ready))
    else none
  | .deleteFile i =>
    if s.command i = .oldFile then some { s.setCommand i .ready with authtokenFile := none }
    else none
  | .daemonize i =>
    if s.command i = .ready then some ((s.setCommand i .daemonized).setDaemon i .starting)
    else none
  | .startServer i =>
    if s.daemon i = .starting then
      match s.port with
      | none => some { s.setDaemon i .started with port := some i }
      | some _ => some (s.setDaemon i .exited)
    else none
  | .setupAuthToken i =>
    if s.daemon i = .started then
      some { s.setDaemon i .handling with authtokenFile := some (token i) }
    else none
  | .setupAuthTokenFails i left =>
    if s.daemon i = .started then
      some { s.setDaemon i .exited with port := none, authtokenFile := left }
    else none

end Starts

def startSystem {ι : Type*} [DecidableEq ι] (token : ι → Bytes) :
    StepSystem (Starts ι) (StartStep ι) := ⟨Starts.step token⟩

variable {ι : Type*}

/-- The server that holds the port and has saved its token has it in the file. -/
def TokenThere (token : ι → Bytes) (s : Starts ι) : Prop :=
  ∀ i, s.port = some i → s.daemon i = .handling → s.authtokenFile = some (token i)

/-- No command deletes the file of a server that has saved its token. -/
def NoLateDelete (s : Starts ι) : StartStep ι → Prop
  | .deleteFile _ => ∀ i, s.port = some i → s.daemon i ≠ .handling
  | _ => True

structure StartInvariant (token : ι → Bytes) (s : Starts ι) : Prop where
  holds : ∀ i, s.daemon i = .started ∨ s.daemon i = .handling → s.port = some i
  token : TokenThere token s

variable {token : ι → Bytes} {s s' : Starts ι}

theorem startInvariant_start (token : ι → Bytes) (file : Option Bytes) :
    StartInvariant token { authtokenFile := file } where
  holds i h := by rcases h with h | h <;> cases h
  token i h := by cases h

theorem StartInvariant.unique (h : StartInvariant token s) {i j : ι}
    (hi : s.daemon i = .started) (hj : s.daemon j = .started ∨ s.daemon j = .handling) :
    j = i := by
  have hport := (h.holds i (.inl hi)).symm.trans (h.holds j hj)
  exact (Option.some.inj hport).symm

variable [DecidableEq ι]

theorem StartInvariant.command (h : StartInvariant token s) (i : ι) (phase : CommandPhase)
    {file : Option Bytes}
    (hfile : ∀ j, s.port = some j → s.daemon j = .handling → file = s.authtokenFile) :
    StartInvariant token { s.setCommand i phase with authtokenFile := file } where
  holds := h.holds
  token j hport hdaemon := (hfile j hport hdaemon).trans (h.token j hport hdaemon)

theorem StartInvariant.startServer (h : StartInvariant token s) {i : ι}
    (hstep : s.step token (.startServer i) = some s') : StartInvariant token s' := by
  simp only [Starts.step, Option.ite_none_right_eq_some] at hstep
  obtain ⟨hstarting, hstep⟩ := hstep
  have hother : ∀ j phase, Function.update s.daemon i phase j = .started ∨
      Function.update s.daemon i phase j = .handling → j ≠ i → s.port = some j := by
    intro j phase hj hne
    rw [Function.update_of_ne hne] at hj
    exact h.holds j hj
  split at hstep
  · rename_i hport
    obtain rfl := Option.some.inj hstep
    refine ⟨fun j hj => ?_, fun j hj hdaemon => ?_⟩
    · by_cases hne : j = i
      · rw [hne]
      · rw [hport] at hother
        cases hother j .started hj hne
    · obtain rfl : i = j := Option.some.inj hj
      simp [Starts.setDaemon] at hdaemon
  · obtain rfl := Option.some.inj hstep
    refine ⟨fun j hj => ?_, fun j hj hdaemon => ?_⟩
    · by_cases hne : j = i
      · subst hne
        simp [Starts.setDaemon] at hj
      · exact hother j .exited hj hne
    · by_cases hne : j = i
      · subst hne
        simp [Starts.setDaemon] at hdaemon
      · exact h.token j hj (by simpa [Starts.setDaemon, Function.update_of_ne hne] using hdaemon)

theorem StartInvariant.step (h : StartInvariant token s) {label : StartStep ι}
    (hlabel : NoLateDelete s label) (hstep : s.step token label = some s') :
    StartInvariant token s' := by
  cases label with
  | canConnect i =>
    simp only [Starts.step, Option.ite_none_right_eq_some, Option.some.injEq] at hstep
    obtain ⟨-, rfl⟩ := hstep
    exact h.command i _ fun _ _ _ => rfl
  | fileExists i =>
    simp only [Starts.step, Option.ite_none_right_eq_some, Option.some.injEq] at hstep
    obtain ⟨-, rfl⟩ := hstep
    exact h.command i _ fun _ _ _ => rfl
  | deleteFile i =>
    simp only [Starts.step, Option.ite_none_right_eq_some, Option.some.injEq] at hstep
    obtain ⟨-, rfl⟩ := hstep
    exact h.command i _ fun j hport hdaemon => absurd hdaemon (hlabel j hport)
  | daemonize i =>
    simp only [Starts.step, Option.ite_none_right_eq_some, Option.some.injEq] at hstep
    obtain ⟨-, rfl⟩ := hstep
    refine ⟨fun j hj => ?_, fun j hj hdaemon => ?_⟩
    · by_cases hne : j = i
      · subst hne
        simp [Starts.setDaemon] at hj
      · exact h.holds j (by simpa [Starts.setDaemon, Starts.setCommand, hne] using hj)
    · by_cases hne : j = i
      · subst hne
        simp [Starts.setDaemon] at hdaemon
      · exact h.token j hj (by simpa [Starts.setDaemon, Starts.setCommand, hne] using hdaemon)
  | startServer i => exact h.startServer hstep
  | setupAuthToken i =>
    simp only [Starts.step, Option.ite_none_right_eq_some, Option.some.injEq] at hstep
    obtain ⟨hstarted, rfl⟩ := hstep
    have hport := h.holds i (.inl hstarted)
    refine ⟨fun j hj => ?_, fun j hj hdaemon => ?_⟩
    · by_cases hne : j = i
      · rw [hne]
        exact hport
      · exact h.holds j (by simpa [Starts.setDaemon, hne] using hj)
    · obtain rfl : i = j := Option.some.inj (hport.symm.trans hj)
      rfl
  | setupAuthTokenFails i left =>
    simp only [Starts.step, Option.ite_none_right_eq_some, Option.some.injEq] at hstep
    obtain ⟨hstarted, rfl⟩ := hstep
    refine ⟨fun j hj => ?_, fun j hj => by cases hj⟩
    by_cases hne : j = i
    · subst hne
      simp [Starts.setDaemon] at hj
    · exact absurd (h.unique hstarted (by simpa [Starts.setDaemon, hne] using hj)) hne

theorem not_tokenThere_of_lateDelete {label : StartStep ι} (hlabel : ¬ NoLateDelete s label)
    (hstep : s.step token label = some s') : ¬ TokenThere token s' := by
  cases label with
  | deleteFile i =>
    simp only [NoLateDelete, not_forall, not_not] at hlabel
    obtain ⟨j, hport, hdaemon⟩ := hlabel
    simp only [Starts.step, Option.ite_none_right_eq_some, Option.some.injEq] at hstep
    obtain ⟨-, rfl⟩ := hstep
    intro hthere
    cases hthere j hport hdaemon
  | canConnect i => exact absurd trivial hlabel
  | fileExists i => exact absurd trivial hlabel
  | daemonize i => exact absurd trivial hlabel
  | startServer i => exact absurd trivial hlabel
  | setupAuthToken i => exact absurd trivial hlabel
  | setupAuthTokenFails i left => exact absurd trivial hlabel

/-- Along a run the server's token is in the file exactly when no command deletes the
file after the server has saved it. -/
theorem tokenThere_iff_noLateDelete (token : ι → Bytes) (file : Option Bytes)
    {labels : List (StartStep ι)} {s : Starts ι}
    (hrun : (startSystem token).run { authtokenFile := file } labels = some s) :
    (startSystem token).StatesMeet (TokenThere token) { authtokenFile := file } labels ↔
      (startSystem token).StepsMeet NoLateDelete { authtokenFile := file } labels :=
  StepSystem.statesMeet_iff_stepsMeet (fun _ _ _ h hlabel hstep => h.step hlabel hstep)
    (fun _ h => h.token) (fun _ _ _ _ hlabel hstep => not_tokenThere_of_lateDelete hlabel hstep)
    (startInvariant_start token file) hrun

theorem tokenThere_iff_noLateDelete_one : ∃ s,
    (startSystem fun _ : ℕ => ascii "cafe").run { authtokenFile := some (ascii "old") }
      [.canConnect 0, .fileExists 0, .deleteFile 0, .daemonize 0, .startServer 0,
        .setupAuthToken 0] = some s ∧
    ((startSystem fun _ : ℕ => ascii "cafe").StatesMeet (TokenThere fun _ => ascii "cafe")
        { authtokenFile := some (ascii "old") } [.canConnect 0, .fileExists 0, .deleteFile 0,
          .daemonize 0, .startServer 0, .setupAuthToken 0] ↔
      (startSystem fun _ : ℕ => ascii "cafe").StepsMeet NoLateDelete
        { authtokenFile := some (ascii "old") } [.canConnect 0, .fileExists 0, .deleteFile 0,
          .daemonize 0, .startServer 0, .setupAuthToken 0]) := by
  obtain ⟨s, hs⟩ : ∃ s, (startSystem fun _ : ℕ => ascii "cafe").run
      { authtokenFile := some (ascii "old") } [.canConnect 0, .fileExists 0, .deleteFile 0,
        .daemonize 0, .startServer 0, .setupAuthToken 0] = some s := ⟨_, rfl⟩
  exact ⟨s, hs, tokenThere_iff_noLateDelete _ _ hs⟩

/-- Two commands find the port unused; the second comes to the file when the daemon of
the first has saved its token. -/
theorem not_tokenThere_two : ∃ s,
    (startSystem fun _ : ℕ => ascii "cafe").run { authtokenFile := none }
      [.canConnect 0, .canConnect 1, .fileExists 0, .daemonize 0, .startServer 0,
        .setupAuthToken 0, .fileExists 1, .deleteFile 1] = some s ∧
    s.port = some 0 ∧ s.daemon 0 = .handling ∧ s.authtokenFile = none ∧
    ¬ TokenThere (fun _ => ascii "cafe") s := by
  have hlost : ∀ s : Starts ℕ, s.port = some 0 → s.daemon 0 = .handling →
      s.authtokenFile = none → ¬ TokenThere (fun _ => ascii "cafe") s := by
    intro s hport hdaemon hfile hthere
    rw [hthere 0 hport hdaemon] at hfile
    cases hfile
  exact ⟨_, rfl, rfl, rfl, rfl, hlost _ rfl rfl rfl⟩

end GroovyServ.Server
