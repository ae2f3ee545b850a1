import GroovyServ.GroovyInvokeHandler

/-!
# The directory when a script's handler has ended

The catch clause for a directory that another session holds also catches the same
exception from the script, and then the directory that this session has taken is not
reset. Every other way in which the body ends gives it back.
-/

namespace GroovyServ.Server

variable {π : Type}

/-- The directory is free for the next session, whichever it wants. -/
structure IsReset (p : Platform π) (host : Host π) : Prop where
  currentDir : host.currentDir = none
  userDir : host.userDir = p.originalUserDir
  next : ∀ newDir, ∃ host', p.setDir newDir host = .ok host'

/-- Scripts do not call the holder. -/
def Script.KeepsHolder (script : Script π) : Prop :=
  ∀ args classpath host, ((script args classpath).runOn host).2.currentDir = host.currentDir

/-- The script is run and ends by a `GServIllegalStateException`. -/
def EndsIllegally (p : Platform π) (script : Script π) (request : InvocationRequest)
    (host : Host π) : Prop :=
  ∃ prepared classpath request' message, p.prepare request host = .ok prepared ∧
    (removeClasspathFromArgs p.isWindows).runOn request = (.ok classpath, request') ∧
    ((script request'.args classpath).runOn prepared).1 = .error (.gservIllegalState message)

section Reset

variable {p : Platform π} {script : Script π} {request : InvocationRequest} {host : Host π}

theorem currentDir_setupEnvVars (envVars : Option (List Bytes)) (host : Host π) :
    (p.setupEnvVars envVars host).currentDir = host.currentDir := by
  rw [Platform.setupEnvVars]
  generalize envVars.getD [] = envVars
  induction envVars using List.reverseRecOn with
  | nil => rfl
  | append_singleton envVars envVar ih =>
    rw [List.foldl_append]
    exact ih

theorem exists_prepared (hcwd : truth request.cwd = true) (hfree : host.currentDir = none) :
    ∃ prepared, p.prepare request host = .ok prepared ∧ prepared.currentDir = request.cwd := by
  obtain ⟨entered, henter, hdir⟩ : ∃ entered, p.setDir (request.cwd.getD []) host =
      .ok entered ∧ entered.currentDir = some (request.cwd.getD []) :=
    ⟨_, setDir_of_free hfree _, rfl⟩
  refine ⟨p.setupEnvVars request.envVars entered, ?_, ?_⟩
  · rw [Platform.prepare, if_pos hcwd, henter]
    rfl
  · rw [currentDir_setupEnvVars, hdir, ← cwd_of_truth hcwd]

theorem isReset_iff_resetsDir {shouldResetCurrentDir : Bool} {body : Except JException Unit}
    (hheld : host.currentDir ≠ none) :
    IsReset p (if resetsDir shouldResetCurrentDir body then
      ((CurrentDirHolder.reset p).runOn host).2 else host) ↔
        resetsDir shouldResetCurrentDir body = true := by
  constructor
  · intro h
    by_contra hreset
    rw [if_neg hreset] at h
    exact hheld h.currentDir
  · intro hreset
    rw [if_pos hreset, reset_runOn]
    have hdir := currentDir_reset p host
    refine ⟨hdir, ?_, fun newDir => ⟨_, setDir_of_free hdir newDir⟩⟩
    rw [Platform.reset, if_neg hheld]
    rfl

theorem resetsDir_iff {body : Except JException Unit} :
    resetsDir true body = true ↔ ∀ message, body ≠ .error (.gservIllegalState message) := by
  unfold resetsDir
  split
  · rename_i message
    exact iff_of_false nofun fun h => h message rfl
  · rename_i hbody
    exact iff_of_true rfl hbody

/-- The directory is given back exactly when the script does not end by the exception that
tells of another session. -/
theorem isReset_run_iff (hscript : script.KeepsHolder) (hcwd : truth request.cwd = true)
    (hfree : host.currentDir = none) :
    IsReset p (runGroovyInvokeHandler p script request host).2 ↔
      ¬ EndsIllegally p script request host := by
  obtain ⟨prepared, hprepare, hdir⟩ := exists_prepared (p := p) hcwd hfree
  have hheld : prepared.currentDir ≠ none := by
    rw [hdir, cwd_of_truth hcwd]
    nofun
  have hrun := runOn_invokeTry p script request host
  rw [hprepare, hcwd] at hrun
  unfold EndsIllegally
  rw [hprepare]
  rcases hremove : (removeClasspathFromArgs p.isWindows).runOn request with ⟨result, request'⟩
  rw [hremove] at hrun
  cases result with
  | error e =>
    -- the script is not run
    dsimp only at hrun
    rw [runGroovyInvokeHandler, hrun]
    dsimp only
    obtain ⟨rfl, -⟩ := removeClasspathFromArgs_error hremove
    refine iff_of_true ((isReset_iff_resetsDir hheld).mpr rfl) ?_
    rintro ⟨prepared', classpath, request'', message, -, hreturned, -⟩
    cases hreturned
  | ok classpath =>
    dsimp only at hrun
    rw [runGroovyInvokeHandler, hrun]
    dsimp only
    have hkept : ((script request'.args classpath).runOn prepared).2.currentDir ≠ none := by
      rwa [hscript]
    refine (isReset_iff_resetsDir hkept).trans (resetsDir_iff.trans ⟨fun h => ?_, fun h => ?_⟩)
    · rintro ⟨prepared', classpath', request'', message, hprepared, hreturned, hends⟩
      obtain rfl := Except.ok.inj hprepared
      obtain ⟨hclasspath, rfl⟩ := Prod.mk.inj hreturned
      obtain rfl := Except.ok.inj hclasspath
      exact h message hends
    · intro message hends
      exact h ⟨prepared, classpath, request', message, rfl, rfl, hends⟩

def returnScript : Script (Bytes × (Bytes → Option Bytes)) := fun _ _ => pure ()

theorem isReset_run_iff_work :
    IsReset unixPlatform
        (runGroovyInvokeHandler unixPlatform returnScript workRequest unixHost).2 ↔
      ¬ EndsIllegally unixPlatform returnScript workRequest unixHost :=
  isReset_run_iff (fun _ _ _ => rfl) (by decide +kernel) rfl

/-- A script whose thread has no client connection, as `System.out` finds out. -/
def strayScript : Script (Bytes × (Bytes → Option Bytes)) := fun _ _ =>
  throw (.gservIllegalState (ascii "Not found client connection: Thread[main]"))

theorem not_isReset_stray :
    ¬ IsReset unixPlatform
      (runGroovyInvokeHandler unixPlatform strayScript workRequest unixHost).2 := by
  intro h
  have hdir : (runGroovyInvokeHandler unixPlatform strayScript workRequest unixHost).2.currentDir =
      some (ascii "/work") := by decide +kernel
  exact absurd (h.currentDir.symm.trans hdir) nofun

end Reset

end GroovyServ.Server
