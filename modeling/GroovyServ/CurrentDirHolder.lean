import GroovyServ.Exceptions

/-!
# The directory and the environment of the server process

`CurrentDirHolder` with `EnvironmentVariables.put` and the methods of
`PlatformMethods` that it calls. The directory, the `user.dir` property and the
environment belong to the process and are shared by all its sessions. The C
library acts on a process state of which nothing else is known.
-/

namespace GroovyServ.Server

variable {π : Type*}

/-- The calls into the C library, and what was noted when the server started. -/
structure Platform (π : Type*) where
  isWindows : Bool
  chdir : π → Bytes → π
  putenvWindows : π → Bytes → π
  setenv : π → Bytes → Bytes → π
  originalUserDir : Bytes
  originalPwd : Option Bytes

/-- The process-wide state. The cache of the environment may hold a null. -/
structure Host (π : Type*) where
  process : π
  cache : Bytes → Option (Option Bytes)
  userDir : Bytes
  currentDir : Option Bytes

def splitEnvVar (envVar : Bytes) : Bytes × Option Bytes :=
  (envVar.takeWhile (· ≠ 61),
    if 61 ∈ envVar then some ((envVar.dropWhile (· ≠ 61)).drop 1) else none)

namespace Platform

/-- On UNIX `setenv` looks at an empty name first, which it refuses, and does not survive a
null value otherwise. -/
def KilledBy (p : Platform π) (envVar : Bytes) : Prop :=
  p.isWindows = false ∧ (splitEnvVar envVar).2 = none ∧ envVar.headD 0 ≠ 0

instance (p : Platform π) (envVar : Bytes) : Decidable (p.KilledBy envVar) :=
  inferInstanceAs (Decidable (_ ∧ _ ∧ _))

/-- `PlatformMethods.putenv`, when it returns. -/
def putenv (p : Platform π) (process : π) (envVar : Bytes) : π :=
  if p.isWindows then p.putenvWindows process envVar
  else
    match splitEnvVar envVar with
    | (name, some value) => p.setenv process name value
    | (_, none) => process

/-- `EnvironmentVariables.put`, when it returns. -/
def put (p : Platform π) (envVar : Bytes) (host : Host π) : Host π :=
  { host with
    process := p.putenv host.process envVar
    cache := Function.update host.cache (splitEnvVar envVar).1 (some (splitEnvVar envVar).2) }

def setDir (p : Platform π) (newDir : Bytes) (host : Host π) : Except JException (Host π) :=
  if host.currentDir = some newDir then .ok host
  else
    match host.currentDir with
    | some currentDir =>
      .error (.gservIllegalState (ascii "Cannot change current directory because another " ++
        ascii "session is running on different directory: " ++ currentDir ++ ascii " -X-> " ++
        newDir))
    | none =>
      let host := { host with userDir := newDir, process := p.chdir host.process newDir }
      .ok { p.put (ascii "PWD=" ++ newDir) host with currentDir := some newDir }

def reset (p : Platform π) (host : Host π) : Host π :=
  if host.currentDir = none then host
  else
    let host := { host with userDir := p.originalUserDir }
    let host := p.put (ascii "PWD=" ++ p.originalPwd.getD (ascii "null")) host
    { host with process := p.chdir host.process p.originalUserDir, currentDir := none }

end Platform

/-- A directory that is held is the one of the property `user.dir`. -/
def Host.Agrees (host : Host π) : Prop := ∀ dir, host.currentDir = some dir → host.userDir = dir

variable (p : Platform π)

theorem setDir_ok {newDir : Bytes} {host host' : Host π} (h : p.setDir newDir host = .ok host') :
    (host' = host ∧ host.currentDir = some newDir) ∨
      (host.currentDir = none ∧ host'.currentDir = some newDir ∧ host'.userDir = newDir) := by
  unfold Platform.setDir at h
  split_ifs at h with hsame
  · cases h
    exact .inl ⟨rfl, hsame⟩
  · cases hdir : host.currentDir with
    | some currentDir => simp [hdir] at h
    | none =>
      simp only [hdir, Except.ok.injEq] at h
      subst h
      exact .inr ⟨rfl, rfl, rfl⟩

theorem setDir_agrees {newDir : Bytes} {host host' : Host π} (hagrees : host.Agrees)
    (h : p.setDir newDir host = .ok host') :
    host'.currentDir = some newDir ∧ host'.userDir = newDir := by
  rcases setDir_ok p h with ⟨rfl, hdir⟩ | ⟨-, hdir, huser⟩
  · exact ⟨hdir, hagrees newDir hdir⟩
  · exact ⟨hdir, huser⟩

theorem setDir_error {newDir : Bytes} {host : Host π} {e : JException}
    (h : p.setDir newDir host = .error e) : ∃ message, e = .gservIllegalState message := by
  unfold Platform.setDir at h
  split_ifs at h
  cases hdir : host.currentDir with
  | some currentDir =>
    simp only [hdir, Except.error.injEq] at h
    exact ⟨_, h.symm⟩
  | none => simp [hdir] at h

theorem currentDir_reset (host : Host π) : (p.reset host).currentDir = none := by
  unfold Platform.reset
  split_ifs with h
  · exact h
  · rfl

end GroovyServ.Server
