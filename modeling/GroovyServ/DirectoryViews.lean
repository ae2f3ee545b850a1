import GroovyServ.EnvironmentLookup
import GroovyServ.Statements

/-!
# The four views of the current directory

The holder's `currentDir`, the property `user.dir`, the working directory of the
process and the variable `PWD` are set one after the other. `setDir` and `reset` are
given here statement by statement, with the state that an exception leaves behind,
and any sequence of calls from the start of the server keeps the four together.
-/

namespace GroovyServ.Server

variable {π : Type}

abbrev HostAction (π : Type) := Statements JException (Host π)

namespace CurrentDirHolder

def setDir (p : Platform π) (newDir : Bytes) : HostAction π Unit := do
  let host ← get
  if host.currentDir = some newDir then pure ()
  else
    match host.currentDir with
    | some currentDir =>
      throw (.gservIllegalState (ascii "Cannot change current directory because another " ++
        ascii "session is running on different directory: " ++ currentDir ++ ascii " -X-> " ++
        newDir))
    | none =>
      modify fun host => { host with userDir := newDir }
      modify fun host => { host with process := p.chdir host.process newDir }
      modify (p.put (ascii "PWD=" ++ newDir))
      modify fun host => { host with currentDir := some newDir }

def reset (p : Platform π) : HostAction π Unit := do
  let host ← get
  if host.currentDir = none then pure ()
  else
    modify fun host => { host with userDir := p.originalUserDir }
    modify (p.put (ascii "PWD=" ++ p.originalPwd.getD (ascii "null")))
    modify fun host => { host with process := p.chdir host.process p.originalUserDir }
    modify fun host => { host with currentDir := none }

end CurrentDirHolder

variable (p : Platform π)

theorem setDir_runOn (newDir : Bytes) (host : Host π) :
    (CurrentDirHolder.setDir p newDir).runOn host =
      match p.setDir newDir host with
      | .ok host' => (.ok (), host')
      | .error e => (.error e, host) := by
  obtain ⟨process, cache, userDir, currentDir⟩ := host
  unfold CurrentDirHolder.setDir Platform.setDir
  change Statements.runOn (if currentDir = some newDir then pure () else _) _ = _
  by_cases hsame : currentDir = some newDir
  · rw [if_pos hsame, if_pos hsame]
    rfl
  · rw [if_neg hsame, if_neg hsame]
    cases currentDir <;> rfl

theorem reset_runOn (host : Host π) :
    (CurrentDirHolder.reset p).runOn host = (.ok (), p.reset host) := by
  obtain ⟨process, cache, userDir, currentDir⟩ := host
  cases currentDir <;> rfl

inductive DirCall where
  | setDir (newDir : Bytes)
  | reset

def DirCall.action : DirCall → HostAction π Unit
  | .setDir newDir => CurrentDirHolder.setDir p newDir
  | .reset => CurrentDirHolder.reset p

/-- The calls are synchronized, so they come one after the other. -/
def dirSystem : StepSystem (Host π) DirCall :=
  ⟨fun host call => some ((call.action p).runOn host).2⟩

/-- `chdir` succeeds, and setting a variable leaves the working directory as it is. -/
structure Platform.SetsDirectory (cwd : π → Bytes) : Prop where
  chdir : ∀ process dir, cwd (p.chdir process dir) = dir
  setenv : ∀ process name value, cwd (p.setenv process name value) = cwd process
  putenvWindows : ∀ process envVar, cwd (p.putenvWindows process envVar) = cwd process

/-- The state that the server starts in. -/
structure Host.IsStart (cwd : π → Bytes) (orig : Environment) (host : Host π) : Prop where
  currentDir : host.currentDir = none
  cache : ∀ name, host.cache name = none
  userDir : host.userDir = p.originalUserDir
  directory : cwd host.process = p.originalUserDir
  pwd : orig (ascii "PWD") = p.originalPwd
  pwd_isSome : p.originalPwd.isSome = true

structure ViewsAgree (cwd : π → Bytes) (orig : Environment) (host : Host π) : Prop where
  free : host.currentDir = none → host.userDir = p.originalUserDir ∧
    cwd host.process = p.originalUserDir ∧ host.getenv orig (ascii "PWD") = p.originalPwd
  held : ∀ dir, host.currentDir = some dir → host.userDir = dir ∧
    cwd host.process = dir ∧ host.getenv orig (ascii "PWD") = some dir

/-- `setDir` succeeds for a free or the same directory, which is then held, and what it
throws leaves the four views as they were; `reset` makes the directory free. -/
structure HolderSpec (cwd : π → Bytes) (orig : Environment) (host : Host π) : Prop where
  succeeds : ∀ newDir, ((CurrentDirHolder.setDir p newDir).runOn host).1 = .ok () ↔
    host.currentDir = none ∨ host.currentDir = some newDir
  sets : ∀ newDir host', (CurrentDirHolder.setDir p newDir).runOn host = (.ok (), host') →
    host'.currentDir = some newDir
  raises : ∀ newDir e host', (CurrentDirHolder.setDir p newDir).runOn host = (.error e, host') →
    (∃ message, e = .gservIllegalState message) ∧ host'.currentDir = host.currentDir ∧
      host'.userDir = host.userDir ∧ cwd host'.process = cwd host.process ∧
      host'.getenv orig (ascii "PWD") = host.getenv orig (ascii "PWD")
  resets : ∃ host', (CurrentDirHolder.reset p).runOn host = (.ok (), host') ∧
    host'.currentDir = none

section Views

variable {p} {cwd : π → Bytes} {orig : Environment} {host : Host π}

theorem Host.IsStart.viewsAgree (h : host.IsStart p cwd orig) : ViewsAgree p cwd orig host where
  free _ := by
    refine ⟨h.userDir, h.directory, ?_⟩
    rw [Host.getenv, h.cache, h.pwd]
  held dir hdir := by
    rw [h.currentDir] at hdir
    cases hdir

theorem Platform.SetsDirectory.putenv (hcwd : p.SetsDirectory cwd) (process : π)
    (envVar : Bytes) : cwd (p.putenv process envVar) = cwd process := by
  rw [Platform.putenv]
  split_ifs
  · exact hcwd.putenvWindows process envVar
  · cases hvalue : splitEnvVar envVar with
    | mk name value =>
      cases value with
      | some value => exact hcwd.setenv process name value
      | none => rfl

theorem getenv_put_pwd (p : Platform π) (orig : Environment) (dir : Bytes) (host : Host π) :
    (p.put (ascii "PWD=" ++ dir) host).getenv orig (ascii "PWD") = some dir := by
  have hplain : (61 : UInt8) ∉ ascii "PWD" := by decide
  have hsplit : splitEnvVar (ascii "PWD=" ++ dir) = (ascii "PWD", some dir) :=
    splitEnvVar_entry hplain dir
  rw [Host.getenv, Platform.put, hsplit]
  simp only [Function.update_self]

theorem setDir_of_free (hfree : host.currentDir = none) (newDir : Bytes) :
    p.setDir newDir host = .ok
      { p.put (ascii "PWD=" ++ newDir)
          { host with userDir := newDir, process := p.chdir host.process newDir } with
        currentDir := some newDir } := by
  unfold Platform.setDir
  rw [hfree]
  rfl

theorem ViewsAgree.setDir (hcwd : p.SetsDirectory cwd) (h : ViewsAgree p cwd orig host)
    (newDir : Bytes) :
    ViewsAgree p cwd orig ((CurrentDirHolder.setDir p newDir).runOn host).2 := by
  rw [setDir_runOn]
  cases hset : p.setDir newDir host with
  | error e => exact h
  | ok host' =>
    rcases setDir_ok p hset with ⟨rfl, -⟩ | ⟨hfree, -⟩
    · exact h
    · rw [setDir_of_free hfree] at hset
      obtain rfl := Except.ok.inj hset
      refine ⟨nofun, fun dir hnew => ?_⟩
      obtain rfl : newDir = dir := Option.some.inj hnew
      refine ⟨rfl, ?_, ?_⟩
      · exact (hcwd.putenv (p.chdir host.process newDir) (ascii "PWD=" ++ newDir)).trans
          (hcwd.chdir host.process newDir)
      · exact getenv_put_pwd p orig newDir
          { host with userDir := newDir, process := p.chdir host.process newDir }

theorem ViewsAgree.reset (hcwd : p.SetsDirectory cwd) (hpwd : p.originalPwd.isSome = true)
    (h : ViewsAgree p cwd orig host) :
    ViewsAgree p cwd orig ((CurrentDirHolder.reset p).runOn host).2 := by
  rw [reset_runOn]
  unfold Platform.reset
  split_ifs with hdir
  · exact h
  · refine ⟨fun _ => ⟨rfl, hcwd.chdir _ _, ?_⟩, nofun⟩
    obtain ⟨pwd, hsome⟩ := Option.isSome_iff_exists.mp hpwd
    rw [hsome]
    exact getenv_put_pwd p orig pwd { host with userDir := p.originalUserDir }

theorem holderSpec (cwd : π → Bytes) (orig : Environment) (host : Host π) :
    HolderSpec p cwd orig host := by
  refine ⟨fun newDir => ?_, fun newDir host' hrun => ?_, fun newDir e host' hrun => ?_,
    _, reset_runOn p host, currentDir_reset p host⟩
  · rw [setDir_runOn]
    unfold Platform.setDir
    split_ifs with hsame
    · exact iff_of_true rfl (.inr hsame)
    · cases hdir : host.currentDir with
      | some currentDir =>
        rw [hdir] at hsame
        exact iff_of_false nofun fun h => h.elim nofun hsame
      | none => exact iff_of_true rfl (.inl rfl)
  · rw [setDir_runOn] at hrun
    cases hset : p.setDir newDir host with
    | ok host₁ =>
      rw [hset] at hrun
      obtain ⟨-, rfl⟩ := Prod.mk.inj hrun
      exact (setDir_ok p hset).elim (fun h => h.1 ▸ h.2) fun h => h.2.1
    | error e =>
      rw [hset] at hrun
      cases hrun
  · rw [setDir_runOn] at hrun
    cases hset : p.setDir newDir host with
    | ok host₁ =>
      rw [hset] at hrun
      cases hrun
    | error e₁ =>
      rw [hset] at hrun
      obtain ⟨he, rfl⟩ := Prod.mk.inj hrun
      obtain rfl := Except.error.inj he
      exact ⟨setDir_error p hset, rfl, rfl, rfl, rfl⟩

/-- After any calls the four views agree, and the next call does what it should. -/
theorem statesMeet_viewsAgree (hcwd : p.SetsDirectory cwd) (hstart : host.IsStart p cwd orig)
    (calls : List DirCall) :
    (dirSystem p).StatesMeet
      (fun host => ViewsAgree p cwd orig host ∧ HolderSpec p cwd orig host) host calls := by
  have hviews : (dirSystem p).StatesMeet (ViewsAgree p cwd orig) host calls := by
    refine (StepSystem.stepsMeet_true host calls).statesMeet (fun s call s' h _ hstep => ?_)
      hstart.viewsAgree
    obtain rfl := Option.some.inj hstep
    cases call with
    | setDir newDir => exact h.setDir hcwd newDir
    | reset => exact h.reset hcwd hstart.pwd_isSome
  exact hviews.mono fun host h => ⟨h, holderSpec cwd orig host⟩

/-- Sessions in two directories, one after the other and one at the same time. -/
theorem statesMeet_viewsAgree_unix :
    ((dirSystem unixPlatform).run unixHost [.setDir (ascii "/a"), .setDir (ascii "/b")]).map
        Host.currentDir = some (some (ascii "/a")) ∧
    ((dirSystem unixPlatform).run unixHost
        [.setDir (ascii "/a"), .setDir (ascii "/b"), .reset]).map Host.currentDir = some none ∧
    ((dirSystem unixPlatform).run unixHost
        [.setDir (ascii "/a"), .setDir (ascii "/b"), .reset, .setDir (ascii "/b")]).map
        Host.currentDir = some (some (ascii "/b")) ∧
    (dirSystem unixPlatform).StatesMeet
      (fun host => ViewsAgree unixPlatform Prod.fst (fun _ => some (ascii "/")) host ∧
        HolderSpec unixPlatform Prod.fst (fun _ => some (ascii "/")) host)
      unixHost [.setDir (ascii "/a"), .setDir (ascii "/b"), .reset, .setDir (ascii "/b")] :=
  ⟨by decide +kernel, by decide +kernel, by decide +kernel,
    statesMeet_viewsAgree ⟨fun _ _ => rfl, fun _ _ _ => rfl, fun _ _ => rfl⟩
      ⟨rfl, fun _ => rfl, rfl, rfl, rfl, rfl⟩ _⟩

end Views

end GroovyServ.Server
