import GroovyServ.DirectoryViews
import GroovyServ.LinkedHashSet
import GroovyServ.RequestWorker

/-!
# The handler that runs a script

`removeClasspathFromArgs` and `run` of `GroovyInvokeHandler`, statement by statement:
the first changes the request, and the second the state of the process, and what an
exception leaves behind is kept. The script with its threads is a parameter that is
given the arguments and the classpath.
-/

namespace GroovyServ.Server

def classpathOptions : List Bytes := [ascii "--classpath", ascii "-cp", ascii "-classpath"]

def pathSeparator (isWindows : Bool) : UInt8 := if isWindows then 59 else 58

/-- `String.split`: a text without a separator is its own only part, and of the others the
empty parts at the end are left out. -/
def split (sep : UInt8) (text : Bytes) : List Bytes :=
  if sep ∈ text then (text.splitOn sep).rdropWhile (· = []) else [text]

/-- The entries of the classpath: a set from the options, a list from the header. -/
inductive Paths where
  | set (paths : LinkedHashSet Bytes)
  | list (paths : List Bytes)

namespace Paths

def entries : Paths → List Bytes
  | set paths => paths.elems
  | list paths => paths

def leftShift : Paths → Bytes → Paths
  | set paths, entry => set (paths.add entry)
  | list paths, entry => list (paths ++ [entry])

end Paths

def classpathLoop (isWindows : Bool) (args : List Bytes) :
    List Bytes → LinkedHashSet Bytes → List Bytes →
      Except JException (LinkedHashSet Bytes × List Bytes)
  | [], paths, filteredArgs => .ok (paths, filteredArgs)
  | opt :: it, paths, filteredArgs =>
    if classpathOptions.contains opt then
      match it with
      | [] => .error (.invalidRequestHeader (ascii "Invalid classpath option: " ++ showList args))
      | value :: it =>
        classpathLoop isWindows args it (paths.addAll (split (pathSeparator isWindows) value))
          filteredArgs
    else classpathLoop isWindows args it paths (filteredArgs ++ [opt])

def removeClasspathFromArgs (isWindows : Bool) : Statements JException InvocationRequest Bytes := do
  let request ← get
  let (paths, filteredArgs) ←
    ofExcept (classpathLoop isWindows request.args request.args .empty [])
  let paths :=
    if paths.elems.isEmpty && truth request.classpath then
      Paths.list (split (pathSeparator isWindows) (request.classpath.getD []))
    else .set paths
  let paths := paths.leftShift (ascii ".")
  modify fun request => { request with args := filteredArgs }
  pure ([pathSeparator isWindows].intercalate paths.entries)

variable {π : Type}

abbrev Script (π : Type) := List Bytes → Bytes → HostAction π Unit

/-- The process, the request and the local variable of `run`. -/
structure InvokeState (π : Type) where
  host : Host π
  request : InvocationRequest
  shouldResetCurrentDir : Bool := false

namespace InvokeState

def onHost {α : Type} (x : HostAction π α) : Statements JException (InvokeState π) α :=
  x.within host fun host s => { s with host := host }

def onRequest {α : Type} (x : Statements JException InvocationRequest α) :
    Statements JException (InvokeState π) α :=
  x.within request fun request s => { s with request := request }

end InvokeState

open InvokeState

def takeDir (p : Platform π) : Statements JException (InvokeState π) Unit := do
  let s ← get
  if truth s.request.cwd then do
    modify fun s => { s with shouldResetCurrentDir := true }
    onHost (CurrentDirHolder.setDir p (s.request.cwd.getD []))
  else pure ()

def invokeTry (p : Platform π) (script : Script π) :
    Statements JException (InvokeState π) Unit := do
  takeDir p
  let s ← get
  onHost (modify (p.setupEnvVars s.request.envVars))
  let classpath ← onRequest (removeClasspathFromArgs p.isWindows)
  let s ← get
  onHost (script s.request.args classpath)

def runGroovyInvokeHandler (p : Platform π) (script : Script π) (request : InvocationRequest)
    (host : Host π) : HandlerEnd × Host π :=
  let (body, s) := (invokeTry p script).runOn { host := host, request := request }
  (invokeHandlerEnd body,
    if resetsDir s.shouldResetCurrentDir body then ((CurrentDirHolder.reset p).runOn s.host).2
    else s.host)

/-- The request is changed only when the classpath is returned. -/
theorem runOn_removeClasspathFromArgs (isWindows : Bool) (request : InvocationRequest) :
    (removeClasspathFromArgs isWindows).runOn request =
      match classpathLoop isWindows request.args request.args .empty [] with
      | .error e => (.error e, request)
      | .ok (paths, filteredArgs) =>
        (.ok ([pathSeparator isWindows].intercalate
            ((if paths.elems.isEmpty && truth request.classpath then
                Paths.list (split (pathSeparator isWindows) (request.classpath.getD []))
              else .set paths).leftShift (ascii ".")).entries),
          { request with args := filteredArgs }) := by
  rw [removeClasspathFromArgs, Statements.runOn_bind, Statements.runOn_get]
  dsimp only
  rw [Statements.runOn_bind, Statements.runOn_ofExcept]
  cases classpathLoop isWindows request.args request.args .empty [] with
  | error e => rfl
  | ok r => rfl

section Loop

variable (isWindows : Bool) (args it : List Bytes) (paths : LinkedHashSet Bytes)
  (filteredArgs : List Bytes)

theorem classpathLoop_kept {opt : Bytes} (hopt : opt ∉ classpathOptions) :
    classpathLoop isWindows args (opt :: it) paths filteredArgs =
      classpathLoop isWindows args it paths (filteredArgs ++ [opt]) := by
  rw [classpathLoop.eq_def]
  exact if_neg fun h => hopt (List.contains_iff_mem.mp h)

theorem classpathLoop_option {opt : Bytes} (hopt : opt ∈ classpathOptions) (value : Bytes) :
    classpathLoop isWindows args (opt :: value :: it) paths filteredArgs =
      classpathLoop isWindows args it (paths.addAll (split (pathSeparator isWindows) value))
        filteredArgs := by
  rw [classpathLoop.eq_def]
  exact if_pos (List.contains_iff_mem.mpr hopt)

end Loop

theorem classpathLoop_error {isWindows : Bool} {args it : List Bytes}
    {paths : LinkedHashSet Bytes} {filteredArgs : List Bytes} {e : JException}
    (h : classpathLoop isWindows args it paths filteredArgs = .error e) :
    e = .invalidRequestHeader (ascii "Invalid classpath option: " ++ showList args) := by
  fun_induction classpathLoop isWindows args it paths filteredArgs with
  | case1 paths filteredArgs => cases h
  | case2 paths filteredArgs opt hopt => exact (Except.error.inj h).symm
  | case3 paths filteredArgs opt hopt value it ih => exact ih h
  | case4 paths filteredArgs opt it hopt ih => exact ih h

theorem removeClasspathFromArgs_error {isWindows : Bool} {request request' : InvocationRequest}
    {e : JException}
    (h : (removeClasspathFromArgs isWindows).runOn request = (.error e, request')) :
    e = .invalidRequestHeader (ascii "Invalid classpath option: " ++ showList request.args) ∧
      request' = request := by
  rw [runOn_removeClasspathFromArgs] at h
  cases hloop : classpathLoop isWindows request.args request.args .empty [] with
  | error e' =>
    rw [hloop] at h
    obtain ⟨he, rfl⟩ := Prod.mk.inj h
    exact ⟨Except.error.inj he ▸ classpathLoop_error hloop, rfl⟩
  | ok r =>
    rw [hloop] at h
    cases h

variable (p : Platform π) (script : Script π)

theorem runOn_takeDir (request : InvocationRequest) (host : Host π) :
    (takeDir p).runOn { host := host, request := request } =
      match (if truth request.cwd then p.setDir (request.cwd.getD []) host else .ok host) with
      | .error e => (.error e, ⟨host, request, truth request.cwd⟩)
      | .ok host' => (.ok (), ⟨host', request, truth request.cwd⟩) := by
  rw [takeDir, Statements.runOn_bind, Statements.runOn_get]
  dsimp only
  by_cases hcwd : truth request.cwd = true
  · rw [if_pos hcwd, if_pos hcwd, hcwd, Statements.runOn_bind, Statements.runOn_modify]
    dsimp only
    rw [onHost, Statements.runOn_within, setDir_runOn]
    cases p.setDir (request.cwd.getD []) host <;> rfl
  · rw [if_neg hcwd, if_neg hcwd, Bool.eq_false_iff.mpr hcwd]
    rfl

theorem runOn_invokeTry (request : InvocationRequest) (host : Host π) :
    (invokeTry p script).runOn { host := host, request := request } =
      match p.prepare request host with
      | .error e => (.error e, ⟨host, request, truth request.cwd⟩)
      | .ok prepared =>
        match (removeClasspathFromArgs p.isWindows).runOn request with
        | (.error e, request') => (.error e, ⟨prepared, request', truth request.cwd⟩)
        | (.ok classpath, request') =>
          (((script request'.args classpath).runOn prepared).1,
            ⟨((script request'.args classpath).runOn prepared).2, request',
              truth request.cwd⟩) := by
  rw [invokeTry, Statements.runOn_bind, runOn_takeDir, Platform.prepare]
  cases (if truth request.cwd then p.setDir (request.cwd.getD []) host else .ok host) with
  | error e => rfl
  | ok host' =>
    dsimp only [Except.map]
    rw [Statements.runOn_bind, Statements.runOn_get]
    dsimp only
    rw [Statements.runOn_bind, onHost, Statements.runOn_within, Statements.runOn_modify]
    dsimp only
    rw [Statements.runOn_bind, onRequest, Statements.runOn_within]
    rcases (removeClasspathFromArgs p.isWindows).runOn request with ⟨result, request'⟩
    cases result <;> rfl

end GroovyServ.Server
