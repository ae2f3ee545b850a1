import GroovyServ.AuthTokenFile
import GroovyServ.DumpHex
import GroovyServ.Statements

/-!
# The groovy command in the server

`GroovyMain2` runs a script once, or with `-n` and `-p` on every line of its input
files. What a script's methods do to the script's properties, to its writer and to
everything of their own is a parameter, and so are the compiler, `PosixParser` and what
the file system does with an operation. Neither a script nor another program touches the
input files while they are processed.
-/

namespace GroovyServ

open Server

/-- The properties that are set for each line; a count can be set to what is no number. -/
structure Properties where
  line : Option Text := none
  count : Option ℤ := none
  split : Option (List Text) := none

/-- What a method throws; only the absence of `begin` and of `end` is told apart. -/
inductive Thrown where
  | missingMethod
  | exception (e : JException)

/-- `MissingMethodException` is a `RuntimeException`. -/
def Thrown.toException : Thrown → JException
  | missingMethod => .runtime
  | exception e => e

/-- What a call does: how it ends, what it writes, and what it leaves. -/
structure Called (σ : Type) where
  result : Except Thrown (Option Text)
  written : Text := []
  properties : Properties
  own : σ

/-- A parsed script: its methods, from the properties and from all else that is its own. -/
structure LineScript (σ : Type) where
  begin : Properties → σ → Called σ
  run : Properties → σ → Called σ
  finish : Properties → σ → Called σ

structure Scripting (σ : Type) where
  properties : Properties := {}
  own : σ
  written : Text := []

/-- The charset, the console and the file system. A path is written as a `File` has it, and
`resolve` is the file it names. -/
structure FileEnv where
  charset : Charset
  decode : Bytes → Text
  isWindows : Bool
  /-- What of a text reaches `System.out` when its writer is never flushed. -/
  sent : Text → Bytes
  sent_prefix : ∀ text, sent text <+: charset.encode text
  path : Bytes → Bytes
  resolve : Bytes → Bytes
  createTempFile : Files → Except JException Bytes
  createTempFile_new : ∀ {files name}, createTempFile files = .ok name →
    files (resolve name) = none
  deletes : Files → Bytes → Bool
  renames : Files → Bytes → Bytes → Bool
  opens : Files → Bytes → Except JException Unit
  creates : Files → Bytes → Except JException Unit
  split : Bytes → Text → Except JException (List Text)

structure Shell (σ : Type) where
  parseFile : Files → Bytes → Except JException (LineScript σ)
  parseUrl : Bytes → Except JException (LineScript σ)
  parseText : Bytes → Except JException (LineScript σ)

structure GroovyMain2 where
  args : List Bytes
  isScriptFile : Bool
  script : Bytes
  processFiles : Bool
  editFiles : Bool
  autoOutput : Bool
  autoSplit : Bool
  splitPattern : Bytes := ascii " "
  processSockets : Bool
  port : ℤ := 0
  backupExtension : Option Bytes := none

structure Desk (σ : Type) where
  files : Files
  shown : Bytes := []
  input : Bytes := []
  /-- `System.in` and `System.out` are closed. -/
  closed : Bool := false
  deletedOnExit : List Bytes := []
  /-- The exceptions that are printed to `System.err`. -/
  caught : List JException := []
  script : Scripting σ

namespace GroovyMain2

variable {σ : Type}

abbrev ScriptAction (σ : Type) := Statements JException (Scripting σ)

abbrev DeskAction (σ : Type) := Statements JException (Desk σ)

def setProperties (f : Properties → Properties) : ScriptAction σ Unit :=
  modify fun t => { t with properties := f t.properties }

def call (method : Properties → σ → Called σ) :
    ScriptAction σ (Except Thrown (Option Text)) := do
  let t ← get
  let called := method t.properties t.own
  modify fun t => ⟨called.properties, called.own, t.written ++ called.written⟩
  pure called.result

def invokeIfPresent (method : Properties → σ → Called σ) : ScriptAction σ Unit := do
  match ← call method with
  | .error (.exception e) => throw e
  | _ => pure ()

def println (isWindows : Bool) (text : Text) : ScriptAction σ Unit :=
  modify fun t => { t with written := t.written ++ (text ++ lineSeparator isWindows) }

def runAndPrint (env : FileEnv) (main : GroovyMain2) (s : LineScript σ) : ScriptAction σ Unit := do
  match ← call s.run with
  | .error e => throw e.toException
  | .ok none => pure ()
  | .ok (some text) => if main.autoOutput then println env.isWindows text else pure ()

def processLine (env : FileEnv) (main : GroovyMain2) (s : LineScript σ) (line : Text) :
    ScriptAction σ Unit := do
  setProperties fun p => { p with line := some line }
  let t ← get
  match t.properties.count with
  | none => throw .runtime
  | some count =>
    setProperties fun p => { p with count := some (count + 1) }
    if main.autoSplit then do
      let parts ← ofExcept (env.split main.splitPattern line)
      setProperties fun p => { p with split := some parts }
    runAndPrint env main s

def processLines (env : FileEnv) (main : GroovyMain2) (s : LineScript σ) :
    List Text → ScriptAction σ Unit
  | [] => pure ()
  | line :: lines => do
    processLine env main s line
    processLines env main s lines

def processReader (env : FileEnv) (main : GroovyMain2) (s : LineScript σ) (text : Text) :
    ScriptAction σ Unit := do
  setProperties fun p => { p with count := some 0 }
  invokeIfPresent s.begin
  processLines env main s (readTextLines false text)
  invokeIfPresent s.finish

def standardExtensions : List Bytes :=
  [ascii ".groovy", ascii ".gvy", ascii ".gy", ascii ".gsh"]

def fileExists (env : FileEnv) (files : Files) (file : Bytes) : Bool :=
  (files (env.resolve file)).isSome

def huntLoop (env : FileEnv) (files : Files) (scriptFileName : Bytes) :
    Bytes → List Bytes → Bytes
  | scriptFile, [] => scriptFile
  | scriptFile, ext :: exts =>
    if fileExists env files scriptFile then scriptFile
    else huntLoop env files scriptFileName (env.path (scriptFileName ++ ext)) exts

def huntForTheScriptFile (env : FileEnv) (files : Files) (input : Bytes) : Bytes :=
  let scriptFileName := trim input
  let scriptFile :=
    huntLoop env files scriptFileName (env.path scriptFileName) standardExtensions
  if fileExists env files scriptFile then scriptFile else env.path scriptFileName

def getName (isWindows : Bool) (file : Bytes) : Bytes :=
  file.rtakeWhile (· ≠ if isWindows then 92 else 47)

end GroovyMain2

namespace Desk

variable {σ : Type}

def onScript {α : Type} (x : Statements JException (Scripting σ) α) :
    Statements JException (Desk σ) α :=
  x.within script fun script d => { d with script := script }

def newWriter : Statements JException (Desk σ) Unit :=
  modify fun d => { d with script := { d.script with written := [] } }

def print (bytes : Bytes) (d : Desk σ) : Desk σ := { d with shown := d.shown ++ bytes }

def setFile (file : Bytes) (text : Option Bytes) (d : Desk σ) : Desk σ :=
  { d with files := Function.update d.files file text }

end Desk

def FileEnv.deleted (env : FileEnv) (files : Files) (file : Bytes) : Files :=
  if env.deletes files file then Function.update files file none else files

/-- The files after a move; the target can be the file itself. -/
def movedFile (files : Files) (file target : Bytes) : Files :=
  Function.update (Function.update files file none) target (files file)

namespace GroovyMain2

open Desk

variable {σ : Type} (env : FileEnv) (main : GroovyMain2) (s : LineScript σ)

/-- `renameTo`, which moves nothing where there is no file. -/
def renameTo (file backup : Bytes) : DeskAction σ Bool := do
  let d ← get
  if fileExists env d.files file &&
      env.renames d.files (env.resolve file) (env.resolve backup) then do
    modify fun d => { d with files := movedFile d.files (env.resolve file) (env.resolve backup) }
    pure true
  else pure false

def openReader (file : Bytes) : DeskAction σ Unit := do
  let d ← get
  ofExcept (env.opens d.files (env.resolve file))

def openWriter (file : Bytes) : DeskAction σ Unit := do
  let d ← get
  ofExcept (env.creates d.files (env.resolve file))
  modify (setFile (env.resolve file) (some []))
  newWriter

def readFile (file : Bytes) : DeskAction σ Text := do
  let d ← get
  pure (env.decode ((d.files (env.resolve file)).getD []))

def showFile (file : Bytes) : DeskAction σ Unit := do
  openReader env file
  newWriter
  let text ← readFile env file
  try onScript (processReader env main s text)
  catch e => do
    modify fun d => d.print (env.sent d.script.written)
    throw e
  modify fun d => d.print (env.charset.encode d.script.written)

def backupFile (file : Bytes) : DeskAction σ Bytes := do
  match main.backupExtension with
  | some ext => pure (env.path (file ++ ext))
  | none => do
    let d ← get
    let backup ← ofExcept (env.createTempFile d.files)
    modify fun d =>
      { d.setFile (env.resolve backup) (some []) with deletedOnExit := backup :: d.deletedOnExit }
    pure backup

def editInto (file backup : Bytes) : DeskAction σ Unit := do
  modify fun d => { d with files := env.deleted d.files (env.resolve backup) }
  if !(← renameTo env file backup) then
    throw (.io (ascii "unable to rename " ++ (file ++ (ascii " to " ++ backup))))
  openReader env backup
  openWriter env file
  let text ← readFile env backup
  try onScript (processReader env main s text)
  finally modify fun d => d.setFile (env.resolve file) (some (env.charset.encode d.script.written))

def editFile (file : Bytes) : DeskAction σ Unit := do
  let backup ← backupFile env main file
  editInto env main s file backup

def processFile (file : Bytes) : DeskAction σ Unit := do
  let d ← get
  if !fileExists env d.files file then throw (.io (getName env.isWindows file))
  if main.editFiles then editFile env main s file else showFile env main s file

def processArguments : List Bytes → DeskAction σ Unit
  | [] => pure ()
  | filename :: filenames => do
    let d ← get
    processFile env main s (huntForTheScriptFile env d.files filename)
    processArguments filenames

def processInput : DeskAction σ Unit := do
  newWriter
  let d ← get
  try onScript (processReader env main s (env.decode d.input))
  finally modify fun d =>
    { d.print (env.charset.encode d.script.written) with input := [], closed := true }

def isScriptUrl (urlOrFilename : Bytes) : Bool :=
  [ascii "http://", ascii "https://", ascii "file:", ascii "jar:"].any (·.isPrefixOf urlOrFilename)

def parseScript (shell : Shell σ) (files : Files) : Except JException (LineScript σ) :=
  if main.isScriptFile then
    if isScriptUrl main.script then shell.parseUrl main.script
    else shell.parseFile files (huntForTheScriptFile env files main.script)
  else shell.parseText main.script

def processInputs (shell : Shell σ) : DeskAction σ Unit := do
  let d ← get
  let s ← ofExcept (parseScript env main shell d.files)
  if main.args.isEmpty then processInput env main s else processArguments env main s main.args

/-- `run`, with what the branches for sockets and for a single script do. -/
def run (shell : Shell σ) (processSockets processOnce : GroovyMain2 → DeskAction σ Unit) :
    DeskAction σ Bool :=
  try do
    if main.processSockets then processSockets main
    else if main.processFiles then processInputs env main shell
    else processOnce main
    pure true
  catch e =>
    match e with
    | .systemExit status => throw (.systemExit status)
    -- a `RuntimeException` with this cause
    | .interrupted => throw .runtime
    | e => do
      modify fun d => { d with caught := d.caught ++ [e] }
      pure false

end GroovyMain2

structure CommandLine where
  hasOption : Bytes → Bool
  getOptionValue : Bytes → Option Bytes
  args : List Bytes

/-- What `process` throws before the script is run. -/
inductive CommandFailure where
  | parse (message : Bytes)
  | thrown (e : JException)

namespace GroovyMain2

open Desk

variable {σ : Type}

def scriptOf (line : CommandLine) : Except CommandFailure (Bytes × List Bytes) :=
  if line.hasOption (ascii "e") then .ok ((line.getOptionValue (ascii "e")).getD [], line.args)
  else
    match line.args with
    | [] => .error (.parse (ascii "neither -e or filename provided"))
    | script :: args =>
      if (ascii ".java").isSuffixOf script then
        .error (.parse (ascii "error: cannot compile file with .java extension: " ++ script))
      else .ok (script, args)

def portOf (line : CommandLine) : Except CommandFailure ℤ :=
  if line.hasOption (ascii "l") then
    match parseInteger ((line.getOptionValue (ascii "l")).getD (ascii "1960")) with
    | some port => .ok port
    | none => .error (.thrown .runtime)
  else .ok 0

def ofCommandLine (line : CommandLine) : Except CommandFailure GroovyMain2 := do
  let (script, args) ← scriptOf line
  let port ← portOf line
  pure {
    args := args
    isScriptFile := !line.hasOption (ascii "e")
    script := script
    processFiles := line.hasOption (ascii "p") || line.hasOption (ascii "n")
    editFiles := line.hasOption (ascii "i")
    autoOutput := line.hasOption (ascii "p")
    autoSplit := line.hasOption (ascii "a")
    splitPattern := (line.getOptionValue (ascii "a")).getD (ascii " ")
    processSockets := line.hasOption (ascii "l")
    port := port
    backupExtension :=
      if line.hasOption (ascii "i") then line.getOptionValue (ascii "i") else none }

/-- What is outside of the command: the parser of its line, the texts that it shows, the
compiler, and what the other two kinds of runs do. -/
structure CommandEnv (σ : Type) where
  files : FileEnv
  parse : List Bytes → Except Bytes CommandLine
  help : Bytes
  version : Bytes
  shell : Bytes → Shell σ
  processSockets : Bytes → GroovyMain2 → DeskAction σ Unit
  processOnce : Bytes → GroovyMain2 → DeskAction σ Unit

def showError (env : CommandEnv σ) (message : Bytes) : DeskAction σ Unit :=
  modify fun d => (d.print (ascii "error: " ++ (message ++
    (lineSeparator env.files.isWindows).map UInt16.toUInt8))).print env.help

/-- `processArgs`. The result of the run is not used. -/
def processArgs (env : CommandEnv σ) (args : List Bytes) (classpath : Bytes) :
    DeskAction σ Unit :=
  match env.parse args with
  | .error message => showError env message
  | .ok line =>
    if line.hasOption (ascii "h") then modify fun d => d.print env.help
    else if line.hasOption (ascii "v") then modify fun d => d.print env.version
    else
      match ofCommandLine line with
      | .error (.parse message) => showError env message
      | .error (.thrown e) => throw e
      | .ok main => do
        let _ ← run env.files main (env.shell classpath) (env.processSockets classpath)
          (env.processOnce classpath)
        pure ()

end GroovyMain2
end GroovyServ
