import GroovyServ.AuthTokenFile
import GroovyServ.OptionScan

/-!
# The command that the client runs to start the server

`invoke_server` with `groovyserver_cmdline` and `scriptdir` on UNIX. Beside the command
that they put together they give every access that they make to the four arrays on the
stack. An access outside an array finds what has been written there before, so that the
command is the one that results where such accesses do no harm.
-/

namespace GroovyServ.Client

open CLib

inductive StackArray where
  | workPath
  | basedirPath
  | authtokenOption
  | cmdline
  deriving DecidableEq

structure Access where
  array : StackArray
  index : ℕ
  size : ℕ
  deriving DecidableEq

def Access.InBounds (access : Access) : Prop := access.index < access.size

def accesses (array : StackArray) (size count : ℕ) : List Access :=
  (List.range count).map fun index => { array := array, index := index, size := size }

def stringAccesses (array : StackArray) (size : ℕ) (s : Bytes) : List Access :=
  accesses array size (s.length + 1)

def isSeparator (c : UInt8) : Bool := decide (c = 47 ∨ c = 92)

/-- The loop of `scriptdir` from index `i` down: where it stops, and what it reads. -/
def scriptdirLoop (work : Bytes) : ℕ → ℕ × List ℕ
  | 0 => (0, [])
  | i + 1 =>
    if isSeparator (work.getD (i + 1) 0) then (i + 1, [i + 1])
    else
      let (stop, reads) := scriptdirLoop work i
      (stop, (i + 1) :: reads)

def scriptdirCut (work : Bytes) (stop : ℕ) : ℕ :=
  if isSeparator (work.getD stop 0) then stop + 1 else stop

/-- `scriptdir`, whose result is stored in `basedir_path`. -/
def scriptdir (scriptPath : CString) : Bytes × List Access :=
  let size := scriptPath.val.length
  let work := scriptPath.val ++ [0]
  let (stop, reads) := scriptdirLoop work size
  let cut := scriptdirCut work stop
  let result := cString (if work.getD cut 0 ≠ 0 then work.set cut 0 else work)
  (result,
    stringAccesses .workPath size scriptPath.val ++
      ((reads ++ [stop, cut]).map fun index =>
        { array := .workPath, index := index, size := size }) ++
      stringAccesses .workPath size result ++ stringAccesses .basedirPath maxPathLen result)

def resolveBasedir (environ : List Bytes) (scriptPath : CString) : Bytes × List Access :=
  match getenv environ (ascii "GROOVYSERV_HOME") with
  | none => scriptdir scriptPath
  | some groovyservHome =>
    let basedirPath := groovyservHome ++ ascii "/bin/"
    (basedirPath, stringAccesses .basedirPath maxPathLen basedirPath)

def groovyserverCmdline (environ : List Bytes) (scriptPath : CString) (arg : Bytes) (port : ℤ) :
    Bytes × List Access :=
  let (basedirPath, before) := resolveBasedir environ scriptPath
  let cmdline :=
    ascii "'" ++ (basedirPath ++ (ascii "groovyserver' -p " ++ (decimalInt port ++
      (ascii " " ++ arg))))
  (cmdline,
    before ++ stringAccesses .basedirPath maxPathLen basedirPath ++
      stringAccesses .cmdline maxPathLen cmdline)

def invokeServer (quiet : Bool) (environ : List Bytes) (scriptPath : CString) (port : ℤ)
    (mainOpt : Bytes) (authtoken : Option CString) : Bytes × List Access :=
  let opt := mainOpt ++ if quiet then ascii " -q" else []
  let authtokenOption := authtoken.map fun authtoken => ascii " --authtoken " ++ authtoken.val
  let (cmdline, after) :=
    groovyserverCmdline environ scriptPath (opt ++ authtokenOption.getD []) port
  (cmdline,
    (authtokenOption.elim [] fun s =>
      stringAccesses .authtokenOption bufferSize s ++
        stringAccesses .authtokenOption bufferSize s) ++
      after ++ stringAccesses .cmdline maxPathLen cmdline)

def startServer (quiet : Bool) (environ : List Bytes) (scriptPath : CString) (port : ℤ)
    (authtoken : Option CString) : Bytes × List Access :=
  invokeServer quiet environ scriptPath port [] authtoken

def killServer (quiet : Bool) (environ : List Bytes) (scriptPath : CString) (port : ℤ) :
    Bytes × List Access :=
  invokeServer quiet environ scriptPath port (ascii "-k") none

def restartServer (quiet : Bool) (environ : List Bytes) (scriptPath : CString) (port : ℤ)
    (authtoken : Option CString) : Bytes × List Access :=
  invokeServer quiet environ scriptPath port (ascii "-r") authtoken

def scriptPrefix (path : Bytes) : Bytes := path.rdropWhile fun c => !isSeparator c

theorem scriptPrefix_concat (path : Bytes) (c : UInt8) :
    scriptPrefix (path ++ [c]) = if isSeparator c then path ++ [c] else scriptPrefix path := by
  rw [scriptPrefix, List.rdropWhile_concat]
  cases isSeparator c <;> rfl

theorem take_succ_getD {work : Bytes} {i : ℕ} (hi : i < work.length) :
    work.take (i + 1) = work.take i ++ [work.getD i 0] := by
  rw [List.take_add_one, List.getD_eq_getElem _ _ hi, List.getElem?_eq_getElem hi]
  rfl

theorem take_scriptdirLoop (work : Bytes) {i : ℕ} (hi : i < work.length) :
    work.take (scriptdirCut work (scriptdirLoop work i).1) = scriptPrefix (work.take (i + 1)) := by
  induction i with
  | zero =>
    rw [take_succ_getD hi, scriptPrefix_concat, scriptdirLoop, scriptdirCut]
    split_ifs
    · rw [take_succ_getD hi]
    · rfl
  | succ i ih =>
    rw [take_succ_getD hi, scriptPrefix_concat, scriptdirLoop]
    split_ifs with hsep
    · rw [scriptdirCut, if_pos hsep, take_succ_getD hi]
    · exact ih (Nat.lt_of_succ_lt hi)

theorem cString_cut {s : Bytes} (hs : (0 : UInt8) ∉ s) {cut : ℕ} (hcut : cut ≤ s.length) :
    cString (if (s ++ [0]).getD cut 0 ≠ 0 then (s ++ [0]).set cut 0 else s ++ [0]) =
      s.take cut := by
  have hlt : cut < (s ++ [0]).length := by
    rw [List.length_append, List.length_singleton]
    omega
  have htake : (s ++ [0]).take cut = s.take cut := List.take_append_of_le_length hcut
  have hnul : (0 : UInt8) ∉ s.take cut := fun h => hs (List.mem_of_mem_take h)
  split_ifs with hne
  · rw [List.set_eq_take_append_cons_drop, if_pos hlt, htake, cString_append hnul]
  · have hget : (s ++ [0])[cut] = 0 := by
      rw [← List.getD_eq_getElem _ 0 hlt]
      exact not_not.mp hne
    have hdrop : (s ++ [0]).drop cut = 0 :: (s ++ [0]).drop (cut + 1) := by
      rw [List.drop_eq_getElem_cons hlt, hget]
    rw [← List.take_append_drop cut (s ++ [0]), htake, hdrop, cString_append hnul]

theorem scriptdir_eq (scriptPath : CString) :
    (scriptdir scriptPath).1 = scriptPrefix scriptPath.val := by
  have hlt : scriptPath.val.length < (scriptPath.val ++ [0]).length := by simp
  have hwhole : (scriptPath.val ++ [0]).take (scriptPath.val.length + 1) = scriptPath.val ++ [0] :=
    List.take_of_length_le (by simp)
  have hzero : isSeparator 0 = false := by decide
  have htake := take_scriptdirLoop (scriptPath.val ++ [0]) hlt
  rw [hwhole, scriptPrefix_concat, hzero, if_neg Bool.false_ne_true] at htake
  have hdef : (scriptdir scriptPath).1 = cString
      (if (scriptPath.val ++ [0]).getD (scriptdirCut (scriptPath.val ++ [0])
          (scriptdirLoop (scriptPath.val ++ [0]) scriptPath.val.length).1) 0 ≠ 0
        then (scriptPath.val ++ [0]).set (scriptdirCut (scriptPath.val ++ [0])
          (scriptdirLoop (scriptPath.val ++ [0]) scriptPath.val.length).1) 0
        else scriptPath.val ++ [0]) := rfl
  rw [hdef]
  generalize scriptdirCut _ _ = cut at htake ⊢
  have hcut : cut ≤ scriptPath.val.length := by
    have hprefix : (scriptPrefix scriptPath.val).length ≤ scriptPath.val.length :=
      (List.rdropWhile_prefix _ _).length_le
    have hlength := congrArg List.length htake
    rw [List.length_take, List.length_append, List.length_singleton] at hlength
    omega
  rw [cString_cut scriptPath.property hcut, ← htake, List.take_append_of_le_length hcut]

theorem stringAccesses_inBounds (array : StackArray) (size : ℕ) (s : Bytes) :
    (∀ access ∈ stringAccesses array size s, access.InBounds) ↔ s.length < size := by
  simp only [stringAccesses, accesses, List.forall_mem_map, List.mem_range, Access.InBounds]
  exact ⟨fun h => h s.length (Nat.lt_succ_self _), fun h index hindex => by omega⟩

/-- The copy of the script path is one byte longer than its array. -/
theorem scriptdir_not_inBounds (scriptPath : CString) :
    ¬ ∀ access ∈ (scriptdir scriptPath).2, access.InBounds := by
  intro h
  have hcopy : ∀ access ∈ stringAccesses .workPath scriptPath.val.length scriptPath.val,
      access.InBounds := fun access hmem => h access (by
    simp only [scriptdir, List.mem_append]
    exact .inl (.inl (.inl hmem)))
  rw [stringAccesses_inBounds] at hcopy
  exact lt_irrefl _ hcopy

def serverCommand (basedirPath : Bytes) (port : ℤ) (arg : Bytes) : Bytes :=
  ascii "'" ++ (basedirPath ++ (ascii "groovyserver' -p " ++ (decimalInt port ++
    (ascii " " ++ arg))))

theorem length_serverCommand (basedirPath : Bytes) (port : ℤ) (arg : Bytes) :
    (serverCommand basedirPath port arg).length =
      basedirPath.length + (decimalInt port).length + arg.length + 19 := by
  have hquote : (ascii "'").length = 1 := rfl
  have hname : (ascii "groovyserver' -p ").length = 17 := rfl
  have hspace : (ascii " ").length = 1 := rfl
  simp only [serverCommand, List.length_append, hquote, hname, hspace]
  omega

def serverOptions (quiet : Bool) (mainOpt : Bytes) (authtoken : Option CString) : Bytes :=
  (mainOpt ++ if quiet then ascii " -q" else []) ++
    (authtoken.map fun authtoken => ascii " --authtoken " ++ authtoken.val).getD []

section InvokeServer

variable (quiet : Bool) (environ : List Bytes) (scriptPath : CString) (port : ℤ) (mainOpt : Bytes)
  (authtoken : Option CString)

theorem invokeServer_command :
    (invokeServer quiet environ scriptPath port mainOpt authtoken).1 =
      serverCommand (resolveBasedir environ scriptPath).1 port
        (serverOptions quiet mainOpt authtoken) := rfl

theorem invokeServer_inBounds :
    (∀ access ∈ (invokeServer quiet environ scriptPath port mainOpt authtoken).2,
        access.InBounds) ↔
      (∀ access ∈ (resolveBasedir environ scriptPath).2, access.InBounds) ∧
        (resolveBasedir environ scriptPath).1.length < maxPathLen ∧
        (serverCommand (resolveBasedir environ scriptPath).1 port
          (serverOptions quiet mainOpt authtoken)).length < maxPathLen ∧
        ∀ a ∈ authtoken, a.val.length + 13 < bufferSize := by
  have hprefix : (ascii " --authtoken ").length = 13 := rfl
  have hcommand := invokeServer_command quiet environ scriptPath port mainOpt authtoken
  have haccesses : (invokeServer quiet environ scriptPath port mainOpt authtoken).2 =
      ((authtoken.map fun authtoken => ascii " --authtoken " ++ authtoken.val).elim [] fun s =>
        stringAccesses .authtokenOption bufferSize s ++
          stringAccesses .authtokenOption bufferSize s) ++
      ((resolveBasedir environ scriptPath).2 ++
        stringAccesses .basedirPath maxPathLen (resolveBasedir environ scriptPath).1 ++
        stringAccesses .cmdline maxPathLen
          (invokeServer quiet environ scriptPath port mainOpt authtoken).1) ++
      stringAccesses .cmdline maxPathLen
        (invokeServer quiet environ scriptPath port mainOpt authtoken).1 := rfl
  rw [haccesses, hcommand]
  simp only [List.forall_mem_append, stringAccesses_inBounds]
  cases authtoken with
  | none => simp [and_assoc]
  | some a =>
    simp only [Option.map_some, Option.elim_some, List.forall_mem_append, stringAccesses_inBounds,
      List.length_append, hprefix, Option.mem_some_iff, forall_eq']
    constructor
    · rintro ⟨⟨⟨ha, -⟩, ⟨hbefore, hbasedir⟩, hline⟩, -⟩
      exact ⟨hbefore, hbasedir, hline, by omega⟩
    · rintro ⟨hbefore, hbasedir, hline, ha⟩
      exact ⟨⟨⟨by omega, by omega⟩, ⟨hbefore, hbasedir⟩, hline⟩, hline⟩

/-- Every access is within its array, and without `GROOVYSERV_HOME` the command is the
`groovyserver` beside the script. -/
def InvokesRightly : Prop :=
  (∀ access ∈ (invokeServer quiet environ scriptPath port mainOpt authtoken).2,
    access.InBounds) ∧
  (getenv environ (ascii "GROOVYSERV_HOME") = none →
    ascii "'" ++ (scriptPrefix scriptPath.val ++ ascii "groovyserver'") <+:
      (invokeServer quiet environ scriptPath port mainOpt authtoken).1)

/-- `GROOVYSERV_HOME` is set, and the command and the option with the token are shorter than
their arrays. -/
def CommandFits : Prop :=
  ∃ home ∈ getenv environ (ascii "GROOVYSERV_HOME"),
    home.length + (decimalInt port).length + (serverOptions quiet mainOpt authtoken).length + 24 <
      maxPathLen ∧
    ∀ a ∈ authtoken, a.val.length + 13 < bufferSize

/-- `invoke_server` keeps within its arrays exactly if it has no need of `scriptdir` and its
strings are short enough. Where it needs `scriptdir`, the command that it puts together is
the one beside the script. -/
theorem invokesRightly_iff :
    (InvokesRightly quiet environ scriptPath port mainOpt authtoken ↔
      CommandFits quiet environ port mainOpt authtoken) ∧
    (getenv environ (ascii "GROOVYSERV_HOME") = none →
      (invokeServer quiet environ scriptPath port mainOpt authtoken).1 =
        serverCommand (scriptPrefix scriptPath.val) port
          (serverOptions quiet mainOpt authtoken)) := by
  rw [InvokesRightly, CommandFits, invokeServer_inBounds, invokeServer_command]
  have hbin : (ascii "/bin/").length = 5 := rfl
  cases hhome : getenv environ (ascii "GROOVYSERV_HOME") with
  | none =>
    have hbasedir : resolveBasedir environ scriptPath = scriptdir scriptPath := by
      rw [resolveBasedir, hhome]
    rw [hbasedir]
    refine ⟨iff_of_false ?_ (by simp), fun _ => by rw [scriptdir_eq]⟩
    exact fun h => scriptdir_not_inBounds scriptPath h.1.1
  | some home =>
    have hbasedir : resolveBasedir environ scriptPath = (home ++ ascii "/bin/",
        stringAccesses .basedirPath maxPathLen (home ++ ascii "/bin/")) := by
      rw [resolveBasedir, hhome]
    rw [hbasedir, stringAccesses_inBounds, length_serverCommand, List.length_append, hbin]
    refine ⟨⟨fun h => ⟨home, rfl, by omega, h.1.2.2.2⟩, ?_⟩, fun h => by cases h⟩
    rintro ⟨_, hmem, hline, ha⟩
    cases hmem
    exact ⟨⟨by omega, by omega, by omega, ha⟩, fun h => by cases h⟩

end InvokeServer

/-- Without `GROOVYSERV_HOME` the path of an installed client overruns its copy. -/
theorem not_invokesRightly_installed :
    ¬ InvokesRightly false [] ⟨ascii "/opt/groovyserv/bin/groovyclient", by decide⟩ 1961 [] none :=
  fun h => absurd h.1 fun hall => by
    rw [invokeServer_inBounds] at hall
    exact scriptdir_not_inBounds _ hall.1

end GroovyServ.Client
