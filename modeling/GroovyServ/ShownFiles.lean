import GroovyServ.EditedFiles

/-!
# What is shown and what is written back

The same script on the same files shows without `-i` what it writes into the files with
`-i`: it is given the same lines in the same order, and it ends in the same way.
-/

namespace GroovyServ.GroovyMain2

open Server Statements Desk

variable {σ : Type} (env : FileEnv) (main : GroovyMain2) (s : LineScript σ)

structure Reliable : Prop where
  renames : ∀ files file target, env.renames files file target = true
  opens : ∀ files file, (files file).isSome = true → env.opens files file = .ok ()
  creates : ∀ files file, env.creates files file = .ok ()

def showsLines : GroovyMain2 := { main with editFiles := false }

def editsLines (ext : Bytes) : GroovyMain2 :=
  { main with editFiles := true, backupExtension := some ext }

/-- Two commands that give their scripts the same lines. -/
structure SameLines (main main' : GroovyMain2) : Prop where
  autoOutput : main'.autoOutput = main.autoOutput
  autoSplit : main'.autoSplit = main.autoSplit
  splitPattern : main'.splitPattern = main.splitPattern

theorem SameLines.reading {main main' : GroovyMain2} (h : SameLines main main') (text : Text)
    (script : Scripting σ) : reading env main' s text script = reading env main s text script := by
  have hline : ∀ line, processLine env main' s line = processLine env main s line := by
    intro line
    rw [processLine, processLine, runAndPrint, runAndPrint, h.autoOutput, h.autoSplit,
      h.splitPattern]
  have hlines : ∀ lines, processLines env main' s lines = processLines env main s lines := by
    intro lines
    induction lines with
    | nil => rfl
    | cons line lines ih => rw [processLines, processLines, hline, ih]
  rw [GroovyMain2.reading, GroovyMain2.reading, processReader, processReader, hlines]

def shownBytes (r : Except JException Unit × Scripting σ) : Bytes :=
  if r.1 = .ok () then env.charset.encode r.2.written else env.sent r.2.written

theorem shownBytes_prefix (r : Except JException Unit × Scripting σ) :
    shownBytes env r <+: env.charset.encode r.2.written := by
  rw [shownBytes]
  split_ifs
  · exact List.prefix_rfl
  · exact env.sent_prefix _

def shownDesk (file : Bytes) (d : Desk σ) : Except JException Unit × Desk σ :=
  let r := reading env main s (env.decode ((d.files (env.resolve file)).getD [])) d.script
  (r.1, { d with shown := d.shown ++ shownBytes env r, script := r.2 })

section OneFile

variable {env} {d : Desk σ} {file : Bytes}

theorem runOn_processFile_shows (hrel : Reliable env) (hfile : fileExists env d.files file = true) :
    (processFile env (showsLines main) s file).runOn d = shownDesk env main s file d := by
  have hsame : SameLines main main.showsLines := ⟨rfl, rfl, rfl⟩
  rw [processFile, runOn_bind, runOn_get]
  dsimp only
  rw [hfile, if_neg (show ¬ (!true) = true by decide),
    if_neg (show ¬ (showsLines main).editFiles = true from Bool.false_ne_true), showFile,
    runOn_bind, runOn_openReader, hrel.opens _ _ hfile]
  dsimp only
  rw [runOn_bind, newWriter, runOn_modify]
  dsimp only
  rw [runOn_bind, readFile, runOn_bind, runOn_get]
  dsimp only
  rw [runOn_pure]
  dsimp only
  rw [runOn_bind, runOn_tryCatch, onScript, runOn_within, shownDesk, ← hsame.reading, reading]
  dsimp only
  rcases (processReader env (showsLines main) s
    (env.decode ((d.files (env.resolve file)).getD []))).runOn { d.script with written := [] } with
    ⟨result, script⟩
  cases result with
  | ok u => rfl
  | error e => rfl

theorem runOn_processFile_edits (hrel : Reliable env) {ext : Bytes}
    (hfile : fileExists env d.files file = true)
    (hne : env.resolve (env.path (file ++ ext)) ≠ env.resolve file) :
    (processFile env (editsLines main ext) s file).runOn d =
      editedDesk env main s file (env.path (file ++ ext)) d := by
  have hsame : SameLines main (editsLines main ext) := ⟨rfl, rfl, rfl⟩
  have hexists : fileExists env (env.deleted d.files (env.resolve (env.path (file ++ ext))))
      file = true := by
    rw [fileExists, deleted_of_ne env hne.symm]
    exact hfile
  have hopens : Opens env file (env.path (file ++ ext)) d.files := by
    refine ⟨hrel.opens _ _ ?_, hrel.creates _ _⟩
    rw [backedUp_backup env hne]
    exact hfile
  have hrenames : Renames env file (env.path (file ++ ext)) d.files := by
    rw [Renames, hexists, hrel.renames]
    rfl
  rw [runOn_processFile_edit env s rfl rfl hfile, runOn_editInto env _ s hrenames hopens,
    editedDesk, editedDesk, hsame.reading]

variable (env) in
structure SameReading (file backup : Bytes) (d e : Desk σ) (result : Except JException Unit)
    (script : Scripting σ) (bytes : Bytes) (files : Files) : Prop where
  shown : shownDesk env main s file d =
    (result, { d with shown := d.shown ++ bytes, script := script })
  edited : editedDesk env main s file backup e =
    (result, { e with files := files, script := script })
  bytes_prefix : bytes <+: env.charset.encode script.written
  bytes_ok : result = .ok () → bytes = env.charset.encode script.written
  text : files (env.resolve file) = some (env.charset.encode script.written)
  original : files (env.resolve backup) = d.files (env.resolve file)
  keeps : Keeps (env.resolve file) (env.resolve backup) e.files files

theorem exists_sameReading {backup : Bytes} {e : Desk σ}
    (hne : env.resolve backup ≠ env.resolve file) (hscript : e.script = d.script)
    (hcontent : e.files (env.resolve file) = d.files (env.resolve file)) :
    ∃ result script bytes files,
      SameReading env main s file backup d e result script bytes files := by
  have htext : backedUpText env e.files file backup =
      env.decode ((d.files (env.resolve file)).getD []) := by
    rw [backedUpText_eq env hne, hcontent]
  have hbackup := editedDesk_backup env main s e hne
  refine ⟨(shownDesk env main s file d).1, (shownDesk env main s file d).2.script,
    shownBytes env (reading env main s (env.decode ((d.files (env.resolve file)).getD []))
      d.script), (editedDesk env main s file backup e).2.files, rfl, ?_,
    shownBytes_prefix env _, fun hok => if_pos hok, ?_, hbackup.trans hcontent,
    .inr hbackup, fun k hfile hk => editedDesk_of_ne env main s e hfile hk⟩
  · rw [editedDesk, shownDesk, htext, hscript]
  · rw [editedDesk_file, shownDesk, htext, hscript]

end OneFile

section AllFiles

variable {ext : Bytes}

def texts (files files' : Files) (filenames : List Bytes) : Bytes :=
  filenames.flatMap fun n => (files' (fileOf env files n)).getD []

/-- How a run that shows from `d` and a run that edits from `e` end. -/
structure Agree (ext : Bytes) (filenames : List Bytes) (d e : Desk σ)
    (shown edited : Except JException Unit × Desk σ) : Prop where
  ends : edited.1 = shown.1
  script : edited.2.script = shown.2.script
  unchanged : shown.2.files = d.files
  silent : edited.2.shown = e.shown
  shows : shown.2.shown <+: d.shown ++ texts env d.files edited.2.files filenames
  whole : shown.1 = .ok () →
    shown.2.shown = d.shown ++ texts env d.files edited.2.files filenames
  originals : shown.1 = .ok () → ∀ n ∈ filenames,
    edited.2.files (backupOf env ext d.files n) = d.files (fileOf env d.files n)

variable {env}

theorem Agree.cons {n : Bytes} {filenames : List Bytes} {d e : Desk σ} {script : Scripting σ}
    {bytes : Bytes} {files : Files} {shown edited : Except JException Unit × Desk σ}
    (hread : SameReading env main s (huntForTheScriptFile env d.files n)
      (env.path (huntForTheScriptFile env d.files n ++ ext)) d e (.ok ()) script bytes files)
    (hfile : edited.2.files (fileOf env d.files n) = files (fileOf env d.files n))
    (hbackup : edited.2.files (backupOf env ext d.files n) = files (backupOf env ext d.files n))
    (h : Agree env ext filenames { d with shown := d.shown ++ bytes, script := script }
      { e with files := files, script := script } shown edited) :
    Agree env ext (n :: filenames) d e shown edited := by
  have htexts : texts env d.files edited.2.files (n :: filenames) =
      bytes ++ texts env d.files edited.2.files filenames := by
    rw [texts, List.flatMap_cons, hfile, fileOf, hread.text, hread.bytes_ok rfl]
    rfl
  refine ⟨h.ends, h.script, h.unchanged, h.silent, ?_, fun hok => ?_, fun hok m hm => ?_⟩
  · rw [htexts, ← List.append_assoc]
    exact h.shows
  · rw [htexts, ← List.append_assoc]
    exact h.whole hok
  · rcases List.mem_cons.mp hm with rfl | hm
    · exact hbackup.trans hread.original
    · exact h.originals hok m hm

theorem agree_of_separate (hrel : Reliable env) {filenames : List Bytes} (d e : Desk σ)
    (hsep : Separate env ext d.files filenames) (hscript : e.script = d.script)
    (hsame : ∀ m ∈ filenames, SameExistence env e.files d.files m)
    (hcontent : ∀ m ∈ filenames,
      e.files (fileOf env d.files m) = d.files (fileOf env d.files m)) :
    Agree env ext filenames d e ((processArguments env main.showsLines s filenames).runOn d)
      ((processArguments env (main.editsLines ext) s filenames).runOn e) := by
  induction filenames generalizing d e with
  | nil =>
    exact ⟨rfl, hscript, rfl, rfl, List.prefix_append _ _, fun _ => (List.append_nil _).symm,
      fun _ => List.forall_mem_nil _⟩
  | cons n filenames ih =>
    have hne := hsep.apart_file env (n := n) (m := n) List.mem_cons_self List.mem_cons_self
    have hn := hcontent n List.mem_cons_self
    rw [processArguments, processArguments, runOn_bind, runOn_bind, runOn_get, runOn_get]
    dsimp only
    rw [runOn_bind, runOn_bind,
      huntForTheScriptFile_congr env (hsame n List.mem_cons_self)]
    cases hfile : fileExists env d.files (huntForTheScriptFile env d.files n) with
    | false =>
      have hfile' : fileExists env e.files (huntForTheScriptFile env d.files n) = false := by
        rw [← hfile, fileExists, fileExists]
        exact congrArg Option.isSome hn
      rw [runOn_processFile_missing env s hfile, runOn_processFile_missing env s hfile']
      exact ⟨rfl, hscript, rfl, rfl, List.prefix_append _ _, by simp, by simp⟩
    | true =>
      have hfile' : fileExists env e.files (huntForTheScriptFile env d.files n) = true := by
        rw [← hfile, fileExists, fileExists]
        exact congrArg Option.isSome hn
      obtain ⟨result, script, bytes, files, hread⟩ :=
        exists_sameReading main s (d := d) hne hscript hn
      rw [runOn_processFile_shows main s hrel hfile,
        runOn_processFile_edits main s hrel hfile' hne, hread.shown, hread.edited]
      cases result with
      | error err =>
        refine ⟨rfl, rfl, rfl, rfl, ?_, by simp, by simp⟩
        rw [texts, List.flatMap_cons]
        refine (List.prefix_append_right_inj _).mpr ?_
        change bytes <+: (files (fileOf env d.files n)).getD [] ++ _
        rw [fileOf, hread.text]
        exact hread.bytes_prefix.trans (List.prefix_append _ _)
      | ok u =>
        have hexists : ∀ m ∈ filenames, SameExistence env files d.files m := fun m hm =>
          (hsep.sameExistence env hread.keeps hfile' (congrArg Option.isSome hread.text) m
            hm).trans env (hsame m (List.mem_cons_of_mem _ hm))
        have hcontents : ∀ m ∈ filenames,
            files (fileOf env d.files m) = d.files (fileOf env d.files m) := by
          intro m hm
          obtain ⟨hm₁, hm₂, -⟩ := hsep.untouched env hm
          exact (hread.keeps.frame _ hm₁ hm₂).trans (hcontent m (List.mem_cons_of_mem _ hm))
        have hrest := ih { d with shown := d.shown ++ bytes, script := script }
          { e with files := files, script := script } (hsep.of_cons env) rfl hexists hcontents
        have hkeepsAll := processArguments_keepsAll env (editsLines main ext) s rfl rfl
          { e with files := files, script := script } ((hsep.of_cons env).congr env hexists)
        refine Agree.cons main s hread (hkeepsAll.frame _ fun m hm => ?_)
          (hkeepsAll.frame _ fun m hm => ?_) hrest
        · obtain ⟨hm₁, hm₂, hm₃, hm₄⟩ := hsep.untouched env hm
          rw [((hexists m hm).files_eq env ext).1, ((hexists m hm).files_eq env ext).2]
          exact ⟨hm₁.symm, hm₃.symm⟩
        · obtain ⟨hm₁, hm₂, hm₃, hm₄⟩ := hsep.untouched env hm
          rw [((hexists m hm).files_eq env ext).1, ((hexists m hm).files_eq env ext).2]
          exact ⟨hm₂.symm, hm₄.symm⟩

/-- The files of a command that edits in place are what the same command shows without
`-i`: whole when the script ends in order, and else as far as it was shown. -/
theorem edits_what_is_shown (hrel : Reliable env) (d : Desk σ) (hargs : main.args ≠ [])
    (hsep : Separate env ext d.files main.args) (shell : Shell σ) :
    Agree env ext main.args d d ((processInputs env main.showsLines shell).runOn d)
      ((processInputs env (main.editsLines ext) shell).runOn d) := by
  have hempty : ¬ main.args.isEmpty = true := fun h => hargs (List.isEmpty_iff.mp h)
  have hparse : parseScript env (main.editsLines ext) shell d.files =
      parseScript env main.showsLines shell d.files := rfl
  rw [processInputs, processInputs, runOn_bind, runOn_bind, runOn_get]
  dsimp only
  rw [runOn_bind, runOn_bind, runOn_ofExcept, runOn_ofExcept, hparse]
  cases parseScript env main.showsLines shell d.files with
  | error e =>
    exact ⟨rfl, rfl, rfl, rfl, List.prefix_append _ _, by simp, by simp⟩
  | ok s =>
    dsimp only
    rw [if_neg (show ¬ main.showsLines.args.isEmpty = true from hempty),
      if_neg (show ¬ (main.editsLines ext).args.isEmpty = true from hempty)]
    exact agree_of_separate main s hrel d d hsep rfl (fun _ _ _ _ => rfl) fun _ _ => rfl

theorem asciiFiles_reliable : Reliable asciiFiles where
  renames _ _ _ := rfl
  opens _ _ h := if_pos h
  creates _ _ := rfl

theorem edits_what_is_shown_failing :
    Agree asciiFiles (ascii ".bak") [ascii "a", ascii "b"] sampleDesk sampleDesk
      ((processInputs asciiFiles sampleMain.showsLines
        ((sampleCommand (lineScript (some 121))).shell [])).runOn sampleDesk)
      ((processInputs asciiFiles (sampleMain.editsLines (ascii ".bak"))
        ((sampleCommand (lineScript (some 121))).shell [])).runOn sampleDesk) :=
  edits_what_is_shown sampleMain asciiFiles_reliable sampleDesk (List.cons_ne_nil _ _)
    sampleDesk_separate _

end AllFiles

end GroovyServ.GroovyMain2
