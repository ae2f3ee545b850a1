import GroovyServ.GroovyMain2

/-!
# Files that are edited in place

With `-i` and an extension a file is moved to its backup before its lines are written
back. However a script ends, and whichever operation of the file system fails, every
original is then in its place or in its backup, as long as no backup is one of the
files. Where nothing fails, the files are what would be shown without `-i`.
-/

namespace GroovyServ.GroovyMain2

open Server Statements Desk

variable {σ : Type} (env : FileEnv) (main : GroovyMain2) (s : LineScript σ)

def huntedNames (input : Bytes) : List Bytes :=
  env.path (trim input) :: standardExtensions.map fun ext => env.path (trim input ++ ext)

def SameExistence (files files' : Files) (input : Bytes) : Prop :=
  ∀ name ∈ huntedNames env input, fileExists env files name = fileExists env files' name

theorem huntLoop_mem (files : Files) (scriptFileName scriptFile : Bytes) (exts : List Bytes) :
    huntLoop env files scriptFileName scriptFile exts ∈
      scriptFile :: exts.map fun ext => env.path (scriptFileName ++ ext) := by
  induction exts generalizing scriptFile with
  | nil => exact List.mem_cons_self
  | cons ext exts ih =>
    rw [huntLoop]
    split_ifs
    · exact List.mem_cons_self
    · exact List.mem_cons_of_mem _ (ih _)

theorem huntForTheScriptFile_mem (files : Files) (input : Bytes) :
    huntForTheScriptFile env files input ∈ huntedNames env input := by
  rw [huntForTheScriptFile]
  split_ifs
  · exact huntLoop_mem env files _ _ _
  · exact List.mem_cons_self

theorem huntLoop_congr {files files' : Files} {scriptFileName scriptFile : Bytes}
    {exts : List Bytes}
    (h : ∀ name ∈ scriptFile :: exts.map fun ext => env.path (scriptFileName ++ ext),
      fileExists env files name = fileExists env files' name) :
    huntLoop env files scriptFileName scriptFile exts =
      huntLoop env files' scriptFileName scriptFile exts := by
  induction exts generalizing scriptFile with
  | nil => rfl
  | cons ext exts ih =>
    rw [huntLoop, huntLoop, h _ List.mem_cons_self,
      ih fun name hname => h name (List.mem_cons_of_mem _ hname)]

/-- Hunting looks at nothing but the existence of these files. -/
theorem huntForTheScriptFile_congr {files files' : Files} {input : Bytes}
    (h : SameExistence env files files' input) :
    huntForTheScriptFile env files input = huntForTheScriptFile env files' input := by
  have hloop : huntLoop env files (trim input) (env.path (trim input)) standardExtensions =
      huntLoop env files' (trim input) (env.path (trim input)) standardExtensions :=
    huntLoop_congr env h
  have hexists := h _ (huntLoop_mem env files (trim input) (env.path (trim input))
    standardExtensions)
  rw [huntForTheScriptFile, huntForTheScriptFile, ← hloop, hexists]

def reading (text : Text) (script : Scripting σ) : Except JException Unit × Scripting σ :=
  (processReader env main s text).runOn { script with written := [] }

def backedUp (files : Files) (file backup : Bytes) : Files :=
  movedFile (env.deleted files (env.resolve backup)) (env.resolve file) (env.resolve backup)

/-- What is left in the backup for the script to read, when the file is already emptied. -/
def backedUpText (files : Files) (file backup : Bytes) : Text :=
  env.decode ((Function.update (backedUp env files file backup) (env.resolve file) (some [])
    (env.resolve backup)).getD [])

def editedDesk (file backup : Bytes) (d : Desk σ) : Except JException Unit × Desk σ :=
  let r := reading env main s (backedUpText env d.files file backup) d.script
  (r.1, { d with
    files := Function.update (Function.update (backedUp env d.files file backup)
      (env.resolve file) (some [])) (env.resolve file) (some (env.charset.encode r.2.written))
    script := r.2 })

/-- Whether `renameTo` succeeds, when the old backup is deleted. -/
def Renames (file backup : Bytes) (files : Files) : Prop :=
  (fileExists env (env.deleted files (env.resolve backup)) file &&
    env.renames (env.deleted files (env.resolve backup)) (env.resolve file)
      (env.resolve backup)) = true

/-- Whether the reader and the writer are made, when the original has been moved. -/
structure Opens (file backup : Bytes) (files : Files) : Prop where
  reader : env.opens (backedUp env files file backup) (env.resolve backup) = .ok ()
  writer : env.creates (backedUp env files file backup) (env.resolve file) = .ok ()

inductive EditEnds (file backup : Bytes) (d : Desk σ) : Except JException Unit × Desk σ → Prop
  | unmoved (e : JException) (h : ¬ Renames env file backup d.files) :
      EditEnds file backup d
        (.error e, { d with files := env.deleted d.files (env.resolve backup) })
  | moved (e : JException) (h : ¬ Opens env file backup d.files) :
      EditEnds file backup d (.error e, { d with files := backedUp env d.files file backup })
  | edited (hrenames : Renames env file backup d.files) (hopens : Opens env file backup d.files) :
      EditEnds file backup d (editedDesk env main s file backup d)

theorem runOn_renameTo (file backup : Bytes) (d : Desk σ) :
    (renameTo env file backup).runOn d =
      if fileExists env d.files file &&
          env.renames d.files (env.resolve file) (env.resolve backup) then
        (.ok true, { d with files := movedFile d.files (env.resolve file) (env.resolve backup) })
      else (.ok false, d) := by
  rw [renameTo, runOn_bind, runOn_get]
  dsimp only
  split_ifs <;> rfl

theorem runOn_openReader (file : Bytes) (d : Desk σ) :
    (openReader env file).runOn d = (env.opens d.files (env.resolve file), d) := by
  rw [openReader, runOn_bind, runOn_get]
  exact runOn_ofExcept _ d

theorem runOn_openWriter (file : Bytes) (d : Desk σ) :
    (openWriter env file).runOn d =
      match env.creates d.files (env.resolve file) with
      | .error e => (.error e, d)
      | .ok _ => (.ok (), { d.setFile (env.resolve file) (some []) with
          script := { d.script with written := [] } }) := by
  rw [openWriter, runOn_bind, runOn_get]
  dsimp only
  rw [runOn_bind, runOn_ofExcept]
  cases env.creates d.files (env.resolve file) <;> rfl

theorem editInto_ends (file backup : Bytes) (d : Desk σ) :
    EditEnds env main s file backup d ((editInto env main s file backup).runOn d) := by
  rw [editInto, runOn_bind, runOn_modify]
  dsimp only
  rw [runOn_bind, runOn_renameTo]
  dsimp only
  by_cases hmove : Renames env file backup d.files
  swap
  · rw [Renames] at hmove
    rw [if_neg hmove]
    exact .unmoved _ hmove
  rw [Renames] at hmove
  rw [if_pos hmove]
  dsimp only
  rw [if_neg (show ¬ (!true) = true by decide), runOn_bind, runOn_openReader]
  dsimp only
  rw [← backedUp]
  cases hreader : env.opens (backedUp env d.files file backup) (env.resolve backup) with
  | error e =>
    refine .moved e fun h => ?_
    rw [h.reader] at hreader
    cases hreader
  | ok u =>
    dsimp only
    rw [runOn_bind, runOn_openWriter]
    dsimp only
    cases hwriter : env.creates (backedUp env d.files file backup) (env.resolve file) with
    | error e =>
      refine .moved e fun h => ?_
      rw [h.writer] at hwriter
      cases hwriter
    | ok u =>
      dsimp only
      rw [runOn_bind, readFile, runOn_bind, runOn_get]
      dsimp only
      rw [runOn_pure]
      dsimp only
      rw [runOn_tryFinally]
      exact .edited hmove ⟨hreader, hwriter⟩

theorem deleted_of_ne {files : Files} {file k : Bytes} (hk : k ≠ file) :
    env.deleted files file k = files k := by
  rw [FileEnv.deleted]
  split_ifs
  · exact Function.update_of_ne hk _ _
  · rfl

theorem backedUp_backup {files : Files} {file backup : Bytes}
    (hne : env.resolve backup ≠ env.resolve file) :
    backedUp env files file backup (env.resolve backup) = files (env.resolve file) := by
  rw [backedUp, movedFile, Function.update_self, deleted_of_ne env hne.symm]

theorem backedUp_of_ne {files : Files} {file backup k : Bytes} (hfile : k ≠ env.resolve file)
    (hbackup : k ≠ env.resolve backup) : backedUp env files file backup k = files k := by
  rw [backedUp, movedFile, Function.update_of_ne hbackup, Function.update_of_ne hfile,
    deleted_of_ne env hbackup]

theorem backedUpText_eq {files : Files} {file backup : Bytes}
    (hne : env.resolve backup ≠ env.resolve file) :
    backedUpText env files file backup = env.decode ((files (env.resolve file)).getD []) := by
  rw [backedUpText, Function.update_of_ne hne, backedUp_backup env hne]

theorem editedDesk_file (file backup : Bytes) (d : Desk σ) :
    (editedDesk env main s file backup d).2.files (env.resolve file) = some (env.charset.encode
      (reading env main s (backedUpText env d.files file backup) d.script).2.written) :=
  Function.update_self _ _ _

theorem editedDesk_backup {file backup : Bytes} (d : Desk σ)
    (hne : env.resolve backup ≠ env.resolve file) :
    (editedDesk env main s file backup d).2.files (env.resolve backup) =
      d.files (env.resolve file) := by
  change Function.update (Function.update _ _ _) _ _ _ = _
  rw [Function.update_of_ne hne, Function.update_of_ne hne, backedUp_backup env hne]

theorem editedDesk_of_ne {file backup k : Bytes} (d : Desk σ) (hfile : k ≠ env.resolve file)
    (hbackup : k ≠ env.resolve backup) :
    (editedDesk env main s file backup d).2.files k = d.files k := by
  change Function.update (Function.update _ _ _) _ _ _ = _
  rw [Function.update_of_ne hfile, Function.update_of_ne hfile,
    backedUp_of_ne env hfile hbackup]

/-- The original is in its place or in the backup, and no other file is changed. -/
structure Keeps (file backup : Bytes) (files files' : Files) : Prop where
  kept : files' file = files file ∨ files' backup = files file
  frame : ∀ k, k ≠ file → k ≠ backup → files' k = files k

theorem Keeps.refl (file backup : Bytes) (files : Files) : Keeps file backup files files :=
  ⟨.inl rfl, fun _ _ _ => rfl⟩

theorem EditEnds.keeps {file backup : Bytes} {d : Desk σ} {r : Except JException Unit × Desk σ}
    (h : EditEnds env main s file backup d r) (hne : env.resolve backup ≠ env.resolve file) :
    Keeps (env.resolve file) (env.resolve backup) d.files r.2.files := by
  cases h with
  | unmoved e h => exact ⟨.inl (deleted_of_ne env hne.symm), fun k _ hk => deleted_of_ne env hk⟩
  | moved e h =>
    exact ⟨.inr (backedUp_backup env hne), fun k hfile hk => backedUp_of_ne env hfile hk⟩
  | edited hrenames hopens =>
    exact ⟨.inr (editedDesk_backup env main s d hne), fun k hfile hbackup =>
      editedDesk_of_ne env main s d hfile hbackup⟩

theorem EditEnds.of_ok {file backup : Bytes} {d : Desk σ} {r : Except JException Unit × Desk σ}
    (h : EditEnds env main s file backup d r) (hok : r.1 = .ok ()) :
    r = editedDesk env main s file backup d := by
  cases h with
  | unmoved e h => cases hok
  | moved e h => cases hok
  | edited hrenames hopens => rfl

theorem runOn_editInto {file backup : Bytes} {d : Desk σ}
    (hrenames : Renames env file backup d.files)
    (hopens : Opens env file backup d.files) :
    (editInto env main s file backup).runOn d = editedDesk env main s file backup d := by
  have hends := editInto_ends env main s file backup d
  generalize (editInto env main s file backup).runOn d = r at hends
  cases hends with
  | unmoved e h => exact absurd hrenames h
  | moved e h => exact absurd hopens h
  | edited hrenames hopens => rfl

section OneFile

variable {main} {d : Desk σ} {file : Bytes}

theorem runOn_processFile_missing (hfile : fileExists env d.files file = false) :
    (processFile env main s file).runOn d = (.error (.io (getName env.isWindows file)), d) := by
  rw [processFile, runOn_bind, runOn_get]
  dsimp only
  rw [hfile]
  rfl

theorem runOn_processFile_edit {ext : Bytes} (hedit : main.editFiles = true)
    (hext : main.backupExtension = some ext) (hfile : fileExists env d.files file = true) :
    (processFile env main s file).runOn d =
      (editInto env main s file (env.path (file ++ ext))).runOn d := by
  rw [processFile, runOn_bind, runOn_get]
  dsimp only
  rw [hfile, if_neg (show ¬ (!true) = true by decide), if_pos hedit, editFile, runOn_bind,
    backupFile, hext]
  rfl

theorem processFile_keeps {ext : Bytes} (hedit : main.editFiles = true)
    (hext : main.backupExtension = some ext)
    (hne : env.resolve (env.path (file ++ ext)) ≠ env.resolve file) :
    Keeps (env.resolve file) (env.resolve (env.path (file ++ ext))) d.files
      ((processFile env main s file).runOn d).2.files := by
  cases hfile : fileExists env d.files file with
  | false =>
    rw [runOn_processFile_missing env s hfile]
    exact Keeps.refl _ _ _
  | true =>
    rw [runOn_processFile_edit env s hedit hext hfile]
    exact (editInto_ends env main s file _ d).keeps env main s hne

theorem processFile_ok (file : Bytes) {ext : Bytes} (hedit : main.editFiles = true)
    (hext : main.backupExtension = some ext)
    (hok : ((processFile env main s file).runOn d).1 = .ok ()) :
    fileExists env d.files file = true ∧
      fileExists env ((processFile env main s file).runOn d).2.files file = true := by
  cases hfile : fileExists env d.files file with
  | false =>
    rw [runOn_processFile_missing env s hfile] at hok
    cases hok
  | true =>
    rw [runOn_processFile_edit env s hedit hext hfile] at hok ⊢
    rw [(editInto_ends env main s file _ d).of_ok env main s hok, fileExists, editedDesk_file]
    exact ⟨rfl, rfl⟩

end OneFile

section AllFiles

variable (ext : Bytes)

def fileOf (files : Files) (filename : Bytes) : Bytes :=
  env.resolve (huntForTheScriptFile env files filename)

def backupOf (files : Files) (filename : Bytes) : Bytes :=
  env.resolve (env.path (huntForTheScriptFile env files filename ++ ext))

/-- Every argument is a file of its own with a backup of its own, and none of the backups is
a file that is hunted for. -/
structure Separate (files : Files) (filenames : List Bytes) : Prop where
  distinct : (filenames.map (fileOf env files)).Nodup
  backups : (filenames.map (backupOf env ext files)).Nodup
  apart : ∀ n ∈ filenames, ∀ m ∈ filenames, ∀ name ∈ huntedNames env m,
    backupOf env ext files n ≠ env.resolve name

variable {ext} {files files' : Files} {n : Bytes} {filenames : List Bytes}

theorem Separate.apart_file (h : Separate env ext files filenames) {n m : Bytes}
    (hn : n ∈ filenames) (hm : m ∈ filenames) : backupOf env ext files n ≠ fileOf env files m :=
  h.apart n hn m hm _ (huntForTheScriptFile_mem env files m)

theorem Separate.untouched (h : Separate env ext files (n :: filenames)) {m : Bytes}
    (hm : m ∈ filenames) :
    fileOf env files m ≠ fileOf env files n ∧ fileOf env files m ≠ backupOf env ext files n ∧
      backupOf env ext files m ≠ fileOf env files n ∧
        backupOf env ext files m ≠ backupOf env ext files n := by
  have hdistinct := h.distinct
  have hbackups := h.backups
  rw [List.map_cons, List.nodup_cons] at hdistinct hbackups
  refine ⟨fun heq => hdistinct.1 (heq ▸ List.mem_map_of_mem hm),
    (h.apart_file env List.mem_cons_self (List.mem_cons_of_mem _ hm)).symm,
    h.apart_file env (List.mem_cons_of_mem _ hm) List.mem_cons_self,
    fun heq => hbackups.1 (heq ▸ List.mem_map_of_mem hm)⟩

theorem Separate.of_cons (h : Separate env ext files (n :: filenames)) :
    Separate env ext files filenames where
  distinct := (List.nodup_cons.mp h.distinct).2
  backups := (List.nodup_cons.mp h.backups).2
  apart n hn m hm := h.apart n (List.mem_cons_of_mem _ hn) m (List.mem_cons_of_mem _ hm)

theorem SameExistence.files_eq (ext : Bytes) {m : Bytes} (h : SameExistence env files' files m) :
    fileOf env files' m = fileOf env files m ∧
      backupOf env ext files' m = backupOf env ext files m := by
  rw [fileOf, backupOf, huntForTheScriptFile_congr env h]
  exact ⟨rfl, rfl⟩

theorem Separate.congr (h : Separate env ext files filenames)
    (hsame : ∀ m ∈ filenames, SameExistence env files' files m) :
    Separate env ext files' filenames := by
  have heq := fun m hm => (hsame m hm).files_eq env ext
  constructor
  · rw [List.map_congr_left fun m hm => (heq m hm).1]
    exact h.distinct
  · rw [List.map_congr_left fun m hm => (heq m hm).2]
    exact h.backups
  · intro n hn m hm name hname
    rw [(heq n hn).2]
    exact h.apart n hn m hm name hname

theorem Separate.sameExistence (hsep : Separate env ext files (n :: filenames))
    {before after : Files} (hkeeps : Keeps (fileOf env files n) (backupOf env ext files n)
      before after)
    (hbefore : (before (fileOf env files n)).isSome = true)
    (hafter : (after (fileOf env files n)).isSome = true) :
    ∀ m ∈ filenames, SameExistence env after before m := by
  intro m hm name hname
  rw [fileExists, fileExists]
  by_cases heq : env.resolve name = fileOf env files n
  · rw [heq, hbefore, hafter]
  · rw [hkeeps.frame _ heq
      (hsep.apart n List.mem_cons_self m (List.mem_cons_of_mem _ hm) name hname).symm]

theorem SameExistence.trans {files₁ files₂ : Files} {m : Bytes}
    (h : SameExistence env files files₁ m) (h' : SameExistence env files₁ files₂ m) :
    SameExistence env files files₂ m := fun name hname => (h name hname).trans (h' name hname)

/-- What a run over these arguments keeps. -/
structure KeepsAll (ext : Bytes) (files files' : Files) (filenames : List Bytes) : Prop where
  kept : ∀ n ∈ filenames, files' (fileOf env files n) = files (fileOf env files n) ∨
    files' (backupOf env ext files n) = files (fileOf env files n)
  frame : ∀ k, (∀ n ∈ filenames, k ≠ fileOf env files n ∧ k ≠ backupOf env ext files n) →
    files' k = files k

theorem Keeps.all (hsep : Separate env ext files (n :: filenames))
    (hkeeps : Keeps (fileOf env files n) (backupOf env ext files n) files files') :
    KeepsAll env ext files files' (n :: filenames) := by
  constructor
  · intro m hm
    rcases List.mem_cons.mp hm with rfl | hm
    · exact hkeeps.kept
    · obtain ⟨hfile, hbackup, -⟩ := hsep.untouched env hm
      exact .inl (hkeeps.frame _ hfile hbackup)
  · intro k hk
    obtain ⟨hfile, hbackup⟩ := hk n List.mem_cons_self
    exact hkeeps.frame k hfile hbackup

theorem KeepsAll.cons {files₁ : Files} (hsep : Separate env ext files (n :: filenames))
    (hkeeps : Keeps (fileOf env files n) (backupOf env ext files n) files files₁)
    (hsame : ∀ m ∈ filenames, SameExistence env files₁ files m)
    (h : KeepsAll env ext files₁ files' filenames) :
    KeepsAll env ext files files' (n :: filenames) := by
  have heq := fun m hm => (hsame m hm).files_eq env ext
  have hframe : ∀ k, (∀ m ∈ filenames, k ≠ fileOf env files m ∧ k ≠ backupOf env ext files m) →
      files' k = files₁ k := by
    intro k hk
    refine h.frame k fun m hm => ?_
    rw [(heq m hm).1, (heq m hm).2]
    exact hk m hm
  constructor
  · intro m hm
    rcases List.mem_cons.mp hm with rfl | hm
    · have hfile := hframe (fileOf env files m) fun m' hm' =>
        ⟨(hsep.untouched env hm').1.symm, (hsep.untouched env hm').2.2.1.symm⟩
      have hbackup := hframe (backupOf env ext files m) fun m' hm' =>
        ⟨(hsep.untouched env hm').2.1.symm, (hsep.untouched env hm').2.2.2.symm⟩
      rw [hfile, hbackup]
      exact hkeeps.kept
    · obtain ⟨hfile, hbackup, -⟩ := hsep.untouched env hm
      have hkept := h.kept m hm
      rw [(heq m hm).1, (heq m hm).2, hkeeps.frame _ hfile hbackup] at hkept
      exact hkept
  · intro k hk
    rw [hframe k fun m hm => hk m (List.mem_cons_of_mem _ hm)]
    obtain ⟨hfile, hbackup⟩ := hk n List.mem_cons_self
    exact hkeeps.frame k hfile hbackup

theorem processArguments_keepsAll (hedit : main.editFiles = true)
    (hext : main.backupExtension = some ext) (d : Desk σ)
    (hsep : Separate env ext d.files filenames) :
    KeepsAll env ext d.files ((processArguments env main s filenames).runOn d).2.files
      filenames := by
  induction filenames generalizing d with
  | nil => exact ⟨List.forall_mem_nil _, fun _ _ => rfl⟩
  | cons n filenames ih =>
    have hkeeps := processFile_keeps (d := d) env s hedit hext
      (hsep.apart_file env List.mem_cons_self List.mem_cons_self)
    have hok := processFile_ok (d := d) env s (huntForTheScriptFile env d.files n) hedit hext
    rw [processArguments, runOn_bind, runOn_get]
    dsimp only
    rw [runOn_bind]
    rcases hr : (processFile env main s (huntForTheScriptFile env d.files n)).runOn d with
      ⟨result, d₁⟩
    rw [hr] at hkeeps hok
    cases result with
    | error e => exact hkeeps.all env hsep
    | ok u =>
      obtain ⟨hfile, hfile'⟩ := hok rfl
      have hsame := hsep.sameExistence env hkeeps hfile hfile'
      exact (ih d₁ ((hsep.of_cons env).congr env hsame)).cons env hsep hkeeps hsame

theorem processArguments_written (hedit : main.editFiles = true)
    (hext : main.backupExtension = some ext) (d : Desk σ)
    (hsep : Separate env ext d.files filenames)
    (hok : ((processArguments env main s filenames).runOn d).1 = .ok ()) :
    ∀ n ∈ filenames, ∃ script : Scripting σ,
      ((processArguments env main s filenames).runOn d).2.files (fileOf env d.files n) =
        some (env.charset.encode (reading env main s
          (env.decode ((d.files (fileOf env d.files n)).getD [])) script).2.written) := by
  induction filenames generalizing d with
  | nil => exact List.forall_mem_nil _
  | cons n filenames ih =>
    have hne := hsep.apart_file env (n := n) (m := n) List.mem_cons_self List.mem_cons_self
    have hkeeps := processFile_keeps (d := d) env s hedit hext hne
    have hfirst := processFile_ok (d := d) env s (huntForTheScriptFile env d.files n) hedit hext
    rw [processArguments, runOn_bind, runOn_get] at hok ⊢
    dsimp only at hok ⊢
    rw [runOn_bind] at hok ⊢
    rcases hr : (processFile env main s (huntForTheScriptFile env d.files n)).runOn d with
      ⟨result, d₁⟩
    rw [hr] at hkeeps hfirst hok
    cases result with
    | error e => cases hok
    | ok u =>
      obtain ⟨hfile, hfile'⟩ := hfirst rfl
      have hsame := hsep.sameExistence env hkeeps hfile hfile'
      have hsep₁ := (hsep.of_cons env).congr env hsame
      have hframe := (processArguments_keepsAll env main s hedit hext d₁ hsep₁).frame
      dsimp only at hok ⊢
      intro m hm
      rcases List.mem_cons.mp hm with rfl | hm
      · rw [runOn_processFile_edit env s hedit hext hfile] at hr
        have hends := (editInto_ends env main s _ _ d).of_ok env main s (congrArg Prod.fst hr)
        have hd₁ := congrArg Prod.snd (hr.symm.trans hends)
        dsimp only at hd₁
        rw [hframe _ fun m' hm' => ?_, hd₁, fileOf, editedDesk_file,
          backedUpText_eq env hne]
        · exact ⟨d.script, rfl⟩
        · obtain ⟨hm₁, -, hm₃, -⟩ := hsep.untouched env hm'
          rw [((hsame m' hm').files_eq env ext).1, ((hsame m' hm').files_eq env ext).2]
          exact ⟨hm₁.symm, hm₃.symm⟩
      · obtain ⟨script, hscript⟩ := ih d₁ hsep₁ hok m hm
        obtain ⟨hm₁, hm₂, -⟩ := hsep.untouched env hm
        rw [((hsame m hm).files_eq env ext).1, hkeeps.frame _ hm₁ hm₂] at hscript
        exact ⟨script, hscript⟩

end AllFiles

section Command

variable {d : Desk σ}

theorem processInput_files : ((processInput env main s).runOn d).2.files = d.files := by
  rw [processInput, runOn_bind, newWriter, runOn_modify]
  dsimp only
  rw [runOn_bind, runOn_get]
  dsimp only
  rw [runOn_tryFinally]
  rfl

theorem processInputs_keepsAll {main : GroovyMain2} {ext : Bytes} (hedit : main.editFiles = true)
    (hext : main.backupExtension = some ext) (hsep : Separate env ext d.files main.args)
    (shell : Shell σ) :
    KeepsAll env ext d.files ((processInputs env main shell).runOn d).2.files main.args := by
  have hsame : KeepsAll env ext d.files d.files main.args := ⟨fun _ _ => .inl rfl, fun _ _ => rfl⟩
  rw [processInputs, runOn_bind, runOn_get]
  dsimp only
  rw [runOn_bind, runOn_ofExcept]
  cases parseScript env main shell d.files with
  | error e => exact hsame
  | ok s =>
    dsimp only
    split_ifs
    · rw [processInput_files]
      exact hsame
    · exact processArguments_keepsAll env main s hedit hext d hsep

theorem ofCommandLine_fields {line : CommandLine} {main : GroovyMain2}
    (h : ofCommandLine line = .ok main) :
    main.processFiles = (line.hasOption (ascii "p") || line.hasOption (ascii "n")) ∧
      main.processSockets = line.hasOption (ascii "l") ∧
      main.editFiles = line.hasOption (ascii "i") ∧
      (line.hasOption (ascii "i") = true →
        main.backupExtension = line.getOptionValue (ascii "i")) := by
  rw [ofCommandLine, bind_eq_ok] at h
  obtain ⟨⟨script, args⟩, -, h⟩ := h
  obtain ⟨port, -, h⟩ := bind_eq_ok.mp h
  cases h
  exact ⟨rfl, rfl, rfl, fun hi => if_pos hi⟩

theorem run_files {main : GroovyMain2} (hsockets : main.processSockets = false)
    (hfiles : main.processFiles = true) (shell : Shell σ)
    (processSockets processOnce : GroovyMain2 → DeskAction σ Unit) :
    ((run env main shell processSockets processOnce).runOn d).2.files =
      ((processInputs env main shell).runOn d).2.files := by
  rw [run, runOn_tryCatch, hsockets, if_neg Bool.false_ne_true, hfiles, if_pos rfl, runOn_bind]
  rcases (processInputs env main shell).runOn d with ⟨result, d'⟩
  cases result with
  | ok u => rfl
  | error e => cases e <;> rfl

/-- Whichever way the script and the operations of the file system end, a command that edits
in place with an extension keeps the originals of separate files and changes no other. -/
theorem originals_kept (env : CommandEnv σ) {args : List Bytes} {line : CommandLine}
    {main : GroovyMain2} {ext : Bytes} (hparse : env.parse args = .ok line)
    (hedit : line.hasOption (ascii "i") = true)
    (hext : line.getOptionValue (ascii "i") = some ext)
    (hlines : (line.hasOption (ascii "p") || line.hasOption (ascii "n")) = true)
    (hsockets : line.hasOption (ascii "l") = false) (hmain : ofCommandLine line = .ok main)
    (hsep : Separate env.files ext d.files main.args) (classpath : Bytes) :
    KeepsAll env.files ext d.files ((processArgs env args classpath).runOn d).2.files
      main.args := by
  have hsame : KeepsAll env.files ext d.files d.files main.args :=
    ⟨fun _ _ => .inl rfl, fun _ _ => rfl⟩
  obtain ⟨hmainFiles, hmainSockets, hmainEdit, hmainExt⟩ := ofCommandLine_fields hmain
  rw [processArgs, hparse]
  dsimp only
  split_ifs
  · exact hsame
  · exact hsame
  · rw [hmain]
    dsimp only
    rw [runOn_bind]
    have hrun := run_files env.files (d := d) (hmainSockets.trans hsockets)
      (hmainFiles.trans hlines) (env.shell classpath) (env.processSockets classpath)
      (env.processOnce classpath)
    have hkeeps := processInputs_keepsAll env.files (hmainEdit.trans hedit)
      ((hmainExt hedit).trans hext) hsep (env.shell classpath)
    rw [← hrun] at hkeeps
    rcases hr : (run env.files main (env.shell classpath) (env.processSockets classpath)
      (env.processOnce classpath)).runOn d with ⟨result, d'⟩
    rw [hr] at hkeeps
    cases result <;> exact hkeeps

end Command

def asciiFiles : FileEnv where
  charset := utf8
  decode := asciiText
  isWindows := false
  sent _ := []
  sent_prefix _ := List.nil_prefix
  path := id
  resolve := id
  createTempFile _ := .error (.io [])
  createTempFile_new h := by cases h
  deletes files file := (files file).isSome
  renames _ _ _ := true
  opens files file := if (files file).isSome then .ok () else .error (.io file)
  creates _ _ := .ok ()
  split _ line := .ok [line]

def sampleDesk : Desk Unit where
  files := Function.update (Function.update (fun _ => none) (ascii "a") (some (ascii "x\ny\n")))
    (ascii "b") (some (ascii "z"))
  script := { own := () }

/-- The script `line`, which fails on a line that is empty or begins as `failsOn`. -/
def lineScript (failsOn : Option UInt16) : LineScript Unit where
  begin p own := ⟨.error .missingMethod, [], p, own⟩
  run p own := ⟨if failsOn.isSome ∧ p.line.bind List.head? = failsOn then
    .error (.exception .runtime) else .ok p.line, [], p, own⟩
  finish p own := ⟨.error .missingMethod, [], p, own⟩

def sampleLine : CommandLine where
  hasOption name := [ascii "p", ascii "i", ascii "e"].contains name
  getOptionValue name := if name = ascii "i" then some (ascii ".bak") else
    if name = ascii "e" then some (ascii "line") else none
  args := [ascii "a", ascii "b"]

def sampleCommand (s : LineScript Unit) : CommandEnv Unit where
  files := asciiFiles
  parse _ := .ok sampleLine
  help := []
  version := []
  shell _ := ⟨fun _ _ => .ok s, fun _ => .ok s, fun _ => .ok s⟩
  processSockets _ _ := pure ()
  processOnce _ _ := pure ()

def sampleMain : GroovyMain2 where
  args := [ascii "a", ascii "b"]
  isScriptFile := false
  script := ascii "line"
  processFiles := true
  editFiles := true
  autoOutput := true
  autoSplit := false
  processSockets := false
  backupExtension := some (ascii ".bak")

theorem sampleDesk_separate :
    Separate asciiFiles (ascii ".bak") sampleDesk.files [ascii "a", ascii "b"] where
  distinct := by decide +kernel
  backups := by decide +kernel
  apart := by decide +kernel

theorem originals_kept_failing :
    KeepsAll asciiFiles (ascii ".bak") sampleDesk.files
      ((processArgs (sampleCommand (lineScript (some 121))) [] []).runOn sampleDesk).2.files
      [ascii "a", ascii "b"] :=
  originals_kept (sampleCommand (lineScript (some 121)))
    (show (sampleCommand (lineScript (some 121))).parse [] = .ok sampleLine from rfl)
    (by decide +kernel) (by decide +kernel) (by decide +kernel) (by decide +kernel) rfl
    sampleDesk_separate []

end GroovyServ.GroovyMain2
