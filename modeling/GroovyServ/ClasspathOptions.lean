import GroovyServ.GroovyInvokeHandler

/-!
# The classpath options among the arguments of a request

The arguments are read from left to right as options that take the word behind them
and as words of their own, which are kept. The entries that the options name, or else
those of the `Cp` header, become the classpath, with the current directory behind
them unless it is among the options' entries already. The words of a script are read
in the same way as those in front of it.
-/

namespace GroovyServ.Server

inductive ScannedArg where
  | kept (arg : Bytes)
  | classpath (option value : Bytes)

namespace ScannedArg

def words : ScannedArg → List Bytes
  | kept arg => [arg]
  | classpath option value => [option, value]

def keptWords : ScannedArg → List Bytes
  | kept arg => [arg]
  | classpath _ _ => []

def entries (isWindows : Bool) : ScannedArg → List Bytes
  | kept _ => []
  | classpath _ value => split (pathSeparator isWindows) value

def Valid : ScannedArg → Prop
  | kept arg => arg ∉ classpathOptions
  | classpath option _ => option ∈ classpathOptions

end ScannedArg

/-- The arguments read from left to right, with the option behind them that has no value. -/
structure Scan (args : List Bytes) (scanned : List ScannedArg) (dangling : Option Bytes) :
    Prop where
  args_eq : args = scanned.flatMap ScannedArg.words ++ dangling.toList
  valid : ∀ arg ∈ scanned, arg.Valid
  dangling_mem : ∀ option ∈ dangling, option ∈ classpathOptions

def keptArgs (scanned : List ScannedArg) : List Bytes := scanned.flatMap ScannedArg.keptWords

def optionEntries (isWindows : Bool) (scanned : List ScannedArg) : List Bytes :=
  scanned.flatMap (ScannedArg.entries isWindows)

section Scan

variable {args it : List Bytes} {scanned : List ScannedArg} {dangling : Option Bytes}

theorem Scan.cons {a : ScannedArg} (h : Scan args scanned dangling) (ha : a.Valid) :
    Scan (a.words ++ args) (a :: scanned) dangling where
  args_eq := by rw [h.args_eq, List.flatMap_cons, List.append_assoc]
  valid := List.forall_mem_cons.mpr ⟨ha, h.valid⟩
  dangling_mem := h.dangling_mem

theorem exists_scan (args : List Bytes) : ∃ scanned dangling, Scan args scanned dangling := by
  induction args using List.twoStepInduction with
  | nil => exact ⟨[], none, rfl, nofun, nofun⟩
  | singleton opt =>
    by_cases hopt : opt ∈ classpathOptions
    · exact ⟨[], some opt, rfl, nofun, fun _ h => Option.some.inj h ▸ hopt⟩
    · exact ⟨[.kept opt], none, rfl, by simpa [ScannedArg.Valid] using hopt, nofun⟩
  | cons_cons opt value args ih ih' =>
    by_cases hopt : opt ∈ classpathOptions
    · obtain ⟨scanned, dangling, h⟩ := ih
      exact ⟨_, _, h.cons (a := .classpath opt value) hopt⟩
    · obtain ⟨scanned, dangling, h⟩ := ih' value
      exact ⟨_, _, h.cons (a := .kept opt) hopt⟩

theorem classpathLoop_scan (isWindows : Bool) (h : Scan it scanned dangling)
    (paths : LinkedHashSet Bytes) (filteredArgs : List Bytes) :
    classpathLoop isWindows args it paths filteredArgs =
      if dangling = none then
        .ok (paths.addAll (optionEntries isWindows scanned), filteredArgs ++ keptArgs scanned)
      else .error (.invalidRequestHeader (ascii "Invalid classpath option: " ++
        showList args)) := by
  obtain ⟨rfl, hvalid, hdangling⟩ := h
  induction scanned generalizing paths filteredArgs with
  | nil =>
    cases dangling with
    | none => simp [classpathLoop, keptArgs, optionEntries, LinkedHashSet.addAll]
    | some opt => simp [classpathLoop, hdangling opt rfl]
  | cons a scanned ih =>
    obtain ⟨ha, hrest⟩ := List.forall_mem_cons.mp hvalid
    cases a with
    | kept arg =>
      have hloop := classpathLoop_kept isWindows args
        (scanned.flatMap ScannedArg.words ++ dangling.toList) paths filteredArgs ha
      refine hloop.trans ((ih _ _ hrest).trans ?_)
      simp [keptArgs, optionEntries, ScannedArg.keptWords, ScannedArg.entries]
    | classpath option value =>
      have hloop := classpathLoop_option isWindows args
        (scanned.flatMap ScannedArg.words ++ dangling.toList) paths filteredArgs ha value
      refine hloop.trans ((ih _ _ hrest).trans ?_)
      simp [keptArgs, optionEntries, ScannedArg.keptWords, ScannedArg.entries,
        LinkedHashSet.addAll_append]

end Scan

/-- The entries of a classpath, as a class loader tells them apart. -/
def classpathEntries (isWindows : Bool) (classpath : Bytes) : List Bytes :=
  classpath.splitOn (pathSeparator isWindows)

def namedPaths (isWindows : Bool) (scanned : List ScannedArg) (classpath : Option Bytes) : Paths :=
  if (optionEntries isWindows scanned).isEmpty && truth classpath then
    .list (split (pathSeparator isWindows) (classpath.getD []))
  else .set (LinkedHashSet.empty.addAll (optionEntries isWindows scanned))

theorem isEmpty_eraseDups (l : List Bytes) : l.eraseDups.isEmpty = l.isEmpty := by
  cases l with
  | nil => rfl
  | cons a l => rw [List.eraseDups_cons]; rfl

section Returned

variable {isWindows : Bool} {request : InvocationRequest} {scanned : List ScannedArg}

theorem runOn_of_dangling {option : Bytes} (h : Scan request.args scanned (some option)) :
    (removeClasspathFromArgs isWindows).runOn request =
      (.error (.invalidRequestHeader (ascii "Invalid classpath option: " ++
        showList request.args)), request) := by
  rw [runOn_removeClasspathFromArgs, classpathLoop_scan isWindows h]
  rfl

theorem runOn_of_scan (h : Scan request.args scanned none) :
    (removeClasspathFromArgs isWindows).runOn request =
      (.ok ([pathSeparator isWindows].intercalate
          ((namedPaths isWindows scanned request.classpath).leftShift (ascii ".")).entries),
        { request with args := keptArgs scanned }) := by
  rw [runOn_removeClasspathFromArgs, classpathLoop_scan isWindows h]
  simp only [if_true, LinkedHashSet.elems_addAll_empty, isEmpty_eraseDups, List.nil_append]
  rfl

theorem separator_notMem_split {text entry : Bytes}
    (h : entry ∈ split (pathSeparator isWindows) text) :
    pathSeparator isWindows ∉ entry := by
  unfold split at h
  split_ifs at h with hsep
  · exact Lines.notMem_of_mem_splitOn _ text entry ((List.rdropWhile_prefix _ _).subset h)
  · rw [List.mem_singleton] at h
    exact h ▸ hsep

theorem separator_notMem_named {entry : Bytes}
    (h : entry ∈ (namedPaths isWindows scanned request.classpath).entries) :
    pathSeparator isWindows ∉ entry := by
  unfold namedPaths at h
  split_ifs at h
  · exact separator_notMem_split h
  · rw [Paths.entries, LinkedHashSet.elems_addAll_empty, List.mem_eraseDups] at h
    obtain ⟨arg, -, hentry⟩ := List.mem_flatMap.mp h
    cases arg with
    | kept arg => cases hentry
    | classpath option value => exact separator_notMem_split hentry

theorem entries_leftShift (paths : Paths) (entry : Bytes) :
    (paths.leftShift entry).entries = paths.entries ++ [entry] ∨
      (entry ∈ paths.entries ∧ (paths.leftShift entry).entries = paths.entries) := by
  cases paths with
  | list paths => exact .inl rfl
  | set paths =>
    by_cases hentry : entry ∈ paths.elems
    · exact .inr ⟨hentry, congrArg LinkedHashSet.elems (LinkedHashSet.elems_add_of_mem hentry)⟩
    · exact .inl (LinkedHashSet.elems_add_of_notMem hentry)

theorem mem_leftShift {paths : Paths} {entry e : Bytes} :
    e ∈ (paths.leftShift entry).entries ↔ e ∈ paths.entries ∨ e = entry := by
  rcases entries_leftShift paths entry with hentries | ⟨hmem, hentries⟩
  · rw [hentries, List.mem_append, List.mem_singleton]
  · rw [hentries]
    exact ⟨.inl, fun h => h.elim id fun heq => heq ▸ hmem⟩

theorem filter_leftShift (paths : Paths) (entry : Bytes) :
    (paths.leftShift entry).entries.filter (· ≠ entry) = paths.entries.filter (· ≠ entry) := by
  rcases entries_leftShift paths entry with hentries | ⟨-, hentries⟩
  · rw [hentries, List.filter_append]
    simp
  · rw [hentries]

theorem entries_namedPaths (h : optionEntries isWindows scanned ≠ []) (classpath : Option Bytes) :
    (namedPaths isWindows scanned classpath).entries =
      (optionEntries isWindows scanned).eraseDups := by
  have hempty : (optionEntries isWindows scanned).isEmpty = false := by simpa using h
  rw [namedPaths, hempty]
  exact LinkedHashSet.elems_addAll_empty _

theorem classpathEntries_intercalate :
    classpathEntries isWindows ([pathSeparator isWindows].intercalate
        ((namedPaths isWindows scanned request.classpath).leftShift (ascii ".")).entries) =
      ((namedPaths isWindows scanned request.classpath).leftShift (ascii ".")).entries := by
  refine List.splitOn_intercalate _ (fun entry hentry => ?_) ?_
  · rcases mem_leftShift.mp hentry with hnamed | rfl
    · exact separator_notMem_named hnamed
    · cases isWindows <;> decide
  · exact List.ne_nil_of_mem (mem_leftShift.mpr (.inr rfl))

end Returned

/-- An option without a value is refused with the request as it was. Otherwise the options
with their values are taken out of the arguments, and the entries that they name are all
that the classpath has apart from the current directory, each once. -/
structure ClasspathRemoved (isWindows : Bool) (request : InvocationRequest)
    (scanned : List ScannedArg) (dangling : Option Bytes) : Prop where
  refused : dangling ≠ none → ∃ message, (removeClasspathFromArgs isWindows).runOn request =
    (.error (.invalidRequestHeader message), request)
  removed : dangling = none → ∃ classpath, (removeClasspathFromArgs isWindows).runOn request =
      (.ok classpath, { request with args := keptArgs scanned }) ∧
    (optionEntries isWindows scanned ≠ [] →
      (classpathEntries isWindows classpath).filter (· ≠ ascii ".") =
        (optionEntries isWindows scanned).eraseDups.filter (· ≠ ascii "."))

theorem Scan.classpathRemoved {isWindows : Bool} {request : InvocationRequest}
    {scanned : List ScannedArg} {dangling : Option Bytes}
    (hscan : Scan request.args scanned dangling) :
    ClasspathRemoved isWindows request scanned dangling where
  refused hdangling := by
    obtain ⟨option, rfl⟩ := Option.ne_none_iff_exists'.mp hdangling
    exact ⟨_, runOn_of_dangling hscan⟩
  removed hnone := by
    subst hnone
    refine ⟨_, runOn_of_scan hscan, fun hentries => ?_⟩
    rw [classpathEntries_intercalate, filter_leftShift, entries_namedPaths hentries]

/-- Every list of arguments can be read, and the options are removed as it is read. -/
theorem removeClasspathFromArgs_removed (isWindows : Bool) (request : InvocationRequest) :
    (∃ scanned dangling, Scan request.args scanned dangling) ∧
      ∀ scanned dangling, Scan request.args scanned dangling →
        ClasspathRemoved isWindows request scanned dangling :=
  ⟨exists_scan request.args, fun _ _ hscan => hscan.classpathRemoved⟩

/-- The current directory is the last entry, and every other entry is searched before it. -/
structure SearchedLast (entries : List Bytes) : Prop where
  last : entries.getLast? = some (ascii ".")
  before : ∀ e ∈ entries, e ≠ ascii "." → e ∈ entries.takeWhile (· ≠ ascii ".")

def namedEntries (isWindows : Bool) (scanned : List ScannedArg) (classpath : Option Bytes) :
    List Bytes :=
  if (optionEntries isWindows scanned).isEmpty && truth classpath then
    split (pathSeparator isWindows) (classpath.getD [])
  else optionEntries isWindows scanned

/-- Where the current directory is named, every other entry is named before it too. -/
def NamedLast (entries : List Bytes) : Prop :=
  ∀ e ∈ entries, e ≠ ascii "." → e ∈ entries.takeWhile (· ≠ ascii ".")

theorem takeWhile_filter {α : Type*} {p q : α → Bool} (h : ∀ x, p x = false → q x = true)
    (l : List α) : (l.filter q).takeWhile p = (l.takeWhile p).filter q := by
  induction l with
  | nil => rfl
  | cons x l ih =>
    cases hp : p x with
    | false => simp [h x hp, hp]
    | true => cases hq : q x <;> simp [hp, hq, ih]

theorem mem_takeWhile_eraseDups (entries : List Bytes) (dot e : Bytes) :
    e ∈ entries.eraseDups.takeWhile (· ≠ dot) ↔ e ∈ entries.takeWhile (· ≠ dot) := by
  induction hn : entries.length using Nat.strong_induction_on generalizing entries with
  | _ n ih =>
    cases entries with
    | nil => rfl
    | cons a entries =>
      rw [List.eraseDups_cons]
      by_cases ha : a = dot
      · simp [ha]
      · have hlt : (entries.filter fun b => !b == a).length < n := by
          rw [← hn, List.length_cons]
          exact Nat.lt_succ_of_le (List.length_filter_le _ _)
        have hkept : ∀ b, decide (b ≠ dot) = false → (!b == a) = true := by
          intro b hb
          obtain rfl : b = dot := by simpa using hb
          simpa using Ne.symm ha
        rw [List.takeWhile_cons_of_pos (by simpa using ha),
          List.takeWhile_cons_of_pos (by simpa using ha), List.mem_cons, List.mem_cons,
          ih _ hlt _ rfl, takeWhile_filter hkept, List.mem_filter]
        by_cases he : e = a <;> simp [he]

theorem namedLast_eraseDups (entries : List Bytes) :
    NamedLast entries.eraseDups ↔ NamedLast entries := by
  simp only [NamedLast, List.mem_eraseDups, mem_takeWhile_eraseDups]

theorem takeWhile_append_dot (entries : List Bytes) (dot : Bytes) :
    (entries ++ [dot]).takeWhile (· ≠ dot) = entries.takeWhile (· ≠ dot) := by
  induction entries with
  | nil => simp
  | cons a entries ih =>
    rw [List.cons_append, List.takeWhile_cons, List.takeWhile_cons, ih]

theorem searchedLast_append (entries : List Bytes) :
    SearchedLast (entries ++ [ascii "."]) ↔ NamedLast entries := by
  constructor
  · intro h e he hne
    have hbefore := h.before e (List.mem_append_left _ he) hne
    rwa [takeWhile_append_dot] at hbefore
  · intro h
    refine ⟨List.getLast?_concat, fun e he hne => ?_⟩
    rw [takeWhile_append_dot]
    exact h e ((List.mem_append.mp he).resolve_right fun hdot => hne (List.mem_singleton.mp hdot))
      hne

theorem searchedLast_of_nodup {entries : List Bytes} (hnodup : entries.Nodup)
    (hdot : ascii "." ∈ entries) : SearchedLast entries ↔ NamedLast entries := by
  refine ⟨fun h => h.before, fun h => ⟨?_, h⟩⟩
  obtain ⟨front, back, rfl, hfront⟩ := List.eq_append_cons_of_mem hdot
  have hne : ∀ e ∈ front, decide (e ≠ ascii ".") = true := by
    intro e he
    simpa using fun heq : e = ascii "." => hfront (heq ▸ he)
  obtain rfl : back = [] := by
    rw [List.eq_nil_iff_forall_not_mem]
    intro e he
    obtain ⟨-, hback, hdisjoint⟩ := List.nodup_append'.mp hnodup
    have hedot : e ≠ ascii "." := fun heq => (List.nodup_cons.mp hback).1 (heq ▸ he)
    have hbefore := h e (List.mem_append_right _ (List.mem_cons_of_mem _ he)) hedot
    rw [List.takeWhile_append_of_pos hne, List.takeWhile_cons_of_neg (by simp),
      List.append_nil] at hbefore
    exact hdisjoint hbefore (List.mem_cons_of_mem _ he)
  exact List.getLast?_concat

theorem searchedLast_namedPaths (isWindows : Bool) (scanned : List ScannedArg)
    (classpath : Option Bytes) :
    SearchedLast ((namedPaths isWindows scanned classpath).leftShift (ascii ".")).entries ↔
      NamedLast (namedEntries isWindows scanned classpath) := by
  unfold namedPaths namedEntries
  split_ifs
  · exact searchedLast_append _
  · rw [← namedLast_eraseDups, ← LinkedHashSet.elems_addAll_empty]
    generalize LinkedHashSet.empty.addAll (optionEntries isWindows scanned) = paths
    by_cases hdot : ascii "." ∈ paths.elems
    · rw [Paths.leftShift, LinkedHashSet.elems_add_of_mem hdot]
      exact searchedLast_of_nodup paths.nodup hdot
    · rw [Paths.leftShift, Paths.entries, LinkedHashSet.elems_add_of_notMem hdot]
      exact searchedLast_append paths.elems

/-- The current directory comes last exactly when no entry is named behind it only. -/
theorem searchedLast_iff {isWindows : Bool} {request request' : InvocationRequest}
    {classpath : Bytes}
    (h : (removeClasspathFromArgs isWindows).runOn request = (.ok classpath, request')) :
    (∃ scanned, Scan request.args scanned none) ∧
      ∀ scanned, Scan request.args scanned none →
        (SearchedLast (classpathEntries isWindows classpath) ↔
          NamedLast (namedEntries isWindows scanned request.classpath)) := by
  constructor
  · obtain ⟨scanned, dangling, hscan⟩ := exists_scan request.args
    cases dangling with
    | some option =>
      rw [runOn_of_dangling hscan] at h
      cases h
    | none => exact ⟨scanned, hscan⟩
  · intro scanned hscan
    rw [runOn_of_scan hscan] at h
    obtain ⟨hclasspath, -⟩ := Prod.mk.inj h
    obtain rfl := Except.ok.inj hclasspath
    rw [classpathEntries_intercalate]
    exact searchedLast_namedPaths isWindows scanned request.classpath

def argsRequest (args : List Bytes) (classpath : Option Bytes) : InvocationRequest :=
  { workRequest with args := args, classpath := classpath }

theorem searchedLast_iff_lib :
    (∃ scanned, Scan (argsRequest [ascii "-cp", ascii "lib"] none).args scanned none) ∧
      ∀ scanned, Scan (argsRequest [ascii "-cp", ascii "lib"] none).args scanned none →
        (SearchedLast (classpathEntries false (ascii "lib:.")) ↔
          NamedLast (namedEntries false scanned
            (argsRequest [ascii "-cp", ascii "lib"] none).classpath)) :=
  searchedLast_iff (show (removeClasspathFromArgs false).runOn
    (argsRequest [ascii "-cp", ascii "lib"] none) = (.ok (ascii "lib:."), argsRequest [] none)
    from rfl)

/-- An option that names the current directory in front of another one. -/
theorem not_searchedLast_front : ∃ request',
    (removeClasspathFromArgs false).runOn (argsRequest [ascii "-cp", ascii ".:lib"] none) =
      (.ok (ascii ".:lib"), request') ∧
    ¬ SearchedLast (classpathEntries false (ascii ".:lib")) :=
  ⟨argsRequest [] none, rfl, fun h => absurd h.last (by decide +kernel)⟩

/-- The arguments are kept, and none of them adds to the classpath. -/
def LeftAlone (isWindows : Bool) (request : InvocationRequest) : Prop :=
  ∃ classpath, (removeClasspathFromArgs isWindows).runOn request = (.ok classpath, request) ∧
    (removeClasspathFromArgs isWindows).runOn { request with args := [] } =
      (.ok classpath, { request with args := [] })

theorem scan_of_kept {args : List Bytes} (h : ∀ arg ∈ args, arg ∉ classpathOptions) :
    Scan args (args.map .kept) none where
  args_eq := by simp [List.flatMap_map, ScannedArg.words]
  valid arg harg := by
    obtain ⟨word, hword, rfl⟩ := List.mem_map.mp harg
    exact h word hword
  dangling_mem := nofun

theorem optionEntries_map_kept (isWindows : Bool) (args : List Bytes) :
    optionEntries isWindows (args.map .kept) = [] := by
  simp [optionEntries, List.flatMap_map, ScannedArg.entries]

theorem keptArgs_map_kept (args : List Bytes) : keptArgs (args.map .kept) = args := by
  simp [keptArgs, List.flatMap_map, ScannedArg.keptWords]

theorem notMem_classpathOptions {args : List Bytes} {scanned : List ScannedArg}
    (h : Scan args scanned none) (hkept : keptArgs scanned = args) :
    ∀ arg ∈ args, arg ∉ classpathOptions := by
  intro arg harg
  rw [← hkept] at harg
  obtain ⟨a, ha, hword⟩ := List.mem_flatMap.mp harg
  cases a with
  | kept word =>
    obtain rfl := List.mem_singleton.mp hword
    exact h.valid _ ha
  | classpath option value => cases hword

/-- The words behind a script's name are left alone exactly when none of them is a classpath
option. -/
theorem leftAlone_iff (isWindows : Bool) {request : InvocationRequest} {script : Bytes}
    {words : List Bytes} (hargs : request.args = script :: words)
    (hscript : script.head? ≠ some 45) :
    LeftAlone isWindows request ↔ ∀ word ∈ words, word ∉ classpathOptions := by
  have hdash : ∀ option ∈ classpathOptions, option.head? = some 45 := by decide
  have hname : script ∉ classpathOptions := fun hmem => hscript (hdash script hmem)
  constructor
  · rintro ⟨classpath, hrun, -⟩
    obtain ⟨scanned, dangling, hscan⟩ := exists_scan request.args
    cases dangling with
    | some option =>
      rw [runOn_of_dangling hscan] at hrun
      cases hrun
    | none =>
      rw [runOn_of_scan hscan] at hrun
      have hkept := congrArg InvocationRequest.args (Prod.mk.inj hrun).2
      have hall := notMem_classpathOptions hscan hkept
      rw [hargs] at hall
      exact (List.forall_mem_cons.mp hall).2
  · intro hwords
    have hall : ∀ arg ∈ request.args, arg ∉ classpathOptions := by
      rw [hargs]
      exact List.forall_mem_cons.mpr ⟨hname, hwords⟩
    have hempty : Scan ({ request with args := [] } : InvocationRequest).args [] none :=
      ⟨rfl, nofun, nofun⟩
    have hnamed : namedPaths isWindows (request.args.map .kept) request.classpath =
        namedPaths isWindows [] request.classpath := by
      rw [namedPaths, optionEntries_map_kept]
      rfl
    refine ⟨_, ?_, runOn_of_scan hempty⟩
    rw [runOn_of_scan (scan_of_kept hall), keptArgs_map_kept, hnamed]

theorem leftAlone_iff_plain :
    LeftAlone false (argsRequest [ascii "script.groovy", ascii "x"] none) ↔
      ∀ word ∈ [ascii "x"], word ∉ classpathOptions :=
  leftAlone_iff false rfl (by decide)

/-- A script that has an option of its own with the name of one. -/
theorem not_leftAlone_own :
    ¬ LeftAlone false (argsRequest [ascii "script.groovy", ascii "-cp", ascii "x"] none) := by
  rintro ⟨classpath, hrun, -⟩
  have hargs : ((removeClasspathFromArgs false).runOn
      (argsRequest [ascii "script.groovy", ascii "-cp", ascii "x"] none)).2.args =
        [ascii "script.groovy"] := by decide +kernel
  rw [hrun] at hargs
  change [ascii "script.groovy", ascii "-cp", ascii "x"] = _ at hargs
  exact absurd (congrArg List.length hargs) (by decide)

end GroovyServ.Server
