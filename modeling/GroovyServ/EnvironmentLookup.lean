import GroovyServ.DirectorySharing
import GroovyServ.EnvironmentInjection

/-!
# The environment that a script looks up

`EnvironmentVariables` replaces the three accessors of the environment by ones that
look into its cache, each in its own way, and `put` fills the cache from the headers
of a request. What a script finds under a name is what the last of these entries made
of it, and an entry reaches the cache after the header parser has trimmed it.
-/

namespace GroovyServ

open Lines Server

namespace Server

/-- The environment that the process was started with. -/
abbrev Environment := Bytes → Option Bytes

variable {π : Type*}

def Host.getenv (origGetenv : Environment) (host : Host π) (envVarName : Bytes) : Option Bytes :=
  match host.cache envVarName with
  | some (some value) => some value
  | _ => origGetenv envVarName

/-- `System.getenv()[name]`: a null in the cache is copied over the value. -/
def Host.getenvAll (origGetenvAll : Environment) (host : Host π) : Environment := fun name =>
  match host.cache name with
  | some value => value
  | none => origGetenvAll name

def Host.getEnv (origGetenvAll : Environment) (host : Host π) : Environment := fun name =>
  match host.cache name with
  | some value => value
  | none => origGetenvAll name

/-- Any calls of `put`; `none` if the process does not survive one of them. -/
def Platform.puts (p : Platform π) (envVars : List Bytes) (host : Host π) : Option (Host π) :=
  envVars.foldlM (fun host envVar => if p.KilledBy envVar then none else some (p.put envVar host))
    host

/-- `GroovyInvokeHandler.setupEnvVars`, when it returns. -/
def Platform.setupEnvVars (p : Platform π) (envVars : Option (List Bytes)) (host : Host π) :
    Host π :=
  (envVars.getD []).foldl (fun host envVar => p.put envVar host) host

def Platform.prepare (p : Platform π) (request : InvocationRequest) (host : Host π) :
    Except JException (Host π) :=
  (if truth request.cwd then p.setDir (request.cwd.getD []) host else .ok host).map
    (p.setupEnvVars request.envVars)

/-- What the last entry for a name makes of it, null if it has no equals sign. -/
def lastPut (envVars : List Bytes) (name : Bytes) : Option (Option Bytes) :=
  (((envVars.map splitEnvVar).filter (·.1 = name)).map Prod.snd).getLast?

theorem lastPut_append (envVars more : List Bytes) (name : Bytes) :
    lastPut (envVars ++ more) name = (lastPut more name).or (lastPut envVars name) := by
  rw [lastPut, List.map_append, List.filter_append, List.map_append, List.getLast?_append]
  rfl

theorem lastPut_singleton (envVar name : Bytes) :
    lastPut [envVar] name =
      if (splitEnvVar envVar).1 = name then some (splitEnvVar envVar).2 else none := by
  by_cases hname : (splitEnvVar envVar).1 = name <;> simp [lastPut, hname]

theorem lastPut_eq_none_iff {envVars : List Bytes} {name : Bytes} :
    lastPut envVars name = none ↔ ∀ envVar ∈ envVars, (splitEnvVar envVar).1 ≠ name := by
  rw [lastPut, List.getLast?_eq_none_iff, List.map_eq_nil_iff, List.filter_eq_nil_iff]
  simp

variable (p : Platform π)

theorem cache_setupEnvVars (envVars : Option (List Bytes)) (host : Host π) (name : Bytes) :
    (p.setupEnvVars envVars host).cache name =
      (lastPut (envVars.getD []) name).or (host.cache name) := by
  rw [Platform.setupEnvVars]
  generalize envVars.getD [] = envVars
  induction envVars using List.reverseRecOn with
  | nil => rfl
  | append_singleton envVars envVar ih =>
    rw [List.foldl_append, List.foldl_cons, List.foldl_nil, lastPut_append, lastPut_singleton,
      Platform.put]
    dsimp only
    by_cases hname : (splitEnvVar envVar).1 = name
    · rw [if_pos hname, ← hname, Function.update_self]
      rfl
    · rw [if_neg hname, Function.update_of_ne (Ne.symm hname), ih]
      rfl

theorem puts_eq_some_iff {envVars : List Bytes} {host host' : Host π} :
    p.puts envVars host = some host' ↔
      (∀ envVar ∈ envVars, ¬ p.KilledBy envVar) ∧ p.setupEnvVars (some envVars) host = host' := by
  induction envVars generalizing host with
  | nil => simp [Platform.puts, Platform.setupEnvVars]
  | cons envVar envVars ih =>
    rw [Platform.puts, List.foldlM_cons, List.forall_mem_cons]
    by_cases hkilled : p.KilledBy envVar
    · rw [if_pos hkilled]
      exact iff_of_false nofun fun h => h.1.1 hkilled
    · rw [if_neg hkilled, Option.bind_eq_bind, Option.bind_some, ← Platform.puts, ih, and_assoc]
      exact ⟨fun h => ⟨hkilled, h⟩, fun h => h.2⟩

/-- All three accessors find the same under the name, and it is the value that the last
entry for the name gives it, if that one gives a value. -/
structure AccessorsAgree (origGetenv origGetenvAll : Environment) (host : Host π)
    (envVars : List Bytes) (name : Bytes) : Prop where
  getenvAll : host.getenvAll origGetenvAll name = host.getenv origGetenv name
  getEnv : host.getEnv origGetenvAll name = host.getenv origGetenv name
  value : ∀ value, lastPut envVars name = some (some value) →
    host.getenv origGetenv name = some value

def Host.clearCache (host : Host π) : Host π := { host with cache := fun _ => none }

theorem accessorsAgree_iff_of_cache {origGetenv origGetenvAll : Environment} {host : Host π}
    {envVars : List Bytes} {name : Bytes} (hcache : host.cache name = lastPut envVars name) :
    AccessorsAgree origGetenv origGetenvAll host envVars name ↔
      (lastPut envVars name = none → origGetenv name = origGetenvAll name) ∧
        (lastPut envVars name = some none → origGetenv name = none) := by
  constructor
  · intro h
    have hall := h.getenvAll
    rw [Host.getenvAll, Host.getenv, hcache] at hall
    constructor
    · intro hput
      rw [hput] at hall
      exact hall.symm
    · intro hput
      rw [hput] at hall
      exact hall.symm
  · intro ⟨hnone, hnull⟩
    have hall : host.getenvAll origGetenvAll name = host.getenv origGetenv name := by
      rw [Host.getenvAll, Host.getenv, hcache]
      cases hput : lastPut envVars name with
      | none => exact (hnone hput).symm
      | some stored =>
        cases stored with
        | some value => rfl
        | none => exact (hnull hput).symm
    refine ⟨hall, hall, fun value hvalue => ?_⟩
    rw [Host.getenv, hcache, hvalue]

/-- After any entries the accessors agree on a name exactly when the process has survived
them, the accessors of the start agree on it if there was no entry for it, and it has no
start value if the last entry for it has no value. The two accessors of the start differ
where the case of a name counts for one of them only. -/
theorem accessorsAgree_iff (origGetenv origGetenvAll : Environment) (host : Host π)
    (envVars : List Bytes) (name : Bytes) :
    (∃ host', p.puts envVars host.clearCache = some host' ∧
      AccessorsAgree origGetenv origGetenvAll host' envVars name) ↔
      (∀ envVar ∈ envVars, ¬ p.KilledBy envVar) ∧
        (lastPut envVars name = none → origGetenv name = origGetenvAll name) ∧
        (lastPut envVars name = some none → origGetenv name = none) := by
  have hcache : (p.setupEnvVars (some envVars) host.clearCache).cache name =
      lastPut envVars name := by
    rw [cache_setupEnvVars, Host.clearCache, Option.or_none, Option.getD_some]
  constructor
  · rintro ⟨host', hputs, h⟩
    obtain ⟨hsurvives, rfl⟩ := (puts_eq_some_iff p).mp hputs
    exact ⟨hsurvives, (accessorsAgree_iff_of_cache hcache).mp h⟩
  · intro ⟨hsurvives, h⟩
    exact ⟨_, (puts_eq_some_iff p).mpr ⟨hsurvives, rfl⟩,
      (accessorsAgree_iff_of_cache hcache).mpr h⟩

def windowsPlatform : Platform (Bytes × (Bytes → Option Bytes)) :=
  { unixPlatform with isWindows := true }

/-- An entry without a value hides the name from the maps, but not from `getenv`, if the
process survives it. -/
theorem not_accessorsAgree_home :
    unixPlatform.puts [ascii "HOME"] unixHost.clearCache = none ∧
    ∃ host, windowsPlatform.puts [ascii "HOME"] unixHost.clearCache = some host ∧
      ¬ AccessorsAgree (fun _ => some (ascii "C:/home")) (fun _ => some (ascii "C:/home")) host
        [ascii "HOME"] (ascii "HOME") :=
  ⟨rfl, _, rfl, fun h => absurd h.getenvAll (by decide +kernel)⟩

/-- Whatever the server's environment was before, the script of the request finds the value. -/
def Delivers (request : InvocationRequest) (name value : Bytes) : Prop :=
  ∀ (orig : Environment) (host host' : Host π), p.prepare request host = .ok host' →
    host'.getenv orig name = some value

theorem splitEnvVar_entry {name : Bytes} (hname : (61 : UInt8) ∉ name) (value : Bytes) :
    splitEnvVar (name ++ 61 :: value) = (name, some value) := by
  have hne : ∀ c ∈ name, decide (c ≠ 61) = true := by
    intro c hc
    simpa using fun h : c = 61 => hname (h ▸ hc)
  rw [splitEnvVar, List.takeWhile_append_of_pos hne, List.dropWhile_append_of_pos hne]
  simp

theorem exists_prepare [Inhabited π] (request : InvocationRequest) {name : Bytes}
    (hpwd : name ≠ ascii "PWD") : ∃ host host', p.prepare request host = .ok host' ∧
      host'.cache name = lastPut (request.envVars.getD []) name := by
  let host : Host π := ⟨default, fun _ => none, [], none⟩
  rw [← Option.or_none (o := lastPut _ name)]
  by_cases hcwd : truth request.cwd = true
  · obtain ⟨entered, henter, hcache⟩ : ∃ entered, p.setDir (request.cwd.getD []) host =
        .ok entered ∧ entered.cache name = none := by
      refine ⟨_, rfl, ?_⟩
      have hput := splitEnvVar_entry (by decide : (61 : UInt8) ∉ ascii "PWD")
        (request.cwd.getD [])
      have hother : name ≠ (splitEnvVar (ascii "PWD" ++ 61 :: request.cwd.getD [])).1 := by
        rw [hput]
        exact hpwd
      exact Function.update_of_ne hother _ _
    refine ⟨host, _, ?_, (cache_setupEnvVars p request.envVars entered name).trans ?_⟩
    · rw [Platform.prepare, if_pos hcwd, henter]
      rfl
    · rw [hcache]
  · refine ⟨host, _, ?_, cache_setupEnvVars p request.envVars host name⟩
    rw [Platform.prepare, if_neg hcwd]
    rfl

theorem delivers_iff [Inhabited π] {request : InvocationRequest} {name value : Bytes}
    (hpwd : name ≠ ascii "PWD") :
    Delivers p request name value ↔
      lastPut (request.envVars.getD []) name = some (some value) := by
  constructor
  · intro h
    obtain ⟨host, host', hprepare, hcache⟩ := exists_prepare p request hpwd
    have hget := h (fun _ => none) host host' hprepare
    rw [Host.getenv, hcache] at hget
    cases hlast : lastPut (request.envVars.getD []) name with
    | none =>
      rw [hlast] at hget
      cases hget
    | some stored =>
      cases stored with
      | none =>
        rw [hlast] at hget
        cases hget
      | some v =>
        rw [hlast] at hget
        exact congrArg some hget
  · intro h orig host host' hprepare
    rw [Platform.prepare] at hprepare
    cases hdir : (if truth request.cwd then p.setDir (request.cwd.getD []) host else .ok host) with
    | error e =>
      rw [hdir] at hprepare
      cases hprepare
    | ok host₁ =>
      rw [hdir] at hprepare
      obtain rfl := Except.ok.inj hprepare
      rw [Host.getenv, cache_setupEnvVars, h]
      rfl

def NamesVariable (name line : Bytes) : Prop :=
  (splitHeader line).1 = headerKeyEnv ∧ (splitEnvVar (splitHeader line).2).1 = name

instance (name line : Bytes) : Decidable (NamesVariable name line) :=
  inferInstanceAs (Decidable (_ ∧ _))

/-- What the last `Env` header for a name gives it. -/
def variableOf (lines : List Bytes) (name : Bytes) : Option (Option Bytes) :=
  lastPut (valuesOf lines headerKeyEnv) name

theorem variableOf_append (lines lines' : List Bytes) (name : Bytes) :
    variableOf (lines ++ lines') name = (variableOf lines' name).or (variableOf lines name) := by
  rw [variableOf, valuesOf_append, lastPut_append]
  rfl

theorem variableOf_eq_none_iff {lines : List Bytes} {name : Bytes} :
    variableOf lines name = none ↔ ∀ line ∈ lines, ¬ NamesVariable name line := by
  rw [variableOf, lastPut_eq_none_iff]
  simp only [valuesOf, List.mem_map, List.mem_filter, decide_eq_true_eq, NamesVariable, not_and]
  constructor
  · intro h line hline hkey
    exact h _ ⟨splitHeader line, ⟨⟨line, hline, rfl⟩, hkey⟩, rfl⟩
  · rintro h envVar ⟨header, ⟨⟨line, hline, rfl⟩, hkey⟩, rfl⟩
    exact h line hline hkey

theorem mem_of_mem_trim {v : Bytes} {c : UInt8} (h : c ∈ trim v) : c ∈ v :=
  (List.dropWhile_suffix _).subset ((List.rdropWhile_prefix _ _).subset h)

theorem variableOf_of_lf {lines : List Bytes} (hlines : ∀ line ∈ lines, lf ∉ line) {name : Bytes}
    (hname : lf ∈ name) : variableOf lines name = none := by
  rw [variableOf_eq_none_iff]
  rintro line hline ⟨-, rfl⟩
  refine hlines line hline ?_
  have hvalue : lf ∈ (splitHeader line).2 := (List.takeWhile_prefix _).subset hname
  exact (List.dropWhile_suffix _).subset (List.mem_of_mem_drop (mem_of_mem_trim hvalue))

theorem lt_of_mem_head?_trim (v : Bytes) : ∀ c ∈ (trim v).head?, 32 < c := by
  intro c hc
  obtain ⟨t, ht⟩ := List.rdropWhile_prefix (· ≤ 32) (v.dropWhile (· ≤ 32))
  rw [← trim] at ht
  obtain ⟨s, hs⟩ := List.head?_eq_some_iff.mp hc
  have hhead : (v.dropWhile (· ≤ 32)).head? = some c := by
    rw [← ht, hs]
    rfl
  have hnot := List.head?_dropWhile_not (· ≤ (32 : UInt8)) v
  rw [hhead] at hnot
  simpa using hnot

theorem rdropWhile_append_cons {α : Type*} {p : α → Bool} {x : α} (hx : ¬ p x = true)
    (l l' : List α) : (l ++ x :: l').rdropWhile p = l ++ x :: l'.rdropWhile p := by
  induction l' using List.reverseRecOn with
  | nil => rw [List.rdropWhile_concat_neg _ _ _ hx, List.rdropWhile_nil]
  | append_singleton l' y ih =>
    rw [← List.cons_append, ← List.append_assoc, List.rdropWhile_concat, List.rdropWhile_concat]
    split_ifs
    · exact ih
    · rw [List.append_assoc, List.cons_append]

theorem trim_entry {name : Bytes} (hname : ∀ c ∈ name.head?, 32 < c) (value : Bytes) :
    trim (name ++ 61 :: value) = name ++ 61 :: value.rdropWhile (· ≤ 32) := by
  have hdrop : (name ++ 61 :: value).dropWhile (· ≤ 32) = name ++ 61 :: value := by
    cases name with
    | nil => rfl
    | cons c name =>
      have hc : ¬ c ≤ 32 := UInt8.not_le.mpr (hname c rfl)
      rw [List.cons_append, List.dropWhile_cons_of_neg (by simpa using hc)]
  rw [trim, hdrop, rdropWhile_append_cons (by decide)]

end Server

namespace Client.Invocation

variable (inv : Invocation)

def linesBefore (cwd : Bytes) (before : List Bytes) : List Bytes :=
  (inv.plainFields cwd ++ before.map fun entry => (headerKeyEnv, entry)).flatMap fieldLines

def linesAfter (after : List Bytes) : List Bytes :=
  ((after.map fun entry => (headerKeyEnv, entry)) ++
    inv.classpath.toList.map fun cp => (headerKeyCp, cp)).flatMap fieldLines

theorem lines_eq {entry : Bytes} {before after : List Bytes} (cwd : Bytes)
    (henv : inv.envVars = before ++ entry :: after) :
    (inv.fields cwd).flatMap fieldLines =
      inv.linesBefore cwd before ++ (fieldLines (headerKeyEnv, entry) ++ inv.linesAfter after) := by
  rw [fields_eq, environmentFields, henv, linesBefore, linesAfter]
  simp only [List.map_append, List.map_cons, List.flatMap_append, List.flatMap_cons,
    List.append_assoc]

end Client.Invocation

theorem lf_notMem_fieldLines {fields : List (Bytes × Bytes)} :
    ∀ line ∈ fields.flatMap fieldLines, lf ∉ line := by
  intro line hline
  obtain ⟨f, -, hline⟩ := List.mem_flatMap.mp hline
  exact notMem_of_mem_splitOn lf _ line hline

/-- The entry arrives as it is: it is one line, no empty line is in front of it, and
nothing is trimmed off. -/
structure Arrives (inv : Client.Invocation) (cwd : Bytes) (before : List Bytes)
    (name value : Bytes) : Prop where
  oneLine : lf ∉ name
  reached : [] ∉ inv.linesBefore cwd before
  trimmed : Trimmed (name ++ 61 :: value)

/-- The line of the entry is not read, or not for the name, and a line in front of it has
given the name the same value. -/
structure GivenBefore (inv : Client.Invocation) (cwd : Bytes) (before : List Bytes)
    (name value : Bytes) : Prop where
  lost : [] ∈ inv.linesBefore cwd before ∨ ∃ c ∈ name.head?, c ≤ 32
  given : variableOf (blockLines (inv.linesBefore cwd before)) name = some (some value)

theorem variableOf_entry {name value : Bytes} (hname : (61 : UInt8) ∉ name) :
    variableOf [headerKeyEnv ++ (ascii ": " ++ (name ++ 61 :: value))] name =
      if ∃ c ∈ name.head?, c ≤ 32 then none else some (some (value.rdropWhile (· ≤ 32))) := by
  have hsplit := splitHeader_line (by decide : (58 : UInt8) ∉ headerKeyEnv) (name ++ 61 :: value)
  rw [variableOf, valuesOf_cons, hsplit, if_pos rfl, valuesOf_nil, lastPut_singleton]
  dsimp only
  by_cases hblank : ∃ c ∈ name.head?, c ≤ 32
  · rw [if_pos hblank]
    refine if_neg fun heq => ?_
    -- the name in the line starts behind the blank
    obtain ⟨c, hc, hle⟩ := hblank
    obtain ⟨t, ht⟩ := List.takeWhile_prefix (fun c : UInt8 => decide (c ≠ 61))
      (l := trim (name ++ 61 :: value))
    have hhead : (trim (name ++ 61 :: value)).head? = some c := by
      obtain ⟨rest, hrest⟩ := List.head?_eq_some_iff.mp hc
      rw [← ht]
      change ((splitEnvVar (trim (name ++ 61 :: value))).1 ++ t).head? = some c
      rw [heq, hrest]
      rfl
    exact absurd (lt_of_mem_head?_trim _ c hhead) (UInt8.not_lt.mpr hle)
  · have hhead : ∀ c ∈ name.head?, 32 < c := fun c hc =>
      UInt8.not_le.mp fun hle => hblank ⟨c, hc, hle⟩
    rw [if_neg hblank, trim_entry hhead, splitEnvVar_entry hname, if_pos rfl]

theorem trimmed_entry_iff {name value : Bytes} (hname : ∀ c ∈ name.head?, 32 < c) :
    Trimmed (name ++ 61 :: value) ↔ value.rdropWhile (· ≤ 32) = value := by
  rw [← trim_eq_self_iff, trim_entry hname, List.append_cancel_left_eq, List.cons.injEq]
  simp only [true_and]

section Delivery

variable {inv : Client.Invocation} {cwd : Bytes} {name value : Bytes} {before after : List Bytes}

theorem variableOf_fields_of_lf (hlf : lf ∈ name) (fields : List (Bytes × Bytes)) :
    variableOf (blockLines (fields.flatMap fieldLines)) name = none :=
  variableOf_of_lf
    (fun line hline => lf_notMem_fieldLines line (List.takeWhile_prefix _ |>.subset hline)) hlf

/-- When no empty line is in front of the entry, its line gives the name the value, or is not
read for the name and those in front of it do. -/
theorem variableOf_lines (henv : inv.envVars = before ++ (name ++ 61 :: value) :: after)
    (hname : (61 : UInt8) ∉ name) (hlf : lf ∉ name) (hvalue : lf ∉ value)
    (hlast : ∀ line ∈ blockLines (inv.linesAfter after), ¬ NamesVariable name line)
    (hnil : [] ∉ inv.linesBefore cwd before) :
    variableOf (blockLines ((inv.fields cwd).flatMap fieldLines)) name =
      (if ∃ c ∈ name.head?, c ≤ 32 then none
        else some (some (value.rdropWhile (· ≤ 32)))).or
      (variableOf (blockLines (inv.linesBefore cwd before)) name) := by
  have hentry : lf ∉ name ++ 61 :: value := by
    simp only [List.mem_append, List.mem_cons, not_or]
    exact ⟨hlf, by decide, hvalue⟩
  have hline : fieldLines (headerKeyEnv, name ++ 61 :: value) =
      [headerKeyEnv ++ (ascii ": " ++ (name ++ 61 :: value))] := by
    have hkey : lf ∉ headerKeyEnv := by decide
    rw [fieldLines_eq hkey, List.splitOn_eq_singleton hentry]
    rfl
  have hne : headerKeyEnv ++ (ascii ": " ++ (name ++ 61 :: value)) ≠ [] := by
    intro h
    cases h
  rw [inv.lines_eq cwd henv, blockLines_append hnil, hline, List.singleton_append,
    blockLines_cons hne, ← List.singleton_append, variableOf_append, variableOf_append,
    variableOf_eq_none_iff.mpr hlast, Option.none_or, variableOf_entry hname,
    blockLines_eq_self hnil]

theorem variableOf_lines_iff (henv : inv.envVars = before ++ (name ++ 61 :: value) :: after)
    (hname : (61 : UInt8) ∉ name) (hvalue : lf ∉ value)
    (hlast : ∀ line ∈ blockLines (inv.linesAfter after), ¬ NamesVariable name line) :
    variableOf (blockLines ((inv.fields cwd).flatMap fieldLines)) name = some (some value) ↔
      Arrives inv cwd before name value ∨ GivenBefore inv cwd before name value := by
  by_cases hlf : lf ∈ name
  · refine iff_of_false ?_ ?_
    · rw [variableOf_fields_of_lf hlf]
      exact nofun
    · rintro (h | h)
      · exact h.oneLine hlf
      · have hgiven := h.given
        rw [Client.Invocation.linesBefore, variableOf_fields_of_lf hlf] at hgiven
        cases hgiven
  by_cases hnil : [] ∈ inv.linesBefore cwd before
  · rw [inv.lines_eq cwd henv, blockLines_append_of_mem hnil]
    constructor
    · exact fun h => .inr ⟨.inl hnil, h⟩
    · rintro (h | h)
      · exact absurd hnil h.reached
      · exact h.given
  rw [variableOf_lines henv hname hlf hvalue hlast hnil]
  by_cases hblank : ∃ c ∈ name.head?, c ≤ 32
  · rw [if_pos hblank, Option.none_or]
    constructor
    · exact fun h => .inr ⟨.inr hblank, h⟩
    · rintro (h | h)
      · obtain ⟨c, hc, hle⟩ := hblank
        refine absurd (h.trimmed.1 c ?_) (UInt8.not_lt.mpr hle)
        obtain ⟨rest, hrest⟩ := List.head?_eq_some_iff.mp hc
        rw [hrest]
        rfl
      · exact h.given
  · have hhead : ∀ c ∈ name.head?, 32 < c := fun c hc =>
      UInt8.not_le.mp fun hle => hblank ⟨c, hc, hle⟩
    rw [if_neg hblank, Option.some_or, Option.some.injEq, Option.some.injEq,
      ← trimmed_entry_iff hhead]
    constructor
    · exact fun h => .inl ⟨hlf, hnil, h⟩
    · rintro (h | h)
      · exact h.trimmed
      · exact absurd h.lost (not_or.mpr ⟨hnil, hblank⟩)

end Delivery

theorem exists_request_single {entry : CString} (heq : (61 : UInt8) ∈ entry.val)
    (hlf : lf ∉ entry.val) (hcp : (invocationWith [entry]).classpath = none)
    (hlen : ((invocationWith [entry]).text (ascii "/tmp")).length + 1 ≤ 2 ^ 30) :
    ∃ sent request, Client.sendHeader (invocationWith [entry]) = .ok sent ∧
      request.envVars = some [trim entry] ∧
      ∀ rest, readInvocationRequest Base64.decode (some ⟨ascii "cafe"⟩) ⟨1, true, [], []⟩ false
        .waiting (sent ++ rest) = .ok (request, rest) := by
  have hsel : (invocationWith [entry]).envVars = [entry.val] := rfl
  have htoken : (invocationWith [entry]).authtoken = sampleInvocation.authtoken := rfl
  have hplain : (invocationWith [entry]).Plain (ascii "/tmp") :=
    { cwd := by decide
      authtoken := by
        rw [htoken]
        decide
      envVars := fun e he => by
        rw [hsel, List.mem_singleton] at he
        rwa [he]
      classpath := fun cp hmem => by
        rw [hcp] at hmem
        cases hmem }
  have hsend := invocationWith_ensures [entry]
  obtain ⟨sent, hsent⟩ := hsend.returns ⟨fun e he => by
    obtain rfl := List.mem_singleton.mp he
    exact heq, hlen⟩
  obtain rfl := hsend.post sent hsent
  refine ⟨_, receivedRequest (invocationWith [entry]) (ascii "/tmp") (some ⟨ascii "cafe"⟩)
    ⟨1, true, [], []⟩, hsent, by rw [receivedRequest, hsel]; rfl, fun rest => ?_⟩
  have hread := readInvocationRequest_text (invocationWith [entry]) hplain Base64.decode_encode
    (some ⟨ascii "cafe"⟩) ⟨1, true, [], []⟩ false .waiting rest
  have hcheck : (receivedRequest (invocationWith [entry]) (ascii "/tmp") (some ⟨ascii "cafe"⟩)
      ⟨1, true, [], []⟩).check false = .ok () :=
    InvocationRequest.check_of_token rfl (by rw [htoken]; decide) rfl (by rw [htoken]; decide) false
  rw [hread, hcheck]
  rfl

def entryBlank : CString := ⟨ascii "A=1 ", by decide⟩

end GroovyServ
