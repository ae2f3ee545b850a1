import GroovyServ.OptionAgreement

/-!
# What the C client scans, and what its masks select

When `scan_options` returns, the argument list has been divided into arguments that
are forwarded and options with their values: the former are left in the array as they
were, and the latter alone decide the record. The masks in the record then select the
environment entries that `make_env_headers` sends, by their names.
-/

namespace GroovyServ

open Client CLib

namespace Client

def Use.words (use : Use) : List Bytes := use.arg :: use.value.toList.map Subtype.val

def Use.given (type : OptionType) : Use → Option CString
  | .forwarded _ => none
  | .option opt _ value => if opt.type = type then value else none

end Client

def givenValues (type : OptionType) (us : List Use) : List CString := us.filterMap (Use.given type)

/-- The record after the uses, as far as they set it. -/
structure Recorded (us : List Use) (option : OptionT) : Prop where
  host : option.host = (givenValues .host us).getLast?
  authtoken : option.authtoken = (givenValues .authtoken us).getLast?
  includeMask : Holds option.envIncludeMask ((givenValues .env us).map Subtype.val)
  excludeMask : Holds option.envExcludeMask ((givenValues .envExclude us).map Subtype.val)
  help : option.help = (us.flatMap Use.forwardedArg).any fun arg => isGroovyHelpOption arg
  version : option.version = (us.flatMap Use.forwardedArg).any fun arg => isGroovyVersionOption arg

section Recorded

variable {us : List Use} {c c' : OptionT}

theorem givenValues_append (type : OptionType) (us us' : List Use) :
    givenValues type (us ++ us') = givenValues type us ++ givenValues type us' :=
  List.filterMap_append

theorem givenValues_forwarded (type : OptionType) (us : List Use) (arg : CString) :
    givenValues type (us ++ [.forwarded arg]) = givenValues type us := by
  rw [givenValues_append]
  exact List.append_nil _

theorem givenValues_of_ne {type : OptionType} {opt : OptionInfo} (h : opt.type ≠ type)
    (us : List Use) (name : CString) (value : Option CString) :
    givenValues type (us ++ [.option opt name value]) = givenValues type us := by
  have hnone : givenValues type [.option opt name value] = [] := by
    simp [givenValues, Use.given, h]
  rw [givenValues_append, hnone, List.append_nil]

theorem givenValues_of_eq {type : OptionType} {opt : OptionInfo} (h : opt.type = type)
    (us : List Use) (name value : CString) :
    givenValues type (us ++ [.option opt name (some value)]) = givenValues type us ++ [value] := by
  have hsome : givenValues type [.option opt name (some value)] = [value] := by
    simp [givenValues, Use.given, h]
  rw [givenValues_append, hsome]

theorem recorded_start : Recorded [] clientOption :=
  ⟨rfl, rfl, holds_noMasks, holds_noMasks, rfl, rfl⟩

theorem Recorded.forward (h : Recorded us c) (arg : CString) :
    Recorded (us ++ [.forwarded arg]) (markGroovyOption c arg) where
  host := by rw [givenValues_forwarded]; exact h.host
  authtoken := by rw [givenValues_forwarded]; exact h.authtoken
  includeMask := by rw [givenValues_forwarded]; exact h.includeMask
  excludeMask := by rw [givenValues_forwarded]; exact h.excludeMask
  help := by simp [markGroovyOption, h.help, Use.forwardedArg]
  version := by simp [markGroovyOption, h.version, Use.forwardedArg]

structure Switched (type : OptionType) (name : CString) (value : Option CString)
    (c c' : OptionT) : Prop where
  host : c'.host = if type = .host then value else c.host
  authtoken : c'.authtoken = if type = .authtoken then value else c.authtoken
  includeMask : if type = .env
    then ∃ v ∈ value, setMaskOption c.envIncludeMask name v = .ok c'.envIncludeMask
    else c'.envIncludeMask = c.envIncludeMask
  excludeMask : if type = .envExclude
    then ∃ v ∈ value, setMaskOption c.envExcludeMask name v = .ok c'.envExcludeMask
    else c'.envExcludeMask = c.envExcludeMask
  value : type = .host ∨ type = .authtoken → value.isSome = true
  help : c'.help = c.help
  version : c'.version = c.version

theorem switchOption_ok {type : OptionType} {name : CString} {value : Option CString}
    (h : switchOption c type name value = .ok c') :
    Switched type name value c c' := by
  cases type with
  | host =>
    cases value with
    | none => cases h
    | some v => cases h; exact ⟨rfl, rfl, rfl, rfl, fun _ => rfl, rfl, rfl⟩
  | authtoken =>
    cases value with
    | none => cases h
    | some v => cases h; exact ⟨rfl, rfl, rfl, rfl, fun _ => rfl, rfl, rfl⟩
  | port =>
    cases value with
    | none => cases h
    | some v =>
      rw [switchOption] at h
      cases hport : sscanfInt v with
      | none => rw [hport] at h; cases h
      | some port => rw [hport] at h; cases h; exact ⟨rfl, rfl, rfl, rfl, by simp, rfl, rfl⟩
  | env =>
    cases value with
    | none => cases h
    | some v =>
      obtain ⟨masks, hmasks, h⟩ := bind_eq_ok.mp h
      cases h
      exact ⟨rfl, rfl, ⟨v, rfl, hmasks⟩, rfl, by simp, rfl, rfl⟩
  | envExclude =>
    cases value with
    | none => cases h
    | some v =>
      obtain ⟨masks, hmasks, h⟩ := bind_eq_ok.mp h
      cases h
      exact ⟨rfl, rfl, rfl, ⟨v, rfl, hmasks⟩, by simp, rfl, rfl⟩
  | killServer => cases value <;> cases h <;> exact ⟨rfl, rfl, rfl, rfl, by simp, rfl, rfl⟩
  | restartServer => cases value <;> cases h <;> exact ⟨rfl, rfl, rfl, rfl, by simp, rfl, rfl⟩
  | quiet => cases value <;> cases h <;> exact ⟨rfl, rfl, rfl, rfl, by simp, rfl, rfl⟩
  | envAll => cases value <;> cases h <;> exact ⟨rfl, rfl, rfl, rfl, by simp, rfl, rfl⟩
  | help => cases value <;> cases h
  | version => cases value <;> cases h

theorem Recorded.option (h : Recorded us c) {opt : OptionInfo} {name : CString}
    {value : Option CString} (hscan : switchOption c opt.type name value = .ok c') :
    Recorded (us ++ [.option opt name value]) c' := by
  have hswitched := switchOption_ok hscan
  have hforwarded : (us ++ [Use.option opt name value]).flatMap Use.forwardedArg =
      us.flatMap Use.forwardedArg := by simp [Use.forwardedArg]
  constructor
  · rw [hswitched.host]
    split_ifs with htype
    · obtain ⟨v, rfl⟩ := Option.isSome_iff_exists.mp (hswitched.value (.inl htype))
      rw [givenValues_of_eq htype, List.getLast?_concat]
    · rw [givenValues_of_ne htype]
      exact h.host
  · rw [hswitched.authtoken]
    split_ifs with htype
    · obtain ⟨v, rfl⟩ := Option.isSome_iff_exists.mp (hswitched.value (.inr htype))
      rw [givenValues_of_eq htype, List.getLast?_concat]
    · rw [givenValues_of_ne htype]
      exact h.authtoken
  · have hmask := hswitched.includeMask
    split_ifs at hmask with htype
    · obtain ⟨v, rfl, hset⟩ := hmask
      rw [givenValues_of_eq htype, List.map_append]
      exact h.includeMask.setMaskOption hset
    · rw [givenValues_of_ne htype, hmask]
      exact h.includeMask
  · have hmask := hswitched.excludeMask
    split_ifs at hmask with htype
    · obtain ⟨v, rfl, hset⟩ := hmask
      rw [givenValues_of_eq htype, List.map_append]
      exact h.excludeMask.setMaskOption hset
    · rw [givenValues_of_ne htype, hmask]
      exact h.excludeMask
  · rw [hforwarded, hswitched.help, h.help]
  · rw [hforwarded, hswitched.version, h.version]

/-- The uses, taken up in order, are what is recorded. -/
theorem Recorded.foldlM {done : List Use} (h : Recorded done c)
    (hfold : us.foldlM Use.scan c = .ok c') : Recorded (done ++ us) c' := by
  induction us generalizing done c with
  | nil =>
    cases hfold
    rwa [List.append_nil]
  | cons use us ih =>
    rw [List.foldlM_cons] at hfold
    obtain ⟨next, hnext, hrest⟩ := bind_eq_ok.mp hfold
    rw [List.append_cons]
    cases use with
    | forwarded arg =>
      cases hnext
      exact ih (h.forward arg) hrest
    | option opt name value => exact ih (h.option hnext) hrest

end Recorded

theorem Holds.length_le {envMask : Masks} {masks : List Bytes} (h : Holds envMask masks) :
    masks.length ≤ maxMask := by
  obtain ⟨values, rfl, hslots⟩ := h
  have hlen := envMask.property
  rw [hslots, List.length_append, List.length_map, List.length_replicate] at hlen
  rw [List.length_map]
  omega

theorem uses_words {args : List CString} {us : List Use} (h : uses args = some us) :
    us.flatMap Use.words = args.map Subtype.val ∧ ∀ use ∈ us, use.Proper := by
  induction us generalizing args with
  | nil =>
    cases args with
    | nil => exact ⟨rfl, by simp⟩
    | cons arg args =>
      obtain ⟨use, us', rest, hcons, -⟩ := uses_cons h
      cases hcons
  | cons use us ih =>
    cases args with
    | nil => cases h
    | cons arg args =>
      obtain ⟨use', us', rest, hcons, hrest, hproper, harg, rfl⟩ := uses_cons h
      cases hcons
      obtain ⟨hwords, hall⟩ := ih hrest
      refine ⟨?_, List.forall_mem_cons.mpr ⟨hproper, hall⟩⟩
      rw [List.flatMap_cons, hwords, Use.words, harg]
      simp

/-- What `scan_options` has done when it returns: `argv` is the array behind the
program's name, and `us` are the uses that the arguments divide into. -/
structure Scanned (args : List CString) (us : List Use) (argv : List (Option CString))
    (option : OptionT) : Prop where
  words : us.flatMap Use.words = args.map Subtype.val
  proper : ∀ use ∈ us, use.Proper
  slots : argv = us.flatMap Use.slots
  left : argv.reduceOption = us.flatMap Use.forwardedArg
  host : option.host = (givenValues .host us).getLast?
  authtoken : option.authtoken = (givenValues .authtoken us).getLast?
  includeMask : Holds option.envIncludeMask ((givenValues .env us).map Subtype.val)
  excludeMask : Holds option.envExcludeMask ((givenValues .envExclude us).map Subtype.val)
  masks : (givenValues .env us).length ≤ maxMask ∧ (givenValues .envExclude us).length ≤ maxMask
  help : option.help = true ↔
    args = [] ∨ ∃ arg ∈ us.flatMap Use.forwardedArg, isGroovyHelpOption arg = true
  version : option.version = true ↔
    ∃ arg ∈ us.flatMap Use.forwardedArg, isGroovyVersionOption arg = true

/-- The arguments that are left are those that are no options and no values of options,
and only the options and their values are recorded. -/
theorem scanOptions_scanned {program : CString} {args : List CString}
    {argv : List (Option CString)} {option : OptionT}
    (h : scanOptions clientOption (program :: args) = .ok (argv, option)) :
    argv.head? = some (some program) ∧ ∃ us, uses args = some us ∧
      Scanned args us argv.tail option := by
  cases args with
  | nil =>
    cases h
    exact ⟨rfl, [], rfl,
      { words := rfl
        proper := by simp
        slots := rfl
        left := rfl
        host := rfl
        authtoken := rfl
        includeMask := holds_noMasks
        excludeMask := holds_noMasks
        masks := ⟨Nat.zero_le _, Nat.zero_le _⟩
        help := by simp
        version := by simp [clientOption] }⟩
  | cons arg args =>
    obtain ⟨us, hus, rfl, hfold⟩ := scanOptions_ok h
    obtain ⟨hwords, hproper⟩ := uses_words hus
    have hfold : us.foldlM Use.scan clientOption = .ok option :=
      hfold.resolve_right fun hnil => absurd hwords (by simp [hnil.1])
    have hrecorded := recorded_start.foldlM hfold
    rw [List.nil_append] at hrecorded
    have hinclude := hrecorded.includeMask.length_le
    have hexclude := hrecorded.excludeMask.length_le
    rw [List.length_map] at hinclude hexclude
    exact ⟨rfl, us, hus,
      { words := hwords
        proper := hproper
        slots := rfl
        left := slots_forwarded us
        host := hrecorded.host
        authtoken := hrecorded.authtoken
        includeMask := hrecorded.includeMask
        excludeMask := hrecorded.excludeMask
        masks := ⟨hinclude, hexclude⟩
        help := by
          rw [hrecorded.help, List.any_eq_true]
          exact ⟨.inr, fun h => h.resolve_left (List.cons_ne_nil arg args)⟩
        version := by rw [hrecorded.version, List.any_eq_true] }⟩

def consumedArgs : List CString :=
  [⟨ascii "-Ca", by decide +kernel⟩, ⟨ascii "-Ch", by decide +kernel⟩,
    ⟨ascii "-h", by decide +kernel⟩, ⟨ascii "-Cenv", by decide +kernel⟩,
    ⟨ascii "HOM", by decide +kernel⟩]

theorem scanOptions_scanned_consumed : ∃ argv option,
    scanOptions clientOption (⟨ascii "/usr/bin/groovyclient", by decide +kernel⟩ :: consumedArgs) =
      .ok (argv, option) ∧
    ∃ us, uses consumedArgs = some us ∧ Scanned consumedArgs us argv.tail option :=
  ⟨_, _, rfl, (scanOptions_scanned rfl).2⟩

/-- Some mask occurs in the name of the entry. -/
def anyWithin (masks : List Bytes) (entry : Bytes) : Bool :=
  masks.any fun mask => decide (mask <:+: envName entry)

theorem anyMask_of_holds {envMask : Masks} {masks : List Bytes} (h : Holds envMask masks)
    (entry : Bytes) : anyMask envMask.val entry = anyWithin masks entry := by
  obtain ⟨values, rfl, hslots⟩ := h
  have hsome : (values.map some).takeWhile Option.isSome = values.map some :=
    List.takeWhile_eq_self_iff.mpr fun slot hslot => by
      obtain ⟨value, -, rfl⟩ := List.mem_map.mp hslot
      rfl
  have hnone : (List.replicate (maxMask - values.length) (none : Option CString)).takeWhile
      Option.isSome = [] := by simp
  have hfilled : envMask.val.takeWhile Option.isSome = values.map some := by
    rw [hslots, List.takeWhile_append, hsome, if_pos rfl, hnone, List.append_nil]
  rw [anyMask, hfilled, anyWithin, List.any_map, List.any_map]
  rfl

/-- `make_env_headers` sends, in order, the entries whose names the masks select, and
leaves the environment as it was. -/
theorem makeEnvHeaders_selected (option : ClientOption) {included excluded : List Bytes}
    (hincluded : Holds option.envIncludeMask included)
    (hexcluded : Holds option.envExcludeMask excluded) {environ : List CString}
    (hnames : ∀ entry ∈ environ, 61 ∈ entry.val) {b : Buf} {s : Bytes} (hb : b.Holds s) :
    let selected := environ.filter fun entry : CString =>
      (option.envAll || anyWithin included entry) && !anyWithin excluded entry
    let sent := selected.flatMap fun entry => ascii "Env: " ++ (entry.val ++ [lf])
    Ensures (makeEnvHeaders option b (environ.map Subtype.val))
      (s.length + sent.length + 1 ≤ 2 ^ 30) fun r =>
      r.1.Holds (s ++ sent) ∧ r.2 = environ.map Subtype.val := by
  intro selected sent
  have hselects : ∀ entry : CString, option.Selects entry =
      ((option.envAll || anyWithin included entry) && !anyWithin excluded entry) := fun entry => by
    rw [ClientOption.Selects, anyMask_of_holds hincluded, anyMask_of_holds hexcluded]
  have hsent : headersText (((environ.map Subtype.val).filter option.Selects).map
      fun entry => (headerKeyEnv, entry)) = sent := by
    have hcomp : (fun entry : CString => option.Selects entry) = fun entry : CString =>
        (option.envAll || anyWithin included entry) && !anyWithin excluded entry :=
      funext hselects
    rw [List.filter_map, Function.comp_def, hcomp, headersText, List.flatMap_map,
      List.flatMap_map]
    rfl
  have h0 : ∀ entry ∈ environ.map Subtype.val, (0 : UInt8) ∉ entry := by
    rintro _ hmem
    obtain ⟨entry, -, rfl⟩ := List.mem_map.mp hmem
    exact entry.property
  have hensures := makeEnvHeaders_ensures option h0 hb
  dsimp only at hensures
  rw [hsent] at hensures
  refine hensures.imp (fun hroom => ⟨?_, hroom⟩) fun _ => id
  intro _ hmem
  obtain ⟨entry, hentry, rfl⟩ := List.mem_map.mp hmem
  exact hnames entry hentry

def sampleMasks : ClientOption where
  envAll := false
  envIncludeMask := ⟨some ⟨ascii "HOM", by decide⟩ :: some ⟨ascii "PA", by decide⟩ ::
    List.replicate 8 none, rfl⟩
  envExcludeMask := ⟨some ⟨ascii "OM", by decide⟩ :: List.replicate 9 none, rfl⟩

def sampleEnviron : List CString :=
  [⟨ascii "HOME=/home", by decide +kernel⟩, ⟨ascii "PATH=/HOME", by decide +kernel⟩,
    ⟨ascii "LANG=PA", by decide +kernel⟩]

theorem makeEnvHeaders_selected_sample : ∃ r,
    makeEnvHeaders sampleMasks (bufNew 8 fun _ => 7) (sampleEnviron.map Subtype.val) = .ok r ∧
    r.1.Holds (ascii "Env: PATH=/HOME\n") ∧ r.2 = sampleEnviron.map Subtype.val := by
  have hincluded : Holds sampleMasks.envIncludeMask [ascii "HOM", ascii "PA"] :=
    ⟨[⟨ascii "HOM", by decide⟩, ⟨ascii "PA", by decide⟩], rfl, rfl⟩
  have hexcluded : Holds sampleMasks.envExcludeMask [ascii "OM"] :=
    ⟨[⟨ascii "OM", by decide⟩], rfl, rfl⟩
  have hnames : ∀ entry ∈ sampleEnviron, 61 ∈ entry.val := by decide +kernel
  have hensures := makeEnvHeaders_selected sampleMasks hincluded hexcluded hnames
    (bufNew_holds 8 (fun _ => 7) (by decide) (by decide))
  obtain ⟨r, hr⟩ := hensures.returns (by decide +kernel)
  exact ⟨r, hr, hensures.post r hr⟩

end GroovyServ
