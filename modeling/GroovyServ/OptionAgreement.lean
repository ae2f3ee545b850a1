import GroovyServ.OptionParse
import GroovyServ.OptionScan

/-!
# How far the two clients read their options alike

Both clients go through the argument list once, and divide it alike as far as they
know the same options: each use of an argument does the same to both records, or
the Ruby client raises. It does so for `-Cs`, for a port without a line of digits
and for a forwarded argument with `-C` in it. The C client takes the number at the
start of its port, and stores it in an `int`.
-/

namespace GroovyServ

open Client CLib RubyClient

namespace Client

def Use.arg : Use → Bytes
  | .forwarded arg => arg
  | .option _ name _ => clientOptionPrefix ++ name

def Use.value : Use → Option CString
  | .forwarded _ => none
  | .option _ _ value => value

def Use.forwardedArg : Use → List CString
  | .forwarded arg => [arg]
  | .option _ _ _ => []

def Use.port : Use → Option CString
  | .forwarded _ => none
  | .option opt _ value => if opt.type = .port then value else none

def Use.Proper : Use → Prop
  | .forwarded arg => isClientOption arg = false
  | .option opt name value =>
    opt ∈ optionInfo ∧ opt.name = name.val ∧ value.isSome = opt.takeValue

theorem mem_optionInfo {name : Bytes} {opt : OptionInfo} (h : whatOption name = some opt) :
    opt ∈ optionInfo ∧ opt.name = name :=
  ⟨List.mem_of_find?_eq_some h, by simpa using List.find?_some h⟩

theorem prefix_optionName {arg : CString} (h : isClientOption arg = true) :
    clientOptionPrefix ++ (optionName arg).val = arg.val := by
  obtain ⟨name, hname⟩ := isClientOption_iff.mp h
  have hval : (optionName arg).val = arg.val.drop clientOptionPrefix.length := rfl
  rw [hval, hname, List.drop_left]

theorem uses_cons {arg : CString} {args : List CString} {us : List Use}
    (h : uses (arg :: args) = some us) :
    ∃ use us' rest, us = use :: us' ∧ uses rest = some us' ∧ use.Proper ∧
      use.arg = arg.val ∧ args = use.value.toList ++ rest := by
  rw [uses] at h
  by_cases hclient : isClientOption arg = true
  · rw [if_pos hclient] at h
    cases hopt : whatOption (optionName arg) with
    | none => rw [hopt] at h; cases h
    | some opt =>
      rw [hopt] at h
      obtain ⟨hmem, hname⟩ := mem_optionInfo hopt
      have harg := prefix_optionName hclient
      by_cases htake : opt.takeValue = true
      · simp only [htake, if_true] at h
        cases args with
        | nil => cases h
        | cons value rest =>
          obtain ⟨us', hus', rfl⟩ := Option.map_eq_some_iff.mp h
          exact ⟨_, us', rest, rfl, hus', ⟨hmem, hname, htake.symm⟩, harg, rfl⟩
      · rw [Bool.not_eq_true] at htake
        simp only [htake, Bool.false_eq_true, if_false] at h
        obtain ⟨us', hus', rfl⟩ := Option.map_eq_some_iff.mp h
        exact ⟨_, us', args, rfl, hus', ⟨hmem, hname, htake.symm⟩, harg, rfl⟩
  · rw [if_neg hclient] at h
    obtain ⟨us', hus', rfl⟩ := Option.map_eq_some_iff.mp h
    exact ⟨_, us', args, rfl, hus', Bool.eq_false_iff.mpr hclient, rfl, rfl⟩

theorem slots_forwarded (us : List Use) :
    (us.flatMap Use.slots).reduceOption = us.flatMap Use.forwardedArg := by
  induction us with
  | nil => rfl
  | cons use us ih =>
    rw [List.flatMap_cons, List.flatMap_cons, List.reduceOption_append, ih]
    rcases use with arg | ⟨opt, name, _ | value⟩ <;> rfl

end Client

namespace RubyClient

/-- What the Ruby client does with an option of the type, if it knows the name. -/
def caseOfType (valid : Bytes → Bool) (arg : Bytes) (next : Option Bytes) (options : Options) :
    OptionType → Except RubyError (Bool × Options)
  | .host => .ok (true, options.modifyClient fun c => { c with host := some next })
  | .port => do
    let number ← (match next with
      | none => .ok false
      | some port => matchRegexp valid numberLine port)
    if number then .ok (true, options.modifyClient fun c => { c with port := next })
    else
      .error (.runtime
        (ascii "Invalid port number " ++ (next.getD [] ++ (ascii " for " ++ arg))))
  | .authtoken => .ok (true, options.modifyClient fun c => { c with authtoken := next })
  | .killServer => .ok (false, options.addServerOpt (ascii "-k"))
  | .restartServer => .ok (false, options.addServerOpt (ascii "-r"))
  | .quiet =>
    .ok (false, (options.addServerOpt (ascii "-q")).modifyClient fun c => { c with quiet := true })
  | .envAll => .ok (false, options.modifyClient fun c => { c with envAll := true })
  | .env =>
    match next with
    | none => .error (.runtime (ascii "Invalid mask string  for " ++ arg))
    | some val =>
      .ok (true, options.modifyClient fun c =>
        { c with envIncludeMask := c.envIncludeMask ++ [val] })
  | .envExclude =>
    match next with
    | none => .error (.runtime (ascii "Invalid mask string  for " ++ arg))
    | some val =>
      .ok (true, options.modifyClient fun c =>
        { c with envExcludeMask := c.envExcludeMask ++ [val] })
  | .help => .ok (false, options.modifyClient fun c => { c with help := true })
  | .version => .ok (false, options.modifyClient fun c => { c with version := true })

theorem parseCase_option (valid : Bytes → Bool) {opt : OptionInfo} (hopt : opt ∈ optionInfo)
    (hhelp : opt.type ≠ .help) (hname : opt.name ≠ ascii "s") (next : Option Bytes)
    (options : Options) :
    parseCase valid (clientOptionPrefix ++ opt.name) next options =
      caseOfType valid (clientOptionPrefix ++ opt.name) next options opt.type := by
  simp only [optionInfo, List.mem_cons, List.not_mem_nil, or_false] at hopt
  rcases hopt with rfl | rfl | rfl | rfl | rfl | rfl | rfl | rfl | rfl | rfl | rfl | rfl | rfl |
    rfl | rfl | rfl | rfl | rfl | rfl | rfl
  all_goals first
    | exact absurd rfl hname
    | exact absurd rfl hhelp
    | rfl

theorem matchRegexp_of_valid {valid regexp : Bytes → Bool} {s : Bytes} (h : valid s = true) :
    matchRegexp valid regexp s = .ok (regexp s) := if_pos h

theorem matchRegexp_of_invalid {valid regexp : Bytes → Bool} {s : Bytes} (h : valid s = false) :
    matchRegexp valid regexp s = .error .argument := if_neg (by simp [h])

/-- What the Ruby client accepts of the arguments that are none of its options. -/
def Forwards (valid : Bytes → Bool) (arg : Bytes) : Prop :=
  arg = ascii "--version" ∨
    valid arg = true ∧ (versionLine arg = true ∨ clientOptionWithin arg = false)

theorem parseOther_of_forwards {valid : Bytes → Bool} {arg : Bytes} (h : Forwards valid arg)
    (options : Options) :
    parseOther valid arg options = .ok (options.serverVersion.forward arg) ∨
      parseOther valid arg options = .ok (options.forward arg) := by
  unfold parseOther
  rcases h with rfl | ⟨hvalid, h⟩
  · exact .inl rfl
  · by_cases hliteral : arg = ascii "--version"
    · rw [if_pos hliteral]
      exact .inl rfl
    · rw [if_neg hliteral, matchRegexp_of_valid hvalid, ok_bind]
      rcases h with hline | hwithin
      · rw [if_pos hline]
        exact .inl rfl
      · split_ifs
        · exact .inl rfl
        · rw [matchRegexp_of_valid hvalid, ok_bind, hwithin]
          exact .inr rfl

theorem parseOther_of_not_forwards {valid : Bytes → Bool} {arg : Bytes}
    (h : ¬ Forwards valid arg) (options : Options) :
    ∃ e, parseOther valid arg options = .error e := by
  rw [Forwards, not_or, not_and, not_or, Bool.not_eq_true, Bool.not_eq_false] at h
  obtain ⟨hliteral, h⟩ := h
  rw [parseOther, if_neg hliteral]
  cases hvalid : valid arg with
  | false =>
    rw [matchRegexp_of_invalid hvalid]
    exact ⟨_, rfl⟩
  | true =>
    obtain ⟨hline, hwithin⟩ := h hvalid
    rw [matchRegexp_of_valid hvalid, ok_bind, hline, matchRegexp_of_valid hvalid]
    rw [if_neg Bool.false_ne_true, ok_bind, hwithin]
    exact ⟨_, rfl⟩

/-- The Ruby client has `-Ch` where its usage text says `-Cs`. -/
theorem parseCase_s (valid : Bytes → Bool) (next : Option Bytes) (options : Options) :
    ∃ e, parseCase valid (clientOptionPrefix ++ ascii "s") next options = .error e := by
  have hnot : ¬ Forwards valid (ascii "-Cs") := by
    rintro (h | ⟨-, h | h⟩)
    · exact absurd h (by decide +kernel)
    · exact absurd h (by decide +kernel)
    · exact absurd h (by decide +kernel)
  obtain ⟨e, he⟩ := parseOther_of_not_forwards hnot options
  have hcase : parseCase valid (clientOptionPrefix ++ ascii "s") next options =
      parseOther valid (ascii "-Cs") options >>= fun o => .ok (false, o) := rfl
  exact ⟨e, by rw [hcase, he]; rfl⟩

theorem parseCase_forwarded (valid : Bytes → Bool) {arg : Bytes}
    (h : isClientOption arg = false) (next : Option Bytes) (options : Options) :
    parseCase valid arg next options =
      if arg = ascii "--help" ∨ arg = ascii "-help" ∨ arg = ascii "-h" then
        .ok (false, options.serverHelp.forward arg)
      else parseOther valid arg options >>= fun o => .ok (false, o) := by
  have hne : ∀ {s}, isClientOption s = true → arg ≠ s := by
    rintro s hs rfl
    rw [h] at hs
    cases hs
  have hne₂ : ∀ {s t}, isClientOption s = true → isClientOption t = true →
      ¬ (arg = s ∨ arg = t) := fun hs ht => not_or.mpr ⟨hne hs, hne ht⟩
  unfold parseCase
  rw [if_neg (hne₂ rfl rfl), if_neg (hne₂ rfl rfl), if_neg (hne₂ rfl rfl),
    if_neg (hne₂ rfl rfl), if_neg (hne₂ rfl rfl), if_neg (hne₂ rfl rfl), if_neg (hne rfl),
    if_neg (hne rfl), if_neg (hne rfl), if_neg (hne₂ rfl rfl), if_neg (hne₂ rfl rfl)]

end RubyClient

/-- The slots up to the first empty one hold the masks. -/
def Holds (envMask : Masks) (masks : List Bytes) : Prop :=
  ∃ values : List CString, masks = values.map Subtype.val ∧
    envMask.val = values.map some ++ List.replicate (maxMask - values.length) none

theorem idxOf?_none_slots (values : List CString) (n : ℕ) :
    (values.map some ++ List.replicate (n + 1) (none : Option CString)).idxOf? none =
      some values.length := by
  induction values with
  | nil => rfl
  | cons value values ih =>
    rw [List.map_cons, List.cons_append, List.idxOf?_cons, ih]
    rfl

theorem setMaskOption_ok {envMask envMask' : Masks} {opt value : CString}
    (h : setMaskOption envMask opt value = .ok envMask') :
    ∃ p, envMask.val.idxOf? none = some p ∧ envMask'.val = envMask.val.set p (some value) := by
  unfold setMaskOption at h
  split at h
  · cases h
  · rename_i p hp
    cases h
    exact ⟨p, hp, rfl⟩

theorem Holds.setMaskOption {envMask envMask' : Masks} {masks : List Bytes}
    (h : Holds envMask masks) {opt value : CString}
    (hset : setMaskOption envMask opt value = .ok envMask') :
    Holds envMask' (masks ++ [value.val]) := by
  obtain ⟨values, rfl, hslots⟩ := h
  obtain ⟨p, hp, hval⟩ := setMaskOption_ok hset
  refine ⟨values ++ [value], by rw [List.map_append]; rfl, ?_⟩
  rw [hslots] at hp hval
  cases hn : maxMask - values.length with
  | zero =>
    have hnone : none ∉ values.map some := by simp
    rw [hn, List.replicate_zero, List.append_nil, List.idxOf?_eq_none_iff.mpr hnone] at hp
    cases hp
  | succ n =>
    have hlen : maxMask - (values ++ [value]).length = n := by
      rw [List.length_append, List.length_singleton]
      omega
    rw [hn, idxOf?_none_slots, Option.some.injEq] at hp
    rw [hval, hn, ← hp, List.replicate_succ, ← List.length_map (f := some), set_length_append, hlen]
    simp

structure SameRecords (c : OptionT) (r : ClientOptions) : Prop where
  host : r.host = c.host.map fun host => some host.val
  authtoken : r.authtoken = c.authtoken.map Subtype.val
  quiet : r.quiet = c.quiet
  envAll : r.envAll = c.envAll
  includeMask : Holds c.envIncludeMask r.envIncludeMask
  excludeMask : Holds c.envExcludeMask r.envExcludeMask
  kill : ascii "-k" ∈ r.groovyserverOpt ↔ c.kill = true
  restart : ascii "-r" ∈ r.groovyserverOpt ↔ c.restart = true

def lastPort (us : List Use) : Option CString := (us.filterMap Use.port).getLast?

/-- What the records and the forwarded arguments are after the uses `done`. -/
structure Alike (done : List Use) (c : OptionT) (r : RubyClient.Options) : Prop where
  args : r.server.args = (done.flatMap Use.forwardedArg).map Subtype.val
  port : r.client.port = (lastPort done).map Subtype.val
  scanned : c.port = ((lastPort done).map fun port => atoi port.val).getD portNotSpecified
  records : SameRecords c r.client

/-- The Ruby client does not raise for the use. -/
def Understood (valid : Bytes → Bool) : Use → Prop
  | .forwarded arg =>
    arg.val = ascii "--help" ∨ arg.val = ascii "-help" ∨ arg.val = ascii "-h" ∨
      Forwards valid arg
  | .option opt _ value =>
    opt.name ≠ ascii "s" ∧
      (opt.type = .port → ∀ port ∈ value, valid port.val = true ∧ numberLine port.val = true)

theorem lastPort_append_of_none {us : List Use} {use : Use} (h : use.port = none) :
    lastPort (us ++ [use]) = lastPort us := by
  simp [lastPort, h]

theorem lastPort_append_of_some {us : List Use} {use : Use} {port : CString}
    (h : use.port = some port) : lastPort (us ++ [use]) = some port := by
  simp [lastPort, h]

theorem holds_noMasks : Holds noMasks [] := ⟨[], rfl, rfl⟩

theorem alike_start (c : OptionT) (hc : c = clientOption ∨ c = { clientOption with help := true }) :
    Alike [] c {} := by
  rcases hc with rfl | rfl <;>
  exact ⟨rfl, rfl, rfl, ⟨rfl, rfl, rfl, rfl, holds_noMasks, holds_noMasks, by simp [clientOption],
    by simp [clientOption]⟩⟩

section Alike

variable {valid : Bytes → Bool} {done : List Use} {c c' : OptionT} {r r' : RubyClient.Options}

theorem Alike.forward (h : Alike done c r) (arg : CString) (hclient : r'.client = r.client)
    (hargs : r'.server.args = r.server.args ++ [arg.val]) :
    Alike (done ++ [.forwarded arg]) (markGroovyOption c arg) r' := by
  have hport : lastPort (done ++ [.forwarded arg]) = lastPort done := lastPort_append_of_none rfl
  refine ⟨?_, ?_, ?_, ?_⟩
  · rw [hargs, h.args]
    simp [Use.forwardedArg]
  · rw [hclient, hport, h.port]
  · rw [hport]
    exact h.scanned
  · rw [hclient]
    exact ⟨h.records.host, h.records.authtoken, h.records.quiet, h.records.envAll,
      h.records.includeMask, h.records.excludeMask, h.records.kill, h.records.restart⟩

theorem Alike.option (h : Alike done c r) {opt : OptionInfo} {name : CString}
    {value : Option CString} (htype : opt.type ≠ .port) (hserver : r'.server = r.server)
    (hport : r'.client.port = r.client.port) (hscanned : c'.port = c.port)
    (hrecords : SameRecords c' r'.client) :
    Alike (done ++ [.option opt name value]) c' r' := by
  have hlast : lastPort (done ++ [.option opt name value]) = lastPort done :=
    lastPort_append_of_none (if_neg htype)
  refine ⟨?_, ?_, ?_, hrecords⟩
  · rw [hserver, h.args]
    simp [Use.forwardedArg]
  · rw [hport, hlast, h.port]
  · rw [hscanned, hlast, h.scanned]

theorem sscanfInt_eq_some {s : Bytes} {port : ℤ} (h : sscanfInt s = some port) :
    port = atoi s := by
  unfold sscanfInt at h
  dsimp only at h
  split_ifs at h
  exact (Option.some.inj h).symm

theorem takeValue_iff : ∀ opt ∈ optionInfo, opt.takeValue = true ↔
    opt.type ∈ [OptionType.host, .port, .authtoken, .env, .envExclude] := by decide

theorem Alike.parseForwarded (h : Alike done c r) {arg : CString}
    (hproper : isClientOption arg = false) (hunderstood : Understood valid (.forwarded arg))
    (next : Option Bytes) :
    ∃ r', parseCase valid arg next r = .ok (false, r') ∧
      Alike (done ++ [.forwarded arg]) (markGroovyOption c arg) r' := by
  rw [parseCase_forwarded valid hproper]
  split_ifs with hhelp
  · exact ⟨_, rfl, h.forward arg rfl rfl⟩
  · have hforwards : Forwards valid arg := by
      rcases hunderstood with heq | heq | heq | hforwards
      · exact absurd (.inl heq) hhelp
      · exact absurd (.inr (.inl heq)) hhelp
      · exact absurd (.inr (.inr heq)) hhelp
      · exact hforwards
    rcases parseOther_of_forwards hforwards r with hother | hother
    · exact ⟨r.serverVersion.forward arg, by rw [hother]; rfl, h.forward arg rfl rfl⟩
    · exact ⟨r.forward arg, by rw [hother]; rfl, h.forward arg rfl rfl⟩

theorem parseForwarded_error {arg : CString} (hproper : isClientOption arg = false)
    (hnot : ¬ Understood valid (.forwarded arg)) (next : Option Bytes) :
    ∃ e, parseCase valid arg next r = .error e := by
  simp only [Understood, not_or] at hnot
  obtain ⟨hhelp, hhelp', hhelp'', hforwards⟩ := hnot
  obtain ⟨e, he⟩ := parseOther_of_not_forwards hforwards r
  refine ⟨e, ?_⟩
  rw [parseCase_forwarded valid hproper, if_neg (by simp [hhelp, hhelp', hhelp'']), he]
  rfl

theorem mem_append_singleton_of_ne {α : Type*} {a b : α} (hne : a ≠ b) (l : List α) :
    a ∈ l ++ [b] ↔ a ∈ l := by
  simp [hne]

theorem Alike.parsePort (h : Alike done c r) {opt : OptionInfo} {name value : CString}
    (htype : opt.type = .port) (hscan : switchOption c .port name (some value) = .ok c')
    (hvalid : valid value.val = true) (hnumber : numberLine value.val = true) (arg : Bytes) :
    ∃ r', caseOfType valid arg (some value.val) r .port = .ok (true, r') ∧
      Alike (done ++ [.option opt name (some value)]) c' r' := by
  have hlast : lastPort (done ++ [.option opt name (some value)]) = some value :=
    lastPort_append_of_some (if_pos htype)
  have hcase : caseOfType valid arg (some value.val) r .port =
      .ok (true, r.modifyClient fun c => { c with port := some value.val }) := by
    simp only [caseOfType, matchRegexp_of_valid hvalid, ok_bind, hnumber, if_true]
  cases hport : sscanfInt value with
  | none => rw [switchOption, hport] at hscan; cases hscan
  | some port =>
    rw [switchOption, hport] at hscan
    cases hscan
    refine ⟨_, hcase, ?_, ?_, ?_, { h.records with }⟩
    · simpa [Use.forwardedArg, RubyClient.Options.modifyClient] using h.args
    · rw [hlast]
      rfl
    · rw [hlast, sscanfInt_eq_some hport]
      rfl

theorem Alike.parseFlag (h : Alike done c r) {opt : OptionInfo} {name : CString}
    {type : OptionType} (htype : opt.type = type)
    (hscan : switchOption c type name none = .ok c') (arg : Bytes) (next : Option Bytes) :
    ∃ r', caseOfType valid arg next r type = .ok (false, r') ∧
      Alike (done ++ [.option opt name none]) c' r' := by
  have hrecords := h.records
  have hne : type ≠ .port → opt.type ≠ .port := fun hne heq => hne (htype ▸ heq)
  cases type with
  | killServer =>
    cases hscan
    exact ⟨_, rfl, h.option (hne (by decide)) rfl rfl rfl { hrecords with
      kill := by simp [RubyClient.Options.addServerOpt, RubyClient.Options.modifyClient]
      restart := (mem_append_singleton_of_ne (by decide) _).trans hrecords.restart }⟩
  | restartServer =>
    cases hscan
    exact ⟨_, rfl, h.option (hne (by decide)) rfl rfl rfl { hrecords with
      kill := (mem_append_singleton_of_ne (by decide) _).trans hrecords.kill
      restart := by simp [RubyClient.Options.addServerOpt, RubyClient.Options.modifyClient] }⟩
  | quiet =>
    cases hscan
    exact ⟨_, rfl, h.option (hne (by decide)) rfl rfl rfl { hrecords with
      quiet := rfl
      kill := (mem_append_singleton_of_ne (by decide) _).trans hrecords.kill
      restart := (mem_append_singleton_of_ne (by decide) _).trans hrecords.restart }⟩
  | envAll =>
    cases hscan
    exact ⟨_, rfl, h.option (hne (by decide)) rfl rfl rfl { hrecords with envAll := rfl }⟩
  | host => cases hscan
  | port => cases hscan
  | authtoken => cases hscan
  | env => cases hscan
  | envExclude => cases hscan
  | help => cases hscan
  | version => cases hscan

theorem Alike.parseValue (h : Alike done c r) {opt : OptionInfo} {name value : CString}
    {type : OptionType} (htype : opt.type = type)
    (htake : type ∈ [OptionType.host, .port, .authtoken, .env, .envExclude])
    (hscan : switchOption c type name (some value) = .ok c')
    (hport : type = .port → valid value.val = true ∧ numberLine value.val = true)
    (arg : Bytes) :
    ∃ r', caseOfType valid arg (some value.val) r type = .ok (true, r') ∧
      Alike (done ++ [.option opt name (some value)]) c' r' := by
  have hrecords := h.records
  have hne : type ≠ .port → opt.type ≠ .port := fun hne heq => hne (htype ▸ heq)
  simp only [List.mem_cons, List.not_mem_nil, or_false] at htake
  rcases htake with rfl | rfl | rfl | rfl | rfl
  · cases hscan
    exact ⟨_, rfl, h.option (hne (by decide)) rfl rfl rfl { hrecords with host := rfl }⟩
  · exact h.parsePort htype hscan (hport rfl).1 (hport rfl).2 arg
  · cases hscan
    exact ⟨_, rfl, h.option (hne (by decide)) rfl rfl rfl { hrecords with authtoken := rfl }⟩
  · obtain ⟨masks, hmasks, hscan⟩ := bind_eq_ok.mp hscan
    cases hscan
    exact ⟨_, rfl, h.option (hne (by decide)) rfl rfl rfl
      { hrecords with includeMask := hrecords.includeMask.setMaskOption hmasks }⟩
  · obtain ⟨masks, hmasks, hscan⟩ := bind_eq_ok.mp hscan
    cases hscan
    exact ⟨_, rfl, h.option (hne (by decide)) rfl rfl rfl
      { hrecords with excludeMask := hrecords.excludeMask.setMaskOption hmasks }⟩

theorem Alike.parseType (h : Alike done c r) {opt : OptionInfo} {name : CString}
    {value : Option CString} (hopt : opt ∈ optionInfo) (hvalue : value.isSome = opt.takeValue)
    (hscan : switchOption c opt.type name value = .ok c')
    (hport : opt.type = .port → ∀ port ∈ value, valid port.val = true ∧ numberLine port.val = true)
    (arg : Bytes) {next : Option Bytes} (hnext : ∀ v ∈ value, next = some v.val) :
    ∃ r', caseOfType valid arg next r opt.type = .ok (value.isSome, r') ∧
      Alike (done ++ [.option opt name value]) c' r' := by
  cases value with
  | none => exact h.parseFlag rfl hscan arg next
  | some value =>
    obtain rfl := hnext value rfl
    have htake := (takeValue_iff opt hopt).mp hvalue.symm
    exact h.parseValue rfl htake hscan (fun htype => hport htype value rfl) arg

theorem type_ne_help_of_scan {opt : OptionInfo} {name : CString} {value : Option CString}
    (hscan : switchOption c opt.type name value = .ok c') : opt.type ≠ .help := by
  intro h
  rw [h] at hscan
  cases value <;> cases hscan

/-- The Ruby client takes up a use as the C client does, when it understands it. -/
theorem Alike.parse (h : Alike done c r) {use : Use} (hproper : use.Proper)
    (hscan : use.scan c = .ok c') (hunderstood : Understood valid use) {next : Option Bytes}
    (hnext : ∀ v ∈ use.value, next = some v.val) :
    ∃ r', parseCase valid use.arg next r = .ok (use.value.isSome, r') ∧
      Alike (done ++ [use]) c' r' := by
  cases use with
  | forwarded arg =>
    cases hscan
    exact h.parseForwarded hproper hunderstood next
  | option opt name value =>
    obtain ⟨hopt, hname, hvalue⟩ := hproper
    have hcase := parseCase_option valid hopt (type_ne_help_of_scan hscan) hunderstood.1 next r
    rw [hname] at hcase
    rw [Use.arg, hcase]
    exact h.parseType hopt hvalue hscan hunderstood.2 _ hnext

theorem parse_error {use : Use} (hproper : use.Proper) (hscan : use.scan c = .ok c')
    (hnot : ¬ Understood valid use) {next : Option Bytes}
    (hnext : ∀ v ∈ use.value, next = some v.val) :
    ∃ e, parseCase valid use.arg next r = .error e := by
  cases use with
  | forwarded arg => exact parseForwarded_error hproper hnot next
  | option opt name value =>
    obtain ⟨hopt, hname, hvalue⟩ := hproper
    by_cases hs : opt.name = ascii "s"
    · rw [Use.arg, ← hname, hs]
      exact parseCase_s valid next r
    · have hcase := parseCase_option valid hopt (type_ne_help_of_scan hscan) hs next r
      rw [hname] at hcase
      rw [Use.arg, hcase]
      simp only [Understood, not_and, not_forall] at hnot
      obtain ⟨htype, port, hport, hnot⟩ := hnot hs
      obtain rfl := hnext port hport
      rw [htype, caseOfType]
      cases hvalid : valid port.val with
      | false =>
        rw [matchRegexp_of_invalid hvalid]
        exact ⟨_, rfl⟩
      | true =>
        have hnumber := Bool.eq_false_iff.mpr (hnot hvalid)
        rw [matchRegexp_of_valid hvalid, ok_bind, hnumber]
        exact ⟨_, rfl⟩

theorem parseLoop_cons (valid : Bytes → Bool) (fuel : ℕ) (before : List Bytes) (arg : Bytes)
    (args : List Bytes) (r : RubyClient.Options) :
    parseLoop valid (fuel + 1) (before ++ arg :: args) before.length r =
      parseCase valid arg args.head? r >>= fun p =>
        parseLoop valid fuel ((before ++ [arg]) ++ if p.1 then args.tail else args)
          (before ++ [arg]).length p.2 := by
  have herase : (before ++ arg :: args).eraseIdx (before.length + 1) =
      (before ++ [arg]) ++ args.tail := by
    rw [List.eraseIdx_append_of_length_le (Nat.le_add_right _ 1), Nat.add_sub_cancel_left,
      List.eraseIdx_cons_succ, List.eraseIdx_zero, List.append_cons]
  rw [parseLoop, getElem?_length_append, List.head?_cons]
  dsimp only
  rw [getElem?_length_append_succ, herase, List.length_append, List.length_singleton]
  congr 1
  funext p
  split_ifs <;> simp

/-- The Ruby client's loop follows the uses of the arguments that the C client has
scanned, as far as it understands them. -/
theorem parseLoop_uses {args : List CString} {us : List Use} (huses : uses args = some us)
    {fuel : ℕ} (hfuel : args.length ≤ fuel) (before : List Bytes) (h : Alike done c r)
    (hscan : us.foldlM Use.scan c = .ok c') :
    ((∀ use ∈ us, Understood valid use) → ∃ r',
        parseLoop valid fuel (before ++ args.map Subtype.val) before.length r = .ok r' ∧
          Alike (done ++ us) c' r') ∧
      ((∃ use ∈ us, ¬ Understood valid use) → ∃ e,
        parseLoop valid fuel (before ++ args.map Subtype.val) before.length r = .error e) := by
  induction fuel generalizing args us done c r before with
  | zero =>
    obtain rfl : args = [] := List.length_eq_zero_iff.mp (Nat.le_zero.mp hfuel)
    cases huses
    cases hscan
    exact ⟨fun _ => ⟨r, rfl, by rwa [List.append_nil]⟩, by simp⟩
  | succ fuel ih =>
    cases args with
    | nil =>
      cases huses
      cases hscan
      refine ⟨fun _ => ⟨r, ?_, by rwa [List.append_nil]⟩, by simp⟩
      rw [parseLoop, getElem?_length_append]
      rfl
    | cons arg args =>
      obtain ⟨use, us, rest, rfl, hrest, hproper, harg, rfl⟩ := uses_cons huses
      rw [List.foldlM_cons] at hscan
      obtain ⟨next, hnext, hscan⟩ := bind_eq_ok.mp hscan
      have hvalue : ∀ v ∈ use.value,
          ((use.value.toList ++ rest).map Subtype.val).head? = some v.val := by
        rintro v hv
        rw [Option.mem_def] at hv
        rw [hv]
        rfl
      have hrest' : (if use.value.isSome = true
          then ((use.value.toList ++ rest).map Subtype.val).tail
          else (use.value.toList ++ rest).map Subtype.val) = rest.map Subtype.val := by
        cases use.value <;> rfl
      have hlen : rest.length ≤ fuel := by
        rw [List.length_cons, List.length_append] at hfuel
        omega
      rw [List.map_cons, parseLoop_cons, ← harg]
      by_cases hunderstood : Understood valid use
      · obtain ⟨r', hparse, h'⟩ := h.parse hproper hnext hunderstood hvalue
        obtain ⟨hall, hsome⟩ := ih hrest hlen (before ++ [use.arg]) h' hscan
        rw [hparse, ok_bind, hrest', List.append_cons done]
        refine ⟨fun hus => hall (List.forall_mem_cons.mp hus).2, fun ⟨bad, hbad, hnot⟩ => ?_⟩
        rcases List.mem_cons.mp hbad with rfl | hbad
        · exact absurd hunderstood hnot
        · exact hsome ⟨bad, hbad, hnot⟩
      · obtain ⟨e, he⟩ := parse_error (r := r) hproper hnext hunderstood hvalue
        rw [he, error_bind]
        exact ⟨fun hus => absurd (List.forall_mem_cons.mp hus).1 hunderstood, fun _ => ⟨e, rfl⟩⟩

end Alike

def IsNumeral (s : Bytes) : Prop := s ≠ [] ∧ ∀ b ∈ s, isDigit b = true

theorem strtol_numeral {s : Bytes} (h : IsNumeral s) : strtol s = saturateLong (digitsValue s) := by
  obtain ⟨hne, hdigits⟩ := h
  have htake : s.takeWhile isDigit = s := List.takeWhile_eq_self_iff.mpr hdigits
  obtain ⟨d, t, rfl⟩ := List.exists_cons_of_ne_nil hne
  have hrange : 48 ≤ d.toNat ∧ d.toNat ≤ 57 := by
    simpa [isDigit] using hdigits d List.mem_cons_self
  have hspace : isspace d = false := by
    simp only [isspace, decide_eq_false_iff_not]
    omega
  have h45 : d ≠ 45 := by rintro rfl; exact absurd hrange.1 (by decide)
  have h43 : d ≠ 43 := by rintro rfl; exact absurd hrange.1 (by decide)
  rw [strtol, List.dropWhile_cons, hspace]
  split
  · rename_i heq
    exact absurd (List.cons.inj heq).1 h45
  · rename_i heq
    exact absurd (List.cons.inj heq).1 h43
  · rw [if_neg Bool.false_ne_true, htake]

theorem atoi_numeral_iff {s : Bytes} (h : IsNumeral s) :
    (digitsValue s : ℤ) = atoi s ↔ digitsValue s < 2 ^ 31 := by
  rw [atoi, strtol_numeral h]
  constructor
  · intro heq
    have hlt := wrap32_lt (saturateLong (digitsValue s))
    omega
  · intro hlt
    rw [saturateLong_of_mem _ (by omega) (by omega), wrap32_of_mem _ (by omega) (by omega)]

/-- Neither client has a port, or the text that the Ruby client has is a numeral for
the C client's. -/
def SamePort (c : ℤ) (r : Option Bytes) : Prop :=
  (c = portNotSpecified ∧ r = none) ∨
    ∃ port, r = some port ∧ IsNumeral port ∧ (digitsValue port : ℤ) = c

structure Agrees (argv : List (Option CString)) (c : OptionT) (r : RubyClient.Options) : Prop where
  args : r.server.args = argv.reduceOption.map Subtype.val
  host : r.client.host = c.host.map fun host => some host.val
  port : SamePort c.port r.client.port
  authtoken : r.client.authtoken = c.authtoken.map Subtype.val
  quiet : r.client.quiet = c.quiet
  envAll : r.client.envAll = c.envAll
  includeMask : r.client.envIncludeMask = c.envIncludeMask.val.reduceOption.map Subtype.val
  excludeMask : r.client.envExcludeMask = c.envExcludeMask.val.reduceOption.map Subtype.val
  kill : ascii "-k" ∈ r.client.groovyserverOpt ↔ c.kill = true
  restart : ascii "-r" ∈ r.client.groovyserverOpt ↔ c.restart = true

/-- The Ruby client understands every use, and the port is a numeral that fits. -/
structure SameReading (valid : Bytes → Bool) (us : List Use) : Prop where
  understood : ∀ use ∈ us, Understood valid use
  port : ∀ port ∈ lastPort us, IsNumeral port.val ∧ digitsValue port.val < 2 ^ 31

theorem Holds.eq {envMask : Masks} {masks : List Bytes} (h : Holds envMask masks) :
    masks = envMask.val.reduceOption.map Subtype.val := by
  obtain ⟨values, rfl, hslots⟩ := h
  rw [hslots, List.reduceOption_append]
  have hsome : (values.map some).reduceOption = values := by simp [List.reduceOption]
  have hnone : ∀ n, (List.replicate n (none : Option CString)).reduceOption = [] := by
    simp [List.reduceOption]
  rw [hsome, hnone, List.append_nil]

theorem Alike.samePort_iff {us : List Use} {c : OptionT} {r : RubyClient.Options}
    (h : Alike us c r) : SamePort c.port r.client.port ↔
      ∀ port ∈ lastPort us, IsNumeral port.val ∧ digitsValue port.val < 2 ^ 31 := by
  rw [SamePort, h.port, h.scanned]
  cases lastPort us with
  | none => simp
  | some port =>
    simp only [Option.map_some, Option.getD_some, Option.some.injEq, reduceCtorEq, and_false,
      false_or, Option.mem_some_iff, forall_eq', exists_eq_left']
    exact and_congr_right fun hnumeral => atoi_numeral_iff hnumeral

theorem Alike.agrees_iff {us : List Use} {c : OptionT} {r : RubyClient.Options}
    (h : Alike us c r) {r' : RubyClient.Options} (hclient : r'.client = r.client)
    (hargs : r'.server.args = r.server.args) :
    Agrees (us.flatMap Use.slots) c r' ↔ SamePort c.port r.client.port := by
  refine ⟨fun hagrees => hclient ▸ hagrees.port, fun hport => ?_⟩
  have hrecords := h.records
  refine ⟨?_, ?_, hclient.symm ▸ hport, ?_, ?_, ?_, ?_, ?_, ?_, ?_⟩
  · rw [hargs, h.args, slots_forwarded]
  all_goals rw [hclient]
  · exact hrecords.host
  · exact hrecords.authtoken
  · exact hrecords.quiet
  · exact hrecords.envAll
  · exact hrecords.includeMask.eq
  · exact hrecords.excludeMask.eq
  · exact hrecords.kill
  · exact hrecords.restart

/-- What the C client scans, the Ruby client reads alike exactly when it understands
every use of an argument and the port is a numeral of an `int`. -/
theorem parseOption_agrees_iff (valid : Bytes → Bool) {program : CString} {args : List CString}
    {argv : List (Option CString)} {c : OptionT}
    (h : scanOptions clientOption (program :: args) = .ok (argv, c)) :
    (∃ r, parseOption valid (args.map Subtype.val) = .ok r ∧ Agrees argv.tail c r) ↔
      ∃ us, uses args = some us ∧ SameReading valid us := by
  obtain ⟨us, hus, rfl, hfold⟩ := scanOptions_ok h
  obtain ⟨c₀, hstart, hscan⟩ : ∃ c₀, Alike [] c₀ {} ∧ us.foldlM Use.scan c₀ = .ok c := by
    rcases hfold with hfold | ⟨rfl, rfl⟩
    · exact ⟨_, alike_start clientOption (.inl rfl), hfold⟩
    · exact ⟨_, alike_start _ (.inr rfl), rfl⟩
  have hfuel : args.length ≤ (args.map Subtype.val).length := by rw [List.length_map]
  obtain ⟨hall, hsome⟩ := parseLoop_uses hus hfuel [] hstart hscan
  by_cases hunderstood : ∀ use ∈ us, Understood valid use
  · obtain ⟨r, hloop, halike⟩ := hall hunderstood
    have hparse : parseOption valid (args.map Subtype.val) =
        .ok (if r.server.args = [] then r.serverHelp else r) :=
      bind_eq_ok.mpr ⟨r, hloop, rfl⟩
    have hagrees : Agrees (us.flatMap Use.slots) c
        (if r.server.args = [] then r.serverHelp else r) ↔ SamePort c.port r.client.port :=
      halike.agrees_iff (by split_ifs <;> rfl) (by split_ifs <;> rfl)
    rw [halike.samePort_iff] at hagrees
    constructor
    · rintro ⟨r', hr', hr''⟩
      rw [hparse, Except.ok.injEq] at hr'
      subst hr'
      exact ⟨us, hus, hunderstood, hagrees.mp hr''⟩
    · rintro ⟨us', hus', hsame⟩
      obtain rfl : us = us' := Option.some.inj (hus.symm.trans hus')
      exact ⟨_, hparse, hagrees.mpr hsame.port⟩
  · refine iff_of_false ?_ ?_
    · rintro ⟨r, hr, -⟩
      simp only [not_forall] at hunderstood
      obtain ⟨use, hmem, hnot⟩ := hunderstood
      obtain ⟨e, he⟩ := hsome ⟨use, hmem, hnot⟩
      obtain ⟨r', hr', -⟩ := bind_eq_ok.mp hr
      exact nomatch hr'.symm.trans he
    · rintro ⟨us', hus', hsame⟩
      obtain rfl : us = us' := Option.some.inj (hus.symm.trans hus')
      exact hunderstood hsame.understood

def sampleArgs : List CString :=
  [⟨ascii "-Chost", by decide +kernel⟩, ⟨ascii "localhost", by decide +kernel⟩,
    ⟨ascii "-Cp", by decide +kernel⟩, ⟨ascii "1961", by decide +kernel⟩,
    ⟨ascii "-v", by decide +kernel⟩]

theorem parseOption_agrees_iff_sample : ∃ argv c,
    scanOptions clientOption (⟨ascii "bin/groovyclient", by decide +kernel⟩ :: sampleArgs) =
      .ok (argv, c) ∧
    ((∃ r, parseOption (fun _ => true) (sampleArgs.map Subtype.val) = .ok r ∧
        Agrees argv.tail c r) ↔
      ∃ us, uses sampleArgs = some us ∧ SameReading (fun _ => true) us) :=
  ⟨_, _, rfl, parseOption_agrees_iff _ rfl⟩

def shortHostArgs : List CString :=
  [⟨ascii "-Cs", by decide +kernel⟩, ⟨ascii "localhost", by decide +kernel⟩]

theorem not_agrees_shortHost : ∃ argv c,
    scanOptions clientOption (⟨ascii "bin/groovyclient", by decide +kernel⟩ :: shortHostArgs) =
      .ok (argv, c) ∧
    parseOption (fun _ => true) (shortHostArgs.map Subtype.val) =
      .error (.runtime (ascii "Unknown option -Cs")) :=
  ⟨_, _, rfl, rfl⟩

end GroovyServ
