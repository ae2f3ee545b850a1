import GroovyServ.SendHeader

/-!
# The options of the C client

`scanOptions` follows `scan_options`: it takes the client's own options out of the
argument array, leaving `NULL` in their place, and records them. What the client
prints on standard output before it exits is left out. `uses` divides an argument
list into the arguments that are forwarded and the options with their values.
-/

namespace GroovyServ.Client

open CLib

inductive OptionType where
  | host
  | port
  | authtoken
  | killServer
  | restartServer
  | quiet
  | env
  | envAll
  | envExclude
  | help
  | version
  deriving DecidableEq

structure OptionInfo where
  name : Bytes
  type : OptionType
  takeValue : Bool
  deriving DecidableEq

def optionInfo : List OptionInfo := [
  ⟨ascii "s", .host, true⟩,
  ⟨ascii "host", .host, true⟩,
  ⟨ascii "p", .port, true⟩,
  ⟨ascii "port", .port, true⟩,
  ⟨ascii "a", .authtoken, true⟩,
  ⟨ascii "authtoken", .authtoken, true⟩,
  ⟨ascii "k", .killServer, false⟩,
  ⟨ascii "kill-server", .killServer, false⟩,
  ⟨ascii "r", .restartServer, false⟩,
  ⟨ascii "restart-server", .restartServer, false⟩,
  ⟨ascii "env", .env, true⟩,
  ⟨ascii "env-all", .envAll, false⟩,
  ⟨ascii "env-exclude", .envExclude, true⟩,
  ⟨ascii "q", .quiet, false⟩,
  ⟨ascii "quiet", .quiet, false⟩,
  ⟨ascii "help", .help, false⟩,
  ⟨ascii "h", .help, false⟩,
  ⟨ascii "", .help, false⟩,
  ⟨ascii "version", .version, false⟩,
  ⟨ascii "v", .version, false⟩]

def portNotSpecified : ℤ := -1

def clientOptionPrefix : Bytes := ascii "-C"

structure OptionT extends ClientOption where
  host : Option CString
  port : ℤ
  authtoken : Option CString
  kill : Bool
  restart : Bool
  quiet : Bool
  help : Bool
  version : Bool

def noMasks : Masks := ⟨List.replicate maxMask none, List.length_replicate⟩

def clientOption : OptionT where
  host := none
  port := portNotSpecified
  authtoken := none
  kill := false
  restart := false
  quiet := false
  envAll := false
  envIncludeMask := noMasks
  envExcludeMask := noMasks
  help := false
  version := false

def isClientOption (s : Bytes) : Bool := clientOptionPrefix.isPrefixOf s

def isGroovyHelpOption (s : Bytes) : Bool :=
  (ascii "-h").isPrefixOf s || decide (s = ascii "--help")

def isGroovyVersionOption (s : Bytes) : Bool :=
  (ascii "-v").isPrefixOf s || decide (s = ascii "--version")

def setMaskOption (envMask : Masks) (opt value : CString) : CResult Masks :=
  match envMask.val.idxOf? none with
  | none =>
    .error (.exit 1
      (ascii "ERROR: too many options: " ++ (opt ++ (ascii " " ++ (value ++ [lf])))))
  | some p => .ok ⟨envMask.val.set p (some value), (List.length_set).trans envMask.property⟩

def whatOption (name : Bytes) : Option OptionInfo := optionInfo.find? fun info => info.name = name

/-- `sscanf` with `%d`, which converts the number as `strtol` does. -/
def sscanfInt (s : Bytes) : Option ℤ :=
  let digits := match s.dropWhile isspace with
    | 45 :: rest => rest
    | 43 :: rest => rest
    | rest => rest
  if digits.takeWhile isDigit = [] then none else some (atoi s)

/-- The `switch` of `scan_options`. A value is passed to an option that takes one,
so that a missing value is a failed assertion. -/
def switchOption (option : OptionT) (type : OptionType) (name : CString)
    (value : Option CString) : CResult OptionT :=
  match type, value with
  | .host, some value => .ok { option with host := some value }
  | .port, some value =>
    match sscanfInt value with
    | some port => .ok { option with port := port }
    | none =>
      .error (.exit 1 (ascii "ERROR: could not parse port number: " ++ (value ++ [lf])))
  | .authtoken, some value => .ok { option with authtoken := some value }
  | .env, some value => do
    let mask ← setMaskOption option.envIncludeMask name value
    .ok { option with envIncludeMask := mask }
  | .envExclude, some value => do
    let mask ← setMaskOption option.envExcludeMask name value
    .ok { option with envExcludeMask := mask }
  | .killServer, _ => .ok { option with kill := true }
  | .restartServer, _ => .ok { option with restart := true }
  | .quiet, _ => .ok { option with quiet := true }
  | .envAll, _ => .ok { option with envAll := true }
  | .help, _ => .error (.exit 0 [])
  | .version, _ => .error (.exit 0 [])
  | _, none => .error .aborted

theorem notMem_drop {s : Bytes} (hs : (0 : UInt8) ∉ s) (n : ℕ) : (0 : UInt8) ∉ s.drop n :=
  fun h => hs (List.mem_of_mem_drop h)

def optionName (arg : CString) : CString :=
  ⟨arg.val.drop clientOptionPrefix.length, notMem_drop arg.property _⟩

def markGroovyOption (option : OptionT) (arg : Bytes) : OptionT :=
  { option with
    help := option.help || isGroovyHelpOption arg
    version := option.version || isGroovyVersionOption arg }

def scanLoop : ℕ → List (Option CString) → ℕ → OptionT →
    CResult (List (Option CString) × OptionT)
  | 0, _, _, _ => .error .diverges
  | fuel + 1, argv, i, option =>
    match argv[i]? with
    | none => .ok (argv, option)
    | some none => .error .undefined
    | some (some arg) =>
      let option := markGroovyOption option arg
      if isClientOption arg then
        let name := optionName arg
        match whatOption name with
        | none =>
          .error (.exit 1 (ascii "ERROR: unrecognized option " ++ (arg ++ [lf])))
        | some opt =>
          if opt.takeValue then
            if argv.length - 1 ≤ i then
              .error (.exit 1 (ascii "ERROR: option " ++ (arg ++ ascii " requires param\n")))
            else do
              let option ← switchOption option opt.type name (argv[i + 1]?).join
              scanLoop fuel ((argv.set i none).set (i + 1) none) (i + 2) option
          else do
            let option ← switchOption option opt.type name none
            scanLoop fuel (argv.set i none) (i + 1) option
      else scanLoop fuel argv (i + 1) option

def checkOptions (option : OptionT) : CResult Unit :=
  if option.kill ∧ option.restart then
    .error (.exit 1 (ascii
      "ERROR: cannot specify both of -Ckill-server and -Crestart-server options\n"))
  else if option.host.isSome then
    if option.restart then
      .error (.exit 1 (ascii
        "ERROR: cannot specify -Crestart-server with explicitly specified host\n"))
    else if option.kill then
      .error (.exit 1 (ascii
        "ERROR: cannot specify -Ckill-server with explicitly specified host\n"))
    else .ok ()
  else .ok ()

/-- `scan_options` and the arguments that it leaves. The loop visits an argument
at most once, so their number is fuel enough. -/
def scanOptions (option : OptionT) (argv : List CString) :
    CResult (List (Option CString) × OptionT) :=
  if argv.length ≤ 1 then .ok (argv.map some, { option with help := true })
  else do
    let (argv, option) ← scanLoop argv.length (argv.map some) 1 option
    checkOptions option
    .ok (argv, option)

/-- What an argument is to the client, or an argument with the next one. -/
inductive Use where
  | forwarded (arg : CString)
  | option (opt : OptionInfo) (name : CString) (value : Option CString)

def uses : List CString → Option (List Use)
  | [] => some []
  | arg :: args =>
    if isClientOption arg then
      match whatOption (optionName arg) with
      | none => none
      | some opt =>
        if opt.takeValue then
          match args with
          | [] => none
          | value :: args => (uses args).map (.option opt (optionName arg) (some value) :: ·)
        else (uses args).map (.option opt (optionName arg) none :: ·)
    else (uses args).map (.forwarded arg :: ·)

def Use.slots : Use → List (Option CString)
  | .forwarded arg => [some arg]
  | .option _ _ none => [none]
  | .option _ _ (some _) => [none, none]

def Use.scan (option : OptionT) : Use → CResult OptionT
  | .forwarded arg => .ok (markGroovyOption option arg)
  | .option opt name value => switchOption option opt.type name value

theorem isClientOption_iff {arg : Bytes} :
    isClientOption arg = true ↔ ∃ name, arg = clientOptionPrefix ++ name := by
  rw [isClientOption, List.isPrefixOf_iff_prefix]
  exact ⟨fun ⟨name, h⟩ => ⟨name, h.symm⟩, fun ⟨name, h⟩ => ⟨name, h.symm⟩⟩

theorem markGroovyOption_of_client (option : OptionT) {arg : Bytes}
    (h : isClientOption arg = true) : markGroovyOption option arg = option := by
  obtain ⟨name, rfl⟩ := isClientOption_iff.mp h
  have hhelp : isGroovyHelpOption (clientOptionPrefix ++ name) = false := rfl
  have hversion : isGroovyVersionOption (clientOptionPrefix ++ name) = false := rfl
  rw [markGroovyOption, hhelp, hversion, Bool.or_false, Bool.or_false]

section ScanLoop

variable {fuel : ℕ} {done : List (Option CString)} {arg : CString} {args : List CString}
  {option option' : OptionT} {argv : List (Option CString)}

theorem getElem?_length_append {α : Type*} (l l' : List α) :
    (l ++ l')[l.length]? = l'.head? := by
  rw [List.getElem?_append_right le_rfl, Nat.sub_self, List.head?_eq_getElem?]

theorem set_length_append {α : Type*} (l : List α) (a b : α) (l' : List α) :
    (l ++ a :: l').set l.length b = l ++ b :: l' := by
  rw [List.set_append_right _ _ le_rfl, Nat.sub_self, List.set_cons_zero]

theorem getElem?_length_append_succ {α : Type*} (l : List α) (a : α) (l' : List α) :
    (l ++ a :: l')[l.length + 1]? = l'.head? := by
  rw [List.getElem?_append_right (Nat.le_add_right _ 1), Nat.add_sub_cancel_left,
    List.getElem?_cons_succ, List.head?_eq_getElem?]

theorem set_length_append_succ {α : Type*} (l : List α) (a b c : α) (l' : List α) :
    (l ++ a :: b :: l').set (l.length + 1) c = l ++ a :: c :: l' := by
  rw [List.set_append_right _ _ (Nat.le_add_right _ 1), Nat.add_sub_cancel_left,
    List.set_cons_succ, List.set_cons_zero]

theorem slots_append (done slots : List (Option CString)) (rest : List CString) :
    done ++ (slots ++ rest.map some) = (done ++ slots) ++ rest.map some ∧
      done.length + slots.length = (done ++ slots).length :=
  ⟨(List.append_assoc _ _ _).symm, List.length_append.symm⟩

theorem scanLoop_cons (h : scanLoop (fuel + 1) (done ++ (arg :: args).map some) done.length
      option = .ok (argv, option')) :
    ∃ use rest, uses (arg :: args) = (uses rest).map (use :: ·) ∧
      ∃ next, use.scan option = .ok next ∧
        scanLoop fuel ((done ++ use.slots) ++ rest.map some) (done ++ use.slots).length next =
          .ok (argv, option') := by
  rw [scanLoop, getElem?_length_append] at h
  rw [uses]
  by_cases hclient : isClientOption arg = true
  · simp only [List.map_cons, List.head?_cons, hclient, if_true,
      markGroovyOption_of_client option hclient, set_length_append] at h ⊢
    cases hopt : whatOption (optionName arg) with
    | none => rw [hopt] at h; cases h
    | some opt =>
      rw [hopt] at h
      cases htake : opt.takeValue with
      | false =>
        simp only [htake, Bool.false_eq_true, if_false] at h ⊢
        obtain ⟨next, hnext, h⟩ := bind_eq_ok.mp h
        obtain ⟨hslots, hlen⟩ := slots_append done [none] args
        exact ⟨.option opt (optionName arg) none, args, rfl, next, hnext, by
          rwa [Use.slots, ← hslots, ← hlen]⟩
      | true =>
        simp only [htake, if_true] at h ⊢
        cases args with
        | nil =>
          have hlast : (done ++ some arg :: ([] : List CString).map some).length - 1 ≤
              done.length := by simp
          rw [if_pos hlast] at h
          cases h
        | cons value rest =>
          have hmore : ¬ (done ++ some arg :: (value :: rest).map some).length - 1 ≤
              done.length := by simp
          rw [if_neg hmore, getElem?_length_append_succ, List.map_cons,
            set_length_append_succ] at h
          obtain ⟨next, hnext, h⟩ := bind_eq_ok.mp h
          obtain ⟨hslots, hlen⟩ := slots_append done [none, none] rest
          exact ⟨.option opt (optionName arg) (some value), rest, rfl, next, hnext, by
            rwa [Use.slots, ← hslots, ← hlen]⟩
  · simp only [List.map_cons, List.head?_cons, hclient] at h ⊢
    obtain ⟨hslots, hlen⟩ := slots_append done [some arg] args
    exact ⟨.forwarded arg, args, rfl, _, rfl, by rwa [Use.slots, ← hslots, ← hlen]⟩

/-- A loop that returns has divided the arguments, and taken up their uses in order. -/
theorem scanLoop_ok (h : scanLoop fuel (done ++ args.map some) done.length option =
      .ok (argv, option')) :
    ∃ us, uses args = some us ∧ argv = done ++ us.flatMap Use.slots ∧
      us.foldlM Use.scan option = .ok option' := by
  induction fuel generalizing done args option with
  | zero => cases h
  | succ fuel ih =>
    cases args with
    | nil =>
      rw [scanLoop, getElem?_length_append] at h
      cases h
      exact ⟨[], rfl, rfl, rfl⟩
    | cons arg args =>
      obtain ⟨use, rest, huses, next, hnext, h⟩ := scanLoop_cons h
      obtain ⟨us, hus, hargv, hfold⟩ := ih h
      refine ⟨use :: us, by rw [huses, hus]; rfl, ?_, ?_⟩
      · rw [hargv, List.flatMap_cons, List.append_assoc]
      · rw [List.foldlM_cons, hnext, ok_bind, hfold]

end ScanLoop

theorem scanOptions_ok {option option' : OptionT} {program : CString} {args : List CString}
    {argv : List (Option CString)}
    (h : scanOptions option (program :: args) = .ok (argv, option')) :
    ∃ us, uses args = some us ∧ argv = some program :: us.flatMap Use.slots ∧
      (us.foldlM Use.scan option = .ok option' ∨
        us = [] ∧ option' = { option with help := true }) := by
  rw [scanOptions] at h
  split_ifs at h with hlen
  · obtain rfl : args = [] :=
      List.length_eq_zero_iff.mp (Nat.le_zero.mp (Nat.le_of_succ_le_succ hlen))
    cases h
    exact ⟨[], rfl, rfl, .inr ⟨rfl, rfl⟩⟩
  · obtain ⟨⟨argv', next⟩, hloop, h⟩ := bind_eq_ok.mp h
    obtain ⟨u, -, h⟩ := bind_eq_ok.mp h
    cases h
    have hloop' : scanLoop (program :: args).length ([some program] ++ args.map some)
        [some program].length option = .ok (argv, option') := hloop
    obtain ⟨us, hus, hargv, hfold⟩ := scanLoop_ok hloop'
    exact ⟨us, hus, hargv, .inl hfold⟩

end GroovyServ.Client
