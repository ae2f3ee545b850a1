import GroovyServ.LocalServer

/-!
# The port that the C client uses

`scan_options` keeps the number that `sscanf` reads at the front of the last port text,
cut to an `int`, and `get_port` takes it for the port unless it is the value that stands
for no port. The connection takes 16 bits of it, while the name of the token file and the
server's command show all of it.
-/

namespace GroovyServ

open Client CLib

section LastPort

variable {us : List Use} {c c' : OptionT}

theorem switchOption_port {type : OptionType} {name : CString} {value : Option CString}
    (h : switchOption c type name value = .ok c') :
    c'.port =
      if type = .port then (value.map fun port => atoi port.val).getD c.port else c.port := by
  cases type with
  | port =>
    cases value with
    | none => cases h
    | some v =>
      rw [switchOption] at h
      cases hport : sscanfInt v with
      | none => rw [hport] at h; cases h
      | some port =>
        rw [hport] at h
        cases h
        exact sscanfInt_eq_some hport
  | host | authtoken =>
    cases value with
    | none => cases h
    | some v => cases h; rfl
  | env | envExclude =>
    cases value with
    | none => cases h
    | some v =>
      obtain ⟨masks, -, h⟩ := bind_eq_ok.mp h
      cases h
      rfl
  | killServer | restartServer | quiet | envAll => cases value <;> cases h <;> rfl
  | help | version => cases value <;> cases h

theorem scanned_port {done : List Use}
    (hdone : c.port = ((lastPort done).map fun port => atoi port.val).getD portNotSpecified)
    (hfold : us.foldlM Use.scan c = .ok c') :
    c'.port = ((lastPort (done ++ us)).map fun port => atoi port.val).getD portNotSpecified := by
  induction us generalizing done c with
  | nil =>
    cases hfold
    rwa [List.append_nil]
  | cons use us ih =>
    rw [List.foldlM_cons] at hfold
    obtain ⟨next, hnext, hrest⟩ := bind_eq_ok.mp hfold
    rw [List.append_cons]
    refine ih ?_ hrest
    cases use with
    | forwarded arg =>
      cases hnext
      rw [lastPort_append_of_none rfl]
      exact hdone
    | option opt name value =>
      rw [switchOption_port hnext]
      by_cases htype : opt.type = .port
      · cases value with
        | none =>
          have hnone : (Use.option opt name none).port = none := if_pos htype
          rw [if_pos htype, lastPort_append_of_none hnone]
          exact hdone
        | some v =>
          have hsome : (Use.option opt name (some v)).port = some v := if_pos htype
          rw [if_pos htype, lastPort_append_of_some hsome]
          rfl
      · have hnone : (Use.option opt name value).port = none := if_neg htype
        rw [if_neg htype, lastPort_append_of_none hnone]
        exact hdone

theorem scanOptions_port {program : CString} {args : List CString}
    {argv : List (Option CString)} {option : OptionT} (huses : uses args = some us)
    (hscan : scanOptions clientOption (program :: args) = .ok (argv, option)) {port : CString}
    (hport : lastPort us = some port) : option.port = atoi port.val := by
  obtain ⟨us', hus', -, hfold⟩ := scanOptions_ok hscan
  obtain rfl : us = us' := Option.some.inj (huses.symm.trans hus')
  rcases hfold with hfold | ⟨rfl, -⟩
  · have hstart : clientOption.port =
        ((lastPort []).map fun port => atoi port.val).getD portNotSpecified := rfl
    have hlast := scanned_port hstart hfold
    rw [List.nil_append, hport] at hlast
    exact hlast
  · cases hport

end LastPort

theorem getPort_ignores_iff (option : OptionT) :
    (∀ environ, getPort option environ = .ok option.port) ↔ option.port ≠ portNotSpecified := by
  refine ⟨fun h hport => ?_, fun hport environ => if_pos hport⟩
  have hdefault : getPort option [] = .ok serverPort := if_neg (not_not.mpr hport)
  have hsame := Except.ok.inj (hdefault.symm.trans (h []))
  rw [hport] at hsame
  cases hsame

/-- The event is for the port of this number: the address, the name of the token file, or the
argument of `-p`. -/
def Client.ClientEvent.UsesPort (n : ℕ) : ClientEvent → Prop
  | .system command => ∃ basedirPath arg, command = serverCommand basedirPath n arg
  | .connect _ port => port = n
  | .fopen path => ∃ home, path = home ++ (ascii "/.groovy/groovyserv/authtoken-" ++ decimal n)
  | .session _ => True

/-- The port text is the numeral of a port, which `get_port` gives in every environment and
which a run uses everywhere. -/
def PortAgrees (scriptPath : CString) (args : List CString) (option : OptionT) (port : Bytes) :
    Prop :=
  ∃ n : ℕ, n ≤ 65535 ∧ IsNumeral port ∧ digitsValue port = n ∧
    (∀ environ, getPort option environ = .ok (n : ℤ)) ∧
    ∀ w, ∀ event ∈ eventsOf (main w scriptPath args), event.UsesPort n

theorem decimalInt_natCast (n : ℕ) : decimalInt n = decimal n := by
  rw [decimalInt, if_neg (Int.natCast_nonneg n).not_gt, Int.natAbs_natCast]

theorem usesPort_of_for {host : Bytes} {n : ℕ} (hn : n ≤ 65535) {event : ClientEvent}
    (h : ClientEvent.For host n event) : event.UsesPort n := by
  cases h with
  | system basedirPath arg => exact ⟨basedirPath, arg, rfl⟩
  | connect =>
    change ((n : ℤ) % 2 ^ 16).toNat = n
    omega
  | @fopen environ path hpath =>
    rw [authtokenPath] at hpath
    cases hhome : getenv environ (ascii "HOME") with
    | none => rw [hhome] at hpath; cases hpath
    | some home =>
      rw [hhome] at hpath
      dsimp only at hpath
      split_ifs at hpath with hlength
      cases hpath
      exact ⟨home, by rw [decimalInt_natCast]⟩
  | session authtoken => trivial

/-- The last port text is used as one port throughout exactly if it is a numeral of at most
16 bits. -/
theorem portAgrees_iff {scriptPath : CString} {args : List CString} {us : List Use}
    {argv : List (Option CString)} {option : OptionT} {port : CString}
    (huses : uses args = some us) (hport : lastPort us = some port)
    (hscan : scanOptions clientOption (scriptPath :: args) = .ok (argv, option)) :
    PortAgrees scriptPath args option port.val ↔
      IsNumeral port.val ∧ digitsValue port.val ≤ 65535 := by
  constructor
  · rintro ⟨n, hn, hnumeral, rfl, -⟩
    exact ⟨hnumeral, hn⟩
  · rintro ⟨hnumeral, hle⟩
    have hvalue : option.port = digitsValue port.val := by
      rw [scanOptions_port huses hscan hport, ← (atoi_numeral_iff hnumeral).mpr (by omega)]
    have hspecified : option.port ≠ portNotSpecified := by
      rw [hvalue, portNotSpecified]
      omega
    have hget : ∀ environ, getPort option environ = .ok (digitsValue port.val : ℤ) :=
      hvalue ▸ (getPort_ignores_iff option).mpr hspecified
    refine ⟨_, hle, hnumeral, rfl, hget, fun w event hmem => ?_⟩
    rw [main_of_scanned hscan] at hmem
    exact usesPort_of_for hle
      ((adds_mainScanned w option scriptPath _ (hget w.environ)).eventsOf event hmem)

def usualPort : CString := literal "1961"

theorem portAgrees_usualPort : ∃ argv option,
    scanOptions clientOption [literal "groovyclient", literal "-Cport", usualPort] =
      .ok (argv, option) ∧
    PortAgrees (literal "groovyclient") [literal "-Cport", usualPort] option usualPort.val := by
  obtain ⟨argv, option, hscan⟩ : ∃ argv option, scanOptions clientOption
      [literal "groovyclient", literal "-Cport", usualPort] = .ok (argv, option) := ⟨_, _, rfl⟩
  have hnumeral : IsNumeral usualPort.val := by
    constructor <;> decide +kernel
  have hvalue : digitsValue usualPort.val = 1961 := rfl
  exact ⟨argv, option, hscan,
    (portAgrees_iff rfl rfl hscan).mpr ⟨hnumeral, hvalue.trans_le (by omega)⟩⟩

def largePortArgs : List CString :=
  [literal "-Cp", literal "99999"]

def openPort : Surroundings where
  environ := [ascii "HOME=/home/me"]
  files _ := none
  outcomes _ := .connected

/-- The client connects to port 34463, and opens the token file of port 99999. -/
theorem not_portAgrees_largePort : ∃ argv option,
    scanOptions clientOption (literal "groovyclient" :: largePortArgs) =
      .ok (argv, option) ∧
    eventsOf (main openPort (literal "groovyclient") largePortArgs) =
      [.connect (ascii "localhost") 34463,
        .fopen (ascii "/home/me/.groovy/groovyserv/authtoken-99999")] ∧
    ¬ PortAgrees (literal "groovyclient") largePortArgs option
      (ascii "99999") := by
  refine ⟨_, _, rfl, rfl, ?_⟩
  rintro ⟨n, hn, -, hvalue, -⟩
  have hlarge : digitsValue (ascii "99999") = 99999 := rfl
  omega

end GroovyServ
