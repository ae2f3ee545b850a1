import GroovyServ.Bytes
import GroovyServ.Outcomes

/-!
# C strings and the string functions of the C library

Memory is the list of bytes from a pointer to the end of the object it points
into, so a scan that runs off the list is an access out of bounds. A C string is
what stands before the first NUL. The character classes are those of the C
locale, and `atoi` is `strtol` cut to an `int`.
-/

namespace GroovyServ

/-- How a C computation ends without returning to its caller: `exit` with what it
printed on standard error, a failed `assert`, a loop that never ends, or
undefined behaviour. -/
inductive Halt where
  | exit (code : ℤ) (message : Bytes)
  | aborted
  | diverges
  | undefined
  deriving DecidableEq, Repr

abbrev CResult := Except Halt

abbrev CString := { s : Bytes // (0 : UInt8) ∉ s }

namespace CLib

def cString (mem : Bytes) : Bytes := mem.takeWhile (· ≠ 0)

def strcmpZero : Bytes → Bytes → Bool
  | c :: mem, d :: s => decide (c = d) && strcmpZero mem s
  | c :: _, [] => decide (c = 0)
  | [], _ => false

/-- `strncpy` pads with NUL and leaves the destination beyond `n` as it was. -/
def strncpy (dst src : Bytes) (n : ℕ) : Bytes :=
  src.take n ++ (List.replicate (n - src.length) 0 ++ dst.drop n)

def isspace (c : UInt8) : Bool := decide (c.toNat = 32 ∨ (9 ≤ c.toNat ∧ c.toNat ≤ 13))

def isalnum (c : UInt8) : Bool :=
  isDigit c || decide (65 ≤ c.toNat ∧ c.toNat ≤ 90) || decide (97 ≤ c.toNat ∧ c.toNat ≤ 122)

/-- One call of `strtok` on the memory it continues from: the next token and the
memory that the following call continues from, or no token. -/
def strtok (delims mem : Bytes) : CResult (Option (Bytes × Bytes)) :=
  match mem.dropWhile (· ∈ delims) with
  | [] => .error .undefined
  | c :: start =>
    if c = 0 then .ok none
    else
      let token := (c :: start).takeWhile fun d => d ≠ 0 ∧ d ∉ delims
      match (c :: start).drop token.length with
      | [] => .error .undefined
      | d :: rest => .ok (some (token, if d = 0 then 0 :: rest else rest))

/-- `strtol` saturates at the bounds of `long`. -/
def saturateLong (z : ℤ) : ℤ := max (-2 ^ 63) (min (2 ^ 63 - 1) z)

def strtol (mem : Bytes) : ℤ :=
  match mem.dropWhile isspace with
  | 45 :: s => saturateLong (-(digitsValue (s.takeWhile isDigit) : ℤ))
  | 43 :: s => saturateLong (digitsValue (s.takeWhile isDigit))
  | s => saturateLong (digitsValue (s.takeWhile isDigit))

def atoi (mem : Bytes) : ℤ := wrap32 (strtol mem)

theorem cString_append {s : Bytes} (hs : (0 : UInt8) ∉ s) (mem : Bytes) :
    cString (s ++ 0 :: mem) = s := by
  unfold cString
  rw [List.takeWhile_append_of_pos]
  · simp
  · intro c hc
    simpa using fun h : c = 0 => hs (h ▸ hc)

@[simp] theorem length_strncpy (dst src : Bytes) (n : ℕ) (hn : n ≤ dst.length) :
    (strncpy dst src n).length = dst.length := by
  simp only [strncpy, List.length_append, List.length_take, List.length_replicate,
    List.length_drop]
  omega

@[simp] theorem length_strncpy_nil (src : Bytes) (n : ℕ) : (strncpy [] src n).length = n := by
  simp only [strncpy, List.length_append, List.length_take, List.length_replicate,
    List.length_drop, List.length_nil]
  omega

/-- A string shorter than `n` is stored with its terminator. -/
theorem strncpy_of_lt (dst src : Bytes) {n : ℕ} (hn : src.length < n) :
    ∃ mem, strncpy dst src n = src ++ 0 :: mem := by
  refine ⟨List.replicate (n - src.length - 1) 0 ++ dst.drop n, ?_⟩
  have hsplit : n - src.length = (n - src.length - 1) + 1 := by omega
  rw [strncpy, List.take_of_length_le hn.le, hsplit, List.replicate_succ, Nat.add_sub_cancel,
    List.cons_append]

theorem strcmpZero_append {s t : Bytes} (hs : (0 : UInt8) ∉ s) (ht : (0 : UInt8) ∉ t)
    (mem : Bytes) : strcmpZero (s ++ 0 :: mem) t = decide (s = t) := by
  induction s generalizing t with
  | nil =>
    cases t with
    | nil => rfl
    | cons d t =>
      have hd : (0 : UInt8) ≠ d := fun h => ht (h ▸ List.mem_cons_self)
      simp [strcmpZero, hd]
  | cons c s ih =>
    rw [List.mem_cons, not_or] at hs
    cases t with
    | nil => simpa [strcmpZero] using fun h : c = 0 => hs.1 h.symm
    | cons d t =>
      rw [List.mem_cons, not_or] at ht
      simp only [List.cons_append, strcmpZero, ih hs.2 ht.2]
      by_cases hcd : c = d
      · simp [hcd]
      · simp [hcd]

theorem dropWhile_append_of_neg {p : UInt8 → Bool} {s : Bytes} (hs : ∀ c ∈ s.head?, p c = false)
    (hne : s ≠ []) (t : Bytes) : (s ++ t).dropWhile p = s ++ t := by
  cases s with
  | nil => exact absurd rfl hne
  | cons c s => simp [hs c (by simp)]

theorem strtok_append {delims token : Bytes} (hne : token ≠ [])
    (htoken : ∀ c ∈ token, c ≠ 0 ∧ c ∉ delims) {d : UInt8} (hd : d ∈ delims) (hd0 : d ≠ 0)
    (rest : Bytes) :
    strtok delims (token ++ d :: rest) = .ok (some (token, rest)) := by
  obtain ⟨c, token', rfl⟩ := List.exists_cons_of_ne_nil hne
  have hc := htoken c List.mem_cons_self
  have hdrop : (c :: token' ++ d :: rest).dropWhile (· ∈ delims) = c :: (token' ++ d :: rest) := by
    simp [hc.2]
  have htake : (c :: token' ++ d :: rest).takeWhile (fun e => e ≠ 0 ∧ e ∉ delims) =
      c :: token' := by
    rw [List.takeWhile_append_of_pos (fun e he => by simpa using htoken e he)]
    simp [hd]
  rw [strtok, hdrop]
  simp only [hc.1, if_false]
  rw [← List.cons_append, htake, List.drop_left]
  simp [hd0]

theorem saturateLong_of_mem (z : ℤ) (hlo : -2 ^ 31 ≤ z) (hhi : z < 2 ^ 31) :
    saturateLong z = z := by
  unfold saturateLong
  omega

theorem takeWhile_isDigit_decimal (n : ℕ) {c : UInt8} (hc : isDigit c = false) (mem : Bytes) :
    (decimal n ++ c :: mem).takeWhile isDigit = decimal n := by
  rw [List.takeWhile_append_of_pos (isDigit_of_mem_decimal n)]
  simp [hc]

theorem strtol_decimal (n : ℕ) {c : UInt8} (hc : isDigit c = false) (mem : Bytes) :
    strtol (decimal n ++ c :: mem) = saturateLong n := by
  obtain ⟨d, s, hs⟩ := List.exists_cons_of_ne_nil (decimal_ne_nil n)
  have hd : isDigit d = true := isDigit_of_mem_decimal n d (by rw [hs]; exact List.mem_cons_self)
  have hrange : 48 ≤ d.toNat ∧ d.toNat ≤ 57 := by simpa [isDigit] using hd
  have hdrop : (decimal n ++ c :: mem).dropWhile isspace = decimal n ++ c :: mem := by
    apply dropWhile_append_of_neg _ (decimal_ne_nil n)
    intro e he
    obtain rfl : d = e := by simpa [hs] using he
    simp only [isspace, decide_eq_false_iff_not]
    omega
  have h45 : d ≠ 45 := by rintro rfl; exact absurd hrange.1 (by decide)
  have h43 : d ≠ 43 := by rintro rfl; exact absurd hrange.1 (by decide)
  have htake := takeWhile_isDigit_decimal n hc mem
  rw [strtol, hdrop]
  rw [hs, List.cons_append] at htake ⊢
  split
  · rename_i heq
    exact absurd (List.cons.inj heq).1 h45
  · rename_i heq
    exact absurd (List.cons.inj heq).1 h43
  · rw [htake, ← hs, digitsValue_decimal]

/-- `atoi` reads back every 32-bit number that ends at a non-digit. -/
theorem atoi_decimalInt (z : ℤ) (hlo : -2 ^ 31 ≤ z) (hhi : z < 2 ^ 31) {c : UInt8}
    (hc : isDigit c = false) (mem : Bytes) : atoi (decimalInt z ++ c :: mem) = z := by
  unfold atoi decimalInt
  split_ifs with hz
  · have hdrop : ((45 :: decimal z.natAbs) ++ c :: mem).dropWhile isspace =
        45 :: (decimal z.natAbs ++ c :: mem) := by
      simp [isspace]
    rw [strtol, hdrop]
    simp only
    rw [takeWhile_isDigit_decimal _ hc, digitsValue_decimal, saturateLong_of_mem _ (by omega)
      (by omega), wrap32_of_mem _ (by omega) (by omega)]
    omega
  · rw [strtol_decimal _ hc, saturateLong_of_mem _ (by omega) (by omega),
      wrap32_of_mem _ (by omega) (by omega)]
    omega

end CLib
end GroovyServ
