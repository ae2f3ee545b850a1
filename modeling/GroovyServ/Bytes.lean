import Mathlib

/-!
# Byte strings and decimal numerals

A byte string is a list of bytes. `decimal` and `decimalInt` write the text that
`%d` and `Integer.toString` produce, `digitsValue` reads a run of digits back,
and `shortCount` is the number of bytes that one call of a short-counting read
hands over.
-/

namespace GroovyServ

abbrev Bytes := List UInt8

def ascii (s : String) : Bytes := s.toList.map fun c => UInt8.ofNat c.toNat

def lf : UInt8 := 10

def isDigit (b : UInt8) : Bool := decide (48 ≤ b.toNat ∧ b.toNat ≤ 57)

def decimal (n : ℕ) : Bytes := (Nat.toDigits 10 n).map fun c => UInt8.ofNat c.toNat

def decimalInt (z : ℤ) : Bytes := if z < 0 then 45 :: decimal z.natAbs else decimal z.natAbs

def digitsValue (s : Bytes) : ℕ := s.foldl (fun v b => 10 * v + (b.toNat - 48)) 0

/-- The value a 32-bit two's-complement `int` keeps of an integer. -/
def wrap32 (z : ℤ) : ℤ := Int.bmod z (2 ^ 32)

theorem ascii_digitChar (d : ℕ) (hd : d < 10) :
    UInt8.ofNat (Nat.digitChar d).toNat = UInt8.ofNat (48 + d) := by
  interval_cases d <;> rfl

theorem digit_toNat (d : ℕ) (hd : d < 10) : (UInt8.ofNat (48 + d)).toNat = 48 + d := by
  simp only [UInt8.toNat_ofNat']
  omega

theorem decimal_eq (n : ℕ) :
    decimal n = if n < 10 then [UInt8.ofNat (48 + n)]
      else decimal (n / 10) ++ [UInt8.ofNat (48 + n % 10)] := by
  unfold decimal
  rw [Nat.toDigits_eq_if (by omega)]
  split_ifs with hn
  · simp only [List.map_cons, List.map_nil, ascii_digitChar n hn]
  · simp only [List.map_append, List.map_cons, List.map_nil,
      ascii_digitChar (n % 10) (Nat.mod_lt n (by omega))]

theorem decimal_ne_nil (n : ℕ) : decimal n ≠ [] := by
  simp [decimal]

theorem isDigit_of_mem_decimal (n : ℕ) : ∀ b ∈ decimal n, isDigit b = true := by
  induction n using Nat.strong_induction_on with
  | _ n ih =>
    intro b hb
    rw [decimal_eq] at hb
    split_ifs at hb with hn
    · rw [List.mem_singleton] at hb
      simp only [hb, isDigit, digit_toNat n hn, decide_eq_true_eq]
      omega
    · rcases List.mem_append.mp hb with hb | hb
      · exact ih (n / 10) (by omega) b hb
      · rw [List.mem_singleton] at hb
        simp only [hb, isDigit, digit_toNat (n % 10) (by omega), decide_eq_true_eq]
        omega

theorem digitsValue_append_digit (s : Bytes) (d : ℕ) (hd : d < 10) :
    digitsValue (s ++ [UInt8.ofNat (48 + d)]) = 10 * digitsValue s + d := by
  simp only [digitsValue, List.foldl_append, List.foldl_cons, List.foldl_nil, digit_toNat d hd]
  omega

theorem digitsValue_decimal (n : ℕ) : digitsValue (decimal n) = n := by
  induction n using Nat.strong_induction_on with
  | _ n ih =>
    rw [decimal_eq]
    split_ifs with hn
    · have h := digitsValue_append_digit [] n hn
      simpa only [List.nil_append, digitsValue, List.foldl_nil, Nat.mul_zero, Nat.zero_add] using h
    · rw [digitsValue_append_digit _ _ (Nat.mod_lt n (by omega)), ih (n / 10) (by omega)]
      omega

theorem decimal_length_le (n k : ℕ) (hk : 0 < k) (hn : n < 10 ^ k) :
    (decimal n).length ≤ k := by
  simpa only [decimal, List.length_map] using (Nat.length_toDigits_le_iff (by omega) hk).mpr hn

theorem not_isDigit_of_lt (b : UInt8) (hb : b.toNat < 48) : isDigit b = false := by
  simp only [isDigit, decide_eq_false_iff_not]
  omega

theorem notMem_decimal (n : ℕ) (b : UInt8) (hb : b.toNat < 48) : b ∉ decimal n := by
  intro hmem
  have hd := isDigit_of_mem_decimal n b hmem
  rw [not_isDigit_of_lt b hb] at hd
  cases hd

theorem wrap32_of_mem (z : ℤ) (hlo : -2 ^ 31 ≤ z) (hhi : z < 2 ^ 31) : wrap32 z = z := by
  unfold wrap32
  exact Int.bmod_eq_of_le (by norm_num; omega) (by norm_num; omega)

theorem wrap32_of_ge (z : ℤ) (hlo : 2 ^ 31 ≤ z) (hhi : z < 2 ^ 32) : wrap32 z = z - 2 ^ 32 := by
  rw [wrap32, Int.bmod_def, Int.emod_eq_of_lt (by omega) (by norm_num; omega),
    if_neg (by norm_num; omega)]
  norm_num

theorem wrap32_of_lt (z : ℤ) (hlo : -2 ^ 32 ≤ z) (hhi : z < -2 ^ 31) :
    wrap32 z = z + 2 ^ 32 := by
  rw [wrap32, ← Int.add_bmod_right]
  exact Int.bmod_eq_of_le (by norm_num; omega) (by norm_num; omega)

theorem wrap32_lt (z : ℤ) : wrap32 z < 2 ^ 31 := by
  unfold wrap32
  have := Int.bmod_lt (x := z) (m := 2 ^ 32) (by norm_num)
  norm_num at this ⊢
  omega

theorem wrap32_ge (z : ℤ) : -2 ^ 31 ≤ wrap32 z := by
  unfold wrap32
  have := Int.le_bmod (x := z) (m := 2 ^ 32) (by norm_num)
  norm_num at this ⊢
  omega

/-- What one read of at most `asked` bytes returns when `available` bytes can be
read and the system offers `offer` of them: between one and `asked`. -/
def shortCount (offer asked available : ℕ) : ℕ := max 1 (min offer (min asked available))

theorem shortCount_pos (offer asked available : ℕ) : 0 < shortCount offer asked available :=
  Nat.lt_of_lt_of_le Nat.one_pos (Nat.le_max_left _ _)

theorem shortCount_le (offer asked available : ℕ) (hk : 0 < asked) (ha : 0 < available) :
    shortCount offer asked available ≤ min asked available := by
  unfold shortCount
  omega

theorem shortCount_eq_asked_iff (offer asked available : ℕ) (hk : 0 < asked)
    (ha : asked ≤ available) :
    shortCount offer asked available = asked ↔ asked = 1 ∨ asked ≤ offer := by
  unfold shortCount
  omega

end GroovyServ
