import GroovyServ.BufGrowth
import GroovyServ.BufHistory

/-!
# Where the calls touch a buffer

Each call of `buf.c` touches some indices of `buffer`, while the allocation has some size.
A copy stays within it unless its end is no `int`, and a print unless its offset or its
doublings leave the allocation. Appending reads the byte behind a full buffer.
-/

namespace GroovyServ.Client

open CLib

/-- An `int` that is not negative. -/
abbrev Count := { n : ℕ // n < 2 ^ 31 }

/-- What `vsnprintf` makes of a format: an output whose length is an `int`, or a failure,
which returns -1 and leaves anything in the space that it has. -/
inductive Printed where
  | output (bytes : Bytes) (hlength : bytes.length < 2 ^ 31)
  | failure (memory : ℕ → UInt8)

/-- The loop of `buf_offs_vprintf` ends at a -1 unless the space behind the offset is
negative. -/
def bufOffsVprintfFails (b : Buf) (offs : ℤ) (memory : ℕ → UInt8) : CResult Buf :=
  if offs ≤ b.bufferSize then
    .ok { b with
      size := wrap32 (offs + -1 + 1)
      buffer := fun i => if i < offs.toNat then b.buffer i else memory i }
  else .error .undefined

def bufOffsPrintf (b : Buf) (offs : ℤ) : Printed → CResult Buf
  | .output bytes _ => bufOffsVprintf b offs bytes
  | .failure memory => bufOffsVprintfFails b offs memory

inductive BufCall where
  | offsNcopy (offs : Count) (str : CString) (n : Count)
  | offsPrintf (offs : Count) (printed : Printed)
  | strcopy (str : CString)
  | nstrcopy (str : CString) (n : Count)
  | add (str : CString)
  | printf (printed : Printed)

def BufCall.run (b : Buf) : BufCall → CResult Buf
  | offsNcopy offs str n => bufOffsNcopy b offs.val str n.val
  | offsPrintf offs printed => bufOffsPrintf b offs.val printed
  | strcopy str => bufStrcopy b str
  | nstrcopy str n => bufNstrcopy b str n.val
  | add str => bufAdd b str
  | printf printed => do bufOffsPrintf b (← bufStrnlen b b.size) printed

structure BufAccess where
  index : ℤ
  bufferSize : ℤ

def BufAccess.Within (a : BufAccess) : Prop := 0 ≤ a.index ∧ a.index < a.bufferSize

def accessesFrom (start : ℤ) (count : ℕ) (bufferSize : ℤ) : List BufAccess :=
  (List.range count).map fun i : ℕ => ⟨start + i, bufferSize⟩

/-- The scan looks at a byte before it compares its count. -/
def strnlenReads (b : Buf) (n : ℤ) : ℕ → ℕ → List BufAccess
  | 0, _ => []
  | fuel + 1, i =>
    ⟨i, b.bufferSize⟩ ::
      if b.buffer i = 0 ∨ n < i + 1 then [] else strnlenReads b n fuel (i + 1)

def bufStrnlenReads (b : Buf) (n : ℤ) : List BufAccess := strnlenReads b n (n.toNat + 1) 0

def ncopyWrites (b : Buf) (offs n : ℤ) : List BufAccess :=
  if offs < 0 ∨ n < 0 then []
  else ((growLoop (wrap32 (offs + n)) 34 b.bufferSize).toOption.map
    (accessesFrom offs n.toNat)).getD []

def vprintfWrites (offs : ℤ) (output : Bytes) : ℕ → ℤ → List BufAccess
  | 0, _ => []
  | fuel + 1, bufferSize =>
    let rest := wrap32 (bufferSize - offs)
    accessesFrom offs (vsnprintf rest output).length bufferSize ++
      if rest ≤ output.length then vprintfWrites offs output fuel (wrap32 (bufferSize * 2))
      else []

/-- A failure may write to the whole space, and to any byte when that is negative. -/
def printfWrites (b : Buf) (offs : ℤ) : Printed → List BufAccess
  | .output bytes _ => vprintfWrites offs bytes 34 b.bufferSize
  | .failure _ =>
    if offs ≤ b.bufferSize then accessesFrom offs (b.bufferSize - offs).toNat b.bufferSize
    else accessesFrom offs 1 b.bufferSize

/-- What is touched when the offset is the length of the text. -/
def appendAccesses (b : Buf) (writes : ℤ → List BufAccess) : List BufAccess :=
  bufStrnlenReads b b.size ++ ((bufStrnlen b b.size).toOption.map writes).getD []

def BufCall.accesses (b : Buf) : BufCall → List BufAccess
  | offsNcopy offs _ n => ncopyWrites b offs.val n.val
  | offsPrintf offs printed => printfWrites b offs.val printed
  | strcopy str => ncopyWrites b 0 (wrap32 (str.val.length + 1))
  | nstrcopy _ n => ncopyWrites b 0 n.val
  | add str => appendAccesses b fun offs => ncopyWrites b offs (wrap32 (str.val.length + 1))
  | printf printed => appendAccesses b fun offs => printfWrites b offs printed

/-- Every index that the call reads or writes is below the size of the allocation. -/
def BufCall.Within (b : Buf) (call : BufCall) : Prop := ∀ a ∈ call.accesses b, a.Within

/-- Some doubling that is still an `int` has room for the output and its NUL. -/
def RetryFits (bufferSize offs : ℤ) (length : ℕ) : Prop :=
  offs ≤ bufferSize ∧ ∃ k, offs + length + 1 ≤ bufferSize * 2 ^ k ∧ bufferSize * 2 ^ k < 2 ^ 31

def Printed.Fits (bufferSize offs : ℤ) : Printed → Prop
  | output bytes _ => RetryFits bufferSize offs bytes.length
  | failure _ => offs ≤ bufferSize

/-- The end of what is copied is an `int`, what is printed fits, and nothing is appended to
a full buffer. -/
def BufCall.Fits (b : Buf) : BufCall → Prop
  | offsNcopy offs _ n => offs.val + n.val < 2 ^ 31
  | offsPrintf offs printed => printed.Fits b.bufferSize offs.val
  | strcopy _ => True
  | nstrcopy _ _ => True
  | add str => ¬ b.Full ∧ b.content.length + wrap32 (str.val.length + 1) < 2 ^ 31
  | printf printed => ¬ b.Full ∧ printed.Fits b.bufferSize b.content.length

theorem accessesFrom_within_iff {start : ℕ} {count : ℕ} {bufferSize : ℤ} :
    (∀ a ∈ accessesFrom start count bufferSize, a.Within) ↔
      count = 0 ∨ (start + count : ℤ) ≤ bufferSize := by
  constructor
  · intro h
    cases count with
    | zero => exact .inl rfl
    | succ count =>
      have hlast : (⟨start + count, bufferSize⟩ : BufAccess) ∈
          accessesFrom start (count + 1) bufferSize :=
        List.mem_map.mpr ⟨count, List.mem_range.mpr (Nat.lt_succ_self count), rfl⟩
      have hwithin := (h _ hlast).2
      right
      push_cast
      dsimp only at hwithin
      omega
  · intro h a ha
    obtain ⟨i, hi, rfl⟩ := List.mem_map.mp ha
    have hi := List.mem_range.mp hi
    constructor <;> dsimp only <;> omega

theorem accessesFrom_succ (start : ℤ) (count : ℕ) (bufferSize : ℤ) :
    accessesFrom start (count + 1) bufferSize =
      ⟨start, bufferSize⟩ :: accessesFrom (start + 1) count bufferSize := by
  rw [accessesFrom, accessesFrom, List.range_succ_eq_map, List.map_cons, List.map_map]
  refine congrArg₂ List.cons (by simp) (List.map_congr_left fun i _ => ?_)
  simp only [Function.comp_apply, BufAccess.mk.injEq, and_true]
  push_cast
  omega

section Scan

variable {b : Buf} {s : Bytes}

theorem strnlenReads_eq (h : b.Stores s) (fuel i : ℕ) (hi : i ≤ s.length)
    (hfuel : s.length < fuel + i) :
    strnlenReads b b.size fuel i = accessesFrom i (s.length + 1 - i) b.bufferSize := by
  induction fuel generalizing i with
  | zero => omega
  | succ fuel ih =>
    have hcount : s.length + 1 - i = s.length - i + 1 := by omega
    rw [strnlenReads, hcount, accessesFrom_succ]
    refine congrArg _ ?_
    rcases Nat.lt_or_eq_of_le hi with hlt | rfl
    · have hne : b.buffer i ≠ 0 := by
        rw [h.getElem hlt]
        exact fun hzero => h.notMem (hzero ▸ List.getElem_mem hlt)
      have hle := h.length_le
      have hrest : s.length - i = s.length + 1 - (i + 1) := by omega
      rw [if_neg (not_or.mpr ⟨hne, by omega⟩), ih (i + 1) hlt (by omega), hrest, Nat.cast_succ]
    · have hend : b.buffer s.length = 0 ∨ b.size < s.length + 1 := by
        rcases h.ends with hsize | ⟨-, hzero⟩
        · exact .inr (by omega)
        · exact .inl hzero
      rw [if_pos hend, Nat.sub_self]
      rfl

theorem bufStrnlenReads_within_iff (h : b.Stores s) :
    (∀ a ∈ bufStrnlenReads b b.size, a.Within) ↔ ¬ b.Full := by
  have hle := h.length_le
  have hsize := h.size_le
  have hreads := strnlenReads_eq h (b.size.toNat + 1) 0 (Nat.zero_le _) (by omega)
  rw [bufStrnlenReads, hreads, accessesFrom_within_iff, h.full_iff]
  omega

/-- Appending touches the text and the byte behind it, and what is written there. -/
theorem appendAccesses_within_iff (h : b.Stores s) (writes : ℤ → List BufAccess) :
    (∀ a ∈ appendAccesses b writes, a.Within) ↔
      ¬ b.Full ∧ ∀ a ∈ writes s.length, a.Within := by
  rw [appendAccesses]
  simp only [List.mem_append, or_imp, forall_and]
  rw [bufStrnlenReads_within_iff h]
  refine and_congr_right fun hfull => ?_
  rw [bufStrnlen_of_not_full h hfull]
  rfl

end Scan

theorem ncopyWrites_within_iff {b : Buf} (hpos : 0 < b.bufferSize) (hlt : b.bufferSize < 2 ^ 31)
    {offs : ℕ} (hoffs : offs < 2 ^ 31) {n : ℤ} (hn : n < 2 ^ 31) :
    (∀ a ∈ ncopyWrites b offs n, a.Within) ↔ offs + n < 2 ^ 31 := by
  by_cases hneg : n < 0
  · rw [ncopyWrites, if_pos (.inr hneg)]
    exact iff_of_true (fun a ha => absurd ha List.not_mem_nil) (by omega)
  · rw [ncopyWrites, if_neg (by omega)]
    by_cases hend : offs + n < 2 ^ 31
    · rw [wrap32_of_mem _ (by omega) hend]
      refine iff_of_true ?_ hend
      cases hgrow : growLoop (offs + n) 34 b.bufferSize with
      | error halt => exact fun a ha => absurd ha List.not_mem_nil
      | ok size' =>
        obtain ⟨hroom, -⟩ := growLoop_ge hgrow
        exact accessesFrom_within_iff.mpr (.inr (by omega))
    · -- the sum has wrapped to a negative size, and the allocation stays as it is
      rw [wrap32_of_ge _ (by omega) (by omega), growLoop, if_neg (by omega)]
      refine iff_of_false (fun h => ?_) hend
      have hroom := accessesFrom_within_iff.mp h
      omega

theorem vsnprintf_ne_nil {size : ℤ} (h : size ≠ 0) (output : Bytes) :
    vsnprintf size output ≠ [] := by
  rw [vsnprintf, if_neg h]
  split_ifs <;> exact List.append_ne_nil_of_right_ne_nil _ (List.cons_ne_nil _ _)

theorem retryFits_double {bufferSize offs : ℤ} {length : ℕ} (hoffs : offs ≤ bufferSize)
    (hpos : 0 < bufferSize) (hsmall : bufferSize < offs + length + 1) :
    RetryFits bufferSize offs length ↔
      bufferSize * 2 < 2 ^ 31 ∧ RetryFits (bufferSize * 2) offs length := by
  constructor
  · rintro ⟨-, k, hroom, hlt⟩
    cases k with
    | zero =>
      rw [pow_zero, mul_one] at hroom
      omega
    | succ k =>
      rw [pow_succ', ← mul_assoc] at hroom hlt
      have hone : (1 : ℤ) ≤ 2 ^ k := one_le_pow₀ (by norm_num)
      have hle : bufferSize * 2 ≤ bufferSize * 2 * 2 ^ k :=
        le_mul_of_one_le_right (by omega) hone
      exact ⟨hle.trans_lt hlt, by omega, k, hroom, hlt⟩
  · rintro ⟨-, -, k, hroom, hlt⟩
    refine ⟨hoffs, k + 1, ?_, ?_⟩ <;> rwa [pow_succ', ← mul_assoc]

section Retry

variable {offs : ℕ} {output : Bytes} (hoffs : offs < 2 ^ 31)

include hoffs

/-- A size that has wrapped has no room for a byte. -/
theorem not_vprintfWrites_within {bufferSize : ℤ} (hge : -2 ^ 31 ≤ bufferSize)
    (hneg : bufferSize < 0) (fuel : ℕ) :
    ¬ ∀ a ∈ vprintfWrites offs output (fuel + 1) bufferSize, a.Within := by
  intro h
  have hrest : wrap32 (bufferSize - offs) ≠ 0 := by
    by_cases hunder : bufferSize - offs < -2 ^ 31
    · rw [wrap32_of_lt _ (by omega) hunder]
      omega
    · rw [wrap32_of_mem _ (by omega) (by omega)]
      omega
  have hwrites := accessesFrom_within_iff.mp fun a ha => h a (List.mem_append_left _ ha)
  have hcount := List.length_pos_iff.mpr (vsnprintf_ne_nil hrest output)
  omega

theorem vprintfWrites_within_iff {bufferSize : ℤ} {fuel : ℕ} (hpos : 0 < bufferSize)
    (hlt : bufferSize < 2 ^ 31) (hfuel : 2 ^ 31 ≤ bufferSize * 2 ^ fuel) :
    (∀ a ∈ vprintfWrites offs output (fuel + 1) bufferSize, a.Within) ↔
      RetryFits bufferSize offs output.length := by
  induction fuel generalizing bufferSize with
  | zero => omega
  | succ fuel ih =>
    have hrest := wrap32_of_mem (bufferSize - offs) (by omega) (by omega)
    rw [vprintfWrites]
    simp only [List.mem_append, or_imp, forall_and]
    rw [hrest, accessesFrom_within_iff]
    by_cases hinside : (offs : ℤ) ≤ bufferSize
    · have hroom : (offs + (vsnprintf (bufferSize - offs) output).length : ℤ) ≤ bufferSize :=
        room_of_vsnprintf ⟨0, bufferSize, fun _ => 0⟩ output hinside
      rw [and_iff_right (.inr hroom)]
      by_cases hsmall : bufferSize - offs ≤ output.length
      · rw [if_pos hsmall, retryFits_double hinside hpos (by omega)]
        by_cases hdouble : bufferSize * 2 < 2 ^ 31
        · rw [wrap32_of_mem _ (by omega) hdouble, and_iff_right hdouble]
          exact ih (by omega) hdouble (by rwa [mul_assoc, ← pow_succ'])
        · rw [wrap32_of_ge _ (by omega) (by omega)]
          exact iff_of_false (not_vprintfWrites_within hoffs (by omega) (by omega) fuel)
            fun h => hdouble h.1
      · rw [if_neg hsmall]
        refine iff_of_true (fun a ha => absurd ha List.not_mem_nil) ⟨hinside, 0, ?_, ?_⟩ <;>
          rw [pow_zero, mul_one]
        · omega
        · exact hlt
    · -- the space is negative, which `vsnprintf` takes for a huge one
      have hwrites := List.length_pos_iff.mpr
        (vsnprintf_ne_nil (by omega : bufferSize - offs ≠ 0) output)
      exact iff_of_false (fun h => by omega) fun h => hinside h.1

end Retry

end GroovyServ.Client
