import GroovyServ.CStrings

/-!
# The client's growing buffer

`Buf` is the `buf` of `buf.c`, with the functions that build a request. Its
`buffer` gives every byte of the allocation, and beyond `bufferSize` the bytes
that a later `realloc` will add, so nothing is assumed of memory that was never
written. Sizes are 32-bit integers that wrap, and an access outside of the
allocation is undefined.
-/

namespace GroovyServ.Client

open CLib

def defaultBufferSize : ℤ := 512

structure Buf where
  size : ℤ
  bufferSize : ℤ
  buffer : ℕ → UInt8

namespace Buf

def store (b : Buf) (offs : ℤ) (data : Bytes) : CResult Buf :=
  if 0 ≤ offs ∧ offs + data.length ≤ b.bufferSize then
    .ok { b with
      buffer := fun i =>
        if i < offs.toNat then b.buffer i else data.getD (i - offs.toNat) (b.buffer i) }
  else .error .undefined

end Buf

def bufStrnlenLoop (b : Buf) (n : ℤ) : ℕ → ℕ → CResult ℤ
  | 0, _ => .error .undefined
  | fuel + 1, i =>
    if b.buffer i = 0 then .ok i
    else if n < i + 1 then .ok n
    else bufStrnlenLoop b n fuel (i + 1)

/-- The scan reads the buffer from its start and must not leave it. -/
def bufStrnlen (b : Buf) (n : ℤ) : CResult ℤ := bufStrnlenLoop b n b.bufferSize.toNat 0

def bufNew (size : ℤ) (memory : ℕ → UInt8) : Buf where
  size := 0
  bufferSize := if size = 0 then defaultBufferSize else size
  buffer := memory

/-- The doublings of a 32-bit size: after 32 of them it is zero for good. -/
def growLoop (needed : ℤ) : ℕ → ℤ → CResult ℤ
  | 0, _ => .error .diverges
  | fuel + 1, size => if size < needed then growLoop needed fuel (wrap32 (size * 2)) else .ok size

def bufOffsNcopy (b : Buf) (offs : ℤ) (str : Bytes) (n : ℤ) : CResult Buf :=
  if offs < 0 ∨ n < 0 then .error .aborted
  else do
    let bufferSize ← growLoop (wrap32 (offs + n)) 34 b.bufferSize
    let b ← { b with bufferSize := bufferSize }.store offs (strncpy [] str n.toNat)
    .ok { b with size := wrap32 (offs + n) }

def bufAdd (b : Buf) (str : CString) : CResult Buf := do
  bufOffsNcopy b (← bufStrnlen b b.size) str (wrap32 (str.val.length + 1))

/-- What `vsnprintf` stores of its output; a negative `size` is a huge `size_t`. -/
def vsnprintf (size : ℤ) (output : Bytes) : Bytes :=
  if size = 0 then []
  else if size < 0 then output ++ [0]
  else output.take (size.toNat - 1) ++ [0]

def bufOffsVprintfLoop (offs : ℤ) (output : Bytes) : ℕ → Buf → CResult Buf
  | 0, _ => .error .diverges
  | fuel + 1, b => do
    let rest := wrap32 (b.bufferSize - offs)
    let b ← b.store offs (vsnprintf rest output)
    if rest ≤ output.length then
      bufOffsVprintfLoop offs output fuel { b with bufferSize := wrap32 (b.bufferSize * 2) }
    else .ok { b with size := wrap32 (offs + output.length + 1) }

/-- `output` is the expansion of the format; `vsnprintf` fails beyond `INT_MAX`,
and the buffer is indeterminate then. -/
def bufOffsVprintf (b : Buf) (offs : ℤ) (output : Bytes) : CResult Buf :=
  if 2 ^ 31 ≤ output.length then .error .undefined
  else bufOffsVprintfLoop offs output 34 b

def bufPrintf (b : Buf) (output : Bytes) : CResult Buf := do
  bufOffsVprintf b (← bufStrnlen b b.size) output

namespace Buf

def StartsWith (b : Buf) (s : Bytes) : Prop := ∀ i c, s[i]? = some c → b.buffer i = c

/-- The buffer stores the text: no NUL within it, and either a NUL after it or a
`size` that ends with it. -/
structure Holds (b : Buf) (s : Bytes) : Prop where
  startsWith : b.StartsWith s
  notMem : (0 : UInt8) ∉ s
  length_lt : s.length < b.bufferSize
  bufferSize_lt : b.bufferSize < 2 ^ 31
  ends : b.size = s.length ∨ (b.size = s.length + 1 ∧ b.buffer s.length = 0)

theorem store_eq_ok {b b' : Buf} {offs : ℕ} {data : Bytes} (h : b.store offs data = .ok b') :
    (offs : ℤ) + data.length ≤ b.bufferSize ∧ b'.size = b.size ∧
      b'.bufferSize = b.bufferSize ∧ (∀ i < offs, b'.buffer i = b.buffer i) ∧
      ∀ i c, data[i]? = some c → b'.buffer (offs + i) = c := by
  unfold store at h
  split_ifs at h with hin
  cases h
  refine ⟨hin.2, rfl, rfl, fun i hi => if_pos (by rwa [Int.toNat_natCast]), fun i c hc => ?_⟩
  obtain ⟨hlt, rfl⟩ := List.getElem?_eq_some_iff.mp hc
  simp [hlt]

theorem exists_store {b : Buf} {offs : ℕ} {data : Bytes}
    (h : (offs : ℤ) + data.length ≤ b.bufferSize) : ∃ b', b.store offs data = .ok b' :=
  ⟨_, if_pos ⟨Int.natCast_nonneg offs, h⟩⟩

theorem StartsWith.store {b b' : Buf} {s data : Bytes} (hb : b.StartsWith s)
    (h : b.store s.length data = .ok b') : b'.StartsWith s := by
  obtain ⟨-, -, -, hkeep, -⟩ := store_eq_ok h
  intro i c hc
  rw [hkeep i (List.getElem?_eq_some_iff.mp hc).1, hb i c hc]

theorem StartsWith.store_append {b b' : Buf} {s t : Bytes} (hb : b.StartsWith s)
    (hs : (0 : UInt8) ∉ s) (ht : (0 : UInt8) ∉ t) (hlt : b.bufferSize < 2 ^ 31)
    (h : b.store s.length (t ++ [0]) = .ok b') :
    ({ b' with size := s.length + t.length + 1 } : Buf).Holds (s ++ t) := by
  obtain ⟨hroom, -, hsize, -, hdata⟩ := store_eq_ok h
  rw [List.length_append, List.length_singleton] at hroom
  push_cast at hroom
  refine ⟨fun i c hc => ?_, ?_, ?_, hsize ▸ hlt, .inr ⟨?_, ?_⟩⟩
  · by_cases hi : i < s.length
    · rw [List.getElem?_append_left hi] at hc
      exact hb.store h i c hc
    · rw [List.getElem?_append_right (by omega)] at hc
      have hget := hdata (i - s.length) c (by
        rwa [List.getElem?_append_left (List.getElem?_eq_some_iff.mp hc).1])
      rwa [Nat.add_sub_cancel' (by omega)] at hget
  · rw [List.mem_append]
    exact not_or.mpr ⟨hs, ht⟩
  · rw [List.length_append]
    push_cast
    omega
  · rw [List.length_append]
    push_cast
    rfl
  · rw [List.length_append]
    exact hdata t.length 0 (by simp)

end Buf

theorem bufNew_holds (size : ℤ) (memory : ℕ → UInt8) (hsize : 0 < size) (hlt : size < 2 ^ 31) :
    (bufNew size memory).Holds [] where
  startsWith := by simp [Buf.StartsWith]
  notMem := List.not_mem_nil
  length_lt := by simp [bufNew, hsize.ne', hsize]
  bufferSize_lt := by simpa [bufNew, hsize.ne'] using hlt
  ends := .inl rfl

theorem bufStrnlenLoop_eq {b : Buf} {s : Bytes} (hb : b.StartsWith s) (hs : (0 : UInt8) ∉ s)
    (hends : b.size = s.length ∨ (s.length < b.size ∧ b.buffer s.length = 0)) (fuel i : ℕ)
    (hi : i ≤ s.length) (hfuel : s.length < fuel + i) :
    bufStrnlenLoop b b.size fuel i = .ok s.length := by
  induction fuel generalizing i with
  | zero => omega
  | succ fuel ih =>
    rw [bufStrnlenLoop]
    rcases Nat.lt_or_eq_of_le hi with hlt | rfl
    · have hget := hb i s[i] (List.getElem?_eq_getElem hlt)
      have hne : b.buffer i ≠ 0 := fun h => hs (h ▸ hget ▸ List.getElem_mem hlt)
      have hsize : ¬ b.size < i + 1 := by rcases hends with h | h <;> omega
      rw [if_neg hne, if_neg hsize, ih (i + 1) hlt (by omega)]
    · by_cases hzero : b.buffer s.length = 0
      · rw [if_pos hzero]
      · have hsize : b.size = s.length := hends.resolve_right fun h => hzero h.2
        rw [if_neg hzero, if_pos (by omega), hsize]

theorem bufStrnlen_eq {b : Buf} {s : Bytes} (hb : b.Holds s) :
    bufStrnlen b b.size = .ok s.length := by
  have hlen := hb.length_lt
  refine bufStrnlenLoop_eq hb.startsWith hb.notMem ?_ _ 0 (Nat.zero_le _) (by omega)
  exact hb.ends.imp id fun h => ⟨by omega, h.2⟩

theorem growLoop_lt {needed size size' : ℤ} {fuel : ℕ} (hsize : size < 2 ^ 31)
    (h : growLoop needed fuel size = .ok size') : size' < 2 ^ 31 := by
  induction fuel generalizing size with
  | zero => cases h
  | succ fuel ih =>
    rw [growLoop] at h
    split_ifs at h with hlt
    · exact ih (wrap32_lt _) h
    · cases h
      exact hsize

theorem growLoop_ge {needed size size' : ℤ} {fuel : ℕ}
    (h : growLoop needed fuel size = .ok size') :
    needed ≤ size' ∧ (needed ≤ size → size' = size) := by
  induction fuel generalizing size with
  | zero => cases h
  | succ fuel ih =>
    rw [growLoop] at h
    split_ifs at h with hlt
    · exact ⟨(ih h).1, fun hle => absurd hle (not_le.mpr hlt)⟩
    · obtain rfl := Except.ok.inj h
      exact ⟨not_lt.mp hlt, fun _ => rfl⟩

theorem growLoop_pos {needed size size' : ℤ} {fuel : ℕ} (hpos : 0 < size)
    (h : growLoop needed fuel size = .ok size') : 0 < size' := by
  obtain ⟨hge, hkept⟩ := growLoop_ge h
  by_cases hnone : needed ≤ size
  · rwa [hkept hnone]
  · omega

theorem exists_growLoop {needed size : ℤ} (hneeded : needed ≤ 2 ^ 30) (fuel : ℕ)
    (hsize : 2 ^ 30 < size * 2 ^ fuel) : ∃ size', growLoop needed (fuel + 1) size = .ok size' ∧
      needed ≤ size' := by
  induction fuel generalizing size with
  | zero => exact ⟨size, by rw [growLoop, if_neg (by omega)], by omega⟩
  | succ fuel ih =>
    rw [growLoop]
    split_ifs with hlt
    · have hpos : 0 < size := by
        by_contra h
        have hpow : (0 : ℤ) ≤ 2 ^ (fuel + 1) := by positivity
        have := mul_nonpos_of_nonpos_of_nonneg (not_lt.mp h) hpow
        omega
      rw [wrap32_of_mem _ (by omega) (by omega)]
      exact ih (by rwa [mul_assoc, ← pow_succ'])
    · exact ⟨size, rfl, not_lt.mp hlt⟩

theorem bufOffsVprintfLoop_holds {s t : Bytes} (hs : (0 : UInt8) ∉ s) (ht : (0 : UInt8) ∉ t)
    {fuel : ℕ} {b b' : Buf} (hb : b.StartsWith s) (hlt : b.bufferSize < 2 ^ 31)
    (h : bufOffsVprintfLoop s.length t fuel b = .ok b') :
    b'.Holds (s ++ t) ∧ b'.size = (s ++ t).length + 1 := by
  induction fuel generalizing b with
  | zero => cases h
  | succ fuel ih =>
    rw [bufOffsVprintfLoop] at h
    obtain ⟨b₁, hstore, h⟩ := bind_eq_ok.mp h
    obtain ⟨hroom, -, hsize, -, -⟩ := Buf.store_eq_ok hstore
    have hrest := wrap32_of_mem (b.bufferSize - s.length) (by omega) (by omega)
    rw [hrest] at h hstore
    split_ifs at h with hle
    · apply ih _ _ h
      · have hstart := hb.store hstore
        exact hstart
      · exact wrap32_lt _
    · have hfull : vsnprintf (b.bufferSize - s.length) t = t ++ [0] := by
        rw [vsnprintf, if_neg (by omega), if_neg (by omega), List.take_of_length_le (by omega)]
      rw [hfull] at hstore
      have hend := wrap32_of_mem (s.length + t.length + 1) (by omega) (by omega)
      rw [hend] at h
      cases h
      exact ⟨hb.store_append hs ht hlt hstore, by rw [List.length_append]; push_cast; rfl⟩

theorem room_of_vsnprintf (b : Buf) {offs : ℕ} (t : Bytes) (hoffs : offs ≤ b.bufferSize) :
    (offs : ℤ) + (vsnprintf (b.bufferSize - offs) t).length ≤ b.bufferSize := by
  unfold vsnprintf
  split_ifs with hzero hneg
  · rw [List.length_nil]
    omega
  · omega
  · rw [List.length_append, List.length_take, List.length_singleton]
    omega

theorem exists_bufOffsVprintfLoop {s t : Bytes} (hlen : s.length + t.length + 1 ≤ 2 ^ 30)
    (fuel : ℕ) {b : Buf} (hlt : s.length ≤ b.bufferSize) (hsize : 2 ^ 30 < b.bufferSize * 2 ^ fuel)
    (hmax : b.bufferSize < 2 ^ 31) :
    ∃ b', bufOffsVprintfLoop s.length t (fuel + 1) b = .ok b' := by
  induction fuel generalizing b with
  | zero =>
    have hrest := wrap32_of_mem (b.bufferSize - s.length) (by omega) (by omega)
    obtain ⟨b₁, hstore⟩ := Buf.exists_store (room_of_vsnprintf b t hlt)
    rw [bufOffsVprintfLoop, hrest, hstore, ok_bind, if_neg (by omega)]
    exact ⟨_, rfl⟩
  | succ fuel ih =>
    have hrest := wrap32_of_mem (b.bufferSize - s.length) (by omega) (by omega)
    obtain ⟨b₁, hstore⟩ := Buf.exists_store (room_of_vsnprintf b t hlt)
    obtain ⟨-, -, hsize₁, -, -⟩ := Buf.store_eq_ok hstore
    rw [bufOffsVprintfLoop, hrest, hstore, ok_bind]
    split_ifs with hle
    · have hdouble := wrap32_of_mem (b.bufferSize * 2) (by omega) (by omega)
      rw [hsize₁, hdouble]
      apply ih
      · change (s.length : ℤ) ≤ b.bufferSize * 2
        omega
      · change 2 ^ 30 < b.bufferSize * 2 * 2 ^ fuel
        rwa [mul_assoc, ← pow_succ']
      · change b.bufferSize * 2 < 2 ^ 31
        omega
    · exact ⟨_, rfl⟩

theorem strncpy_terminated (str : Bytes) :
    strncpy [] str ((str.length : ℤ) + 1).toNat = str ++ [0] := by
  have hn : ((str.length : ℤ) + 1).toNat = str.length + 1 := by omega
  rw [hn, strncpy, List.take_of_length_le (Nat.le_succ _), Nat.add_sub_cancel_left]
  rfl

section Append

variable {b : Buf} {s : Bytes} (hb : b.StartsWith s) (hs : (0 : UInt8) ∉ s)
  (hle : s.length ≤ b.bufferSize) (hpos : 0 < b.bufferSize) (hmax : b.bufferSize < 2 ^ 31)

include hb hs hle hpos hmax

theorem bufOffsVprintf_ensures {t : Bytes} (ht : (0 : UInt8) ∉ t) :
    Ensures (bufOffsVprintf b s.length t) (s.length + t.length + 1 ≤ 2 ^ 30) fun b' =>
      b'.Holds (s ++ t) ∧ b'.size = (s ++ t).length + 1 := by
  rw [bufOffsVprintf]
  split_ifs with hlong
  · exact .error (by omega)
  · exact ⟨fun b' => bufOffsVprintfLoop_holds hs ht hb hmax,
      fun hlen => exists_bufOffsVprintfLoop hlen 33 hle (by omega) hmax⟩

theorem bufOffsNcopy_ensures {str : CString} (hlen : str.val.length < 2 ^ 31 - 1) :
    Ensures (bufOffsNcopy b s.length str (wrap32 (str.val.length + 1)))
      (s.length + str.val.length + 1 ≤ 2 ^ 30) fun b' =>
      b'.Holds (s ++ str) ∧ b'.size = (s ++ str.val).length + 1 := by
  have hn := wrap32_of_mem (str.val.length + 1) (by omega) (by omega)
  have hoffs : ¬ ((s.length : ℤ) < 0 ∨ (str.val.length : ℤ) + 1 < 0) := by omega
  rw [hn, bufOffsNcopy, if_neg hoffs, strncpy_terminated]
  constructor
  · intro b' h
    obtain ⟨size', hgrow, h⟩ := bind_eq_ok.mp h
    obtain ⟨b₁, hstore, h⟩ := bind_eq_ok.mp h
    have hsize' := growLoop_lt hmax hgrow
    obtain ⟨hroom, -, -, -, -⟩ := Buf.store_eq_ok hstore
    rw [List.length_append, List.length_singleton] at hroom
    push_cast at hroom
    have hend := wrap32_of_mem (s.length + (str.val.length + 1)) (by omega) (by omega)
    rw [hend, ← add_assoc] at h
    cases h
    have hstart : ({ b with bufferSize := size' } : Buf).StartsWith s := hb
    exact ⟨hstart.store_append hs str.property hsize' hstore,
      by rw [List.length_append]; push_cast; rfl⟩
  · intro hsmall
    have hend := wrap32_of_mem (s.length + (str.val.length + 1)) (by omega) (by omega)
    have hneeded : (s.length + (str.val.length + 1) : ℤ) ≤ 2 ^ 30 := by omega
    have hdoublings : (2 : ℤ) ^ 30 < b.bufferSize * 2 ^ 33 := by omega
    obtain ⟨size', hgrow, hle⟩ := exists_growLoop hneeded 33 hdoublings
    have hroom : (s.length : ℤ) + (str.val ++ [0]).length ≤
        ({ b with bufferSize := size' } : Buf).bufferSize := by
      rw [List.length_append, List.length_singleton]
      push_cast
      omega
    obtain ⟨b₁, hstore⟩ := Buf.exists_store hroom
    rw [hend, hgrow, ok_bind, hstore, ok_bind]
    exact ⟨_, rfl⟩

end Append

/-- What a printing function appends, whenever the sizes involved stay small. -/
theorem bufPrintf_ensures {b : Buf} {s t : Bytes} (hb : b.Holds s) (ht : (0 : UInt8) ∉ t) :
    Ensures (bufPrintf b t) (s.length + t.length + 1 ≤ 2 ^ 30) fun b' =>
      b'.Holds (s ++ t) ∧ b'.size = (s ++ t).length + 1 := by
  have hlt := hb.length_lt
  rw [bufPrintf, bufStrnlen_eq hb, ok_bind]
  exact bufOffsVprintf_ensures hb.startsWith hb.notMem hlt.le (by omega) hb.bufferSize_lt ht

theorem bufAdd_ensures {b : Buf} {s : Bytes} {str : CString} (hb : b.Holds s)
    (hlen : str.val.length < 2 ^ 31 - 1) :
    Ensures (bufAdd b str) (s.length + str.val.length + 1 ≤ 2 ^ 30) fun b' =>
      b'.Holds (s ++ str) ∧ b'.size = (s ++ str.val).length + 1 := by
  have hlt := hb.length_lt
  rw [bufAdd, bufStrnlen_eq hb, ok_bind]
  exact bufOffsNcopy_ensures hb.startsWith hb.notMem hlt.le (by omega) hb.bufferSize_lt hlen

end GroovyServ.Client
