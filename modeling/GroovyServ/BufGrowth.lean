import GroovyServ.Buf

/-!
# The growth of a buffer

Both ways of writing into a buffer double `buffer_size` until there is room. It is an
`int`, so a doubling that reaches 2 ^ 31 wraps, and after 32 doublings it is 0. From
most sizes the doublings do not reach every `int`.
-/

namespace GroovyServ.Client

/-- The sizes in the loop of `buf_offs_vprintf`. Whatever `vsnprintf` stores, it returns
the length of its output. -/
def retryLoop (offs length : ℤ) : ℕ → ℤ → CResult ℤ
  | 0, _ => .error .diverges
  | fuel + 1, bufferSize =>
    let rest := wrap32 (bufferSize - offs)
    if rest ≤ length then retryLoop offs length fuel (wrap32 (bufferSize * 2))
    else .ok bufferSize

theorem retryLoop_of_ok {offs : ℕ} {output : Bytes} {fuel : ℕ} {b b' : Buf}
    (h : bufOffsVprintfLoop offs output fuel b = .ok b') :
    retryLoop offs output.length fuel b.bufferSize = .ok b'.bufferSize := by
  induction fuel generalizing b with
  | zero => cases h
  | succ fuel ih =>
    rw [bufOffsVprintfLoop] at h
    obtain ⟨b₁, hstore, h⟩ := bind_eq_ok.mp h
    obtain ⟨-, -, hsize, -, -⟩ := Buf.store_eq_ok hstore
    rw [retryLoop]
    split_ifs at h ⊢ with hle
    · have hrest := ih h
      rw [← hsize]
      exact hrest
    · obtain rfl := Except.ok.inj h
      exact congrArg Except.ok hsize.symm

def doubled (size : ℤ) (k : ℕ) : ℤ := wrap32 (size * 2 ^ k)

theorem doubled_zero {size : ℤ} (hpos : 1 ≤ size) (hlt : size < 2 ^ 31) :
    doubled size 0 = size := by
  rw [doubled, pow_zero, mul_one, wrap32_of_mem _ (by omega) hlt]

theorem doubled_succ (size : ℤ) (k : ℕ) : doubled size (k + 1) = wrap32 (doubled size k * 2) := by
  rw [doubled, doubled, wrap32, wrap32, wrap32, Int.bmod_mul_bmod, pow_succ, mul_assoc]

/-- The bits of a size have all gone after 32 doublings. -/
theorem doubled_of_ge (size : ℤ) {k : ℕ} (hk : 32 ≤ k) : doubled size k = 0 := by
  obtain ⟨m, rfl⟩ := Nat.exists_eq_add_of_le hk
  refine Int.bmod_eq_zero_of_dvd ⟨size * 2 ^ m, ?_⟩
  push_cast
  ring

theorem lt_of_doubled_pos {size : ℤ} {k : ℕ} (h : 0 < doubled size k) : k < 32 := by
  by_contra hge
  rw [doubled_of_ge size (not_lt.mp hge)] at h
  exact lt_irrefl 0 h

theorem doubled_lt (size : ℤ) (k : ℕ) : doubled size k < 2 ^ 31 := wrap32_lt _

theorem doubled_ge (size : ℤ) (k : ℕ) : -2 ^ 31 ≤ doubled size k := wrap32_ge _

section Loop

variable (stop : ℤ → Prop) [DecidablePred stop]

/-- Both loops double the size until a test of it stops them. -/
def doubleUntil : ℕ → ℤ → CResult ℤ
  | 0, _ => .error .diverges
  | fuel + 1, size => if stop size then .ok size else doubleUntil fuel (wrap32 (size * 2))

structure StopsAt (size : ℤ) (k : ℕ) : Prop where
  stops : stop (doubled size k)
  first : ∀ j < k, ¬ stop (doubled size j)

variable {stop}

theorem doubleUntil_of_ok {fuel k : ℕ} {size size' : ℤ}
    (h : doubleUntil stop fuel (doubled size k) = .ok size')
    (hfirst : ∀ j < k, ¬ stop (doubled size j)) :
    ∃ j, StopsAt stop size j ∧ doubled size j = size' := by
  induction fuel generalizing k with
  | zero => cases h
  | succ fuel ih =>
    rw [doubleUntil] at h
    split_ifs at h with hstop
    · exact ⟨k, ⟨hstop, hfirst⟩, Except.ok.inj h⟩
    · rw [← doubled_succ] at h
      refine ih h fun j hj => ?_
      rcases Nat.lt_succ_iff_lt_or_eq.mp hj with hj | rfl
      · exact hfirst j hj
      · exact hstop

theorem doubleUntil_eq_ok {size : ℤ} {j : ℕ} (h : StopsAt stop size j) (m : ℕ) (hm : m ≤ j) :
    doubleUntil stop (m + 1) (doubled size (j - m)) = .ok (doubled size j) := by
  induction m with
  | zero => rw [doubleUntil, Nat.sub_zero, if_pos h.stops]
  | succ m ih =>
    have hnext : j - (m + 1) + 1 = j - m := by omega
    rw [doubleUntil, if_neg (h.first _ (by omega)), ← doubled_succ, hnext, ih (by omega)]

theorem exists_doubleUntil_iff {size : ℤ} (hpos : 1 ≤ size) (hlt : size < 2 ^ 31)
    (P : ℤ → Prop) :
    (∃ fuel size', doubleUntil stop fuel size = .ok size' ∧ P size') ↔
      ∃ k, StopsAt stop size k ∧ P (doubled size k) := by
  rw [← doubled_zero hpos hlt]
  constructor
  · rintro ⟨fuel, size', h, hP⟩
    rw [doubled_zero hpos hlt]
    obtain ⟨k, hk, rfl⟩ := doubleUntil_of_ok h fun j hj => absurd hj (Nat.not_lt_zero j)
    exact ⟨k, hk, hP⟩
  · rintro ⟨k, hk, hP⟩
    rw [doubled_zero hpos hlt] at hk hP
    have hend := doubleUntil_eq_ok hk k le_rfl
    rw [Nat.sub_self] at hend
    exact ⟨k + 1, _, hend, hP⟩

theorem exists_stopsAt (stop : ℤ → Prop) [DecidablePred stop] {size : ℤ} {k : ℕ}
    (h : stop (doubled size k)) :
    ∃ j ≤ k, StopsAt stop size j := by
  have hex : ∃ k, stop (doubled size k) := ⟨k, h⟩
  exact ⟨Nat.find hex, Nat.find_min' hex h, Nat.find_spec hex, fun j hj => Nat.find_min hex hj⟩

end Loop

theorem growLoop_eq (needed : ℤ) (fuel : ℕ) (size : ℤ) :
    growLoop needed fuel size = doubleUntil (needed ≤ ·) fuel size := by
  induction fuel generalizing size with
  | zero => rfl
  | succ fuel ih =>
    rw [growLoop, doubleUntil, ih]
    by_cases hlt : size < needed
    · rw [if_pos hlt, if_neg (not_le.mpr hlt)]
    · rw [if_neg hlt, if_pos (not_lt.mp hlt)]

theorem retryLoop_eq (offs length : ℤ) (fuel : ℕ) (size : ℤ) :
    retryLoop offs length fuel size =
      doubleUntil (fun size => length < wrap32 (size - offs)) fuel size := by
  induction fuel generalizing size with
  | zero => rfl
  | succ fuel ih =>
    rw [retryLoop, doubleUntil, ih]
    by_cases hle : wrap32 (size - offs) ≤ length
    · rw [if_pos hle, if_neg (not_lt.mpr hle)]
    · rw [if_neg hle, if_pos (not_le.mp hle)]

theorem length_lt_rest_iff {offs length : ℕ} (hfit : offs + length + 1 < 2 ^ 31) {size : ℤ}
    (hge : -2 ^ 31 ≤ size) (hlt : size < 2 ^ 31) :
    (length : ℤ) < wrap32 (size - offs) ↔
      (offs + length + 1 : ℤ) ≤ size ∨ size + 2 ^ 31 < offs := by
  by_cases hunder : size + 2 ^ 31 < offs
  · rw [wrap32_of_lt _ (by omega) (by omega)]
    omega
  · rw [wrap32_of_mem _ (by omega) (by omega)]
    omega

/-- The growth loop of `buf_offs_ncopy` ends, with room for the copy. -/
def GrowsTo (bufferSize offs n : ℤ) : Prop :=
  ∃ fuel bufferSize', growLoop (wrap32 (offs + n)) fuel bufferSize = .ok bufferSize' ∧
    offs + n ≤ bufferSize' ∧ 0 < bufferSize'

/-- The retry loop of `buf_offs_vprintf` ends, with room for the output and its NUL. -/
def RetriesTo (bufferSize offs length : ℤ) : Prop :=
  ∃ fuel bufferSize', retryLoop offs length fuel bufferSize = .ok bufferSize' ∧
    offs + length + 1 ≤ bufferSize' ∧ 0 < bufferSize'

section Sizes

variable {bufferSize : ℤ} (hpos : 1 ≤ bufferSize) (hlt : bufferSize < 2 ^ 31)

include hpos hlt

theorem growsTo_iff {offs n : ℕ} (hfit : offs + n < 2 ^ 31) :
    GrowsTo bufferSize offs n ↔ ∃ k < 32, (offs + n : ℤ) ≤ doubled bufferSize k := by
  have hwrap : wrap32 ((offs : ℤ) + n) = offs + n := wrap32_of_mem _ (by omega) (by omega)
  have hzero := doubled_zero hpos hlt
  rw [GrowsTo, hwrap]
  simp only [growLoop_eq]
  rw [exists_doubleUntil_iff hpos hlt fun size => (offs + n : ℤ) ≤ size ∧ 0 < size]
  constructor
  · rintro ⟨k, -, hroom, hk⟩
    exact ⟨k, lt_of_doubled_pos hk, hroom⟩
  · rintro ⟨k, -, hroom⟩
    obtain ⟨j, -, hj⟩ := exists_stopsAt ((offs + n : ℤ) ≤ ·) hroom
    refine ⟨j, hj, hj.stops, ?_⟩
    have hstops := hj.stops
    cases j with
    | zero => omega
    | succ j =>
      -- it has not stopped at once, so something is needed
      have hfirst := hj.first 0 (Nat.succ_pos j)
      omega

/-- The output fits when a doubling reaches its end, and none before it lets the space
behind the offset underflow. -/
theorem retriesTo_iff {offs length : ℕ} (hfit : offs + length + 1 < 2 ^ 31) :
    RetriesTo bufferSize offs length ↔ ∃ k < 32, (offs + length + 1 : ℤ) ≤ doubled bufferSize k ∧
      ∀ j < k, (offs : ℤ) ≤ doubled bufferSize j + 2 ^ 31 := by
  have hstop (k : ℕ) := length_lt_rest_iff hfit (doubled_ge bufferSize k) (doubled_lt bufferSize k)
  rw [RetriesTo]
  simp only [retryLoop_eq]
  rw [exists_doubleUntil_iff hpos hlt fun size => (offs + length + 1 : ℤ) ≤ size ∧ 0 < size]
  constructor
  · rintro ⟨k, hk, hroom, hpos⟩
    refine ⟨k, lt_of_doubled_pos hpos, hroom, fun j hj => ?_⟩
    have hfirst := (hstop j).not.mp (hk.first j hj)
    omega
  · rintro ⟨k, -, hroom, hunder⟩
    obtain ⟨j, hjk, hj⟩ := exists_stopsAt
      (fun size => (length : ℤ) < wrap32 (size - offs)) ((hstop k).mpr (.inl hroom))
    have hroom' : (offs + length + 1 : ℤ) ≤ doubled bufferSize j := by
      rcases (hstop j).mp hj.stops with h | h
      · exact h
      · rcases Nat.lt_or_eq_of_le hjk with hjk | rfl
        · have hno := hunder j hjk
          omega
        · exact hroom
    exact ⟨j, hj, hroom', by omega⟩

/-- Each loop ends with room for what is written just when a doubling of the `int` reaches
its end before the space behind the offset underflows; the loop on a buffer goes through
the sizes of `retryLoop`. -/
theorem growth_iff (offs n length : ℕ) :
    (offs + n < 2 ^ 31 →
      (GrowsTo bufferSize offs n ↔ ∃ k < 32, (offs + n : ℤ) ≤ doubled bufferSize k)) ∧
      (offs + length + 1 < 2 ^ 31 →
        (RetriesTo bufferSize offs length ↔
          ∃ k < 32, (offs + length + 1 : ℤ) ≤ doubled bufferSize k ∧
            ∀ j < k, (offs : ℤ) ≤ doubled bufferSize j + 2 ^ 31)) ∧
      ∀ fuel output (b b' : Buf), bufOffsVprintfLoop offs output fuel b = .ok b' →
        retryLoop offs output.length fuel b.bufferSize = .ok b'.bufferSize :=
  ⟨growsTo_iff hpos hlt, retriesTo_iff hpos hlt, fun _ _ _ _ => retryLoop_of_ok⟩

end Sizes

theorem growth_default :
    GrowsTo defaultBufferSize (100 : ℕ) (1000 : ℕ) ∧
      RetriesTo defaultBufferSize (100 : ℕ) (1000 : ℕ) := by
  have h := growth_iff (by decide : 1 ≤ defaultBufferSize) (by decide) 100 1000 1000
  exact ⟨(h.1 (by decide)).mpr ⟨2, by decide, by decide⟩,
    (h.2.1 (by decide)).mpr ⟨2, by decide, by decide, by decide⟩⟩

theorem doubled_default_le {k : ℕ} (hk : k < 32) : doubled defaultBufferSize k ≤ 2 ^ 30 := by
  have hall : ∀ k < 32, doubled defaultBufferSize k ≤ 2 ^ 30 := by decide +kernel
  exact hall k hk

theorem not_growsTo_default : ¬ GrowsTo defaultBufferSize (0 : ℕ) (1073741825 : ℕ) := by
  rw [growsTo_iff (by decide) (by decide) (by decide)]
  rintro ⟨k, hk, hroom⟩
  have hle := doubled_default_le hk
  omega

end GroovyServ.Client
