import GroovyServ.Buf
import GroovyServ.StepSystem

/-!
# Histories of a growing buffer

The operations of `buf.c` on a new buffer, in any order, are the plain operations on
the text that it stores: replacing it, whole or cut, and appending to it. Whatever the
allocations contain, the text is theirs and `size` stays within `bufferSize`. Appending
looks for the end of the text first, and the scan reads the byte behind `size`, which
the allocation does not have when the text fills it without a NUL.
-/

namespace GroovyServ.Client

open CLib

def bufStrcopy (b : Buf) (str : CString) : CResult Buf :=
  bufOffsNcopy b 0 str (wrap32 (str.val.length + 1))

def bufNstrcopy (b : Buf) (str : CString) (n : ℤ) : CResult Buf := bufOffsNcopy b 0 str n

def bufNewWith (size : ℤ) (initial : Option CString) (memory : ℕ → UInt8) : CResult Buf :=
  match initial with
  | none => .ok (bufNew size memory)
  | some str => bufStrcopy (bufNew size memory) str

inductive BufOp where
  | strcopy (str : CString)
  | nstrcopy (str : CString) (n : ℕ)
  | add (str : CString)
  | printf (output : CString)

namespace BufOp

def run (b : Buf) : BufOp → CResult Buf
  | strcopy str => bufStrcopy b str
  | nstrcopy str n => bufNstrcopy b str n
  | add str => bufAdd b str
  | printf output => bufPrintf b output

def apply (s : Bytes) : BufOp → Bytes
  | strcopy str => str
  | nstrcopy str n => str.val.take n
  | add str => s ++ str
  | printf output => s ++ output

def length : BufOp → ℕ
  | strcopy str => str.val.length
  | nstrcopy _ n => n
  | add str => str.val.length
  | printf output => output.val.length

def Appends : BufOp → Prop
  | strcopy _ => False
  | nstrcopy _ _ => False
  | add _ => True
  | printf _ => True

end BufOp

namespace Buf

/-- The bytes of `buffer[0..size)` up to the first NUL. -/
def content (b : Buf) : Bytes := cString ((List.range b.size.toNat).map b.buffer)

/-- The allocation is used up, without a NUL in it. -/
def Full (b : Buf) : Prop := b.size = b.bufferSize ∧ ∀ i : ℕ, i < b.size → b.buffer i ≠ 0

structure Stores (b : Buf) (s : Bytes) : Prop where
  startsWith : b.StartsWith s
  notMem : (0 : UInt8) ∉ s
  size_le : b.size ≤ b.bufferSize
  bufferSize_pos : 0 < b.bufferSize
  bufferSize_lt : b.bufferSize < 2 ^ 31
  ends : b.size = s.length ∨ (s.length < b.size ∧ b.buffer s.length = 0)

variable {b : Buf} {s : Bytes}

theorem Stores.length_le (h : b.Stores s) : s.length ≤ b.size := by
  rcases h.ends with h | ⟨h, -⟩
  · exact h.ge
  · exact h.le

theorem Holds.stores (h : b.Holds s) (hsize : b.size ≤ b.bufferSize) : b.Stores s where
  startsWith := h.startsWith
  notMem := h.notMem
  size_le := hsize
  bufferSize_pos := lt_of_le_of_lt (Int.natCast_nonneg _) h.length_lt
  bufferSize_lt := h.bufferSize_lt
  ends := h.ends.imp id fun ⟨hsize, hzero⟩ => ⟨by omega, hzero⟩

theorem Stores.getElem (h : b.Stores s) {i : ℕ} (hi : i < s.length) :
    b.buffer i = s[i] := h.startsWith i s[i] (List.getElem?_eq_getElem hi)

theorem Stores.map_range (h : b.Stores s) : (List.range s.length).map b.buffer = s := by
  apply List.ext_getElem (by simp)
  intro i hi hi'
  rw [List.getElem_map, List.getElem_range, h.getElem hi']

theorem Stores.content (h : b.Stores s) : b.content = s := by
  have hs : ∀ c ∈ s, decide (c ≠ 0) = true := fun c hc => by
    simpa using fun h0 : c = 0 => h.notMem (h0 ▸ hc)
  rw [Buf.content]
  rcases h.ends with hsize | ⟨hlt, hzero⟩
  · rw [hsize, Int.toNat_natCast, h.map_range, cString, List.takeWhile_eq_self_iff.mpr hs]
  · obtain ⟨k, hk⟩ : ∃ k, b.size.toNat = s.length + (k + 1) :=
      ⟨b.size.toNat - s.length - 1, by omega⟩
    rw [hk, List.range_add, List.map_append, h.map_range, List.range_succ_eq_map, List.map_cons,
      List.map_cons, Nat.add_zero, hzero, cString_append h.notMem]

theorem Stores.full_iff (h : b.Stores s) : b.Full ↔ (s.length : ℤ) = b.bufferSize := by
  constructor
  · rintro ⟨hsize, hne⟩
    rcases h.ends with hend | ⟨hlt, hzero⟩
    · rw [← hend, hsize]
    · exact absurd hzero (hne s.length hlt)
  · intro hlen
    have hsize : b.size = s.length := le_antisymm (hlen ▸ h.size_le) h.length_le
    refine ⟨by rw [hsize, hlen], fun i hi => ?_⟩
    have hlt : i < s.length := by omega
    rw [h.getElem hlt]
    exact fun hzero => h.notMem (hzero ▸ List.getElem_mem hlt)

end Buf

section Operations

variable {b : Buf} {s : Bytes}

theorem bufNew_stores {size : ℤ} (hsize : 0 ≤ size) (hlt : size < 2 ^ 31) (memory : ℕ → UInt8) :
    (bufNew size memory).Stores [] := by
  have hpos : 0 < (bufNew size memory).bufferSize ∧ (bufNew size memory).bufferSize < 2 ^ 31 := by
    have hallocated : (bufNew size memory).bufferSize =
        if size = 0 then defaultBufferSize else size := rfl
    rw [hallocated]
    split_ifs with hzero
    · exact ⟨by decide, by decide⟩
    · exact ⟨by omega, hlt⟩
  exact
    { startsWith := by simp [Buf.StartsWith]
      notMem := List.not_mem_nil
      size_le := hpos.1.le
      bufferSize_pos := hpos.1
      bufferSize_lt := hpos.2
      ends := .inl rfl }

theorem bufStrnlen_of_not_full (h : b.Stores s) (hfull : ¬ b.Full) :
    bufStrnlen b b.size = .ok s.length := by
  have hle := h.length_le.trans h.size_le
  have hne := (h.full_iff).not.mp hfull
  exact bufStrnlenLoop_eq h.startsWith h.notMem h.ends _ 0 (Nat.zero_le _) (by omega)

/-- Without a NUL the scan goes on to the byte behind `size`. -/
theorem bufStrnlenLoop_of_ne {b : Buf} (hne : ∀ i : ℕ, i < b.size → b.buffer i ≠ 0) (fuel i : ℕ)
    (hend : (i : ℤ) + fuel = b.size) : bufStrnlenLoop b b.size fuel i = .error .undefined := by
  induction fuel generalizing i with
  | zero => rfl
  | succ fuel ih =>
    push_cast at hend
    rw [bufStrnlenLoop, if_neg (hne i (by omega)), if_neg (by omega),
      ih (i + 1) (by push_cast; omega)]

theorem bufStrnlen_of_full (h : b.Stores s) (hfull : b.Full) :
    bufStrnlen b b.size = .error .undefined := by
  have hpos := h.bufferSize_pos
  have hsize := hfull.1
  exact bufStrnlenLoop_of_ne hfull.2 _ 0 (by omega)

theorem bufStrcopy_stores (h : b.Stores s) {str : CString} (hlen : str.val.length < 2 ^ 30) :
    ∃ b', bufStrcopy b str = .ok b' ∧ b'.Stores str := by
  have hnil : b.StartsWith [] := by simp [Buf.StartsWith]
  have hshort : str.val.length < 2 ^ 31 - 1 := by omega
  have hensures := bufOffsNcopy_ensures hnil List.not_mem_nil h.bufferSize_pos.le h.bufferSize_pos
    h.bufferSize_lt hshort
  simp only [List.length_nil, Nat.zero_add, List.nil_append, Nat.cast_zero] at hensures
  obtain ⟨b', hb'⟩ := hensures.returns (by omega)
  obtain ⟨hholds, hsize⟩ := hensures.post b' hb'
  have hlt := hholds.length_lt
  exact ⟨b', hb', hholds.stores (by omega)⟩

theorem bufAdd_stores (h : b.Stores s) (hfull : ¬ b.Full) {str : CString}
    (hlen : s.length + str.val.length < 2 ^ 30) :
    ∃ b', bufAdd b str = .ok b' ∧ b'.Stores (s ++ str) := by
  have hshort : str.val.length < 2 ^ 31 - 1 := by omega
  have hensures := bufOffsNcopy_ensures h.startsWith h.notMem (h.length_le.trans h.size_le)
    h.bufferSize_pos h.bufferSize_lt hshort
  obtain ⟨b', hb'⟩ := hensures.returns (by omega)
  obtain ⟨hholds, hsize⟩ := hensures.post b' hb'
  have hlt := hholds.length_lt
  refine ⟨b', ?_, hholds.stores (by omega)⟩
  rw [bufAdd, bufStrnlen_of_not_full h hfull, ok_bind, hb']

theorem bufPrintf_stores (h : b.Stores s) (hfull : ¬ b.Full) {output : CString}
    (hlen : s.length + output.val.length < 2 ^ 30) :
    ∃ b', bufPrintf b output = .ok b' ∧ b'.Stores (s ++ output) := by
  have hensures := bufOffsVprintf_ensures h.startsWith h.notMem (h.length_le.trans h.size_le)
    h.bufferSize_pos h.bufferSize_lt output.property
  obtain ⟨b', hb'⟩ := hensures.returns (by omega)
  obtain ⟨hholds, hsize⟩ := hensures.post b' hb'
  have hlt := hholds.length_lt
  refine ⟨b', ?_, hholds.stores (by omega)⟩
  rw [bufPrintf, bufStrnlen_of_not_full h hfull, ok_bind, hb']

/-- A copy of a given length leaves the text unterminated unless it pads it. -/
theorem bufNstrcopy_stores (h : b.Stores s) (str : CString) {n : ℕ} (hn : n < 2 ^ 30) :
    ∃ b', bufNstrcopy b str n = .ok b' ∧ b'.Stores (str.val.take n) := by
  have hpos := h.bufferSize_pos
  have hneeded : (n : ℤ) ≤ 2 ^ 30 := by omega
  have hdoublings : (2 : ℤ) ^ 30 < b.bufferSize * 2 ^ 33 := by omega
  obtain ⟨size', hgrow, hle⟩ := exists_growLoop hneeded 33 hdoublings
  have hpos' := growLoop_pos hpos hgrow
  have hlt' := growLoop_lt h.bufferSize_lt hgrow
  have hroom : ((0 : ℕ) : ℤ) + (strncpy [] str n).length ≤
      ({ b with bufferSize := size' } : Buf).bufferSize := by
    rw [length_strncpy_nil]
    simpa using hle
  obtain ⟨b₁, hstore⟩ := Buf.exists_store hroom
  obtain ⟨-, -, hsize₁, -, hdata⟩ := Buf.store_eq_ok hstore
  have hwrap : wrap32 (0 + (n : ℤ)) = n := by
    rw [zero_add]
    exact wrap32_of_mem _ (by omega) (by omega)
  refine ⟨{ b₁ with size := n }, ?_, ?_⟩
  · rw [bufNstrcopy, bufOffsNcopy, if_neg (by omega), hwrap, hgrow, ok_bind, Int.toNat_natCast]
    rw [Nat.cast_zero] at hstore
    rw [hstore, ok_bind]
  · have hread : ∀ i c, (strncpy [] str n)[i]? = some c → b₁.buffer i = c := fun i c hc => by
      simpa using hdata i c hc
    exact
      { startsWith := fun i c hc => hread i c (by
          rwa [strncpy, List.getElem?_append_left (List.getElem?_eq_some_iff.mp hc).1])
        notMem := fun hmem => str.property (List.mem_of_mem_take hmem)
        size_le := by rw [hsize₁]; exact hle
        bufferSize_pos := by rw [hsize₁]; exact hpos'
        bufferSize_lt := by rw [hsize₁]; exact hlt'
        ends := by
          rcases Nat.lt_or_ge str.val.length n with hpad | hcut
          · -- the padding starts behind the string
            rw [List.take_of_length_le hpad.le]
            refine .inr ⟨by simpa using hpad, hread _ 0 ?_⟩
            have hcopy : strncpy [] str n = str.val ++ List.replicate (n - str.val.length) 0 := by
              rw [strncpy, List.take_of_length_le hpad.le, List.drop_nil, List.append_nil]
            rw [hcopy, List.getElem?_append_right le_rfl, Nat.sub_self, List.getElem?_replicate,
              if_pos (by omega)]
          · left
            simp [hcut] }

theorem BufOp.run_stores (h : b.Stores s) (op : BufOp) (hlen : s.length + op.length < 2 ^ 30) :
    (¬ (op.Appends ∧ b.Full) → ∃ b', op.run b = .ok b' ∧ b'.Stores (op.apply s)) ∧
      (op.Appends ∧ b.Full → op.run b = .error .undefined) := by
  cases op with
  | strcopy str =>
    exact ⟨fun _ => bufStrcopy_stores h (lt_of_le_of_lt (Nat.le_add_left _ _) hlen),
      fun hfull => hfull.1.elim⟩
  | nstrcopy str n =>
    exact ⟨fun _ => bufNstrcopy_stores h str (lt_of_le_of_lt (Nat.le_add_left _ _) hlen),
      fun hfull => hfull.1.elim⟩
  | add str =>
    refine ⟨fun hfull => bufAdd_stores h (fun hb => hfull ⟨trivial, hb⟩) hlen, fun hfull => ?_⟩
    rw [BufOp.run, bufAdd, bufStrnlen_of_full h hfull.2]
    rfl
  | printf output =>
    refine ⟨fun hfull => bufPrintf_stores h (fun hb => hfull ⟨trivial, hb⟩) hlen, fun hfull => ?_⟩
    rw [BufOp.run, bufPrintf, bufStrnlen_of_full h hfull.2]
    rfl

end Operations

def bufSystem : StepSystem Buf BufOp where
  step b op := (op.run b).toOption

theorem bufSystem_step (b : Buf) (op : BufOp) : bufSystem.step b op = (op.run b).toOption := rfl

/-- Each of the calls returns, and leaves the text that the plain operations make, in
the bytes that `size` counts. -/
def AlwaysPlain (b : Buf) (s : Bytes) (ops : List BufOp) : Prop :=
  ∀ before, before <+: ops → ∃ b', bufSystem.run b before = some b' ∧
    b'.content = before.foldl BufOp.apply s ∧ b'.size ≤ b'.bufferSize

/-- No call appends to a full buffer. -/
def NeverFull (b : Buf) (ops : List BufOp) : Prop :=
  bufSystem.StepsMeet (fun b op => op.Appends → ¬ b.Full) b ops

theorem length_apply_le (s : Bytes) (op : BufOp) :
    (op.apply s).length ≤ s.length + op.length := by
  cases op with
  | strcopy str => exact Nat.le_add_left _ _
  | nstrcopy str n => exact (List.length_take_le n str.val).trans (Nat.le_add_left _ _)
  | add str => exact List.length_append.le
  | printf output => exact List.length_append.le

theorem alwaysPlain_nil {b : Buf} {s : Bytes} (h : b.Stores s) : AlwaysPlain b s [] := by
  intro before hbefore
  obtain rfl : before = [] := List.prefix_nil.mp hbefore
  exact ⟨b, rfl, h.content, h.size_le⟩

theorem alwaysPlain_cons {b b' : Buf} {s : Bytes} {op : BufOp} (h : b.Stores s)
    (hrun : op.run b = .ok b') (ops : List BufOp) :
    AlwaysPlain b s (op :: ops) ↔ AlwaysPlain b' (op.apply s) ops := by
  have hstep : bufSystem.step b op = some b' := by
    rw [bufSystem_step, hrun]
    rfl
  have hcons (before) : bufSystem.run b (op :: before) = bufSystem.run b' before := by
    rw [StepSystem.run_cons, hstep, Option.bind_some]
  constructor
  · intro hplain before hbefore
    have hlater := hplain (op :: before) ((List.prefix_cons_inj op).mpr hbefore)
    rwa [hcons] at hlater
  · intro hplain before hbefore
    cases before with
    | nil => exact ⟨b, rfl, h.content, h.size_le⟩
    | cons op' before =>
      obtain ⟨rfl, hrest⟩ := List.cons_prefix_cons.mp hbefore
      rw [hcons]
      exact hplain before hrest

theorem alwaysPlain_iff {b : Buf} {s : Bytes} (h : b.Stores s) (ops : List BufOp)
    (htotal : s.length + (ops.map BufOp.length).sum < 2 ^ 30) :
    AlwaysPlain b s ops ↔ NeverFull b ops := by
  induction ops generalizing b s with
  | nil => exact iff_of_true (alwaysPlain_nil h) trivial
  | cons op ops ih =>
    rw [List.map_cons, List.sum_cons] at htotal
    have hlen := length_apply_le s op
    obtain ⟨hreturns, hundefined⟩ := op.run_stores h (by omega)
    by_cases hfull : op.Appends ∧ b.Full
    · refine iff_of_false (fun hplain => ?_) fun hnever => hnever.1 hfull.1 hfull.2
      obtain ⟨b', hrun, -⟩ := hplain [op] ((List.prefix_cons_inj op).mpr (List.nil_prefix))
      rw [StepSystem.run_cons, bufSystem_step, hundefined hfull] at hrun
      cases hrun
    · obtain ⟨b', hrun, h'⟩ := hreturns hfull
      have hstep : bufSystem.step b op = some b' := by
        rw [bufSystem_step, hrun]
        rfl
      rw [alwaysPlain_cons h hrun, ih h' (by omega)]
      constructor
      · intro hnever
        refine ⟨fun happends hb => hfull ⟨happends, hb⟩, fun b'' hb'' => ?_⟩
        rw [hstep, Option.some.injEq] at hb''
        rwa [← hb'']
      · exact fun hnever => hnever.2 b' hstep

/-- On a new buffer, with or without an initial string and whatever is in the memory that
it is given, the calls behave as the plain operations exactly when none of them appends
to a full buffer. -/
theorem bufNewWith_alwaysPlain_iff {size : ℤ} (hsize : 0 ≤ size) (hlt : size < 2 ^ 31)
    (initial : Option CString) (memory : ℕ → UInt8) (ops : List BufOp)
    (htotal : ((initial.map Subtype.val).getD []).length + (ops.map BufOp.length).sum < 2 ^ 30) :
    ∃ b, bufNewWith size initial memory = .ok b ∧
      (AlwaysPlain b ((initial.map Subtype.val).getD []) ops ↔ NeverFull b ops) := by
  have hnew := bufNew_stores hsize hlt memory
  cases initial with
  | none => exact ⟨_, rfl, alwaysPlain_iff hnew ops htotal⟩
  | some str =>
    obtain ⟨b, hb, h⟩ := bufStrcopy_stores hnew
      (lt_of_le_of_lt (Nat.le_add_right _ _) htotal)
    exact ⟨b, hb, alwaysPlain_iff h ops htotal⟩

def fourLetters : CString := ⟨ascii "abcd", by decide⟩

theorem bufNewWith_alwaysPlain_iff_four : ∃ b,
    bufNewWith 4 (some fourLetters) (fun _ => 7) = .ok b ∧
      (AlwaysPlain b (ascii "abcd") [.nstrcopy fourLetters 4, .add fourLetters] ↔
        NeverFull b [.nstrcopy fourLetters 4, .add fourLetters]) :=
  bufNewWith_alwaysPlain_iff (by decide) (by decide) (some fourLetters) (fun _ => 7)
    [.nstrcopy fourLetters 4, .add fourLetters] (by decide +kernel)

/-- Four bytes are copied into an allocation of four, and appending reads a fifth. -/
theorem not_alwaysPlain_four : ∃ b, bufNewWith 4 none (fun _ => 7) = .ok b ∧
    ¬ AlwaysPlain b [] [.nstrcopy fourLetters 4, .add ⟨ascii "x", by decide⟩] := by
  refine ⟨_, rfl, fun hplain => ?_⟩
  obtain ⟨b', hrun, -⟩ := hplain _ List.prefix_rfl
  have hnone : (bufSystem.run (bufNew 4 fun _ => 7)
      [.nstrcopy fourLetters 4, .add ⟨ascii "x", by decide⟩]).isNone = true := by decide +kernel
  rw [hrun] at hnone
  cases hnone

end GroovyServ.Client
