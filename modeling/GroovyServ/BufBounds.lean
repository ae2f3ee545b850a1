import GroovyServ.BufAccess

/-!
# The bounds of a buffer

After every call of `buf.c` that returns, `size` is within the allocation. So each call of
a history stays within it exactly when it fits.
-/

namespace GroovyServ.Client

open CLib

namespace Buf

/-- `size` is within the allocation, whose size is an `int`. -/
structure Sound (b : Buf) : Prop where
  size_nonneg : 0 ≤ b.size
  size_le : b.size ≤ b.bufferSize
  bufferSize_pos : 0 < b.bufferSize
  bufferSize_lt : b.bufferSize < 2 ^ 31

theorem Sound.stores {b : Buf} (h : b.Sound) : b.Stores b.content := by
  have hlength : ((List.range b.size.toNat).map b.buffer).length = b.size.toNat := by
    rw [List.length_map, List.length_range]
  have hread : ∀ i c, ((List.range b.size.toNat).map b.buffer)[i]? = some c →
      b.buffer i = c := by
    intro i c hc
    obtain ⟨hi, rfl⟩ := List.getElem?_eq_some_iff.mp hc
    rw [List.getElem_map, List.getElem_range]
  rw [content]
  generalize (List.range b.size.toNat).map b.buffer = bytes at hlength hread ⊢
  have hsplit : cString bytes ++ bytes.dropWhile (· ≠ 0) = bytes := List.takeWhile_append_dropWhile
  have hcontent : ∀ (i : ℕ) (c : UInt8), (cString bytes)[i]? = some c → bytes[i]? = some c := by
    intro i c hc
    rw [← hsplit, List.getElem?_append_left (List.getElem?_eq_some_iff.mp hc).1, hc]
  refine ⟨fun i c hc => hread i c (hcontent i c hc), ?_, h.size_le, h.bufferSize_pos,
    h.bufferSize_lt, ?_⟩
  · exact fun hmem => absurd (List.mem_takeWhile_imp hmem) (by decide)
  · cases hrest : bytes.dropWhile (· ≠ 0) with
    | nil =>
      rw [hrest, List.append_nil] at hsplit
      have hsize := h.size_nonneg
      exact .inl (by rw [hsplit]; omega)
    | cons c rest =>
      have hzero : c = 0 := by
        have hnot := List.head?_dropWhile_not (· ≠ 0) bytes
        rw [hrest] at hnot
        simpa using hnot
      rw [hrest] at hsplit
      have hend : bytes[(cString bytes).length]? = some c := by
        calc bytes[(cString bytes).length]?
          _ = (cString bytes ++ c :: rest)[(cString bytes).length]? := by rw [hsplit]
          _ = some c := by rw [List.getElem?_append_right le_rfl, Nat.sub_self]; rfl
      have hlt := (List.getElem?_eq_some_iff.mp hend).1
      exact .inr ⟨by omega, (hread _ c hend).trans hzero⟩

end Buf

theorem bufNew_sound {size : ℤ} (hsize : 1 ≤ size) (hlt : size < 2 ^ 31)
    (memory : ℕ → UInt8) : (bufNew size memory).Sound := by
  have h := bufNew_stores (by omega : 0 ≤ size) hlt memory
  exact ⟨le_rfl, h.size_le, h.bufferSize_pos, h.bufferSize_lt⟩

section Calls

variable {b b' : Buf}

theorem bufOffsNcopy_sound (hb : b.Sound) {offs : ℕ} {str : Bytes} {n : ℤ}
    (h : bufOffsNcopy b offs str n = .ok b') : b'.Sound := by
  rw [bufOffsNcopy] at h
  split_ifs at h with hneg
  obtain ⟨size', hgrow, h⟩ := bind_eq_ok.mp h
  obtain ⟨b₁, hstore, h⟩ := bind_eq_ok.mp h
  obtain ⟨hroom, -, hsize, -, -⟩ := Buf.store_eq_ok hstore
  have hlt := growLoop_lt hb.bufferSize_lt hgrow
  rw [length_strncpy_nil] at hroom
  change (offs + n.toNat : ℤ) ≤ size' at hroom
  change b₁.bufferSize = size' at hsize
  have hwrap := wrap32_of_mem (offs + n) (by omega) (by omega)
  rw [hwrap] at h hgrow
  have hpos := growLoop_pos hb.bufferSize_pos hgrow
  obtain rfl := Except.ok.inj h
  exact ⟨by dsimp only; omega, by dsimp only; omega, hsize ▸ hpos, hsize ▸ hlt⟩

theorem bufOffsVprintfLoop_sound {offs : ℕ} {output : Bytes} {fuel : ℕ}
    (hlt : b.bufferSize < 2 ^ 31) (h : bufOffsVprintfLoop offs output fuel b = .ok b') :
    b'.Sound := by
  induction fuel generalizing b with
  | zero => cases h
  | succ fuel ih =>
    rw [bufOffsVprintfLoop] at h
    obtain ⟨b₁, hstore, h⟩ := bind_eq_ok.mp h
    obtain ⟨hroom, -, hsize, -, -⟩ := Buf.store_eq_ok hstore
    have hrest := wrap32_of_mem (b.bufferSize - offs) (by omega) (by omega)
    rw [hrest] at h
    split_ifs at h with hle
    · exact ih (wrap32_lt _) h
    · have hwrap := wrap32_of_mem (offs + output.length + 1) (by omega) (by omega)
      rw [hwrap] at h
      obtain rfl := Except.ok.inj h
      exact ⟨by dsimp only; omega, by dsimp only; omega, by dsimp only; omega,
        by dsimp only; omega⟩

theorem bufOffsPrintf_sound (hb : b.Sound) {offs : ℕ} {printed : Printed}
    (h : bufOffsPrintf b offs printed = .ok b') : b'.Sound := by
  have hlt := hb.bufferSize_lt
  cases printed with
  | output bytes hlength =>
    rw [bufOffsPrintf, bufOffsVprintf, if_neg (by omega)] at h
    exact bufOffsVprintfLoop_sound hlt h
  | failure memory =>
    rw [bufOffsPrintf, bufOffsVprintfFails] at h
    split_ifs at h with hinside
    obtain rfl := Except.ok.inj h
    have hwrap := wrap32_of_mem (offs + -1 + 1) (by omega) (by omega)
    have hpos := hb.bufferSize_pos
    refine ⟨?_, ?_, hpos, hlt⟩ <;> dsimp only <;> omega

theorem bufStrnlen_of_ok (hb : b.Sound) {offs : ℤ} (h : bufStrnlen b b.size = .ok offs) :
    offs = b.content.length := by
  by_cases hfull : b.Full
  · rw [bufStrnlen_of_full hb.stores hfull] at h
    cases h
  · rw [bufStrnlen_of_not_full hb.stores hfull] at h
    exact (Except.ok.inj h).symm

theorem BufCall.run_sound (hb : b.Sound) {call : BufCall} (h : call.run b = .ok b') :
    b'.Sound := by
  cases call with
  | offsNcopy offs str n => exact bufOffsNcopy_sound hb h
  | offsPrintf offs printed => exact bufOffsPrintf_sound hb h
  | strcopy str =>
    rw [run, bufStrcopy, ← Nat.cast_zero] at h
    exact bufOffsNcopy_sound hb h
  | nstrcopy str n =>
    rw [run, bufNstrcopy, ← Nat.cast_zero] at h
    exact bufOffsNcopy_sound hb h
  | add str =>
    obtain ⟨offs, hoffs, h⟩ := bind_eq_ok.mp h
    obtain rfl := bufStrnlen_of_ok hb hoffs
    exact bufOffsNcopy_sound hb h
  | printf printed =>
    obtain ⟨offs, hoffs, h⟩ := bind_eq_ok.mp h
    obtain rfl := bufStrnlen_of_ok hb hoffs
    exact bufOffsPrintf_sound hb h

theorem printfWrites_within_iff (hb : b.Sound) {offs : ℕ} (hoffs : offs < 2 ^ 31)
    (printed : Printed) :
    (∀ a ∈ printfWrites b offs printed, a.Within) ↔ printed.Fits b.bufferSize offs := by
  have hpos := hb.bufferSize_pos
  have hlt := hb.bufferSize_lt
  cases printed with
  | output bytes hlength =>
    have hdoublings : (2 : ℤ) ^ 31 ≤ b.bufferSize * 2 ^ 33 := by omega
    exact vprintfWrites_within_iff hoffs hpos hlt hdoublings
  | failure memory =>
    rw [printfWrites, Printed.Fits]
    split_ifs with hinside
    · exact iff_of_true (accessesFrom_within_iff.mpr (.inr (by omega))) hinside
    · exact iff_of_false (fun h => by have hroom := accessesFrom_within_iff.mp h; omega) hinside

theorem BufCall.within_iff_fits (hb : b.Sound) (call : BufCall) :
    call.Within b ↔ call.Fits b := by
  have hpos := hb.bufferSize_pos
  have hlt := hb.bufferSize_lt
  have hcopy {n : ℤ} (hn : n < 2 ^ 31) : ∀ a ∈ ncopyWrites b (0 : ℕ) n, a.Within :=
    (ncopyWrites_within_iff hpos hlt (by norm_num) hn).mpr (by omega)
  have hcontent : b.content.length < 2 ^ 31 := by
    have hle := hb.stores.length_le.trans hb.size_le
    omega
  cases call with
  | offsNcopy offs str n =>
    have hn : (n.val : ℤ) < 2 ^ 31 := by have h := n.property; omega
    exact (ncopyWrites_within_iff hpos hlt offs.property hn).trans (by
      rw [Fits]
      omega)
  | offsPrintf offs printed => exact printfWrites_within_iff hb offs.property printed
  | strcopy str => exact iff_of_true (hcopy (wrap32_lt _)) trivial
  | nstrcopy str n =>
    have hn : (n.val : ℤ) < 2 ^ 31 := by have h := n.property; omega
    exact iff_of_true (hcopy hn) trivial
  | add str =>
    exact (appendAccesses_within_iff hb.stores _).trans
      (and_congr_right fun _ => ncopyWrites_within_iff hpos hlt hcontent (wrap32_lt _))
  | printf printed =>
    exact (appendAccesses_within_iff hb.stores _).trans
      (and_congr_right fun _ => printfWrites_within_iff hb hcontent printed)

end Calls

def callSystem : StepSystem Buf BufCall where
  step b call := (call.run b).toOption

/-- Each of the calls touches the buffer that the calls before it leave within its
allocation. -/
def AlwaysWithin (b : Buf) (calls : List BufCall) : Prop :=
  callSystem.StepsMeet (fun b call => call.Within b) b calls

def AlwaysFits (b : Buf) (calls : List BufCall) : Prop :=
  callSystem.StepsMeet (fun b call => call.Fits b) b calls

theorem step_sound {b b' : Buf} {call : BufCall} (hb : b.Sound)
    (h : callSystem.step b call = some b') : b'.Sound := by
  cases hrun : call.run b with
  | error halt =>
    change (call.run b).toOption = some b' at h
    rw [hrun] at h
    cases h
  | ok b₁ =>
    change (call.run b).toOption = some b' at h
    rw [hrun] at h
    obtain rfl := Option.some.inj h
    exact BufCall.run_sound hb hrun

theorem bufNewWith_sound {size : ℤ} (hsize : 1 ≤ size) (hlt : size < 2 ^ 31)
    {initial : Option CString} {memory : ℕ → UInt8} {b : Buf}
    (h : bufNewWith size initial memory = .ok b) : b.Sound := by
  have hnew := bufNew_sound hsize hlt memory
  cases initial with
  | none => exact Except.ok.inj h ▸ hnew
  | some str =>
    have hrun : (BufCall.strcopy str).run (bufNew size memory) = .ok b := h
    exact BufCall.run_sound hnew hrun

/-- On a new buffer, whatever is in its memory, every call of a history stays within the
allocation just when every call fits. -/
theorem bufNewWith_alwaysWithin_iff {size : ℤ} (hsize : 1 ≤ size) (hlt : size < 2 ^ 31)
    {initial : Option CString} {memory : ℕ → UInt8} {b : Buf}
    (hnew : bufNewWith size initial memory = .ok b) (calls : List BufCall) :
    AlwaysWithin b calls ↔ AlwaysFits b calls :=
  StepSystem.stepsMeet_congr (fun _ _ _ => step_sound)
    (fun _ call hb => BufCall.within_iff_fits hb call) (bufNewWith_sound hsize hlt hnew)

theorem bufNewWith_alwaysWithin_copies :
    AlwaysWithin (bufNew 4 fun _ => 7) [.nstrcopy fourLetters ⟨4, by decide⟩,
      .strcopy fourLetters] :=
  (bufNewWith_alwaysWithin_iff (by decide) (by decide)
    (rfl : bufNewWith 4 none (fun _ => 7) = .ok _) _).mpr ⟨trivial, fun _ _ => ⟨trivial,
      fun _ _ => trivial⟩⟩

instance (a : BufAccess) : Decidable a.Within := inferInstanceAs (Decidable (_ ∧ _))

instance (b : Buf) (call : BufCall) : Decidable (call.Within b) :=
  inferInstanceAs (Decidable (∀ a ∈ call.accesses b, a.Within))

/-- Four bytes fill an allocation of four, and appending reads the fifth. -/
theorem not_alwaysWithin_four :
    ¬ AlwaysWithin (bufNew 4 fun _ => 7) [.nstrcopy fourLetters ⟨4, by decide⟩,
      .add fourLetters] := by
  intro h
  have hover : (callSystem.step (bufNew 4 fun _ => 7)
      (.nstrcopy fourLetters ⟨4, by decide⟩)).map
        (fun b => decide ((BufCall.add fourLetters).Within b)) = some false := by
    decide +kernel
  obtain ⟨b, hstep, hadd⟩ := Option.map_eq_some_iff.mp hover
  exact of_decide_eq_false hadd (h.2 b hstep).1

end GroovyServ.Client
