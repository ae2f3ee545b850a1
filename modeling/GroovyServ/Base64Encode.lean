import GroovyServ.Base64
import GroovyServ.CStrings

/-!
# The client's Base64 encoder

`base64Encode` follows `base64_encode`: bytes are shifted into a 32-bit working
buffer that is never cleared, and six bits are taken from it whenever that many
are waiting. What it writes is the encoding of RFC 4648 and a NUL.
-/

namespace GroovyServ.Client

open CLib

def base64Dict : Bytes :=
  ascii "ABCDEFGHIJKLMNOPQRSTUVWXYZabcdefghijklmnopqrstuvwxyz0123456789+/"

def mask6Bits : BitVec 32 := 0x3f

structure Encoder where
  workBuff : BitVec 32 := 0
  available : ℕ := 0
  encoded : Bytes := []

def dictAt (work : BitVec 32) : UInt8 := base64Dict.getD (work &&& mask6Bits).toNat 0

/-- Each turn takes six of the available bits, so their number is fuel enough. -/
def consumeLoop : ℕ → Encoder → Encoder
  | 0, e => e
  | fuel + 1, e =>
    if 6 ≤ e.available then
      consumeLoop fuel
        { e with
          available := e.available - 6
          encoded := e.encoded ++ [dictAt (e.workBuff.sshiftRight (e.available - 6))] }
    else e

def encodeByte (e : Encoder) (c : UInt8) : Encoder :=
  consumeLoop (e.available + 8)
    { e with
      workBuff := e.workBuff <<< 8 ||| c.toBitVec.setWidth 32
      available := e.available + 8 }

def flushBits (e : Encoder) : Bytes :=
  if 0 < e.available then e.encoded ++ [dictAt (e.workBuff <<< (6 - e.available))] else e.encoded

def padLoop : ℕ → Bytes → Bytes
  | 0, encoded => encoded
  | fuel + 1, encoded =>
    if 0 < encoded.length % 4 then padLoop fuel (encoded ++ [Base64.pad]) else encoded

def base64Encode (original : CString) : Bytes :=
  padLoop 3 (flushBits (original.val.foldl encodeByte {})) ++ [0]

theorem sshiftRight_and_mask (work : BitVec 32) (k : ℕ) (hk : k + 6 ≤ 32) :
    work.sshiftRight k &&& mask6Bits = work >>> k &&& mask6Bits := by
  have hmask : ∀ i, 6 ≤ i → mask6Bits.getLsbD i = false := by
    intro i hi
    have hlt : mask6Bits.toNat < 2 ^ i :=
      lt_of_lt_of_le (by decide : mask6Bits.toNat < 2 ^ 6) (Nat.pow_le_pow_right (by omega) hi)
    rw [← BitVec.testBit_toNat]
    exact Nat.testBit_lt_two_pow hlt
  apply BitVec.eq_of_getLsbD_eq
  intro i hi
  rw [BitVec.getLsbD_and, BitVec.getLsbD_and]
  by_cases h6 : 6 ≤ i
  · rw [hmask i h6, Bool.and_false, Bool.and_false]
  · have hin : k + i < 32 := by omega
    rw [BitVec.getLsbD_sshiftRight, BitVec.getLsbD_ushiftRight, if_pos hin]
    simp [Nat.not_le.mpr hi]

theorem dictAt_eq (work : BitVec 32) : dictAt work = Base64.digit (work.toNat % 64) := by
  have hmask : (work &&& mask6Bits).toNat = work.toNat % 64 := by
    rw [BitVec.toNat_and]
    exact Nat.and_two_pow_sub_one_eq_mod work.toNat 6
  have hlen : base64Dict.length = 64 := by decide
  have hlt : work.toNat % 64 < base64Dict.length := by rw [hlen]; omega
  rw [dictAt, hmask, Base64.digit, List.getD_eq_getElem _ _ hlt]
  exact (List.getD_eq_getElem _ _ hlt).symm

theorem dictAt_sshiftRight (work : BitVec 32) (k : ℕ) (hk : k + 6 ≤ 32) :
    dictAt (work.sshiftRight k) = Base64.digit (work.toNat / 2 ^ k % 64) := by
  rw [dictAt, sshiftRight_and_mask work k hk, ← dictAt, dictAt_eq, BitVec.toNat_ushiftRight,
    Nat.shiftRight_eq_div_pow]

theorem toNat_append_byte (work : BitVec 32) (c : UInt8) :
    (work <<< 8 ||| c.toBitVec.setWidth 32).toNat = work.toNat % 2 ^ 24 * 256 + c.toNat := by
  have hc := c.toNat_lt
  have hbyte : (c.toBitVec.setWidth 32).toNat = c.toNat := by
    rw [BitVec.toNat_setWidth, UInt8.toNat_toBitVec]
    omega
  have hshift : (work <<< 8).toNat = (work.toNat % 2 ^ 24) <<< 8 := by
    rw [BitVec.toNat_shiftLeft, Nat.shiftLeft_eq, Nat.shiftLeft_eq]
    omega
  rw [BitVec.toNat_or, hbyte, hshift, ← Nat.shiftLeft_add_eq_or_of_lt (by omega),
    Nat.shiftLeft_eq]

structure Waiting (e : Encoder) (bits value : ℕ) (encoded : Bytes) : Prop where
  available : e.available = bits
  low : e.workBuff.toNat % 2 ^ bits = value
  encoded : e.encoded = encoded

theorem encodeByte_first {e : Encoder} {out : Bytes} {v : ℕ} (h : Waiting e 0 v out) (a : UInt8) :
    Waiting (encodeByte e a) 2 (a.toNat % 4) (out ++ [Base64.digit (a.toNat / 4)]) := by
  obtain ⟨havail, -, hout⟩ := h
  have ha := a.toNat_lt
  have hwork := toNat_append_byte e.workBuff a
  simp only [encodeByte, havail, consumeLoop, Nat.zero_add, Nat.reduceLeDiff, if_true, if_false,
    Nat.reduceSub]
  refine ⟨rfl, ?_, ?_⟩
  · change (e.workBuff <<< 8 ||| a.toBitVec.setWidth 32).toNat % 2 ^ 2 = a.toNat % 4
    omega
  · have hdigit : (e.workBuff <<< 8 ||| a.toBitVec.setWidth 32).toNat / 2 ^ 2 % 64 =
        a.toNat / 4 := by omega
    rw [dictAt_sshiftRight _ 2 (by omega), hout, hdigit]

theorem encodeByte_second {e : Encoder} {out : Bytes} {v : ℕ} (h : Waiting e 2 v out)
    (b : UInt8) :
    Waiting (encodeByte e b) 4 (b.toNat % 16)
      (out ++ [Base64.digit (v * 16 + b.toNat / 16)]) := by
  obtain ⟨havail, hlow, hout⟩ := h
  have hb := b.toNat_lt
  have hwork := toNat_append_byte e.workBuff b
  simp only [encodeByte, havail, consumeLoop, Nat.reduceAdd, Nat.reduceLeDiff, if_true, if_false,
    Nat.reduceSub]
  refine ⟨rfl, ?_, ?_⟩
  · change (e.workBuff <<< 8 ||| b.toBitVec.setWidth 32).toNat % 2 ^ 4 = b.toNat % 16
    omega
  · have hdigit : (e.workBuff <<< 8 ||| b.toBitVec.setWidth 32).toNat / 2 ^ 4 % 64 =
        v * 16 + b.toNat / 16 := by omega
    rw [dictAt_sshiftRight _ 4 (by omega), hout, hdigit]

theorem encodeByte_third {e : Encoder} {out : Bytes} {v : ℕ} (h : Waiting e 4 v out)
    (c : UInt8) :
    Waiting (encodeByte e c) 0 0
      (out ++ [Base64.digit (v * 4 + c.toNat / 64), Base64.digit (c.toNat % 64)]) := by
  obtain ⟨havail, hlow, hout⟩ := h
  have hc := c.toNat_lt
  have hwork := toNat_append_byte e.workBuff c
  simp only [encodeByte, havail, consumeLoop, Nat.reduceAdd, Nat.reduceLeDiff, if_true, if_false,
    Nat.reduceSub]
  refine ⟨rfl, Nat.mod_one _, ?_⟩
  have hhigh : (e.workBuff <<< 8 ||| c.toBitVec.setWidth 32).toNat / 2 ^ 6 % 64 =
      v * 4 + c.toNat / 64 := by omega
  have hlast : (e.workBuff <<< 8 ||| c.toBitVec.setWidth 32).toNat / 2 ^ 0 % 64 =
      c.toNat % 64 := by omega
  rw [dictAt_sshiftRight _ 6 (by omega), dictAt_sshiftRight _ 0 (by omega), hout, hhigh, hlast,
    List.append_assoc, List.singleton_append]

theorem flushBits_of_waiting {e : Encoder} {out : Bytes} {bits v : ℕ} (h : Waiting e bits v out)
    (hbits : 0 < bits) (hlt : bits < 6) :
    flushBits e = out ++ [Base64.digit (v * 2 ^ (6 - bits))] := by
  obtain ⟨havail, hlow, hout⟩ := h
  rw [flushBits, havail, if_pos hbits, hout, dictAt_eq, BitVec.toNat_shiftLeft, Nat.shiftLeft_eq]
  have hpow : 2 ^ bits * 2 ^ (6 - bits) = 64 := by
    rw [← Nat.pow_add, Nat.add_sub_cancel' hlt.le]
  have hmod : e.workBuff.toNat * 2 ^ (6 - bits) % 64 = v * 2 ^ (6 - bits) := by
    rw [← hpow, Nat.mul_mod_mul_right, hlow]
  rw [Nat.mod_mod_of_dvd _ (by decide), hmod]

theorem padLoop_of_mod {encoded : Bytes} (h : encoded.length % 4 = 0) (fuel : ℕ) :
    padLoop fuel encoded = encoded := by
  cases fuel with
  | zero => rfl
  | succ fuel => rw [padLoop, if_neg (by omega)]

theorem padLoop_append {out : Bytes} (hout : out.length % 4 = 0) (s : Bytes) {k fuel : ℕ}
    (hpos : 0 < s.length) (hlen : s.length + k = 4) (hfuel : k ≤ fuel) :
    padLoop fuel (out ++ s) = out ++ (s ++ List.replicate k Base64.pad) := by
  induction k generalizing s fuel with
  | zero =>
    rw [padLoop_of_mod (by rw [List.length_append]; omega), List.replicate_zero, List.append_nil]
  | succ k ih =>
    obtain ⟨fuel, rfl⟩ : ∃ n, fuel = n + 1 := ⟨fuel - 1, by omega⟩
    have hmod : 0 < (out ++ s).length % 4 := by
      rw [List.length_append]
      omega
    rw [padLoop, if_pos hmod, List.append_assoc,
      ih (s ++ [Base64.pad]) (by simp) (by rw [List.length_append, List.length_singleton]; omega)
        (by omega),
      List.replicate_succ, List.append_assoc, List.singleton_append]

theorem foldl_encodeByte (s : Bytes) {e : Encoder} {out : Bytes} {v : ℕ} (h : Waiting e 0 v out)
    (hout : out.length % 4 = 0) :
    padLoop 3 (flushBits (s.foldl encodeByte e)) = out ++ Base64.encode s := by
  induction s using Base64.encode.induct generalizing e out v with
  | case1 a b c rest ih =>
    have hthree := encodeByte_third (encodeByte_second (encodeByte_first h a) b) c
    rw [List.foldl_cons, List.foldl_cons, List.foldl_cons, ih hthree (by simp; omega),
      Base64.encode]
    simp
  | case2 a b =>
    have htwo := encodeByte_second (encodeByte_first h a) b
    rw [List.foldl_cons, List.foldl_cons, List.foldl_nil,
      flushBits_of_waiting htwo (by omega) (by omega)]
    simp only [List.append_assoc, List.singleton_append]
    exact padLoop_append hout _ (by simp) (k := 1) rfl (by omega)
  | case3 a =>
    have hone := encodeByte_first h a
    rw [List.foldl_cons, List.foldl_nil, flushBits_of_waiting hone (by omega) (by omega)]
    simp only [List.append_assoc, List.singleton_append]
    exact padLoop_append hout _ (by simp) (k := 2) rfl (by omega)
  | case4 =>
    obtain ⟨havail, -, hencoded⟩ := h
    rw [List.foldl_nil, flushBits, havail, if_neg (lt_irrefl 0), hencoded, padLoop_of_mod hout]
    simp [Base64.encode]

theorem base64Encode_eq (s : CString) : base64Encode s = Base64.encode s.val ++ [0] := by
  rw [base64Encode, foldl_encodeByte s.val (v := 0) (e := {}) ⟨rfl, Nat.mod_one _, rfl⟩ rfl]
  rfl

theorem length_encode_le (s : Bytes) : (Base64.encode s).length + 1 ≤ s.length * 3 / 2 + 5 := by
  induction s using Base64.encode.induct with
  | case1 a b c rest ih =>
    simp only [Base64.encode, List.length_append, List.length_cons, List.length_nil]
    omega
  | case2 a b => simp [Base64.encode]
  | case3 a => simp [Base64.encode]
  | case4 => simp [Base64.encode]

theorem zero_notMem_encode (s : Bytes) : (0 : UInt8) ∉ Base64.encode s := fun h =>
  absurd (Base64.encode_printable s 0 h).1 (by decide)

/-- The encoder writes the RFC 4648 encoding, whole groups of four, and one NUL behind it,
the decoder gives the argument back, and all of it fits into the space that `send_header`
allocates for the argument. -/
theorem base64Encode_ensures (original : CString) :
    base64Encode original = Base64.encode original.val ++ [0] ∧
      (0 : UInt8) ∉ Base64.encode original.val ∧
      (Base64.encode original.val).length % 4 = 0 ∧
      Base64.decode (cString (base64Encode original)) = some original.val ∧
      (base64Encode original).length ≤ original.val.length * 3 / 2 + 5 := by
  have hwritten := base64Encode_eq original
  have hnul := zero_notMem_encode original.val
  refine ⟨hwritten, hnul, Base64.length_encode_mod original.val, ?_, ?_⟩
  · rw [hwritten, cString_append hnul, Base64.decode_encode]
  · rw [hwritten, List.length_append, List.length_singleton]
    exact length_encode_le original.val

end GroovyServ.Client
