import GroovyServ.Bytes

/-!
# Base64 as in RFC 4648

`encode` maps every three bytes to four digits of the alphabet and pads the last
group with `=`. `decode` accepts whole groups of four digits only, with padding
and zero filling bits in the last one, and inverts `encode`.
-/

namespace GroovyServ.Base64

def alphabet : Bytes :=
  ascii "ABCDEFGHIJKLMNOPQRSTUVWXYZabcdefghijklmnopqrstuvwxyz0123456789+/"

def pad : UInt8 := 61

def digit (v : ℕ) : UInt8 := alphabet.getD v pad

def value (c : UInt8) : Option ℕ := alphabet.idxOf? c

def encode : Bytes → Bytes
  | a :: b :: c :: rest =>
    [digit (a.toNat / 4), digit (a.toNat % 4 * 16 + b.toNat / 16),
      digit (b.toNat % 16 * 4 + c.toNat / 64), digit (c.toNat % 64)] ++ encode rest
  | [a, b] =>
    [digit (a.toNat / 4), digit (a.toNat % 4 * 16 + b.toNat / 16),
      digit (b.toNat % 16 * 4), pad]
  | [a] => [digit (a.toNat / 4), digit (a.toNat % 4 * 16), pad, pad]
  | [] => []

def decode : Bytes → Option Bytes
  | [] => some []
  | c₁ :: c₂ :: c₃ :: c₄ :: rest => do
    let v₁ ← value c₁
    let v₂ ← value c₂
    if rest = [] ∧ c₃ = pad ∧ c₄ = pad then
      if v₂ % 16 = 0 then some [UInt8.ofNat (v₁ * 4 + v₂ / 16)] else none
    else
      let v₃ ← value c₃
      if rest = [] ∧ c₄ = pad then
        if v₃ % 4 = 0 then
          some [UInt8.ofNat (v₁ * 4 + v₂ / 16), UInt8.ofNat (v₂ % 16 * 16 + v₃ / 4)]
        else none
      else
        let v₄ ← value c₄
        let tail ← decode rest
        some (UInt8.ofNat (v₁ * 4 + v₂ / 16) :: UInt8.ofNat (v₂ % 16 * 16 + v₃ / 4) ::
          UInt8.ofNat (v₃ % 4 * 64 + v₄) :: tail)
  | _ => none

theorem alphabet_eq : alphabet =
    (List.range 26).map (fun i => UInt8.ofNat (65 + i)) ++
      ((List.range 26).map (fun i => UInt8.ofNat (97 + i)) ++
        ((List.range 10).map (fun i => UInt8.ofNat (48 + i)) ++ [43, 47])) := by
  decide +kernel

theorem length_alphabet : alphabet.length = 64 := by
  rw [alphabet_eq]
  rfl

theorem nodup_alphabet : alphabet.Nodup := by
  rw [alphabet_eq]
  decide +kernel

theorem alphabet_printable {c : UInt8} (hc : c ∈ alphabet) :
    33 ≤ c.toNat ∧ c ≠ pad ∧ c ≠ 58 := by
  have hne : ∀ {n : ℕ}, n < 256 → n ≠ 61 ∧ n ≠ 58 →
      UInt8.ofNat n ≠ pad ∧ UInt8.ofNat n ≠ 58 := by
    intro n hn ⟨hpad, hcolon⟩
    constructor
    · exact fun heq => hpad ((Nat.mod_eq_of_lt hn).symm.trans (congrArg UInt8.toNat heq))
    · exact fun heq => hcolon ((Nat.mod_eq_of_lt hn).symm.trans (congrArg UInt8.toNat heq))
  rw [alphabet_eq] at hc
  simp only [List.mem_append, List.mem_map, List.mem_range, List.mem_cons, List.not_mem_nil,
    or_false] at hc
  rcases hc with ⟨i, hi, rfl⟩ | ⟨i, hi, rfl⟩ | ⟨i, hi, rfl⟩ | rfl | rfl
  · exact ⟨by rw [UInt8.toNat_ofNat']; omega, hne (by omega) (by omega)⟩
  · exact ⟨by rw [UInt8.toNat_ofNat']; omega, hne (by omega) (by omega)⟩
  · exact ⟨by rw [UInt8.toNat_ofNat']; omega, hne (by omega) (by omega)⟩
  · decide
  · decide

theorem digit_eq {v : ℕ} (hv : v < alphabet.length) : digit v = alphabet[v] :=
  List.getD_eq_getElem _ _ hv

theorem mem_alphabet_digit : ∀ v < 64, digit v ∈ alphabet := by
  intro v hv
  rw [← length_alphabet] at hv
  rw [digit_eq hv]
  exact List.getElem_mem hv

theorem digit_ne_pad : ∀ v < 64, digit v ≠ pad := fun v hv =>
  (alphabet_printable (mem_alphabet_digit v hv)).2.1

theorem value_digit : ∀ v < 64, value (digit v) = some v := by
  intro v hv
  rw [← length_alphabet] at hv
  rw [digit_eq hv, value, List.idxOf?_eq_some_iff]
  refine ⟨hv, rfl, fun j hj heq => ?_⟩
  have hsame : j = v := nodup_alphabet.getElem_inj_iff.mp heq
  omega

theorem ofNat_eq_of_toNat {n : ℕ} {a : UInt8} (h : n = a.toNat) : UInt8.ofNat n = a := by
  rw [h, UInt8.ofNat_toNat]

theorem decode_one (a : UInt8) :
    decode [digit (a.toNat / 4), digit (a.toNat % 4 * 16), pad, pad] = some [a] := by
  have ha := a.toNat_lt
  simp only [decode, value_digit (a.toNat / 4) (by omega),
    value_digit (a.toNat % 4 * 16) (by omega), Option.bind_eq_bind, Option.bind_some, and_self,
    if_true]
  rw [if_pos (by omega), ofNat_eq_of_toNat (a := a) (by omega)]

theorem decode_two (a b : UInt8) :
    decode [digit (a.toNat / 4), digit (a.toNat % 4 * 16 + b.toNat / 16),
      digit (b.toNat % 16 * 4), pad] = some [a, b] := by
  have ha := a.toNat_lt
  have hb := b.toNat_lt
  simp only [decode, value_digit (a.toNat / 4) (by omega),
    value_digit (a.toNat % 4 * 16 + b.toNat / 16) (by omega),
    value_digit (b.toNat % 16 * 4) (by omega), digit_ne_pad (b.toNat % 16 * 4) (by omega),
    Option.bind_eq_bind, Option.bind_some, false_and, and_false, and_self, if_true, if_false]
  rw [if_pos (by omega), ofNat_eq_of_toNat (a := a) (by omega),
    ofNat_eq_of_toNat (a := b) (by omega)]

theorem decode_three (a b c : UInt8) (rest : Bytes) :
    decode ([digit (a.toNat / 4), digit (a.toNat % 4 * 16 + b.toNat / 16),
      digit (b.toNat % 16 * 4 + c.toNat / 64), digit (c.toNat % 64)] ++ rest) =
      (decode rest).bind fun tail => some (a :: b :: c :: tail) := by
  have ha := a.toNat_lt
  have hb := b.toNat_lt
  have hc := c.toNat_lt
  simp only [List.cons_append, List.nil_append, decode, value_digit (a.toNat / 4) (by omega),
    value_digit (a.toNat % 4 * 16 + b.toNat / 16) (by omega),
    value_digit (b.toNat % 16 * 4 + c.toNat / 64) (by omega),
    value_digit (c.toNat % 64) (by omega),
    digit_ne_pad (b.toNat % 16 * 4 + c.toNat / 64) (by omega),
    digit_ne_pad (c.toNat % 64) (by omega), Option.bind_eq_bind, Option.bind_some,
    and_false, if_false]
  rw [ofNat_eq_of_toNat (a := a) (by omega), ofNat_eq_of_toNat (a := b) (by omega),
    ofNat_eq_of_toNat (a := c) (by omega)]

theorem decode_encode (s : Bytes) : decode (encode s) = some s := by
  induction s using encode.induct with
  | case1 a b c rest ih => rw [encode, decode_three, ih, Option.bind_some]
  | case2 a b => rw [encode, decode_two]
  | case3 a => rw [encode, decode_one]
  | case4 => rfl

/-- Padding fills the last group of four. -/
theorem length_encode_mod (s : Bytes) : (encode s).length % 4 = 0 := by
  induction s using encode.induct with
  | case1 a b c rest ih =>
    rw [encode, List.length_append, List.length_cons, List.length_cons, List.length_cons,
      List.length_cons, List.length_nil]
    omega
  | case2 a b => simp [encode]
  | case3 a => simp [encode]
  | case4 => rfl

theorem mem_encode (s : Bytes) : ∀ c ∈ encode s, c ∈ alphabet ∨ c = pad := by
  induction s using encode.induct with
  | case1 a b c rest ih =>
    have ha := a.toNat_lt
    have hb := b.toNat_lt
    have hc := c.toNat_lt
    intro d hd
    simp only [encode, List.cons_append, List.nil_append, List.mem_cons] at hd
    rcases hd with rfl | rfl | rfl | rfl | hd
    · exact .inl (mem_alphabet_digit _ (by omega))
    · exact .inl (mem_alphabet_digit _ (by omega))
    · exact .inl (mem_alphabet_digit _ (by omega))
    · exact .inl (mem_alphabet_digit _ (by omega))
    · exact ih d hd
  | case2 a b =>
    have ha := a.toNat_lt
    have hb := b.toNat_lt
    intro d hd
    simp only [encode, List.mem_cons, List.not_mem_nil, or_false] at hd
    rcases hd with rfl | rfl | rfl | rfl
    · exact .inl (mem_alphabet_digit _ (by omega))
    · exact .inl (mem_alphabet_digit _ (by omega))
    · exact .inl (mem_alphabet_digit _ (by omega))
    · exact .inr rfl
  | case3 a =>
    have ha := a.toNat_lt
    intro d hd
    simp only [encode, List.mem_cons, List.not_mem_nil, or_false] at hd
    rcases hd with rfl | rfl | rfl | rfl
    · exact .inl (mem_alphabet_digit _ (by omega))
    · exact .inl (mem_alphabet_digit _ (by omega))
    · exact .inr rfl
    · exact .inr rfl
  | case4 => intro d hd; cases hd

theorem encode_printable (s : Bytes) : ∀ c ∈ encode s, 33 ≤ c.toNat ∧ c ≠ 58 := by
  intro c hc
  rcases mem_encode s c hc with hc | rfl
  · exact ⟨(alphabet_printable hc).1, (alphabet_printable hc).2.2⟩
  · decide

end GroovyServ.Base64
