import GroovyServ.ServerProtocol

/-!
# What is read of any bytes

Header blocks that nobody has formatted: the bytes up to the first empty line, or all
of them, are divided into lines, and each of these gives one value to one key. Nothing
behind the empty line is touched.
-/

namespace GroovyServ

open Lines Server

namespace Server

/-- The bytes are these lines with an empty line and the rest behind them, or they end
with the lines, the last of which may lack its line feed. -/
structure HeaderBlock (bytes : Bytes) (lines : List Bytes) (rest : Bytes) : Prop where
  nonempty : ∀ line ∈ lines, line ≠ []
  plain : ∀ line ∈ lines, lf ∉ line
  consumed : bytes = unlines lf lines ++ lf :: rest ∨
    (rest = [] ∧ (bytes = unlines lf lines ∨ bytes ++ [lf] = unlines lf lines))

/-- A line gives its key the trimmed text behind its first colon, if it has one. -/
inductive Contributes : Bytes → Bytes × Bytes → Prop where
  | colon {key text : Bytes} : (58 : UInt8) ∉ key →
      Contributes (key ++ 58 :: text) (key, trim text)
  | plain {line : Bytes} : (58 : UInt8) ∉ line → Contributes line (line, [])

/-- Each key has the values that the lines contribute to it, in the order of the lines. -/
structure Collects (lines : List Bytes) (headers : HeaderMap) : Prop where
  keys_nodup : (headers.map Prod.fst).Nodup
  values : ∃ entries, List.Forall₂ Contributes lines entries ∧ ∀ key,
    headers.get key = if entries.filter (·.1 = key) = [] then none
      else some ((entries.filter (·.1 = key)).map Prod.snd)

theorem HeaderBlock.cons {bytes rest line : Bytes} {lines : List Bytes}
    (h : HeaderBlock bytes lines rest) (hne : line ≠ []) (hlf : lf ∉ line) :
    HeaderBlock (line ++ lf :: bytes) (line :: lines) rest where
  nonempty := List.forall_mem_cons.mpr ⟨hne, h.nonempty⟩
  plain := List.forall_mem_cons.mpr ⟨hlf, h.plain⟩
  consumed := by
    rw [unlines_cons]
    rcases h.consumed with rfl | ⟨rfl, rfl | hlast⟩
    · exact .inl (by rw [List.append_assoc, List.cons_append])
    · exact .inr ⟨rfl, .inl rfl⟩
    · exact .inr ⟨rfl, .inr (by rw [← hlast, List.append_assoc, List.cons_append])⟩

theorem exists_readLine_eof (bytes : Bytes) :
    ∃ line rest, readLine .eof bytes = .ok (line, rest) := by
  induction bytes with
  | nil => exact ⟨[], [], rfl⟩
  | cons c bytes ih =>
    obtain ⟨line, rest, h⟩ := ih
    rw [readLine]
    by_cases hc : c = lf
    · exact ⟨[], bytes, if_pos hc⟩
    · exact ⟨c :: line, rest, by rw [if_neg hc, h, ok_bind]⟩

/-- At the end of the stream there is nothing to wait for: the lines are read, and they
divide the bytes. -/
theorem readLinesLoop_eof (fuel : ℕ) (bytes : Bytes) (hfuel : bytes.length < fuel) :
    ∃ lines rest, HeaderBlock bytes lines rest ∧
      readLinesLoop .eof fuel bytes = .ok (lines, rest) := by
  induction fuel generalizing bytes with
  | zero => omega
  | succ fuel ih =>
    obtain ⟨line, rest, hline⟩ := exists_readLine_eof bytes
    obtain ⟨hlf, hbytes⟩ := readLine_ok hline
    rw [readLinesLoop, hline, ok_bind]
    dsimp only
    by_cases hnil : line = []
    · subst hnil
      have hnone : ∀ line' : Bytes, line' ∉ ([] : List Bytes) := fun _ => List.not_mem_nil
      refine ⟨[], rest, ⟨fun _ h => absurd h (hnone _), fun _ h => absurd h (hnone _), ?_⟩,
        if_pos rfl⟩
      rcases hbytes with rfl | ⟨rfl, rfl⟩
      · exact .inl rfl
      · exact .inr ⟨rfl, .inl rfl⟩
    rw [if_neg hnil]
    rcases hbytes with rfl | ⟨rfl, rfl⟩
    · rw [List.length_append, List.length_cons] at hfuel
      obtain ⟨lines, rest', hblock, hread⟩ := ih rest (by omega)
      exact ⟨line :: lines, rest', hblock.cons hnil hlf, by rw [hread, ok_bind]⟩
    · -- the last line has no line feed
      obtain ⟨fuel, rfl⟩ : ∃ n, fuel = n + 1 :=
        ⟨fuel - 1, by have := List.length_pos_of_ne_nil hnil; omega⟩
      refine ⟨[bytes], [], ⟨by simpa using hnil, by simpa using hlf, ?_⟩, rfl⟩
      exact .inr ⟨rfl, .inr (by simp)⟩

theorem contributes_splitHeader (line : Bytes) : Contributes line (splitHeader line) := by
  have hsplit := List.takeWhile_append_dropWhile (p := fun c : UInt8 => decide (c ≠ 58)) (l := line)
  have hkey : (58 : UInt8) ∉ line.takeWhile fun c => decide (c ≠ 58) := fun h => by
    simpa using List.mem_takeWhile_imp h
  cases hdrop : line.dropWhile fun c => decide (c ≠ 58) with
  | nil =>
    rw [hdrop, List.append_nil] at hsplit
    have hplain : splitHeader line = (line, []) := by
      rw [splitHeader, hsplit, hdrop]
      rfl
    rw [hplain]
    exact .plain (hsplit ▸ hkey)
  | cons c text =>
    have hc := List.head?_dropWhile_not (fun c : UInt8 => decide (c ≠ 58)) line
    rw [hdrop] at hc
    obtain rfl : c = 58 := by simpa using hc
    have hcolon : splitHeader line = (line.takeWhile fun c => decide (c ≠ 58), trim text) := by
      rw [splitHeader, hdrop]
      rfl
    rw [hcolon]
    rw [hdrop] at hsplit
    nth_rewrite 1 [← hsplit]
    exact .colon hkey

theorem map_fst_add (headers : HeaderMap) (entry : Bytes × Bytes) :
    (headers.add entry).map Prod.fst =
      if entry.1 ∈ headers.map Prod.fst then headers.map Prod.fst
      else headers.map Prod.fst ++ [entry.1] := by
  induction headers with
  | nil => rfl
  | cons first headers ih =>
    obtain ⟨key, values⟩ := first
    rw [HeaderMap.add, List.map_cons]
    by_cases hkey : key = entry.1
    · rw [if_pos hkey, List.map_cons, if_pos (by rw [hkey]; exact List.mem_cons_self)]
    · rw [if_neg hkey, List.map_cons, ih]
      simp only [List.mem_cons, Ne.symm hkey, false_or]
      split_ifs <;> rfl

theorem nodup_headersOf (lines : List Bytes) : ((headersOf lines).map Prod.fst).Nodup := by
  induction lines using List.reverseRecOn with
  | nil => exact List.nodup_nil
  | append_singleton lines line ih =>
    have hfold : headersOf (lines ++ [line]) = (headersOf lines).add (splitHeader line) := by
      rw [headersOf, List.foldl_append]
      rfl
    rw [hfold, map_fst_add]
    split_ifs with hmem
    · exact ih
    · rw [← List.concat_eq_append, List.nodup_concat]
      exact ⟨hmem, ih⟩

theorem collects_headersOf (lines : List Bytes) : Collects lines (headersOf lines) where
  keys_nodup := nodup_headersOf lines
  values := by
    refine ⟨lines.map splitHeader, ?_, fun key => ?_⟩
    · rw [List.forall₂_map_right_iff, List.forall₂_same]
      exact fun line _ => contributes_splitHeader line
    · rw [get_headersOf, valuesOf]
      simp only [List.map_eq_nil_iff]

/-- The headers of any bytes are read to the first empty line, whatever the stream does
behind it, or to the end of the stream. -/
theorem parseHeaders_parsed (ending : Ending) (bytes : Bytes) :
    ∃ lines rest, HeaderBlock bytes lines rest ∧
      (ending = .eof ∨ bytes = unlines lf lines ++ lf :: rest →
        ∃ headers, parseHeaders ending bytes = .ok (headers, rest) ∧ Collects lines headers) := by
  obtain ⟨lines, rest, hblock, hread⟩ := readLinesLoop_eof _ bytes (Nat.lt_succ_self _)
  refine ⟨lines, rest, hblock, fun h => ⟨headersOf lines, ?_, collects_headersOf lines⟩⟩
  have hlines : readLines ending bytes = .ok (lines, rest) := by
    rcases h with rfl | hbytes
    · exact hread
    · have hnil : [] ∉ lines := fun hmem => hblock.nonempty [] hmem rfl
      rw [hbytes, readLines_unlines ending hblock.plain, blockLines_eq_self hnil,
        afterBlock_eq_rest lf hnil]
  rw [parseHeaders, hlines]

end Server
end GroovyServ
