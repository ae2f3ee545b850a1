import GroovyServ.HeaderSlots

/-!
# What the client acts on after a block of headers

`start_session` looks the status, the channel and the size up in an array that still
holds what was there before. A line that is skipped leaves its element as it was, and
the look-up cannot tell. What is acted on comes from the block alone exactly when no
line is skipped before the status.
-/

namespace GroovyServ.Client

open CLib

inductive Action where
  | ends (status : ℤ)
  | receives (channel : Bytes) (size : ℤ)
  | undefined
  deriving DecidableEq

def Action.ofCode : Option ℤ → Action
  | some code => .ends code
  | none => .undefined

def actOn (headers : List Header) (size : ℕ) : Action :=
  match findHeader headers headerKeyStatus size with
  | .error h => .ofCode h.code
  | .ok (some status) => .ends (atoi status)
  | .ok none =>
    match findHeader headers headerKeyChannel size with
    | .error h => .ofCode h.code
    | .ok none => .ends 1
    | .ok (some sid) =>
      match findHeader headers headerKeySize size with
      | .error h => .ofCode h.code
      | .ok none => .ends 1
      | .ok (some chunkSize) => .receives (cString sid) (atoi chunkSize)

def acted (headers : List Header) (socket : Bytes) : Action :=
  match readHeaders headers socket with
  | .error h => .ofCode h.code
  | .ok (size, headers, _) => if size = 0 then .ends 0 else actOn headers size

def SessionEnd.status : SessionEnd → Option ℤ
  | .returned status => some status
  | .halted h => h.code

def Performs (sys : System) (s s' : Session) : Action → Prop
  | .ends status => s'.ended.map SessionEnd.status = some (some status)
  | .receives channel size => ∃ sid headers rest, cString sid = channel ∧
      s' = receiveFromServer sys sid size { s with headers := headers, socket := rest }
  | .undefined => s'.ended.map SessionEnd.status = some none

theorem performs_halt (sys : System) (s s' : Session) (h : Halt) :
    Performs sys s (s'.halt h) (.ofCode h.code) := by
  cases h <;> rfl

/-- A response is taken up as what the client acts on says. -/
theorem receiveResponse_performs (sys : System) (s : Session) :
    Performs sys s (receiveResponse sys s) (acted s.headers s.socket) := by
  unfold receiveResponse acted actOn
  cases readHeaders s.headers s.socket with
  | error h => exact performs_halt sys s s h
  | ok r =>
    obtain ⟨size, headers, rest⟩ := r
    dsimp only
    split_ifs
    · rfl
    · cases findHeader headers headerKeyStatus size with
      | error h => exact performs_halt sys s _ h
      | ok status =>
        cases status with
        | some status => rfl
        | none =>
          dsimp only
          cases findHeader headers headerKeyChannel size with
          | error h => exact performs_halt sys s _ h
          | ok sid =>
            cases sid with
            | none => rfl
            | some sid =>
              dsimp only
              cases findHeader headers headerKeySize size with
              | error h => exact performs_halt sys s _ h
              | ok chunkSize =>
                cases chunkSize with
                | none => rfl
                | some chunkSize => exact ⟨sid, headers, rest, rfl, rfl⟩

theorem acted_eq (headers : List Header) (input : Bytes) :
    acted headers input =
      match storeReads 0 headers (headerReads input).reads with
      | .error code => .ofCode code
      | .ok headers' =>
        if (headerReads input).complete ∧ (headerReads input).reads ≠ []
        then actOn headers' (headerReads input).reads.length else .ends 0 := by
  rw [acted]
  cases hstore : storeReads 0 headers (headerReads input).reads with
  | error code =>
    obtain ⟨halt, herror, rfl⟩ := readHeaders_error_iff.mpr hstore
    rw [herror]
  | ok headers' =>
    rw [readHeaders_ok hstore]
    dsimp only
    cases (headerReads input).complete with
    | false => rfl
    | true =>
      rw [if_pos rfl]
      by_cases hnil : (headerReads input).reads = []
      · simp [hnil]
      · simp [hnil, List.length_eq_zero_iff]

structure Storable (key value : Bytes) : Prop where
  key_plain : (0 : UInt8) ∉ key
  key_length : key.length ≤ maxHeaderKeyLen
  value_length : value.length < maxHeaderValueLen

theorem length_readLineLoop (n : ℕ) (input : Bytes) : (readLineLoop n input).1.length = n := by
  induction n generalizing input with
  | zero => rfl
  | succ n ih =>
    cases input with
    | nil => rw [readLineLoop, List.length_cons, ih]
    | cons c input =>
      rw [readLineLoop]
      split_ifs
      · rw [List.length_cons, List.length_replicate]
      · rw [List.length_cons, ih]

theorem storable_of_lineRead {buf key value : Bytes} (hbuf : buf.length = bufferSize)
    (h : lineRead buf = .stored key value) : Storable key value := by
  unfold lineRead at h
  split at h
  · cases h
  · cases h
  rename_i token rest htoken
  split_ifs at h with hlong
  split at h
  · cases h
  · cases h
  split at h
  · cases h
  · cases h
  rename_i text after htext
  split_ifs at h
  obtain ⟨rfl, rfl⟩ := LineRead.stored.inj h
  obtain ⟨lead, d, behind, hsplit, -, hne, hplain, -, hrest⟩ := strtok_eq_some htoken
  obtain ⟨lead', d', behind', hsplit', -⟩ := strtok_eq_some htext
  refine ⟨fun h0 => (hplain 0 h0).1 rfl, Nat.le_of_not_lt hlong, ?_⟩
  -- the key and the two delimiters leave room for less than an element
  have hvalue := (List.dropWhile_suffix (l := text) isspace).length_le
  have hkey := List.length_pos_of_ne_nil hne
  have hlen := congrArg List.length hsplit
  have hlen' := congrArg List.length hsplit'
  have hrest' : rest.length ≤ behind.length + 1 := by
    rw [hrest]
    split_ifs <;> simp
  simp only [List.length_append, List.length_cons] at hlen hlen'
  unfold bufferSize at hbuf
  unfold maxHeaderValueLen
  omega

theorem storable_of_mem_loop {fuel : ℕ} {input key value : Bytes}
    (h : .stored key value ∈ (headerReadsLoop fuel input).reads) : Storable key value := by
  induction fuel generalizing input with
  | zero => cases h
  | succ fuel ih =>
    rw [headerReadsLoop] at h
    cases hend : blockEnd (readLine input).1 with
    | some complete =>
      rw [hend] at h
      cases h
    | none =>
      rw [hend] at h
      rcases List.mem_cons.mp h with heq | hmem
      · exact storable_of_lineRead (length_readLineLoop _ _) heq.symm
      · exact ih hmem

theorem storable_of_mem {input key value : Bytes}
    (h : .stored key value ∈ (headerReads input).reads) : Storable key value :=
  storable_of_mem_loop h

def LineRead.valueOf (name : Bytes) : LineRead → Option Bytes
  | .stored key value => if key = name then some value else none
  | _ => none

section Find

variable {pos : ℕ} {headers headers' : List Header} {reads : List LineRead} {name : Bytes}

/-- The elements from `pos` on are what the lines have made of them. -/
def Filled (pos : ℕ) (headers headers' : List Header) (reads : List LineRead) : Prop :=
  ∀ (i : ℕ) (read : LineRead), reads[i]? = some read →
    read.effect headers[pos + i]? = .ok headers'[pos + i]?

theorem Filled.head {read : LineRead} (h : Filled pos headers headers' (read :: reads)) :
    read.effect headers[pos]? = .ok headers'[pos]? := h 0 read rfl

theorem Filled.tail {read : LineRead} (h : Filled pos headers headers' (read :: reads)) :
    Filled (pos + 1) headers headers' reads := by
  intro i r hr
  have hnext := h (i + 1) r (by simpa using hr)
  rwa [show pos + (i + 1) = pos + 1 + i by omega] at hnext

theorem findHeaderLoop_stored_cons {key value : Bytes} (hname : (0 : UInt8) ∉ name)
    (hshort : name.length < maxHeaderKeyLen) (hstorable : Storable key value)
    (hfilled : (LineRead.stored key value).effect headers[pos]? = .ok headers'[pos]?) (n : ℕ) :
    ∃ mem, findHeaderLoop headers' name (n + 1) pos =
      if key = name then .ok (some (value ++ 0 :: mem))
      else findHeaderLoop headers' name n (pos + 1) := by
  cases hget : headers[pos]? with
  | none =>
    rw [hget] at hfilled
    cases hfilled
  | some header =>
    rw [hget] at hfilled
    have hget' := (Except.ok.inj hfilled).symm
    obtain ⟨mem, hmem⟩ := strncpy_of_lt header.value value hstorable.value_length
    refine ⟨mem, ?_⟩
    rw [findHeaderLoop, hget', ← hmem]
    dsimp only
    by_cases hkey : key = name
    · subst hkey
      obtain ⟨kmem, hkmem⟩ := strncpy_of_lt header.key key hshort
      have hcmp : strcmpZero (strncpy header.key key maxHeaderKeyLen) key = true := by
        rw [hkmem, strcmpZero_append hname hname]
        exact decide_eq_true rfl
      rw [if_pos rfl]
      exact if_pos hcmp
    · rw [if_neg hkey]
      exact if_neg fun hcmp => hkey
        (key_eq_of_strcmpZero hstorable.key_plain hstorable.key_length hname hshort hcmp)

/-- If a line has stored the name before every skipped one, the first value of the name in
the block is what is found. -/
theorem findHeaderLoop_reads (hname : (0 : UInt8) ∉ name) (hshort : name.length < maxHeaderKeyLen)
    (hstorable : ∀ key value, .stored key value ∈ reads → Storable key value)
    (hfilled : Filled pos headers headers' reads)
    (hskip : ∀ before after, reads = before ++ .skipped :: after →
      ∃ value, .stored name value ∈ before) :
    (reads.findSome? (LineRead.valueOf name) = none ∧
        findHeaderLoop headers' name reads.length pos = .ok none) ∨
      ∃ value mem, reads.findSome? (LineRead.valueOf name) = some value ∧
        findHeaderLoop headers' name reads.length pos = .ok (some (value ++ 0 :: mem)) := by
  induction reads generalizing pos with
  | nil => exact .inl ⟨rfl, rfl⟩
  | cons read reads ih =>
    cases read with
    | stops code => exact nomatch hfilled.head
    | stopsAtValue code =>
      have hhead := hfilled.head
      cases hget : headers[pos]? <;> rw [hget] at hhead <;> cases hhead
    | skipped =>
      obtain ⟨value, hmem⟩ := hskip [] reads rfl
      cases hmem
    | stored key value =>
      obtain ⟨mem, hfind⟩ := findHeaderLoop_stored_cons hname hshort
        (hstorable key value List.mem_cons_self) hfilled.head reads.length
      rw [List.length_cons, hfind, List.findSome?_cons, LineRead.valueOf]
      by_cases hkey : key = name
      · rw [if_pos hkey, if_pos hkey]
        exact .inr ⟨value, mem, rfl, rfl⟩
      · rw [if_neg hkey, if_neg hkey]
        refine ih (fun k v hmem => hstorable k v (List.mem_cons_of_mem _ hmem)) hfilled.tail ?_
        intro before after hreads
        obtain ⟨v, hmem⟩ := hskip (.stored key value :: before) after (by rw [hreads]; rfl)
        rcases List.mem_cons.mp hmem with heq | hmem
        · exact absurd (LineRead.stored.inj heq).1.symm hkey
        · exact ⟨v, hmem⟩

theorem findHeaderLoop_others (hname : (0 : UInt8) ∉ name) (hshort : name.length < maxHeaderKeyLen)
    (hstorable : ∀ key value, .stored key value ∈ reads → Storable key value)
    (hfilled : Filled pos headers headers' reads) (hskip : .skipped ∉ reads)
    (hother : ∀ value, .stored name value ∉ reads) (n : ℕ) :
    findHeaderLoop headers' name (reads.length + n) pos =
      findHeaderLoop headers' name n (pos + reads.length) := by
  induction reads generalizing pos with
  | nil => rw [List.length_nil, Nat.zero_add, Nat.add_zero]
  | cons read reads ih =>
    cases read with
    | stops code => exact nomatch hfilled.head
    | stopsAtValue code =>
      have hhead := hfilled.head
      cases hget : headers[pos]? <;> rw [hget] at hhead <;> cases hhead
    | skipped => exact absurd List.mem_cons_self hskip
    | stored key value =>
      obtain ⟨mem, hfind⟩ := findHeaderLoop_stored_cons hname hshort
        (hstorable key value List.mem_cons_self) hfilled.head (reads.length + n)
      have hkey : key ≠ name := by
        rintro rfl
        exact hother value List.mem_cons_self
      rw [List.length_cons, Nat.add_right_comm, hfind, if_neg hkey,
        ih (fun k v hmem => hstorable k v (List.mem_cons_of_mem _ hmem)) hfilled.tail
          (fun hmem => hskip (List.mem_cons_of_mem _ hmem))
          (fun v hmem => hother v (List.mem_cons_of_mem _ hmem))]
      congr 1
      omega

end Find

theorem takeWhile_append_nul {p : UInt8 → Bool} (hp : p 0 = false) (s mem : Bytes) :
    (s ++ 0 :: mem).takeWhile p = s.takeWhile p := by
  induction s with
  | nil => simp [hp]
  | cons c s ih =>
    cases hc : p c with
    | false => simp [hc]
    | true => simp [hc, ih]

theorem dropWhile_append_nul {p : UInt8 → Bool} (hp : p 0 = false) (s mem : Bytes) :
    (s ++ 0 :: mem).dropWhile p = s.dropWhile p ++ 0 :: mem := by
  induction s with
  | nil => simp [hp]
  | cons c s ih =>
    cases hc : p c with
    | false => simp [hc]
    | true => simpa [hc] using ih

theorem strtol_append_nul (s mem : Bytes) : strtol (s ++ 0 :: mem) = strtol (s ++ [0]) := by
  have hdigits : ∀ t : Bytes, (t ++ 0 :: mem).takeWhile isDigit = (t ++ [0]).takeWhile isDigit :=
    fun t => (takeWhile_append_nul (by decide) t mem).trans
      (takeWhile_append_nul (by decide) t []).symm
  unfold strtol
  rw [dropWhile_append_nul (by decide) s mem, dropWhile_append_nul (by decide) s []]
  cases s.dropWhile isspace with
  | nil => rfl
  | cons c t =>
    by_cases h45 : c = 45
    · subst h45
      exact congrArg (fun digits => saturateLong (-(digitsValue digits : ℤ))) (hdigits t)
    · by_cases h43 : c = 43
      · subst h43
        exact congrArg (fun digits => saturateLong (digitsValue digits : ℤ)) (hdigits t)
      · split
        · exact absurd (List.cons.inj ‹_›).1 h45
        · exact absurd (List.cons.inj ‹_›).1 h43
        · split
          · exact absurd (List.cons.inj ‹_›).1 h45
          · exact absurd (List.cons.inj ‹_›).1 h43
          · rw [hdigits (c :: t)]

theorem atoi_append_nul (s mem : Bytes) : atoi (s ++ 0 :: mem) = atoi (s ++ [0]) := by
  rw [atoi, atoi, strtol_append_nul]

/-- A line has stored `Status` before every line that is skipped. -/
def StatusBeforeSkipped (reads : List LineRead) : Prop :=
  ∀ before after, reads = before ++ .skipped :: after →
    ∃ value, .stored headerKeyStatus value ∈ before

/-- The action on the first values that the lines store for the names. -/
def sentAction (reads : List LineRead) : Action :=
  match reads.findSome? (LineRead.valueOf headerKeyStatus) with
  | some status => .ends (atoi (status ++ [0]))
  | none =>
    match reads.findSome? (LineRead.valueOf headerKeyChannel) with
    | none => .ends 1
    | some sid =>
      match reads.findSome? (LineRead.valueOf headerKeySize) with
      | none => .ends 1
      | some chunkSize => .receives (cString (sid ++ [0])) (atoi (chunkSize ++ [0]))

section Acted

variable {headers headers' : List Header} {reads : List LineRead}

theorem actOn_eq (hstorable : ∀ key value, .stored key value ∈ reads → Storable key value)
    (hfilled : Filled 0 headers headers' reads) (hskip : StatusBeforeSkipped reads) :
    actOn headers' reads.length = sentAction reads := by
  have hfound : ∀ name : Bytes, (0 : UInt8) ∉ name → name.length < maxHeaderKeyLen →
      (∀ before after, reads = before ++ .skipped :: after →
        ∃ value, .stored name value ∈ before) → _ :=
    fun name hname hshort => findHeaderLoop_reads hname hshort hstorable hfilled
  rw [actOn, sentAction]
  rcases hfound headerKeyStatus (by decide) (by decide) hskip with
    ⟨hnone, hfind⟩ | ⟨status, mem, hsome, hfind⟩
  · rw [hnone, findHeader, hfind]
    dsimp only
    -- no status, so no line is skipped at all
    have hno : ∀ name before after, reads = before ++ .skipped :: after →
        ∃ value, .stored name value ∈ before := by
      intro name before after hreads
      obtain ⟨value, hmem⟩ := hskip before after hreads
      have hstatus := List.findSome?_eq_none_iff.mp hnone _
        (hreads ▸ List.mem_append_left _ hmem)
      rw [LineRead.valueOf, if_pos rfl] at hstatus
      cases hstatus
    rcases hfound headerKeyChannel (by decide) (by decide) (hno _) with
      ⟨hnone, hfind⟩ | ⟨sid, smem, hsome, hfind⟩
    · rw [hnone, findHeader, hfind]
    · rw [hsome, findHeader, hfind]
      dsimp only
      rcases hfound headerKeySize (by decide) (by decide) (hno _) with
        ⟨hnone, hfind⟩ | ⟨chunkSize, cmem, hsome, hfind⟩
      · rw [hnone, findHeader, hfind]
      · rw [hsome, findHeader, hfind]
        dsimp only
        rw [atoi_append_nul, cString, cString, takeWhile_append_nul (by decide),
          takeWhile_append_nul (by decide)]
  · rw [hsome, findHeader, hfind]
    exact congrArg Action.ends (atoi_append_nul status mem)

def staleHeader (status : Bytes) : Header :=
  (blankHeader.setKey headerKeyStatus).setValue status

theorem strcmpZero_staleHeader (status : Bytes) :
    strcmpZero (staleHeader status).key headerKeyStatus = true := by
  change strcmpZero (strncpy (List.replicate _ 0) headerKeyStatus maxHeaderKeyLen)
    headerKeyStatus = true
  decide

theorem atoi_staleHeader {status : Bytes} (h : status.length < maxHeaderValueLen) :
    atoi (staleHeader status).value = atoi (status ++ [0]) := by
  obtain ⟨mem, hmem⟩ := strncpy_of_lt (List.replicate (maxHeaderValueLen + 1) 0) status h
  exact (congrArg atoi hmem).trans (atoi_append_nul status mem)

/-- Otherwise the element of the first skipped line is looked into, if it exists. -/
theorem actOn_skipped {before after : List LineRead} {status : Bytes}
    (hstatus : status.length < maxHeaderValueLen)
    (hstorable : ∀ key value, .stored key value ∈ before → Storable key value)
    (hfilled : Filled 0 (List.replicate maxHeader (staleHeader status)) headers'
      (before ++ .skipped :: after))
    (hskip : .skipped ∉ before) (hother : ∀ value, .stored headerKeyStatus value ∉ before) :
    actOn headers' (before ++ .skipped :: after).length =
      if before.length < maxHeader then .ends (atoi (status ++ [0])) else .undefined := by
  have hbefore : Filled 0 (List.replicate maxHeader (staleHeader status)) headers' before := by
    intro i read hread
    obtain ⟨hi, -⟩ := List.getElem?_eq_some_iff.mp hread
    exact hfilled i read (by rw [List.getElem?_append_left hi, hread])
  have hfind := findHeaderLoop_others (by decide) (by decide) hstorable hbefore hskip hother
    (after.length + 1)
  have helement := hfilled before.length .skipped (by simp)
  rw [LineRead.effect, Nat.zero_add] at helement
  have helement' := (Except.ok.inj helement).symm
  rw [Nat.zero_add] at hfind
  rw [actOn, findHeader, List.length_append, List.length_cons, hfind, findHeaderLoop, helement']
  by_cases hin : before.length < maxHeader
  · rw [if_pos hin, List.getElem?_replicate, if_pos hin]
    dsimp only
    rw [if_pos (strcmpZero_staleHeader status)]
    exact congrArg Action.ends (atoi_staleHeader hstatus)
  · rw [if_neg hin, List.getElem?_replicate, if_neg hin]
    rfl

end Acted

def headerBlock (input : Bytes) : Bytes :=
  input.take (input.length - (headerReads input).rest.length)

theorem headerReadsLoop_suffix (fuel : ℕ) (input : Bytes) :
    (headerReadsLoop fuel input).rest <:+ input := by
  induction fuel generalizing input with
  | zero => exact List.suffix_rfl
  | succ fuel ih =>
    have hline := readLineLoop_suffix bufferSize input
    rw [headerReadsLoop]
    cases blockEnd (readLine input).1 with
    | some complete => exact hline
    | none => exact (ih (readLine input).2).trans hline

theorem headerBlock_append (input : Bytes) :
    headerBlock input ++ (headerReads input).rest = input := by
  obtain ⟨block, hblock⟩ := headerReadsLoop_suffix (input.length + 1) input
  rw [← headerReads] at hblock
  rw [headerBlock]
  conv_rhs => rw [← hblock]
  congr 1
  have hlen := congrArg List.length hblock
  rw [List.length_append] at hlen
  rw [← hlen, Nat.add_sub_cancel, ← hblock, List.take_left]

theorem readLineLoop_block {n : ℕ} {block rest rest' more more' : Bytes}
    (h : (readLineLoop n (block ++ rest)).2 = more ++ rest)
    (h' : (readLineLoop n (block ++ rest')).2 = more' ++ rest') :
    (readLineLoop n (block ++ rest)).1 = (readLineLoop n (block ++ rest')).1 ∧ more = more' := by
  induction n generalizing block with
  | zero =>
    rw [readLineLoop] at h h'
    exact ⟨rfl, (List.append_cancel_right h).symm.trans (List.append_cancel_right h')⟩
  | succ n ih =>
    cases block with
    | nil =>
      -- nothing is taken from behind the block, so nothing is there
      have hnil : ∀ rest more : Bytes,
          (readLineLoop (n + 1) ([] ++ rest)).2 = more ++ rest → rest = [] ∧ more = [] := by
        intro rest more hrest
        cases rest with
        | nil =>
          rw [List.nil_append, List.append_nil] at hrest
          exact ⟨rfl, hrest.symm⟩
        | cons c rest =>
          have hlt : (readLineLoop (n + 1) (c :: rest)).2.length < (c :: rest).length := by
            rw [readLineLoop]
            split_ifs
            · exact Nat.lt_succ_self _
            · exact Nat.lt_succ_of_le (readLineLoop_suffix n rest).length_le
          rw [List.nil_append] at hrest
          rw [hrest, List.length_append] at hlt
          omega
      obtain ⟨rfl, rfl⟩ := hnil rest more h
      obtain ⟨rfl, rfl⟩ := hnil rest' more' h'
      exact ⟨rfl, rfl⟩
    | cons c block =>
      rw [List.cons_append, readLineLoop] at h h' ⊢
      rw [List.cons_append, readLineLoop]
      by_cases hlf : c = lf
      · rw [if_pos hlf] at h h' ⊢
        rw [if_pos hlf]
        exact ⟨rfl, (List.append_cancel_right h).symm.trans (List.append_cancel_right h')⟩
      · rw [if_neg hlf] at h h' ⊢
        rw [if_neg hlf]
        obtain ⟨hbuf, hmore⟩ := ih h h'
        exact ⟨congrArg (c :: ·) hbuf, hmore⟩

theorem exists_more (fuel : ℕ) (input : Bytes) :
    ∃ more, (readLine input).2 = more ++ (headerReadsLoop (fuel + 1) input).rest := by
  rw [headerReadsLoop]
  cases blockEnd (readLine input).1 with
  | some complete => exact ⟨[], rfl⟩
  | none =>
    obtain ⟨more, hmore⟩ := headerReadsLoop_suffix fuel (readLine input).2
    exact ⟨more, hmore.symm⟩

/-- The lines of a block do not depend on what follows it. -/
theorem headerReadsLoop_block {fuel fuel' : ℕ} {block rest rest' : Bytes}
    (hfuel : (block ++ rest).length < fuel) (hfuel' : (block ++ rest').length < fuel')
    (h : (headerReadsLoop fuel (block ++ rest)).rest = rest)
    (h' : (headerReadsLoop fuel' (block ++ rest')).rest = rest') :
    (headerReadsLoop fuel (block ++ rest)).reads = (headerReadsLoop fuel' (block ++ rest')).reads ∧
      (headerReadsLoop fuel (block ++ rest)).complete =
        (headerReadsLoop fuel' (block ++ rest')).complete := by
  induction fuel generalizing fuel' block with
  | zero => omega
  | succ fuel ih =>
    obtain ⟨fuel', rfl⟩ : ∃ n, fuel' = n + 1 := ⟨fuel' - 1, by omega⟩
    obtain ⟨more, hmore⟩ := exists_more fuel (block ++ rest)
    obtain ⟨more', hmore'⟩ := exists_more fuel' (block ++ rest')
    rw [h] at hmore
    rw [h'] at hmore'
    obtain ⟨hbuf, rfl⟩ := readLineLoop_block hmore hmore'
    change (readLine _).1 = (readLine _).1 at hbuf
    cases hend : blockEnd (readLine (block ++ rest)).1 with
    | some complete =>
      have hend' := hbuf ▸ hend
      simp only [headerReadsLoop, hend, hend', and_self]
    | none =>
      have hend' := hbuf ▸ hend
      have hlt := length_readLine_lt hend
      have hlt' := length_readLine_lt hend'
      simp only [headerReadsLoop, hend, hend', hmore, hmore'] at h h' hlt hlt' ⊢
      obtain ⟨hreads, hcomplete⟩ := ih (by omega) (by omega) h h'
      rw [hbuf, hreads]
      exact ⟨rfl, hcomplete⟩

theorem headerReads_block {input input' : Bytes} (h : headerBlock input' = headerBlock input) :
    (headerReads input').reads = (headerReads input).reads ∧
      (headerReads input').complete = (headerReads input).complete := by
  have hinput := headerBlock_append input
  have hinput' := headerBlock_append input'
  rw [h] at hinput'
  have hreads := @headerReadsLoop_block (input'.length + 1) (input.length + 1) (headerBlock input)
    (headerReads input').rest (headerReads input).rest
  rw [hinput, hinput'] at hreads
  exact hreads (Nat.lt_succ_self _) (Nat.lt_succ_self _) rfl rfl

/-- The same is acted on whatever the array held before and whatever follows the block. -/
def ActsOnBlock (input : Bytes) : Prop :=
  ∃ action, action ≠ .undefined ∧ ∀ headers input', headers.length = maxHeader →
    headerBlock input' = headerBlock input → acted headers input' = action

/-- No line of the block leaves the line buffer or the array, and unless the block ends in
an exit or is not complete, none is skipped before `Status` is stored. -/
def ReadsSent (input : Bytes) : Prop :=
  ¬ StopsWith 0 (headerReads input).reads none ∧
    ((∃ code, StopsWith 0 (headerReads input).reads (some code)) ∨
      (headerReads input).complete = false ∨ StatusBeforeSkipped (headerReads input).reads)

theorem acted_block {input input' : Bytes} (h : headerBlock input' = headerBlock input)
    (headers : List Header) : acted headers input' = acted headers input := by
  obtain ⟨hreads, hcomplete⟩ := headerReads_block h
  rw [acted_eq, acted_eq, hreads, hcomplete]

theorem acted_of_stopsWith {headers : List Header} {input : Bytes} {code : Option ℤ}
    (hlen : headers.length = maxHeader) (h : StopsWith 0 (headerReads input).reads code) :
    acted headers input = .ofCode code := by
  rw [acted_eq, (storeReads_error_iff hlen).mpr h]

theorem exists_filled {headers : List Header} {reads : List LineRead}
    (hlen : headers.length = maxHeader) (h : ∀ code, ¬ StopsWith 0 reads code) :
    ∃ headers', storeReads 0 headers reads = .ok headers' ∧ Filled 0 headers headers' reads := by
  cases hstore : storeReads 0 headers reads with
  | error code => exact absurd ((storeReads_error_iff hlen).mp hstore) (h code)
  | ok headers' => exact ⟨headers', rfl, (storeReads_ok hstore).2.2⟩

theorem actsOnBlock_of_readsSent {input : Bytes} (h : ReadsSent input) : ActsOnBlock input := by
  obtain ⟨hinside, hsent⟩ := h
  by_cases hexit : ∃ code, StopsWith 0 (headerReads input).reads (some code)
  · obtain ⟨code, hstop⟩ := hexit
    refine ⟨.ends code, nofun, fun headers input' hlen hblock => ?_⟩
    rw [acted_block hblock]
    exact acted_of_stopsWith hlen hstop
  · have hreads : ∀ code, ¬ StopsWith 0 (headerReads input).reads code := by
      intro code hstop
      cases code with
      | none => exact hinside hstop
      | some code => exact hexit ⟨code, hstop⟩
    by_cases hblock : (headerReads input).complete ∧ (headerReads input).reads ≠ []
    · refine ⟨sentAction (headerReads input).reads, ?_, fun headers input' hlen hsame => ?_⟩
      · unfold sentAction
        split
        · exact nofun
        · split
          · exact nofun
          · split <;> exact nofun
      · obtain ⟨headers', hstore, hfilled⟩ := exists_filled hlen hreads
        have hstatus : StatusBeforeSkipped (headerReads input).reads :=
          (hsent.resolve_left hexit).resolve_left (by rw [hblock.1]; exact Bool.noConfusion)
        rw [acted_block hsame, acted_eq, hstore]
        dsimp only
        rw [if_pos hblock, actOn_eq (fun _ _ => storable_of_mem) hfilled hstatus]
    · refine ⟨.ends 0, nofun, fun headers input' hlen hsame => ?_⟩
      obtain ⟨headers', hstore, -⟩ := exists_filled hlen hreads
      rw [acted_block hsame, acted_eq, hstore]
      exact if_neg hblock

theorem exists_first_skipped {reads : List LineRead} (h : ¬ StatusBeforeSkipped reads) :
    ∃ before after, reads = before ++ .skipped :: after ∧ .skipped ∉ before ∧
      ∀ value, .stored headerKeyStatus value ∉ before := by
  unfold StatusBeforeSkipped at h
  push Not at h
  obtain ⟨lines, more, rfl, hnone⟩ := h
  obtain ⟨before, after, hsplit, hfirst⟩ := List.eq_append_cons_of_mem
    (List.mem_append_right lines (List.mem_singleton_self LineRead.skipped))
  refine ⟨before, after ++ more, ?_, hfirst, fun value hmem => hnone value ?_⟩
  · rw [← List.singleton_append, ← List.append_assoc, hsplit, List.append_assoc, List.cons_append]
  · have hread : .stored headerKeyStatus value ∈ lines ++ [.skipped] :=
      hsplit ▸ List.mem_append_left _ hmem
    simpa using hread

/-- What the array held before shows in a block with a line that is skipped too early. -/
theorem readsSent_of_actsOnBlock {input : Bytes} (h : ActsOnBlock input) : ReadsSent input := by
  obtain ⟨action, hdefined, hacted⟩ := h
  have hstale : ∀ status, acted (List.replicate maxHeader (staleHeader status)) input = action :=
    fun status => hacted _ input List.length_replicate rfl
  have hinside : ¬ StopsWith 0 (headerReads input).reads none := by
    intro hstop
    refine hdefined ?_
    rw [← hstale [], acted_of_stopsWith List.length_replicate hstop]
    rfl
  refine ⟨hinside, ?_⟩
  by_contra hnot
  simp only [not_or, not_exists, Bool.not_eq_false] at hnot
  obtain ⟨hexit, hcomplete, hskipped⟩ := hnot
  obtain ⟨before, after, hreads, hfirst, hnone⟩ := exists_first_skipped hskipped
  have hstops : ∀ code, ¬ StopsWith 0 (headerReads input).reads code := by
    intro code
    cases code with
    | none => exact hinside
    | some code => exact hexit code
  have hactOn : ∀ status : Bytes, status.length < maxHeaderValueLen →
      action = if before.length < maxHeader then .ends (atoi (status ++ [0])) else .undefined := by
    intro status hstatus
    have hlen : (List.replicate maxHeader (staleHeader status)).length = maxHeader :=
      List.length_replicate
    obtain ⟨headers', hstore, hfilled⟩ := exists_filled hlen hstops
    rw [← hstale status, acted_eq, hstore]
    dsimp only
    rw [if_pos ⟨hcomplete, by simp [hreads]⟩, hreads]
    rw [hreads] at hfilled
    refine actOn_skipped hstatus (fun key value hmem => ?_) hfilled hfirst hnone
    exact storable_of_mem (hreads ▸ List.mem_append_left _ hmem)
  have hzero := hactOn (ascii "0") (by decide)
  have hone := hactOn (ascii "1") (by decide)
  split_ifs at hzero hone
  · rw [hzero] at hone
    exact absurd hone (by decide)
  · exact hdefined hzero

/-- What the client acts on comes from the block alone exactly when it is read whole and
no line is skipped before `Status`. -/
theorem actsOnBlock_iff (input : Bytes) : ActsOnBlock input ↔ ReadsSent input :=
  ⟨readsSent_of_actsOnBlock, actsOnBlock_of_readsSent⟩

def junkSession (status : Bytes) : Session :=
  startSession (List.replicate maxHeader (staleHeader status)) (ascii "junk\n\n") []

/-- After a block of one line without a separator, the client acts on what it finds in the
element that the line has left as it was. -/
theorem not_actsOnBlock_junk : ¬ ActsOnBlock (ascii "junk\n\n") ∧
    ∀ sys, (receiveResponse sys (junkSession (ascii "0"))).ended.map SessionEnd.status =
        some (some 0) ∧
      (receiveResponse sys (junkSession (ascii "1"))).ended.map SessionEnd.status =
        some (some 1) := by
  have hzero : acted (junkSession (ascii "0")).headers (junkSession (ascii "0")).socket =
      .ends 0 := by decide +kernel
  have hone : acted (junkSession (ascii "1")).headers (junkSession (ascii "1")).socket =
      .ends 1 := by decide +kernel
  refine ⟨?_, fun sys => ⟨?_, ?_⟩⟩
  · rintro ⟨action, -, hacted⟩
    have hzero' := hacted (junkSession (ascii "0")).headers _ (by decide) rfl
    have hone' := hacted (junkSession (ascii "1")).headers _ (by decide) rfl
    have heq := (hzero.symm.trans hzero').trans (hone'.symm.trans hone)
    cases heq
  · have hperforms := receiveResponse_performs sys (junkSession (ascii "0"))
    rwa [hzero] at hperforms
  · have hperforms := receiveResponse_performs sys (junkSession (ascii "1"))
    rwa [hone] at hperforms

end GroovyServ.Client
