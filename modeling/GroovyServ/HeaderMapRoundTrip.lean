import GroovyServ.HeaderBlocks

/-!
# Header maps written and read back

The headers that the server and the Groovy client write with `formatAsHeader` are
what `parseHeaders` makes of them again: each key with its values in order, for
keys and values that a header line can carry.
-/

namespace GroovyServ

open Lines Server

namespace Server

def HeaderValue.values : HeaderValue → List Bytes
  | .one v => [v]
  | .many vs => vs

def mapFields (map : List (Bytes × HeaderValue)) : List (Bytes × Bytes) :=
  map.flatMap fun entry => entry.2.values.map fun v => (entry.1, v)

/-- What `parseHeaders` makes of a map: a key without values is absent. -/
def parsedMap (map : List (Bytes × HeaderValue)) : HeaderMap :=
  (map.map fun entry => (entry.1, entry.2.values)).filter (·.2 ≠ [])

/-- Keys and values that header lines carry unchanged. -/
structure Formattable (map : List (Bytes × HeaderValue)) : Prop where
  distinct : (map.map Prod.fst).Nodup
  keys : ∀ entry ∈ map, entry.1 ≠ [] ∧ (58 : UInt8) ∉ entry.1 ∧ lf ∉ entry.1
  values : ∀ entry ∈ map, ∀ v ∈ entry.2.values, lf ∉ v ∧ Trimmed v

theorem formatAsHeader_eq {map : List (Bytes × HeaderValue)} (hkeys : ∀ entry ∈ map, entry.1 ≠ [])
    (body : Option Bytes) :
    formatAsHeader map body = headersText (mapFields map) ++ lf :: body.getD [] := by
  rw [formatAsHeader, headersText, mapFields, List.flatMap_assoc]
  congr 1
  apply List.flatMap_congr
  intro entry hentry
  rw [if_neg (hkeys entry hentry), List.flatMap_map]
  cases entry.2 with
  | one v => simp [HeaderValue.values]
  | many vs => rfl

theorem HeaderMap.add_append {headers : HeaderMap} {key : Bytes} (hfresh : ∀ e ∈ headers, e.1 ≠ key)
    (more : HeaderMap) (v : Bytes) :
    HeaderMap.add (headers ++ more) (key, v) = headers ++ HeaderMap.add more (key, v) := by
  induction headers with
  | nil => rfl
  | cons e headers ih =>
    rw [List.forall_mem_cons] at hfresh
    rw [List.cons_append, HeaderMap.add, if_neg hfresh.1, ih hfresh.2, List.cons_append]

theorem HeaderMap.foldl_add_last {headers : HeaderMap} {key : Bytes}
    (hfresh : ∀ e ∈ headers, e.1 ≠ key) (values vs : List Bytes) :
    (vs.map fun v => (key, v)).foldl HeaderMap.add (headers ++ [(key, values)]) =
      headers ++ [(key, values ++ vs)] := by
  induction vs generalizing values with
  | nil => rw [List.map_nil, List.foldl_nil, List.append_nil]
  | cons v vs ih =>
    rw [List.map_cons, List.foldl_cons, HeaderMap.add_append hfresh, HeaderMap.add, if_pos rfl, ih,
      List.append_assoc, List.singleton_append]

theorem HeaderMap.foldl_add_fresh {headers : HeaderMap} {key : Bytes}
    (hfresh : ∀ e ∈ headers, e.1 ≠ key) (vs : List Bytes) :
    (vs.map fun v => (key, v)).foldl HeaderMap.add headers =
      headers ++ [(key, vs)].filter (·.2 ≠ []) := by
  cases vs with
  | nil => simp
  | cons v vs =>
    have hadd := HeaderMap.add_append hfresh [] v
    rw [List.append_nil] at hadd
    rw [List.map_cons, List.foldl_cons, hadd, HeaderMap.add, HeaderMap.foldl_add_last hfresh]
    simp

theorem HeaderMap.foldl_add_mapFields {map : List (Bytes × HeaderValue)}
    (hdistinct : (map.map Prod.fst).Nodup) {headers : HeaderMap}
    (hfresh : ∀ entry ∈ map, ∀ e ∈ headers, e.1 ≠ entry.1) :
    (mapFields map).foldl HeaderMap.add headers = headers ++ parsedMap map := by
  induction map generalizing headers with
  | nil => simp [mapFields, parsedMap]
  | cons entry map ih =>
    rw [List.map_cons, List.nodup_cons] at hdistinct
    rw [List.forall_mem_cons] at hfresh
    have hnext : ∀ entry' ∈ map,
        ∀ e ∈ headers ++ [(entry.1, entry.2.values)].filter (·.2 ≠ []), e.1 ≠ entry'.1 := by
      intro entry' hentry' e he
      rcases List.mem_append.mp he with hold | hnew
      · exact hfresh.2 entry' hentry' e hold
      · obtain rfl := List.mem_singleton.mp (List.mem_of_mem_filter hnew)
        exact fun heq => hdistinct.1 (heq ▸ List.mem_map_of_mem hentry')
    have hfields : mapFields (entry :: map) =
        (entry.2.values.map fun v => (entry.1, v)) ++ mapFields map := rfl
    have hparsed : parsedMap (entry :: map) =
        [(entry.1, entry.2.values)].filter (·.2 ≠ []) ++ parsedMap map := by
      rw [parsedMap, List.map_cons, ← List.singleton_append, List.filter_append]
      rfl
    rw [hfields, List.foldl_append, HeaderMap.foldl_add_fresh hfresh.1, ih hdistinct.2 hnext,
      hparsed, List.append_assoc]

theorem headersOf_fields {fields : List (Bytes × Bytes)}
    (hfields : ∀ f ∈ fields, (58 : UInt8) ∉ f.1 ∧ Trimmed f.2) :
    headersOf (fields.map fun f => f.1 ++ (ascii ": " ++ f.2)) =
      fields.foldl HeaderMap.add [] := by
  rw [headersOf, List.foldl_map]
  apply List.foldl_ext
  intro headers f hf
  rw [splitHeader_line (hfields f hf).1, (trim_eq_self_iff _).mpr (hfields f hf).2]

/-- A map that is written is read back, and what follows it is left unread. -/
theorem parseHeaders_formatAsHeader {map : List (Bytes × HeaderValue)} (hmap : Formattable map)
    (ending : Ending) (rest : Bytes) :
    parseHeaders ending (formatAsHeader map none ++ rest) = .ok (parsedMap map, rest) := by
  have hfield : ∀ f ∈ mapFields map, ∃ entry ∈ map, f.1 = entry.1 ∧ f.2 ∈ entry.2.values := by
    intro f hf
    obtain ⟨entry, hentry, hmem⟩ := List.mem_flatMap.mp hf
    obtain ⟨v, hv, rfl⟩ := List.mem_map.mp hmem
    exact ⟨entry, hentry, rfl, hv⟩
  have hkeys : ∀ f ∈ mapFields map, f.1 ≠ [] ∧ (58 : UInt8) ∉ f.1 ∧ lf ∉ f.1 := by
    intro f hf
    obtain ⟨entry, hentry, hkey, -⟩ := hfield f hf
    rw [hkey]
    exact hmap.keys entry hentry
  have hvalues : ∀ f ∈ mapFields map, lf ∉ f.2 ∧ Trimmed f.2 := by
    intro f hf
    obtain ⟨entry, hentry, -, hv⟩ := hfield f hf
    exact hmap.values entry hentry f.2 hv
  have hfold : (mapFields map).foldl HeaderMap.add [] = [] ++ parsedMap map :=
    HeaderMap.foldl_add_mapFields hmap.distinct fun _ _ e he => by cases he
  rw [List.nil_append] at hfold
  rw [formatAsHeader_eq (fun entry hentry => (hmap.keys entry hentry).1), Option.getD_none,
    List.append_assoc, List.cons_append, List.nil_append,
    parseHeaders_fields ending (fun f hf => ⟨(hkeys f hf).1, (hkeys f hf).2.2⟩)
      (fun f hf => (hvalues f hf).1) rest,
    headersOf_fields (fun f hf => ⟨(hkeys f hf).2.1, (hvalues f hf).2⟩), hfold]

theorem parseHeaders_formatAsHeader_repeated :
    parseHeaders .waiting (formatAsHeader [(ascii "Arg", .many [ascii "a: b", [], ascii "a"]),
        (ascii "Env", .many []), (ascii "Cwd", .one [])] none ++ ascii "\n\nrest") =
      .ok ([(ascii "Arg", [ascii "a: b", [], ascii "a"]), (ascii "Cwd", [[]])],
        ascii "\n\nrest") :=
  parseHeaders_formatAsHeader
    { distinct := by decide +kernel
      keys := by decide +kernel
      values := by unfold Trimmed; decide +kernel } .waiting (ascii "\n\nrest")

end Server
end GroovyServ
