import RustyCat.Download.Headers
import RustyCat.Lib.Codec
import RustyCat.Provider.Body

/-!
# The resume identity of the request headers

`canonical_resume_headers` of `http_breakpoint.rs`: the headers that all range requests
of a download share, by name, in a code that keeps the names and the values apart.
-/

namespace RustyCat.Download

open Codec

/-- `HeaderMap::remove` -/
def HeaderMap.remove (headers : HeaderMap) (name : String) : HeaderMap :=
  headers.filter (·.1 ≠ name)

/-- A header map as the program has it: `HeaderName` keeps the names in lower case, and
all lengths are machine words. -/
structure RequestHeaders where
  lines : HeaderMap
  lower : ∀ line ∈ lines, line.1.toLower = line.1
  count : lines.length < 256 ^ 8
  sizes : ∀ line ∈ lines, (utf8Bytes line.1).length < 256 ^ 8 ∧ line.2.length < 256 ^ 8

def appendResumeIdentityField (output value : List UInt8) : List UInt8 :=
  output ++ toBE 8 value.length ++ value

/-- What is left without the headers that the executor supplies for each part. -/
def invariantHeaders (headers : HeaderMap) : HeaderMap :=
  ((headers.remove "range").remove "if-match").remove "if-range"

/-- The `BTreeMap` that the loop over the headers fills. -/
def groupedHeaders (headers : HeaderMap) : Std.ExtTreeMap String (List HeaderValue) :=
  headers.foldl (fun grouped line =>
    grouped.insert line.1.toLower (grouped.getD line.1.toLower [] ++ [line.2])) ∅

def canonicalResumeHeaders (headers : HeaderMap) : List UInt8 :=
  (groupedHeaders (invariantHeaders headers)).toList.foldl
    (fun output entry => entry.2.foldl appendResumeIdentityField
      (appendResumeIdentityField output (utf8Bytes entry.1) ++ toBE 8 entry.2.length))
    (utf8Bytes "rusty-cat/range-headers/v1\x00")

variable {headers : HeaderMap} {name : String} {values : List HeaderValue}

theorem mem_names_iff : name ∈ headers.map Prod.fst ↔ headers.getAll name ≠ [] := by
  simp [HeaderMap.getAll, List.filter_eq_nil_iff]

theorem getAll_concat (line : String × HeaderValue) :
    HeaderMap.getAll (headers ++ [line]) name =
      headers.getAll name ++ if line.1 = name then [line.2] else [] := by
  by_cases same : line.1 = name
  · simp [HeaderMap.getAll, same]
  · simp [HeaderMap.getAll, same]

theorem getElem?_groupedHeaders (lower : ∀ line ∈ headers, line.1.toLower = line.1) :
    (groupedHeaders headers)[name]? =
      if headers.getAll name = [] then none else some (headers.getAll name) := by
  induction headers using List.reverseRecOn generalizing name with
  | nil => rfl
  | append_singleton earlier line ih =>
    have lowered := lower line (by simp)
    have known {other : String} : (groupedHeaders earlier)[other]? = _ :=
      ih fun line member => lower line (List.mem_append_left _ member)
    rw [groupedHeaders, List.foldl_concat]
    change ((groupedHeaders earlier).insert line.1.toLower
      ((groupedHeaders earlier).getD line.1.toLower [] ++ [line.2]))[name]? = _
    rw [Std.ExtTreeMap.getElem?_insert, Std.ExtTreeMap.getD_eq_getD_getElem?, lowered, known, known,
      getAll_concat]
    by_cases same : line.1 = name
    · subst same
      by_cases first : HeaderMap.getAll earlier line.1 = []
      · simp [first]
      · simp [first]
    · simp [same]

/-- The code of one entry of the map. -/
def headerCode (entry : String × List HeaderValue) : List UInt8 :=
  field 8 (utf8Bytes entry.1) ++ (toBE 8 entry.2.length ++ entry.2.flatMap (field 8))

theorem canonicalResumeHeaders_eq : canonicalResumeHeaders headers =
    utf8Bytes "rusty-cat/range-headers/v1\x00" ++
      (groupedHeaders (invariantHeaders headers)).toList.flatMap headerCode := by
  have append : appendResumeIdentityField = fun output value => output ++ field 8 value := by
    funext output value
    simp [appendResumeIdentityField, field]
  simp only [canonicalResumeHeaders, append, List.foldl_append_eq_append, List.append_assoc,
    ← List.flatMap_def]
  rfl

theorem utf8Bytes_injective : Function.Injective utf8Bytes := by
  intro s t same
  exact Option.some.inj ((fromUtf8_eq_some.mpr rfl).symm.trans (fromUtf8_eq_some.mpr same))

theorem selfDelimiting_headerCode : SelfDelimiting (fun entry : String × List HeaderValue =>
    (utf8Bytes entry.1).length < 256 ^ 8 ∧ entry.2.length < 256 ^ 8 ∧
      ∀ value ∈ entry.2, value.length < 256 ^ 8) headerCode := by
  intro a b x y short short' same
  simp only [headerCode, List.append_assoc] at same
  obtain ⟨names, same⟩ := selfDelimiting_field 8 short.1 short'.1 same
  obtain ⟨count, same⟩ := selfDelimiting_toBE 8 short.2.1 short'.2.1 same
  obtain ⟨values, rest⟩ := (selfDelimiting_field 8).flatMap count short.2.2 short'.2.2 same
  exact ⟨Prod.ext (utf8Bytes_injective names) values, rest⟩

namespace RequestHeaders

variable (h : RequestHeaders)

/-- The headers that count for the identity. -/
def kept : HeaderMap := invariantHeaders h.lines

theorem kept_sublist : h.kept.Sublist h.lines :=
  (List.filter_sublist.trans List.filter_sublist).trans List.filter_sublist

theorem getElem?_kept (name : String) : (groupedHeaders h.kept)[name]? =
    if h.kept.getAll name = [] then none else some (h.kept.getAll name) :=
  getElem?_groupedHeaders fun line member => h.lower line (h.kept_sublist.subset member)

theorem getD_kept (name : String) : (groupedHeaders h.kept).getD name [] = h.kept.getAll name := by
  rw [Std.ExtTreeMap.getD_eq_getD_getElem?, getElem?_kept]
  split
  · rename_i none
    exact none.symm
  · rfl

theorem sized {entry : String × List HeaderValue}
    (member : entry ∈ (groupedHeaders h.kept).toList) :
    (utf8Bytes entry.1).length < 256 ^ 8 ∧ entry.2.length < 256 ^ 8 ∧
      ∀ value ∈ entry.2, value.length < 256 ^ 8 := by
  rw [Std.ExtTreeMap.mem_toList_iff_getElem?_eq_some, getElem?_kept,
    Option.ite_none_left_eq_some, Option.some.injEq] at member
  obtain ⟨there, same⟩ := member
  have line {value : HeaderValue} (member : value ∈ entry.2) : (entry.1, value) ∈ h.lines := by
    rw [← same, HeaderMap.getAll, List.mem_map] at member
    obtain ⟨line, member, rfl⟩ := member
    rw [List.mem_filter, decide_eq_true_eq] at member
    rw [← member.2]
    exact h.kept_sublist.subset member.1
  refine ⟨?_, ?_, fun value member => (h.sizes _ (line member)).2⟩
  · rw [same] at there
    obtain ⟨value, member⟩ := List.exists_mem_of_ne_nil _ there
    exact (h.sizes _ (line member)).1
  · rw [← same, HeaderMap.getAll, List.length_map]
    exact Nat.lt_of_le_of_lt (List.filter_sublist.trans h.kept_sublist).length_le h.count

end RequestHeaders

/-- Two header maps have the same identity exactly if, apart from the headers of single
parts, they have the same names and for each name the same values in the same order. -/
theorem canonical_resume_headers_iff (h₁ h₂ : RequestHeaders) :
    canonicalResumeHeaders h₁.lines = canonicalResumeHeaders h₂.lines ↔
      (∀ name, name ∈ h₁.kept.map Prod.fst ↔ name ∈ h₂.kept.map Prod.fst) ∧
      ∀ name, h₁.kept.getAll name = h₂.kept.getAll name := by
  rw [canonicalResumeHeaders_eq, canonicalResumeHeaders_eq, List.append_cancel_left_eq]
  constructor
  · intro same
    have nonempty (entry : String × List HeaderValue) : headerCode entry ≠ [] := fun empty => by
      simpa [headerCode, field, toBE] using congrArg List.length empty
    have lists := selfDelimiting_headerCode.flatMap_inj nonempty (fun _ => h₁.sized)
      (fun _ => h₂.sized) same
    have maps := Std.ExtTreeMap.toList_inj.mp lists
    have values (name : String) : h₁.kept.getAll name = h₂.kept.getAll name := by
      rw [← h₁.getD_kept, ← h₂.getD_kept, maps]
    exact ⟨fun name => by rw [mem_names_iff, mem_names_iff, values], values⟩
  · rintro ⟨_, values⟩
    have maps : groupedHeaders h₁.kept = groupedHeaders h₂.kept := by
      refine Std.ExtTreeMap.ext_getElem? fun name => ?_
      rw [h₁.getElem?_kept, h₂.getElem?_kept, values]
    exact congrArg (fun map => map.toList.flatMap headerCode) maps

end RustyCat.Download
