import RustyCat.Download.Headers

/-!
# Strong validators

What `download_generation_validator` returns, against the grammar of strong entity tags.
The scan for commas toggles at every quote, and the test of the shape looks at both ends
only, so that quotes in between are not noticed: the grammar is met where the line has
two quotes at most.
-/

namespace RustyCat.Download

open Ascii

/-- A strong entity tag: no quotes between the first and the last. -/
def StrongTag (text : Text) : Prop := ∃ tag, text = '"' :: (tag ++ ['"']) ∧ '"' ∉ tag

def isHexDigit (c : Char) : Bool := c.isDigit ∨ c.toLower ∈ "abcdef".toList

def AzureToken (text : Text) : Prop :=
  ∃ digits, (text = '0' :: 'x' :: digits ∨ text = '0' :: 'X' :: digits) ∧ 8 ≤ digits.length ∧
    ∀ c ∈ digits, isHexDigit c = true

def AzureMarked (headers : HeaderMap) : Prop :=
  (∃ value text, HeaderMap.get headers "x-ms-blob-type" = some value ∧ toStr value = some text ∧
    eqIgnoreCase (trimText text) "blockblob" = true) ∧
  (HeaderMap.get headers "x-ms-version").isSome = true ∧
  (HeaderMap.get headers "x-ms-request-id").isSome = true

variable {text : Text}

theorem requireUnambiguousEtag_eq_some {headers : HeaderMap} {context : String} :
    requireUnambiguousEtag headers context = .ok (some text) ↔
      ∃ value, HeaderMap.getAll headers "etag" = [value] ∧ commaOutside false value = false ∧
        toStr value = some text := by
  unfold requireUnambiguousEtag
  split
  · rename_i absent
    simp [absent]
  · rename_i value only
    simp only [only, List.cons.injEq, and_true, exists_eq_left', Result.guard_eq_ok,
      Bool.not_eq_true]
    refine and_congr_right fun _ => ?_
    cases visible : toStr value with
    | some ascii => simp
    | none =>
      simp only [reduceCtorEq, iff_false]
      split
      · exact fun same => by cases same
      · exact fun same => by cases same
  · rename_i first second rest several
    simp [several]

theorem downloadGenerationValidator_eq_some {headers : HeaderMap} {v : Text}
    (found : downloadGenerationValidator headers = some v) :
    ∃ value text, HeaderMap.getAll headers "etag" = [value] ∧ toStr value = some text ∧
      v = trimText text ∧
      ((2 ≤ v.length ∧ v.head? = some '"' ∧ v.getLast? = some '"') ∨
        AzureToken v ∧ AzureMarked headers) := by
  simp only [downloadGenerationValidator, Option.bind_eq_bind, Option.bind_eq_some_iff] at found
  obtain ⟨text, read, found⟩ := found
  have ok : requireUnambiguousEtag headers "download response" = .ok (some text) := by
    cases result : requireUnambiguousEtag headers "download response" with
    | error e => simp [result, Except.toOption] at read
    | ok value => simpa [result, Except.toOption] using read
  obtain ⟨value, only, -, visible⟩ := requireUnambiguousEtag_eq_some.mp ok
  split_ifs at found with weak shape
  cases found
  refine ⟨value, text, only, visible, rfl, ?_⟩
  simp only [decide_eq_true_eq] at shape
  obtain quoted | ⟨⟨start, long, digits⟩, blob, version, request⟩ := shape
  · exact .inl quoted
  · refine .inr ⟨⟨(trimText text).drop 2, ?_, long, ?_⟩, ?_, version, request⟩
    · have parts := List.take_append_drop 2 (trimText text)
      obtain lower | upper := start
      · exact .inl (by rw [← parts, lower]; rfl)
      · exact .inr (by rw [← parts, upper]; rfl)
    · intro c member
      simpa [isHexDigit] using List.all_eq_true.mp digits c member
    · obtain ⟨kind, read, same⟩ := (Option.any_eq_true _ _).mp blob
      obtain ⟨value, here, visible⟩ := Option.bind_eq_some_iff.mp read
      exact ⟨value, kind, here, visible, same⟩

theorem toNat_byte {c : Char} (visible : Visible c) : (UInt8.ofNat c.toNat).toNat = c.toNat := by
  unfold Visible at visible
  rw [UInt8.toNat_ofNat']
  omega

theorem byte_eq_quote {c : Char} (visible : Visible c) : UInt8.ofNat c.toNat = 34 ↔ c = '"' := by
  rw [← UInt8.toNat_inj, toNat_byte visible, ← Char.toNat_inj]
  rfl

theorem toStr_of_visible (visible : ∀ c ∈ text, Visible c) :
    toStr (text.map fun c => UInt8.ofNat c.toNat) = some text := by
  have printable : ((text.map fun c => UInt8.ofNat c.toNat).all
      fun byte => 32 ≤ byte ∧ byte < 127 ∨ byte = 9) = true := by
    rw [List.all_map, List.all_eq_true]
    intro c member
    simp only [Function.comp, decide_eq_true_eq, UInt8.le_iff_toNat_le, UInt8.lt_iff_toNat_lt,
      ← UInt8.toNat_inj, toNat_byte (visible c member), UInt8.reduceToNat]
    exact visible c member
  rw [toStr, if_pos printable, List.map_map]
  refine congrArg some ((List.map_congr_left fun c member => ?_).trans (List.map_id text))
  rw [Function.comp, toNat_byte (visible c member), Char.ofNat_toNat]
  rfl

theorem count_quotes {value : HeaderValue} (read : toStr value = some text) :
    text.count '"' = value.count 34 := by
  obtain ⟨visible, rfl⟩ := visible_of_toStr read
  clear read
  induction text with
  | nil => rfl
  | cons c text ih =>
    have same := byte_eq_quote (visible c List.mem_cons_self)
    rw [List.map_cons, List.count_cons, List.count_cons,
      ih fun d member => visible d (List.mem_cons_of_mem c member)]
    by_cases quote : c = '"'
    · simp [quote]
    · simp [quote, same]

theorem strongTag_of_count (long : 2 ≤ text.length) (first : text.head? = some '"')
    (last : text.getLast? = some '"') (few : text.count '"' ≤ 2) : StrongTag text := by
  obtain ⟨rest, rfl⟩ := List.head?_eq_some_iff.mp first
  have nonempty : rest ≠ [] := by
    rintro rfl
    simp at long
  obtain ⟨tag, c, rfl⟩ := (List.eq_nil_or_concat rest).resolve_left nonempty
  rw [List.concat_eq_append] at last few ⊢
  have same : c = '"' := by
    rw [List.getLast?_cons, List.getLast?_append] at last
    simpa using last
  subst same
  refine ⟨tag, rfl, ?_⟩
  rw [← List.count_eq_zero]
  simp only [List.count_cons_self, List.count_append] at few
  omega

theorem count_trim_le (text : Text) : (trimText text).count '"' ≤ text.count '"' := by
  have sublist : List.Sublist (trimText text) text :=
    (List.rdropWhile_prefix _ _).sublist.trans (List.dropWhile_sublist _)
  exact sublist.count_le '"'

theorem commaOutside_tag {tag : HeaderValue} (noQuote : 34 ∉ tag) :
    commaOutside false (34 :: (tag ++ [34])) = false := by
  have inside : commaOutside true (tag ++ [34]) = false := by
    induction tag with
    | nil => decide
    | cons byte tag ih =>
      rw [List.mem_cons, not_or] at noQuote
      simp [commaOutside, Ne.symm noQuote.1, ih noQuote.2]
  simp [commaOutside, inside]

end RustyCat.Download
