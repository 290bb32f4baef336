import RustyCat.Log.Noninterference

/-!
# What a sanitized URL says about its secrets

`sanitize_url` cuts a URL at its fragment, its query and the pairs of the query.  An
assignment with a sensitive key is hidden in the fragment and in the path as in any text,
and in the query if it is a pair of its own; a pair with a harmless name is copied, and
whatever its value holds with it.
-/

namespace RustyCat.Log

open Ascii Scan

/-! ## Where a pattern stands -/

variable {n start : Nat} {text rest key : Text}

theorem find_le {pattern : Text} (found : find pattern text = some n) :
    n + pattern.length ≤ text.length := by
  induction text generalizing n with
  | nil =>
    simp only [find] at found
    split_ifs at found with empty
    cases found
    simp [empty]
  | cons c text ih =>
    simp only [find] at found
    split_ifs at found with here
    · cases found
      simpa using (List.isPrefixOf_iff_prefix.mp here).length_le
    · obtain ⟨m, later, rfl⟩ := Option.map_eq_some_iff.mp found
      have := ih later
      rw [List.length_cons]
      omega

theorem find_append_of_some {pattern : Text} (found : find pattern text = some n)
    (rest : Text) : find pattern (text ++ rest) = some n := by
  have long := find_le found
  induction text generalizing n with
  | nil =>
    simp only [find] at found
    split_ifs at found with empty
    cases found
    subst empty
    cases rest with
    | nil => rfl
    | cons d rest => rfl
  | cons c text ih =>
    have same : pattern.isPrefixOf (c :: text ++ rest) = pattern.isPrefixOf (c :: text) := by
      rw [Bool.eq_iff_iff, List.isPrefixOf_iff_prefix, List.isPrefixOf_iff_prefix]
      have : pattern.length ≤ (c :: text).length := by omega
      constructor
      · exact fun here => List.prefix_of_prefix_length_le here (List.prefix_append _ _) this
      · exact fun here => here.trans (List.prefix_append _ _)
    simp only [find] at found
    rw [List.cons_append, find, ← List.cons_append, same]
    split_ifs at found ⊢
    · exact found
    · obtain ⟨m, later, rfl⟩ := Option.map_eq_some_iff.mp found
      rw [ih later (find_le later)]
      rfl

theorem find_mark_append (absent : find authorityMark text = none)
    (noSlash : ∀ c ∈ rest.head?, c ≠ '/') :
    find authorityMark (text ++ rest) = (find authorityMark rest).map (· + text.length) := by
  induction text with
  | nil => simp
  | cons c text ih =>
    simp only [find] at absent
    split_ifs at absent with here
    have later : find authorityMark text = none := by simpa using absent
    have away : authorityMark.isPrefixOf (c :: (text ++ rest)) = false := by
      -- the mark has three characters, of which the last two are slashes
      obtain _ | ⟨d, _ | ⟨e, more⟩⟩ := text
      · obtain _ | ⟨d, rest⟩ := rest
        · simp [authorityMark, List.isPrefixOf]
        · simp [authorityMark, List.isPrefixOf, Ne.symm (noSlash d rfl)]
      · obtain _ | ⟨e, rest⟩ := rest
        · simp [authorityMark, List.isPrefixOf]
        · simp [authorityMark, List.isPrefixOf, Ne.symm (noSlash e rfl)]
      · simpa [authorityMark, List.isPrefixOf] using here
    rw [List.cons_append, find, away, ih later]
    cases find authorityMark rest with
    | none => rfl
    | some n => simp [Nat.add_assoc]

theorem find_mark_of_not_mem (absent : ':' ∉ text) :
    find authorityMark text = none := by
  induction text with
  | nil => rfl
  | cons c text ih =>
    rw [List.mem_cons, not_or] at absent
    have away : authorityMark.isPrefixOf (c :: text) = false := by
      simp [authorityMark, List.isPrefixOf, absent.1]
    rw [find, away, ih absent.2]
    rfl

theorem rfind_append_of_not_mem (absent : '@' ∉ rest) :
    rfind ['@'] (text ++ rest) = rfind ['@'] text := by
  induction text with
  | nil =>
    induction rest with
    | nil => rfl
    | cons c rest ih =>
      rw [List.mem_cons, not_or] at absent
      have later : rfind ['@'] rest = none := ih absent.2
      simp [rfind, later, List.isPrefixOf, absent.1]
  | cons c text ih => simp [rfind, ih, List.isPrefixOf]

theorem rfind_spec (found : rfind ['@'] text = some n) :
    ∃ rest, text.drop n = '@' :: rest := by
  induction text generalizing n with
  | nil => simp [rfind] at found
  | cons c text ih =>
    simp only [rfind] at found
    split at found
    · rename_i at_ later
      cases found
      obtain ⟨rest, same⟩ := ih later
      exact ⟨rest, by rw [List.drop_succ_cons, same]⟩
    · split_ifs at found with here
      cases found
      refine ⟨text, ?_⟩
      have : '@' = c := by simpa [List.isPrefixOf] using here
      rw [this, List.drop_zero]

theorem rfind_segment_lt (found : rfind ['@'] ((text.drop start).takeWhile (· ≠ '/')) = some n) :
    start + n < text.length := by
  obtain ⟨more, position⟩ := rfind_spec found
  by_contra beyond
  have short := (List.takeWhile_sublist (l := text.drop start) (· ≠ '/')).length_le
  have empty : ((text.drop start).takeWhile (· ≠ '/')).drop n = [] := by
    rw [List.length_drop] at short
    exact List.drop_eq_nil_iff.mpr (by omega)
  rw [position] at empty
  cases empty

/-! ## User information -/

/-- The authority is still open at the end of the text. -/
def OpenAuthority (text : Text) : Prop := ∃ start ∈ authorityStart text, '/' ∉ text.drop start

instance : DecidablePred OpenAuthority := fun text => by
  unfold OpenAuthority
  exact inferInstance

/-- What `redact_url_userinfo` makes of a text whose authority starts in its front. -/
def withoutUserinfo (text : Text) (start : Nat) : Text :=
  match rfind ['@'] ((text.drop start).takeWhile (· ≠ '/')) with
  | none => text
  | some userinfoEnd => text.take start ++ redacted ++ text.drop (start + userinfoEnd)

theorem redactUrlUserinfo_eq (base : Text) : redactUrlUserinfo base =
    match authorityStart base with
    | none => base
    | some start => withoutUserinfo base start := rfl

theorem authorityStart_le (found : authorityStart text = some start) :
    start ≤ text.length := by
  simp only [authorityStart] at found
  split at found
  · rename_i n mark
    cases found
    exact find_le mark
  · split_ifs at found with slashes
    cases found
    simpa using (List.isPrefixOf_iff_prefix.mp slashes).length_le

theorem withoutUserinfo_append (inside : start ≤ text.length)
    (closed : '/' ∈ text.drop start ∨ '@' ∉ rest) :
    withoutUserinfo (text ++ rest) start = withoutUserinfo text start ++ rest := by
  have dropped : (text ++ rest).drop start = text.drop start ++ rest :=
    List.drop_append_of_le_length inside
  have same : rfind ['@'] (((text ++ rest).drop start).takeWhile (· ≠ '/')) =
      rfind ['@'] ((text.drop start).takeWhile (· ≠ '/')) := by
    rw [dropped, List.takeWhile_append]
    split_ifs with whole
    · have all := (List.takeWhile_sublist (l := text.drop start) (· ≠ '/')).eq_of_length whole
      have absent : '@' ∉ rest := by
        refine closed.resolve_left fun slash => ?_
        rw [← all] at slash
        simpa using List.mem_takeWhile_imp slash
      rw [all, rfind_append_of_not_mem fun member => absent ((List.takeWhile_sublist _).mem member)]
    · rfl
  simp only [withoutUserinfo, same]
  split
  · rfl
  rename_i n found
  rw [List.take_append_of_le_length inside,
    List.drop_append_of_le_length (rfind_segment_lt found).le,
    List.append_assoc, List.append_assoc, List.append_assoc]

theorem withoutUserinfo_ends (text : Text) (start : Nat) :
    (withoutUserinfo text start).getLast? = text.getLast? ∧
      (0 < start → (withoutUserinfo text start).head? = text.head?) := by
  simp only [withoutUserinfo]
  split
  · exact ⟨rfl, fun _ => rfl⟩
  rename_i n found
  have short := rfind_segment_lt found
  constructor
  · rw [List.getLast?_append, List.getLast?_drop, if_neg (by omega)]
    cases last : text.getLast? with
    | none =>
      rw [List.getLast?_eq_none_iff] at last
      simp [last] at short
    | some c => rfl
  · intro positive
    cases text with
    | nil => simp at short
    | cons c text =>
      obtain ⟨m, rfl⟩ : ∃ m, start = m + 1 := ⟨start - 1, by omega⟩
      rfl

theorem withoutUserinfo_shift (front text : Text) (start : Nat) :
    withoutUserinfo (front ++ text) (front.length + start) =
      front ++ withoutUserinfo text start := by
  simp only [withoutUserinfo, List.drop_length_add_append, List.take_length_add_append,
    Nat.add_assoc]
  split
  · rfl
  · simp only [List.append_assoc]

/-- A part of a URL that opens no authority, ends none and begins with a character of a
key. -/
structure Inner (text : Text) : Prop where
  keyed : Keyed text
  noColon : ':' ∉ text
  noAt : '@' ∉ text

theorem Inner.noSlash (inner : Inner text) (rest : Text) :
    ∀ c ∈ (text ++ rest).head?, c ≠ '/' := by
  obtain ⟨c, more, rfl, key⟩ := inner.keyed
  rintro d ⟨⟩ rfl
  exact absurd key (by decide)

theorem redactUrlUserinfo_window (p after : Text) (noSlash : ∀ c ∈ after.head?, c ≠ '/')
    (safe : OpenAuthority p → '@' ∉ after) :
    ∃ front behind, (∀ w, Inner w → redactUrlUserinfo (p ++ (w ++ after)) = front ++ (w ++ behind)) ∧
      front.getLast? = p.getLast? ∧ (∀ c ∈ front, c ∈ p ∨ c ∈ redacted) ∧
      behind.head? = after.head? := by
  have mark (w : Text) (inner : Inner w) (absent : find authorityMark p = none) :
      find authorityMark (p ++ (w ++ after)) =
        (find authorityMark after).map (· + w.length + p.length) := by
    rw [find_mark_append absent (inner.noSlash after),
      find_mark_append (find_mark_of_not_mem inner.noColon) noSlash, Option.map_map]
    rfl
  -- an authority that starts in the front
  have inFront (start : Nat) (found : authorityStart p = some start)
      (same : ∀ w, Inner w → authorityStart (p ++ (w ++ after)) = some start) :
      ∃ front behind,
        (∀ w, Inner w → redactUrlUserinfo (p ++ (w ++ after)) = front ++ (w ++ behind)) ∧
        front.getLast? = p.getLast? ∧ (∀ c ∈ front, c ∈ p ∨ c ∈ redacted) ∧
        behind.head? = after.head? := by
    refine ⟨withoutUserinfo p start, after, fun w inner => ?_, ?_, ?_, rfl⟩
    · rw [redactUrlUserinfo_eq, same w inner]
      refine withoutUserinfo_append (authorityStart_le found) ?_
      by_cases slash : '/' ∈ p.drop start
      · exact .inl slash
      right
      rw [List.mem_append, not_or]
      exact ⟨inner.noAt, safe ⟨start, found, slash⟩⟩
    · exact (withoutUserinfo_ends p start).1
    · intro c member
      simp only [withoutUserinfo] at member
      split at member
      · exact .inl member
      simp only [List.mem_append] at member
      obtain (member | member) | member := member
      · exact .inl (List.mem_of_mem_take member)
      · exact .inr member
      · exact .inl (List.mem_of_mem_drop member)
  cases first : find authorityMark p with
  | some n =>
    refine inFront (n + 3) (by simp [authorityStart, first]) fun w inner => ?_
    simp [authorityStart, find_append_of_some first]
  | none =>
    cases later : find authorityMark after with
    | some n =>
      refine ⟨p, withoutUserinfo after (n + 3), fun w inner => ?_, rfl, fun c => .inl,
        (withoutUserinfo_ends after (n + 3)).2 (by omega)⟩
      have start : authorityStart (p ++ (w ++ after)) = some ((p ++ w).length + (n + 3)) := by
        simp only [authorityStart, mark w inner first, later, Option.map_some, List.length_append]
        congr 1
        omega
      rw [redactUrlUserinfo_eq, start, ← List.append_assoc, ← List.append_assoc]
      exact withoutUserinfo_shift (p ++ w) after (n + 3)
    | none =>
      have slashes (w : Text) (inner : Inner w) :
          "//".toList.isPrefixOf (p ++ (w ++ after)) = "//".toList.isPrefixOf p := by
        have := inner.noSlash after
        obtain ⟨c, more, same⟩ : ∃ c more, w ++ after = c :: more :=
          List.exists_cons_of_ne_nil (inner.keyed.append after).ne_nil
        rw [same] at this ⊢
        obtain _ | ⟨d, _ | ⟨e, rest⟩⟩ := p
        · simp [List.isPrefixOf, Ne.symm (this c rfl)]
        · simp [List.isPrefixOf, Ne.symm (this c rfl)]
        · simp [List.isPrefixOf]
      have start (w : Text) (inner : Inner w) :
          authorityStart (p ++ (w ++ after)) = authorityStart p := by
        simp only [authorityStart, mark w inner first, later, Option.map_none, first,
          slashes w inner]
      cases found : authorityStart p with
      | some n => exact inFront n found fun w inner => (start w inner).trans found
      | none =>
        refine ⟨p, after, fun w inner => ?_, rfl, fun c => .inl, rfl⟩
        rw [redactUrlUserinfo_eq, start w inner, found]

/-! ## Queries -/

def afterLast (sep : Char) (text : Text) : Text := (text.reverse.takeWhile (· ≠ sep)).reverse

theorem not_mem_afterLast (sep : Char) (text : Text) : sep ∉ afterLast sep text := by
  intro member
  simpa using List.mem_takeWhile_imp (List.mem_reverse.mp member)

theorem eq_afterLast (sep : Char) (text : Text) :
    text = afterLast sep text ∨ ∃ front, text = front ++ sep :: afterLast sep text := by
  have parts := List.takeWhile_append_dropWhile (p := (· ≠ sep)) (l := text.reverse)
  have whole : text = (text.reverse.dropWhile (· ≠ sep)).reverse ++ afterLast sep text := by
    rw [afterLast, ← List.reverse_append, parts, List.reverse_reverse]
  cases dropped : text.reverse.dropWhile (· ≠ sep) with
  | nil =>
    rw [dropped] at whole
    exact .inl whole
  | cons c rest =>
    have last : c = sep := by
      have := List.head?_dropWhile_not (· ≠ sep) text.reverse
      rw [dropped] at this
      simpa using this
    rw [dropped, last, List.reverse_cons, List.append_assoc] at whole
    exact .inr ⟨rest.reverse, whole⟩

theorem splitOn_window (sep : Char) (front after : Text) :
    ∃ init tail, ∀ w, sep ∉ w → (front ++ (w ++ after)).splitOn sep =
      init ++ (afterLast sep front ++ (w ++ after.takeWhile (· ≠ sep))) :: tail := by
  -- behind the part
  have behind : ∃ tail, ∀ x, sep ∉ x →
      (x ++ after).splitOn sep = (x ++ after.takeWhile (· ≠ sep)) :: tail := by
    have parts := List.takeWhile_append_dropWhile (p := (· ≠ sep)) (l := after)
    have free : sep ∉ after.takeWhile (· ≠ sep) := fun member => by
      simpa using List.mem_takeWhile_imp member
    cases dropped : after.dropWhile (· ≠ sep) with
    | nil =>
      rw [dropped, List.append_nil] at parts
      refine ⟨[], fun x absent => ?_⟩
      rw [parts, List.splitOn_eq_singleton]
      rw [List.mem_append, not_or]
      exact ⟨absent, parts ▸ free⟩
    | cons c rest =>
      have first : c = sep := by
        have := List.head?_dropWhile_not (· ≠ sep) after
        rw [dropped] at this
        simpa using this
      rw [dropped, first] at parts
      refine ⟨rest.splitOn sep, fun x absent => ?_⟩
      have whole : x ++ after = x ++ after.takeWhile (· ≠ sep) ++ sep :: rest := by
        rw [List.append_assoc, parts]
      rw [whole, List.splitOn_append_cons_self_of_not_mem]
      rw [List.mem_append, not_or]
      exact ⟨absent, free⟩
  obtain ⟨tail, behind⟩ := behind
  have piece (w : Text) (absent : sep ∉ w) : sep ∉ afterLast sep front ++ w := by
    rw [List.mem_append, not_or]
    exact ⟨not_mem_afterLast sep front, absent⟩
  obtain whole | ⟨before, whole⟩ := eq_afterLast sep front
  · refine ⟨[], tail, fun w absent => ?_⟩
    have := behind (afterLast sep front ++ w) (piece w absent)
    rw [← whole] at this ⊢
    rw [← List.append_assoc, this, List.nil_append, List.append_assoc]
  · refine ⟨before.splitOn sep, tail, fun w absent => ?_⟩
    have := behind (afterLast sep front ++ w) (piece w absent)
    have text : front ++ (w ++ after) = before ++ sep :: (afterLast sep front ++ w ++ after) := by
      conv_lhs => rw [whole]
      simp
    rw [text, List.splitOn_append_cons_self, this, List.append_assoc]

theorem sanitizePair_of_sensitive {name : Text}
    (sensitive : isSensitiveRawQueryKey (name.takeWhile (· ≠ '=')) = true) :
    sanitizePair (name ++ '=' :: rest) = name.takeWhile (· ≠ '=') ++ '=' :: redacted := by
  obtain ⟨after, cut⟩ := splitOnce_of_mem
    (show '=' ∈ name ++ '=' :: rest from List.mem_append_right _ List.mem_cons_self)
  have first : (name ++ '=' :: rest).takeWhile (· ≠ '=') = name.takeWhile (· ≠ '=') := by
    rw [List.takeWhile_append]
    split_ifs with whole
    · have all := (List.takeWhile_sublist (l := name) (· ≠ '=')).eq_of_length whole
      rw [all, List.takeWhile_cons_of_neg (by simp), List.append_nil]
    · rfl
  rw [first] at cut
  rw [sanitizePair, cut]
  simp only [sensitive, if_true]

theorem sanitizeQuery_window {front after v v' : Text}
    (sensitive : isSensitiveRawQueryKey ((afterLast '&' front ++ key).takeWhile (· ≠ '=')) = true)
    (one : '&' ∉ key ++ '=' :: v) (other : '&' ∉ key ++ '=' :: v') :
    sanitizeQuery (front ++ (key ++ '=' :: v ++ after)) =
      sanitizeQuery (front ++ (key ++ '=' :: v' ++ after)) := by
  obtain ⟨init, tail, pieces⟩ := splitOn_window '&' front after
  have pair (x : Text) : sanitizePair (afterLast '&' front ++
      (key ++ '=' :: x ++ after.takeWhile (· ≠ '&'))) =
        (afterLast '&' front ++ key).takeWhile (· ≠ '=') ++ '=' :: redacted := by
    rw [List.append_assoc, ← List.append_assoc, List.cons_append]
    exact sanitizePair_of_sensitive sensitive
  rw [sanitizeQuery, sanitizeQuery, pieces _ one, pieces _ other]
  simp only [List.map_append, List.map_cons, pair]

/-! ## Whole URLs -/

def isUrlValueChar (c : Char) : Bool := c.isAlphanum || ['+', '/', '=', '_', '-'].contains c

def UrlValue (value : Text) : Prop := value ≠ [] ∧ ∀ c ∈ value, isUrlValueChar c = true

theorem isUrlValueChar_spec {c : Char} (valid : isUrlValueChar c = true) :
    isPlain c = true ∧ c ≠ ':' ∧ c ≠ '@' ∧ c ≠ '#' ∧ c ≠ '?' ∧ c ≠ '&' := by
  have other (d : Char) (differs : isUrlValueChar d = false) : c ≠ d := by
    rintro rfl
    rw [valid] at differs
    cases differs
  refine ⟨isPlain_iff.mpr ⟨?_, other _ (by decide), other _ (by decide)⟩, other _ (by decide),
    other _ (by decide), other _ (by decide), other _ (by decide), other _ (by decide)⟩
  simp only [isUrlValueChar, Bool.or_eq_true, List.contains_eq_mem, decide_eq_true_eq] at valid
  obtain alphanumeric | sign := valid
  · exact (key_spec (by simp [isAssignmentKeyChar, isTokenChar, alphanumeric])).1
  · have signs : ∀ d ∈ ['+', '/', '=', '_', '-'], isUnquotedValueDelim d = false := by decide
    exact signs c sign

theorem UrlValue.plain {value : Text} (valid : UrlValue value) : PlainValue value :=
  ⟨valid.1, fun c member => (isUrlValueChar_spec (valid.2 c member)).1⟩

theorem UrlValue.window {value : Text} (known : SensitiveKey key) (valid : UrlValue value) :
    Inner (key ++ '=' :: value) ∧ '#' ∉ key ++ '=' :: value ∧ '?' ∉ key ++ '=' :: value ∧
      '&' ∉ key ++ '=' :: value := by
  have absent (d : Char) (noKey : isAssignmentKeyChar d = false) (noSign : d ≠ '=')
      (noValue : isUrlValueChar d = false) : d ∉ key ++ '=' :: value := by
    intro member
    rw [List.mem_append, List.mem_cons] at member
    obtain member | same | member := member
    · rw [known.chars d member] at noKey
      cases noKey
    · exact noSign same
    · rw [valid.2 d member] at noValue
      cases noValue
  refine ⟨⟨known.keyed _, absent _ ?_ ?_ ?_, absent _ ?_ ?_ ?_⟩, absent _ ?_ ?_ ?_, absent _ ?_ ?_ ?_,
    absent _ ?_ ?_ ?_⟩
  all_goals decide

/-- Where the assignment of a key stands between the front of a URL and what follows: in the
fragment or the path, with no encoded separator in the key, and not in an authority whose
user information may follow; or in a pair of the query whose name is sensitive. -/
def Covered (p key s : Text) : Prop :=
  match splitOnce '#' p with
  | some _ => Intact key
  | none =>
    match splitOnce '?' p with
    | some (_, query) =>
      isSensitiveRawQueryKey ((afterLast '&' query ++ key).takeWhile (· ≠ '=')) = true
    | none => Intact key ∧ (OpenAuthority p → '@' ∉ s)

instance (p key s : Text) : Decidable (Covered p key s) := by
  unfold Covered
  cases splitOnce '#' p with
  | some _ => exact inferInstance
  | none =>
    cases splitOnce '?' p with
    | some _ => exact inferInstance
    | none => exact inferInstance

theorem Covered.mono {p s t : Text} (covered : Covered p key s) (part : ∀ c ∈ t, c ∈ s) :
    Covered p key t := by
  unfold Covered at covered ⊢
  split
  · rename_i cut
    simpa only [cut] using covered
  · rename_i cut
    simp only [cut] at covered
    split
    · rename_i later
      simpa only [later] using covered
    · rename_i later
      simp only [later] at covered
      exact ⟨covered.1, fun opens member => covered.2 opens (part _ member)⟩

def Follows (s : Text) : Prop := ∀ c ∈ s.head?, c = '&' ∨ c = '#' ∨ c = ';' ∨ c = ','

instance : DecidablePred Follows := fun s =>
  inferInstanceAs (Decidable (∀ c ∈ s.head?, c = '&' ∨ c = '#' ∨ c = ';' ∨ c = ','))

theorem Follows.fresh {s : Text} (follows : Follows s) : Fresh s := by
  intro c first
  obtain rfl | rfl | rfl | rfl := follows c first
  · decide
  · decide
  · decide
  · decide

section Url

variable {p key s v₁ v₂ : Text}

theorem Follows.front {t : Text} (follows : Follows (s ++ t)) : Follows s := by
  intro c first
  refine follows c ?_
  rw [List.head?_append, Option.mem_def.mp first]
  rfl

theorem path_hidden (unescaped : '%' ∉ p) (untagged : '<' ∉ p)
    (border : ∀ c ∈ p.getLast?, isAssignmentKeyChar c = false) (known : SensitiveKey key)
    (intact : Intact key) (safe : OpenAuthority p → '@' ∉ s) (follows : Follows s)
    (one : UrlValue v₁) (other : UrlValue v₂) :
    redactSecrets (redactUrlUserinfo (p ++ (key ++ '=' :: v₁ ++ s))) =
      redactSecrets (redactUrlUserinfo (p ++ (key ++ '=' :: v₂ ++ s))) := by
  have noSlash : ∀ c ∈ s.head?, c ≠ '/' := by
    intro c first
    obtain rfl | rfl | rfl | rfl := follows c first
    · decide
    · decide
    · decide
    · decide
  obtain ⟨front, behind, same, last, chars, head⟩ := redactUrlUserinfo_window p s noSlash safe
  rw [same _ (one.window known).1, same _ (other.window known).1]
  have absent {c : Char} (here : c ∉ p) (marker : c ∉ redacted) : c ∉ front := fun member =>
    (chars c member).elim here marker
  refine redactSecrets_assignment (absent unescaped (by decide)) (absent untagged (by decide))
    (last ▸ border) known intact (by decide) ?_ one.plain other.plain
  intro c first
  exact follows.fresh c (head ▸ first)

theorem sanitizeBase_hidden (unescaped : '%' ∉ p) (untagged : '<' ∉ p) (noFragment : '#' ∉ p)
    (border : ∀ c ∈ p.getLast?, isAssignmentKeyChar c = false) (known : SensitiveKey key)
    (covered : Covered p key s) (follows : Follows s) (one : UrlValue v₁) (other : UrlValue v₂) :
    sanitizeBase (p ++ (key ++ '=' :: v₁ ++ s)) = sanitizeBase (p ++ (key ++ '=' :: v₂ ++ s)) := by
  rw [Covered, splitOnce_of_not_mem noFragment] at covered
  by_cases inQuery : '?' ∈ p
  · obtain ⟨query, cut⟩ := splitOnce_of_mem inQuery
    simp only [cut] at covered
    simp only [sanitizeBase, splitOnce_append_right cut]
    rw [sanitizeQuery_window covered (one.window known).2.2.2 (other.window known).2.2.2]
  · rw [splitOnce_of_not_mem inQuery] at covered
    obtain ⟨intact, safe⟩ := covered
    simp only [sanitizeBase, splitOnce_append_left inQuery,
      splitOnce_append_left (one.window known).2.2.1, splitOnce_append_left (other.window known).2.2.1]
    cases cut : splitOnce '?' s with
    | none =>
      exact path_hidden unescaped untagged border known intact safe follows one other
    | some parts =>
      have whole := append_of_splitOnce cut
      simp only [Option.map_some]
      rw [path_hidden unescaped untagged border known intact _ (whole ▸ follows).front one other]
      exact fun opens member => safe opens (whole ▸ List.mem_append_left _ member)

theorem fragment_hidden (unescaped : '%' ∉ p) (untagged : '<' ∉ p) (inFragment : '#' ∈ p)
    (border : ∀ c ∈ p.getLast?, isAssignmentKeyChar c = false) (known : SensitiveKey key)
    (intact : Intact key) (follows : Follows s) (one : UrlValue v₁) (other : UrlValue v₂) :
    sanitizeUrl (p ++ (key ++ '=' :: v₁ ++ s)) = sanitizeUrl (p ++ (key ++ '=' :: v₂ ++ s)) := by
  obtain ⟨fragment, cut⟩ := splitOnce_of_mem inFragment
  have split := append_of_splitOnce cut
  have inside {c : Char} (absent : c ∉ p) : c ∉ fragment := fun member => by
    refine absent ?_
    rw [split]
    exact List.mem_append_right _ (List.mem_cons_of_mem _ member)
  simp only [sanitizeUrl, splitOnce_append_right cut]
  rw [redactSecrets_assignment (inside unescaped) (inside untagged) ?_ known intact (by decide)
    follows.fresh one.plain other.plain]
  intro c last
  refine border c ?_
  rw [split, List.getLast?_append, List.getLast?_cons, last]
  rfl

end Url

end RustyCat.Log
