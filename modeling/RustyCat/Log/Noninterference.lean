import RustyCat.Log.Hiding

/-!
# What a redacted text says about its secrets

Two texts that differ in one secret are redacted to the same text: the value of a
sensitive key, plain or quoted, and a bearer token.  Each time the text is a front, a
window that holds the secret, and what stands behind it.
-/

namespace RustyCat.Log

open Ascii Scan

/-! ## Windows of whole texts -/

/-- What may stand behind a window. -/
def Fresh (after : Text) : Prop :=
  ∀ c ∈ after.head?, isAssignmentKeyChar c = false ∧ isEncodedKeyChar c = false ∧ c ≠ '<'

theorem fresh_of_delim {after : Text} (delim : ∀ c ∈ after.head?, isUnquotedValueDelim c = true)
    (untagged : '<' ∉ after) : Fresh after := by
  intro c first
  have other (d : Char) (plain : isUnquotedValueDelim d = false) : c ≠ d := by
    rintro rfl
    rw [delim c first] at plain
    cases plain
  have noKey : isAssignmentKeyChar c = false := by
    by_contra key
    have := (key_spec (Bool.of_not_eq_false key)).1
    rw [delim c first] at this
    cases this
  refine ⟨noKey, ?_, fun same => untagged (same ▸ List.mem_of_mem_head? first)⟩
  simp only [isAssignmentKeyChar, isTokenChar, Bool.or_eq_false_iff] at noKey
  simp [isEncodedKeyChar, noKey, other '.' (by decide)]

variable {w v v' : Text}

theorem redactSecrets_window (window : Text → Prop) {front after : Text}
    (over_ : Window window front) (quiet : ∀ w, window w → Quiet (front ++ w))
    (untagged : ∀ w, window w → '<' ∉ front ++ w) (fresh : Fresh after)
    (final : ∀ behind : Text, behind.head? = after.head? → ∃ later written, ∀ w, window w →
      secretRule front.reverse (w ++ behind) = some (w.length + later, written)) {w' : Text}
    (one : window w) (other : window w') :
    redactSecrets (front ++ (w ++ after)) = redactSecrets (front ++ (w' ++ after)) := by
  have encoded : ∀ c ∈ after.head?, isEncodedKeyChar c = false := fun c first => (fresh c first).2.1
  have head := head?_prepared encoded fun c first => (fresh c first).2.2
  have text (x : Text) (here : window x) :
      prepared (front ++ (x ++ after)) = front ++ (x ++ prepared after) := by
    rw [← List.append_assoc, prepared_append (quiet x here) (untagged x here) encoded,
      List.append_assoc]
  rw [redactSecrets_eq, redactSecrets_eq, text w one, text w' other]
  refine over_.run_secretRule ?_ (final _ head) one other
  rw [head]
  exact fun c first => (fresh c first).1

/-! ## The value of a sensitive key -/

/-- The windows of an assignment without quotes. -/
def Assignment (key middle : Text) (window : Text) : Prop :=
  ∃ value, PlainValue value ∧ window = key ++ (middle ++ value)

variable {front key after : Text} {left right : Nat} {separator : Char}

section

variable (known : SensitiveKey key) (sep : isSeparator separator = true)
include known sep

theorem assignment_final (border : ∀ c ∈ front.getLast?, isAssignmentKeyChar c = false)
    (noBearer : eqIgnoreAsciiCase (key.take 9) "bearer%20".toList = false) (behind : Text) :
    ∃ later written, ∀ w, Assignment key (spaced left separator right) w →
      secretRule front.reverse (w ++ behind) = some (w.length + later, written) := by
  refine ⟨(behind.takeWhile (!keyDelim key ·)).length,
    key ++ spaced left separator right ++ redacted, ?_⟩
  rintro w ⟨value, plain, rfl⟩
  have first : ∀ c ∈ (value ++ behind).head?, c ∈ value := by
    obtain ⟨c, rest, rfl⟩ := List.exists_cons_of_ne_nil plain.1
    rintro d ⟨⟩
    exact List.mem_cons_self
  have starts : valueAfterKey front.reverse (spaced left separator right ++ (value ++ behind)) =
      some (value ++ behind) := by
    obtain ⟨c, rest, same⟩ := spaced_eq_cons left separator right
    have here : c ∈ spaced left separator right := by
      rw [same]
      exact List.mem_cons_self
    have noQuote : isQuote c = false := (spaced_spec sep here).2.2.1
    have passed : passQuote front.reverse (spaced left separator right ++ (value ++ behind)) =
        spaced left separator right ++ (value ++ behind) := by
      simp [same, passQuote, noQuote]
    rw [valueAfterKey, passed]
    exact valueAfterSeparator_spaced sep fun c here => (plain.not_delim (first c here)).2.2.2.1
  have parted : Parted (spaced left separator right ++ (value ++ behind)) := by
    have first : Parted (spaced left separator right) := spaced_parted sep
    obtain ⟨c, rest, same, other⟩ := first
    exact ⟨c, rest ++ (value ++ behind), by rw [same]; rfl, other⟩
  have rule := secretRule_key known (Window.head?_reverse_any.mpr border) (spaced_parted sep)
    (bearerValueStart_key known parted noBearer) starts (by simp [plain.1])
  rw [List.append_assoc, List.append_assoc, rule, ← List.append_assoc, redactValue_unquoted _
    fun c here => (plain.not_delim (first c here)).2.2.1, List.takeWhile_append_of_pos
    fun c member => by simp [plain.not_keyDelim key member]]
  simp only [List.length_append, Option.some.injEq, Prod.mk.injEq, and_true]
  omega

theorem bearer_final (border : ∀ c ∈ front.getLast?, isAssignmentKeyChar c = false)
    (bearer : eqIgnoreAsciiCase (key.take 9) "bearer%20".toList = true) (behind : Text) :
    ∃ later written, ∀ w, Assignment key [separator] w →
      secretRule front.reverse (w ++ behind) = some (w.length + later, written) := by
  refine ⟨(behind.takeWhile (!isUnquotedValueDelim ·)).length, key.take 9 ++ redacted, ?_⟩
  rintro w ⟨value, plain, rfl⟩
  have nine := length_of_eqIgnoreAsciiCase bearer
  have long : 9 ≤ key.length := by
    rw [List.length_take] at nine
    have : "bearer%20".toList.length = 9 := by decide
    omega
  have lower := eqIgnoreAsciiCase_iff.mp bearer
  -- the parts of the encoded word
  have word : eqIgnoreAsciiCase (key.take 6) bearerWord = true := by
    have := congrArg (List.take 6) lower
    rw [lowercase, ← List.map_take, List.take_take] at this
    exact eqIgnoreAsciiCase_iff.mpr (this.trans (by decide))
  have escape : eqIgnoreAsciiCase ((key.drop 6).take 3) "%20".toList = true := by
    have := congrArg (List.drop 6) lower
    rw [lowercase, ← List.map_drop, List.drop_take] at this
    exact eqIgnoreAsciiCase_iff.mpr (this.trans (by decide))
  have text : key ++ ([separator] ++ value) ++ behind =
      key.take 9 ++ (key.drop 9 ++ ([separator] ++ value) ++ behind) := by
    simp only [← List.append_assoc, List.take_append_drop]
  have six (rest : Text) : (key ++ rest).take 6 = key.take 6 :=
    List.take_append_of_le_length (by omega)
  have authorized : authorizationValueStart front.reverse (key ++ ([separator] ++ value) ++ behind) =
      none := by
    have other : eqIgnoreAsciiCase ((key ++ ([separator] ++ value) ++ behind).take 13)
        authorizationWord = false := by
      by_contra same
      have same := congrArg (List.take 6) (eqIgnoreAsciiCase_iff.mp (Bool.of_not_eq_false same))
      rw [lowercase, ← List.map_take, List.take_take, List.append_assoc] at same
      change lowercase ((key ++ _).take 6) = _ at same
      rw [six, eqIgnoreAsciiCase_iff.mp word] at same
      exact absurd same (by decide)
    rw [authorizationValueStart, other]
    simp
  have carried : bearerValueStart front.reverse (key ++ ([separator] ++ value) ++ behind) =
      some (key.drop 9 ++ ([separator] ++ value) ++ behind) := by
    have noToken : front.reverse.head?.any isTokenChar = false := by
      refine Window.head?_reverse_any.mpr fun c last => ?_
      have := border c last
      simp only [isAssignmentKeyChar, Bool.or_eq_false_iff] at this
      exact this.1
    obtain ⟨d, more, later⟩ : ∃ d more, key.drop 6 = d :: more :=
      List.exists_cons_of_ne_nil (by simp; omega)
    have keyChar : isAssignmentKeyChar d = true :=
      known.chars d (List.mem_of_mem_drop (by rw [later]; exact List.mem_cons_self))
    have dropped (rest : Text) : (key ++ rest).drop 6 = key.drop 6 ++ rest :=
      List.drop_append_of_le_length (by omega)
    have space (rest : Text) : (key.drop 6 ++ rest).head?.any isWhitespace = false := by
      rw [later]
      exact (key_spec keyChar).2.2.2.2.1
    have three (rest : Text) : (key.drop 6 ++ rest).take 3 = (key.drop 6).take 3 :=
      List.take_append_of_le_length (by rw [List.length_drop]; omega)
    have behindNine (rest : Text) : (key ++ rest).drop 9 = key.drop 9 ++ rest :=
      List.drop_append_of_le_length long
    rw [bearerValueStart, List.append_assoc, six, noToken, word, dropped, space, three, escape,
      behindNine, List.append_assoc]
    simp [Option.filter]
  have token : secretRule front.reverse (key ++ ([separator] ++ value) ++ behind) =
      some (redactToken (key ++ ([separator] ++ value) ++ behind)
        (key.drop 9 ++ ([separator] ++ value) ++ behind)) := by
    simp only [secretRule, authorized, carried]
  have clear : ∀ c ∈ key.drop 9 ++ ([separator] ++ value), (!isUnquotedValueDelim c) = true := by
    intro c member
    simp only [List.mem_append, List.mem_singleton] at member
    obtain member | rfl | member := member
    · simp [(key_spec (known.chars c (List.mem_of_mem_drop member))).1]
    · obtain rfl | rfl := isSeparator_iff.mp sep
      · decide
      · decide
    · simp [(plain.not_delim member).1]
  rw [token, text, redactToken_eq, List.takeWhile_append_of_pos clear]
  simp only [List.length_append, List.length_drop, List.length_take, Option.some.injEq,
    Prod.mk.injEq, and_true]
  omega

theorem assignment_chars (window : Assignment key (spaced left separator right) w) :
    Keyed w ∧ ∀ c ∈ w, isAuthorizationValueDelim c = false ∧ isQuote c = false ∧ c ≠ '\\' ∧
      c ≠ '<' ∧ (c = ' ' ∨ isUnquotedValueDelim c = false) := by
  obtain ⟨value, plain, rfl⟩ := window
  refine ⟨known.keyed _, fun c member => ?_⟩
  rw [List.mem_append, List.mem_append] at member
  obtain member | member | member := member
  · obtain ⟨delim, authorization, quote, -, -, escape⟩ := key_spec (known.chars c member)
    refine ⟨authorization, quote, escape, ?_, .inr delim⟩
    rintro rfl
    cases delim
  · obtain ⟨-, authorization, quote, escape, -, tag, -⟩ := spaced_spec sep member
    refine ⟨authorization, quote, escape, tag, (mem_spaced member).imp_right ?_⟩
    rintro rfl
    obtain rfl | rfl := isSeparator_iff.mp sep
    · decide
    · decide
  · obtain ⟨delim, authorization, quote, -, escape, -, tag⟩ := plain.not_delim member
    exact ⟨authorization, quote, escape, tag, .inr delim⟩

end

theorem assignment_quiet (unescaped : '%' ∉ front) (intact : Intact key)
    (sep : isSeparator separator = true)
    (window : Assignment key (spaced left separator right) w) : Quiet (front ++ w) := by
  obtain ⟨value, plain, rfl⟩ := window
  obtain ⟨c, rest, same⟩ := spaced_eq_cons left separator right
  have spec {d : Char} (member : d ∈ spaced left separator right) := spaced_spec sep member
  rw [same, List.cons_append]
  rw [same] at spec
  refine quiet_of_intact unescaped intact (spec List.mem_cons_self).2.2.2.2.2.2 ?_
  rw [List.mem_append, not_or]
  exact ⟨fun member => (spec (List.mem_cons_of_mem c member)).2.2.2.2.1 rfl,
    fun member => (plain.not_delim member).2.2.2.2.2.1 rfl⟩

theorem redactSecrets_assignment (unescaped : '%' ∉ front) (untagged : '<' ∉ front)
    (border : ∀ c ∈ front.getLast?, isAssignmentKeyChar c = false) (known : SensitiveKey key)
    (intact : Intact key) (sep : isSeparator separator = true) (fresh : Fresh after)
    (one : PlainValue v) (other : PlainValue v') :
    redactSecrets (front ++ (key ++ separator :: v ++ after)) =
      redactSecrets (front ++ (key ++ separator :: v' ++ after)) := by
  have chars {w : Text} (here : Assignment key (spaced 0 separator 0) w) :=
    assignment_chars known sep here
  -- there are no spaces, so that a value begun in the front runs over the window
  have clear {w : Text} (here : Assignment key (spaced 0 separator 0) w) (c : Char) (member : c ∈ w) :
      isUnquotedValueDelim c = false := by
    refine ((chars here).2 c member).2.2.2.2.resolve_left ?_
    rintro rfl
    obtain ⟨value, plain, rfl⟩ := here
    simp only [spaced, List.replicate_zero, List.nil_append, List.mem_append,
      List.mem_singleton] at member
    obtain member | rfl | member := member
    · exact absurd (known.chars _ member) (by decide)
    · exact absurd sep (by decide)
    · exact absurd (plain.not_delim member).2.2.2.1 (by decide)
  refine redactSecrets_window (Assignment key (spaced 0 separator 0)) ?_ ?_ ?_ fresh ?_
    ⟨v, one, rfl⟩ ⟨v', other, rfl⟩
  · exact ⟨fun w here => (chars here).1, fun w here c member => ((chars here).2 c member).1, border,
      unescaped, .inl fun w here => clear here,
      .inl fun w here c member => ⟨((chars here).2 c member).2.1, ((chars here).2 c member).2.2.1⟩⟩
  · exact fun w here => assignment_quiet unescaped intact sep here
  · intro w here member
    rw [List.mem_append] at member
    exact member.elim untagged fun inside => ((chars here).2 _ inside).2.2.2.1 rfl
  · intro behind _
    cases bearer : eqIgnoreAsciiCase (key.take 9) "bearer%20".toList with
    | true => exact bearer_final known sep border bearer behind
    | false => exact assignment_final known sep border bearer behind

theorem closed_of_getLast? (last : ∃ c ∈ front.getLast?, isUnquotedValueDelim c = true ∧
      isWhitespace c = false ∧ isSeparator c = false) :
    ∀ lead value, front = lead ++ value → Opens lead →
      ∃ c ∈ value, isUnquotedValueDelim c = true := by
  intro lead value split opens
  obtain ⟨c, last, delim, space, sep⟩ := last
  obtain ⟨d, final, kind⟩ := opens.leads
  rw [split, List.getLast?_append] at last
  cases value with
  | nil =>
    rw [List.getLast?_nil, Option.none_or, final] at last
    cases last
    simp [space, sep] at kind
  | cons b value =>
    refine ⟨c, ?_, delim⟩
    have whole : (b :: value).getLast? = some c := by
      rw [List.getLast?_cons] at last ⊢
      exact last
    exact List.mem_of_getLast? whole

theorem redactSecrets_spaced (unescaped : '%' ∉ front) (untagged : '<' ∉ front)
    (last : ∃ c ∈ front.getLast?, isUnquotedValueDelim c = true ∧ isWhitespace c = false ∧
      isSeparator c = false) (known : SensitiveKey key) (intact : Intact key)
    (noBearer : eqIgnoreAsciiCase (key.take 9) "bearer%20".toList = false)
    (sep : isSeparator separator = true) (fresh : Fresh after) (one : PlainValue v)
    (other : PlainValue v') :
    redactSecrets (front ++ (key ++ (spaced left separator right ++ v) ++ after)) =
      redactSecrets (front ++ (key ++ (spaced left separator right ++ v') ++ after)) := by
  have chars {w : Text} (here : Assignment key (spaced left separator right) w) :=
    assignment_chars known sep here
  have border : ∀ c ∈ front.getLast?, isAssignmentKeyChar c = false := by
    obtain ⟨c, final, delim, -⟩ := last
    intro d here
    cases final.symm.trans here
    by_contra key
    have := (key_spec (Bool.of_not_eq_false key)).1
    rw [delim] at this
    cases this
  refine redactSecrets_window (Assignment key (spaced left separator right)) ?_ ?_ ?_ fresh
    (fun behind _ => assignment_final known sep border noBearer behind) ⟨v, one, rfl⟩ ⟨v', other, rfl⟩
  · exact ⟨fun w here => (chars here).1, fun w here c member => ((chars here).2 c member).1, border,
      unescaped, .inr (closed_of_getLast? last),
      .inl fun w here c member => ⟨((chars here).2 c member).2.1, ((chars here).2 c member).2.2.1⟩⟩
  · exact fun w here => assignment_quiet unescaped intact sep here
  · intro w here member
    rw [List.mem_append] at member
    exact member.elim untagged fun inside => ((chars here).2 _ inside).2.2.2.1 rfl

/-! ## Quoted members -/

/-- The windows of a member in double quotes, from its key up to its value. -/
def Member (key middle : Text) (window : Text) : Prop :=
  ∃ value, PlainValue value ∧ window = key ++ ('"' :: middle ++ '"' :: value)

theorem member_final (known : SensitiveKey key) (sep : isSeparator separator = true)
    (noBearer : eqIgnoreAsciiCase (key.take 9) "bearer%20".toList = false) {behind : Text}
    (closes : behind.head? = some '"') :
    ∃ later written, ∀ w, Member key (spaced left separator right) w →
      secretRule (front ++ ['"']).reverse (w ++ behind) = some (w.length + later, written) := by
  obtain ⟨rest, rfl⟩ := List.head?_eq_some_iff.mp closes
  refine ⟨1, key ++ '"' :: spaced left separator right ++ ['"'] ++ redacted ++ ['"'], ?_⟩
  rintro w ⟨value, plain, rfl⟩
  have border : (front ++ ['"']).reverse.head?.any isAssignmentKeyChar = false := by
    simp only [List.reverse_append, List.reverse_singleton, List.singleton_append, List.head?_cons]
    decide
  have starts : valueAfterKey (front ++ ['"']).reverse
      ('"' :: spaced left separator right ++ '"' :: (value ++ '"' :: rest)) =
        some ('"' :: (value ++ '"' :: rest)) := by
    have passed : passQuote (front ++ ['"']).reverse
        ('"' :: spaced left separator right ++ '"' :: (value ++ '"' :: rest)) =
          spaced left separator right ++ '"' :: (value ++ '"' :: rest) := by
      simp [passQuote, isQuote]
    rw [valueAfterKey, passed]
    refine valueAfterSeparator_spaced sep ?_
    rintro c ⟨⟩
    decide
  have skipped : skipQuotedValue '"' false (value ++ '"' :: rest) = (value.length, true) := by
    rw [skipQuotedValue_plain (by decide) plain.1 fun c member =>
      ⟨(plain.not_delim member).2.2.1, (plain.not_delim member).2.2.2.2.1⟩]
    simp [skipQuotedValue]
  have parted : Parted ('"' :: spaced left separator right) := ⟨'"', _, rfl, by decide⟩
  have rule := secretRule_key known border parted
    (bearerValueStart_key known ⟨'"', _, rfl, by decide⟩ noBearer) starts (by simp)
  have text : key ++ ('"' :: spaced left separator right ++ '"' :: value) ++ '"' :: rest =
      key ++ ('"' :: spaced left separator right ++ '"' :: (value ++ '"' :: rest)) := by simp
  rw [text, rule, ← List.append_assoc, redactValue_quoted _ (by decide), skipped]
  simp only [List.length_append, List.length_cons, Option.some.injEq, Prod.mk.injEq]
  exact ⟨by omega, trivial⟩

theorem member_chars (known : SensitiveKey key) (sep : isSeparator separator = true)
    (window : Member key (spaced left separator right) w) :
    Keyed w ∧ ∀ c ∈ w, isAuthorizationValueDelim c = false ∧ c ≠ '<' := by
  obtain ⟨value, plain, rfl⟩ := window
  refine ⟨known.keyed _, fun c member => ?_⟩
  simp only [List.cons_append, List.mem_append, List.mem_cons] at member
  obtain member | rfl | member | rfl | member := member
  · obtain ⟨delim, authorization, -⟩ := key_spec (known.chars c member)
    refine ⟨authorization, ?_⟩
    rintro rfl
    cases delim
  · decide
  · obtain ⟨-, authorization, -, -, -, tag, -⟩ := spaced_spec sep member
    exact ⟨authorization, tag⟩
  · decide
  · obtain ⟨-, authorization, -, -, -, -, tag⟩ := plain.not_delim member
    exact ⟨authorization, tag⟩

theorem redactSecrets_member (unescaped : '%' ∉ front) (untagged : '<' ∉ front)
    (unquoted : ∀ c ∈ front, isQuote c = false)
    (last : ∃ c ∈ front.getLast?, isWhitespace c = false ∧ isSeparator c = false)
    (known : SensitiveKey key) (intact : Intact key)
    (noBearer : eqIgnoreAsciiCase (key.take 9) "bearer%20".toList = false)
    (sep : isSeparator separator = true) (one : PlainValue v) (other : PlainValue v') :
    redactSecrets (front ++ '"' :: (key ++ ('"' :: spaced left separator right ++ '"' :: v)) ++
        '"' :: after) =
      redactSecrets (front ++ '"' :: (key ++ ('"' :: spaced left separator right ++ '"' :: v')) ++
        '"' :: after) := by
  have chars {w : Text} (here : Member key (spaced left separator right) w) :=
    member_chars known sep here
  have split (w : Text) : front ++ '"' :: w ++ '"' :: after = front ++ ['"'] ++ (w ++ '"' :: after) := by
    simp
  rw [split, split]
  refine redactSecrets_window (Member key (spaced left separator right)) ?_ ?_ ?_ ?_ ?_
    ⟨v, one, rfl⟩ ⟨v', other, rfl⟩
  · refine ⟨fun w here => (chars here).1, fun w here c member => ((chars here).2 c member).1, ?_, ?_,
      .inr (closed_of_getLast? ⟨'"', by simp, by decide⟩), .inr ?_⟩
    · simp only [List.getLast?_append, List.getLast?_singleton, Option.some_or]
      rintro c ⟨⟩
      decide
    · simp [unescaped]
    · -- the only quote stands behind the last character of the front
      intro lead c value split isQuoted leads
      have whole : lead = front := by
        obtain ⟨more, rfl, same⟩ | ⟨more, rfl, same⟩ := List.append_eq_append_iff.mp split
        · cases more with
          | nil => rw [List.append_nil]
          | cons d more => simp at same
        · cases more with
          | nil => rw [List.append_nil]
          | cons d more =>
            cases same
            exact absurd isQuoted (by simp [unquoted c])
      obtain ⟨d, final, space, sep⟩ := last
      obtain ⟨e, final', kind⟩ := leads
      rw [whole] at final'
      cases final.symm.trans final'
      simp [space, sep] at kind
  · rintro w ⟨value, plain, rfl⟩
    have behind : '%' ∉ spaced left separator right ++ '"' :: value := by
      simp only [List.mem_append, List.mem_cons, not_or]
      exact ⟨fun member => (spaced_spec sep member).2.2.2.2.1 rfl, by decide,
        fun member => (plain.not_delim member).2.2.2.2.2.1 rfl⟩
    exact quiet_of_intact (by simp [unescaped]) intact (by decide) behind
  · intro w here member
    rw [List.mem_append, List.mem_append] at member
    obtain (member | member) | member := member
    · exact untagged member
    · exact absurd member (by decide)
    · exact ((chars here).2 _ member).2 rfl
  · rintro c ⟨⟩
    decide
  · exact fun behind closes => member_final known sep noBearer closes

/-! ## Bearer tokens -/

def Bearer (word : Text) (spaces : Nat) (window : Text) : Prop :=
  ∃ token, PlainValue token ∧ window = word ++ (List.replicate spaces ' ' ++ token)

theorem bearer_token_final {word : Text} {spaces : Nat}
    (same : eqIgnoreAsciiCase word bearerWord = true) (apart : 0 < spaces)
    (border : ∀ c ∈ front.getLast?, isTokenChar c = false) (behind : Text) :
    ∃ later written, ∀ w, Bearer word spaces w →
      secretRule front.reverse (w ++ behind) = some (w.length + later, written) := by
  refine ⟨(behind.takeWhile (!isUnquotedValueDelim ·)).length,
    word ++ List.replicate spaces ' ' ++ redacted, ?_⟩
  rintro w ⟨token, plain, rfl⟩
  have six : word.length = 6 := length_of_eqIgnoreAsciiCase same
  have text : word ++ (List.replicate spaces ' ' ++ token) ++ behind =
      word ++ (List.replicate spaces ' ' ++ (token ++ behind)) := by simp
  obtain ⟨n, rfl⟩ : ∃ n, spaces = n + 1 := ⟨spaces - 1, by omega⟩
  have authorized : authorizationValueStart front.reverse
      (word ++ (List.replicate (n + 1) ' ' ++ (token ++ behind))) = none := by
    have other : eqIgnoreAsciiCase ((word ++ (List.replicate (n + 1) ' ' ++
        (token ++ behind))).take 13) authorizationWord = false := by
      by_contra equal
      have := isTokenChar_of_eqIgnoreAsciiCase letters_authorizationWord
        (Bool.of_not_eq_false equal) ' ' (by
          rw [show 13 = word.length + 7 by omega, List.take_length_add_append]
          simp [List.replicate_succ])
      exact absurd this (by decide)
    rw [authorizationValueStart, other]
    simp
  have carried : bearerValueStart front.reverse
      (word ++ (List.replicate (n + 1) ' ' ++ (token ++ behind))) = some (token ++ behind) := by
    have stays : (List.replicate (n + 1) ' ' ++ (token ++ behind)).dropWhile isWhitespace =
        token ++ behind := by
      rw [dropWhile_spaces]
      obtain ⟨c, rest, rfl⟩ := List.exists_cons_of_ne_nil plain.1
      simp [(plain.not_delim List.mem_cons_self).2.2.2.1]
    have space : (List.replicate (n + 1) ' ' ++ (token ++ behind)).head?.any isWhitespace = true := by
      rw [List.replicate_succ]
      change isWhitespace ' ' = true
      decide
    rw [bearerValueStart, ← six, List.take_left, List.drop_left, same,
      Window.head?_reverse_any.mpr border, space, stays]
    simp [Option.filter, plain.1]
  have rule : secretRule front.reverse (word ++ (List.replicate (n + 1) ' ' ++ (token ++ behind))) =
      some (redactToken (word ++ (List.replicate (n + 1) ' ' ++ (token ++ behind)))
        (token ++ behind)) := by
    simp only [secretRule, authorized, carried]
  rw [text, rule, ← List.append_assoc, redactToken_eq, List.takeWhile_append_of_pos
    fun c member => by simp [(plain.not_delim member).1]]
  simp only [List.length_append, Option.some.injEq, Prod.mk.injEq, and_true]
  omega

theorem redactSecrets_bearer {word : Text} {spaces : Nat} (unescaped : '%' ∉ front)
    (untagged : '<' ∉ front) (unquoted : ∀ c ∈ front, isQuote c = false)
    (border : ∀ c ∈ front.getLast?, isTokenChar c = false)
    (closed : ∀ lead value, front = lead ++ value → Opens lead →
      ∃ c ∈ value, isUnquotedValueDelim c = true) (same : eqIgnoreAsciiCase word bearerWord = true)
    (apart : 0 < spaces) (fresh : Fresh after) (one : PlainValue v) (other : PlainValue v') :
    redactSecrets (front ++ (word ++ (List.replicate spaces ' ' ++ v) ++ after)) =
      redactSecrets (front ++ (word ++ (List.replicate spaces ' ' ++ v') ++ after)) := by
  have letters := isTokenChar_of_eqIgnoreAsciiCase letters_bearerWord same
  have keyChars (c : Char) (member : c ∈ word) : isAssignmentKeyChar c = true := by
    simp [isAssignmentKeyChar, letters c member]
  have keyed {w : Text} (here : Bearer word spaces w) : Keyed w := by
    obtain ⟨token, -, rfl⟩ := here
    have six : word.length = 6 := length_of_eqIgnoreAsciiCase same
    have nonempty : word ≠ [] := by
      rintro rfl
      cases six
    obtain ⟨c, rest, rfl⟩ := List.exists_cons_of_ne_nil nonempty
    exact ⟨c, _, rfl, keyChars c List.mem_cons_self⟩
  have chars {w : Text} (here : Bearer word spaces w) (c : Char) (member : c ∈ w) :
      isAuthorizationValueDelim c = false ∧ c ≠ '<' ∧ c ≠ '%' := by
    obtain ⟨token, plain, rfl⟩ := here
    simp only [List.mem_append, List.mem_replicate] at member
    obtain member | ⟨-, rfl⟩ | member := member
    · obtain ⟨delim, authorization, -⟩ := key_spec (keyChars c member)
      refine ⟨authorization, ?_, ?_⟩
      · rintro rfl
        cases delim
      · rintro rfl
        exact absurd (letters _ member) (by decide)
    · decide
    · obtain ⟨-, authorization, -, -, -, percent, tag⟩ := plain.not_delim member
      exact ⟨authorization, tag, percent⟩
  refine redactSecrets_window (Bearer word spaces) ?_ ?_ ?_ fresh
    (fun behind _ => bearer_token_final same apart border behind) ⟨v, one, rfl⟩ ⟨v', other, rfl⟩
  · refine ⟨fun w => keyed, fun w here c member => (chars here c member).1, ?_, unescaped, .inr closed,
      .inr ?_⟩
    · intro c last
      have noPercent : c ≠ '%' := fun equal => unescaped (equal ▸ List.mem_of_getLast? last)
      simp [isAssignmentKeyChar, border c last, noPercent]
    · intro lead c value split isQuoted
      rw [unquoted c (by rw [split]; simp)] at isQuoted
      cases isQuoted
  · intro w here
    refine quiet_of_not_mem ?_
    rw [List.mem_append, not_or]
    exact ⟨unescaped, fun member => (chars here _ member).2.2 rfl⟩
  · intro w here member
    rw [List.mem_append] at member
    exact member.elim untagged fun inside => (chars here _ inside).2.1 rfl

/-! ## Texts without secrets -/

/-- A word stands in a text, in any letter case. -/
def Occurs (word text : Text) : Prop :=
  ∃ rest ∈ text.tails, eqIgnoreAsciiCase (rest.take word.length) word = true

instance (word text : Text) : Decidable (Occurs word text) :=
  inferInstanceAs
    (Decidable (∃ rest ∈ text.tails, eqIgnoreAsciiCase (rest.take word.length) word = true))

/-- The maximal runs of characters of keys, and the empty texts between other
characters. -/
def keyRuns (text : Text) : List Text := text.splitOnP fun c => !isAssignmentKeyChar c

theorem mem_keyRuns {a b : Text} (chars : ∀ c ∈ key, isAssignmentKeyChar c = true)
    (front : ∀ c ∈ a.getLast?, isAssignmentKeyChar c = false)
    (behind : ∀ c ∈ b.head?, isAssignmentKeyChar c = false) : key ∈ keyRuns (a ++ (key ++ b)) := by
  have inside : ∀ c ∈ key, (!isAssignmentKeyChar c) = false := fun c member => by
    simp [chars c member]
  have first : key ∈ keyRuns (key ++ b) := by
    cases b with
    | nil => simp [keyRuns, List.splitOnP_eq_singleton inside]
    | cons d b =>
      rw [keyRuns, List.splitOnP_append_cons _ _ (by simp [behind d rfl]),
        List.splitOnP_eq_singleton inside]
      simp
  obtain rfl | ⟨c, a, rfl⟩ : a = [] ∨ ∃ c a', a = a' ++ [c] := by
    obtain rfl | nonempty := List.eq_nil_or_concat a
    · exact .inl rfl
    · obtain ⟨a', c, same⟩ := nonempty
      exact .inr ⟨c, a', by rw [same, List.concat_eq_append]⟩
  · exact first
  · rw [List.append_assoc, List.singleton_append, keyRuns, List.splitOnP_append_cons _ _
      (by simp [front c])]
    exact List.mem_append_right _ first

theorem redactSecrets_eq_self {text : Text} (unescaped : '%' ∉ text) (untagged : '<' ∉ text)
    (harmless : ∀ key ∈ keyRuns text, isSensitiveRawQueryKey key = false)
    (noAuthorization : ¬Occurs authorizationWord text) (noBearer : ¬Occurs bearerWord text) :
    redactSecrets text = text := by
  have same : prepared text = text := by
    have : prepared (text ++ []) = text ++ prepared [] :=
      prepared_append (quiet_of_not_mem unescaped) untagged (by simp)
    simpa [prepared] using this
  rw [redactSecrets_eq, same]
  refine run_eq_self secretRule_advances fun a q hit split found => ?_
  rw [List.append_nil] at found
  have absent {word : Text} (none : ¬Occurs word text) :
      eqIgnoreAsciiCase (q.take word.length) word = false := by
    by_contra here
    refine none ⟨q, (List.mem_tails _ _).mpr ?_, Bool.of_not_eq_false here⟩
    rw [split]
    exact List.suffix_append a q
  have authorized : authorizationValueStart a.reverse q = none := by
    have other : eqIgnoreAsciiCase (q.take 13) authorizationWord = false := absent noAuthorization
    rw [authorizationValueStart, other]
    simp
  have carried : bearerValueStart a.reverse q = none := by
    have other : eqIgnoreAsciiCase (q.take 6) bearerWord = false := absent noBearer
    rw [bearerValueStart, other]
    simp
  simp only [secretRule, authorized, carried] at found
  split_ifs at found with begins
  have parts := List.takeWhile_append_dropWhile (p := isAssignmentKeyChar) (l := q)
  have maximal : q.takeWhile isAssignmentKeyChar ∈ keyRuns text := by
    rw [Bool.and_eq_true, Bool.not_eq_true'] at begins
    have whole : text = a ++ (q.takeWhile isAssignmentKeyChar ++ q.dropWhile isAssignmentKeyChar) := by
      rw [parts, split]
    rw [whole]
    refine mem_keyRuns (fun c => List.mem_takeWhile_imp) (Window.head?_reverse_any.mp begins.2) ?_
    intro c first
    have := List.head?_dropWhile_not isAssignmentKeyChar q
    rw [first] at this
    simpa using this
  simp only [assignmentValueStart, harmless _ maximal] at found
  cases found
  exact List.prefix_iff_eq_take.mp (List.takeWhile_prefix _)

/-! ## The laws of `redact_secrets` -/

def Free (marks text : Text) : Prop := ∀ c ∈ marks, c ∉ text

instance (marks text : Text) : Decidable (Free marks text) :=
  inferInstanceAs (Decidable (∀ c ∈ marks, c ∉ text))

/-- The key does not begin with the encoded scheme word of a bearer token. -/
def NoScheme (key : Text) : Prop := eqIgnoreAsciiCase (key.take 9) "bearer%20".toList = false

instance : DecidablePred NoScheme := fun key =>
  inferInstanceAs (Decidable (eqIgnoreAsciiCase (key.take 9) "bearer%20".toList = false))

theorem sanitizeUrl_fragment {base : Text} (first : '#' ∉ base) (fragment : Text) :
    sanitizeUrl (base ++ '#' :: fragment) = sanitizeBase base ++ '#' :: redactSecrets fragment := by
  rw [sanitizeUrl, splitOnce_append first]

end RustyCat.Log
