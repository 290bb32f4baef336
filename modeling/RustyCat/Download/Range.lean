import RustyCat.Download.Headers

/-!
# Range requests and the heads of their responses

What `download_one_chunk` and `download_one_chunk_part_positioned` ask for, and the
checks each makes on the head of the response before it turns to the generation
validator.  The two are written separately in the source, with messages of their
own, and so they are here; `serialHead_eq_ok` and `positionedHead_eq_ok` give them
one meaning.
-/

namespace RustyCat.Download

open Ascii

structure RangePart where
  offset : Nat
  chunkSize : Nat
  total : Nat
  total_le : total ≤ u64Max
  /-- The builders normalise a zero chunk size. -/
  chunkSize_pos : 0 < chunkSize

namespace RangePart

def stop (part : RangePart) : Nat := min (part.offset + part.chunkSize) part.total

def len (part : RangePart) : Nat := part.stop - part.offset

def requestedEnd (part : RangePart) : Nat :=
  min (Word.saturatingAdd 64 part.offset (part.chunkSize - 1)) (part.total - 1)

variable {part : RangePart}

theorem requestedEnd_eq (inside : part.offset < part.total) :
    part.requestedEnd = part.stop - 1 := by
  have bound : part.total - 1 ≤ Word.maxVal 64 :=
    Nat.le_trans (Nat.sub_le _ _) part.total_le
  have := part.chunkSize_pos
  rw [requestedEnd, Word.min_saturatingAdd bound, stop]
  omega

theorem len_pos (inside : part.offset < part.total) : 0 < part.len := by
  have := part.chunkSize_pos
  unfold len stop
  omega

theorem offset_add_len (inside : part.offset < part.total) :
    part.offset + part.len = part.stop := by
  unfold len stop
  omega

theorem stop_le (part : RangePart) : part.stop ≤ part.total := Nat.min_le_right _ _

end RangePart

def rangeUnit : Text := "bytes=".toList

def byteRange (first last : Nat) : Text :=
  rangeUnit ++ decimal first ++ '-' :: decimal last

def rangeSpec (part : RangePart) : Text :=
  if part.total = 0 then rangeUnit ++ decimal part.offset ++ ['-']
  else
    byteRange part.offset
      (min (Word.saturatingAdd 64 part.offset (part.chunkSize - 1)) (part.total - 1))

variable {part : RangePart} {c : Char} {n len : Nat} {headers : HeaderMap} {mode : String}

theorem rangeSpec_eq (inside : part.offset < part.total) :
    rangeSpec part = byteRange part.offset (part.stop - 1) := by
  rw [rangeSpec, if_neg (by omega), ← RangePart.requestedEnd_eq inside, RangePart.requestedEnd]

/-! ## Content-Range -/

def invalidContentRange (what : String) (value : Text) : MeowError :=
  .fromCode .invalidRange s!"invalid content-range{what}: {String.ofList value}"

/-- The number in a piece of the header, or the error that names the piece. -/
def contentRangeNumber (what : String) (value piece : Text) : Except MeowError Nat :=
  match parseU64 (trimText piece) with
  | some n => .ok n
  | none => .error (invalidContentRange what value)

def contentRangeTotal (value piece : Text) : Except MeowError (Option Nat) :=
  if trimText piece = ['*'] then .ok none
  else some <$> contentRangeNumber " total" value piece

def parseContentRange (value : Text) : Except MeowError (Nat × Nat × Option Nat) := do
  let s := trimText value
  let parts := (splitOnce ' ' s).getD (s, [])
  let unit := trimText parts.1
  let rangeAndTotal := trimText parts.2
  if unit ≠ "bytes".toList ∨ rangeAndTotal = [] then .error (invalidContentRange "" value)
  else
    match splitOnce '/' rangeAndTotal with
    | none => .error (invalidContentRange "" value)
    | some (rangePart, totalPart) =>
      match splitOnce '-' (trimText rangePart) with
      | none => .error (invalidContentRange " range" value)
      | some (startS, endS) => do
        let start ← contentRangeNumber " start" value startS
        let stop ← contentRangeNumber " end" value endS
        if stop < start then .error (invalidContentRange " order" value)
        else do
          let total ← contentRangeTotal value totalPart
          .ok (start, stop, total)

def contentRange (first last : Nat) (total : Option Nat) : Text :=
  "bytes".toList ++ ' ' :: (decimal first ++ '-' :: (decimal last ++ '/' ::
    (total.map decimal).getD ['*']))

def Blank (text : Text) : Prop := ∀ c ∈ text, isWhitespace c = true

/-- What satisfies `P`, with white space around it. -/
def Padded (P : Text → Prop) (text : Text) : Prop :=
  ∃ front core back, text = front ++ core ++ back ∧ Blank front ∧ Blank back ∧ P core

/-- A numeral that `parse::<u64>` takes: digits, behind a plus sign or not. -/
def SignedNumeral (n : Nat) (text : Text) : Prop :=
  n ≤ u64Max ∧ ∃ digits, Numeral n digits ∧ (text = digits ∨ text = '+' :: digits)

def TotalNumeral (total : Option Nat) (text : Text) : Prop :=
  match total with
  | none => text = ['*']
  | some n => SignedNumeral n text

/-- A text that says `bytes start-stop/total`, with white space around its parts. -/
def SpellsRange (value : Text) (start stop : Nat) (total : Option Nat) : Prop :=
  ∃ lead gap first last size, value = lead ++ "bytes".toList ++ gap ++
      ' ' :: (first ++ '-' :: (last ++ '/' :: size)) ∧
    Blank lead ∧ Blank gap ∧ Padded (SignedNumeral start) first ∧
    Padded (SignedNumeral stop) last ∧ Padded (TotalNumeral total) size ∧ start ≤ stop

theorem isWhitespace_of_isDigit (digit : c.isDigit = true) : isWhitespace c = false := by
  have := isDigit_iff.mp digit
  simp only [isWhitespace, Bool.or_eq_false_iff, Bool.and_eq_false_iff, decide_eq_false_iff_not]
  omega

variable {text value : Text} {start stop : Nat} {total : Option Nat}

theorem SignedNumeral.mem (numeral : SignedNumeral n text) (member : c ∈ text) :
    c.isDigit = true ∨ c = '+' := by
  obtain ⟨_, digits, ⟨_, all, _⟩, rfl | rfl⟩ := numeral
  · exact .inl (all c member)
  · exact (List.mem_cons.mp member).symm.imp_left (all c)

theorem SignedNumeral.solid (numeral : SignedNumeral n text) : Solid isWhitespace text := by
  have visible : ∀ c ∈ text, isWhitespace c = false := fun c member =>
    (numeral.mem member).elim isWhitespace_of_isDigit fun plus => plus ▸ by decide
  have nonempty : text ≠ [] := by
    obtain ⟨_, digits, ⟨some, _⟩, rfl | rfl⟩ := numeral
    · exact some
    · exact List.cons_ne_nil _ _
  exact ⟨⟨_, List.head?_eq_some_head nonempty, visible _ (List.head_mem nonempty)⟩, _,
    List.getLast?_eq_some_getLast nonempty, visible _ (List.getLast_mem nonempty)⟩

theorem TotalNumeral.solid (numeral : TotalNumeral total text) : Solid isWhitespace text := by
  cases total with
  | none =>
    obtain rfl : text = ['*'] := numeral
    exact ⟨⟨'*', rfl, by decide⟩, '*', rfl, by decide⟩
  | some n => exact SignedNumeral.solid numeral

theorem exists_trimText (text : Text) :
    ∃ front back, text = front ++ trimText text ++ back ∧ Blank front ∧ Blank back :=
  exists_trim isWhitespace text

theorem padded_iff {P : Text → Prop} (solid : ∀ {core}, P core → Solid isWhitespace core) :
    Padded P text ↔ P (trimText text) := by
  constructor
  · rintro ⟨front, core, back, rfl, leading, trailing, holds⟩
    rw [trimText, trim_append (solid holds) leading trailing]
    exact holds
  · intro holds
    obtain ⟨front, back, same, leading, trailing⟩ := exists_trimText text
    exact ⟨front, _, back, same, leading, trailing, holds⟩

theorem Padded.pad {P : Text → Prop} {front back : Text} (padded : Padded P text)
    (leading : Blank front) (trailing : Blank back) : Padded P (front ++ text ++ back) := by
  obtain ⟨l, core, r, rfl, left, right, holds⟩ := padded
  refine ⟨front ++ l, core, r ++ back, by simp only [List.append_assoc], ?_, ?_, holds⟩
  · exact List.forall_mem_append.mpr ⟨leading, left⟩
  · exact List.forall_mem_append.mpr ⟨right, trailing⟩

theorem contentRangeNumber_eq_ok (what : String) :
    contentRangeNumber what value text = .ok n ↔ Padded (SignedNumeral n) text := by
  have read : parseU64 (trimText text) = some n ↔ SignedNumeral n (trimText text) :=
    parseUnsigned_eq_some
  rw [padded_iff SignedNumeral.solid, ← read, contentRangeNumber]
  cases parseU64 (trimText text) <;> simp

theorem contentRangeTotal_eq_ok :
    contentRangeTotal value text = .ok total ↔ Padded (TotalNumeral total) text := by
  rw [padded_iff TotalNumeral.solid, contentRangeTotal]
  have star (n : Nat) : ¬ SignedNumeral n ['*'] := fun numeral =>
    absurd (numeral.mem List.mem_cons_self) (by decide)
  split
  · rename_i wildcard
    rw [wildcard]
    cases total with
    | none => simp [TotalNumeral]
    | some n => simp [TotalNumeral, star n]
  · rename_i other
    cases total with
    | none =>
      refine iff_of_false (fun ok => ?_) other
      cases read : contentRangeNumber " total" value text <;> rw [read] at ok <;> cases ok
    | some n =>
      change _ ↔ SignedNumeral n (trimText text)
      rw [← padded_iff SignedNumeral.solid, ← contentRangeNumber_eq_ok " total"]
      cases contentRangeNumber " total" value text <;> simp

theorem SignedNumeral.not_mem (numeral : SignedNumeral n text) (digit : c.isDigit = false)
    (sign : c ≠ '+') : c ∉ text := fun member =>
  (numeral.mem member).elim (fun isDigit => by simp [isDigit] at digit) sign

theorem Blank.not_mem (blank : Blank text) (visible : isWhitespace c = false) : c ∉ text :=
  fun member => by simp [blank c member] at visible

theorem blank_nil : Blank [] := nofun

theorem trimText_between {front first last back : Text} (leading : Blank front)
    (solid : Solid isWhitespace first) (solid' : Solid isWhitespace last) (trailing : Blank back)
    (middle : Text) :
    trimText (front ++ (first ++ middle ++ last) ++ back) = first ++ middle ++ last :=
  trim_append (solid.between solid' middle) leading trailing

theorem parseContentRange_of_spells (spells : SpellsRange value start stop total) :
    parseContentRange value = .ok (start, stop, total) := by
  obtain ⟨lead, gap, _, _, _, rfl, leading, between, ⟨f₁, first, f₂, rfl, left, right, isFirst⟩,
    ⟨l₁, last, l₂, rfl, left', right', isLast⟩, ⟨t₁, size, t₂, rfl, left'', right'', isTotal⟩,
    ordered⟩ := spells
  have bytes : Solid isWhitespace "bytes".toList :=
    ⟨⟨'b', rfl, by decide⟩, 's', rfl, by decide⟩
  -- the first of the blanks behind the unit ends it
  obtain ⟨u, v, cut, noSpace⟩ : ∃ u v, gap ++ ' ' :: f₁ = u ++ ' ' :: v ∧ ' ' ∉ u :=
    List.eq_append_cons_of_mem (by simp)
  have blanks : Blank (u ++ ' ' :: v) := by
    rw [← cut]
    exact List.forall_mem_append.mpr ⟨between, List.forall_mem_cons.mpr ⟨by decide, left⟩⟩
  have behind : Blank u ∧ Blank v :=
    (List.forall_mem_append.mp blanks).imp_right fun rest => (List.forall_mem_cons.mp rest).2
  have whole : trimText (lead ++ "bytes".toList ++ gap ++ ' ' :: (f₁ ++ first ++ f₂ ++ '-' ::
      (l₁ ++ last ++ l₂ ++ '/' :: (t₁ ++ size ++ t₂)))) = ("bytes".toList ++ u) ++ ' ' :: (v ++
        (first ++ f₂ ++ '-' :: (l₁ ++ last ++ l₂) ++ '/' :: (t₁ ++ size))) := by
    have := trimText_between leading bytes isTotal.solid right''
      ((u ++ ' ' :: v) ++ first ++ f₂ ++ '-' :: (l₁ ++ last ++ l₂) ++ '/' :: t₁)
    rw [← cut] at this
    simp only [List.append_assoc, List.cons_append] at this ⊢
    rw [this, ← List.cons_append, ← List.append_assoc gap, cut]
    simp only [List.append_assoc, List.cons_append]
  have unit : trimText ("bytes".toList ++ u) = "bytes".toList :=
    trim_append bytes blank_nil behind.1
  have line : trimText (v ++ (first ++ f₂ ++ '-' :: (l₁ ++ last ++ l₂) ++ '/' :: (t₁ ++ size))) =
      first ++ f₂ ++ '-' :: (l₁ ++ last ++ l₂) ++ '/' :: (t₁ ++ size) := by
    have := trimText_between behind.2 isFirst.solid isTotal.solid blank_nil
      (f₂ ++ '-' :: (l₁ ++ last ++ l₂) ++ '/' :: t₁)
    simpa only [List.append_assoc, List.cons_append, List.append_nil] using this
  have range : trimText (first ++ f₂ ++ '-' :: (l₁ ++ last ++ l₂)) =
      first ++ f₂ ++ '-' :: (l₁ ++ last) := by
    have := trimText_between blank_nil isFirst.solid isLast.solid right' (f₂ ++ '-' :: l₁)
    simpa only [List.append_assoc, List.cons_append, List.nil_append] using this
  have noSlash : '/' ∉ first ++ f₂ ++ '-' :: (l₁ ++ last ++ l₂) := by
    simp only [List.mem_append, List.mem_cons, not_or]
    exact ⟨⟨isFirst.not_mem (by decide) (by decide), right.not_mem (by decide)⟩, by decide,
      ⟨left'.not_mem (by decide), isLast.not_mem (by decide) (by decide)⟩,
      right'.not_mem (by decide)⟩
  have noDash : '-' ∉ first ++ f₂ := by
    rw [List.mem_append, not_or]
    exact ⟨isFirst.not_mem (by decide) (by decide), right.not_mem (by decide)⟩
  have noBlank : ' ' ∉ "bytes".toList ++ u := by
    rw [List.mem_append, not_or]
    exact ⟨by decide, noSpace⟩
  have startRead (value : Text) : contentRangeNumber " start" value (first ++ f₂) = .ok start :=
    (contentRangeNumber_eq_ok _).mpr ⟨[], first, f₂, rfl, blank_nil, right, isFirst⟩
  have stopRead (value : Text) : contentRangeNumber " end" value (l₁ ++ last) = .ok stop :=
    (contentRangeNumber_eq_ok _).mpr
      ⟨l₁, last, [], (List.append_nil _).symm, left', blank_nil, isLast⟩
  have totalRead (value : Text) : contentRangeTotal value (t₁ ++ size) = .ok total :=
    contentRangeTotal_eq_ok.mpr
      ⟨t₁, size, [], (List.append_nil _).symm, left'', blank_nil, isTotal⟩
  have some : first ++ f₂ ++ '-' :: (l₁ ++ last ++ l₂) ++ '/' :: (t₁ ++ size) ≠ [] := by simp
  simp only [parseContentRange, whole, splitOnce_append noBlank, Option.getD_some, unit, line, ne_eq,
    not_true_eq_false, some, or_self, if_false, splitOnce_append noSlash, range,
    splitOnce_append noDash, startRead, stopRead, totalRead]
  exact if_neg (Nat.not_lt.mpr ordered)

theorem spells_of_parseContentRange (parsed : parseContentRange value = .ok (start, stop, total)) :
    SpellsRange value start stop total := by
  obtain ⟨lead, trail, whole, leading, trailing⟩ := exists_trimText value
  simp only [parseContentRange] at parsed
  cases cut : splitOnce ' ' (trimText value) with
  | none =>
    rw [cut] at parsed
    exact absurd (.inr rfl) (Result.guard_eq_ok.mp parsed).1
  | some parts =>
    obtain ⟨unit, rest⟩ := parts
    rw [cut, Option.getD_some] at parsed
    obtain ⟨accepted, parsed⟩ := Result.guard_eq_ok.mp parsed
    have isUnit : trimText unit = "bytes".toList := not_not.mp (not_or.mp accepted).1
    obtain ⟨u₁, u₂, split, before, after⟩ := exists_trimText unit
    obtain ⟨r₁, r₂, split', before', after'⟩ := exists_trimText rest
    split at parsed
    · cases parsed
    case h_2 rangePart totalPart slash =>
      obtain ⟨p₁, p₂, split'', before'', after''⟩ := exists_trimText rangePart
      split at parsed
      · cases parsed
      case h_2 startS endS dash =>
        simp only [Result.bind_eq_ok, Result.guard_eq_ok] at parsed
        obtain ⟨_, isFirst, _, isLast, ordered, _, isTotal, same⟩ := parsed
        cases same
        refine ⟨lead ++ u₁, u₂, (r₁ ++ p₁) ++ startS ++ [], [] ++ endS ++ p₂,
          [] ++ totalPart ++ (r₂ ++ trail), ?_, ?_, after, ?_, ?_, ?_, Nat.not_lt.mp ordered⟩
        · rw [whole, append_of_splitOnce cut, split, isUnit, split', append_of_splitOnce slash,
            split'', append_of_splitOnce dash]
          simp only [List.append_assoc, List.cons_append, List.nil_append]
        · exact List.forall_mem_append.mpr ⟨leading, before⟩
        · exact ((contentRangeNumber_eq_ok _).mp isFirst).pad
            (List.forall_mem_append.mpr ⟨before', before''⟩) blank_nil
        · exact ((contentRangeNumber_eq_ok _).mp isLast).pad blank_nil after''
        · exact (contentRangeTotal_eq_ok.mp isTotal).pad blank_nil
            (List.forall_mem_append.mpr ⟨after', trailing⟩)

theorem spellsRange_contentRange (ordered : start ≤ stop) (fits : stop ≤ u64Max)
    (totalFits : ∀ n ∈ total, n ≤ u64Max) :
    SpellsRange (contentRange start stop total) start stop total := by
  have numeral {n : Nat} (fits : n ≤ u64Max) : SignedNumeral n (decimal n) :=
    ⟨fits, decimal n, numeral_decimal n, .inl rfl⟩
  have plain {P : Text → Prop} {text : Text} (holds : P text) : Padded P text :=
    ⟨[], text, [], (List.append_nil _).symm, blank_nil, blank_nil, holds⟩
  refine ⟨[], [], decimal start, decimal stop, (total.map decimal).getD ['*'], rfl, blank_nil,
    blank_nil, plain (numeral (Nat.le_trans ordered fits)), plain (numeral fits), plain ?_, ordered⟩
  cases total with
  | none => rfl
  | some n => exact numeral (totalFits n rfl)

/-- The usual spelling of a range is read, and the texts that are read are those that spell
the range with white space around its parts, and with a plus sign before a number or not. -/
theorem content_range_grammar :
    (∀ start stop total, start ≤ stop → stop ≤ u64Max → (∀ n ∈ total, n ≤ u64Max) →
      parseContentRange (contentRange start stop total) = .ok (start, stop, total)) ∧
    ∀ value start stop total, parseContentRange value = .ok (start, stop, total) ↔
      SpellsRange value start stop total :=
  ⟨fun _ _ _ ordered fits totalFits =>
      parseContentRange_of_spells (spellsRange_contentRange ordered fits totalFits),
    fun _ _ _ _ => ⟨spells_of_parseContentRange, parseContentRange_of_spells⟩⟩

theorem content_range_signed :
    ∃ value, parseContentRange value = .ok (0, 9, some 10) ∧ '+' ∈ value :=
  ⟨"bytes +0-+9/+10".toList, by decide, by decide⟩

def requireContentRange (headers : HeaderMap) (mode : String) : Except MeowError Text := do
  match ← requireSingleHeader headers "content-range" mode with
  | some value => .ok value
  | none => .error (.fromCode .invalidRange s!"{mode} response missing content-range")

theorem requireContentRange_eq_ok {value : Text} :
    requireContentRange headers mode = .ok value ↔
      Sole headers "content-range" (some value) := by
  simp only [requireContentRange, Result.bind_eq_ok, requireSingleHeader_eq_ok]
  constructor
  · rintro ⟨found, single, ok⟩
    cases found with
    | none => cases ok
    | some text =>
      cases ok
      exact single
  · exact fun single => ⟨some value, single, rfl⟩

def validateKnownContentRangeTotal (rangeTotal : Option Nat) (expectedTotal : Nat)
    (mode : String) : Except MeowError Unit :=
  match rangeTotal with
  | some actual =>
    if actual = expectedTotal then .ok ()
    else .error (.fromCode .invalidRange
      s!"{mode} content-range total mismatch: expected {expectedTotal}, got {actual}")
  | none => .error (.fromCode .invalidRange
      s!"{mode} content-range used wildcard total after total {expectedTotal} was known")

theorem validateKnownContentRangeTotal_eq_ok {rangeTotal : Option Nat} {expectedTotal : Nat} :
    validateKnownContentRangeTotal rangeTotal expectedTotal mode = .ok () ↔
      rangeTotal = some expectedTotal := by
  cases rangeTotal with
  | none => simp [validateKnownContentRangeTotal]
  | some actual =>
    simp only [validateKnownContentRangeTotal, Option.some.injEq]
    split <;> simp_all

def validateOptionalContentLength (headers : HeaderMap) (expectedLen : Nat) (mode : String) :
    Except MeowError Unit := do
  match ← requireSingleHeader headers "content-length" mode with
  | none => .ok ()
  | some value =>
    match parseU64 value with
    | none => .error (.fromCode .invalidRange
        s!"{mode} response contains an invalid content-length")
    | some actual =>
      if actual ≠ expectedLen then .error (.fromCode .invalidRange
        s!"{mode} content-length mismatch: expected {expectedLen}, got {actual}")
      else .ok ()

/-- No length, or a single one with this value. -/
def OptionalLength (headers : HeaderMap) (len : Nat) : Prop :=
  ∃ found, Sole headers "content-length" found ∧ ∀ text ∈ found, parseU64 text = some len

theorem validateOptionalContentLength_eq_ok {expectedLen : Nat} :
    validateOptionalContentLength headers expectedLen mode = .ok () ↔
      OptionalLength headers expectedLen := by
  simp only [validateOptionalContentLength, Result.bind_eq_ok, requireSingleHeader_eq_ok,
    OptionalLength]
  refine exists_congr fun found => and_congr_right fun _ => ?_
  cases found with
  | none => simp
  | some value =>
    simp only [Option.mem_some_iff, forall_eq']
    cases parseU64 value with
    | none => simp
    | some actual => simp

def validateRangeSafetyHeaders (headers : HeaderMap) (mode : String) : Except MeowError Unit := do
  ensureResponseIdentityEncoding headers mode
  let _ ← requireUnambiguousEtag headers mode
  .ok ()

theorem validateRangeSafetyHeaders_eq_ok :
    validateRangeSafetyHeaders headers mode = .ok () ↔
      IdentityEncoding headers ∧ UnambiguousEtag headers := by
  have tags := @requireUnambiguousEtag_eq_ok mode headers
  simp only [validateRangeSafetyHeaders, Result.bind_eq_ok, and_true] at tags ⊢
  rw [← tags]
  constructor
  · rintro ⟨⟨⟩, identity, tag⟩
    exact ⟨ensureResponseIdentityEncoding_eq_ok.mp identity, tag⟩
  · rintro ⟨identity, tag⟩
    exact ⟨⟨⟩, ensureResponseIdentityEncoding_eq_ok.mpr identity, tag⟩

/-! ## The head of a response -/

/-- A response to a range request.  `statusText` and `preview` are what an error
shows of the status and of the redacted first bytes of the body; the body arrives
in chunks and ends, or fails, after the last one. -/
structure Response where
  status : Nat
  statusText : String
  preview : String
  headers : HeaderMap
  chunks : List (List UInt8)
  failure : Option MeowError

def contentRangeLen (start stop : Nat) : Except MeowError Nat :=
  match (Word.checkedSub stop start).bind fun len => Word.checkedAdd 64 len 1 with
  | some len => .ok len
  | none => .error (.fromCode .invalidRange "content-range length overflow")

/-- What the two functions check after the status, for the length that the body has
to have; `what` begins the messages about the ends of the range. -/
def rangeHead (mode what : String) (part : RangePart) (headers : HeaderMap) :
    Except MeowError Nat := do
  validateRangeSafetyHeaders headers mode
  let contentRange ← requireContentRange headers mode
  let (rangeStart, rangeEnd, rangeTotal) ← parseContentRange contentRange
  if rangeStart ≠ part.offset then
    .error (.fromCode .invalidRange
      s!"{what} start mismatch: expected {part.offset}, got {rangeStart}")
  else if rangeEnd ≠ part.requestedEnd then
    .error (.fromCode .invalidRange
      s!"{what} end mismatch: expected {part.requestedEnd}, got {rangeEnd}")
  else do
    validateKnownContentRangeTotal rangeTotal part.total mode
    let expectedLen ← contentRangeLen rangeStart rangeEnd
    validateOptionalContentLength headers expectedLen mode
    .ok expectedLen

/-- The head checks of `download_one_chunk`. -/
def serialHead (part : RangePart) (response : Response) : Except MeowError Nat :=
  if response.status ≠ 206 then
    .error (.fromCode .invalidRange
      s!"download GET requires 206 Partial Content, got {response.statusText}: {response.preview}")
  else rangeHead "serial range" "download content-range" part response.headers

/-- The head checks of `download_one_chunk_part_positioned`, with a message of its own for a
server that ignores ranges. -/
def positionedHead (part : RangePart) (response : Response) : Except MeowError Nat :=
  if response.status = 200 then
    .error (.fromCode .invalidRange
      ("server returned 200 OK to a Range request (Range not honored); " ++
        "concurrent download requires 206 Partial Content"))
  else if response.status ≠ 206 then
    .error (.fromCode .invalidRange
      s!"range GET requires 206, got {response.statusText}: {response.preview}")
  else rangeHead "parallel range" "content-range" part response.headers

/-- What the head of an acceptable response says, the validator apart. -/
structure AdmitsHead (part : RangePart) (response : Response) : Prop where
  status : response.status = 206
  identity : IdentityEncoding response.headers
  etag : UnambiguousEtag response.headers
  range : ∃ text, Sole response.headers "content-range" (some text) ∧
    parseContentRange text = .ok (part.offset, part.stop - 1, some part.total)
  length : OptionalLength response.headers part.len

theorem contentRangeLen_part (inside : part.offset < part.total) :
    contentRangeLen part.offset (part.stop - 1) = .ok part.len := by
  have ends := RangePart.offset_add_len inside
  have positive := RangePart.len_pos inside
  have below : part.stop ≤ Word.maxVal 64 := Nat.le_trans part.stop_le part.total_le
  have sub : Word.checkedSub (part.stop - 1) part.offset = some (part.len - 1) := by
    rw [Word.checkedSub, if_pos (by omega)]
    exact congrArg some (by omega)
  have add : Word.checkedAdd 64 (part.len - 1) 1 = some part.len := by
    rw [Word.checkedAdd, if_pos (by omega)]
    exact congrArg some (by omega)
  simp only [contentRangeLen, sub, Option.bind_some, add]

variable {response : Response}

theorem rangeHead_eq_ok {what : String} (inside : part.offset < part.total)
    (partial_ : response.status = 206) :
    rangeHead mode what part response.headers = .ok len ↔
      AdmitsHead part response ∧ len = part.len := by
  simp only [rangeHead, Result.bind_eq_ok, Result.guard_eq_ok, requireContentRange_eq_ok,
    not_not, Except.ok.injEq]
  constructor
  · rintro ⟨⟨⟩, safe, text, single, ⟨start, stop, total⟩, parsed, rfl, rfl, ⟨⟩, known,
      expected, measured, ⟨⟩, length, rfl⟩
    obtain rfl : total = some part.total := validateKnownContentRangeTotal_eq_ok.mp known
    obtain ⟨identity, etag⟩ := validateRangeSafetyHeaders_eq_ok.mp safe
    simp only at measured
    rw [RangePart.requestedEnd_eq inside, contentRangeLen_part inside] at measured
    cases measured
    rw [RangePart.requestedEnd_eq inside] at parsed
    exact ⟨⟨partial_, identity, etag, ⟨text, single, parsed⟩,
      validateOptionalContentLength_eq_ok.mp length⟩, rfl⟩
  · rintro ⟨⟨_, identity, etag, ⟨text, single, parsed⟩, length⟩, rfl⟩
    have last := RangePart.requestedEnd_eq inside
    exact ⟨⟨⟩, validateRangeSafetyHeaders_eq_ok.mpr ⟨identity, etag⟩, text, single, _, parsed,
      rfl, last.symm, ⟨⟩, validateKnownContentRangeTotal_eq_ok.mpr rfl, part.len, contentRangeLen_part inside, ⟨⟩,
      validateOptionalContentLength_eq_ok.mpr length, rfl⟩

theorem serialHead_eq_ok (inside : part.offset < part.total) :
    serialHead part response = .ok len ↔ AdmitsHead part response ∧ len = part.len := by
  rw [serialHead, Result.guard_eq_ok, not_not]
  constructor
  · rintro ⟨status, ok⟩
    exact (rangeHead_eq_ok inside status).mp ok
  · rintro ⟨admits, same⟩
    exact ⟨admits.status, (rangeHead_eq_ok inside admits.status).mpr ⟨admits, same⟩⟩

theorem positionedHead_eq_ok (inside : part.offset < part.total) :
    positionedHead part response = .ok len ↔ AdmitsHead part response ∧ len = part.len := by
  rw [positionedHead, Result.guard_eq_ok, Result.guard_eq_ok, not_not]
  constructor
  · rintro ⟨_, status, ok⟩
    exact (rangeHead_eq_ok inside status).mp ok
  · rintro ⟨admits, same⟩
    refine ⟨?_, admits.status, (rangeHead_eq_ok inside admits.status).mpr ⟨admits, same⟩⟩
    rw [admits.status]
    decide

end RustyCat.Download
