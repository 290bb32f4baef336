import RustyCat.Lib.Ascii
import RustyCat.Lib.Scan

/-!
# Redaction of logged texts and URLs

The secret filters of `log.rs`.  A text is the list of its characters.  The source cuts
its texts by byte offsets, but only next to ASCII characters, so that a position between
two characters says the same.  Each of its three passes copies text up to a match and
goes on behind it: a `Scan`.
-/

namespace RustyCat.Log

open Ascii Scan

abbrev Text := List Char

def isAsciiWhitespace (c : Char) : Bool :=
  c = ' ' || c = '\t' || c = '\n' || c = '\x0C' || c = '\r'

def lowercase (text : Text) : Text := text.map Char.toLower

def eqIgnoreAsciiCase (actual expected : Text) : Bool := lowercase actual = lowercase expected

/-- `str::find`: where the pattern stands first. -/
def find (pattern : Text) : Text → Option Nat
  | [] => if pattern = [] then some 0 else none
  | c :: rest =>
    if pattern.isPrefixOf (c :: rest) then some 0 else (find pattern rest).map (· + 1)

/-- `str::rfind`: where the pattern stands last. -/
def rfind (pattern : Text) : Text → Option Nat
  | [] => if pattern = [] then some 0 else none
  | c :: rest =>
    match rfind pattern rest with
    | some at_ => some (at_ + 1)
    | none => if pattern.isPrefixOf (c :: rest) then some 0 else none

def redacted : Text := "REDACTED".toList

/-! ## Sensitive names -/

def exactNames : List Text :=
  ["sig".toList, "signature".toList, "authorization".toList, "x-oss-signature".toList,
    "ossaccesskeyid".toList, "awsaccesskeyid".toList, "googleaccessid".toList,
    "x-oss-credential".toList, "x-oss-security-token".toList, "security-token".toList,
    "x-amz-signature".toList, "x-amz-credential".toList, "x-amz-security-token".toList]

def compactNames : List Text :=
  ["accesstoken".toList, "refreshtoken".toList, "sessiontoken".toList, "securitytoken".toList,
    "clientsecret".toList, "accesskey".toList, "accesskeyid".toList, "secretaccesskey".toList,
    "apikey".toList]

def compactSuffixes : List Text :=
  ["sig".toList, "signature".toList, "credential".toList, "token".toList, "secret".toList,
    "password".toList, "accesskey".toList, "apikey".toList]

def secretComponents : List Text :=
  ["sig".toList, "signature".toList, "credential".toList, "token".toList, "secret".toList,
    "password".toList, "accesskey".toList]

def isSensitiveParam (key : Text) : Bool :=
  let k := lowercase (trim isWhitespace key)
  exactNames.contains k || compactNames.contains k ||
    (compactSuffixes.any fun suffix => suffix.length < k.length && suffix.isSuffixOf k) ||
    (k.splitOnP fun c => !c.isAlphanum).any secretComponents.contains

def hex (byte : UInt8) : Option UInt8 :=
  if 48 ≤ byte ∧ byte ≤ 57 then some (byte - 48)
  else if 97 ≤ byte ∧ byte ≤ 102 then some (byte - 97 + 10)
  else if 65 ≤ byte ∧ byte ≤ 70 then some (byte - 65 + 10)
  else none

def decodeQueryBytes : List UInt8 → Option (List UInt8)
  | [] => some []
  | 37 :: high :: low :: rest =>
    match hex high, hex low with
    | some h, some l => (decodeQueryBytes rest).map ((h * 16 + l) :: ·)
    | _, _ => none
  | 37 :: _ => none
  | 43 :: rest => (decodeQueryBytes rest).map (32 :: ·)
  | byte :: rest => (decodeQueryBytes rest).map (byte :: ·)

def decodeQueryKey (raw : Text) : Option Text := do
  let decoded ← decodeQueryBytes (raw.flatMap String.utf8EncodeChar)
  (String.fromUTF8? ⟨decoded.toArray⟩).map String.toList

def isSensitiveRawQueryKey (raw : Text) : Bool :=
  isSensitiveParam raw ||
    match decodeQueryKey raw with
    | none => false
    | some decodedOnce =>
      isSensitiveParam decodedOnce || (decodeQueryKey decodedOnce).any isSensitiveParam

/-! ## The classes of characters -/

def isTokenChar (c : Char) : Bool := c.isAlphanum || c = '_' || c = '-'

def isAssignmentKeyChar (c : Char) : Bool := isTokenChar c || c = '%'

def isUnquotedValueDelim (c : Char) : Bool :=
  isWhitespace c || ['&', '"', '\'', ',', ';', ')', '}', ']', '<', '>', '|'].contains c

def isAuthorizationValueDelim (c : Char) : Bool :=
  ['\r', '\n', ';', ')', '}', ']', '<', '>', '|'].contains c

def isQuote (c : Char) : Bool := c = '"' || c = '\''

def isSeparator (c : Char) : Bool := c = ':' || c = '='

/-! ## Percent-encoded assignments -/

/-- The length of the first pattern that stands at the front, in any letter case. -/
def percentPatternLen (patterns : List Text) (rest : Text) : Option Nat :=
  (patterns.find? fun pattern => eqIgnoreAsciiCase (rest.take pattern.length) pattern).map
    List.length

def encodedSeparators : List Text :=
  ["%253D".toList, "%253A".toList, "%3D".toList, "%3A".toList]

def percentAssignmentSeparatorLen : Text → Option Nat := percentPatternLen encodedSeparators

def percentValueDelimiterLen : Text → Option Nat :=
  percentPatternLen ["%2526".toList, "%253B".toList, "%252C".toList, "%26".toList, "%3B".toList,
    "%2C".toList]

def isEncodedKeyChar (c : Char) : Bool := c.isAlphanum || c = '_' || c = '-' || c = '.' || c = '%'

/-- The end of the last encoded delimiter in a candidate for a key. -/
def encodedBoundary (candidate : Text) : Nat :=
  ["%2526".toList, "%253b".toList, "%252f".toList, "%253f".toList, "%2523".toList, "%26".toList,
    "%3b".toList].foldl
    (fun boundary delimiter =>
      match rfind delimiter (lowercase candidate) with
      | some relative => max boundary (relative + delimiter.length)
      | none => boundary)
    0

def isPercentValueDelim (c : Char) : Bool :=
  isAsciiWhitespace c || ['&', '"', '\'', ',', ';', ')', '}', ']', '<', '>', '|'].contains c

def percentValue : Text → Text
  | [] => []
  | c :: rest =>
    if isPercentValueDelim c || (percentValueDelimiterLen (c :: rest)).isSome then []
    else c :: percentValue rest

def percentRule : Rule Char := fun before rest =>
  match percentAssignmentSeparatorLen rest with
  | none => none
  | some separatorLen =>
    let candidate := (before.takeWhile isEncodedKeyChar).reverse
    let rawKey := candidate.drop (encodedBoundary candidate)
    if isSensitiveRawQueryKey rawKey then
      some (separatorLen + (percentValue (rest.drop separatorLen)).length,
        rest.take separatorLen ++ redacted)
    else some (separatorLen, rest.take separatorLen)

def redactPercentEncodedAssignments (text : Text) : Text := run percentRule [] text

/-! ## XML elements with a secret name -/

def isTagNameChar (c : Char) : Bool :=
  c.isAlphanum || c = '_' || c = '-' || c = '.' || c = ':'

def xmlRule : Rule Char := fun _ rest =>
  match rest with
  | '<' :: inner =>
    match inner.head? with
    | none => some (1, ['<'])
    | some first =>
      if first = '/' ∨ first = '!' ∨ first = '?' then some (1, ['<'])
      else
        let tagName := inner.takeWhile isTagNameChar
        let localName := (tagName.reverse.takeWhile (· ≠ ':')).reverse
        if isSensitiveParam localName then
          let afterName := inner.drop tagName.length
          let attributes := afterName.takeWhile (· ≠ '>')
          match afterName.drop attributes.length with
          -- the tag does not end, and the scan breaks off
          | [] => some (rest.length, rest)
          | close :: content =>
            let opening := '<' :: (tagName ++ attributes ++ [close])
            if (tagName ++ attributes).getLast? = some '/' then some (opening.length, opening)
            else
              let closing := "</".toList ++ lowercase tagName ++ ">".toList
              match find closing (lowercase content) with
              | none => some (rest.length, opening ++ redacted)
              | some at_ =>
                some (opening.length + at_ + closing.length,
                  opening ++ redacted ++ (content.drop at_).take closing.length)
        else some (1 + tagName.length, '<' :: tagName)
  | _ => none

def redactXmlSecretElements (text : Text) : Text := run xmlRule [] text

/-! ## Authorization headers, bearer tokens and assignments -/

/-- How many characters a quoted value has up to its closing quote, and whether it is
closed. -/
def skipQuotedValue (quote : Char) : Bool → Text → Nat × Bool
  | _, [] => (0, false)
  | escaped, current :: rest =>
    if current = quote ∧ ¬escaped then (0, true)
    else
      let (skipped, closed) :=
        skipQuotedValue quote (if current = '\\' then !escaped else false) rest
      (skipped + 1, closed)

/-- A quote behind a key is passed over if it is also in front of the key. -/
def passQuote (before afterKey : Text) : Text :=
  match afterKey with
  | quote :: rest => if isQuote quote ∧ before.head? = some quote then rest else afterKey
  | [] => []

def valueAfterSeparator (text : Text) : Option Text :=
  match text.dropWhile isWhitespace with
  | separator :: value =>
    if isSeparator separator then some (value.dropWhile isWhitespace) else none
  | [] => none

def valueAfterKey (before afterKey : Text) : Option Text :=
  valueAfterSeparator (passQuote before afterKey)

def bearerWord : Text := "bearer".toList

def bearerValueStart (before rest : Text) : Option Text :=
  if before.head?.any isTokenChar || !eqIgnoreAsciiCase (rest.take 6) bearerWord then none
  else
    let value :=
      if (rest.drop 6).head?.any isWhitespace then some ((rest.drop 6).dropWhile isWhitespace)
      else if eqIgnoreAsciiCase ((rest.drop 6).take 3) "%20".toList then some (rest.drop 9)
      else none
    value.filter (· ≠ [])

def authorizationWord : Text := "authorization".toList

def authorizationValueStart (before rest : Text) : Option Text :=
  if before.head?.any isAssignmentKeyChar || !eqIgnoreAsciiCase (rest.take 13) authorizationWord
  then none
  else (valueAfterKey before (rest.drop 13)).filter (· ≠ [])

def assignmentValueStart (before rest : Text) : Option Text :=
  let key := rest.takeWhile isAssignmentKeyChar
  if isSensitiveRawQueryKey key then valueAfterKey before (rest.drop key.length) else none

/-- Writes the text up to the value and the marker, and goes on behind the value, which
is in quotes or ends at a delimiter. -/
def redactValue (isDelim : Char → Bool) (rest value : Text) : Hit Char :=
  let start := rest.length - value.length
  match value with
  | [] => (start, rest.take start ++ redacted)
  | quote :: quoted =>
    if isQuote quote then
      match skipQuotedValue quote false quoted with
      | (skipped, true) => (start + 1 + skipped + 1, rest.take (start + 1) ++ redacted ++ [quote])
      | (skipped, false) => (start + 1 + skipped, rest.take (start + 1) ++ redacted)
    else (start + (value.takeWhile (!isDelim ·)).length, rest.take start ++ redacted)

/-- Writes the text up to a bearer token and the marker; a token has no quotes. -/
def redactToken (rest value : Text) : Hit Char :=
  let start := rest.length - value.length
  (start + (value.takeWhile (!isUnquotedValueDelim ·)).length, rest.take start ++ redacted)

/-- One round of the loop of `redact_secrets`. -/
def secretRule : Rule Char := fun before rest =>
  match authorizationValueStart before rest with
  | some value => some (redactValue isAuthorizationValueDelim rest value)
  | none =>
    match bearerValueStart before rest with
    | some value => some (redactToken rest value)
    | none =>
      if rest.head?.any isAssignmentKeyChar && !before.head?.any isAssignmentKeyChar then
        match assignmentValueStart before rest with
        | some value => some (redactValue isUnquotedValueDelim rest value)
        | none =>
          let key := rest.takeWhile isAssignmentKeyChar
          some (key.length, key)
      else none

def redactSecrets (text : Text) : Text :=
  run secretRule [] (redactXmlSecretElements (redactPercentEncodedAssignments text))

/-! ## URLs -/

def authorityMark : Text := "://".toList

def authorityStart (base : Text) : Option Nat :=
  match find authorityMark base with
  | some at_ => some (at_ + 3)
  | none => if "//".toList.isPrefixOf base then some 2 else none

def redactUrlUserinfo (base : Text) : Text :=
  match authorityStart base with
  | none => base
  | some start =>
    match rfind ['@'] ((base.drop start).takeWhile (· ≠ '/')) with
    | none => base
    | some userinfoEnd => base.take start ++ redacted ++ base.drop (start + userinfoEnd)

def sanitizePair (pair : Text) : Text :=
  match splitOnce '=' pair with
  | some (key, _) => if isSensitiveRawQueryKey key then key ++ '=' :: redacted else pair
  | none => if isSensitiveRawQueryKey pair then pair ++ '=' :: redacted else pair

def sanitizeQuery (query : Text) : Text :=
  ['&'].intercalate ((query.splitOn '&').map sanitizePair)

/-- What `sanitize_url` makes of a URL without a fragment. -/
def sanitizeBase (url : Text) : Text :=
  match splitOnce '?' url with
  | none => redactSecrets (redactUrlUserinfo url)
  | some (base, query) => redactSecrets (redactUrlUserinfo base) ++ '?' :: sanitizeQuery query

def sanitizeUrl (url : Text) : Text :=
  match splitOnce '#' url with
  | none => sanitizeBase url
  | some (withoutFragment, fragment) =>
    sanitizeBase withoutFragment ++ '#' :: redactSecrets fragment

end RustyCat.Log
