import LightWaf.Core.Request
import LightWaf.Theory.Scan

/-!
# Canonical forms of field values

The embedding of `waf-normalizer/src/url.rs`: the recursive percent and
overlong decode, the derived inspection variants, and the parsers of path,
query and cookies.
-/

namespace LightWaf.Normalizer

open LightWaf.Rust
open LightWaf.Core
open LightWaf.Theory.Scan

/-- Why a request cannot be normalized. -/
inductive NormalizationError
  | bodyTooLarge (limit actual : Nat)
  | tooManyHeaders (limit : Nat)
  | headerTooLarge (limit actual : Nat)
  | tooManyParams (limit : Nat)
  | tooManyCookies (limit : Nat)
  | jsonDepthExceeded (limit : Nat)
  | jsonParseError (message : Text)
  | multipartError (message : Text)
deriving DecidableEq

/-! ## Percent and overlong decoding -/

/-- `is_hex`. -/
def isHex (byte : UInt8) : Bool :=
  ('0'.toUInt8 ≤ byte && byte ≤ '9'.toUInt8) ||
    ('a'.toUInt8 ≤ byte && byte ≤ 'f'.toUInt8) ||
    ('A'.toUInt8 ≤ byte && byte ≤ 'F'.toUInt8)

/-- `hex_val`. -/
def hexVal (byte : UInt8) : UInt8 :=
  if '0'.toUInt8 ≤ byte && byte ≤ '9'.toUInt8 then byte - '0'.toUInt8
  else if 'a'.toUInt8 ≤ byte && byte ≤ 'f'.toUInt8 then
    byte - 'a'.toUInt8 + 10
  else if 'A'.toUInt8 ≤ byte && byte ≤ 'F'.toUInt8 then
    byte - 'A'.toUInt8 + 10
  else 0

/-- One position of the percent decoder. -/
def percentStep (plusAsSpace : Bool) (byte : UInt8) (rest : Bytes) :
    Bytes × Nat :=
  if byte == '+'.toUInt8 && plusAsSpace then ([' '.toUInt8], 0)
  else
    match rest with
    | high :: low :: _ =>
        if byte == '%'.toUInt8 && isHex high && isHex low then
          ([(hexVal high <<< 4) ||| hexVal low], 2)
        else ([byte], 0)
    | _ => ([byte], 0)

/-- `percent_decode_bytes`: a single pass. -/
def percentDecodeBytes (plusAsSpace : Bool) (bytes : Bytes) : Bytes :=
  rewrite (percentStep plusAsSpace) 0 bytes

/-- `still_percent_encoded`. -/
def stillPercentEncoded : Bytes → Bool
  | byte :: high :: low :: rest =>
      (byte == '%'.toUInt8 && isHex high && isHex low) ||
        stillPercentEncoded (high :: low :: rest)
  | _ => false

/-- `percent_decode`: the text, and whether it is still encoded. -/
def percentDecode (input : Text) (plusAsSpace : Bool) : Text × Bool :=
  let decoded := fromUtf8Lossy (percentDecodeBytes plusAsSpace (asBytes input))
  (decoded, stillPercentEncoded (asBytes decoded))

/-- One position of the overlong collapse. -/
def overlongStep (byte : UInt8) (rest : Bytes) : Bytes × Nat :=
  match rest with
  | second :: _ =>
      if (byte == 0xC0 || byte == 0xC1) && isContinuation second then
        ([((byte &&& 0x1F) <<< 6) ||| (second &&& 0x3F)], 1)
      else ([byte], 0)
  | [] => ([byte], 0)

/-- `collapse_overlong`. -/
def collapseOverlong (bytes : Bytes) : Bytes :=
  rewrite overlongStep 0 bytes

/-- The decode budget shared by the stages. -/
def pipelineCap : Nat := 5

/-- What the fixpoint leaves: the bytes, the passes applied, the budget. -/
structure Decoded where
  bytes : Bytes
  passes : Nat
  budget : Nat

/-- The loop of `percent_overlong_fixpoint` after some passes. -/
def fixpointFrom (plusAsSpace : Bool) : (budget passes : Nat) → Bytes → Decoded
  | 0, passes, bytes => ⟨bytes, passes, 0⟩
  | budget + 1, passes, bytes =>
      let next := collapseOverlong
        (percentDecodeBytes (plusAsSpace && passes == 0) bytes)
      if next = bytes then ⟨bytes, passes, budget + 1⟩
      else fixpointFrom plusAsSpace budget (passes + 1) next

/-- `percent_overlong_fixpoint`. -/
def percentOverlongFixpoint (raw : Bytes) (plusAsSpace : Bool)
    (budget : Nat) : Decoded :=
  fixpointFrom plusAsSpace budget 0 raw

section Unicode

variable (unicode : UnicodeTables)

/-- `canonicalize_value`: the canonical text, and double encoding. -/
def canonicalizeValue (raw : Text) (plusAsSpace : Bool) : Text × Bool :=
  let decoded :=
    percentOverlongFixpoint (asBytes raw) plusAsSpace pipelineCap
  (unicode.nfkc (fromUtf8Lossy decoded.bytes), decide (2 ≤ decoded.passes))

/-- `canonicalize_multipart_field`. -/
def canonicalizeMultipartField (raw : Text) : Text :=
  (canonicalizeValue unicode raw false).1

/-! ## Base64 variants -/

/-- The minimum length of a base64 candidate. -/
def base64MinLen : Nat := 12

/-- `is_base64_candidate`. -/
def isBase64Candidate (text : Text) (lenMin : Nat) : Bool :=
  if byteLen text < lenMin then false
  else
    let core := trimEndMatches '=' text
    !core.isEmpty && byteLen core % 4 != 1 &&
      core.all fun char =>
        (isAscii char && char.isAlphanum) || char == '+' || char == '/'

/-- The value of a base64 digit. -/
def base64Val (byte : UInt8) : Option Nat :=
  if 'A'.toUInt8 ≤ byte && byte ≤ 'Z'.toUInt8 then
    some (byte.toNat - 'A'.toNat)
  else if 'a'.toUInt8 ≤ byte && byte ≤ 'z'.toUInt8 then
    some (byte.toNat - 'a'.toNat + 26)
  else if '0'.toUInt8 ≤ byte && byte ≤ '9'.toUInt8 then
    some (byte.toNat - '0'.toNat + 52)
  else if byte == '+'.toUInt8 then some 62
  else if byte == '/'.toUInt8 then some 63
  else none

/-- The decoder's loop: a 32-bit buffer with `bits` pending bits. -/
def base64DecodeFrom : (buffer bits : Nat) → Bytes → Option Bytes
  | _, _, [] => some []
  | buffer, bits, byte :: rest => do
      let value ← base64Val byte
      let buffer := (buffer * 64 + value) % 2 ^ 32
      if 8 ≤ bits + 6 then
        let bits := bits + 6 - 8
        let decoded ← base64DecodeFrom buffer bits rest
        some (UInt8.ofNat (buffer / 2 ^ bits) :: decoded)
      else base64DecodeFrom buffer (bits + 6) rest

/-- `base64_decode`. -/
def base64Decode (text : Text) : Option Bytes :=
  base64DecodeFrom 0 0 (asBytes (trimEndMatches '=' text))

/-- `mostly_printable`: at least ninety percent printable ASCII. -/
def mostlyPrintable (bytes : Bytes) : Bool :=
  if bytes.isEmpty then false
  else
    let printable := bytes.filter fun byte =>
      byte == 13 || byte == 10 || byte == 9 || (0x20 ≤ byte && byte ≤ 0x7e)
    decide (90 ≤ printable.length * 100 / bytes.length)

/--
`expand_base64`: the variants pushed, innermost first.

Every level spends at least one unit of the budget, so fuel equal to the
budget is enough.
-/
def expandBase64 : (fuel budget : Nat) → Text → List Text
  | 0, _, _ => []
  | _ + 1, 0, _ => []
  | fuel + 1, budget + 1, value =>
      if !isBase64Candidate value base64MinLen then []
      else
        match base64Decode value with
        | none => []
        | some decoded =>
            if !mostlyPrintable decoded then []
            else
              let canonical := percentOverlongFixpoint decoded false budget
              let canon := unicode.nfkc (fromUtf8Lossy canonical.bytes)
              expandBase64 fuel canonical.budget canon ++ [canon]

/-- `base64_derived`: a fresh budget. -/
def base64Derived (value : Text) : List Text :=
  expandBase64 unicode pipelineCap pipelineCap value

/-! ## Structural evasion transforms -/

/-- The named entities that are decoded. -/
def entityNamed : List (Text × Char) :=
  [("lpar".toList, '('), ("rpar".toList, ')'), ("equals".toList, '='),
    ("colon".toList, ':'), ("sol".toList, '/'), ("bsol".toList, '\x5c'),
    ("period".toList, '.'), ("comma".toList, ','), ("excl".toList, '!'),
    ("semi".toList, ';'), ("quest".toList, '?'), ("commat".toList, '@'),
    ("dollar".toList, '$'), ("percnt".toList, '%'), ("plus".toList, '+'),
    ("ast".toList, '*'), ("midast".toList, '*'), ("lbrace".toList, '\x7b'),
    ("rbrace".toList, '\x7d'), ("lcub".toList, '\x7b'),
    ("rcub".toList, '\x7d'), ("lsqb".toList, '['), ("rsqb".toList, ']'),
    ("grave".toList, '\x60'), ("lowbar".toList, '_'),
    ("verbar".toList, '|'), ("vert".toList, '|'), ("num".toList, '#'),
    ("Tab".toList, '\t'), ("NewLine".toList, '\n')]

/-- `char::from_u32`. -/
def charFromU32 (scalar : Nat) : Option Char :=
  if scalar < 0xD800 ∨ (0xDFFF < scalar ∧ scalar < 0x110000) then
    some (Char.ofNat scalar)
  else none

/-- The character an entity stands for, unless it is structural. -/
def entityChar (entity : Text) : Option Char :=
  let char :=
    match entity with
    | '#' :: 'x' :: hex => (fromStrRadix 16 (2 ^ 32) hex).bind charFromU32
    | '#' :: 'X' :: hex => (fromStrRadix 16 (2 ^ 32) hex).bind charFromU32
    | '#' :: digits => (fromStrRadix 10 (2 ^ 32) digits).bind charFromU32
    | _ => entityNamed.lookup entity
  char.filter fun char =>
    !(char == '<' || char == '>' || char == '&' || char == '\x22' ||
      char == '\x27')

/-- A transform in progress: its output in reverse, and whether it changed. -/
structure Stripped where
  out : Text := []
  changed : Bool := false

/-- Keep a character. -/
def Stripped.push (state : Stripped) (char : Char) : Stripped :=
  { state with out := char :: state.out }

/-- The result, when something changed. -/
def Stripped.finish (state : Stripped) : Option Text :=
  if state.changed then some state.out.reverse else none

/-- One position of the entity decoder. -/
def entityStep (state : Stripped) (char : Char) (rest : Text) :
    Stripped × Nat :=
  if char == '&' then
    let decoded := do
      let (entity, _) ← findSplit [';'] rest
      if byteLen entity ≤ 31 then
        let char ← entityChar entity
        some (char, entity.length)
      else none
    match decoded with
    | some (char, length) =>
        ({ state.push char with changed := true }, length + 1)
    | none => (state.push '&', 0)
  else (state.push char, 0)

/-- `html_entity_decode_evasion`. -/
def htmlEntityDecodeEvasion (text : Text) : Option Text :=
  (scan entityStep 0 {} text).finish

/-- A word character. -/
def isWordChar (char : Char) : Bool :=
  unicode.isAlphanumeric char || char == '_'

/-- Whether the output so far ends in a word character. -/
def endsInWord (state : Stripped) : Bool :=
  state.out.head?.any (isWordChar unicode)

/-- Whether the next byte, taken as a character, is a word character. -/
def startsWithWordByte (rest : Text) : Bool :=
  (asBytes rest).head?.any fun byte =>
    isWordChar unicode (Char.ofNat byte.toNat)

/-- One position of the tag stripper; the tag spans at most 24 bytes. -/
def tagStep (state : Stripped) (char : Char) (rest : Text) :
    Stripped × Nat :=
  if char == '<' then
    match findSplit ['>'] rest with
    | some (inside, after) =>
        if endsInWord unicode state && startsWithWordByte unicode after &&
            decide (byteLen inside + 1 ≤ 24) then
          ({ state with changed := true }, inside.length + 1)
        else (state.push char, 0)
    | none => (state.push char, 0)
  else (state.push char, 0)

/-- `strip_midtoken_tags`. -/
def stripMidtokenTags (text : Text) : Option Text :=
  (scan (tagStep unicode) 0 {} text).finish

/-- A control byte other than tab, line feed and carriage return. -/
def isCtrl (char : Char) : Bool :=
  decide (char.toNat < 0x20) && char != '\t' && char != '\n' && char != '\r'

/-- One position of the control stripper. -/
def controlStep (state : Stripped) (char : Char) (rest : Text) :
    Stripped × Nat :=
  if isCtrl char then
    let run := rest.takeWhile isCtrl
    if endsInWord unicode state &&
        startsWithWordByte unicode (rest.dropWhile isCtrl) then
      ({ state with changed := true }, run.length)
    else (state.push char, 0)
  else (state.push char, 0)

/-- `strip_midtoken_controls`. -/
def stripMidtokenControls (text : Text) : Option Text :=
  (scan (controlStep unicode) 0 {} text).finish

/-- A blank inside a string joint. -/
def isBlank (char : Char) : Bool :=
  char == ' ' || char == '\t'

/-- One position of the string-concat stripper. -/
def concatStep (state : Stripped) (char : Char) (rest : Text) :
    Stripped × Nat :=
  if char == '\x22' then
    match rest.dropWhile isBlank with
    | '&' :: after =>
        match after.dropWhile isBlank with
        | '\x22' :: _ =>
            ({ state with changed := true },
              (rest.takeWhile isBlank).length + 1 +
                (after.takeWhile isBlank).length + 1)
        | _ => (state.push char, 0)
    | _ => (state.push char, 0)
  else (state.push char, 0)

/-- `strip_vbscript_concat`. -/
def stripVbscriptConcat (text : Text) : Option Text :=
  (scan concatStep 0 {} text).finish

/-- The four structural transforms of one value, where they change it. -/
def structuralTransforms (value : Text) : List Text :=
  (htmlEntityDecodeEvasion value).toList ++
    (stripMidtokenTags unicode value).toList ++
    (stripMidtokenControls unicode value).toList ++
    (stripVbscriptConcat value).toList

/-- `derive_variants`: all derived inspection variants of one value. -/
def deriveVariants (value : Text) : List Text :=
  let decoded := base64Derived unicode value
  let entity := htmlEntityDecodeEvasion value
  decoded ++ decoded.flatMap (structuralTransforms unicode) ++
    (entity.map (base64Derived unicode)).getD [] ++ entity.toList ++
    (stripMidtokenTags unicode value).toList ++
    (stripMidtokenControls unicode value).toList ++
    (stripVbscriptConcat value).toList

/-- `json_leaf_derived`. -/
def jsonLeafDerived (raw : Text) : List Text :=
  let decoded := percentOverlongFixpoint (asBytes raw) false pipelineCap
  let canonical := unicode.nfkc (fromUtf8Lossy decoded.bytes)
  expandBase64 unicode decoded.budget decoded.budget canonical ++
    (htmlEntityDecodeEvasion canonical).toList ++
    (if canonical = raw then [] else [canonical])

/-! ## Path, query and cookies -/

/-- The segments of a path, with dot segments resolved. -/
def resolveSegments (segments : List Text) : List Text :=
  segments.foldl (fun resolved segment =>
    if segment = [] ∨ segment = ['.'] then resolved
    else if segment = ['.', '.'] then resolved.dropLast
    else resolved ++ [segment]) []

/-- `resolve_path`. -/
def resolvePath (path : Text) : Text :=
  let out := (resolveSegments (path.splitOn '/')).flatMap ('/' :: ·)
  if out = [] then ['/'] else out

/-- `normalize_path`: the path, double encoding, and a stripped NUL. -/
def normalizePath (raw : Text) : Text × Bool × Bool :=
  let decoded := percentOverlongFixpoint (asBytes raw) false pipelineCap
  let nfkc := unicode.nfkc (fromUtf8Lossy decoded.bytes)
  let noNulls := nfkc.filter (· != '\x00')
  let lower := unicode.toLowercase noNulls
  (resolvePath lower, decide (2 ≤ decoded.passes), nfkc.contains '\x00')

/-- A pair split at its first `=`. -/
def splitPair (pair : Text) : Text × Text :=
  (findSplit ['='] pair).getD (pair, [])

/-- Decoded parameters, double encoding, derived variants. -/
structure ParsedQuery where
  params : List (Text × Text) := []
  doubleEncoding : Bool := false
  derived : List Text := []

/-- One pair of a query string. -/
def queryStep (limits : LimitsConfig) (parsed : ParsedQuery) (pair : Text) :
    Except NormalizationError ParsedQuery :=
  if pair = [] then .ok parsed
  else if limits.maxParams ≤ parsed.params.length then
    .error (.tooManyParams limits.maxParams)
  else
    let (key, value) := splitPair pair
    let (decodedKey, doubleKey) := canonicalizeValue unicode key true
    let (decodedValue, doubleValue) := canonicalizeValue unicode value true
    .ok ⟨parsed.params ++ [(decodedKey, decodedValue)],
      parsed.doubleEncoding || doubleKey || doubleValue,
      parsed.derived ++ deriveVariants unicode decodedValue⟩

/-- `parse_query`. -/
def parseQuery (query : Text) (limits : LimitsConfig) :
    Except NormalizationError ParsedQuery :=
  (query.splitOn '&').foldlM (queryStep unicode limits) {}

end Unicode

/-- One pair of a cookie header. -/
def cookieStep (maxCookies : Nat) (cookies : List (Text × Text))
    (pair : Text) : Except NormalizationError (List (Text × Text)) :=
  let pair := trim pair
  if pair = [] then .ok cookies
  else if maxCookies ≤ cookies.length then
    .error (.tooManyCookies maxCookies)
  else
    match findSplit ['='] pair with
    | some (key, value) => .ok (cookies ++ [(trim key, trim value)])
    | none => .ok (cookies ++ [(pair, [])])

/-- `parse_cookies_limited`. -/
def parseCookiesLimited (cookieHeader : Text) (maxCookies : Nat) :
    Except NormalizationError (List (Text × Text)) :=
  (cookieHeader.splitOn ';').foldlM (cookieStep maxCookies) []

end LightWaf.Normalizer
