import LightWaf.Crs.Ast
import LightWaf.Normalizer.Url

/-!
# Targets, transforms and operators

The embedding of `target.rs`, `transform.rs` and `operator.rs` of the imported
rule sets.  The values of a rule are collected from the raw request, passed
through the rule's transforms, and tested by its operator.

A transform can panic: the escape decoder slices four bytes after `%u` and the
slice may end inside a character.  A panic is `none`.
-/

namespace LightWaf.Crs

open LightWaf.Rust
open LightWaf.Core
open LightWaf.Normalizer

/-! ## Transforms -/

/-- `str::split_at`; `none` is the panic off a character boundary. -/
def splitAtByte : Nat → Text → Option (Text × Text)
  | 0, text => some ([], text)
  | _ + 1, [] => none
  | count + 1, char :: rest =>
      if char.utf8Size ≤ count + 1 then
        (splitAtByte (count + 1 - char.utf8Size) rest).map
          fun (taken, left) => (char :: taken, left)
      else none

/--
An escape `%uHHHH` after a percent sign: the character and the further
characters it spans.  The outer `none` is the panic of the slice.
-/
def uEscape (rest : Text) : Option (Option (Char × Nat)) :=
  match rest with
  | marker :: tail =>
      if (marker = 'u' ∨ marker = 'U') ∧ 4 ≤ byteLen tail then do
        let (hex, _) ← splitAtByte 4 tail
        some (((fromStrRadix 16 (2 ^ 32) hex).bind charFromU32).map
          fun char => (char, hex.length + 1))
      else some none
  | [] => some none

/-- `decode_u_escapes` from a position, passing over `skip` characters. -/
def decodeUEscapes : (skip : Nat) → Text → Option Text
  | _, [] => some []
  | skip + 1, _ :: rest => decodeUEscapes skip rest
  | 0, char :: rest => do
      let escape ← if char = '%' then uEscape rest else some none
      match escape with
      | some (decoded, span) =>
          (decodeUEscapes span rest).map (decoded :: ·)
      | none => (decodeUEscapes 0 rest).map (char :: ·)

/-- `named_entity`. -/
def namedEntity : List (Text × Char) :=
  [("lt".toList, '<'), ("gt".toList, '>'), ("amp".toList, '&'),
    ("quot".toList, '\x22'), ("apos".toList, '\x27'),
    ("nbsp".toList, '\u00A0'), ("tab".toList, '\t'),
    ("newline".toList, '\n'), ("sol".toList, '/'), ("bsol".toList, '\x5c'),
    ("colon".toList, ':'), ("semi".toList, ';'), ("lpar".toList, '('),
    ("rpar".toList, ')'), ("equals".toList, '=')]

/-- The semicolon that may end an entity. -/
def entityEnd (rest : Text) : Nat :=
  if rest.head? = some ';' then 1 else 0

/-- A numeric entity after `&#`. -/
def numericEntity (radix : Nat) (digits : Text) : Option (Char × Nat) :=
  let run := (digits.take 8).takeWhile fun char => (toDigit radix char).isSome
  if run = [] then none
  else do
    let value ← fromStrRadix radix (2 ^ 32) run
    let char ← charFromU32 value
    some (char, run.length + entityEnd (digits.drop run.length))

/-- `decode_entity` after the ampersand: the character and its span. -/
def decodeEntity (rest : Text) : Option (Char × Nat) :=
  if byteLen rest < 2 then none
  else
    match rest with
    | '#' :: 'x' :: digits =>
        (numericEntity 16 digits).map fun (char, span) => (char, span + 2)
    | '#' :: 'X' :: digits =>
        (numericEntity 16 digits).map fun (char, span) => (char, span + 2)
    | '#' :: digits =>
        (numericEntity 10 digits).map fun (char, span) => (char, span + 1)
    | _ => do
        let name := (rest.take 10).takeWhile Char.isAlpha
        let char ← namedEntity.lookup name
        some (char, name.length + entityEnd (rest.drop name.length))

/-- `html_entity_decode` from a position, passing over `skip` characters. -/
def htmlEntityDecode : (skip : Nat) → Text → Text
  | _, [] => []
  | skip + 1, _ :: rest => htmlEntityDecode skip rest
  | 0, char :: rest =>
      match if char = '&' then decodeEntity rest else none with
      | some (decoded, span) => decoded :: htmlEntityDecode span rest
      | none => char :: htmlEntityDecode 0 rest

/-- `compress_whitespace`: one blank for each run of white space. -/
def compressWhitespace : (inside : Bool) → Text → Text
  | _, [] => []
  | inside, char :: rest =>
      if isWhitespace char then
        if inside then compressWhitespace true rest
        else ' ' :: compressWhitespace true rest
      else char :: compressWhitespace false rest

/-- `normalize_path` of a transform: it keeps the case and the last slash. -/
def normalizePathKeepingCase (text : Text) : Text :=
  let joined := ['/'].intercalate (resolveSegments (text.splitOn '/'))
  (if text.head? = some '/' then ['/'] else []) ++ joined ++
    (if text.getLast? = some '/' ∧ joined ≠ [] then ['/'] else [])

/-- `apply_one`. -/
def applyOne (text : Text) : Transform → Option Text
  | .none => some text
  | .unsupported _ => some text
  | .lowercase => some (toAsciiLowercase text)
  | .urlDecode => some (percentDecode text true).1
  | .urlDecodeUni =>
      (decodeUEscapes 0 text).map fun decoded => (percentDecode decoded true).1
  | .htmlEntityDecode => some (htmlEntityDecode 0 text)
  | .compressWhitespace => some (compressWhitespace false text)
  | .removeWhitespace => some (text.filter (!isWhitespace ·))
  | .removeNulls => some (text.filter (· != '\x00'))
  | .normalizePath => some (normalizePathKeepingCase text)
  | .base64Decode =>
      some ((base64Decode (trim text)).elim text fromUtf8Lossy)

/-- `apply`: the transforms in order. -/
def applyTransforms (text : Text) (pipeline : List Transform) : Option Text :=
  pipeline.foldlM applyOne text

/-! ## Targets -/

/-- `split_args`. -/
def splitArgs (text : Text) : List (Text × Text) :=
  ((text.splitOn '&').filter (· ≠ [])).map fun pair =>
    ((percentDecode (splitPair pair).1 true).1,
      (percentDecode (splitPair pair).2 true).1)

section Targets

variable (ctx : RequestContext)

/-- `query_args`. -/
def queryArgs : List (Text × Text) :=
  ctx.query.elim [] splitArgs

/-- `header`. -/
def headerNamed (name : Text) : Option Text :=
  (ctx.headers.find? fun header => eqIgnoreAsciiCase header.1 name).map
    Prod.snd

/-- `is_form_urlencoded`. -/
def isFormUrlencoded : Bool :=
  (headerNamed ctx "content-type".toList).any fun declared =>
    (findSplit "application/x-www-form-urlencoded".toList
      (toAsciiLowercase declared)).isSome

/-- `post_args`. -/
def postArgs : List (Text × Text) :=
  if isFormUrlencoded ctx then (fromUtf8 ctx.body).elim [] splitArgs else []

/-- `raw_uri`. -/
def rawUri : Text :=
  ctx.query.elim ctx.path fun query => ctx.path ++ '?' :: query

/-- `entries`: the names and values of one collection. -/
def entries : TargetKind → List (Text × Text)
  | .args => queryArgs ctx ++ postArgs ctx
  | .argsGet => queryArgs ctx
  | .argsPost => postArgs ctx
  | .argsNames => (queryArgs ctx ++ postArgs ctx).map fun arg => (arg.1, arg.1)
  | .requestHeaders => ctx.headers
  | .requestHeadersNames => ctx.headers.map fun header => (header.1, header.1)
  | .requestCookies =>
      ctx.cookies.map fun cookie =>
        (cookie.1, (percentDecode cookie.2 false).1)
  | .requestCookiesNames =>
      ctx.cookies.map fun cookie => (cookie.1, cookie.1)
  | .requestUri => [("REQUEST_URI".toList, rawUri ctx)]
  | .requestUriRaw => [("REQUEST_URI".toList, rawUri ctx)]
  | .requestFilename =>
      [("REQUEST_FILENAME".toList, (percentDecode ctx.path false).1)]
  | .queryString => [("QUERY_STRING".toList, ctx.query.getD [])]
  | .requestMethod => [("REQUEST_METHOD".toList, ctx.method)]
  | .requestProtocol => [("REQUEST_PROTOCOL".toList, ctx.httpVersion)]
  | .requestLine =>
      [("REQUEST_LINE".toList,
        ctx.method ++ ' ' :: rawUri ctx ++ ' ' :: ctx.httpVersion)]
  | .requestBody => [("REQUEST_BODY".toList, fromUtf8Lossy ctx.body)]
  | .unsupported _ => []

/-- `collect_values`: the selected members that are not excluded. -/
def collectValues (targets : List Variable) : List Text :=
  let exclusions := (targets.filter Variable.negated).filterMap fun target =>
    target.selector.map fun name => (target.kind, toAsciiLowercase name)
  (targets.filter fun target => !target.negated).flatMap fun target =>
    ((entries ctx target.kind).filter fun entry =>
      target.selector.all (eqIgnoreAsciiCase entry.1) &&
        !exclusions.any fun exclusion =>
          exclusion.1 == target.kind &&
            eqIgnoreAsciiCase entry.1 exclusion.2).map Prod.snd

/-- `values_for`: the transformed values. -/
def valuesFor (targets : List Variable) (transforms : List Transform) :
    Option (List Text) :=
  (collectValues ctx targets).mapM (applyTransforms · transforms)

end Targets

end LightWaf.Crs
