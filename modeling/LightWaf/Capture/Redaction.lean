import LightWaf.ControlPlane.Captures
import LightWaf.Normalizer.Base64
import LightWaf.Normalizer.Body

/-!
# What a capture shows of a request

`waf-capture/src/capture.rs` copies a denied request for the drill-down and
replaces the values of listed headers, cookies and body fields.  Two requests
that differ only in values which the node redacts give the same capture: the
names that are kept, their order and the list of redacted names do not depend
on the values.
-/

namespace LightWaf.Capture

open LightWaf.Rust
open LightWaf.Core
open LightWaf.Normalizer
open LightWaf.ControlPlane.Captures (CapturedRequest)

/-! ## The lists of names -/

/-- `RedactionConfig`. -/
structure RedactionConfig where
  headers : List Text := []
  bodyFields : List Text := []

/-- `RedactionConfig::header_redacted`. -/
def RedactionConfig.headerRedacted (redaction : RedactionConfig)
    (name : Text) : Bool :=
  redaction.headers.any fun header => eqIgnoreAsciiCase header name

/-- `RedactionConfig::field_redacted`. -/
def RedactionConfig.fieldRedacted (redaction : RedactionConfig)
    (name : Text) : Bool :=
  redaction.bodyFields.any fun field => eqIgnoreAsciiCase field name

/-- The placeholder a redacted value is replaced with. -/
def redactedText : Text :=
  "***REDACTED***".toList

/-- `push_unique`. -/
def pushUnique (redacted : List Text) (name : Text) : List Text :=
  if redacted.any fun other => eqIgnoreAsciiCase other name then redacted
  else redacted ++ [name]

/-! ## Headers and cookies -/

/-- The loop over named values; the names that are hidden are collected. -/
def redactPairs (hidden : Text → Bool) :
    List (Text × Text) → List Text → List (Text × Text) × List Text
  | [], redacted => ([], redacted)
  | (name, value) :: rest, redacted =>
      if hidden name then
        let (others, redacted) :=
          redactPairs hidden rest (pushUnique redacted name)
        ((name, redactedText) :: others, redacted)
      else
        let (others, redacted) := redactPairs hidden rest redacted
        ((name, value) :: others, redacted)

/-- `content_type`: the value of the first such header. -/
def contentType (headers : List HeaderLine) : Option Text :=
  (headers.find? fun line =>
    eqIgnoreAsciiCase line.1 "content-type".toList).map fun line =>
      toAsciiLowercase line.2

/-! ## Bodies -/

/-- `serde_json::from_slice` and `serde_json::to_vec` for values. -/
structure JsonCodec where
  fromSlice : Bytes → Option Json
  toVec : Json → Option Bytes

section Fields

variable (redaction : RedactionConfig)

mutual

/-- `redact_json`. -/
def redactJson : Json → List Text → Json × List Text
  | .object fields, redacted =>
      let (fields, redacted) := redactFields fields redacted
      (.object fields, redacted)
  | .array items, redacted =>
      let (items, redacted) := redactItems items redacted
      (.array items, redacted)
  | value, redacted => (value, redacted)

/-- The members of an object. -/
def redactFields :
    List (Text × Json) → List Text → List (Text × Json) × List Text
  | [], redacted => ([], redacted)
  | (key, value) :: rest, redacted =>
      if redaction.fieldRedacted key then
        let (others, redacted) :=
          redactFields rest (pushUnique redacted key)
        ((key, .string redactedText) :: others, redacted)
      else
        let (value, redacted) := redactJson value redacted
        let (others, redacted) := redactFields rest redacted
        ((key, value) :: others, redacted)

/-- The elements of an array. -/
def redactItems : List Json → List Text → List Json × List Text
  | [], redacted => ([], redacted)
  | value :: rest, redacted =>
      let (value, redacted) := redactJson value redacted
      let (others, redacted) := redactItems rest redacted
      (value :: others, redacted)

end

/-- The loop of `redact_form` over the pieces between ampersands. -/
def redactPieces : List Text → List Text → List Text × List Text
  | [], redacted => ([], redacted)
  | piece :: rest, redacted =>
      match findSplit ['='] piece with
      | some (key, _) =>
          if redaction.fieldRedacted key then
            let (others, redacted) :=
              redactPieces rest (pushUnique redacted key)
            ((key ++ '=' :: redactedText) :: others, redacted)
          else
            let (others, redacted) := redactPieces rest redacted
            (piece :: others, redacted)
      | none =>
          let (others, redacted) := redactPieces rest redacted
          (piece :: others, redacted)

/-- `redact_form`. -/
def redactForm (body : Bytes) (redacted : List Text) : Bytes × List Text :=
  let (pieces, redacted) :=
    redactPieces redaction ((fromUtf8Lossy body).splitOn '&') redacted
  (asBytes (['&'].intercalate pieces), redacted)

/-- The content type announces JSON. -/
def announcesJson (contentType : Text) : Bool :=
  (findSplit "application/json".toList contentType).isSome ||
    (findSplit "+json".toList contentType).isSome

/-- The content type announces a form. -/
def announcesForm (contentType : Text) : Bool :=
  (findSplit "application/x-www-form-urlencoded".toList contentType).isSome

/-- `redact_body`. -/
def redactBody (codec : JsonCodec) (body : Bytes)
    (contentType : Option Text) (redacted : List Text) :
    Bytes × List Text :=
  let contentType := contentType.getD []
  if announcesJson contentType then
    match codec.fromSlice body with
    | some value =>
        let (value, redacted) := redactJson redaction value redacted
        match codec.toVec value with
        | some bytes => (bytes, redacted)
        -- The names are on the list by now, the body goes out as it came.
        | none => (body, redacted)
    | none => (body, redacted)
  else if announcesForm contentType then redactForm redaction body redacted
  else (body, redacted)

end Fields

/-- `CapturedRequest::from_ctx`. -/
def fromCtx (codec : JsonCodec) (ctx : RequestContext)
    (maxBodyBytes : Nat) (redaction : RedactionConfig) : CapturedRequest :=
  let (headers, redacted) :=
    redactPairs redaction.headerRedacted ctx.headers []
  let blanketCookies := redaction.headerRedacted "cookie".toList ||
    redaction.headerRedacted "set-cookie".toList
  let (cookies, redacted) :=
    redactPairs
      (fun name => blanketCookies || redaction.fieldRedacted name)
      ctx.cookies redacted
  let (body, redacted) :=
    if !redaction.bodyFields.isEmpty &&
        decide (ctx.body.length ≤ maxBodyBytes) then
      redactBody redaction codec ctx.body (contentType ctx.headers) redacted
    else (ctx.body, redacted)
  { requestId := ctx.requestId
    method := ctx.method
    path := ctx.path
    query := ctx.query
    httpVersion := ctx.httpVersion
    headers := headers
    cookies := cookies
    bodyB64 := base64Encode (body.take maxBodyBytes)
    bodySize := UInt64.ofNat ctx.body.length
    bodyTruncated := decide (maxBodyBytes < body.length)
    redacted := redacted }

/-! ## Requests that differ in redacted values -/

section Fields

variable (redaction : RedactionConfig)

mutual

/-- Two values that differ only in members whose key is listed. -/
inductive SameJson : Json → Json → Prop
  | refl (value : Json) : SameJson value value
  | object {fields others : List (Text × Json)}
      (members : SameFields fields others) :
      SameJson (.object fields) (.object others)
  | array {items others : List Json} (elements : SameItems items others) :
      SameJson (.array items) (.array others)

/-- Members under the same keys. -/
inductive SameFields : List (Text × Json) → List (Text × Json) → Prop
  | nil : SameFields [] []
  | hidden {rest others : List (Text × Json)} {key : Text}
      (listed : redaction.fieldRedacted key = true) (value other : Json)
      (later : SameFields rest others) :
      SameFields ((key, value) :: rest) ((key, other) :: others)
  | shown {rest others : List (Text × Json)} {value other : Json}
      (key : Text) (first : SameJson value other)
      (later : SameFields rest others) :
      SameFields ((key, value) :: rest) ((key, other) :: others)

/-- Elements in the same places. -/
inductive SameItems : List Json → List Json → Prop
  | nil : SameItems [] []
  | cons {rest others : List Json} {value other : Json}
      (first : SameJson value other) (later : SameItems rest others) :
      SameItems (value :: rest) (other :: others)

end

/-- Two pieces of a form that differ at most in the value of a listed key. -/
def SamePiece (piece other : Text) : Prop :=
  piece = other ∨ ∃ key value otherValue,
    findSplit ['='] piece = some (key, value) ∧
    findSplit ['='] other = some (key, otherValue) ∧
    redaction.fieldRedacted key = true

/-- Two bodies that differ only in fields whose name is listed. -/
inductive SameBody (codec : JsonCodec) (contentType : Text) :
    Bytes → Bytes → Prop
  | json {body other : Bytes} {value otherValue : Json}
      (announced : announcesJson contentType = true)
      (parsed : codec.fromSlice body = some value)
      (otherParsed : codec.fromSlice other = some otherValue)
      (members : SameJson redaction value otherValue) :
      SameBody codec contentType body other
  | form {body other : Bytes}
      (announced : announcesForm contentType = true)
      (unlike : announcesJson contentType = false)
      (pieces : List.Forall₂ (SamePiece redaction)
        ((fromUtf8Lossy body).splitOn '&')
        ((fromUtf8Lossy other).splitOn '&')) :
      SameBody codec contentType body other

end Fields

/-- Names in the same order, with values that differ where allowed. -/
def SamePairs (free : Text → Prop) :
    List (Text × Text) → List (Text × Text) → Prop :=
  List.Forall₂ fun pair other =>
    pair.1 = other.1 ∧ (pair.2 = other.2 ∨ free pair.1)

/--
Two requests that differ only in redacted values: cookies and the lines that
carry them, where the list of headers has `cookie`, and listed fields of a
body that fits the cap.
-/
structure SameOutside (codec : JsonCodec) (maxBodyBytes : Nat)
    (redaction : RedactionConfig) (ctx other : RequestContext) : Prop where
  requestId : ctx.requestId = other.requestId
  method : ctx.method = other.method
  path : ctx.path = other.path
  query : ctx.query = other.query
  httpVersion : ctx.httpVersion = other.httpVersion
  headers : SamePairs
    (fun name => eqIgnoreAsciiCase name "cookie".toList = true ∧
      redaction.headerRedacted "cookie".toList = true)
    ctx.headers other.headers
  cookies : SamePairs
    (fun _ => redaction.headerRedacted "cookie".toList = true)
    ctx.cookies other.cookies
  bodySize : ctx.body.length = other.body.length
  body : ctx.body = other.body ∨
    redaction.bodyFields ≠ [] ∧ ctx.body.length ≤ maxBodyBytes ∧
      SameBody redaction codec ((contentType ctx.headers).getD []) ctx.body
        other.body

/-! ## What redaction keeps -/

/-- The values of hidden names play no part. -/
theorem redactPairs_congr
    {hidden : Text → Bool} {free : Text → Prop}
    (covered : ∀ name, free name → hidden name = true)
    {pairs others : List (Text × Text)} (same : SamePairs free pairs others)
    (redacted : List Text) :
    redactPairs hidden pairs redacted =
      redactPairs hidden others redacted := by
  induction same generalizing redacted with
  | nil => rfl
  | @cons pair other rest others head tail induction =>
      obtain ⟨name, value⟩ := pair
      obtain ⟨otherName, otherValue⟩ := other
      obtain ⟨names, values⟩ := head
      dsimp only at names values
      subst names
      rw [redactPairs, redactPairs]
      split_ifs with listed
      · rw [induction]
      · rcases values with rfl | free
        · rw [induction]
        · exact absurd (covered name free) listed

/-- The content type is not read off a cookie line. -/
theorem contentType_congr
    {free : Text → Prop}
    (apart : ∀ name, free name →
      eqIgnoreAsciiCase name "cookie".toList = true)
    {headers others : List HeaderLine}
    (same : SamePairs free headers others) :
    contentType headers = contentType others := by
  rw [contentType, contentType]
  induction same with
  | nil => rfl
  | @cons line other rest others head tail induction =>
      obtain ⟨names, values⟩ := head
      rw [List.find?_cons, List.find?_cons, ← names]
      cases typed : eqIgnoreAsciiCase line.1 "content-type".toList with
      | false => exact induction
      | true =>
          rcases values with equal | free
          · exact congrArg (fun value => some (toAsciiLowercase value)) equal
          · have cookie := apart line.1 free
            rw [eqIgnoreAsciiCase, beq_iff_eq] at cookie typed
            rw [cookie] at typed
            cases typed

section Fields

variable {redaction : RedactionConfig}

mutual

theorem redactJson_congr {value other : Json} (redacted : List Text)
    (same : SameJson redaction value other) :
    redactJson redaction value redacted =
      redactJson redaction other redacted := by
  cases same with
  | refl => rfl
  | object members =>
      rw [redactJson, redactJson, redactFields_congr redacted members]
  | array elements =>
      rw [redactJson, redactJson, redactItems_congr redacted elements]

theorem redactFields_congr {fields others : List (Text × Json)}
    (redacted : List Text) (same : SameFields redaction fields others) :
    redactFields redaction fields redacted =
      redactFields redaction others redacted := by
  cases same with
  | nil => rfl
  | hidden listed value other later =>
      rw [redactFields, redactFields, if_pos listed, if_pos listed,
        redactFields_congr _ later]
  | @shown rest others value other key first later =>
      rw [redactFields, redactFields, redactJson_congr _ first,
        redactFields_congr _ later]
      obtain ⟨masked, names⟩ := redactJson redaction other redacted
      dsimp only
      rw [redactFields_congr _ later]

theorem redactItems_congr {items others : List Json}
    (redacted : List Text) (same : SameItems redaction items others) :
    redactItems redaction items redacted =
      redactItems redaction others redacted := by
  cases same with
  | nil => rfl
  | @cons rest others value other first later =>
      rw [redactItems, redactItems, redactJson_congr _ first]
      obtain ⟨masked, names⟩ := redactJson redaction other redacted
      dsimp only
      rw [redactItems_congr _ later]

end

/-- The values of listed keys play no part in a form. -/
theorem redactPieces_congr
    {pieces others : List Text}
    (same : List.Forall₂ (SamePiece redaction) pieces others)
    (redacted : List Text) :
    redactPieces redaction pieces redacted =
      redactPieces redaction others redacted := by
  induction same generalizing redacted with
  | nil => rfl
  | @cons piece other rest others head tail induction =>
      rcases head with rfl | ⟨key, value, otherValue, split, otherSplit, listed⟩
      · rw [redactPieces, redactPieces]
        simp only [induction]
      · rw [redactPieces, redactPieces, split, otherSplit]
        dsimp only
        rw [if_pos listed, if_pos listed, induction]

/-- The values of listed fields play no part in a body. -/
theorem redactBody_congr
    {codec : JsonCodec} (writes : ∀ value, (codec.toVec value).isSome = true)
    {contentType : Option Text} {body other : Bytes}
    (same : SameBody redaction codec (contentType.getD []) body other)
    (redacted : List Text) :
    redactBody redaction codec body contentType redacted =
      redactBody redaction codec other contentType redacted := by
  cases same with
  | json announced parsed otherParsed members =>
      rw [redactBody, redactBody]
      dsimp only
      rw [if_pos announced, if_pos announced, parsed, otherParsed]
      dsimp only
      rw [redactJson_congr redacted members]
      obtain ⟨masked, names⟩ := redactJson redaction _ redacted
      obtain ⟨bytes, written⟩ := Option.isSome_iff_exists.mp (writes masked)
      dsimp only
      rw [written]
  | form announced unlike pieces =>
      rw [redactBody, redactBody]
      dsimp only
      rw [unlike, if_neg Bool.false_ne_true, if_neg Bool.false_ne_true,
        if_pos announced, if_pos announced, redactForm, redactForm,
        redactPieces_congr pieces]

end Fields

/-- A line that carries cookies is redacted with `cookie` in the list. -/
theorem headerRedacted_of_cookie
    {redaction : RedactionConfig} {name : Text}
    (cookie : eqIgnoreAsciiCase name "cookie".toList = true)
    (listed : redaction.headerRedacted "cookie".toList = true) :
    redaction.headerRedacted name = true := by
  rw [RedactionConfig.headerRedacted, List.any_eq_true] at listed ⊢
  obtain ⟨header, member, same⟩ := listed
  refine ⟨header, member, ?_⟩
  rw [eqIgnoreAsciiCase, beq_iff_eq] at cookie same ⊢
  rw [same, cookie]

namespace SameOutside

variable {codec : JsonCodec} {maxBodyBytes : Nat}
variable {redaction : RedactionConfig} {ctx other : RequestContext}

theorem redactedHeaders
    (same : SameOutside codec maxBodyBytes redaction ctx other) :
    redactPairs redaction.headerRedacted ctx.headers [] =
      redactPairs redaction.headerRedacted other.headers [] :=
  redactPairs_congr
    (fun _ free => headerRedacted_of_cookie free.1 free.2) same.headers []

theorem redactedCookies
    (same : SameOutside codec maxBodyBytes redaction ctx other)
    (redacted : List Text) :
    redactPairs
        (fun name => (redaction.headerRedacted "cookie".toList ||
          redaction.headerRedacted "set-cookie".toList) ||
          redaction.fieldRedacted name) ctx.cookies redacted =
      redactPairs
        (fun name => (redaction.headerRedacted "cookie".toList ||
          redaction.headerRedacted "set-cookie".toList) ||
          redaction.fieldRedacted name) other.cookies redacted := by
  apply redactPairs_congr ?_ same.cookies
  intro name listed
  rw [listed]
  rfl

/-- Only a body that fits the cap may differ, and that one is redacted. -/
theorem redactedBody
    (same : SameOutside codec maxBodyBytes redaction ctx other)
    (writes : ∀ value, (codec.toVec value).isSome = true)
    (redacted : List Text) :
    (if !redaction.bodyFields.isEmpty &&
        decide (ctx.body.length ≤ maxBodyBytes) then
      redactBody redaction codec ctx.body (contentType ctx.headers) redacted
    else (ctx.body, redacted)) =
    (if !redaction.bodyFields.isEmpty &&
        decide (other.body.length ≤ maxBodyBytes) then
      redactBody redaction codec other.body (contentType other.headers)
        redacted
    else (other.body, redacted)) := by
  have contentTypes : contentType ctx.headers = contentType other.headers :=
    contentType_congr (fun _ free => free.1) same.headers
  rw [← same.bodySize, ← contentTypes]
  rcases same.body with equal | ⟨listed, fits, fields⟩
  · rw [equal]
  · have redacts : (!redaction.bodyFields.isEmpty &&
        decide (ctx.body.length ≤ maxBodyBytes)) = true := by
      simpa using ⟨listed, fits⟩
    rw [if_pos redacts, if_pos redacts]
    exact redactBody_congr writes fields redacted

end SameOutside

/--
Two requests that differ only in cookies, where the list of headers has
`cookie`, and in listed fields of a JSON or form body that fits the cap, give
the same capture.
-/
theorem fromCtx_noninterfering
    {codec : JsonCodec} (writes : ∀ value, (codec.toVec value).isSome = true)
    {maxBodyBytes : Nat} {redaction : RedactionConfig}
    {ctx other : RequestContext}
    (same : SameOutside codec maxBodyBytes redaction ctx other) :
    fromCtx codec ctx maxBodyBytes redaction =
      fromCtx codec other maxBodyBytes redaction := by
  rw [fromCtx, fromCtx, same.redactedHeaders]
  obtain ⟨headers, redacted⟩ :=
    redactPairs redaction.headerRedacted other.headers []
  dsimp only
  rw [same.redactedCookies]
  obtain ⟨cookies, redacted⟩ := redactPairs _ other.cookies redacted
  dsimp only
  rw [same.redactedBody writes, same.requestId, same.method, same.path,
    same.query, same.httpVersion, same.bodySize]

/-! ## Samples -/

/-- A JSON body with one member. -/
def tokenText (token : String) : Text :=
  "\x7b\x22token\x22:\x22".toList ++ token.toList ++ "\x22\x7d".toList

/-- Its value. -/
def tokenValue (token : Text) : Json :=
  .object [("token".toList, .string token)]

/-- A codec for such bodies. -/
def tokenCodec : JsonCodec where
  fromSlice := fun body =>
    ((stripPrefix "\x7b\x22token\x22:\x22".toList
      (fromUtf8Lossy body)).bind (stripSuffix "\x22\x7d".toList)).map
        tokenValue
  toVec
    | .object [(key, .string text)] =>
        some (asBytes ("\x7b\x22".toList ++ key ++ "\x22:\x22".toList ++
          text ++ "\x22\x7d".toList))
    | _ => some (asBytes "null".toList)

/-- A request with such a body and a cookie. -/
def tokenRequest (contentType token session : String) : RequestContext :=
  { emptyRequest with
    headers := [("content-type".toList, contentType.toList),
      ("cookie".toList, "sid=".toList ++ session.toList)]
    cookies := [("sid".toList, session.toList)]
    body := asBytes (tokenText token) }

theorem fromSlice_tokenText :
    tokenCodec.fromSlice (asBytes (tokenText "aaaa")) =
        some (tokenValue "aaaa".toList) ∧
      tokenCodec.fromSlice (asBytes (tokenText "bbbb")) =
        some (tokenValue "bbbb".toList) := by
  have read : ∀ token, fromUtf8Lossy (asBytes (tokenText token)) =
      tokenText token := fun token => fromUtf8Lossy_asBytes _
  rw [tokenCodec]
  dsimp only
  rw [read, read]
  exact ⟨rfl, rfl⟩

/--
A body above the cap, a body that is not announced and a cookie whose line is
not redacted show their values, although their names are listed.
-/
theorem fromCtx_shows_listed :
    (fromCtx tokenCodec (tokenRequest "application/json" "aaaa" "s") 12
        ⟨[], ["token".toList]⟩ ≠
      fromCtx tokenCodec (tokenRequest "application/json" "bbbb" "s") 12
        ⟨[], ["token".toList]⟩ ∧
    fromCtx tokenCodec (tokenRequest "text/plain" "aaaa" "s") 64
        ⟨[], ["token".toList]⟩ ≠
      fromCtx tokenCodec (tokenRequest "text/plain" "bbbb" "s") 64
        ⟨[], ["token".toList]⟩ ∧
    tokenCodec.fromSlice (asBytes (tokenText "aaaa")) =
      some (tokenValue "aaaa".toList) ∧
    tokenCodec.fromSlice (asBytes (tokenText "bbbb")) =
      some (tokenValue "bbbb".toList)) ∧
    fromCtx tokenCodec (tokenRequest "application/json" "t" "aaaa") 64
        ⟨[], ["sid".toList]⟩ ≠
      fromCtx tokenCodec (tokenRequest "application/json" "t" "bbbb") 64
        ⟨[], ["sid".toList]⟩ ∧
    ∀ session ∈ ["aaaa", "bbbb"],
      Proxy.parseCookies
          (tokenRequest "application/json" "t" session).headers =
        (tokenRequest "application/json" "t" session).cookies := by
  refine ⟨⟨?_, ?_, fromSlice_tokenText⟩, ?_, ?_⟩
  · decide +kernel
  · decide +kernel
  · decide +kernel
  · decide +kernel

theorem fromCtx_noninterfering_token :
    SameOutside tokenCodec 64 ⟨["cookie".toList], ["token".toList]⟩
        (tokenRequest "application/json" "aaaa" "x")
        (tokenRequest "application/json" "bbbb" "y") ∧
      fromCtx tokenCodec (tokenRequest "application/json" "aaaa" "x") 64
          ⟨["cookie".toList], ["token".toList]⟩ =
        fromCtx tokenCodec (tokenRequest "application/json" "bbbb" "y") 64
          ⟨["cookie".toList], ["token".toList]⟩ := by
  have writes : ∀ value, (tokenCodec.toVec value).isSome = true := by
    intro value
    rw [tokenCodec]
    dsimp only
    split <;> rfl
  have fields : SameBody ⟨["cookie".toList], ["token".toList]⟩ tokenCodec
      "application/json".toList (asBytes (tokenText "aaaa"))
      (asBytes (tokenText "bbbb")) :=
    .json (by decide) fromSlice_tokenText.1 fromSlice_tokenText.2
      (.object (.hidden (by decide) _ _ .nil))
  have same : SameOutside tokenCodec 64
      ⟨["cookie".toList], ["token".toList]⟩
      (tokenRequest "application/json" "aaaa" "x")
      (tokenRequest "application/json" "bbbb" "y") :=
    { requestId := rfl
      method := rfl
      path := rfl
      query := rfl
      httpVersion := rfl
      headers := .cons ⟨rfl, .inl rfl⟩
        (.cons ⟨rfl, .inr ⟨by decide, by decide⟩⟩ .nil)
      cookies := .cons ⟨rfl, .inr (by decide)⟩ .nil
      bodySize := by decide
      body := .inr ⟨by decide, by decide, fields⟩ }
  exact ⟨same, fromCtx_noninterfering writes same⟩

end LightWaf.Capture
