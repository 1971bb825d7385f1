import LightWaf.Normalizer.Url

/-!
# Bodies by content type

The embedding of `waf-normalizer/src/body.rs`.  The JSON reader of the
`serde_json` crate is a parameter; its values are flattened here.
-/

namespace LightWaf.Normalizer

open LightWaf.Rust
open LightWaf.Core

/-- A JSON value; a number is kept as the text it prints as. -/
inductive Json
  | null
  | bool (value : Bool)
  | number (text : Text)
  | string (text : Text)
  | array (items : List Json)
  | object (fields : List (Text × Json))

/-- The JSON reader: a value, or the text of the error. -/
structure SerdeJson where
  fromStr : Text → Except Text Json

/-- No text with a raw NUL is JSON: control characters must be escaped. -/
def SerdeJson.RejectsNul (serde : SerdeJson) : Prop :=
  ∀ text value, serde.fromStr text = .ok value → '\x00' ∉ text

/-- A reader that accepts no text. -/
def SerdeJson.rejectAll : SerdeJson where
  fromStr := fun _ => .error "expected value".toList

theorem SerdeJson.rejectAll_rejectsNul : SerdeJson.rejectAll.RejectsNul := by
  intro text value accepted
  cases accepted

/-! ## JSON -/

/-- A key below a prefix. -/
def joinKey (lead key : Text) : Text :=
  if lead = [] then key else lead ++ '.' :: key

mutual

/-- `flatten_json`: the pairs pushed for one value at a depth. -/
def flattenJson (maxDepth : Nat) : Json → Text → Nat →
    Except NormalizationError (List (Text × Text))
  | .object fields, lead, depth =>
      if maxDepth < depth then .error (.jsonDepthExceeded maxDepth)
      else flattenFields maxDepth fields lead (depth + 1)
  | .array items, lead, depth =>
      if maxDepth < depth then .error (.jsonDepthExceeded maxDepth)
      else flattenItems maxDepth items 0 lead (depth + 1)
  | .string text, lead, _ => .ok [(lead, text)]
  | .null, lead, _ => .ok [(lead, "null".toList)]
  | .bool true, lead, _ => .ok [(lead, "true".toList)]
  | .bool false, lead, _ => .ok [(lead, "false".toList)]
  | .number text, lead, _ => .ok [(lead, text)]

/-- The fields of an object. -/
def flattenFields (maxDepth : Nat) : List (Text × Json) → Text → Nat →
    Except NormalizationError (List (Text × Text))
  | [], _, _ => .ok []
  | (key, value) :: rest, lead, depth => do
      let first ← flattenJson maxDepth value (joinKey lead key) depth
      let others ← flattenFields maxDepth rest lead depth
      .ok (first ++ others)

/-- The elements of an array from an index on. -/
def flattenItems (maxDepth : Nat) : List Json → Nat → Text → Nat →
    Except NormalizationError (List (Text × Text))
  | [], _, _, _ => .ok []
  | value :: rest, index, lead, depth => do
      let key := joinKey lead (toString index).toList
      let first ← flattenJson maxDepth value key depth
      let others ← flattenItems maxDepth rest (index + 1) lead depth
      .ok (first ++ others)

end

/-- `flatten_value`. -/
def flattenValue (value : Json) (limits : LimitsConfig) :
    Except NormalizationError (List (Text × Text)) :=
  flattenJson limits.maxJsonDepth value [] 1

/-- Where a decoder stops: the bytes before, and the ill-formed prefix. -/
def utf8ErrorFrom : (index skip : Nat) → Bytes → Option (Nat × Option Nat)
  | _, _, [] => none
  | index, skip + 1, _ :: rest => utf8ErrorFrom (index + 1) skip rest
  | index, 0, lead :: rest =>
      match utf8Step lead rest with
      | (some _, span) => utf8ErrorFrom (index + 1) span rest
      | (none, span) =>
          -- A sequence cut off by the end of input has no length of its own.
          if rest.length ≤ span ∧ span + 1 < leadWidth lead then
            some (index, none)
          else some (index, some (span + 1))

/-- The text of a `Utf8Error`. -/
def utf8ErrorText (bytes : Bytes) : Text :=
  match utf8ErrorFrom 0 0 bytes with
  | some (index, some length) =>
      ("invalid utf-8 sequence of " ++ toString length ++
        " bytes from index " ++ toString index).toList
  | some (index, none) =>
      ("incomplete utf-8 byte sequence from index " ++ toString index).toList
  | none => []

section Serde

variable (serde : SerdeJson)

/-- Whether a text opens as a JSON object or array. -/
def opensEnvelope : Text → Bool
  | '\x7b' :: _ => true
  | '[' :: _ => true
  | _ => false

/-- `sniff_json`: an undeclared JSON envelope, or `none` to inspect raw. -/
def sniffJson (body : Bytes) (limits : LimitsConfig) :
    Except NormalizationError (Option ParsedBody) :=
  match fromUtf8 body with
  | none => .ok none
  | some text =>
      let trimmed := trimStart text
      if !opensEnvelope trimmed then .ok none
      else
        match serde.fromStr trimmed with
        | .error _ => .ok none
        | .ok value => do
            let pairs ← flattenValue value limits
            .ok (some (.jsonFlattened pairs))

/-- A sniffed body is flattened JSON that the reader accepts. -/
theorem sniffJson_some
    {body : Bytes} {limits : LimitsConfig} {parsed : ParsedBody}
    (sniffed : sniffJson serde body limits = .ok (some parsed)) :
    ∃ text value pairs, fromUtf8 body = some text ∧
      serde.fromStr (trimStart text) = .ok value ∧
      flattenValue value limits = .ok pairs ∧
      parsed = .jsonFlattened pairs := by
  unfold sniffJson at sniffed
  cases decoded : fromUtf8 body with
  | none =>
      rw [decoded] at sniffed
      cases sniffed
  | some text =>
      rw [decoded] at sniffed
      dsimp only at sniffed
      split_ifs at sniffed with plain
      · cases sniffed
      · cases read : serde.fromStr (trimStart text) with
        | error message =>
            rw [read] at sniffed
            cases sniffed
        | ok value =>
            rw [read] at sniffed
            obtain ⟨pairs, flattened, filled⟩ := ok_of_bind_ok sniffed
            cases filled
            exact ⟨text, value, pairs, rfl, read, flattened, rfl⟩

/-- `parse_json`: a declared JSON body. -/
def parseJson (body : Bytes) (limits : LimitsConfig) :
    Except NormalizationError ParsedBody :=
  match fromUtf8 body with
  | none => .error (.jsonParseError (utf8ErrorText body))
  | some text =>
      match serde.fromStr text with
      | .error message => .error (.jsonParseError message)
      | .ok value => do
          let pairs ← flattenValue value limits
          .ok (.jsonFlattened pairs)

end Serde

/-! ## Forms -/

section Unicode

variable (unicode : UnicodeTables)

/-- One pair of a form body. -/
def formStep (limits : LimitsConfig) (params : List (Text × Text))
    (pair : Text) : Except NormalizationError (List (Text × Text)) :=
  if pair = [] then .ok params
  else if limits.maxParams ≤ params.length then
    .error (.tooManyParams limits.maxParams)
  else
    let (key, value) := splitPair pair
    .ok (params ++ [((canonicalizeValue unicode key true).1,
      (canonicalizeValue unicode value true).1)])

/-- `parse_form_urlencoded`. -/
def parseFormUrlencoded (body : Bytes) (limits : LimitsConfig) :
    Except NormalizationError ParsedBody := do
  let text := (fromUtf8 body).getD []
  let params ← (text.splitOn '&').foldlM (formStep unicode limits) []
  .ok (.formUrlEncoded params)

/-! ## Multipart -/

/-- `extract_boundary`. -/
def extractBoundary (contentType : Text) : Option Text :=
  ((contentType.splitOn ';').map trim).findSome? fun part =>
    if "boundary=".toList.isPrefixOf (unicode.toLowercase part) then
      some (trimMatches '\x22' (part.drop "boundary=".length))
    else none

/-- `parse_part_headers`: the headers of a part and what follows them. -/
def parsePartHeaders : (fuel : Nat) → Bytes →
    Option (List (Text × Text) × Bytes)
  | 0, _ => none
  | fuel + 1, data => do
      let (line, rest) ← findSplit [13, 10] data
      if line = [] then some ([], rest)
      else
        let header ←
          match findSplit [':'.toUInt8] line with
          | none => some []
          | some (name, value) => do
              let name ← fromUtf8 name
              let value ← fromUtf8 value
              some [(trim name, trim value)]
        let (headers, rest) ← parsePartHeaders fuel rest
        some (header ++ headers, rest)

/-- One attribute of a content disposition. -/
def dispositionStep (field : MultipartField) (param : Text) :
    MultipartField :=
  match findSplit ['='] (trim param) with
  | none => field
  | some (key, value) =>
      let key := unicode.toLowercase (trim key)
      let value := trimMatches '\x22' (trim value)
      if key = "name".toList then { field with name := value }
      else if key = "filename".toList then
        { field with filename := some value }
      else field

/-- One header of a part. -/
def partHeaderStep (field : MultipartField) (header : Text × Text) :
    MultipartField :=
  let name := unicode.toLowercase header.1
  if name = "content-disposition".toList then
    (header.2.splitOn ';').foldl (dispositionStep unicode) field
  else if name = "content-type".toList then
    { field with contentType := some header.2 }
  else field

/-- The parts that follow a boundary. -/
def multipartParts (interBoundary : Bytes) :
    (fuel : Nat) → Bytes → List MultipartField
  | 0, _ => []
  | fuel + 1, data =>
      match data with
      | 13 :: 10 :: rest =>
          match parsePartHeaders (rest.length + 1) rest with
          | none => []
          | some (headers, content) =>
              match findSplit interBoundary content with
              | none => []
              | some (partData, following) =>
                  let field := headers.foldl (partHeaderStep unicode)
                    ⟨[], none, none, partData⟩
                  (if field.name = [] then [] else [field]) ++
                    multipartParts interBoundary fuel following
      | _ => []

/-- `parse_multipart`. -/
def parseMultipart (body : Bytes) (boundary : Text) : ParsedBody :=
  let delimiter := asBytes ('-' :: '-' :: boundary)
  match findSplit delimiter body with
  | none => .multipart []
  | some (_, rest) =>
      .multipart (multipartParts unicode (13 :: 10 :: delimiter)
        (body.length + 1) rest)

/-! ## The entry point -/

variable (serde : SerdeJson)

/-- `parse_body`. -/
def parseBody (contentType : Option Text) (body : Bytes)
    (limits : LimitsConfig) : Except NormalizationError ParsedBody :=
  let declared := contentType.getD []
  let lower := unicode.toLowercase (trim declared)
  if lower = "application/x-www-form-urlencoded".toList ∨
      "application/x-www-form-urlencoded;".toList.isPrefixOf lower then
    parseFormUrlencoded unicode body limits
  else if "multipart/".toList.isPrefixOf lower then
    match extractBoundary unicode declared with
    | some boundary => .ok (parseMultipart unicode body boundary)
    | none => .ok (.raw body)
  else if lower = "application/json".toList ∨
      "application/json;".toList.isPrefixOf lower then
    parseJson serde body limits
  else if body = [] then .ok .none
  else do
    match ← sniffJson serde body limits with
    | some parsed => .ok parsed
    | none => .ok (.raw body)

/-- A body that is read as a JSON value, declared or sniffed. -/
def ReadsJson (body : Bytes) (value : Json) : Prop :=
  ∃ text, fromUtf8 body = some text ∧
    (serde.fromStr text = .ok value ∨
      serde.fromStr (trimStart text) = .ok value)

theorem parseJson_ok
    {body : Bytes} {limits : LimitsConfig} {parsed : ParsedBody}
    (done : parseJson serde body limits = .ok parsed) :
    ∃ value pairs, ReadsJson serde body value ∧
      flattenValue value limits = .ok pairs ∧
      parsed = .jsonFlattened pairs := by
  unfold parseJson at done
  split at done
  next => cases done
  next text decoded =>
    split at done
    next => cases done
    next value read =>
      obtain ⟨pairs, flattened, filled⟩ := ok_of_bind_ok done
      cases filled
      exact ⟨value, pairs, ⟨text, decoded, Or.inl read⟩, flattened, rfl⟩

/-- What a parsed body can be, and where it comes from. -/
theorem parseBody_ok
    {contentType : Option Text} {body : Bytes} {limits : LimitsConfig}
    {parsed : ParsedBody}
    (done : parseBody unicode serde contentType body limits = .ok parsed) :
    (∃ params, (((fromUtf8 body).getD []).splitOn '&').foldlM
        (formStep unicode limits) [] = .ok params ∧
        parsed = .formUrlEncoded params) ∨
      (∃ fields, parsed = .multipart fields) ∨
      (∃ value pairs, ReadsJson serde body value ∧
        flattenValue value limits = .ok pairs ∧
        parsed = .jsonFlattened pairs) ∨
      parsed = .raw body ∨ parsed = .none := by
  unfold parseBody at done
  dsimp only at done
  split_ifs at done with form multipart json empty
  · obtain ⟨params, folded, filled⟩ := ok_of_bind_ok done
    cases filled
    exact Or.inl ⟨params, folded, rfl⟩
  · right
    split at done
    · unfold parseMultipart at done
      dsimp only at done
      split at done <;> cases done
      · exact Or.inl ⟨_, rfl⟩
      · exact Or.inl ⟨_, rfl⟩
    · cases done
      exact Or.inr (Or.inr (Or.inl rfl))
  · exact Or.inr (Or.inr (Or.inl (parseJson_ok serde done)))
  · cases done
    exact Or.inr (Or.inr (Or.inr (Or.inr rfl)))
  · right; right
    obtain ⟨found, sniffed, filled⟩ := ok_of_bind_ok done
    cases found with
    | none =>
        cases filled
        exact Or.inr (Or.inl rfl)
    | some envelope =>
        cases filled
        obtain ⟨text, value, pairs, decoded, read, flattened, same⟩ :=
          sniffJson_some serde sniffed
        exact Or.inl ⟨value, pairs, ⟨text, decoded, Or.inr read⟩, flattened,
          same⟩

section Inversion

variable {contentType : Option Text} {body : Bytes} {limits : LimitsConfig}

/-- A raw body is the body itself. -/
theorem parseBody_raw
    {bytes : Bytes}
    (parsed : parseBody unicode serde contentType body limits =
      .ok (.raw bytes)) :
    bytes = body := by
  rcases parseBody_ok unicode serde parsed with
    ⟨_, _, same⟩ | ⟨_, same⟩ | ⟨_, _, _, _, same⟩ | same | same <;> cases same
  rfl

/-- Flattened JSON comes from a value that the body is read as. -/
theorem parseBody_flattened
    {pairs : List (Text × Text)}
    (parsed : parseBody unicode serde contentType body limits =
      .ok (.jsonFlattened pairs)) :
    ∃ value, ReadsJson serde body value ∧
      flattenValue value limits = .ok pairs := by
  rcases parseBody_ok unicode serde parsed with
    ⟨_, _, same⟩ | ⟨_, same⟩ | ⟨value, _, read, flattened, same⟩ | same |
      same <;> cases same
  exact ⟨value, read, flattened⟩

/-- Form parameters are collected pair by pair. -/
theorem parseBody_form
    {params : List (Text × Text)}
    (parsed : parseBody unicode serde contentType body limits =
      .ok (.formUrlEncoded params)) :
    (((fromUtf8 body).getD []).splitOn '&').foldlM
      (formStep unicode limits) [] = .ok params := by
  rcases parseBody_ok unicode serde parsed with
    ⟨_, folded, same⟩ | ⟨_, same⟩ | ⟨_, _, _, _, same⟩ | same | same <;>
    cases same
  exact folded

end Inversion

end Unicode

end LightWaf.Normalizer
