import LightWaf.Core.Request
import LightWaf.Normalizer.Normalize

/-!
# The two views of a request's headers

The embedding of the header handling of `waf-proxy/src/lib.rs`.  A header line
is a name and a byte string.  `build_context` keeps the lines whose value
reads as a string, and every decision of the proxy is taken on those;
`forward_to_backend` copies the lines themselves.

`HeaderValue::to_str` belongs to the `http` crate and is a parameter that
carries its documented behaviour.
-/

namespace LightWaf.Proxy

open LightWaf.Rust
open LightWaf.Core

/-! ## Header lines -/

/-- A byte the `http` crate accepts in a header value. -/
def isValueByte (byte : UInt8) : Bool :=
  (0x20 ≤ byte && byte != 0x7F) || byte == 0x09

/-- `is_visible_ascii`. -/
def isVisibleAscii (byte : UInt8) : Bool :=
  (0x20 ≤ byte && byte < 0x7F) || byte == 0x09

/-- A character of a header name; the `http` crate lowers names on entry. -/
def isNameChar (char : Char) : Bool :=
  char.isLower || char.isDigit ||
    "!#$%&'*+-.^_`|~".toList.contains char

/-- `HeaderName`. -/
structure HeaderName where
  text : Text
  valid : !text.isEmpty && text.all isNameChar
deriving DecidableEq

/-- `HeaderValue`. -/
structure HeaderValue where
  bytes : Bytes
  valid : bytes.all isValueByte
deriving DecidableEq

/-- One line of a `HeaderMap`. -/
structure HeaderField where
  name : HeaderName
  value : HeaderValue
deriving DecidableEq

/-- `HeaderMap`: its lines as iteration yields them. -/
abbrev HeaderMap := List HeaderField

namespace HeaderMap

/-- `append`: the line follows those of its name, or comes last. -/
def append (line : HeaderField) : HeaderMap → HeaderMap
  | [] => [line]
  | head :: tail =>
      if head.name = line.name ∧
          (tail.any fun later => later.name = line.name) = false then
        head :: line :: tail
      else head :: append line tail

/-- `get`: the first value of a name. -/
def get (map : HeaderMap) (name : Text) : Option HeaderValue :=
  (map.find? fun line => line.name.text == name).map HeaderField.value

@[simp]
theorem mem_append
    {line other : HeaderField} {map : HeaderMap} :
    other ∈ append line map ↔ other = line ∨ other ∈ map := by
  induction map with
  | nil => simp [append]
  | cons head tail induction =>
      unfold append
      split_ifs
      · simp only [List.mem_cons]
        tauto
      · simp only [List.mem_cons, induction]
        tauto

end HeaderMap

/-- `HeaderValue::to_str` of the `http` crate, with what it documents. -/
structure HeaderToStr where
  toStr : HeaderValue → Option Text
  succeeds : ∀ value,
    (toStr value).isSome = true ↔ value.bytes.all isVisibleAscii = true
  verbatim : ∀ value text, toStr value = some text →
    asBytes text = value.bytes

theorem asBytes_visible
    (bytes : Bytes) (visible : bytes.all isVisibleAscii = true) :
    asBytes (bytes.map fun byte => Char.ofNat byte.toNat) = bytes := by
  induction bytes with
  | nil => rfl
  | cons head tail induction =>
      rw [List.all_cons, Bool.and_eq_true] at visible
      have small : head.toNat < 0x80 := by
        have headVisible := visible.1
        simp only [isVisibleAscii, Bool.or_eq_true, Bool.and_eq_true,
          decide_eq_true_eq, beq_iff_eq] at headVisible
        rcases headVisible with ⟨-, below⟩ | rfl
        · exact (UInt8.lt_iff_toNat_lt.mp below).trans (by decide)
        · decide
      have scalar : (Char.ofNat head.toNat).toNat = head.toNat := by
        have valid : head.toNat.isValidChar := Or.inl (by omega)
        rw [Char.ofNat, dif_pos valid]
        rfl
      rw [List.map_cons, asBytes_cons, induction visible.2,
        utf8EncodeChar_ascii (by rw [scalar]; exact small), scalar,
        UInt8.ofNat_toNat]
      rfl

/-- The reading that keeps each byte as a character. -/
def HeaderToStr.bytewise : HeaderToStr where
  toStr value :=
    if value.bytes.all isVisibleAscii then
      some (value.bytes.map fun byte => Char.ofNat byte.toNat)
    else none
  succeeds value := by
    split_ifs with visible <;> simp [visible]
  verbatim value text read := by
    split_ifs at read with visible
    rw [← Option.some.inj read, asBytes_visible value.bytes visible]

/-! ## The inbound request -/

/-- The head of an inbound request, as the accessors of `Parts` return it. -/
structure Parts where
  method : Text
  path : Text
  query : Option Text
  pathAndQuery : Option Text
  version : Text
  headers : HeaderMap

/-- The request id: `req-` and sixteen hexadecimal digits of the counter. -/
def requestIdText (counter : UInt64) : Text :=
  "req-".toList ++
    (Nat.toDigits 16 counter.toNat).leftpad 16 '0'

/-- `next_request_id`: the id of the counter, which moves on by one. -/
def nextRequestId (counter : UInt64) : Text × UInt64 :=
  (requestIdText counter, counter + 1)

/-- One pair of a cookie line; a missing value is empty. -/
def parseCookiePair (pair : Text) : Text × Text :=
  match findSplit ['='] pair with
  | some (key, value) => (trim key, trim value)
  | none => (trim pair, [])

/-- `parse_cookies`. -/
def parseCookies (headers : List HeaderLine) : List (Text × Text) :=
  (headers.filter fun line =>
    eqIgnoreAsciiCase line.1 "cookie".toList).flatMap fun line =>
      (line.2.splitOn ';').map parseCookiePair

section Views

variable (http : HeaderToStr)

/-- The lines of a header map whose value reads as a string. -/
def readableHeaders (headers : HeaderMap) : List HeaderLine :=
  headers.filterMap fun line =>
    (http.toStr line.value).map fun value => (line.name.text, value)

/-- `build_context`. -/
def buildContext (requestId : Text) (parts : Parts) (body : Bytes)
    (clientAddr : IpAddr) (ipResolver : ClientIpResolver) :
    RequestContext :=
  let headers := readableHeaders http parts.headers
  { clientIp := (ipResolver.resolve clientAddr headers).ip
    requestId := requestId
    method := parts.method
    path := parts.path
    rawPath := parts.path
    query := parts.query
    httpVersion := parts.version
    headers := headers
    cookies := parseCookies headers
    body := body }

/-- `is_grpc_request`. -/
def isGrpcRequest (parts : Parts) : Bool :=
  ((parts.headers.get "content-type".toList).bind http.toStr).any
    fun contentType =>
      "application/grpc".toList.isPrefixOf (trimStart contentType)

/-- `HOP_BY_HOP`. -/
def hopByHop : List Text :=
  ["connection".toList, "host".toList, "keep-alive".toList,
    "proxy-authenticate".toList, "proxy-authorization".toList, "te".toList,
    "trailers".toList, "transfer-encoding".toList, "upgrade".toList]

/-- The client's lines that `forward_to_backend` copies. -/
def copiedHeaders (headers : HeaderMap) : List HeaderField :=
  headers.filter fun line => !hopByHop.contains line.name.text

end Views

end LightWaf.Proxy
