import LightWaf.Core.Config

/-!
# Requests, decisions and modules

The request context that flows through the proxy, the decisions a module can
return and the module contract.
-/

namespace LightWaf.Core

open LightWaf.Rust

/-- One severity-tagged contribution inside `Decision.scores`. -/
structure ScoreItem where
  ruleId : String
  severity : Severity
deriving DecidableEq

/-- What a module decides about a request. -/
inductive Decision
  | allow
  | block (ruleId reason : String)
  | monitor (ruleId : String)
  | score (ruleId : String) (points : UInt32)
  | scores (items : List ScoreItem)
  | reject (ruleId reason : String) (status : Nat) (retryAfter : Option Nat)
deriving DecidableEq

/-- A decision contributes an item of a rule. -/
def Contributes (decision : Decision) (ruleId : String) : Prop :=
  match decision with
  | .scores items => ∃ item ∈ items, item.ruleId = ruleId
  | _ => False

/-- The phases of a request. -/
inductive Phase
  | connection
  | requestLine
  | headers
  | body
  | response
deriving DecidableEq

/-- One recorded contribution to the anomaly score. -/
structure ScoreContribution where
  module : String
  ruleId : String
  severity : Option Severity
  points : UInt32
deriving DecidableEq

/-- One part of a multipart body. -/
structure MultipartField where
  name : Text
  filename : Option Text
  contentType : Option Text
  data : Bytes
deriving DecidableEq

/-- The parsed body. -/
inductive ParsedBody
  | none
  | formUrlEncoded (params : List (Text × Text))
  | multipart (fields : List MultipartField)
  | jsonFlattened (pairs : List (Text × Text))
  | raw (bytes : Bytes)
deriving DecidableEq

/-- The canonical forms of all inspectable fields. -/
structure Normalized where
  path : Text := []
  query : Option Text := none
  queryParams : List (Text × Text) := []
  cookies : List (Text × Text) := []
  headers : List HeaderLine := []
  body : ParsedBody := .none
  doubleEncodingDetected : Bool := false
  nullByteDetected : Bool := false
  derivedDecoded : List Text := []
deriving DecidableEq

/-- The request as the proxy, the normalizer and the modules see it. -/
structure RequestContext where
  clientIp : IpAddr
  requestId : Text := []
  method : Text
  path : Text
  rawPath : Text
  query : Option Text
  httpVersion : Text
  headers : List HeaderLine
  cookies : List (Text × Text)
  body : Bytes
  normalized : Normalized := {}
  score : UInt32 := 0
  scoreContributions : List ScoreContribution := []

/-- A request for the root with nothing in it. -/
def emptyRequest : RequestContext where
  clientIp := .v4 0x7F000001#32
  method := "GET".toList
  path := "/".toList
  rawPath := "/".toList
  query := none
  httpVersion := "HTTP/1.1".toList
  headers := []
  cookies := []
  body := []

/--
A module after `init`.

`inspect` reads the context only; `none` is a panic inside it.
-/
structure WafModule where
  id : String
  phase : Phase
  structural : Bool := false
  inspect : RequestContext → Option Decision

end LightWaf.Core
