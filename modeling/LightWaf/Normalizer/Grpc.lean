import LightWaf.Core.Request

/-!
# gRPC framing and protobuf fields

The embedding of `waf-normalizer/src/grpc.rs`: the framed messages of a body
are walked field by field without a schema, within limits.

A walk is a loop over `readField`, which says what one field does: stop the
message, go on behind it, or enter it as a nested message.
-/

namespace LightWaf.Normalizer

open LightWaf.Rust

/-- The caps of a walk. -/
structure GrpcLimits where
  maxDepth : Nat := 16
  maxFields : Nat := 4096
  maxLeaves : Nat := 1024

/-- Structural metrics and extracted content of a body. -/
structure GrpcExtract where
  messages : Nat := 0
  totalPayloadBytes : Nat := 0
  maxMessageLen : Nat := 0
  fields : Nat := 0
  maxDepth : Nat := 0
  depthExceeded : Bool := false
  fieldsExceeded : Bool := false
  compressed : Bool := false
  malformed : Bool := false
  leaves : List Text := []
deriving DecidableEq

/-- `saturating_add` of an unsigned type of the given width. -/
def saturatingAdd (width left right : Nat) : Nat :=
  min (left + right) (2 ^ width - 1)

/-- The bytes of a varint, at most `left` of them. -/
def readVarintFrom : (left shift : Nat) → Bytes → Option (Nat × Bytes)
  | 0, _, _ => none
  | _ + 1, _, [] => none
  | left + 1, shift, byte :: rest =>
      if byte < 0x80 then some (byte.toNat * 2 ^ shift, rest)
      else do
        let (value, rest) ← readVarintFrom left (shift + 7) rest
        some (byte.toNat % 128 * 2 ^ shift + value, rest)

/-- `read_varint`: a 64-bit value of at most ten bytes, and the rest. -/
def readVarint (bytes : Bytes) : Option (Nat × Bytes) :=
  (readVarintFrom 10 0 bytes).map fun (value, rest) =>
    (value % 2 ^ 64, rest)

namespace GrpcExtract

/-- Note that a message is entered at a depth. -/
def enter (out : GrpcExtract) (depth : Nat) : GrpcExtract :=
  { out with maxDepth := max out.maxDepth depth }

/-- Keep a leaf while there is room. -/
def pushLeaf (out : GrpcExtract) (limits : GrpcLimits) (leaf : Text) :
    GrpcExtract :=
  if out.leaves.length < limits.maxLeaves then
    { out with leaves := out.leaves ++ [leaf] }
  else out

end GrpcExtract

/-- What one field of a message does. -/
inductive FieldStep
  | stop (out : GrpcExtract)
  | next (out : GrpcExtract) (rest : Bytes)
  | nest (out : GrpcExtract) (field rest : Bytes)

/-- A length-delimited field: a leaf, nothing, or a nested message. -/
def delimitedField (limits : GrpcLimits) (depth : Nat) (out : GrpcExtract)
    (field rest : Bytes) : FieldStep :=
  match fromUtf8 field with
  | some [] => .next out rest
  | some leaf => .next (out.pushLeaf limits leaf) rest
  | none =>
      if limits.maxDepth ≤ depth then
        .next { out with depthExceeded := true } rest
      else .nest out field rest

/-- Pass over `count` bytes of a fixed-width field. -/
def skipFixed (count : Nat) (out : GrpcExtract) (rest : Bytes) : FieldStep :=
  if rest.length < count then .stop { out with malformed := true }
  else .next out (rest.drop count)

/-- The value of a field, by its wire type. -/
def readValue (limits : GrpcLimits) (depth wireType : Nat)
    (out : GrpcExtract) (rest : Bytes) : FieldStep :=
  match wireType with
  | 0 =>
      match readVarint rest with
      | none => .stop { out with malformed := true }
      | some (_, rest) => .next out rest
  | 1 => skipFixed 8 out rest
  | 5 => skipFixed 4 out rest
  | 2 =>
      match readVarint rest with
      | none => .stop { out with malformed := true }
      | some (length, rest) =>
          if rest.length < length then .stop { out with malformed := true }
          else
            delimitedField limits depth out (rest.take length)
              (rest.drop length)
  | _ => .stop { out with malformed := true }

/-- The field at the start of a non-empty buffer. -/
def readField (limits : GrpcLimits) (depth : Nat) (out : GrpcExtract)
    (buf : Bytes) : FieldStep :=
  match readVarint buf with
  | none => .stop { out with malformed := true }
  | some (tag, rest) =>
      let fields := saturatingAdd 32 out.fields 1
      if limits.maxFields < fields then
        .stop { out with fields := fields, fieldsExceeded := true }
      else readValue limits depth (tag % 8) { out with fields := fields } rest

/--
The loop of `parse_message`.

Every field takes at least its tag, so fuel equal to the buffer's length is
enough.
-/
def parseFields (limits : GrpcLimits) :
    (fuel depth : Nat) → Bytes → GrpcExtract → GrpcExtract
  | 0, _, _, out => out
  | fuel + 1, depth, buf, out =>
      if buf = [] then out
      else
        match readField limits depth out buf with
        | .stop out => out
        | .next out rest => parseFields limits fuel depth rest out
        | .nest out field rest =>
            parseFields limits fuel depth rest
              (parseFields limits fuel (depth + 1) field
                (out.enter (depth + 1)))

/-- `parse_message`. -/
def parseMessage (limits : GrpcLimits) (buf : Bytes) (depth : Nat)
    (out : GrpcExtract) : GrpcExtract :=
  parseFields limits buf.length depth buf (out.enter depth)

/-- Account for a frame of a length before its payload is looked at. -/
def GrpcExtract.countFrame (out : GrpcExtract) (length : Nat) :
    GrpcExtract :=
  { out with
    messages := saturatingAdd 32 out.messages 1
    totalPayloadBytes := saturatingAdd 64 out.totalPayloadBytes length
    maxMessageLen := max out.maxMessageLen length }

/-- The payload of one frame, by the frame's flag. -/
def parseFrame (limits : GrpcLimits) (flag : UInt8) (message : Bytes)
    (out : GrpcExtract) : GrpcExtract :=
  if flag = 0 then parseMessage limits message 1 out
  else if flag = 1 then { out with compressed := true }
  else { out with malformed := true }

/-- A big-endian 32-bit length. -/
def frameLength (b0 b1 b2 b3 : UInt8) : Nat :=
  ((b0.toNat * 256 + b1.toNat) * 256 + b2.toNat) * 256 + b3.toNat

/-- What stands at the start of the remaining body. -/
inductive FrameStep
  | done
  | illegal
  | frame (flag : UInt8) (message rest : Bytes)

/-- A whole frame, the end of the body, or a truncated frame. -/
def readFrame : Bytes → FrameStep
  | [] => .done
  | flag :: b0 :: b1 :: b2 :: b3 :: rest =>
      let length := frameLength b0 b1 b2 b3
      if rest.length < length then .illegal
      else .frame flag (rest.take length) (rest.drop length)
  | _ => .illegal

/-- The loop of `grpc_extract`; a frame takes at least five bytes. -/
def parseFrames (limits : GrpcLimits) :
    (fuel : Nat) → Bytes → GrpcExtract → GrpcExtract
  | 0, _, out => out
  | fuel + 1, body, out =>
      match readFrame body with
      | .done => out
      | .illegal => { out with malformed := true }
      | .frame flag message rest =>
          parseFrames limits fuel rest
            (parseFrame limits flag message (out.countFrame message.length))

/-- `grpc_extract`. -/
def grpcExtract (body : Bytes) (limits : GrpcLimits) : GrpcExtract :=
  parseFrames limits (body.length + 1) body {}

end LightWaf.Normalizer
