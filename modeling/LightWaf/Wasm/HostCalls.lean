import Mathlib
import LightWaf.Rust.Utf8
import LightWaf.Theory.Machine
import LightWaf.Wasm.Marshal
import LightWaf.Wasm.Runtime

/-!
# What host calls allocate

The embedding of the host functions of `waf-wasm/src/host.rs`, of the access
to guest memory in `memory.rs` and of the properties in `marshal.rs`, with the
buffers they allocate on the host.  The memory of a guest is capped, but a
range of it is copied into a buffer of the length that the guest asks for, and
only then compared with the memory.
-/

namespace LightWaf.Wasm.HostCalls

open LightWaf.Rust
open LightWaf.Theory

/-! ## Guest memory -/

/-- The linear memory of a guest under the cap of its store. -/
structure GuestMemory (maxMemoryBytes : Nat) where
  bytes : Bytes
  capped : bytes.length ≤ maxMemoryBytes

variable {maxMemoryBytes : Nat}

/-- The range lies within the memory. -/
def GuestMemory.InBounds (memory : GuestMemory maxMemoryBytes)
    (ptr length : Nat) : Prop :=
  ptr + length ≤ memory.bytes.length

instance (memory : GuestMemory maxMemoryBytes) (ptr length : Nat) :
    Decidable (memory.InBounds ptr length) :=
  inferInstanceAs (Decidable (_ ≤ _))

/-- The error of an access beyond the memory. -/
def outOfBounds : Text :=
  "out of bounds memory access".toList

/-- `memory::read`: the buffer is allocated before the bounds are checked. -/
def GuestMemory.read (memory : GuestMemory maxMemoryBytes)
    (ptr length : Nat) : Allocating Text Bytes := do
  Allocating.allocate length
  if memory.InBounds ptr length then
    pure ((memory.bytes.drop ptr).take length)
  else .fail outOfBounds

/-- `memory::write`. -/
def GuestMemory.write (memory : GuestMemory maxMemoryBytes) (ptr : Nat)
    (data : Bytes) : Except Text (GuestMemory maxMemoryBytes) :=
  if inside : memory.InBounds ptr data.length then
    .ok
      { bytes := memory.bytes.take ptr ++
          (data ++ memory.bytes.drop (ptr + data.length))
        capped := by
          have capped := memory.capped
          unfold GuestMemory.InBounds at inside
          simp only [List.length_append, List.length_take, List.length_drop]
          omega }
  else .error outOfBounds

/-- The guest's allocator: a pointer, and the memory it leaves. -/
abbrev Allocator (maxMemoryBytes : Nat) :=
  GuestMemory maxMemoryBytes → Nat →
    Except Text (BitVec 32 × GuestMemory maxMemoryBytes)

/-- `memory::alloc_and_write`. -/
def allocAndWrite (alloc : Allocator maxMemoryBytes)
    (memory : GuestMemory maxMemoryBytes) (data : Bytes) :
    Except Text (Nat × GuestMemory maxMemoryBytes) := do
  let (ptr, memory) ← alloc memory (data.length % 2 ^ 32)
  if ptr.toInt < 0 then
    .error "guest allocator returned a negative pointer".toList
  else do
    let memory ← memory.write ptr.toNat data
    return (ptr.toNat, memory)

/-! ## The instance -/

/-- The store of an instance as a host call finds it. -/
structure Instance (maxMemoryBytes : Nat) where
  memory : Option (GuestMemory maxMemoryBytes)
  alloc : Option (Allocator maxMemoryBytes)
  host : HostState

/-- `Status`, as far as it is returned. -/
inductive Status
  | ok
  | notFound
  | unimplemented
deriving DecidableEq

/-- `Status::code`. -/
def Status.code : Status → Int
  | .ok => 0
  | .notFound => 1
  | .unimplemented => 12

/-- What a host call returns, and the instance after it. -/
abbrev Served (maxMemoryBytes : Nat) :=
  Allocating Text (Status × Instance maxMemoryBytes)

/-- `mem_of`. -/
def memOf (store : Instance maxMemoryBytes) :
    Allocating Text (GuestMemory maxMemoryBytes) :=
  match store.memory with
  | some memory => pure memory
  | none => .fail "guest memory not initialised".toList

/-- `return_buffer`, after `mem_of` and `alloc_of`. -/
def writeBack (store : Instance maxMemoryBytes)
    (memory : GuestMemory maxMemoryBytes) (alloc : Allocator maxMemoryBytes)
    (data : Bytes) (retPtr retSize : BitVec 32) :
    Except Text (Status × Instance maxMemoryBytes) := do
  let (ptr, memory) ← allocAndWrite alloc memory data
  let memory ← memory.write retPtr.toNat (leBytes 4 ptr)
  let memory ← memory.write retSize.toNat
    (leBytes 4 (data.length % 2 ^ 32))
  return (.ok, { store with memory := some memory })

/-- `return_buffer`: nothing is allocated on the host. -/
def returnBuffer (store : Instance maxMemoryBytes) (data : Bytes)
    (retPtr retSize : BitVec 32) : Served maxMemoryBytes :=
  .ofExcept <|
    match store.memory, store.alloc with
    | none, _ => .error "guest memory not initialised".toList
    | some _, none => .error "guest allocator not initialised".toList
    | some memory, some alloc =>
        writeBack store memory alloc data retPtr retSize

/-! ## Texts and properties -/

/-- `String::from_utf8_lossy`: a text that is not valid is copied. -/
def decodeLossy (bytes : Bytes) : Allocating Text Text := do
  if (fromUtf8 bytes).isNone then
    Allocating.allocate (byteLen (fromUtf8Lossy bytes))
  return fromUtf8Lossy bytes

/-- A copy of a text. -/
def copyText (text : Text) : Allocating Text Text := do
  Allocating.allocate (byteLen text)
  return text

/-- `header_value`. -/
def headerValue (headers : List (Text × Text)) (name : Text) :
    Allocating Text (Option Text) := do
  let lowered ← copyText (toAsciiLowercase name)
  return (headers.find? fun header => header.1 == lowered).map Prod.snd

/-- The properties with a path of two segments. -/
def requestProperties (req : RequestView) : List (List Text × Text) :=
  [(["request".toList, "path".toList], req.path),
    (["request".toList, "url_path".toList], req.urlPath),
    (["request".toList, "method".toList], req.method),
    (["request".toList, "protocol".toList], req.protocol),
    (["request".toList, "scheme".toList], req.scheme),
    (["request".toList, "host".toList], req.host),
    (["source".toList, "address".toList], req.sourceAddr)]

/-- The header that a path names. -/
def headerName : List Text → Option Text
  | [scope, map, name] =>
      if scope = "request".toList ∧ map = "headers".toList then some name
      else none
  | _ => none

/-- The size of a slice, `&[u8]` or `&str`. -/
def sliceSlot : Nat := 16

/-- The segments of a property path. -/
def propertySegments (path : Bytes) : List Bytes :=
  (path.splitOn 0).filter fun segment => !segment.isEmpty

/-- `resolve_property`. -/
def resolveProperty (path : Bytes) (req : RequestView) :
    Allocating Text (Option Bytes) := do
  let segments := propertySegments path
  Allocating.allocate (segments.length * sliceSlot)
  let names := segments.filterMap fromUtf8
  Allocating.allocate (names.length * sliceSlot)
  match (requestProperties req).lookup names, headerName names with
  | some value, _ =>
      let value ← copyText value
      return some (asBytes value)
  | none, some name =>
      match ← headerValue req.headers name with
      | some value =>
          let value ← copyText value
          return some (asBytes value)
      | none => return none
  | none, none => return none

/-- `slice`. -/
def slice (buffer : Bytes) (start maxSize : BitVec 32) : Bytes :=
  if buffer.length ≤ start.toNat then []
  else (buffer.drop start.toNat).take maxSize.toNat

/-! ## The host functions -/

/-- The host functions with their arguments, 32 bits each. -/
inductive HostCall
  | log (level ptr size : BitVec 32)
  | getBufferBytes (bufferType start maxSize retPtr retSize : BitVec 32)
  | getHeaderMapPairs (mapType retPtr retSize : BitVec 32)
  | getHeaderMapValue (mapType keyPtr keySize retPtr retSize : BitVec 32)
  | getProperty (pathPtr pathSize retPtr retSize : BitVec 32)
  | sendLocalResponse (status detailPtr detailSize bodyPtr bodySize
      headersPtr headersSize grpcStatus : BitVec 32)

/-- `proxy_log`; what is logged is not modelled. -/
def proxyLog (store : Instance maxMemoryBytes) (ptr size : BitVec 32) :
    Served maxMemoryBytes := do
  let memory ← memOf store
  let bytes ← memory.read ptr.toNat size.toNat
  let _ ← decodeLossy bytes
  return (.ok, store)

/-- The buffer that `proxy_get_buffer_bytes` copies from. -/
def sourceBuffer (host : HostState) (bufferType : BitVec 32) :
    Option Bytes :=
  if bufferType = 0 then some host.req.body
  else if bufferType = 7 then some host.config
  else if bufferType = 6 then some []
  else none

/-- `proxy_get_buffer_bytes`. -/
def proxyGetBufferBytes (store : Instance maxMemoryBytes)
    (bufferType start maxSize retPtr retSize : BitVec 32) :
    Served maxMemoryBytes :=
  match sourceBuffer store.host bufferType with
  | none => pure (.unimplemented, store)
  | some buffer => do
      Allocating.allocate (slice buffer start maxSize).length
      returnBuffer store (slice buffer start maxSize) retPtr retSize

/-- `proxy_get_header_map_pairs`. -/
def proxyGetHeaderMapPairs (store : Instance maxMemoryBytes)
    (mapType retPtr retSize : BitVec 32) : Served maxMemoryBytes :=
  if mapType = 0 then do
    let encoded := encodeHeaderMapPairs store.host.req.headers
    Allocating.allocate encoded.length
    returnBuffer store encoded retPtr retSize
  else pure (.unimplemented, store)

/-- `proxy_get_header_map_value`. -/
def proxyGetHeaderMapValue (store : Instance maxMemoryBytes)
    (mapType keyPtr keySize retPtr retSize : BitVec 32) :
    Served maxMemoryBytes :=
  if mapType ≠ 0 then pure (.unimplemented, store)
  else do
    let memory ← memOf store
    let bytes ← memory.read keyPtr.toNat keySize.toNat
    let decoded ← decodeLossy bytes
    let key ← copyText decoded
    match ← headerValue store.host.req.headers key with
    | some value =>
        let value ← copyText value
        returnBuffer store (asBytes value) retPtr retSize
    | none => return (.notFound, store)

/-- `proxy_get_property`. -/
def proxyGetProperty (store : Instance maxMemoryBytes)
    (pathPtr pathSize retPtr retSize : BitVec 32) :
    Served maxMemoryBytes := do
  let memory ← memOf store
  let path ← memory.read pathPtr.toNat pathSize.toNat
  match ← resolveProperty path store.host.req with
  | some value => returnBuffer store value retPtr retSize
  | none => return (.notFound, store)

/-- The detail of a local response, read if its size is positive. -/
def readDetail (memory : GuestMemory maxMemoryBytes)
    (ptr size : BitVec 32) : Allocating Text Bytes :=
  if 0 < size.toInt then do
    let bytes ← memory.read ptr.toNat size.toNat
    let decoded ← decodeLossy bytes
    let _ ← copyText decoded
    return bytes
  else pure []

/-- The body of a local response, read if its size is positive. -/
def readBody (memory : GuestMemory maxMemoryBytes) (ptr size : BitVec 32) :
    Allocating Text Bytes :=
  if 0 < size.toInt then memory.read ptr.toNat size.toNat else pure []

/-- `proxy_send_local_response`. -/
def proxySendLocalResponse (store : Instance maxMemoryBytes)
    (status detailPtr detailSize bodyPtr bodySize : BitVec 32) :
    Served maxMemoryBytes := do
  let memory ← memOf store
  let detail ← readDetail memory detailPtr detailSize
  let body ← readBody memory bodyPtr bodySize
  return (.ok,
    { store with
      host := store.host.sendLocalResponse ⟨status.toInt, detail, body⟩ })

/-- A host call. -/
def serve (store : Instance maxMemoryBytes) :
    HostCall → Served maxMemoryBytes
  | .log _ ptr size => proxyLog store ptr size
  | .getBufferBytes bufferType start maxSize retPtr retSize =>
      proxyGetBufferBytes store bufferType start maxSize retPtr retSize
  | .getHeaderMapPairs mapType retPtr retSize =>
      proxyGetHeaderMapPairs store mapType retPtr retSize
  | .getHeaderMapValue mapType keyPtr keySize retPtr retSize =>
      proxyGetHeaderMapValue store mapType keyPtr keySize retPtr retSize
  | .getProperty pathPtr pathSize retPtr retSize =>
      proxyGetProperty store pathPtr pathSize retPtr retSize
  | .sendLocalResponse status detailPtr detailSize bodyPtr bodySize _ _ _ =>
      proxySendLocalResponse store status detailPtr detailSize bodyPtr
        bodySize

/-! ## The size of what a call serves -/

/-- The size of a `RequestView` without what its fields point to. -/
def viewSlot : Nat := 224

/-- The size of the headers in memory. -/
def headersSize (headers : List (Text × Text)) : Nat :=
  (headers.map fun header =>
    pairSlot + byteLen header.1 + byteLen header.2).sum

/-- The size of the current request in memory. -/
def requestSize (req : RequestView) : Nat :=
  viewSlot + byteLen req.method + byteLen req.path + byteLen req.urlPath +
    byteLen req.protocol + byteLen req.scheme + byteLen req.host +
    byteLen req.sourceAddr + headersSize req.headers + req.body.length

/-- The memory cap, the request and the configuration together. -/
def budget (store : Instance maxMemoryBytes) : Nat :=
  maxMemoryBytes + requestSize store.host.req + store.host.config.length

theorem byteLen_le_headersSize
    {headers : List (Text × Text)} {header : Text × Text}
    (member : header ∈ headers) : byteLen header.2 ≤ headersSize headers := by
  have part := List.single_le_sum (fun _ _ => Nat.zero_le _) _
    (List.mem_map_of_mem (f := fun header : Text × Text =>
      pairSlot + byteLen header.1 + byteLen header.2) member)
  rw [headersSize]
  omega

theorem length_encodePairs (pairs : List (Bytes × Bytes)) :
    (encodePairs pairs).length =
      4 + (pairs.map fun pair =>
        10 + pair.1.length + pair.2.length).sum := by
  rw [encodePairs, List.length_append, List.length_append, length_leBytes]
  congr 1
  induction pairs with
  | nil => rfl
  | cons pair rest induction =>
      rw [List.flatMap_cons, List.flatMap_cons, List.length_append,
        List.length_append, List.map_cons, List.sum_cons, ← induction]
      simp only [encodeSizes, encodeData, List.length_append, length_leBytes,
        List.length_cons, List.length_nil]
      omega

/-- The encoded headers are no larger than the request. -/
theorem length_encodeHeaderMapPairs_le (req : RequestView) :
    (encodeHeaderMapPairs req.headers).length ≤ requestSize req := by
  have pairs : ∀ headers : List (Text × Text),
      ((pairBytes headers).map fun pair =>
        10 + pair.1.length + pair.2.length).sum ≤ headersSize headers := by
    intro headers
    induction headers with
    | nil => exact Nat.zero_le _
    | cons header rest induction =>
        simp only [pairBytes, List.map_cons, List.sum_cons, headersSize,
          byteLen, pairSlot] at induction ⊢
        omega
  have bound := pairs req.headers
  rw [encodeHeaderMapPairs, length_encodePairs, requestSize, viewSlot]
  omega

theorem length_slice_le (buffer : Bytes) (start maxSize : BitVec 32) :
    (slice buffer start maxSize).length ≤ buffer.length := by
  rw [slice]
  split_ifs
  · exact Nat.zero_le _
  · rw [List.length_take, List.length_drop]
    omega

theorem length_sourceBuffer_le
    {store : Instance maxMemoryBytes} {bufferType : BitVec 32}
    {buffer : Bytes}
    (found : sourceBuffer store.host bufferType = some buffer) :
    buffer.length ≤ budget store := by
  rw [sourceBuffer] at found
  rw [budget, requestSize]
  split_ifs at found
  all_goals
    cases found
  · omega
  · omega
  · exact Nat.zero_le _

theorem byteLen_toAsciiLowercase (text : Text) :
    byteLen (toAsciiLowercase text) = byteLen text := by
  induction text with
  | nil => rfl
  | cons head tail induction =>
      rw [byteLen, toAsciiLowercase] at induction
      rw [byteLen, toAsciiLowercase, List.map_cons, asBytes_cons,
        List.length_append, induction, byteLen, byteLen, asBytes_cons,
        List.length_append]
      congr 1
      rw [Char.toLower]
      split
      · rename_i upper
        have high : head.val.toNat ≤ 90 := UInt32.le_iff_toNat_le.mp upper.2
        have ascii : head.toNat < 0x80 := Nat.lt_of_le_of_lt high (by decide)
        rw [utf8EncodeChar_ascii ascii, utf8EncodeChar_ascii]
        · rfl
        · change (head.val + 32).toNat < 0x80
          rw [UInt32.toNat_add, Nat.mod_eq_of_lt]
          · exact Nat.lt_of_le_of_lt (Nat.add_le_add_right high 32)
              (by decide)
          · exact Nat.lt_of_le_of_lt (Nat.add_le_add_right high 32)
              (by decide)
      · rfl

/-! ## Property paths -/

/-- The parts of a split text are no longer than the text. -/
theorem sum_length_splitOnP_le {α : Type} (stops : α → Bool) (items : List α) :
    ((items.splitOnP stops).map List.length).sum ≤ items.length := by
  induction items with
  | nil => exact Nat.zero_le _
  | cons head tail induction =>
      rw [List.splitOnP_cons_eq_if_modifyHead]
      split_ifs
      · simpa using Nat.le_succ_of_le induction
      · cases parts : tail.splitOnP stops with
        | nil => exact Nat.zero_le _
        | cons part rest =>
            rw [parts] at induction
            simp only [List.modifyHead_cons, List.map_cons, List.sum_cons,
              List.length_cons] at induction ⊢
            omega

theorem length_segment_le
    {path segment : Bytes} (member : segment ∈ propertySegments path) :
    segment.length ≤ path.length := by
  have inside := List.mem_of_mem_filter member
  have part := List.single_le_sum (fun _ _ => Nat.zero_le _) _
    (List.mem_map_of_mem (f := List.length) inside)
  exact part.trans (sum_length_splitOnP_le _ path)

/-- Every segment takes a byte. -/
theorem length_propertySegments_le (path : Bytes) :
    (propertySegments path).length ≤ path.length := by
  have counted : ∀ parts : List Bytes,
      (parts.filter fun part => !part.isEmpty).length ≤
        (parts.map List.length).sum := by
    intro parts
    induction parts with
    | nil => exact Nat.zero_le _
    | cons part rest induction =>
        rw [List.filter_cons, List.map_cons, List.sum_cons]
        split_ifs with filled
        · cases part with
          | nil => cases filled
          | cons byte bytes =>
              rw [List.length_cons, List.length_cons]
              omega
        · omega
  exact (counted _).trans (sum_length_splitOnP_le _ path)

/-! ## Buffers of the parts -/

section Parts

variable {bound : Nat}

theorem within_read_iff
    {memory : GuestMemory maxMemoryBytes} {ptr length : Nat} :
    (memory.read ptr length).Within bound ↔ length ≤ bound := by
  rw [GuestMemory.read, Allocating.within_bind_iff,
    Allocating.within_allocate_iff, and_iff_left_iff_imp]
  intro _ _ _
  split_ifs <;> simp

/-- What is read lies within the memory. -/
theorem read_eq_ok_iff
    {memory : GuestMemory maxMemoryBytes} {ptr length : Nat} {bytes : Bytes} :
    (memory.read ptr length).result = .ok bytes ↔
      memory.InBounds ptr length ∧
        (memory.bytes.drop ptr).take length = bytes := by
  rw [GuestMemory.read, Allocating.bind_eq_ok_iff]
  by_cases inside : memory.InBounds ptr length
  · simp [inside, Allocating.allocate]
  · simp [inside, Allocating.allocate, Allocating.fail]

/-- A range out of bounds is allocated all the same. -/
theorem read_of_outside
    {memory : GuestMemory maxMemoryBytes} {ptr length : Nat}
    (outside : ¬ memory.InBounds ptr length) :
    memory.read ptr length = ⟨.error outOfBounds, [length]⟩ := by
  rw [GuestMemory.read, if_neg outside]
  rfl

theorem length_of_read
    {memory : GuestMemory maxMemoryBytes} {ptr length : Nat} {bytes : Bytes}
    (read : (memory.read ptr length).result = .ok bytes) :
    bytes.length ≤ maxMemoryBytes := by
  obtain ⟨-, rfl⟩ := read_eq_ok_iff.mp read
  have capped := memory.capped
  rw [List.length_take, List.length_drop]
  omega

/-- Beyond the copy itself a read leads to what its bytes lead to. -/
theorem within_read_bind_iff
    {α : Type} {memory : GuestMemory maxMemoryBytes} {ptr length : Nat}
    {next : Bytes → Allocating Text α}
    (small : ∀ bytes : Bytes, bytes.length ≤ maxMemoryBytes →
      (next bytes).Within bound) :
    (memory.read ptr length >>= next).Within bound ↔ length ≤ bound := by
  rw [Allocating.within_bind_iff, within_read_iff, and_iff_left_iff_imp]
  intro _ bytes read
  exact small bytes (length_of_read read)

theorem within_copyText_iff {text : Text} :
    (copyText text).Within bound ↔ byteLen text ≤ bound := by
  simp [copyText, Allocating.within_bind_iff]

theorem copyText_eq_ok_iff {text copied : Text} :
    (copyText text).result = .ok copied ↔ text = copied := by
  change Except.ok text = Except.ok copied ↔ _
  rw [Except.ok.injEq]

theorem within_decodeLossy
    {bytes : Bytes} (small : 3 * bytes.length ≤ bound) :
    (decodeLossy bytes).Within bound := by
  have decoded := (byteLen_fromUtf8Lossy_le bytes).trans small
  rw [decodeLossy]
  split_ifs
  · simpa [Allocating.within_bind_iff] using decoded
  · simp

theorem decodeLossy_eq_ok_iff {bytes : Bytes} {text : Text} :
    (decodeLossy bytes).result = .ok text ↔ fromUtf8Lossy bytes = text := by
  rw [decodeLossy]
  split_ifs
  · change Except.ok (fromUtf8Lossy bytes) = Except.ok text ↔ _
    rw [Except.ok.injEq]
  · simp

theorem within_headerValue_iff
    {headers : List (Text × Text)} {name : Text} :
    (headerValue headers name).Within bound ↔ byteLen name ≤ bound := by
  simp [headerValue, Allocating.within_bind_iff, within_copyText_iff,
    byteLen_toAsciiLowercase]

/-- A value that is found is one of a header. -/
theorem byteLen_of_headerValue
    {headers : List (Text × Text)} {name value : Text}
    (found : (headerValue headers name).result = .ok (some value)) :
    byteLen value ≤ headersSize headers := by
  rw [headerValue, Allocating.bind_eq_ok_iff] at found
  obtain ⟨lowered, -, same⟩ := found
  have mapped : (headers.find? fun header => header.1 == lowered).map
      Prod.snd = some value := Except.ok.inj same
  obtain ⟨header, matched, rfl⟩ := Option.map_eq_some_iff.mp mapped
  exact byteLen_le_headersSize (List.mem_of_find?_eq_some matched)

theorem within_returnBuffer
    {store : Instance maxMemoryBytes} {data : Bytes}
    {retPtr retSize : BitVec 32} :
    (returnBuffer store data retPtr retSize).Within bound :=
  Allocating.within_ofExcept bound _

theorem byteLen_of_requestProperties
    {req : RequestView} {names : List Text} {value : Text}
    (found : (requestProperties req).lookup names = some value) :
    byteLen value ≤ requestSize req := by
  obtain ⟨before, after, split, -⟩ := List.lookup_eq_some_iff.mp found
  have member : (names, value) ∈ requestProperties req := by
    rw [split]
    simp
  simp only [requestProperties, List.mem_cons, Prod.mk.injEq,
    List.not_mem_nil, or_false] at member
  rw [requestSize]
  rcases member with ⟨-, rfl⟩ | ⟨-, rfl⟩ | ⟨-, rfl⟩ | ⟨-, rfl⟩ | ⟨-, rfl⟩ |
    ⟨-, rfl⟩ | ⟨-, rfl⟩ <;> omega

/-- The name of a header stands in the path. -/
theorem byteLen_of_headerName
    {path : Bytes} {name : Text}
    (named : headerName ((propertySegments path).filterMap fromUtf8) =
      some name) : byteLen name ≤ path.length := by
  have member : name ∈ (propertySegments path).filterMap fromUtf8 := by
    generalize (propertySegments path).filterMap fromUtf8 = names at named ⊢
    unfold headerName at named
    split at named
    · split_ifs at named
      cases named
      simp
    · cases named
  obtain ⟨segment, inside, decoded⟩ := List.mem_filterMap.mp member
  rw [byteLen, asBytes_of_fromUtf8 decoded]
  exact length_segment_le inside

theorem within_resolveProperty
    {path : Bytes} {req : RequestView} (short : 16 * path.length ≤ bound)
    (small : requestSize req ≤ bound) :
    (resolveProperty path req).Within bound := by
  have segments := length_propertySegments_le path
  have names := List.length_filterMap_le fromUtf8 (propertySegments path)
  have headers : headersSize req.headers ≤ requestSize req := by
    rw [requestSize]
    omega
  rw [resolveProperty, Allocating.within_bind_iff,
    Allocating.within_allocate_iff, sliceSlot]
  refine ⟨by omega, fun _ _ => ?_⟩
  rw [Allocating.within_bind_iff, Allocating.within_allocate_iff]
  refine ⟨by omega, fun _ _ => ?_⟩
  cases found : (requestProperties req).lookup
      ((propertySegments path).filterMap fromUtf8) with
  | some value =>
      have value := byteLen_of_requestProperties found
      simp only [Allocating.within_bind_iff, within_copyText_iff,
        Allocating.within_pure, implies_true, and_true]
      omega
  | none =>
      cases named : headerName
          ((propertySegments path).filterMap fromUtf8) with
      | none => exact Allocating.within_pure _ _
      | some name =>
          have name := byteLen_of_headerName named
          dsimp only
          rw [Allocating.within_bind_iff, within_headerValue_iff]
          refine ⟨by omega, fun value found => ?_⟩
          cases value with
          | none => exact Allocating.within_pure _ _
          | some value =>
              have value := byteLen_of_headerValue found
              simp only [Allocating.within_bind_iff, within_copyText_iff,
                Allocating.within_pure, implies_true, and_true]
              omega

end Parts

/-! ## Buffers of the calls -/

section Calls

variable {bound : Nat} {store : Instance maxMemoryBytes}

/-- Without a memory nothing is read, and nothing allocated for it. -/
theorem within_memOf_bind_of_none
    {α : Type} (absent : store.memory = none)
    (next : GuestMemory maxMemoryBytes → Allocating Text α) :
    (memOf store >>= next).Within bound := by
  rw [memOf, absent]
  exact Allocating.within_fail bound _

theorem memOf_bind_of_some
    {α : Type} {memory : GuestMemory maxMemoryBytes}
    (stored : store.memory = some memory)
    (next : GuestMemory maxMemoryBytes → Allocating Text α) :
    (memOf store >>= next) = next memory := by
  rw [memOf, stored]
  exact Allocating.pure_bind memory next

theorem within_proxyLog_iff
    {memory : GuestMemory maxMemoryBytes} (stored : store.memory = some memory)
    (large : 16 * budget store ≤ bound) {ptr size : BitVec 32} :
    (proxyLog store ptr size).Within bound ↔ size.toNat ≤ bound := by
  rw [budget] at large
  rw [proxyLog, memOf_bind_of_some stored]
  apply within_read_bind_iff
  intro bytes small
  rw [Allocating.within_bind_iff]
  exact ⟨within_decodeLossy (by omega), fun _ _ => Allocating.within_pure _ _⟩

/-- A message out of bounds has its buffer all the same. -/
theorem buffers_proxyLog_of_outside
    {memory : GuestMemory maxMemoryBytes} (stored : store.memory = some memory)
    {ptr size : BitVec 32}
    (outside : ¬ memory.InBounds ptr.toNat size.toNat) :
    (proxyLog store ptr size).buffers = [size.toNat] := by
  rw [proxyLog, memOf_bind_of_some stored, read_of_outside outside]
  rfl

theorem within_proxyGetBufferBytes
    (large : 16 * budget store ≤ bound)
    {bufferType start maxSize retPtr retSize : BitVec 32} :
    (proxyGetBufferBytes store bufferType start maxSize retPtr
      retSize).Within bound := by
  rw [proxyGetBufferBytes]
  cases found : sourceBuffer store.host bufferType with
  | none => exact Allocating.within_pure _ _
  | some buffer =>
      have source := length_sourceBuffer_le found
      have copied := length_slice_le buffer start maxSize
      dsimp only
      rw [Allocating.within_bind_iff, Allocating.within_allocate_iff]
      exact ⟨by omega, fun _ _ => within_returnBuffer⟩

theorem within_proxyGetHeaderMapPairs
    (large : 16 * budget store ≤ bound) {mapType retPtr retSize : BitVec 32} :
    (proxyGetHeaderMapPairs store mapType retPtr retSize).Within bound := by
  have encoded := length_encodeHeaderMapPairs_le store.host.req
  rw [budget] at large
  rw [proxyGetHeaderMapPairs]
  split_ifs
  · rw [Allocating.within_bind_iff, Allocating.within_allocate_iff]
    exact ⟨by omega, fun _ _ => within_returnBuffer⟩
  · exact Allocating.within_pure _ _

theorem within_proxyGetHeaderMapValue_iff
    {memory : GuestMemory maxMemoryBytes} (stored : store.memory = some memory)
    (large : 16 * budget store ≤ bound)
    {keyPtr keySize retPtr retSize : BitVec 32} :
    (proxyGetHeaderMapValue store 0 keyPtr keySize retPtr
      retSize).Within bound ↔ keySize.toNat ≤ bound := by
  rw [budget] at large
  have headers : headersSize store.host.req.headers ≤
      requestSize store.host.req := by
    rw [requestSize]
    omega
  rw [proxyGetHeaderMapValue, if_neg (not_not.mpr rfl),
    memOf_bind_of_some stored]
  apply within_read_bind_iff
  intro bytes small
  have decoded := byteLen_fromUtf8Lossy_le bytes
  rw [Allocating.within_bind_iff]
  refine ⟨within_decodeLossy (by omega), fun text lossy => ?_⟩
  rw [← decodeLossy_eq_ok_iff.mp lossy, Allocating.within_bind_iff,
    within_copyText_iff]
  refine ⟨by omega, fun key copied => ?_⟩
  rw [← copyText_eq_ok_iff.mp copied, Allocating.within_bind_iff,
    within_headerValue_iff]
  refine ⟨by omega, fun value found => ?_⟩
  cases value with
  | none => exact Allocating.within_pure _ _
  | some value =>
      have value := byteLen_of_headerValue found
      dsimp only
      rw [Allocating.within_bind_iff, within_copyText_iff]
      exact ⟨by omega, fun _ _ => within_returnBuffer⟩

theorem within_proxyGetProperty_iff
    {memory : GuestMemory maxMemoryBytes} (stored : store.memory = some memory)
    (large : 16 * budget store ≤ bound)
    {pathPtr pathSize retPtr retSize : BitVec 32} :
    (proxyGetProperty store pathPtr pathSize retPtr retSize).Within bound ↔
      pathSize.toNat ≤ bound := by
  rw [budget] at large
  rw [proxyGetProperty, memOf_bind_of_some stored]
  apply within_read_bind_iff
  intro path small
  rw [Allocating.within_bind_iff]
  refine ⟨within_resolveProperty (by omega) (by omega), fun value _ => ?_⟩
  cases value with
  | none => exact Allocating.within_pure _ _
  | some value => exact within_returnBuffer

theorem within_readDetail_iff
    {memory : GuestMemory maxMemoryBytes}
    (large : 16 * maxMemoryBytes ≤ bound) {ptr size : BitVec 32} :
    (readDetail memory ptr size).Within bound ↔
      (0 < size.toInt → size.toNat ≤ bound) := by
  rw [readDetail]
  split_ifs with positive
  · rw [within_read_bind_iff]
    · exact (imp_iff_right positive).symm
    · intro bytes small
      have decoded := byteLen_fromUtf8Lossy_le bytes
      rw [Allocating.within_bind_iff]
      refine ⟨within_decodeLossy (by omega), fun text lossy => ?_⟩
      rw [← decodeLossy_eq_ok_iff.mp lossy, Allocating.within_bind_iff,
        within_copyText_iff]
      exact ⟨by omega, fun _ _ => Allocating.within_pure _ _⟩
  · exact iff_of_true (Allocating.within_pure _ _)
      fun absurdly => absurd absurdly positive

/-- The body is read once the detail is. -/
theorem exists_readDetail_iff
    {memory : GuestMemory maxMemoryBytes} {ptr size : BitVec 32} :
    (∃ detail, (readDetail memory ptr size).result = .ok detail) ↔
      (0 < size.toInt → memory.InBounds ptr.toNat size.toNat) := by
  rw [readDetail]
  split_ifs with positive
  · rw [imp_iff_right positive]
    constructor
    · rintro ⟨detail, done⟩
      rw [Allocating.bind_eq_ok_iff] at done
      obtain ⟨bytes, read, -⟩ := done
      exact (read_eq_ok_iff.mp read).1
    · intro inside
      refine ⟨(memory.bytes.drop ptr.toNat).take size.toNat,
        Allocating.bind_eq_ok_iff.mpr
          ⟨_, read_eq_ok_iff.mpr ⟨inside, rfl⟩, ?_⟩⟩
      rw [Allocating.bind_eq_ok_iff]
      refine ⟨_, decodeLossy_eq_ok_iff.mpr rfl, ?_⟩
      rw [Allocating.bind_eq_ok_iff]
      exact ⟨_, copyText_eq_ok_iff.mpr rfl, rfl⟩
  · exact iff_of_true ⟨[], rfl⟩ fun absurdly => absurd absurdly positive

theorem within_readBody_iff
    {memory : GuestMemory maxMemoryBytes} {ptr size : BitVec 32} :
    (readBody memory ptr size).Within bound ↔
      (0 < size.toInt → size.toNat ≤ bound) := by
  rw [readBody]
  split_ifs with positive
  · rw [within_read_iff, imp_iff_right positive]
  · exact iff_of_true (Allocating.within_pure _ _)
      fun absurdly => absurd absurdly positive

theorem within_proxySendLocalResponse_iff
    {memory : GuestMemory maxMemoryBytes} (stored : store.memory = some memory)
    (large : 16 * budget store ≤ bound)
    {status detailPtr detailSize bodyPtr bodySize : BitVec 32} :
    (proxySendLocalResponse store status detailPtr detailSize bodyPtr
      bodySize).Within bound ↔
      (0 < detailSize.toInt → detailSize.toNat ≤ bound) ∧
        ((0 < detailSize.toInt →
            memory.InBounds detailPtr.toNat detailSize.toNat) →
          0 < bodySize.toInt → bodySize.toNat ≤ bound) := by
  rw [budget] at large
  rw [proxySendLocalResponse, memOf_bind_of_some stored,
    Allocating.within_bind_iff, within_readDetail_iff (by omega),
    ← exists_readDetail_iff, exists_imp]
  apply and_congr_right
  intro _
  apply forall_congr'
  intro detail
  apply imp_congr_right
  intro _
  rw [Allocating.within_bind_iff, within_readBody_iff,
    and_iff_left (fun _ _ => Allocating.within_pure _ _)]

end Calls

/-! ## Sequences of host calls -/

/-- The lengths that a call asks `memory::read` for. -/
def requestedLengths (store : Instance maxMemoryBytes) (call : HostCall) :
    List Nat :=
  match store.memory, call with
  | none, _ => []
  | some _, .log _ _ size => [size.toNat]
  | some _, .getBufferBytes _ _ _ _ _ => []
  | some _, .getHeaderMapPairs _ _ _ => []
  | some _, .getHeaderMapValue mapType _ keySize _ _ =>
      if mapType = 0 then [keySize.toNat] else []
  | some _, .getProperty _ pathSize _ _ => [pathSize.toNat]
  | some memory, .sendLocalResponse _ detailPtr detailSize _ bodySize _ _ _ =>
      (if 0 < detailSize.toInt then [detailSize.toNat] else []) ++
        -- The body is not read after a detail out of bounds.
        if 0 < bodySize.toInt ∧ (0 < detailSize.toInt →
            memory.InBounds detailPtr.toNat detailSize.toNat) then
          [bodySize.toNat]
        else []

/-- A call stays within a bound exactly if the lengths it asks for do. -/
theorem within_serve_iff
    {bound : Nat} {store : Instance maxMemoryBytes}
    (large : 16 * budget store ≤ bound) (call : HostCall) :
    (serve store call).Within bound ↔
      ∀ length ∈ requestedLengths store call, length ≤ bound := by
  cases stored : store.memory with
  | none =>
      have none : requestedLengths store call = [] := by
        simp only [requestedLengths, stored]
      rw [none]
      refine iff_of_true ?_ (List.forall_mem_nil _)
      cases call with
      | log => exact within_memOf_bind_of_none stored _
      | getBufferBytes => exact within_proxyGetBufferBytes large
      | getHeaderMapPairs => exact within_proxyGetHeaderMapPairs large
      | getHeaderMapValue =>
          rw [serve, proxyGetHeaderMapValue]
          split_ifs
          · exact Allocating.within_pure _ _
          · exact within_memOf_bind_of_none stored _
      | getProperty => exact within_memOf_bind_of_none stored _
      | sendLocalResponse => exact within_memOf_bind_of_none stored _
  | some memory =>
      cases call with
      | log level ptr size =>
          simp only [serve, within_proxyLog_iff stored large,
            requestedLengths, stored, List.forall_mem_singleton]
      | getBufferBytes =>
          simp only [requestedLengths, stored]
          exact iff_of_true (within_proxyGetBufferBytes large)
            (List.forall_mem_nil _)
      | getHeaderMapPairs =>
          simp only [requestedLengths, stored]
          exact iff_of_true (within_proxyGetHeaderMapPairs large)
            (List.forall_mem_nil _)
      | getHeaderMapValue mapType keyPtr keySize retPtr retSize =>
          simp only [serve, requestedLengths, stored]
          by_cases headers : mapType = 0
          · subst headers
            rw [within_proxyGetHeaderMapValue_iff stored large]
            simp
          · rw [if_neg headers, proxyGetHeaderMapValue, if_pos headers]
            exact iff_of_true (Allocating.within_pure _ _)
              (List.forall_mem_nil _)
      | getProperty pathPtr pathSize retPtr retSize =>
          simp only [serve, within_proxyGetProperty_iff stored large,
            requestedLengths, stored, List.forall_mem_singleton]
      | sendLocalResponse status detailPtr detailSize bodyPtr bodySize =>
          simp only [serve, within_proxySendLocalResponse_iff stored large,
            requestedLengths, stored, List.forall_mem_append]
          apply and_congr
          · split_ifs with positive <;> simp [positive]
          · split_ifs with read
            · rw [List.forall_mem_singleton, imp_iff_right read.2,
                imp_iff_right read.1]
            · refine iff_of_true ?_ (List.forall_mem_nil _)
              intro inside positive
              exact absurd ⟨positive, inside⟩ read

/--
A host call of a guest: what the guest has made of its memory and allocator
since the last one, the next request if the driver has begun it, and the call.
-/
structure Turn (maxMemoryBytes : Nat) where
  memory : Option (GuestMemory maxMemoryBytes)
  alloc : Option (Allocator maxMemoryBytes)
  next : Option (RequestView × Text)
  call : HostCall

/-- The store as the call finds it. -/
def Turn.store (turn : Turn maxMemoryBytes) (host : HostState) :
    Instance maxMemoryBytes :=
  ⟨turn.memory, turn.alloc,
    match turn.next with
    | some (req, requestId) => host.resetFor req requestId
    | none => host⟩

/-- The host state after the call; a call that fails leaves it. -/
def Turn.after (host : HostState) (turn : Turn maxMemoryBytes) :
    Option HostState :=
  match (serve (turn.store host) turn.call).result with
  | .ok (_, served) => some served.host
  | .error _ => some (turn.store host).host

/-- Every buffer of the call is within a factor of the budget. -/
def AllocatesWithin (factor : Nat) (host : HostState)
    (turn : Turn maxMemoryBytes) : Prop :=
  (serve (turn.store host) turn.call).Within
    (factor * budget (turn.store host))

/-- Every length that the call asks for is within a factor of the budget. -/
def AsksWithin (factor : Nat) (host : HostState)
    (turn : Turn maxMemoryBytes) : Prop :=
  ∀ length ∈ requestedLengths (turn.store host) turn.call,
    length ≤ factor * budget (turn.store host)

theorem allocatesWithin_iff
    {factor : Nat} (enough : 16 ≤ factor) (host : HostState)
    (turn : Turn maxMemoryBytes) :
    AllocatesWithin factor host turn ↔ AsksWithin factor host turn :=
  within_serve_iff (Nat.mul_le_mul_right _ enough) turn.call

/--
Along every sequence of host calls of every guest, every buffer is within a
constant factor of the cap, the request and the configuration if and only if
every length that a call asks for is.
-/
theorem throughout_allocatesWithin_iff
    {factor : Nat} (enough : 16 ≤ factor) (host : HostState)
    (turns : List (Turn maxMemoryBytes)) :
    Machine.Throughout Turn.after (AllocatesWithin factor) host turns ↔
      Machine.Throughout Turn.after (AsksWithin factor) host turns := by
  constructor
  · exact Machine.Throughout.imp fun host turn =>
      (allocatesWithin_iff enough host turn).mp
  · exact Machine.Throughout.imp fun host turn =>
      (allocatesWithin_iff enough host turn).mpr

/-- A page of memory. -/
def onePage : GuestMemory 65536 :=
  ⟨List.replicate 65536 0, by rw [List.length_replicate]⟩

/-- A log call with a range of the given size. -/
def logTurn (size : BitVec 32) : Turn 65536 :=
  ⟨some onePage, none, none, .log 2 0 size⟩

/-- A message that takes the whole memory. -/
theorem allocatesWithin_wholeMemory :
    Machine.Throughout Turn.after (AllocatesWithin 16) {}
      [logTurn 65536] := by
  refine (throughout_allocatesWithin_iff le_rfl _ _).mpr ?_
  refine ⟨?_, fun _ _ => trivial⟩
  intro length member
  rw [List.mem_singleton.mp member]
  decide

/-- A log call of one page asks for four gigabytes, and they are allocated. -/
theorem not_allocatesWithin_log :
    (serve ((logTurn (-1)).store {}) (logTurn (-1)).call).buffers =
        [2 ^ 32 - 1] ∧
      ¬ ∃ factor, factor < 65000 ∧
        Machine.Throughout Turn.after (AllocatesWithin factor) {}
          [logTurn (-1)] := by
  have all : (serve ((logTurn (-1)).store {}) (logTurn (-1)).call).buffers =
      [2 ^ 32 - 1] := by
    have outside : ¬ onePage.InBounds (0 : BitVec 32).toNat
        (-1 : BitVec 32).toNat := by
      rw [GuestMemory.InBounds, onePage, List.length_replicate]
      decide
    exact buffers_proxyLog_of_outside rfl outside
  refine ⟨all, ?_⟩
  rintro ⟨factor, small, throughout⟩
  have bounded := throughout.1 (2 ^ 32 - 1) (by rw [all]; simp)
  have budgeted : budget ((logTurn (-1)).store {}) = 65760 := by decide
  rw [budgeted] at bounded
  omega

end LightWaf.Wasm.HostCalls
