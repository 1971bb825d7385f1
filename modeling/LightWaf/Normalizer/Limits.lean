import LightWaf.Normalizer.JsonTree
import LightWaf.Normalizer.Normalize

/-!
# Limits and failure

`Normalizer::normalize` works on the context in place.  It writes only after
its last check, so a failed call leaves the context as it was.  A successful
one has every limit enforced, except that cookies are counted per header line
and not per request.
-/

namespace LightWaf.Normalizer

open LightWaf.Rust
open LightWaf.Core

/-! ## The context in place -/

theorem run_get_bind
    {σ ε α : Type} (rest : σ → ExceptT ε (StateM σ) α) (state : σ) :
    (get >>= rest).run.run state = (rest state).run.run state :=
  rfl

/-- A check that fails leaves the state as it is. -/
theorem run_liftExcept_bind
    {σ ε α β : Type} (first : Except ε α) (rest : α → ExceptT ε (StateM σ) β)
    (state : σ) :
    (liftExcept first >>= rest).run.run state =
      match first with
      | .ok value => (rest value).run.run state
      | .error error => (.error error, state) := by
  cases first <;> rfl

section Context

variable (unicode : UnicodeTables) (serde : SerdeJson)

/-- `Normalizer::normalize` with the context as the state. -/
def normalizeContext (limits : LimitsConfig) :
    ExceptT NormalizationError (StateM RequestContext) Unit := do
  let ctx ← get
  liftExcept (checkLimits limits ctx)
  let headers := normalizeHeaders unicode ctx.headers
  let (cookies, cookieDouble) ←
    liftExcept (normalizeCookies unicode limits headers)
  let (path, pathDouble, nullByte) := normalizePath unicode ctx.rawPath
  let query ← liftExcept (normalizeQuery unicode limits ctx.query)
  let contentType := firstHeader headers "content-type".toList
  let body ← liftExcept (parseBody unicode serde contentType ctx.body limits)
  modify fun ctx => { ctx with normalized := { ctx.normalized with
    path := path
    query := ctx.query
    queryParams := query.params
    cookies := cookies
    headers := headers
    body := body
    doubleEncodingDetected :=
      pathDouble || query.doubleEncoding || cookieDouble
    nullByteDetected := nullByte
    derivedDecoded :=
      pathDerived unicode ctx.rawPath ++ query.derived ++
        bodyDerived unicode contentType body ++
        headerDerived unicode headers } }

/-- Run the normalizer on a context: its result, and the context after. -/
def runNormalizer (limits : LimitsConfig) (ctx : RequestContext) :
    Except NormalizationError Unit × RequestContext :=
  (normalizeContext unicode serde limits).run.run ctx

/-- The context is written once and only on success. -/
theorem runNormalizer_eq (limits : LimitsConfig) (ctx : RequestContext) :
    runNormalizer unicode serde limits ctx =
      match normalize unicode serde limits ctx with
      | .ok normalized => (.ok (), { ctx with normalized := normalized })
      | .error error => (.error error, ctx) := by
  rw [runNormalizer, normalizeContext, normalize, run_get_bind,
    run_liftExcept_bind]
  cases checkLimits limits ctx with
  | error error => rfl
  | ok _ =>
      dsimp only
      rw [run_liftExcept_bind]
      cases normalizeCookies unicode limits
          (normalizeHeaders unicode ctx.headers) with
      | error error => rfl
      | ok cookies =>
          dsimp only
          rw [run_liftExcept_bind]
          cases normalizeQuery unicode limits ctx.query with
          | error error => rfl
          | ok query =>
              dsimp only
              rw [run_liftExcept_bind]
              cases parseBody unicode serde _ ctx.body limits with
              | error error => rfl
              | ok body => rfl

end Context

/-! ## Counting -/

theorem checkHeaderSizes_ok
    {limit : Nat} {headers : List HeaderLine}
    (checked : checkHeaderSizes limit headers = .ok ()) :
    ∀ header ∈ headers, byteLen header.2 ≤ limit := by
  induction headers with
  | nil => exact List.forall_mem_nil _
  | cons header headers induction =>
      rw [checkHeaderSizes] at checked
      split_ifs at checked with large
      exact List.forall_mem_cons.mpr ⟨Nat.not_lt.mp large, induction checked⟩

theorem checkLimits_ok
    {limits : LimitsConfig} {ctx : RequestContext}
    (checked : checkLimits limits ctx = .ok ()) :
    ctx.body.length ≤ limits.maxBodySize ∧
      ctx.headers.length ≤ limits.maxHeaders ∧
      ∀ header ∈ ctx.headers, byteLen header.2 ≤ limits.maxHeaderSize := by
  unfold checkLimits at checked
  split_ifs at checked with body headers
  exact ⟨Nat.not_lt.mp body, Nat.not_lt.mp headers,
    checkHeaderSizes_ok checked⟩

/-- The pairs of one cookie header: its pieces with something in them. -/
def linePairs (value : Text) : Nat :=
  ((value.splitOn ';').filter fun piece => !(trim piece).isEmpty).length

/-- The pairs of all cookie headers of a request together. -/
def cookiePairs (unicode : UnicodeTables) (headers : List HeaderLine) : Nat :=
  (((normalizeHeaders unicode headers).filter fun header =>
    header.1 == "cookie".toList).map fun header => linePairs header.2).sum

theorem cookieStep_length
    {maxCookies : Nat} {cookies next : List (Text × Text)} {pair : Text}
    (stepped : cookieStep maxCookies cookies pair = .ok next) :
    next.length =
      cookies.length + ([pair].filter fun piece =>
        !(trim piece).isEmpty).length := by
  unfold cookieStep at stepped
  dsimp only at stepped
  by_cases empty : trim pair = []
  · rw [if_pos empty] at stepped
    cases stepped
    simp [empty]
  · rw [if_neg empty] at stepped
    split_ifs at stepped with full
    split at stepped <;> cases stepped <;> simp [empty]

theorem parseCookiesLimited_length
    {value : Text} {maxCookies : Nat} {cookies : List (Text × Text)}
    (parsed : parseCookiesLimited value maxCookies = .ok cookies) :
    cookies.length = linePairs value := by
  refine @foldlM_ok_induction _ _ _ _ (fun read cookies =>
    cookies.length = (read.filter fun piece =>
      !(trim piece).isEmpty).length) ?_ _ _ _ rfl parsed
  intro read state pair next length stepped
  rw [cookieStep_length stepped, length, List.filter_append,
    List.length_append]

section Unicode

variable (unicode : UnicodeTables)

theorem normalizeCookies_length
    {limits : LimitsConfig} {headers : List HeaderLine}
    {cookies : List (Text × Text)} {double : Bool}
    (parsed : normalizeCookies unicode limits headers = .ok (cookies, double)) :
    cookies.length = ((headers.filter fun header =>
      header.1 == "cookie".toList).map fun header =>
        linePairs header.2).sum := by
  induction headers generalizing cookies double with
  | nil =>
      cases parsed
      rfl
  | cons header headers induction =>
      obtain ⟨name, value⟩ := header
      rw [normalizeCookies] at parsed
      by_cases cookie : name = "cookie".toList
      · rw [if_pos cookie] at parsed
        obtain ⟨raw, line, parsed⟩ := ok_of_bind_ok parsed
        obtain ⟨⟨others, flag⟩, later, filled⟩ := ok_of_bind_ok parsed
        cases filled
        rw [List.length_append, List.length_map, List.length_map,
          induction later, parseCookiesLimited_length line,
          List.filter_cons, if_pos (beq_iff_eq.mpr cookie), List.map_cons,
          List.sum_cons]
      · rw [if_neg cookie] at parsed
        obtain ⟨raw, line, parsed⟩ := ok_of_bind_ok parsed
        obtain ⟨⟨others, flag⟩, later, filled⟩ := ok_of_bind_ok parsed
        cases line
        cases filled
        rw [List.filter_cons, if_neg fun same => cookie (beq_iff_eq.mp same)]
        exact induction later

theorem parseQuery_length
    {query : Text} {limits : LimitsConfig} {parsed : ParsedQuery}
    (done : parseQuery unicode query limits = .ok parsed) :
    parsed.params.length ≤ limits.maxParams := by
  refine @foldlM_ok_induction _ _ _ _ (fun _ parsed =>
    parsed.params.length ≤ limits.maxParams) ?_ _ _ _ (Nat.zero_le _) done
  intro read state pair next length stepped
  unfold queryStep at stepped
  split_ifs at stepped with empty full
  · cases stepped
    exact length
  · cases stepped
    rw [List.length_append]
    exact Nat.not_le.mp full

theorem formParams_length
    {pieces : List Text} {limits : LimitsConfig} {params : List (Text × Text)}
    (done : pieces.foldlM (formStep unicode limits) [] = .ok params) :
    params.length ≤ limits.maxParams := by
  refine @foldlM_ok_induction _ _ _ _ (fun _ params =>
    params.length ≤ limits.maxParams) ?_ _ _ _ (Nat.zero_le _) done
  intro read state pair next length stepped
  unfold formStep at stepped
  split_ifs at stepped with empty full
  · cases stepped
    exact length
  · cases stepped
    rw [List.length_append]
    exact Nat.not_le.mp full

/-- What the limits promise of a request and its canonical surface. -/
structure WithinLimits (serde : SerdeJson) (limits : LimitsConfig)
    (ctx : RequestContext) : Prop where
  body : ctx.body.length ≤ limits.maxBodySize
  headers : ctx.headers.length ≤ limits.maxHeaders
  headerSizes : ∀ header ∈ ctx.headers,
    byteLen header.2 ≤ limits.maxHeaderSize
  queryParams : ctx.normalized.queryParams.length ≤ limits.maxParams
  cookies : ctx.normalized.cookies.length ≤ limits.maxCookies
  formParams : ∀ params, ctx.normalized.body = .formUrlEncoded params →
    params.length ≤ limits.maxParams
  jsonDepth : ∀ pairs, ctx.normalized.body = .jsonFlattened pairs →
    ∃ value, ReadsJson serde ctx.body value ∧
      flattenValue value limits = .ok pairs ∧
      value.containerDepth ≤ limits.maxJsonDepth

variable (serde : SerdeJson)

/-- All limits but the one on cookies hold after a successful call. -/
theorem withinLimits_iff
    {limits : LimitsConfig} {ctx after : RequestContext}
    (done : runNormalizer unicode serde limits ctx = (.ok (), after)) :
    WithinLimits serde limits after ↔
      cookiePairs unicode ctx.headers ≤ limits.maxCookies := by
  rw [runNormalizer_eq] at done
  cases normalizes : normalize unicode serde limits ctx with
  | error error =>
      rw [normalizes] at done
      cases done
  | ok normalized =>
      rw [normalizes] at done
      cases done
      obtain ⟨_, checked, normalizes⟩ := ok_of_bind_ok normalizes
      obtain ⟨⟨cookies, double⟩, parsed, normalizes⟩ := ok_of_bind_ok normalizes
      obtain ⟨query, queried, normalizes⟩ := ok_of_bind_ok normalizes
      obtain ⟨body, read, normalizes⟩ := ok_of_bind_ok normalizes
      cases normalizes
      have counted : cookies.length = cookiePairs unicode ctx.headers :=
        normalizeCookies_length unicode parsed
      obtain ⟨bodySize, headers, headerSizes⟩ := checkLimits_ok checked
      constructor
      · intro within
        rw [← counted]
        exact within.cookies
      · intro few
        refine ⟨bodySize, headers, headerSizes, ?_, ?_, ?_, ?_⟩
        · cases asked : ctx.query with
          | none =>
              rw [asked] at queried
              cases queried
              exact Nat.zero_le _
          | some text =>
              rw [asked] at queried
              exact parseQuery_length unicode queried
        · rw [← counted] at few
          exact few
        · rintro params rfl
          exact formParams_length unicode (parseBody_form unicode serde read)
        · rintro pairs rfl
          obtain ⟨value, reads, flattened⟩ :=
            parseBody_flattened unicode serde read
          refine ⟨value, reads, flattened, ?_⟩
          have shallow := shallow_of_flattenJson _ value [] 1 flattened
          omega

/--
After a successful call the limits hold exactly when the cookie headers of the
request together stay within the limit on cookies; a failed call changes
nothing.
-/
theorem runNormalizer_limits (limits : LimitsConfig) (ctx : RequestContext) :
    (∀ after, runNormalizer unicode serde limits ctx = (.ok (), after) →
      (WithinLimits serde limits after ↔
        cookiePairs unicode ctx.headers ≤ limits.maxCookies)) ∧
    ∀ error after,
      runNormalizer unicode serde limits ctx = (.error error, after) →
        after = ctx := by
  constructor
  · intro after done
    exact withinLimits_iff unicode serde done
  · intro error after failed
    rw [runNormalizer_eq] at failed
    cases normalizes : normalize unicode serde limits ctx with
    | error message =>
        rw [normalizes] at failed
        cases failed
        rfl
    | ok normalized =>
        rw [normalizes] at failed
        cases failed

end Unicode

/-- A request with its cookies on two lines. -/
def twoCookieLines : RequestContext :=
  { emptyRequest with
    headers := [("cookie".toList, "a=1".toList),
      ("cookie".toList, "b=2".toList)] }

/-- Two lines of one cookie each pass a limit of one. -/
theorem runNormalizer_two_cookie_lines :
    ∃ after, runNormalizer UnicodeTables.asciiOnly SerdeJson.rejectAll
        { maxCookies := 1 } twoCookieLines = (.ok (), after) ∧
      ¬ WithinLimits SerdeJson.rejectAll { maxCookies := 1 } after := by
  refine ⟨_, rfl, fun within => ?_⟩
  have few : 2 ≤ 1 := within.cookies
  exact absurd few (by decide)

end LightWaf.Normalizer
