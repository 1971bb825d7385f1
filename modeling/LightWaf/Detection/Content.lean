import LightWaf.Detection.Rules
import LightWaf.Normalizer.Normalize
import LightWaf.Pipeline.Run

/-!
# Content modules

The fourteen modules that match rules against the canonical surface.  They
share one scheme: the rules active at the configured paranoia level are tested
against a list of strings, and every rule that matches somewhere contributes
one item.  What differs is the table, the strings read, and for three of them
an extra test.

The matcher of the `regex` crate is a parameter with two laws: a set reports a
pattern exactly when that pattern alone matches, and a set matches when one of
its patterns does.
-/

namespace LightWaf.Detection

open LightWaf.Rust
open LightWaf.Core
open LightWaf.Normalizer

/-- The `regex` crate: one pattern, and the two queries on a `RegexSet`. -/
structure RegexEngine where
  isMatch : String → Text → Bool
  setMatches : List String → Text → List Nat
  setIsMatch : List String → Text → Bool
  mem_setMatches : ∀ patterns value index,
    index ∈ setMatches patterns value ↔
      ∃ pattern, patterns[index]? = some pattern ∧
        isMatch pattern value = true
  setIsMatch_iff : ∀ patterns value,
    setIsMatch patterns value = true ↔
      ∃ pattern ∈ patterns, isMatch pattern value = true

/-- The engine whose sets are searched pattern by pattern. -/
def RegexEngine.ofIsMatch (isMatch : String → Text → Bool) :
    RegexEngine where
  isMatch := isMatch
  setMatches := fun patterns value =>
    (List.range patterns.length).filter fun index =>
      patterns[index]?.any fun pattern => isMatch pattern value
  setIsMatch := fun patterns value =>
    patterns.any fun pattern => isMatch pattern value
  mem_setMatches := by
    intro patterns value index
    simp only [List.mem_filter, List.mem_range, Option.any_eq_true]
    constructor
    · rintro ⟨-, pattern, found, matched⟩
      exact ⟨pattern, found, matched⟩
    · rintro ⟨pattern, found, matched⟩
      exact ⟨(List.getElem?_eq_some_iff.mp found).1, pattern, found, matched⟩
  setIsMatch_iff := by
    intro patterns value
    exact List.any_eq_true

/-! ## The strings that are read -/

section Surface

variable (unicode : UnicodeTables)

/-- `body_str_values`. -/
def bodyStrValues : ParsedBody → List Text
  | .formUrlEncoded params => params.map Prod.snd
  | .jsonFlattened pairs => pairs.map Prod.snd
  | .multipart fields => fields.flatMap fun field =>
      canonicalizeMultipartField unicode field.name ::
        (field.filename.map (canonicalizeMultipartField unicode)).toList ++
        ((fromUtf8 field.data).map
          (canonicalizeMultipartField unicode)).toList
  | .raw bytes =>
      match fromUtf8 bytes with
      | some text => if bytes.contains 0 then [] else [text]
      | none => []
  | .none => []

/-- `body_key_strings`. -/
def bodyKeyStrings : ParsedBody → List Text
  | .jsonFlattened pairs => pairs.map Prod.fst
  | .formUrlEncoded params => params.map Prod.fst
  | .multipart fields => fields.map MultipartField.name
  | _ => []

/-- `inspectable_header_values`. -/
def inspectableHeaderValues (ctx : RequestContext) : List Text :=
  (ctx.normalized.headers.filter fun header =>
    headerContentInspectable header.1).map Prod.snd

/-- `host_header_values`. -/
def hostHeaderValues (ctx : RequestContext) : List Text :=
  (ctx.normalized.headers.filter fun header =>
    header.1 == "host".toList ||
      header.1 == "x-forwarded-host".toList).map Prod.snd

/-- The values of the user-agent headers. -/
def userAgentValues (ctx : RequestContext) : List Text :=
  (ctx.normalized.headers.filter fun header =>
    header.1 == "user-agent".toList).map Prod.snd

/-- Query and cookie values. -/
def parameterValues (ctx : RequestContext) : List Text :=
  ctx.normalized.queryParams.map Prod.snd ++
    ctx.normalized.cookies.map Prod.snd

/-- Query, cookies, body and derived strings. -/
def valueSurface (ctx : RequestContext) : List Text :=
  parameterValues ctx ++ bodyStrValues unicode ctx.normalized.body ++
    ctx.normalized.derivedDecoded

/-- The value surface with the path and the inspectable headers. -/
def contentSurface (ctx : RequestContext) : List Text :=
  ctx.normalized.path :: valueSurface unicode ctx ++
    inspectableHeaderValues ctx

/-- The loop of `collapse_sql_block_comments`, and whether it changed a text. -/
def collapseComments : (fuel : Nat) → Text → Text × Bool
  | 0, rest => (rest, false)
  | fuel + 1, rest =>
      match findSplit "/*".toList rest with
      | none => (rest, false)
      | some (before, inside) =>
          match findSplit "*/".toList inside with
          | some (_, after) =>
              (before ++ ' ' :: (collapseComments fuel after).1, true)
          -- An unterminated comment is kept verbatim.
          | none => (rest, false)

/-- `collapse_sql_block_comments`: `none` when nothing was collapsed. -/
def collapseSqlBlockComments (text : Text) : Option Text :=
  match collapseComments text.length text with
  | (collapsed, true) => some collapsed
  | (_, false) => none

/-- The content surface followed by its comment-collapsed copies. -/
def sqliSurface (ctx : RequestContext) : List Text :=
  contentSurface unicode ctx ++
    (contentSurface unicode ctx).filterMap collapseSqlBlockComments

end Surface

/-! ## Matching a table -/

section Matching

variable (engine : RegexEngine)

/-- `all_matches`: the patterns of a set that match at least one value. -/
def allMatches (patterns : List String) (values : List Text) : List Nat :=
  (List.range patterns.length).filter fun index =>
    values.any fun value => (engine.setMatches patterns value).contains index

/-- The item of a rule. -/
def Rule.item (rule : Rule) : ScoreItem :=
  ⟨rule.id, rule.severity⟩

/-- The items of the active rules that match. -/
def matchedItems (active : List Rule) (values : List Text) :
    List ScoreItem :=
  (allMatches engine (active.map Rule.pattern) values).filterMap fun index =>
    active[index]?.map Rule.item

/-- A module reports its items, or allows when there are none. -/
def ofItems (items : List ScoreItem) : Decision :=
  if items.isEmpty then .allow else .scores items

/-- Add an item unless one with its rule id is already there. -/
def pushUnlessPresent (items : List ScoreItem) (hit : Bool)
    (item : ScoreItem) : List ScoreItem :=
  if hit && !items.any (fun present => present.ruleId == item.ruleId) then
    items ++ [item]
  else items

/-- A module that matches one table against one surface. -/
def contentModule (id : String) (phase : Phase) (table : List Rule)
    (surface : RequestContext → List Text) (config : Config) :
    WafModule where
  id := id
  phase := phase
  inspect := fun ctx => some (ofItems
    (matchedItems engine (activeRules table config.waf.paranoiaLevel)
      (surface ctx)))

end Matching

/-! ## The modules -/

section Modules

variable (unicode : UnicodeTables) (engine : RegexEngine)

/-- `SqliModule`. -/
def sqliModule : Config → WafModule :=
  contentModule engine "sqli" .body sqliRules (sqliSurface unicode)

/-- `XssModule`. -/
def xssModule : Config → WafModule :=
  contentModule engine "xss" .body xssRules (contentSurface unicode)

/-- `PathTraversalModule`. -/
def pathTraversalModule : Config → WafModule :=
  contentModule engine "path_traversal" .requestLine pathTraversalRules
    (contentSurface unicode)

/-- `LfiRfiModule`. -/
def lfiRfiModule : Config → WafModule :=
  contentModule engine "lfi_rfi" .body lfiRfiRules (valueSurface unicode)

/-- `SsrfModule`. -/
def ssrfModule : Config → WafModule :=
  contentModule engine "ssrf" .body ssrfRules (valueSurface unicode)

/-- `LdapModule`. -/
def ldapModule : Config → WafModule :=
  contentModule engine "ldap" .body ldapRules (contentSurface unicode)

/-- `MailModule`. -/
def mailModule : Config → WafModule :=
  contentModule engine "mail" .body mailRules (contentSurface unicode)

/-- `SstiModule`. -/
def sstiModule : Config → WafModule :=
  contentModule engine "ssti" .body sstiRules (contentSurface unicode)

/-- `ScannerModule`. -/
def scannerModule : Config → WafModule :=
  contentModule engine "scanner" .headers scannerRules userAgentValues

/-- `SsiModule`. -/
def ssiModule : Config → WafModule :=
  contentModule engine "ssi" .body ssiRules (contentSurface unicode)

/-- `XxeModule`. -/
def xxeModule : Config → WafModule :=
  contentModule engine "xxe" .body xxeRules (contentSurface unicode)

/-- The user-agent test of `RceModule`, when the shellshock rule is active. -/
def shellshockUserAgent (active : List Rule) (ctx : RequestContext) : Bool :=
  active.any (fun rule => rule.id == "rce-shellshock") &&
    (firstHeader ctx.normalized.headers "user-agent".toList).any
      (engine.isMatch shellshockPattern)

/-- The items of `RceModule`. -/
def rceItems (paranoia : Nat) (ctx : RequestContext) : List ScoreItem :=
  let active := activeRules rceRules paranoia
  pushUnlessPresent
    (matchedItems engine active (contentSurface unicode ctx))
    (shellshockUserAgent engine active ctx)
    ⟨"rce-shellshock", .critical⟩

/-- `RceModule`. -/
def rceModule (config : Config) : WafModule where
  id := "rce"
  phase := .body
  inspect := fun ctx =>
    some (ofItems (rceItems unicode engine config.waf.paranoiaLevel ctx))

/-- The keys read by the key scans. -/
def keyStrings (ctx : RequestContext) : List Text :=
  ctx.normalized.queryParams.map Prod.fst ++
    bodyKeyStrings ctx.normalized.body

/-- The items of `NosqlModule`: the table, then the two key scans. -/
def nosqlItems (paranoia : Nat) (ctx : RequestContext) : List ScoreItem :=
  let items := matchedItems engine (activeRules nosqlRules paranoia)
    (contentSurface unicode ctx)
  let items := pushUnlessPresent items
    ((keyStrings ctx).any (engine.isMatch nosqlOperatorKeyPattern))
    ⟨"nosql-operator-key", .critical⟩
  pushUnlessPresent items
    ((keyStrings ctx).any (engine.isMatch protoPollutionKeyPattern))
    ⟨"proto-pollution-key", .critical⟩

/-- `NosqlModule`. -/
def nosqlModule (config : Config) : WafModule where
  id := "nosql"
  phase := .body
  inspect := fun ctx =>
    some (ofItems (nosqlItems unicode engine config.waf.paranoiaLevel ctx))

/-- The strings in a scope. -/
def scopeValues (ctx : RequestContext) : Scope → List Text
  | .all => ctx.normalized.path :: parameterValues ctx ++
      ctx.normalized.headers.map Prod.snd ++
      bodyStrValues unicode ctx.normalized.body
  | .nonBody => ctx.normalized.path :: parameterValues ctx ++
      ctx.normalized.headers.map Prod.snd
  | .hostHeaders => hostHeaderValues ctx
  | .body => bodyStrValues unicode ctx.normalized.body

/-- The header-injection rules that a paranoia level activates. -/
def activeHdrRules (paranoia : Nat) : List HdrRule :=
  headerInjectionRules.filter fun rule => rule.paranoia ≤ paranoia

/-- The items of `HeaderInjectionModule`: one regex per rule, in its scope. -/
def headerInjectionItems (paranoia : Nat) (ctx : RequestContext) :
    List ScoreItem :=
  ((activeHdrRules paranoia).filter fun rule =>
    (scopeValues unicode ctx rule.scope).any
      (engine.isMatch rule.pattern)).map fun rule =>
        ⟨rule.id, rule.severity⟩

/-- `HeaderInjectionModule`. -/
def headerInjectionModule (config : Config) : WafModule where
  id := "header_injection"
  phase := .headers
  inspect := fun ctx => some (ofItems
    (headerInjectionItems unicode engine config.waf.paranoiaLevel ctx))

/-- The inspection-phase modules that are not structural. -/
def contentModules : List (Config → WafModule) :=
  [noopLogger, sqliModule unicode engine, xssModule unicode engine,
    pathTraversalModule unicode engine, rceModule unicode engine,
    lfiRfiModule unicode engine, ssrfModule unicode engine,
    ldapModule unicode engine, nosqlModule unicode engine,
    mailModule unicode engine, sstiModule unicode engine,
    scannerModule engine, ssiModule unicode engine,
    xxeModule unicode engine, headerInjectionModule unicode engine]

end Modules

/-! ## What a table reports -/

section Report

variable (engine : RegexEngine)

/-- Reading back the selected indices of a list filters it. -/
theorem filterMap_getElem_range
    {α β : Type} (items : List α) (keep : α → Bool) (image : α → β) :
    ((List.range items.length).filter fun index =>
        items[index]?.any keep).filterMap
      (fun index => items[index]?.map image) =
      (items.filter keep).map image := by
  induction items using List.reverseRecOn with
  | nil => rfl
  | append_singleton rest last induction =>
      have early : ∀ index ∈ List.range rest.length,
          (rest ++ [last])[index]? = rest[index]? := by
        intro index member
        exact List.getElem?_append_left (List.mem_range.mp member)
      have sameFilter :
          (List.range rest.length).filter
              (fun index => (rest ++ [last])[index]?.any keep) =
            (List.range rest.length).filter
              (fun index => rest[index]?.any keep) :=
        List.filter_congr fun index member => by rw [early index member]
      have sameMap :
          ((List.range rest.length).filter
              (fun index => rest[index]?.any keep)).filterMap
              (fun index => (rest ++ [last])[index]?.map image) =
            (rest.filter keep).map image := by
        rw [← induction]
        refine List.filterMap_congr fun index member => ?_
        rw [early index (List.mem_filter.mp member).1]
      rw [List.length_append, List.length_singleton, List.range_succ,
        List.filter_append, List.filterMap_append, sameFilter, sameMap,
        List.filter_append, List.map_append]
      cases kept : keep last with
      | true => simp [kept]
      | false => simp [kept]

/-- A table reports its active rules that match some value, in order. -/
theorem matchedItems_eq
    (active : List Rule) (values : List Text) :
    matchedItems engine active values =
      (active.filter fun rule =>
        values.any (engine.isMatch rule.pattern)).map Rule.item := by
  rw [← filterMap_getElem_range]
  unfold matchedItems allMatches
  rw [List.length_map]
  congr 1
  refine List.filter_congr fun index member => ?_
  have bound : index < active.length := List.mem_range.mp member
  rw [Bool.eq_iff_iff]
  simp only [List.any_eq_true, List.contains_iff_mem, engine.mem_setMatches,
    List.getElem?_map, List.getElem?_eq_getElem bound, Option.map_some,
    Option.some.injEq, exists_eq_left', Option.any_some]

end Report

end LightWaf.Detection
