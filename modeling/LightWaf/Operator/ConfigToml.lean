import LightWaf.Rust.Debug
import LightWaf.Rust.HashMap
import LightWaf.Theory.StableSort
import LightWaf.Theory.TomlDocument
import Mathlib.Data.Char
import Mathlib.Data.List.Lex

/-!
# The configuration of a data plane

`config_toml` renders the configuration file of a `WafProxy`.  The backend is
written with `{:?}`, and the names of modules go into table headers as they
are.  The file says what the resource asks for exactly when every name is a
bare key of TOML and no character of the backend is written by its code, which
TOML spells in another way than `{:?}` does.
-/

namespace LightWaf.Operator

open LightWaf.Rust
open LightWaf.Theory.StableSort
open LightWaf.Theory.Toml

/-! ## The custom resource -/

/-- The service that is protected. -/
structure ServiceRef where
  name : Text
  port : UInt16
  /-- `namespace` -/
  ns : Option Text

/-- A service or a URL. -/
structure Backend where
  service : Option ServiceRef
  url : Option Text

inductive Mode
  | blocking
  | detection

def Mode.asConfig : Mode → Text
  | .blocking => "blocking".toList
  | .detection => "detection-only".toList

/-- The part of the resource that the configuration is rendered from. -/
structure WafProxySpec where
  backend : Backend
  mode : Mode
  paranoiaLevel : UInt8
  blockThreshold : UInt32
  modules : HashMap Text Bool
  crsCurated : Bool
  apiSchemaSpecRef : Option Text

namespace WafProxySpec

variable (spec : WafProxySpec)

def backendUrl (ownerNs : Text) : Option Text :=
  match spec.backend.url with
  | some url => some url
  | none => spec.backend.service.map fun service =>
      "http://".toList ++ service.name ++ ['.'] ++
        service.ns.getD ownerNs ++ ".svc.cluster.local:".toList ++
          Nat.toDigits 10 service.port.toNat

/-- The upstream that the configuration names. -/
def upstream (ownerNs : Text) : Text :=
  (spec.backendUrl ownerNs).getD "http://127.0.0.1:0".toList

end WafProxySpec

/-- `DEFAULT_MODULES` -/
def defaultModules : List Text :=
  ["sqli", "xss", "path_traversal", "rce", "lfi_rfi", "ssrf", "ldap", "nosql",
    "mail", "ssti", "scanner", "ssi", "xxe", "header_injection",
    "request_smuggling"].map String.toList

/-! ## The configuration file -/

section Rendering

/-- A key with the value that is formatted for it. -/
def pairLine (key : String) (value : Text) : Text :=
  key.toList ++ ([' ', '=', ' '] ++ value)

variable (tables : DebugTables)

def proxySection (backend : Text) : List Text :=
  ["[proxy]".toList,
    "listen = \"0.0.0.0:8080\"".toList,
    pairLine "backend" (debugStr tables backend)]

def resilienceSection : List Text :=
  ["[resilience]",
    "on_upstream_error   = \"fail_closed\"",
    "on_internal_error   = \"fail_open\"",
    "on_config_error     = \"fail_open\"",
    "on_parser_limit     = \"fail_closed\"",
    "upstream_timeout_ms = 30000"].map String.toList

def wafSection (mode : Text) (blockThreshold paranoiaLevel : Nat) :
    List Text :=
  ["[waf]".toList,
    pairLine "mode" (debugStr tables mode),
    pairLine "block_threshold" (Nat.toDigits 10 blockThreshold),
    pairLine "paranoia_level" (Nat.toDigits 10 paranoiaLevel)]

def severitySection : List Text :=
  ["[waf.severity_scores]",
    "critical = 6",
    "error    = 4",
    "warning  = 3",
    "notice   = 2"].map String.toList

def limitsSection : List Text :=
  ["[limits]",
    "max_body_size    = 1048576",
    "max_header_size  = 8192",
    "max_headers      = 100",
    "max_params       = 100",
    "max_cookies      = 50",
    "max_json_depth   = 20"].map String.toList

/-- The section of one module. -/
def moduleSection (name : Text) (enabled : Bool) : List Text :=
  ["[modules.".toList ++ name ++ "]".toList,
    pairLine "enabled" (debugBool enabled)]

def crsCuratedSection : List Text :=
  ["[enterprise.crs_curated]", "enabled = true"].map String.toList

def metricsSection : List Text :=
  ["[metrics]", "enabled = true", "listen  = \"0.0.0.0:9090\""].map
    String.toList

def apiSchemaSection : List Text :=
  ["[enterprise.api_schema]",
    "enabled   = true",
    "spec_path = \"/etc/waf/openapi.json\"",
    "violation_severity = \"critical\""].map String.toList

variable (spec : WafProxySpec) (ownerNs : Text)

/-- The modules of the resource that are not among the defaults, by name. -/
def extraModules : List (Text × Bool) :=
  sortByKey Prod.fst
    (spec.modules.entries.filter fun entry => entry.1 ∉ defaultModules)

/-- The modules in the order of their sections. -/
def namedModules : List (Text × Bool) :=
  (defaultModules.map fun name => (name, (spec.modules.get name).getD true)) ++
    extraModules spec

def configSections : List (List Text) :=
  [proxySection tables (spec.upstream ownerNs),
    resilienceSection,
    wafSection tables spec.mode.asConfig spec.blockThreshold.toNat
      spec.paranoiaLevel.toNat,
    severitySection,
    limitsSection] ++
  (namedModules spec).map (fun entry => moduleSection entry.1 entry.2) ++
  (if spec.crsCurated then [crsCuratedSection] else []) ++
  [metricsSection] ++
  (if spec.apiSchemaSpecRef.isSome then [apiSchemaSection] else [])

/-- The file: sections with an empty line between them. -/
def configToml : Text :=
  writeLines (List.intercalate [[]] (configSections tables spec ownerNs))

end Rendering

/-! ## What the file should say -/

/-- A table with fixed keys. -/
def table (path : List String) (pairs : List (String × Scalar)) : Table :=
  ⟨path.map String.toList, pairs.map fun pair => (pair.1.toList, pair.2)⟩

/-- A string that is fixed. -/
def words (text : String) : Scalar :=
  .string text.toList

def proxyTable (backend : Text) : Table :=
  table ["proxy"]
    [("listen", words "0.0.0.0:8080"), ("backend", .string backend)]

def resilienceTable : Table :=
  table ["resilience"]
    [("on_upstream_error", words "fail_closed"),
      ("on_internal_error", words "fail_open"),
      ("on_config_error", words "fail_open"),
      ("on_parser_limit", words "fail_closed"),
      ("upstream_timeout_ms", .integer 30000)]

def wafTable (mode : Text) (blockThreshold paranoiaLevel : Nat) : Table :=
  table ["waf"]
    [("mode", .string mode), ("block_threshold", .integer blockThreshold),
      ("paranoia_level", .integer paranoiaLevel)]

def severityTable : Table :=
  table ["waf", "severity_scores"]
    [("critical", .integer 6), ("error", .integer 4), ("warning", .integer 3),
      ("notice", .integer 2)]

def limitsTable : Table :=
  table ["limits"]
    [("max_body_size", .integer 1048576), ("max_header_size", .integer 8192),
      ("max_headers", .integer 100), ("max_params", .integer 100),
      ("max_cookies", .integer 50), ("max_json_depth", .integer 20)]

def moduleTable (name : Text) (enabled : Bool) : Table :=
  ⟨["modules".toList, name], [("enabled".toList, .boolean enabled)]⟩

def crsCuratedTable : Table :=
  table ["enterprise", "crs_curated"] [("enabled", .boolean true)]

def metricsTable : Table :=
  table ["metrics"]
    [("enabled", .boolean true), ("listen", words "0.0.0.0:9090")]

def apiSchemaTable : Table :=
  table ["enterprise", "api_schema"]
    [("enabled", .boolean true),
      ("spec_path", words "/etc/waf/openapi.json"),
      ("violation_severity", words "critical")]

/-- The tables of the settings that do not name a backend. -/
def policyTables (spec : WafProxySpec) : List Table :=
  [resilienceTable,
    wafTable spec.mode.asConfig spec.blockThreshold.toNat
      spec.paranoiaLevel.toNat,
    severityTable, limitsTable]

/-- The tables before those of the modules. -/
def settingsTables (spec : WafProxySpec) (ownerNs : Text) : List Table :=
  proxyTable (spec.upstream ownerNs) :: policyTables spec

/-- The tables behind those of the modules. -/
def featureTables (crsCurated apiSchema : Bool) : List Table :=
  (if crsCurated then [crsCuratedTable] else []) ++ [metricsTable] ++
    (if apiSchema then [apiSchemaTable] else [])

def configTables (spec : WafProxySpec) (ownerNs : Text) : List Table :=
  settingsTables spec ownerNs ++
    ((namedModules spec).map (fun entry => moduleTable entry.1 entry.2) ++
      featureTables spec.crsCurated spec.apiSchemaSpecRef.isSome)

/-! ## Reading the sections back -/

/-- The sections that are the same in every file. -/
def fixedSections : List (List Text × Table) :=
  [(resilienceSection, resilienceTable), (severitySection, severityTable),
    (limitsSection, limitsTable), (crsCuratedSection, crsCuratedTable),
    (metricsSection, metricsTable), (apiSchemaSection, apiSchemaTable)]

theorem readsAs_fixedSections :
    List.Forall₂ ReadsAs (fixedSections.map Prod.fst)
      (fixedSections.map Prod.snd) := by
  have all : ∀ pair ∈ fixedSections,
      ([] :: pair.1).mapM readLine = some pair.2.lines := by
    simp only [fixedSections, resilienceSection, resilienceTable,
      severitySection, severityTable, limitsSection, limitsTable,
      crsCuratedSection, crsCuratedTable, metricsSection, metricsTable,
      apiSchemaSection, apiSchemaTable, table, words, List.map_cons,
      List.map_nil, String.reduceToList]
    decide
  rw [List.forall₂_map_left_iff, List.forall₂_map_right_iff,
    List.forall₂_same]
  intro pair member
  exact mapM_eq_some_iff.mp (all pair member)

/-- The keys whose values are formatted. -/
theorem isBare_keys :
    ∀ key ∈ ["backend", "mode", "block_threshold", "paranoia_level",
      "enabled", "modules"], IsBare key.toList := by
  simp only [List.forall_mem_cons, String.reduceToList]
  decide

section Debug

variable (tables : DebugTables)

/-- A character that `{:?}` writes by its code, as `\0` or `\u`. -/
def byCode (char : Char) : Bool :=
  char == '\x00' ||
    (char != '\t' && char != '\r' && char != '\n' && tables.byValue char)

/-- A character that is not written by its code is no control character. -/
theorem not_isControl_of_not_byValue
    {char : Char} (plain : tables.byValue char = false) :
    isControl char = false := by
  rw [DebugTables.byValue] at plain
  rw [isControl, Bool.or_eq_false_iff]
  split_ifs at plain with ascii
  · obtain ⟨high, noDelete⟩ := Bool.or_eq_false_iff.mp plain
    rw [high]
    exact ⟨rfl, noDelete⟩
  · have large : 0x80 ≤ char.toNat := by
      simpa [isAscii] using ascii
    constructor
    · rw [decide_eq_false (by omega)]
      rfl
    · rw [beq_eq_false_iff_ne]
      rintro rfl
      exact absurd large (by decide)

/-- What comes of one character at the start of a string. -/
theorem readBasic_escapeDebug_cons (char : Char) (rest : Text) :
    readBasic (escapeDebug tables char ++ rest) =
      if byCode tables char then none else prepend char (readBasic rest) := by
  by_cases null : char = '\x00'
  · subst null
    exact readBasic_letter (by decide) (by decide) rest
  by_cases tab : char = '\t'
  · subst tab
    exact readBasic_letter (by decide) (by decide) rest
  by_cases carriage : char = '\r'
  · subst carriage
    exact readBasic_letter (by decide) (by decide) rest
  by_cases line : char = '\n'
  · subst line
    exact readBasic_letter (by decide) (by decide) rest
  by_cases backslash : char = '\x5c'
  · subst backslash
    exact readBasic_letter (by decide) (by decide) rest
  by_cases quote : char = '\x22'
  · subst quote
    exact readBasic_letter (by decide) (by decide) rest
  have code : byCode tables char = tables.byValue char := by
    rw [byCode, beq_eq_false_iff_ne.mpr null, bne_iff_ne.mpr tab,
      bne_iff_ne.mpr carriage, bne_iff_ne.mpr line]
    rfl
  rw [escapeDebug, if_neg null, if_neg tab, if_neg carriage, if_neg line,
    if_neg backslash, if_neg quote, code]
  cases value : tables.byValue char with
  | true => exact readBasic_brace _
  | false =>
      exact readBasic_plain quote backslash
        (not_isControl_of_not_byValue tables value) rest

/-- A string written by `{:?}` is read back unless a code stands in it. -/
theorem readBasic_escapeDebug (text rest : Text) :
    readBasic (text.flatMap (escapeDebug tables) ++ '\x22' :: rest) =
      if text.any (byCode tables) then none else some (text, rest) := by
  induction text with
  | nil => exact readBasic_quote rest
  | cons char text induction =>
      rw [List.flatMap_cons, List.append_assoc, readBasic_escapeDebug_cons,
        List.any_cons, induction]
      cases byCode tables char with
      | true => rfl
      | false =>
          cases text.any (byCode tables) with
          | true => rfl
          | false => rfl

/-- A bare key with a string written by `{:?}`. -/
theorem readLine_debugStr
    {key : Text} (bare : IsBare key) (text : Text) :
    readLine (key ++ ([' ', '=', ' '] ++ debugStr tables text)) =
      if text.any (byCode tables) then none
      else some (.pair key (.string text)) := by
  rw [debugStr, readLine_string bare, readBasic_escapeDebug]
  cases text.any (byCode tables) with
  | true => rfl
  | false => rfl

/-- A printable character of ASCII. -/
def isPrintable (char : Char) : Bool :=
  0x20 ≤ char.toNat && char.toNat < 0x7f

/-- Printable characters of ASCII stand for themselves. -/
theorem byCode_printable
    {char : Char} (isPrintable : isPrintable char = true) :
    byCode tables char = false := by
  have printable : 0x20 ≤ char.toNat ∧ char.toNat < 0x7f := by
    simpa [Operator.isPrintable] using isPrintable
  have ascii : isAscii char = true := decide_eq_true (by omega)
  have noDelete : (char == '\x7f') = false := by
    rw [beq_eq_false_iff_ne]
    rintro rfl
    exact absurd printable.2 (by decide)
  have noNull : (char == '\x00') = false := by
    rw [beq_eq_false_iff_ne]
    rintro rfl
    exact absurd printable.1 (by decide)
  have plain : tables.byValue char = false := by
    rw [DebugTables.byValue, if_pos ascii, noDelete,
      decide_eq_false (by omega)]
    rfl
  rw [byCode, plain, noNull, Bool.and_false]
  rfl

/-- A text of printable characters is written as it is. -/
theorem any_byCode_printable
    {text : Text} (printable : text.all isPrintable = true) :
    text.any (byCode tables) = false := by
  rw [List.any_eq_false]
  intro char member
  rw [byCode_printable tables (List.all_eq_true.mp printable char member)]
  exact Bool.false_ne_true

theorem readsAs_proxy
    {backend : Text} (plain : backend.any (byCode tables) = false) :
    ReadsAs (proxySection tables backend) (proxyTable backend) := by
  have lines : (proxyTable backend).lines =
      [.blank, .header ["proxy".toList],
        .pair "listen".toList (words "0.0.0.0:8080"),
        .pair "backend".toList (.string backend)] := by
    simp only [Table.lines, proxyTable, table, List.map_cons, List.map_nil]
  have fixed : readLine "[proxy]".toList =
        some (.header ["proxy".toList]) ∧
      readLine "listen = \"0.0.0.0:8080\"".toList =
        some (.pair "listen".toList (words "0.0.0.0:8080")) := by
    simp only [words, String.reduceToList]
    decide
  have upstream : readLine (pairLine "backend" (debugStr tables backend)) =
      some (.pair "backend".toList (.string backend)) := by
    rw [pairLine, readLine_debugStr tables (isBare_keys _ (by simp)), plain]
    rfl
  rw [ReadsAs, lines, proxySection]
  exact .cons rfl (.cons fixed.1 (.cons fixed.2 (.cons upstream .nil)))

theorem any_byCode_asConfig (mode : Mode) :
    mode.asConfig.any (byCode tables) = false := by
  have printable : "blocking".toList.all isPrintable = true ∧
      "detection-only".toList.all isPrintable = true := by
    simp only [String.reduceToList]
    decide
  apply any_byCode_printable
  cases mode with
  | blocking => exact printable.1
  | detection => exact printable.2

theorem readsAs_waf
    (mode : Mode) {blockThreshold paranoiaLevel : Nat}
    (smallThreshold : blockThreshold < 2 ^ 63)
    (smallLevel : paranoiaLevel < 2 ^ 63) :
    ReadsAs (wafSection tables mode.asConfig blockThreshold paranoiaLevel)
      (wafTable mode.asConfig blockThreshold paranoiaLevel) := by
  have lines : (wafTable mode.asConfig blockThreshold paranoiaLevel).lines =
      [.blank, .header ["waf".toList],
        .pair "mode".toList (.string mode.asConfig),
        .pair "block_threshold".toList (.integer blockThreshold),
        .pair "paranoia_level".toList (.integer paranoiaLevel)] := by
    simp only [Table.lines, wafTable, table, List.map_cons, List.map_nil]
  have heading : readLine "[waf]".toList =
      some (.header ["waf".toList]) := by
    simp only [String.reduceToList]
    decide
  have modeLine : readLine (pairLine "mode" (debugStr tables mode.asConfig)) =
      some (.pair "mode".toList (.string mode.asConfig)) := by
    rw [pairLine, readLine_debugStr tables (isBare_keys _ (by simp)),
      any_byCode_asConfig]
    rfl
  have thresholdLine : readLine (pairLine "block_threshold"
      (Nat.toDigits 10 blockThreshold)) =
        some (.pair "block_threshold".toList (.integer blockThreshold)) :=
    readLine_number (isBare_keys _ (by simp)) smallThreshold
  have levelLine : readLine (pairLine "paranoia_level"
      (Nat.toDigits 10 paranoiaLevel)) =
        some (.pair "paranoia_level".toList (.integer paranoiaLevel)) :=
    readLine_number (isBare_keys _ (by simp)) smallLevel
  rw [ReadsAs, lines, wafSection]
  exact .cons rfl (.cons heading (.cons modeLine
    (.cons thresholdLine (.cons levelLine .nil))))

end Debug

/-- The texts around the name of a module. -/
theorem module_brackets :
    "[modules.".toList = '[' :: ("modules".toList ++ ['.']) ∧
      "]".toList = [']'] := by
  simp only [String.reduceToList]
  decide

/-- The header of a module with a bare name. -/
theorem readLine_module {name : Text} (bare : IsBare name) :
    readLine ("[modules.".toList ++ name ++ "]".toList) =
      some (.header ["modules".toList, name]) := by
  have path : writePath ["modules".toList, name] =
      "modules".toList ++ ['.'] ++ name := by
    simp only [writePath, List.intercalate_cons_cons,
      List.intercalate_singleton]
  have both : ∀ key ∈ ["modules".toList, name], IsBare key := by
    rw [List.forall_mem_cons]
    exact ⟨isBare_keys _ (by simp), by simpa using bare⟩
  have read := readLine_header (List.cons_ne_nil _ _) both
  rw [path] at read
  rw [module_brackets.1, module_brackets.2]
  exact read

theorem readsAs_module {name : Text} (bare : IsBare name) (enabled : Bool) :
    ReadsAs (moduleSection name enabled) (moduleTable name enabled) := by
  have flags : readLine (pairLine "enabled" "true".toList) =
        some (.pair "enabled".toList (.boolean true)) ∧
      readLine (pairLine "enabled" "false".toList) =
        some (.pair "enabled".toList (.boolean false)) := by
    simp only [pairLine, String.reduceToList]
    decide
  have flag : readLine (pairLine "enabled" (debugBool enabled)) =
      some (.pair "enabled".toList (.boolean enabled)) := by
    cases enabled with
    | true => exact flags.1
    | false => exact flags.2
  rw [ReadsAs, Table.lines, moduleTable, moduleSection]
  exact .cons rfl (.cons (readLine_module bare) (.cons flag .nil))

/-! ## The modules of a resource -/

namespace WafProxySpec

variable (spec : WafProxySpec)

/-- A default module, or one that the resource names. -/
def Names (name : Text) : Prop :=
  name ∈ defaultModules ∨ spec.modules.containsKey name = true

/-- Whether a module is on. -/
def enables (name : Text) : Bool :=
  (spec.modules.get name).getD true

/-- A module that only the resource names. -/
def Adds (name : Text) : Prop :=
  spec.modules.containsKey name = true ∧ name ∉ defaultModules

end WafProxySpec

section Modules

variable {spec : WafProxySpec}

theorem mem_extraModules {entry : Text × Bool} :
    entry ∈ extraModules spec ↔
      entry ∈ spec.modules.entries ∧ entry.1 ∉ defaultModules := by
  rw [extraModules, (sortByKey_perm _ _).mem_iff, List.mem_filter,
    decide_eq_true_eq]

/-- The sections are those of the named modules, with their flags. -/
theorem mem_namedModules {entry : Text × Bool} :
    entry ∈ namedModules spec ↔
      spec.Names entry.1 ∧ entry.2 = spec.enables entry.1 := by
  obtain ⟨name, enabled⟩ := entry
  rw [namedModules, List.mem_append, mem_extraModules, List.mem_map]
  constructor
  · rintro (⟨own, member, same⟩ | ⟨stored, other⟩)
    · cases same
      exact ⟨Or.inl member, rfl⟩
    · have found := HashMap.get_eq_some_iff.mpr stored
      refine ⟨Or.inr ?_, ?_⟩
      · rw [HashMap.containsKey, found]
        rfl
      · dsimp only
        rw [WafProxySpec.enables, found]
        rfl
  · rintro ⟨named, same⟩
    dsimp only at named same
    by_cases default : name ∈ defaultModules
    · exact Or.inl ⟨name, default, by rw [same]; rfl⟩
    · rcases named with own | stored
      · exact absurd own default
      · obtain ⟨value, found⟩ := Option.isSome_iff_exists.mp stored
        rw [WafProxySpec.enables, found, Option.getD_some] at same
        rw [same]
        exact Or.inr ⟨HashMap.get_eq_some_iff.mp found, default⟩

/-- The default modules have different names, all of them bare. -/
theorem defaultModules_wellNamed :
    defaultModules.Nodup ∧ ∀ name ∈ defaultModules, IsBare name := by
  simp only [defaultModules, List.map_cons, List.map_nil,
    String.reduceToList]
  decide

/-- No module has two sections. -/
theorem nodup_namedModules : ((namedModules spec).map Prod.fst).Nodup := by
  have defaults : (defaultModules.map fun name =>
      (name, (spec.modules.get name).getD true)).map Prod.fst =
        defaultModules := by
    rw [List.map_map]
    exact List.map_id _
  have extras : ((extraModules spec).map Prod.fst).Nodup := by
    rw [extraModules, ((sortByKey_perm _ _).map Prod.fst).nodup_iff]
    exact spec.modules.nodupKeys.sublist (List.filter_sublist.map Prod.fst)
  rw [namedModules, List.map_append, defaults]
  refine defaultModules_wellNamed.1.append extras ?_
  intro name default extra
  obtain ⟨entry, member, rfl⟩ := List.mem_map.mp extra
  exact (mem_extraModules.mp member).2 default

end Modules

/-! ## The tables of the file -/

/-- The headers before those of the modules. -/
def settingsHeaders : List (List Text) :=
  [["proxy"], ["resilience"], ["waf"], ["waf", "severity_scores"],
    ["limits"]].map (List.map String.toList)

/-- The keys before those of the modules. -/
def settingsPaths : List (List Text) :=
  [["proxy", "listen"], ["proxy", "backend"],
    ["resilience", "on_upstream_error"], ["resilience", "on_internal_error"],
    ["resilience", "on_config_error"], ["resilience", "on_parser_limit"],
    ["resilience", "upstream_timeout_ms"], ["waf", "mode"],
    ["waf", "block_threshold"], ["waf", "paranoia_level"],
    ["waf", "severity_scores", "critical"], ["waf", "severity_scores", "error"],
    ["waf", "severity_scores", "warning"],
    ["waf", "severity_scores", "notice"], ["limits", "max_body_size"],
    ["limits", "max_header_size"], ["limits", "max_headers"],
    ["limits", "max_params"], ["limits", "max_cookies"],
    ["limits", "max_json_depth"]].map (List.map String.toList)

theorem headers_settingsTables (spec : WafProxySpec) (ownerNs : Text) :
    (ofTables (settingsTables spec ownerNs)).headers = settingsHeaders := by
  simp only [ofTables, settingsTables, policyTables, settingsHeaders,
    proxyTable,
    resilienceTable, wafTable, severityTable, limitsTable, table,
    List.map_cons, List.map_nil]

theorem paths_settingsTables (spec : WafProxySpec) (ownerNs : Text) :
    (ofTables (settingsTables spec ownerNs)).paths = settingsPaths := by
  simp only [ofTables, settingsTables, policyTables, settingsPaths, proxyTable,
    resilienceTable, wafTable, severityTable, limitsTable, table,
    Document.paths, Table.values, List.flatMap_cons, List.flatMap_nil,
    List.map_cons, List.map_nil, List.cons_append, List.nil_append,
    List.append_nil]

/-- The key that the tables of modules lie below. -/
def isModules (root : Text) : Bool :=
  root == "modules".toList

/-- The keys of the settings. -/
def isSettings (root : Text) : Bool :=
  ["proxy".toList, "resilience".toList, "waf".toList,
    "limits".toList].contains root

/-- The tables that do not depend on a name are consistent on their own. -/
theorem consistent_fixedTables :
    Consistent settingsHeaders settingsPaths ∧
      ∀ crsCurated apiSchema,
        Consistent (ofTables (featureTables crsCurated apiSchema)).headers
          (ofTables (featureTables crsCurated apiSchema)).paths := by
  simp only [settingsHeaders, settingsPaths, featureTables, crsCuratedTable,
    metricsTable, apiSchemaTable, table, words, List.map_cons, List.map_nil,
    String.reduceToList]
  decide

/-- The settings, the modules and the features have roots of their own. -/
theorem roots_fixedTables :
    (∀ header ∈ settingsHeaders, header.head?.any isSettings = true) ∧
      (isModules "modules".toList = true ∧
        (!isSettings "modules".toList) = true) ∧
      ∀ crsCurated apiSchema, ∀ header ∈
        (ofTables (featureTables crsCurated apiSchema)).headers,
          header.head?.any (fun root => !isModules root) = true ∧
            header.head?.any (fun root => !isSettings root) = true := by
  simp only [settingsHeaders, isSettings, isModules, featureTables,
    crsCuratedTable, metricsTable, apiSchemaTable, table, words,
    List.map_cons, List.map_nil, String.reduceToList]
  decide

theorem below_settings (spec : WafProxySpec) (ownerNs : Text) :
    Below isSettings (settingsTables spec ownerNs) := by
  rw [Below, headers_settingsTables]
  exact roots_fixedTables.1

theorem below_features (crsCurated apiSchema : Bool) :
    Below (fun root => !isModules root)
      (featureTables crsCurated apiSchema) :=
  fun header member => (roots_fixedTables.2.2 _ _ header member).1

theorem below_modules (entries : List (Text × Bool)) :
    let tables := entries.map fun entry => moduleTable entry.1 entry.2
    Below isModules tables ∧ Below (fun root => !isSettings root) tables := by
  intro tables
  have rooted : ∀ header ∈ (ofTables tables).headers,
      header.head? = some "modules".toList := by
    intro header member
    obtain ⟨table, inside, rfl⟩ := List.mem_map.mp member
    obtain ⟨entry, -, rfl⟩ := List.mem_map.mp inside
    rw [moduleTable, List.head?_cons]
  constructor
  · intro header member
    rw [rooted header member, Option.any_some]
    exact roots_fixedTables.2.1.1
  · intro header member
    rw [rooted header member, Option.any_some]
    exact roots_fixedTables.2.1.2

/-- No table of the file is opened twice and no key given twice. -/
theorem consistent_configTables (spec : WafProxySpec) (ownerNs : Text) :
    Consistent (ofTables (configTables spec ownerNs)).headers
      (ofTables (configTables spec ownerNs)).paths := by
  have settings : Consistent
      (ofTables (settingsTables spec ownerNs)).headers
      (ofTables (settingsTables spec ownerNs)).paths := by
    rw [headers_settingsTables, paths_settingsTables]
    exact consistent_fixedTables.1
  have modules := consistent_siblings (@nodup_namedModules spec)
    "modules".toList "enabled".toList
    (fun entry : Text × Bool => Scalar.boolean entry.2)
  have features := consistent_fixedTables.2 spec.crsCurated
    spec.apiSchemaSpecRef.isSome
  have behind := modules.append features (below_modules _).1
    (below_features _ _)
  refine settings.append behind (below_settings spec ownerNs) ?_
  intro header member
  rw [headers_ofTables_append, List.mem_append] at member
  rcases member with inside | inside
  · exact (below_modules _).2 header inside
  · exact (roots_fixedTables.2.2 _ _ header inside).2

/-! ## The lines of the file -/

theorem newline_not_mem_debugStr (tables : DebugTables) (text : Text) :
    '\n' ∉ debugStr tables text := by
  have each : ∀ char, '\n' ∉ escapeDebug tables char := by
    intro char member
    rw [escapeDebug] at member
    split_ifs at member with null tab carriage line backslash quote value
    · exact absurd member (by decide)
    · exact absurd member (by decide)
    · exact absurd member (by decide)
    · exact absurd member (by decide)
    · exact absurd member (by decide)
    · exact absurd member (by decide)
    · rcases List.mem_append.mp member with opening | closing
      · rcases List.mem_append.mp opening with opening | digit
        · exact absurd opening (by decide)
        · exact absurd (hexDigits_plain _ _ digit) (by decide)
      · exact absurd closing (by decide)
    · exact line (List.mem_singleton.mp member).symm
  intro member
  rcases List.mem_cons.mp member with quote | member
  · exact absurd quote (by decide)
  · rcases List.mem_append.mp member with inside | closing
    · obtain ⟨char, -, inside⟩ := List.mem_flatMap.mp inside
      exact each char inside
    · exact absurd closing (by decide)

theorem newline_not_mem_toDigits (number : Nat) :
    '\n' ∉ Nat.toDigits 10 number := by
  intro member
  exact absurd
    (Nat.isDigit_of_mem_toDigits (by decide) (by decide) member) (by decide)

theorem tame_pairLine
    {key : String} (bare : IsBare key.toList) {value : Text}
    (single : '\n' ∉ value) : tame (pairLine key value) = true := by
  refine tame_pair bare ?_
  rw [List.mem_append]
  rintro (blank | inside)
  · exact absurd blank (by decide)
  · exact single inside

/-- The lines that are the same in every file. -/
theorem tame_fixed :
    (∀ pair ∈ fixedSections, pair.1.all tame = true) ∧
      (["[proxy]", "listen = \"0.0.0.0:8080\"", "[waf]"].all
        fun text => tame text.toList) = true ∧
      (tame (pairLine "enabled" "true".toList) = true ∧
        tame (pairLine "enabled" "false".toList) = true) ∧
      "[modules.".toList.all (fun char => char != '\n' && !isQuote char) =
        true ∧
      "]".toList.all (fun char => char != '\n' && !isQuote char) = true := by
  simp only [fixedSections, resilienceSection, severitySection, limitsSection,
    crsCuratedSection, metricsSection, apiSchemaSection, pairLine,
    List.map_cons, List.map_nil, List.all_cons, List.all_nil,
    String.reduceToList]
  decide

theorem tame_proxySection (tables : DebugTables) (backend : Text) :
    ∀ text ∈ proxySection tables backend, tame text = true := by
  have fixed := List.all_eq_true.mp tame_fixed.2.1
  simp only [proxySection, List.forall_mem_cons]
  exact ⟨fixed _ (by simp), fixed _ (by simp),
    tame_pairLine (isBare_keys _ (by simp))
      (newline_not_mem_debugStr tables backend),
    fun text member => absurd member List.not_mem_nil⟩

theorem tame_wafSection
    (tables : DebugTables) (mode : Text)
    (blockThreshold paranoiaLevel : Nat) :
    ∀ text ∈ wafSection tables mode blockThreshold paranoiaLevel,
      tame text = true := by
  have fixed := List.all_eq_true.mp tame_fixed.2.1
  simp only [wafSection, List.forall_mem_cons]
  exact ⟨fixed _ (by simp),
    tame_pairLine (isBare_keys _ (by simp))
      (newline_not_mem_debugStr tables mode),
    tame_pairLine (isBare_keys _ (by simp)) (newline_not_mem_toDigits _),
    tame_pairLine (isBare_keys _ (by simp)) (newline_not_mem_toDigits _),
    fun text member => absurd member List.not_mem_nil⟩

theorem tame_enabled (enabled : Bool) :
    tame (pairLine "enabled" (debugBool enabled)) = true := by
  cases enabled with
  | true => exact tame_fixed.2.2.1.1
  | false => exact tame_fixed.2.2.1.2

theorem tame_moduleHeader {name : Text} (bare : IsBare name) :
    tame ("[modules.".toList ++ name ++ "]".toList) = true :=
  tame_between bare tame_fixed.2.2.2.1 tame_fixed.2.2.2.2

/-- Only the headers of added modules can be other than tame. -/
theorem tame_or_adds
    {tables : DebugTables} {spec : WafProxySpec} {ownerNs : Text}
    {texts : List Text} (member : texts ∈ configSections tables spec ownerNs)
    {text : Text} (inside : text ∈ texts) :
    tame text = true ∨ ∃ name, spec.Adds name ∧
      text = "[modules.".toList ++ name ++ "]".toList := by
  have fixed : ∀ own ∈ fixedSections.map Prod.fst, texts = own →
      tame text = true := by
    rintro own listed rfl
    obtain ⟨pair, among, rfl⟩ := List.mem_map.mp listed
    exact List.all_eq_true.mp (tame_fixed.1 pair among) text inside
  rw [configSections] at member
  simp only [List.mem_append, List.mem_cons, List.not_mem_nil, or_false]
    at member
  rcases member with (((settings | modules) | curated) | metrics) | schema
  · rcases settings with rfl | same | rfl | same | same
    · exact Or.inl (tame_proxySection _ _ text inside)
    · exact Or.inl (fixed _ (by simp [fixedSections]) same)
    · exact Or.inl (tame_wafSection _ _ _ _ text inside)
    · exact Or.inl (fixed _ (by simp [fixedSections]) same)
    · exact Or.inl (fixed _ (by simp [fixedSections]) same)
  · obtain ⟨entry, listed, rfl⟩ := List.mem_map.mp modules
    simp only [moduleSection, List.mem_cons, List.not_mem_nil, or_false]
      at inside
    rcases inside with header | rfl
    · by_cases default : entry.1 ∈ defaultModules
      · rw [header]
        exact Or.inl (tame_moduleHeader
          (defaultModules_wellNamed.2 entry.1 default))
      · refine Or.inr ⟨entry.1, ⟨?_, default⟩, header⟩
        exact (mem_namedModules.mp listed).1.resolve_left default
    · exact Or.inl (tame_enabled entry.2)
  · split_ifs at curated
    · exact Or.inl (fixed _ (by simp [fixedSections])
        (List.mem_singleton.mp curated))
    · cases curated
  · exact Or.inl (fixed _ (by simp [fixedSections]) metrics)
  · split_ifs at schema
    · exact Or.inl (fixed _ (by simp [fixedSections])
        (List.mem_singleton.mp schema))
    · cases schema

/-! ## What the file says -/

/-- No character of the backend is written by its code, and the names of added
modules are bare. -/
structure Renderable
    (tables : DebugTables) (spec : WafProxySpec) (ownerNs : Text) :
    Prop where
  backend : (spec.upstream ownerNs).any (byCode tables) = false
  modules : ∀ name, spec.Adds name → IsBare name

theorem isBare_of_names
    {spec : WafProxySpec} (added : ∀ name, spec.Adds name → IsBare name)
    {name : Text} (named : spec.Names name) : IsBare name := by
  by_cases default : name ∈ defaultModules
  · exact defaultModules_wellNamed.2 name default
  · exact added name ⟨named.resolve_left default, default⟩

theorem readsAs_configSections
    {tables : DebugTables} {spec : WafProxySpec} {ownerNs : Text}
    (renderable : Renderable tables spec ownerNs) :
    List.Forall₂ ReadsAs (configSections tables spec ownerNs)
      (configTables spec ownerNs) := by
  have fixed := readsAs_fixedSections
  simp only [fixedSections, List.map_cons, List.map_nil,
    List.forall₂_cons] at fixed
  obtain ⟨resilience, severity, limits, curated, metrics, schema, -⟩ := fixed
  have settings : List.Forall₂ ReadsAs
      [proxySection tables (spec.upstream ownerNs), resilienceSection,
        wafSection tables spec.mode.asConfig spec.blockThreshold.toNat
          spec.paranoiaLevel.toNat, severitySection, limitsSection]
      (settingsTables spec ownerNs) := by
    have smallThreshold := spec.blockThreshold.toNat_lt
    have smallLevel := spec.paranoiaLevel.toNat_lt
    exact .cons (readsAs_proxy tables renderable.backend)
      (.cons resilience (.cons (readsAs_waf tables spec.mode
        (by omega) (by omega)) (.cons severity (.cons limits .nil))))
  have modules : List.Forall₂ ReadsAs
      ((namedModules spec).map fun entry => moduleSection entry.1 entry.2)
      ((namedModules spec).map fun entry => moduleTable entry.1 entry.2) := by
    rw [List.forall₂_map_left_iff, List.forall₂_map_right_iff,
      List.forall₂_same]
    intro entry member
    exact readsAs_module (isBare_of_names renderable.modules
      (mem_namedModules.mp member).1) entry.2
  have features : List.Forall₂ ReadsAs
      ((if spec.crsCurated then [crsCuratedSection] else []) ++
        [metricsSection] ++
          (if spec.apiSchemaSpecRef.isSome then [apiSchemaSection] else []))
      (featureTables spec.crsCurated spec.apiSchemaSpecRef.isSome) := by
    refine List.rel_append (List.rel_append ?_ (.cons metrics .nil)) ?_
    · cases spec.crsCurated with
      | true => exact .cons curated .nil
      | false => exact .nil
    · cases spec.apiSchemaSpecRef.isSome with
      | true => exact .cons schema .nil
      | false => exact .nil
  have all := List.rel_append settings (List.rel_append modules features)
  rw [configSections, configTables]
  simpa only [List.append_assoc] using all

/-- The file reads as its tables. -/
theorem readDocument_configToml
    {tables : DebugTables} {spec : WafProxySpec} {ownerNs : Text}
    (renderable : Renderable tables spec ownerNs) :
    readDocument (configToml tables spec ownerNs) =
      some (ofTables (configTables spec ownerNs)) := by
  refine readDocument_sections ?_ (readsAs_configSections renderable) ?_
    (consistent_configTables spec ownerNs)
  · rw [configSections]
    simp
  · intro texts member text inside
    apply single_of_tame
    rcases tame_or_adds member inside with isTame | ⟨name, adds, rfl⟩
    · exact isTame
    · exact tame_moduleHeader (renderable.modules name adds)

/-- The same settings with another backend and no modules of their own. -/
def WafProxySpec.bare (spec : WafProxySpec) : WafProxySpec :=
  { spec with backend := ⟨none, none⟩, modules := HashMap.empty }

/-- A document says what a resource asks for: its backend, its settings and
its modules, and all else as without a backend and without modules. -/
structure Carries
    (spec : WafProxySpec) (ownerNs : Text) (document reference : Document) :
    Prop where
  backend : (["proxy".toList, "backend".toList],
    .string (spec.upstream ownerNs)) ∈ document.values
  mode : (["waf".toList, "mode".toList], .string spec.mode.asConfig) ∈
    document.values
  blockThreshold : (["waf".toList, "block_threshold".toList],
    .integer spec.blockThreshold.toNat) ∈ document.values
  paranoiaLevel : (["waf".toList, "paranoia_level".toList],
    .integer spec.paranoiaLevel.toNat) ∈ document.values
  modules : ∀ path scalar,
    ("modules".toList :: path, scalar) ∈ document.values ↔
      ∃ name, spec.Names name ∧ path = [name, "enabled".toList] ∧
        scalar = .boolean (spec.enables name)
  moduleTables : ∀ path, "modules".toList :: path ∈ document.headers ↔
    ∃ name, spec.Names name ∧ path = [name]
  others : ∀ path scalar, path.head? ≠ some "modules".toList →
    path ≠ ["proxy".toList, "backend".toList] →
      ((path, scalar) ∈ document.values ↔ (path, scalar) ∈ reference.values)
  otherTables : ∀ path, path.head? ≠ some "modules".toList →
    (path ∈ document.headers ↔ path ∈ reference.headers)

/-- The file is TOML that says what the resource asks for. -/
def RendersFaithfully
    (tables : DebugTables) (spec : WafProxySpec) (ownerNs : Text) : Prop :=
  ∃ document reference,
    readDocument (configToml tables spec ownerNs) = some document ∧
      readDocument (configToml tables spec.bare ownerNs) = some reference ∧
        Carries spec ownerNs document reference

theorem renderable_bare
    (tables : DebugTables) (spec : WafProxySpec) (ownerNs : Text) :
    Renderable tables spec.bare ownerNs := by
  constructor
  · apply any_byCode_printable
    show "http://127.0.0.1:0".toList.all isPrintable = true
    simp only [String.reduceToList]
    decide
  · rintro name ⟨stored, -⟩
    cases stored

section Contents

variable {spec : WafProxySpec} {ownerNs : Text}

theorem values_moduleTables :
    (ofTables ((namedModules spec).map fun entry =>
        moduleTable entry.1 entry.2)).values =
      (namedModules spec).map fun entry =>
        (["modules".toList, entry.1, "enabled".toList],
          Scalar.boolean entry.2) := by
  simp only [ofTables, Table.values, moduleTable, List.flatMap_map,
    List.map_cons, List.map_nil, List.cons_append, List.nil_append,
    ← List.map_eq_flatMap]

/-- The values of the file, by the group of tables they stand in. -/
theorem mem_values_configTables {value : List Text × Scalar} :
    value ∈ (ofTables (configTables spec ownerNs)).values ↔
      value ∈ (ofTables (settingsTables spec ownerNs)).values ∨
        (∃ name, spec.Names name ∧
          value = (["modules".toList, name, "enabled".toList],
            .boolean (spec.enables name))) ∨
        value ∈ (ofTables (featureTables spec.crsCurated
          spec.apiSchemaSpecRef.isSome)).values := by
  rw [configTables, values_ofTables_append, values_ofTables_append,
    values_moduleTables, List.mem_append, List.mem_append, List.mem_map]
  refine or_congr_right (or_congr_left ?_)
  constructor
  · rintro ⟨entry, member, rfl⟩
    obtain ⟨named, same⟩ := mem_namedModules.mp member
    exact ⟨entry.1, named, by rw [same]⟩
  · rintro ⟨name, named, rfl⟩
    exact ⟨(name, spec.enables name), mem_namedModules.mpr ⟨named, rfl⟩, rfl⟩

/-- The tables of the file. -/
theorem mem_headers_configTables {path : List Text} :
    path ∈ (ofTables (configTables spec ownerNs)).headers ↔
      path ∈ settingsHeaders ∨
        (∃ name, spec.Names name ∧ path = ["modules".toList, name]) ∨
        path ∈ (ofTables (featureTables spec.crsCurated
          spec.apiSchemaSpecRef.isSome)).headers := by
  have modules : (ofTables ((namedModules spec).map fun entry =>
      moduleTable entry.1 entry.2)).headers =
        (namedModules spec).map fun entry => ["modules".toList, entry.1] := by
    simp only [ofTables, moduleTable, List.map_map, Function.comp_def]
  rw [configTables, headers_ofTables_append, headers_ofTables_append,
    headers_settingsTables, modules, List.mem_append, List.mem_append,
    List.mem_map]
  refine or_congr_right (or_congr_left ?_)
  constructor
  · rintro ⟨entry, member, rfl⟩
    exact ⟨entry.1, (mem_namedModules.mp member).1, rfl⟩
  · rintro ⟨name, named, rfl⟩
    exact ⟨(name, spec.enables name), mem_namedModules.mpr ⟨named, rfl⟩, rfl⟩

/-- No setting stands below the key of the modules. -/
theorem head_ne_of_settings
    {path : List Text}
    (member : path ∈ (ofTables (settingsTables spec ownerNs)).headers ∨
      path ∈ (ofTables (settingsTables spec ownerNs)).paths) :
    path.head? ≠ some "modules".toList :=
  (below_settings spec ownerNs).head_ne
    (Bool.eq_false_of_not_eq_true' roots_fixedTables.2.1.2) member

/-- No feature stands below the key of the modules. -/
theorem head_ne_of_features
    {crsCurated apiSchema : Bool} {path : List Text}
    (member : path ∈ (ofTables (featureTables crsCurated apiSchema)).headers ∨
      path ∈ (ofTables (featureTables crsCurated apiSchema)).paths) :
    path.head? ≠ some "modules".toList :=
  (below_features _ _).head_ne
    (congrArg Bool.not roots_fixedTables.2.1.1) member

theorem mem_paths {document : Document} {path : List Text} {scalar : Scalar}
    (member : (path, scalar) ∈ document.values) : path ∈ document.paths :=
  List.mem_map_of_mem member

/-- A value of the settings other than the backend is the same whatever the
backend. -/
theorem mem_settings_bare
    {path : List Text} {scalar : Scalar}
    (other : path ≠ ["proxy".toList, "backend".toList]) :
    (path, scalar) ∈ (ofTables (settingsTables spec ownerNs)).values ↔
      (path, scalar) ∈
        (ofTables (settingsTables spec.bare ownerNs)).values := by
  have split : ∀ spec : WafProxySpec,
      (path, scalar) ∈ (ofTables (settingsTables spec ownerNs)).values ↔
        (path, scalar) = (["proxy".toList, "listen".toList],
            words "0.0.0.0:8080") ∨
          (path, scalar) ∈ (ofTables (policyTables spec)).values := by
    intro spec
    have own : (proxyTable (spec.upstream ownerNs)).values =
        [(["proxy".toList, "listen".toList], words "0.0.0.0:8080"),
          (["proxy".toList, "backend".toList],
            .string (spec.upstream ownerNs))] := by
      simp only [Table.values, proxyTable, table, List.map_cons,
        List.map_nil, List.cons_append, List.nil_append]
    have differs : (path, scalar) ≠ (["proxy".toList, "backend".toList],
        .string (spec.upstream ownerNs)) :=
      fun same => other (congrArg Prod.fst same)
    rw [settingsTables, ← List.singleton_append, values_ofTables_append,
      List.mem_append]
    refine or_congr_left ?_
    rw [mem_values_ofTables]
    simp only [exists_eq_left, own, List.mem_cons, List.not_mem_nil,
      or_false, or_iff_left differs]
  rw [split spec, split spec.bare]
  exact Iff.rfl

theorem mem_of_settings
    {table : Table} (own : table ∈ settingsTables spec ownerNs)
    {value : List Text × Scalar} (inside : value ∈ table.values) :
    value ∈ (ofTables (configTables spec ownerNs)).values :=
  mem_values_configTables.mpr (Or.inl
    (mem_values_ofTables.mpr ⟨table, own, inside⟩))

theorem mem_settings_proxy :
    proxyTable (spec.upstream ownerNs) ∈ settingsTables spec ownerNs :=
  List.mem_cons_self

theorem mem_settings_waf :
    wafTable spec.mode.asConfig spec.blockThreshold.toNat
      spec.paranoiaLevel.toNat ∈ settingsTables spec ownerNs :=
  List.mem_cons_of_mem _ (List.mem_cons_of_mem _ List.mem_cons_self)

/-- The values of the policy. -/
theorem mem_values_wafTable
    {mode : Text} {blockThreshold paranoiaLevel : Nat}
    {value : List Text × Scalar} :
    value ∈ (wafTable mode blockThreshold paranoiaLevel).values ↔
      value = (["waf".toList, "mode".toList], .string mode) ∨
        value = (["waf".toList, "block_threshold".toList],
          .integer blockThreshold) ∨
        value = (["waf".toList, "paranoia_level".toList],
          .integer paranoiaLevel) := by
  simp only [Table.values, wafTable, table, List.map_cons, List.map_nil,
    List.cons_append, List.nil_append, List.mem_cons, List.not_mem_nil,
    or_false]

/-- The tables of the file carry what the resource asks for. -/
theorem carries_configTables :
    Carries spec ownerNs (ofTables (configTables spec ownerNs))
      (ofTables (configTables spec.bare ownerNs)) := by
  constructor
  case backend =>
    refine mem_of_settings mem_settings_proxy ?_
    simp only [Table.values, proxyTable, table, List.map_cons, List.map_nil,
      List.cons_append, List.nil_append, List.mem_cons, true_or, or_true]
  case mode =>
    exact mem_of_settings mem_settings_waf
      (mem_values_wafTable.mpr (Or.inl rfl))
  case blockThreshold =>
    exact mem_of_settings mem_settings_waf
      (mem_values_wafTable.mpr (Or.inr (Or.inl rfl)))
  case paranoiaLevel =>
    exact mem_of_settings mem_settings_waf
      (mem_values_wafTable.mpr (Or.inr (Or.inr rfl)))
  case modules =>
    intro path scalar
    rw [mem_values_configTables]
    constructor
    · rintro (settings | ⟨name, named, same⟩ | features)
      · exact absurd rfl (head_ne_of_settings (Or.inr (mem_paths settings)))
      · obtain ⟨paths, scalars⟩ := Prod.mk.inj same
        exact ⟨name, named, (List.cons.inj paths).2, scalars⟩
      · exact absurd rfl (head_ne_of_features (Or.inr (mem_paths features)))
    · rintro ⟨name, named, rfl, rfl⟩
      exact Or.inr (Or.inl ⟨name, named, rfl⟩)
  case moduleTables =>
    intro path
    rw [mem_headers_configTables, ← headers_settingsTables spec ownerNs]
    constructor
    · rintro (settings | ⟨name, named, same⟩ | features)
      · exact absurd rfl (head_ne_of_settings (Or.inl settings))
      · exact ⟨name, named, (List.cons.inj same).2⟩
      · exact absurd rfl (head_ne_of_features (Or.inl features))
    · rintro ⟨name, named, rfl⟩
      exact Or.inr (Or.inl ⟨name, named, rfl⟩)
  case others =>
    intro path scalar outside other
    rw [mem_values_configTables, mem_values_configTables,
      mem_settings_bare other]
    refine or_congr_right (or_congr_left ?_)
    constructor
    · rintro ⟨name, -, same⟩
      rw [(Prod.mk.inj same).1] at outside
      exact absurd rfl outside
    · rintro ⟨name, -, same⟩
      rw [(Prod.mk.inj same).1] at outside
      exact absurd rfl outside
  case otherTables =>
    intro path outside
    rw [mem_headers_configTables, mem_headers_configTables]
    refine or_congr_right (or_congr_left ?_)
    constructor
    · rintro ⟨name, -, rfl⟩
      exact absurd rfl outside
    · rintro ⟨name, -, rfl⟩
      exact absurd rfl outside

end Contents

/-! ## When the file is faithful -/

section Faithfulness

variable {tables : DebugTables} {spec : WafProxySpec} {ownerNs : Text}

theorem mem_of_section
    {texts : List Text} (member : texts ∈ configSections tables spec ownerNs)
    {text : Text} (inside : text ∈ texts) :
    text ∈ List.intercalate [[]] (configSections tables spec ownerNs) :=
  (infix_intercalate member).subset inside

/-- A file that can be read has no code in its backend. -/
theorem plain_of_readDocument
    {document : Document}
    (reads : readDocument (configToml tables spec ownerNs) = some document) :
    (spec.upstream ownerNs).any (byCode tables) = false := by
  have inside : pairLine "backend" (debugStr tables (spec.upstream ownerNs)) ∈
      proxySection tables (spec.upstream ownerNs) := by
    simp only [proxySection, List.mem_cons, true_or, or_true]
  have member : pairLine "backend" (debugStr tables (spec.upstream ownerNs)) ∈
      List.intercalate [[]] (configSections tables spec ownerNs) := by
    refine mem_of_section ?_ inside
    simp only [configSections, List.mem_append, List.mem_cons, true_or]
  have readable := readLine_of_mem reads member
    (single_of_tame (tame_proxySection tables _ _ inside))
  rw [pairLine, readLine_debugStr tables (isBare_keys _ (by simp))] at readable
  cases code : (spec.upstream ownerNs).any (byCode tables) with
  | true =>
      rw [code] at readable
      exact absurd rfl readable
  | false => rfl

/-- An added module whose name is not bare can only be named within the name
of another one. -/
theorem longer_of_carries
    {document reference : Document}
    (reads : readDocument (configToml tables spec ownerNs) = some document)
    (carries : Carries spec ownerNs document reference)
    {name : Text} (adds : spec.Adds name) (quoted : ¬ IsBare name) :
    ∃ other, spec.Adds other ∧ ¬ IsBare other ∧
      name.length < other.length := by
  have value := (carries.modules [name, "enabled".toList] _).mpr
    ⟨name, Or.inr adds.1, rfl, rfl⟩
  have named : name ∈ ["modules".toList, name] :=
    List.mem_cons_of_mem _ (List.mem_singleton_self _)
  rcases quotes_of_mem_values reads value named with
    bare | ⟨text, member, untame, quotes⟩
  · exact absurd bare quoted
  · have inside : text ∈
        (configSections tables spec ownerNs).flatMap ([] :: ·) := by
      rw [← cons_intercalate (by simp [configSections])]
      exact List.mem_cons_of_mem _ member
    obtain ⟨texts, own, inside⟩ := List.mem_flatMap.mp inside
    rcases List.mem_cons.mp inside with rfl | inside
    · cases untame
    · rcases tame_or_adds own inside with isTame | ⟨other, also, rfl⟩
      · rw [isTame] at untame
        cases untame
      · have clear : ∀ text : Text,
            text.all (fun char => char != '\n' && !isQuote char) = true →
              ∀ char ∈ text, isQuote char = false := by
          intro text all char member
          have both := List.all_eq_true.mp all char member
          exact Bool.eq_false_of_not_eq_true'
            (Bool.and_eq_true_iff.mp both).2
        rw [List.append_assoc] at quotes
        have between := quotes.within (clear _ tame_fixed.2.2.2.1)
          (clear _ tame_fixed.2.2.2.2)
        exact ⟨other, also, between.not_isBare, between.length_lt⟩

theorem mem_keys_of_adds {name : Text} (adds : spec.Adds name) :
    name ∈ spec.modules.entries.map Prod.fst := by
  obtain ⟨enabled, found⟩ := Option.isSome_iff_exists.mp adds.1
  exact List.mem_map_of_mem (HashMap.get_eq_some_iff.mp found)

/-- A faithful file names only modules with bare names. -/
theorem isBare_of_rendersFaithfully
    (faithful : RendersFaithfully tables spec ownerNs)
    {name : Text} (adds : spec.Adds name) : IsBare name := by
  obtain ⟨document, reference, reads, -, carries⟩ := faithful
  have none := @not_of_longer (spec.modules.entries.map Prod.fst)
    (fun name => spec.Adds name ∧ ¬ IsBare name) ?_ name
    (mem_keys_of_adds adds)
  · by_contra quoted
    exact none ⟨adds, quoted⟩
  · rintro name - ⟨adds, quoted⟩
    obtain ⟨other, also, otherQuoted, longer⟩ :=
      longer_of_carries reads carries adds quoted
    exact ⟨other, mem_keys_of_adds also, ⟨also, otherQuoted⟩, longer⟩

end Faithfulness

/-- The file says what the resource asks for exactly when no character of the
backend is written by its code and the added modules have bare names. -/
theorem rendersFaithfully_iff
    (tables : DebugTables) (spec : WafProxySpec) (ownerNs : Text) :
    RendersFaithfully tables spec ownerNs ↔
      Renderable tables spec ownerNs := by
  constructor
  · intro faithful
    refine ⟨?_, fun name adds => isBare_of_rendersFaithfully faithful adds⟩
    obtain ⟨document, reference, reads, -, -⟩ := faithful
    exact plain_of_readDocument reads
  · intro renderable
    exact ⟨_, _, readDocument_configToml renderable,
      readDocument_configToml (renderable_bare tables spec ownerNs),
      carries_configTables⟩

/-- A resource with a module whose name has a dot. -/
def dottedModule : WafProxySpec where
  backend := ⟨none, some "http://legacy:9000".toList⟩
  mode := .blocking
  paranoiaLevel := 3
  blockThreshold := 3
  modules := HashMap.empty.insert "acme.sqli".toList false
  crsCurated := true
  apiSchemaSpecRef := none

/-- The dot opens a table `acme` below the modules. -/
theorem not_rendersFaithfully_dottedModule :
    ¬ RendersFaithfully ⟨fun _ => false⟩ dottedModule "prod".toList := by
  intro faithful
  have added : dottedModule.modules.containsKey "acme.sqli".toList = true ∧
      "acme.sqli".toList ∉ defaultModules ∧
        ¬ IsBare "acme.sqli".toList := by
    simp only [dottedModule, defaultModules, List.map_cons, List.map_nil,
      String.reduceToList]
    decide
  exact added.2.2 (isBare_of_rendersFaithfully faithful
    ⟨added.1, added.2.1⟩)

end LightWaf.Operator
