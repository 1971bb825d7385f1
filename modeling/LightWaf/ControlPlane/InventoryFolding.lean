import LightWaf.ControlPlane.Inventory
import LightWaf.Theory.Grouping
import Mathlib.Data.BitVec
import Mathlib.Data.Prod.Lex

/-!
# Folding observed paths into endpoints

The embedding of `build_inventory` of `waf-controlplane/src/inventory.rs`.
Observed paths fold into one entry for each method and template, where every
segment that looks like an identifier is a hole.  They are classified by the
declared routes, which may name such a segment.  No undeclared path is hidden
as long as the paths that fold together agree, which the code takes for
granted.
-/

namespace LightWaf.ControlPlane.Inventory

open LightWaf.Rust
open LightWaf.Theory.StableSort
open LightWaf.Theory.Grouping

/-! ## Templates -/

/-- `u8::is_ascii_digit`. -/
def isDigitByte (byte : UInt8) : Bool :=
  0x30 ≤ byte && byte ≤ 0x39

/-- `u8::is_ascii_hexdigit`. -/
def isHexByte (byte : UInt8) : Bool :=
  isDigitByte byte || (0x41 ≤ byte && byte ≤ 0x46) ||
    (0x61 ≤ byte && byte ≤ 0x66)

/-- `is_uuid`: hexadecimal digits in the shape `8-4-4-4-12`. -/
def isUuid (segment : Text) : Bool :=
  (asBytes segment).length == 36 &&
    (asBytes segment).zipIdx.all fun (byte, index) =>
      if index = 8 ∨ index = 13 ∨ index = 18 ∨ index = 23 then byte == 0x2d
      else isHexByte byte

/-- `is_variable_segment`. -/
def isVariableSegment (segment : Text) : Bool :=
  if segment.isEmpty then false
  else
    (asBytes segment).all isDigitByte ||
      (decide (16 ≤ (asBytes segment).length) &&
        (asBytes segment).all isHexByte) ||
      isUuid segment

/-- One segment of a template, with the slash before it. -/
def templatizeSegment (segment : Text) : Text :=
  '/' :: if isVariableSegment segment then "\x7b\x7d".toList else segment

/-- `templatize`. -/
def templatize (path : Text) : Text :=
  if (splitSegments path).isEmpty then ['/']
  else (splitSegments path).flatMap templatizeSegment

/-! ## The inventory -/

/-- `ObservedPath`; the instants are in nanoseconds. -/
structure ObservedPath where
  method : Text
  path : Text
  hits : BitVec 64
  firstSeen : Int
  lastSeen : Int

/-- `EndpointEntry`. -/
structure EndpointEntry where
  method : Text
  path : Text
  classification : Classification
  hits : BitVec 64
  firstSeen : Int
  lastSeen : Int
deriving DecidableEq

/-- `merge`: documented dominates shadow, which dominates unclassified. -/
def merge : Classification → Classification → Classification
  | .documented, _ => .documented
  | _, .documented => .documented
  | .shadow, _ => .shadow
  | _, .shadow => .shadow
  | .unclassified, .unclassified => .unclassified

/-- How an observed path is classified, with a specification or without. -/
def classification (routes : Option (List Route)) (observed : ObservedPath) :
    Classification :=
  (routes.map fun routes =>
    classify routes observed.method observed.path).getD .unclassified

/-- The key of the entry that a path folds into. -/
def endpoint (observed : ObservedPath) : Text ×ₗ Text :=
  toLex (observed.method, templatize observed.path)

/-- The body of the loop: an observed path is folded into its entry. -/
def foldPath (routes : Option (List Route)) (entry : Option EndpointEntry)
    (observed : ObservedPath) : EndpointEntry :=
  let found := classification routes observed
  let entry := entry.getD
    ⟨observed.method, templatize observed.path, found, 0,
      observed.firstSeen, observed.lastSeen⟩
  { entry with
    hits := entry.hits + observed.hits
    classification := merge entry.classification found
    firstSeen :=
      if observed.firstSeen < entry.firstSeen then observed.firstSeen
      else entry.firstSeen
    lastSeen :=
      if observed.lastSeen > entry.lastSeen then observed.lastSeen
      else entry.lastSeen }

/-- `build_inventory`; the map is iterated in the order of its keys. -/
def buildInventory (observed : List ObservedPath)
    (routes : Option (List Route)) : List EndpointEntry :=
  sortByKey
    (fun entry => toLex (OrderDual.toDual entry.hits.toInt, entry.path))
    (valuesInOrder (groupBy endpoint (foldPath routes) observed))

/-! ## What is asked of an inventory -/

/-- The path folds into the entry. -/
def Folds (observed : ObservedPath) (entry : EndpointEntry) : Prop :=
  observed.method = entry.method ∧ templatize observed.path = entry.path

/-- An inventory that accounts for what was observed and hides nothing. -/
structure HidesNothing (routes : Option (List Route))
    (observed : List ObservedPath) (inventory : List EndpointEntry) :
    Prop where
  conserves : (inventory.map EndpointEntry.hits).sum =
    (observed.map ObservedPath.hits).sum
  once : (inventory.map fun entry => (entry.method, entry.path)).Nodup
  entered : ∀ path ∈ observed, ∃ entry ∈ inventory, Folds path entry
  firstSeen : ∀ entry ∈ inventory,
    IsLeast {instant | ∃ path ∈ observed, Folds path entry ∧
      path.firstSeen = instant} entry.firstSeen
  lastSeen : ∀ entry ∈ inventory,
    IsGreatest {instant | ∃ path ∈ observed, Folds path entry ∧
      path.lastSeen = instant} entry.lastSeen
  documented : ∀ entry ∈ inventory, entry.classification = .documented →
    ∀ path ∈ observed, Folds path entry →
      classification routes path = .documented
  visible : ∀ path ∈ observed, classification routes path = .shadow →
    ∃ entry ∈ inventory, Folds path entry ∧ entry.classification = .shadow

/-- The inventory hides nothing and does not depend on the order. -/
def FoldsFaithfully (routes : Option (List Route))
    (observed : List ObservedPath) : Prop :=
  HidesNothing routes observed (buildInventory observed routes) ∧
    ∀ other : List ObservedPath, other.Perm observed →
      buildInventory other routes = buildInventory observed routes

/-- The raw paths under one template agree. -/
def TemplatesAgree (routes : Option (List Route))
    (observed : List ObservedPath) : Prop :=
  ∀ path ∈ observed, ∀ other ∈ observed, path.method = other.method →
    templatize path.path = templatize other.path →
    classification routes path = .documented →
    classification routes other ≠ .shadow

/-! ## One entry -/

/-- What an entry holds of the paths that fold into it, in any order. -/
structure Summarizes (routes : Option (List Route))
    (group : List ObservedPath) (entry : EndpointEntry) : Prop where
  folds : ∀ path ∈ group, Folds path entry
  hits : entry.hits = (group.map ObservedPath.hits).sum
  firstSeen : IsLeast {instant | ∃ path ∈ group, path.firstSeen = instant}
    entry.firstSeen
  lastSeen : IsGreatest {instant | ∃ path ∈ group, path.lastSeen = instant}
    entry.lastSeen
  documented : entry.classification = .documented ↔
    ∃ path ∈ group, classification routes path = .documented
  unclassified : entry.classification = .unclassified ↔
    ∀ path ∈ group, classification routes path = .unclassified

theorem merge_eq_documented_iff (first second : Classification) :
    merge first second = .documented ↔
      first = .documented ∨ second = .documented := by
  cases first <;> cases second <;> decide

theorem merge_eq_unclassified_iff (first second : Classification) :
    merge first second = .unclassified ↔
      first = .unclassified ∧ second = .unclassified := by
  cases first <;> cases second <;> decide

variable {routes : Option (List Route)}

/-- The first path of an entry. -/
theorem summarizes_singleton (path : ObservedPath) :
    Summarizes routes [path] (foldPath routes none path) where
  folds := by
    intro other member
    rw [List.mem_singleton.mp member]
    exact ⟨rfl, rfl⟩
  hits := by simp [foldPath]
  firstSeen := by simp [foldPath, IsLeast, lowerBounds]
  lastSeen := by simp [foldPath, IsGreatest, upperBounds]
  documented := by simp [foldPath, merge_eq_documented_iff]
  unclassified := by simp [foldPath, merge_eq_unclassified_iff]

/-- One more path of an entry. -/
theorem Summarizes.append_singleton
    {group : List ObservedPath} {entry : EndpointEntry}
    (summarizes : Summarizes routes group entry) {path : ObservedPath}
    (folds : Folds path entry) :
    Summarizes routes (group ++ [path])
      (foldPath routes (some entry) path) where
  folds := by
    intro other member
    rcases List.mem_append.mp member with earlier | last
    · exact summarizes.folds other earlier
    · rw [List.mem_singleton.mp last]
      exact folds
  hits := by
    rw [List.map_append, List.sum_append, ← summarizes.hits]
    simp [foldPath]
  firstSeen := by
    obtain ⟨⟨first, member, seen⟩, least⟩ := summarizes.firstSeen
    simp only [foldPath, Option.getD_some]
    split_ifs with earlier
    · refine ⟨⟨path, by simp, rfl⟩, ?_⟩
      rintro instant ⟨other, otherMember, rfl⟩
      rcases List.mem_append.mp otherMember with inGroup | last
      · exact earlier.le.trans (least ⟨other, inGroup, rfl⟩)
      · rw [List.mem_singleton.mp last]
    · refine ⟨⟨first, List.mem_append_left _ member, seen⟩, ?_⟩
      rintro instant ⟨other, otherMember, rfl⟩
      rcases List.mem_append.mp otherMember with inGroup | last
      · exact least ⟨other, inGroup, rfl⟩
      · rw [List.mem_singleton.mp last]
        exact not_lt.mp earlier
  lastSeen := by
    obtain ⟨⟨last, member, seen⟩, greatest⟩ := summarizes.lastSeen
    simp only [foldPath, Option.getD_some]
    split_ifs with later
    · refine ⟨⟨path, by simp, rfl⟩, ?_⟩
      rintro instant ⟨other, otherMember, rfl⟩
      rcases List.mem_append.mp otherMember with inGroup | added
      · exact (greatest ⟨other, inGroup, rfl⟩).trans later.le
      · rw [List.mem_singleton.mp added]
    · refine ⟨⟨last, List.mem_append_left _ member, seen⟩, ?_⟩
      rintro instant ⟨other, otherMember, rfl⟩
      rcases List.mem_append.mp otherMember with inGroup | added
      · exact greatest ⟨other, inGroup, rfl⟩
      · rw [List.mem_singleton.mp added]
        exact not_lt.mp later
  documented := by
    simp only [foldPath, Option.getD_some, merge_eq_documented_iff,
      summarizes.documented, List.mem_append, List.mem_singleton, or_and_right,
      exists_or, exists_eq_left]
  unclassified := by
    simp only [foldPath, Option.getD_some, merge_eq_unclassified_iff,
      summarizes.unclassified, List.mem_append, List.mem_singleton,
      or_imp, forall_and, forall_eq]

/-- The summary of the paths of one endpoint. -/
theorem summarizes_summary
    {key : Text ×ₗ Text} {group : List ObservedPath}
    (same : ∀ path ∈ group, endpoint path = key) (nonempty : group ≠ []) :
    ∃ entry, summary (foldPath routes) group = some entry ∧
      Summarizes routes group entry := by
  induction group using List.reverseRecOn with
  | nil => exact absurd rfl nonempty
  | append_singleton group path induction =>
      rw [summary_append_singleton]
      by_cases empty : group = []
      · subst empty
        exact ⟨_, rfl, summarizes_singleton path⟩
      · obtain ⟨entry, folded, summarizes⟩ := induction
          (fun other member => same other (List.mem_append_left _ member))
          empty
        refine ⟨_, rfl, ?_⟩
        rw [folded]
        apply summarizes.append_singleton
        -- The path has the key of any other path of the group.
        obtain ⟨other, member⟩ := List.exists_mem_of_ne_nil group empty
        have shared : endpoint path = endpoint other :=
          (same path (by simp)).trans
            (same other (List.mem_append_left _ member)).symm
        obtain ⟨method, template⟩ := Prod.ext_iff.mp (toLex.injective shared)
        exact ⟨method.trans (summarizes.folds other member).1,
          template.trans (summarizes.folds other member).2⟩

/-- An entry is told by its paths. -/
theorem Summarizes.unique
    {group : List ObservedPath} {entry other : EndpointEntry}
    (summarizes : Summarizes routes group entry)
    (summarizesToo : Summarizes routes group other) : other = entry := by
  obtain ⟨⟨path, member, -⟩, -⟩ := summarizes.firstSeen
  have folds := summarizes.folds path member
  have foldsToo := summarizesToo.folds path member
  have documented :=
    summarizesToo.documented.trans summarizes.documented.symm
  have unclassified :=
    summarizesToo.unclassified.trans summarizes.unclassified.symm
  have classified : other.classification = entry.classification := by
    cases found : other.classification with
    | documented => exact (documented.mp found).symm
    | unclassified => exact (unclassified.mp found).symm
    | shadow =>
        cases kept : entry.classification with
        | documented =>
            rw [documented.mpr kept] at found
            cases found
        | unclassified =>
            rw [unclassified.mpr kept] at found
            cases found
        | shadow => rfl
  have firstSeen := summarizesToo.firstSeen.unique summarizes.firstSeen
  have lastSeen := summarizesToo.lastSeen.unique summarizes.lastSeen
  have hits := summarizesToo.hits.trans summarizes.hits.symm
  cases entry
  cases other
  rw [EndpointEntry.mk.injEq]
  exact ⟨foldsToo.1.symm.trans folds.1, foldsToo.2.symm.trans folds.2,
    classified, hits, firstSeen, lastSeen⟩

/-- The order of the paths does not matter. -/
theorem Summarizes.of_perm
    {group other : List ObservedPath} {entry : EndpointEntry}
    (summarizes : Summarizes routes group entry) (perm : other.Perm group) :
    Summarizes routes other entry where
  folds := fun path member =>
    summarizes.folds path (perm.mem_iff.mp member)
  hits := by rw [summarizes.hits, (perm.map _).sum_eq]
  firstSeen := by simpa only [perm.mem_iff] using summarizes.firstSeen
  lastSeen := by simpa only [perm.mem_iff] using summarizes.lastSeen
  documented := by simpa only [perm.mem_iff] using summarizes.documented
  unclassified := by simpa only [perm.mem_iff] using summarizes.unclassified

/-! ## The whole inventory -/

/-- The observed paths of an endpoint. -/
def groupOf (observed : List ObservedPath) (key : Text ×ₗ Text) :
    List ObservedPath :=
  observed.filter fun path => endpoint path = key

theorem mem_groupOf_iff
    {observed : List ObservedPath} {key : Text ×ₗ Text}
    {path : ObservedPath} :
    path ∈ groupOf observed key ↔ path ∈ observed ∧ endpoint path = key := by
  simp [groupOf]

/-- Under each endpoint stands the summary of its paths. -/
theorem get_groupBy_eq_some_iff
    {observed : List ObservedPath} {key : Text ×ₗ Text}
    {entry : EndpointEntry} :
    (groupBy endpoint (foldPath routes) observed).get key = some entry ↔
      Summarizes routes (groupOf observed key) entry := by
  rw [get_groupBy]
  change summary (foldPath routes) (groupOf observed key) = some entry ↔ _
  by_cases empty : groupOf observed key = []
  · rw [empty]
    constructor
    · intro found
      cases found
    · intro summarizes
      obtain ⟨⟨path, member, -⟩, -⟩ := summarizes.firstSeen
      exact absurd member List.not_mem_nil
  · obtain ⟨summarized, folded, summarizes⟩ := summarizes_summary
      (fun path member => (mem_groupOf_iff.mp member).2) empty
    rw [folded, Option.some_inj]
    constructor
    · rintro rfl
      exact summarizes
    · intro also
      exact also.unique summarizes

/-- The entries of the inventory are the summaries of the endpoints. -/
theorem mem_buildInventory_iff
    {observed : List ObservedPath} {entry : EndpointEntry} :
    entry ∈ buildInventory observed routes ↔
      ∃ key, Summarizes routes (groupOf observed key) entry := by
  rw [buildInventory, (sortByKey_perm _ _).mem_iff, mem_valuesInOrder_iff]
  simp only [get_groupBy_eq_some_iff]

/-- The key of an entry is its method and path. -/
theorem Summarizes.key_eq
    {observed : List ObservedPath} {key : Text ×ₗ Text}
    {entry : EndpointEntry}
    (summarizes : Summarizes routes (groupOf observed key) entry) :
    toLex (entry.method, entry.path) = key := by
  obtain ⟨⟨path, member, -⟩, -⟩ := summarizes.firstSeen
  obtain ⟨method, template⟩ := summarizes.folds path member
  rw [← method, ← template]
  exact (mem_groupOf_iff.mp member).2

/-- The paths of an entry are the observed ones that fold into it. -/
theorem Summarizes.mem_iff
    {observed : List ObservedPath} {key : Text ×ₗ Text}
    {entry : EndpointEntry}
    (summarizes : Summarizes routes (groupOf observed key) entry)
    {path : ObservedPath} :
    path ∈ groupOf observed key ↔ path ∈ observed ∧ Folds path entry := by
  rw [mem_groupOf_iff, ← summarizes.key_eq, endpoint, Folds,
    toLex.injective.eq_iff, Prod.mk.injEq]

/-- An observed path has an entry. -/
theorem exists_summarizes
    (routes : Option (List Route)) {observed : List ObservedPath}
    {path : ObservedPath} (member : path ∈ observed) :
    ∃ entry ∈ buildInventory observed routes, Folds path entry ∧
      Summarizes routes (groupOf observed (endpoint path)) entry := by
  have inGroup : path ∈ groupOf observed (endpoint path) :=
    mem_groupOf_iff.mpr ⟨member, rfl⟩
  obtain ⟨entry, -, summarizes⟩ := summarizes_summary
    (fun other inside => (mem_groupOf_iff.mp inside).2)
    (List.ne_nil_of_mem inGroup)
  exact ⟨entry, mem_buildInventory_iff.mpr ⟨_, summarizes⟩,
    summarizes.folds path inGroup, summarizes⟩

theorem buildInventory_perm (observed : List ObservedPath) :
    (buildInventory observed routes).Perm
      ((groupBy endpoint (foldPath routes) observed).entries.map Prod.snd) :=
  (sortByKey_perm _ _).trans (valuesInOrder_perm _)

theorem sum_hits_buildInventory (observed : List ObservedPath) :
    ((buildInventory observed routes).map EndpointEntry.hits).sum =
      (observed.map ObservedPath.hits).sum := by
  rw [((buildInventory_perm observed).map _).sum_eq, List.map_map]
  apply sum_groupBy
  intro folded path
  cases folded <;> rfl

/-- Every method and template has one entry. -/
theorem nodup_buildInventory (observed : List ObservedPath) :
    ((buildInventory observed routes).map fun entry =>
      (entry.method, entry.path)).Nodup := by
  rw [((buildInventory_perm observed).map _).nodup_iff, List.map_map]
  have keys : ∀ stored ∈
      (groupBy endpoint (foldPath routes) observed).entries,
      ((fun entry : EndpointEntry => (entry.method, entry.path)) ∘
        Prod.snd) stored = (ofLex ∘ Prod.fst) stored := by
    intro stored member
    have summarizes := get_groupBy_eq_some_iff.mp
      (HashMap.get_eq_some_iff.mpr member)
    rw [Function.comp_apply, Function.comp_apply, ← summarizes.key_eq]
    rfl
  rw [List.map_congr_left keys, ← List.map_map]
  exact (groupBy endpoint (foldPath routes) observed).nodupKeys.map
    ofLex.injective

/-- The order of the observed paths does not matter. -/
theorem buildInventory_eq_of_perm
    {observed other : List ObservedPath} (perm : other.Perm observed) :
    buildInventory other routes = buildInventory observed routes := by
  rw [buildInventory, buildInventory]
  apply congrArg
  apply valuesInOrder_eq_of_get_eq
  intro key
  apply Option.ext
  intro entry
  rw [get_groupBy_eq_some_iff, get_groupBy_eq_some_iff]
  constructor
  · intro summarizes
    exact summarizes.of_perm (perm.symm.filter _)
  · intro summarizes
    exact summarizes.of_perm (perm.filter _)

/-! ## Hidden paths -/

theorem classifyRoutes_ne_unclassified
    (request : List Text) (method : Text) (declared : List Route) :
    classifyRoutes request method declared ≠ .unclassified := by
  induction declared with
  | nil => exact fun same => by cases same
  | cons route rest induction =>
      rw [classifyRoutes]
      split_ifs
      · exact fun same => by cases same
      · exact fun same => by cases same
      · exact induction

/-- With a specification every path is classified. -/
theorem classification_eq_unclassified_iff (path : ObservedPath) :
    classification routes path = .unclassified ↔ routes = none := by
  cases routes with
  | none => exact ⟨fun _ => rfl, fun _ => rfl⟩
  | some declared =>
      constructor
      · intro found
        exact absurd found (classifyRoutes_ne_unclassified _ _ declared)
      · intro absent
        cases absent

/-- Where the paths under one template agree, nothing is hidden. -/
theorem hidesNothing_of_templatesAgree
    {observed : List ObservedPath} (agree : TemplatesAgree routes observed) :
    HidesNothing routes observed (buildInventory observed routes) where
  conserves := sum_hits_buildInventory observed
  once := nodup_buildInventory observed
  entered := by
    intro path member
    obtain ⟨entry, listed, folds, -⟩ := exists_summarizes routes member
    exact ⟨entry, listed, folds⟩
  firstSeen := by
    intro entry listed
    obtain ⟨key, summarizes⟩ := mem_buildInventory_iff.mp listed
    have least := summarizes.firstSeen
    simp only [summarizes.mem_iff, and_assoc] at least
    exact least
  lastSeen := by
    intro entry listed
    obtain ⟨key, summarizes⟩ := mem_buildInventory_iff.mp listed
    have greatest := summarizes.lastSeen
    simp only [summarizes.mem_iff, and_assoc] at greatest
    exact greatest
  documented := by
    intro entry listed documented path member folds
    obtain ⟨key, summarizes⟩ := mem_buildInventory_iff.mp listed
    obtain ⟨declared, inGroup, known⟩ := summarizes.documented.mp documented
    obtain ⟨observedToo, declaredFolds⟩ := summarizes.mem_iff.mp inGroup
    have notShadow := agree declared observedToo path member
      (declaredFolds.1.trans folds.1.symm)
      (declaredFolds.2.trans folds.2.symm) known
    cases found : classification routes path with
    | documented => rfl
    | shadow => exact absurd found notShadow
    | unclassified =>
        rw [(classification_eq_unclassified_iff path).mp found] at known
        cases known
  visible := by
    intro path member undeclared
    obtain ⟨entry, listed, folds, summarizes⟩ :=
      exists_summarizes routes member
    have inGroup := summarizes.mem_iff.mpr ⟨member, folds⟩
    refine ⟨entry, listed, folds, ?_⟩
    cases found : entry.classification with
    | shadow => rfl
    | documented =>
        obtain ⟨declared, inside, known⟩ := summarizes.documented.mp found
        obtain ⟨observedToo, declaredFolds⟩ := summarizes.mem_iff.mp inside
        exact absurd undeclared (agree declared observedToo path member
          (declaredFolds.1.trans folds.1.symm)
          (declaredFolds.2.trans folds.2.symm) known)
    | unclassified =>
        rw [summarizes.unclassified.mp found path inGroup] at undeclared
        cases undeclared

/-- What is not hidden folds with undeclared paths only. -/
theorem HidesNothing.templatesAgree
    {observed : List ObservedPath}
    (hides : HidesNothing routes observed (buildInventory observed routes)) :
    TemplatesAgree routes observed := by
  intro path member other otherMember method template known undeclared
  obtain ⟨entry, listed, folds, shadow⟩ :=
    hides.visible other otherMember undeclared
  obtain ⟨key, summarizes⟩ := mem_buildInventory_iff.mp listed
  have inGroup := summarizes.mem_iff.mpr
    ⟨member, method.trans folds.1, template.trans folds.2⟩
  rw [summarizes.documented.mpr ⟨path, inGroup, known⟩] at shadow
  cases shadow

/--
For every specification and every list of observed paths the inventory
accounts for all of them, in any order, and hides no undeclared one, if and
only if the raw paths under each template agree.
-/
theorem foldsFaithfully_iff
    (routes : Option (List Route)) (observed : List ObservedPath) :
    FoldsFaithfully routes observed ↔ TemplatesAgree routes observed := by
  constructor
  · intro faithful
    exact faithful.1.templatesAgree
  · intro agree
    exact ⟨hidesNothing_of_templatesAgree agree,
      fun _ perm => buildInventory_eq_of_perm perm⟩

/-- The routes of a specification that declares `GET /users/5` only. -/
def oneUserRoutes : List Route :=
  [⟨parseTemplate "/users/5".toList, ["get".toList]⟩]

/-- The undeclared `GET /users/6` folds into the declared `GET /users/5`. -/
theorem not_foldsFaithfully_oneUser :
    ¬ FoldsFaithfully (some oneUserRoutes)
      [⟨"GET".toList, "/users/5".toList, 1, 0, 0⟩,
        ⟨"GET".toList, "/users/6".toList, 1, 0, 0⟩] := by
  intro faithful
  have agree := faithful.1.templatesAgree
  refine agree ⟨"GET".toList, "/users/5".toList, 1, 0, 0⟩
    (List.mem_cons_self) ⟨"GET".toList, "/users/6".toList, 1, 0, 0⟩
    (List.mem_cons_of_mem _ List.mem_cons_self) rfl ?_ ?_ ?_
  · decide
  · decide
  · decide

end LightWaf.ControlPlane.Inventory
