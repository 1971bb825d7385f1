import LightWaf.Detection.GraphqlCarriers
import LightWaf.Rust.Lowercase
import LightWaf.Rust.Search

/-!
# How a media type is recognised

The content type is read in several places.  The body parser lowers it and
compares it whole, or up to a semicolon that must follow at once; the gRPC and
GraphQL tests look for a prefix as it is spelled.  So two values of one media
type can be taken apart by whitespace before the semicolon or by the case of
letters, and by nothing else.
-/

namespace LightWaf.Detection

open LightWaf.Rust
open LightWaf.Core
open LightWaf.Normalizer

/-! ## Branches -/

/-- The branches of `parse_body`. -/
inductive BodyBranch
  | form
  | multipart
  | json
  | sniff
deriving DecidableEq

section Branches

variable (unicode : UnicodeTables)

/-- The branch that a content type selects. -/
def bodyBranch (declared : Text) : BodyBranch :=
  let lower := unicode.toLowercase (trim declared)
  if lower = "application/x-www-form-urlencoded".toList ∨
      "application/x-www-form-urlencoded;".toList.isPrefixOf lower then .form
  else if "multipart/".toList.isPrefixOf lower then .multipart
  else if lower = "application/json".toList ∨
      "application/json;".toList.isPrefixOf lower then .json
  else .sniff

/-- What a branch makes of a body; the content type gives the boundary. -/
def BodyBranch.parse
    (serde : SerdeJson) (declared : Text) (body : Bytes)
    (limits : LimitsConfig) : BodyBranch → Except NormalizationError ParsedBody
  | .form => parseFormUrlencoded unicode body limits
  | .multipart =>
      match extractBoundary unicode declared with
      | some boundary => .ok (parseMultipart unicode body boundary)
      | none => .ok (.raw body)
  | .json => parseJson serde body limits
  | .sniff =>
      if body = [] then .ok .none
      else do
        match ← sniffJson serde body limits with
        | some parsed => .ok parsed
        | none => .ok (.raw body)

/-- `parse_body` is its branches. -/
theorem parseBody_eq_branch
    (serde : SerdeJson) (declared : Option Text) (body : Bytes)
    (limits : LimitsConfig) :
    parseBody unicode serde declared body limits =
      (bodyBranch unicode (declared.getD [])).parse unicode serde
        (declared.getD []) body limits := by
  unfold parseBody bodyBranch
  dsimp only
  split_ifs with form multipart json empty
  · rfl
  · rfl
  · rfl
  · exact (if_pos empty).symm
  · exact (if_neg empty).symm

end Branches

/--
All places that read a content type take two values alike: `parse_body`
follows one branch for both, on every body, and the tests agree.
-/
def TakenAlike (unicode : UnicodeTables) (left right : Text) : Prop :=
  (bodyBranch unicode left = bodyBranch unicode right ∧
    ∀ serde body limits,
      parseBody unicode serde (some left) body limits =
          (bodyBranch unicode right).parse unicode serde left body limits ∧
        parseBody unicode serde (some right) body limits =
          (bodyBranch unicode left).parse unicode serde right body limits) ∧
    isGrpcContentType (some left) = isGrpcContentType (some right) ∧
    ∀ leftCtx rightCtx, contentType leftCtx = left →
      contentType rightCtx = right →
      declaresGrpc leftCtx = declaresGrpc rightCtx ∧
        declaresGraphql leftCtx = declaresGraphql rightCtx

/-! ## Values -/

/-- A character of a token. -/
def isTokenChar (char : Char) : Bool :=
  char.isAlphanum || "!#$%&*+-.^_|~\x27\x60".toList.contains char

/-- A space or a tab. -/
def isBlankChar (char : Char) : Bool :=
  char == ' ' || char == '\t'

/--
A content type as it can be spelled: a type and a subtype, whitespace around
them, and behind a semicolon any parameters.
-/
structure MediaValue where
  lead : Text
  mainType : Text
  subtype : Text
  gap : Text
  params : Option Text
  leadBlank : ∀ char ∈ lead, isBlankChar char = true
  gapBlank : ∀ char ∈ gap, isBlankChar char = true
  mainToken : mainType ≠ [] ∧ ∀ char ∈ mainType, isTokenChar char = true
  subToken : subtype ≠ [] ∧ ∀ char ∈ subtype, isTokenChar char = true

namespace MediaValue

/-- The media type as it is spelled. -/
def spelled (value : MediaValue) : Text :=
  value.mainType ++ '/' :: value.subtype

/-- The media type that is denoted; the case of letters does not matter. -/
def essence (value : MediaValue) : Text :=
  value.spelled.map Char.toLower

/-- What stands behind the media type and its whitespace. -/
def tail (value : MediaValue) : Text :=
  value.params.elim [] (';' :: ·)

/-- The value as a header carries it. -/
def text (value : MediaValue) : Text :=
  value.lead ++ (value.spelled ++ (value.gap ++ value.tail))

/-- Whether whitespace stands before a semicolon. -/
def spaced (value : MediaValue) : Bool :=
  value.params.isSome && !value.gap.isEmpty

/-- Whether the first letters are spelled without a capital. -/
def lowerStart (value : MediaValue) (count : Nat) : Prop :=
  ∀ char ∈ value.spelled.take count, char.isUpper = false

/-- The whitespace that is left before a semicolon. -/
def kept (value : MediaValue) : Text :=
  if value.params.isSome then value.gap else []

end MediaValue

/-! ## Characters -/

/-- An ASCII character that neither trimming nor a semicolon ends at. -/
def VisibleChar (char : Char) : Prop :=
  isAscii char = true ∧ isWhitespace char = false ∧ char ≠ ';'

instance (char : Char) : Decidable (VisibleChar char) :=
  inferInstanceAs (Decidable (_ ∧ _))

theorem toNat_lt_of_isTokenChar
    {char : Char} (token : isTokenChar char = true) : char.toNat < 128 := by
  rw [isTokenChar, Bool.or_eq_true] at token
  rcases token with plain | symbol
  · rw [Char.isAlphanum, Bool.or_eq_true, isAlpha_eq, Bool.or_eq_true,
      isUpper_iff, isLower_iff] at plain
    show char.val.toNat < 128
    rcases plain with (⟨-, high⟩ | ⟨-, high⟩) | digit
    · omega
    · omega
    · rw [Char.isDigit, Bool.and_eq_true, decide_eq_true_eq,
        decide_eq_true_eq] at digit
      have high : char.val.toNat ≤ 57 := digit.2
      omega
  · have symbols : ∀ symbol ∈ "!#$%&*+-.^_|~\x27\x60".toList,
        symbol.toNat < 128 := by
      decide
    exact symbols char (List.contains_iff_mem.mp symbol)

/-- Tokens are visible, lowered or not. -/
theorem visibleChar_of_isTokenChar
    {char : Char} (token : isTokenChar char = true) :
    VisibleChar char ∧ VisibleChar char.toLower := by
  have all : ∀ number < 128, isTokenChar (Char.ofNat number) = true →
      VisibleChar (Char.ofNat number) ∧
        VisibleChar (Char.ofNat number).toLower := by
    decide +kernel
  have this := all char.toNat (toNat_lt_of_isTokenChar token)
  rw [Char.ofNat_toNat] at this
  exact this token

theorem isBlankChar_iff {char : Char} :
    isBlankChar char = true ↔ char = ' ' ∨ char = '\t' := by
  rw [isBlankChar, Bool.or_eq_true, beq_iff_eq, beq_iff_eq]

/-- Blanks are trimmed, lowered to themselves and no semicolons. -/
theorem isBlankChar_facts
    {char : Char} (blank : isBlankChar char = true) :
    isAscii char = true ∧ isWhitespace char = true ∧ char.toLower = char ∧
      char ≠ ';' := by
  rcases isBlankChar_iff.mp blank with rfl | rfl
  · decide
  · decide

/-! ## The trimmed and lowered value -/

namespace MediaValue

variable (value : MediaValue)

theorem visible_of_mem_spelled
    {char : Char} (member : char ∈ value.spelled) :
    VisibleChar char ∧ VisibleChar char.toLower := by
  rcases List.mem_append.mp member with main | behind
  · exact visibleChar_of_isTokenChar (value.mainToken.2 char main)
  · rcases List.mem_cons.mp behind with rfl | sub
    · decide
    · exact visibleChar_of_isTokenChar (value.subToken.2 char sub)

theorem visible_of_mem_essence
    {char : Char} (member : char ∈ value.essence) : VisibleChar char := by
  obtain ⟨own, inside, rfl⟩ := List.mem_map.mp member
  exact (value.visible_of_mem_spelled inside).2

theorem blank_of_mem_kept
    {char : Char} (member : char ∈ value.kept) : isBlankChar char = true := by
  rw [kept] at member
  split_ifs at member
  · exact value.gapBlank char member
  · cases member

theorem trimStart_text :
    trimStart value.text = value.spelled ++ (value.gap ++ value.tail) := by
  have leading : ∀ char ∈ value.lead, isWhitespace char = true :=
    fun char member => (isBlankChar_facts (value.leadBlank char member)).2.1
  rw [text, trimStart, List.dropWhile_append_of_pos leading]
  cases starts : value.spelled with
  | nil => simp [spelled] at starts
  | cons first others =>
      have member : first ∈ value.spelled := by
        rw [starts]
        exact List.mem_cons_self
      have visible := (value.visible_of_mem_spelled member).1.2.1
      exact List.dropWhile_cons_of_neg (by rw [visible]; decide)

/-- The last character of a media type is visible. -/
theorem getLast_spelled
    {char : Char} (last : char ∈ value.spelled.getLast?) :
    isWhitespace char = false :=
  (value.visible_of_mem_spelled (List.mem_of_mem_getLast? last)).1.2.1

/-- What trimming leaves, up to the semicolon. -/
theorem trim_text :
    ∃ more, trim value.text = value.spelled ++ value.kept ++ more ∧
      ∀ char ∈ more.head?, char = ';' := by
  rw [trim, trimStart_text, tail, kept]
  cases value.params with
  | none =>
      refine ⟨[], ?_, by simp⟩
      have blank : ∀ char ∈ value.gap.reverse, isWhitespace char = true := by
        intro char member
        exact (isBlankChar_facts
          (value.gapBlank char (List.mem_reverse.mp member))).2.1
      have ends : value.spelled.rdropWhile isWhitespace = value.spelled := by
        rw [List.rdropWhile_eq_self_iff]
        intro nonempty
        rw [value.getLast_spelled
          (List.getLast?_eq_getLast_of_ne_nil nonempty)]
        decide
      rw [List.rdropWhile] at ends
      simp only [Option.elim_none, List.append_nil, List.rdropWhile,
        List.reverse_append, List.dropWhile_append_of_pos blank, ends]
      simp
  | some params =>
      obtain ⟨rest, trimmed⟩ := rdropWhile_append_of_last isWhitespace
        (value.spelled ++ value.gap ++ [';']) params (by simp; decide)
      refine ⟨';' :: rest, ?_, by simp⟩
      simpa using trimmed

/-- What lowering leaves, up to the semicolon. -/
theorem lower_text (unicode : UnicodeTables) :
    ∃ more, unicode.toLowercase (trim value.text) =
        value.essence ++ value.kept ++ more ∧
      ∀ char ∈ more.head?, char = ';' := by
  obtain ⟨more, trimmed, ends⟩ := value.trim_text
  have ascii : ∀ char ∈ value.spelled ++ value.kept, isAscii char = true := by
    intro char member
    rcases List.mem_append.mp member with own | blank
    · exact (value.visible_of_mem_spelled own).1.1
    · exact (isBlankChar_facts (value.blank_of_mem_kept blank)).1
  have blanks : value.kept.map Char.toLower = value.kept.map id := by
    apply List.map_congr_left
    intro char member
    exact (isBlankChar_facts (value.blank_of_mem_kept member)).2.2.1
  rw [List.map_id] at blanks
  rw [trimmed, UnicodeTables.toLowercase,
    UnicodeTables.toLowercase_ascii_append unicode _ _ _ ascii,
    List.map_append, blanks]
  refine ⟨_, rfl, ?_⟩
  cases more with
  | nil => simp [UnicodeTables.lowercaseFrom]
  | cons first rest =>
      cases ends first rfl
      intro char head
      exact (Option.some.inj head).symm

end MediaValue

/-! ## The tests -/

/-- A prefix that stops where a text goes on with another character. -/
theorem prefix_append_iff
    {name text rest : Text} (stops : ∀ char ∈ rest.head?, char ∉ name) :
    name <+: text ++ rest ↔ name <+: text := by
  constructor
  · rintro whole
    rcases List.prefix_or_prefix_of_prefix whole
      (List.prefix_append text rest) with within | ⟨beyond, rfl⟩
    · exact within
    · obtain rest_ := (List.prefix_append_right_inj text).mp whole
      cases beyond with
      | nil => exact (List.append_nil text).symm ▸ List.prefix_refl text
      | cons char others =>
          obtain ⟨behind, rfl⟩ := rest_
          exact absurd (List.mem_append_right _ List.mem_cons_self)
            (stops char rfl)
  · intro within
    exact within.trans (List.prefix_append text rest)

/-- Behind blanks and a semicolon no name goes on. -/
theorem stops_behind
    {blanks more name : Text}
    (blank : ∀ char ∈ blanks, isBlankChar char = true)
    (ends : ∀ char ∈ more.head?, char = ';')
    (plain : ∀ char ∈ name, isBlankChar char = false ∧ char ≠ ';') :
    ∀ char ∈ (blanks ++ more).head?, char ∉ name := by
  intro char head member
  obtain ⟨solid, other⟩ := plain char member
  cases blanks with
  | nil => exact other (ends char head)
  | cons first rest =>
      have same : first = char := Option.some.inj head
      rw [← same, blank first List.mem_cons_self] at solid
      cases solid

/-- The part before the first semicolon. -/
theorem takeWhile_semicolon
    {front more : Text} (visible : ';' ∉ front)
    (ends : ∀ char ∈ more.head?, char = ';') :
    (front ++ more).takeWhile (· != ';') = front := by
  have before : ∀ char ∈ front, (char != ';') = true := by
    rintro char member
    rw [bne_iff_ne]
    rintro rfl
    exact visible member
  rw [List.takeWhile_append_of_pos before]
  cases more with
  | nil => exact List.append_nil front
  | cons first rest =>
      cases ends first rfl
      exact List.append_nil front

/-- A name stands alone or before a semicolon. -/
theorem names_iff
    {name front more : Text} (plain : ';' ∉ name) (visible : ';' ∉ front)
    (ends : ∀ char ∈ more.head?, char = ';') :
    (front ++ more = name ∨ name ++ [';'] <+: front ++ more) ↔
      front = name := by
  have cut := takeWhile_semicolon visible ends
  constructor
  · rintro (same | ⟨rest, same⟩)
    · have whole := @takeWhile_semicolon name [] plain (by simp)
      rw [List.append_nil] at whole
      rw [same, whole] at cut
      exact cut.symm
    · rw [← same, List.append_assoc,
        takeWhile_semicolon plain (by simp)] at cut
      exact cut.symm
  · rintro rfl
    cases more with
    | nil => exact Or.inl (List.append_nil front)
    | cons first rest =>
        cases ends first rfl
        exact Or.inr ((List.prefix_append_right_inj front).mpr ⟨rest, rfl⟩)

/-- A lowercase name is a prefix of a spelling without its capitals. -/
theorem prefix_iff_lower
    {name text : Text} (lower : ∀ char ∈ name, char.isUpper = false) :
    name <+: text ↔ name <+: text.map Char.toLower ∧
      ∀ char ∈ text.take name.length, char.isUpper = false := by
  constructor
  · rintro ⟨rest, rfl⟩
    have same : name.map Char.toLower = name.map id :=
      List.map_congr_left fun char member =>
        toLower_eq_self (lower char member)
    rw [List.map_append, same, List.map_id, List.take_left]
    exact ⟨List.prefix_append _ _, lower⟩
  · rintro ⟨starts, plain⟩
    have same : (text.take name.length).map Char.toLower =
        (text.take name.length).map id :=
      List.map_congr_left fun char member =>
        toLower_eq_self (plain char member)
    rw [List.prefix_iff_eq_take, ← List.map_take, same, List.map_id] at starts
    rw [starts]
    exact List.take_prefix _ _

namespace MediaValue

variable (value : MediaValue)

theorem semicolon_not_mem : ';' ∉ value.essence ++ value.kept := by
  intro member
  rcases List.mem_append.mp member with own | blank
  · exact (value.visible_of_mem_essence own).2.2 rfl
  · exact (isBlankChar_facts (value.blank_of_mem_kept blank)).2.2.2 rfl

theorem kept_eq_nil : value.kept = [] ↔ value.spaced = false := by
  rw [kept, spaced]
  cases value.params with
  | none => simp
  | some params => simp

/-- Without whitespace before a semicolon the media type is a name. -/
theorem essence_kept_iff
    {name : Text} (visible : ∀ char ∈ name, isWhitespace char = false) :
    value.essence ++ value.kept = name ↔
      value.essence = name ∧ value.spaced = false := by
  rw [← kept_eq_nil]
  constructor
  · rintro rfl
    have none : value.kept = [] := by
      apply List.eq_nil_iff_forall_not_mem.mpr
      intro char member
      have blank :=
        (isBlankChar_facts (value.blank_of_mem_kept member)).2.1
      rw [visible char (List.mem_append_right _ member)] at blank
      cases blank
    rw [none, List.append_nil]
    exact ⟨rfl, rfl⟩
  · rintro ⟨rfl, none⟩
    rw [none, List.append_nil]

/-- The value names a media type, alone or before a semicolon. -/
theorem lower_names
    (unicode : UnicodeTables) {name : Text}
    (visible : ∀ char ∈ name, isWhitespace char = false)
    (plain : ';' ∉ name) :
    (unicode.toLowercase (trim value.text) = name ∨
      (name ++ [';']).isPrefixOf (unicode.toLowercase (trim value.text)) =
        true) ↔
      value.essence = name ∧ value.spaced = false := by
  obtain ⟨more, lower, ends⟩ := value.lower_text unicode
  rw [← value.essence_kept_iff visible,
    ← names_iff plain value.semicolon_not_mem ends, lower,
    List.isPrefixOf_iff_prefix]

/-- The branch of a value, by its media type and the whitespace in it. -/
theorem bodyBranch_text (unicode : UnicodeTables) :
    bodyBranch unicode value.text =
      if value.essence = "application/x-www-form-urlencoded".toList ∧
          value.spaced = false then .form
      else if "multipart/".toList <+: value.essence then .multipart
      else if value.essence = "application/json".toList ∧
          value.spaced = false then .json
      else .sniff := by
  obtain ⟨more, lower, ends⟩ := value.lower_text unicode
  have form := @lower_names value unicode
    "application/x-www-form-urlencoded".toList (by decide) (by decide)
  have json := @lower_names value unicode "application/json".toList
    (by decide) (by decide)
  have multipart : "multipart/".toList.isPrefixOf
        (unicode.toLowercase (trim value.text)) = true ↔
      "multipart/".toList <+: value.essence := by
    rw [List.isPrefixOf_iff_prefix, lower, List.append_assoc]
    exact prefix_append_iff (stops_behind
      (fun char member => value.blank_of_mem_kept member) ends (by decide))
  unfold bodyBranch
  simp only [← form, ← json, ← multipart]
  rfl

/-- A prefix test as it is spelled. -/
theorem isPrefixOf_trimStart
    {name : Text} (lower : ∀ char ∈ name, char.isUpper = false)
    (plain : ∀ char ∈ name, isBlankChar char = false ∧ char ≠ ';') :
    name.isPrefixOf (trimStart value.text) = true ↔
      name <+: value.essence ∧ value.lowerStart name.length := by
  have ends : ∀ char ∈ value.tail.head?, char = ';' := by
    rw [tail]
    cases value.params with
    | none => simp
    | some params => simp
  rw [List.isPrefixOf_iff_prefix, trimStart_text,
    prefix_append_iff (stops_behind value.gapBlank ends plain),
    prefix_iff_lower lower]
  rfl

end MediaValue

/-- Two values of one media type that no test takes apart. -/
structure SpelledAlike (left right : MediaValue) : Prop where
  spacing : left.essence = "application/x-www-form-urlencoded".toList ∨
      left.essence = "application/json".toList → left.spaced = right.spaced
  grpc : "application/grpc".toList <+: left.essence →
    (left.lowerStart 16 ↔ right.lowerStart 16)
  graphql : "application/graphql".toList <+: left.essence →
    (left.lowerStart 19 ↔ right.lowerStart 19)

/-- On every body the parser follows the one branch of the two values. -/
theorem parseBody_of_branch_eq
    (unicode : UnicodeTables) {left right : Text}
    (same : bodyBranch unicode left = bodyBranch unicode right)
    (serde : SerdeJson) (body : Bytes) (limits : LimitsConfig) :
    parseBody unicode serde (some left) body limits =
      (bodyBranch unicode right).parse unicode serde left body limits := by
  rw [parseBody_eq_branch, Option.getD_some, same]

/-- The branches differ by whitespace before the semicolon only. -/
theorem bodyBranch_eq_iff
    (unicode : UnicodeTables) {left right : MediaValue}
    (same : left.essence = right.essence) :
    bodyBranch unicode left.text = bodyBranch unicode right.text ↔
      (left.essence = "application/x-www-form-urlencoded".toList ∨
        left.essence = "application/json".toList →
          left.spaced = right.spaced) := by
  rw [left.bodyBranch_text, right.bodyBranch_text, ← same]
  generalize left.spaced = leftSpaced
  generalize right.spaced = rightSpaced
  by_cases form : left.essence = "application/x-www-form-urlencoded".toList
  · rw [form]
    cases leftSpaced <;> cases rightSpaced <;> decide
  · by_cases json : left.essence = "application/json".toList
    · rw [json]
      cases leftSpaced <;> cases rightSpaced <;> decide
    · simp only [form, json, false_and, if_false, or_self, false_implies]

/-- A prefix test gives one answer where the spellings agree. -/
theorem isPrefixOf_eq_iff
    {left right : MediaValue} (same : left.essence = right.essence)
    {name : Text} (lower : ∀ char ∈ name, char.isUpper = false)
    (plain : ∀ char ∈ name, isBlankChar char = false ∧ char ≠ ';') :
    name.isPrefixOf (trimStart left.text) =
        name.isPrefixOf (trimStart right.text) ↔
      (name <+: left.essence →
        (left.lowerStart name.length ↔ right.lowerStart name.length)) := by
  rw [Bool.eq_iff_iff, left.isPrefixOf_trimStart lower plain,
    right.isPrefixOf_trimStart lower plain, ← same]
  exact and_congr_right_iff

/-- A request with a content type. -/
def withContentType (declared : Text) : RequestContext :=
  { emptyRequest with
    normalized := { headers := [("content-type".toList, declared)] } }

/--
Two values of one media type are taken alike everywhere exactly when they
agree on whitespace before the semicolon, for the two types that the body
parser compares whole, and on capitals, for the two types that are recognised
by a prefix.
-/
theorem takenAlike_iff
    (unicode : UnicodeTables) (left right : MediaValue)
    (same : left.essence = right.essence) :
    TakenAlike unicode left.text right.text ↔ SpelledAlike left right := by
  have branch := bodyBranch_eq_iff unicode same
  have grpc := @isPrefixOf_eq_iff left right same "application/grpc".toList
    (by decide) (by decide)
  have graphql := @isPrefixOf_eq_iff left right same
    "application/graphql".toList (by decide) (by decide)
  constructor
  · rintro ⟨⟨branches, -⟩, tests, modules⟩
    have answers := modules (withContentType left.text)
      (withContentType right.text) rfl rfl
    exact ⟨branch.mp branches, grpc.mp tests, graphql.mp answers.2⟩
  · rintro ⟨spacing, grpcSpelled, graphqlSpelled⟩
    have branches := branch.mpr spacing
    refine ⟨⟨branches, fun serde body limits => ⟨?_, ?_⟩⟩,
      grpc.mpr grpcSpelled, ?_⟩
    · exact parseBody_of_branch_eq unicode branches serde body limits
    · exact parseBody_of_branch_eq unicode branches.symm serde body limits
    intro leftCtx rightCtx leftType rightType
    rw [declaresGrpc, declaresGrpc, declaresGraphql, declaresGraphql,
      leftType, rightType]
    exact ⟨grpc.mpr grpcSpelled, graphql.mpr graphqlSpelled⟩

/-- A media type written plainly. -/
def plainValue (mainType subtype : Text)
    (mainToken : mainType ≠ [] ∧ ∀ char ∈ mainType, isTokenChar char = true)
    (subToken : subtype ≠ [] ∧ ∀ char ∈ subtype, isTokenChar char = true) :
    MediaValue where
  lead := []
  mainType := mainType
  subtype := subtype
  gap := []
  params := none
  leadBlank := List.forall_mem_nil _
  gapBlank := List.forall_mem_nil _
  mainToken := mainToken
  subToken := subToken

/-- `application/json`. -/
def jsonValue : MediaValue :=
  plainValue "application".toList "json".toList (by decide) (by decide)

/-- `Application/JSON; charset=utf-8`. -/
def capitalJson : MediaValue :=
  { plainValue "Application".toList "JSON".toList (by decide) (by decide) with
    params := some " charset=utf-8".toList }

/-- Capitals and parameters alone do not take JSON apart. -/
theorem takenAlike_json_capitals :
    TakenAlike .asciiOnly jsonValue.text capitalJson.text :=
  (takenAlike_iff .asciiOnly jsonValue capitalJson (by decide)).mpr
    ⟨fun _ => rfl, fun starts => absurd starts (by decide),
      fun starts => absurd starts (by decide)⟩

/-- `application/json ; charset=utf-8`. -/
def spacedJson : MediaValue :=
  { jsonValue with
    gap := [' ']
    params := some " charset=utf-8".toList
    gapBlank := by decide }

/-- `application/grpc`. -/
def grpcValue : MediaValue :=
  plainValue "application".toList "grpc".toList (by decide) (by decide)

/-- `Application/grpc`. -/
def capitalGrpc : MediaValue :=
  plainValue "Application".toList "grpc".toList (by decide) (by decide)

/--
A space before the semicolon keeps a JSON body from being parsed as one, and
a capital hides a gRPC body.
-/
theorem takenAlike_fails_spelling :
    (jsonValue.essence = spacedJson.essence ∧
      ¬ TakenAlike .asciiOnly jsonValue.text spacedJson.text) ∧
    (grpcValue.essence = capitalGrpc.essence ∧
      ¬ TakenAlike .asciiOnly grpcValue.text capitalGrpc.text) := by
  refine ⟨⟨by decide, ?_⟩, ⟨by decide, ?_⟩⟩
  · rintro ⟨⟨branches, -⟩, -, -⟩
    revert branches
    decide
  · rintro ⟨-, tests, -⟩
    revert tests
    decide

end LightWaf.Detection
