import LightWaf.Normalizer.Path
import LightWaf.Rust.Search
import LightWaf.Theory.Retention

/-!
# No traversal is left in a normalized path

Resolution comes last, on the lowercased path, so whatever the earlier steps
wrote is resolved: the segments that remain are neither empty nor dot
segments, and resolving again changes nothing.
-/

namespace LightWaf.Normalizer

open LightWaf.Rust
open LightWaf.Theory.Retention

/-- What a segment does to those before it. -/
def dotEffect (segment : Text) : Effect :=
  if segment = [] ∨ segment = ['.'] then .drop
  else if segment = ['.', '.'] then .cancel
  else .keep

/-- Neither empty nor a dot segment. -/
def PlainSegment (segment : Text) : Prop :=
  segment ≠ [] ∧ segment ≠ ['.'] ∧ segment ≠ ['.', '.']

theorem dotEffect_eq_keep (segment : Text) :
    dotEffect segment = .keep ↔ PlainSegment segment := by
  rw [dotEffect, PlainSegment]
  split_ifs with drops cancels
  · constructor
    · intro same
      cases same
    · rintro ⟨empty, dot, -⟩
      exact absurd drops (not_or.mpr ⟨empty, dot⟩)
  · constructor
    · intro same
      cases same
    · rintro ⟨-, -, dots⟩
      exact absurd cancels dots
  · rw [not_or] at drops
    exact iff_of_true rfl ⟨drops.1, drops.2, cancels⟩

/-- The segments are resolved with a stack. -/
theorem resolveSegments_eq_retain (segments : List Text) :
    resolveSegments segments = retain dotEffect segments := by
  rw [resolveSegments, retain]
  congr 1
  funext resolved segment
  rw [retainStep, dotEffect]
  split_ifs <;> rfl

/-- A path of segments, or the root. -/
def joinSegments (segments : List Text) : Text :=
  if segments = [] then ['/'] else segments.flatMap ('/' :: ·)

theorem resolvePath_eq_join (path : Text) :
    resolvePath path =
      joinSegments (resolveSegments (path.splitOn '/')) := by
  rw [resolvePath, joinSegments]
  cases resolveSegments (path.splitOn '/') <;> rfl

theorem flatMap_slash_eq_intercalate (segments : List Text) :
    segments.flatMap ('/' :: ·) = ['/'].intercalate ([] :: segments) := by
  induction segments with
  | nil => rfl
  | cons segment segments induction =>
      rw [List.flatMap_cons, induction]
      cases segments <;> simp [List.intercalate, List.intersperse]

/-- The pieces of a joined path are the root's empty one and the segments. -/
theorem splitOn_joinSegments
    {segments : List Text} (nonempty : segments ≠ [])
    (single : ∀ segment ∈ segments, '/' ∉ segment) :
    (joinSegments segments).splitOn '/' = [] :: segments := by
  rw [joinSegments, if_neg nonempty, flatMap_slash_eq_intercalate]
  apply List.splitOn_intercalate
  · intro piece member
    rcases List.mem_cons.mp member with rfl | later
    · exact List.not_mem_nil
    · exact single piece later
  · exact List.cons_ne_nil _ _

/-- What is resolved has plain segments without a slash. -/
theorem mem_resolveSegments
    {path segment : Text}
    (member : segment ∈ resolveSegments (path.splitOn '/')) :
    PlainSegment segment ∧ '/' ∉ segment ∧ segment ⊆ path := by
  rw [resolveSegments_eq_retain] at member
  obtain ⟨piece, keeps⟩ := mem_of_mem_retain member
  exact ⟨(dotEffect_eq_keep segment).mp keeps, not_mem_of_mem_splitOn piece,
    subset_of_mem_splitOn piece⟩

/-- Resolving a resolved path changes nothing. -/
theorem resolvePath_resolvePath (path : Text) :
    resolvePath (resolvePath path) = resolvePath path := by
  rw [resolvePath_eq_join, resolvePath_eq_join path]
  by_cases empty : resolveSegments (path.splitOn '/') = []
  · rw [empty]
    rfl
  · rw [splitOn_joinSegments empty fun segment member =>
      (mem_resolveSegments member).2.1, resolveSegments_eq_retain ([] :: _),
      retain_cons_drop rfl, retain_eq_self]
    intro segment member
    exact (dotEffect_eq_keep segment).mpr (mem_resolveSegments member).1

theorem mem_resolvePath
    {path : Text} {char : Char} (member : char ∈ resolvePath path) :
    char = '/' ∨ char ∈ path := by
  rw [resolvePath_eq_join, joinSegments] at member
  split_ifs at member
  · exact Or.inl (List.mem_singleton.mp member)
  · obtain ⟨segment, inside, here⟩ := List.mem_flatMap.mp member
    rcases List.mem_cons.mp here with rfl | later
    · exact Or.inl rfl
    · exact Or.inr ((mem_resolveSegments inside).2.2 later)

theorem head_resolvePath (path : Text) :
    (resolvePath path).head? = some '/' := by
  rw [resolvePath_eq_join, joinSegments]
  cases resolveSegments (path.splitOn '/') <;> rfl

/-- The pieces of a resolved path other than the root are plain segments. -/
theorem plain_resolvePath
    {path : Text} (other : resolvePath path ≠ ['/']) :
    ∀ segment ∈ ((resolvePath path).splitOn '/').tail,
      PlainSegment segment := by
  have nonempty : resolveSegments (path.splitOn '/') ≠ [] := by
    intro empty
    apply other
    rw [resolvePath_eq_join, empty]
    rfl
  rw [resolvePath_eq_join, splitOn_joinSegments nonempty fun segment member =>
    (mem_resolveSegments member).2.1]
  intro segment member
  exact (mem_resolveSegments member).1

/-- The path before its NULs are stripped: decoded and normalized. -/
def decodedPath (unicode : UnicodeTables) (raw : Text) : Text :=
  unicode.nfkc (fromUtf8Lossy
    (percentOverlongFixpoint (asBytes raw) false pipelineCap).bytes)

section Lawful

variable {unicode : UnicodeTables} (lawful : unicode.Lawful)
include lawful

theorem not_mem_normalizePath (raw : Text) :
    '\x00' ∉ (normalizePath unicode raw).1 := by
  intro member
  rcases mem_resolvePath member with slash | inside
  · cases slash
  · apply UnicodeTables.not_mem_toLowercase lawful _ _ _ inside
    · decide
    · decide
    · intro kept
      have stripped := (List.mem_filter.mp kept).2
      cases stripped

theorem isUpper_toLowercase
    {text : Text} {char : Char} (member : char ∈ unicode.toLowercase text) :
    char.isUpper = false := by
  obtain ⟨_, _, upper, _, from_⟩ := UnicodeTables.mem_lowercaseFrom member
  rcases UnicodeTables.mem_lowercaseAt lawful from_ with
    ⟨-, rfl⟩ | ⟨-, -, lower⟩ | ⟨-, beyond, -⟩
  · exact isUpper_toLower upper
  · exact isUpper_of_isLower lower
  · by_contra upper
    rw [Bool.not_eq_false, isUpper_iff] at upper
    have wide : ¬ char.val.toNat < 0x80 := of_decide_eq_false beyond
    omega

theorem isUpper_normalizePath
    {raw : Text} {char : Char} (member : char ∈ (normalizePath unicode raw).1) :
    char.isUpper = false := by
  rcases mem_resolvePath member with rfl | inside
  · rfl
  · exact isUpper_toLowercase lawful inside

/--
A normalized path is rooted, resolved, lowercase and without NUL; resolution
is the standard one; and the NUL flag tells of the path before the strip.
-/
theorem normalizePath_resolved (raw path : Text) :
    (normalizePath unicode raw).1.head? = some '/' ∧
      ((normalizePath unicode raw).1 ≠ ['/'] →
        ∀ segment ∈ ((normalizePath unicode raw).1.splitOn '/').tail,
          PlainSegment segment) ∧
      '\x00' ∉ (normalizePath unicode raw).1 ∧
      (∀ char ∈ (normalizePath unicode raw).1, char.isUpper = false) ∧
      resolvePath (resolvePath path) = resolvePath path ∧
      (∃ kept, Retains dotEffect (path.splitOn '/') kept ∧
        (∀ other, Retains dotEffect (path.splitOn '/') other →
          other = kept) ∧
        resolvePath path = joinSegments kept) ∧
      ((normalizePath unicode raw).2.2 = true ↔
        '\x00' ∈ decodedPath unicode raw) := by
  refine ⟨head_resolvePath _, plain_resolvePath,
    not_mem_normalizePath lawful raw, fun char member =>
      isUpper_normalizePath lawful member, resolvePath_resolvePath path,
    ⟨retain dotEffect (path.splitOn '/'), retains_retain _, ?_, ?_⟩, ?_⟩
  · intro other retains
    exact (retains_iff.mp retains).symm
  · rw [resolvePath_eq_join, resolveSegments_eq_retain]
  · exact List.contains_iff_mem

end Lawful

theorem normalizePath_resolved_traversal :
    UnicodeTables.asciiOnly.Lawful ∧
      '\x00' ∉ (normalizePath UnicodeTables.asciiOnly
        "/a/%2E%2e//B%00/./c".toList).1 ∧
      resolvePath "/a/..//b/./c".toList = "/b/c".toList :=
  ⟨UnicodeTables.lawful_asciiOnly,
    (normalizePath_resolved UnicodeTables.lawful_asciiOnly
      "/a/%2E%2e//B%00/./c".toList []).2.2.1,
    by decide⟩

end LightWaf.Normalizer
