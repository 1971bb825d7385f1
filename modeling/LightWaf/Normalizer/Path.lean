import LightWaf.Normalizer.Url
import LightWaf.Rust.Lowercase
import LightWaf.Rust.Utf8

/-!
# What normalizing a path keeps

A path whose decoding settles within the pass budget is normalized to the
lowercase of the decoded path without dot segments: lowercasing neither joins
nor removes segments.
-/

namespace LightWaf.Normalizer

open LightWaf.Rust
open LightWaf.Theory.Scan

/-! ## Decoding -/

/-- One pass over the bytes of a path. -/
def decodePass (bytes : Bytes) : Bytes :=
  collapseOverlong (percentDecodeBytes false bytes)

/-- Decoding the bytes settles, within the budget of passes. -/
def DecodesTo (raw decoded : Bytes) : Prop :=
  ∃ passes ≤ pipelineCap, decodePass^[passes] raw = decoded ∧
    decodePass decoded = decoded

theorem fixpointFrom_bytes
    {passes budget : Nat} {raw decoded : Bytes} (within : passes ≤ budget)
    (reached : decodePass^[passes] raw = decoded)
    (settled : decodePass decoded = decoded) (done : Nat) :
    (fixpointFrom false budget done raw).bytes = decoded := by
  induction budget generalizing passes raw done with
  | zero =>
      cases Nat.le_zero.mp within
      exact reached
  | succ budget induction =>
      rw [fixpointFrom]
      split_ifs with same
      · have fixed : decodePass raw = raw := same
        rw [← reached, Function.iterate_fixed fixed]
      · cases passes with
        | zero =>
            cases reached
            exact absurd settled same
        | succ passes =>
            rw [Function.iterate_succ_apply] at reached
            exact induction (Nat.le_of_succ_le_succ within) reached _

/-- The decoder reaches what decoding settles at. -/
theorem percentOverlongFixpoint_bytes
    {raw decoded : Bytes} (decodes : DecodesTo raw decoded) :
    (percentOverlongFixpoint raw false pipelineCap).bytes = decoded := by
  obtain ⟨passes, within, reached, settled⟩ := decodes
  exact fixpointFrom_bytes within reached settled 0

/-- A text that no decoding pass changes: ASCII without a percent sign. -/
def Undecoded (text : Text) : Prop :=
  ∀ char ∈ text, isAscii char = true ∧ char ≠ '%'

theorem decodePass_undecoded
    {text : Text} (plain : Undecoded text) :
    decodePass (asBytes text) = asBytes text := by
  have bytes : ∀ byte ∈ asBytes text,
      byte.toNat < 0x80 ∧ byte ≠ '%'.toUInt8 := by
    intro byte member
    obtain ⟨char, inside, encoded⟩ := List.mem_flatMap.mp member
    obtain ⟨ascii, percent⟩ := plain char inside
    have small : char.toNat < 0x80 := of_decide_eq_true ascii
    constructor
    · rw [utf8EncodeChar_ascii small, List.mem_singleton] at encoded
      rw [encoded, UInt8.toNat_ofNat_of_lt' (small.trans (by decide))]
      exact small
    · rintro rfl
      exact not_mem_utf8EncodeChar percent (by decide) encoded
  have percentKept : percentDecodeBytes false (asBytes text) =
      asBytes text := by
    apply rewrite_eq_self
    intro byte member rest
    have other : (byte == '%'.toUInt8) = false :=
      beq_eq_false_iff_ne.mpr (bytes byte member).2
    rw [percentStep.eq_def, Bool.and_false, if_neg Bool.false_ne_true]
    split
    · rw [other]
      rfl
    · rfl
  have overlongKept : collapseOverlong (asBytes text) = asBytes text := by
    apply rewrite_eq_self
    intro byte member rest
    have small := (bytes byte member).1
    have lead : (byte == 0xC0 || byte == 0xC1) = false := by
      rw [Bool.or_eq_false_iff, beq_eq_false_iff_ne, beq_eq_false_iff_ne]
      constructor
      · rintro rfl
        exact absurd small (by decide)
      · rintro rfl
        exact absurd small (by decide)
    rw [overlongStep.eq_def]
    split
    · rw [lead]
      rfl
    · rfl
  rw [decodePass, percentKept, overlongKept]

theorem decodesTo_undecoded
    {text : Text} (plain : Undecoded text) :
    DecodesTo (asBytes text) (asBytes text) :=
  ⟨0, Nat.zero_le _, rfl, decodePass_undecoded plain⟩

/-! ## Dot segments -/

/-- The non-empty pieces of a path, none of them a dot segment. -/
theorem resolveSegments_eq_filter
    {segments : List Text}
    (plain : ∀ segment ∈ segments, segment ≠ ['.'] ∧ segment ≠ ['.', '.']) :
    resolveSegments segments =
      segments.filter fun segment => !segment.isEmpty := by
  suffices general : ∀ resolved, segments.foldl (fun resolved segment =>
      if segment = [] ∨ segment = ['.'] then resolved
      else if segment = ['.', '.'] then resolved.dropLast
      else resolved ++ [segment]) resolved =
      resolved ++ segments.filter fun segment => !segment.isEmpty from
    general []
  induction segments with
  | nil => exact fun resolved => (List.append_nil resolved).symm
  | cons segment segments induction =>
      intro resolved
      obtain ⟨dot, dots⟩ := plain segment List.mem_cons_self
      have later := induction fun other member =>
        plain other (List.mem_cons_of_mem segment member)
      cases segment with
      | nil => exact later resolved
      | cons char rest =>
          rw [List.foldl_cons, if_neg (by simpa using dot), if_neg dots,
            later, List.filter_cons_of_pos rfl, List.append_assoc]
          rfl

section Lowercase

variable {unicode : UnicodeTables} (lawful : unicode.Lawful)
include lawful

/-- Lowercasing makes no dot segment of another one. -/
theorem toLowercase_eq_dots
    {segment dots : Text} (only : ∀ char ∈ dots, char = '.') :
    unicode.toLowercase segment = dots ↔ segment = dots := by
  constructor
  · intro same
    rw [← same] at only
    exact (UnicodeTables.toLowercase_dots lawful only).symm.trans same
  · rintro rfl
    apply UnicodeTables.lowercaseFrom_settled
    intro char member
    cases only char member
    exact (rfl : '.'.isUpper = false)

theorem resolveSegments_map_toLowercase (segments : List Text) :
    resolveSegments (segments.map unicode.toLowercase) =
      (resolveSegments segments).map unicode.toLowercase := by
  rw [resolveSegments, resolveSegments, List.foldl_map]
  show List.foldl _ (([] : List Text).map unicode.toLowercase) segments = _
  apply List.foldl_hom (List.map unicode.toLowercase)
  intro resolved segment
  have empty : unicode.toLowercase segment = [] ↔ segment = [] :=
    UnicodeTables.toLowercase_eq_nil lawful
  have dot : unicode.toLowercase segment = ['.'] ↔ segment = ['.'] :=
    toLowercase_eq_dots lawful (by simp)
  have dots : unicode.toLowercase segment = ['.', '.'] ↔
      segment = ['.', '.'] := toLowercase_eq_dots lawful (by simp)
  simp only [empty, dot, dots]
  split_ifs
  · rfl
  · exact (List.map_dropLast ..).symm
  · rw [List.map_append]
    rfl

/-- A path is lowercased segment by segment. -/
theorem toLowercase_flatMap (segments : List Text) :
    unicode.toLowercase (segments.flatMap ('/' :: ·)) =
      (segments.map unicode.toLowercase).flatMap ('/' :: ·) := by
  have slash : ∀ rest, unicode.toLowercase ('/' :: rest) =
      '/' :: unicode.toLowercase rest :=
    UnicodeTables.lowercaseFrom_append_slash lawful [] []
  induction segments with
  | nil => rfl
  | cons segment segments induction =>
      rw [List.flatMap_cons, List.map_cons, List.flatMap_cons, ← induction,
        List.cons_append, List.cons_append, slash]
      cases segments with
      | nil =>
          rw [List.flatMap_nil, List.append_nil]
          exact congrArg ('/' :: ·) (List.append_nil _).symm
      | cons next later =>
          rw [List.flatMap_cons, List.cons_append, slash]
          exact congrArg ('/' :: ·)
            (UnicodeTables.lowercaseFrom_append_slash lawful [] segment _)

/-- Resolving dot segments commutes with lowercasing. -/
theorem resolvePath_toLowercase (path : Text) :
    resolvePath (unicode.toLowercase path) =
      unicode.toLowercase (resolvePath path) := by
  rw [resolvePath, resolvePath, UnicodeTables.splitOn_toLowercase lawful,
    resolveSegments_map_toLowercase lawful, ← toLowercase_flatMap lawful]
  simp only [UnicodeTables.toLowercase_eq_nil lawful]
  split_ifs <;> rfl

/-- The normalized path of a path whose decoding settles. -/
theorem normalizePath_of_decodesTo
    {raw : Text} {decoded : Bytes} (decodes : DecodesTo (asBytes raw) decoded) :
    (normalizePath unicode raw).1 =
      unicode.toLowercase (resolvePath
        ((unicode.nfkc (fromUtf8Lossy decoded)).filter (· != '\x00'))) := by
  rw [← resolvePath_toLowercase lawful, normalizePath,
    percentOverlongFixpoint_bytes decodes]

end Lowercase

end LightWaf.Normalizer
