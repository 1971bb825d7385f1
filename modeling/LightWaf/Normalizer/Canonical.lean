import LightWaf.Normalizer.Path
import LightWaf.Theory.Settling

/-!
# Canonical forms as fixed points

`canonicalize_value` decodes pass by pass within a budget.  Without the budget
the passes settle for every input: from the second on a pass that changes the
bytes shortens them.  The bounded decoder agrees with that unbounded reference
as far as its budget goes.

Compatibility normalization comes after decoding, so a canonical form is
canonical again exactly when normalization has written no new percent escape.
-/

namespace LightWaf.Normalizer

open LightWaf.Rust
open LightWaf.Theory.Scan
open LightWaf.Theory.Settling

/-! ## One pass -/

/-- What the percent decoder does at one position. -/
theorem percentStep_cases (plusAsSpace : Bool) (byte : UInt8) (rest : Bytes) :
    (plusAsSpace = true ∧ byte = '+'.toUInt8 ∧
        percentStep plusAsSpace byte rest = ([' '.toUInt8], 0)) ∨
      (∃ high low later, rest = high :: low :: later ∧
        byte = '%'.toUInt8 ∧ isHex high = true ∧ isHex low = true ∧
        percentStep plusAsSpace byte rest =
          ([(hexVal high <<< 4) ||| hexVal low], 2)) ∨
      ((plusAsSpace = true → byte ≠ '+'.toUInt8) ∧
        percentStep plusAsSpace byte rest = ([byte], 0)) := by
  by_cases plus : (byte == '+'.toUInt8 && plusAsSpace) = true
  · left
    rw [Bool.and_eq_true, beq_iff_eq] at plus
    exact ⟨plus.2, plus.1, by simp [percentStep, plus]⟩
  · right
    have other : plusAsSpace = true → byte ≠ '+'.toUInt8 := by
      rintro rfl rfl
      exact plus rfl
    rw [percentStep.eq_def, if_neg plus]
    split
    next high low later =>
      split_ifs with escape
      · left
        rw [Bool.and_eq_true, Bool.and_eq_true, beq_iff_eq] at escape
        exact ⟨high, low, later, rfl, escape.1.1, escape.1.2, escape.2, rfl⟩
      · exact Or.inr ⟨other, rfl⟩
    next => exact Or.inr ⟨other, rfl⟩

theorem percentStep_contracts (plusAsSpace : Bool) :
    Contracts (percentStep plusAsSpace) := by
  constructor <;> intro byte rest
  · rcases percentStep_cases plusAsSpace byte rest with
      ⟨-, -, step⟩ | ⟨high, low, later, -, -, -, -, step⟩ | ⟨-, step⟩ <;>
      rw [step] <;> rfl
  · rcases percentStep_cases plusAsSpace byte rest with
      ⟨-, -, step⟩ | ⟨high, low, later, rfl, -, -, -, step⟩ | ⟨-, step⟩ <;>
      rw [step] <;> simp

/-- What the overlong collapse does at one position. -/
theorem overlongStep_cases (byte : UInt8) (rest : Bytes) :
    (∃ second later, rest = second :: later ∧
        (byte = 0xC0 ∨ byte = 0xC1) ∧ isContinuation second = true ∧
        overlongStep byte rest =
          ([((byte &&& 0x1F) <<< 6) ||| (second &&& 0x3F)], 1)) ∨
      overlongStep byte rest = ([byte], 0) := by
  rw [overlongStep.eq_def]
  split
  next second later =>
    split_ifs with overlong
    · left
      rw [Bool.and_eq_true, Bool.or_eq_true, beq_iff_eq, beq_iff_eq]
        at overlong
      exact ⟨second, later, rfl, overlong.1, overlong.2, rfl⟩
    · exact Or.inr rfl
  next => exact Or.inr rfl

theorem overlongStep_contracts : Contracts overlongStep := by
  constructor <;> intro byte rest
  · rcases overlongStep_cases byte rest with
      ⟨second, later, -, -, -, step⟩ | step <;> rw [step] <;> rfl
  · rcases overlongStep_cases byte rest with
      ⟨second, later, rfl, -, -, step⟩ | step <;> rw [step] <;> simp

theorem collapseOverlong_length_lt
    {bytes : Bytes} (changed : collapseOverlong bytes ≠ bytes) :
    (collapseOverlong bytes).length < bytes.length := by
  apply overlongStep_contracts.length_lt_of_ne ?_ changed
  intro byte rest reach
  rcases overlongStep_cases byte rest with ⟨_, _, _, _, _, step⟩ | step
  · rw [step] at reach
    cases reach
  · exact step

theorem percentDecodeBytes_length_lt
    {bytes : Bytes} (changed : percentDecodeBytes false bytes ≠ bytes) :
    (percentDecodeBytes false bytes).length < bytes.length := by
  apply (percentStep_contracts false).length_lt_of_ne ?_ changed
  intro byte rest reach
  rcases percentStep_cases false byte rest with
    ⟨plus, _, _⟩ | ⟨_, _, _, _, _, _, _, step⟩ | ⟨_, step⟩
  · cases plus
  · rw [step] at reach
    cases reach
  · exact step

/-! ## Passes in turn -/

/-- The pass of a number; only the first may read `+` as a space. -/
def valuePass (plusAsSpace : Bool) (passes : Nat) (bytes : Bytes) : Bytes :=
  collapseOverlong (percentDecodeBytes (plusAsSpace && passes == 0) bytes)

theorem valuePass_succ (plusAsSpace : Bool) (passes : Nat) (bytes : Bytes) :
    valuePass plusAsSpace (passes + 1) bytes = decodePass bytes := by
  have later : (plusAsSpace && passes + 1 == 0) = false := by simp
  rw [valuePass, decodePass, later]

/-- A pass without `+` that changes the bytes shortens them. -/
theorem decodePass_length_lt
    {bytes : Bytes} (changed : decodePass bytes ≠ bytes) :
    (decodePass bytes).length < bytes.length := by
  by_cases kept : percentDecodeBytes false bytes = bytes
  · rw [decodePass, kept] at changed ⊢
    exact collapseOverlong_length_lt changed
  · exact (overlongStep_contracts.length_le _ 0).trans_lt
      (percentDecodeBytes_length_lt kept)

/-- What a pass keeps, its percent decoder keeps. -/
theorem percentDecodeBytes_of_pass
    {plusAsSpace : Bool} {bytes : Bytes}
    (kept : collapseOverlong (percentDecodeBytes plusAsSpace bytes) = bytes) :
    percentDecodeBytes plusAsSpace bytes = bytes := by
  by_cases collapsed : collapseOverlong
      (percentDecodeBytes plusAsSpace bytes) =
        percentDecodeBytes plusAsSpace bytes
  · exact collapsed.symm.trans kept
  · have shorter := collapseOverlong_length_lt collapsed
    have decoded : (percentDecodeBytes plusAsSpace bytes).length ≤
        bytes.length := (percentStep_contracts plusAsSpace).length_le bytes 0
    rw [kept] at shorter
    exact absurd decoded (Nat.not_le.mpr shorter)

/-- Bytes kept in form mode hold no `+`, and so are kept without it. -/
theorem decodePass_of_pass
    {plusAsSpace : Bool} {bytes : Bytes}
    (kept : collapseOverlong (percentDecodeBytes plusAsSpace bytes) = bytes) :
    decodePass bytes = bytes := by
  have percentKept := percentDecodeBytes_of_pass kept
  have plain : percentDecodeBytes false bytes = bytes := by
    apply ((percentStep_contracts false).rewrite_eq_self_iff bytes).mpr
    intro byte rest ends
    have same := ((percentStep_contracts plusAsSpace).rewrite_eq_self_iff
      bytes).mp percentKept byte rest ends
    rcases percentStep_cases plusAsSpace byte rest with
      ⟨-, rfl, step⟩ | ⟨_, _, _, _, _, _, _, step⟩ | ⟨other, step⟩
    · rw [step] at same
      cases same
    · rw [step] at same
      cases same
    · cases plusAsSpace with
      | false => exact step
      | true =>
          have apart : (byte == '+'.toUInt8) = false :=
            beq_eq_false_iff_ne.mpr (other rfl)
          rw [percentStep.eq_def, apart] at same ⊢
          exact same
  rw [percentKept] at kept
  rw [decodePass, plain, kept]

theorem valuePass_contracting (plusAsSpace : Bool) :
    Contracting (valuePass plusAsSpace) List.length := by
  constructor
  · intro passes bytes kept
    rw [valuePass_succ]
    exact decodePass_of_pass kept
  · intro passes bytes changed
    rw [valuePass_succ] at changed ⊢
    exact decodePass_length_lt changed

/-! ## The bounded decoder -/

theorem fixpointFrom_succ
    (plusAsSpace : Bool) (budget passes : Nat) (bytes : Bytes) :
    fixpointFrom plusAsSpace (budget + 1) passes bytes =
      if valuePass plusAsSpace passes bytes = bytes then
        ⟨bytes, passes, budget + 1⟩
      else
        fixpointFrom plusAsSpace budget (passes + 1)
          (valuePass plusAsSpace passes bytes) :=
  rfl

theorem fixpointFrom_eq_bounded
    (plusAsSpace : Bool) (budget passes : Nat) (bytes : Bytes) :
    ((fixpointFrom plusAsSpace budget passes bytes).bytes,
        (fixpointFrom plusAsSpace budget passes bytes).passes) =
      bounded (valuePass plusAsSpace) budget passes bytes := by
  induction budget generalizing passes bytes with
  | zero => rfl
  | succ budget induction =>
      rw [fixpointFrom_succ, bounded]
      by_cases kept : valuePass plusAsSpace passes bytes = bytes
      · rw [if_pos kept, if_pos kept]
      · rw [if_neg kept, if_neg kept]
        exact induction _ _

/-- The decoder makes the changing passes, as far as its budget goes. -/
theorem percentOverlongFixpoint_of_settlesAt
    {plusAsSpace : Bool} {raw : Bytes} {count : Nat}
    (settles : SettlesAt (valuePass plusAsSpace) raw count) (budget : Nat) :
    (percentOverlongFixpoint raw plusAsSpace budget).bytes =
        after (valuePass plusAsSpace) raw (min count budget) ∧
      (percentOverlongFixpoint raw plusAsSpace budget).passes =
        min count budget := by
  have stops := settles.bounded_eq budget (Nat.zero_le count)
  rw [Nat.zero_add] at stops
  have both := (fixpointFrom_eq_bounded plusAsSpace budget 0 raw).trans stops
  exact Prod.mk.inj both

/-! ## The unbounded reference -/

/-- The loop of `oracle_full` after its first turn. -/
def oracleLoop (bytes : Bytes) : Bytes :=
  settle decodePass List.length (fun _ => decodePass_length_lt) bytes

/-- The bytes of `oracle_full`: decode without a budget. -/
def oracleBytes (raw : Bytes) (plusAsSpace : Bool) : Bytes :=
  let next := valuePass plusAsSpace 0 raw
  if next = raw then raw else oracleLoop next

theorem after_succ_eq_iterate
    (plusAsSpace : Bool) (raw : Bytes) (count : Nat) :
    after (valuePass plusAsSpace) raw (count + 1) =
      decodePass^[count] (valuePass plusAsSpace 0 raw) := by
  induction count with
  | zero => rfl
  | succ count induction =>
      rw [after, valuePass_succ, induction, Function.iterate_succ_apply']

/-- The reference returns what the passes settle at. -/
theorem oracleBytes_of_settlesAt
    {plusAsSpace : Bool} {raw : Bytes} {count : Nat}
    (settles : SettlesAt (valuePass plusAsSpace) raw count) :
    oracleBytes raw plusAsSpace = after (valuePass plusAsSpace) raw count := by
  rw [oracleBytes]
  cases count with
  | zero =>
      have kept : valuePass plusAsSpace 0 raw = raw := settles.kept
      rw [if_pos kept]
      rfl
  | succ count =>
      have changed : valuePass plusAsSpace 0 raw ≠ raw :=
        settles.changes 0 count.succ_pos
      have kept := settles.kept
      rw [valuePass_succ, after_succ_eq_iterate] at kept
      rw [if_neg changed, after_succ_eq_iterate]
      exact settle_iterate _ kept

section Unicode

variable (unicode : UnicodeTables)

/-- `oracle_full` of the differential tests. -/
def oracleFull (input : Text) (plusAsSpace : Bool) : Text :=
  unicode.nfkc (fromUtf8Lossy (oracleBytes (asBytes input) plusAsSpace))

/-- A value is found to be encoded twice from the second pass on. -/
theorem canonicalizeValue_double_of_settlesAt
    {raw : Text} {plusAsSpace : Bool} {count : Nat}
    (settles : SettlesAt (valuePass plusAsSpace) (asBytes raw) count) :
    (canonicalizeValue unicode raw plusAsSpace).2 = true ↔ 2 ≤ count := by
  rw [canonicalizeValue,
    (percentOverlongFixpoint_of_settlesAt settles pipelineCap).2,
    decide_eq_true_iff, le_min_iff]
  exact and_iff_left (by decide)

/-- The bounded decoder is the unbounded one, cut off at its budget. -/
theorem canonicalizeValue_refines (raw : Text) (plusAsSpace : Bool) :
    ∃ count,
      SettlesAt (valuePass plusAsSpace) (asBytes raw) count ∧
      (percentOverlongFixpoint (asBytes raw) plusAsSpace pipelineCap).bytes =
        after (valuePass plusAsSpace) (asBytes raw)
          (min count pipelineCap) ∧
      (percentOverlongFixpoint (asBytes raw) plusAsSpace pipelineCap).passes =
        min count pipelineCap ∧
      (count ≤ pipelineCap →
        (canonicalizeValue unicode raw plusAsSpace).1 =
          oracleFull unicode raw plusAsSpace) ∧
      ((canonicalizeValue unicode raw plusAsSpace).2 = true ↔
        2 ≤ count) := by
  obtain ⟨count, settles⟩ :=
    (valuePass_contracting plusAsSpace).exists_settlesAt (asBytes raw)
  obtain ⟨bytes, passes⟩ :=
    percentOverlongFixpoint_of_settlesAt settles pipelineCap
  refine ⟨count, settles, bytes, passes, ?_,
    canonicalizeValue_double_of_settlesAt unicode settles⟩
  intro within
  rw [canonicalizeValue, oracleFull, oracleBytes_of_settlesAt settles, bytes,
    Nat.min_eq_left within]

end Unicode

/-! ## Stability -/

/-- Two hexadecimal digits come next. -/
def opensHexPair : Bytes → Bool
  | high :: low :: _ => isHex high && isHex low
  | _ => false

theorem stillPercentEncoded_cons (byte : UInt8) (rest : Bytes) :
    stillPercentEncoded (byte :: rest) =
      ((byte == '%'.toUInt8 && opensHexPair rest) ||
        stillPercentEncoded rest) := by
  match rest with
  | [] => simp [stillPercentEncoded, opensHexPair]
  | [_] => simp [stillPercentEncoded, opensHexPair]
  | _ :: _ :: _ => simp [stillPercentEncoded, opensHexPair, Bool.and_assoc]

theorem stillPercentEncoded_append_high
    {highs : Bytes} (high : ∀ byte ∈ highs, 0x80 ≤ byte) (rest : Bytes) :
    stillPercentEncoded (highs ++ rest) = stillPercentEncoded rest := by
  induction highs with
  | nil => rfl
  | cons byte highs induction =>
      have other : (byte == '%'.toUInt8) = false := by
        rw [beq_eq_false_iff_ne]
        rintro rfl
        exact absurd (high _ List.mem_cons_self) (by decide)
      rw [List.cons_append, stillPercentEncoded_cons, other, Bool.false_and,
        Bool.false_or]
      exact induction fun item member =>
        high item (List.mem_cons_of_mem byte member)

theorem stillPercentEncoded_of_suffix
    {bytes rest : Bytes} (ends : rest <:+ bytes)
    (still : stillPercentEncoded rest = true) :
    stillPercentEncoded bytes = true := by
  induction bytes with
  | nil =>
      cases List.suffix_nil.mp ends
      exact still
  | cons byte bytes induction =>
      rcases List.suffix_cons_iff.mp ends with rfl | later
      · exact still
      · rw [stillPercentEncoded_cons, induction later, Bool.or_true]

/-- The percent decoder keeps exactly the bytes without an escape. -/
theorem percentDecodeBytes_eq_self_iff (bytes : Bytes) :
    percentDecodeBytes false bytes = bytes ↔
      stillPercentEncoded bytes = false := by
  rw [percentDecodeBytes,
    (percentStep_contracts false).rewrite_eq_self_iff]
  constructor
  · intro kept
    induction bytes with
    | nil => rfl
    | cons byte rest induction =>
        rw [stillPercentEncoded_cons, induction fun head tail ends =>
          kept head tail (ends.trans (List.suffix_cons byte rest)),
          Bool.or_false, Bool.and_eq_false_iff]
        by_contra escape
        rw [not_or, Bool.not_eq_false, Bool.not_eq_false] at escape
        have same := kept byte rest List.suffix_rfl
        match rest, escape with
        | high :: low :: later, ⟨percent, hex⟩ =>
          rw [opensHexPair, Bool.and_eq_true] at hex
          rw [percentStep, Bool.and_false, percent, hex.1, hex.2] at same
          cases same
  · intro settled byte rest ends
    rcases percentStep_cases false byte rest with
      ⟨plus, -, -⟩ | ⟨high, low, later, rfl, rfl, first, second, -⟩ |
        ⟨-, step⟩
    · cases plus
    · have still : stillPercentEncoded
          ('%'.toUInt8 :: high :: low :: later) = true := by
        rw [stillPercentEncoded_cons, opensHexPair, first, second]
        rfl
      rw [stillPercentEncoded_of_suffix ends still] at settled
      cases settled
    · exact step

/-- Well-formed text without an escape is kept by a pass. -/
theorem decodePass_asBytes
    {text : Text} (settled : stillPercentEncoded (asBytes text) = false) :
    decodePass (asBytes text) = asBytes text := by
  rw [decodePass, (percentDecodeBytes_eq_self_iff _).mpr settled]
  apply (overlongStep_contracts.rewrite_eq_self_iff _).mpr
  intro byte rest ends
  obtain ⟨char, -, encoded⟩ :=
    List.mem_flatMap.mp (ends.subset List.mem_cons_self)
  obtain ⟨first, second⟩ := utf8EncodeChar_not_overlong char encoded
  rcases overlongStep_cases byte rest with
    ⟨_, _, _, lead | lead, _, _⟩ | step
  · exact absurd lead first
  · exact absurd lead second
  · exact step

theorem isHex_high {byte : UInt8} (high : 0x80 ≤ byte) :
    isHex byte = false := by
  simp only [UInt8.le_iff_toNat_le, UInt8.reduceToNat] at high
  simp only [isHex, UInt8.le_iff_toNat_le, Bool.or_eq_false_iff,
    Bool.and_eq_false_iff, decide_eq_false_iff_not]
  have digit : '9'.toUInt8.toNat = 57 := rfl
  have lower : 'f'.toUInt8.toNat = 102 := rfl
  have upper : 'F'.toUInt8.toNat = 70 := rfl
  omega

/-- Digits at the head of the lossy text were there before. -/
theorem opensHexPair_of_lossy
    {bytes : Bytes}
    (opens : opensHexPair (asBytes (fromUtf8Lossy bytes)) = true) :
    opensHexPair bytes = true := by
  match bytes with
  | [] => exact opens
  | lead :: rest =>
      rcases asBytes_fromUtf8Lossy_cons lead rest with
        ⟨-, kept⟩ | ⟨byte, others, later, -, highs, kept⟩
      · rw [kept] at opens
        match rest with
        | [] => exact opens
        | next :: rest =>
            rcases asBytes_fromUtf8Lossy_cons next rest with
              ⟨-, kept⟩ | ⟨byte, others, later, -, highs, kept⟩
            · rw [kept] at opens
              exact opens
            · rw [kept, opensHexPair, isHex_high (highs _ List.mem_cons_self),
                Bool.and_false] at opens
              cases opens
      · rw [kept] at opens
        have first := isHex_high (highs _ List.mem_cons_self)
        match others ++ asBytes (fromUtf8Lossy later), opens with
        | low :: _, opens =>
          rw [opensHexPair, first] at opens
          cases opens

/-- The lossy conversion writes no escape. -/
theorem stillPercentEncoded_lossy
    {bytes : Bytes} (settled : stillPercentEncoded bytes = false) :
    stillPercentEncoded (asBytes (fromUtf8Lossy bytes)) = false := by
  induction size : bytes.length using Nat.strong_induction_on
    generalizing bytes with
  | h size induction =>
      cases bytes with
      | nil => rfl
      | cons lead rest =>
          subst size
          rw [stillPercentEncoded_cons, Bool.or_eq_false_iff] at settled
          rcases asBytes_fromUtf8Lossy_cons lead rest with
            ⟨-, kept⟩ | ⟨byte, others, later, ends, highs, kept⟩
          · rw [kept, stillPercentEncoded_cons,
              induction _ (Nat.lt_succ_self _) settled.2 rfl, Bool.or_false]
            cases opens : opensHexPair (asBytes (fromUtf8Lossy rest)) with
            | false => exact Bool.and_false _
            | true =>
                rw [opensHexPair_of_lossy opens] at settled
                exact settled.1
          · have shorter : later.length < (lead :: rest).length :=
              Nat.lt_succ_of_le ends.length_le
            rw [kept, ← List.cons_append,
              stillPercentEncoded_append_high highs]
            apply induction _ shorter ?_ rfl
            by_contra still
            rw [Bool.not_eq_false] at still
            rw [stillPercentEncoded_of_suffix ends still] at settled
            cases settled.2

section Stability

variable {unicode : UnicodeTables}

theorem canonicalizeValue_of_decodesTo
    {raw : Text} {decoded : Bytes} (decodes : DecodesTo (asBytes raw) decoded) :
    (canonicalizeValue unicode raw false).1 =
      unicode.nfkc (fromUtf8Lossy decoded) := by
  rw [canonicalizeValue, percentOverlongFixpoint_bytes decodes]

/--
A canonical form without an escape is canonical again.  Decoding leaves no
escape behind: only compatibility normalization, which comes last, can write
one.
-/
theorem canonicalizeValue_stable
    (idempotent : ∀ text,
      unicode.nfkc (unicode.nfkc text) = unicode.nfkc text)
    {raw : Text} {decoded : Bytes} (decodes : DecodesTo (asBytes raw) decoded) :
    (canonicalizeValue unicode raw false).1 =
        unicode.nfkc (fromUtf8Lossy decoded) ∧
      stillPercentEncoded (asBytes (fromUtf8Lossy decoded)) = false ∧
      unicode.nfkc (canonicalizeValue unicode raw false).1 =
        (canonicalizeValue unicode raw false).1 ∧
      (stillPercentEncoded
          (asBytes (canonicalizeValue unicode raw false).1) = false →
        (canonicalizeValue unicode
            (canonicalizeValue unicode raw false).1 false).1 =
          (canonicalizeValue unicode raw false).1) := by
  have canonical := @canonicalizeValue_of_decodesTo unicode _ _ decodes
  have stable : unicode.nfkc (canonicalizeValue unicode raw false).1 =
      (canonicalizeValue unicode raw false).1 := by
    rw [canonical, idempotent]
  refine ⟨canonical, ?_, stable, ?_⟩
  · obtain ⟨passes, -, -, settled⟩ := decodes
    apply stillPercentEncoded_lossy
    exact (percentDecodeBytes_eq_self_iff decoded).mp
      (percentDecodeBytes_of_pass settled)
  · intro settled
    have again : DecodesTo
        (asBytes (canonicalizeValue unicode raw false).1) _ :=
      ⟨0, Nat.zero_le _, rfl, decodePass_asBytes settled⟩
    rw [canonicalizeValue_of_decodesTo again]
    exact (congrArg _ (fromUtf8Lossy_asBytes _)).trans stable

end Stability

/-- The ASCII character of a fullwidth form, and any other character. -/
def narrow (char : Char) : Char :=
  if 0xFF01 ≤ char.toNat ∧ char.toNat ≤ 0xFF5E then
    Char.ofNat (char.toNat - 0xFEE0)
  else char

/-- Tables whose normalization narrows the fullwidth forms. -/
def fullwidthTables : UnicodeTables :=
  { UnicodeTables.asciiOnly with nfkc := List.map narrow }

theorem narrow_narrow (char : Char) : narrow (narrow char) = narrow char := by
  unfold narrow
  split_ifs with wide still
  · exfalso
    rw [Char.ofNat, dif_pos (Or.inl (by omega))] at still
    change 0xFF01 ≤ char.toNat - 0xFEE0 ∧ _ at still
    omega
  all_goals rfl

theorem narrow_fullwidth
    {code : Nat} (low : 0x21 ≤ code) (high : code ≤ 0x7E) :
    narrow (Char.ofNat (code + 0xFEE0)) = Char.ofNat code := by
  have scalar : (Char.ofNat (code + 0xFEE0)).toNat = code + 0xFEE0 := by
    rw [Char.ofNat, dif_pos (Or.inr (by omega))]
    rfl
  rw [narrow, scalar, if_pos (by omega), Nat.add_sub_cancel]

theorem canonicalizeValue_stable_plain :
    DecodesTo (asBytes "%41".toList) (asBytes "A".toList) ∧
      (canonicalizeValue fullwidthTables "A".toList false).1 = "A".toList := by
  have decodes : DecodesTo (asBytes "%41".toList) (asBytes "A".toList) :=
    ⟨1, by decide, by decide, by decide⟩
  have canonical : (canonicalizeValue fullwidthTables "%41".toList false).1 =
      "A".toList := by
    decide
  refine ⟨decodes, ?_⟩
  have stable := (@canonicalizeValue_stable fullwidthTables
    (fun text => by simp [fullwidthTables, narrow_narrow]) _ _
    decodes).2.2.2
  rw [canonical] at stable
  exact stable (by decide)

/-- Normalization narrows a fullwidth percent sign to a new escape. -/
theorem canonicalizeValue_unstable_fullwidth :
    (∀ text, fullwidthTables.nfkc (fullwidthTables.nfkc text) =
        fullwidthTables.nfkc text) ∧
      (∀ code, 0x21 ≤ code → code ≤ 0x7E →
        fullwidthTables.nfkc [Char.ofNat (code + 0xFEE0)] =
          [Char.ofNat code]) ∧
      DecodesTo (asBytes "\uFF0541".toList) (asBytes "\uFF0541".toList) ∧
      (canonicalizeValue fullwidthTables "\uFF0541".toList false).1 =
        "%41".toList ∧
      (canonicalizeValue fullwidthTables "%41".toList false).1 ≠
        "%41".toList := by
  refine ⟨?_, ?_, ⟨0, Nat.zero_le _, rfl, by decide⟩, by decide, by decide⟩
  · intro text
    simp [fullwidthTables, narrow_narrow]
  · intro code low high
    exact congrArg (fun char => [char]) (narrow_fullwidth low high)

end LightWaf.Normalizer
