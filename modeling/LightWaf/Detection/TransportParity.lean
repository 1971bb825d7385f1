import LightWaf.Detection.Content
import LightWaf.Normalizer.Canonical
import LightWaf.Rust.Lowercase
import LightWaf.Rust.Search

/-!
# The derived channel of a JSON leaf

A value that arrives in a query, a form or a multipart field gets all derived
variants of its canonical form; the same value as a JSON leaf gets those of a
shorter list, from one budget for decoding and expanding.  The leaf misses
nothing where none of the transforms that are left out would change anything
and the expansion fits what decoding has left of the budget.
-/

namespace LightWaf.Detection

open LightWaf.Rust
open LightWaf.Core
open LightWaf.Normalizer
open LightWaf.Theory.Scan
open LightWaf.Theory.Settling

/-! ## Budgets -/

/-- The passes that are not made stay in the budget. -/
theorem fixpointFrom_budget
    (plusAsSpace : Bool) (budget passes : Nat) (bytes : Bytes) :
    (fixpointFrom plusAsSpace budget passes bytes).budget +
        (fixpointFrom plusAsSpace budget passes bytes).passes =
      budget + passes := by
  induction budget generalizing passes bytes with
  | zero => rfl
  | succ budget induction =>
      rw [fixpointFrom_succ]
      split_ifs
      · rfl
      · rw [induction]
        omega

theorem percentOverlongFixpoint_budget
    (raw : Bytes) (plusAsSpace : Bool) (budget : Nat) :
    (percentOverlongFixpoint raw plusAsSpace budget).budget +
        (percentOverlongFixpoint raw plusAsSpace budget).passes = budget :=
  fixpointFrom_budget plusAsSpace budget 0 raw

/-- A budget that suffices for the passes leaves the same bytes. -/
theorem percentOverlongFixpoint_less
    {raw : Bytes} {plusAsSpace : Bool} {budget less : Nat}
    (fewer : less ≤ budget)
    (suffices_ :
      (percentOverlongFixpoint raw plusAsSpace budget).passes ≤ less) :
    percentOverlongFixpoint raw plusAsSpace less =
      { percentOverlongFixpoint raw plusAsSpace budget with
        budget := less -
          (percentOverlongFixpoint raw plusAsSpace budget).passes } := by
  obtain ⟨count, settles⟩ :=
    (valuePass_contracting plusAsSpace).exists_settlesAt raw
  obtain ⟨bytes, passes⟩ :=
    percentOverlongFixpoint_of_settlesAt settles budget
  obtain ⟨lessBytes, lessPasses⟩ :=
    percentOverlongFixpoint_of_settlesAt settles less
  have left : (percentOverlongFixpoint raw plusAsSpace less).budget =
      less - (percentOverlongFixpoint raw plusAsSpace less).passes :=
    Nat.eq_sub_of_add_eq (percentOverlongFixpoint_budget raw plusAsSpace less)
  have same : min count less = min count budget := by
    rw [passes] at suffices_
    omega
  rw [same] at lessBytes lessPasses
  rw [lessPasses, ← passes] at left
  exact Decoded.mk.injEq .. |>.mpr
    ⟨lessBytes.trans bytes.symm, lessPasses.trans passes.symm, left⟩

section Unicode

variable (unicode : UnicodeTables)

/-- The bytes of a value that is taken for base64. -/
def base64Payload (value : Text) : Option Bytes :=
  if isBase64Candidate value base64MinLen then
    (base64Decode value).filter mostlyPrintable
  else none

/-- The units of its budget that an expansion spends. -/
def expansionSpent : (fuel budget : Nat) → Text → Nat
  | 0, _, _ => 0
  | _ + 1, 0, _ => 0
  | fuel + 1, budget + 1, value =>
      match base64Payload value with
      | none => 0
      | some decoded =>
          let canonical := percentOverlongFixpoint decoded false budget
          1 + canonical.passes + expansionSpent fuel canonical.budget
            (unicode.nfkc (fromUtf8Lossy canonical.bytes))

theorem expandBase64_succ (fuel budget : Nat) (value : Text) :
    expandBase64 unicode (fuel + 1) (budget + 1) value =
      match base64Payload value with
      | none => []
      | some decoded =>
          let canonical := percentOverlongFixpoint decoded false budget
          let canon := unicode.nfkc (fromUtf8Lossy canonical.bytes)
          expandBase64 unicode fuel canonical.budget canon ++ [canon] := by
  rw [expandBase64, base64Payload]
  cases isBase64Candidate value base64MinLen with
  | false => rfl
  | true =>
      cases base64Decode value with
      | none => rfl
      | some decoded =>
          cases printable : mostlyPrintable decoded with
          | false => simp [Option.filter_some, printable]
          | true => simp [Option.filter_some, printable]

/-- A text that is not taken for base64 has no variants and spends nothing. -/
theorem expandBase64_of_no_payload
    {value : Text} (none : base64Payload value = none) (fuel budget : Nat) :
    expandBase64 unicode fuel budget value = [] ∧
      expansionSpent unicode fuel budget value = 0 := by
  cases fuel with
  | zero => exact ⟨rfl, rfl⟩
  | succ fuel =>
      cases budget with
      | zero => exact ⟨rfl, rfl⟩
      | succ budget =>
          rw [expandBase64_succ, expansionSpent, none]
          exact ⟨rfl, rfl⟩

theorem expandBase64_zero (fuel : Nat) (value : Text) :
    expandBase64 unicode fuel 0 value = [] := by
  cases fuel with
  | zero => rfl
  | succ fuel => rfl

/-- A budget that suffices for an expansion gives all of it. -/
theorem expandBase64_less
    {fuel lessFuel budget less : Nat} (value : Text)
    (enough : budget ≤ fuel) (lessEnough : less ≤ lessFuel)
    (fewer : less ≤ budget)
    (suffices_ : expansionSpent unicode fuel budget value ≤ less) :
    expandBase64 unicode lessFuel less value =
      expandBase64 unicode fuel budget value := by
  induction fuel generalizing lessFuel budget less value with
  | zero =>
      cases Nat.le_zero.mp enough
      cases Nat.le_zero.mp fewer
      rw [expandBase64_zero, expandBase64_zero]
  | succ fuel induction =>
      cases payload : base64Payload value with
      | none =>
          rw [(expandBase64_of_no_payload unicode payload _ _).1,
            (expandBase64_of_no_payload unicode payload _ _).1]
      | some decoded =>
          cases budget with
          | zero =>
              cases Nat.le_zero.mp fewer
              rw [expandBase64_zero, expandBase64_zero]
          | succ budget =>
              rw [expansionSpent, payload] at suffices_
              dsimp only at suffices_
              obtain ⟨less, rfl⟩ : ∃ left, less = left + 1 :=
                ⟨less - 1, by omega⟩
              obtain ⟨lessFuel, rfl⟩ : ∃ left, lessFuel = left + 1 :=
                ⟨lessFuel - 1, by omega⟩
              rw [expandBase64_succ, expandBase64_succ, payload]
              dsimp only
              rw [percentOverlongFixpoint_less
                (Nat.le_of_succ_le_succ fewer) (by omega)]
              have left := percentOverlongFixpoint_budget decoded false budget
              generalize percentOverlongFixpoint decoded false budget =
                canonical at suffices_ left ⊢
              generalize unicode.nfkc (fromUtf8Lossy canonical.bytes) =
                canon at suffices_ ⊢
              have inner : expandBase64 unicode lessFuel
                    (less - canonical.passes) canon =
                  expandBase64 unicode fuel canonical.budget canon :=
                induction canon (by omega) (by omega) (by omega) (by omega)
              rw [inner]

end Unicode

/-! ## What the strips drop -/

/-- A step that keeps a character, or drops one of a kind and what follows. -/
def Drops (step : Stripped → Char → Text → Stripped × Nat)
    (picks : Char → Bool) : Prop :=
  ∀ state char rest, step state char rest = (state.push char, 0) ∨
    picks char = true ∧
      ∃ skip, step state char rest = ({ state with changed := true }, skip)

/-- A strip that changes a text leaves fewer characters of its kind. -/
theorem Drops.countP_lt
    {step : Stripped → Char → Text → Stripped × Nat} {picks : Char → Bool}
    (drops : Drops step picks) {text stripped : Text}
    (done : (scan step 0 {} text).finish = some stripped) :
    stripped.countP picks < text.countP picks := by
  have counted := @scan_invariant _ _ step
    (fun state rest =>
      state.out.countP picks + rest.countP picks ≤ text.countP picks ∧
        (state.changed = true →
          state.out.countP picks + rest.countP picks < text.countP picks))
    (by
      rintro state char rest ⟨bound, strict⟩
      rw [List.countP_cons] at bound strict
      rcases drops state char rest with kept | ⟨picked, skip, dropped⟩
      · rw [kept]
        simp only [Stripped.push, List.countP_cons, List.drop_zero]
        constructor
        · omega
        · intro changed
          have := strict changed
          omega
      · rw [dropped]
        rw [if_pos picked] at bound
        have fewer : (rest.drop skip).countP picks ≤ rest.countP picks :=
          (List.drop_sublist skip rest).countP_le
        dsimp only
        constructor
        · omega
        · intro _
          omega)
    {} text ⟨by simp, by simp⟩
  rw [Stripped.finish] at done
  split_ifs at done with changed
  cases done
  have strict := counted.2 changed
  rw [List.countP_nil, Nat.add_zero] at strict
  rw [List.countP_reverse]
  exact strict

theorem tagStep_drops (unicode : UnicodeTables) :
    Drops (tagStep unicode) (· == '<') := by
  intro state char rest
  rw [tagStep]
  split_ifs with opens
  · split
    · split_ifs
      · exact Or.inr ⟨opens, _, rfl⟩
      · exact Or.inl rfl
    · exact Or.inl rfl
  · exact Or.inl rfl

theorem controlStep_drops (unicode : UnicodeTables) :
    Drops (controlStep unicode) isCtrl := by
  intro state char rest
  rw [controlStep]
  split_ifs with control between
  · exact Or.inr ⟨control, _, rfl⟩
  · exact Or.inl rfl
  · exact Or.inl rfl

theorem concatStep_drops : Drops concatStep (· == '\x22') := by
  intro state char rest
  rw [concatStep]
  split_ifs with quote
  · split
    · split
      · exact Or.inr ⟨quote, _, rfl⟩
      · exact Or.inl rfl
    · exact Or.inl rfl
  · exact Or.inl rfl

/-! ## What entities and base64 are made of -/

/-- A character that an entity or a base64 text can hold. -/
def isPlainChar (char : Char) : Bool :=
  char.isAlphanum || "#+/=&;".toList.contains char

theorem isAlphanum_of_toDigit
    {radix : Nat} {char : Char} {digit : Nat}
    (read : toDigit radix char = some digit) : char.isAlphanum = true := by
  rw [Char.isAlphanum, isAlpha_eq, Bool.or_eq_true, Bool.or_eq_true,
    isUpper_iff, isLower_iff]
  unfold toDigit at read
  dsimp only at read
  split_ifs at read with decimal _ lower _ upper _ other
  · right
    rw [Char.isDigit, Bool.and_eq_true, decide_eq_true_eq, decide_eq_true_eq]
    exact decimal
  · exact Or.inl (Or.inr lower)
  · exact Or.inl (Or.inl upper)
  · exact absurd other (Nat.lt_irrefl radix)

/-- The characters of a number. -/
theorem isPlainChar_of_parseDigits
    {radix bound start number : Nat} {digits : Text}
    (read : digits.foldlM (fun value char => do
      let digit ← toDigit radix char
      if value * radix + digit < bound then some (value * radix + digit)
      else none) start = some number) :
    ∀ char ∈ digits, isPlainChar char = true := by
  induction digits generalizing start with
  | nil => exact List.forall_mem_nil _
  | cons char rest induction =>
      rw [List.foldlM_cons] at read
      obtain ⟨value, here, later⟩ := Option.bind_eq_some_iff.mp read
      obtain ⟨digit, isDigit, -⟩ := Option.bind_eq_some_iff.mp here
      rw [List.forall_mem_cons]
      refine ⟨?_, induction later⟩
      rw [isPlainChar, isAlphanum_of_toDigit isDigit, Bool.true_or]

theorem isPlainChar_of_fromStrRadix
    {radix bound number : Nat} {text : Text}
    (read : fromStrRadix radix bound text = some number) :
    ∀ char ∈ text, isPlainChar char = true := by
  unfold fromStrRadix at read
  split at read
  · cases read
  · cases read
  · rw [List.forall_mem_cons]
    exact ⟨by decide, isPlainChar_of_parseDigits read⟩
  · exact isPlainChar_of_parseDigits read

/-- The characters of an entity that is decoded. -/
theorem isPlainChar_of_entityChar
    {entity : Text} {char : Char} (decoded : entityChar entity = some char) :
    ∀ inside ∈ entity, isPlainChar inside = true := by
  unfold entityChar at decoded
  dsimp only at decoded
  obtain ⟨found, -⟩ := Option.filter_eq_some_iff.mp decoded
  split at found
  · obtain ⟨number, read, -⟩ := Option.bind_eq_some_iff.mp found
    rw [List.forall_mem_cons, List.forall_mem_cons]
    exact ⟨by decide, by decide, isPlainChar_of_fromStrRadix read⟩
  · obtain ⟨number, read, -⟩ := Option.bind_eq_some_iff.mp found
    rw [List.forall_mem_cons, List.forall_mem_cons]
    exact ⟨by decide, by decide, isPlainChar_of_fromStrRadix read⟩
  · obtain ⟨number, read, -⟩ := Option.bind_eq_some_iff.mp found
    rw [List.forall_mem_cons]
    exact ⟨by decide, isPlainChar_of_fromStrRadix read⟩
  · obtain ⟨before, after, named, -⟩ := List.lookup_eq_some_iff.mp found
    have names : ∀ pair ∈ entityNamed, ∀ inside ∈ pair.1,
        isPlainChar inside = true := by
      decide +kernel
    refine names (entity, char) ?_
    rw [named]
    exact List.mem_append_right _ List.mem_cons_self

/-- No character of an entity is one of a kind that entities do not hold. -/
theorem countP_plain
    {picks : Char → Bool} (solid : ∀ char, picks char = true →
      isPlainChar char = false)
    {text : Text} (plain : ∀ char ∈ text, isPlainChar char = true) :
    text.countP picks = 0 := by
  rw [List.countP_eq_zero]
  intro char member picked
  have solidHere := solid char picked
  rw [plain char member] at solidHere
  cases solidHere

/-- One position of the entity decoder loses none of a kind. -/
theorem entityStep_countP
    {picks : Char → Bool} (solid : ∀ char, picks char = true →
      isPlainChar char = false)
    (state : Stripped) (char : Char) (rest : Text) :
    state.out.countP picks + (char :: rest).countP picks ≤
      (entityStep state char rest).1.out.countP picks +
        (rest.drop (entityStep state char rest).2).countP picks := by
  have pushed : ∀ other, (state.push other).out.countP picks =
      state.out.countP picks + if picks other then 1 else 0 :=
    fun other => List.countP_cons
  rw [entityStep]
  split_ifs with amp
  · dsimp only
    split
    next decoded length found =>
      obtain ⟨⟨entity, after⟩, split, found⟩ :=
        Option.bind_eq_some_iff.mp found
      dsimp only at found
      split_ifs at found
      obtain ⟨stands, read, same⟩ := Option.bind_eq_some_iff.mp found
      cases same
      have spelled := eq_of_findSplit split
      have body := countP_plain solid (isPlainChar_of_entityChar read)
      have ends := @countP_plain picks solid [char, ';'] (by
        rw [beq_iff_eq.mp amp]
        decide)
      simp only [List.countP_cons, List.countP_nil] at ends
      rw [spelled, List.countP_cons, List.countP_append, List.countP_append,
        List.countP_singleton, body]
      have dropped : (entity ++ ([';'] ++ after)).drop (entity.length + 1) =
          after := by
        rw [← List.append_assoc]
        exact List.drop_left' (by simp)
      rw [dropped]
      show _ ≤ (state.push decoded).out.countP picks + _
      rw [pushed]
      omega
    next =>
      rw [pushed, List.drop_zero, List.countP_cons, ← beq_iff_eq.mp amp]
      omega
  · rw [pushed, List.drop_zero, List.countP_cons]
    omega

/-- Decoding entities loses none of a kind. -/
theorem htmlEntityDecodeEvasion_countP
    {picks : Char → Bool} (solid : ∀ char, picks char = true →
      isPlainChar char = false)
    {text decoded : Text}
    (done : htmlEntityDecodeEvasion text = some decoded) :
    text.countP picks ≤ decoded.countP picks := by
  have counted := @scan_invariant _ _ entityStep
    (fun state rest =>
      text.countP picks ≤ state.out.countP picks + rest.countP picks)
    (fun state char rest bound =>
      bound.trans (entityStep_countP solid state char rest))
    {} text (by simp)
  rw [htmlEntityDecodeEvasion, Stripped.finish] at done
  split_ifs at done
  cases done
  rw [List.countP_reverse]
  exact counted

/-- The characters of a base64 candidate. -/
theorem isPlainChar_of_candidate
    {text : Text} {lenMin : Nat}
    (candidate : isBase64Candidate text lenMin = true) :
    ∀ char ∈ text, isPlainChar char = true := by
  rw [isBase64Candidate] at candidate
  split_ifs at candidate
  dsimp only at candidate
  rw [Bool.and_eq_true, List.all_eq_true] at candidate
  intro char member
  have whole : text.rdropWhile (· == '=') ++ text.rtakeWhile (· == '=') =
      text := List.rdropWhile_append_rtakeWhile
  rw [← whole] at member
  rw [isPlainChar, Bool.or_eq_true]
  rcases List.mem_append.mp member with core | padding
  · have digit := candidate.2 char core
    rw [Bool.or_eq_true, Bool.or_eq_true, Bool.and_eq_true, beq_iff_eq,
      beq_iff_eq] at digit
    rcases digit with (plain | rfl) | rfl
    · exact Or.inl plain.2
    · exact Or.inr (by decide)
    · exact Or.inr (by decide)
  · have equals : (char == '=') = true :=
      @List.mem_rtakeWhile_imp _ (· == '=') text char padding
    rw [beq_iff_eq.mp equals]
    exact Or.inr (by decide)

/-! ## Parity -/

section Parity

variable (unicode : UnicodeTables)

/-- The canonical form of a value outside a query. -/
def canonicalText (value : Text) : Text :=
  (canonicalizeValue unicode value false).1

/-- Every variant that another transport derives is seen for a JSON leaf. -/
def LeafCovers (key value : Text) : Prop :=
  ∀ variant ∈ deriveVariants unicode (canonicalText unicode value),
    variant ∈ jsonLeafDerived unicode value ∨
      variant ∈ bodyStrValues unicode (.jsonFlattened [(key, value)])

/-- The three strips change nothing, or give the leaf itself. -/
structure StripsNothing (value : Text) : Prop where
  tags : ∀ stripped,
    stripMidtokenTags unicode (canonicalText unicode value) =
      some stripped → stripped = value
  controls : ∀ stripped,
    stripMidtokenControls unicode (canonicalText unicode value) =
      some stripped → stripped = value
  concat : ∀ joined,
    stripVbscriptConcat (canonicalText unicode value) = some joined →
      joined = value

/-- A value for which the transforms that a leaf skips have nothing to do. -/
structure LeafPlain (value : Text) : Prop where
  strips : StripsNothing unicode value
  wrapped : ∀ decoded ∈ base64Derived unicode (canonicalText unicode value),
    structuralTransforms unicode decoded = []
  entity : ∀ decoded,
    htmlEntityDecodeEvasion (canonicalText unicode value) = some decoded →
      base64Derived unicode decoded = []
  budget : (percentOverlongFixpoint (asBytes value) false pipelineCap).passes +
      expansionSpent unicode pipelineCap pipelineCap
        (canonicalText unicode value) ≤ pipelineCap

/-- What is derived for a leaf, by the canonical form. -/
theorem jsonLeafDerived_eq (value : Text) :
    jsonLeafDerived unicode value =
      expandBase64 unicode
          (percentOverlongFixpoint (asBytes value) false pipelineCap).budget
          (percentOverlongFixpoint (asBytes value) false pipelineCap).budget
          (canonicalText unicode value) ++
        (htmlEntityDecodeEvasion (canonicalText unicode value)).toList ++
        (if canonicalText unicode value = value then []
          else [canonicalText unicode value]) :=
  rfl

theorem mem_bodyStrValues_leaf {key value variant : Text} :
    variant ∈ bodyStrValues unicode (.jsonFlattened [(key, value)]) ↔
      variant = value :=
  List.mem_singleton

/-- An expansion within the budget that is left is a fresh one. -/
theorem expandBase64_leaf
    {value : Text}
    (fits : (percentOverlongFixpoint (asBytes value) false
        pipelineCap).passes +
      expansionSpent unicode pipelineCap pipelineCap
        (canonicalText unicode value) ≤ pipelineCap) :
    expandBase64 unicode
        (percentOverlongFixpoint (asBytes value) false pipelineCap).budget
        (percentOverlongFixpoint (asBytes value) false pipelineCap).budget
        (canonicalText unicode value) =
      base64Derived unicode (canonicalText unicode value) := by
  have left :=
    percentOverlongFixpoint_budget (asBytes value) false pipelineCap
  exact expandBase64_less unicode _ le_rfl le_rfl (by omega) (by omega)

/-- A leaf covers a plain value. -/
theorem leafCovers_of_leafPlain
    {value : Text} (plain : LeafPlain unicode value) (key : Text) :
    LeafCovers unicode key value := by
  intro variant member
  rw [mem_bodyStrValues_leaf, jsonLeafDerived_eq,
    expandBase64_leaf unicode plain.budget]
  simp only [deriveVariants, List.mem_append, List.mem_flatMap,
    Option.mem_toList] at member
  rcases member with
    (((((base64 | ⟨decoded, inside, transformed⟩) | nested) | entity) |
      tags) | controls) | concat
  · exact Or.inl (List.mem_append_left _ (List.mem_append_left _ base64))
  · rw [plain.wrapped decoded inside] at transformed
    cases transformed
  · cases found :
        htmlEntityDecodeEvasion (canonicalText unicode value) with
    | none =>
        rw [found] at nested
        cases nested
    | some decoded =>
        rw [found, Option.map_some, Option.getD_some,
          plain.entity decoded found] at nested
        cases nested
  · exact Or.inl (List.mem_append_left _ (List.mem_append_right _
      (Option.mem_toList.mpr entity)))
  · exact Or.inr (plain.strips.tags variant tags)
  · exact Or.inr (plain.strips.controls variant controls)
  · exact Or.inr (plain.strips.concat variant concat)

/-- A stripped text that a leaf covers is the leaf itself. -/
theorem eq_leaf_of_stripped
    {step : Stripped → Char → Text → Stripped × Nat} {picks : Char → Bool}
    (drops : Drops step picks)
    (solid : ∀ char, picks char = true → isPlainChar char = false)
    {value stripped : Text}
    (done : (scan step 0 {} (canonicalText unicode value)).finish =
      some stripped)
    {key : Text}
    (covered : stripped ∈ jsonLeafDerived unicode value ∨
      stripped ∈ bodyStrValues unicode (.jsonFlattened [(key, value)])) :
    stripped = value := by
  have fewer := drops.countP_lt done
  rcases covered with derived | exposed
  · rw [jsonLeafDerived_eq] at derived
    rcases List.mem_append.mp derived with derived | canonical
    · rcases List.mem_append.mp derived with base64 | entity
      · -- A text with such a character is no candidate, so nothing expands.
        have some_ : 0 < (canonicalText unicode value).countP picks :=
          Nat.zero_lt_of_lt fewer
        have none : base64Payload (canonicalText unicode value) = none := by
          rw [base64Payload, if_neg]
          intro candidate
          have plain := isPlainChar_of_candidate candidate
          rw [countP_plain solid plain] at some_
          exact Nat.lt_irrefl 0 some_
        rw [(expandBase64_of_no_payload unicode none _ _).1] at base64
        cases base64
      · have more := htmlEntityDecodeEvasion_countP solid
          (Option.mem_toList.mp entity)
        exact absurd fewer (Nat.not_lt.mpr more)
    · split_ifs at canonical
      · cases canonical
      · rw [List.mem_singleton.mp canonical] at fewer
        exact absurd fewer (Nat.lt_irrefl _)
  · exact (mem_bodyStrValues_leaf unicode).mp exposed

theorem isPlainChar_of_isCtrl
    {char : Char} (control : isCtrl char = true) :
    isPlainChar char = false := by
  have all : ∀ number < 0x20, isPlainChar (Char.ofNat number) = false := by
    decide +kernel
  simp only [isCtrl, Bool.and_eq_true, decide_eq_true_eq] at control
  have this := all char.toNat control.1.1.1
  rw [Char.ofNat_toNat] at this
  exact this

/-- Where a leaf covers a value, the strips have nothing to do. -/
theorem stripsNothing_of_leafCovers
    {key value : Text} (covers : LeafCovers unicode key value) :
    StripsNothing unicode value := by
  have derives : ∀ variant,
      (stripMidtokenTags unicode (canonicalText unicode value) =
          some variant ∨
        stripMidtokenControls unicode (canonicalText unicode value) =
          some variant ∨
        stripVbscriptConcat (canonicalText unicode value) =
          some variant) →
      variant ∈ deriveVariants unicode (canonicalText unicode value) := by
    intro variant
    rintro (tags | controls | concat)
    · simp [deriveVariants, tags]
    · simp [deriveVariants, controls]
    · simp [deriveVariants, concat]
  refine ⟨?_, ?_, ?_⟩
  · intro stripped done
    apply eq_leaf_of_stripped unicode (tagStep_drops unicode) ?_ done
      (covers stripped (derives stripped (Or.inl done)))
    intro char picked
    rw [beq_iff_eq.mp picked]
    decide
  · intro stripped done
    exact eq_leaf_of_stripped unicode (controlStep_drops unicode)
      (fun _ => isPlainChar_of_isCtrl) done
      (covers stripped (derives stripped (Or.inr (Or.inl done))))
  · intro joined done
    apply eq_leaf_of_stripped unicode concatStep_drops ?_ done
      (covers joined (derives joined (Or.inr (Or.inr done))))
    intro char picked
    rw [beq_iff_eq.mp picked]
    decide

/-- Without base64 in play only the strips matter. -/
theorem leafPlain_of_no_payload
    {value : Text} (strips : StripsNothing unicode value)
    (none : base64Payload (canonicalText unicode value) = none)
    (entityNone : ∀ decoded,
      htmlEntityDecodeEvasion (canonicalText unicode value) = some decoded →
        base64Payload decoded = Option.none) :
    LeafPlain unicode value where
  strips := strips
  wrapped := by
    rw [base64Derived, (expandBase64_of_no_payload unicode none _ _).1]
    exact List.forall_mem_nil _
  entity := fun decoded found =>
    (expandBase64_of_no_payload unicode (entityNone decoded found) _ _).1
  budget := by
    rw [(expandBase64_of_no_payload unicode none _ _).2, Nat.add_zero]
    have left :=
      percentOverlongFixpoint_budget (asBytes value) false pipelineCap
    omega

/--
A JSON leaf gets every variant that another transport derives when none of
the transforms that it skips has anything to do; it does not when a strip
has.  Where no base64 is in play, the strips decide.
-/
theorem jsonLeafDerived_parity (key value : Text) :
    (LeafPlain unicode value → LeafCovers unicode key value) ∧
      (LeafCovers unicode key value → StripsNothing unicode value) ∧
      (base64Payload (canonicalText unicode value) = none →
        (∀ decoded,
          htmlEntityDecodeEvasion (canonicalText unicode value) =
            some decoded → base64Payload decoded = none) →
        (LeafCovers unicode key value ↔ StripsNothing unicode value)) := by
  refine ⟨fun plain => leafCovers_of_leafPlain unicode plain key,
    stripsNothing_of_leafCovers unicode, ?_⟩
  intro none entityNone
  constructor
  · exact stripsNothing_of_leafCovers unicode
  · intro strips
    exact leafCovers_of_leafPlain unicode
      (leafPlain_of_no_payload unicode strips none entityNone) key

end Parity

/-- A tag inside a word is stripped in a query, but not in a JSON leaf. -/
theorem leafCovers_fails_tag :
    "onfocus".toList ∈ deriveVariants .asciiOnly
        (canonicalizeValue .asciiOnly "o<x>nfocus".toList false).1 ∧
      ¬ LeafCovers .asciiOnly "q".toList "o<x>nfocus".toList := by
  have derived : "onfocus".toList ∈ deriveVariants .asciiOnly
      (canonicalizeValue .asciiOnly "o<x>nfocus".toList false).1 := by
    decide +kernel
  refine ⟨derived, fun covers => ?_⟩
  have missed : ¬ ("onfocus".toList ∈
        jsonLeafDerived .asciiOnly "o<x>nfocus".toList ∨
      "onfocus".toList ∈ bodyStrValues .asciiOnly
        (.jsonFlattened [("q".toList, "o<x>nfocus".toList)])) := by
    decide +kernel
  exact missed (covers "onfocus".toList derived)

end LightWaf.Detection
