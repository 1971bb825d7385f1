import LightWaf.Crs.ByteCursor
import LightWaf.Detection.TransportParity
import LightWaf.Theory.Splicing

/-!
# What the mid-token strips delete

`strip_midtoken_tags` and `strip_midtoken_controls` of
`waf-normalizer/src/url.rs` walk the bytes of a text and delete a tag, or a
run of control bytes, that stands between two word characters.  The character
before is the last one written; the one after is judged by its first byte
alone, read as a character of its own.  So a text loses nothing else exactly
when no tag or run that follows a word character is itself followed by a
character whose first byte is a letter in Latin-1 but which is no word
character.
-/

namespace LightWaf.Detection.MidToken

open LightWaf.Rust
open LightWaf.Normalizer
open LightWaf.Crs
open LightWaf.Crs.ByteCursor
open LightWaf.Theory.Scan
open LightWaf.Theory.Splicing

/-! ## The loops of the source -/

/--
The loop of both strips.  At each position `jump` may panic, give the position
to go on from, or decline; then one character is copied.  A turn moves on by
at least one byte, so fuel equal to the length suffices.
-/
def strip (text : Text) (jump : Nat → Stripped → Option (Option Nat)) :
    (fuel position : Nat) → Stripped → Option Stripped
  | 0, position, state => if byteLen text ≤ position then some state else none
  | fuel + 1, position, state =>
      if byteLen text ≤ position then some state
      else do
        match ← jump position state with
        | some next => strip text jump fuel next { state with changed := true }
        | none =>
            let rest ← strFrom text position
            let char ← rest.head?
            strip text jump fuel (position + char.utf8Size) (state.push char)

/-- A byte other than tab, line feed and carriage return below a space. -/
def isCtrlByte (byte : UInt8) : Bool :=
  byte < 0x20 && byte != 9 && byte != 10 && byte != 13

section Source

variable (unicode : UnicodeTables)

/-- Whether the byte at a position, taken as a character, is of a word. -/
def wordByteAt (text : Text) (position : Nat) : Bool :=
  (byteAt text position).any fun byte =>
    isWordChar unicode (Char.ofNat byte.toNat)

/-- The tag that `strip_midtoken_tags` tries at a position. -/
def tagAt (text : Text) (position : Nat) (state : Stripped) :
    Option (Option Nat) :=
  if byteAt text position = some '<'.toUInt8 then do
    match findSplit ['>'] (← strFrom text position) with
    | some (inside, _) =>
        let close := position + byteLen inside
        if endsInWord unicode state && wordByteAt unicode text (close + 1) &&
            decide (close - position ≤ 24) then
          some (some (close + 1))
        else some none
    | none => some none
  else some none

/-- `strip_midtoken_tags`; the outer `none` is a panic. -/
def stripTags (text : Text) : Option (Option Text) :=
  if !text.contains '<' then some none
  else
    (strip text (tagAt unicode text) (byteLen text) 0 {}).map Stripped.finish

/-- The run that `strip_midtoken_controls` tries at a position. -/
def controlAt (text : Text) (position : Nat) (state : Stripped) :
    Option (Option Nat) :=
  if (byteAt text position).any isCtrlByte then
    let stop := advance text isCtrlByte (byteLen text - position) position
    if endsInWord unicode state && wordByteAt unicode text stop then
      some (some stop)
    else some none
  else some none

/-- `strip_midtoken_controls`; the outer `none` is a panic. -/
def stripControls (text : Text) : Option (Option Text) :=
  if !(asBytes text).any isCtrlByte then some none
  else
    (strip text (controlAt unicode text) (byteLen text) 0 {}).map
      Stripped.finish

end Source

/-! ## The loop over characters -/

/--
The cursor keeps to character boundaries: if at each of them `jump` declines
or jumps as a step over characters does, the loop is the scan with that step.
-/
theorem strip_eq
    {jump : Nat → Stripped → Option (Option Nat)}
    {step : Stripped → Char → Text → Stripped × Nat} {text : Text}
    (agree : ∀ before char rest state, text = before ++ char :: rest →
      (jump (byteLen before) state = some none ∧
        step state char rest = (state.push char, 0)) ∨
      ∃ span, jump (byteLen before) state =
          some (some (byteLen (before ++ char :: rest.take span))) ∧
        step state char rest = ({ state with changed := true }, span))
    {fuel : Nat} {before rest : Text} (state : Stripped)
    (here : text = before ++ rest) (enough : byteLen rest ≤ fuel) :
    strip text jump fuel (byteLen before) state =
      some (scan step 0 state rest) := by
  have total : byteLen text = byteLen before + byteLen rest := by
    rw [here, byteLen_append]
  induction fuel generalizing before rest state with
  | zero =>
      cases rest with
      | nil => simp [strip, scan, total]
      | cons head tail =>
          have positive := head.utf8Size_pos
          rw [byteLen_cons] at enough
          omega
  | succ fuel induction =>
      cases rest with
      | nil => simp [strip, scan, total]
      | cons head tail =>
          have positive := head.utf8Size_pos
          rw [byteLen_cons] at enough total
          have inside : ¬ byteLen text ≤ byteLen before := by omega
          rw [strip, if_neg inside, scan_cons]
          rcases agree before head tail state here with
            ⟨declines, keeps⟩ | ⟨span, jumps, drops⟩
          · have copied := @induction (before ++ [head]) tail
              (state.push head) (by rw [here]; simp) (by omega)
              (by rw [total]; simp; omega)
            rw [byteLen_append, byteLen_cons, byteLen_nil, Nat.add_zero]
              at copied
            rw [declines, keeps, List.drop_zero, Option.bind_eq_bind,
              Option.bind_some]
            dsimp only
            rw [here, strFrom_append, ← here]
            exact copied
          · have parts : byteLen tail =
                byteLen (tail.take span) + byteLen (tail.drop span) := by
              rw [← byteLen_append, List.take_append_drop]
            have jumped := @induction (before ++ head :: tail.take span)
              (tail.drop span) { state with changed := true }
              (by rw [here]; simp) (by omega)
              (by rw [total, byteLen_append, byteLen_cons]; omega)
            rw [jumps, drops]
            exact jumped

theorem wordByteAt_append
    (unicode : UnicodeTables) (before rest : Text) :
    wordByteAt unicode (before ++ rest) (byteLen before) =
      startsWithWordByte unicode rest := by
  cases rest with
  | nil => simp [wordByteAt, startsWithWordByte, byteAt_end]
  | cons char rest =>
      have nonempty : String.utf8EncodeChar char ≠ [] :=
        String.utf8EncodeChar_ne_nil
      rw [wordByteAt, byteAt_append, startsWithWordByte, asBytes_cons,
        List.head?_append_of_ne_nil _ nonempty]

/-! ## What is deleted -/

section Deleted

variable (unicode : UnicodeTables)

/-- The last character is of a word. -/
def EndsInWordChar (before : Text) : Prop :=
  ∃ char ∈ before.getLast?, isWordChar unicode char = true

/-- The first character is of a word. -/
def StartsInWordChar (after : Text) : Prop :=
  ∃ char ∈ after.head?, isWordChar unicode char = true

/-- A part of some shape, which may depend on what follows, between words. -/
def Between (shape : Text → Text → Prop)
    (before dropped put after : Text) : Prop :=
  put = [] ∧ EndsInWordChar unicode before ∧ shape dropped after ∧
    StartsInWordChar unicode after

/-- The same, with the character that follows judged by its first byte. -/
def Dropped (shape : Text → Text → Prop)
    (before dropped put after : Text) : Prop :=
  put = [] ∧ EndsInWordChar unicode before ∧ shape dropped after ∧
    startsWithWordByte unicode after = true

/-- No part that is dropped begins here. -/
def Kept (shape : Text → Text → Prop)
    (before : Text) (char : Char) (rest : Text) : Prop :=
  EndsInWordChar unicode before → ∀ dropped after,
    char :: rest = dropped ++ after → shape dropped after →
      startsWithWordByte unicode after = false

/--
A text that comes out is the one that went in, less one or more disjoint parts
of some shape that stand between word characters.
-/
def OnlyBetweenWords (shape : Text → Text → Prop) (text : Text)
    (result : Option Text) : Prop :=
  ∀ out, result = some out → ∃ count, 0 < count ∧
    Splice (fun _ _ _ => True) (Between unicode shape) [] text out count

/--
What follows a part of some shape after a word character is a word character
if its first byte, taken as a character, is one.
-/
def WordByteIsWordChar (shape : Text → Text → Prop) (text : Text) : Prop :=
  ∀ before dropped after, text = before ++ (dropped ++ after) →
    EndsInWordChar unicode before → shape dropped after →
      startsWithWordByte unicode after = true →
        StartsInWordChar unicode after

/-- A step that drops the parts of some shape, and keeps everything else. -/
structure Strips (shape : Text → Text → Prop) (picks : Char → Bool)
    (step : Stripped → Char → Text → Stripped × Nat) : Prop where
  turn : ∀ state char rest,
    (step state char rest = (state.push char, 0) ∧
      (endsInWord unicode state = true → ∀ dropped after,
        char :: rest = dropped ++ after → shape dropped after →
          startsWithWordByte unicode after = false)) ∨
    ∃ inside after, rest = inside ++ after ∧
      step state char rest =
        ({ state with changed := true }, inside.length) ∧
      endsInWord unicode state = true ∧ shape (char :: inside) after ∧
      startsWithWordByte unicode after = true
  begins : ∀ {dropped after}, shape dropped after →
    ∃ head tail, dropped = head :: tail ∧ picks head = true
  solid : ∀ {char}, picks char = true →
    char.toNat < 0x80 ∧ isWordChar unicode char = false
  /-- How far a part reaches is settled by where it begins. -/
  determined : ∀ {dropped after dropped' after'}, shape dropped after →
    shape dropped' after' → dropped ++ after = dropped' ++ after' →
      dropped = dropped'
  /-- A part that begins within another, after a word, ends where it does. -/
  nested : ∀ {lead dropped after dropped' after'},
    shape (lead ++ dropped) after → EndsInWordChar unicode lead →
      dropped ≠ [] → shape dropped' after' →
        dropped ++ after = dropped' ++ after' → after = after'

variable {unicode}

theorem startsWithWordByte_ascii
    {char : Char} (rest : Text) (ascii : char.toNat < 0x80) :
    startsWithWordByte unicode (char :: rest) = isWordChar unicode char := by
  have bound : char.toNat < UInt8.size := ascii.trans (by decide)
  rw [startsWithWordByte, asBytes_cons, utf8EncodeChar_ascii ascii]
  simp [Nat.mod_eq_of_lt bound]

theorem endsInWord_iff
    {state : Stripped} {before : Text}
    (last : state.out.head? = before.getLast?) :
    endsInWord unicode state = true ↔ EndsInWordChar unicode before := by
  rw [endsInWord, last, EndsInWordChar, Option.any_eq_true]
  rfl

section Strips

variable {shape : Text → Text → Prop} {picks : Char → Bool}
variable {step : Stripped → Char → Text → Stripped × Nat}

/-- What a word byte begins is not the mark of a part. -/
theorem Strips.plain_of_wordByte
    (strips : Strips unicode shape picks step) {after : Text}
    (word : startsWithWordByte unicode after = true) :
    ∀ next ∈ after.head?, picks next = false := by
  intro next first
  obtain ⟨rest, rfl⟩ := List.head?_eq_some_iff.mp first
  rw [Bool.eq_false_iff]
  intro picked
  rw [startsWithWordByte_ascii rest (strips.solid picked).1,
    (strips.solid picked).2] at word
  cases word

/-- A scan with the step is a splice that drops parts of the shape. -/
theorem Strips.splice
    (strips : Strips unicode shape picks step) (text : Text) :
    ∃ count,
      ((scan step 0 {} text).changed = true ↔ 0 < count) ∧
      Splice (Kept unicode shape) (Dropped unicode shape) [] text
        (scan step 0 {} text).out.reverse count := by
  -- Directly behind a dropped part the last character written is not the
  -- last one read, but there no part begins either.
  have made := @splice_of_scan Char Stripped step
    (fun state => state.out.reverse) Stripped.changed
    (fun before state rest => state.out.head? = before.getLast? ∨
      ∀ next ∈ rest.head?, picks next = false)
    (Kept unicode shape) (Dropped unicode shape)
    (by
      intro before state char rest holds
      have aligned : picks char = true →
          state.out.head? = before.getLast? := by
        intro picked
        rcases holds with last | plain
        · exact last
        · rw [plain char rfl] at picked
          cases picked
      rcases strips.turn state char rest with
        ⟨keeps, unshaped⟩ | ⟨inside, after, rfl, drops, word, shaped, next⟩
      · refine Or.inl ⟨_, keeps, by simp [Stripped.push], rfl, ?_, ?_⟩
        · intro ends dropped after here shaped
          obtain ⟨head, tail, rfl, picked⟩ := strips.begins shaped
          cases here
          exact unshaped ((endsInWord_iff (aligned picked)).mpr ends) _ _ rfl
            shaped
        · left
          rw [List.getLast?_concat]
          rfl
      · obtain ⟨head, tail, same, picked⟩ := strips.begins shaped
        cases same
        have ends := (endsInWord_iff (aligned picked)).mp word
        refine Or.inr ⟨_, _, [], drops, (List.append_nil _).symm, rfl, ?_, ?_⟩
        · rw [List.take_left, List.drop_left]
          exact ⟨rfl, ends, shaped, next⟩
        · rw [List.drop_left]
          exact Or.inr (strips.plain_of_wordByte next))
    [] text {} (Or.inl rfl)
  obtain ⟨out, count, written, changed, splice⟩ := made
  rw [List.reverse_nil, List.nil_append] at written
  rw [written]
  refine ⟨count, changed.trans ?_, splice⟩
  exact or_iff_right Bool.false_ne_true

/-- A part that begins at or within another, after a word, ends with it. -/
theorem Strips.ends_together
    (strips : Strips unicode shape picks step)
    {before lead dropped after dropped' after' : Text}
    (outer : shape (lead ++ dropped) after)
    (ends : EndsInWordChar unicode (before ++ lead))
    (nonempty : dropped ≠ []) (inner : shape dropped' after')
    (same : dropped ++ after = dropped' ++ after') :
    after = after' := by
  cases lead with
  | nil =>
      have reaches := strips.determined outer inner same
      rw [List.nil_append] at reaches
      rw [reaches] at same
      exact List.append_cancel_left same
  | cons head lead =>
      have word : EndsInWordChar unicode (head :: lead) := by
        obtain ⟨char, last, word⟩ := ends
        rw [List.getLast?_append_of_ne_nil _
          (List.cons_ne_nil head lead)] at last
        exact ⟨char, last, word⟩
      exact strips.nested outer word nonempty inner same

/-- Where each dropped part stands between words, so does every part. -/
theorem Strips.startsInWordChar
    (strips : Strips unicode shape picks step)
    {before items out : Text} {count : Nat}
    (splice : Splice (Kept unicode shape)
      (fun before dropped put after =>
        Dropped unicode shape before dropped put after ∧
          Between unicode shape before dropped put after)
      before items out count)
    {lead dropped after : Text} (here : items = lead ++ (dropped ++ after))
    (ends : EndsInWordChar unicode (before ++ lead))
    (shaped : shape dropped after)
    (next : startsWithWordByte unicode after = true) :
    StartsInWordChar unicode after := by
  induction splice generalizing lead with
  | nil before =>
      obtain ⟨head, tail, rfl, -⟩ := strips.begins shaped
      cases lead <;> cases here
  | @keep before rest out item count kept later induction =>
      cases lead with
      | nil =>
          rw [List.append_nil] at ends
          rw [kept ends dropped after here shaped] at next
          cases next
      | cons first lead =>
          cases here
          apply induction rfl
          rw [List.append_assoc]
          exact ends
  | @replace before gone put behind out count replaced later induction =>
      obtain ⟨⟨-, -, goneShaped, -⟩, -, -, -, starts⟩ := replaced
      rcases List.append_eq_append_iff.mp here with
        ⟨further, rfl, beyond⟩ | ⟨left, rfl, within⟩
      · apply induction beyond
        rw [List.append_assoc]
        exact ends
      · cases left with
        | nil =>
            rw [List.append_nil] at later induction
            refine @induction [] within.symm ?_
            rw [List.append_nil]
            exact ends
        | cons first left =>
            rw [← strips.ends_together goneShaped ends
              (List.cons_ne_nil first left) shaped within.symm]
            exact starts

theorem Strips.deletes
    (strips : Strips unicode shape picks step)
    {replaces : Text → Text → Text → Text → Prop}
    (shaped : ∀ {before dropped put after},
      replaces before dropped put after →
        put = [] ∧ shape dropped after)
    (follows : ∀ {before dropped put after},
      replaces before dropped put after →
        ∀ next ∈ after.head?, ¬ picks next = true) :
    Deletes (fun char => picks char = true) replaces where
  nothing replaced := (shaped replaced).1
  begins replaced := strips.begins (shaped replaced).2
  follows replaced := follows replaced

/--
The strip deletes nothing but parts between words exactly when the first byte
of what follows such a part tells whether it is a word character.
-/
theorem Strips.onlyBetweenWords_iff
    (strips : Strips unicode shape picks step) (text : Text) :
    OnlyBetweenWords unicode shape text (scan step 0 {} text).finish ↔
      WordByteIsWordChar unicode shape text := by
  obtain ⟨count, changed, splice⟩ := strips.splice text
  have dropping : Deletes (fun char => picks char = true)
      (Dropped unicode shape) := by
    apply strips.deletes
    · rintro before dropped put after ⟨nothing, -, shaped, -⟩
      exact ⟨nothing, shaped⟩
    · rintro before dropped put after ⟨-, -, -, word⟩ next first picked
      rw [strips.plain_of_wordByte word next first] at picked
      cases picked
  have deleting : Deletes (fun char => picks char = true)
      (Between unicode shape) := by
    apply strips.deletes
    · rintro before dropped put after ⟨nothing, -, shaped, -⟩
      exact ⟨nothing, shaped⟩
    · rintro before dropped put after ⟨-, -, -, char, starts, word⟩ next
        first picked
      rw [Option.mem_def.mp starts, Option.mem_some_iff] at first
      rw [first, (strips.solid picked).2] at word
      cases word
  constructor
  · intro only before dropped after here ends shaped next
    have both : Splice (Kept unicode shape)
        (fun before dropped put after =>
          Dropped unicode shape before dropped put after ∧
            Between unicode shape before dropped put after)
        [] text (scan step 0 {} text).out.reverse count := by
      rcases Nat.eq_zero_or_pos count with none | some
      · exact splice.of_none none
      · have result : (scan step 0 {} text).finish =
            Option.some (scan step 0 {} text).out.reverse := by
          rw [Stripped.finish, if_pos (changed.mpr some)]
        obtain ⟨_, -, claimed⟩ := only _ result
        refine splice.both dropping deleting ?_ claimed
        rintro before dropped put after dropped' put' after'
          ⟨-, -, shaped, -⟩ ⟨-, -, shaped', -⟩ same
        exact strips.determined shaped shaped' same
    exact strips.startsInWordChar both here ends shaped next
  · intro bytewise out result
    rw [Stripped.finish] at result
    split_ifs at result with some
    cases result
    refine ⟨count, changed.mp some, ?_⟩
    refine splice.imp rfl (fun _ _ _ _ _ => trivial) ?_
    rintro before dropped put after here ⟨nothing, ends, shaped, next⟩
    exact ⟨nothing, ends, shaped,
      bytewise before dropped after here.symm ends shaped next⟩

end Strips

end Deleted

/-- A text with nothing to pick comes out unchanged. -/
theorem finish_none
    {step : Stripped → Char → Text → Stripped × Nat} {picks : Char → Bool}
    (drops : Drops step picks) {text : Text}
    (nothing : ∀ char ∈ text, ¬ picks char = true) :
    (scan step 0 {} text).finish = none := by
  cases result : (scan step 0 {} text).finish with
  | none => rfl
  | some out =>
      have fewer := drops.countP_lt result
      rw [List.countP_eq_zero.mpr nothing] at fewer
      cases fewer

/-! ## Tags -/

/-- A tag: from `<` to the next `>`, in at most 25 bytes. -/
def IsTag (dropped _after : Text) : Prop :=
  ∃ inside, dropped = '<' :: (inside ++ ['>']) ∧ '>' ∉ inside ∧
    byteLen dropped ≤ 25

/-- What is found before the first `>` holds none. -/
theorem close_not_mem
    {rest inside after : Text}
    (found : findSplit ['>'] rest = some (inside, after)) :
    '>' ∉ inside := by
  induction rest generalizing inside with
  | nil => cases found
  | cons head tail induction =>
      rw [findSplit] at found
      split_ifs at found with closes
      · cases found
        exact List.not_mem_nil
      · obtain ⟨⟨front, back⟩, inner, same⟩ :=
          Option.map_eq_some_iff.mp found
        cases same
        rw [List.mem_cons, not_or]
        refine ⟨fun equal => closes ?_, induction inner⟩
        rw [← equal]
        rfl

theorem byteLen_tag (inside : Text) :
    byteLen ('<' :: (inside ++ ['>'])) = byteLen inside + 2 := by
  rw [byteLen_cons, byteLen_append, byteLen_cons, byteLen_nil]
  have opening : '<'.utf8Size = 1 := rfl
  have closing : '>'.utf8Size = 1 := rfl
  omega

/-- A text is split at its first `>` in one way. -/
theorem eq_of_close
    {left right left' right' : Text} (none : '>' ∉ left)
    (none' : '>' ∉ left')
    (same : left ++ '>' :: right = left' ++ '>' :: right') :
    left = left' ∧ right = right' := by
  have found := findSplit_single none right
  rw [same, findSplit_single none' right'] at found
  cases found
  exact ⟨rfl, rfl⟩

/-- The step keeps a character, or drops the tag that begins with it. -/
theorem tagStep_turn
    (unicode : UnicodeTables) (state : Stripped) (char : Char)
    (rest : Text) :
    (tagStep unicode state char rest = (state.push char, 0) ∧
      (endsInWord unicode state = true → ∀ dropped after,
        char :: rest = dropped ++ after → IsTag dropped after →
          startsWithWordByte unicode after = false)) ∨
    ∃ inside after, rest = inside ++ after ∧
      tagStep unicode state char rest =
        ({ state with changed := true }, inside.length) ∧
      endsInWord unicode state = true ∧ IsTag (char :: inside) after ∧
      startsWithWordByte unicode after = true := by
  rw [tagStep]
  split_ifs with opens
  · cases found : findSplit ['>'] rest with
    | none =>
        left
        refine ⟨rfl, ?_⟩
        rintro - dropped after here ⟨inside, rfl, none, -⟩
        rw [List.cons_append, List.cons.injEq, List.append_assoc] at here
        rw [here.2, List.singleton_append, findSplit_single none after]
          at found
        cases found
    | some parts =>
        obtain ⟨inside, behind⟩ := parts
        have spelled : rest = inside ++ '>' :: behind :=
          eq_of_findSplit found
        have none := close_not_mem found
        dsimp only
        split_ifs with drops
        · rw [Bool.and_eq_true, Bool.and_eq_true, decide_eq_true_eq]
            at drops
          right
          refine ⟨inside ++ ['>'], behind, ?_, ?_, drops.1.1,
            ⟨inside, ?_, none, ?_⟩, drops.1.2⟩
          · rw [spelled, List.append_assoc]
            rfl
          · rw [List.length_append]
            rfl
          · rw [beq_iff_eq.mp opens]
          · rw [beq_iff_eq.mp opens, byteLen_tag]
            omega
        · left
          refine ⟨rfl, ?_⟩
          rintro ends dropped after here ⟨other, rfl, otherNone, short⟩
          rw [List.cons_append, List.cons.injEq, List.append_assoc,
            List.singleton_append] at here
          obtain ⟨rfl, rfl⟩ :=
            eq_of_close otherNone none (here.2.symm.trans spelled)
          rw [byteLen_tag] at short
          rw [Bool.eq_false_iff]
          intro next
          apply drops
          rw [ends, next, Bool.true_and, Bool.true_and, decide_eq_true_eq]
          omega
  · left
    refine ⟨rfl, ?_⟩
    rintro - dropped after here ⟨inside, rfl, -⟩
    cases here
    exact absurd rfl opens

/-- A tag that begins within another ends where it does. -/
theorem IsTag.nested
    {lead dropped after dropped' after' : Text}
    (outer : IsTag (lead ++ dropped) after) (nonempty : dropped ≠ [])
    (inner : IsTag dropped' after')
    (same : dropped ++ after = dropped' ++ after') :
    after = after' := by
  obtain ⟨inside, whole, none, -⟩ := outer
  obtain ⟨inside', rfl, none', -⟩ := inner
  obtain ⟨front, last, rfl⟩ :=
    (List.eq_nil_or_concat' dropped).resolve_left nonempty
  rw [← List.append_assoc, ← List.cons_append] at whole
  obtain ⟨opened, closing⟩ := List.append_inj' whole rfl
  cases closing
  have frontNone : '>' ∉ front := by
    intro member
    have inner : '>' ∈ '<' :: inside := by
      rw [← opened]
      exact List.mem_append_right _ member
    rcases List.mem_cons.mp inner with equal | inner
    · cases equal
    · exact none inner
  have otherNone : '>' ∉ '<' :: inside' := by
    rw [List.mem_cons, not_or]
    exact ⟨by decide, none'⟩
  rw [← List.cons_append, List.append_assoc, List.append_assoc] at same
  exact (eq_of_close frontNone otherNone same).2

theorem tagStep_strips (unicode : UnicodeTables) :
    Strips unicode IsTag (· == '<') (tagStep unicode) where
  turn := tagStep_turn unicode
  begins := by
    rintro dropped after ⟨inside, rfl, -⟩
    exact ⟨'<', _, rfl, rfl⟩
  solid := by
    intro char picked
    rw [beq_iff_eq.mp picked]
    exact ⟨by decide, rfl⟩
  determined := by
    rintro dropped after dropped' after' ⟨inside, rfl, none, -⟩
      ⟨inside', rfl, none', -⟩ same
    rw [List.cons_append, List.cons_append, List.cons.injEq,
      List.append_assoc, List.append_assoc] at same
    rw [(eq_of_close none none' same.2).1]
  nested outer _ nonempty inner same := outer.nested nonempty inner same

/-- At a boundary the cursor jumps over the tag that the step drops. -/
theorem tagAt_boundary
    (unicode : UnicodeTables) (before : Text) (char : Char) (rest : Text)
    (state : Stripped) :
    (tagAt unicode (before ++ char :: rest) (byteLen before) state =
        some none ∧
      tagStep unicode state char rest = (state.push char, 0)) ∨
    ∃ span, tagAt unicode (before ++ char :: rest) (byteLen before) state =
        some (some (byteLen (before ++ char :: rest.take span))) ∧
      tagStep unicode state char rest =
        ({ state with changed := true }, span) := by
  rw [tagAt, tagStep]
  by_cases opens : char = '<'
  · subst opens
    rw [if_pos ((byteAt_eq_iff (by decide)).mpr rfl),
      if_pos (beq_self_eq_true '<'), strFrom_append]
    have searched : findSplit ['>'] ('<' :: rest) =
        (findSplit ['>'] rest).map fun parts =>
          ('<' :: parts.1, parts.2) := rfl
    rw [Option.bind_eq_bind, Option.bind_some, searched]
    cases found : findSplit ['>'] rest with
    | none => exact Or.inl ⟨rfl, rfl⟩
    | some parts =>
        obtain ⟨inside, after⟩ := parts
        have spelled : rest = inside ++ '>' :: after :=
          eq_of_findSplit found
        have opening : byteLen ('<' :: inside) = byteLen inside + 1 := by
          rw [byteLen_cons]
          exact Nat.add_comm _ _
        have whole : before ++ '<' :: rest =
            (before ++ '<' :: (inside ++ ['>'])) ++ after := by
          rw [spelled]
          simp
        have close : byteLen before + byteLen ('<' :: inside) + 1 =
            byteLen (before ++ '<' :: (inside ++ ['>'])) := by
          rw [byteLen_append, byteLen_tag, opening]
          omega
        have width : byteLen before + byteLen ('<' :: inside) -
            byteLen before = byteLen inside + 1 := by
          rw [opening]
          omega
        have taken : rest.take (inside.length + 1) = inside ++ ['>'] := by
          rw [spelled, ← List.singleton_append, ← List.append_assoc]
          exact List.take_left' (by simp)
        simp only [Option.map_some]
        rw [close, whole, wordByteAt_append, width]
        split_ifs with drops
        · right
          refine ⟨inside.length + 1, ?_, rfl⟩
          rw [taken]
        · exact Or.inl ⟨rfl, rfl⟩
  · rw [if_neg (mt (byteAt_eq_iff (by decide)).mp opens),
      if_neg (by simpa using opens)]
    exact Or.inl ⟨rfl, rfl⟩

/-- The strip of tags on byte positions is the one on characters. -/
theorem stripTags_eq (unicode : UnicodeTables) (text : Text) :
    stripTags unicode text = some (stripMidtokenTags unicode text) := by
  rw [stripTags, stripMidtokenTags]
  split_ifs with absent
  · rw [Bool.not_eq_true', List.contains_eq_mem, decide_eq_false_iff_not]
      at absent
    rw [finish_none (tagStep_drops unicode)]
    intro char member opens
    rw [beq_iff_eq.mp opens] at member
    exact absent member
  · have ran := @strip_eq (tagAt unicode text) (tagStep unicode) text
      (by
        rintro before char rest state rfl
        exact tagAt_boundary unicode before char rest state)
      (byteLen text) [] text {} rfl le_rfl
    rw [byteLen_nil] at ran
    rw [ran]
    rfl

/-! ## Control runs -/

/-- A run of control characters that nothing of the kind follows. -/
def IsRun (dropped after : Text) : Prop :=
  dropped ≠ [] ∧ (∀ char ∈ dropped, isCtrl char = true) ∧
    ∀ char ∈ after.head?, isCtrl char = false

theorem IsRun.takeWhile_eq
    {dropped after : Text} (run : IsRun dropped after) :
    (dropped ++ after).takeWhile isCtrl = dropped := by
  rw [List.takeWhile_append_of_pos run.2.1]
  cases after with
  | nil => exact List.append_nil _
  | cons first rest =>
      rw [List.takeWhile_cons_of_neg (by rw [run.2.2 first rfl]; decide),
        List.append_nil]

theorem isRun_span {char : Char} (rest : Text) (control : isCtrl char = true) :
    IsRun (char :: rest.takeWhile isCtrl) (rest.dropWhile isCtrl) := by
  refine ⟨List.cons_ne_nil _ _, ?_, ?_⟩
  · rw [List.forall_mem_cons]
    exact ⟨control, fun other member => List.mem_takeWhile_imp member⟩
  · intro first head
    have stops := List.head?_dropWhile_not isCtrl rest
    rw [Option.mem_def.mp head] at stops
    exact stops

/-- A control character is ASCII and of no word. -/
theorem isWordChar_of_isCtrl
    (unicode : UnicodeTables) {char : Char} (control : isCtrl char = true) :
    char.toNat < 0x80 ∧ isWordChar unicode char = false := by
  simp only [isCtrl, Bool.and_eq_true, decide_eq_true_eq] at control
  have below : char.toNat < 0x20 := control.1.1.1
  have ascii : isAscii char = true :=
    decide_eq_true (below.trans (by decide))
  have all : ∀ code < 0x20, ((Char.ofNat code).isAlphanum ||
      Char.ofNat code == '_') = false := by
    decide +kernel
  have plain := all char.toNat below
  rw [Char.ofNat_toNat] at plain
  refine ⟨below.trans (by decide), ?_⟩
  rw [isWordChar, UnicodeTables.isAlphanumeric, if_pos ascii]
  exact plain

theorem controlStep_strips (unicode : UnicodeTables) :
    Strips unicode IsRun isCtrl (controlStep unicode) where
  turn state char rest := by
    rw [controlStep]
    split_ifs with control drops
    · rw [Bool.and_eq_true] at drops
      right
      exact ⟨_, _, (List.takeWhile_append_dropWhile).symm, rfl, drops.1,
        isRun_span rest control, drops.2⟩
    · left
      refine ⟨rfl, ?_⟩
      intro ends dropped after here run
      have reaches := run.takeWhile_eq
      rw [← here, List.takeWhile_cons_of_pos control] at reaches
      rw [← reaches, List.cons_append, List.cons.injEq] at here
      have behind : rest.dropWhile isCtrl = after := by
        apply List.append_cancel_left
        rw [List.takeWhile_append_dropWhile]
        exact here.2
      rw [ends, Bool.true_and, behind] at drops
      exact Bool.eq_false_iff.mpr drops
    · left
      refine ⟨rfl, ?_⟩
      rintro - dropped after here ⟨nonempty, all, -⟩
      cases dropped with
      | nil => exact absurd rfl nonempty
      | cons head tail =>
          cases here
          exact absurd (all char List.mem_cons_self) control
  begins := by
    rintro dropped after ⟨nonempty, all, -⟩
    cases dropped with
    | nil => exact absurd rfl nonempty
    | cons head tail =>
        exact ⟨head, tail, rfl, all head List.mem_cons_self⟩
  solid := isWordChar_of_isCtrl unicode
  determined run run' same := by
    rw [← run.takeWhile_eq, same, run'.takeWhile_eq]
  nested := by
    rintro lead dropped after dropped' after' ⟨-, all, -⟩
      ⟨char, last, word⟩ - - -
    have control := all char
      (List.mem_append_left dropped (List.mem_of_getLast? last))
    rw [(isWordChar_of_isCtrl unicode control).2] at word
    cases word

theorem length_le_byteLen (text : Text) : text.length ≤ byteLen text := by
  induction text with
  | nil => exact le_rfl
  | cons char rest induction =>
      have positive := char.utf8Size_pos
      rw [List.length_cons, byteLen_cons]
      omega

theorem sameKind_controls : SameKind isCtrlByte isCtrl := by
  apply sameKind_of_table (by decide +kernel) (by decide +kernel)
  intro char high
  rw [isCtrl, decide_eq_false (by omega)]
  rfl

/-- At a boundary the cursor jumps over the run that the step drops. -/
theorem controlAt_boundary
    (unicode : UnicodeTables) (before : Text) (char : Char) (rest : Text)
    (state : Stripped) :
    (controlAt unicode (before ++ char :: rest) (byteLen before) state =
        some none ∧
      controlStep unicode state char rest = (state.push char, 0)) ∨
    ∃ span,
      controlAt unicode (before ++ char :: rest) (byteLen before) state =
        some (some (byteLen (before ++ char :: rest.take span))) ∧
      controlStep unicode state char rest =
        ({ state with changed := true }, span) := by
  rw [controlAt, controlStep, sameKind_controls.byteAt]
  by_cases control : isCtrl char = true
  · rw [if_pos control, if_pos control]
    have room : (char :: rest).length ≤
        byteLen (before ++ char :: rest) - byteLen before := by
      rw [byteLen_append, Nat.add_sub_cancel_left]
      exact length_le_byteLen _
    have whole : before ++ char :: rest =
        (before ++ char :: rest.takeWhile isCtrl) ++
          rest.dropWhile isCtrl := by
      rw [List.append_assoc, List.cons_append,
        List.takeWhile_append_dropWhile]
    have stop : advance (before ++ char :: rest) isCtrlByte
        (byteLen (before ++ char :: rest) - byteLen before)
        (byteLen before) =
          byteLen (before ++ char :: rest.takeWhile isCtrl) := by
      rw [advance_append sameKind_controls,
        List.take_of_length_le room, List.takeWhile_cons_of_pos control,
        byteLen_append]
    have word : wordByteAt unicode (before ++ char :: rest)
        (byteLen (before ++ char :: rest.takeWhile isCtrl)) =
          startsWithWordByte unicode (rest.dropWhile isCtrl) := by
      rw [whole, wordByteAt_append]
    dsimp only
    rw [stop, word]
    split_ifs with drops
    · right
      refine ⟨(rest.takeWhile isCtrl).length, ?_, rfl⟩
      rw [← List.prefix_iff_eq_take.mp (List.takeWhile_prefix isCtrl)]
    · exact Or.inl ⟨rfl, rfl⟩
  · rw [if_neg control, if_neg control]
    exact Or.inl ⟨rfl, rfl⟩

/-- The strip of runs on byte positions is the one on characters. -/
theorem stripControls_eq (unicode : UnicodeTables) (text : Text) :
    stripControls unicode text = some (stripMidtokenControls unicode text) := by
  rw [stripControls, stripMidtokenControls]
  split_ifs with absent
  · rw [finish_none (controlStep_drops unicode)]
    intro char member control
    rw [Bool.not_eq_true', List.any_eq_false] at absent
    have small := (isWordChar_of_isCtrl unicode control).1
    have held : UInt8.ofNat char.toNat ∈ asBytes text := by
      rw [asBytes, List.mem_flatMap]
      refine ⟨char, member, ?_⟩
      rw [utf8EncodeChar_ascii small]
      exact List.mem_singleton_self _
    apply absent _ held
    rw [sameKind_controls.ascii char small]
    exact control
  · have ran := @strip_eq (controlAt unicode text) (controlStep unicode) text
      (by
        rintro before char rest state rfl
        exact controlAt_boundary unicode before char rest state)
      (byteLen text) [] text {} rfl le_rfl
    rw [byteLen_nil] at ran
    rw [ran]
    rfl

/-! ## The two strips -/

section Strips

variable (unicode : UnicodeTables)

/--
Both strips return, and a text that they return is the one they got less one
or more disjoint tags, or runs of control characters, between word characters.
-/
structure StripsOnlyMidToken (text : Text) : Prop where
  tags : ∃ result, stripTags unicode text = some result ∧
    OnlyBetweenWords unicode IsTag text result
  controls : ∃ result, stripControls unicode text = some result ∧
    OnlyBetweenWords unicode IsRun text result

/--
Neither strip panics.  They delete only what stands between word characters
exactly when the first byte of what follows a tag or a run after a word
character tells whether it is a word character.
-/
theorem stripsOnlyMidToken_iff (text : Text) :
    StripsOnlyMidToken unicode text ↔
      WordByteIsWordChar unicode IsTag text ∧
        WordByteIsWordChar unicode IsRun text := by
  rw [← (tagStep_strips unicode).onlyBetweenWords_iff text,
    ← (controlStep_strips unicode).onlyBetweenWords_iff text]
  constructor
  · rintro ⟨⟨tagged, tags, onlyTags⟩, controlled, controls, onlyControls⟩
    rw [stripTags_eq] at tags
    rw [stripControls_eq] at controls
    cases tags
    cases controls
    exact ⟨onlyTags, onlyControls⟩
  · rintro ⟨onlyTags, onlyControls⟩
    exact ⟨⟨_, stripTags_eq unicode text, onlyTags⟩,
      _, stripControls_eq unicode text, onlyControls⟩

end Strips

/-- The tables of Latin-1, which agree with Unicode up to U+00FF. -/
def latin1 : UnicodeTables :=
  { UnicodeTables.asciiOnly with
    alphanumeric := fun char =>
      let scalar := char.toNat
      scalar == 0xAA || scalar == 0xB2 || scalar == 0xB3 || scalar == 0xB5 ||
        scalar == 0xB9 || scalar == 0xBA ||
        (0xBC ≤ scalar && scalar ≤ 0xBE) ||
        (0xC0 ≤ scalar && scalar ≤ 0xFF && scalar != 0xD7 &&
          scalar != 0xF7) }

/--
A tag between a letter and a no-break space is deleted: the first byte of the
space is 0xC2, which is a letter in Latin-1.
-/
theorem stripsOnlyMidToken_fails_space :
    stripTags latin1 "a<x>\u00A0".toList =
        some (some "a\u00A0".toList) ∧
      ¬ StripsOnlyMidToken latin1 "a<x>\u00A0".toList := by
  refine ⟨by decide +kernel, ?_⟩
  rintro ⟨⟨result, returned, only⟩, -⟩
  rw [stripTags_eq] at returned
  cases returned
  have follows := ((tagStep_strips latin1).onlyBetweenWords_iff _).mp only
    ['a'] ['<', 'x', '>'] ['\u00A0'] rfl ⟨'a', rfl, rfl⟩
    ⟨['x'], rfl, by decide, by decide⟩ (by decide)
  obtain ⟨char, first, word⟩ := follows
  cases first
  exact absurd word (by decide)

end LightWaf.Detection.MidToken
