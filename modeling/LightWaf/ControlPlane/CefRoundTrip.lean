import LightWaf.ControlPlane.SiemEvents
import LightWaf.Theory.Escaping
import Mathlib.Data.List.DropRight

/-!
# Reading CEF back

A reader of CEF lines that follows the format alone recovers from every line
of a batch the header and the fields that were put into it: no text of an
event can end a line, add a field or change another one.
-/

namespace LightWaf.ControlPlane.Siem

open LightWaf.Rust
open LightWaf.Governance
open LightWaf.Theory.Escaping

/-! ## The reader -/

/-- The fields of a line. -/
structure CefRecord where
  vendor : Text
  product : Text
  version : Text
  signature : Text
  name : Text
  severity : Text
  extension : List (Text × Text)
deriving DecidableEq

/-- What stands behind the last space. -/
def afterLastSpace (piece : Text) : Text :=
  piece.rtakeWhile (· ≠ ' ')

/-- What stands before the last space. -/
def beforeLastSpace (piece : Text) : Text :=
  (piece.rdropWhile (· ≠ ' ')).dropLast

/-- An escaped character of an extension value. -/
def valueMeaning (letter : Char) : Char :=
  if letter = 'n' then '\n' else if letter = 'r' then '\r' else letter

/-- A header field without its escapes. -/
def readHeader (piece : Text) : Text :=
  unescape '\\' id piece

/-- An extension value without its escapes. -/
def readValue (piece : Text) : Text :=
  unescape '\\' valueMeaning piece

/--
The fields between the unescaped `=`: the text up to the last space is the
value of the key before, the rest is the next key.
-/
def readFields : (key : Text) → List Text → List (Text × Text)
  | _, [] => []
  | key, [piece] => [(key, readValue piece)]
  | key, piece :: next :: rest =>
      (key, readValue (beforeLastSpace piece)) ::
        readFields (afterLastSpace piece) (next :: rest)

/-- The fields of an extension. -/
def readExtension (extension : Text) : List (Text × Text) :=
  match splitUnescaped '\\' '=' extension.length false extension with
  | [] => []
  | first :: pieces => readFields (afterLastSpace first) pieces

/-- A line, split at the first seven unescaped `|`. -/
def readCef (line : Text) : Option CefRecord :=
  match splitUnescaped '\\' '|' 7 false line with
  | [cef, vendor, product, version, signature, name, severity, extension] =>
      if cef = "CEF:0".toList then
        some
          { vendor := readHeader vendor
            product := readHeader product
            version := readHeader version
            signature := readHeader signature
            name := readHeader name
            severity := readHeader severity
            extension := readExtension extension }
      else none
  | _ => none

/-- The lines of a batch; each is ended by a line feed. -/
def batchLines (batch : Bytes) : List Bytes :=
  (batch.splitOn 10).dropLast

/-- All lines of a batch. -/
def readBatch (batch : Bytes) : Option (List CefRecord) :=
  (batchLines batch).mapM fun line => (fromUtf8 line).bind readCef

/-! ## What a reader is to see -/

/-- Control characters are shown as spaces. -/
def shownHeader (char : Char) : Char :=
  if isControl char then ' ' else char

/-- Line feeds and carriage returns are kept in values. -/
def shownValue (char : Char) : Char :=
  if char = '\n' ∨ char = '\r' then char else shownHeader char

/-- A field as a reader is to see it. -/
def Put.field (put : Put) : Text × Text :=
  (put.key.toList, (cefClip put.value put.max).map shownValue)

/-- The record of an event. -/
def recordOf (rfc : Rfc3339) (ev : SiemEvent) : CefRecord where
  vendor := ev.observer.vendor.toList.map shownHeader
  product := ev.observer.product.toList.map shownHeader
  version := ev.observer.version.toList.map shownHeader
  signature := (cefClip (cefSignature ev) 1023).map shownHeader
  name := (cefName ev).toList
  severity := decimal (cefSeverity ev)
  extension := (puts rfc ev).map Put.field

/-- What the control plane exports. -/
inductive Stored
  | decision (id : Int) (ev : DecisionEvent OffsetDateTime)
  | audit (rec : AuditRecord)
  | alert (id : Int) (fired : Alert)

/-- The event of a stored row. -/
def Stored.toSiem (rfc : Rfc3339) : Stored → SiemEvent
  | .decision id ev => decisionToSiem rfc id ev
  | .audit rec => auditToSiem rfc rec
  | .alert id fired => alertToSiem rfc id fired

/-! ## Escapes -/

/-- The escapes of a header field. -/
def headerCode : Code '\\' '|' where
  write := cefHeaderChar
  meaning := id
  shown := shownHeader
  spec := by
    intro char
    by_cases backslash : char = '\\'
    · subst backslash
      exact .inr ⟨'\\', rfl, rfl⟩
    by_cases bar : char = '|'
    · subst bar
      exact .inr ⟨'|', rfl, rfl⟩
    rw [cefHeaderChar, if_neg backslash, if_neg bar, shownHeader]
    split_ifs
    · exact .inl ⟨rfl, by decide, by decide⟩
    · exact .inl ⟨rfl, backslash, bar⟩

/-- The escapes of an extension value. -/
def valueCode : Code '\\' '=' where
  write := cefValueChar
  meaning := valueMeaning
  shown := shownValue
  spec := by
    intro char
    by_cases backslash : char = '\\'
    · subst backslash
      exact .inr ⟨'\\', rfl, rfl⟩
    by_cases equals : char = '='
    · subst equals
      exact .inr ⟨'=', rfl, rfl⟩
    by_cases feed : char = '\n'
    · subst feed
      exact .inr ⟨'n', rfl, rfl⟩
    by_cases carriage : char = '\r'
    · subst carriage
      exact .inr ⟨'r', rfl, rfl⟩
    have other : ¬ (char = '\n' ∨ char = '\r') := not_or.mpr ⟨feed, carriage⟩
    rw [cefValueChar, if_neg backslash, if_neg equals, if_neg feed,
      if_neg carriage, shownValue, if_neg other, shownHeader]
    split_ifs
    · exact .inl ⟨rfl, by decide, by decide⟩
    · exact .inl ⟨rfl, backslash, equals⟩

theorem readHeader_cefHeader (value : Text) :
    readHeader (cefHeader value) = value.map shownHeader :=
  headerCode.unescape_write value

theorem readValue_cefValue (value : Text) :
    readValue (cefValue value) = value.map shownValue :=
  valueCode.unescape_write value

/-! ## The extension -/

theorem afterLastSpace_append
    (before : Text) {key : Text} (unspaced : ' ' ∉ key) :
    afterLastSpace (before ++ ' ' :: key) = key := by
  have letters : ∀ char ∈ key.reverse, decide (char ≠ ' ') = true := by
    intro char member
    refine decide_eq_true fun space => unspaced ?_
    rw [← space]
    exact List.mem_reverse.mp member
  rw [afterLastSpace, List.rtakeWhile, List.reverse_append,
    List.reverse_cons, List.append_assoc,
    List.takeWhile_append_of_pos letters]
  simp

theorem beforeLastSpace_append
    (before : Text) {key : Text} (unspaced : ' ' ∉ key) :
    beforeLastSpace (before ++ ' ' :: key) = before := by
  have letters : ∀ char ∈ key.reverse, decide (char ≠ ' ') = true := by
    intro char member
    refine decide_eq_true fun space => unspaced ?_
    rw [← space]
    exact List.mem_reverse.mp member
  rw [beforeLastSpace, List.rdropWhile, List.reverse_append,
    List.reverse_cons, List.append_assoc,
    List.dropWhile_append_of_pos letters]
  simp

/-- A key without characters that have a meaning. -/
def PlainKey (key : String) : Prop :=
  ∀ char ∈ key.toList, char ≠ '\\' ∧ char ≠ '=' ∧ char ≠ ' ' ∧ char ≠ '\n'

instance (key : String) : Decidable (PlainKey key) :=
  inferInstanceAs (Decidable (∀ char ∈ key.toList, _))

/-- The value of a put as it is written. -/
def Put.written (put : Put) : Text :=
  cefValue (cefClip put.value put.max)

/-- The pieces from the value of a put on. -/
def pieces : Put → List Put → List Text
  | put, [] => [put.written]
  | put, next :: rest =>
      (put.written ++ ' ' :: next.key.toList) :: pieces next rest

/-- The text from the value of a put on. -/
def tailText : Put → List Put → Text
  | put, [] => put.written
  | put, next :: rest =>
      put.written ++ ' ' :: (next.key.toList ++ '=' :: tailText next rest)

theorem intercalate_puts (put : Put) (rest : List Put) :
    [' '].intercalate ((put :: rest).map Put.text) =
      put.key.toList ++ '=' :: tailText put rest := by
  induction rest generalizing put with
  | nil => simp [Put.text, tailText, Put.written]
  | cons next rest induction =>
      rw [List.map_cons, List.map_cons, List.intercalate_cons_cons,
        ← List.map_cons, induction]
      simp [Put.text, tailText, Put.written]

theorem length_le_tailText (put : Put) (rest : List Put) :
    rest.length ≤ (tailText put rest).length := by
  induction rest generalizing put with
  | nil => exact Nat.zero_le _
  | cons next rest induction =>
      have shorter := induction next
      simp only [tailText, List.length_append, List.length_cons]
      omega

/-- The extension is split between the fields. -/
theorem split_tailText
    (put : Put) {rest : List Put} (plain : ∀ next ∈ rest, PlainKey next.key)
    {limit : Nat} (enough : rest.length ≤ limit) :
    splitUnescaped '\\' '=' limit false (tailText put rest) =
      pieces put rest := by
  induction rest generalizing put limit with
  | nil => exact (valueCode.closed _).split_eq (by decide) limit
  | cons next rest induction =>
      rw [List.forall_mem_cons] at plain
      obtain ⟨limit, rfl⟩ := Nat.exists_eq_add_of_lt enough
      have keyed : Sealed '\\' '=' (' ' :: next.key.toList) :=
        .plain (by decide) (by decide) (sealed_of_plain fun char member =>
          ⟨(plain.1 char member).1, (plain.1 char member).2.1⟩)
      have closed : Sealed '\\' '='
          (put.written ++ ' ' :: next.key.toList) :=
        (valueCode.closed _).append keyed
      have text : tailText put (next :: rest) =
          (put.written ++ ' ' :: next.key.toList) ++
            '=' :: tailText next rest := by
        simp [tailText]
      rw [text, closed.split_separator (by decide),
        induction next plain.2 (Nat.le_add_right _ _)]
      rfl

/-- The fields are read from the pieces. -/
theorem readFields_pieces
    (put : Put) {rest : List Put}
    (plain : ∀ next ∈ rest, PlainKey next.key) :
    readFields put.key.toList (pieces put rest) =
      (put :: rest).map Put.field := by
  induction rest generalizing put with
  | nil => simp [pieces, readFields, Put.field, Put.written,
      readValue_cefValue]
  | cons next rest induction =>
      rw [List.forall_mem_cons] at plain
      have unspaced : ' ' ∉ next.key.toList := fun member =>
        (plain.1 ' ' member).2.2.1 rfl
      have behind := induction next plain.2
      cases shape : pieces next rest with
      | nil => cases rest <;> cases shape
      | cons first others =>
          rw [shape] at behind
          rw [pieces, shape, readFields, beforeLastSpace_append _ unspaced,
            afterLastSpace_append _ unspaced, behind, Put.written,
            readValue_cefValue]
          rfl

/-- The extension is read as the fields that were put into it. -/
theorem readExtension_puts
    (put : Put) {rest : List Put}
    (plain : ∀ next ∈ put :: rest, PlainKey next.key) :
    readExtension ([' '].intercalate ((put :: rest).map Put.text)) =
      (put :: rest).map Put.field := by
  rw [List.forall_mem_cons] at plain
  have closed : Sealed '\\' '=' put.key.toList :=
    sealed_of_plain fun char member =>
      ⟨(plain.1 char member).1, (plain.1 char member).2.1⟩
  have unspaced : ∀ char ∈ put.key.toList, decide (char ≠ ' ') = true :=
    fun char member => decide_eq_true (plain.1 char member).2.2.1
  have long := length_le_tailText put rest
  rw [intercalate_puts, readExtension]
  have length : (put.key.toList ++ '=' :: tailText put rest).length =
      (put.key.toList.length + (tailText put rest).length) + 1 := by
    rw [List.length_append, List.length_cons]
    rfl
  rw [length, closed.split_separator (by decide),
    split_tailText put plain.2 (by omega)]
  dsimp only
  rw [afterLastSpace, List.rtakeWhile_eq_self_iff.mpr unspaced,
    readFields_pieces put plain.2]

/-! ## The keys -/

theorem keys_putSome
    (key : String) (max : Nat) (value : Option Text)
    {later keys : List String} (behind : later.Sublist keys) :
    ((putSome key max value).map Put.key ++ later).Sublist
      (key :: keys) := by
  cases value with
  | none => exact behind.cons key
  | some value => exact behind.cons_cons key

/-- The puts that depend on the kind of an event. -/
def domainPuts (waf : Waf) : List Put :=
  scorePuts waf.score ++ contributionPuts waf.contributions ++
    alertPuts waf.alert ++ auditPuts waf.audit

/-- The keys that every kind of event may have. -/
def commonKeys : List String :=
  ["externalId", "rt", "act", "cat", "outcome", "src", "requestMethod",
    "request", "suser", "msg", "dvchost"]

section Events

variable (rfc : Rfc3339)

/-- The keys of an event are some of the common ones, and those of its kind. -/
theorem keys_puts
    (ev : SiemEvent) {keys : List String}
    (domain : ((domainPuts ev.waf).map Put.key).Sublist keys) :
    ((puts rfc ev).map Put.key).Sublist (commonKeys ++ keys) := by
  have shape : puts rfc ev = ⟨"externalId", ev.event.id, 40⟩ ::
      (putSome "rt" 1023 (cefMillis rfc ev) ++
      ([⟨"act", ev.event.action, 63⟩,
        ⟨"cat", [','].intercalate (ev.event.category.map String.toList),
          1023⟩] ++
      (putSome "outcome" 63 (ev.event.outcome.map String.toList) ++
      (putSome "src" 1023 ev.source ++
      (putSome "requestMethod" 1023 ev.http ++
      (putSome "request" 1023 ev.url ++
      (putSome "suser" 1023 ev.user ++
      (putSome "msg" 1023 ev.message ++
      (putSome "dvchost" 100 ev.waf.node ++ domainPuts ev.waf))))))))) := by
    simp only [puts, domainPuts, List.append_assoc]
  rw [shape]
  simp only [List.map_cons, List.map_append]
  refine .cons_cons _ (keys_putSome "rt" 1023 _ ?_)
  refine .cons_cons _ (.cons_cons _ (keys_putSome "outcome" 63 _ ?_))
  refine keys_putSome "src" 1023 _ (keys_putSome "requestMethod" 1023 _ ?_)
  refine keys_putSome "request" 1023 _ (keys_putSome "suser" 1023 _ ?_)
  exact keys_putSome "msg" 1023 _ (keys_putSome "dvchost" 100 _ domain)

/-- The keys of the three kinds of events. -/
theorem keys_domainPuts (stored : Stored) :
    ((domainPuts (stored.toSiem rfc).waf).map Put.key).Sublist
        ["cn1", "cn1Label", "cs1", "cs1Label"] ∨
      ((domainPuts (stored.toSiem rfc).waf).map Put.key).Sublist
        ["cn1", "cn1Label", "cs1", "cs1Label", "cs2", "cs2Label", "cs3",
          "cs3Label"] ∨
      ((domainPuts (stored.toSiem rfc).waf).map Put.key).Sublist
        ["cn1", "cn1Label", "cn2", "cn2Label", "cs1", "cs1Label"] := by
  cases stored with
  | decision id ev =>
      left
      rw [Stored.toSiem, decisionToSiem, domainPuts, contributionPuts]
      split_ifs
      · exact List.sublist_append_left ["cn1", "cn1Label"] _
      · exact List.Sublist.refl _
  | audit record =>
      right
      left
      exact List.Sublist.refl _
  | alert id fired =>
      right
      right
      rw [Stored.toSiem, alertToSiem, domainPuts, alertPuts]
      dsimp only
      split_ifs
      · exact List.sublist_append_left
          ["cn1", "cn1Label", "cn2", "cn2Label"] _
      · exact List.Sublist.refl _

/-- All keys, in an order of their own for each kind of event. -/
theorem keys_toSiem (stored : Stored) :
    ((puts rfc (stored.toSiem rfc)).map Put.key).Nodup ∧
      ∀ put ∈ puts rfc (stored.toSiem rfc), PlainKey put.key := by
  have keyed : ∀ keys : List String, (commonKeys ++ keys).Nodup →
      (∀ key ∈ commonKeys ++ keys, PlainKey key) →
      ((domainPuts (stored.toSiem rfc).waf).map Put.key).Sublist keys →
      ((puts rfc (stored.toSiem rfc)).map Put.key).Nodup ∧
        ∀ put ∈ puts rfc (stored.toSiem rfc), PlainKey put.key := by
    intro keys nodup plain domain
    have sublist := keys_puts rfc (stored.toSiem rfc) domain
    refine ⟨nodup.sublist sublist, fun put member => ?_⟩
    exact plain put.key (sublist.subset (List.mem_map_of_mem member))
  rcases keys_domainPuts rfc stored with domain | domain | domain
  · exact keyed _ (by decide) (by decide) domain
  · exact keyed _ (by decide) (by decide) domain
  · exact keyed _ (by decide) (by decide) domain

/-! ## Lines -/

theorem plain_cefName (ev : SiemEvent) :
    ∀ char ∈ (cefName ev).toList, char ≠ '\\' ∧ char ≠ '|' ∧ char ≠ '\n' := by
  rw [cefName]
  split_ifs <;> decide

theorem plain_decimal (value : Nat) :
    ∀ char ∈ decimal value, char ≠ '\\' ∧ char ≠ '|' ∧ char ≠ '\n' := by
  intro char member
  have printed : decimal value = Nat.toDigits 10 value := Nat.toList_repr
  rw [printed] at member
  have digit : char.isDigit := Nat.isDigit_of_mem_toDigits (by decide)
    (by decide) member
  refine ⟨?_, ?_, ?_⟩
  · rintro rfl
    cases digit
  · rintro rfl
    cases digit
  · rintro rfl
    cases digit

/-- A line is read as the record of its event. -/
theorem readCef_cefLine (stored : Stored) :
    readCef (cefLine rfc (stored.toSiem rfc)) =
      some (recordOf rfc (stored.toSiem rfc)) := by
  have plain := (keys_toSiem rfc stored).2
  generalize stored.toSiem rfc = ev at plain
  have header : ∀ value, Sealed '\\' '|' (cefHeader value) :=
    headerCode.closed
  have name : Sealed '\\' '|' (cefName ev).toList :=
    sealed_of_plain fun char member =>
      ⟨(plain_cefName ev char member).1, (plain_cefName ev char member).2.1⟩
  have severity : Sealed '\\' '|' (decimal (cefSeverity ev)) :=
    sealed_of_plain fun char member =>
      ⟨(plain_decimal _ char member).1, (plain_decimal _ char member).2.1⟩
  have cef : Sealed '\\' '|' "CEF:0".toList := sealed_of_plain (by decide)
  have distinct : '\\' ≠ '|' := by decide
  rw [readCef, cefLine, cef.split_separator distinct,
    (header _).split_separator distinct, (header _).split_separator distinct,
    (header _).split_separator distinct, (header _).split_separator distinct,
    name.split_separator distinct, severity.split_separator distinct,
    splitUnescaped_zero]
  dsimp only
  have nameRead : readHeader (cefName ev).toList = (cefName ev).toList :=
    unescape_of_plain (fun char member =>
      (plain_cefName ev char member).1) id
  have severityRead : readHeader (decimal (cefSeverity ev)) =
      decimal (cefSeverity ev) :=
    unescape_of_plain (fun char member => (plain_decimal _ char member).1) id
  have extensionRead : readExtension
      ([' '].intercalate ((puts rfc ev).map Put.text)) =
        (puts rfc ev).map Put.field :=
    readExtension_puts _ plain
  rw [if_pos rfl, readHeader_cefHeader, readHeader_cefHeader,
    readHeader_cefHeader, readHeader_cefHeader, nameRead, severityRead,
    extensionRead]
  rfl

theorem feed_not_mem_cefHeader (value : Text) : '\n' ∉ cefHeader value := by
  intro member
  obtain ⟨char, -, member⟩ := List.mem_flatMap.mp member
  rw [cefHeaderChar] at member
  split_ifs at member with backslash bar control
  · exact absurd member (by decide)
  · exact absurd member (by decide)
  · exact absurd member (by decide)
  · rw [← List.mem_singleton.mp member] at control
    exact control (by decide)

theorem feed_not_mem_cefValue (value : Text) : '\n' ∉ cefValue value := by
  intro member
  obtain ⟨char, -, member⟩ := List.mem_flatMap.mp member
  rw [cefValueChar] at member
  split_ifs at member with backslash equals feed carriage control
  · exact absurd member (by decide)
  · exact absurd member (by decide)
  · exact absurd member (by decide)
  · exact absurd member (by decide)
  · exact absurd member (by decide)
  · exact feed (List.mem_singleton.mp member).symm

/-- The extension has no line feed. -/
theorem feed_not_mem_tailText
    (put : Put) {rest : List Put}
    (plain : ∀ next ∈ rest, PlainKey next.key) :
    '\n' ∉ tailText put rest := by
  induction rest generalizing put with
  | nil => exact feed_not_mem_cefValue _
  | cons next rest induction =>
      rw [List.forall_mem_cons] at plain
      have keyed : '\n' ∉ next.key.toList := fun member =>
        (plain.1 '\n' member).2.2.2 rfl
      simp only [tailText, List.mem_append, List.mem_cons, not_or]
      exact ⟨feed_not_mem_cefValue _, by decide, keyed, by decide,
        induction next plain.2⟩

/-- A line has no line feed. -/
theorem feed_not_mem_cefLine (stored : Stored) :
    '\n' ∉ cefLine rfc (stored.toSiem rfc) := by
  have plain := (keys_toSiem rfc stored).2
  generalize stored.toSiem rfc = ev at plain
  have name : '\n' ∉ (cefName ev).toList := fun member =>
    (plain_cefName ev '\n' member).2.2 rfl
  have severity : '\n' ∉ decimal (cefSeverity ev) := fun member =>
    (plain_decimal _ '\n' member).2.2 rfl
  have extension : '\n' ∉
      [' '].intercalate ((puts rfc ev).map Put.text) := by
    rw [puts, List.forall_mem_cons] at plain
    rw [puts, intercalate_puts]
    simp only [List.mem_append, List.mem_cons, not_or]
    refine ⟨fun member => (plain.1 '\n' member).2.2.2 rfl, by decide, ?_⟩
    exact feed_not_mem_tailText _ plain.2
  simp only [cefLine, List.mem_append, List.mem_cons, not_or]
  exact ⟨by decide, by decide, feed_not_mem_cefHeader _, by decide,
    feed_not_mem_cefHeader _, by decide, feed_not_mem_cefHeader _,
    by decide, feed_not_mem_cefHeader _, by decide, name, by decide,
    severity, by decide, extension⟩

/-! ## Batches -/

theorem feed_not_mem_asBytes
    {text : Text} (unfed : '\n' ∉ text) : (10 : UInt8) ∉ asBytes text := by
  intro member
  obtain ⟨char, inside, member⟩ := List.mem_flatMap.mp member
  have differs : char ≠ '\n' := by
    rintro rfl
    exact unfed inside
  exact not_mem_utf8EncodeChar differs (by decide) member

/-- Each event of a batch is one line. -/
theorem batchLines_formatBatch (stored : List Stored) :
    batchLines (formatBatch rfc (stored.map (Stored.toSiem rfc))) =
      stored.map fun row => asBytes (cefLine rfc (row.toSiem rfc)) := by
  have split : (formatBatch rfc (stored.map (Stored.toSiem rfc))).splitOn 10 =
      stored.map (fun row => asBytes (cefLine rfc (row.toSiem rfc))) ++
        [[]] := by
    induction stored with
    | nil => rfl
    | cons row stored induction =>
        have unfed := feed_not_mem_asBytes (feed_not_mem_cefLine rfc row)
        rw [List.map_cons, formatBatch, List.flatMap_cons,
          List.append_assoc, List.singleton_append,
          List.splitOn_append_cons_self_of_not_mem unfed, ← formatBatch,
          induction, List.map_cons, List.cons_append]
  rw [batchLines, split, List.dropLast_concat]

/--
A batch has one line for each event, and a reader recovers from each line the
header and the fields of the event, whose keys are distinct.
-/
theorem readBatch_formatBatch (stored : List Stored) :
    (batchLines (formatBatch rfc
        (stored.map (Stored.toSiem rfc)))).length = stored.length ∧
      readBatch (formatBatch rfc (stored.map (Stored.toSiem rfc))) =
        some (stored.map fun row => recordOf rfc (row.toSiem rfc)) ∧
      ∀ row ∈ stored,
        ((recordOf rfc (row.toSiem rfc)).extension.map Prod.fst).Nodup := by
  refine ⟨?_, ?_, ?_⟩
  · rw [batchLines_formatBatch, List.length_map]
  · rw [readBatch, batchLines_formatBatch]
    induction stored with
    | nil => rfl
    | cons row stored induction =>
        have first : (fromUtf8 (asBytes (cefLine rfc (row.toSiem rfc)))).bind
            readCef = some (recordOf rfc (row.toSiem rfc)) := by
          rw [fromUtf8_asBytes]
          exact readCef_cefLine rfc row
        rw [List.map_cons, List.mapM_cons, first, induction]
        rfl
  · intro row _
    have nodup := (keys_toSiem rfc row).1
    have keys : (recordOf rfc (row.toSiem rfc)).extension.map Prod.fst =
        ((puts rfc (row.toSiem rfc)).map Put.key).map String.toList := by
      rw [recordOf, List.map_map, List.map_map]
      rfl
    rw [keys]
    exact nodup.map fun first second => String.toList_inj.mp

end Events

end LightWaf.ControlPlane.Siem
