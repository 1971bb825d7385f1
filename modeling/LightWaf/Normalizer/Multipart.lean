import LightWaf.Normalizer.Body
import LightWaf.Rust.Search

/-!
# The multipart round trip

An encoder for `multipart/form-data` and what the parser makes of its output.
The parser finds every delimiter where the encoder put it, because a delimiter
has its only carriage return in front.  Names and file names come back unless
they hold a semicolon: the content disposition is split at semicolons without
regard to quotes.
-/

namespace LightWaf.Normalizer

open LightWaf.Rust
open LightWaf.Core

/-! ## The encoder -/

/-- A boundary parameter. -/
structure Boundary where
  text : Text
  clean : ∀ char ∈ ['\r', '\n', '\x22', ';'], char ∉ text

/-- A text that can stand between quotes in a header. -/
def Quotable (text : Text) : Prop :=
  ∀ char ∈ ['\r', '\n', '\x22'], char ∉ text

/-- One part of a form. -/
structure FormPart where
  name : Text
  filename : Option Text
  data : Bytes
  named : name ≠ []
  nameQuotable : Quotable name
  filenameQuotable : ∀ file ∈ filename, Quotable file

namespace Boundary

variable (boundary : Boundary)

/-- Two dashes and the boundary. -/
def delimiter : Bytes :=
  asBytes ('-' :: '-' :: boundary.text)

/-- The delimiter on a line of its own. -/
def interBoundary : Bytes :=
  13 :: 10 :: boundary.delimiter

/-- The media types that declare the boundary: quoted, or as a token. -/
def Declared (contentType : Text) : Prop :=
  contentType = "multipart/form-data; boundary=\x22".toList ++
      boundary.text ++ ['\x22'] ∨
    contentType = "multipart/form-data; boundary=".toList ++
      boundary.text ∧ ∀ char ∈ boundary.text, isWhitespace char = false

end Boundary

namespace FormPart

/-- A quoted parameter. -/
def quoted (key value : Text) : Text :=
  key ++ '=' :: '\x22' :: (value ++ ['\x22'])

/-- The parameters of the content disposition. -/
def parameters (part : FormPart) : List Text :=
  "form-data".toList :: (' ' :: quoted "name".toList part.name) ::
    (part.filename.map fun file =>
      ' ' :: quoted "filename".toList file).toList

/-- The value of the content disposition. -/
def disposition (part : FormPart) : Text :=
  [';'].intercalate part.parameters

/-- The header line. -/
def header (part : FormPart) : Text :=
  "Content-Disposition".toList ++ ':' :: ' ' :: part.disposition

/-- What follows a delimiter: the header, a blank line, the data. -/
def encode (boundary : Boundary) (part : FormPart) : Bytes :=
  13 :: 10 :: (asBytes part.header ++ 13 :: 10 :: 13 :: 10 ::
    (part.data ++ boundary.interBoundary))

/-- The field that the part stands for. -/
def field (part : FormPart) : MultipartField :=
  ⟨part.name, part.filename, none, part.data⟩

end FormPart

/-- A whole body; the epilogue after the closing delimiter is free. -/
def encodeMultipart
    (boundary : Boundary) (parts : List FormPart) (epilogue : Bytes) :
    Bytes :=
  boundary.delimiter ++
    (parts.flatMap (FormPart.encode boundary) ++ 45 :: 45 :: epilogue)

/-! ## Header lines -/

/-- The byte of an absent ASCII character is absent. -/
theorem not_mem_asBytes
    {text : Text} {char : Char} (absent : char ∉ text)
    (ascii : char.toNat < 0x80) :
    UInt8.ofNat char.toNat ∉ asBytes text := by
  intro member
  obtain ⟨other, inside, encoded⟩ := List.mem_flatMap.mp member
  refine not_mem_utf8EncodeChar ?_ ascii encoded
  rintro rfl
  exact absent inside

namespace FormPart

variable (part : FormPart)

theorem disposition_eq :
    part.disposition = "form-data; name=\x22".toList ++ (part.name ++
      '\x22' :: part.filename.elim [] fun file =>
        "; filename=\x22".toList ++ (file ++ ['\x22'])) := by
  obtain ⟨name, filename, data, _, _, _⟩ := part
  cases filename <;>
    simp [disposition, parameters, quoted, List.intercalate]

theorem return_not_mem_disposition : '\r' ∉ part.disposition := by
  have nameClean := part.nameQuotable '\r' (by simp)
  rw [disposition_eq]
  cases file : part.filename with
  | none =>
      simp only [List.mem_append, List.mem_cons, Option.elim_none]
      rintro (lead | inside | quote | nothing)
      · exact absurd lead (by decide)
      · exact nameClean inside
      · exact absurd quote (by decide)
      · cases nothing
  | some file' =>
      have fileClean := part.filenameQuotable file' (by simp [file]) '\r'
        (by simp)
      simp only [List.mem_append, List.mem_cons, Option.elim_some]
      rintro (lead | inside | quote | lead | inside | quote | nothing)
      · exact absurd lead (by decide)
      · exact nameClean inside
      · exact absurd quote (by decide)
      · exact absurd lead (by decide)
      · exact fileClean inside
      · exact absurd quote (by decide)
      · cases nothing

/-- The value ends in a quote. -/
theorem disposition_ends :
    ∃ middle, part.disposition = 'f' :: (middle ++ ['\x22']) := by
  rw [disposition_eq]
  cases part.filename with
  | none => exact ⟨"orm-data; name=\x22".toList ++ part.name, by simp⟩
  | some file =>
      exact ⟨"orm-data; name=\x22".toList ++ (part.name ++
        "\x22; filename=\x22".toList ++ file), by simp⟩

/-- Blanks around a text with visible ends are trimmed. -/
theorem trim_blank_disposition :
    trim (' ' :: part.disposition) = part.disposition := by
  obtain ⟨middle, ends⟩ := part.disposition_ends
  have shape : trim (' ' :: part.disposition) = trim part.disposition := rfl
  rw [shape, ends]
  apply trim_eq_self
  · intro char first
    cases first
    rfl
  · intro char last
    rw [← List.cons_append, List.getLast?_concat] at last
    cases last
    rfl

theorem asBytes_header :
    asBytes part.header =
      asBytes "Content-Disposition".toList ++
        ':'.toUInt8 :: asBytes (' ' :: part.disposition) := by
  have unfolded : part.header =
      "Content-Disposition".toList ++ ':' :: ' ' :: part.disposition :=
    rfl
  have value : asBytes (':' :: ' ' :: part.disposition) =
      ':'.toUInt8 :: asBytes (' ' :: part.disposition) :=
    rfl
  rw [unfolded, asBytes_append, value]

/-- The headers of an encoded part, and its data. -/
theorem parsePartHeaders_encode (fuel : Nat) (rest : Bytes) :
    parsePartHeaders (fuel + 2)
        (asBytes part.header ++ 13 :: 10 :: 13 :: 10 :: rest) =
      some ([("Content-Disposition".toList, part.disposition)], rest) := by
  have clean : (13 : UInt8) ∉ asBytes part.header := by
    have absent : '\r' ∉ part.header := by
      intro member
      rcases List.mem_append.mp member with lead | value
      · exact absurd lead (by decide)
      · rcases List.mem_cons.mp value with colon | value
        · exact absurd colon (by decide)
        · rcases List.mem_cons.mp value with blank | inside
          · exact absurd blank (by decide)
          · exact part.return_not_mem_disposition inside
    exact not_mem_asBytes absent (by decide)
  have line : findSplit [13, 10]
      (asBytes part.header ++ 13 :: 10 :: 13 :: 10 :: rest) =
      some (asBytes part.header, 13 :: 10 :: rest) := by
    apply findSplit_append (by decide)
    intro inside
    exact clean (inside.subset (by simp))
  have blank : findSplit [13, 10] (13 :: 10 :: rest) =
      some ([], rest) :=
    findSplit_prefix 13 [10] rest
  have colon : findSplit [':'.toUInt8] (asBytes part.header) =
      some (asBytes "Content-Disposition".toList,
        asBytes (' ' :: part.disposition)) := by
    have absent : ':' ∉ "Content-Disposition".toList := by decide
    rw [part.asBytes_header]
    exact findSplit_single (not_mem_asBytes absent (by decide)) _
  have nonempty : asBytes part.header ≠ [] := by
    rw [part.asBytes_header]
    exact List.append_ne_nil_of_right_ne_nil _ (List.cons_ne_nil _ _)
  have name : trim "Content-Disposition".toList =
      "Content-Disposition".toList :=
    trim_eq_self (by decide) (by decide)
  rw [parsePartHeaders, line]
  simp only [Option.bind_eq_bind, Option.bind_some, if_neg nonempty, colon,
    fromUtf8_asBytes, parsePartHeaders, blank, if_true, name,
    part.trim_blank_disposition]
  rfl

end FormPart

/-! ## Parameters -/

section Unicode

variable (unicode : UnicodeTables)

/-- A text of ASCII characters is lowered character by character. -/
theorem toLowercase_ascii
    {text : Text} (ascii : text.all isAscii = true) :
    unicode.toLowercase text = text.map Char.toLower := by
  have lowered := UnicodeTables.toLowercase_ascii_append unicode text [] []
    (List.all_eq_true.mp ascii)
  rw [List.append_nil] at lowered
  rw [UnicodeTables.toLowercase, lowered]
  exact List.append_nil _

/-- What the parser makes of a quoted parameter. -/
theorem findSplit_quoted
    (key value : Text) (keyed : '=' ∉ key)
    (starts : ∀ char ∈ key.head?, isWhitespace char = false)
    (nonempty : key ≠ []) :
    findSplit ['='] (trim (' ' :: FormPart.quoted key value)) =
      some (key, '\x22' :: (value ++ ['\x22'])) := by
  have visible : trim (' ' :: FormPart.quoted key value) =
      FormPart.quoted key value := by
    have shape : trim (' ' :: FormPart.quoted key value) =
        trim (FormPart.quoted key value) :=
      rfl
    rw [shape]
    apply trim_eq_self
    · intro char first
      apply starts char
      rw [FormPart.quoted, List.head?_append_of_ne_nil _ nonempty] at first
      exact first
    · intro char last
      have ends : FormPart.quoted key value =
          (key ++ '=' :: '\x22' :: value) ++ ['\x22'] := by
        simp [FormPart.quoted]
      rw [ends, List.getLast?_concat] at last
      cases last
      rfl
  rw [visible]
  exact findSplit_single keyed _

/-- The value of a quoted parameter. -/
theorem trimMatches_trim_quoted
    {value : Text} (clean : '\x22' ∉ value) :
    trimMatches '\x22' (trim ('\x22' :: (value ++ ['\x22']))) = value := by
  have visible : trim ('\x22' :: (value ++ ['\x22'])) =
      '\x22' :: (value ++ ['\x22']) := by
    apply trim_eq_self
    · intro char first
      cases first
      rfl
    · intro char last
      rw [← List.cons_append, List.getLast?_concat] at last
      cases last
      rfl
  rw [visible]
  exact trimMatches_quoted clean

theorem dispositionStep_name
    (field : MultipartField) {value : Text} (clean : '\x22' ∉ value) :
    dispositionStep unicode field
        (' ' :: FormPart.quoted "name".toList value) =
      { field with name := value } := by
  have split := findSplit_quoted "name".toList value
    (by decide) (by decide) (by decide)
  have key : unicode.toLowercase (trim "name".toList) = "name".toList := by
    rw [toLowercase_ascii unicode (by decide)]
    decide
  simp only [dispositionStep, split, key, if_true,
    trimMatches_trim_quoted clean]

theorem dispositionStep_filename
    (field : MultipartField) {value : Text} (clean : '\x22' ∉ value) :
    dispositionStep unicode field
        (' ' :: FormPart.quoted "filename".toList value) =
      { field with filename := some value } := by
  have split := findSplit_quoted "filename".toList value
    (by decide) (by decide) (by decide)
  have key : unicode.toLowercase (trim "filename".toList) =
      "filename".toList := by
    rw [toLowercase_ascii unicode (by decide)]
    decide
  have other : "filename".toList ≠ "name".toList := by decide
  simp only [dispositionStep, split, key, if_neg other, if_true,
    trimMatches_trim_quoted clean]

theorem dispositionStep_formData (field : MultipartField) :
    dispositionStep unicode field "form-data".toList = field := by
  have trimmed : trim "form-data".toList = "form-data".toList :=
    trim_eq_self (by decide) (by decide)
  have none : findSplit ['='] "form-data".toList = none := by
    decide +kernel
  simp only [dispositionStep, trimmed, none]

/-- No name and no file name holds a semicolon. -/
def FormPart.Unsplit (part : FormPart) : Prop :=
  ';' ∉ part.name ∧ ∀ file ∈ part.filename, ';' ∉ file

theorem semicolon_not_mem_quoted
    {key value : Text} (keyed : ';' ∉ key) (valued : ';' ∉ value) :
    ';' ∉ ' ' :: FormPart.quoted key value := by
  rw [FormPart.quoted]
  simp [keyed, valued]

/-- The pieces of the content disposition hold no semicolon. -/
theorem FormPart.semicolon_not_mem
    (part : FormPart) (unsplit : part.Unsplit) :
    ∀ piece ∈ part.parameters, ';' ∉ piece := by
  intro piece member
  rcases List.mem_cons.mp member with rfl | member
  · decide
  · rcases List.mem_cons.mp member with rfl | member
    · exact semicolon_not_mem_quoted (by decide) unsplit.1
    · rw [Option.mem_toList, Option.map_eq_some_iff] at member
      obtain ⟨file, present, rfl⟩ := member
      exact semicolon_not_mem_quoted (by decide) (unsplit.2 file present)

/-- The headers of a part without semicolons give its field. -/
theorem FormPart.fold_headers
    (part : FormPart) (unsplit : part.Unsplit) (data : Bytes) :
    [("Content-Disposition".toList, part.disposition)].foldl
        (partHeaderStep unicode) ⟨[], none, none, data⟩ =
      ⟨part.name, part.filename, none, data⟩ := by
  have pieces : part.disposition.splitOn ';' = part.parameters := by
    apply List.splitOn_intercalate
    · exact part.semicolon_not_mem unsplit
    · exact List.cons_ne_nil _ _
  have lower : unicode.toLowercase "Content-Disposition".toList =
      "content-disposition".toList := by
    rw [toLowercase_ascii unicode (by decide)]
    decide
  have nameClean : '\x22' ∉ part.name := part.nameQuotable _ (by simp)
  have step : partHeaderStep unicode ⟨[], none, none, data⟩
      ("Content-Disposition".toList, part.disposition) =
      part.parameters.foldl (dispositionStep unicode)
        ⟨[], none, none, data⟩ := by
    simp only [partHeaderStep, lower, if_true, pieces]
  rw [List.foldl_cons, List.foldl_nil, step, FormPart.parameters,
    List.foldl_cons, dispositionStep_formData, List.foldl_cons,
    dispositionStep_name unicode _ nameClean]
  cases filename : part.filename with
  | none => rfl
  | some file =>
      have clean : '\x22' ∉ file :=
        part.filenameQuotable file (by simp [filename]) _ (by simp)
      simp only [Option.map_some, Option.toList_some, List.foldl_cons,
        List.foldl_nil, dispositionStep_filename unicode _ clean]

/-! ## Parts -/

/-- The delimiter line has its only carriage return in front. -/
theorem Boundary.return_not_mem (boundary : Boundary) :
    (13 : UInt8) ∉ 10 :: boundary.delimiter := by
  have absent : '\r' ∉ '-' :: '-' :: boundary.text := by
    have clean := boundary.clean '\r' (by simp)
    simp [clean]
  have bytes : (13 : UInt8) ∉ boundary.delimiter :=
    not_mem_asBytes absent (by decide)
  rw [List.mem_cons, not_or]
  exact ⟨by decide, bytes⟩

/-- Data that does not hold the delimiter line. -/
def FormPart.Separated (boundary : Boundary) (part : FormPart) : Prop :=
  ¬ boundary.interBoundary <:+: part.data

/-- Encoded parts are read back in order. -/
theorem multipartParts_encode
    (boundary : Boundary) (parts : List FormPart) (epilogue : Bytes)
    (separated : ∀ part ∈ parts, part.Separated boundary)
    (unsplit : ∀ part ∈ parts, part.Unsplit)
    {fuel : Nat} (enough : parts.length < fuel) :
    multipartParts unicode boundary.interBoundary fuel
        (parts.flatMap (FormPart.encode boundary) ++ 45 :: 45 :: epilogue) =
      parts.map FormPart.field := by
  induction parts generalizing fuel with
  | nil =>
      cases fuel with
      | zero => cases enough
      | succ fuel => rfl
  | cons part rest induction =>
      cases fuel with
      | zero => cases enough
      | succ fuel =>
          have following := induction
            (fun other member => separated other (by simp [member]))
            (fun other member => unsplit other (by simp [member]))
            (Nat.lt_of_succ_lt_succ enough)
          generalize later : rest.flatMap (FormPart.encode boundary) ++
            45 :: 45 :: epilogue = tail at following
          have shape : (part :: rest).flatMap (FormPart.encode boundary) ++
              45 :: 45 :: epilogue =
              13 :: 10 :: (asBytes part.header ++ 13 :: 10 :: 13 :: 10 ::
                (part.data ++ (boundary.interBoundary ++ tail))) := by
            rw [← later]
            simp [FormPart.encode]
          have data : findSplit boundary.interBoundary
              (part.data ++ (boundary.interBoundary ++ tail)) =
              some (part.data, tail) :=
            findSplit_append boundary.return_not_mem
              (separated part (by simp)) tail
          have folded := part.fold_headers unicode (unsplit part (by simp))
            part.data
          rw [shape]
          generalize content : part.data ++ (boundary.interBoundary ++ tail) =
            rest' at data
          have headers : parsePartHeaders
              ((asBytes part.header ++ 13 :: 10 :: 13 :: 10 :: rest').length +
                1)
              (asBytes part.header ++ 13 :: 10 :: 13 :: 10 :: rest') =
              some ([("Content-Disposition".toList, part.disposition)],
                rest') := by
            have fuel : (asBytes part.header ++
                13 :: 10 :: 13 :: 10 :: rest').length + 1 =
                (asBytes part.header).length + rest'.length + 3 + 2 := by
              simp only [List.length_append, List.length_cons]
              omega
            rw [fuel]
            exact part.parsePartHeaders_encode _ rest'
          rw [multipartParts]
          simp only [headers, data, folded, following, if_neg part.named]
          rfl

/-- Every name the parser returns is free of semicolons. -/
def SemicolonFree (field : MultipartField) : Prop :=
  ';' ∉ field.name ∧ ∀ file ∈ field.filename, ';' ∉ file

theorem dispositionStep_semicolonFree
    {field : MultipartField} {param : Text} (free : SemicolonFree field)
    (piece : ';' ∉ param) :
    SemicolonFree (dispositionStep unicode field param) := by
  unfold dispositionStep
  split
  · exact free
  · next key value found =>
      have inside : value ⊆ param := fun char member =>
        trim_subset param ((findSplit_subset found).2 member)
      have clean : ';' ∉ trimMatches '\x22' (trim value) := fun member =>
        piece (inside (trim_subset value (trimMatches_subset _ _ member)))
      dsimp only
      split_ifs
      · exact ⟨clean, free.2⟩
      · refine ⟨free.1, ?_⟩
        intro file present
        cases present
        exact clean
      · exact free

theorem partHeaderStep_semicolonFree
    {field : MultipartField} (free : SemicolonFree field)
    (header : Text × Text) :
    SemicolonFree (partHeaderStep unicode field header) := by
  unfold partHeaderStep
  dsimp only
  split_ifs
  · apply List.foldlRecOn (motive := SemicolonFree) _ _ free
    intro before clean piece member
    exact dispositionStep_semicolonFree unicode clean
      (not_mem_of_mem_splitOn member)
  · exact free
  · exact free

/-- The parser returns no semicolon in a name, whatever it is given. -/
theorem multipartParts_semicolonFree
    (interBoundary : Bytes) (fuel : Nat) (data : Bytes) :
    ∀ field ∈ multipartParts unicode interBoundary fuel data,
      SemicolonFree field := by
  induction fuel generalizing data with
  | zero =>
      intro field member
      cases member
  | succ fuel induction =>
      intro field member
      unfold multipartParts at member
      split at member
      · split at member
        · cases member
        · next headers content _ =>
            split at member
            · cases member
            · next partData following _ =>
                dsimp only at member
                rcases List.mem_append.mp member with first | later
                · have folded : SemicolonFree (headers.foldl
                      (partHeaderStep unicode)
                      ⟨[], none, none, partData⟩) := by
                    apply List.foldlRecOn (motive := SemicolonFree)
                    · exact ⟨List.not_mem_nil, by simp⟩
                    · intro before clean header _
                      exact partHeaderStep_semicolonFree unicode clean header
                  split_ifs at first
                  · cases first
                  · rw [List.mem_singleton.mp first]
                    exact folded
                · exact induction following field later
      · cases member

/-! ## The media type -/

/-- A declared boundary: what follows the equals sign. -/
theorem Boundary.declared_tail
    {boundary : Boundary} {contentType : Text}
    (declared : boundary.Declared contentType) :
    ∃ tail, contentType =
        "multipart/form-data; boundary=".toList ++ tail ∧ ';' ∉ tail ∧
      (∀ char ∈ tail.getLast?, isWhitespace char = false) ∧
      trimMatches '\x22' tail = boundary.text := by
  have clean := boundary.clean ';' (by simp)
  have unquoted := boundary.clean '\x22' (by simp)
  rcases declared with rfl | ⟨rfl, visible⟩
  · refine ⟨'\x22' :: (boundary.text ++ ['\x22']), ?_, ?_, ?_, ?_⟩
    · have lead : "multipart/form-data; boundary=\x22".toList =
          "multipart/form-data; boundary=".toList ++ ['\x22'] := by
        decide
      rw [lead]
      simp only [List.append_assoc, List.cons_append, List.nil_append]
    · simp [clean]
    · intro char last
      rw [← List.cons_append, List.getLast?_concat] at last
      cases last
      rfl
    · exact trimMatches_quoted unquoted
  · refine ⟨boundary.text, rfl, clean, ?_, trimMatches_eq_self unquoted⟩
    intro char last
    exact visible char (List.mem_of_getLast? last)

/-- The last character of a text with a given front. -/
theorem getLast?_visible
    {lead tail : Text}
    (front : ∀ char ∈ lead.getLast?, isWhitespace char = false)
    (back : ∀ char ∈ tail.getLast?, isWhitespace char = false) :
    ∀ char ∈ (lead ++ tail).getLast?, isWhitespace char = false := by
  intro char last
  rw [List.getLast?_append] at last
  cases ends : tail.getLast? with
  | none =>
      rw [ends, Option.none_or] at last
      exact front char last
  | some other =>
      rw [ends, Option.some_or] at last
      cases last
      exact back char ends

theorem extractBoundary_declared
    {boundary : Boundary} {contentType : Text}
    (declared : boundary.Declared contentType) :
    extractBoundary unicode contentType = some boundary.text := by
  obtain ⟨tail, rfl, clean, ends, stripped⟩ := boundary.declared_tail declared
  have lead : "multipart/form-data; boundary=".toList =
      "multipart/form-data".toList ++ ';' :: " boundary=".toList := by
    decide
  have parameter : ';' ∉ " boundary=".toList ++ tail := by
    rw [List.mem_append, not_or]
    exact ⟨by decide, clean⟩
  have pieces : ("multipart/form-data; boundary=".toList ++ tail).splitOn ';' =
      ["multipart/form-data".toList, " boundary=".toList ++ tail] := by
    rw [lead, List.append_assoc, List.cons_append,
      List.splitOn_append_cons_self_of_not_mem (by decide),
      List.splitOn_eq_singleton parameter]
  have type : trim "multipart/form-data".toList =
      "multipart/form-data".toList :=
    trim_eq_self (by decide) (by decide)
  have other : ¬ "boundary=".toList.isPrefixOf
      (unicode.toLowercase "multipart/form-data".toList) = true := by
    rw [toLowercase_ascii unicode (by decide)]
    decide
  have key : trim (" boundary=".toList ++ tail) =
      "boundary=".toList ++ tail := by
    have shape : trim (" boundary=".toList ++ tail) =
        trim ("boundary=".toList ++ tail) :=
      rfl
    rw [shape]
    apply trim_eq_self
    · intro char first
      cases first
      rfl
    · exact getLast?_visible (by decide) ends
  have found : "boundary=".toList.isPrefixOf
      (unicode.toLowercase ("boundary=".toList ++ tail)) = true := by
    rw [UnicodeTables.toLowercase,
      UnicodeTables.toLowercase_ascii_append unicode _ _ _
        (List.all_eq_true.mp (by decide))]
    exact List.isPrefixOf_iff_prefix.mpr (List.prefix_append _ _)
  have value : ("boundary=".toList ++ tail).drop "boundary=".length =
      tail :=
    List.drop_left
  rw [extractBoundary, pieces, List.map_cons, List.map_cons, List.map_nil,
    type, key, List.findSome?_cons]
  simp only [if_neg other, List.findSome?_cons, if_pos found, value, stripped]

/-- A declared multipart body goes to the multipart parser. -/
theorem parseBody_declared
    (serde : SerdeJson) {boundary : Boundary} {contentType : Text}
    (declared : boundary.Declared contentType) (body : Bytes)
    (limits : LimitsConfig) :
    parseBody unicode serde (some contentType) body limits =
      .ok (parseMultipart unicode body boundary.text) := by
  have extracted := extractBoundary_declared unicode declared
  obtain ⟨tail, rfl, -, ends, -⟩ := boundary.declared_tail declared
  have visible : trim ("multipart/form-data; boundary=".toList ++ tail) =
      "multipart/form-data; boundary=".toList ++ tail := by
    apply trim_eq_self
    · intro char first
      cases first
      rfl
    · exact getLast?_visible (by decide) ends
  have lowered : ∃ rest, unicode.toLowercase
      ("multipart/form-data; boundary=".toList ++ tail) =
      "multipart/".toList ++ rest := by
    refine ⟨"form-data; boundary=".toList ++ unicode.lowercaseFrom
      ("multipart/form-data; boundary=".toList.reverse ++ []) tail, ?_⟩
    rw [UnicodeTables.toLowercase,
      UnicodeTables.toLowercase_ascii_append unicode _ _ _
        (List.all_eq_true.mp (by decide)), ← List.append_assoc]
    exact congrArg (· ++ _) (by decide)
  obtain ⟨rest, lowered⟩ := lowered
  have form : ¬ ("multipart/".toList ++ rest =
        "application/x-www-form-urlencoded".toList ∨
      "application/x-www-form-urlencoded;".toList.isPrefixOf
        ("multipart/".toList ++ rest) = true) := by
    rintro (equal | starts)
    · have differs : "m".toList = "a".toList := congrArg (List.take 1) equal
      exact absurd differs (by decide)
    · obtain ⟨after, equal⟩ := List.isPrefixOf_iff_prefix.mp starts
      have differs : "a".toList = "m".toList := congrArg (List.take 1) equal
      exact absurd differs (by decide)
  have multipart : "multipart/".toList.isPrefixOf
      ("multipart/".toList ++ rest) = true :=
    List.isPrefixOf_iff_prefix.mpr (List.prefix_append _ _)
  simp only [parseBody, Option.getD_some, visible, lowered, if_neg form,
    if_pos multipart, extracted]

/-- No name that the parser returns holds a semicolon. -/
theorem parseMultipart_semicolonFree (body : Bytes) (boundary : Text) :
    ∃ fields, parseMultipart unicode body boundary = .multipart fields ∧
      ∀ field ∈ fields, SemicolonFree field := by
  unfold parseMultipart
  dsimp only
  split
  · exact ⟨[], rfl, by simp⟩
  · exact ⟨_, rfl, multipartParts_semicolonFree unicode _ _ _⟩

/-- Every part takes some bytes. -/
theorem length_le_encode (boundary : Boundary) (parts : List FormPart) :
    parts.length ≤ (parts.flatMap (FormPart.encode boundary)).length := by
  induction parts with
  | nil => exact Nat.le_refl 0
  | cons part rest induction =>
      rw [List.flatMap_cons, List.length_append, List.length_cons,
        FormPart.encode, List.length_cons]
      omega

/-- The parser reads back every encoded form without semicolons in names. -/
theorem parseMultipart_encodeMultipart
    (boundary : Boundary) (parts : List FormPart) (epilogue : Bytes)
    (separated : ∀ part ∈ parts, part.Separated boundary)
    (unsplit : ∀ part ∈ parts, part.Unsplit) :
    parseMultipart unicode (encodeMultipart boundary parts epilogue)
        boundary.text = .multipart (parts.map FormPart.field) := by
  have opening : findSplit boundary.delimiter
      (encodeMultipart boundary parts epilogue) =
      some ([], parts.flatMap (FormPart.encode boundary) ++
        45 :: 45 :: epilogue) :=
    findSplit_prefix 45 (45 :: asBytes boundary.text) _
  have enough : parts.length <
      (encodeMultipart boundary parts epilogue).length + 1 := by
    have each := length_le_encode boundary parts
    simp only [encodeMultipart, List.length_append]
    omega
  rw [Boundary.delimiter] at opening
  simp only [parseMultipart, opening]
  exact congrArg ParsedBody.multipart (multipartParts_encode unicode boundary
    parts epilogue separated unsplit enough)

/--
Every encoded form is parsed into exactly its parts, if and only if no name
and no file name holds a semicolon.
-/
theorem parseBody_encodeMultipart_iff
    (serde : SerdeJson) (limits : LimitsConfig) (boundary : Boundary)
    (parts : List FormPart) (epilogue : Bytes) (contentType : Text)
    (declared : boundary.Declared contentType)
    (separated : ∀ part ∈ parts, part.Separated boundary) :
    parseBody unicode serde (some contentType)
        (encodeMultipart boundary parts epilogue) limits =
      .ok (.multipart (parts.map FormPart.field)) ↔
        ∀ part ∈ parts, part.Unsplit := by
  rw [parseBody_declared unicode serde declared]
  constructor
  · intro parsed part member
    obtain ⟨fields, returned, free⟩ := parseMultipart_semicolonFree unicode
      (encodeMultipart boundary parts epilogue) boundary.text
    rw [returned] at parsed
    cases parsed
    exact free part.field (List.mem_map_of_mem member)
  · intro unsplit
    rw [parseMultipart_encodeMultipart unicode boundary parts epilogue
      separated unsplit]

end Unicode

/-- The boundary `b0`. -/
def sampleBoundary : Boundary where
  text := ['b', '0']
  clean := by decide

theorem declared_sampleBoundary :
    sampleBoundary.Declared "multipart/form-data; boundary=b0".toList :=
  Or.inr ⟨rfl, by decide⟩

/-- Short data cannot hold the delimiter. -/
theorem separated_sampleBoundary
    {part : FormPart} (short : part.data.length < 6) :
    part.Separated sampleBoundary := by
  intro inside
  have length : sampleBoundary.interBoundary.length = 6 := rfl
  have fits := inside.length_le
  omega

/-- A part with a file name and data that starts like a delimiter line. -/
def uploadPart : FormPart where
  name := "file".toList
  filename := some "a=b.txt".toList
  data := [13, 10, 45, 45, 98]
  named := by decide
  nameQuotable := by unfold Quotable; decide
  filenameQuotable := by
    intro file present
    cases present
    unfold Quotable
    decide

theorem parseBody_encodeMultipart_upload :
    parseBody .asciiOnly .rejectAll
        (some "multipart/form-data; boundary=b0".toList)
        (encodeMultipart sampleBoundary [uploadPart] [13, 10]) {} =
      .ok (.multipart [uploadPart.field]) := by
  refine (parseBody_encodeMultipart_iff .asciiOnly .rejectAll {}
    sampleBoundary [uploadPart] [13, 10] _ declared_sampleBoundary ?_).mpr ?_
  · intro part member
    rw [List.mem_singleton.mp member]
    exact separated_sampleBoundary (by decide)
  · intro part member
    rw [List.mem_singleton.mp member]
    refine ⟨by decide, ?_⟩
    intro file present
    cases present
    decide

/-- A part whose name holds a semicolon. -/
def splitPart : FormPart where
  name := "a;b".toList
  filename := none
  data := []
  named := by decide
  nameQuotable := by unfold Quotable; decide
  filenameQuotable := by
    intro file present
    cases present

/-- The name is cut at the semicolon. -/
theorem parseBody_encodeMultipart_split :
    ¬ ∀ (unicode : UnicodeTables) (serde : SerdeJson)
      (limits : LimitsConfig) (boundary : Boundary) (parts : List FormPart)
      (epilogue : Bytes) (contentType : Text),
      boundary.Declared contentType →
      (∀ part ∈ parts, part.Separated boundary) →
      parseBody unicode serde (some contentType)
          (encodeMultipart boundary parts epilogue) limits =
        .ok (.multipart (parts.map FormPart.field)) := by
  intro claimed
  have parsed := claimed .asciiOnly .rejectAll {} sampleBoundary [splitPart] []
    _ declared_sampleBoundary (by
      intro part member
      rw [List.mem_singleton.mp member]
      exact separated_sampleBoundary (by decide))
  rw [parseBody_declared .asciiOnly .rejectAll
    declared_sampleBoundary] at parsed
  obtain ⟨fields, returned, free⟩ := parseMultipart_semicolonFree .asciiOnly
    (encodeMultipart sampleBoundary [splitPart] []) sampleBoundary.text
  rw [returned] at parsed
  cases parsed
  exact absurd (free splitPart.field (by simp)).1 (by decide)

end LightWaf.Normalizer
