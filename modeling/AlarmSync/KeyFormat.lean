import AlarmSync.Controls

/-! The format of a key: which texts are read, which parts they have, and why the others are
refused. -/
namespace AlarmSync

/-- A name that a key can end in. -/
def Addressable (device : String) : Prop := device ≠ "" ∧ '/' ∉ device.toList

instance (device : String) : Decidable (Addressable device) := by
  unfold Addressable; infer_instance

/-- The word that an operation has in front of the first colon of a key. -/
inductive Operation.Word : Operation → String → Prop
  | command : Word .command "command"
  | config : Word .config "config"
  | state : Word .state "state"

theorem Operation.word_iff {operation : Operation} {word : String} :
    operation.Word word ↔ word = operation.getKeyPrefix := by
  constructor
  · intro known
    cases known <;> rfl
  · rintro rfl
    cases operation
    · exact .command
    · exact .config
    · exact .state

theorem Operation.parse_eq_some_iff {operation : Operation} {word : String} :
    Operation.parse word = some operation ↔ operation.Word word := by
  constructor
  · intro read
    unfold Operation.parse at read
    split_ifs at read with command config state
    · cases read
      exact command ▸ .command
    · cases read
      exact config ▸ .config
    · cases read
      exact state ▸ .state
  · intro known
    cases known <;> decide

theorem Operation.parse_eq_none_iff {word : String} :
    Operation.parse word = none ↔ ∀ operation : Operation, ¬ operation.Word word := by
  simp only [← Operation.parse_eq_some_iff, Option.eq_none_iff_forall_ne_some, ne_eq]

/-- The text is a known word, a colon, the display path, a slash and an addressable device. -/
def Key.Format (s : String) (key : Key) : Prop :=
  Addressable key.device ∧
    ∃ word, key.operation.Word word ∧ s = word ++ ":" ++ key.displayPath ++ "/" ++ key.device

/-- There is a word in front of the first colon, and it is none of an operation. -/
def UnknownPrefix (s : String) : Prop :=
  ∃ word rest, s = word ++ ":" ++ rest ∧ ':' ∉ word.toList ∧ word ≠ "" ∧
    ∀ operation : Operation, ¬ operation.Word word

/-- The word of an operation and a colon, and a slash at the end. -/
def NoDevice (s : String) : Prop :=
  (∃ operation : Operation, ∃ word rest, operation.Word word ∧ s = word ++ ":" ++ rest) ∧
    ∃ front, s = front ++ "/"

namespace Key

theorem text_assoc (word displayPath device : String) :
    word ++ ":" ++ displayPath ++ "/" ++ device = word ++ ":" ++
      (displayPath ++ "/" ++ device) := by
  simp only [String.append_assoc]

theorem parse_word {operation : Operation} {word rest displayPath device : String}
    (known : operation.Word word)
    (atSlash : RustText.rsplitOnce '/' rest = some (displayPath, device)) :
    Key.parse (word ++ ":" ++ rest) =
      if device = "" then .error .emptyDevice else .ok ⟨device, displayPath, operation⟩ := by
  have noColon : ':' ∉ word.toList := by cases known <;> decide
  have atColon : RustText.splitOnce ':' (word ++ ":" ++ rest) = some (word, rest) :=
    RustText.splitOnce_append noColon rest
  simp only [Key.parse, atColon, Operation.parse_eq_some_iff.mpr known, atSlash]

theorem parse_format {s : String} {key : Key} (format : key.Format s) : Key.parse s = .ok key := by
  obtain ⟨⟨nonempty, noSlash⟩, word, known, rfl⟩ := format
  have atSlash : RustText.rsplitOnce '/' (key.displayPath ++ "/" ++ key.device) =
      some (key.displayPath, key.device) := RustText.rsplitOnce_append key.displayPath noSlash
  rw [text_assoc, parse_word known atSlash, if_neg nonempty]

theorem parse_unknownPrefix {s : String} (unknown : UnknownPrefix s) :
    Key.parse s = .error .unsupportedOperation := by
  obtain ⟨word, rest, rfl, free, nonempty, other⟩ := unknown
  have atColon : RustText.splitOnce ':' (word ++ ":" ++ rest) = some (word, rest) :=
    RustText.splitOnce_append free rest
  simp only [Key.parse, atColon, Operation.parse_eq_none_iff.mpr other, nonempty, if_false]

theorem slash_of_rest {word rest front : String} (ends : word ++ ":" ++ rest = front ++ "/") :
    ∃ displayPath, rest = displayPath ++ "/" := by
  have chars : (word.toList ++ [':']) ++ rest.toList = front.toList ++ ['/'] := by
    simpa using congrArg String.toList ends
  rcases List.eq_nil_or_concat rest.toList with empty | ⟨path, last, text⟩
  · rw [empty, List.append_nil] at chars
    have same := (List.append_inj' chars rfl).2
    cases same
  · rw [text, List.concat_eq_append, ← List.append_assoc] at chars
    have same := (List.append_inj' chars rfl).2
    cases same
    exact ⟨.ofList path, by rw [← String.toList_inj, text]; simp⟩

theorem parse_noDevice {s : String} (noDevice : NoDevice s) :
    Key.parse s = .error .emptyDevice := by
  obtain ⟨⟨operation, word, rest, known, rfl⟩, front, ends⟩ := noDevice
  obtain ⟨displayPath, rfl⟩ := slash_of_rest ends
  have atSlash : RustText.rsplitOnce '/' (displayPath ++ "/") = some (displayPath, "") :=
    RustText.rsplitOnce_eq_some_iff.mpr ⟨by simp, by simp⟩
  rw [parse_word known atSlash, if_pos rfl]

/-- What a result of the parser says about the text. A text that is none of these is malformed. -/
def Explains (s : String) : Except KeyParseError Key → Prop
  | .ok key => key.Format s
  | .error .unsupportedOperation => UnknownPrefix s
  | .error .emptyDevice => NoDevice s
  | .error .malformedStructure => True

theorem explains_malformed {s : String} (malformed : Key.parse s = .error .malformedStructure) :
    Explains s (Key.parse s) := by
  rw [malformed]
  trivial

theorem parse_explains (s : String) : Explains s (Key.parse s) := by
  cases atColon : RustText.splitOnce ':' s with
  | none => exact explains_malformed (by simp only [Key.parse, atColon])
  | some parts =>
      obtain ⟨word, rest⟩ := parts
      obtain ⟨text, free⟩ := RustText.splitOnce_eq_some_iff.mp atColon
      cases read : Operation.parse word with
      | none =>
          by_cases empty : word = ""
          · refine explains_malformed ?_
            simp only [Key.parse, atColon, read]
            rw [if_pos empty]
          · have unknown : UnknownPrefix s :=
              ⟨word, rest, text, free, empty, Operation.parse_eq_none_iff.mp read⟩
            rw [parse_unknownPrefix unknown]
            exact unknown
      | some operation =>
          have known := Operation.parse_eq_some_iff.mp read
          cases atSlash : RustText.rsplitOnce '/' rest with
          | none => exact explains_malformed (by simp only [Key.parse, atColon, read, atSlash])
          | some parts =>
              obtain ⟨displayPath, device⟩ := parts
              obtain ⟨path, noSlash⟩ := RustText.rsplitOnce_eq_some_iff.mp atSlash
              have whole : s = word ++ ":" ++ displayPath ++ "/" ++ device := by
                rw [text_assoc, text, path]
                rfl
              by_cases empty : device = ""
              · have noDevice : NoDevice s :=
                  ⟨⟨operation, word, rest, known, text⟩, word ++ ":" ++ displayPath,
                    by simpa [empty] using whole⟩
                rw [parse_noDevice noDevice]
                exact noDevice
              · have format : Format s ⟨device, displayPath, operation⟩ :=
                  ⟨⟨empty, noSlash⟩, word, known, whole⟩
                rw [parse_format format]
                exact format

theorem explains_of_parse {s : String} {result : Except KeyParseError Key}
    (parsed : Key.parse s = result) : Explains s result := by
  rw [← parsed]
  exact parse_explains s

theorem parse_eq_ok_iff {s : String} {key : Key} : Key.parse s = .ok key ↔ key.Format s :=
  ⟨explains_of_parse, parse_format⟩

theorem parse_eq_unsupported_iff {s : String} :
    Key.parse s = .error .unsupportedOperation ↔ UnknownPrefix s :=
  ⟨explains_of_parse, parse_unknownPrefix⟩

theorem parse_eq_emptyDevice_iff {s : String} : Key.parse s = .error .emptyDevice ↔ NoDevice s :=
  ⟨explains_of_parse, parse_noDevice⟩

/-- The texts in the format are those that the key builder makes for addressable devices. -/
theorem format_iff {s : String} {key : Key} : key.Format s ↔
    Addressable key.device ∧
    Controls.getPhoebusKey key.operation key.displayPath key.device = s := by
  simp only [Format, Operation.word_iff, exists_eq_left, Controls.getPhoebusKey, eq_comm]

theorem parse_getPhoebusKey (operation : Operation) (displayPath : String) {device : String}
    (addressable : Addressable device) :
    Key.parse (Controls.getPhoebusKey operation displayPath device) =
      .ok ⟨device, displayPath, operation⟩ :=
  parse_format (format_iff.mpr ⟨addressable, rfl⟩)

theorem parse_addressable {value : String} {key : Key} (parsed : Key.parse value = .ok key) :
    Addressable key.device :=
  (parse_eq_ok_iff.mp parsed).1

theorem splitOnce_getPhoebusKey (operation : Operation) (displayPath device : String) :
    RustText.splitOnce ':' (Controls.getPhoebusKey operation displayPath device) =
      some (operation.getKeyPrefix, displayPath ++ "/" ++ device) := by
  have noColon : ':' ∉ operation.getKeyPrefix.toList := by cases operation <;> decide
  rw [Controls.getPhoebusKey, text_assoc]
  exact RustText.splitOnce_append noColon _

theorem parse_getPhoebusKey_operation {operation : Operation}
    {displayPath device : String} {key : Key}
    (parsed : Key.parse (Controls.getPhoebusKey operation displayPath device) = .ok key) :
    key.operation = operation := by
  have text := (format_iff.mp (parse_eq_ok_iff.mp parsed)).2
  have words := congrArg (RustText.splitOnce ':') text
  rw [splitOnce_getPhoebusKey, splitOnce_getPhoebusKey] at words
  have word : key.operation.getKeyPrefix = operation.getKeyPrefix := by
    simp only [Option.some.injEq, Prod.mk.injEq] at words
    exact words.1
  have read := Operation.parse_getKeyPrefix key.operation
  rw [word, Operation.parse_getKeyPrefix, Option.some.injEq] at read
  exact read.symm

end Key

/-- The parser reads the texts in the format and no others, with the only parts that they have,
which the key builder puts together to the same text; it reads back whatever the key builder makes
for an addressable device; and what a text lacks decides its error. -/
theorem key_parse_exact (s : String) :
    (∀ key : Key, Key.parse s = .ok key ↔ key.Format s) ∧
    (∀ key key' : Key, key.Format s → key'.Format s → key = key') ∧
    (∀ key, Key.parse s = .ok key →
      Controls.getPhoebusKey key.operation key.displayPath key.device = s) ∧
    (∀ operation displayPath device, Addressable device →
      Key.parse (Controls.getPhoebusKey operation displayPath device) =
        .ok ⟨device, displayPath, operation⟩) ∧
    (Key.parse s = .error .unsupportedOperation ↔ UnknownPrefix s) ∧
    (Key.parse s = .error .emptyDevice ↔ NoDevice s) ∧
    (Key.parse s = .error .malformedStructure ↔
      (∀ key : Key, ¬ key.Format s) ∧ ¬ UnknownPrefix s ∧ ¬ NoDevice s) := by
  refine ⟨fun _ => Key.parse_eq_ok_iff, ?_, ?_, ?_, Key.parse_eq_unsupported_iff,
    Key.parse_eq_emptyDevice_iff, ?_⟩
  · intro key key' format format'
    have parsed := Key.parse_format format
    rw [Key.parse_format format'] at parsed
    cases parsed
    rfl
  · intro key parsed
    exact (Key.format_iff.mp (Key.parse_eq_ok_iff.mp parsed)).2
  · intro operation displayPath device addressable
    exact Key.parse_getPhoebusKey operation displayPath addressable
  · simp only [← Key.parse_eq_ok_iff, ← Key.parse_eq_unsupported_iff,
      ← Key.parse_eq_emptyDevice_iff]
    cases Key.parse s with
    | ok key => simp
    | error e => cases e <;> simp

/-- Colons and slashes may stand in the display path, and the order of the checks decides. -/
example : Key.parse "config:a:b//pump" = .ok ⟨"pump", "a:b/", .config⟩ ∧
    Key.parse "config:/" = .error .emptyDevice ∧
    Key.parse "other:/" = .error .unsupportedOperation ∧
    Key.parse ":/" = .error .malformedStructure := by decide +kernel

end AlarmSync
