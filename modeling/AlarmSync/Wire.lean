import AlarmSync.Cache
import Mathlib.Data.Finmap

/-! Text formats the program takes from elsewhere: JSON text, RFC 3339 dates and the
generated reader of Controls records. They are a parameter; `Lawful` is their documented
behaviour. `Value` is the JSON value type, never inspected below its kind. -/
namespace AlarmSync

structure StringMessage where
  key : Option String
  value : String
  deriving DecidableEq, Repr

/-- The JSON types the program tells apart. -/
inductive Kind where
  | null
  | bool (b : Bool)
  | string (s : String)
  | other

/-- A parsed JSON text. Object members are in text order, repeated names kept. -/
inductive Document (Value : Type) where
  | object (members : List (String × Value))
  | array (items : List Value)
  | scalar (v : Value)

/-- `HashMap<String, Value>` with its extensional equality. -/
abbrev Settings (Value : Type) := Finmap (fun _ : String => Value)

structure Wire (Value : Type) where
  /-- `serde_json::from_str`. -/
  fromStr : String → Option (Document Value)
  /-- `serde_json::to_string` of an object with these members. -/
  toStr : List (String × Value) → String
  kind : Value → Kind
  null : Value
  ofString : String → Value
  /-- The unspecified order in which a hash map hands out its entries. -/
  entries : Settings Value → List (String × Value)
  /-- The generated `Status` reader. -/
  statusFromStr : String → Option Status
  /-- `DateTime::parse_from_rfc3339`. -/
  parseFromRfc3339 : String → Option DateTime
  toRfc3339 : DateTime → String
  /-- `Utc.timestamp_opt(seconds, nanos).single()`. -/
  timestampOpt : Int64 → UInt32 → Option DateTime

/-- Years 1 to 9999 with the nanoseconds of one second: the range of a protocol timestamp. -/
def Timestamp.Valid (t : Timestamp) : Prop :=
  -62135596800 ≤ t.seconds.toInt ∧ t.seconds.toInt ≤ 253402300799 ∧
    0 ≤ t.nanos.toInt ∧ t.nanos.toInt < 1000000000

instance (t : Timestamp) : Decidable t.Valid := by unfold Timestamp.Valid; infer_instance

def Timestamp.dateTime (t : Timestamp) : DateTime := ⟨t.seconds, t.nanos.toUInt32⟩

structure Wire.Lawful {Value : Type} (w : Wire Value) : Prop where
  read_back : ∀ members, w.fromStr (w.toStr members) = some (.object members)
  kind_ofString : ∀ s, w.kind (w.ofString s) = .string s
  kind_null : w.kind w.null = .null
  entries_nodup : ∀ m, ((w.entries m).map Prod.fst).Nodup
  mem_entries : ∀ m k v, (k, v) ∈ w.entries m ↔ m.lookup k = some v
  timestampOpt_valid : ∀ t : Timestamp, t.Valid →
    w.timestampOpt t.seconds t.nanos.toUInt32 = some t.dateTime
  rfc3339_valid : ∀ t : Timestamp, t.Valid →
      w.parseFromRfc3339 (w.toRfc3339 t.dateTime) = some t.dateTime
  rfc3339_true : w.parseFromRfc3339 "true" = none
  rfc3339_false : w.parseFromRfc3339 "false" = none

/-- The years 0 to 9999, which RFC 3339 text can have. -/
def FourDigitYear (seconds : Int64) : Prop := -62167219200 ≤ seconds.toInt ∧
    seconds.toInt ≤ 253402300799

instance (seconds : Int64) : Decidable (FourDigitYear seconds) := by
  unfold FourDigitYear; infer_instance

/-- From 10^9 on nanoseconds are a leap second, which only the last second of a minute can have. -/
def NanosOfSecond (seconds nanos : Int) : Prop :=
  0 ≤ nanos ∧ (nanos < 1000000000 ∨ nanos < 2000000000 ∧ seconds % 60 = 59)

instance (seconds nanos : Int) : Decidable (NanosOfSecond seconds nanos) := by
  unfold NanosOfSecond; infer_instance

/-- What `chrono` documents of instants in general: the constructor takes seconds and nanoseconds as
they are and rejects nanoseconds that are out of range, and years that take more than four digits
are written with a sign, which the reader does not accept. -/
structure Wire.Calendar {Value : Type} (w : Wire Value) : Prop where
  timestampOpt_some : ∀ seconds nanos dt, w.timestampOpt seconds nanos = some dt →
    dt = ⟨seconds, nanos⟩ ∧ NanosOfSecond seconds.toInt nanos.toNat
  timestampOpt_accepts : ∀ seconds nanos, FourDigitYear seconds →
    NanosOfSecond seconds.toInt nanos.toNat → w.timestampOpt seconds nanos = some ⟨seconds, nanos⟩
  rfc3339_read : ∀ seconds nanos dt, w.timestampOpt seconds nanos = some dt →
    FourDigitYear seconds → w.parseFromRfc3339 (w.toRfc3339 dt) = some dt
  rfc3339_signed : ∀ seconds nanos dt, w.timestampOpt seconds nanos = some dt →
    ¬ FourDigitYear seconds → w.parseFromRfc3339 (w.toRfc3339 dt) = none
  rfc3339_notBool : ∀ dt, w.toRfc3339 dt ≠ "true" ∧ w.toRfc3339 dt ≠ "false"

def Timestamp.Civil (t : Timestamp) : Prop :=
  FourDigitYear t.seconds ∧ NanosOfSecond t.seconds.toInt t.nanos.toInt

instance (t : Timestamp) : Decidable t.Civil := by unfold Timestamp.Civil; infer_instance

theorem toNat_toUInt32 (nanos : Int32) : (nanos.toUInt32.toNat : Int) =
    if nanos.toInt < 0 then nanos.toInt + 4294967296 else nanos.toInt := by
  have bits : nanos.toUInt32.toNat = nanos.toBitVec.toNat := rfl
  have signed : nanos.toInt = nanos.toBitVec.toInt := rfl
  have bound := nanos.toBitVec.isLt
  rw [bits, signed, BitVec.toInt_eq_toNat_cond]
  split_ifs <;> omega

theorem nanosOfSecond_cast (seconds : Int) (nanos : Int32) :
    NanosOfSecond seconds nanos.toUInt32.toNat ↔ NanosOfSecond seconds nanos.toInt := by
  have lower := nanos.le_toInt
  unfold NanosOfSecond
  rw [toNat_toUInt32]
  split_ifs <;> omega

theorem Timestamp.Valid.civil {t : Timestamp} (valid : t.Valid) : t.Civil := by
  obtain ⟨first, last, nonneg, small⟩ := valid
  exact ⟨⟨by omega, last⟩, nonneg, .inl small⟩

variable {Value : Type}

theorem Wire.Calendar.timestampOpt_civil {w : Wire Value} (calendar : w.Calendar) {t : Timestamp}
    (civil : t.Civil) : w.timestampOpt t.seconds t.nanos.toUInt32 = some t.dateTime :=
  calendar.timestampOpt_accepts _ _ civil.1 ((nanosOfSecond_cast _ _).mpr civil.2)

/-- One named field of a derived reader: absent, or there once. A repeated name is an error. -/
def field (members : List (String × Value)) (name : String) : Option (Option Value) :=
  match members.filter (·.1 == name) with
  | [] => some none
  | [member] => some (some member.2)
  | _ => none

def Wire.asString (w : Wire Value) (v : Value) : Option String :=
  match w.kind v with
  | .string s => some s
  | _ => none

def Wire.stringField (w : Wire Value) (members : List (String × Value)) (name : String) :
    Option String := (field members name).bind fun v => v.bind w.asString

/-- `Value::get(name)` of a parsed text: the last member of that name. -/
def Document.get (name : String) : Document Value → Option Value
  | .object members => (members.reverse.find? (·.1 == name)).map Prod.snd
  | _ => none

@[simp] theorem field_nil (name : String) : field ([] : List (String × Value)) name = some none :=
  rfl

theorem field_cons_self {name : String} (v : Value) {rest : List (String × Value)}
    (absent : ∀ e ∈ rest, e.1 ≠ name) : field ((name, v) :: rest) name = some (some v) := by
  have none_left : rest.filter (·.1 == name) = [] :=
    List.filter_eq_nil_iff.mpr fun e member => by simpa using absent e member
  simp [field, none_left]

theorem field_cons_of_ne {k name : String} (ne : k ≠ name) (v : Value)
    (rest : List (String × Value)) : field ((k, v) :: rest) name = field rest name := by
  simp [field, ne]

theorem Wire.Lawful.asString_ofString {w : Wire Value} (lawful : w.Lawful) (s : String) :
    w.asString (w.ofString s) = some s := by
  simp only [Wire.asString, lawful.kind_ofString]

end AlarmSync
