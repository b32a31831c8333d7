import AlarmSync.PlainWire
import AlarmSync.Rfc3339

/-! The concrete wire with RFC 3339 dates, and with statuses that may have a wake. -/
namespace AlarmSync.CivilWire
open FlatJson

def readNumber : List Char → Option Int
  | '-' :: cs => (Rfc3339.readDigits cs.length 0 cs).map fun (n, _) => -n
  | cs => (Rfc3339.readDigits cs.length 0 cs).map fun (n, _) => n

/-- Two members with numbers as texts. -/
def readWake (members : List Member) : Option Timestamp := do
  let seconds ← PlainWire.lookup members "seconds"
  let nanos ← PlainWire.lookup members "nanos"
  let seconds ← readNumber seconds.toList
  let nanos ← readNumber nanos.toList
  return ⟨.ofInt seconds, .ofInt nanos⟩

def readStatus (text : String) : Option Status := do
  let alarm ← PlainWire.readStatus text
  let members ← FlatJson.read text
  return { alarm with wake := readWake members }

def writeDate (dt : DateTime) : String :=
  .ofList (Rfc3339.write dt.timestamp.toInt dt.timestampSubsecNanos.toNat)

def readDate (text : String) : Option DateTime :=
  (Rfc3339.read text.toList).map fun (seconds, nanos) => ⟨.ofInt seconds, .ofNat nanos⟩

/-- The years -262143 to 262142, with nanoseconds of their second. -/
def timestampOpt (seconds : Int64) (nanos : UInt32) : Option DateTime :=
  if -8334601228800 ≤ seconds.toInt ∧ seconds.toInt ≤ 8210266876799 ∧
    NanosOfSecond seconds.toInt nanos.toNat then some ⟨seconds, nanos⟩ else none

def wire : Wire Scalar :=
  { PlainWire.wire with
    statusFromStr := readStatus
    parseFromRfc3339 := readDate
    toRfc3339 := writeDate
    timestampOpt := timestampOpt }

theorem timestampOpt_eq_some {seconds : Int64} {nanos : UInt32} {dt : DateTime} :
    timestampOpt seconds nanos = some dt ↔
      (-8334601228800 ≤ seconds.toInt ∧ seconds.toInt ≤ 8210266876799 ∧
        NanosOfSecond seconds.toInt nanos.toNat) ∧ dt = ⟨seconds, nanos⟩ := by
  simp only [timestampOpt, Option.ite_none_right_eq_some, Option.some.injEq, @eq_comm _ dt]

theorem readDate_writeDate {seconds : Int64} {nanos : UInt32} (year : FourDigitYear seconds)
    (fraction : NanosOfSecond seconds.toInt nanos.toNat) :
    readDate (writeDate ⟨seconds, nanos⟩) = some ⟨seconds, nanos⟩ := by
  obtain ⟨_, fraction⟩ := fraction
  have back := Rfc3339.read_write year (show nanos.toNat < 1000000000 ∨
    nanos.toNat < 2000000000 ∧ seconds.toInt % 60 = 59 by omega)
  simp only [readDate, writeDate, String.toList_ofList, back, Option.map_some, Int64.ofInt_toInt,
    UInt32.ofNat_toNat]

/-- The text of a date is longer than a Boolean's. -/
theorem writeDate_notBool (dt : DateTime) : writeDate dt ≠ "true" ∧ writeDate dt ≠ "false" := by
  have long : 6 ≤ (writeDate dt).toList.length := by
    simp only [writeDate, String.toList_ofList, Rfc3339.write, List.length_append, List.length_cons]
    have zone : "+00:00".toList.length = 6 := rfl
    omega
  constructor
  · intro same
    rw [same] at long
    exact absurd long (by decide)
  · intro same
    rw [same] at long
    exact absurd long (by decide)

theorem parse_write (dt : DateTime) :
    wire.parseFromRfc3339 (wire.toRfc3339 dt) = readDate (writeDate dt) := by
  simp only [wire]

theorem calendar : wire.Calendar where
  timestampOpt_some seconds nanos dt accepted := by
    obtain ⟨⟨_, _, fraction⟩, rfl⟩ := timestampOpt_eq_some.mp accepted
    exact ⟨rfl, fraction⟩
  timestampOpt_accepts seconds nanos year fraction := by
    obtain ⟨first, last⟩ := year
    exact timestampOpt_eq_some.mpr ⟨⟨by omega, by omega, fraction⟩, rfl⟩
  rfc3339_read seconds nanos dt accepted year := by
    obtain ⟨⟨_, _, fraction⟩, rfl⟩ := timestampOpt_eq_some.mp accepted
    rw [parse_write, readDate_writeDate year fraction]
  rfc3339_signed seconds nanos dt accepted year := by
    obtain ⟨_, rfl⟩ := timestampOpt_eq_some.mp accepted
    have unread := Rfc3339.read_write_signed nanos.toNat year
    simp only [parse_write, readDate, writeDate, String.toList_ofList, unread, Option.map_none]
  rfc3339_notBool := writeDate_notBool

theorem lawful : wire.Lawful where
  read_back := PlainWire.lawful.read_back
  kind_ofString _ := rfl
  kind_null := rfl
  entries_nodup := PlainWire.entries_nodup
  mem_entries := PlainWire.mem_entries
  timestampOpt_valid _ valid := calendar.timestampOpt_civil valid.civil
  rfc3339_valid _ valid :=
    calendar.rfc3339_read _ _ _ (calendar.timestampOpt_civil valid.civil) valid.civil.1
  rfc3339_true := by decide
  rfc3339_false := by decide

/-- A status of the operator, its wake as two texts. -/
def statusMessage (device state seconds nanos : String) : StringMessage :=
  ⟨none, FlatJson.write [("device", .string device), ("source", .string "EPICS"),
    ("state", .string state), ("user", .string "operator"), ("seconds", .string seconds),
    ("nanos", .string nanos)]⟩

def started (enabled : String) : World Scalar :=
  World.empty.run wire PlainWire.publishers
    [(PlainWire.env, .hydrate "plant" (PlainWire.configMessage "pump" enabled))]

end AlarmSync.CivilWire
