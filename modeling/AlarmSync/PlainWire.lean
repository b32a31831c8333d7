import AlarmSync.FlatJson
import AlarmSync.Runtime
import Mathlib

/-! A concrete wire on which the model can be run: JSON objects of nulls, Booleans and
texts, hash map entries in the order of their names, and dates as numbers. -/
namespace AlarmSync.PlainWire
open FlatJson

def lookup (members : List Member) (name : String) : Option String :=
  match members.lookup name with
  | some (.string s) => some s
  | _ => none

def stateOfName : String → State
  | "OK" => .ok
  | "ALARMED" => .alarmed
  | "ACKNOWLEDGED" => .acknowledged
  | "BYPASSED" => .bypassed
  | "UNBYPASSED" => .unbypassed
  | _ => .unknown

/-- A status without a wake. -/
def readStatus (text : String) : Option Status := do
  let members ← FlatJson.read text
  let device ← lookup members "device"
  let source ← lookup members "source"
  let state ← lookup members "state"
  let user ← lookup members "user"
  return { device, source := if source = "EPICS" then .epics else .other 0,
           state := stateOfName state, wake := none, user }

/-- Seconds and nanoseconds in one number, behind a mark that no other `enabled` text has. -/
def writeDate (dt : DateTime) : String :=
  "@" ++ (dt.timestamp.toInt * 4294967296 + dt.timestampSubsecNanos.toNat).repr

def readDate (text : String) : Option DateTime :=
  match text.toList with
  | '@' :: digits => (String.ofList digits).toInt?.map fun n =>
      ⟨.ofInt (n / 4294967296), .ofNat (n % 4294967296).toNat⟩
  | _ => none

def entries (m : Settings Scalar) : List Member :=
  (m.keys.sort (· ≤ ·)).filterMap fun k => (m.lookup k).map (k, ·)

def wire : Wire Scalar where
  fromStr text := (FlatJson.read text).map .object
  toStr := FlatJson.write
  kind
    | .null => .null
    | .bool b => .bool b
    | .string s => .string s
  null := .null
  ofString := .string
  entries := entries
  statusFromStr := readStatus
  parseFromRfc3339 := readDate
  toRfc3339 := writeDate
  timestampOpt seconds nanos := if nanos < 1000000000 then some ⟨seconds, nanos⟩ else none

theorem readDate_writeDate (dt : DateTime) : readDate (writeDate dt) = some dt := by
  have nanos : dt.timestampSubsecNanos.toNat < 4294967296 := dt.timestampSubsecNanos.toNat_lt
  have seconds : (dt.timestamp.toInt * 4294967296 + dt.timestampSubsecNanos.toNat) / 4294967296 =
      dt.timestamp.toInt := by omega
  have rest : ((dt.timestamp.toInt * 4294967296 + dt.timestampSubsecNanos.toNat) %
      4294967296).toNat =
      dt.timestampSubsecNanos.toNat := by omega
  have digits : (writeDate dt).toList = '@' ::
      (dt.timestamp.toInt * 4294967296 + dt.timestampSubsecNanos.toNat).repr.toList := by
    simp [writeDate]
  simp only [readDate, digits, String.ofList_toList, Int.toInt?_repr,
    Option.map_some, seconds, rest, Int64.ofInt_toInt, UInt32.ofNat_toNat]

theorem mem_entries (m : Settings Scalar) (k : String) (v : Scalar) :
    (k, v) ∈ entries m ↔ m.lookup k = some v := by
  simp only [entries, List.mem_filterMap, Finset.mem_sort, Finmap.mem_keys, Option.map_eq_some_iff,
    Prod.mk.injEq]
  constructor
  · rintro ⟨k, _, v, found, rfl, rfl⟩
    exact found
  · intro found
    exact ⟨k, Finmap.lookup_isSome.mp (by simp [found]), v, found, rfl, rfl⟩

theorem entries_nodup (m : Settings Scalar) : ((entries m).map Prod.fst).Nodup := by
  have names : ∀ ks : List String,
      ((ks.filterMap fun k => (m.lookup k).map (k, ·)).map Prod.fst).Sublist ks := by
    intro ks
    induction ks with
    | nil => exact List.Sublist.slnil
    | cons k ks ih =>
        cases found : m.lookup k with
        | none => simpa [found] using ih.cons k
        | some v => simpa [found] using ih.cons_cons k
  exact (names _).nodup (Finset.sort_nodup _ _)

theorem lawful : wire.Lawful where
  read_back members := by simp only [wire, read_write, Option.map_some]
  kind_ofString _ := rfl
  kind_null := rfl
  entries_nodup := entries_nodup
  mem_entries := mem_entries
  timestampOpt_valid t valid := by
    obtain ⟨_, _, nonneg, small⟩ := valid
    have nanos : t.nanos.toUInt32 < 1000000000 := by
      have bound : (1000000000 : UInt32).toNat = 1000000000 := rfl
      have cast := toNat_toUInt32 t.nanos
      rw [UInt32.lt_iff_toNat_lt]
      split_ifs at cast <;> omega
    simp [wire, nanos, Timestamp.dateTime]
  rfc3339_valid t _ := readDate_writeDate t.dateTime
  rfc3339_true := by decide
  rfc3339_false := by decide

/-! Messages of one plant on this wire. -/

def configMessage (device enabled : String) : StringMessage :=
  ⟨some (Controls.getPhoebusKey .config "/plant" device),
    Config.toStr wire ⟨some enabled, "console", "operator", ∅⟩⟩

/-- The config that mirrors a status of the operator. -/
def mirroredConfig (device enabled : String) : StringMessage :=
  ⟨some (Controls.getPhoebusKey .config "/plant" device),
    Config.toStr wire ⟨some enabled, Controls.controlsHost, "operator", ∅⟩⟩

def commandMessage (device : String) : StringMessage :=
  ⟨some (Controls.getPhoebusKey .command "/plant" device),
    Command.toStr wire ⟨"operator", "console", ackCommand⟩⟩

def stateMessage (device severity : String) : StringMessage :=
  ⟨some ("state:/plant/" ++ device), FlatJson.write [("severity", .string severity)]⟩

def statusMessage (device state : String) : StringMessage :=
  ⟨none, FlatJson.write [("device", .string device), ("source", .string "EPICS"),
    ("state", .string state), ("user", .string "operator")]⟩

/-- A reading of the clock at its origin, and a network that works. -/
def env : Env := ⟨0, true, ⟨true, true, true⟩⟩

def publishers : List String := Controls.phoebusPublishers ["plant"]

def monitored : Bool → String
  | false => "plant"
  | true => getCommandTopic "plant"

def started (enabled : String) : World Scalar :=
  World.empty.run wire publishers [(env, .hydrate "plant" (configMessage "pump" enabled))]

end AlarmSync.PlainWire
