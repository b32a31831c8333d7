import AlarmSync.Text
import AlarmSync.Wire

/-! Phoebus records: keys, commands, configs, the meaning of `enabled`, and the
metadata kept for each device. -/
namespace AlarmSync

/-- The command that an acknowledgement is, on the wire. -/
def ackCommand : String := "acknowledge"

structure Command where
  user : String
  host : String
  command : String
  deriving DecidableEq, Repr

inductive NormalizedEnablement where
  | active
  | bypassed
  | snoozedUntil (dt : DateTime)
  deriving DecidableEq, Repr

inductive PhoebusParseError where
  | malformedMessage
  | unexpectedState
  deriving DecidableEq, Repr

inductive KeyParseError where
  | malformedStructure
  | unsupportedOperation
  | emptyDevice
  deriving DecidableEq, Repr

inductive Operation where
  | command | config | state
  deriving DecidableEq, Repr

structure Key where
  device : String
  displayPath : String
  operation : Operation
  deriving DecidableEq, Repr

variable {Value : Type}

structure Config (Value : Type) where
  enabled : Option String
  host : String
  user : String
  phoebusSpecific : Settings Value

structure PvMetadata (Value : Type) where
  phoebusConfigMetadata : Settings Value
  displayPath : String
  phoebusTopic : String

namespace Operation

def getKeyPrefix : Operation → String
  | command => "command"
  | config => "config"
  | state => "state"

def parse (value : String) : Option Operation :=
  if value = "command" then some command
  else if value = "config" then some config
  else if value = "state" then some state
  else none

end Operation

def Key.parse (value : String) : Except KeyParseError Key :=
  match RustText.splitOnce ':' value with
  | none => .error .malformedStructure
  | some (operationStr, pathWithDevice) =>
    match Operation.parse operationStr with
    | none => .error (if operationStr = "" then .malformedStructure else .unsupportedOperation)
    | some operation =>
      match RustText.rsplitOnce '/' pathWithDevice with
      | none => .error .malformedStructure
      | some (displayPath, device) =>
        if device = "" then .error .emptyDevice else .ok ⟨device, displayPath, operation⟩

namespace NormalizedEnablement

def asCachedState (now : Int) : NormalizedEnablement → CachedState
  | active => .ofBool true
  | bypassed => .bypassed
  | snoozedUntil dt => .ofDateTime now dt

def asEnabledString (w : Wire Value) : NormalizedEnablement → Option String
  | active => some "true"
  | bypassed => some "false"
  | snoozedUntil dt => some (w.toRfc3339 dt)

end NormalizedEnablement

/-- The `enabled` field as it may arrive: null, a text, or a Boolean kept as its text. -/
def boolOrString (w : Wire Value) (v : Value) : Option (Option String) :=
  match w.kind v with
  | .null => some none
  | .string s => some (some s)
  | .bool b => some (some (if b then "true" else "false"))
  | .other => none

/-- The `enabled` field with its default, the absent value. -/
def enabledField (w : Wire Value) (members : List (String × Value)) : Option (Option String) :=
  (field members "enabled").bind fun given => given.elim (some none) (boolOrString w)

/-- The names the `Config` record reads itself; every other member is Phoebus-specific. -/
def isNamed (name : String) : Bool := name == "enabled" || name == "host" || name == "user"

/-- `#[serde(flatten)]`: a repeated name keeps its last value. -/
def flatten (members : List (String × Value)) : Settings Value :=
  (members.filter fun e => !isNamed e.1).foldl (fun m e => m.insert e.1 e.2) ∅

/-- A derived reader also accepts the fields of an unflattened record as an array. -/
def Command.fromStr (w : Wire Value) (text : String) : Option Command :=
  match w.fromStr text with
  | some (.object members) => do
    let user ← w.stringField members "user"
    let host ← w.stringField members "host"
    let command ← w.stringField members "command"
    return { user, host, command }
  | some (.array [user, host, command]) => do
    let user ← w.asString user
    let host ← w.asString host
    let command ← w.asString command
    return { user, host, command }
  | _ => none

def Command.toStr (w : Wire Value) (c : Command) : String :=
  w.toStr [("user", w.ofString c.user), ("host", w.ofString c.host),
    ("command", w.ofString c.command)]

namespace Config

def fromStr (w : Wire Value) (text : String) : Option (Config Value) :=
  match w.fromStr text with
  | some (.object members) => do
    let enabled ← enabledField w members
    let host ← w.stringField members "host"
    let user ← w.stringField members "user"
    return { enabled, host, user, phoebusSpecific := flatten members }
  | _ => none

def members (w : Wire Value) (c : Config Value) : List (String × Value) :=
  ("enabled", c.enabled.elim w.null w.ofString) :: ("host", w.ofString c.host) ::
    ("user", w.ofString c.user) :: w.entries c.phoebusSpecific

def toStr (w : Wire Value) (c : Config Value) : String := w.toStr (c.members w)

def normalizeEnablement (w : Wire Value) (c : Config Value) :
    Except PhoebusParseError NormalizedEnablement :=
  match c.enabled with
  | none => .ok .bypassed
  | some value =>
    match w.parseFromRfc3339 value with
    | some dt => .ok (.snoozedUntil dt)
    | none =>
      if value = "true" then .ok .active
      else if value = "false" then .ok .bypassed
      else .error .malformedMessage

def asCachedState (w : Wire Value) (now : Int) (c : Config Value) :
    Except PhoebusParseError CachedState :=
  (c.normalizeEnablement w).map (·.asCachedState now)

end Config

def normalizeTopic (topic : String) : String := (RustText.stripSuffix topic "Command").getD topic

def PvMetadata.fromUnmapped (key : Key) (topic : String) : PvMetadata Value where
  phoebusConfigMetadata := ∅
  displayPath := key.displayPath
  phoebusTopic := normalizeTopic topic

/-- The name of the command topic of a base topic. -/
def getCommandTopic (topic : String) : String := topic ++ "Command"

theorem normalizeTopic_getCommandTopic (topic : String) :
    normalizeTopic (getCommandTopic topic) = topic := by
  simp only [normalizeTopic, getCommandTopic, RustText.stripSuffix_append, Option.getD_some]

theorem normalizeTopic_base {topic : String} (base : RustText.endsWith topic "Command" = false) :
    normalizeTopic topic = topic := by
  simp only [normalizeTopic, RustText.stripSuffix_eq_none base, Option.getD_none]

theorem normalizeTopic_eq_self_iff (topic : String) :
    normalizeTopic topic = topic ↔ RustText.endsWith topic "Command" = false := by
  refine ⟨fun same => ?_, normalizeTopic_base⟩
  rw [← Bool.not_eq_true]
  intro ends
  have length : ("Command".toList).length = 7 := rfl
  have long : 7 ≤ topic.toList.length := by
    obtain ⟨before, split⟩ := List.isSuffixOf_iff_suffix.mp ends
    rw [← split, List.length_append, length]
    omega
  have shorter := congrArg (fun s : String => s.toList.length) same
  simp only [normalizeTopic, RustText.stripSuffix, ends, if_true, Option.getD_some,
    String.toList_ofList, List.length_take, length] at shorter
  omega

theorem Operation.parse_getKeyPrefix (operation : Operation) :
    Operation.parse operation.getKeyPrefix = some operation := by
  cases operation <;> decide

theorem NormalizedEnablement.asCachedState_enablement (now : Int) (e : NormalizedEnablement) :
    (e.asCachedState now).Enablement := by
  cases e with
  | active => exact .inr rfl
  | bypassed => exact .inl rfl
  | snoozedUntil dt => exact CachedState.ofDateTime_enablement now dt

theorem Config.asCachedState_eq_ok_iff {w : Wire Value} {now : Int} {c : Config Value}
    {x : CachedState} :
    c.asCachedState w now = .ok x ↔ ∃ e, c.normalizeEnablement w = .ok e ∧
    e.asCachedState now = x := by
  unfold asCachedState
  cases c.normalizeEnablement w <;> simp [Except.map]

theorem Config.asCachedState_eq_error_iff {w : Wire Value} {now : Int} {c : Config Value}
    {e : PhoebusParseError} : c.asCachedState w now = .error e ↔
    c.normalizeEnablement w = .error e := by
  unfold asCachedState
  cases c.normalizeEnablement w <;> simp [Except.map]

/-- A config decodes to an enablement at every clock reading, or at none. -/
theorem Config.asCachedState_enablement {w : Wire Value} {now : Int} {c : Config Value}
    {x : CachedState} (decoded : c.asCachedState w now = .ok x) : x.Enablement := by
  obtain ⟨e, _, rfl⟩ := Config.asCachedState_eq_ok_iff.mp decoded
  exact e.asCachedState_enablement now

/-- Settings hold none of the names that the `Config` record reads itself. -/
def Settings.Unnamed (m : Settings Value) : Prop := ∀ k, isNamed k = true → m.lookup k = none

theorem foldl_insert_unnamed {members : List (String × Value)} {m : Settings Value}
    (start : m.Unnamed) (free : ∀ e ∈ members, isNamed e.1 = false) :
    Settings.Unnamed (members.foldl (fun m e => m.insert e.1 e.2) m) := by
  induction members generalizing m with
  | nil => exact start
  | cons e rest ih =>
      apply ih
      · intro k named
        have ne : k ≠ e.1 := by
          rintro rfl
          exact absurd named (by simp [free e List.mem_cons_self])
        rw [Finmap.lookup_insert_of_ne _ ne]
        exact start k named
      · exact fun e' member => free e' (List.mem_cons_of_mem e member)

theorem flatten_unnamed (members : List (String × Value)) : (flatten members).Unnamed :=
  foldl_insert_unnamed (fun _ _ => Finmap.lookup_empty _) fun e member => by
    simpa using (List.mem_filter.mp member).2

theorem Config.fromStr_unnamed {w : Wire Value} {text : String} {c : Config Value}
    (read : Config.fromStr w text = some c) : c.phoebusSpecific.Unnamed := by
  unfold fromStr at read
  split at read
  · rename_i members _
    simp only [bind, Option.bind_eq_some_iff] at read
    obtain ⟨_, _, _, _, _, _, same⟩ := read
    cases same
    exact flatten_unnamed members
  · cases read

end AlarmSync
