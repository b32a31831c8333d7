import AlarmSync.KeyFormat
import AlarmSync.Runtime

/-! What the Controls side publishes is read back as it was meant: the record and the enablement,
at any clock reading before its wake. -/
namespace AlarmSync

variable {Value : Type}

theorem foldl_insert_lookup {members : List (String × Value)} (nodup : (members.map Prod.fst).Nodup)
    (m : Settings Value) (k : String) (v : Value) :
    (members.foldl (fun m e => m.insert e.1 e.2) m).lookup k = some v ↔
      (k, v) ∈ members ∨ k ∉ members.map Prod.fst ∧ m.lookup k = some v := by
  induction members generalizing m with
  | nil => simp
  | cons e rest ih =>
      obtain ⟨name, value⟩ := e
      simp only [List.map_cons, List.nodup_cons] at nodup
      rw [List.foldl_cons, ih nodup.2]
      by_cases same : k = name
      · subst same
        have absent : ∀ v, (k, v) ∉ rest := fun v member =>
          nodup.1 (List.mem_map.mpr ⟨_, member, rfl⟩)
        simp [nodup.1, absent, eq_comm]
      · simp [same, Finmap.lookup_insert_of_ne]

theorem flatten_members {w : Wire Value} (lawful : w.Lawful) {c : Config Value}
    (unnamed : c.phoebusSpecific.Unnamed) : flatten (c.members w) = c.phoebusSpecific := by
  have free : ∀ e ∈ w.entries c.phoebusSpecific, isNamed e.1 = false := by
    rintro ⟨k, v⟩ member
    cases named : isNamed k with
    | false => rfl
    | true =>
        have found := (lawful.mem_entries _ k v).mp member
        rw [unnamed k named] at found
        cases found
  have specific : (c.members w).filter (fun e => !isNamed e.1) = w.entries c.phoebusSpecific := by
    have enabled : isNamed "enabled" = true := rfl
    have host : isNamed "host" = true := rfl
    have user : isNamed "user" = true := rfl
    simp only [Config.members, List.filter_cons, enabled, host, user, Bool.not_true,
      Bool.false_eq_true, if_false]
    exact List.filter_eq_self.mpr fun e member => by simp [free e member]
  rw [flatten, specific]
  apply Finmap.ext_lookup
  intro k
  ext v
  rw [foldl_insert_lookup (lawful.entries_nodup _), lawful.mem_entries]
  simp

theorem Config.fromStr_toStr {w : Wire Value} (lawful : w.Lawful) {c : Config Value}
    (unnamed : c.phoebusSpecific.Unnamed) : Config.fromStr w (c.toStr w) = some c := by
  have entry : ∀ name, isNamed name = true → ∀ e ∈ w.entries c.phoebusSpecific, e.1 ≠ name := by
    rintro name named ⟨k, v⟩ member rfl
    have found := (lawful.mem_entries _ k v).mp member
    rw [unnamed k named] at found
    cases found
  have enabled : field (c.members w) "enabled" = some (some (c.enabled.elim w.null w.ofString)) :=
    field_cons_self _ (by
      intro e member
      simp only [List.mem_cons] at member
      rcases member with rfl | rfl | member
      · simp
      · simp
      · exact entry _ rfl e member)
  have host : field (c.members w) "host" = some (some (w.ofString c.host)) := by
    rw [Config.members, field_cons_of_ne (by decide)]
    refine field_cons_self _ ?_
    intro e member
    rcases List.mem_cons.mp member with rfl | member
    · simp
    · exact entry _ rfl e member
  have user : field (c.members w) "user" = some (some (w.ofString c.user)) := by
    rw [Config.members, field_cons_of_ne (by decide), field_cons_of_ne (by decide)]
    exact field_cons_self _ (entry _ rfl)
  have enabledRead : enabledField w (c.members w) = some c.enabled := by
    rw [enabledField, enabled]
    cases c.enabled with
    | none => simp [boolOrString, lawful.kind_null]
    | some text => simp [boolOrString, lawful.kind_ofString]
  simp only [Config.fromStr, Config.toStr, lawful.read_back, enabledRead,
    Wire.stringField, host, user, Option.bind_some, lawful.asString_ofString,
    flatten_members lawful unnamed, Option.bind_eq_bind, Option.pure_def]

theorem Command.fromStr_toStr {w : Wire Value} (lawful : w.Lawful) (c : Command) :
    Command.fromStr w (c.toStr w) = some c := by
  simp [Command.fromStr, Command.toStr, lawful.read_back, Wire.stringField, field,
    lawful.asString_ofString]

/-- An enablement that an operator can ask for, whose wake is a valid time after `horizon`. -/
def CachedState.Timely (horizon : Int) (x : CachedState) : Prop :=
  x = .ofBool true ∨ x = .bypassed ∨
    ∃ t, x = ⟨.bypassed, some t⟩ ∧ t.Valid ∧ horizon < t.dateTime.timestampMillis

theorem CachedState.Timely.enablement {horizon : Int} {x : CachedState}
    (timely : x.Timely horizon) : x.Enablement := by
  rcases timely with rfl | rfl | ⟨t, rfl, _⟩
  · exact .inr rfl
  · exact .inl rfl
  · exact .inl rfl

/-- The enabled text of a timely status decodes to its state until the wake. -/
theorem asCachedState_published {w : Wire Value} (lawful : w.Lawful) {horizon now : Int}
    {alarm : Status} (timely : (CachedState.ofStatus alarm).Timely horizon) (clock : now ≤ horizon)
    {c : Config Value}
    (enabled : c.enabled = (Controls.normalizedEnablementFromControls w alarm).asEnabledString w) :
    c.asCachedState w now = .ok (.ofStatus alarm) := by
  unfold Config.asCachedState Config.normalizeEnablement
  rw [enabled]
  rcases timely with active | bypassed | ⟨t, snoozed, valid, future⟩
  · have state : alarm.state = .unbypassed := congrArg CachedState.state active
    simp [Controls.normalizedEnablementFromControls, state, NormalizedEnablement.asEnabledString,
      lawful.rfc3339_true, NormalizedEnablement.asCachedState, active, Except.map]
  · have state : alarm.state = .bypassed := congrArg CachedState.state bypassed
    have wake : alarm.wake = none := congrArg CachedState.wake bypassed
    simp [Controls.normalizedEnablementFromControls, state, wake,
      NormalizedEnablement.asEnabledString, lawful.rfc3339_false,
      NormalizedEnablement.asCachedState, bypassed, Except.map]
  · have state : alarm.state = .bypassed := congrArg CachedState.state snoozed
    have wake : alarm.wake = some t := congrArg CachedState.wake snoozed
    have later : t.dateTime.timestampMillis > now := by omega
    simp only [Controls.normalizedEnablementFromControls, state, wake, if_true, Option.bind_some,
      lawful.timestampOpt_valid t valid, NormalizedEnablement.asEnabledString,
      lawful.rfc3339_valid t valid, Except.map, NormalizedEnablement.asCachedState,
      CachedState.ofDateTime, later, snoozed]
    simp [Timestamp.dateTime]

theorem validConfig_published {w : Wire Value} (lawful : w.Lawful) {horizon now : Int}
    {alarm : Status} (timely : (CachedState.ofStatus alarm).Timely horizon) (clock : now ≤ horizon)
    (addressable : Addressable alarm.device) {pvMetadata : PvMetadata Value}
    (unnamed : pvMetadata.phoebusConfigMetadata.Unnamed) {message : StringMessage}
    (published : Controls.controlsToPhoebus w alarm .config pvMetadata = some message) :
    ∃ config, validConfig w now message =
        some (⟨alarm.device, pvMetadata.displayPath, .config⟩, config, .ofStatus alarm) ∧
      config.phoebusSpecific = pvMetadata.phoebusConfigMetadata := by
  cases published
  refine ⟨_, validConfig_eq_some.mpr ⟨?_, Config.fromStr_toStr lawful unnamed, ?_⟩, rfl⟩
  · exact keyOf_eq_some.mpr ⟨_, rfl, Key.parse_getPhoebusKey _ _ addressable, rfl⟩
  · exact asCachedState_published lawful timely clock rfl

/-- Reachable metadata: devices that keys can name, settings apart from the named fields. -/
def World.WellFormed (world : World Value) : Prop :=
  ∀ d pvMetadata, world.metadata d = some pvMetadata →
    Addressable d ∧ pvMetadata.phoebusConfigMetadata.Unnamed

theorem validConfig_wellFormed {w : Wire Value} {now : Int} {msg : StringMessage} {key : Key}
    {config : Config Value} {state : CachedState}
    (valid : validConfig w now msg = some (key, config, state)) :
    Addressable key.device ∧ config.phoebusSpecific.Unnamed := by
  obtain ⟨keyed, read, _⟩ := validConfig_eq_some.mp valid
  obtain ⟨keyStr, _, parsed, _⟩ := keyOf_eq_some.mp keyed
  exact ⟨Key.parse_addressable parsed, Config.fromStr_unnamed read⟩

section
variable [DecidableEq Value] {w : Wire Value} {publishers : List String}

theorem wellFormed_step {world : World Value} (wellFormed : world.WellFormed) (e : Env × Event) :
    (world.step w publishers e).WellFormed := by
  intro d pvMetadata known
  rcases metadata_step_cases w publishers world d known with
    before | ⟨topic, msg, key, config, state, valid, rfl, ⟨_, rfl⟩ | ⟨_, rfl⟩⟩
  · exact wellFormed d pvMetadata before
  · exact validConfig_wellFormed valid
  · exact validConfig_wellFormed valid

/-- A state that the program can be in between two messages. -/
def World.Reachable (w : Wire Value) (publishers : List String) (world : World Value) : Prop :=
  ∃ events, world = World.empty.run w publishers events

theorem wellFormed_run {world : World Value} (wellFormed : world.WellFormed)
    (events : List (Env × Event)) : (world.run w publishers events).WellFormed := by
  induction events generalizing world with
  | nil => exact wellFormed
  | cons e rest ih => exact ih (wellFormed_step wellFormed e)

theorem World.Reachable.wellFormed {world : World Value}
    (reachable : world.Reachable w publishers) : world.WellFormed := by
  obtain ⟨events, rfl⟩ := reachable
  exact wellFormed_run (fun d pvMetadata known => by cases known) events

end

end AlarmSync
