import AlarmSync.Register
import AlarmSync.Scope

/-! Acknowledgements of a device whose alarm came back. -/
namespace AlarmSync

variable {Value : Type}

/-- The device that a message is about, if it can be told. -/
def Message.deviceOf (w : Wire Value) : Message → Option String
  | controls msg => (w.statusFromStr msg.value).map (·.device)
  | phoebus _ msg => msg.key.bind fun keyStr => (Key.parse keyStr).toOption.map (·.device)

theorem deviceOf_keyOf (w : Wire Value) (topic : String) {operation : Operation}
    {msg : StringMessage} {key : Key} (keyed : keyOf operation msg = some key) :
    (Message.phoebus topic msg).deviceOf w = some key.device := by
  obtain ⟨keyStr, given, parsed, _⟩ := keyOf_eq_some.mp keyed
  simp [Message.deviceOf, given, parsed, Except.toOption]

/-- An acknowledgement of `d`, from either system, and the wake that it carries. -/
def Message.acknowledges (w : Wire Value) (d : String) : Message → Option (Option Timestamp)
  | controls msg => do
    let alarm ← w.statusFromStr msg.value
    guard (alarm.source = .epics ∧ alarm.device = d ∧ alarm.state = .acknowledged)
    return alarm.wake
  | phoebus _ msg => do
    let (key, _) ← acknowledgeCommand w msg
    guard (key.device = d)
    return none

/-- An EPICS status by which the alarm of `d` comes back. -/
def Message.realarms (w : Wire Value) (d : String) : Message → Prop
  | controls msg => ∃ alarm, w.statusFromStr msg.value = some alarm ∧ alarm.source = .epics ∧
      alarm.device = d ∧ alarm.state = .alarmed
  | phoebus .. => False

def Message.origin (publishers : List String) (pvMetadata : PvMetadata Value) :
    Message → Register.Origin
  | controls _ => .controls (decide (pvMetadata.phoebusTopic ++ "Command" ∈ publishers))
  | phoebus .. => .phoebus

theorem observed_deviceOf {w : Wire Value} {publishers : List String} {now : Int}
    {metadata : String → Option (PvMetadata Value)} {m : Message} {device : String}
    {i : Register.Intent} (seen : m.observed w publishers now metadata = some (device, i)) :
    m.deviceOf w = some device := by
  cases m with
  | controls msg =>
      simp only [Message.observed, Option.bind_eq_bind, Option.bind_eq_some_iff,
        Option.guard_eq_some', Option.pure_def, Option.some.injEq, Prod.mk.injEq] at seen
      obtain ⟨alarm, read, _, _, _, _, _, _, rfl, _⟩ := seen
      simp [Message.deviceOf, read]
  | phoebus topic msg =>
      simp only [Message.observed] at seen
      rcases valid : validConfig w now msg with _ | ⟨key, config, state⟩
      · simp only [valid, Option.map_eq_some_iff, Prod.mk.injEq] at seen
        obtain ⟨⟨key, command⟩, ack, rfl, _⟩ := seen
        exact deviceOf_keyOf w topic (acknowledgeCommand_eq_some.mp ack).1
      · simp only [valid, Option.some.injEq, Prod.mk.injEq] at seen
        obtain ⟨rfl, _⟩ := seen
        exact deviceOf_keyOf w topic (validConfig_eq_some.mp valid).1

theorem observedFor_acknowledges {w : Wire Value} {publishers : List String} {d : String}
    {world : World Value} {now : Int} {m : Message} {pvMetadata : PvMetadata Value}
    {wake : Option Timestamp} (known : world.metadata d = some pvMetadata)
    (ack : m.acknowledges w d = some wake) :
    m.observedFor d w publishers now world.metadata =
      some ⟨m.origin publishers pvMetadata, ⟨.acknowledged, wake⟩⟩ := by
  cases m with
  | controls msg =>
      simp only [Message.acknowledges, Option.bind_eq_bind, Option.bind_eq_some_iff,
        Option.guard_eq_some', Option.pure_def, Option.some.injEq] at ack
      obtain ⟨alarm, read, _, ⟨source, rfl, state⟩, rfl⟩ := ack
      simp [Message.observedFor, Message.observed, read, source, known, state, mirrorTopic,
        Message.origin, CachedState.ofStatus]
  | phoebus topic msg =>
      simp only [Message.acknowledges, Option.bind_eq_bind, Option.bind_eq_some_iff,
        Option.guard_eq_some', Option.pure_def, Option.some.injEq] at ack
      obtain ⟨⟨key, command⟩, acked, _, rfl, rfl⟩ := ack
      have notConfig : validConfig w now msg = none := acknowledge_excludes_config acked
      simp [Message.observedFor, Message.observed, notConfig, acked, Message.origin]

theorem observedFor_realarms {w : Wire Value} {publishers : List String} {d : String}
    {world : World Value} {now : Int} {m : Message} (realarm : m.realarms w d) :
    m.observedFor d w publishers now world.metadata = none := by
  cases m with
  | controls msg =>
      obtain ⟨alarm, read, source, rfl, state⟩ := realarm
      cases known : world.metadata alarm.device <;>
        simp [Message.observedFor, Message.observed, read, source, known, state]
  | phoebus topic msg => exact realarm.elim

theorem ignores_acknowledgement {r : Option CachedState} {wake : Option Timestamp} :
    Register.ignores r ⟨.acknowledged, wake⟩ = false ↔
      ∀ x, r = some x → x.state ≠ .bypassed ∧ x ≠ ⟨.acknowledged, wake⟩ := by
  cases r with
  | none => simp [Register.ignores]
  | some x => simp [Register.ignores, and_comm]

theorem next_acknowledgement {r : Option CachedState} {origin : Register.Origin}
    {wake : Option Timestamp} (notBypassed : r.any (·.state == .bypassed) = false) :
    Register.next r ⟨origin, ⟨.acknowledged, wake⟩⟩ = some ⟨.acknowledged, wake⟩ := by
  by_cases same : r = some ⟨.acknowledged, wake⟩
  · simp [Register.next, same]
  · simp [Register.next, Register.ignores, notBypassed, same]

section
variable [DecidableEq Value] (w : Wire Value) (publishers : List String) (d : String)

theorem step_quiet (world : World Value) (env : Env) {m : Message} (quiet : m.deviceOf w ≠ some d) :
    let world' := world.step w publishers (env, .handle m)
    world'.alarmState d = world.alarmState d ∧ world'.metadata d = world.metadata d := by
  have unseen : m.observedFor d w publishers env.now world.metadata = none := by
    unfold Message.observedFor
    rcases seen : m.observed w publishers env.now world.metadata with _ | ⟨device, i⟩
    · rfl
    · have ne : device ≠ d := fun same => quiet (same ▸ observed_deviceOf seen)
      simp [ne]
  have entry := step_refines_register w publishers d world env m
  simp only [unseen] at entry
  refine ⟨entry.1, ?_⟩
  rw [metadata_step_handle]
  cases m with
  | controls msg => rfl
  | phoebus topic msg =>
      rcases valid : validConfig w env.now msg with _ | ⟨key, config, state⟩
      · simp only [valid]
      · have ne : d ≠ key.device := by
          rintro rfl
          exact quiet (deviceOf_keyOf w topic (validConfig_eq_some.mp valid).1)
        simp [valid, ne]

theorem handleAll_quiet (world : World Value) {messages : List (Env × Message)}
    (quiet : ∀ e ∈ messages, e.2.deviceOf w ≠ some d) :
    let world' := world.handleAll w publishers messages
    world'.alarmState d = world.alarmState d ∧ world'.metadata d = world.metadata d := by
  induction messages generalizing world with
  | nil => exact ⟨rfl, rfl⟩
  | cons e rest ih =>
      have one := step_quiet w publishers d world e.1 (quiet e List.mem_cons_self)
      have later := ih (world.step w publishers (e.1, .handle e.2))
        fun e' member => quiet e' (List.mem_cons_of_mem e member)
      exact ⟨later.1.trans one.1, later.2.trans one.2⟩

def Message.passedOn : Message → Conveyance
  | controls _ => .publish .command
  | phoebus .. => .acknowledge

theorem acknowledgement_passed_on_iff {world : World Value} (env : Env) {m : Message}
    {pvMetadata : PvMetadata Value} {wake : Option Timestamp}
    (known : world.metadata d = some pvMetadata) (ack : m.acknowledges w d = some wake) :
    (world.step w publishers (env, .handle m)).callsFor d =
        world.callsFor d ++ [some m.passedOn] ↔
      Register.ignores (world.alarmState d) ⟨.acknowledged, wake⟩ = false ∧
        (m.origin publishers pvMetadata).routable = true := by
  have entry := step_refines_register w publishers d world env m
  simp only [observedFor_acknowledges known ack] at entry
  have conveyed : Register.convey
      ⟨m.origin publishers pvMetadata, ⟨.acknowledged, wake⟩⟩ = m.passedOn := by
    cases m with
    | controls msg => simp [Message.origin, Register.convey, mirrorOperation, Message.passedOn]
    | phoebus topic msg => simp [Message.origin, Register.convey, Message.passedOn]
  rw [entry.2, List.append_cancel_left_eq, Register.output, conveyed]
  cases Register.ignores (world.alarmState d) ⟨.acknowledged, wake⟩ <;>
    cases (m.origin publishers pvMetadata).routable <;> simp

/-- A device in scope is acknowledged, its alarm comes back, and the next message for it is
an acknowledgement again. Whatever came before the alarm, the second acknowledgement is
passed on exactly if the entry at the alarm is neither a bypass nor already that
acknowledgement (and a publisher for it exists). Directly after the first acknowledgement
this means that their wakes differ. -/
theorem second_acknowledgement_passed_on_iff (world : World Value)
    (first alarm second : Env × Message) (since meanwhile : List (Env × Message))
    (wake wake' : Option Timestamp) (inScope : world.inScope d)
    (ack : first.2.acknowledges w d = some wake) (realarm : alarm.2.realarms w d)
    (quiet : ∀ e ∈ meanwhile, e.2.deviceOf w ≠ some d)
    (ack' : second.2.acknowledges w d = some wake')
    (notBypassed : (world.alarmState d).any (·.state == .bypassed) = false) :
    let atAlarm := world.handleAll w publishers (first :: since)
    let before := atAlarm.handleAll w publishers (alarm :: meanwhile)
    let after := before.step w publishers (second.1, .handle second.2)
    let routable := (before.metadata d).any fun known => (second.2.origin publishers known).routable
    (after.callsFor d = before.callsFor d ++ [some second.2.passedOn] ↔
        (∀ x, atAlarm.alarmState d = some x → x.state ≠ .bypassed ∧ x ≠ ⟨.acknowledged, wake'⟩) ∧
          routable = true) ∧
      ((∀ e ∈ since, e.2.deviceOf w ≠ some d) →
        (after.callsFor d = before.callsFor d ++ [some second.2.passedOn] ↔
          wake ≠ wake' ∧ routable = true)) := by
  intro atAlarm before after routable
  have entryBefore : before.alarmState d = atAlarm.alarmState d := by
    have back := step_refines_register w publishers d atAlarm alarm.1 alarm.2
    simp only [observedFor_realarms realarm] at back
    exact (handleAll_quiet w publishers d _ quiet).1.trans back.1
  have inScopeBefore : before.inScope d := by
    simp only [before, atAlarm, World.handleAll]
    exact inScope_mono w publishers d (inScope_mono w publishers d inScope _) _
  obtain ⟨pvMetadata, known⟩ := Option.isSome_iff_exists.mp inScopeBefore
  have passed := acknowledgement_passed_on_iff w publishers d second.1 known ack'
  rw [entryBefore, ignores_acknowledgement] at passed
  have routed : routable = (second.2.origin publishers pvMetadata).routable := by
    simp [routable, known]
  rw [← routed] at passed
  refine ⟨passed, fun quietSince => ?_⟩
  have entryAtAlarm : atAlarm.alarmState d = some ⟨.acknowledged, wake⟩ := by
    obtain ⟨pvMetadata, known⟩ := Option.isSome_iff_exists.mp inScope
    have acked := step_refines_register w publishers d world first.1 first.2
    simp only [observedFor_acknowledges known ack] at acked
    have recorded := (handleAll_quiet w publishers d _ quietSince).1.trans acked.1
    exact recorded.trans (next_acknowledgement notBypassed)
  rw [passed, entryAtAlarm]
  simp

end

open PlainWire in
theorem second_acknowledgement_passed_on_after_unbypass :
    let atAlarm := (started "true").handleAll wire publishers
      [(env, .controls (statusMessage "pump" "ACKNOWLEDGED")),
        (env, .controls (statusMessage "pump" "UNBYPASSED"))]
    let before := atAlarm.handleAll wire publishers
      [(env, .controls (statusMessage "pump" "ALARMED"))]
    let after := before.step wire publishers
      (env, .handle (.phoebus "plantCommand" (commandMessage "pump")))
    after.callsFor "pump" = before.callsFor "pump" ++ [some .acknowledge] :=
  (second_acknowledgement_passed_on_iff wire publishers "pump" (started "true")
    (env, .controls (statusMessage "pump" "ACKNOWLEDGED"))
    (env, .controls (statusMessage "pump" "ALARMED"))
    (env, .phoebus "plantCommand" (commandMessage "pump"))
    [(env, .controls (statusMessage "pump" "UNBYPASSED"))] [] none none
    (by unfold World.inScope; decide +kernel) (by decide +kernel)
    ⟨⟨"pump", .epics, .alarmed, none, "operator"⟩, by decide +kernel, rfl, rfl, rfl⟩ (by simp)
    (by decide +kernel) (by decide +kernel)).1.mpr
    ⟨fun x entry => by
      have unbypassed : some x = some (.ofBool true) := entry.symm.trans (by decide +kernel)
      cases unbypassed
      decide, by decide +kernel⟩

open PlainWire in
/-- Acknowledge, alarm again, acknowledge: the second acknowledgement is lost. -/
theorem second_acknowledgement_lost : ¬ ∀ (publishers : List String) (d : String)
    (events : List (Env × Event)) (first alarm second : Env × Message)
    (meanwhile : List (Env × Message)) (wake wake' : Option Timestamp),
    let world := World.empty.run wire publishers events
    let before := world.handleAll wire publishers (first :: alarm :: meanwhile)
    world.inScope d → (world.alarmState d).any (·.state == .bypassed) = false →
    first.2.acknowledges wire d = some wake → alarm.2.realarms wire d →
    (∀ e ∈ meanwhile, e.2.deviceOf wire ≠ some d) → second.2.acknowledges wire d = some wake' →
    (before.step wire publishers (second.1, .handle second.2)).callsFor d =
      before.callsFor d ++ [some second.2.passedOn] := by
  intro claim
  have passed := claim publishers "pump" [(env, .hydrate "plant" (configMessage "pump" "true"))]
    (env, .controls (statusMessage "pump" "ACKNOWLEDGED"))
    (env, .controls (statusMessage "pump" "ALARMED"))
    (env, .controls (statusMessage "pump" "ACKNOWLEDGED")) [] none none
    (by unfold World.inScope; decide +kernel) (by decide +kernel) (by decide +kernel)
    ⟨⟨"pump", .epics, .alarmed, none, "operator"⟩, by decide +kernel, rfl, rfl, rfl⟩ (by simp)
    (by decide +kernel)
  revert passed
  decide +kernel

end AlarmSync
