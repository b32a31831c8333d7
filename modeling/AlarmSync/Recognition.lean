import AlarmSync.Enablement
import AlarmSync.Published

/-! A published message that comes back: what the monitor of its topic takes it for, and when it
recognises its own message. -/
namespace AlarmSync

variable {Value : Type}

/-- The state that the message published for a status is read as, if it is read as one. -/
def Status.echoed (w : Wire Value) (now : Int) (alarm : Status) : Option CachedState :=
  if alarm.state = .acknowledged then some ⟨.acknowledged, none⟩
  else if alarm.state = .bypassed then
    match alarm.wake with
    | none => some .bypassed
    | some t =>
      match w.timestampOpt t.seconds t.nanos.toUInt32 with
      | none => some .bypassed
      | some dt => if FourDigitYear t.seconds then some (.ofDateTime now dt) else none
  else some (.ofBool true)

theorem asCachedState_echoed {w : Wire Value} (lawful : w.Lawful)
    (calendar : w.Calendar) (now : Int) {alarm : Status} (notAck : alarm.state ≠ .acknowledged)
    {c : Config Value} (enabled : c.enabled =
      (Controls.normalizedEnablementFromControls w alarm).asEnabledString w) :
    (c.asCachedState w now).toOption = alarm.echoed w now := by
  unfold Config.asCachedState Status.echoed
  rw [normalizeEnablement_published lawful calendar enabled, if_neg notAck]
  by_cases bypassed : alarm.state = .bypassed
  · rw [if_pos bypassed, if_pos bypassed]
    cases alarm.wake with
    | none => rfl
    | some t =>
        cases accepted : w.timestampOpt t.seconds t.nanos.toUInt32 with
        | none => simp [accepted, Except.map, Except.toOption, NormalizedEnablement.asCachedState]
        | some dt =>
            by_cases year : FourDigitYear t.seconds <;>
              simp [accepted, year, Except.map, Except.toOption, NormalizedEnablement.asCachedState]
  · rw [if_neg bypassed, if_neg bypassed]
    rfl

theorem published_intent {w : Wire Value} (lawful : w.Lawful) (calendar : w.Calendar)
    {alarm : Status} {operation : Operation} {pvMetadata : PvMetadata Value}
    {message : StringMessage} (mirrored : Controls.stateToOperation alarm.state = some operation)
    (addressable : Addressable alarm.device) (unnamed : pvMetadata.phoebusConfigMetadata.Unnamed)
    (built : Controls.controlsToPhoebus w alarm operation pvMetadata = some message)
    (publishers : List String) (now : Int) (metadata : String → Option (PvMetadata Value))
    (topic : String) : ∃ request : CachedState → CommandRequest,
      (Message.phoebus topic message).intent w publishers now metadata =
        (alarm.echoed w now).map fun x =>
        ⟨alarm.device, x, some (.call alarm.device (request x))⟩ := by
  have keyed : keyOf operation message = some ⟨alarm.device, pvMetadata.displayPath, operation⟩ :=
    keyOf_eq_some.mpr ⟨_, controlsToPhoebus_key built, Key.parse_getPhoebusKey _ _ addressable, rfl⟩
  cases operation with
  | state => cases built
  | command =>
      cases built
      have acknowledged : alarm.state = .acknowledged := by
        cases state : alarm.state <;> simp [state, Controls.stateToOperation] at mirrored
        rfl
      have ack := acknowledgeCommand_eq_some.mpr ⟨keyed, Command.fromStr_toStr lawful _, rfl⟩
      refine ⟨fun _ => .acknowledge [epicsName alarm.device] alarm.user, ?_⟩
      simp [Message.intent, acknowledge_excludes_config ack, commandIntent, ack,
        Status.echoed, acknowledged]
  | config =>
      have notAck : alarm.state ≠ .acknowledged := by
        intro acknowledged
        rw [acknowledged] at mirrored
        cases mirrored
      obtain ⟨c, enabled, user, settings, text⟩ : ∃ c : Config Value,
          c.enabled = (Controls.normalizedEnablementFromControls w alarm).asEnabledString w ∧
          c.user = alarm.user ∧ c.phoebusSpecific = pvMetadata.phoebusConfigMetadata ∧
          message.value = c.toStr w := by
        cases built
        exact ⟨_, rfl, rfl, rfl, rfl⟩
      have read : Config.fromStr w message.value = some c := by
        rw [text, Config.fromStr_toStr lawful (settings ▸ unnamed)]
      refine ⟨enablementRequest alarm.device alarm.user, ?_⟩
      simp only [Message.intent, validConfig, keyed, read, Option.bind_eq_bind, Option.bind_some,
        asCachedState_echoed lawful calendar now notAck enabled, commandIntent,
        config_excludes_acknowledge w keyed]
      cases alarm.echoed w now with
      | none => rfl
      | some x => simp [configIntent, user]

theorem ofDateTime_snooze_iff (now : Int) (t : Timestamp) :
    CachedState.ofDateTime now t.dateTime = ⟨.bypassed, some t⟩ ↔
    now < t.dateTime.timestampMillis := by
  unfold CachedState.ofDateTime
  split_ifs with ahead
  · simpa [Timestamp.dateTime] using ahead
  · simpa using ahead

theorem echoed_suppressed_iff {w : Wire Value} (calendar : w.Calendar) {alarm : Status}
    {operation : Operation} {now : Int}
    (mirrored : Controls.stateToOperation alarm.state = some operation)
    (operator : alarm.state = .bypassed ∨ alarm.wake = none) :
    (∀ x, alarm.echoed w now = some x →
        (ObservedStatePolicy.mk (some (.ofStatus alarm))).suppressesIncoming x = true) ↔
      ∀ t, alarm.state = .bypassed → alarm.wake = some t →
        (w.timestampOpt t.seconds t.nanos.toUInt32).isSome = true ∧
          (FourDigitYear t.seconds → now < t.dateTime.timestampMillis) := by
  have snoozed : ∀ {x : CachedState}, x.Enablement →
      ((ObservedStatePolicy.mk (some (.ofStatus alarm))).suppressesIncoming x = true ↔
        x = .ofStatus alarm) := by
    intro x enablement
    rw [suppressesIncoming_enablement enablement, Option.some.injEq, eq_comm]
  cases acked : alarm.state with
  | acknowledged =>
      have wake : alarm.wake = none := by simpa [acked] using operator
      have same : CachedState.ofStatus alarm = ⟨.acknowledged, none⟩ := by
        simp [CachedState.ofStatus, acked, wake]
      simp [Status.echoed, acked, same, suppressesIncoming_iff]
  | unbypassed =>
      have wake : alarm.wake = none := by simpa [acked] using operator
      have same : CachedState.ofStatus alarm = .ofBool true := by
        simp [CachedState.ofStatus, CachedState.ofBool, acked, wake]
      simp [Status.echoed, acked, same, suppressesIncoming_iff]
  | bypassed =>
      cases wake : alarm.wake with
      | none =>
          have same : CachedState.ofStatus alarm = .bypassed := by
            simp [CachedState.ofStatus, CachedState.bypassed, acked, wake]
          simp [Status.echoed, acked, wake, same, suppressesIncoming_iff]
      | some t =>
          cases accepted : w.timestampOpt t.seconds t.nanos.toUInt32 with
          | none =>
              have differs : CachedState.bypassed ≠ .ofStatus alarm := by
                simp [CachedState.bypassed, CachedState.ofStatus, wake]
              simp [Status.echoed, acked, wake, accepted,
                snoozed (.inl rfl : CachedState.bypassed.Enablement), differs]
          | some dt =>
              obtain rfl : dt = t.dateTime := (calendar.timestampOpt_some _ _ _ accepted).1
              have same : CachedState.ofStatus alarm = ⟨.bypassed, some t⟩ := by
                simp [CachedState.ofStatus, acked, wake]
              have ahead := snoozed (CachedState.ofDateTime_enablement now t.dateTime)
              rw [same, ofDateTime_snooze_iff] at ahead
              by_cases year : FourDigitYear t.seconds
              · simp [Status.echoed, acked, wake, accepted, year, same, ahead]
              · simp [Status.echoed, acked, wake, accepted, year]
  | _ => simp [acked, Controls.stateToOperation] at mirrored

section
variable [DecidableEq Value] {w : Wire Value} {publishers : List String}
  {world : World Value} {env : Env} {m : Message} {d : String}

theorem recognised_iff {echo : Option CachedState} {request : CachedState → CommandRequest}
    (carries : m.intent w publishers env.now world.metadata =
      echo.map fun x => ⟨d, x, some (.call d (request x))⟩) :
    let world' := world.step w publishers (env, .handle m)
    (world'.sent = world.sent ∧ world'.alarmState d = world.alarmState d) ↔
      ∀ x, echo = some x →
      (ObservedStatePolicy.mk (world.alarmState d)).suppressesIncoming x = true := by
  intro world'
  obtain ⟨entry, sent⟩ := step_handle w publishers env world m
  simp only [world', entry, sent, carries]
  cases echo with
  | none => simp
  | some x =>
      cases policy : (ObservedStatePolicy.mk (world.alarmState d)).suppressesIncoming x <;>
        simp [World.sent_observe, World.alarmState_observe, Intent.suppressed, policy]

theorem recorded_published {msg : StringMessage} {alarm : Status} {out : Outbound}
    (read : w.statusFromStr msg.value = some alarm)
    (sent : (world.step w publishers (env, .handle (.controls msg))).sent = world.sent ++ [out]) :
    (world.step w publishers (env, .handle (.controls msg))).alarmState alarm.device =
      some (.ofStatus alarm) := by
  obtain ⟨alarm', pvMetadata, operation, read', source, known, mirrored, _, policy⟩ :=
    controls_sent_cases sent
  obtain rfl : alarm = alarm' := Option.some.inj (read.symm.trans read')
  have carried : controlsIntent w publishers world.metadata msg = some
      ⟨alarm.device, .ofStatus alarm,
      controlsOutbound w publishers alarm operation pvMetadata⟩ :=
    controlsIntent_eq_some.mpr ⟨alarm, pvMetadata, operation, read, source, known, mirrored, rfl⟩
  rw [(step_handle w publishers env world (.controls msg)).1, Message.intent, carried,
    Option.elim_some, World.alarmState_observe]
  simp [Intent.suppressed, policy]

/-- A status as EPICS sends it, in any reachable state, makes the Controls task publish. When the
monitor of that topic handles the message, with only messages for other devices in between, it
makes no call and leaves the entry alone exactly if the wake of a bypass is an instant, and is
still ahead of the monitor's clock or in a year that is not read back. -/
theorem own_publish_recognised_iff (lawful : w.Lawful) (calendar : w.Calendar)
    (reachable : world.Reachable w publishers) {msg message : StringMessage}
    {alarm : Status} {topic : String} (read : w.statusFromStr msg.value = some alarm)
    (operator : alarm.state = .bypassed ∨ alarm.wake = none)
    (sent : (world.step w publishers (env, .handle (.controls msg))).sent =
      world.sent ++ [.publish alarm.device topic message])
    {between : List (Env × Message)} (others : ∀ e ∈ between, e.2.deviceOf w ≠ some alarm.device)
    (later : Env) :
    let settled := (world.step w publishers (env, .handle (.controls msg))).handleAll w
      publishers between
    let echoed := settled.step w publishers (later, .handle (.phoebus topic message))
    (echoed.sent = settled.sent ∧
      echoed.alarmState alarm.device = settled.alarmState alarm.device) ↔
      ∀ t, alarm.state = .bypassed → alarm.wake = some t →
        (w.timestampOpt t.seconds t.nanos.toUInt32).isSome = true ∧
          (FourDigitYear t.seconds → later.now < t.dateTime.timestampMillis) := by
  intro settled echoed
  obtain ⟨alarm', pvMetadata, operation, read', _, known, mirrored, out, _⟩ :=
    controls_sent_cases sent
  obtain rfl : alarm = alarm' := Option.some.inj (read.symm.trans read')
  obtain ⟨topic', message', _, built, _, same⟩ := controlsOutbound_eq_some.mp out
  cases same
  obtain ⟨addressable, unnamed⟩ := reachable.wellFormed _ _ known
  obtain ⟨request, carries⟩ := published_intent lawful calendar mirrored addressable unnamed built
    publishers later.now settled.metadata topic
  have entry : settled.alarmState alarm.device = some (.ofStatus alarm) :=
    (handleAll_quiet w publishers alarm.device _ others).1.trans (recorded_published read sent)
  refine (recognised_iff carries).trans ?_
  rw [entry]
  exact echoed_suppressed_iff calendar mirrored operator

end

section
open CivilWire
open PlainWire (publishers env mirroredConfig)

/-- The pump is snoozed until the end of July 2024. -/
def julySnooze : StringMessage := statusMessage "pump" "BYPASSED" "1722470399" "0"

theorem julySnooze_read : wire.statusFromStr julySnooze.value =
    some ⟨"pump", .epics, .bypassed, some ⟨1722470399, 0⟩, "operator"⟩ := by decide +kernel

theorem julySnooze_sent :
    ((started "true").step wire publishers (env, .handle (.controls julySnooze))).sent =
    (started "true").sent ++
      [.publish "pump" "plant" (mirroredConfig "pump" "2024-07-31T23:59:59+00:00")] := by
        decide +kernel

theorem julySnooze_recognised :
    let settled := (started "true").step wire publishers (env, .handle (.controls julySnooze))
    let echoed := settled.step wire publishers ({ env with now := 1722470398999 },
      .handle (.phoebus "plant" (mirroredConfig "pump" "2024-07-31T23:59:59+00:00")))
    echoed.sent = settled.sent ∧ echoed.alarmState "pump" = settled.alarmState "pump" := by
  refine (own_publish_recognised_iff lawful calendar ⟨_, rfl⟩ julySnooze_read
    (.inl rfl) julySnooze_sent (List.forall_mem_nil _) { env with now := 1722470398999 }).mpr ?_
  intro t _ wake
  cases wake
  decide +kernel

/-- When the message is read only after the wake, it is taken for an unbypass. -/
theorem expired_snooze_activates : ¬ ∀ (publishers : List String) (world : World FlatJson.Scalar)
    (msg message : StringMessage) (alarm : Status) (topic : String) (env later : Env)
    (between : List (Env × Message)), world.Reachable wire publishers →
    wire.statusFromStr msg.value = some alarm → (alarm.state = .bypassed ∨ alarm.wake = none) →
    (world.step wire publishers (env, .handle (.controls msg))).sent =
      world.sent ++ [.publish alarm.device topic message] →
    (∀ e ∈ between, e.2.deviceOf wire ≠ some alarm.device) → env.now ≤ later.now →
    let settled := (world.step wire publishers (env, .handle (.controls msg))).handleAll wire
      publishers between
    let echoed := settled.step wire publishers (later, .handle (.phoebus topic message))
    echoed.sent = settled.sent ∧
    echoed.alarmState alarm.device = settled.alarmState alarm.device := by
  intro claim
  have silent := (claim publishers (started "true") julySnooze
    (mirroredConfig "pump" "2024-07-31T23:59:59+00:00") _ "plant" env
    { env with now := 1722470399000 } []
    ⟨_, rfl⟩ julySnooze_read (.inl rfl) julySnooze_sent (by simp) (by decide)).1
  revert silent
  decide +kernel

end

end AlarmSync
