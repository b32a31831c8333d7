import AlarmSync.CivilWire
import AlarmSync.Hydration
import AlarmSync.Outcomes
import AlarmSync.ReadBack
import AlarmSync.Replay

/-! A snooze whose time has passed: an instance that has it in its cache, and one that is started
only afterwards. -/
namespace AlarmSync

variable {Value : Type}

/-- What is done about an operator's action: it is mirrored, or the policy suppresses it. -/
inductive Decision where
  | mirror | suppress
  deriving DecidableEq, Repr

/-- The decision behind a reported outcome. A state without a publisher is mirrored as far as
the caches go. -/
def SyncOutcome.decision : Option SyncOutcome → Option Decision
  | some (.ignored .suppressedByPolicy) => some .suppress
  | some (.attempted ..) | some (.skipped .missingPublisher) => some .mirror
  | _ => none

def Message.decision [DecidableEq Value] (w : Wire Value) (publishers : List String) (m : Message)
    (env : Env) (world : World Value) : Option Decision :=
  SyncOutcome.decision ((m.handler w publishers).run env.answer world).1

def Event.deviceOf (w : Wire Value) : Event → Option String
  | hydrate topic msg => (Message.phoebus topic msg).deviceOf w
  | handle m => m.deviceOf w

def World.BypassScoped (world : World Value) : Prop :=
  ∀ d, Register.bypassed (world.alarmState d) = true → world.inScope d

theorem validConfig_snooze {w : Wire Value} {msg : StringMessage} {key : Key}
    {dt : DateTime} (now : Int) (keyed : keyOf .config msg = some key)
    (snoozed : snoozeTime w msg = some dt) :
    ∃ config, validConfig w now msg = some (key, config, .ofDateTime now dt) := by
  unfold snoozeTime at snoozed
  simp only [Option.bind_eq_bind, Option.bind_eq_some_iff] at snoozed
  obtain ⟨config, read, found⟩ := snoozed
  split at found
  · rename_i dt' means
    cases found
    refine ⟨config, validConfig_eq_some.mpr ⟨keyed, read, ?_⟩⟩
    exact Config.asCachedState_eq_ok_iff.mpr ⟨_, means, rfl⟩
  · cases found

section
variable [DecidableEq Value] (w : Wire Value) (publishers : List String) {d : String}

theorem step_event_quiet (world : World Value) {e : Env × Event} (quiet : e.2.deviceOf w ≠ some d) :
    let world' := world.step w publishers e
    world'.alarmState d = world.alarmState d ∧ world'.metadata d = world.metadata d := by
  obtain ⟨env, event⟩ := e
  cases event with
  | handle m => exact step_quiet w publishers d world env quiet
  | hydrate topic msg =>
      intro world'
      simp only [world', alarmState_step_hydrate, metadata_step_hydrate]
      rcases valid : validConfig w env.now msg with _ | ⟨key, config, state⟩
      · rcases useful : Startup.usefulState w msg with _ | ⟨device, state⟩
        · exact ⟨rfl, rfl⟩
        · obtain ⟨key, _, keyed, _, rfl, _⟩ := Startup.usefulState_eq_some.mp useful
          have ne : d ≠ key.device := by
            rintro rfl
            exact quiet (deviceOf_keyOf w topic keyed)
          simp [ne]
      · have ne : d ≠ key.device := by
          rintro rfl
          exact quiet (deviceOf_keyOf w topic (validConfig_eq_some.mp valid).1)
        simp [ne]

theorem run_event_quiet (world : World Value) {events : List (Env × Event)}
    (quiet : ∀ e ∈ events, e.2.deviceOf w ≠ some d) :
    let world' := world.run w publishers events
    world'.alarmState d = world.alarmState d ∧ world'.metadata d = world.metadata d := by
  induction events generalizing world with
  | nil => exact ⟨rfl, rfl⟩
  | cons e rest ih =>
      have one := step_event_quiet w publishers world (quiet e List.mem_cons_self)
      have later := ih (world.step w publishers e) fun e' member =>
        quiet e' (List.mem_cons_of_mem e member)
      exact ⟨later.1.trans one.1, later.2.trans one.2⟩

theorem bypassScoped_step {world : World Value} (tracked : world.BypassScoped) (e : Env × Event) :
    (world.step w publishers e).BypassScoped := by
  intro d bypassed
  rw [inScope_step]
  obtain ⟨x, after, state⟩ : ∃ x, (world.step w publishers e).alarmState d = some x ∧
    x.state = .bypassed := by
    simpa [Register.bypassed, Option.any_eq_true] using bypassed
  rcases alarmState_step_cases w publishers d after with before | written
  · exact .inl (tracked d (by simp [Register.bypassed, before, state]))
  · cases written with
    | @config key config _ configured device =>
        subst device
        obtain ⟨now, msg, valid⟩ := Event.config_eq_some configured
        cases policy :
          (ObservedStatePolicy.mk (world.alarmState key.device)).suppressesIncoming x with
        | true =>
            -- the config says what the entry says already
            have before :=
              (suppressesIncoming_enablement (validConfig_enablement valid) _).mp policy
            exact .inl (tracked key.device (by simp [Register.bypassed, before, state]))
        | false => exact .inr (by simp [Event.admits, configured, policy])
    | evidence severity => exact absurd state (stateOfSeverity_ne_bypassed severity)
    | command => cases state
    | status _ _ _ _ inScope _ _ => exact .inl inScope

theorem bypassScoped_run {world : World Value} (tracked : world.BypassScoped)
    (events : List (Env × Event)) : (world.run w publishers events).BypassScoped := by
  induction events generalizing world with
  | nil => exact tracked
  | cons e rest ih => exact ih (bypassScoped_step w publishers tracked e)

theorem decision_acknowledgement {world : World Value} (inScope : world.inScope d) {m : Message}
    {wake : Option Timestamp} (ack : m.acknowledges w d = some wake) (env : Env) :
    m.decision w publishers env world =
      if (ObservedStatePolicy.mk (world.alarmState d)).suppressesIncoming ⟨.acknowledged, wake⟩ then
        some .suppress
      else some .mirror := by
  unfold Message.decision
  cases m with
  | controls msg =>
      simp only [Message.acknowledges, Option.bind_eq_bind, Option.bind_eq_some_iff,
        Option.guard_eq_some', Option.pure_def, Option.some.injEq] at ack
      obtain ⟨alarm, read, _, ⟨source, rfl, state⟩, rfl⟩ := ack
      obtain ⟨pvMetadata, known⟩ := Option.isSome_iff_exists.mp inScope
      have mirrored : Controls.stateToOperation alarm.state = some .command := by rw [state]; rfl
      have incoming : (⟨.acknowledged, alarm.wake⟩ : CachedState) = .ofStatus alarm := by
        rw [← state]; rfl
      rw [incoming]
      cases policy : (ObservedStatePolicy.mk (world.alarmState alarm.device)).suppressesIncoming
          (.ofStatus alarm) with
      | true =>
          have decided : Controls.decideControlsSync alarm ⟨world.alarmState alarm.device⟩
              (world.metadata alarm.device) = .suppressedByPolicy := by
            have same : (CachedState.ofStatus alarm).state = alarm.state := rfl
            simp only [Controls.decideControlsSync, known, same, mirrored, policy, if_true]
          simp [Message.handler, Controls.processRuntimeMessage, read, source,
            Controls.processControlsMessage, decided, SyncOutcome.decision]
      | false =>
          have decided := Controls.decideControlsSync_eq_sync.mpr ⟨known, mirrored, rfl, policy⟩
          have sync := Controls.run_sync w publishers pvMetadata mirrored env world
          cases out : controlsOutbound w publishers alarm .command pvMetadata with
          | none =>
              simp [Message.handler, Controls.processRuntimeMessage, read, source,
                Controls.processControlsMessage, decided, sync, out,
                OutboundSyncResult.intoSyncOutcome, SyncOutcome.decision]
          | some out' =>
              cases published : env.published <;>
                simp [Message.handler, Controls.processRuntimeMessage, read, source,
                  Controls.processControlsMessage, decided, sync, out, published,
                  OutboundSyncResult.intoSyncOutcome, SyncOutcome.decision]
  | phoebus topic msg =>
      simp only [Message.acknowledges, Option.bind_eq_bind, Option.bind_eq_some_iff,
        Option.guard_eq_some', Option.pure_def, Option.some.injEq] at ack
      obtain ⟨⟨key, command⟩, acked, _, rfl, rfl⟩ := ack
      obtain ⟨keyed, read, isAck⟩ := acknowledgeCommand_eq_some.mp acked
      obtain ⟨keyStr, given, parsed, operation⟩ := keyOf_eq_some.mp keyed
      obtain ⟨result, attempted⟩ := executeCommand_attempted env.transport .phoebusToControls
      cases policy : (ObservedStatePolicy.mk (world.alarmState key.device)).suppressesIncoming
          ⟨.acknowledged, none⟩ <;>
        simp [Message.handler, Monitor.processRuntimeMessage, given, parsed, operation,
          Monitor.processCommand, Monitor.decidePhoebusCommand, read, isAck, policy,
          Monitor.acknowledgeAlarm, attempted, SyncOutcome.decision]

section
variable {msg : StringMessage} {key : Key} {dt : DateTime} (keyed : keyOf .config msg = some key)
  (snoozed : snoozeTime w msg = some dt)
include keyed snoozed

/-- An instance that has handled the config of a snooze before its time, and has seen nothing for
the device since, suppresses an acknowledgement of the device at any time. -/
theorem snoozed_suppresses {world : World Value}
    (reachable : world.Reachable w publishers) {topic : String} {early : Env × Event}
    (handled : early.2 = .hydrate topic msg ∨ early.2 = .handle (.phoebus topic msg))
    (before : early.1.now < dt.timestampMillis) {since : List (Env × Event)}
    (quiet : ∀ e ∈ since, e.2.deviceOf w ≠ some key.device) {m : Message} {wake : Option Timestamp}
    (ack : m.acknowledges w key.device = some wake) (env : Env) :
    m.decision w publishers env ((world.step w publishers early).run w publishers since) =
      some .suppress := by
  obtain ⟨config, valid⟩ := validConfig_snooze early.1.now keyed snoozed
  have configured : Event.config w early = some (key, config, .ofDateTime early.1.now dt) := by
    obtain ⟨env, event⟩ := early
    rcases handled with rfl | rfl <;> exact valid
  have snooze : (CachedState.ofDateTime early.1.now dt).state = .bypassed := by
    simp [CachedState.ofDateTime, before]
  have entry : ((world.step w publishers early).run w publishers since).alarmState key.device =
      some (.ofDateTime early.1.now dt) := by
    rw [(run_event_quiet w publishers _ quiet).1, alarmState_step_config w publishers _ configured,
      if_pos rfl]
  have inScope : ((world.step w publishers early).run w publishers since).inScope key.device := by
    have bypassed : Register.bypassed (((world.step w publishers early).run w publishers
        since).alarmState key.device) = true := by
      rw [entry]
      simp [Register.bypassed, snooze]
    obtain ⟨events, rfl⟩ := reachable
    have empty : (World.empty : World Value).BypassScoped := fun d bypassed => by cases bypassed
    exact bypassScoped_run w publishers (bypassScoped_step w publishers
      (bypassScoped_run w publishers empty events) early) since key.device bypassed
  rw [decision_acknowledgement w publishers inScope ack, entry]
  simp [ObservedStatePolicy.suppressesIncoming, isTransitionForbidden, snooze]

/-- An instance that hydrates the config after its time, and sees nothing for the device since,
mirrors the acknowledgement. -/
theorem restarted_mirrors {startup : Env}
    (expired : dt.timestampMillis ≤ startup.now) (topic : String) (world : World Value)
    {since : List (Env × Event)} (quiet : ∀ e ∈ since, e.2.deviceOf w ≠ some key.device)
    {m : Message} {wake : Option Timestamp}
    (ack : m.acknowledges w key.device = some wake) (env : Env) :
    m.decision w publishers env
      ((world.step w publishers (startup, .hydrate topic msg)).run w publishers
      since) = some .mirror := by
  obtain ⟨config, valid⟩ := validConfig_snooze startup.now keyed snoozed
  have unsnoozed : CachedState.ofDateTime startup.now dt = ⟨.unbypassed, none⟩ := by
    simp [CachedState.ofDateTime, expired]
  rw [unsnoozed] at valid
  have configured : Event.config w (startup, .hydrate topic msg) =
      some (key, config, ⟨.unbypassed, none⟩) := valid
  have entry : ((world.step w publishers (startup, .hydrate topic msg)).run w publishers
      since).alarmState key.device = some ⟨.unbypassed, none⟩ := by
    rw [(run_event_quiet w publishers _ quiet).1, alarmState_step_config w publishers _ configured,
      if_pos rfl]
  have inScope : ((world.step w publishers (startup, .hydrate topic msg)).run w publishers
      since).inScope key.device := by
    unfold World.inScope
    rw [(run_event_quiet w publishers _ quiet).2, metadata_step_hydrate, valid]
    simp
  rw [decision_acknowledgement w publishers inScope ack, entry]
  simp [ObservedStatePolicy.suppressesIncoming, isTransitionForbidden]

/-- The config of a snooze is handled before its time by an instance in any state, and hydrated
after its time by an instance that is started then; neither sees anything for the device after
that. On every acknowledgement of the device the two decide differently. -/
theorem expired_snooze_divides {world : World Value} (reachable : world.Reachable w publishers)
    {topic topic' : String} {early : Env × Event}
    (handled : early.2 = .hydrate topic msg ∨ early.2 = .handle (.phoebus topic msg))
    (before : early.1.now < dt.timestampMillis) {startup : Env}
    (expired : dt.timestampMillis ≤ startup.now) {since sooner later : List (Env × Event)}
    (quiet : ∀ e ∈ since, e.2.deviceOf w ≠ some key.device)
    (quietLater : ∀ e ∈ later, e.2.deviceOf w ≠ some key.device) {m : Message}
    {wake : Option Timestamp} (ack : m.acknowledges w key.device = some wake) (env env' : Env) :
    m.decision w publishers env ((world.step w publishers early).run w publishers since) ≠
      m.decision w publishers env' (((World.empty.run w publishers sooner).step w publishers
        (startup, .hydrate topic' msg)).run w publishers later) := by
  rw [snoozed_suppresses w publishers keyed snoozed reachable handled before quiet ack,
    restarted_mirrors w publishers keyed snoozed expired topic' _ quietLater ack]
  decide

end

end

section
open CivilWire
open PlainWire (publishers env configMessage commandMessage)

def julyConfig : StringMessage := configMessage "pump" "2024-07-31T23:59:59+00:00"

theorem julyConfig_key : keyOf .config julyConfig = some ⟨"pump", "/plant", .config⟩ := by
    decide +kernel

theorem julyConfig_snoozes : snoozeTime wire julyConfig = some ⟨1722470399, 0⟩ := by decide +kernel

theorem julyConfig_divides :
    (Message.phoebus "plantCommand" (commandMessage "pump")).decision wire publishers
        { env with now := 1722470400000 }
        ((World.empty.step wire publishers (env, .handle (.phoebus "plant" julyConfig))).run
          wire publishers []) ≠
      (Message.phoebus "plantCommand" (commandMessage "pump")).decision wire publishers
        { env with now := 1722470400000 }
        (((World.empty.run wire publishers []).step wire publishers
          ({ env with now := 1722470399000 }, .hydrate "plant" julyConfig)).run wire
          publishers []) :=
  expired_snooze_divides wire publishers julyConfig_key julyConfig_snoozes ⟨[], rfl⟩
    (.inr rfl) (by decide) (by decide) (List.forall_mem_nil _) (List.forall_mem_nil _)
    (show (Message.phoebus "plantCommand" (commandMessage "pump")).acknowledges wire
      "pump" = some none by
      decide +kernel) _ _

theorem expired_snooze_blocks : ¬ ∀ (publishers : List String) (world : World FlatJson.Scalar)
    (msg : StringMessage) (key : Key) (dt : DateTime) (topic : String)
    (early : Env × Event) (startup : Env) (since sooner later : List (Env × Event)) (m : Message)
    (wake : Option Timestamp) (env env' : Env),
    world.Reachable wire publishers → keyOf .config msg = some key → snoozeTime wire msg = some dt →
    (early.2 = .hydrate topic msg ∨ early.2 = .handle (.phoebus topic msg)) →
    early.1.now < dt.timestampMillis → dt.timestampMillis < startup.now →
    (∀ e ∈ since, e.2.deviceOf wire ≠ some key.device) →
    (∀ e ∈ sooner, e.2.deviceOf wire ≠ some key.device) →
    (∀ e ∈ later, e.2.deviceOf wire ≠ some key.device) →
    m.acknowledges wire key.device = some wake →
    dt.timestampMillis < env.now → dt.timestampMillis < env'.now →
    m.decision wire publishers env ((world.step wire publishers early).run wire publishers since) =
      m.decision wire publishers env'
      (((World.empty.run wire publishers sooner).step wire publishers
        (startup, .hydrate topic msg)).run wire publishers later) := by
  intro claim
  have same := claim publishers World.empty julyConfig ⟨"pump", "/plant", .config⟩
    ⟨1722470399, 0⟩ "plant" (env, .handle (.phoebus "plant" julyConfig))
    { env with now := 1722470400000 } [] [] [] (.phoebus "plantCommand" (commandMessage "pump"))
    none { env with now := 1722470401000 } { env with now := 1722470401000 }
    ⟨[], rfl⟩ julyConfig_key julyConfig_snoozes (.inr rfl) (by decide)
    (by decide) (by simp) (by simp) (by simp) (by decide +kernel) (by decide) (by decide)
  revert same
  decide +kernel

end

end AlarmSync
