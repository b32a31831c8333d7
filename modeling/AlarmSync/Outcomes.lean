import AlarmSync.Acknowledgement

/-! What the reported outcome of a message says about its effects. -/
namespace AlarmSync
open EffectProgram

variable {Value : Type}

def isAttempted : Option SyncOutcome → Bool
  | some (.attempted ..) => true
  | _ => false

/-- The outcomes that are reported when a message has been read and nothing is done about it. -/
def SyncOutcome.Quiet : SyncOutcome → Prop
  | duplicate | ignored _ | outOfScope => True
  | _ => False

/-- The key, the command or the config of a Phoebus message does not parse. -/
def Message.Unparsable (w : Wire Value) : Message → Prop
  | controls _ => False
  | phoebus _ msg => ∃ keyStr, msg.key = some keyStr ∧
    match Key.parse keyStr with
    | .error e => e ≠ .unsupportedOperation
    | .ok key => key.operation = .command ∧ Command.fromStr w msg.value = none ∨
        key.operation = .config ∧
          ∀ config, Config.fromStr w msg.value = some config →
          ∃ e, config.normalizeEnablement w = .error e

section
variable (w : Wire Value) (m : Message) (now : Int) (world : World Value)

/-- The ways in which the handling of a message can end: what is reported, and the world that is
left. Every exit of the three handlers is one of these. -/
inductive Handled : Option SyncOutcome → World Value → Prop
  | unreported : Handled none world
  | quiet {outcome : SyncOutcome} (quiet : outcome.Quiet) : Handled (some outcome) world
  | malformed (unparsed : m.Unparsable w) : Handled (some (.skipped .malformedMessage)) world
  | unrouted {d : String} {state : CachedState} (about : m.deviceOf w = some d) :
      Handled (some (.skipped .missingPublisher)) (world.recordAlarmState d state)
  | mirrored {out : Outbound} {state : CachedState} {direction : SyncDirection}
      {result : AttemptResult} (about : m.deviceOf w = some out.device) :
      Handled (some (.attempted direction result))
        ((world.send out).recordAlarmState out.device state)
  | followed {topic : String} {msg : StringMessage} {key : Key} {config : Config Value}
      {state : CachedState} {result : AttemptResult} (from_ : m = .phoebus topic msg)
      (valid : validConfig w now msg = some (key, config, state)) :
      Handled (some (.attempted .phoebusToControls result))
        (((world.send (.call key.device
          (enablementRequest key.device config.user state))).recordAlarmState
          key.device state).updateMetadata key.device
            (configMetadata topic (world.metadata key.device) key config))
  | resettled {topic : String} {msg : StringMessage} {key : Key} {config : Config Value}
      {state : CachedState} (from_ : m = .phoebus topic msg)
      (valid : validConfig w now msg = some (key, config, state))
      (suppressed :
        (ObservedStatePolicy.mk (world.alarmState key.device)).suppressesIncoming state = true)
      (differs : config.phoebusSpecific ≠ ((world.metadata key.device).getD
        (PvMetadata.fromUnmapped key topic)).phoebusConfigMetadata) :
      Handled (some (.ignored .stateNoise)) (world.updateMetadata key.device
        (configMetadata topic (world.metadata key.device) key config))

end

namespace Controls

theorem decideControlsSync_eq_sync {alarm : Status} {previous : ObservedStatePolicy}
    {known : Option (PvMetadata Value)} {operation : Operation} {pvMetadata : PvMetadata Value}
    {state : CachedState} :
    decideControlsSync alarm previous known = .syncToPhoebus operation pvMetadata state ↔
      known = some pvMetadata ∧ stateToOperation alarm.state = some operation ∧
        state = .ofStatus alarm ∧ previous.suppressesIncoming state = false := by
  have same : (CachedState.ofStatus alarm).state = alarm.state := rfl
  unfold decideControlsSync
  cases known with
  | none => simp
  | some metadata =>
      simp only [same]
      cases stateToOperation alarm.state with
      | none => simp
      | some op =>
          simp only [Option.some.injEq]
          split_ifs with policy
          · simp only [false_iff, not_and]
            rintro - - rfl
            simp [policy]
          · simp only [ControlsInboundDecision.syncToPhoebus.injEq]
            constructor
            · rintro ⟨rfl, rfl, rfl⟩
              exact ⟨rfl, rfl, rfl, by simpa using policy⟩
            · rintro ⟨rfl, rfl, rfl, _⟩
              exact ⟨rfl, rfl, rfl⟩

theorem run_sync (w : Wire Value) (publishers : List String) {alarm : Status}
    {operation : Operation} (pvMetadata : PvMetadata Value)
    (mirrored : stateToOperation alarm.state = some operation) (env : Env) (world : World Value) :
    (syncEpicsMessageToPhoebus w publishers alarm operation pvMetadata).run env.answer world =
      match controlsOutbound w publishers alarm operation pvMetadata with
      | some out => (if env.published then .succeeded else .failed, world.send out)
      | none => (.skipped .missingPublisher, world) := by
  have hasTopic : ∃ topic, getTopicForOperation operation pvMetadata = some topic := by
    cases operation with
    | command => exact ⟨_, rfl⟩
    | config => exact ⟨_, rfl⟩
    | state => cases state : alarm.state <;> simp [stateToOperation, state] at mirrored
  have hasMessage : ∃ message, controlsToPhoebus w alarm operation pvMetadata = some message := by
    cases operation with
    | command => exact ⟨_, rfl⟩
    | config => exact ⟨_, rfl⟩
    | state => cases state : alarm.state <;> simp [stateToOperation, state] at mirrored
  obtain ⟨topic, resolved⟩ := hasTopic
  obtain ⟨message, built⟩ := hasMessage
  by_cases member : topic ∈ publishers
  · simp only [syncEpicsMessageToPhoebus, controlsOutbound, resolved, built, member,
      Program.run_bind, run_publish, Program.pure_eq, Program.run_done, Option.bind_eq_bind,
      Option.bind_some, if_true]
    rfl
  · simp [syncEpicsMessageToPhoebus, controlsOutbound, resolved, built, member]

theorem handled_processRuntimeMessage [DecidableEq Value] (w : Wire Value)
    (publishers : List String) (msg : StringMessage) (env : Env) (world : World Value) :
    let run := (processRuntimeMessage w publishers msg).run env.answer world
    Handled w (.controls msg) env.now world run.1 run.2 := by
  intro run
  cases read : w.statusFromStr msg.value with
  | none =>
      have unread : run = (none, world) := by simp [run, processRuntimeMessage, read]
      rw [unread]
      exact .unreported
  | some alarm =>
      have about : (Message.controls msg).deviceOf w = some alarm.device := by
        simp [Message.deviceOf, read]
      by_cases source : alarm.source = .epics
      · cases decided : decideControlsSync alarm ⟨world.alarmState alarm.device⟩
            (world.metadata alarm.device) with
        | ignoreNonSyncState =>
            have ends : run = (some (.ignored .stateNoise), world) := by
              simp [run, processRuntimeMessage, read, source, processControlsMessage, decided]
            rw [ends]
            exact .quiet trivial
        | outOfScope =>
            have ends : run = (some .outOfScope, world) := by
              simp [run, processRuntimeMessage, read, source, processControlsMessage, decided]
            rw [ends]
            exact .quiet trivial
        | suppressedByPolicy =>
            have ends : run = (some (.ignored .suppressedByPolicy), world) := by
              simp [run, processRuntimeMessage, read, source, processControlsMessage, decided]
            rw [ends]
            exact .quiet trivial
        | syncToPhoebus operation pvMetadata state =>
            obtain ⟨_, mirrored, _⟩ := decideControlsSync_eq_sync.mp decided
            have ends : run = (some ((((syncEpicsMessageToPhoebus w publishers alarm operation
                  pvMetadata).run env.answer world).1).intoSyncOutcome .controlsToPhoebus),
                ((syncEpicsMessageToPhoebus w publishers alarm operation pvMetadata).run
                  env.answer world).2.recordAlarmState alarm.device state) := by
              simp [run, processRuntimeMessage, read, source, processControlsMessage, decided]
            rw [ends, run_sync w publishers pvMetadata mirrored]
            cases sent : controlsOutbound w publishers alarm operation pvMetadata with
            | none => exact .unrouted about
            | some out =>
                obtain ⟨topic, message, _, _, _, rfl⟩ := controlsOutbound_eq_some.mp sent
                cases published : env.published with
                | true => exact .mirrored about
                | false => exact .mirrored about
      · have ends : run = (some (.ignored .externalSource), world) := by
          simp [run, processRuntimeMessage, read, source]
        rw [ends]
        exact .quiet trivial

end Controls

namespace Monitor

section
variable (w : Wire Value) (topic : String) {keyStr : String} {msg : StringMessage} {key : Key}
  (given : msg.key = some keyStr) (parsed : Key.parse keyStr = .ok key) (env : Env)
  (world : World Value)
include given parsed

theorem handled_processCommand (isCommand : key.operation = .command) :
    let run := (processCommand w key msg.value).run env.answer world
    Handled w (.phoebus topic msg) env.now world (some run.1) run.2 := by
  intro run
  have about : (Message.phoebus topic msg).deviceOf w = some key.device := by
    simp [Message.deviceOf, given, parsed, Except.toOption]
  cases decided : decidePhoebusCommand w msg.value ⟨world.alarmState key.device⟩ with
  | error e =>
      have unread : Command.fromStr w msg.value = none := by
        cases read : Command.fromStr w msg.value with
        | none => rfl
        | some command =>
            simp only [decidePhoebusCommand, read] at decided
            split_ifs at decided
      have ends : run = (logParseError, world) := by simp [run, processCommand, decided]
      rw [ends]
      exact .malformed ⟨keyStr, given, by rw [parsed]; exact .inl ⟨isCommand, unread⟩⟩
  | ok decision =>
      cases decision with
      | ignoreUnsupportedCommand =>
          have ends : run = (.ignored .stateNoise, world) := by simp [run, processCommand, decided]
          rw [ends]
          exact .quiet trivial
      | suppressedByPolicy =>
          have ends : run = (.ignored .suppressedByPolicy, world) := by
            simp [run, processCommand, decided]
          rw [ends]
          exact .quiet trivial
      | acknowledge user state =>
          obtain ⟨result, attempted⟩ := executeCommand_attempted env.transport .phoebusToControls
          have ends : run = (.attempted .phoebusToControls result,
              (world.send (.call key.device
                (.acknowledge [epicsName key.device] user))).recordAlarmState
                key.device state) := by
            simp [run, processCommand, decided, acknowledgeAlarm, attempted]
          rw [ends]
          exact .mirrored about

theorem handled_processConfig [DecidableEq Value] (isConfig : key.operation = .config) :
    let run := (processConfig w topic key msg.value).run env.answer world
    Handled w (.phoebus topic msg) env.now world (some run.1) run.2 := by
  intro run
  have keyed : keyOf .config msg = some key := keyOf_eq_some.mpr ⟨keyStr, given, parsed, isConfig⟩
  cases read : Config.fromStr w msg.value with
  | none =>
      have ends : run = (logParseError, world) := by simp [run, processConfig, read]
      rw [ends]
      refine .malformed ⟨keyStr, given, ?_⟩
      rw [parsed]
      exact .inr ⟨isConfig, fun config other => by rw [read] at other; cases other⟩
  | some config =>
      cases decoded : config.asCachedState w env.now with
      | error e =>
          have ends : run = (logParseError, world) := by
            simp [run, processConfig, read, getPvMetadata, decidePhoebusConfig_error decoded]
          have meaningless := Config.asCachedState_eq_error_iff.mp decoded
          rw [ends]
          refine .malformed ⟨keyStr, given, ?_⟩
          rw [parsed]
          exact .inr ⟨isConfig, fun config' same => by
            rw [read] at same
            cases same
            exact ⟨e, meaningless⟩⟩
      | ok state =>
          have valid : validConfig w env.now msg = some (key, config, state) :=
            validConfig_eq_some.mpr ⟨keyed, read, decoded⟩
          cases policy :
            (ObservedStatePolicy.mk (world.alarmState key.device)).suppressesIncoming state with
          | true =>
              by_cases same : config.phoebusSpecific = ((world.metadata key.device).getD
                  (PvMetadata.fromUnmapped key topic)).phoebusConfigMetadata
              · have ends : run = (.duplicate, world) := by
                  simp [run, processConfig, read, getPvMetadata,
                    decidePhoebusConfig_suppressed decoded policy, same, actOnConfig]
                rw [ends]
                exact .quiet trivial
              · have ends : run = (.ignored .stateNoise, world.updateMetadata key.device
                    (configMetadata topic (world.metadata key.device) key config)) := by
                  simp [run, processConfig, read, getPvMetadata,
                    decidePhoebusConfig_suppressed decoded policy, same,
                    actOnConfig, configMetadata]
                rw [ends]
                exact .resettled rfl valid policy same
          | false =>
              obtain ⟨result, acted⟩ := run_actOnConfig key config.user state env world
              have ends : run = (.attempted .phoebusToControls result,
                  ((world.send (.call key.device (enablementRequest key.device config.user
                    state))).recordAlarmState key.device state).updateMetadata key.device
                      (configMetadata topic (world.metadata key.device) key config)) := by
                simp [run, processConfig, read, getPvMetadata,
                  decidePhoebusConfig_mirrored decoded policy, acted, configMetadata]
              rw [ends]
              exact .followed rfl valid

end

theorem handled_processRuntimeMessage [DecidableEq Value] (w : Wire Value) (topic : String)
    (msg : StringMessage) (env : Env) (world : World Value) :
    let run := (processRuntimeMessage w topic msg).run env.answer world
    Handled w (.phoebus topic msg) env.now world run.1 run.2 := by
  intro run
  cases given : msg.key with
  | none =>
      have ends : run = (none, world) := by simp [run, processRuntimeMessage, given]
      rw [ends]
      exact .unreported
  | some keyStr =>
      cases parsed : Key.parse keyStr with
      | error e =>
          have ends : run = (some (mapKeyParseError e), world) := by
            simp [run, processRuntimeMessage, given, parsed]
          rw [ends]
          cases e with
          | unsupportedOperation => exact .quiet trivial
          | malformedStructure => exact .malformed ⟨keyStr, given, by rw [parsed]; simp⟩
          | emptyDevice => exact .malformed ⟨keyStr, given, by rw [parsed]; simp⟩
      | ok key =>
          cases operation : key.operation with
          | command =>
              have handled := handled_processCommand w topic given parsed env world operation
              simpa [run, processRuntimeMessage, given, parsed, operation] using handled
          | config =>
              have handled := handled_processConfig w topic given parsed env world operation
              simpa [run, processRuntimeMessage, given, parsed, operation] using handled
          | state =>
              have ends : run = (some (.ignored .stateNoise), world) := by
                simp [run, processRuntimeMessage, given, parsed, operation]
              rw [ends]
              exact .quiet trivial

end Monitor

theorem Message.handled [DecidableEq Value] (w : Wire Value)
    (publishers : List String) (m : Message) (env : Env) (world : World Value) :
    let run := (m.handler w publishers).run env.answer world
    Handled w m env.now world run.1 run.2 := by
  cases m with
  | controls msg => exact Controls.handled_processRuntimeMessage w publishers msg env world
  | phoebus topic msg => exact Monitor.handled_processRuntimeMessage w topic msg env world

def Message.configures (w : Wire Value) (now : Int) (d : String) : Message → Prop
  | controls _ => False
  | phoebus _ msg =>
      ∃ key config state, validConfig w now msg = some (key, config, state) ∧ key.device = d

/-- A config of `d` that is suppressed by the entry of `d` and brings other settings. -/
def Message.resettles (w : Wire Value) (now : Int) (world : World Value)
    (d : String) : Message → Prop
  | controls _ => False
  | phoebus topic msg => ∃ key config state, validConfig w now msg = some (key, config, state) ∧
      key.device = d ∧
      (ObservedStatePolicy.mk (world.alarmState d)).suppressesIncoming state = true ∧
      config.phoebusSpecific ≠
        ((world.metadata d).getD (PvMetadata.fromUnmapped key topic)).phoebusConfigMetadata

/-- What an outcome says about the effects of a message on the caches and the calls. -/
structure Truthful (w : Wire Value) (m : Message) (now : Int) (world : World Value)
    (outcome : Option SyncOutcome) (world' : World Value) : Prop where
  one_call : isAttempted outcome = true ↔ ∃ out, world'.sent = world.sent ++ [out]
  no_call : isAttempted outcome = false → world'.sent = world.sent
  entries : ∀ d, world'.alarmState d ≠ world.alarmState d →
    m.deviceOf w = some d ∧
    (isAttempted outcome = true ∨ outcome = some (.skipped .missingPublisher))
  metadata : ∀ d, world'.metadata d ≠ world.metadata d →
    m.deviceOf w = some d ∧ m.configures w now d ∧
      (isAttempted outcome = true ∨ outcome = some (.ignored .stateNoise) ∧
        m.resettles w now world d)
  otherwise : isAttempted outcome = false → outcome ≠ some (.skipped .missingPublisher) →
    (outcome = some (.ignored .stateNoise) → ∀ d, ¬ m.resettles w now world d) → world' = world
  topic_found : outcome ≠ some (.skipped .missingTopic)
  malformed : outcome = some (.skipped .malformedMessage) → m.Unparsable w

section
variable {w : Wire Value} {m : Message} {now : Int} {world : World Value}

theorem Truthful.unchanged {outcome : Option SyncOutcome} (silent : isAttempted outcome = false)
    (topic_found : outcome ≠ some (.skipped .missingTopic))
    (malformed : outcome = some (.skipped .malformedMessage) → m.Unparsable w) :
    Truthful w m now world outcome world where
  one_call := by simp [silent]
  no_call _ := rfl
  entries _ changed := absurd rfl changed
  metadata _ changed := absurd rfl changed
  otherwise _ _ _ := rfl
  topic_found := topic_found
  malformed := malformed

theorem Handled.truthful {outcome : Option SyncOutcome} {world' : World Value}
    (handled : Handled w m now world outcome world') : Truthful w m now world outcome world' := by
  cases handled with
  | unreported => exact .unchanged rfl (by simp) (by simp)
  | @quiet outcome quiet =>
      apply Truthful.unchanged
      · cases outcome with
        | attempted => exact quiet.elim
        | _ => rfl
      · rintro ⟨⟩
        exact quiet.elim
      · rintro ⟨⟩
        exact quiet.elim
  | malformed unparsed => exact .unchanged rfl (by simp) fun _ => unparsed
  | @unrouted d state about =>
      exact
        { one_call := by simp [isAttempted]
          no_call := fun _ => rfl
          entries := by
            intro d' changed
            by_cases same : d' = d
            · exact ⟨same ▸ about, .inr rfl⟩
            · simp [same] at changed
          metadata := fun _ changed => absurd rfl changed
          otherwise := fun _ other => absurd rfl other
          topic_found := by simp
          malformed := by simp }
  | @mirrored out state direction result about =>
      exact
        { one_call := ⟨fun _ => ⟨out, rfl⟩, fun _ => rfl⟩
          no_call := fun silent => by cases silent
          entries := by
            intro d changed
            by_cases same : d = out.device
            · exact ⟨same ▸ about, .inl rfl⟩
            · simp [same] at changed
          metadata := fun _ changed => absurd rfl changed
          otherwise := fun silent => by cases silent
          topic_found := by simp
          malformed := by simp }
  | @followed topic msg key config state result from_ valid =>
      have about : m.deviceOf w = some key.device :=
        from_ ▸ deviceOf_keyOf w topic (validConfig_eq_some.mp valid).1
      exact
        { one_call := ⟨fun _ => ⟨_, rfl⟩, fun _ => rfl⟩
          no_call := fun silent => by cases silent
          entries := by
            intro d changed
            by_cases same : d = key.device
            · exact ⟨same ▸ about, .inl rfl⟩
            · simp [same] at changed
          metadata := by
            intro d changed
            by_cases same : d = key.device
            · subst same
              subst from_
              exact ⟨about, ⟨key, config, state, valid, rfl⟩, .inl rfl⟩
            · simp [same] at changed
          otherwise := fun silent => by cases silent
          topic_found := by simp
          malformed := by simp }
  | @resettled topic msg key config state from_ valid suppressed differs =>
      have about : m.deviceOf w = some key.device :=
        from_ ▸ deviceOf_keyOf w topic (validConfig_eq_some.mp valid).1
      have resettles : m.resettles w now world key.device :=
        from_ ▸ ⟨key, config, state, valid, rfl, suppressed, differs⟩
      exact
        { one_call := by simp [isAttempted]
          no_call := fun _ => rfl
          entries := fun _ changed => absurd rfl changed
          metadata := by
            intro d changed
            by_cases same : d = key.device
            · subst same
              subst from_
              exact ⟨about, ⟨key, config, state, valid, rfl⟩, .inr ⟨rfl, resettles⟩⟩
            · simp [same] at changed
          otherwise := fun _ _ settled => absurd resettles (settled rfl key.device)
          topic_found := by simp
          malformed := by simp }

end

/-- From any caches, the reported outcome of a runtime message is true of its effects. -/
theorem reported_outcome_truthful [DecidableEq Value] (w : Wire Value) (publishers : List String)
    (m : Message) (env : Env) (world : World Value) :
    Truthful w m env.now world ((m.handler w publishers).run env.answer world).1
      (world.step w publishers (env, .handle m)) :=
  (m.handled w publishers env world).truthful

end AlarmSync
