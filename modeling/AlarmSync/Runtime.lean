import AlarmSync.Controls
import AlarmSync.Startup

/-! Runs of completely handled messages, and what one message can do. A message carries
at most one intent, a state for one device; handling it observes the intent, and a config
also brings the metadata of its device up to date. -/
namespace AlarmSync
open EffectProgram

variable {Value : Type}

/-- A message of one of the runtime streams; a Phoebus message comes from a topic. -/
inductive Message where
  | controls (msg : StringMessage)
  | phoebus (topic : String) (msg : StringMessage)
  deriving DecidableEq, Repr

inductive Event where
  | hydrate (topic : String) (msg : StringMessage)
  | handle (m : Message)
  deriving DecidableEq, Repr

def Message.handler [DecidableEq Value] (w : Wire Value) (publishers : List String) :
    Message → Handler Value (Option SyncOutcome)
  | controls msg => Controls.processRuntimeMessage w publishers msg
  | phoebus topic msg => Monitor.processRuntimeMessage w topic msg

def Event.handler [DecidableEq Value] (w : Wire Value) (publishers : List String) :
    Event → Handler Value (Option SyncOutcome)
  | hydrate topic msg => Startup.hydrateMessage w topic msg
  | handle m => m.handler w publishers

/-- The world after an event has been handled completely. -/
def World.step [DecidableEq Value] (w : Wire Value) (publishers : List String) (world : World Value)
    (e : Env × Event) : World Value := ((e.2.handler w publishers).run e.1.answer world).2

def World.run [DecidableEq Value] (w : Wire Value) (publishers : List String) (world : World Value)
    (events : List (Env × Event)) : World Value := events.foldl (World.step w publishers) world

/-- A state for a device, and the call that conveys it to the other system. There is none when
no publisher exists for the topic it would go to. -/
structure Intent where
  device : String
  state : CachedState
  outbound : Option Outbound

/-- The policy of the observed entry `r` on an intent. -/
def Intent.suppressed (x : Intent) (r : Option CachedState) : Bool :=
  (ObservedStatePolicy.mk r).suppressesIncoming x.state

/-- The common shape of the three handlers: unless suppressed, send and then record. -/
def World.observe (world : World Value) (x : Intent) : World Value :=
  if x.suppressed (world.alarmState x.device) then world
  else (x.outbound.elim world world.send).recordAlarmState x.device x.state

/-- The publish that mirrors a status, when its topic resolves to a publisher. -/
def controlsOutbound (w : Wire Value) (publishers : List String) (alarm : Status)
    (operation : Operation) (pvMetadata : PvMetadata Value) : Option Outbound := do
  let topic ← Controls.getTopicForOperation operation pvMetadata
  let message ← Controls.controlsToPhoebus w alarm operation pvMetadata
  if topic ∈ publishers then some (.publish alarm.device topic message) else none

theorem controlsOutbound_eq_some {w : Wire Value} {publishers : List String} {alarm : Status}
    {operation : Operation} {pvMetadata : PvMetadata Value} {out : Outbound} :
    controlsOutbound w publishers alarm operation pvMetadata = some out ↔
      ∃ topic message, Controls.getTopicForOperation operation pvMetadata = some topic ∧
        Controls.controlsToPhoebus w alarm operation pvMetadata = some message ∧
        topic ∈ publishers ∧ out = .publish alarm.device topic message := by
  simp only [controlsOutbound, Option.bind_eq_bind, Option.bind_eq_some_iff,
    Option.ite_none_right_eq_some, Option.some.injEq]
  constructor
  · rintro ⟨topic, resolved, message, published, member, rfl⟩
    exact ⟨topic, message, resolved, published, member, rfl⟩
  · rintro ⟨topic, message, resolved, published, member, rfl⟩
    exact ⟨topic, resolved, message, published, member, rfl⟩

/-- An EPICS status for a device in scope, with a state that is mirrored. -/
def controlsIntent (w : Wire Value) (publishers : List String)
    (metadata : String → Option (PvMetadata Value)) (msg : StringMessage) : Option Intent := do
  let alarm ← w.statusFromStr msg.value
  guard (alarm.source = .epics)
  let pvMetadata ← metadata alarm.device
  let operation ← Controls.stateToOperation alarm.state
  return ⟨alarm.device, .ofStatus alarm, controlsOutbound w publishers alarm operation pvMetadata⟩

theorem controlsIntent_eq_some {w : Wire Value} {publishers : List String}
    {metadata : String → Option (PvMetadata Value)} {msg : StringMessage} {x : Intent} :
    controlsIntent w publishers metadata msg = some x ↔ ∃ alarm pvMetadata operation,
      w.statusFromStr msg.value = some alarm ∧ alarm.source = .epics ∧
      metadata alarm.device = some pvMetadata ∧
      Controls.stateToOperation alarm.state = some operation ∧
      x = ⟨alarm.device, .ofStatus alarm,
        controlsOutbound w publishers alarm operation pvMetadata⟩ := by
  simp only [controlsIntent, Option.bind_eq_bind, Option.bind_eq_some_iff, Option.guard_eq_some',
    Option.pure_def, Option.some.injEq]
  constructor
  · rintro ⟨alarm, read, _, source, pvMetadata, known, operation, mirrored, rfl⟩
    exact ⟨alarm, pvMetadata, operation, read, source, known, mirrored, rfl⟩
  · rintro ⟨alarm, pvMetadata, operation, read, source, known, mirrored, rfl⟩
    exact ⟨alarm, read, (), source, pvMetadata, known, operation, mirrored, rfl⟩

/-- The key of a record of this operation. -/
def keyOf (operation : Operation) (msg : StringMessage) : Option Key := do
  let keyStr ← msg.key
  let key ← (Key.parse keyStr).toOption
  guard (key.operation = operation)
  return key

def acknowledgeCommand (w : Wire Value) (msg : StringMessage) : Option (Key × Command) := do
  let key ← keyOf .command msg
  let command ← Command.fromStr w msg.value
  guard (command.command = ackCommand)
  return (key, command)

def commandIntent (w : Wire Value) (msg : StringMessage) : Option Intent :=
  (acknowledgeCommand w msg).map fun (key, command) =>
    ⟨key.device, ⟨.acknowledged, none⟩,
      some (.call key.device (.acknowledge [epicsName key.device] command.user))⟩

/-- A config record: its key, its JSON and its enabled value all parse. -/
def validConfig (w : Wire Value) (now : Int) (msg : StringMessage) :
    Option (Key × Config Value × CachedState) := do
  let key ← keyOf .config msg
  let config ← Config.fromStr w msg.value
  let state ← (config.asCachedState w now).toOption
  return (key, config, state)

theorem toOption_eq_some {ε α : Type} {e : Except ε α} {a : α} :
    e.toOption = some a ↔ e = .ok a := by
  cases e <;> simp [Except.toOption]

theorem keyOf_eq_some {operation : Operation} {msg : StringMessage} {key : Key} :
    keyOf operation msg = some key ↔
      ∃ keyStr, msg.key = some keyStr ∧ Key.parse keyStr = .ok key ∧ key.operation = operation := by
  simp only [keyOf, Option.bind_eq_bind, Option.bind_eq_some_iff, toOption_eq_some,
    Option.guard_eq_some', Option.pure_def, Option.some.injEq]
  constructor
  · rintro ⟨keyStr, given, key, parsed, _, same, rfl⟩
    exact ⟨keyStr, given, parsed, same⟩
  · rintro ⟨keyStr, given, parsed, same⟩
    exact ⟨keyStr, given, key, parsed, (), same, rfl⟩

theorem acknowledgeCommand_eq_some {w : Wire Value} {msg : StringMessage} {key : Key}
    {command : Command} :
    acknowledgeCommand w msg = some (key, command) ↔
      keyOf .command msg = some key ∧ Command.fromStr w msg.value = some command ∧
        command.command = ackCommand := by
  simp only [acknowledgeCommand, Option.bind_eq_bind, Option.bind_eq_some_iff,
    Option.guard_eq_some', Option.pure_def, Option.some.injEq, Prod.mk.injEq]
  constructor
  · rintro ⟨key, parsed, command, read, _, ack, rfl, rfl⟩
    exact ⟨parsed, read, ack⟩
  · rintro ⟨parsed, read, ack⟩
    exact ⟨key, parsed, command, read, (), ack, rfl, rfl⟩

theorem validConfig_eq_some {w : Wire Value} {now : Int} {msg : StringMessage} {key : Key}
    {config : Config Value} {state : CachedState} :
    validConfig w now msg = some (key, config, state) ↔
      keyOf .config msg = some key ∧ Config.fromStr w msg.value = some config ∧
        config.asCachedState w now = .ok state := by
  simp only [validConfig, Option.bind_eq_bind, Option.bind_eq_some_iff, toOption_eq_some,
    Option.pure_def, Option.some.injEq, Prod.mk.injEq]
  constructor
  · rintro ⟨key, parsed, config, read, state, decoded, rfl, rfl, rfl⟩
    exact ⟨parsed, read, decoded⟩
  · rintro ⟨parsed, read, decoded⟩
    exact ⟨key, parsed, config, read, state, decoded, rfl, rfl, rfl⟩

theorem keyOf_operation {first second : Operation} {msg : StringMessage} {key key' : Key}
    (keyed : keyOf first msg = some key) (keyed' : keyOf second msg = some key') :
    first = second := by
  obtain ⟨keyStr, given, parsed, rfl⟩ := keyOf_eq_some.mp keyed
  obtain ⟨keyStr', given', parsed', rfl⟩ := keyOf_eq_some.mp keyed'
  obtain rfl : keyStr = keyStr' := Option.some.inj (given.symm.trans given')
  obtain rfl : key = key' := Except.ok.inj (parsed.symm.trans parsed')
  rfl

theorem acknowledge_excludes_config {w : Wire Value} {now : Int} {msg : StringMessage} {key : Key}
    {command : Command} (ack : acknowledgeCommand w msg = some (key, command)) :
    validConfig w now msg = none := by
  rcases valid : validConfig w now msg with _ | ⟨key', config, state⟩
  · rfl
  · cases keyOf_operation (acknowledgeCommand_eq_some.mp ack).1 (validConfig_eq_some.mp valid).1

theorem config_excludes_acknowledge (w : Wire Value) {msg : StringMessage} {key : Key}
    (keyed : keyOf .config msg = some key) : acknowledgeCommand w msg = none := by
  rcases ack : acknowledgeCommand w msg with _ | ⟨key', command⟩
  · rfl
  · cases keyOf_operation keyed (acknowledgeCommand_eq_some.mp ack).1

theorem validConfig_enablement {w : Wire Value} {now : Int} {msg : StringMessage} {key : Key}
    {config : Config Value} {state : CachedState}
    (valid : validConfig w now msg = some (key, config, state)) : state.Enablement :=
  Config.asCachedState_enablement (validConfig_eq_some.mp valid).2.2

def enablementRequest (device user : String) (state : CachedState) : CommandRequest :=
  if state.state = .bypassed then
    match state.wake with
    | none => .bypass [epicsName device] user
    | some wake => .snooze [epicsName device] user wake
  else .activate [epicsName device] user

theorem devices_enablementRequest (device user : String) (state : CachedState) :
    (enablementRequest device user state).devices = [device ++ "#Epics"] := by
  unfold enablementRequest
  by_cases bypassed : state.state = .bypassed
  · cases state.wake <;> simp [bypassed, CommandRequest.devices, epicsName]
  · simp [bypassed, CommandRequest.devices, epicsName]

def configIntent (key : Key) (config : Config Value) (state : CachedState) : Intent :=
  ⟨key.device, state, some (.call key.device (enablementRequest key.device config.user state))⟩

/-- What a config leaves as metadata: its own settings, the known or the keyed path and topic. -/
def configMetadata (topic : String) (known : Option (PvMetadata Value)) (key : Key)
    (config : Config Value) : PvMetadata Value :=
  { known.getD (PvMetadata.fromUnmapped key topic) with
    phoebusConfigMetadata := config.phoebusSpecific }

/-- The duplicate that is dropped altogether: suppressed, and with the settings already known.
A device without metadata counts as one with no settings. -/
def isDuplicate [DecidableEq Value] (topic : String) (world : World Value) (key : Key)
    (config : Config Value) (state : CachedState) : Bool :=
  (configIntent key config state).suppressed (world.alarmState key.device) &&
    config.phoebusSpecific ==
      ((world.metadata key.device).getD (PvMetadata.fromUnmapped key topic)).phoebusConfigMetadata

def World.followConfig [DecidableEq Value] (topic : String) (world : World Value) (key : Key)
    (config : Config Value) (state : CachedState) : World Value :=
  if isDuplicate topic world key config state then world
  else (world.observe (configIntent key config state)).updateMetadata key.device
    (configMetadata topic (world.metadata key.device) key config)

theorem World.observe_suppressed {world : World Value} {x : Intent}
    (suppressed : x.suppressed (world.alarmState x.device) = true) : world.observe x = world :=
  if_pos suppressed

theorem World.observe_mirrored {world : World Value} {x : Intent}
    (mirrored : x.suppressed (world.alarmState x.device) = false) : world.observe x =
      (x.outbound.elim world world.send).recordAlarmState x.device x.state :=
  if_neg (by simp [mirrored])

section
variable (world : World Value) (x : Intent)

@[simp] theorem World.metadata_observe : (world.observe x).metadata = world.metadata := by
  unfold World.observe
  split
  · rfl
  · cases x.outbound <;> rfl

theorem World.alarmState_observe (d : String) : (world.observe x).alarmState d =
    if d = x.device ∧ x.suppressed (world.alarmState x.device) = false then some x.state
    else world.alarmState d := by
  cases policy : x.suppressed (world.alarmState x.device) with
  | true => simp [observe_suppressed policy]
  | false =>
      rw [observe_mirrored policy]
      by_cases same : d = x.device
      · subst same; simp
      · cases x.outbound <;> simp [same]

theorem World.sent_observe : (world.observe x).sent =
    world.sent ++ if x.suppressed (world.alarmState x.device) then [] else x.outbound.toList := by
  cases policy : x.suppressed (world.alarmState x.device) with
  | true => simp [observe_suppressed policy]
  | false => rw [observe_mirrored policy]; cases x.outbound <;> simp

end

section
variable [DecidableEq Value] (topic : String) (world : World Value) (key : Key)
  (config : Config Value) (state : CachedState)

theorem observe_isDuplicate (duplicate : isDuplicate topic world key config state = true) :
    world.observe (configIntent key config state) = world := by
  unfold isDuplicate at duplicate
  rw [Bool.and_eq_true] at duplicate
  exact World.observe_suppressed duplicate.1

theorem World.alarmState_followConfig : (world.followConfig topic key config state).alarmState =
    (world.observe (configIntent key config state)).alarmState := by
  unfold followConfig
  split
  · rename_i duplicate; rw [observe_isDuplicate topic world key config state duplicate]
  · rfl

theorem World.sent_followConfig : (world.followConfig topic key config state).sent =
    (world.observe (configIntent key config state)).sent := by
  unfold followConfig
  split
  · rename_i duplicate; rw [observe_isDuplicate topic world key config state duplicate]
  · rfl

theorem World.metadata_followConfig (d : String) :
    (world.followConfig topic key config state).metadata d =
      if d = key.device ∧ isDuplicate topic world key config state = false then
        some (configMetadata topic (world.metadata key.device) key config)
      else world.metadata d := by
  unfold followConfig
  cases isDuplicate topic world key config state with
  | true => simp
  | false =>
      by_cases same : d = key.device
      · subst same; simp
      · simp [same]

end

namespace Controls

theorem run_syncEpicsMessageToPhoebus (w : Wire Value) (publishers : List String) (alarm : Status)
    (operation : Operation) (pvMetadata : PvMetadata Value) (env : Env) (world : World Value) :
    ((syncEpicsMessageToPhoebus w publishers alarm operation pvMetadata).run env.answer world).2 =
      (controlsOutbound w publishers alarm operation pvMetadata).elim world world.send := by
  unfold syncEpicsMessageToPhoebus controlsOutbound
  cases getTopicForOperation operation pvMetadata with
  | none => rfl
  | some topic =>
      cases controlsToPhoebus w alarm operation pvMetadata with
      | none => rfl
      | some message => by_cases member : topic ∈ publishers <;> simp [member]

theorem run_processControlsMessage (w : Wire Value) (publishers : List String) (alarm : Status)
    (env : Env) (world : World Value) :
    ((processControlsMessage w publishers alarm ⟨world.alarmState alarm.device⟩).run
      env.answer world).2 =
    match world.metadata alarm.device, stateToOperation alarm.state with
    | some pvMetadata, some operation => world.observe ⟨alarm.device, .ofStatus alarm,
        controlsOutbound w publishers alarm operation pvMetadata⟩
    | _, _ => world := by
  have same : (CachedState.ofStatus alarm).state = alarm.state := rfl
  simp only [processControlsMessage, Program.run_bind, run_lookupMetadata, decideControlsSync, same]
  cases world.metadata alarm.device with
  | none => rfl
  | some pvMetadata =>
      cases stateToOperation alarm.state with
      | none => rfl
      | some operation =>
          simp only [World.observe, Intent.suppressed]
          by_cases policy : (ObservedStatePolicy.mk
              (world.alarmState alarm.device)).suppressesIncoming
              (CachedState.ofStatus alarm) = true
          · simp [policy]
          · simp [policy, run_syncEpicsMessageToPhoebus]

theorem run_processRuntimeMessage (w : Wire Value) (publishers : List String) (msg : StringMessage)
    (env : Env) (world : World Value) :
    ((processRuntimeMessage w publishers msg).run env.answer world).2 =
      (controlsIntent w publishers world.metadata msg).elim world world.observe := by
  unfold processRuntimeMessage controlsIntent
  cases w.statusFromStr msg.value with
  | none => rfl
  | some alarm =>
      by_cases source : alarm.source = .epics
      · simp only [source, ne_eq, not_true_eq_false, if_false, Program.run_bind,
          run_readObservedStatePolicy, run_processControlsMessage]
        cases known : world.metadata alarm.device with
        | none => simp [source, known]
        | some pvMetadata =>
            cases operation : stateToOperation alarm.state <;> simp [source, known, operation]
      · simp [source]

end Controls

namespace Monitor

theorem run_processCommand (w : Wire Value) (key : Key) (msgText : String) (env : Env)
    (world : World Value) :
    ((processCommand w key msgText).run env.answer world).2 =
    match Command.fromStr w msgText with
    | some command => if command.command = ackCommand then
          world.observe ⟨key.device, ⟨.acknowledged, none⟩,
            some (.call key.device (.acknowledge [epicsName key.device] command.user))⟩
        else world
    | none => world := by
  simp only [processCommand, Program.run_bind, run_readObservedStatePolicy, decidePhoebusCommand]
  cases Command.fromStr w msgText with
  | none => rfl
  | some command =>
      by_cases ack : command.command = ackCommand
      · simp only [World.observe, Intent.suppressed]
        by_cases policy : (ObservedStatePolicy.mk (world.alarmState key.device)).suppressesIncoming
            ⟨.acknowledged, none⟩ = true
        · simp [ack, policy]
        · simp [ack, policy, acknowledgeAlarm]
      · simp [ack]

/-- The decision that an enablement leads to when it is not suppressed. -/
def enablementDecision (state : CachedState) : PhoebusConfigDecision :=
  if state.state = .bypassed then
    if state.wake.isNone then .bypass state else .snooze state
  else .activate state

section
variable [DecidableEq Value] {w : Wire Value} {now : Int} {config : Config Value}
  {cachedMetadata : PvMetadata Value} {observed : Option CachedState} {state : CachedState}

theorem decidePhoebusConfig_error {e : PhoebusParseError}
    (malformed : config.asCachedState w now = .error e) :
    decidePhoebusConfig w now config cachedMetadata ⟨observed⟩ = .error e := by
  simp only [decidePhoebusConfig, malformed]

theorem decidePhoebusConfig_suppressed (decoded : config.asCachedState w now = .ok state)
    (policy : (ObservedStatePolicy.mk observed).suppressesIncoming state = true) :
    decidePhoebusConfig w now config cachedMetadata ⟨observed⟩ =
      .ok (if config.phoebusSpecific = cachedMetadata.phoebusConfigMetadata then .duplicateConfig
        else .noEnablementChange) := by
  simp only [decidePhoebusConfig, decoded, policy, if_true]
  split_ifs <;> rfl

/-- `UnexpectedState` cannot occur: a config decodes to a bypass or an unbypass. -/
theorem decidePhoebusConfig_mirrored (decoded : config.asCachedState w now = .ok state)
    (policy : (ObservedStatePolicy.mk observed).suppressesIncoming state = false) :
    decidePhoebusConfig w now config cachedMetadata ⟨observed⟩ = .ok
      (enablementDecision state) := by
  simp only [decidePhoebusConfig, decoded, policy, Bool.false_eq_true, if_false, enablementDecision]
  rcases Config.asCachedState_enablement decoded with h | h
  · simp only [h, if_true]
    split_ifs <;> rfl
  · simp [h]

end

theorem run_actOnConfig (key : Key) (user : String) (state : CachedState) (env : Env)
    (world : World Value) :
    ∃ result, (actOnConfig key user (enablementDecision state)).run env.answer world =
      (.attempted .phoebusToControls result,
        (world.send (.call key.device (enablementRequest key.device user state))).recordAlarmState
          key.device state) := by
  obtain ⟨result, attempted⟩ := executeCommand_attempted env.transport .phoebusToControls
  refine ⟨result, ?_⟩
  unfold enablementDecision enablementRequest
  by_cases bypassed : state.state = .bypassed
  · cases wake : state.wake with
    | none => simp [bypassed, actOnConfig, bypassAlarm, attempted]
    | some t => simp [bypassed, wake, actOnConfig, snoozeAlarm, unwrapWake, attempted]
  · simp [bypassed, actOnConfig, activateAlarm, attempted]

theorem run_processConfig [DecidableEq Value] (w : Wire Value) (topic : String) (key : Key)
    (msgText : String) (env : Env) (world : World Value) :
    ((processConfig w topic key msgText).run env.answer world).2 =
    match (Config.fromStr w msgText).bind fun config =>
        (config.asCachedState w env.now).toOption.map fun state => (config, state) with
    | some (config, state) => world.followConfig topic key config state
    | none => world := by
  unfold processConfig
  cases Config.fromStr w msgText with
  | none => rfl
  | some config =>
      simp only [getPvMetadata, Program.run_bind, run_lookupMetadata, run_readObservedStatePolicy,
        run_readClock, Program.pure_eq, Program.run_done, Option.bind_some]
      cases decoded : config.asCachedState w env.now with
      | error e => rw [decidePhoebusConfig_error decoded]; rfl
      | ok state =>
          simp only [Except.toOption, Option.map_some, World.followConfig]
          by_cases policy : (configIntent key config state).suppressed
            (world.alarmState key.device) = true
          · rw [decidePhoebusConfig_suppressed decoded policy, World.observe_suppressed policy]
            by_cases same : config.phoebusSpecific = ((world.metadata key.device).getD
                (PvMetadata.fromUnmapped key topic)).phoebusConfigMetadata
            · simp [isDuplicate, policy, same, actOnConfig]
            · simp [isDuplicate, same, actOnConfig, configMetadata]
          · obtain ⟨result, run⟩ := run_actOnConfig key config.user state env world
            rw [Bool.not_eq_true] at policy
            have fresh : isDuplicate topic world key config state = false := by
              simp [isDuplicate, policy]
            rw [decidePhoebusConfig_mirrored decoded policy, World.observe_mirrored policy]
            simp [fresh, run, configMetadata, configIntent]

theorem run_processRuntimeMessage [DecidableEq Value] (w : Wire Value) (topic : String)
    (msg : StringMessage) (env : Env) (world : World Value) :
    ((processRuntimeMessage w topic msg).run env.answer world).2 =
    match validConfig w env.now msg with
    | some (key, config, state) => world.followConfig topic key config state
    | none => (commandIntent w msg).elim world world.observe := by
  unfold processRuntimeMessage validConfig commandIntent acknowledgeCommand keyOf
  cases msg.key with
  | none => rfl
  | some keyStr =>
      cases parsed : Key.parse keyStr with
      | error e => simp [parsed, Except.toOption]
      | ok key =>
          cases operation : key.operation with
          | state => simp [parsed, operation, Except.toOption]
          | command =>
              cases read : Command.fromStr w msg.value with
              | none => simp [parsed, operation, run_processCommand, read, Except.toOption]
              | some command =>
                  by_cases ack : command.command = ackCommand <;>
                    simp [parsed, operation, run_processCommand, read, ack, Except.toOption]
          | config =>
              cases read : Config.fromStr w msg.value with
              | none => simp [parsed, operation, run_processConfig, read, Except.toOption]
              | some config =>
                  cases decoded : config.asCachedState w env.now <;>
                    simp [parsed, operation, run_processConfig, read, decoded, Except.toOption]

end Monitor

/-- The intent that a message carries in a world with this metadata, at this clock reading. -/
def Message.intent (w : Wire Value) (publishers : List String) (now : Int)
    (metadata : String → Option (PvMetadata Value)) : Message → Option Intent
  | controls msg => controlsIntent w publishers metadata msg
  | phoebus _ msg =>
    match validConfig w now msg with
    | some (key, config, state) => some (configIntent key config state)
    | none => commandIntent w msg

section
variable [DecidableEq Value] (w : Wire Value) (publishers : List String) (env : Env)
  (world : World Value) (m : Message)

/-- Up to metadata, handling a message is observing the intent it carries. -/
theorem step_handle : (world.step w publishers (env, .handle m)).alarmState =
      ((m.intent w publishers env.now world.metadata).elim world world.observe).alarmState ∧
    (world.step w publishers (env, .handle m)).sent =
      ((m.intent w publishers env.now world.metadata).elim world world.observe).sent := by
  cases m with
  | controls msg =>
      simp only [World.step, Event.handler, Message.handler, Message.intent,
        Controls.run_processRuntimeMessage, and_self]
  | phoebus topic msg =>
      simp only [World.step, Event.handler, Message.handler, Message.intent,
        Monitor.run_processRuntimeMessage]
      rcases validConfig w env.now msg with _ | ⟨key, config, state⟩
      · simp only [and_self]
      · exact ⟨World.alarmState_followConfig .., World.sent_followConfig ..⟩

theorem metadata_step_handle (d : String) :
    (world.step w publishers (env, .handle m)).metadata d =
    match m with
    | .controls _ => world.metadata d
    | .phoebus topic msg =>
      match validConfig w env.now msg with
      | some (key, config, state) =>
        if d = key.device ∧ isDuplicate topic world key config state = false then
          some (configMetadata topic (world.metadata key.device) key config)
        else world.metadata d
      | none => world.metadata d := by
  cases m with
  | controls msg =>
      simp only [World.step, Event.handler, Message.handler, Controls.run_processRuntimeMessage]
      cases controlsIntent w publishers world.metadata msg <;> simp
  | phoebus topic msg =>
      simp only [World.step, Event.handler, Message.handler, Monitor.run_processRuntimeMessage]
      rcases validConfig w env.now msg with _ | ⟨key, config, state⟩
      · cases commandIntent w msg <;> simp
      · exact World.metadata_followConfig topic world key config state d

end

namespace Startup

/-- What a severity tells of an alarm, in whatever case its letters are. -/
def severityState (severity : String) : State :=
  let name := RustText.toAsciiUppercase severity
  if name = "OK" then .unbypassed
  else if name = "MINOR" ∨ name = "MAJOR" then .alarmed
  else if RustText.endsWith name "_ACK" then .acknowledged
  else .unknown

/-- A state record whose JSON has a member `severity` that is a string: its device and the state
that the severity is evidence of. -/
def usefulState (w : Wire Value) (msg : StringMessage) : Option (String × CachedState) := do
  let key ← keyOf .state msg
  let json ← w.fromStr msg.value
  let member ← json.get "severity"
  let severity ← w.asString member
  return (key.device, ⟨severityState severity, none⟩)

theorem severityState_eq (severity : String) :
    severityState severity = stateOfSeverity (RustText.toAsciiUppercase severity) := by
  simp only [severityState, stateOfSeverity]
  by_cases ok : RustText.toAsciiUppercase severity = "OK"
  · rw [ok]
    decide
  · by_cases live : RustText.toAsciiUppercase severity = "MINOR" ∨
        RustText.toAsciiUppercase severity = "MAJOR"
    · rcases live with live | live <;> rw [live] <;> decide
    · simp only [ok, live, if_false]

theorem usefulState_eq (w : Wire Value) (msg : StringMessage) : usefulState w msg = do
    let key ← keyOf .state msg
    let severity ← extractSeverity w msg.value
    return (key.device, ⟨stateOfSeverity severity, none⟩) := by
  simp only [usefulState, extractSeverity, severityState_eq, Option.bind_eq_bind, Option.pure_def,
    Option.bind_assoc, Option.bind_some]

theorem usefulState_eq_some {w : Wire Value} {msg : StringMessage} {device : String}
    {state : CachedState} :
    usefulState w msg = some (device, state) ↔ ∃ key severity, keyOf .state msg = some key ∧
      extractSeverity w msg.value = some severity ∧ device = key.device ∧
      state = ⟨stateOfSeverity severity, none⟩ := by
  simp only [usefulState_eq, Option.bind_eq_bind, Option.bind_eq_some_iff, Option.pure_def,
    Option.some.injEq, Prod.mk.injEq]
  constructor
  · rintro ⟨key, keyed, severity, read, rfl, rfl⟩
    exact ⟨key, severity, keyed, read, rfl, rfl⟩
  · rintro ⟨key, severity, keyed, read, rfl, rfl⟩
    exact ⟨key, keyed, severity, read, rfl, rfl⟩

theorem config_excludes_state (w : Wire Value) {msg : StringMessage} {key : Key}
    (keyed : keyOf .config msg = some key) : usefulState w msg = none := by
  rcases useful : usefulState w msg with _ | ⟨device, state⟩
  · rfl
  · obtain ⟨key', _, keyed', _⟩ := usefulState_eq_some.mp useful
    cases keyOf_operation keyed keyed'

/-- The metadata that startup takes from a config record: the topic as configured. -/
def hydratedMetadata (topic : String) (key : Key) (config : Config Value) : PvMetadata Value where
  phoebusConfigMetadata := config.phoebusSpecific
  displayPath := key.displayPath
  phoebusTopic := topic

theorem run_hydrateMessage (w : Wire Value) (topic : String) (msg : StringMessage) (env : Env)
    (world : World Value) :
    ((hydrateMessage w topic msg).run env.answer world).2 =
    match validConfig w env.now msg with
    | some (key, config, state) =>
        (world.recordAlarmState key.device state).updateMetadata key.device
        (hydratedMetadata topic key config)
    | none =>
        (usefulState w msg).elim world fun (device, state) =>
          world.recordEvidence device state := by
  rw [usefulState_eq]
  unfold hydrateMessage validConfig keyOf
  cases msg.key with
  | none => rfl
  | some keyStr =>
      cases parsed : Key.parse keyStr with
      | error e => simp [parsed, Except.toOption]
      | ok key =>
          cases operation : key.operation with
          | command => simp [parsed, operation, Except.toOption]
          | state =>
              cases severity : extractSeverity w msg.value <;>
                simp [parsed, operation, handleState, severity, Except.toOption]
          | config =>
              cases read : Config.fromStr w msg.value with
              | none => simp [parsed, operation, handleConfig, read, Except.toOption]
              | some config =>
                  cases decoded : config.asCachedState w env.now <;>
                    simp [parsed, operation, handleConfig, read, decoded, Except.toOption,
                      hydratedMetadata]

end Startup

section
variable [DecidableEq Value] (w : Wire Value) (publishers : List String) (env : Env)
  (world : World Value) (topic : String) (msg : StringMessage) (d : String)

theorem alarmState_step_hydrate : (world.step w publishers (env, .hydrate topic msg)).alarmState d =
    match validConfig w env.now msg with
    | some (key, _, state) => if d = key.device then some state else world.alarmState d
    | none =>
      match Startup.usefulState w msg with
      | some (device, state) =>
        if d = device ∧ (world.alarmState d).any (·.state == .bypassed) = false then some state
        else world.alarmState d
      | none => world.alarmState d := by
  simp only [World.step, Event.handler, Startup.run_hydrateMessage]
  rcases validConfig w env.now msg with _ | ⟨key, config, state⟩
  · rcases Startup.usefulState w msg with _ | ⟨device, state⟩
    · rfl
    · simp only [Option.elim_some, World.recordEvidence]
      by_cases same : d = device
      · subst same
        cases bypassed : (world.alarmState d).any (·.state == .bypassed) <;> simp
      · by_cases bypassed : (world.alarmState device).any (·.state == .bypassed) = true <;>
          simp [same, bypassed]
  · by_cases same : d = key.device
    · subst same; simp
    · simp [same]

theorem sent_step_hydrate :
    (world.step w publishers (env, .hydrate topic msg)).sent = world.sent := by
  simp only [World.step, Event.handler, Startup.run_hydrateMessage]
  rcases validConfig w env.now msg with _ | ⟨key, config, state⟩
  · rcases Startup.usefulState w msg with _ | ⟨device, state⟩ <;> simp
  · simp

theorem metadata_step_hydrate : (world.step w publishers (env, .hydrate topic msg)).metadata d =
    match validConfig w env.now msg with
    | some (key, config, _) =>
      if d = key.device then some (Startup.hydratedMetadata topic key config) else world.metadata d
    | none => world.metadata d := by
  simp only [World.step, Event.handler, Startup.run_hydrateMessage]
  rcases validConfig w env.now msg with _ | ⟨key, config, state⟩
  · rcases Startup.usefulState w msg with _ | ⟨device, state⟩ <;> simp
  · by_cases same : d = key.device
    · subst same; simp
    · simp [same]

/-- Metadata after an event are those from before it, or those of a valid config that it handles. -/
theorem metadata_step_cases {e : Env × Event} {pvMetadata : PvMetadata Value}
    (after : (world.step w publishers e).metadata d = some pvMetadata) :
    world.metadata d = some pvMetadata ∨
      ∃ topic msg key config state, validConfig w e.1.now msg = some (key, config, state) ∧
        key.device = d ∧
        (e.2 = .hydrate topic msg ∧ pvMetadata = Startup.hydratedMetadata topic key config ∨
          e.2 = .handle (.phoebus topic msg) ∧
            pvMetadata = configMetadata topic (world.metadata d) key config) := by
  obtain ⟨env, event⟩ := e
  cases event with
  | hydrate topic msg =>
      rw [metadata_step_hydrate] at after
      rcases valid : validConfig w env.now msg with _ | ⟨key, config, state⟩
      · simp only [valid] at after
        exact .inl after
      · simp only [valid] at after
        split_ifs at after with same
        · cases after
          exact .inr ⟨topic, msg, key, config, state, valid, same.symm, .inl ⟨rfl, rfl⟩⟩
        · exact .inl after
  | handle m =>
      rw [metadata_step_handle] at after
      cases m with
      | controls msg => exact .inl after
      | phoebus topic msg =>
          rcases valid : validConfig w env.now msg with _ | ⟨key, config, state⟩
          · simp only [valid] at after
            exact .inl after
          · simp only [valid] at after
            split_ifs at after with same
            · obtain ⟨rfl, _⟩ := same
              cases after
              exact .inr ⟨topic, msg, key, config, state, valid, rfl, .inr ⟨rfl, rfl⟩⟩
            · exact .inl after

end

end AlarmSync
