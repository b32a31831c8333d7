import AlarmSync.Effects

/-! The Phoebus side: commands and configs of one topic are mirrored into calls to
Controls, and configs keep the metadata of their device up to date. -/
namespace AlarmSync.Monitor

variable {Value : Type}

/-- `topic` is the topic that the monitor watches. -/
def getPvMetadata (topic : String) (key : Key) : Handler Value (PvMetadata Value) := do
  let known ← Handler.lookupMetadata key.device
  return known.getD (PvMetadata.fromUnmapped key topic)

/-! `ControlsClient`: one request for each operation. -/

def acknowledgeAlarm (device user : String) : Handler Value OutboundSyncResult := do
  let transport ← Handler.call device (.acknowledge [epicsName device] user)
  return executeCommand transport

def activateAlarm (device user : String) : Handler Value OutboundSyncResult := do
  let transport ← Handler.call device (.activate [epicsName device] user)
  return executeCommand transport

def bypassAlarm (device user : String) : Handler Value OutboundSyncResult := do
  let transport ← Handler.call device (.bypass [epicsName device] user)
  return executeCommand transport

def snoozeAlarm (device user : String) (wake : Timestamp) : Handler Value OutboundSyncResult := do
  let transport ← Handler.call device (.snooze [epicsName device] user wake)
  return executeCommand transport

inductive PhoebusCommandDecision where
  | ignoreUnsupportedCommand
  | suppressedByPolicy
  | acknowledge (user : String) (updatedState : CachedState)
  deriving DecidableEq, Repr

def decidePhoebusCommand (w : Wire Value) (msgText : String)
    (observedPolicy : ObservedStatePolicy) : Except PhoebusParseError PhoebusCommandDecision :=
  match Command.fromStr w msgText with
  | none => .error .malformedMessage
  | some commandMsg =>
    if commandMsg.command ≠ ackCommand then .ok .ignoreUnsupportedCommand
    else
      let updatedState : CachedState := ⟨.acknowledged, none⟩
      if observedPolicy.suppressesIncoming updatedState then .ok .suppressedByPolicy
      else .ok (.acknowledge commandMsg.user updatedState)

inductive PhoebusConfigDecision where
  | duplicateConfig
  | noEnablementChange
  | activate (updatedState : CachedState)
  | bypass (updatedState : CachedState)
  | snooze (updatedState : CachedState)
  deriving DecidableEq, Repr

def decidePhoebusConfig [DecidableEq Value] (w : Wire Value) (now : Int) (config : Config Value)
    (cachedMetadata : PvMetadata Value) (lastObservedState : ObservedStatePolicy) :
    Except PhoebusParseError PhoebusConfigDecision :=
  match config.asCachedState w now with
  | .error e => .error e
  | .ok updatedState =>
    if lastObservedState.suppressesIncoming updatedState then
      if config.phoebusSpecific = cachedMetadata.phoebusConfigMetadata then .ok .duplicateConfig
      else .ok .noEnablementChange
    else
      match updatedState.state with
      | .bypassed => if updatedState.wake.isNone then .ok (.bypass updatedState)
          else .ok (.snooze updatedState)
      | .unbypassed => .ok (.activate updatedState)
      | _ => .error .unexpectedState

def logParseError : SyncOutcome := .skipped .malformedMessage

def processCommand (w : Wire Value) (key : Key) (msgText : String) : Handler Value SyncOutcome := do
  let observedPolicy ← readObservedStatePolicy key.device
  match decidePhoebusCommand w msgText observedPolicy with
  | .error _ => return logParseError
  | .ok .ignoreUnsupportedCommand => return .ignored .stateNoise
  | .ok .suppressedByPolicy => return .ignored .suppressedByPolicy
  | .ok (.acknowledge user updatedState) =>
    let outboundResult ← acknowledgeAlarm key.device user
    Handler.recordAlarmState key.device updatedState
    return outboundResult.intoSyncOutcome .phoebusToControls

/-- The wake of a snooze decision. The decision is made only for a state that has one. -/
def unwrapWake (state : CachedState) : Timestamp := state.wake.getD ⟨0, 0⟩

/-- The side effects of a config decision, before the metadata is brought up to date. -/
def actOnConfig (key : Key) (user : String) : PhoebusConfigDecision → Handler Value SyncOutcome
  | .duplicateConfig => return .duplicate
  | .noEnablementChange => return .ignored .stateNoise
  | .bypass updatedState => do
    let outboundResult ← bypassAlarm key.device user
    Handler.recordAlarmState key.device updatedState
    return outboundResult.intoSyncOutcome .phoebusToControls
  | .activate updatedState => do
    let outboundResult ← activateAlarm key.device user
    Handler.recordAlarmState key.device updatedState
    return outboundResult.intoSyncOutcome .phoebusToControls
  | .snooze updatedState => do
    let outboundResult ← snoozeAlarm key.device user (unwrapWake updatedState)
    Handler.recordAlarmState key.device updatedState
    return outboundResult.intoSyncOutcome .phoebusToControls

def processConfig [DecidableEq Value] (w : Wire Value) (topic : String) (key : Key)
    (msgText : String) : Handler Value SyncOutcome :=
  match Config.fromStr w msgText with
  | none => return logParseError
  | some config => do
    let cachedMetadata ← getPvMetadata topic key
    let lastObservedState ← readObservedStatePolicy key.device
    let now ← Handler.readClock
    match decidePhoebusConfig w now config cachedMetadata lastObservedState with
    | .error _ => return logParseError
    | .ok decision =>
      let outcome ← actOnConfig key config.user decision
      if outcome ≠ .duplicate then
        -- path and topic stay as cached; only the settings follow the config
        Handler.updateMetadata key.device
          { cachedMetadata with phoebusConfigMetadata := config.phoebusSpecific }
      return outcome

/-- `map_key_parse_error`. -/
def mapKeyParseError : KeyParseError → SyncOutcome
  | .unsupportedOperation => .ignored .stateNoise
  | .malformedStructure | .emptyDevice => .skipped .malformedMessage

/-- The outcome is the one the monitor logs; a message without a key has none. -/
def processRuntimeMessage [DecidableEq Value] (w : Wire Value) (topic : String)
    (msg : StringMessage) : Handler Value (Option SyncOutcome) :=
  match msg.key with
  | none => return none
  | some keyStr =>
    match Key.parse keyStr with
    | .error error => return some (mapKeyParseError error)
    | .ok key => do
      let outcome ← match key.operation with
        | .command => processCommand w key msg.value
        | .config => processConfig w topic key msg.value
        | .state => pure (.ignored .stateNoise)
      return some outcome

end AlarmSync.Monitor
