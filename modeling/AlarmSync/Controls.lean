import AlarmSync.Effects

/-! The Controls side: EPICS statuses are mirrored into Phoebus records. -/
namespace AlarmSync.Controls

variable {Value : Type}

def controlsHost : String := "Flutter Alarms App"

def stateToOperation : State → Option Operation
  | .acknowledged => some .command
  | .bypassed | .unbypassed => some .config
  | _ => none

/-- A wake that is no instant is dropped: the snooze becomes a plain bypass. -/
def normalizedEnablementFromControls (w : Wire Value) (alarm : Status) : NormalizedEnablement :=
  if alarm.state = .bypassed then
    match alarm.wake.bind fun t => w.timestampOpt t.seconds t.nanos.toUInt32 with
    | some dt => .snoozedUntil dt
    | none => .bypassed
  else .active

def getPhoebusKey (operation : Operation) (displayPath device : String) : String :=
  operation.getKeyPrefix ++ ":" ++ displayPath ++ "/" ++ device

def controlsToPhoebus (w : Wire Value) (alarm : Status) (operation : Operation)
    (metadata : PvMetadata Value) : Option StringMessage :=
  let key := getPhoebusKey operation metadata.displayPath alarm.device
  match operation with
  | .command => some ⟨some key, Command.toStr w ⟨alarm.user, controlsHost, ackCommand⟩⟩
  | .config => some ⟨some key, Config.toStr w {
      enabled := (normalizedEnablementFromControls w alarm).asEnabledString w
      host := controlsHost
      user := alarm.user
      phoebusSpecific := metadata.phoebusConfigMetadata }⟩
  | .state => none

def getTopicForOperation (operation : Operation) (metadata : PvMetadata Value) : Option String :=
  match operation with
  | .command => some (getCommandTopic metadata.phoebusTopic)
  | .config => some metadata.phoebusTopic
  | .state => none

/-- The topics `Synchronizer::new` makes a publisher for. -/
def phoebusPublishers (phoebusTopics : List String) : List String :=
  phoebusTopics.flatMap fun topic => [topic, getCommandTopic topic]

inductive ControlsInboundDecision (Value : Type) where
  | ignoreNonSyncState
  | outOfScope
  | suppressedByPolicy
  | syncToPhoebus (operation : Operation) (pvMetadata : PvMetadata Value)
      (updatedState : CachedState)

def decideControlsSync (alarm : Status) (previous : ObservedStatePolicy)
    (pvMetadataOpt : Option (PvMetadata Value)) : ControlsInboundDecision Value :=
  match pvMetadataOpt with
  | none => .outOfScope
  | some pvMetadata =>
    let updatedState := CachedState.ofStatus alarm
    match stateToOperation updatedState.state with
    | none => .ignoreNonSyncState
    | some operation =>
      if previous.suppressesIncoming updatedState then .suppressedByPolicy
      else .syncToPhoebus operation pvMetadata updatedState

def syncEpicsMessageToPhoebus (w : Wire Value) (publishers : List String) (alarm : Status)
    (operation : Operation) (pvMetadata : PvMetadata Value) : Handler Value OutboundSyncResult :=
  match getTopicForOperation operation pvMetadata with
  | none => return .skipped .missingTopic
  | some topic =>
    match controlsToPhoebus w alarm operation pvMetadata with
    | none => return .skipped .malformedMessage
    | some message =>
      if topic ∈ publishers then do
        let published ← Handler.publish alarm.device topic message
        return if published then .succeeded else .failed
      else return .skipped .missingPublisher

def processControlsMessage (w : Wire Value) (publishers : List String) (alarm : Status)
    (previous : ObservedStatePolicy) : Handler Value SyncOutcome := do
  let pvMetadataOpt ← Handler.lookupMetadata alarm.device
  match decideControlsSync alarm previous pvMetadataOpt with
  | .ignoreNonSyncState => return .ignored .stateNoise
  | .outOfScope => return .outOfScope
  | .suppressedByPolicy => return .ignored .suppressedByPolicy
  | .syncToPhoebus operation pvMetadata updatedState =>
    let outboundResult ← syncEpicsMessageToPhoebus w publishers alarm operation pvMetadata
    -- recorded whatever became of the send
    Handler.recordAlarmState alarm.device updatedState
    return outboundResult.intoSyncOutcome .controlsToPhoebus

/-- `none` is the error of a text that is no `Status`. -/
def processRuntimeMessage (w : Wire Value) (publishers : List String) (msg : StringMessage) :
    Handler Value (Option SyncOutcome) :=
  match w.statusFromStr msg.value with
  | none => return none
  | some alarm =>
    if alarm.source ≠ .epics then return some (.ignored .externalSource)
    else do
      let previous ← readObservedStatePolicy alarm.device
      let outcome ← processControlsMessage w publishers alarm previous
      return some outcome

end AlarmSync.Controls
