import AlarmSync.Wire

/-! Outbound traffic and how it is reported: publishes to Phoebus topics, calls to the
Controls alarm service, and the outcome of handling a message. -/
namespace AlarmSync

inductive SyncDirection where
  | controlsToPhoebus | phoebusToControls
  deriving DecidableEq, Repr

inductive IgnoreReason where
  | externalSource | stateNoise | suppressedByPolicy
  deriving DecidableEq, Repr

inductive SkipReason where
  | missingTopic | missingPublisher | malformedMessage
  deriving DecidableEq, Repr

inductive AttemptResult where
  | succeeded | failed
  deriving DecidableEq, Repr

inductive SyncOutcome where
  | duplicate
  | ignored (reason : IgnoreReason)
  | outOfScope
  | skipped (reason : SkipReason)
  | attempted (direction : SyncDirection) (result : AttemptResult)
  | hydrated
  deriving DecidableEq, Repr

inductive OutboundSyncResult where
  | succeeded
  | failed
  | skipped (reason : SkipReason)
  deriving DecidableEq, Repr

def OutboundSyncResult.intoSyncOutcome (direction : SyncDirection) :
    OutboundSyncResult → SyncOutcome
  | succeeded => .attempted direction .succeeded
  | failed => .attempted direction .failed
  | skipped reason => .skipped reason

/-- The requests of the Controls alarm service. -/
inductive CommandRequest where
  | acknowledge (devices : List String) (user : String)
  | activate (devices : List String) (user : String)
  | bypass (devices : List String) (user : String)
  | snooze (devices : List String) (user : String) (wake : Timestamp)
  deriving DecidableEq, Repr

def CommandRequest.devices : CommandRequest → List String
  | acknowledge devices _ | activate devices _ | bypass devices _ | snooze devices _ _ => devices

def epicsName (device : String) : String := device ++ "#Epics"

/-- What became of one call: whether the endpoint was usable, and of each attempt. -/
structure Transport where
  endpoint : Bool
  attempt : Bool
  retry : Bool
  deriving DecidableEq, Repr

/-- `ControlsClient::execute_command`: one retry. -/
def executeCommand (transport : Transport) : OutboundSyncResult :=
  if !transport.endpoint then .failed
  else if transport.attempt then .succeeded
  else if transport.retry then .succeeded
  else .failed

/-- One outbound call; `device` is the alarm the handler acts for. -/
inductive Outbound where
  | publish (device topic : String) (message : StringMessage)
  | call (device : String) (request : CommandRequest)
  deriving DecidableEq, Repr

def Outbound.device : Outbound → String
  | publish device _ _ => device
  | call device _ => device

/-- What a send reports back: whether a publish went through, or how a call fared. -/
def Outbound.Reply : Outbound → Type
  | publish .. => Bool
  | call .. => Transport

theorem executeCommand_attempted (transport : Transport) (direction : SyncDirection) :
    ∃ result, (executeCommand transport).intoSyncOutcome direction =
      .attempted direction result := by
  unfold executeCommand
  split_ifs <;> exact ⟨_, rfl⟩

end AlarmSync
