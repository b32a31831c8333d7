import AlarmSync.Monitor

/-! Startup hydration of the caches from the existing records of each topic. -/
namespace AlarmSync.Startup

variable {Value : Type}

def handleConfig (w : Wire Value) (topic : String) (key : Key) (value : String) :
    Handler Value SyncOutcome :=
  match Config.fromStr w value with
  | none => return .skipped .malformedMessage
  | some config => do
    let now ← Handler.readClock
    match config.asCachedState w now with
    | .error _ => return .skipped .malformedMessage
    | .ok alarmState =>
      Handler.recordAlarmState key.device alarmState
      Handler.updateMetadata key.device
        { phoebusConfigMetadata := config.phoebusSpecific
          displayPath := key.displayPath
          phoebusTopic := topic }
      return .hydrated

def extractSeverity (w : Wire Value) (value : String) : Option String := do
  let json ← w.fromStr value
  let severity ← json.get "severity"
  let text ← w.asString severity
  return RustText.toAsciiUppercase text

/-- The state that a severity stands for. `OK` is an unbypass. -/
def stateOfSeverity (severity : String) : State :=
  if RustText.endsWith severity "_ACK" then .acknowledged
  else if severity = "MINOR" ∨ severity = "MAJOR" then .alarmed
  else if severity = "OK" then .unbypassed
  else .unknown

def handleState (w : Wire Value) (key : Key) (value : String) : Handler Value SyncOutcome :=
  match extractSeverity w value with
  | some severity => do
    Handler.recordEvidence key.device ⟨stateOfSeverity severity, none⟩
    return .hydrated
  | none => return .ignored .stateNoise

/-- The body of the loop of `populate_caches`. A message without a key has no outcome. -/
def hydrateMessage (w : Wire Value) (topic : String) (message : StringMessage) :
    Handler Value (Option SyncOutcome) :=
  match message.key with
  | none => return none
  | some msgKey =>
    match Key.parse msgKey with
    | .error error => return some (Monitor.mapKeyParseError error)
    | .ok key => do
      let outcome ← match key.operation with
        | .config => handleConfig w topic key message.value
        | .state => handleState w key message.value
        | .command => pure (.ignored .stateNoise)
      return some outcome

def populateCaches (w : Wire Value) (topic : String) : List StringMessage → Handler Value Unit
  | [] => return ()
  | message :: rest => do
    let _ ← hydrateMessage w topic message
    populateCaches w topic rest

/-- A snapshot that failed counts as one without messages. -/
def getExistingMessagesFromPhoebus (w : Wire Value) :
    List (String × Except Unit (List StringMessage)) → Handler Value Unit
  | [] => return ()
  | (topic, result) :: topics => do
    populateCaches w topic (result.toOption.getD [])
    getExistingMessagesFromPhoebus w topics

end AlarmSync.Startup
