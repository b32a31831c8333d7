import AlarmSync.Addresses

/-! The environment that the process is started in: which settings it takes, and what every process
does that they start. -/
namespace AlarmSync

open EffectProgram
open RustText (split trim join Trimmed Blank trim_eq_iff split_eq_iff)

/-- The settings. What `SynchronizerConfig` shares besides, the two caches and the token, is in the
`World` and in the `Lifecycle`. -/
structure SynchronizerConfig where
  controlsHost : String
  controlsTopic : String
  grpcAlarmsSvcHost : String
  phoebusHost : String
  phoebusTopics : List String
  deriving DecidableEq, Repr

inductive ConfigLoadError where
  | missingVariable (var : String)
  deriving DecidableEq, Repr

section
variable {α Addr : Type}

/-- `env_var::get(var).to_option().ok_or(..)`: the text that the variable is set to, if there is
one, is read as a value of the type that is asked for. -/
def require (read : String → Option α) (vars : String → Option String) (var : String) :
    Except ConfigLoadError α :=
  ((vars var).bind read).elim (.error (.missingVariable var)) .ok

def createSynchronizerConfig (vars : String → Option String) :
    Except ConfigLoadError SynchronizerConfig := do
  let controlsHost ← require some vars "CONTROLS_HOST"
  let controlsTopic ← require some vars "CONTROLS_TOPIC"
  let grpcAlarmsSvcHost ← require some vars "GRPC_ALARMS_SERVICE_HOST"
  let phoebusHost ← require some vars "PHOEBUS_HOST"
  let phoebusTopics ← require some vars "PHOEBUS_TOPICS"
  return ⟨controlsHost, controlsTopic, grpcAlarmsSvcHost, phoebusHost,
    (split ',' phoebusTopics).map trim⟩

/-- What can fail before the server is spawned: the address that it serves on is read
as a `SocketAddr`. -/
def spawnHealthServer (toAddr : String → Option Addr) (vars : String → Option String) :
    Except ConfigLoadError Unit := do
  let _ ← require toAddr vars "HEALTH_ADDR"

def boot (toAddr : String → Option Addr) (vars : String → Option String) :
    Except ConfigLoadError SynchronizerConfig := do
  let config ← createSynchronizerConfig vars
  spawnHealthServer toAddr vars
  return config

end

def required : List String :=
  ["CONTROLS_HOST", "CONTROLS_TOPIC", "GRPC_ALARMS_SERVICE_HOST", "PHOEBUS_HOST", "PHOEBUS_TOPICS",
  "HEALTH_ADDR"]

/-- The variable is set, and the health address to one that a server can serve on. -/
def Readable {Addr : Type} (toAddr : String → Option Addr) (vars : String → Option String)
    (var : String) : Bool :=
  if var = "HEALTH_ADDR" then ((vars var).bind toAddr).isSome else (vars var).isSome

/-- The topics stand one after the other with commas between, each with blanks around
it as it may be. -/
def Lists (text : String) (topics : List String) : Prop :=
  topics ≠ [] ∧ (∀ topic ∈ topics, Trimmed topic ∧ ',' ∉ topic.toList) ∧
    ∃ fields, text = join ',' fields ∧
      List.Forall₂ (fun topic field => ∃ a b, Blank a ∧ Blank b ∧
        field = a ++ topic ++ b) topics fields

theorem comma_not_mem_blank {s : String} (blank : Blank s) : ',' ∉ s.toList := by
  intro member
  have white := blank _ member
  revert white
  decide

theorem map_trim_split {text : String} {topics : List String} :
    (split ',' text).map trim = topics ↔ Lists text topics := by
  constructor
  · rintro rfl
    obtain ⟨joined, some', free⟩ := split_eq_iff.mp (Eq.refl (split ',' text))
    refine ⟨by simpa using some', ?_, _, joined, ?_⟩
    · intro topic member
      obtain ⟨field, member', rfl⟩ := List.mem_map.mp member
      obtain ⟨trimmed, a, b, _, _, text⟩ := trim_eq_iff.mp (Eq.refl (trim field))
      refine ⟨trimmed, fun comma => free field member' ?_⟩
      rw [text]
      simp [comma]
    · rw [List.forall₂_map_left_iff, List.forall₂_same]
      intro field _
      exact (trim_eq_iff.mp rfl).2
  · rintro ⟨some', all, fields, rfl, around⟩
    have each : fields.map trim = topics ∧ ∀ field ∈ fields, ',' ∉ field.toList := by
      clear some'
      induction around with
      | nil => simp
      | @cons topic field topics fields one _ ih =>
          obtain ⟨a, b, before, after, rfl⟩ := one
          obtain ⟨trimmed, free⟩ := all topic List.mem_cons_self
          obtain ⟨same, rest⟩ := ih fun topic member => all topic (List.mem_cons_of_mem _ member)
          refine ⟨?_, ?_⟩
          · rw [List.map_cons, same, trim_eq_iff.mpr ⟨trimmed, a, b, before, after, rfl⟩]
          · rintro _ (_ | ⟨_, later⟩)
            · simp [comma_not_mem_blank before, comma_not_mem_blank after, free]
            · exact rest _ later
    have fields' : fields ≠ [] := by
      rintro rfl
      exact some' each.1.symm
    rw [split_eq_iff.mpr ⟨rfl, fields', each.2⟩]
    exact each.1

section
variable {α β Addr : Type} {read : String → Option α} {vars : String → Option String} {var : String}
  {next : α → Except ConfigLoadError β} {toAddr : String → Option Addr}
  {config : SynchronizerConfig} {error : ConfigLoadError}

theorem require_then_ok {b : β} : (require read vars var >>= next) = .ok b ↔
    ∃ a, (vars var).bind read = some a ∧ next a = .ok b := by
  cases given : (vars var).bind read <;> simp [require, given, bind, Except.bind]

theorem require_then_error : (require read vars var >>= next) = .error error ↔
    (vars var).bind read = none ∧ error = .missingVariable var ∨
      ∃ a, (vars var).bind read = some a ∧ next a = .error error := by
  cases given : (vars var).bind read <;> simp [require, given, bind, Except.bind, eq_comm]

theorem firstUnreadable_cons {rest : List String}
    (readable : Readable toAddr vars var = ((vars var).bind read).isSome) :
    (∃ v, error = .missingVariable v ∧
        (var :: rest).find? (fun v => !Readable toAddr vars v) = some v) ↔
      (vars var).bind read = none ∧ error = .missingVariable var ∨
        ∃ a, (vars var).bind read = some a ∧
          ∃ v, error = .missingVariable v ∧
          rest.find? (fun v => !Readable toAddr vars v) = some v := by
  cases given : (vars var).bind read <;>
    simp [readable, given, and_comm, eq_comm]

/-- A configuration has what the variables are set to, and the health address is one. -/
def Configured (toAddr : String → Option Addr) (vars : String → Option String)
    (config : SynchronizerConfig) : Prop :=
  vars "CONTROLS_HOST" = some config.controlsHost ∧
  vars "CONTROLS_TOPIC" = some config.controlsTopic ∧
  vars "GRPC_ALARMS_SERVICE_HOST" = some config.grpcAlarmsSvcHost ∧
  vars "PHOEBUS_HOST" = some config.phoebusHost ∧
  (∃ text, vars "PHOEBUS_TOPICS" = some text ∧ Lists text config.phoebusTopics) ∧
  ∃ text addr, vars "HEALTH_ADDR" = some text ∧ toAddr text = some addr

theorem boot_eq_ok : boot toAddr vars = .ok config ↔ Configured toAddr vars config := by
  simp only [boot, createSynchronizerConfig, spawnHealthServer, bind_assoc,
    pure_bind, require_then_ok, Configured, ← map_trim_split, Option.bind_fun_some,
    Option.bind_eq_some_iff]
  constructor
  · rintro ⟨_, host, _, topic, _, grpc, _, phoebus, text, topics, addr, ⟨given, health, read⟩, ⟨⟩⟩
    exact ⟨host, topic, grpc, phoebus, ⟨text, topics, rfl⟩, given, addr, health, read⟩
  · obtain ⟨controlsHost, controlsTopic, grpcAlarmsSvcHost, phoebusHost, phoebusTopics⟩ := config
    rintro ⟨host, topic, grpc, phoebus, ⟨text, topics, rfl⟩, given, addr, health, read⟩
    exact ⟨_, host, _, topic, _, grpc, _, phoebus, text, topics, addr, ⟨given, health, read⟩, rfl⟩

theorem boot_eq_error : boot toAddr vars = .error error ↔ ∃ var, error = .missingVariable var ∧
    required.find? (fun var => !Readable toAddr vars var) = some var := by
  have text : ∀ var, var ≠ "HEALTH_ADDR" →
      Readable toAddr vars var = ((vars var).bind some).isSome := by
    intro var other
    simp [Readable, other]
  have addr : Readable toAddr vars "HEALTH_ADDR" = ((vars "HEALTH_ADDR").bind toAddr).isSome := by
    simp [Readable]
  simp only [boot, createSynchronizerConfig, spawnHealthServer, bind_assoc, pure_bind,
    require_then_error, required, firstUnreadable_cons (text "CONTROLS_HOST" (by decide)),
    firstUnreadable_cons (text "CONTROLS_TOPIC" (by decide)),
    firstUnreadable_cons (text "GRPC_ALARMS_SERVICE_HOST" (by decide)),
    firstUnreadable_cons (text "PHOEBUS_HOST" (by decide)),
    firstUnreadable_cons (text "PHOEBUS_TOPICS" (by decide)), firstUnreadable_cons addr]
  simp [pure, Except.pure]

/-- The process starts with a configuration exactly when all variables are set, the health address
to a socket address, and the text for the topics lists those of the configuration; else it ends with
the first variable that is not. -/
theorem configuration_exact (toAddr : String → Option Addr) (vars : String → Option String) :
    (∀ config, boot toAddr vars = .ok config ↔ Configured toAddr vars config) ∧
    ∀ error, boot toAddr vars = .error error ↔ ∃ var, error = .missingVariable var ∧
      required.find? (fun var => !Readable toAddr vars var) = some var :=
  ⟨fun _ => boot_eq_ok, fun _ => boot_eq_error⟩

end

/-! The process that a configuration starts. -/

namespace SynchronizerConfig

def withCommandTopics (config : SynchronizerConfig) : List String :=
  config.phoebusTopics.flatMap fun topic => [topic, getCommandTopic topic]

abbrev Monitors (config : SynchronizerConfig) : Type := Fin config.withCommandTopics.length

def monitored (config : SynchronizerConfig) (i : config.Monitors) : String :=
  config.withCommandTopics.get i

theorem monitored_iff (config : SynchronizerConfig) (topic : String) :
    (∃ i, config.monitored i = topic) ↔ topic ∈ Controls.phoebusPublishers config.phoebusTopics :=
  List.mem_iff_get.symm

theorem nonempty_monitors {Addr : Type} {toAddr : String → Option Addr}
    {vars : String → Option String} {config : SynchronizerConfig}
    (loaded : boot toAddr vars = .ok config) : Nonempty config.Monitors := by
  obtain ⟨_, _, _, _, ⟨_, _, some', _⟩, _⟩ := boot_eq_ok.mp loaded
  obtain ⟨topic, member⟩ := List.exists_mem_of_ne_nil _ some'
  obtain ⟨i, _⟩ := (config.monitored_iff topic).mpr
    (mem_phoebusPublishers.mpr ⟨topic, member, .inl rfl⟩)
  exact ⟨i⟩

end SynchronizerConfig

variable {Value Addr : Type} [DecidableEq Value] {w : Wire Value} {toAddr : String → Option Addr}
  {vars : String → Option String} {config : SynchronizerConfig}
  {snapshots : List (String × Except Unit (List StringMessage))}

/-- A process that is started on any environment, with base names for topics: both its tasks go on
until it is cancelled, all it has sent goes to a topic of the environment or to a device of EPICS,
and whatever status there is to mirror can be published where a monitor reads it back. -/
theorem deployment_sound (loaded : boot toAddr vars = .ok config)
    (base : ∀ topic ∈ config.phoebusTopics, RustText.endsWith topic "Command" = false)
    (read : snapshots.map Prod.fst = config.phoebusTopics)
    {C : Incident Value config.Monitors → Prop} {P : Process Value config.Monitors}
    (run : Process.Run w (Controls.phoebusPublishers config.phoebusTopics) config.monitored C
      (Process.start w snapshots) P) :
    (P.life.phoebus = .returned ∨ P.life.stage .controls = .returned → P.life.cancelled = true) ∧
    (∀ out ∈ P.crew.shared.sent, out.WellAddressed config.phoebusTopics) ∧
    ∀ alarm pvMetadata operation, P.crew.shared.metadata alarm.device = some pvMetadata →
      Controls.stateToOperation alarm.state = some operation → ∃ i message keyStr,
        controlsOutbound w (Controls.phoebusPublishers config.phoebusTopics) alarm
          operation pvMetadata = some (.publish alarm.device (config.monitored i) message) ∧
        config.monitored i = mirrorTopic alarm.state pvMetadata ∧ message.key = some keyStr ∧
        Key.parse keyStr = .ok ⟨alarm.device, pvMetadata.displayPath, operation⟩ := by
  have sound : P.Sound := by
    have := SynchronizerConfig.nonempty_monitors loaded
    exact run.sound (Process.sound_start snapshots)
  rw [← read] at base run ⊢
  obtain ⟨addressed, published⟩ :=
    process_well_addressed base (fun topic => read ▸ config.monitored_iff topic) run
  refine ⟨?_, addressed, published⟩
  rintro (phoebus | controls)
  · exact sound.phoebus phoebus
  · exact sound.returned .controls controls

def plantVars (var : String) : Option String :=
  if var = "PHOEBUS_TOPICS" then some " plant"
  else if var = "HEALTH_ADDR" then some "127.0.0.1:0"
  else if var ∈ required then some "localhost"
  else none

def plantAddr (text : String) : Option (List Nat × Nat) :=
  if text = "127.0.0.1:0" then some ([127, 0, 0, 1], 0) else none

def plantConfig : SynchronizerConfig :=
  ⟨"localhost", "localhost", "localhost", "localhost", ["plant"]⟩

theorem activatedPlant_sound : ∃ P : Process FlatJson.Scalar plantConfig.Monitors,
    P.crew.shared.sent.length = 1 ∧ ∀ out ∈ P.crew.shared.sent, out.WellAddressed ["plant"] := by
  let started : Process FlatJson.Scalar plantConfig.Monitors :=
    Process.start PlainWire.wire Process.plantSnapshots
  let hydrated := started.advance PlainWire.env .startup 3
  let reading := hydrated.setStage .controls .reading
  let status := PlainWire.statusMessage "pump" "UNBYPASSED"
  let crew := reading.crew.hand
    (crewMachine PlainWire.wire PlainWire.publishers plantConfig.monitored)
    (.reader .controls) status
  have connects : Process.Step PlainWire.wire PlainWire.publishers plantConfig.monitored hydrated
      (.connected .controls) reading := .connected rfl
  have takes : Process.Step PlainWire.wire PlainWire.publishers plantConfig.monitored reading
      (.take .controls status) { reading with crew := crew } :=
        .take rfl (Machine.step_hand status rfl)
  have reads : Process.Run PlainWire.wire PlainWire.publishers plantConfig.monitored (fun _ => True)
      started hydrated :=
    (Process.Run.refl _).advance _ _ _ fun _ _ => trivial
  have run := ((reads.step trivial connects).step trivial takes).advance PlainWire.env
    (.reader .controls) 4 fun _ _ => trivial
  have loaded : boot plantAddr plantVars = .ok plantConfig := by rfl
  refine ⟨_, ?_, (deployment_sound loaded (by decide) rfl run).2.1⟩
  decide +kernel

end AlarmSync
