import AlarmSync.Outcomes
import AlarmSync.ReadBack

/-! What the Controls side publishes, in any state that the program can reach: the message has
a publisher and the right address, and a config carries the settings of its device unchanged. -/
namespace AlarmSync

variable {Value : Type}

/-- The event comes from one of the configured topics: startup reads the base topics, and there
is a monitor for each base topic and each command topic. -/
def Event.on (topics : List String) : Event → Prop
  | hydrate topic _ => topic ∈ topics
  | handle (.phoebus topic _) => ∃ base ∈ topics, topic = base ∨ topic = base ++ "Command"
  | handle (.controls _) => True

def World.Routed (topics : List String) (world : World Value) : Prop :=
  ∀ d pvMetadata, world.metadata d = some pvMetadata → pvMetadata.phoebusTopic ∈ topics

theorem mem_phoebusPublishers {topics : List String} {topic : String} :
    topic ∈ Controls.phoebusPublishers topics ↔
      ∃ base ∈ topics, topic = base ∨ topic = base ++ "Command" := by
  simp only [Controls.phoebusPublishers, getCommandTopic, List.mem_flatMap, List.mem_cons,
    List.not_mem_nil, or_false]

theorem normalizeTopic_monitored {topics : List String}
    (base : ∀ topic ∈ topics, RustText.endsWith topic "Command" = false) {topic : String}
    (monitored : topic ∈ Controls.phoebusPublishers topics) : normalizeTopic topic ∈ topics := by
  obtain ⟨t, member, rfl | rfl⟩ := mem_phoebusPublishers.mp monitored
  · rwa [normalizeTopic_base (base topic member)]
  · rwa [show t ++ "Command" = getCommandTopic t from rfl, normalizeTopic_getCommandTopic]

theorem topic_published {topics : List String} {world : World Value}
    (routed : world.Routed topics) {d : String} {pvMetadata : PvMetadata Value}
    (known : world.metadata d = some pvMetadata) {operation : Operation}
    {topic : String} (resolved : Controls.getTopicForOperation operation pvMetadata = some topic) :
    topic ∈ Controls.phoebusPublishers topics := by
  have member := routed d pvMetadata known
  apply mem_phoebusPublishers.mpr
  cases operation with
  | command =>
      cases resolved
      exact ⟨_, member, .inr rfl⟩
  | config =>
      cases resolved
      exact ⟨_, member, .inl rfl⟩
  | state => cases resolved

theorem controlsToPhoebus_key {w : Wire Value} {alarm : Status} {operation : Operation}
    {pvMetadata : PvMetadata Value} {message : StringMessage}
    (built : Controls.controlsToPhoebus w alarm operation pvMetadata = some message) :
    message.key = some (Controls.getPhoebusKey operation pvMetadata.displayPath alarm.device) := by
  cases operation with
  | command => cases built; rfl
  | config => cases built; rfl
  | state => cases built

theorem getTopicForOperation_mirrored {alarm : Status} {operation : Operation}
    (pvMetadata : PvMetadata Value)
    (mirrored : Controls.stateToOperation alarm.state = some operation) :
    operation = mirrorOperation alarm.state ∧
      Controls.getTopicForOperation operation pvMetadata = some
      (mirrorTopic alarm.state pvMetadata) := by
  rw [stateToOperation_eq] at mirrored
  split_ifs at mirrored
  cases mirrored
  refine ⟨rfl, ?_⟩
  by_cases acknowledged : alarm.state = .acknowledged <;>
    simp [Controls.getTopicForOperation, getCommandTopic, mirrorOperation,
      mirrorTopic, acknowledged]

section
variable [DecidableEq Value] {w : Wire Value} {topics : List String}

theorem routed_step {publishers : List String}
    (base : ∀ topic ∈ topics, RustText.endsWith topic "Command" = false) {world : World Value}
    (routed : world.Routed topics) {e : Env × Event} (configured : e.2.on topics) :
    (world.step w publishers e).Routed topics := by
  intro d pvMetadata known
  rcases metadata_step_cases w publishers world d known with
    before | ⟨topic, msg, key, config, state, _, _, ⟨from_, rfl⟩ | ⟨from_, rfl⟩⟩
  · exact routed d pvMetadata before
  · rw [from_] at configured
    exact configured
  · rw [from_] at configured
    -- the topic stays as known; a new device is recorded under the topic of its monitor
    cases recorded : world.metadata d with
    | some earlier => exact routed d earlier recorded
    | none => exact normalizeTopic_monitored base (mem_phoebusPublishers.mpr configured)

theorem routed_run {publishers : List String}
    (base : ∀ topic ∈ topics, RustText.endsWith topic "Command" = false) {world : World Value}
    (routed : world.Routed topics) {events : List (Env × Event)}
    (configured : ∀ e ∈ events, e.2.on topics) : (world.run w publishers events).Routed topics := by
  induction events generalizing world with
  | nil => exact routed
  | cons e rest ih =>
      apply ih (routed_step base routed (configured e List.mem_cons_self))
      exact fun e' member => configured e' (List.mem_cons_of_mem e member)

/-- A state that the program reaches when it runs on these base topics. -/
def World.ReachableOn (w : Wire Value) (topics : List String) (world : World Value) : Prop :=
  ∃ events : List (Env × Event), (∀ e ∈ events, e.2.on topics) ∧
    world = World.empty.run w (Controls.phoebusPublishers topics) events

theorem World.ReachableOn.reachable {world : World Value} (reachable : world.ReachableOn w topics) :
    world.Reachable w (Controls.phoebusPublishers topics) := by
  obtain ⟨events, _, rfl⟩ := reachable
  exact ⟨events, rfl⟩

theorem World.ReachableOn.routed
    (base : ∀ topic ∈ topics, RustText.endsWith topic "Command" = false)
    {world : World Value} (reachable : world.ReachableOn w topics) : world.Routed topics := by
  obtain ⟨events, configured, rfl⟩ := reachable
  exact routed_run base (fun d pvMetadata known => by cases known) configured

/-- A status that the Controls task decides to mirror is published: to the command topic if it is
an acknowledgement and to the base topic otherwise, the base topic being a configured one, under a
key that is read back as its operation, the recorded display path and its device. -/
theorem mirrored_status_published
    (base : ∀ topic ∈ topics, RustText.endsWith topic "Command" = false)
    {world : World Value} (reachable : world.ReachableOn w topics)
    {msg : StringMessage} {alarm : Status} (read : w.statusFromStr msg.value = some alarm)
    (source : alarm.source = .epics) {operation : Operation} {pvMetadata : PvMetadata Value}
    {state : CachedState}
    (decided : Controls.decideControlsSync alarm ⟨world.alarmState alarm.device⟩
      (world.metadata alarm.device) = .syncToPhoebus operation pvMetadata state) (env : Env) :
    world.metadata alarm.device = some pvMetadata ∧ pvMetadata.phoebusTopic ∈ topics ∧
      operation = mirrorOperation alarm.state ∧
      ∃ message keyStr result,
        (Controls.processRuntimeMessage w (Controls.phoebusPublishers topics) msg).run
          env.answer world = (some (.attempted .controlsToPhoebus result),
            (world.send (.publish alarm.device (mirrorTopic alarm.state pvMetadata)
              message)).recordAlarmState alarm.device state) ∧
        message.key = some keyStr ∧
        Key.parse keyStr = .ok ⟨alarm.device, pvMetadata.displayPath, operation⟩ := by
  obtain ⟨known, mirrored, rfl, _⟩ := Controls.decideControlsSync_eq_sync.mp decided
  have routed := reachable.routed base
  obtain ⟨addressable, _⟩ := reachable.reachable.wellFormed _ _ known
  obtain ⟨same, resolved⟩ := getTopicForOperation_mirrored pvMetadata mirrored
  have member := topic_published routed known resolved
  refine ⟨known, routed _ _ known, same, ?_⟩
  obtain ⟨message, built⟩ : ∃ message,
      Controls.controlsToPhoebus w alarm operation pvMetadata = some message := by
    cases operation with
    | command => exact ⟨_, rfl⟩
    | config => exact ⟨_, rfl⟩
    | state => cases resolved
  have sent : controlsOutbound w (Controls.phoebusPublishers topics) alarm operation pvMetadata =
      some (.publish alarm.device (mirrorTopic alarm.state pvMetadata) message) :=
    controlsOutbound_eq_some.mpr ⟨_, _, resolved, built, member, rfl⟩
  have sync := Controls.run_sync w (Controls.phoebusPublishers topics) pvMetadata mirrored env world
  simp only [sent] at sync
  refine ⟨message, _, if env.published then .succeeded else .failed, ?_,
    controlsToPhoebus_key built, Key.parse_getPhoebusKey _ _ addressable⟩
  cases published : env.published <;>
    simp [Controls.processRuntimeMessage, read, source,
      Controls.processControlsMessage, decided, sync, published, OutboundSyncResult.intoSyncOutcome]

theorem controls_sent_cases {publishers : List String} {world : World Value} {env : Env}
    {msg : StringMessage} {out : Outbound}
    (sent : (world.step w publishers (env, .handle (.controls msg))).sent = world.sent ++ [out]) :
    ∃ alarm pvMetadata operation, w.statusFromStr msg.value = some alarm ∧ alarm.source = .epics ∧
      world.metadata alarm.device = some pvMetadata ∧
      Controls.stateToOperation alarm.state = some operation ∧
      controlsOutbound w publishers alarm operation pvMetadata = some out ∧
      (ObservedStatePolicy.mk (world.alarmState alarm.device)).suppressesIncoming
      (.ofStatus alarm) = false := by
  have step := (step_handle w publishers env world (.controls msg)).2
  simp only [Message.intent] at step
  cases carried : controlsIntent w publishers world.metadata msg with
  | none =>
      rw [sent, carried] at step
      simp at step
  | some x =>
      obtain ⟨alarm, pvMetadata, operation, read, source, known, mirrored, rfl⟩ :=
        controlsIntent_eq_some.mp carried
      rw [sent, carried, Option.elim_some, World.sent_observe, List.append_cancel_left_eq] at step
      refine ⟨alarm, pvMetadata, operation, read, source, known, mirrored, ?_⟩
      cases policy : (ObservedStatePolicy.mk (world.alarmState alarm.device)).suppressesIncoming
          (.ofStatus alarm) with
      | true => simp [Intent.suppressed, policy] at step
      | false =>
          refine ⟨?_, rfl⟩
          cases built : controlsOutbound w publishers alarm operation pvMetadata with
          | none => simp [built] at step
          | some out' => simpa [Intent.suppressed, policy, built, eq_comm] using step

end

theorem Config.members_nodup {w : Wire Value} (lawful : w.Lawful) {c : Config Value}
    (unnamed : c.phoebusSpecific.Unnamed) : ((c.members w).map Prod.fst).Nodup := by
  have absent : ∀ name, isNamed name = true →
      name ∉ (w.entries c.phoebusSpecific).map Prod.fst := by
    intro name named member
    obtain ⟨⟨k, v⟩, entry, rfl⟩ := List.mem_map.mp member
    have found := (lawful.mem_entries _ k v).mp entry
    rw [unnamed k named] at found
    cases found
  simp only [Config.members, List.map_cons, List.nodup_cons, List.mem_cons, not_or]
  exact ⟨⟨by decide, by decide, absent _ rfl⟩, ⟨by decide, absent _ rfl⟩, absent _ rfl,
    lawful.entries_nodup _⟩

/-- A status that is mirrored as a config leaves the other settings of its device alone: the
published object has each name once, and it is read back as a config of the status's user, with an
enabled value, and with exactly the settings that were cached. -/
theorem published_config_keeps_settings [DecidableEq Value] {w : Wire Value} (lawful : w.Lawful)
    {publishers : List String} {world : World Value} (reachable : world.Reachable w publishers)
    {msg : StringMessage} {alarm : Status} (read : w.statusFromStr msg.value = some alarm)
    (asConfig : Controls.stateToOperation alarm.state = some .config) {env : Env}
    {topic : String} {message : StringMessage}
    (sent : (world.step w publishers (env, .handle (.controls msg))).sent =
      world.sent ++ [.publish alarm.device topic message]) :
    ∃ pvMetadata members config, world.metadata alarm.device = some pvMetadata ∧
      w.fromStr message.value = some (.object members) ∧ (members.map Prod.fst).Nodup ∧
      Config.fromStr w message.value = some config ∧ config.user = alarm.user ∧
      config.enabled ≠ none ∧ config.phoebusSpecific = pvMetadata.phoebusConfigMetadata := by
  obtain ⟨alarm', pvMetadata, operation, read', _, known, mirrored, out, _⟩ :=
    controls_sent_cases sent
  obtain rfl : alarm = alarm' := Option.some.inj (read.symm.trans read')
  obtain rfl : Operation.config = operation := Option.some.inj (asConfig.symm.trans mirrored)
  obtain ⟨topic', message', _, built, _, same⟩ := controlsOutbound_eq_some.mp out
  cases same
  obtain ⟨_, unnamed⟩ := reachable.wellFormed _ _ known
  cases built
  refine ⟨pvMetadata, _, _, known, lawful.read_back _, Config.members_nodup lawful unnamed,
    Config.fromStr_toStr lawful unnamed, rfl, ?_, rfl⟩
  simp only [NormalizedEnablement.asEnabledString]
  split <;> simp

section
open PlainWire

def tunedWorld : World FlatJson.Scalar :=
  World.empty.run wire publishers [(env, .hydrate "plant"
    ⟨some (Controls.getPhoebusKey .config "/plant" "pump"), FlatJson.write
      [("enabled", .string "true"), ("host", .string "console"), ("user", .string "operator"),
        ("description", .string "inlet")]⟩)]

theorem tunedWorld_reachable : tunedWorld.ReachableOn wire ["plant"] :=
  ⟨[_], by simp [Event.on], rfl⟩

/-- A bypass of the pump goes to the base topic, its acknowledgement to the command topic. -/
theorem tunedWorld_published :
    (∃ message keyStr result,
      (Controls.processRuntimeMessage wire publishers (statusMessage "pump" "BYPASSED")).run
          env.answer tunedWorld =
        (some (.attempted .controlsToPhoebus result),
          (tunedWorld.send (.publish "pump" "plant" message)).recordAlarmState "pump" .bypassed) ∧
      message.key = some keyStr ∧ Key.parse keyStr = .ok ⟨"pump", "/plant", .config⟩) ∧
    ∃ message keyStr result,
      (Controls.processRuntimeMessage wire publishers (statusMessage "pump" "ACKNOWLEDGED")).run
          env.answer tunedWorld =
        (some (.attempted .controlsToPhoebus result),
          (tunedWorld.send (.publish "pump" "plantCommand" message)).recordAlarmState "pump"
            ⟨.acknowledged, none⟩) ∧
      message.key = some keyStr ∧ Key.parse keyStr = .ok ⟨"pump", "/plant", .command⟩ := by
  have address : (tunedWorld.metadata "pump").map (fun m => (m.phoebusTopic, m.displayPath)) =
      some ("plant", "/plant") := by decide +kernel
  obtain ⟨pvMetadata, known, same⟩ := Option.map_eq_some_iff.mp address
  obtain ⟨topic, path⟩ := Prod.mk.inj same
  have entry : tunedWorld.alarmState "pump" = some (.ofBool true) := by decide +kernel
  refine ⟨?_, ?_⟩
  · have read : wire.statusFromStr (statusMessage "pump" "BYPASSED").value =
        some ⟨"pump", .epics, .bypassed, none, "operator"⟩ := by decide +kernel
    obtain ⟨_, _, _, message, keyStr, result, run, key, parsed⟩ :=
      mirrored_status_published (by decide) tunedWorld_reachable read rfl
      (Controls.decideControlsSync_eq_sync.mpr ⟨known, rfl, rfl, by rw [entry]; decide⟩) env
    simp only [mirrorTopic, topic] at run
    exact ⟨message, keyStr, result, run, key, path ▸ parsed⟩
  · have read : wire.statusFromStr (statusMessage "pump" "ACKNOWLEDGED").value =
        some ⟨"pump", .epics, .acknowledged, none, "operator"⟩ := by decide +kernel
    obtain ⟨_, _, _, message, keyStr, result, run, key, parsed⟩ :=
      mirrored_status_published (by decide) tunedWorld_reachable read rfl
      (Controls.decideControlsSync_eq_sync.mpr ⟨known, rfl, rfl, by rw [entry]; decide⟩) env
    simp only [mirrorTopic, topic] at run
    exact ⟨message, keyStr, result, run, key, path ▸ parsed⟩

def tunedBypassConfig : StringMessage :=
  ⟨some (Controls.getPhoebusKey .config "/plant" "pump"), FlatJson.write
    [("enabled", .string "false"), ("host", .string Controls.controlsHost),
      ("user", .string "operator"), ("description", .string "inlet")]⟩

theorem tunedBypassConfig_keeps_settings : ∃ pvMetadata members config,
    tunedWorld.metadata "pump" = some pvMetadata ∧
      wire.fromStr tunedBypassConfig.value = some (.object members) ∧ (members.map Prod.fst).Nodup ∧
      Config.fromStr wire tunedBypassConfig.value = some config ∧ config.user = "operator" ∧
      config.enabled ≠ none ∧ config.phoebusSpecific = pvMetadata.phoebusConfigMetadata := by
  have read : wire.statusFromStr (statusMessage "pump" "BYPASSED").value =
      some ⟨"pump", .epics, .bypassed, none, "operator"⟩ := by decide +kernel
  have sent : (tunedWorld.step wire publishers
      (env, .handle (.controls (statusMessage "pump" "BYPASSED")))).sent =
        tunedWorld.sent ++ [.publish "pump" "plant" tunedBypassConfig] := by decide +kernel
  exact published_config_keeps_settings lawful tunedWorld_reachable.reachable read rfl sent

end

end AlarmSync
