import AlarmSync.Process

/-! What is kept about devices in every state of the process: only configured topics and readable
keys, and an address that stays once it is known. -/
namespace AlarmSync
open EffectProgram

variable {Value ι κ : Type}

namespace Startup

variable {c : Contract (effects Value) κ} {final : κ → Prop} {w : Wire Value}

theorem meets_populateCaches {topic : String} (messages : List StringMessage)
    (each : ∀ msg ∈ messages, ∀ k, final k →
      (hydrateMessage w topic msg).Meets c (fun _ => final) k) {k : κ}
    (begins : final k) : (populateCaches w topic messages).Meets c (fun _ => final) k := by
  induction messages generalizing k with
  | nil => exact begins
  | cons msg rest ih =>
      simp only [populateCaches, Program.meets_bind]
      exact (each msg List.mem_cons_self k begins).weaken fun _ k => ih fun msg' member =>
        each msg' (List.mem_cons_of_mem msg member)

theorem meets_getExistingMessagesFromPhoebus
    (snapshots : List (String × Except Unit (List StringMessage)))
    (each : ∀ r ∈ recordsOf snapshots, ∀ k, final k →
      (hydrateMessage w r.1 r.2).Meets c (fun _ => final) k) {k : κ} (begins : final k) :
    (getExistingMessagesFromPhoebus w snapshots).Meets c (fun _ => final) k := by
  induction snapshots generalizing k with
  | nil => exact begins
  | cons snapshot rest ih =>
      obtain ⟨topic, result⟩ := snapshot
      simp only [recordsOf, List.flatMap_cons, List.forall_mem_append, List.forall_mem_map] at each
      simp only [getExistingMessagesFromPhoebus, Program.meets_bind]
      exact (meets_populateCaches _ each.1 begins).weaken fun _ k => ih each.2

end Startup

theorem topic_of_mem_recordsOf {snapshots : List (String × Except Unit (List StringMessage))}
    {r : String × StringMessage} (member : r ∈ recordsOf snapshots) :
    r.1 ∈ snapshots.map Prod.fst := by
  obtain ⟨snapshot, member', among⟩ := List.mem_flatMap.mp member
  obtain ⟨_, _, rfl⟩ := List.mem_map.mp among
  exact List.mem_map_of_mem member'

/-- What is known of the metadata of each device is relied on when they are looked up, and kept to
when they are written; only fit calls are made. -/
def bookkeeping (Known : String → Option (PvMetadata Value) → Prop) (Fit : Outbound → Prop) :
    Contract (effects Value) Unit where
  may _
    | .lookupMetadata device, answer => Known device answer
    | _, _ => True
  ok _
    | .updateMetadata device new => Known device (some new)
    | .send out => Fit out
    | _ => True
  step _ _ _ := ()

/-- What the handlers of the streams have to keep to: the Controls task when it sends, the monitors
when they send and when they follow a config. -/
structure Bookkept (w : Wire Value) (publishers : List String) (topics : ι → String)
    (Known : String → Option (PvMetadata Value) → Prop) (Fit : Outbound → Prop) : Prop where
  published : ∀ alarm operation pvMetadata out, Known alarm.device (some pvMetadata) →
    controlsOutbound w publishers alarm operation pvMetadata = some out → Fit out
  acknowledged : ∀ msg key user, keyOf .command msg = some key →
    Fit (.call key.device (.acknowledge [epicsName key.device] user))
  enabled : ∀ msg key user state, keyOf .config msg = some key →
    Fit (.call key.device (enablementRequest key.device user state))
  followed : ∀ i msg key config known, keyOf .config msg = some key →
    Config.fromStr w msg.value = some config →
    Known key.device known → Known key.device (some (configMetadata (topics i) known key config))

section
variable {Known : String → Option (PvMetadata Value) → Prop} {Fit : Outbound → Prop}

theorem convey_bookkeeping {out : Option Outbound} {device : String} {state : CachedState}
    (fit : ∀ call, out = some call → Fit call) :
    (convey out device state : Handler Value Unit).Meets (bookkeeping Known Fit)
      (fun _ _ => True) () := by
  cases out with
  | none => exact ⟨trivial, fun _ _ => trivial⟩
  | some out => exact ⟨fit out rfl, fun _ _ => ⟨trivial, fun _ _ => trivial⟩⟩

theorem message_bookkeeping [DecidableEq Value] {w : Wire Value} {publishers : List String}
    {topics : ι → String}
    (kept : Bookkept w publishers topics Known Fit) (worker : Worker ι) (msg : StringMessage) :
    ((worker.receives topics msg).handler w publishers).Meets (bookkeeping Known Fit)
    (fun _ _ => True) () := by
  cases worker with
  | controls =>
      apply Controls.meets_processRuntimeMessage trivial
      intro alarm _ _
      refine ⟨trivial, fun observed _ => ⟨trivial, fun known relied => ⟨trivial, ?_⟩⟩⟩
      rintro pvMetadata operation rfl _ _
      exact convey_bookkeeping fun out sent =>
        kept.published alarm operation pvMetadata out relied sent
  | monitor i =>
      apply Monitor.meets_processRuntimeMessage fun _ => trivial
      · intro key keyed
        refine ⟨trivial, fun observed _ => ⟨trivial, ?_⟩⟩
        intro command _ _
        refine convey_bookkeeping ?_
        rintro call ⟨⟩
        exact kept.acknowledged msg key command.user keyed
      · intro key config keyed read
        refine ⟨trivial, fun known relied => ?_⟩
        have updated : (Handler.updateMetadata key.device
            (configMetadata (topics i) known key config)).Meets (bookkeeping Known Fit)
            (fun _ _ => True) () :=
          ⟨kept.followed i msg key config known keyed read relied, fun _ _ => trivial⟩
        refine ⟨trivial, fun observed _ => ⟨trivial, fun now _ => ?_⟩⟩
        refine
          { malformed := fun _ _ => trivial
            duplicate := fun _ _ _ _ => trivial
            unchanged := fun _ _ _ => updated
            mirrored := fun state _ _ => (convey_bookkeeping ?_).weaken fun _ _ _ => updated }
        rintro call ⟨⟩
        exact kept.enabled msg key config.user state keyed

theorem bookkeeping_after {world : World Value} {o : Op Value} {answer : o.Answer}
    (known : ∀ d, Known d (world.metadata d)) (fit : ∀ out ∈ world.sent, Fit out)
    (answered : world.Answers o answer) (ok : (bookkeeping Known Fit).ok () o) :
    (bookkeeping Known Fit).may () o answer ∧ (∀ d, Known d ((world.after o).metadata d)) ∧
      ∀ out ∈ (world.after o).sent, Fit out := by
  refine ⟨?_, ?_, ?_⟩
  · cases o with
    | lookupMetadata device =>
        have same : answer = world.metadata device := answered
        exact same ▸ known device
    | _ => trivial
  · intro d
    rw [World.metadata_after]
    cases o with
    | updateMetadata device new =>
        by_cases same : d = device
        · simp only [same, if_true]
          exact ok
        · simp only [same, if_false]
          exact known d
    | _ => exact known d
  · intro out member
    rw [World.sent_after, List.mem_append] at member
    rcases member with before | now
    · exact fit out before
    · cases o with
      | send call =>
          cases List.mem_singleton.mp now
          exact ok
      | _ => cases now

variable [DecidableEq ι] [DecidableEq Value] {w : Wire Value} {publishers : List String}
  {topics : ι → String} {C : Incident Value ι → Prop} {P Q : Process Value ι}

theorem Process.Run.bookkept (run : Run w publishers topics C P Q)
    (kept : Bookkept w publishers topics Known Fit)
    (known : ∀ d, Known d (P.crew.shared.metadata d)) (fit : ∀ out ∈ P.crew.shared.sent, Fit out)
    (tasks : ∀ role, (P.crew.task role).Meets (bookkeeping Known Fit) (fun _ _ => True) ()) :
    (∀ d, Known d (Q.crew.shared.metadata d)) ∧ ∀ out ∈ Q.crew.shared.sent, Fit out := by
  refine run.kept (I := fun world => (∀ d, Known d (world.metadata d)) ∧
    ∀ out ∈ world.sent, Fit out) ⟨known, fit⟩ tasks ?_ ?_
  · exact fun worker msg _ => message_bookkeeping kept worker msg
  · exact fun holds answered ok => bookkeeping_after holds.1 holds.2 answered ok

end

/-! Where everything goes. -/

/-- A publish goes to a configured topic, or to the command topic of one, under a key that is read
back as its device and the kind of record; a call names its device alone, as one of EPICS. -/
def Outbound.WellAddressed (bases : List String) : Outbound → Prop
  | publish device topic message => ∃ base ∈ bases, ∃ keyStr path operation,
      message.key = some keyStr ∧ Key.parse keyStr = .ok ⟨device, path, operation⟩ ∧
        (operation = .command ∧ topic = base ++ "Command" ∨ operation = .config ∧ topic = base)
  | call device request => Addressable device ∧ request.devices = [device ++ "#Epics"]

def Recorded (bases : List String) (device : String) (known : Option (PvMetadata Value)) : Prop :=
  ∀ pvMetadata, known = some pvMetadata → pvMetadata.phoebusTopic ∈ bases ∧ Addressable device ∧
    pvMetadata.phoebusConfigMetadata.Unnamed

section
variable {w : Wire Value} {publishers bases : List String} {topics : ι → String}

theorem recorded_bookkept (base : ∀ topic ∈ bases, RustText.endsWith topic "Command" = false)
    (monitored : ∀ i, topics i ∈ Controls.phoebusPublishers bases) :
    Bookkept w publishers topics (Recorded bases) (Outbound.WellAddressed bases) where
  published := by
    intro alarm operation pvMetadata out known sent
    obtain ⟨member, addressable, _⟩ := known pvMetadata rfl
    obtain ⟨topic, message, resolved, built, _, rfl⟩ := controlsOutbound_eq_some.mp sent
    refine ⟨_, member, _, _, operation, controlsToPhoebus_key built,
      Key.parse_getPhoebusKey _ _ addressable, ?_⟩
    cases operation with
    | command =>
        cases resolved
        exact .inl ⟨rfl, rfl⟩
    | config =>
        cases resolved
        exact .inr ⟨rfl, rfl⟩
    | state => cases resolved
  acknowledged := by
    intro msg key user keyed
    obtain ⟨_, _, parsed, _⟩ := keyOf_eq_some.mp keyed
    exact ⟨Key.parse_addressable parsed, rfl⟩
  enabled := by
    intro msg key user state keyed
    obtain ⟨_, _, parsed, _⟩ := keyOf_eq_some.mp keyed
    exact ⟨Key.parse_addressable parsed, devices_enablementRequest key.device user state⟩
  followed := by
    intro i msg key config known keyed read recorded
    rintro pvMetadata ⟨⟩
    obtain ⟨_, _, parsed, _⟩ := keyOf_eq_some.mp keyed
    refine ⟨?_, Key.parse_addressable parsed, Config.fromStr_unnamed read⟩
    -- the topic stays as known; a new device is recorded under the topic of its monitor
    cases known with
    | some earlier => exact (recorded earlier rfl).1
    | none => exact normalizeTopic_monitored base (monitored i)

theorem hydration_recorded {snapshots : List (String × Except Unit (List StringMessage))}
    (role : Role ι) : ((Process.start w snapshots : Process Value ι).crew.task role).Meets
      (bookkeeping (Recorded (snapshots.map Prod.fst))
        (Outbound.WellAddressed (snapshots.map Prod.fst)))
      (fun _ _ => True) () := by
  cases role with
  | reader worker => trivial
  | startup =>
      simp only [Process.start, Program.pure_eq, Program.meets_bind, Program.meets_done]
      refine Startup.meets_getExistingMessagesFromPhoebus snapshots ?_ trivial
      rintro ⟨topic, msg⟩ among k _
      have member := topic_of_mem_recordsOf among
      apply Startup.meets_hydrateMessage trivial
      · exact fun _ _ _ _ => ⟨trivial, fun _ _ => trivial⟩
      · intro key config keyed read
        refine ⟨trivial, fun now _ =>
          ⟨trivial, fun state _ => ⟨trivial, fun _ _ => ⟨?_, fun _ _ => trivial⟩⟩⟩⟩
        rintro pvMetadata ⟨⟩
        obtain ⟨_, _, parsed, _⟩ := keyOf_eq_some.mp keyed
        exact ⟨member, Key.parse_addressable parsed, Config.fromStr_unnamed read⟩

variable [DecidableEq ι] [DecidableEq Value]
  {snapshots : List (String × Except Unit (List StringMessage))} {C : Incident Value ι → Prop}
  {P Q : Process Value ι}

/-- In every state of the process, whatever hydration, the Controls task and the monitors
have done at once and whoever has been dropped: all calls made so far went to the right place,
and for a device that has metadata, a status with a state that is mirrored would be published
on a topic with a monitor, under a key that is read back as its operation, the recorded
display path and the device. -/
theorem process_well_addressed
    (base : ∀ topic ∈ snapshots.map Prod.fst, RustText.endsWith topic "Command" = false)
    (monitors : ∀ topic,
      (∃ i, topics i = topic) ↔ topic ∈ Controls.phoebusPublishers (snapshots.map Prod.fst))
    (run : Process.Run w (Controls.phoebusPublishers (snapshots.map Prod.fst)) topics C
      (Process.start w snapshots) P) :
    (∀ out ∈ P.crew.shared.sent, out.WellAddressed (snapshots.map Prod.fst)) ∧
      ∀ alarm pvMetadata operation, P.crew.shared.metadata alarm.device = some pvMetadata →
        Controls.stateToOperation alarm.state = some operation → ∃ i message keyStr,
          controlsOutbound w (Controls.phoebusPublishers (snapshots.map Prod.fst)) alarm operation
              pvMetadata = some (.publish alarm.device (topics i) message) ∧
          topics i = mirrorTopic alarm.state pvMetadata ∧ message.key = some keyStr ∧
          Key.parse keyStr = .ok ⟨alarm.device, pvMetadata.displayPath, operation⟩ := by
  have monitored : ∀ i, topics i ∈ Controls.phoebusPublishers (snapshots.map Prod.fst) :=
    fun i => (monitors _).mp ⟨i, rfl⟩
  obtain ⟨recorded, addressed⟩ := run.bookkept (recorded_bookkept base monitored)
    (fun d pvMetadata known => by cases known)
    (fun out member => by cases member) hydration_recorded
  refine ⟨addressed, fun alarm pvMetadata operation known mirrored => ?_⟩
  obtain ⟨member, addressable, _⟩ := recorded alarm.device pvMetadata known
  obtain ⟨_, resolved⟩ := getTopicForOperation_mirrored pvMetadata mirrored
  have routed : P.crew.shared.Routed (snapshots.map Prod.fst) :=
    fun d pvMetadata known => (recorded d pvMetadata known).1
  have published := topic_published routed known resolved
  obtain ⟨i, same⟩ := (monitors _).mpr published
  obtain ⟨message, built⟩ : ∃ message,
      Controls.controlsToPhoebus w alarm operation pvMetadata = some message := by
    cases operation with
    | command => exact ⟨_, rfl⟩
    | config => exact ⟨_, rfl⟩
    | state => cases resolved
  refine ⟨i, message, _, ?_, same, controlsToPhoebus_key built,
    Key.parse_getPhoebusKey _ _ addressable⟩
  exact controlsOutbound_eq_some.mpr ⟨_, _, resolved, built, published, by rw [same]⟩

def KnownAt (d topic path : String) (device : String) (known : Option (PvMetadata Value)) : Prop :=
  device = d → ∃ pvMetadata, known = some pvMetadata ∧ pvMetadata.phoebusTopic = topic ∧
    pvMetadata.displayPath = path

/-- Once a device is known and nobody is left who may still write its metadata from before, its
topic and its display path never change: whatever configs come in, on whichever topics and in
whatever order, only its settings follow them. -/
theorem address_settled {d : String} {pvMetadata : PvMetadata Value}
    (run : Process.Run w publishers topics C P Q)
    (known : P.crew.shared.metadata d = some pvMetadata)
    (still : ∀ role, (P.crew.task role).Avoids fun o : Op Value =>
      ∃ new, o = .updateMetadata d new) :
    ∃ settled, Q.crew.shared.metadata d = some settled ∧
      settled.phoebusTopic = pvMetadata.phoebusTopic ∧
      settled.displayPath = pvMetadata.displayPath := by
  have kept : Bookkept w publishers topics
      (KnownAt d pvMetadata.phoebusTopic pvMetadata.displayPath) fun _ => True :=
    { published := fun _ _ _ _ _ _ => trivial
      acknowledged := fun _ _ _ _ => trivial
      enabled := fun _ _ _ _ _ => trivial
      followed := by
        intro i msg key config known _ _ before same
        obtain ⟨earlier, rfl, topic, path⟩ := before same
        exact ⟨_, rfl, topic, path⟩ }
  have begins : ∀ device, KnownAt d pvMetadata.phoebusTopic pvMetadata.displayPath device
      (P.crew.shared.metadata device) := by
    rintro device rfl
    exact ⟨_, known, rfl, rfl⟩
  refine (run.bookkept kept begins (fun _ _ => trivial) fun role => ?_).1 d rfl
  refine (still role).refine (fun _ _ => True) ?_ (fun _ _ => trivial) trivial
  intro _ _ o _ avoided
  refine ⟨?_, fun _ _ => ⟨trivial, trivial⟩⟩
  cases o with
  | updateMetadata device new =>
      rintro rfl
      exact absurd ⟨new, rfl⟩ avoided
  | _ => trivial

theorem movedPump_settled : ∃ P settled,
    Process.PlantRun (Process.plantStart.advance PlainWire.env .startup 3) P ∧
    P.crew.shared.metadata "pump" = some settled ∧ settled.phoebusTopic = "plant" ∧
    settled.displayPath = "/plant" := by
  let read := Process.plantStart.advance PlainWire.env .startup 3
  let moved : StringMessage := ⟨some (Controls.getPhoebusKey .config "/elsewhere" "pump"),
    Config.toStr PlainWire.wire ⟨some "true", "console", "operator", ∅⟩⟩
  let reading := read.hydrated.setStage (.monitor false) .reading
  have idle : (read.crew.task .startup).busy = false := by decide +kernel
  have hydrates : Process.PlantStep read .hydrated read.hydrated := .hydrated rfl idle
  have connects : Process.PlantStep read.hydrated (.connected (.monitor false)) reading :=
    .connected rfl
  have takes := Process.handed_step reading (.monitor false) moved rfl rfl
  have taken : Process.PlantRun read (reading.handed (.monitor false) moved) :=
    (((Process.Run.refl read).step trivial hydrates).step trivial connects).step trivial takes
  have run := taken.advance PlainWire.env (.reader (.monitor false)) 6 fun _ _ => trivial
  have still : ∀ role, (read.crew.task role).Avoids
      fun o : Op FlatJson.Scalar => ∃ new, o = .updateMetadata "pump" new := by
    rintro (_ | worker)
    · exact Program.avoids_idle idle
    · exact Program.avoids_idle rfl
  have address : (read.crew.shared.metadata "pump").map (fun m => (m.phoebusTopic, m.displayPath)) =
      some ("plant", "/plant") := by decide +kernel
  obtain ⟨pvMetadata, before, same⟩ := Option.map_eq_some_iff.mp address
  obtain ⟨settled, known, topic, path⟩ := address_settled run before still
  rw [Prod.mk.injEq] at same
  exact ⟨_, settled, run, known, topic.trans same.1, path.trans same.2⟩

end

end AlarmSync
