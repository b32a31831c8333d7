import AlarmSync.ConcurrentStartup
import AlarmSync.Shutdown

/-! The whole process against the sequential program: all records are hydrated, and then the
messages are handled one after the other. -/
namespace AlarmSync
open EffectProgram

variable {Value ι : Type}

/-- A record of the snapshots is about the device. -/
def RecordedIn (w : Wire Value) (snapshots : List (String × Except Unit (List StringMessage)))
    (d : String) : Prop :=
  ∃ r ∈ recordsOf snapshots, (Message.phoebus r.1 r.2).deviceOf w = some d

/-- Nothing is known of the devices without records, and nothing has been sent. -/
def World.RecordedOnly (recorded : String → Prop) (world : World Value) : Prop :=
  (∀ d, ¬ recorded d → world.alarmState d = none ∧ world.metadata d = none) ∧ world.sent = []

/-- No metadata are found for a device without records; nothing is written for one, and
nothing is sent. -/
def recordedOnly (recorded : String → Prop) : Contract (effects Value) Unit where
  may _
    | .lookupMetadata device, answer => recorded device ∨ answer = none
    | _, _ => True
  ok _
    | .recordAlarmState device _ | .recordEvidence device _ | .updateMetadata device _ =>
        recorded device
    | .send _ => False
    | _ => True
  step _ _ _ := ()

section
variable {recorded : String → Prop} {w : Wire Value} {topics : ι → String}
  {publishers : List String}

theorem recordedOnly_after {world : World Value} {o : Op Value} {answer : o.Answer}
    (only : world.RecordedOnly recorded) (answered : world.Answers o answer)
    (ok : (recordedOnly recorded).ok () o) :
    (recordedOnly recorded).may () o answer ∧ (world.after o).RecordedOnly recorded := by
  refine ⟨?_, fun d unrecorded => ?_, ?_⟩
  · cases o with
    | lookupMetadata device =>
        have same : answer = world.metadata device := answered
        by_cases known : recorded device
        · exact .inl known
        · exact .inr (same.trans (only.1 device known).2)
    | _ => trivial
  · have apart : ∀ device, recorded device → device ≠ d := by
      rintro device known rfl
      exact unrecorded known
    have unseen : (world.after o).view d = world.view d := by
      cases o with
      | readAlarmState _ | lookupMetadata _ | readClock => rfl
      | recordAlarmState device _ | recordEvidence device _ | updateMetadata device _ =>
          refine view_after_other ?_
          rintro _ ⟨⟩
          exact apart device ok
      | send _ => exact absurd ok id
    obtain ⟨entry, metadata, _⟩ := DeviceView.mk.inj unseen
    rw [entry, metadata]
    exact only.1 d unrecorded
  · rw [World.sent_after, only.2]
    cases o with
    | send _ => exact absurd ok id
    | _ => rfl

theorem status_recordedOnly {msg : StringMessage} [DecidableEq Value]
    (other : ∀ d, Worker.deviceOf w topics .controls msg = some d → ¬ recorded d) :
    ((Worker.controls.receives topics msg).handler w publishers).Meets (recordedOnly recorded)
      (fun _ _ => True) () := by
  apply Controls.meets_processRuntimeMessage trivial
  intro alarm read _
  have unrecorded : ¬ recorded alarm.device :=
    other alarm.device (by simp [Worker.deviceOf, Worker.receives, Message.deviceOf, read])
  refine ⟨trivial, fun observed _ => ⟨trivial, fun known relied => ⟨trivial, ?_⟩⟩⟩
  rintro pvMetadata operation rfl _ _
  rcases relied with known | none'
  · exact absurd known unrecorded
  · cases none'

/-- The handler of a status of a device without records asks for what is not there, and
writes nothing. -/
def fruitless (recorded : String → Prop) : Contract (effects Value) Unit where
  may _
    | .readAlarmState _, answer => answer = none
    | .lookupMetadata _, answer => answer = none
    | _, _ => True
  ok _
    | .readAlarmState device | .lookupMetadata device => ¬ recorded device
    | .readClock => True
    | _ => False
  step _ _ _ := ()

theorem status_fruitless {msg : StringMessage} [DecidableEq Value]
    (other : ∀ d, Worker.deviceOf w topics .controls msg = some d → ¬ recorded d) :
    ((Worker.controls.receives topics msg).handler w publishers).Meets (fruitless recorded)
      (fun _ _ => True) () := by
  apply Controls.meets_processRuntimeMessage trivial
  intro alarm read _
  have unrecorded : ¬ recorded alarm.device :=
    other alarm.device (by simp [Worker.deviceOf, Worker.receives, Message.deviceOf, read])
  refine ⟨unrecorded, fun observed _ => ⟨unrecorded, fun known none' => ⟨trivial, ?_⟩⟩⟩
  rintro pvMetadata operation rfl _ _
  cases none'

theorem fruitless_answered {world world' : World Value} {o : Op Value} {answer : o.Answer}
    (only : world.RecordedOnly recorded) (only' : world'.RecordedOnly recorded)
    (answered : world.Answers o answer) (ok : (fruitless recorded).ok () o) :
    (fruitless recorded).may () o answer ∧ World.Effect o world' answer world' := by
  cases o with
  | readAlarmState device =>
      have none' : answer = none := Eq.trans answered (only.1 device ok).1
      exact ⟨none', none'.trans (only'.1 device ok).1.symm, rfl⟩
  | lookupMetadata device =>
      have none' : answer = none := Eq.trans answered (only.1 device ok).2
      exact ⟨none', none'.trans (only'.1 device ok).2.symm, rfl⟩
  | readClock => exact ⟨trivial, trivial, rfl⟩
  | _ => exact absurd ok id

theorem hydration_recordedOnly (snapshots : List (String × Except Unit (List StringMessage)))
    (role : Role ι) :
    ((Process.start w snapshots : Process Value ι).crew.task role).Meets
      (recordedOnly (RecordedIn w snapshots)) (fun _ _ => True) () := by
  cases role with
  | reader worker => trivial
  | startup =>
      simp only [Process.start, Program.pure_eq, Program.meets_bind, Program.meets_done]
      refine Startup.meets_getExistingMessagesFromPhoebus snapshots ?_ trivial
      rintro ⟨topic, msg⟩ member k _
      have known : ∀ {operation key}, keyOf operation msg = some key →
          RecordedIn w snapshots key.device :=
        fun keyed => ⟨_, member, deviceOf_keyOf w topic keyed⟩
      apply Startup.meets_hydrateMessage trivial
      · exact fun key _ keyed _ => ⟨known keyed, fun _ _ => trivial⟩
      · exact fun key config keyed _ => ⟨trivial, fun _ _ => ⟨trivial, fun _ _ =>
          ⟨known keyed, fun _ _ => ⟨known keyed, fun _ _ => trivial⟩⟩⟩⟩

end

theorem World.eq_of_parts {world world' : World Value}
    (entries : world'.alarmState = world.alarmState) (metadata : world'.metadata = world.metadata)
    (sent : world'.sent = world.sent) : world' = world := by
  obtain ⟨⟨states, known⟩, calls⟩ := world
  obtain ⟨⟨states', known'⟩, calls'⟩ := world'
  obtain rfl : states' = states := entries
  obtain rfl : known' = known := metadata
  obtain rfl : calls' = calls := sent
  rfl

theorem sent_hydrateAll [DecidableEq Value] (w : Wire Value) (publishers : List String)
    (world : World Value) (records : List Record) :
    (world.hydrateAll w publishers records).sent = world.sent := by
  induction records generalizing world with
  | nil => rfl
  | cons r rest ih =>
      obtain ⟨env, topic, msg⟩ := r
      exact (ih (world.step w publishers (env, .hydrate topic msg))).trans (sent_step_hydrate ..)

theorem stamp_records (w : Wire Value) (env : Env) (readings : Nat → Int)
    (records : List (String × StringMessage)) :
    (stamp w env readings records).map Prod.snd = records := by
  induction records generalizing readings with
  | nil => rfl
  | cons r rest ih => simp only [stamp, List.map_cons, ih]

namespace Process

section
variable [DecidableEq ι] [DecidableEq Value] {w : Wire Value} {publishers : List String}
  {topics : ι → String} {snapshots : List (String × Except Unit (List StringMessage))}
  {P Q R : Process Value ι} {incident : Incident Value ι} {incidents : List (Incident Value ι)}
  {C : Incident Value ι → Prop}

theorem hydrating_recordedOnly [Nonempty ι]
    (run : Run w publishers topics (Incident.Spares w topics (RecordedIn w snapshots))
      (start w snapshots) P)
    (hydrating : P.life.phoebus = .hydrating) :
    P.crew.shared.RecordedOnly (RecordedIn w snapshots) := by
  refine (run.without_monitors hydrating).kept (c := recordedOnly _) ⟨fun _ _ => ⟨rfl, rfl⟩, rfl⟩
    (hydration_recordedOnly snapshots) ?_ fun only answered ok =>
    recordedOnly_after only answered ok
  rintro (_ | i) msg ⟨spares, _, noMonitor⟩
  · exact status_recordedOnly fun d about => spares msg d rfl about
  · exact absurd rfl (noMonitor i msg)

/-- Once hydration is complete, the state is that of the sequential program after the records,
whatever statuses of other devices the Controls task handles meanwhile. -/
theorem hydration_exact [Nonempty ι]
    (run : Run w publishers topics (Incident.Spares w topics (RecordedIn w snapshots))
      (start w snapshots) P)
    (hydrating : P.life.phoebus = .hydrating) (complete : (P.crew.task .startup).busy = false) :
    ∃ records : List Record, records.map Prod.snd = recordsOf snapshots ∧
      P.crew.shared = World.empty.hydrateAll w publishers records := by
  let env : Env := ⟨0, true, ⟨true, true, true⟩⟩
  obtain ⟨readings, same⟩ := hydration_alone env run hydrating complete
  rw [Startup.run_getExistingMessagesFromPhoebus,
    Startup.run_hydrateRecords_clocked w publishers] at same
  let records := stamp w env readings (recordsOf snapshots)
  have given : records.map Prod.snd = recordsOf snapshots := stamp_records w env readings _
  have only := hydrating_recordedOnly run hydrating
  refine ⟨records, given, World.eq_of_parts (funext fun d => ?_) (funext same.metadata) ?_⟩
  · by_cases known : RecordedIn w snapshots d
    · exact same.entry d known
    · -- neither has an entry
      have quiet : ∀ e ∈ records.map Record.event, e.2.deviceOf w ≠ some d := by
        intro e member about
        obtain ⟨r, member', rfl⟩ := List.mem_map.mp member
        exact known ⟨r.2, given ▸ List.mem_map_of_mem member', about⟩
      rw [(only.1 d known).1]
      exact (run_event_quiet w publishers World.empty quiet).1.symm
  · rw [only.2, sent_hydrateAll]
    rfl

def readers (P : Process Value ι) : Tasks Value ι :=
  ⟨P.crew.shared, fun worker => P.crew.task (.reader worker)⟩

end

end Process

/-- What an incident is for the readers. -/
def Incident.move : Incident Value ι → Option (Act Value ι)
  | take worker msg => some (.take worker msg)
  | perform (.reader worker) o answer => some (.perform worker o answer)
  | _ => none

/-- Complete handling of a message as an event of the sequential program. -/
def Turned.event (topics : ι → String) (t : Turned Value ι) : Env × Event :=
  (t.1, .handle (t.2.task.receives topics t.2.message))

namespace Process

section
variable [DecidableEq ι] [DecidableEq Value] (w : Wire Value) (publishers : List String)
  (topics : ι → String)

/-- One incident after the other from the start on. The statuses that are taken during hydration
are about devices without records, and a message is taken only while no reader is busy with
another of its device. -/
inductive Orderly (snapshots : List (String × Except Unit (List StringMessage))) :
    List (Incident Value ι) → Process Value ι → Prop
  | nil : Orderly snapshots [] (start w snapshots)
  | snoc {incidents Q incident R} : Orderly snapshots incidents Q →
      (Q.life.phoebus = .hydrating → incident.Spares w topics (RecordedIn w snapshots)) →
      (∀ worker msg d, incident = .take worker msg → Worker.deviceOf w topics worker msg = some d →
        ∀ other, ¬ Machine.HandlingAt (Worker.deviceOf w topics)
          (incidents.filterMap Incident.move) Q.readers other d) →
      Step w publishers topics Q incident R → Orderly snapshots (incidents ++ [incident]) R

variable {w publishers topics} {snapshots : List (String × Except Unit (List StringMessage))}
  {P Q R : Process Value ι}
  {incident : Incident Value ι} {incidents : List (Incident Value ι)} {C : Incident Value ι → Prop}

/-- After hydration, and as long as nothing is dropped, the readers move as the tasks of
the synchronizer. -/
theorem Step.readers (step : Step w publishers topics P incident Q) (sound : P.Sound)
    (begun : P.life.phoebus ≠ .hydrating) (there : Q.life.phoebus ≠ .returned) :
    (∃ move, incident.move = some move ∧
      (synchronizer w publishers topics).Step P.readers move Q.readers) ∨
      incident.move = none ∧ Q.readers = P.readers := by
  have injective : Function.Injective (Role.reader : Worker ι → Role ι) := fun _ _ same =>
    Role.reader.inj same
  cases step with
  | @take worker msg crew reading move =>
      obtain ⟨⟨a, idle⟩, shared, task⟩ := move.taken
      refine .inl ⟨_, rfl, ?_⟩
      have after : readers { P with crew := crew } =
          ⟨P.crew.shared, Function.update P.readers.task worker
            ((worker.receives topics msg).handler w publishers)⟩ := by
        simp only [readers, shared, task]
        congr 1
        exact Function.update_comp_eq_of_injective P.crew.task injective worker _
      rw [after]
      exact .take (K := synchronizer w publishers topics) msg idle
  | @perform role o answer crew move =>
      obtain ⟨next, ready, effect, task⟩ := move.performed
      cases role with
      | startup =>
          have idle := sound.startup begun
          rw [ready] at idle
          cases idle
      | reader worker =>
          refine .inl ⟨_, rfl, ?_⟩
          have after : readers { P with crew := crew } =
              ⟨crew.shared, Function.update P.readers.task worker (next answer)⟩ := by
            simp only [readers, task]
            congr 1
            exact Function.update_comp_eq_of_injective P.crew.task injective worker _
          rw [after]
          exact .perform (K := synchronizer w publishers topics) ready effect
  | interrupted | dismissed | joined => exact absurd rfl there
  | dropped aborted _ => exact absurd (sound.aborted aborted) there
  | _ => exact .inr ⟨rfl, rfl⟩

theorem Step.there (step : Step w publishers topics P incident Q)
    (there : Q.life.phoebus ≠ .returned) : P.life.phoebus ≠ .returned := by
  cases step with
  | hydrated hydrating => simp [hydrating]
  | interrupted | dismissed | joined => exact absurd rfl there
  | _ => exact there

theorem Run.trace [Nonempty ι] (run : Run w publishers topics C P Q) (sound : P.Sound)
    (begun : P.life.phoebus ≠ .hydrating) (there : Q.life.phoebus ≠ .returned) :
    Q.Sound ∧ Q.life.phoebus ≠ .hydrating ∧
      ∃ moves, (synchronizer w publishers topics).Trace
      (fun _ _ => True) P.readers moves Q.readers := by
  induction run with
  | refl => exact ⟨sound, begun, [], .nil _⟩
  | @step Q incident R _ _ step ih =>
      obtain ⟨soundQ, begunQ, moves, before⟩ := ih (step.there there)
      refine ⟨sound_step soundQ step, fun at_ => begunQ (step.hydrating at_), ?_⟩
      rcases step.readers soundQ begunQ there with ⟨move, _, one⟩ | ⟨_, same⟩
      · exact ⟨_, before.snoc trivial one⟩
      · exact ⟨moves, same ▸ before⟩

theorem Run.waiting
    (run : Run w publishers topics (fun incident => incident.takes = false) (start w snapshots) P) :
    P.readers = AlarmSync.waiting P.crew.shared := by
  let A : Role ι → World Value → Handler Value (Option SyncOutcome) → Prop := fun role _ p =>
    role = .startup ∨ p = .done none
  have all : ∀ role, A role P.crew.shared (P.crew.task role) := by
    refine run.assertion (A := A) ?_ ?_ ?_ ?_ ?_
    · rintro (_ | worker)
      · exact .inl rfl
      · exact .inr rfl
    · exact fun _ _ _ _ _ _ _ => .inr rfl
    · exact fun _ _ _ _ taken _ => by cases taken
    · rintro role world o next answer (startup | none') _
      · exact .inl startup
      · cases none'
    · exact fun _ others _ _ => others
  have tasks : P.readers.task = fun _ => .done none := by
    funext worker
    rcases all (.reader worker) with startup | none'
    · cases startup
    · exact none'
  exact congrArg (Pool.mk P.crew.shared) tasks

/-- The process refines the interleaved synchronizer: if no status is taken before hydration is
over, all that comes later, as long as nothing is dropped, is what the synchronizer can come to from
a state of the sequential program. -/
theorem refines_synchronizer [Nonempty ι]
    (startup : Run w publishers topics (fun incident => incident.takes = false)
      (start w snapshots) P)
    (hydrating : P.life.phoebus = .hydrating) (complete : (P.crew.task .startup).busy = false)
    (run : Run w publishers topics C P.hydrated Q) (there : Q.life.phoebus ≠ .returned) :
    Reached w publishers topics Q.readers := by
  have spares : Run w publishers topics (Incident.Spares w topics (RecordedIn w snapshots))
    (start w snapshots) P :=
    startup.weaken fun incident quiet msg d taken => by simp [taken, Incident.takes] at quiet
  obtain ⟨records, _, hydrated⟩ := hydration_exact spares hydrating complete
  have spawns : Step w publishers topics P .hydrated P.hydrated := .hydrated hydrating complete
  have sound := sound_step (startup.sound (sound_start snapshots)) spawns
  obtain ⟨_, _, moves, trace⟩ := run.trace sound (by simp [Process.hydrated]) there
  refine ⟨P.crew.shared, moves, ⟨_, hydrated⟩, ?_⟩
  rw [← startup.waiting]
  exact trace

def plantReading : Process FlatJson.Scalar Bool :=
  (plantStart.advance PlainWire.env .startup 3).hydrated.setStage .controls .reading

def plantActivating : Process FlatJson.Scalar Bool :=
  plantReading.handed .controls (PlainWire.statusMessage "pump" "UNBYPASSED")

theorem plantReading_connected :
    PlantStep (plantStart.advance PlainWire.env .startup 3).hydrated
        (.connected .controls) plantReading :=
  .connected rfl

theorem plantActivating_taken : PlantStep plantReading
    (.take .controls (PlainWire.statusMessage "pump" "UNBYPASSED")) plantActivating :=
  handed_step _ _ _ rfl rfl

/-- The activation has been published, and not yet recorded. -/
theorem activatingPlant_reached : ∃ Q : Process FlatJson.Scalar Bool,
    (Q.readers.task .controls).busy = true ∧ Q.crew.shared.sent.length = 1 ∧
    Reached PlainWire.wire PlainWire.publishers PlainWire.monitored Q.readers := by
  have startup : Run PlainWire.wire PlainWire.publishers PlainWire.monitored
      (fun incident => incident.takes = false) plantStart
      (plantStart.advance PlainWire.env .startup 3) :=
    (Run.refl _).advance _ _ _ fun _ _ => rfl
  have run : PlantRun (plantStart.advance PlainWire.env .startup 3).hydrated
      (plantActivating.advance PlainWire.env (.reader .controls) 3) :=
    (((Run.refl _).step trivial plantReading_connected).step trivial plantActivating_taken).advance
      _ _ _ fun _ _ => trivial
  refine ⟨_, ?_, ?_, refines_synchronizer startup rfl (by decide +kernel) run (by decide)⟩
  · decide +kernel
  · decide +kernel

theorem Orderly.run (orderly : Orderly w publishers topics snapshots incidents Q) :
    Run w publishers topics (fun _ => True) (start w snapshots) Q := by
  induction orderly with
  | nil => exact .refl _
  | snoc _ _ _ step ih => exact ih.step trivial step

theorem Orderly.spares (orderly : Orderly w publishers topics snapshots incidents Q)
    (hydrating : Q.life.phoebus = .hydrating) :
    Run w publishers topics (Incident.Spares w topics (RecordedIn w snapshots))
        (start w snapshots) Q := by
  induction orderly with
  | nil => exact .refl _
  | snoc _ early _ step ih =>
      have earlier := step.hydrating hydrating
      exact (ih earlier).step (early earlier) step

variable (w publishers topics) in
/-- What the readers have done during hydration they would also do in any other state that knows
nothing of the devices without records. -/
structure Beforehand (recorded : String → Prop) (moves : List (Act Value ι)) (Q : Process Value ι) :
    Prop where
  fruitless : ∀ worker,
    (Q.readers.task worker).Meets (fruitless recorded) (fun _ _ => True) ()
  anywhere : ∀ world : World Value, world.RecordedOnly recorded →
    (synchronizer w publishers topics).Exclusive (Worker.deviceOf w topics)
      (AlarmSync.waiting world) moves ⟨world, Q.readers.task⟩

section
variable {recorded : String → Prop} {moves : List (Act Value ι)} {crew : Crew Value ι}

omit [DecidableEq Value] in
theorem readers_update {worker : Worker ι} {p : Handler Value (Option SyncOutcome)}
    (task : crew.task = Function.update P.crew.task (.reader worker) p) :
    (readers { P with crew := crew }).task = Function.update P.readers.task worker p := by
  have injective : Function.Injective (Role.reader : Worker ι → Role ι) := fun _ _ same =>
    Role.reader.inj same
  simp only [readers, task]
  exact Function.update_comp_eq_of_injective P.crew.task injective worker _

theorem Beforehand.unmoved (before : Beforehand w publishers topics recorded moves Q)
    (is : incident.move = none) (same : R.readers.task = Q.readers.task) :
    Beforehand w publishers topics recorded (moves ++ [incident].filterMap Incident.move) R := by
  rw [List.filterMap_cons_none is, List.filterMap_nil, List.append_nil]
  refine ⟨fun worker => ?_, fun world only => ?_⟩
  · rw [same]
    exact before.fruitless worker
  · rw [same]
    exact before.anywhere world only

theorem Beforehand.take {msg : StringMessage}
    (before : Beforehand w publishers topics recorded moves Q)
    (other : ∀ d, Worker.deviceOf w topics .controls msg = some d → ¬ recorded d)
    (apart : ∀ d, Worker.deviceOf w topics .controls msg = some d →
      ∀ other, ¬ Machine.HandlingAt (Worker.deviceOf w topics) moves Q.readers other d)
    (move : (crewMachine w publishers topics).Step Q.crew (.take (.reader .controls) msg) crew) :
    Beforehand w publishers topics recorded (moves ++ [.take .controls msg])
      { Q with crew := crew } := by
  obtain ⟨⟨a, idle⟩, _, task⟩ := move.taken
  have tasks := readers_update (P := Q) task
  refine ⟨?_, fun world only => ?_⟩
  · rw [tasks]
    exact (Function.forall_update_iff Q.readers.task fun _ p =>
      p.Meets (AlarmSync.fruitless recorded) (fun _ _ => True) ()).mpr
        ⟨status_fruitless other, fun worker _ => before.fruitless worker⟩
  · rw [tasks]
    refine .take (before.anywhere world only)
      (.take (K := synchronizer w publishers topics) msg idle) ?_
    exact fun j d about handling => apart d about j handling

theorem Beforehand.perform {worker : Worker ι} {o : Op Value} {answer : o.Answer}
    (before : Beforehand w publishers topics recorded moves Q)
    (known : Q.crew.shared.RecordedOnly recorded)
    (move : (crewMachine w publishers topics).Step Q.crew
      (.perform (.reader worker) o answer) crew) :
    Beforehand w publishers topics recorded (moves ++ [.perform worker o answer])
      { Q with crew := crew } := by
  obtain ⟨next, ready, effect, task⟩ := move.performed
  have tasks := readers_update (P := Q) task
  have own := before.fruitless worker
  rw [show Q.readers.task worker = _ from ready] at own
  refine ⟨?_, fun world only => ?_⟩
  · have relied := (fruitless_answered known known effect.1 own.1).1
    rw [tasks]
    exact (Function.forall_update_iff Q.readers.task fun _ p =>
      p.Meets (AlarmSync.fruitless recorded) (fun _ _ => True) ()).mpr
        ⟨own.2 answer relied, fun worker _ => before.fruitless worker⟩
  · have elsewhere := (fruitless_answered known only effect.1 own.1).2
    rw [tasks]
    exact .perform (before.anywhere world only)
      (.perform (K := synchronizer w publishers topics) ready elsewhere)

end

theorem Orderly.beforehand [Nonempty ι]
    (orderly : Orderly w publishers topics snapshots incidents Q)
    (hydrating : Q.life.phoebus = .hydrating) :
    Beforehand w publishers topics (RecordedIn w snapshots)
        (incidents.filterMap Incident.move) Q := by
  induction orderly with
  | nil => exact ⟨fun _ => trivial, fun world _ => .nil _⟩
  | @snoc incidents Q incident R earlier early apart step ih =>
      have at_ := step.hydrating hydrating
      have before := ih at_
      have sound := earlier.run.sound (sound_start snapshots)
      rw [List.filterMap_append]
      cases step with
      | @take worker msg crew reading move =>
          cases worker with
          | monitor i =>
              rw [sound.unstarted at_ i] at reading
              cases reading
          | controls =>
              exact before.take (fun d => early at_ msg d rfl) (fun d => apart _ _ d rfl) move
      | @perform role o answer crew move =>
          cases role with
          | reader worker =>
              exact before.perform (hydrating_recordedOnly (earlier.spares at_) at_) move
          | startup =>
              obtain ⟨next, _, _, task⟩ := move.performed
              refine before.unmoved rfl (funext fun worker => ?_)
              simp only [readers, task]
              exact Function.update_of_ne (by simp) _ _
      | hydrated | interrupted | dismissed | joined => cases hydrating
      | dropped aborted _ =>
          have returned := sound.aborted aborted
          rw [at_] at returned
          cases returned
      | _ => exact before.unmoved rfl rfl

theorem Step.begins (step : Step w publishers topics P incident Q)
    (hydrating : P.life.phoebus = .hydrating) (supervising : Q.life.phoebus = .supervising) :
    incident = .hydrated ∧ Q = P.hydrated ∧ (P.crew.task .startup).busy = false := by
  cases step with
  | hydrated _ idle => exact ⟨rfl, rfl, idle⟩
  | interrupted | dismissed | joined => cases supervising
  | _ => cases hydrating.symm.trans supervising

theorem Orderly.exclusive [Nonempty ι] (orderly : Orderly w publishers topics snapshots incidents Q)
    (supervising : Q.life.phoebus = .supervising) :
    ∃ records : List Record, records.map Prod.snd = recordsOf snapshots ∧
      (synchronizer w publishers topics).Exclusive (Worker.deviceOf w topics)
        (waiting (World.empty.hydrateAll w publishers records)) (incidents.filterMap Incident.move)
        Q.readers := by
  induction orderly with
  | nil => cases supervising
  | @snoc incidents Q incident R earlier early apart step ih =>
      rw [List.filterMap_append]
      cases at_ : Q.life.phoebus with
      | returned => exact absurd at_ (step.there (by simp [supervising]))
      | hydrating =>
          -- what the readers have done so far they would have done after the records
          obtain ⟨rfl, rfl, complete⟩ := step.begins at_ supervising
          obtain ⟨records, given, same⟩ := hydration_exact (earlier.spares at_) at_ complete
          have only := hydrating_recordedOnly (earlier.spares at_) at_
          have course := (earlier.beforehand at_).anywhere _ only
          refine ⟨records, given, ?_⟩
          rw [← same, List.filterMap_cons_none rfl, List.filterMap_nil, List.append_nil]
          exact course
      | supervising =>
          obtain ⟨records, given, before⟩ := ih at_
          have sound := earlier.run.sound (sound_start snapshots)
          refine ⟨records, given, ?_⟩
          rcases step.readers sound (by simp [at_]) (by simp [supervising]) with
            ⟨move, is, one⟩ | ⟨is, same⟩
          · rw [List.filterMap_cons_some is, List.filterMap_nil]
            cases move with
            | perform worker o answer => exact .perform before one
            | take worker msg =>
                have taken : incident = .take worker msg := by
                  cases incident with
                  | take worker' msg' => cases is; rfl
                  | perform role _ _ => cases role <;> cases is
                  | _ => cases is
                exact .take before one fun other d about => apart worker msg d taken about other
          · rw [List.filterMap_cons_none is, List.filterMap_nil, List.append_nil, same]
            exact before

/-- The whole process is the sequential program. The Controls task is at work from the start on,
during hydration only with statuses of devices without records, and no two readers are ever busy
with one device at once. Whenever hydration is over and no reader is amid a message, each device has
the entry and the metadata, and has had the calls, that come of all records and then all messages,
one handled completely after the other. -/
theorem whole_run_sequential [Nonempty ι]
    (orderly : Orderly w publishers topics snapshots incidents Q)
    (supervising : Q.life.phoebus = .supervising) (ends : Idle Q.readers) :
    ∃ (records : List Record) (order : List (Turned Value ι)),
      records.map Prod.snd = recordsOf snapshots ∧ (∀ t ∈ order, t.1.Gives t.2.performed) ∧
      (∀ worker, movesOf worker (order.flatMap (·.2.moves)) =
        movesOf worker (incidents.filterMap Incident.move)) ∧
      ∀ d, (World.empty.run w publishers
        (records.map Record.event ++ order.map (Turned.event topics))).view d =
        Q.crew.shared.view d := by
  obtain ⟨records, given, exclusive⟩ := orderly.exclusive supervising
  obtain ⟨order, serializes⟩ := exists_serializes (fun _ => rfl) exclusive ends
  refine ⟨records, order, given, serializes.given, serializes.own, fun d => ?_⟩
  have seen := serializes.seen d
  rw [World.handleAll, List.map_map] at seen
  rw [World.run, List.foldl_append]
  exact seen

theorem Orderly.advance (orderly : Orderly w publishers topics snapshots incidents Q) (env : Env)
    (role : Role ι) (n : Nat) :
    ∃ incidents', Orderly w publishers topics snapshots incidents' (Q.advance env role n) := by
  obtain ⟨moves, trace⟩ := Machine.trace_advance (K := crewMachine w publishers topics)
    (C := fun _ move => ∃ o answer, move = .perform role o answer)
    (P := Q.crew) env.answer_effect role n fun o _ _ => ⟨o, _, rfl⟩
  refine trace.invariant (I := fun _ crew => ∃ incidents',
    Orderly w publishers topics snapshots incidents' { Q with crew := crew })
    ⟨_, orderly⟩ ?_
  rintro _ crew move crew' ⟨incidents', before⟩ ⟨o, answer, rfl⟩ step
  exact ⟨_, before.snoc (fun _ _ _ same => by cases same) (fun _ _ _ same => by cases same)
    (.perform step)⟩

omit [DecidableEq Value] in
theorem idle_apart {moves : List (Act Value ι)} {home : Worker ι → StringMessage → Option String}
    (idle : Idle Q.readers) (worker : Worker ι) (d : String) :
    ¬ Machine.HandlingAt home moves Q.readers worker d := by
  intro handling
  have busy := handling.1
  rw [idle worker] at busy
  cases busy

theorem fan_spared :
    (Incident.take .controls fanStatus : Incident FlatJson.Scalar Bool).Spares PlainWire.wire
    PlainWire.monitored (RecordedIn PlainWire.wire plantSnapshots) := by
  rintro _ d ⟨⟩ about ⟨r, member, recorded⟩
  have pump : ∀ r ∈ recordsOf plantSnapshots,
      (Message.phoebus r.1 r.2).deviceOf PlainWire.wire = some "pump" := by
    decide +kernel
  have same := (fanStatus_device.symm.trans about).trans (recorded.symm.trans (pump r member))
  exact absurd same (by decide)

/-- The status of the fan comes to nothing; then the pump, which was read as bypassed,
is activated. -/
theorem activatedPlant_sequential : ∃ (Q : Process FlatJson.Scalar Bool) (records : List Record)
    (order : List (Turned FlatJson.Scalar Bool)),
    (plantOverlapping.readers.task .controls).busy = true ∧
    records.map Prod.snd = recordsOf plantSnapshots ∧ Q.crew.shared.sent.length = 1 ∧
    ∀ d, (World.empty.run PlainWire.wire PlainWire.publishers
      (records.map Record.event ++ order.map (Turned.event PlainWire.monitored))).view d =
        Q.crew.shared.view d := by
  let activated : Process FlatJson.Scalar Bool := ((plantOverlapping.advance PlainWire.env
    (.reader .controls) 2).handed .controls (PlainWire.statusMessage "pump" "UNBYPASSED")).advance
    PlainWire.env (.reader .controls) 4
  have connected : Orderly PlainWire.wire PlainWire.publishers PlainWire.monitored plantSnapshots _
      (plantStart.setStage .controls .reading) :=
    Orderly.nil.snoc (fun _ _ _ same => by cases same)
      (fun _ _ _ same => by cases same) (.connected rfl)
  have taken : Orderly PlainWire.wire PlainWire.publishers PlainWire.monitored plantSnapshots _
      ((plantStart.setStage .controls .reading).handed .controls fanStatus) :=
    connected.snoc (fun _ => fan_spared) (fun _ _ d _ _ other => idle_apart (fun _ => rfl) other d)
      (handed_step _ _ _ rfl rfl)
  obtain ⟨_, looking⟩ := taken.advance PlainWire.env (.reader .controls) 1
  obtain ⟨_, complete⟩ := looking.advance PlainWire.env .startup 3
  have overlapping : Orderly PlainWire.wire PlainWire.publishers
      PlainWire.monitored plantSnapshots _
      plantOverlapping :=
    complete.snoc (fun _ _ _ same => by cases same) (fun _ _ _ same => by cases same)
      (.hydrated rfl (by decide +kernel))
  obtain ⟨_, rest⟩ := overlapping.advance PlainWire.env (.reader .controls) 2
  have idle : Idle (plantOverlapping.advance PlainWire.env (.reader .controls) 2).readers := by
    rintro (_ | i)
    · decide +kernel
    · rfl
  have takes := handed_step (plantOverlapping.advance PlainWire.env (.reader .controls) 2) .controls
    (PlainWire.statusMessage "pump" "UNBYPASSED") rfl (idle .controls)
  have activating := rest.snoc (fun hydrating => by cases hydrating)
    (fun _ _ d _ _ other => idle_apart idle other d) takes
  obtain ⟨incidents, orderly⟩ := activating.advance PlainWire.env (.reader .controls) 4
  have ends : Idle activated.readers := by
    rintro (_ | i)
    · decide +kernel
    · rfl
  obtain ⟨records, order, all, _, _, seen⟩ := whole_run_sequential orderly rfl ends
  exact ⟨_, records, order, by decide +kernel, all, by decide +kernel, seen⟩

end

end Process

end AlarmSync
