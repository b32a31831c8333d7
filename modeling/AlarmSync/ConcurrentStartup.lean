import AlarmSync.Addresses

/-! Hydration while the Controls task is at work. The Controls task writes no metadata
and touches only the devices of the statuses that it takes, so hydration comes to what it
would come to alone. -/
namespace AlarmSync
open EffectProgram

variable {Value ι : Type}

/-- What hydration never does: it looks nothing up and calls nobody. -/
def Op.Looks : Op Value → Prop
  | readAlarmState _ | lookupMetadata _ | send _ => True
  | _ => False

theorem hydration_blind {w : Wire Value}
    (snapshots : List (String × Except Unit (List StringMessage))) : (do
      Startup.getExistingMessagesFromPhoebus w snapshots
      return none : Handler Value (Option SyncOutcome)).Avoids Op.Looks := by
  simp only [Program.Avoids, Program.pure_eq, Program.meets_bind, Program.meets_done]
  refine Startup.meets_getExistingMessagesFromPhoebus snapshots ?_ trivial
  rintro ⟨topic, msg⟩ _ k _
  apply Startup.meets_hydrateMessage trivial
  · exact fun _ _ _ _ => ⟨id, fun _ _ => trivial⟩
  · exact fun _ _ _ _ =>
      ⟨id, fun _ _ => ⟨trivial, fun _ _ => ⟨id, fun _ _ => ⟨id, fun _ _ => trivial⟩⟩⟩⟩

/-- The same metadata, and the same entries of the spared devices. -/
structure World.SameFor (spared : String → Prop) (world world' : World Value) : Prop where
  metadata : ∀ d, world'.metadata d = world.metadata d
  entry : ∀ d, spared d → world'.alarmState d = world.alarmState d

/-- An operation that may make a difference to these. -/
def Op.Disturbs (spared : String → Prop) (o : Op Value) : Prop :=
  (∃ device new, o = .updateMetadata device new) ∨ ∃ device, o.device = some device ∧ spared device

section
variable {spared : String → Prop} {world world' : World Value} {o : Op Value}

theorem World.SameFor.trans {world'' : World Value} (first : world.SameFor spared world')
    (second : world'.SameFor spared world'') : world.SameFor spared world'' where
  metadata d := (second.metadata d).trans (first.metadata d)
  entry d spare := (second.entry d spare).trans (first.entry d spare)

theorem World.SameFor.after (same : world.SameFor spared world') :
    (world.after o).SameFor spared (world'.after o) where
  metadata d := by
    rw [metadata_after, metadata_after]
    cases o <;> simp only [same.metadata d]
  entry d spare := by
    rw [alarmState_after, alarmState_after]
    cases o with
    | recordEvidence device state => simp only [alarmState_evidence, same.entry d spare]
    | _ => simp only [same.entry d spare]

theorem sameFor_undisturbed (quiet : ¬ o.Disturbs spared) :
    world.SameFor spared (world.after o) where
  metadata d := by
    rw [World.metadata_after]
    cases o with
    | updateMetadata device new => exact absurd (.inl ⟨device, new, rfl⟩) quiet
    | _ => rfl
  entry d spare := by
    have other : ∀ device, o.device = some device → device ≠ d := by
      rintro device about rfl
      exact quiet (.inr ⟨device, about, spare⟩)
    exact congrArg DeviceView.alarmState (view_after_other other)

theorem run_sameFor {α : Type} {p : Handler Value α} (blind : p.Avoids Op.Looks) (env : Env)
    (readings : Nat → Int) (same : world.SameFor spared world') :
    (p.run env.clocked (world, readings)).2.1.SameFor spared
      (p.run env.clocked (world', readings)).2.1 := by
  let Same (s t : World Value × (Nat → Int)) : Prop := s.1.SameFor spared t.1 ∧ t.2 = s.2
  have answers : ∀ o s t, ¬ Op.Looks o → Same s t →
      (env.clocked o t).1 = (env.clocked o s).1 ∧ Same (env.clocked o s).2 (env.clocked o t).2 := by
    rintro o ⟨s, r⟩ ⟨t, r'⟩ seeing ⟨same, rfl⟩
    refine ⟨?_, same.after, rfl⟩
    cases o with
    | readAlarmState _ | lookupMetadata _ | send _ => exact absurd trivial seeing
    | _ => rfl
  have begins : Same (world, readings) (world', readings) := ⟨same, rfl⟩
  exact (blind.run_related answers begins).2.1

end

def nextReading (now : Int) (readings : Nat → Int) : Nat → Int
  | 0 => now
  | n + 1 => readings n

section
variable [DecidableEq ι] [DecidableEq Value] {w : Wire Value} {publishers : List String}
  {topics : ι → String} {spared : String → Prop}
  {snapshots : List (String × Except Unit (List StringMessage))} {P Q : Process Value ι}
  {incident : Incident Value ι} {C : Incident Value ι → Prop}

namespace Process

theorem Step.hydrating (step : Step w publishers topics P incident Q)
    (hydrating : Q.life.phoebus = .hydrating) :
    P.life.phoebus = .hydrating := by
  cases step with
  | hydrated | interrupted | dismissed | joined => cases hydrating
  | _ => exact hydrating

theorem Run.without_monitors [Nonempty ι] (run : Run w publishers topics C (start w snapshots) P)
    (hydrating : P.life.phoebus = .hydrating) :
    Run w publishers topics (fun incident => C incident ∧ incident ≠ .interrupted ∧
      ∀ i msg, incident ≠ .take (.monitor i) msg) (start w snapshots) P := by
  induction run with
  | refl => exact .refl _
  | @step Q incident R before allowed one ih =>
      have earlier := one.hydrating hydrating
      refine .step (ih earlier) ⟨allowed, ?_, ?_⟩ one
      · rintro rfl
        cases one with
        | interrupted => cases hydrating
      · rintro i msg rfl
        cases one with
        | take reading _ =>
            have waits := (before.sound (sound_start snapshots)).unstarted earlier i
            rw [waits] at reading
            cases reading

end Process

/-- The statuses that the Controls task takes are about other devices. -/
def Incident.Spares (w : Wire Value) (topics : ι → String) (spared : String → Prop)
    (incident : Incident Value ι) :
    Prop :=
  ∀ msg d, incident = .take .controls msg →
  Worker.deviceOf w topics .controls msg = some d → ¬ spared d

omit [DecidableEq ι] in
theorem status_undisturbing {msg : StringMessage}
    (other : ∀ d, Worker.deviceOf w topics .controls msg = some d → ¬ spared d) :
    ((Worker.controls.receives topics msg).handler w publishers).Avoids (Op.Disturbs spared) := by
  have updates : ((Worker.controls.receives topics msg).handler w publishers).Avoids
      fun o : Op Value => ∃ device new, o = .updateMetadata device new := by
    refine (handler_role topics .controls msg).refine (fun _ _ => True) ?_
      (fun _ _ => trivial) trivial
    rintro _ _ o _ foreign
    refine ⟨?_, fun _ _ => ⟨trivial, trivial⟩⟩
    rintro ⟨device, new, rfl⟩
    exact foreign trivial
  refine updates.or ?_
  cases about : (Worker.controls.receives topics msg).deviceOf w with
  | none => exact Program.avoids_idle (idle_message about)
  | some d =>
      refine (keeps_message about).refine (fun _ _ => True) ?_ (fun _ _ => trivial) trivial
      rintro _ _ o _ within
      refine ⟨?_, fun _ _ => ⟨trivial, trivial⟩⟩
      rintro ⟨device, same, spare⟩
      obtain rfl := not_not.mp within device same
      exact other _ about spare

theorem hydration_alone [Nonempty ι] (env : Env)
    (run : Process.Run w publishers topics (Incident.Spares w topics spared)
      (Process.start w snapshots) P)
    (hydrating : P.life.phoebus = .hydrating) (complete : (P.crew.task .startup).busy = false) :
    ∃ readings, ((Startup.getExistingMessagesFromPhoebus w snapshots).run env.clocked
      (World.empty, readings)).2.1.SameFor spared P.crew.shared := by
  let whole : Handler Value (Option SyncOutcome) := do
    Startup.getExistingMessagesFromPhoebus w snapshots
    return none
  -- what is left of hydration leads where the whole of it does, at the readings so far and
  -- those to come
  let A : Role ι → World Value → Handler Value (Option SyncOutcome) → Prop := fun role world p =>
    match role with
    | .startup => p.Avoids Op.Looks ∧ ∃ past : (Nat → Int) → Nat → Int, ∀ readings,
        (whole.run env.clocked (World.empty, past readings)).2.1.SameFor spared
          (p.run env.clocked (world, readings)).2.1
    | .reader .controls => p.Avoids (Op.Disturbs spared)
    | .reader (.monitor _) => p.busy = false
  have all : ∀ role, A role P.crew.shared (P.crew.task role) := by
    refine (run.without_monitors hydrating).assertion (A := A) ?_ ?_ ?_ ?_ ?_
    · rintro (_ | _ | i)
      · exact ⟨hydration_blind snapshots, id, fun _ => ⟨fun _ => rfl, fun _ _ => rfl⟩⟩
      · trivial
      · rfl
    · rintro incident (_ | _ | i) world p ⟨_, notInterrupted, _⟩ drops holds
      · cases incident with
        | interrupted => exact absurd rfl notInterrupted
        | _ => cases drops
      · trivial
      · rfl
    · rintro (_ | i) world p msg ⟨spares, _, noMonitor⟩ _
      · exact status_undisturbing fun d about => spares msg d rfl about
      · exact absurd rfl (noMonitor i msg)
    · rintro (_ | _ | i) world o next answer holds answered
      · obtain ⟨blind, past, same⟩ := holds
        refine ⟨blind.2 answer trivial, ?_⟩
        cases o with
        | readAlarmState _ | lookupMetadata _ | send _ => exact absurd trivial blind.1
        | readClock =>
            exact ⟨fun readings => past (nextReading answer readings), fun readings => same _⟩
        | _ => exact ⟨past, same⟩
      · exact holds.2 answer trivial
      · cases holds
    · rintro (_ | _ | i) (_ | _ | j) world o next answer q acts holds different answered
      · exact absurd rfl different
      · exact holds
      · exact holds
      · obtain ⟨blind, past, same⟩ := holds
        refine ⟨blind, past, fun readings => ?_⟩
        exact (same readings).trans (run_sameFor blind env readings (sameFor_undisturbed acts.1))
      · exact holds
      · exact holds
      all_goals cases acts
  obtain ⟨_, past, same⟩ := all .startup
  obtain ⟨a, done⟩ := Program.eq_done_of_idle complete
  have ended := same fun _ => 0
  rw [done] at ended
  have alone : (whole.run env.clocked (World.empty, past fun _ => 0)).2 =
      ((Startup.getExistingMessagesFromPhoebus w snapshots).run env.clocked
        (World.empty, past fun _ => 0)).2 := by
    simp only [whole, Program.run_bind, Program.pure_eq, Program.run_done]
  rw [alone] at ended
  exact ⟨_, ended⟩

/-- Hydration comes to the metadata that it would come to alone, at some readings of the clock,
whatever statuses the Controls task handles meanwhile and however the two are interleaved; and to
the same entry of every device that those statuses are not about. -/
theorem hydration_unhindered [Nonempty ι] (env : Env)
    (run : Process.Run w publishers topics (Incident.Spares w topics spared)
      (Process.start w snapshots) P)
    (hydrating : P.life.phoebus = .hydrating) (complete : (P.crew.task .startup).busy = false) :
    ∃ readings, let alone := ((Startup.getExistingMessagesFromPhoebus w snapshots).run env.clocked
        (World.empty, readings)).2.1
      (∀ d, P.crew.shared.metadata d = alone.metadata d) ∧
        ∀ d, spared d → P.crew.shared.alarmState d = alone.alarmState d := by
  obtain ⟨readings, same⟩ := hydration_alone env run hydrating complete
  exact ⟨readings, same.metadata, same.entry⟩

theorem pump_unhindered : ∃ (P : Process FlatJson.Scalar Bool) (readings : Nat → Int),
    P.life.stage .controls = .reading ∧
    P.crew.shared.alarmState "pump" =
      ((Startup.getExistingMessagesFromPhoebus PlainWire.wire Process.plantSnapshots).run
        PlainWire.env.clocked (World.empty, readings)).2.1.alarmState "pump" := by
  let reading := Process.plantStart.setStage .controls .reading
  let spares : Incident FlatJson.Scalar Bool → Prop :=
    Incident.Spares PlainWire.wire PlainWire.monitored (· = "pump")
  have connects : Process.PlantStep Process.plantStart (.connected .controls) reading :=
    .connected rfl
  have takes := Process.handed_step reading .controls Process.fanStatus rfl rfl
  have quiet : spares (.connected .controls) := fun _ _ same => by cases same
  have other : spares (.take .controls Process.fanStatus) := by
    rintro _ d ⟨⟩ about rfl
    rw [Process.fanStatus_device] at about
    exact absurd about (by decide)
  have taken : Process.Run PlainWire.wire PlainWire.publishers PlainWire.monitored spares
      Process.plantStart (reading.handed .controls Process.fanStatus) :=
    ((Process.Run.refl _).step quiet connects).step other takes
  have run := (taken.advance PlainWire.env (.reader .controls) 1 fun _ _ _ _ same =>
    by cases same).advance PlainWire.env .startup 3 fun _ _ _ _ same => by cases same
  obtain ⟨readings, _, entry⟩ := hydration_unhindered PlainWire.env run rfl (by decide +kernel)
  exact ⟨_, readings, rfl, entry "pump" rfl⟩

end

end AlarmSync
