import AlarmSync.Expiry
import AlarmSync.Atomic
import AlarmSync.Reduction

/-! The devices are isolated from each other: what becomes of one depends on the records and
messages about it, and on nothing else that goes on. -/
namespace AlarmSync
open EffectProgram

variable {Value ι : Type}

theorem Startup.meets_hydrateMessage {κ : Type} {c : Contract (effects Value) κ}
    {final : κ → Prop} {k : κ} {w : Wire Value} {topic : String} {msg : StringMessage}
    (skipped : final k) (evidenced : ∀ key severity, keyOf .state msg = some key →
      extractSeverity w msg.value = some severity →
      (Handler.recordEvidence key.device ⟨stateOfSeverity severity, none⟩).Meets c
      (fun _ => final) k)
    (configured : ∀ key config, keyOf .config msg = some key →
      Config.fromStr w msg.value = some config →
      Handler.readClock.Meets c
      (fun now k => final k ∧ ∀ state, config.asCachedState w now = .ok state →
        (Handler.recordAlarmState key.device state).Meets c (fun _ =>
          (Handler.updateMetadata key.device (hydratedMetadata topic key config)).Meets c
            fun _ => final) k) k) :
    (hydrateMessage w topic msg).Meets c (fun _ => final) k := by
  unfold hydrateMessage
  cases given : msg.key with
  | none => exact skipped
  | some keyStr =>
      cases parsed : Key.parse keyStr with
      | error e => simpa [parsed] using skipped
      | ok key =>
          have keyed : ∀ operation, key.operation = operation → keyOf operation msg = some key :=
            fun _ same => keyOf_eq_some.mpr ⟨keyStr, given, parsed, same⟩
          cases operation : key.operation with
          | command => simpa [parsed, operation] using skipped
          | state =>
              simp only [parsed, operation, Program.pure_eq, Program.meets_bind, Program.meets_done,
                handleState]
              cases severity : extractSeverity w msg.value with
              | none => exact skipped
              | some severity' => exact evidenced key severity' (keyed _ operation) severity
          | config =>
              simp only [parsed, operation, Program.pure_eq, Program.meets_bind, Program.meets_done,
                handleConfig]
              cases read : Config.fromStr w msg.value with
              | none => exact skipped
              | some config =>
                  simp only [Program.meets_bind]
                  refine (configured key config (keyed _ operation) read).weaken
                    fun now k obligations => ?_
                  cases decoded : config.asCachedState w now with
                  | error e => exact obligations.1
                  | ok state => simpa [hydratedMetadata] using obligations.2 state decoded

/-- Everything that the synchronizer has about one device, and has sent for it. -/
@[ext] structure DeviceView (Value : Type) where
  alarmState : Option CachedState
  metadata : Option (PvMetadata Value)
  calls : List Outbound

def World.view (d : String) (world : World Value) : DeviceView Value where
  alarmState := world.alarmState d
  metadata := world.metadata d
  calls := world.sent.filter (·.device = d)

/-- The device that an operation is about. A clock reading is about none. -/
def Op.device : Op Value → Option String
  | readAlarmState device | recordAlarmState device _ | recordEvidence device _
  | lookupMetadata device | updateMetadata device _ => some device
  | send out => some out.device
  | readClock => none

/-- The operation is about no other device than `d`. -/
def Op.Within (d : String) (o : Op Value) : Prop := ∀ device, o.device = some device → device = d

section
variable {d : String} {o : Op Value} {world : World Value}

theorem alarmState_evidence (device : String) (state : CachedState) :
    (world.recordEvidence device state).alarmState d =
      if d = device ∧ (world.alarmState d).any (·.state == .bypassed) = false then some state
      else world.alarmState d := by
  unfold World.recordEvidence
  by_cases same : d = device
  · subst same
    cases bypassed : (world.alarmState d).any (·.state == .bypassed) <;> simp
  · split <;> simp [same]

theorem view_after_other (other : ∀ device, o.device = some device → device ≠ d) :
    (world.after o).view d = world.view d := by
  have entry : (world.after o).alarmState d = world.alarmState d := by
    rw [World.alarmState_after]
    cases o with
    | recordAlarmState device state => exact if_neg (Ne.symm (other device rfl))
    | recordEvidence device state => simp [alarmState_evidence, Ne.symm (other device rfl)]
    | _ => rfl
  have metadata : (world.after o).metadata d = world.metadata d := by
    rw [World.metadata_after]
    cases o with
    | updateMetadata device new => exact if_neg (Ne.symm (other device rfl))
    | _ => rfl
  have calls : o.calls.filter (·.device = d) = [] := by
    cases o with
    | send out => simpa [Op.calls] using other out.device rfl
    | _ => rfl
  simp only [World.view, entry, metadata, World.sent_after, List.filter_append,
    calls, List.append_nil]

theorem view_after_local {world' : World Value} (same : world'.view d = world.view d) :
    (world'.after o).view d = (world.after o).view d := by
  obtain ⟨entry, metadata, calls⟩ := DeviceView.mk.inj same
  have entry' : (world'.after o).alarmState d = (world.after o).alarmState d := by
    rw [World.alarmState_after, World.alarmState_after]
    cases o with
    | recordEvidence device state => simp only [alarmState_evidence, entry]
    | _ => simp only [entry]
  have metadata' : (world'.after o).metadata d = (world.after o).metadata d := by
    rw [World.metadata_after, World.metadata_after]
    cases o <;> simp only [metadata]
  simp only [World.view, entry', metadata', World.sent_after, List.filter_append, calls]

end

/-- Every device has a shard of its own. -/
def devices (Value : Type) : Sharding (S := effects Value) World.Effect String
    (DeviceView Value) where
  view := World.view
  Within := Op.Within
  frame := by
    rintro d d' o world answer _ within ⟨_, rfl⟩ other
    exact view_after_other fun device about same => other (same.symm.trans (within device about))
  sight := by
    rintro d o world answer _ world' within ⟨answered, rfl⟩ same
    refine ⟨world'.after o, ⟨?_, rfl⟩, view_after_local same⟩
    obtain ⟨entry, metadata, _⟩ := DeviceView.mk.inj same
    cases o with
    | readAlarmState device =>
        obtain rfl := within device rfl
        exact answered.trans entry.symm
    | lookupMetadata device =>
        obtain rfl := within device rfl
        exact answered.trans metadata.symm
    | _ => trivial

theorem within_ok {d : String} {o : Op Value}
    (about : ∀ device, o.device = some device → device = d) :
    ¬ ¬ (devices Value).Within d o := not_not.mpr about

theorem about_self {d : String} {o : Op Value} (about : o.device = some d) :
    ∀ device, o.device = some device → device = d := fun _ same =>
      Option.some.inj (same.symm.trans about)

theorem within_clock (d : String) : ∀ device, (Op.readClock : Op Value).device = some device →
    device = d :=
  fun _ about => by cases about

theorem keeps_convey {d : String} {out : Option Outbound} {state : CachedState}
    (labelled : ∀ call, out = some call → call.device = d) :
    (devices Value).Keeps d (convey out d state : Handler Value Unit) := by
  have recorded : (devices Value).Keeps d (Handler.recordAlarmState d state : Handler Value Unit) :=
    ⟨within_ok (about_self rfl), fun _ _ => trivial⟩
  cases out with
  | none => exact recorded
  | some call =>
      exact ⟨within_ok (about_self (congrArg some (labelled call rfl))), fun _ _ => recorded⟩

section
variable [DecidableEq Value] {w : Wire Value} {publishers : List String} {d : String}

/-- A handler does nothing about other devices than that of its message. -/
theorem keeps_message {m : Message} (about : m.deviceOf w = some d) :
    (devices Value).Keeps d (m.handler w publishers) := by
  cases m with
  | controls msg =>
      apply Controls.meets_processRuntimeMessage trivial
      intro alarm read _
      obtain rfl : alarm.device = d := by simpa [Message.deviceOf, read] using about
      refine ⟨within_ok (about_self rfl), fun observed _ =>
        ⟨within_ok (about_self rfl), fun known _ => ⟨trivial, ?_⟩⟩⟩
      intro pvMetadata operation _ _ _
      refine keeps_convey ?_
      intro call outbound
      obtain ⟨_, _, _, _, _, rfl⟩ := controlsOutbound_eq_some.mp outbound
      rfl
  | phoebus topic msg =>
      have same : ∀ {operation key}, keyOf operation msg = some key → key.device = d :=
        fun keyed => Option.some.inj ((deviceOf_keyOf w topic keyed).symm.trans about)
      have called : ∀ request state, (devices Value).Keeps d
          (convey (some (.call d request)) d state) :=
        fun request state => keeps_convey fun call same => by cases same; rfl
      apply Monitor.meets_processRuntimeMessage fun _ => trivial
      · intro key keyed
        obtain rfl := same keyed
        refine ⟨within_ok (about_self rfl), fun observed _ => ⟨trivial, ?_⟩⟩
        intro command _ _
        exact called _ _
      · intro key config keyed _
        obtain rfl := same keyed
        have updated : ∀ known, (devices Value).Keeps key.device
            (Handler.updateMetadata key.device (configMetadata topic known key config)) :=
          fun known => ⟨within_ok (about_self rfl), fun _ _ => trivial⟩
        refine ⟨within_ok (about_self rfl), fun known _ =>
          ⟨within_ok (about_self rfl), fun observed _ => ?_⟩⟩
        refine ⟨within_ok (within_clock _), fun now _ => ?_⟩
        exact
          { malformed := fun _ _ => trivial
            duplicate := fun _ _ _ _ => trivial
            unchanged := fun _ _ _ => updated known
            mirrored := fun state _ _ => (called _ _).weaken fun _ _ _ => updated known }

theorem idle_message {m : Message} (unknown : m.deviceOf w = none) :
    (m.handler w publishers).busy = false := by
  cases m with
  | controls msg =>
      have unread : w.statusFromStr msg.value = none := by simpa [Message.deviceOf] using unknown
      simp [Message.handler, Controls.processRuntimeMessage, unread, Program.busy]
  | phoebus topic msg =>
      simp only [Message.handler, Monitor.processRuntimeMessage]
      cases given : msg.key with
      | none => rfl
      | some keyStr =>
          cases parsed : Key.parse keyStr with
          | error e => simp [parsed, Program.busy]
          | ok key => simp [Message.deviceOf, given, parsed, Except.toOption] at unknown

theorem keeps_event {e : Event} (about : e.deviceOf w = some d) :
    (devices Value).Keeps d (e.handler w publishers) := by
  cases e with
  | handle m => exact keeps_message about
  | hydrate topic msg =>
      have same : ∀ {operation key}, keyOf operation msg = some key → key.device = d :=
        fun keyed => Option.some.inj ((deviceOf_keyOf w topic keyed).symm.trans about)
      apply Startup.meets_hydrateMessage trivial
      · intro key severity keyed _
        obtain rfl := same keyed
        exact ⟨within_ok (about_self rfl), fun _ _ => trivial⟩
      · intro key config keyed _
        obtain rfl := same keyed
        refine ⟨within_ok (within_clock _), fun now _ => ⟨trivial, fun state _ => ?_⟩⟩
        exact ⟨within_ok (about_self rfl), fun _ _ =>
          ⟨within_ok (about_self rfl), fun _ _ => trivial⟩⟩

variable (publishers)

theorem idle_event {e : Event} (unknown : e.deviceOf w = none) :
    (e.handler w publishers).busy = false := by
  cases e with
  | handle m => exact idle_message unknown
  | hydrate topic msg =>
      simp only [Event.handler, Startup.hydrateMessage]
      cases given : msg.key with
      | none => rfl
      | some keyStr =>
          cases parsed : Key.parse keyStr with
          | error e => simp [parsed, Program.busy]
          | ok key =>
              simp [Event.deviceOf, Message.deviceOf, given, parsed, Except.toOption] at unknown

variable {world world' : World Value} {e : Env × Event}

theorem view_step_other (other : e.2.deviceOf w ≠ some d) :
    (world.step w publishers e).view d = world.view d := by
  cases about : e.2.deviceOf w with
  | none =>
      obtain ⟨a, done⟩ := Program.eq_done_of_idle (idle_event publishers about)
      simp only [World.step, done, Program.run_done]
  | some device =>
      have different : d ≠ device := by
        rintro rfl
        exact other about
      exact (keeps_event about).run_frame e.1.answer_effect different

theorem view_step_local (about : e.2.deviceOf w = some d) (same : world'.view d = world.view d) :
    ((e.2.handler w publishers).run e.1.answer world').1 =
        ((e.2.handler w publishers).run e.1.answer world).1 ∧
      (world'.step w publishers e).view d = (world.step w publishers e).view d := by
  refine (keeps_event about).run_local ?_ same
  rintro o s t within same'
  refine ⟨?_, view_after_local same'⟩
  obtain ⟨entry, metadata, _⟩ := DeviceView.mk.inj same'
  cases o with
  | readAlarmState device =>
      obtain rfl := within device rfl
      exact entry
  | lookupMetadata device =>
      obtain rfl := within device rfl
      exact metadata
  | send out => cases out <;> rfl
  | _ => rfl

variable (w d)

/-- What is reported for the records and messages of `d`, in their order. -/
def World.outcomesFor (world : World Value) : List (Env × Event) → List (Option SyncOutcome)
  | [] => []
  | e :: rest =>
    let later := (world.step w publishers e).outcomesFor rest
    if e.2.deviceOf w = some d then
      ((e.2.handler w publishers).run e.1.answer world).1 :: later else later

def eventsOf (events : List (Env × Event)) : List (Env × Event) :=
  events.filter (·.2.deviceOf w = some d)

variable {w d}

theorem run_eventsOf (events : List (Env × Event)) (same : world'.view d = world.view d) :
    (world'.run w publishers (eventsOf w d events)).view d =
        (world.run w publishers events).view d ∧
      world'.outcomesFor w publishers d (eventsOf w d events) =
        world.outcomesFor w publishers d events := by
  induction events generalizing world world' with
  | nil => exact ⟨same, rfl⟩
  | cons e rest ih =>
      by_cases about : e.2.deviceOf w = some d
      · have kept : eventsOf w d (e :: rest) = e :: eventsOf w d rest := by simp [eventsOf, about]
        obtain ⟨outcome, same'⟩ := view_step_local publishers about same
        obtain ⟨view, outcomes⟩ := ih same'
        rw [kept]
        refine ⟨view, ?_⟩
        simp only [World.outcomesFor, about, if_true, outcome, outcomes]
      · have dropped : eventsOf w d (e :: rest) = eventsOf w d rest := by simp [eventsOf, about]
        obtain ⟨view, outcomes⟩ := ih (same.trans (view_step_other publishers about).symm)
        rw [dropped]
        refine ⟨view, ?_⟩
        simp only [World.outcomesFor, about, if_false, outcomes]

/-- Two runs with the same records and messages of a device, whatever else is among them, leave it
with the same entry and the same metadata, have made the same calls for it, and have reported the
same outcomes, if they begin with the same entry, metadata and calls of that device. -/
theorem run_isolated (events events' : List (Env × Event)) (same : world'.view d = world.view d)
    (own : eventsOf w d events' = eventsOf w d events) :
    (world'.run w publishers events').view d = (world.run w publishers events).view d ∧
      world'.outcomesFor w publishers d events' = world.outcomesFor w publishers d events := by
  obtain ⟨view, outcomes⟩ := run_eventsOf publishers events same
  obtain ⟨view', outcomes'⟩ := run_eventsOf publishers events' (rfl : world'.view d = world'.view d)
  rw [own] at view' outcomes'
  exact ⟨view'.symm.trans view, outcomes'.symm.trans outcomes⟩

end

open PlainWire in
theorem pump_isolated :
    ((started "true").run wire publishers
      [(env, .handle (.controls (statusMessage "fan" "BYPASSED"))),
        (env, .handle (.phoebus "plant" (configMessage "pump" "false"))),
        (env, .handle (.phoebus "plantCommand" (commandMessage "fan")))]).view "pump" =
    ((started "true").run wire publishers
      [(env, .handle (.phoebus "plant" (configMessage "pump" "false")))]).view "pump" := by
  refine (run_isolated _ _ _ rfl ?_).1
  have fan : (Event.handle (.controls (statusMessage "fan" "BYPASSED"))).deviceOf
      wire = some "fan" := by
    decide +kernel
  have acknowledged :
      (Event.handle (.phoebus "plantCommand" (commandMessage "fan"))).deviceOf
        wire = some "fan" := by
    decide +kernel
  have pump :
      (Event.handle (.phoebus "plant" (configMessage "pump" "false"))).deviceOf wire =
        some "pump" := by
    decide +kernel
  simp [eventsOf, fan, acknowledged, pump]

end AlarmSync
