import AlarmSync.Isolation

/-! A message that is delivered again. Nothing comes of the second delivery, as long as no other
message of the device has been handled since the first. -/
namespace AlarmSync
open EffectProgram

variable {Value : Type}

section
variable {world world' : World Value} {x : Intent}

theorem suppressed_observe (world : World Value) (x : Intent) :
    x.suppressed ((world.observe x).alarmState x.device) = true := by
  cases policy : x.suppressed (world.alarmState x.device) with
  | true => rwa [World.observe_suppressed policy]
  | false =>
      rw [World.observe_mirrored policy, World.alarmState_record]
      exact (suppressesIncoming_iff _ _).mpr (.inl (Function.update_self ..))

theorem observe_again (entry : world'.alarmState x.device = (world.observe x).alarmState x.device) :
    world'.observe x = world' := by
  apply World.observe_suppressed
  rw [entry]
  exact suppressed_observe world x

variable [DecidableEq Value] {topic : String} {key : Key} {config : Config Value}
  {state : CachedState}

theorem followConfig_again
    (entry : world'.alarmState key.device =
      (world.followConfig topic key config state).alarmState key.device)
    (metadata : world'.metadata key.device =
      (world.followConfig topic key config state).metadata key.device) :
    world'.followConfig topic key config state = world' := by
  have duplicate : isDuplicate topic world' key config state = true := by
    rw [isDuplicate, entry, metadata]
    cases before : isDuplicate topic world key config state with
    | true =>
        have same : world.followConfig topic key config state = world := if_pos before
        rw [same]
        exact before
    | false =>
        have known : (world.followConfig topic key config state).metadata key.device =
            some (configMetadata topic (world.metadata key.device) key config) := by
          simp [World.metadata_followConfig, before]
        rw [World.alarmState_followConfig, known, Bool.and_eq_true]
        exact ⟨suppressed_observe world (configIntent key config state), by simp [configMetadata]⟩
  exact if_pos duplicate

end

section
variable [DecidableEq Value] {w : Wire Value} {publishers : List String}
  {world world' : World Value} {m : Message}
  {env env' : Env}

/-- Nothing comes of a message in a state that is, for its device, the one after its
first handling. -/
theorem step_again {d : String} (about : m.deviceOf w = some d)
    (same : ∀ topic msg, m = .phoebus topic msg →
      validConfig w env'.now msg = validConfig w env.now msg)
    (view : world'.view d = (world.step w publishers (env, .handle m)).view d) :
    world'.step w publishers (env', .handle m) = world' := by
  have entry : world'.alarmState d = (world.step w publishers (env, .handle m)).alarmState d :=
    congrArg DeviceView.alarmState view
  have metadata : world'.metadata d = (world.step w publishers (env, .handle m)).metadata d :=
    congrArg DeviceView.metadata view
  cases m with
  | controls msg =>
      simp only [World.step, Event.handler, Message.handler,
        Controls.run_processRuntimeMessage] at entry ⊢
      rw [metadata_step_handle] at metadata
      obtain ⟨alarm, read, rfl⟩ := Option.map_eq_some_iff.mp about
      have intent : controlsIntent w publishers world'.metadata msg =
        controlsIntent w publishers world.metadata msg := by
        simp only [controlsIntent, read, Option.bind_eq_bind, Option.bind_some, metadata]
      rw [intent]
      cases intends : controlsIntent w publishers world.metadata msg with
      | none => rfl
      | some x =>
          obtain ⟨alarm', _, _, read', _, _, _, rfl⟩ := controlsIntent_eq_some.mp intends
          rw [read] at read'
          cases read'
          rw [intends] at entry
          exact observe_again entry
  | phoebus topic msg =>
      have decodes := same topic msg rfl
      simp only [World.step, Event.handler, Message.handler, Monitor.run_processRuntimeMessage,
        decodes] at entry metadata ⊢
      cases valid : validConfig w env.now msg with
      | some found =>
          obtain ⟨key, config, state⟩ := found
          obtain ⟨keyed, _, _⟩ := validConfig_eq_some.mp valid
          rw [deviceOf_keyOf w topic keyed] at about
          cases about
          simp only [valid] at entry metadata ⊢
          exact followConfig_again entry metadata
      | none =>
          simp only [valid] at entry ⊢
          cases intends : commandIntent w msg with
          | none => rfl
          | some x =>
              obtain ⟨⟨key, command⟩, acknowledges, rfl⟩ := Option.map_eq_some_iff.mp intends
              obtain ⟨keyed, _, _⟩ := acknowledgeCommand_eq_some.mp acknowledges
              rw [deviceOf_keyOf w topic keyed] at about
              cases about
              rw [intends] at entry
              exact observe_again entry

theorem view_handleAll_other {d : String} (between : List (Env × Message))
    (others : ∀ e ∈ between, e.2.deviceOf w ≠ some d) :
    (world.handleAll w publishers between).view d = world.view d := by
  induction between generalizing world with
  | nil => rfl
  | cons e rest ih =>
      have one : (world.step w publishers (e.1, .handle e.2)).view d = world.view d :=
        view_step_other publishers (others e List.mem_cons_self)
      exact (ih fun e' member => others e' (List.mem_cons_of_mem e member)).trans one

/-- The second of two deliveries of a message can be left out of any run in which the messages
between them are about other devices, unless a snooze in it has run out in between: it makes no
call, and all that follows is as it would have been without it. -/
theorem redelivery_harmless (world : World Value) (before between after : List (Env × Message))
    (others : ∀ e ∈ between, ∀ d, m.deviceOf w = some d → e.2.deviceOf w ≠ some d)
    (awake : ∀ topic msg, m = .phoebus topic msg → ∀ dt, snoozeTime w msg = some dt →
      (dt.timestampMillis > env'.now ↔ dt.timestampMillis > env.now)) :
    world.handleAll w publishers (before ++ (env, m) :: between ++ (env', m) :: after) =
      world.handleAll w publishers (before ++ (env, m) :: between ++ after) := by
  let first := world.handleAll w publishers before
  let second := (first.step w publishers (env, .handle m)).handleAll w publishers between
  have again : second.step w publishers (env', .handle m) = second := by
    cases about : m.deviceOf w with
    | none =>
        obtain ⟨a, done⟩ := Program.eq_done_of_idle (idle_event publishers (e := .handle m) about)
        simp only [World.step, done, Program.run_done]
    | some d =>
        refine step_again about ?_
          (view_handleAll_other between fun e member => others e member d about)
        exact fun topic msg same => validConfig_awake (awake topic msg same)
  simp only [World.handleAll_append, World.handleAll_cons]
  exact congrArg (·.handleAll w publishers after) again

end

open PlainWire in
theorem acknowledgement_again :
    (started "true").handleAll wire publishers
      [(env, .phoebus "plantCommand" (commandMessage "pump")),
        (env, .controls (statusMessage "fan" "BYPASSED")),
        ({ env with now := 1000 }, .phoebus "plantCommand" (commandMessage "pump")),
      (env, .controls (statusMessage "pump" "BYPASSED"))] =
    (started "true").handleAll wire publishers
    [(env, .phoebus "plantCommand" (commandMessage "pump")),
      (env, .controls (statusMessage "fan" "BYPASSED")),
      (env, .controls (statusMessage "pump" "BYPASSED"))] := by
  have pump : (Message.phoebus "plantCommand" (commandMessage "pump")).deviceOf wire =
      some "pump" := by
    decide +kernel
  have fan : (Message.controls (statusMessage "fan" "BYPASSED")).deviceOf wire = some "fan" := by
    decide +kernel
  have unsnoozed : snoozeTime wire (commandMessage "pump") = none := by decide +kernel
  refine redelivery_harmless (m := .phoebus "plantCommand" (commandMessage "pump"))
    (started "true") [] [(env, .controls (statusMessage "fan" "BYPASSED"))]
    [(env, .controls (statusMessage "pump" "BYPASSED"))] ?_ ?_
  · intro e member d about
    cases List.mem_singleton.mp member
    rw [pump] at about
    cases about
    rw [fan]
    decide
  · rintro topic msg ⟨⟩ dt snoozed
    rw [unsnoozed] at snoozed
    cases snoozed

end AlarmSync
