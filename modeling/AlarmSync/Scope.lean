import AlarmSync.PlainWire

/-! Which devices are in scope: what admits a device, and that nothing takes it out again. -/
namespace AlarmSync

variable {Value : Type}

def World.inScope (world : World Value) (d : String) : Prop := (world.metadata d).isSome = true

/-- The config that an event handles, if it handles a valid one. -/
def Event.config (w : Wire Value) : Env × Event → Option (Key × Config Value × CachedState)
  | (env, .hydrate _ msg) => validConfig w env.now msg
  | (env, .handle (.phoebus _ msg)) => validConfig w env.now msg
  | (_, .handle (.controls _)) => none

theorem Event.config_eq_some {w : Wire Value} {e : Env × Event} {key : Key} {config : Config Value}
    {state : CachedState} (configured : Event.config w e = some (key, config, state)) :
    ∃ now msg, validConfig w now msg = some (key, config, state) := by
  obtain ⟨env, event⟩ := e
  cases event with
  | hydrate topic msg => exact ⟨env.now, msg, configured⟩
  | handle m =>
      cases m with
      | phoebus topic msg => exact ⟨env.now, msg, configured⟩
      | controls msg => cases configured

def Event.isHydrate : Event → Bool
  | hydrate .. => true
  | handle _ => false

def Event.configures (w : Wire Value) (d : String) (e : Env × Event) : Bool :=
  (Event.config w e).any fun (key, _, _) => key.device = d

/-- The event is a valid config for `d` that is handled at startup, or carries settings of its
own, or is not suppressed by the entry of `d`. -/
def Event.admits [DecidableEq Value] (w : Wire Value) (d : String) (world : World Value)
    (e : Env × Event) : Bool :=
  (Event.config w e).any fun (key, config, state) =>
    key.device = d && (e.2.isHydrate || config.phoebusSpecific ≠ ∅ ||
      !(ObservedStatePolicy.mk (world.alarmState d)).suppressesIncoming state)

section
variable [DecidableEq Value] (w : Wire Value) (publishers : List String) (d : String)

theorem alarmState_step_config {e : Env × Event} {key : Key} {config : Config Value}
    {state : CachedState} (configured : Event.config w e = some (key, config, state))
    (world : World Value) : (world.step w publishers e).alarmState d =
      if d = key.device then some state else world.alarmState d := by
  obtain ⟨env, event⟩ := e
  cases event with
  | hydrate topic msg =>
      have valid : validConfig w env.now msg = some (key, config, state) := configured
      rw [alarmState_step_hydrate]
      simp only [valid]
  | handle m =>
      cases m with
      | controls msg => cases configured
      | phoebus topic msg =>
          have valid : validConfig w env.now msg = some (key, config, state) := configured
          simp only [(step_handle w publishers env world _).1, Message.intent, valid,
            Option.elim_some, World.alarmState_observe, configIntent]
          by_cases same : d = key.device
          · subst same
            cases policy :
              (ObservedStatePolicy.mk (world.alarmState key.device)).suppressesIncoming state with
            | true =>
                have entry :=
                  (suppressesIncoming_enablement (validConfig_enablement valid) _).mp policy
                simp [entry]
            | false => simp [Intent.suppressed, policy]
          · simp [same]

/-- The states that an event can write into the entry of `d`, by where they come from. -/
inductive Event.Writes (w : Wire Value) (world : World Value) (d : String) (e : Env × Event) :
    CachedState → Prop
  | config {key : Key} {config : Config Value} {state : CachedState}
      (configured : Event.config w e = some (key, config, state)) (device : key.device = d) :
      Writes w world d e state
  | evidence (severity : String) : Writes w world d e ⟨Startup.stateOfSeverity severity, none⟩
  | command : Writes w world d e ⟨.acknowledged, none⟩
  | status {msg : StringMessage} {alarm : Status} {operation : Operation}
      (handled : e.2 = .handle (.controls msg)) (read : w.statusFromStr msg.value = some alarm)
      (source : alarm.source = .epics) (device : alarm.device = d) (inScope : world.inScope d)
      (mirrored : Controls.stateToOperation alarm.state = some operation)
      (policy : (ObservedStatePolicy.mk (world.alarmState d)).suppressesIncoming
        (.ofStatus alarm) = false) :
      Writes w world d e (.ofStatus alarm)

theorem alarmState_step_cases {world : World Value} {e : Env × Event} {x : CachedState}
    (after : (world.step w publishers e).alarmState d = some x) :
    world.alarmState d = some x ∨ Event.Writes w world d e x := by
  obtain ⟨env, event⟩ := e
  cases event with
  | hydrate topic msg =>
      rw [alarmState_step_hydrate] at after
      rcases valid : validConfig w env.now msg with _ | ⟨key, config, state⟩
      · rcases useful : Startup.usefulState w msg with _ | ⟨device, state⟩
        · exact .inl (by simpa [valid, useful] using after)
        · simp only [valid, useful] at after
          split_ifs at after
          · cases after
            obtain ⟨_, severity, _, _, _, rfl⟩ := Startup.usefulState_eq_some.mp useful
            exact .inr (.evidence severity)
          · exact .inl after
      · simp only [valid] at after
        split_ifs at after with same
        · cases after
          exact .inr (.config valid same.symm)
        · exact .inl after
  | handle m =>
      rw [(step_handle w publishers env world m).1] at after
      cases carried : m.intent w publishers env.now world.metadata with
      | none => exact .inl (by simpa [carried] using after)
      | some i =>
          simp only [carried, Option.elim_some, World.alarmState_observe] at after
          split_ifs at after with written
          · cases after
            obtain ⟨rfl, policy⟩ := written
            right
            cases m with
            | controls msg =>
                obtain ⟨alarm, _, _, read, source, known, mirrored, rfl⟩ :=
                  controlsIntent_eq_some.mp carried
                exact .status rfl read source rfl (by simp [World.inScope, known]) mirrored policy
            | phoebus topic msg =>
                simp only [Message.intent] at carried
                rcases valid : validConfig w env.now msg with _ | ⟨key, config, state⟩
                · simp only [valid, commandIntent, Option.map_eq_some_iff] at carried
                  obtain ⟨_, _, rfl⟩ := carried
                  exact .command
                · simp only [valid, Option.some.injEq] at carried
                  subst carried
                  exact .config valid rfl
          · exact .inl after

/-- Some event of the run admits `d` in the world it is handled in. -/
def Admitted : World Value → List (Env × Event) → Prop
  | _, [] => False
  | world, e :: rest => Event.admits w d world e = true ∨ Admitted (world.step w publishers e) rest

theorem admits_configures {world : World Value} {e : Env × Event}
    (admits : Event.admits w d world e = true) : Event.configures w d e = true := by
  unfold Event.admits at admits
  unfold Event.configures
  cases read : Event.config w e with
  | none => simp [read] at admits
  | some c =>
      simp only [read, Option.any_some, Bool.and_eq_true] at admits ⊢
      exact admits.1

theorem isDuplicate_unknown {topic : String} {world : World Value} {key : Key}
    {config : Config Value} {state : CachedState} (unknown : world.metadata key.device = none) :
    isDuplicate topic world key config state =
      !(decide (config.phoebusSpecific ≠ ∅) ||
        !(ObservedStatePolicy.mk (world.alarmState key.device)).suppressesIncoming state) := by
  rw [isDuplicate, unknown]
  simp [configIntent, Intent.suppressed, PvMetadata.fromUnmapped, Bool.and_comm, beq_eq_decide]

theorem inScope_step (world : World Value) (e : Env × Event) :
    (world.step w publishers e).inScope d ↔ world.inScope d ∨ Event.admits w d world e = true := by
  obtain ⟨env, event⟩ := e
  unfold World.inScope
  cases event with
  | hydrate topic msg =>
      rw [metadata_step_hydrate]
      simp only [Event.admits, Event.config, Event.isHydrate]
      rcases validConfig w env.now msg with _ | ⟨key, config, state⟩
      · simp
      · by_cases same : d = key.device
        · simp [same]
        · have ne : key.device ≠ d := fun h => same h.symm
          simp [same, ne]
  | handle m =>
      rw [metadata_step_handle]
      cases m with
      | controls msg => simp [Event.admits, Event.config]
      | phoebus topic msg =>
          simp only [Event.admits, Event.config, Event.isHydrate]
          rcases validConfig w env.now msg with _ | ⟨key, config, state⟩
          · simp
          · by_cases same : d = key.device
            · subst same
              cases known : world.metadata key.device with
              | some pvMetadata =>
                  cases duplicate : isDuplicate topic world key config state <;>
                    simp [known, duplicate]
              | none => simp [isDuplicate_unknown known, imp_iff_not_or]
            · have ne : key.device ≠ d := fun h => same h.symm
              simp [same, ne]

theorem inScope_run (world : World Value) (events : List (Env × Event)) :
    (world.run w publishers events).inScope d ↔
      world.inScope d ∨ Admitted w publishers d world events := by
  induction events generalizing world with
  | nil => simp [World.run, Admitted]
  | cons e rest ih =>
      have later := ih (world.step w publishers e)
      simp only [World.run, List.foldl_cons, Admitted] at later ⊢
      rw [later, inScope_step, or_assoc]

theorem inScope_mono {world : World Value} (inScope : world.inScope d)
    (events : List (Env × Event)) : (world.run w publishers events).inScope d :=
  (inScope_run w publishers d world events).mpr (.inl inScope)

theorem admitted_configured {world : World Value} {events : List (Env × Event)}
    (admitted : Admitted w publishers d world events) :
    ∃ e ∈ events, Event.configures w d e = true := by
  induction events generalizing world with
  | nil => exact admitted.elim
  | cons e rest ih =>
      rcases admitted with now | later
      · exact ⟨e, List.mem_cons_self, admits_configures w d now⟩
      · obtain ⟨e', member, configures⟩ := ih later
        exact ⟨e', List.mem_cons_of_mem e member, configures⟩

def startupThenRuntime (records : List (Env × String × StringMessage))
    (messages : List (Env × Message)) : List (Env × Event) :=
  records.map (fun (env, topic, msg) => (env, .hydrate topic msg)) ++
    messages.map fun (env, m) => (env, .handle m)

/-- Scope is the set of configured devices exactly for those devices that, once configured, are
also admitted; and a device in scope stays in scope. -/
theorem scope_is_configured_iff (records : List (Env × String × StringMessage))
    (messages : List (Env × Message)) :
    let events := startupThenRuntime records messages
    let world := World.empty.run w publishers events
    ((world.inScope d ↔ ∃ e ∈ events, Event.configures w d e = true) ↔
        ((∃ e ∈ events, Event.configures w d e = true) →
          Admitted w publishers d World.empty events)) ∧
      ∀ later : List (Env × Event), world.inScope d → (world.run w publishers later).inScope d := by
  intro events world
  have outside : ¬ (World.empty : World Value).inScope d := by simp [World.inScope]
  have scope : world.inScope d ↔ Admitted w publishers d World.empty events := by
    simpa only [outside, false_or] using inScope_run w publishers d World.empty events
  refine ⟨?_, fun later inScope => inScope_mono w publishers d inScope later⟩
  rw [scope]
  exact ⟨fun same => same.mpr, fun admits => ⟨admitted_configured w publishers d, admits⟩⟩

end

/-- A state record, then an unbypassing config with no settings of its own: the device is
configured and yet not in scope. -/
theorem configured_device_out_of_scope : ¬ ∀ (publishers : List String) (d : String)
    (records : List (Env × String × StringMessage)) (messages : List (Env × Message)),
    let events := startupThenRuntime records messages
    let world := World.empty.run PlainWire.wire publishers events
    (world.inScope d ↔ ∃ e ∈ events, Event.configures PlainWire.wire d e = true) ∧
      ∀ later : List (Env × Event), world.inScope d →
        (world.run PlainWire.wire publishers later).inScope d := by
  intro claim
  have scope := (claim PlainWire.publishers "pump"
    [(PlainWire.env, "plant", PlainWire.stateMessage "pump" "OK")]
    [(PlainWire.env, .phoebus "plant" (PlainWire.configMessage "pump" "true"))]).1
  revert scope
  unfold World.inScope
  decide +kernel

end AlarmSync
