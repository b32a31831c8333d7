import AlarmSync.Scope

/-! The config records of one topic, hydrated at startup or handled one by one by the monitor of
the topic: the caches that the two ways lead to. -/
namespace AlarmSync

variable {Value : Type}

/-- The valid configs of `d` among records, each read at its own time. -/
def configsOf (w : Wire Value) (d : String) (records : List (Env × StringMessage)) :
    List (Key × Config Value × CachedState) :=
  records.filterMap fun (env, msg) => (validConfig w env.now msg).filter
    fun (key, _, _) => key.device = d

theorem configsOf_snoc (w : Wire Value) (d : String)
    (records : List (Env × StringMessage)) (env : Env) (msg : StringMessage) :
      configsOf w d (records ++ [(env, msg)]) = configsOf w d records ++
      ((validConfig w env.now msg).filter fun (key, _, _) => key.device = d).toList := by
  rw [configsOf, List.filterMap_append]
  cases found : (validConfig w env.now msg).filter fun (key, _, _) => key.device = d <;>
    simp only [List.filterMap_cons, found, List.filterMap_nil, Option.toList] <;> rfl

theorem keyOf_configsOf {w : Wire Value} {d : String} {records : List (Env × StringMessage)}
    {c : Key × Config Value × CachedState} (member : c ∈ configsOf w d records) :
    ∃ r ∈ records, keyOf .config r.2 = some c.1 := by
  obtain ⟨⟨env, msg⟩, r, found⟩ := List.mem_filterMap.mp member
  obtain ⟨valid, _⟩ := Option.filter_eq_some_iff.mp found
  exact ⟨_, r, (validConfig_eq_some.mp valid).1⟩

theorem exists_last {α : Type} {l : List α} {first : α} (ends : l.head? = some first) :
    ∃ last, l.getLast? = some last := by
  rw [← Option.isSome_iff_exists, List.getLast?_isSome]
  rintro rfl
  cases ends

section
variable [DecidableEq Value] (w : Wire Value) (publishers : List String) (topic d : String)

/-- Startup on the records. -/
def hydrated (records : List (Env × StringMessage)) : World Value :=
  World.empty.run w publishers (records.map fun (env, msg) => (env, .hydrate topic msg))

/-- The monitor on the same messages. -/
def monitored (records : List (Env × StringMessage)) : World Value :=
  World.empty.run w publishers (records.map fun (env, msg) => (env, .handle (.phoebus topic msg)))

theorem hydrated_snoc (records : List (Env × StringMessage)) (env : Env) (msg : StringMessage) :
    hydrated w publishers topic (records ++ [(env, msg)]) =
      (hydrated w publishers topic records).step w publishers (env, .hydrate topic msg) := by
  simp [hydrated, World.run]

theorem monitored_snoc (records : List (Env × StringMessage)) (env : Env) (msg : StringMessage) :
    monitored w publishers topic (records ++ [(env, msg)]) =
      (monitored w publishers topic records).step w publishers
      (env, .handle (.phoebus topic msg)) := by
  simp [monitored, World.run]

theorem step_invalid {world : World Value} {env : Env} {msg : StringMessage} {key : Key}
    (keyed : keyOf .config msg = some key) (invalid : validConfig w env.now msg = none) :
    world.step w publishers (env, .hydrate topic msg) = world ∧
      world.step w publishers (env, .handle (.phoebus topic msg)) = world := by
  constructor
  · simp [World.step, Event.handler, Startup.run_hydrateMessage, invalid,
      Startup.config_excludes_state w keyed]
  · simp [World.step, Event.handler, Message.handler, Monitor.run_processRuntimeMessage, invalid,
      commandIntent, config_excludes_acknowledge w keyed]

theorem metadata_step_config {world : World Value} {env : Env} {msg : StringMessage} {key : Key}
    {config : Config Value} {state : CachedState}
    (valid : validConfig w env.now msg = some (key, config, state))
    (configured : (world.alarmState key.device).isSome = true → world.inScope key.device) :
    (world.step w publishers (env, .handle (.phoebus topic msg))).metadata d =
      if d = key.device then some (configMetadata topic (world.metadata key.device) key config)
      else world.metadata d := by
  rw [metadata_step_handle]
  simp only [valid]
  by_cases same : d = key.device
  · subst same
    cases duplicate : isDuplicate topic world key config state with
    | false => simp
    | true =>
        unfold isDuplicate Intent.suppressed at duplicate
        simp only [Bool.and_eq_true, beq_iff_eq] at duplicate
        obtain ⟨suppressed, settings⟩ := duplicate
        have entry := (suppressesIncoming_enablement (validConfig_enablement valid) _).mp suppressed
        obtain ⟨pvMetadata, known⟩ := Option.isSome_iff_exists.mp (configured (by rw [entry]; rfl))
        simp only [known, Option.getD_some] at settings
        simp [known, configMetadata, settings]
  · simp [same]

theorem hydrated_caches {records : List (Env × StringMessage)}
    (keyed : ∀ r ∈ records, ∃ key, keyOf .config r.2 = some key) :
    (hydrated w publishers topic records).alarmState d =
        (configsOf w d records).getLast?.map (fun (_, _, state) => state) ∧
      (hydrated w publishers topic records).metadata d =
        (configsOf w d records).getLast?.map fun (key, config, _) =>
          Startup.hydratedMetadata topic key config := by
  induction records using List.reverseRecOn with
  | nil => exact ⟨rfl, rfl⟩
  | append_singleton before r ih =>
      obtain ⟨env, msg⟩ := r
      obtain ⟨entry, metadata⟩ := ih fun r member => keyed r (List.mem_append_left _ member)
      obtain ⟨key', keyed'⟩ := keyed _ (List.mem_append_right _ List.mem_cons_self)
      rw [hydrated_snoc, configsOf_snoc]
      rcases valid : validConfig w env.now msg with _ | ⟨key, config, state⟩
      · rw [(step_invalid w publishers topic keyed' valid).1]
        simpa using ⟨entry, metadata⟩
      · have configured : Event.config w (env, .hydrate topic msg) = some (key, config, state) :=
          valid
        rw [alarmState_step_config w publishers d configured, metadata_step_hydrate, valid]
        by_cases same : key.device = d
        · simp [same, Option.filter]
        · have ne : d ≠ key.device := fun h => same h.symm
          simpa [same, ne, Option.filter] using ⟨entry, metadata⟩

theorem monitored_caches {records : List (Env × StringMessage)}
    (keyed : ∀ r ∈ records, ∃ key, keyOf .config r.2 = some key) :
    (monitored w publishers topic records).alarmState d =
        (configsOf w d records).getLast?.map (fun (_, _, state) => state) ∧
      (monitored w publishers topic records).metadata d =
        (configsOf w d records).head?.bind fun (first, _, _) =>
          (configsOf w d records).getLast?.map fun (_, config, _) =>
            { phoebusConfigMetadata := config.phoebusSpecific
              displayPath := first.displayPath
              phoebusTopic := normalizeTopic topic } := by
  induction records using List.reverseRecOn with
  | nil => exact ⟨rfl, rfl⟩
  | append_singleton before r ih =>
      obtain ⟨env, msg⟩ := r
      obtain ⟨entry, metadata⟩ := ih fun r member => keyed r (List.mem_append_left _ member)
      obtain ⟨key', keyed'⟩ := keyed _ (List.mem_append_right _ List.mem_cons_self)
      rw [monitored_snoc, configsOf_snoc]
      rcases valid : validConfig w env.now msg with _ | ⟨key, config, state⟩
      · rw [(step_invalid w publishers topic keyed' valid).2]
        simpa using ⟨entry, metadata⟩
      · have configured : Event.config w (env, .handle (.phoebus topic msg)) = some
            (key, config, state) := valid
        -- an entry comes from a config, and so do metadata
        have tracked : ((monitored w publishers topic before).alarmState d).isSome = true →
            (monitored w publishers topic before).inScope d := by
          unfold World.inScope
          rw [entry, metadata]
          cases configsOf w d before with
          | nil => simp
          | cons first rest => simp
        by_cases same : key.device = d
        · subst same
          rw [alarmState_step_config w publishers _ configured,
            metadata_step_config w publishers topic _ valid tracked, metadata]
          cases ends : (configsOf w key.device before).head? with
          | none =>
              have empty := List.head?_eq_none_iff.mp ends
              simp [empty, Option.filter, configMetadata, PvMetadata.fromUnmapped]
          | some first =>
              obtain ⟨last, final⟩ := exists_last ends
              simp [Option.filter, configMetadata, ends, final]
        · have ne : d ≠ key.device := fun h => same h.symm
          rw [alarmState_step_config w publishers _ configured,
            metadata_step_handle, entry, metadata]
          simp [valid, same, ne, Option.filter]

theorem restart_entries_agree {records : List (Env × StringMessage)}
    (keyed : ∀ r ∈ records, ∃ key, keyOf .config r.2 = some key) :
    (hydrated w publishers topic records).alarmState =
      (monitored w publishers topic records).alarmState := by
  funext d
  rw [(hydrated_caches w publishers topic d keyed).1,
    (monitored_caches w publishers topic d keyed).1]

/-- Startup and the monitor agree about the caches exactly if, for every device with a valid
config, the topic is no command topic by its name and the first and the last valid config of the
device have the same display path. -/
theorem restart_agrees_iff {records : List (Env × StringMessage)}
    (keyed : ∀ r ∈ records, ∃ key, keyOf .config r.2 = some key) :
    ((hydrated w publishers topic records).alarmState =
          (monitored w publishers topic records).alarmState ∧
        (hydrated w publishers topic records).metadata =
          (monitored w publishers topic records).metadata) ↔
      ∀ d first last, (configsOf w d records).head? = some first →
        (configsOf w d records).getLast? = some last →
        RustText.endsWith topic "Command" = false ∧ first.1.displayPath = last.1.displayPath := by
  simp only [restart_entries_agree w publishers topic keyed, true_and, funext_iff,
    ← normalizeTopic_eq_self_iff, (hydrated_caches w publishers topic _ keyed).2,
    (monitored_caches w publishers topic _ keyed).2]
  refine forall_congr' fun d => ?_
  cases ends : (configsOf w d records).head? with
  | none =>
      have empty := List.head?_eq_none_iff.mp ends
      simp [empty]
  | some first =>
      obtain ⟨last, final⟩ := exists_last ends
      simp only [final, Option.map_some, Option.bind_some, Startup.hydratedMetadata,
        Option.some.injEq, PvMetadata.mk.injEq, true_and]
      constructor
      · rintro ⟨path, base⟩ _ _ rfl rfl
        exact ⟨base.symm, path.symm⟩
      · intro agree
        obtain ⟨base, path⟩ := agree first last rfl rfl
        exact ⟨path.symm, base.symm⟩

end

section
open PlainWire

def steadyRecords : List (Env × StringMessage) :=
  [(env, configMessage "pump" "true"), (env, configMessage "pump" "false")]

theorem steadyRecords_agree :
    (hydrated wire publishers "plant" steadyRecords).alarmState =
        (monitored wire publishers "plant" steadyRecords).alarmState ∧
      (hydrated wire publishers "plant" steadyRecords).metadata =
        (monitored wire publishers "plant" steadyRecords).metadata := by
  have keyed : ∀ r ∈ steadyRecords, keyOf .config r.2 = some ⟨"pump", "/plant", .config⟩ := by
    decide +kernel
  refine (restart_agrees_iff wire publishers "plant" fun r member => ⟨_, keyed r member⟩).mpr ?_
  intro d first last head final
  have placed : ∀ c ∈ configsOf wire d steadyRecords, c.1 = ⟨"pump", "/plant", .config⟩ := by
    intro c member
    obtain ⟨r, member, key⟩ := keyOf_configsOf member
    exact Option.some.inj (key.symm.trans (keyed r member))
  rw [placed first (List.mem_of_head? head), placed last (List.mem_of_getLast? final)]
  exact ⟨by decide, rfl⟩

/-- The pump is moved from the east side of the plant to the west side. -/
def movedRecords : List (Env × StringMessage) :=
  ["/plant/east", "/plant/west"].map fun path =>
    (env, ⟨some (Controls.getPhoebusKey .config path "pump"),
    Config.toStr wire ⟨some "true", "console", "operator", ∅⟩⟩)

/-- After the move the monitor still has the east side, and a restart has the west side. -/
theorem moved_device_disagrees : ¬ ∀ (publishers : List String) (topic : String)
    (records : List (Env × StringMessage)), RustText.endsWith topic "Command" = false →
    (∀ r ∈ records, ∃ key, keyOf .config r.2 = some key) →
    (hydrated wire publishers topic records).alarmState =
        (monitored wire publishers topic records).alarmState ∧
      (hydrated wire publishers topic records).metadata =
        (monitored wire publishers topic records).metadata := by
  intro claim
  have keyed : ∀ r ∈ movedRecords, (keyOf .config r.2).isSome = true := by decide +kernel
  have metadata := (claim publishers "plant" movedRecords (by decide) fun r member =>
    Option.isSome_iff_exists.mp (keyed r member)).2
  have paths := congrArg (fun metadata => (metadata "pump").map (·.displayPath)) metadata
  revert paths
  decide +kernel

end

end AlarmSync
