import AlarmSync.Mirror
import AlarmSync.Scope

/-! Startup hydration: which record decides the caches of a device, and what hydration does
to the states that the Controls task records meanwhile. -/
namespace AlarmSync
open EffectProgram

variable {Value : Type}

/-- A record of a topic's snapshot, with what the outside gives to its handling. -/
abbrev Record := Env × String × StringMessage

def Record.event (r : Record) : Env × Event := (r.1, .hydrate r.2.1 r.2.2)

/-! A whole startup, under a sequence of clock readings. -/

/-- The records of all topics, in processing order. A failed snapshot has none. -/
def recordsOf (snapshots : List (String × Except Unit (List StringMessage))) :
    List (String × StringMessage) :=
  snapshots.flatMap fun (topic, result) => (result.toOption.getD []).map (topic, ·)

/-- Every reading of the clock takes the next of a sequence. -/
def Env.clocked (env : Env) : Program.Environment (effects Value) (World Value × (Nat → Int)) :=
  fun o (world, readings) => (({ env with now := readings 0 } : Env).reply world o, (world.after o,
    match o with
    | .readClock => fun n => readings (n + 1)
    | _ => readings))

def readsClock (w : Wire Value) (msg : StringMessage) : Bool :=
  (keyOf .config msg).isSome && (Config.fromStr w msg.value).isSome

def readingsAfter (w : Wire Value) (msg : StringMessage) (readings : Nat → Int) : Nat → Int :=
  if readsClock w msg then fun n => readings (n + 1) else readings

def stamp (w : Wire Value) (env : Env) : (Nat → Int) → List (String × StringMessage) → List Record
  | _, [] => []
  | readings, (topic, msg) :: rest =>
    ({ env with now := readings 0 }, topic, msg) :: stamp w env (readingsAfter w msg readings) rest

def World.hydrateAll [DecidableEq Value] (w : Wire Value) (publishers : List String)
    (world : World Value) (records : List Record) : World Value :=
  world.run w publishers (records.map Record.event)

namespace Startup

/-- The bodies of both loops of a startup in one. -/
def hydrateRecords (w : Wire Value) : List (String × StringMessage) → Handler Value Unit
  | [] => return ()
  | (topic, msg) :: rest => do
    let _ ← hydrateMessage w topic msg
    hydrateRecords w rest

section
variable {σ : Type} (answer : Program.Environment (effects Value) σ) (w : Wire Value)

theorem run_hydrateRecords_append (first second : List (String × StringMessage)) (s : σ) :
    (hydrateRecords w (first ++ second)).run answer s =
      (hydrateRecords w second).run answer ((hydrateRecords w first).run answer s).2 := by
  induction first generalizing s with
  | nil => rfl
  | cons r rest ih =>
      obtain ⟨topic, msg⟩ := r
      simp only [List.cons_append, hydrateRecords, Program.run_bind, ih]

theorem run_populateCaches (topic : String) (messages : List StringMessage) (s : σ) :
    (populateCaches w topic messages).run answer s =
      (hydrateRecords w (messages.map (topic, ·))).run answer s := by
  induction messages generalizing s with
  | nil => rfl
  | cons msg rest ih =>
      simp only [populateCaches, List.map_cons, hydrateRecords, Program.run_bind, ih]

theorem run_getExistingMessagesFromPhoebus
    (snapshots : List (String × Except Unit (List StringMessage))) (s : σ) :
    (getExistingMessagesFromPhoebus w snapshots).run answer s =
      (hydrateRecords w (recordsOf snapshots)).run answer s := by
  induction snapshots generalizing s with
  | nil => rfl
  | cons snapshot rest ih =>
      obtain ⟨topic, result⟩ := snapshot
      simp only [getExistingMessagesFromPhoebus, Program.run_bind,
        run_populateCaches, ih, recordsOf, List.flatMap_cons, run_hydrateRecords_append]

end

section
variable (env : Env) (world : World Value) (readings : Nat → Int) (device : String)
  (state : CachedState) (new : PvMetadata Value)

@[simp] theorem clocked_recordAlarmState :
    (Handler.recordAlarmState device state).run env.clocked (world, readings) =
      ((), world.recordAlarmState device state, readings) := rfl
@[simp] theorem clocked_recordEvidence :
    (Handler.recordEvidence device state).run env.clocked (world, readings) =
      ((), world.recordEvidence device state, readings) := rfl
@[simp] theorem clocked_updateMetadata :
    (Handler.updateMetadata device new).run env.clocked (world, readings) =
      ((), world.updateMetadata device new, readings) := rfl
@[simp] theorem clocked_readClock :
    (Handler.readClock : Handler Value Int).run env.clocked (world, readings) =
      (readings 0, world, fun n => readings (n + 1)) := rfl

end

theorem run_hydrateMessage_clocked (w : Wire Value) (topic : String)
    (msg : StringMessage) (env : Env) (world : World Value) (readings : Nat → Int) :
    ((hydrateMessage w topic msg).run env.clocked (world, readings)).2 =
      (((hydrateMessage w topic msg).run ({ env with now := readings 0 } : Env).answer world).2,
        readingsAfter w msg readings) := by
  unfold hydrateMessage readingsAfter readsClock keyOf
  cases msg.key with
  | none => rfl
  | some keyStr =>
      cases parsed : Key.parse keyStr with
      | error e => simp [parsed, Except.toOption]
      | ok key =>
          cases operation : key.operation with
          | command => simp [parsed, operation, Except.toOption]
          | state =>
              cases severity : extractSeverity w msg.value <;>
                simp [parsed, operation, handleState, severity, Except.toOption]
          | config =>
              cases read : Config.fromStr w msg.value with
              | none => simp [parsed, operation, handleConfig, read, Except.toOption]
              | some config =>
                  cases decoded : config.asCachedState w (readings 0) <;>
                    simp [parsed, operation, handleConfig, read, decoded, Except.toOption]

theorem run_hydrateRecords_clocked [DecidableEq Value] (w : Wire Value) (publishers : List String)
    (env : Env) (records : List (String × StringMessage)) (world : World Value)
    (readings : Nat → Int) :
    ((hydrateRecords w records).run env.clocked (world, readings)).2.1 =
      world.hydrateAll w publishers (stamp w env readings records) := by
  induction records generalizing world readings with
  | nil => rfl
  | cons r rest ih =>
      obtain ⟨topic, msg⟩ := r
      simp only [hydrateRecords, Program.run_bind, run_hydrateMessage_clocked, ih, stamp]
      rfl

end Startup

/-! The record that decides. -/

/-- The valid config of `d` that a record is, if it is one. -/
def Record.config (w : Wire Value) (d : String) (r : Record) :
    Option (Key × Config Value × CachedState) :=
  (validConfig w r.1.now r.2.2).bind fun (key, config, state) =>
    if key.device = d then some (key, config, state) else none

/-- The evidence that a useful state record of `d` gives. -/
def Record.evidence (w : Wire Value) (d : String) (r : Record) : Option CachedState :=
  (Startup.usefulState w r.2.2).bind fun (device, state) => if device = d then some state else none

/-- The last valid config of `d`: its topic, its parts, and the records that follow it. -/
def lastConfig (w : Wire Value) (d : String) :
    List Record → Option (String × Key × Config Value × CachedState × List Record)
  | [] => none
  | r :: rest => (lastConfig w d rest).or
      ((r.config w d).map fun (key, config, state) => (r.2.1, key, config, state, rest))

theorem stateOfSeverity_ne_bypassed (severity : String) :
    Startup.stateOfSeverity severity ≠ .bypassed := by
  unfold Startup.stateOfSeverity
  split_ifs <;> simp

section
variable [DecidableEq Value] (w : Wire Value) (publishers : List String) (d : String)

end

/-- What happens while a snapshot is hydrated: a record of it, or a Controls status. -/
inductive Concurrent where
  | record (topic : String) (msg : StringMessage)
  | status (msg : StringMessage)
  deriving DecidableEq, Repr

def Concurrent.event : Concurrent → Event
  | record topic msg => .hydrate topic msg
  | status msg => .handle (.controls msg)

def recordsRuntime (w : Wire Value) (publishers : List String) (d : String) (world : World Value) :
    Concurrent → Option CachedState
  | .record .. => none
  | .status msg =>
    (controlsIntent w publishers world.metadata msg).bind fun x =>
      if x.device = d ∧ x.suppressed (world.alarmState d) = false then some x.state else none

/-- A record whose hydration leaves an entry `x` of `d` as it is. -/
def harmless (w : Wire Value) (d : String) (now : Int) (x : CachedState)
    (msg : StringMessage) : Bool :=
  match validConfig w now msg with
  | some (key, _, state) => key.device ≠ d || state = x
  | none =>
    match Startup.usefulState w msg with
    | some (device, state) => device ≠ d || x.state = .bypassed || state = x
    | none => true

section
variable [DecidableEq Value] (w : Wire Value) (publishers : List String) (d : String)

def watch (s : World Value × Option CachedState) (e : Env × Concurrent) :
    World Value × Option CachedState :=
  (s.1.step w publishers (e.1, e.2.event), (recordsRuntime w publishers d s.1 e.2).or s.2)

def watchAll (world : World Value) (events : List (Env × Concurrent)) :
    World Value × Option CachedState := events.foldl (watch w publishers d) (world, none)

theorem alarmState_status (world : World Value) (env : Env) (msg : StringMessage) :
    (world.step w publishers (env, .handle (.controls msg))).alarmState d =
      (recordsRuntime w publishers d world (.status msg)).or (world.alarmState d) := by
  rw [(step_handle w publishers env world (.controls msg)).1]
  simp only [Message.intent, recordsRuntime]
  cases controlsIntent w publishers world.metadata msg with
  | none => rfl
  | some x =>
      rw [Option.elim_some, World.alarmState_observe]
      by_cases same : x.device = d
      · subst same
        cases suppressed : x.suppressed (world.alarmState x.device) <;> simp [suppressed]
      · have ne : d ≠ x.device := fun h => same h.symm
        simp [same, ne]

theorem alarmState_record_iff {world : World Value} {env : Env} {topic : String}
    {msg : StringMessage} {x : CachedState} (entry : world.alarmState d = some x) :
    (world.step w publishers (env, .hydrate topic msg)).alarmState d = some x ↔
      harmless w d env.now x msg = true := by
  rw [alarmState_step_hydrate]
  unfold harmless
  rcases validConfig w env.now msg with _ | ⟨key, config, state⟩
  · rcases Startup.usefulState w msg with _ | ⟨device, state⟩
    · simp [entry]
    · by_cases same : d = device
      · by_cases bypassed : x.state = .bypassed <;> simp [same.symm, entry, bypassed]
      · have ne : device ≠ d := fun h => same h.symm
        simp [same, ne, entry]
  · by_cases same : d = key.device
    · simp [same.symm]
    · have ne : key.device ≠ d := fun h => same h.symm
      simp [same, ne, entry]

/-- The entry of `d` is the last state that the Controls task recorded for it. -/
def Kept (s : World Value × Option CachedState) : Prop := ∀ x, s.2 = some x →
    s.1.alarmState d = some x

def Spares (s : World Value × Option CachedState) : Env × Concurrent → Prop
  | (env, .record _ msg) => ∀ x, s.2 = some x → harmless w d env.now x msg = true
  | (_, .status _) => True

theorem kept_watch_iff (s : World Value × Option CachedState) (e : Env × Concurrent)
    (kept : Kept d s) : Kept d (watch w publishers d s e) ↔ Spares w d s e := by
  obtain ⟨env, event⟩ := e
  cases event with
  | record topic msg =>
      refine forall₂_congr fun x recorded => ?_
      exact alarmState_record_iff w publishers d (kept x recorded)
  | status msg =>
      refine ⟨fun _ => trivial, fun _ x recorded => ?_⟩
      have entry := alarmState_status w publishers d s.1 env msg
      simp only [watch, Concurrent.event] at recorded ⊢
      rw [entry]
      cases now : recordsRuntime w publishers d s.1 (.status msg) with
      | none =>
          rw [now] at recorded
          exact kept x recorded
      | some y =>
          rw [now] at recorded
          exact recorded

/-- The entry of `d` stays the last state recorded at runtime throughout a hydration exactly if
every record that is hydrated after such a state is harmless to it. -/
theorem runtime_entry_kept_iff (world : World Value) (events : List (Env × Concurrent)) :
    (∀ before, before <+: events → ∀ x, (watchAll w publishers d world before).2 = some x →
        (watchAll w publishers d world before).1.alarmState d = some x) ↔
      ∀ before env topic msg, before ++ [(env, .record topic msg)] <+: events → ∀ x,
        (watchAll w publishers d world before).2 = some x → harmless w d env.now x msg = true := by
  have initial : Kept d (world, none) := fun x recorded => by cases recorded
  have spared := Labelled.prefix_invariant_iff initial (kept_watch_iff w publishers d) events
  refine spared.trans
    ⟨fun spares before env topic msg => spares before (env, .record topic msg), ?_⟩
  intro safe before e
  obtain ⟨env, event⟩ := e
  cases event with
  | record topic msg => exact safe before env topic msg
  | status msg => exact fun _ => trivial

end

open PlainWire in
/-- An older config that is hydrated after a bypass at runtime undoes it. -/
theorem runtime_entry_overwritten : ¬ ∀ (publishers : List String) (d : String)
    (world : World FlatJson.Scalar) (events : List (Env × Concurrent))
    (before : List (Env × Concurrent)),
    before <+: events → ∀ x, (watchAll wire publishers d world before).2 = some x →
      (watchAll wire publishers d world before).1.alarmState d = some x := by
  intro claim
  let events : List (Env × Concurrent) :=
    [(env, .record "plant" (configMessage "pump" "true")),
      (env, .status (statusMessage "pump" "BYPASSED")),
      (env, .record "plant" (configMessage "pump" "true"))]
  have kept := claim publishers "pump" World.empty events events (List.prefix_refl _) .bypassed
    (by decide +kernel)
  revert kept
  decide +kernel

end AlarmSync
