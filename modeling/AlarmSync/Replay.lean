import AlarmSync.Register

/-! A batch of one stream that is handled twice, as after a reconnect that rewinds the stream:
the register it leaves is the one that it left the first time. -/
namespace AlarmSync

variable {Value : Type}

namespace Register

def Mirrored (x : CachedState) : Prop := x.state = .acknowledged ∨ x.Enablement

def bypassed (r : Option CachedState) : Bool := r.any (·.state == .bypassed)

theorem next_enablement {i : Intent} (enablement : i.state.Enablement) (r : Option CachedState) :
    next r i = some i.state := by
  by_cases same : r = some i.state
  · simp [next, same]
  · have notAck : i.state.state ≠ .acknowledged := by
      rcases enablement with h | h <;> simp [h]
    simp [next, ignores, same, notAck]

theorem bypassed_next {i : Intent} (ack : i.state.state = .acknowledged) (r : Option CachedState) :
    bypassed (next r i) = bypassed r := by
  cases was : bypassed r with
  | true =>
      have ignored : ignores r i.state = true := by
        simp only [bypassed] at was
        simp [ignores, was, ack]
      simp [next, ignored, was]
  | false =>
      unfold next
      split
      · exact was
      · simp [bypassed, ack]

theorem next_of_not_bypassed {i : Intent} {r : Option CachedState} (free : bypassed r = false) :
    next r i = some i.state := by
  by_cases same : r = some i.state
  · simp [next, same]
  · simp only [bypassed] at free
    simp [next, ignores, same, free]

theorem next_of_bypassed {i : Intent} (ack : i.state.state = .acknowledged)
    {r : Option CachedState} (held : bypassed r = true) : next r i = r := by
  simp only [bypassed] at held
  simp [next, ignores, held, ack]

theorem bypassed_foldl {intents : List Intent} (mirrored : ∀ i ∈ intents, Mirrored i.state)
    {r : Option CachedState} (r' : Option CachedState)
    (after : bypassed (intents.foldl next r) = true) :
    bypassed r = true ∨ bypassed (intents.foldl next r') = true := by
  induction intents generalizing r r' with
  | nil => exact .inl after
  | cons i rest ih =>
      simp only [List.foldl_cons] at after ⊢
      rcases mirrored i List.mem_cons_self with ack | enablement
      · have later := ih (fun j member => mirrored j (List.mem_cons_of_mem i member))
          (next r' i) after
        rwa [bypassed_next ack] at later
      · right
        rwa [next_enablement enablement r, ← next_enablement enablement r'] at after

/-- The same intents again leave the register as they left it. -/
theorem foldl_next_settled {intents : List Intent} (mirrored : ∀ i ∈ intents, Mirrored i.state)
    (r : Option CachedState) :
    intents.foldl next (intents.foldl next r) = intents.foldl next r := by
  induction intents using List.reverseRecOn with
  | nil => rfl
  | append_singleton earlier i ih =>
      have before : ∀ j ∈ earlier, Mirrored j.state := fun j member =>
        mirrored j (List.mem_append_left _ member)
      have again := ih before
      simp only [List.foldl_append, List.foldl_cons, List.foldl_nil]
      rcases mirrored i (List.mem_append_right _ List.mem_cons_self) with ack | enablement
      · cases held : bypassed (earlier.foldl next r) with
        | true => rw [next_of_bypassed ack held, again, next_of_bypassed ack held]
        | false =>
            -- the intents made no bypass from `r`, so they make none from the acknowledgement
            rw [next_of_not_bypassed held]
            apply next_of_not_bypassed
            by_contra after
            rw [Bool.not_eq_false] at after
            rcases bypassed_foldl before r after with acked | made
            · simp [bypassed, ack] at acked
            · rw [held] at made
              cases made
      · rw [next_enablement enablement, next_enablement enablement]

theorem run_fst (sends : Origin → Bool) (r : Option CachedState) (intents : List Intent) :
    (run sends r intents).1 = intents.foldl next r := by
  induction intents generalizing r with
  | nil => rfl
  | cons i rest ih => exact ih (next r i)

end Register

/-- One of the streams that the synchronizer reads. -/
inductive Stream where
  | controls
  | phoebus (topic : String)
  deriving DecidableEq, Repr

def Stream.message : Stream → StringMessage → Message
  | controls => .controls
  | phoebus topic => .phoebus topic

/-- The time until which a config record snoozes its device. -/
def snoozeTime (w : Wire Value) (msg : StringMessage) : Option DateTime := do
  let config ← Config.fromStr w msg.value
  match config.normalizeEnablement w with
  | .ok (.snoozedUntil dt) => some dt
  | _ => none

theorem observedFor_mirrored {w : Wire Value} {publishers : List String} {d : String} {now : Int}
    {metadata : String → Option (PvMetadata Value)} {m : Message} {i : Register.Intent}
    (seen : m.observedFor d w publishers now metadata = some i) : Register.Mirrored i.state := by
  simp only [Message.observedFor, Option.bind_eq_some_iff, Option.ite_none_right_eq_some,
    Option.some.injEq] at seen
  obtain ⟨⟨device, j⟩, observed, _, rfl⟩ := seen
  cases m with
  | controls msg =>
      simp only [Message.observed, Option.bind_eq_bind, Option.bind_eq_some_iff,
        Option.guard_eq_some', Option.pure_def, Option.some.injEq, Prod.mk.injEq] at observed
      obtain ⟨alarm, _, _, _, _, _, _, mirrored, _, rfl⟩ := observed
      exact mirrored
  | phoebus topic msg =>
      simp only [Message.observed] at observed
      rcases valid : validConfig w now msg with _ | ⟨key, config, state⟩
      · simp only [valid, Option.map_eq_some_iff, Prod.mk.injEq] at observed
        obtain ⟨_, _, _, rfl⟩ := observed
        exact .inl rfl
      · simp only [valid, Option.some.injEq, Prod.mk.injEq] at observed
        obtain ⟨_, rfl⟩ := observed
        exact .inr (validConfig_enablement valid)

theorem validConfig_awake {w : Wire Value} {now now' : Int} {msg : StringMessage}
    (awake : ∀ dt, snoozeTime w msg = some dt →
      (dt.timestampMillis > now ↔ dt.timestampMillis > now')) :
    validConfig w now msg = validConfig w now' msg := by
  unfold validConfig
  cases keyOf .config msg with
  | none => rfl
  | some key =>
      cases read : Config.fromStr w msg.value with
      | none => rfl
      | some config =>
          have decoded : config.asCachedState w now = config.asCachedState w now' := by
            unfold Config.asCachedState
            cases means : config.normalizeEnablement w with
            | error e => rfl
            | ok enablement =>
                cases enablement with
                | active => rfl
                | bypassed => rfl
                | snoozedUntil dt =>
                    have side := awake dt (by simp [snoozeTime, read, means])
                    simp only [Except.map, NormalizedEnablement.asCachedState,
                      CachedState.ofDateTime, side]
          simp [decoded]

section
variable [DecidableEq Value] (w : Wire Value) (publishers : List String) (d : String)

/-- What the messages of a stream are observed as, under fixed metadata. -/
def streamIntents (stream : Stream) (metadata : String → Option (PvMetadata Value))
    (batch : List (Env × StringMessage)) : List Register.Intent :=
  batch.flatMap fun (env, msg) =>
    ((stream.message msg).observedFor d w publishers env.now metadata).toList

theorem streamIntents_step (stream : Stream) (world : World Value) (env : Env) (msg : StringMessage)
    (batch : List (Env × StringMessage)) :
    streamIntents w publishers d stream
        (world.step w publishers (env, .handle (stream.message msg))).metadata batch =
      streamIntents w publishers d stream world.metadata batch := by
  cases stream with
  | controls =>
      have same : (world.step w publishers (env, .handle (.controls msg))).metadata =
          world.metadata := by
        funext d
        exact metadata_step_handle w publishers env world (.controls msg) d
      simp only [Stream.message, same]
  | phoebus topic => rfl

theorem intentsFor_stream (stream : Stream) (world : World Value)
    (batch : List (Env × StringMessage)) :
    intentsFor w publishers d world (batch.map fun (env, msg) => (env, stream.message msg)) =
      streamIntents w publishers d stream world.metadata batch := by
  induction batch generalizing world with
  | nil => rfl
  | cons e rest ih =>
      obtain ⟨env, msg⟩ := e
      rw [List.map_cons, intentsFor, ih, streamIntents_step]
      simp only [streamIntents, List.flatMap_cons]

theorem streamIntents_handleAll (stream : Stream) (world : World Value)
    (batch later : List (Env × StringMessage)) :
    streamIntents w publishers d stream (world.handleAll w publishers
        (batch.map fun (env, msg) => (env, stream.message msg))).metadata later =
      streamIntents w publishers d stream world.metadata later := by
  induction batch generalizing world with
  | nil => rfl
  | cons e rest ih =>
      obtain ⟨env, msg⟩ := e
      have one := streamIntents_step w publishers d stream world env msg later
      exact (ih (world.step w publishers (env, .handle (stream.message msg)))).trans one

/-- Every message of the batch with what the outside gives to its first and to its second
handling. The second pass changes no entry, whatever the caches were. -/
theorem replay_settles (stream : Stream) (batch : List (StringMessage × Env × Env))
    (world : World Value) (awake : ∀ e ∈ batch, ∀ dt, snoozeTime w e.1 = some dt →
      (dt.timestampMillis > e.2.1.now ↔ dt.timestampMillis > e.2.2.now)) :
    let once := world.handleAll w publishers
      (batch.map fun (msg, env, _) => (env, stream.message msg))
    let twice := once.handleAll w publishers
      (batch.map fun (msg, _, env) => (env, stream.message msg))
    twice.alarmState = once.alarmState := by
  intro once twice
  funext d
  have sameIntents : streamIntents w publishers d stream world.metadata
      (batch.map fun (msg, _, env) => (env, msg)) =
      streamIntents w publishers d stream world.metadata
      (batch.map fun (msg, env, _) => (env, msg)) := by
    simp only [streamIntents, List.flatMap_map]
    refine List.flatMap_congr ?_
    rintro ⟨msg, env, env'⟩ member
    have decodes := validConfig_awake (awake _ member)
    cases stream with
    | controls => rfl
    | phoebus topic =>
        simp only [Stream.message, Message.observedFor, Message.observed, decodes]
  have mirrored : ∀ i ∈ streamIntents w publishers d stream world.metadata
      (batch.map fun (msg, env, _) => (env, msg)), Register.Mirrored i.state := by
    intro i member
    simp only [streamIntents, List.mem_flatMap, Option.mem_toList] at member
    obtain ⟨_, _, seen⟩ := member
    exact observedFor_mirrored seen
  have first : batch.map (fun (msg, env, _) => (env, stream.message msg)) =
      (batch.map fun (msg, env, _) => (env, msg)).map fun (env, msg) =>
      (env, stream.message msg) := by
    simp [Function.comp_def]
  have second : batch.map (fun (msg, _, env) => (env, stream.message msg)) =
      (batch.map fun (msg, _, env) => (env, msg)).map fun (env, msg) =>
      (env, stream.message msg) := by
    simp [Function.comp_def]
  have settledOnce := (run_refines_register w publishers d world
    (batch.map fun (msg, env, _) => (env, stream.message msg))).1
  have settledTwice := (run_refines_register w publishers d once
    (batch.map fun (msg, _, env) => (env, stream.message msg))).1
  rw [Register.run_fst, first, intentsFor_stream] at settledOnce
  rw [Register.run_fst, second, intentsFor_stream] at settledTwice
  simp only [once, first] at settledTwice
  rw [streamIntents_handleAll, sameIntents, settledOnce] at settledTwice
  simp only [twice, once, first, second]
  rw [settledTwice, settledOnce]
  exact Register.foldl_next_settled mirrored _

end

section
open PlainWire

def pumpBatch : List (StringMessage × Env × Env) :=
  [configMessage "pump" "false", commandMessage "pump", configMessage "pump" "true",
    commandMessage "pump"].map (·, env, { env with now := 1000 })

theorem pumpBatch_settles :
    let once := (started "true").handleAll wire publishers
      (pumpBatch.map fun (msg, env, _) => (env, .phoebus "plant" msg))
    let twice := once.handleAll wire publishers
      (pumpBatch.map fun (msg, _, env) => (env, .phoebus "plant" msg))
    twice.alarmState = once.alarmState := by
  have unsnoozed : ∀ e ∈ pumpBatch, snoozeTime wire e.1 = none := by decide +kernel
  refine replay_settles wire publishers (.phoebus "plant") pumpBatch (started "true") ?_
  intro e member dt snoozed
  rw [unsnoozed e member] at snoozed
  cases snoozed

end

end AlarmSync
