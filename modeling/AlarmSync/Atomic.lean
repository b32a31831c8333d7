import AlarmSync.Contract
import AlarmSync.ReadBack

/-! The process as tasks whose atomic operations interleave, and what a handler has to be
allowed to do: every obligation of a contract, in the order in which it comes up. -/
namespace AlarmSync
open EffectProgram

variable {Value ι κ : Type}

/-- The Controls task, and the monitors of the Phoebus topics. -/
inductive Worker (ι : Type) where
  | controls
  | monitor (i : ι)
  deriving DecidableEq, Repr

/-- A message of the stream that a task reads. -/
def Worker.receives (topics : ι → String) : Worker ι → StringMessage → Message
  | controls, msg => .controls msg
  | monitor i, msg => .phoebus (topics i) msg

def synchronizer [DecidableEq Value] (w : Wire Value) (publishers : List String)
    (topics : ι → String) :
    Machine (effects Value) (Worker ι) StringMessage (World Value) (Option SyncOutcome) where
  handler worker msg := (worker.receives topics msg).handler w publishers
  effect := World.Effect

abbrev Tasks (Value ι : Type) := Pool (effects Value) (Worker ι) (World Value) (Option SyncOutcome)

abbrev Act (Value ι : Type) := Move (effects Value) (Worker ι) StringMessage

def waiting (world : World Value) : Tasks Value ι := ⟨world, fun _ => .done none⟩

def attempt : Option Outbound → Handler Value Unit
  | none => return ()
  | some out => .perform (.send out) fun _ => return ()

/-- What the handlers do with a state that is not suppressed: send, if there is something to
send, and record. -/
def convey (out : Option Outbound) (device : String) (state : CachedState) :
    Handler Value Unit := do
  attempt out
  Handler.recordAlarmState device state

section
variable {c : Contract (effects Value) κ} {final : κ → Prop} {k : κ}

namespace Controls

theorem meets_syncEpicsMessageToPhoebus {w : Wire Value} {publishers : List String} {alarm : Status}
    {operation : Operation} {pvMetadata : PvMetadata Value}
    (sent : (attempt (controlsOutbound w publishers alarm operation pvMetadata)).Meets c
      (fun _ => final) k) :
    (syncEpicsMessageToPhoebus w publishers alarm operation pvMetadata).Meets c
      (fun _ => final) k := by
  unfold controlsOutbound at sent
  unfold syncEpicsMessageToPhoebus
  cases topic : getTopicForOperation operation pvMetadata with
  | none => simpa [topic, attempt] using sent
  | some topic' =>
      cases message : controlsToPhoebus w alarm operation pvMetadata with
      | none => simpa [topic, message, attempt] using sent
      | some message' =>
          by_cases member : topic' ∈ publishers
          · simp only [topic, message, member, Option.bind_eq_bind, Option.bind_some, if_true,
              attempt] at sent
            simp only [member, if_true, Program.meets_bind]
            exact sent
          · simpa [topic, message, member, attempt] using sent

theorem meets_processRuntimeMessage {w : Wire Value} {publishers : List String}
    {msg : StringMessage} (skipped : final k)
    (handled : ∀ alarm, w.statusFromStr msg.value = some alarm → alarm.source = .epics →
      (Handler.readAlarmState alarm.device).Meets c (fun observed =>
        (Handler.lookupMetadata alarm.device).Meets c fun known k => final k ∧
          ∀ pvMetadata operation, known = some pvMetadata →
            stateToOperation alarm.state = some operation →
            (ObservedStatePolicy.mk observed).suppressesIncoming (.ofStatus alarm) = false →
            (convey (controlsOutbound w publishers alarm operation pvMetadata) alarm.device
              (.ofStatus alarm)).Meets c (fun _ => final) k) k) :
    (processRuntimeMessage w publishers msg).Meets c (fun _ => final) k := by
  unfold processRuntimeMessage
  cases read : w.statusFromStr msg.value with
  | none => exact skipped
  | some alarm =>
      by_cases source : alarm.source = .epics
      · simp only [source, ne_eq, not_true_eq_false, if_false, readObservedStatePolicy,
          processControlsMessage, Program.pure_eq, Program.meets_bind, Program.meets_done]
        refine (handled alarm read source).weaken fun observed k reads => ?_
        refine reads.weaken fun known k obligations => ?_
        obtain ⟨skipped, mirrored⟩ := obligations
        have same : (CachedState.ofStatus alarm).state = alarm.state := rfl
        simp only [decideControlsSync, same]
        cases known with
        | none => exact skipped
        | some pvMetadata =>
            cases operation : stateToOperation alarm.state with
            | none => exact skipped
            | some operation' =>
                cases policy : (ObservedStatePolicy.mk observed).suppressesIncoming
                  (.ofStatus alarm) with
                | true => exact skipped
                | false =>
                    have conveyed := mirrored pvMetadata operation' rfl operation policy
                    simp only [convey, Program.meets_bind] at conveyed
                    simp only [Bool.false_eq_true, if_false, Program.meets_bind, Program.meets_done]
                    exact meets_syncEpicsMessageToPhoebus conveyed
      · simpa [source] using skipped

end Controls

namespace Monitor

theorem meets_processCommand {w : Wire Value} {key : Key} {msgText : String}
    (handled : (Handler.readAlarmState key.device).Meets c (fun observed k => final k ∧
      ∀ command, Command.fromStr w msgText = some command → command.command = ackCommand →
        (ObservedStatePolicy.mk observed).suppressesIncoming ⟨.acknowledged, none⟩ = false →
        (convey (some (.call key.device (.acknowledge [epicsName key.device] command.user)))
          key.device ⟨.acknowledged, none⟩).Meets c (fun _ => final) k) k) :
    (processCommand w key msgText).Meets c (fun _ => final) k := by
  simp only [processCommand, readObservedStatePolicy, Program.pure_eq, Program.meets_bind,
    Program.meets_done]
  refine handled.weaken fun observed k obligations => ?_
  obtain ⟨skipped, mirrored⟩ := obligations
  unfold decidePhoebusCommand
  cases read : Command.fromStr w msgText with
  | none => exact skipped
  | some command =>
      by_cases ack : command.command = ackCommand
      · cases policy : (ObservedStatePolicy.mk observed).suppressesIncoming
          ⟨.acknowledged, none⟩ with
        | true => simpa [ack, policy] using skipped
        | false =>
            have conveyed := mirrored command read ack policy
            simp only [ack, policy, ne_eq, not_true_eq_false, if_false, Bool.false_eq_true]
            exact conveyed
      · simpa [ack] using skipped

theorem meets_actOnConfig {key : Key} {user : String} {state : CachedState}
    {Q : SyncOutcome → κ → Prop}
    (attempted : ∀ result k, final k → Q (.attempted .phoebusToControls result) k)
    (conveyed : (convey (some (.call key.device (enablementRequest key.device user state)))
      key.device state).Meets c (fun _ => final) k) :
    (actOnConfig key user (enablementDecision state)).Meets c Q k := by
  have sendRecord : ∀ request,
      (convey (some (.call key.device request)) key.device state).Meets c (fun _ => final) k →
      (do
        let transport ← Handler.call key.device request
        Handler.recordAlarmState key.device state
        return (executeCommand transport).intoSyncOutcome .phoebusToControls :
          Handler Value SyncOutcome).Meets c Q k := by
    rintro request ⟨okSend, sends⟩
    refine ⟨okSend, ?_⟩
    intro transport given
    obtain ⟨okRecord, records⟩ := sends transport given
    refine ⟨okRecord, ?_⟩
    intro answer given
    obtain ⟨result, same⟩ := executeCommand_attempted transport .phoebusToControls
    rw [same]
    exact attempted result _ (records answer given)
  unfold enablementRequest at conveyed
  unfold enablementDecision
  by_cases bypassed : state.state = .bypassed
  · cases wake : state.wake with
    | none =>
        simp only [bypassed, wake, if_true] at conveyed
        simp only [bypassed, if_true, Option.isNone_none]
        exact sendRecord _ conveyed
    | some t =>
        simp only [bypassed, wake, if_true] at conveyed
        simp only [bypassed, if_true, Option.isNone_some, Bool.false_eq_true, if_false, actOnConfig,
          unwrapWake, wake, Option.getD_some]
        exact sendRecord _ conveyed
  · simp only [bypassed, if_false] at conveyed
    simp only [bypassed, if_false]
    exact sendRecord _ conveyed

variable [DecidableEq Value]

/-- The obligations of handling a config, once it is known what it decodes to. -/
structure ConfigObligations (c : Contract (effects Value) κ) (final : κ → Prop) (w : Wire Value)
    (topic : String) (key : Key) (config : Config Value) (known : Option (PvMetadata Value))
    (observed : Option CachedState) (now : Int) (k : κ) : Prop where
  malformed : ∀ e, config.asCachedState w now = .error e → final k
  duplicate : ∀ state, config.asCachedState w now = .ok state →
    (ObservedStatePolicy.mk observed).suppressesIncoming state = true →
    config.phoebusSpecific =
    (known.getD (PvMetadata.fromUnmapped key topic)).phoebusConfigMetadata → final k
  unchanged : ∀ state, config.asCachedState w now = .ok state →
    (ObservedStatePolicy.mk observed).suppressesIncoming state = true →
    (Handler.updateMetadata key.device (configMetadata topic known key config)).Meets c
      (fun _ => final) k
  mirrored : ∀ state, config.asCachedState w now = .ok state →
    (ObservedStatePolicy.mk observed).suppressesIncoming state = false →
    (convey (some (.call key.device (enablementRequest key.device config.user state)))
      key.device state).Meets c
      (fun _ => (Handler.updateMetadata key.device (configMetadata topic known key config)).Meets c
        fun _ => final) k

theorem meets_processConfig {w : Wire Value} {topic : String} {key : Key} {msgText : String}
    (skipped : Config.fromStr w msgText = none → final k)
    (handled : ∀ config, Config.fromStr w msgText = some config →
      (Handler.lookupMetadata key.device).Meets c (fun known =>
        (Handler.readAlarmState key.device).Meets c fun observed =>
          Handler.readClock.Meets c fun now =>
            ConfigObligations c final w topic key config known observed now) k) :
    (processConfig w topic key msgText).Meets c (fun _ => final) k := by
  unfold processConfig
  cases read : Config.fromStr w msgText with
  | none => exact skipped read
  | some config =>
      simp only [getPvMetadata, readObservedStatePolicy, Program.pure_eq, Program.meets_bind,
        Program.meets_done]
      refine (handled config read).weaken fun known k reads => ?_
      refine reads.weaken fun observed k clock => ?_
      refine clock.weaken fun now k obligations => ?_
      cases decoded : config.asCachedState w now with
      | error e =>
          rw [decidePhoebusConfig_error decoded]
          exact obligations.malformed e decoded
      | ok state =>
          cases policy : (ObservedStatePolicy.mk observed).suppressesIncoming state with
          | true =>
              rw [decidePhoebusConfig_suppressed decoded policy]
              by_cases same : config.phoebusSpecific =
                  (known.getD (PvMetadata.fromUnmapped key topic)).phoebusConfigMetadata
              · simpa [same, actOnConfig] using obligations.duplicate state decoded policy same
              · have updated := obligations.unchanged state decoded policy
                simpa [same, actOnConfig, configMetadata] using updated
          | false =>
              rw [decidePhoebusConfig_mirrored decoded policy]
              simp only [Program.meets_bind]
              refine meets_actOnConfig ?_ (obligations.mirrored state decoded policy)
              intro result k updated
              simpa [configMetadata] using updated

theorem meets_processRuntimeMessage {w : Wire Value} {topic : String} {msg : StringMessage}
    (skipped : (∀ key config, keyOf .config msg = some key →
      Config.fromStr w msg.value ≠ some config) → final k)
    (commanded : ∀ key, keyOf .command msg = some key →
      (Handler.readAlarmState key.device).Meets c (fun observed k => final k ∧
        ∀ command, acknowledgeCommand w msg = some (key, command) →
          (ObservedStatePolicy.mk observed).suppressesIncoming ⟨.acknowledged, none⟩ = false →
          (convey (some (.call key.device (.acknowledge [epicsName key.device] command.user)))
            key.device ⟨.acknowledged, none⟩).Meets c (fun _ => final) k) k)
    (configured : ∀ key config, keyOf .config msg = some key →
      Config.fromStr w msg.value = some config →
      (Handler.lookupMetadata key.device).Meets c (fun known =>
        (Handler.readAlarmState key.device).Meets c fun observed =>
          Handler.readClock.Meets c fun now =>
            ConfigObligations c final w topic key config known observed now) k) :
    (processRuntimeMessage w topic msg).Meets c (fun _ => final) k := by
  have noConfig : (∀ keyStr key, msg.key = some keyStr → Key.parse keyStr = .ok key →
      key.operation ≠ .config) → final k := by
    intro other
    refine skipped fun key config keyed _ => ?_
    obtain ⟨keyStr, given, parsed, operation⟩ := keyOf_eq_some.mp keyed
    exact other keyStr key given parsed operation
  unfold processRuntimeMessage
  cases given : msg.key with
  | none => exact noConfig fun keyStr _ some' => by simp [given] at some'
  | some keyStr =>
      cases parsed : Key.parse keyStr with
      | error e =>
          have ended := noConfig fun keyStr' key same parsed' => by simp_all
          simpa [parsed] using ended
      | ok key =>
          cases operation : key.operation with
          | state =>
              have ended := noConfig fun keyStr' key' same parsed' => by simp_all
              simpa [parsed, operation] using ended
          | command =>
              have keyed : keyOf .command msg = some key :=
                keyOf_eq_some.mpr ⟨_, given, parsed, operation⟩
              simp only [parsed, operation, Program.pure_eq, Program.meets_bind, Program.meets_done]
              apply meets_processCommand
              refine (commanded key keyed).weaken fun observed k obligations => ⟨obligations.1, ?_⟩
              intro command read ack
              exact obligations.2 command (acknowledgeCommand_eq_some.mpr ⟨keyed, read, ack⟩)
          | config =>
              have keyed : keyOf .config msg = some key :=
                keyOf_eq_some.mpr ⟨_, given, parsed, operation⟩
              simp only [parsed, operation, Program.pure_eq, Program.meets_bind, Program.meets_done]
              refine meets_processConfig ?_ fun config => configured key config keyed
              intro unread
              refine skipped fun key' config keyed' read => ?_
              rw [unread] at read
              cases read

end Monitor

end

/-! In every state that the process can be in, the metadata are well formed. -/

/-- Lookups are answered with well-formed metadata, and only such are written. -/
def wellFormedMetadata : Contract (effects Value) Unit where
  may _
    | .lookupMetadata device, answer => ∀ pvMetadata, answer = some pvMetadata →
        Addressable device ∧ pvMetadata.phoebusConfigMetadata.Unnamed
    | _, _ => True
  ok _
    | .updateMetadata device new => Addressable device ∧ new.phoebusConfigMetadata.Unnamed
    | _ => True
  step _ _ _ := ()

theorem convey_wellFormed {final : Unit → Prop} {out : Option Outbound} {device : String}
    {state : CachedState} (ends : final ()) :
    (convey out device state : Handler Value Unit).Meets wellFormedMetadata
      (fun _ => final) () := by
  cases out with
  | none => exact ⟨trivial, fun _ _ => ends⟩
  | some out => exact ⟨trivial, fun _ _ => ⟨trivial, fun _ _ => ends⟩⟩

theorem World.WellFormed.effect {world world' : World Value}
    (wellFormed : world.WellFormed) {o : Op Value} {answer : o.Answer}
    (effect : World.Effect o world answer world') (ok : wellFormedMetadata.ok () o) :
    wellFormedMetadata.may () o answer ∧ world'.WellFormed := by
  obtain ⟨answered, rfl⟩ := effect
  constructor
  · cases o with
    | lookupMetadata device =>
        intro pvMetadata known
        exact wellFormed device pvMetadata (answered.symm.trans known)
    | _ => trivial
  · intro d pvMetadata known
    rw [metadata_after] at known
    cases o with
    | updateMetadata device new =>
        by_cases same : d = device
        · simp only [same, if_true, Option.some.injEq] at known
          exact same ▸ known ▸ ok
        · exact wellFormed d pvMetadata (by simpa [same] using known)
    | _ => exact wellFormed d pvMetadata known

section
variable [DecidableEq Value] {w : Wire Value} {publishers : List String}

theorem handler_wellFormed (m : Message) :
    (m.handler w publishers).Meets wellFormedMetadata (fun _ _ => True) () := by
  cases m with
  | controls msg =>
      apply Controls.meets_processRuntimeMessage trivial
      intro alarm _ _
      refine ⟨trivial, fun observed _ => ⟨trivial, fun known _ => ⟨trivial, ?_⟩⟩⟩
      intro pvMetadata operation _ _ _
      exact convey_wellFormed trivial
  | phoebus topic msg =>
      apply Monitor.meets_processRuntimeMessage fun _ => trivial
      · intro key _
        refine ⟨trivial, fun observed _ => ⟨trivial, ?_⟩⟩
        intro command _ _
        exact convey_wellFormed trivial
      · intro key config keyed read
        obtain ⟨keyStr, _, parsed, _⟩ := keyOf_eq_some.mp keyed
        have updated : ∀ known, (Handler.updateMetadata key.device
            (configMetadata topic known key config)).Meets wellFormedMetadata
            (fun _ _ => True) () :=
          fun known => ⟨⟨Key.parse_addressable parsed, Config.fromStr_unnamed read⟩,
            fun _ _ => trivial⟩
        refine ⟨trivial, fun known _ => ⟨trivial, fun observed _ => ⟨trivial, fun now _ => ?_⟩⟩⟩
        exact
          { malformed := fun _ _ => trivial
            duplicate := fun _ _ _ _ => trivial
            unchanged := fun _ _ _ => updated known
            mirrored := fun _ _ _ => convey_wellFormed (updated known) }

/-- What a task leaves to others: only monitors write metadata, only the Controls task publishes,
and evidence is for startup. -/
def Worker.Foreign : Worker ι → Op Value → Prop
  | controls, .updateMetadata .. => True
  | monitor _, .send (.publish ..) => True
  | _, .recordEvidence .. => True
  | _, _ => False

theorem handler_role (topics : ι → String) (worker : Worker ι) (msg : StringMessage) :
    ((worker.receives topics msg).handler w publishers).Avoids worker.Foreign := by
  cases worker with
  | controls =>
      apply Controls.meets_processRuntimeMessage trivial
      intro alarm _ _
      refine ⟨id, fun observed _ => ⟨id, fun known _ => ⟨trivial, ?_⟩⟩⟩
      intro pvMetadata operation _ _ _
      cases controlsOutbound w publishers alarm operation pvMetadata with
      | none => exact ⟨id, fun _ _ => trivial⟩
      | some out => exact ⟨id, fun _ _ => ⟨id, fun _ _ => trivial⟩⟩
  | monitor i =>
      apply Monitor.meets_processRuntimeMessage fun _ => trivial
      · intro key _
        refine ⟨id, fun observed _ => ⟨trivial, ?_⟩⟩
        intro command _ _
        exact ⟨id, fun _ _ => ⟨id, fun _ _ => trivial⟩⟩
      · intro key config _ _
        refine ⟨id, fun known _ => ⟨id, fun observed _ => ⟨id, fun now _ => ?_⟩⟩⟩
        exact
          { malformed := fun _ _ => trivial
            duplicate := fun _ _ _ _ => trivial
            unchanged := fun _ _ _ => ⟨id, fun _ _ => trivial⟩
            mirrored := fun _ _ _ => ⟨id, fun _ _ => ⟨id, fun _ _ => ⟨id, fun _ _ => trivial⟩⟩⟩ }

variable {topics : ι → String} [DecidableEq ι]

def Idle (P : Tasks Value ι) : Prop := ∀ worker, (P.task worker).busy = false

/-- A state that the process can come to: complete handling, then any interleaving of its tasks. -/
def Reached (w : Wire Value) (publishers : List String) (topics : ι → String)
    (P : Tasks Value ι) : Prop :=
  ∃ world moves, world.Reachable w publishers ∧
    (synchronizer w publishers topics).Trace (fun _ _ => True) (waiting world) moves P

theorem Reached.of_reachable {world : World Value} (reachable : world.Reachable w publishers) :
    Reached w publishers topics (waiting world) := ⟨world, [], reachable, .nil _⟩

theorem Reached.trace {P Q : Tasks Value ι} {C : Tasks Value ι → Act Value ι → Prop}
    {moves : List (Act Value ι)} (reached : Reached w publishers topics P)
    (trace : (synchronizer w publishers topics).Trace C P moves Q) :
    Reached w publishers topics Q := by
  obtain ⟨world, before, reachable, run⟩ := reached
  exact ⟨world, _, reachable, run.append (trace.weaken fun _ _ _ => trivial)⟩

theorem Reached.step {P Q : Tasks Value ι} {move : Act Value ι}
    (reached : Reached w publishers topics P)
    (step : (synchronizer w publishers topics).Step P move Q) : Reached w publishers topics Q :=
  reached.trace (C := fun _ _ => True) (.single trivial step)

/-- A message handled with nobody between is one of the interleavings. -/
theorem handled_uninterrupted (env : Env) {P : Tasks Value ι} {worker : Worker ι}
    (msg : StringMessage) (idle : (P.task worker).busy = false) : ∃ moves Q,
      (synchronizer w publishers topics).Trace (fun _ _ => True) P moves Q ∧
      Q.shared = P.shared.step w publishers (env, .handle (worker.receives topics msg)) ∧
      (Q.task worker).busy = false ∧ ∀ other, other ≠ worker → Q.task other = P.task other := by
  have take := Machine.trace_hand (K := synchronizer w publishers topics) (C := fun _ _ => True)
    msg trivial idle
  obtain ⟨n, complete⟩ := Program.advance_run env.answer
    ((synchronizer w publishers topics).handler worker msg) P.shared
  obtain ⟨moves, handle⟩ := Machine.trace_advance (K := synchronizer w publishers topics)
    (C := fun _ _ => True) (P := P.hand (synchronizer w publishers topics) worker msg)
    env.answer_effect worker n fun _ _ _ => trivial
  have ready : (P.hand (synchronizer w publishers topics) worker msg).task worker =
      (synchronizer w publishers topics).handler worker msg := Function.update_self ..
  have shared : (P.hand (synchronizer w publishers topics) worker msg).shared = P.shared := rfl
  refine ⟨_, _, take.append handle, ?_, ?_, ?_⟩
  · simp only [Pool.advance, ready, shared, complete]
    rfl
  · simp only [Pool.advance, ready, shared, complete, Function.update_self, Program.busy]
  · intro other different
    simp only [Pool.advance, Function.update_of_ne different, Pool.hand]

theorem Reached.wellFormed {P : Tasks Value ι} (reached : Reached w publishers topics P) :
    P.shared.WellFormed := by
  obtain ⟨world, moves, reachable, run⟩ := reached
  let A : Worker ι → World Value → Handler Value (Option SyncOutcome) → Prop := fun _ world p =>
    world.WellFormed ∧ p.Meets wellFormedMetadata (fun _ _ => True) ()
  have all : ∀ worker, A worker P.shared (P.task worker) := by
    refine run.assertion (A := A) ?_ ?_ ?_ ?_
    · exact fun _ => ⟨reachable.wellFormed, trivial⟩
    · exact fun _ _ _ m holds => ⟨holds.1, handler_wellFormed _⟩
    · intro worker s o next answer s' holds effect
      obtain ⟨relied, wellFormed⟩ := holds.1.effect effect holds.2.1
      exact ⟨wellFormed, holds.2.2 answer relied⟩
    · intro Q i j o next answer s' holds _ ready _ effect
      have own := holds i
      rw [ready] at own
      exact ⟨(own.1.effect effect own.2.1).2, (holds j).2⟩
  exact (all .controls).1

theorem Reached.role {P : Tasks Value ι} (reached : Reached w publishers topics P)
    (worker : Worker ι) : (P.task worker).Avoids worker.Foreign := by
  obtain ⟨world, moves, _, run⟩ := reached
  let A : Worker ι → World Value → Handler Value (Option SyncOutcome) → Prop := fun worker _ p =>
    p.Avoids worker.Foreign
  refine run.assertion (A := A) ?_ ?_ ?_ ?_ worker
  · exact fun _ => trivial
  · exact fun worker _ _ m _ => handler_role topics worker m
  · exact fun holds _ => holds.2 _ trivial
  · exact fun holds _ _ _ _ => holds _

end

end AlarmSync
