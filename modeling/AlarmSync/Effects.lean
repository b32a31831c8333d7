import AlarmSync.Program
import AlarmSync.Outbound
import AlarmSync.Phoebus

/-! The two shared caches and the outbound log, and the atomic operations the handlers
perform on them. Each operation is one lock section, one clock reading or one send. -/
namespace AlarmSync
open EffectProgram

variable {Value : Type}

/-- `AlarmStateCache` and `MetadataScope`. -/
structure Caches (Value : Type) where
  alarmStates : String → Option CachedState
  metadata : String → Option (PvMetadata Value)

def Caches.empty : Caches Value := ⟨fun _ => none, fun _ => none⟩

/-- The caches, and every outbound call made so far. -/
structure World (Value : Type) where
  caches : Caches Value
  sent : List Outbound

def World.empty : World Value := ⟨Caches.empty, []⟩

namespace World

def alarmState (world : World Value) (device : String) : Option CachedState :=
  world.caches.alarmStates device

def metadata (world : World Value) (device : String) : Option (PvMetadata Value) :=
  world.caches.metadata device

@[simp] theorem alarmState_empty (device : String) :
    (empty : World Value).alarmState device = none := rfl
@[simp] theorem metadata_empty (device : String) : (empty : World Value).metadata device = none :=
  rfl

def recordAlarmState (world : World Value) (device : String) (state : CachedState) : World Value :=
  { world with caches := { world.caches with
      alarmStates := Function.update world.caches.alarmStates device (some state) } }

def updateMetadata (world : World Value) (device : String) (new : PvMetadata Value) : World Value :=
  { world with caches := { world.caches with
      metadata := Function.update world.caches.metadata device (some new) } }

def send (world : World Value) (out : Outbound) : World Value :=
  { world with sent := world.sent ++ [out] }

/-- State-record evidence never replaces a bypass. Test and write are under one lock. -/
def recordEvidence (world : World Value) (device : String) (state : CachedState) : World Value :=
  if (world.alarmState device).any (·.state == .bypassed) then world
  else world.recordAlarmState device state

section
variable (world : World Value) (device : String) (state : CachedState) (new : PvMetadata Value)
  (out : Outbound)

@[simp] theorem alarmState_record (d : String) :
    (world.recordAlarmState device state).alarmState d =
    Function.update world.alarmState device (some state) d := rfl
@[simp] theorem metadata_record : (world.recordAlarmState device state).metadata = world.metadata :=
  rfl
@[simp] theorem sent_record : (world.recordAlarmState device state).sent = world.sent := rfl
@[simp] theorem alarmState_update : (world.updateMetadata device new).alarmState =
    world.alarmState := rfl
@[simp] theorem metadata_update (d : String) : (world.updateMetadata device new).metadata d =
    Function.update world.metadata device (some new) d := rfl
@[simp] theorem sent_update : (world.updateMetadata device new).sent = world.sent := rfl
@[simp] theorem alarmState_send : (world.send out).alarmState = world.alarmState := rfl
@[simp] theorem metadata_send : (world.send out).metadata = world.metadata := rfl
@[simp] theorem sent_send : (world.send out).sent = world.sent ++ [out] := rfl

@[simp] theorem metadata_evidence : (world.recordEvidence device state).metadata =
    world.metadata := by
  unfold recordEvidence; split <;> rfl

@[simp] theorem sent_evidence : (world.recordEvidence device state).sent = world.sent := by
  unfold recordEvidence; split <;> rfl

end

end World

inductive Op (Value : Type) where
  | readAlarmState (device : String)
  | recordAlarmState (device : String) (state : CachedState)
  | recordEvidence (device : String) (state : CachedState)
  | lookupMetadata (device : String)
  | updateMetadata (device : String) (new : PvMetadata Value)
  | readClock
  | send (out : Outbound)

def Op.Answer : Op Value → Type
  | readAlarmState _ => Option CachedState
  | lookupMetadata _ => Option (PvMetadata Value)
  | readClock => Int
  | send out => out.Reply
  | recordAlarmState .. | recordEvidence .. | updateMetadata .. => Unit

abbrev effects (Value : Type) : Signature := ⟨Op Value, Op.Answer⟩

/-- A handler, or what remains of one. -/
abbrev Handler (Value : Type) (α : Type) := Program (effects Value) α

/-- What an operation does to the world, whatever it is answered. -/
def World.after (world : World Value) : Op Value → World Value
  | .recordAlarmState device state => world.recordAlarmState device state
  | .recordEvidence device state => world.recordEvidence device state
  | .updateMetadata device new => world.updateMetadata device new
  | .send out => world.send out
  | .readAlarmState _ | .lookupMetadata _ | .readClock => world

/-- Reads are answered from the caches; clock readings and replies come from outside. -/
def World.Answers (world : World Value) : (o : Op Value) → o.Answer → Prop
  | .readAlarmState device, answer => answer = world.alarmState device
  | .lookupMetadata device, answer => answer = world.metadata device
  | _, _ => True

def World.Effect (o : Op Value) (world : World Value) (answer : o.Answer) (world' : World Value) :
    Prop := world.Answers o answer ∧ world' = world.after o

section
variable (world : World Value) (d : String)

theorem World.metadata_after (o : Op Value) : (world.after o).metadata d =
    match o with
    | .updateMetadata device new => if d = device then some new else world.metadata d
    | _ => world.metadata d := by
  cases o with
  | updateMetadata device new => simp [after, Function.update_apply]
  | recordEvidence device state => simp [after]
  | _ => rfl

theorem World.alarmState_after (o : Op Value) : (world.after o).alarmState d =
    match o with
    | .recordAlarmState device state => if d = device then some state else world.alarmState d
    | .recordEvidence device state => (world.recordEvidence device state).alarmState d
    | _ => world.alarmState d := by
  cases o with
  | recordAlarmState device state => simp [after, Function.update_apply]
  | _ => rfl

/-- The calls that an operation makes. -/
def Op.calls : Op Value → List Outbound
  | send out => [out]
  | _ => []

theorem World.sent_after (o : Op Value) : (world.after o).sent = world.sent ++ o.calls := by
  cases o with
  | recordEvidence device state => simp [after, Op.calls]
  | send out => rfl
  | _ => exact (List.append_nil _).symm

end

/-- What the outside gives to the handling of one message: the clock and the fate of a send. -/
structure Env where
  now : Int
  published : Bool
  transport : Transport
  deriving Repr

def Env.reply (env : Env) (world : World Value) : (o : Op Value) → o.Answer
  | .readAlarmState device => world.alarmState device
  | .lookupMetadata device => world.metadata device
  | .readClock => env.now
  | .send (.publish ..) => env.published
  | .send (.call ..) => env.transport
  | .recordAlarmState .. | .recordEvidence .. | .updateMetadata .. => ()

/-- Complete handling: every operation is answered at once. -/
def Env.answer (env : Env) : Program.Environment (effects Value) (World Value) :=
  fun o world => (env.reply world o, world.after o)

theorem Env.answer_effect (env : Env) (o : Op Value) (world : World Value) :
    World.Effect o world (env.answer o world).1 (env.answer o world).2 := by
  refine ⟨?_, rfl⟩
  cases o <;> first | rfl | trivial

namespace Handler

def readAlarmState (device : String) : Handler Value (Option CachedState) :=
  .perform (.readAlarmState device) .done

def recordAlarmState (device : String) (state : CachedState) : Handler Value Unit :=
  .perform (.recordAlarmState device state) .done

def recordEvidence (device : String) (state : CachedState) : Handler Value Unit :=
  .perform (.recordEvidence device state) .done

def lookupMetadata (device : String) : Handler Value (Option (PvMetadata Value)) :=
  .perform (.lookupMetadata device) .done

def updateMetadata (device : String) (new : PvMetadata Value) : Handler Value Unit :=
  .perform (.updateMetadata device new) .done

def readClock : Handler Value Int := .perform .readClock .done

def publish (device topic : String) (message : StringMessage) : Handler Value Bool :=
  .perform (.send (.publish device topic message)) .done

def call (device : String) (request : CommandRequest) : Handler Value Transport :=
  .perform (.send (.call device request)) .done

end Handler

/-- `read_observed_state_policy`. -/
def readObservedStatePolicy (device : String) : Handler Value ObservedStatePolicy := do
  let observed ← Handler.readAlarmState device
  return ⟨observed⟩

section
variable (env : Env) (world : World Value) (device topic : String) (state : CachedState)
  (new : PvMetadata Value) (message : StringMessage) (request : CommandRequest)

@[simp] theorem run_readObservedStatePolicy :
    (readObservedStatePolicy device).run env.answer world = (⟨world.alarmState device⟩, world) :=
      rfl
@[simp] theorem run_recordAlarmState :
    (Handler.recordAlarmState device state).run env.answer world =
      ((), world.recordAlarmState device state) := rfl
@[simp] theorem run_recordEvidence : (Handler.recordEvidence device state).run env.answer world =
    ((), world.recordEvidence device state) := rfl
@[simp] theorem run_lookupMetadata : (Handler.lookupMetadata device).run env.answer world =
    (world.metadata device, world) := rfl
@[simp] theorem run_updateMetadata : (Handler.updateMetadata device new).run env.answer world =
    ((), world.updateMetadata device new) := rfl
@[simp] theorem run_readClock : (Handler.readClock : Handler Value Int).run env.answer world =
    (env.now, world) := rfl
@[simp] theorem run_publish : (Handler.publish device topic message).run env.answer world =
    (env.published, world.send (.publish device topic message)) := rfl
@[simp] theorem run_call : (Handler.call device request).run env.answer world =
    (env.transport, world.send (.call device request)) := rfl

end

end AlarmSync
