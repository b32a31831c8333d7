import AlarmSync.KeyFormat
import AlarmSync.PlainWire

/-! The reference register of one device, and the three runtime handlers as its
implementation: the cache entry is the register, and the calls are its outputs. -/
namespace AlarmSync

variable {Value : Type}

/-- What an outbound call conveys, and how. -/
inductive Conveyance where
  | publish (operation : Operation)
  | acknowledge | bypass | activate
  | snooze (wake : Timestamp)
  deriving DecidableEq, Repr

/-- The operation of a published key, if it is a key of this device. -/
def publishedOperation (device : String) (message : StringMessage) : Option Operation := do
  let key ← message.key
  let (operation, address) ← RustText.splitOnce ':' key
  guard (RustText.endsWith address ("/" ++ device))
  Operation.parse operation

/-- A publish counts only under a key of the device acted for, and a request only when it names
exactly that device, as one of EPICS. -/
def Outbound.conveyance : Outbound → Option Conveyance
  | publish device _ message => (publishedOperation device message).map .publish
  | call device request =>
    match request with
    | .acknowledge devices _ => if devices = [device ++ "#Epics"] then some .acknowledge else none
    | .activate devices _ => if devices = [device ++ "#Epics"] then some .activate else none
    | .bypass devices _ => if devices = [device ++ "#Epics"] then some .bypass else none
    | .snooze devices _ wake => if devices = [device ++ "#Epics"] then some (.snooze wake) else none

def World.callsFor (d : String) (world : World Value) : List (Option Conveyance) :=
  (world.sent.filter (·.device = d)).map Outbound.conveyance

def World.handleAll [DecidableEq Value] (w : Wire Value) (publishers : List String)
    (world : World Value) (messages : List (Env × Message)) : World Value :=
  world.run w publishers (messages.map fun e => (e.1, .handle e.2))

@[simp] theorem World.handleAll_nil [DecidableEq Value] (w : Wire Value) (publishers : List String)
    (world : World Value) : world.handleAll w publishers [] = world := rfl

@[simp] theorem World.handleAll_cons [DecidableEq Value] (w : Wire Value) (publishers : List String)
    (world : World Value) (e : Env × Message) (rest : List (Env × Message)) :
    world.handleAll w publishers (e :: rest) =
      (world.step w publishers (e.1, .handle e.2)).handleAll w publishers rest := rfl

@[simp] theorem World.handleAll_append [DecidableEq Value] (w : Wire Value)
    (publishers : List String) (world : World Value) (first second : List (Env × Message)) :
    world.handleAll w publishers (first ++ second) =
      (world.handleAll w publishers first).handleAll w publishers second := by
  simp only [handleAll, run, List.map_append, List.foldl_append]

/-- The operation under which an operator's state is published. -/
def mirrorOperation (state : State) : Operation :=
  if state = .acknowledged then .command else .config

namespace Register

/-- Where an intent was observed. From Controls it can be passed on only when the topic it
resolves to has a publisher. -/
inductive Origin where
  | controls (routable : Bool)
  | phoebus
  deriving DecidableEq, Repr

def Origin.routable : Origin → Bool
  | controls routable => routable
  | phoebus => true

structure Intent where
  origin : Origin
  state : CachedState
  deriving DecidableEq, Repr

def convey : Intent → Conveyance
  | ⟨.controls _, x⟩ => .publish (mirrorOperation x.state)
  | ⟨.phoebus, x⟩ =>
    if x.state = .acknowledged then .acknowledge
    else if x.state = .bypassed then
      match x.wake with
      | none => .bypass
      | some wake => .snooze wake
    else .activate

/-- Nothing happens on the registered state itself, nor on an acknowledgement of a bypass. -/
def ignores (r : Option CachedState) (x : CachedState) : Bool :=
  r == some x || (r.any (·.state == .bypassed) && x.state == .acknowledged)

def next (r : Option CachedState) (i : Intent) : Option CachedState :=
  if ignores r i.state then r else some i.state

def output (sends : Origin → Bool) (r : Option CachedState) (i : Intent) : List Conveyance :=
  if ignores r i.state then [] else if sends i.origin then [convey i] else []

def run (sends : Origin → Bool) : Option CachedState → List Intent →
    Option CachedState × List Conveyance
  | r, [] => (r, [])
  | r, i :: rest =>
    let after := run sends (next r i) rest
    (after.1, output sends r i ++ after.2)

end Register

def mirrorTopic (state : State) (metadata : PvMetadata Value) : String :=
  if state = .acknowledged then metadata.phoebusTopic ++ "Command" else metadata.phoebusTopic

/-- The device and the intent that a message is observed with. -/
def Message.observed (w : Wire Value) (publishers : List String) (now : Int)
    (metadata : String → Option (PvMetadata Value)) : Message → Option (String × Register.Intent)
  | controls msg => do
    let alarm ← w.statusFromStr msg.value
    guard (alarm.source = .epics)
    let pvMetadata ← metadata alarm.device
    guard (alarm.state = .acknowledged ∨ alarm.state = .bypassed ∨ alarm.state = .unbypassed)
    return (alarm.device,
      ⟨.controls (decide (mirrorTopic alarm.state pvMetadata ∈ publishers)), .ofStatus alarm⟩)
  | phoebus _ msg =>
    match validConfig w now msg with
    | some (key, _, state) => some (key.device, ⟨.phoebus, state⟩)
    | none => (acknowledgeCommand w msg).map fun (key, _) =>
        (key.device, ⟨.phoebus, ⟨.acknowledged, none⟩⟩)

def Message.observedFor (d : String) (w : Wire Value) (publishers : List String) (now : Int)
    (metadata : String → Option (PvMetadata Value)) (m : Message) : Option Register.Intent :=
  (m.observed w publishers now metadata).bind fun (device, i) => if device = d then some i else none

/-- The intents of one device in a run, each observed in the world it is handled in. -/
def intentsFor [DecidableEq Value] (w : Wire Value) (publishers : List String) (d : String) :
    World Value → List (Env × Message) → List Register.Intent
  | _, [] => []
  | world, (env, m) :: rest =>
    (m.observedFor d w publishers env.now world.metadata).toList ++
      intentsFor w publishers d (world.step w publishers (env, .handle m)) rest

theorem publishedOperation_key (operation : Operation) (displayPath device value : String) :
    publishedOperation device ⟨some (Controls.getPhoebusKey operation displayPath device), value⟩ =
      some operation := by
  have split := Key.splitOnce_getPhoebusKey operation displayPath device
  have ends : RustText.endsWith (displayPath ++ "/" ++ device) ("/" ++ device) = true :=
    RustText.endsWith_iff.mpr ⟨displayPath, String.append_assoc ..⟩
  simp only [publishedOperation, split, ends, guard_true, Operation.parse_getKeyPrefix,
    Option.bind_eq_bind, Option.bind_some, Option.pure_def]

/-- For a device that keys can name this compares the device that the key is parsed to. -/
theorem publishedOperation_parsed {keyStr : String} {key : Key}
    (parsed : Key.parse keyStr = .ok key) {device : String} (addressable : Addressable device)
    (value : String) : publishedOperation device ⟨some keyStr, value⟩ =
      if key.device = device then some key.operation else none := by
  obtain ⟨own, rfl⟩ := Key.format_iff.mp (Key.parse_eq_ok_iff.mp parsed)
  have ends : RustText.endsWith (key.displayPath ++ "/" ++ key.device) ("/" ++ device) = true ↔
      key.device = device := by
    rw [RustText.endsWith_iff]
    constructor
    · rintro ⟨front, text⟩
      have first := RustText.rsplitOnce_append key.displayPath own.2
      have second := RustText.rsplitOnce_append front addressable.2
      rw [String.append_assoc] at second
      exact (Prod.mk.inj (Option.some.inj (first.symm.trans (text ▸ second)))).2
    · rintro rfl
      exact ⟨_, String.append_assoc ..⟩
  simp only [publishedOperation, Key.splitOnce_getPhoebusKey, Operation.parse_getKeyPrefix,
    Option.bind_eq_bind, Option.bind_some, ends]
  split_ifs with same <;> simp [same]

theorem stateToOperation_eq (state : State) : Controls.stateToOperation state =
    if state = .acknowledged ∨ state = .bypassed ∨ state = .unbypassed then
      some (mirrorOperation state) else none := by
  cases state <;> simp [Controls.stateToOperation, mirrorOperation]

theorem controlsOutbound_eq (w : Wire Value) (publishers : List String) (alarm : Status)
    (pvMetadata : PvMetadata Value) {operation : Operation}
    (mirrored : Controls.stateToOperation alarm.state = some operation) :
    if mirrorTopic alarm.state pvMetadata ∈ publishers then
      ∃ message, controlsOutbound w publishers alarm operation pvMetadata =
          some (.publish alarm.device (mirrorTopic alarm.state pvMetadata) message) ∧
        publishedOperation alarm.device message = some operation
    else controlsOutbound w publishers alarm operation pvMetadata = none := by
  have topic : Controls.getTopicForOperation operation pvMetadata =
      some (mirrorTopic alarm.state pvMetadata) := by
    rw [stateToOperation_eq] at mirrored
    split_ifs at mirrored
    cases mirrored
    by_cases acknowledged : alarm.state = .acknowledged <;>
      simp [Controls.getTopicForOperation, getCommandTopic, mirrorOperation,
        mirrorTopic, acknowledged]
  have message : ∃ message, Controls.controlsToPhoebus w alarm operation pvMetadata = some message ∧
      publishedOperation alarm.device message = some operation := by
    cases operation with
    | command => exact ⟨_, rfl, publishedOperation_key ..⟩
    | config => exact ⟨_, rfl, publishedOperation_key ..⟩
    | state => cases topic
  obtain ⟨message, built, published⟩ := message
  split_ifs with routed
  · exact ⟨message, by simp [controlsOutbound, topic, built, routed], published⟩
  · simp [controlsOutbound, topic, built, routed]

theorem conveyance_enablementRequest (device user : String) {state : CachedState}
    (enablement : state.Enablement) :
    (Outbound.call device (enablementRequest device user state)).conveyance =
      some (Register.convey ⟨.phoebus, state⟩) := by
  rcases enablement with bypassed | unbypassed
  · cases wake : state.wake <;>
      simp [enablementRequest, epicsName, Register.convey, Outbound.conveyance, bypassed, wake]
  · simp [enablementRequest, epicsName, Register.convey, Outbound.conveyance, unbypassed]

/-- An intent of the handlers is what the reference machine is given: the same device and
state, a call that conveys it if it is routable, and the same test for doing nothing. -/
structure Intent.Matches (x : Intent) (d : String) (i : Register.Intent) : Prop where
  device : x.device = d
  state : x.state = i.state
  addressed : ∀ out ∈ x.outbound, out.device = d
  conveyed : x.outbound.toList.map Outbound.conveyance =
    if i.origin.routable then [some (Register.convey i)] else []
  ignored : ∀ r, x.suppressed r = Register.ignores r i.state

theorem suppressesIncoming_eq_ignores {x : CachedState}
    (mirrored : x.state = .acknowledged ∨ x.state = .bypassed ∨ x.state = .unbypassed)
    (r : Option CachedState) :
    (ObservedStatePolicy.mk r).suppressesIncoming x = Register.ignores r x := by
  cases r with
  | none => rfl
  | some o =>
      rw [Bool.eq_iff_iff, suppressesIncoming_iff]
      rcases mirrored with h | h | h <;> simp [Register.ignores, isTransitionForbidden_iff, h]

theorem intent_matches_observed (w : Wire Value) (publishers : List String) (now : Int)
    (metadata : String → Option (PvMetadata Value)) (m : Message) :
    match m.observed w publishers now metadata with
    | some (device, i) => ∃ x, m.intent w publishers now metadata = some x ∧ x.Matches device i
    | none => m.intent w publishers now metadata = none := by
  cases m with
  | controls msg =>
      simp only [Message.observed, Message.intent, controlsIntent]
      cases w.statusFromStr msg.value with
      | none => rfl
      | some alarm =>
          by_cases source : alarm.source = .epics
          · cases known : metadata alarm.device with
            | none => simp [source, known]
            | some pvMetadata =>
                by_cases mirrored : alarm.state = .acknowledged ∨ alarm.state = .bypassed ∨
                    alarm.state = .unbypassed
                · have operation := stateToOperation_eq alarm.state
                  rw [if_pos mirrored] at operation
                  have sent := controlsOutbound_eq w publishers alarm pvMetadata operation
                  simp only [Option.bind_eq_bind, Option.bind_some, source, guard_true, known,
                    mirrored, operation]
                  refine ⟨_, rfl, rfl, rfl, ?_, ?_, suppressesIncoming_eq_ignores mirrored⟩
                  · split_ifs at sent with routed
                    · obtain ⟨message, built, _⟩ := sent
                      simp [built, Outbound.device]
                    · simp [sent]
                  · split_ifs at sent with routed
                    · obtain ⟨message, built, published⟩ := sent
                      simp [built, Outbound.conveyance, published, Register.Origin.routable, routed,
                        Register.convey, CachedState.ofStatus]
                    · simp [sent, Register.Origin.routable, routed]
                · have operation := stateToOperation_eq alarm.state
                  rw [if_neg mirrored] at operation
                  simp [source, known, mirrored, operation]
          · simp [source]
  | phoebus topic msg =>
      simp only [Message.observed, Message.intent]
      rcases valid : validConfig w now msg with _ | ⟨key, config, state⟩
      · simp only [commandIntent]
        rcases acknowledgeCommand w msg with _ | ⟨key, command⟩
        · rfl
        · refine ⟨_, rfl, rfl, rfl, ?_, ?_, suppressesIncoming_eq_ignores (.inl rfl)⟩
          · simp [Outbound.device]
          · simp [Outbound.conveyance, epicsName, Register.Origin.routable, Register.convey]
      · have enablement := validConfig_enablement valid
        refine ⟨_, rfl, rfl, rfl, ?_, ?_, suppressesIncoming_eq_ignores (.inr enablement)⟩
        · simp [configIntent, Outbound.device]
        · simp [configIntent, Register.Origin.routable, conveyance_enablementRequest _ _ enablement]

section
variable [DecidableEq Value] (w : Wire Value) (publishers : List String) (d : String)

/-- One message: the entry of `d` is the next register, and its new calls are the output. -/
theorem step_refines_register (world : World Value) (env : Env) (m : Message) :
    let world' := world.step w publishers (env, .handle m)
    match m.observedFor d w publishers env.now world.metadata with
    | some i => world'.alarmState d = Register.next (world.alarmState d) i ∧
        world'.callsFor d = world.callsFor d ++
          (Register.output Register.Origin.routable (world.alarmState d) i).map some
    | none => world'.alarmState d = world.alarmState d ∧ world'.callsFor d = world.callsFor d := by
  intro world'
  obtain ⟨entry, sent⟩ := step_handle w publishers env world m
  have observed := intent_matches_observed w publishers env.now world.metadata m
  simp only [World.callsFor, world', entry, sent, Message.observedFor]
  rcases seen : m.observed w publishers env.now world.metadata with _ | ⟨device, i⟩
  · simp only [seen] at observed
    rw [observed]
    exact ⟨rfl, rfl⟩
  · simp only [seen] at observed
    obtain ⟨x, carried, same⟩ := observed
    obtain rfl := same.device
    simp only [carried, Option.elim_some, Option.bind_some, World.alarmState_observe,
      World.sent_observe, same.ignored, List.filter_append, List.map_append]
    by_cases forDevice : x.device = d
    · subst forDevice
      have addressed : (x.outbound.toList.filter (·.device = x.device)) = x.outbound.toList :=
        List.filter_eq_self.mpr fun out member => by
          simpa using same.addressed out (Option.mem_toList.mp member)
      rw [if_pos rfl]
      cases ignored : Register.ignores (world.alarmState x.device) i.state with
      | true => simp [Register.next, Register.output, ignored]
      | false =>
          simp only [Register.next, Register.output, ignored, Bool.false_eq_true, if_false, if_true,
            and_self, addressed, same.conveyed, same.state, true_and]
          split_ifs <;> rfl
    · have others : (x.outbound.toList.filter (·.device = d)) = [] :=
        List.filter_eq_nil_iff.mpr fun out member => by
          simpa [same.addressed out (Option.mem_toList.mp member)] using forDevice
      have ne : d ≠ x.device := fun h => forDevice h.symm
      rw [if_neg forDevice]
      refine ⟨by simp [ne], ?_⟩
      split_ifs <;> simp [others]

/-- Every run of completely handled messages, from any caches: the entry of a device and the
calls made for it are those of the reference register on its intents alone. An intent whose
topic has no publisher is registered without a call. -/
theorem run_refines_register (world : World Value) (messages : List (Env × Message)) :
    let world' := world.handleAll w publishers messages
    let reference := Register.run Register.Origin.routable (world.alarmState d)
      (intentsFor w publishers d world messages)
    world'.alarmState d = reference.1 ∧
      world'.callsFor d = world.callsFor d ++ reference.2.map some := by
  induction messages generalizing world with
  | nil => simp [intentsFor, Register.run]
  | cons e rest ih =>
      obtain ⟨env, m⟩ := e
      have one := step_refines_register w publishers d world env m
      obtain ⟨entry, calls⟩ := ih (world.step w publishers (env, .handle m))
      simp only [World.handleAll_cons]
      rw [entry, calls, intentsFor]
      cases seen : m.observedFor d w publishers env.now world.metadata with
      | none =>
          simp only [seen] at one
          obtain ⟨sameEntry, sameCalls⟩ := one
          simp only [sameEntry, sameCalls, Option.toList_none, List.nil_append, and_self]
      | some i =>
          simp only [seen] at one
          obtain ⟨nextEntry, newCalls⟩ := one
          simp only [nextEntry, newCalls, Option.toList_some, List.singleton_append, Register.run,
            List.map_append, List.append_assoc, and_self]

end

def unroutedWorld : World FlatJson.Scalar where
  caches :=
    { alarmStates := fun _ => none
      metadata := fun device => if device = "pump" then some ⟨∅, "/plant", "retired"⟩ else none }
  sent := []

/-- A machine that sends every intent makes a call that the program does not make. -/
theorem unrouted_intent_is_not_sent : ¬ ∀ (publishers : List String) (d : String)
    (world : World FlatJson.Scalar) (messages : List (Env × Message)),
    let world' := world.handleAll PlainWire.wire publishers messages
    let reference := Register.run (fun _ => true) (world.alarmState d)
      (intentsFor PlainWire.wire publishers d world messages)
    world'.alarmState d = reference.1 ∧
      world'.callsFor d = world.callsFor d ++ reference.2.map some := by
  intro claim
  have unrouted := claim PlainWire.publishers "pump" unroutedWorld
    [(PlainWire.env, .controls (PlainWire.statusMessage "pump" "BYPASSED"))]
  revert unrouted
  decide +kernel

end AlarmSync
