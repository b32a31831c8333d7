import AlarmSync.ClosedLoop
import AlarmSync.Faults
import AlarmSync.Isolation

/-! The closed system of any number of devices on the same streams, among whatever else comes in
on them, with sends that may fail or be carried out more than once. For each device it is a
mirror of two systems. -/
namespace AlarmSync
open EchoMirror (Side InStep)

variable {Value : Type}

/-- Whether a message can make a difference to the device: a status of an alarm cannot. -/
def Message.sways (w : Wire Value) (d : String) : Message → Bool
  | controls msg => (w.statusFromStr msg.value).any fun alarm =>
      alarm.device = d && alarm.source = .epics && (Controls.stateToOperation alarm.state).isSome
  | phoebus topic msg => (Message.phoebus topic msg).deviceOf w = some d

def Env.Fails (env : Env) : Outbound → Prop
  | .publish .. => env.published = false
  | .call .. => executeCommand env.transport = .failed

def Outbound.toward : Outbound → Side
  | publish .. => .right
  | call .. => .left

/-- What a call is for: a publish for the device it is made for, a request for the one that it
names, as one of EPICS. -/
def Outbound.GoesTo (d : String) : Outbound → Prop
  | publish device _ _ => device = d
  | call _ request => request.devices = [d ++ "#Epics"]

theorem goesTo_unique {d d' : String} {out : Outbound} (one : out.GoesTo d)
    (other : out.GoesTo d') : d = d' := by
  cases out with
  | publish device topic message => exact one.symm.trans other
  | call device request => simpa using one.symm.trans other

/-- What Controls holds for each device, the last config of each, and what is unread in
each topic. -/
structure SharedLoop (Value : Type) where
  world : World Value
  controls : String → CachedState
  lastConfig : String → Option StringMessage
  unread : Stream → List StringMessage

namespace SharedLoop

/-- An operator acts in one of the systems; something comes in that makes no difference; a message
is handled, with these calls, each of which got through or not. -/
inductive Move where
  | operator (side : Side) (device : String)
  | noise
  | handled (calls : List (Outbound × Bool))

def enqueue (L : SharedLoop Value) (stream : Stream) (msg : StringMessage) : SharedLoop Value :=
  { L with unread := Function.update L.unread stream (L.unread stream ++ [msg]) }

def reportStatus (L : SharedLoop Value) (d : String) (x : CachedState)
    (msg : StringMessage) : SharedLoop Value :=
  { L.enqueue .controls msg with controls := Function.update L.controls d x }

def postConfig (L : SharedLoop Value) (d topic : String) (msg : StringMessage) : SharedLoop Value :=
  { L.enqueue (.phoebus topic) msg with lastConfig := Function.update L.lastConfig d (some msg) }

def change (home : String → String) (L : SharedLoop Value) (d : String) (x : CachedState)
    (msg : StringMessage) :
    Side → SharedLoop Value
  | .left => L.reportStatus d x msg
  | .right => L.postConfig d (home d) msg

def changes (home : String → String) (L : SharedLoop Value) (d : String)
    (x : CachedState) (side : Side) (messages : List StringMessage) : SharedLoop Value :=
  messages.foldl (fun L msg => L.change home d x msg side) L

def source (home : String → String) (d : String) : Side → Stream
  | .left => .controls
  | .right => .phoebus (home d)

def about (w : Wire Value) (d : String) (L : SharedLoop Value) (stream : Stream) :
    List StringMessage :=
  (L.unread stream).filter fun msg => (stream.message msg).sways w d

/-- The enablement of the device that the system means by the message. -/
def Tells (w : Wire Value) (d : String) (horizon : Int) : Side → CachedState → StringMessage → Prop
  | .left => Reports w d
  | .right => Configures w d horizon

/-- What passes an enablement of the device on from a system. -/
def PassesOn (w : Wire Value) (home : String → String) (d : String) (horizon : Int)
    (x : CachedState) : Side → Outbound → Prop
  | .left, .publish device topic message =>
      device = d ∧ topic = home d ∧ Configures w d horizon x message
  | .right, .call _ request => request.devices = [d ++ "#Epics"] ∧ request.enablement = some x
  | _, _ => False

section
variable (w : Wire Value) (devices : String → Prop)

/-- How the outside answers the calls: those that go to the devices of the system and get through
are carried out, at least once: a request whose answer gets lost is made again, and so may be a
message. A call that is reported as failed may have got through. -/
inductive Returns (env : Env) : SharedLoop Value → List (Outbound × Bool) → SharedLoop Value → Prop
  | nothing (L) : Returns env L [] L
  | published {L L' : SharedLoop Value} {d topic : String} {msg : StringMessage} {rest}
      (member : devices d) (others : Returns env (L.postConfig d topic msg) rest L') :
      Returns env L ((.publish d topic msg, true) :: rest) L'
  | publishedAgain {L L' : SharedLoop Value} {d topic : String} {msg : StringMessage} {rest}
      (member : devices d)
      (others : Returns env (L.postConfig d topic msg) ((.publish d topic msg, true) :: rest) L') :
      Returns env L ((.publish d topic msg, true) :: rest) L'
  | called {L L' : SharedLoop Value} {device d : String} {request : CommandRequest}
      {x : CachedState} {status : StringMessage} {rest} (member : devices d)
      (named : request.devices = [d ++ "#Epics"]) (carriedOut : request.enablement = some x)
      (reported : Reports w d x status) (others : Returns env (L.reportStatus d x status) rest L') :
      Returns env L ((.call device request, true) :: rest) L'
  | calledAgain {L L' : SharedLoop Value} {device d : String} {request : CommandRequest}
      {x : CachedState} {status : StringMessage} {rest} (member : devices d)
      (named : request.devices = [d ++ "#Epics"]) (carriedOut : request.enablement = some x)
      (reported : Reports w d x status)
      (others : Returns env (L.reportStatus d x status) ((.call device request, true) :: rest) L') :
      Returns env L ((.call device request, true) :: rest) L'
  | lost {L L' : SharedLoop Value} {out : Outbound} {rest} (failed : env.Fails out)
      (others : Returns env L rest L') : Returns env L ((out, false) :: rest) L'
  | foreign {L L' : SharedLoop Value} {out : Outbound} {through : Bool} {rest}
      (foreign : ∀ d, devices d → ¬ out.GoesTo d) (others : Returns env L rest L') :
      Returns env L ((out, through) :: rest) L'

variable [DecidableEq Value] (publishers : List String) (home : String → String) (horizon : Int)

/-- The loop once the first message of a stream has been handled, before its calls are answered. -/
def handle (L : SharedLoop Value) (env : Env) (stream : Stream) (msg : StringMessage)
    (rest : List StringMessage) :
    SharedLoop Value :=
  { L with
    world := L.world.step w publishers (env, .handle (stream.message msg))
    unread := Function.update L.unread stream rest }

/-- Operators change the enablement of the devices of the system, in Controls or in the topic where
the device is at home. What else comes in makes no difference to these devices. -/
inductive Step : SharedLoop Value → Move → SharedLoop Value → Prop
  | operator {L : SharedLoop Value} {d : String} {side : Side} {x : CachedState}
      {msg : StringMessage} (member : devices d) (timely : x.Timely horizon)
      (told : Tells w d horizon side x msg) : Step L (.operator side d) (L.change home d x msg side)
  | noise {L : SharedLoop Value} {stream : Stream} {msg : StringMessage}
      (quiet : ∀ d, devices d → (stream.message msg).sways w d = false) :
      Step L .noise (L.enqueue stream msg)
  | handle {L L' : SharedLoop Value} {stream : Stream} {msg : StringMessage}
      {rest : List StringMessage} {calls : List (Outbound × Bool)} (env : Env)
      (head : L.unread stream = msg :: rest) (clock : env.now ≤ horizon)
      (made : calls.map Prod.fst =
        (L.handle w publishers env stream msg rest).world.sent.drop L.world.sent.length)
      (returned : Returns w devices env (L.handle w publishers env stream msg rest) calls L') :
      Step L (.handled calls) L'

/-- A loop in a reachable world that has each device in scope under its home topic, which has a
publisher; what is unread makes no difference to them. -/
structure Initial (L : SharedLoop Value) : Prop where
  reachable : L.world.Reachable w publishers
  inScope : ∀ d, devices d → ∃ pvMetadata, L.world.metadata d = some pvMetadata ∧
    pvMetadata.phoebusTopic = home d ∧ home d ∈ publishers
  read : ∀ d, devices d → ∀ stream, L.about w d stream = []

/-- The system holds this enablement of the device. -/
def Holds (d : String) (x : CachedState) (L : SharedLoop Value) : Side → Prop
  | .left => L.controls d = x
  | .right => ∃ msg, L.lastConfig d = some msg ∧ Configures w d horizon x msg

end

/-- A stream as the mirror of one device sees it: the enablements its messages mean. -/
def Conveys (w : Wire Value) (d : String) (horizon : Int) (side : Side) (msg : StringMessage)
    (m : EchoMirror.Mail CachedState) : Prop :=
  Tells w d horizon side m.value msg ∧ m.value.Timely horizon

/-- For the device the loop is a mirror: its entry is the register, and the inboxes are what is
unread about it in the two topics where the systems say what becomes of it. -/
structure Follows (w : Wire Value) (publishers : List String)
    (home : String → String) (horizon : Int) (d : String) (L : SharedLoop Value)
    (a : EchoMirror.System CachedState) : Prop where
  register : L.world.alarmState d = a.register
  held : ∀ side x, a.held side = some x → L.Holds w horizon d x side
  unread : ∀ side, List.Forall₂ (Conveys w d horizon side)
      (L.about w d (source home d side)) (a.inbox side)
  elsewhere : ∀ stream, (∀ side, stream ≠ source home d side) → L.about w d stream = []
  addressable : Addressable d
  routed : ∃ pvMetadata, L.world.metadata d = some pvMetadata ∧ pvMetadata.phoebusTopic = home d ∧
    home d ∈ publishers ∧ pvMetadata.phoebusConfigMetadata.Unnamed

theorem source_injective (home : String → String) (d : String) {side side' : Side} :
    source home d side' = source home d side ↔ side' = side := by
  cases side <;> cases side' <;> simp [source]

section
variable {w : Wire Value} {publishers : List String} {home : String → String}
  {horizon : Int} {d d' : String} {L : SharedLoop Value} {a : EchoMirror.System CachedState}
  {side : Side} {x : CachedState} {msg : StringMessage}

theorem tells_sways (timely : x.Timely horizon) (told : Tells w d horizon side x msg) :
    ((source home d side).message msg).sways w d' = true ↔ d' = d := by
  cases side with
  | left =>
      obtain ⟨alarm, read, epics, rfl, rfl⟩ := told
      have mirrored : (Controls.stateToOperation alarm.state).isSome = true := by
        rcases timely.enablement with h | h <;>
          simp [CachedState.ofStatus] at h <;> simp [Controls.stateToOperation, h]
      simp [source, Stream.message, Message.sways, read, epics, mirrored, eq_comm]
  | right =>
      obtain ⟨key, config, valid, rfl⟩ := told horizon (le_refl horizon)
      obtain ⟨keyed, _, _⟩ := validConfig_eq_some.mp valid
      simp [source, Stream.message, Message.sways,
        deviceOf_keyOf w (home key.device) keyed, eq_comm]

theorem about_enqueue (L : SharedLoop Value) (d : String) (msg : StringMessage)
    (stream stream' : Stream) : (L.enqueue stream msg).about w d stream' =
      L.about w d stream' ++
        if stream' = stream ∧ (stream.message msg).sways w d = true then [msg] else [] := by
  by_cases same : stream' = stream
  · subst same
    cases sways : (stream'.message msg).sways w d <;>
      simp [about, enqueue, List.filter_append, sways]
  · simp [about, enqueue, same]

theorem about_change (L : SharedLoop Value) (timely : x.Timely horizon)
    (told : Tells w d' horizon side x msg) (stream : Stream) :
    (L.change home d' x msg side).about w d stream =
      L.about w d stream ++ if stream = source home d' side ∧ d = d' then [msg] else [] := by
  have queued := about_enqueue (w := w) L d msg (source home d' side) stream
  simp only [tells_sways timely told] at queued
  cases side <;> exact queued

theorem Follows.enqueue {stream : Stream} (follows : Follows w publishers home horizon d L a)
    (quiet : (stream.message msg).sways w d = false) :
    Follows w publishers home horizon d (L.enqueue stream msg) a := by
  have same : ∀ stream', (L.enqueue stream msg).about w d stream' = L.about w d stream' := by
    intro stream'
    simp [about_enqueue, quiet]
  obtain ⟨register, held, unread, elsewhere, addressable, routed⟩ := follows
  refine ⟨register, held, fun side => ?_, fun stream' away => ?_, addressable, routed⟩
  · rw [same]
    exact unread side
  · rw [same]
    exact elsewhere stream' away

theorem Follows.change (follows : Follows w publishers home horizon d L a)
    (timely : x.Timely horizon) (told : Tells w d horizon side x msg) (echo : Bool) :
    Follows w publishers home horizon d (L.change home d x msg side) (a.report side x echo) := by
  have about : ∀ stream, (L.change home d x msg side).about w d stream = _ :=
    about_change L timely told
  obtain ⟨register, held, unread, elsewhere, addressable, routed⟩ := follows
  refine ⟨?_, fun side' y holds => ?_, fun side' => ?_, fun stream away => ?_, addressable, ?_⟩
  · cases side <;> exact register
  · by_cases own : side' = side
    · subst own
      obtain rfl : x = y := by simpa [EchoMirror.System.report] using holds
      cases side' with
      | left => simp [SharedLoop.change, SharedLoop.reportStatus, Holds]
      | right => exact ⟨msg, by simp [SharedLoop.change, SharedLoop.postConfig], told⟩
    · have before := held side' y (by simpa [EchoMirror.System.report, own] using holds)
      cases side <;> cases side' <;> first | exact absurd rfl own | exact before
  · simp only [about, source_injective, and_true]
    by_cases own : side' = side
    · subst own
      have last : Conveys w d horizon side' msg ⟨x, echo⟩ := ⟨told, timely⟩
      simpa [EchoMirror.System.report] using List.rel_append (unread side') (.cons last .nil)
    · simpa [EchoMirror.System.report, own] using unread side'
  · rw [about, elsewhere stream away, if_neg fun same => away side same.1]
    rfl
  · cases side <;> exact routed

theorem Follows.changes {messages : List StringMessage}
    (follows : Follows w publishers home horizon d L a) (timely : x.Timely horizon)
    (told : ∀ msg ∈ messages, Tells w d horizon side x msg) :
    ∃ a', Follows w publishers home horizon d (L.changes home d x side messages) a' ∧
      (∀ side', InStep a side' → InStep a' side') ∧ (messages ≠ [] → InStep a' side) := by
  induction messages generalizing L a with
  | nil => exact ⟨a, follows, fun _ inStep => inStep, fun changed => absurd rfl changed⟩
  | cons msg messages ih =>
      have first := follows.change timely (told msg List.mem_cons_self) true
      obtain ⟨a', follows', stays, _⟩ := ih first fun msg later =>
        told msg (List.mem_cons_of_mem _ later)
      refine ⟨a', follows', fun side' inStep => stays side' (inStep.report _ _ _), fun _ => ?_⟩
      exact stays side (EchoMirror.inStep_report _ _ _ _)

variable [DecidableEq Value] {devices : String → Prop} {env : Env} {stream : Stream}
  {rest : List StringMessage}

theorem step_told (lawful : w.Lawful) (follows : Follows w publishers home horizon d L a)
    (timely : x.Timely horizon) (told : Tells w d horizon side x msg) (clock : env.now ≤ horizon) :
    let world := L.world.step w publishers (env, .handle ((source home d side).message msg))
    (∃ pvMetadata, world.metadata d = some pvMetadata ∧ pvMetadata.phoebusTopic = home d ∧
      home d ∈ publishers ∧ pvMetadata.phoebusConfigMetadata.Unnamed) ∧
    ∃ out, (world.alarmState = (L.world.observe ⟨d, x, some out⟩).alarmState ∧
        world.sent = (L.world.observe ⟨d, x, some out⟩).sent) ∧
      PassesOn w home d horizon x side out := by
  intro world
  obtain ⟨pvMetadata, known, topic, member, unnamed⟩ := follows.routed
  cases side with
  | left =>
      obtain ⟨alarm, read, epics, rfl, rfl⟩ := told
      have operation : Controls.stateToOperation alarm.state = some .config := by
        rcases timely.enablement with h | h <;>
          simp [CachedState.ofStatus] at h <;> simp [Controls.stateToOperation, h]
      obtain ⟨message, built⟩ :
          ∃ message, Controls.controlsToPhoebus w alarm .config pvMetadata = some message :=
            ⟨_, rfl⟩
      have observed : world = L.world.observe ⟨alarm.device, .ofStatus alarm,
          some (.publish alarm.device (home alarm.device) message)⟩ := by
        simp [world, source, Stream.message, World.step, Event.handler, Message.handler,
          Controls.run_processRuntimeMessage, controlsIntent, read, epics, known, operation,
          controlsOutbound, Controls.getTopicForOperation, built, member, topic]
      refine ⟨⟨pvMetadata, ?_, topic, member, unnamed⟩, _,
        ⟨congrArg _ observed, congrArg _ observed⟩, rfl, rfl, ?_⟩
      · rw [observed, World.metadata_observe]
        exact known
      · intro now early
        obtain ⟨config, valid, _⟩ :=
          validConfig_published lawful timely early follows.addressable unnamed built
        exact ⟨_, config, valid, rfl⟩
  | right =>
      have routed : ClosedLoop.Routed publishers d L.world :=
        ⟨pvMetadata, known, topic ▸ member, unnamed⟩
      obtain ⟨_, user, entry, sent⟩ := step_config (home d) routed told clock
      refine ⟨?_, _, ⟨entry, sent⟩, devices_enablementRequest d user x,
        enablement_enablementRequest timely d user⟩
      obtain ⟨key, config, valid, rfl⟩ := told env.now clock
      simp only [world, source, Stream.message, metadata_step_handle, valid, true_and]
      split_ifs
      · exact ⟨_, rfl, by simpa [configMetadata, known] using topic, member,
          (validConfig_wellFormed valid).2⟩
      · exact ⟨pvMetadata, known, topic, member, unnamed⟩

theorem about_handle (w : Wire Value) (publishers : List String) (env : Env)
    (head : L.unread stream = msg :: rest) (d : String) (stream' : Stream) :
    L.about w d stream' =
      (if stream' = stream ∧ (stream.message msg).sways w d = true then [msg] else []) ++
        (L.handle w publishers env stream msg rest).about w d stream' := by
  by_cases same : stream' = stream
  · subst same
    cases sways : (stream'.message msg).sways w d <;> simp [about, SharedLoop.handle, head, sways]
  · simp [about, SharedLoop.handle, same]

theorem Follows.first (follows : Follows w publishers home horizon d L a)
    (head : L.unread stream = msg :: rest)
    (sways : (stream.message msg).sways w d = true) (env : Env) :
    ∃ side m rest', stream = source home d side ∧ a.inbox side = m :: rest' ∧
      Conveys w d horizon side msg m ∧
      List.Forall₂ (Conveys w d horizon side)
        ((L.handle w publishers env stream msg rest).about w d stream) rest' := by
  have about := about_handle w publishers env head d stream
  rw [if_pos ⟨rfl, sways⟩, List.singleton_append] at about
  obtain ⟨side, rfl⟩ : ∃ side, stream = source home d side := by
    by_contra none'
    rw [follows.elsewhere stream fun side same => none' ⟨side, same⟩] at about
    cases about
  have inbox := follows.unread side
  rw [about] at inbox
  obtain ⟨m, rest', conveys, later, same⟩ := List.forall₂_cons_left_iff.mp inbox
  exact ⟨side, m, rest', rfl, same, conveys, later⟩

theorem Follows.handle (lawful : w.Lawful) (follows : Follows w publishers home horizon d L a)
    (head : L.unread stream = msg :: rest) (sways : (stream.message msg).sways w d = true)
    (clock : env.now ≤ horizon) :
    let L' := L.handle w publishers env stream msg rest
    let made := L'.world.sent.drop L.world.sent.length
    ∃ side m rest', a.inbox side = m :: rest' ∧ m.value.Timely horizon ∧
      ((a.register = some m.value ∧ made = [] ∧
          Follows w publishers home horizon d L' (a.drop side rest')) ∨
        Follows w publishers home horizon d L' ((a.drop side rest').lose m.value) ∧
          ∃ out, made = [out] ∧ PassesOn w home d horizon m.value side out) := by
  intro L' made
  obtain ⟨side, m, rest', rfl, inbox, ⟨told, timely⟩, later⟩ := follows.first head sways env
  obtain ⟨routed, out, ⟨entry, sent⟩, outbound⟩ := step_told lawful follows timely told clock
  rw [observe_enablement timely.enablement] at entry sent
  have others : ∀ stream', stream' ≠ source home d side →
      L'.about w d stream' = L.about w d stream' := by
    intro stream' away
    simp [L', about_handle w publishers env head d stream', away]
  have unread : ∀ side', List.Forall₂ (Conveys w d horizon side')
      (L'.about w d (source home d side')) (Function.update a.inbox side rest' side') := by
    refine (Function.forall_update_iff a.inbox fun side' ms =>
      List.Forall₂ (Conveys w d horizon side') (L'.about w d (source home d side')) ms).mpr
        ⟨later, fun side' away => ?_⟩
    rw [others _ fun same => away ((source_injective home d).mp same)]
    exact follows.unread side'
  have elsewhere : ∀ stream', (∀ side, stream' ≠ source home d side) →
      L'.about w d stream' = [] := by
    intro stream' away
    rw [others stream' (away side)]
    exact follows.elsewhere stream' away
  refine ⟨side, m, rest', inbox, timely, ?_⟩
  by_cases known : L.world.alarmState d = some m.value
  · simp only [known, if_true] at entry sent
    refine .inl ⟨follows.register ▸ known, ?_, ?_⟩
    · simp only [made, L', SharedLoop.handle, sent, List.drop_length]
    · exact ⟨(congrFun entry d).trans follows.register, follows.held, unread, elsewhere,
      follows.addressable, routed⟩
  · simp only [known, if_false] at entry sent
    refine .inr ⟨?_, out, ?_, outbound⟩
    · refine ⟨?_, follows.held, unread, elsewhere, follows.addressable, routed⟩
      exact (congrFun entry d).trans (by simp [EchoMirror.System.lose])
    · simp only [made, L', SharedLoop.handle, sent, World.sent_record,
        World.sent_send, List.drop_left]

omit [DecidableEq Value] in
theorem Returns.one {out : Outbound} {through : Bool} (member : devices d)
    (returned : Returns w devices env L [(out, through)] L')
    (passes : PassesOn w home d horizon x side out) : out.GoesTo d ∧ out.toward = side.other ∧
      ((through = true ∧ ∃ messages, messages ≠ [] ∧
          (∀ message ∈ messages, Tells w d horizon side.other x message) ∧
          L' = L.changes home d x side.other messages) ∨
        through = false ∧ L' = L) := by
  have about : out.GoesTo d ∧ out.toward = side.other := by
    cases side <;> cases out
    · exact ⟨passes.1, rfl⟩
    · exact passes.elim
    · exact passes.elim
    · exact ⟨passes.1, rfl⟩
  refine ⟨about.1, about.2, ?_⟩
  generalize single : [(out, through)] = calls at returned
  induction returned with
  | nothing => cases single
  | @published _ _ _ _ msg _ _ others =>
      cases single
      cases others
      cases side with
      | right => exact passes.elim
      | left =>
          obtain ⟨rfl, rfl, configured⟩ := passes
          exact .inl ⟨rfl, [msg], List.cons_ne_nil _ _,
            List.forall_mem_singleton.mpr configured, rfl⟩
  | @publishedAgain _ _ _ _ msg _ _ _ ih =>
      cases single
      obtain ⟨_, messages, _, told, again⟩ | ⟨none', _⟩ := ih rfl
      · cases side with
        | right => exact passes.elim
        | left =>
            obtain ⟨rfl, rfl, configured⟩ := passes
            exact .inl ⟨rfl, msg :: messages, List.cons_ne_nil _ _,
              List.forall_mem_cons.mpr ⟨configured, told⟩, again⟩
      · cases none'
  | @called _ _ _ _ _ _ status _ _ named carriedOut reported others =>
      cases single
      cases others
      obtain rfl := goesTo_unique about.1 named
      cases side with
      | left => exact passes.elim
      | right =>
          cases carriedOut.symm.trans passes.2
          exact .inl ⟨rfl, [status], List.cons_ne_nil _ _,
            List.forall_mem_singleton.mpr reported, rfl⟩
  | @calledAgain _ _ _ _ _ _ status _ _ named carriedOut reported _ ih =>
      cases single
      obtain rfl := goesTo_unique about.1 named
      obtain ⟨_, messages, _, told, again⟩ | ⟨none', _⟩ := ih rfl
      · cases side with
        | left => exact passes.elim
        | right =>
            cases carriedOut.symm.trans passes.2
            exact .inl ⟨rfl, status :: messages, List.cons_ne_nil _ _,
              List.forall_mem_cons.mpr ⟨reported, told⟩, again⟩
      · cases none'
  | lost _ others =>
      cases single
      cases others
      exact .inr ⟨rfl, rfl⟩
  | foreign foreign _ =>
      cases single
      exact absurd about.1 (foreign d member)

/-- All devices are mirrored, and this system is in step for this one. -/
def Stays (w : Wire Value) (devices : String → Prop) (publishers : List String)
    (home : String → String) (horizon : Int) (d : String) (side : Side)
    (L : SharedLoop Value) : Prop :=
  (∀ d, devices d → ∃ a, Follows w publishers home horizon d L a) ∧
    ∃ a, Follows w publishers home horizon d L a ∧ InStep a side

omit [DecidableEq Value] in
theorem Stays.holds (stays : Stays w devices publishers home horizon d side L)
    (read : L.about w d (source home d side) = []) (entry : L.world.alarmState d = some x) :
    L.Holds w horizon d x side := by
  obtain ⟨_, a, follows, inStep⟩ := stays
  have inbox : a.inbox side = [] := by
    have unread := follows.unread side
    rw [read] at unread
    exact List.forall₂_nil_left_iff.mp unread
  apply follows.held
  rw [inStep.held_eq_register inbox, ← follows.register, entry]

def start (L : SharedLoop Value) (d : String) (held : Side → Option CachedState) :
    EchoMirror.System CachedState where
  register := L.world.alarmState d
  held := held
  inbox _ := []
  actions := 0
  sends := 0

theorem Initial.follows (initial : Initial w devices publishers home L) (member : devices d)
    {held : Side → Option CachedState}
    (holds : ∀ side x, held side = some x → L.Holds w horizon d x side) :
    Follows w publishers home horizon d L (L.start d held) := by
  obtain ⟨pvMetadata, known, topic, published⟩ := initial.inScope d member
  obtain ⟨addressable, unnamed⟩ := initial.reachable.wellFormed d pvMetadata known
  refine ⟨rfl, holds, fun side => ?_, fun stream _ => initial.read d member stream, addressable,
    pvMetadata, known, topic, published, unnamed⟩
  rw [initial.read d member]
  exact .nil

theorem Initial.all (initial : Initial w devices publishers home L) (horizon : Int) :
    ∀ d, devices d → ∃ a, Follows w publishers home horizon d L a := by
  intro d member
  have holds : ∀ side x,
    (fun _ => none : Side → Option CachedState) side = some x → L.Holds w horizon d x side := by
    intro side x none'
    cases none'
  exact ⟨_, initial.follows member holds⟩

omit [DecidableEq Value] in
theorem Returns.world {calls : List (Outbound × Bool)}
    (returned : Returns w devices env L calls L') : L'.world = L.world := by
  induction returned with
  | nothing => rfl
  | published _ _ ih | publishedAgain _ _ ih | called _ _ _ _ _ ih | calledAgain _ _ _ _ _ ih
  | lost _ _ ih | foreign _ _ ih => exact ih

section
variable {L₀ L₁ L₂ : SharedLoop Value}

end

end

section
open PlainWire

end

end SharedLoop

end AlarmSync
