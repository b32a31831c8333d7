import AlarmSync.Mirror
import AlarmSync.PlainWire
import AlarmSync.ReadBack

/-! The closed system of one device: the Controls task, the monitor of its topic, the two
streams they read, and an outside that returns every config that is published and reports
every request that Controls carries out. It simulates the mirror of two systems. -/
namespace AlarmSync

variable {Value : Type}

/-- An EPICS status of `d` in the state `x`. -/
def Reports (w : Wire Value) (d : String) (x : CachedState) (msg : StringMessage) : Prop :=
  ∃ alarm, w.statusFromStr msg.value = some alarm ∧ alarm.source = .epics ∧ alarm.device = d ∧
    CachedState.ofStatus alarm = x

/-- A config of `d` that means `x` at every clock reading up to the horizon. -/
def Configures (w : Wire Value) (d : String) (horizon : Int) (x : CachedState)
    (msg : StringMessage) : Prop :=
  ∀ now ≤ horizon, ∃ key config, validConfig w now msg = some (key, config, x) ∧ key.device = d

/-- The enablement that Controls holds once it has carried out a request. -/
def CommandRequest.enablement : CommandRequest → Option CachedState
  | acknowledge .. => none
  | activate .. => some (.ofBool true)
  | bypass .. => some .bypassed
  | snooze _ _ wake => some ⟨.bypassed, some wake⟩

/-- A message of a stream; an echo was caused by the synchronizer. -/
structure Delivery where
  message : StringMessage
  echo : Bool
  deriving DecidableEq, Repr

structure ClosedLoop (Value : Type) where
  world : World Value
  controls : CachedState
  lastConfig : Option StringMessage
  statuses : List Delivery
  configs : List Delivery
  actions : Nat

def Env.Works (env : Env) : Prop :=
  env.published = true ∧ executeCommand env.transport = .succeeded

namespace ClosedLoop

inductive Move where
  | operator
  | status
  | config
  deriving DecidableEq, Repr

/-- Controls changes to `x` and reports it. -/
@[simps] def reportStatus (c : ClosedLoop Value) (x : CachedState)
    (msg : StringMessage) (echo : Bool) : ClosedLoop Value :=
  { c with controls := x, statuses := c.statuses ++ [⟨msg, echo⟩] }

/-- A config is appended to the topic. -/
@[simps] def postConfig (c : ClosedLoop Value) (msg : StringMessage) (echo : Bool) :
    ClosedLoop Value :=
  { c with lastConfig := some msg, configs := c.configs ++ [⟨msg, echo⟩] }

@[simps] def act (c : ClosedLoop Value) : ClosedLoop Value := { c with actions := c.actions + 1 }

/-- How the outside answers the calls of the synchronizer. Controls carries out a request for the
device that is named as one of EPICS, and no other. -/
inductive Returns (w : Wire Value) (d : String) : ClosedLoop Value → List Outbound →
    ClosedLoop Value → Prop
  | nothing (c) : Returns w d c [] c
  | published {c c' : ClosedLoop Value} {device topic : String} {message : StringMessage}
      {rest : List Outbound} (others : Returns w d (c.postConfig message true) rest c') :
      Returns w d c (.publish device topic message :: rest) c'
  | called {c c' : ClosedLoop Value} {device : String} {request : CommandRequest} {x : CachedState}
      {status : StringMessage} {rest : List Outbound} (named : request.devices = [d ++ "#Epics"])
      (carriedOut : request.enablement = some x) (reported : Reports w d x status)
      (others : Returns w d (c.reportStatus x status true) rest c') :
      Returns w d c (.call device request :: rest) c'
  | astray {c c' : ClosedLoop Value} {device : String} {request : CommandRequest}
      {rest : List Outbound} (other : request.devices ≠ [d ++ "#Epics"])
      (others : Returns w d c rest c') : Returns w d c (.call device request :: rest) c'

def Returned (w : Wire Value) (d : String) (handled : ClosedLoop Value × List Outbound)
    (c' : ClosedLoop Value) : Prop := Returns w d handled.1 handled.2 c'

section
variable [DecidableEq Value] (w : Wire Value) (publishers : List String) (topic d : String)
  (horizon : Int)

/-- The loop once a message has been handled, and the calls made for it. -/
def handle (c : ClosedLoop Value) (env : Env) (m : Message) : ClosedLoop Value × List Outbound :=
  let world := c.world.step w publishers (env, .handle m)
  ({ c with world }, world.sent.drop c.world.sent.length)

inductive Step : ClosedLoop Value → Move → ClosedLoop Value → Prop
  | operatorControls (c : ClosedLoop Value) {x : CachedState} {msg : StringMessage}
      (timely : x.Timely horizon) (reported : Reports w d x msg) :
      Step c .operator (c.reportStatus x msg false).act
  | operatorPhoebus (c : ClosedLoop Value) {x : CachedState} {msg : StringMessage}
      (timely : x.Timely horizon) (configured : Configures w d horizon x msg) :
      Step c .operator (c.postConfig msg false).act
  | handleStatus {c c' : ClosedLoop Value} {m : Delivery} {rest : List Delivery} (env : Env)
      (head : c.statuses = m :: rest) (clock : env.now ≤ horizon) (works : env.Works)
      (returned : Returned w d
        (handle w publishers { c with statuses := rest } env (.controls m.message)) c') :
      Step c .status c'
  | handleConfig {c c' : ClosedLoop Value} {m : Delivery} {rest : List Delivery} (env : Env)
      (head : c.configs = m :: rest) (clock : env.now ≤ horizon) (works : env.Works)
      (returned : Returned w d
        (handle w publishers { c with configs := rest } env (.phoebus topic m.message)) c') :
      Step c .config c'

/-- A message whose state differs from the entry of the device is taken while no message that
the synchronizer caused is left unread behind it. -/
def Clear (c : ClosedLoop Value) : Move → Prop
  | .operator => True
  | .status => ∀ m rest, c.statuses = m :: rest →
      (∃ x, Reports w d x m.message ∧ c.world.alarmState d ≠ some x) →
      ∀ e ∈ rest ++ c.configs, e.echo = false
  | .config => ∀ m rest, c.configs = m :: rest →
      (∃ x, Configures w d horizon x m.message ∧ c.world.alarmState d ≠ some x) →
      ∀ e ∈ rest ++ c.statuses, e.echo = false

def Routed (world : World Value) : Prop :=
  ∃ pvMetadata, world.metadata d = some pvMetadata ∧ pvMetadata.phoebusTopic ∈ publishers ∧
    pvMetadata.phoebusConfigMetadata.Unnamed

end

end ClosedLoop

theorem enablement_enablementRequest {horizon : Int} {x : CachedState} (timely : x.Timely horizon)
    (device user : String) : (enablementRequest device user x).enablement = some x := by
  rcases timely with rfl | rfl | ⟨t, rfl, _⟩ <;> rfl

theorem observe_enablement {world : World Value} {d : String} {x : CachedState}
    (enablement : x.Enablement) (out : Outbound) : world.observe ⟨d, x, some out⟩ =
      if world.alarmState d = some x then world else (world.send out).recordAlarmState d x := by
  by_cases known : world.alarmState d = some x
  · rw [if_pos known]
    exact World.observe_suppressed ((suppressesIncoming_enablement enablement _).mpr known)
  · rw [if_neg known]
    refine World.observe_mirrored (Bool.eq_false_iff.mpr fun suppressed => ?_)
    exact known ((suppressesIncoming_enablement enablement _).mp suppressed)

/-- A stream as the mirror sees it: the enablements its messages mean. -/
def Means (meaning : CachedState → StringMessage → Prop) (horizon : Int) (m : Delivery)
    (e : EchoMirror.Mail CachedState) : Prop :=
  meaning e.value m.message ∧ e.value.Timely horizon ∧ m.echo = e.echo

/-- The loop is a concrete form of the mirror: Controls on the left, Phoebus on the right, the
entry of the device as the register. -/
structure Refines (w : Wire Value) (publishers : List String) (d : String)
    (horizon : Int) (base : Nat) (c : ClosedLoop Value)
    (a : EchoMirror.System CachedState) : Prop where
  register : c.world.alarmState d = a.register
  controls : a.held .left = some c.controls
  phoebus : ∀ x, a.held .right = some x → ∃ msg, c.lastConfig = some msg ∧
      Configures w d horizon x msg
  statuses : List.Forall₂ (Means (Reports w d) horizon) c.statuses (a.inbox .left)
  configs : List.Forall₂ (Means (Configures w d horizon) horizon) c.configs (a.inbox .right)
  actions : c.actions = a.actions
  sends : c.world.sent.length = base + a.sends
  routed : ClosedLoop.Routed publishers d c.world

section
variable {w : Wire Value} {publishers : List String} {d : String} {horizon : Int} {base : Nat}
  {c : ClosedLoop Value} {a : EchoMirror.System CachedState}

theorem refines_operatorControls (refines : Refines w publishers d horizon base c a)
    {x : CachedState} {msg : StringMessage} (timely : x.Timely horizon)
    (reported : Reports w d x msg) :
    Refines w publishers d horizon base (c.reportStatus x msg false).act (a.act .left x) where
  register := refines.register
  controls := by simp [EchoMirror.System.act]
  phoebus y held := refines.phoebus y (by simpa [EchoMirror.System.act] using held)
  statuses := by
    have last : Means (Reports w d) horizon ⟨msg, false⟩ ⟨x, false⟩ := ⟨reported, timely, rfl⟩
    simpa [EchoMirror.System.act] using List.rel_append refines.statuses (.cons last .nil)
  configs := by simpa [EchoMirror.System.act] using refines.configs
  actions := congrArg (· + 1) refines.actions
  sends := refines.sends
  routed := refines.routed

theorem refines_operatorPhoebus (refines : Refines w publishers d horizon base c a)
    {x : CachedState} {msg : StringMessage} (timely : x.Timely horizon)
    (configured : Configures w d horizon x msg) :
    Refines w publishers d horizon base (c.postConfig msg false).act (a.act .right x) where
  register := refines.register
  controls := by simpa [EchoMirror.System.act] using refines.controls
  phoebus y held := by
    obtain rfl : x = y := by simpa [EchoMirror.System.act] using held
    exact ⟨msg, rfl, configured⟩
  statuses := by simpa [EchoMirror.System.act] using refines.statuses
  configs := by
    have last : Means (Configures w d horizon) horizon ⟨msg, false⟩ ⟨x, false⟩ :=
      ⟨configured, timely, rfl⟩
    simpa [EchoMirror.System.act] using List.rel_append refines.configs (.cons last .nil)
  actions := congrArg (· + 1) refines.actions
  sends := refines.sends
  routed := refines.routed

theorem exists_of_mem_right {α β : Type} {R : α → β → Prop} {xs : List α} {ys : List β}
    (related : List.Forall₂ R xs ys) : ∀ y ∈ ys, ∃ x ∈ xs, R x y := by
  induction related with
  | nil => simp
  | cons here _ ih =>
      intro y member
      rcases List.mem_cons.mp member with rfl | old
      · exact ⟨_, List.mem_cons_self, here⟩
      · obtain ⟨x, member', later⟩ := ih y old
        exact ⟨x, List.mem_cons_of_mem _ member', later⟩

theorem exists_of_mem_left {α β : Type} {R : α → β → Prop} {xs : List α} {ys : List β}
    (related : List.Forall₂ R xs ys) : ∀ x ∈ xs, ∃ y ∈ ys, R x y := by
  have flipped : List.Forall₂ (flip R) ys xs := List.Forall₂.flip related
  exact exists_of_mem_right flipped

theorem no_echo_of_streams {meaning meaning' : CachedState → StringMessage → Prop}
    {ms ms' : List Delivery} {es es' : List (EchoMirror.Mail CachedState)}
    (first : List.Forall₂ (Means meaning horizon) ms es)
    (second : List.Forall₂ (Means meaning' horizon) ms' es')
    (gone : ∀ m ∈ ms ++ ms', m.echo = false) : ∀ e ∈ es ++ es', e.echo = false := by
  intro e member
  rcases List.mem_append.mp member with member | member
  · obtain ⟨m, member', _, _, echo⟩ := exists_of_mem_right first e member
    exact echo.symm.trans (gone m (List.mem_append_left _ member'))
  · obtain ⟨m, member', _, _, echo⟩ := exists_of_mem_right second e member
    exact echo.symm.trans (gone m (List.mem_append_right _ member'))

theorem clear_status (refines : Refines w publishers d horizon base c a)
    (clear : ClosedLoop.Clear w d horizon c .status) : EchoMirror.Clear a (.receive .left) := by
  intro e rest' inbox new
  have stream := refines.statuses
  rw [inbox] at stream
  obtain ⟨m, rest, means, tail, head⟩ := List.forall₂_cons_right_iff.mp stream
  have differs : c.world.alarmState d ≠ some e.value := refines.register ▸ new
  exact no_echo_of_streams tail refines.configs (clear m rest head ⟨_, means.1, differs⟩)

theorem clear_config (refines : Refines w publishers d horizon base c a)
    (clear : ClosedLoop.Clear w d horizon c .config) : EchoMirror.Clear a (.receive .right) := by
  intro e rest' inbox new
  have stream := refines.configs
  rw [inbox] at stream
  obtain ⟨m, rest, means, tail, head⟩ := List.forall₂_cons_right_iff.mp stream
  have differs : c.world.alarmState d ≠ some e.value := refines.register ▸ new
  exact no_echo_of_streams tail refines.statuses (clear m rest head ⟨_, means.1, differs⟩)

end

section
variable [DecidableEq Value] {w : Wire Value} {publishers : List String} {topic d : String}
  {horizon : Int} {base : Nat} {c c' : ClosedLoop Value} {a : EchoMirror.System CachedState}

theorem step_status (lawful : w.Lawful) (addressable : Addressable d) {world : World Value}
    {x : CachedState} {msg : StringMessage} (routed : ClosedLoop.Routed publishers d world)
    (timely : x.Timely horizon) (reported : Reports w d x msg) (env : Env) :
    ∃ topic message, Configures w d horizon x message ∧
      world.step w publishers (env, .handle (.controls msg)) =
        world.observe ⟨d, x, some (.publish d topic message)⟩ := by
  obtain ⟨alarm, read, source, rfl, rfl⟩ := reported
  obtain ⟨pvMetadata, known, member, unnamed⟩ := routed
  have operation : Controls.stateToOperation alarm.state = some .config := by
    rcases timely.enablement with h | h <;>
      simp [CachedState.ofStatus] at h <;> simp [Controls.stateToOperation, h]
  obtain ⟨message, built⟩ :
      ∃ message, Controls.controlsToPhoebus w alarm .config pvMetadata = some message := ⟨_, rfl⟩
  refine ⟨pvMetadata.phoebusTopic, message, fun now clock => ?_, ?_⟩
  · obtain ⟨config, valid, _⟩ := validConfig_published lawful timely clock addressable unnamed built
    exact ⟨_, config, valid, rfl⟩
  · simp [World.step, Event.handler, Message.handler, Controls.run_processRuntimeMessage,
      controlsIntent, read, source, known, operation, controlsOutbound,
      Controls.getTopicForOperation, built, member]

theorem step_config (topic : String) {world : World Value} {x : CachedState} {msg : StringMessage}
    {env : Env}
    (routed : ClosedLoop.Routed publishers d world) (configured : Configures w d horizon x msg)
    (clock : env.now ≤ horizon) :
    let world' := world.step w publishers (env, .handle (.phoebus topic msg))
    ClosedLoop.Routed publishers d world' ∧ ∃ user,
      let observed := world.observe ⟨d, x, some (.call d (enablementRequest d user x))⟩
      world'.alarmState = observed.alarmState ∧ world'.sent = observed.sent := by
  intro world'
  obtain ⟨key, config, valid, rfl⟩ := configured env.now clock
  refine ⟨?_, config.user, ?_⟩
  · obtain ⟨pvMetadata, known, member, unnamed⟩ := routed
    unfold ClosedLoop.Routed
    rw [metadata_step_handle]
    simp only [valid, true_and]
    split_ifs
    · refine ⟨_, rfl, ?_, (validConfig_wellFormed valid).2⟩
      simpa [configMetadata, known] using member
    · exact ⟨pvMetadata, known, member, unnamed⟩
  · have handled := step_handle w publishers env world (.phoebus topic msg)
    simpa only [Message.intent, valid, Option.elim_some, configIntent] using handled

theorem refines_status (lawful : w.Lawful) (addressable : Addressable d)
    (refines : Refines w publishers d horizon base c a) {m : Delivery} {rest : List Delivery}
    {env : Env} (head : c.statuses = m :: rest)
    (returned : ClosedLoop.Returned w d
      (ClosedLoop.handle w publishers { c with statuses := rest } env (.controls m.message)) c') :
    ∃ e rest', a.inbox .left = e :: rest' ∧
      Refines w publishers d horizon base c' (a.receive .left e rest') := by
  have stream := refines.statuses
  rw [head] at stream
  obtain ⟨e, rest', ⟨reported, timely, echo⟩, tail, inbox⟩ := List.forall₂_cons_left_iff.mp stream
  refine ⟨e, rest', inbox, ?_⟩
  obtain ⟨topic, message, configured, step⟩ :=
    step_status lawful addressable refines.routed timely reported env
  unfold ClosedLoop.Returned ClosedLoop.handle at returned
  simp only [step, observe_enablement timely.enablement] at returned
  unfold EchoMirror.System.receive
  by_cases known : c.world.alarmState d = some e.value
  · have registered : a.register = some e.value := refines.register ▸ known
    simp only [known, if_true, List.drop_length] at returned
    cases returned
    rw [if_pos registered]
    exact
      { register := refines.register
        controls := refines.controls
        phoebus := refines.phoebus
        statuses := by simpa [EchoMirror.System.drop] using tail
        configs := by simpa [EchoMirror.System.drop] using refines.configs
        actions := refines.actions
        sends := refines.sends
        routed := refines.routed }
  · have unregistered : a.register ≠ some e.value := refines.register ▸ known
    simp only [known, if_false, World.sent_record, World.sent_send, List.drop_left] at returned
    cases returned with
    | published others =>
        cases others
        rw [if_neg unregistered]
        have last : Means (Configures w d horizon) horizon ⟨message, true⟩ ⟨e.value, true⟩ :=
          ⟨configured, timely, rfl⟩
        exact
          { register := by simp [EchoMirror.System.mirror]
            controls := by
              simpa [EchoMirror.System.mirror, EchoMirror.System.drop, EchoMirror.Side.other] using
                refines.controls
            phoebus := by
              intro y held
              obtain rfl : e.value = y := by
                simpa [EchoMirror.System.mirror, EchoMirror.Side.other] using held
              exact ⟨message, rfl, configured⟩
            statuses := by
              simpa [EchoMirror.System.mirror, EchoMirror.System.drop,
                EchoMirror.Side.other] using tail
            configs := by
              simpa [EchoMirror.System.mirror, EchoMirror.System.drop, EchoMirror.Side.other] using
                List.rel_append refines.configs (.cons last .nil)
            actions := refines.actions
            sends := by
              simp [EchoMirror.System.mirror, EchoMirror.System.drop, refines.sends, Nat.add_assoc]
            routed := refines.routed }

theorem refines_config (refines : Refines w publishers d horizon base c a) {m : Delivery}
    {rest : List Delivery} {env : Env} (head : c.configs = m :: rest) (clock : env.now ≤ horizon)
    (returned : ClosedLoop.Returned w d (ClosedLoop.handle w publishers
      { c with configs := rest } env (.phoebus topic m.message)) c') :
    ∃ e rest', a.inbox .right = e :: rest' ∧
      Refines w publishers d horizon base c' (a.receive .right e rest') := by
  have stream := refines.configs
  rw [head] at stream
  obtain ⟨e, rest', ⟨configured, timely, echo⟩, tail, inbox⟩ := List.forall₂_cons_left_iff.mp stream
  refine ⟨e, rest', inbox, ?_⟩
  obtain ⟨routed, user, entry, sent⟩ := step_config topic refines.routed configured clock
  unfold ClosedLoop.Returned ClosedLoop.handle at returned
  simp only [sent, observe_enablement timely.enablement] at returned
  simp only [observe_enablement timely.enablement] at entry sent
  unfold EchoMirror.System.receive
  by_cases known : c.world.alarmState d = some e.value
  · have registered : a.register = some e.value := refines.register ▸ known
    simp only [known, if_true, List.drop_length] at returned entry sent
    cases returned
    rw [if_pos registered]
    exact
      { register := (congrFun entry d).trans refines.register
        controls := refines.controls
        phoebus := refines.phoebus
        statuses := by simpa [EchoMirror.System.drop] using refines.statuses
        configs := by simpa [EchoMirror.System.drop] using tail
        actions := refines.actions
        sends := (congrArg List.length sent).trans refines.sends
        routed := routed }
  · have unregistered : a.register ≠ some e.value := refines.register ▸ known
    simp only [known, if_false, World.sent_record, World.sent_send,
      List.drop_left] at returned entry sent
    cases returned with
    | astray other _ => exact absurd (devices_enablementRequest d user e.value) other
    | called _ carriedOut reported others =>
        cases others
        rw [enablement_enablementRequest timely] at carriedOut
        cases carriedOut
        rw [if_neg unregistered]
        have last : Means (Reports w d) horizon ⟨_, true⟩ ⟨e.value, true⟩ := ⟨reported, timely, rfl⟩
        exact
          { register := by simp [EchoMirror.System.mirror, entry]
            controls := by simp [EchoMirror.System.mirror, EchoMirror.Side.other]
            phoebus := by
              intro y held
              exact refines.phoebus y (by
                simpa [EchoMirror.System.mirror, EchoMirror.System.drop,
                  EchoMirror.Side.other] using held)
            statuses := by
              simpa [EchoMirror.System.mirror, EchoMirror.System.drop, EchoMirror.Side.other] using
                List.rel_append refines.statuses (.cons last .nil)
            configs := by
              simpa [EchoMirror.System.mirror, EchoMirror.System.drop,
                EchoMirror.Side.other] using tail
            actions := refines.actions
            sends := by
              simp [EchoMirror.System.mirror, EchoMirror.System.drop, sent,
                refines.sends, Nat.add_assoc]
            routed := routed }

theorem refines_step (lawful : w.Lawful) (addressable : Addressable d)
    (refines : Refines w publishers d horizon base c a) {move : ClosedLoop.Move}
    (step : ClosedLoop.Step w publishers topic d horizon c move c') :
    ∃ move' a', (ClosedLoop.Clear w d horizon c move → EchoMirror.Clear a move') ∧
      EchoMirror.Step a move' a' ∧ Refines w publishers d horizon base c' a' := by
  cases step with
  | @operatorControls x msg timely reported =>
      exact ⟨.act .left x, _, fun _ => trivial, .act a .left x,
        refines_operatorControls refines timely reported⟩
  | @operatorPhoebus x msg timely configured =>
      exact ⟨.act .right x, _, fun _ => trivial, .act a .right x,
        refines_operatorPhoebus refines timely configured⟩
  | handleStatus env head clock works returned =>
      obtain ⟨e, rest', inbox, refines'⟩ := refines_status lawful addressable refines head returned
      exact ⟨.receive .left, _, clear_status refines, .receive inbox, refines'⟩
  | handleConfig env head clock works returned =>
      obtain ⟨e, rest', inbox, refines'⟩ := refines_config refines head clock returned
      exact ⟨.receive .right, _, clear_config refines, .receive inbox, refines'⟩

end

namespace ClosedLoop

/-- A loop whose streams are empty, in a reachable world that has the device in scope under a
topic with a publisher. -/
structure Initial (w : Wire Value) (publishers : List String) (d : String) [DecidableEq Value]
    (c : ClosedLoop Value) : Prop where
  reachable : c.world.Reachable w publishers
  inScope : ∃ pvMetadata, c.world.metadata d = some pvMetadata ∧
      pvMetadata.phoebusTopic ∈ publishers
  statuses : c.statuses = []
  configs : c.configs = []
  actions : c.actions = 0

def Agrees (w : Wire Value) (d : String) (horizon : Int) (c : ClosedLoop Value)
    (x : CachedState) : Prop :=
  c.controls = x ∧ c.world.alarmState d = some x ∧
    ∃ msg, c.lastConfig = some msg ∧ Configures w d horizon x msg

section
variable [DecidableEq Value] {w : Wire Value} {publishers : List String} {topic d : String}
  {horizon : Int} {c₀ c : ClosedLoop Value}

def start (c : ClosedLoop Value) (d : String) (last : Option CachedState) :
    EchoMirror.System CachedState where
  register := c.world.alarmState d
  held
    | .left => some c.controls
    | .right => last
  inbox _ := []
  actions := 0
  sends := 0

theorem Initial.refines (initial : Initial w publishers d c₀) (last : Option CachedState)
    (said : ∀ x, last = some x → ∃ msg, c₀.lastConfig = some msg ∧ Configures w d horizon x msg) :
    Addressable d ∧ Refines w publishers d horizon c₀.world.sent.length c₀ (c₀.start d last) := by
  obtain ⟨pvMetadata, known, member⟩ := initial.inScope
  obtain ⟨addressable, unnamed⟩ := initial.reachable.wellFormed d pvMetadata known
  refine ⟨addressable, ?_⟩
  exact
    { register := rfl
      controls := rfl
      phoebus := said
      statuses := by rw [initial.statuses]; exact .nil
      configs := by rw [initial.configs]; exact .nil
      actions := initial.actions
      sends := rfl
      routed := ⟨pvMetadata, known, member, unnamed⟩ }

/-- Quiescent agreement: whenever both streams are empty, the enablement that Controls holds, that
of the last config and the entry of the device are equal. -/
theorem quiescent_agreement (lawful : w.Lawful) (initial : Initial w publishers d c₀)
    {x : CachedState} (agrees : c₀.Agrees w d horizon x)
    (run : Labelled.Run (Step w publishers topic d horizon) (fun _ _ => True) c₀ c)
    (drained : c.statuses = [] ∧ c.configs = []) : c.Agrees w d horizon c.controls := by
  obtain ⟨controls, entry, msg, last, configured⟩ := agrees
  obtain ⟨addressable, refines⟩ := initial.refines (some x) (by
    rintro y ⟨⟩
    exact ⟨msg, last, configured⟩)
  obtain ⟨a, run', refines⟩ : ∃ a, Labelled.Run EchoMirror.Step (fun _ _ => True)
      (c₀.start d (some x)) a ∧ Refines w publishers d horizon c₀.world.sent.length c a := by
    refine run.simulates refines ?_
    intro c move c' a refines _ step
    obtain ⟨move', a', _, step', refines'⟩ := refines_step lawful addressable refines step
    exact ⟨move', a', trivial, step', refines'⟩
  have settled : EchoMirror.Settled (c₀.start d (some x)) := by
    intro side
    cases side with
    | left => exact entry.trans (congrArg some controls.symm)
    | right => exact entry
  have left : a.inbox .left = [] := by
    simpa [drained.1] using refines.statuses
  have right : a.inbox .right = [] := by
    simpa [drained.2] using refines.configs
  have settled := EchoMirror.settled_run settled run'
  have leftHeld := EchoMirror.held_eq_register settled left
  have rightHeld := EchoMirror.held_eq_register settled right
  rw [refines.controls] at leftHeld
  rw [← leftHeld] at rightHeld
  exact ⟨rfl, refines.register.trans leftHeld.symm, refines.phoebus _ rightHeld⟩

/-- While no mirrored message leaves an echo unread behind it, there are never more calls than
operator actions, and every unread echo carries the entry of the device: it will be dropped. -/
theorem sends_le_actions_of_clear (lawful : w.Lawful) (initial : Initial w publishers d c₀)
    (run : Labelled.Run (Step w publishers topic d horizon) (Clear w d horizon) c₀ c) :
    c.world.sent.length ≤ c₀.world.sent.length + c.actions ∧
      (∀ m ∈ c.statuses, m.echo = true → ∃ x, Reports w d x m.message ∧
        c.world.alarmState d = some x) ∧
      ∀ m ∈ c.configs, m.echo = true →
        ∃ x, Configures w d horizon x m.message ∧ c.world.alarmState d = some x := by
  obtain ⟨addressable, refines⟩ := initial.refines none (by rintro x ⟨⟩)
  obtain ⟨a, run', refines⟩ : ∃ a, Labelled.Run EchoMirror.Step EchoMirror.Clear
      (c₀.start d none) a ∧ Refines w publishers d horizon c₀.world.sent.length c a := by
    refine run.simulates refines ?_
    intro c move c' a refines clear step
    obtain ⟨move', a', clear', step', refines'⟩ := refines_step lawful addressable refines step
    exact ⟨move', a', clear' clear, step', refines'⟩
  have quiet : EchoMirror.Quiet (c₀.start d none) := by
    refine ⟨?_, Nat.le_refl 0⟩
    intro side e member
    cases member
  have quiet := EchoMirror.quiet_run quiet run'
  refine ⟨?_, ?_, ?_⟩
  · have paid := quiet.paid
    rw [refines.sends, refines.actions]
    omega
  · intro m member echo
    obtain ⟨e, member', means, _, same⟩ := exists_of_mem_left refines.statuses m member
    exact ⟨e.value, means, refines.register.trans (quiet.echoes .left e member' (same ▸ echo))⟩
  · intro m member echo
    obtain ⟨e, member', means, _, same⟩ := exists_of_mem_left refines.configs m member
    exact ⟨e.value, means, refines.register.trans (quiet.echoes .right e member' (same ▸ echo))⟩

end

theorem Returned.of_nothing {w : Wire Value} {d : String}
    {handled : ClosedLoop Value × List Outbound} (new : handled.2 = []) :
    Returned w d handled handled.1 := by
  rw [Returned, new]
  exact .nothing _

theorem Returned.of_publish {w : Wire Value} {d device topic : String} {message : StringMessage}
    {handled : ClosedLoop Value × List Outbound}
    (new : handled.2 = [.publish device topic message]) :
    Returned w d handled (handled.1.postConfig message true) := by
  rw [Returned, new]
  exact .published (.nothing _)

theorem Returned.of_call {w : Wire Value} {d device : String} {request : CommandRequest}
    {x : CachedState} {status : StringMessage} {handled : ClosedLoop Value × List Outbound}
    (new : handled.2 = [.call device request]) (named : request.devices = [d ++ "#Epics"])
    (carriedOut : request.enablement = some x) (reported : Reports w d x status) :
    Returned w d handled (handled.1.reportStatus x status true) := by
  rw [Returned, new]
  exact .called named carriedOut reported (.nothing _)

section
open PlainWire

def pumpLoop : ClosedLoop FlatJson.Scalar :=
  ⟨started "true", .ofBool true, some (configMessage "pump" "true"), [], [], 0⟩

theorem pumpLoop_initial : Initial wire publishers "pump" pumpLoop where
  reachable := ⟨[(env, .hydrate "plant" (configMessage "pump" "true"))], rfl⟩
  inScope := by
    have routed : (pumpLoop.world.metadata "pump").any (·.phoebusTopic ∈ publishers) = true := by
      decide +kernel
    cases known : pumpLoop.world.metadata "pump" with
    | none => simp [known] at routed
    | some pvMetadata => exact ⟨pvMetadata, rfl, by simpa [known] using routed⟩
  statuses := rfl
  configs := rfl
  actions := rfl

theorem env_works : env.Works := ⟨rfl, rfl⟩

theorem reports_bypassed : Reports wire "pump" .bypassed (statusMessage "pump" "BYPASSED") :=
  ⟨⟨"pump", .epics, .bypassed, none, "operator"⟩, by decide +kernel, rfl, rfl, rfl⟩

theorem reports_unbypassed :
    Reports wire "pump" (.ofBool true) (statusMessage "pump" "UNBYPASSED") :=
  ⟨⟨"pump", .epics, .unbypassed, none, "operator"⟩, by decide +kernel, rfl, rfl, rfl⟩

theorem configures_started : Configures wire "pump" 0 (.ofBool true)
    (configMessage "pump" "true") := by
  intro now _
  have addressable : Addressable "pump" := by decide
  have unnamed : Settings.Unnamed (∅ : Settings FlatJson.Scalar) := fun k _ => Finmap.lookup_empty k
  refine ⟨⟨"pump", "/plant", .config⟩, ⟨some "true", "console", "operator", ∅⟩,
    validConfig_eq_some.mpr ⟨?_, Config.fromStr_toStr lawful unnamed, ?_⟩, rfl⟩
  · exact keyOf_eq_some.mpr ⟨_, rfl, Key.parse_getPhoebusKey _ _ addressable, rfl⟩
  · simp [Config.asCachedState, Config.normalizeEnablement, lawful.rfc3339_true, Except.map,
      NormalizedEnablement.asCachedState]

def bypassedLoop : ClosedLoop FlatJson.Scalar :=
  (pumpLoop.reportStatus .bypassed (statusMessage "pump" "BYPASSED") false).act

def mirroredLoop : ClosedLoop FlatJson.Scalar :=
  (handle wire publishers { bypassedLoop with statuses := [] } env
    (.controls (statusMessage "pump" "BYPASSED"))).1.postConfig (mirroredConfig "pump" "false") true

def drainedLoop : ClosedLoop FlatJson.Scalar :=
  (handle wire publishers { mirroredLoop with configs := [] } env
    (.phoebus "plant" (mirroredConfig "pump" "false"))).1

theorem bypass_run :
    Labelled.Run (Step wire publishers "plant" "pump" 0)
      (Clear wire "pump" 0) pumpLoop drainedLoop := by
  have acted : Step wire publishers "plant" "pump" 0 pumpLoop .operator bypassedLoop :=
    .operatorControls pumpLoop (.inr (.inl rfl)) reports_bypassed
  have sent : (handle wire publishers { bypassedLoop with statuses := [] } env
      (.controls (statusMessage "pump" "BYPASSED"))).2 =
      [.publish "pump" "plant" (mirroredConfig "pump" "false")] := by decide +kernel
  have mirrored : Step wire publishers "plant" "pump" 0 bypassedLoop .status mirroredLoop :=
    .handleStatus env rfl (le_refl 0) env_works (.of_publish sent)
  have silent : (handle wire publishers { mirroredLoop with configs := [] } env
      (.phoebus "plant" (mirroredConfig "pump" "false"))).2 = [] := by decide +kernel
  have dropped : Step wire publishers "plant" "pump" 0 mirroredLoop .config drainedLoop :=
    .handleConfig env rfl (le_refl 0) env_works (.of_nothing silent)
  refine ((Labelled.Run.start.step trivial acted).step ?_ mirrored).step ?_ dropped
  · intro m rest head _ e member
    cases head
    cases member
  · intro m rest head _ e member
    cases head
    cases member

theorem drainedLoop_agrees : drainedLoop.Agrees wire "pump" 0 drainedLoop.controls :=
  quiescent_agreement lawful pumpLoop_initial ⟨rfl, by decide +kernel, _, rfl, configures_started⟩
    (bypass_run.weaken fun _ _ _ => trivial) ⟨rfl, rfl⟩

theorem drainedLoop_sends : drainedLoop.world.sent.length ≤ pumpLoop.world.sent.length + 1 :=
  (sends_le_actions_of_clear lawful pumpLoop_initial bypass_run).1

/-- A bypass and an unbypass follow each other in Controls; both are mirrored before the echo of
the first is read. -/
def crossingLoop : ClosedLoop FlatJson.Scalar :=
  (bypassedLoop.reportStatus (.ofBool true) (statusMessage "pump" "UNBYPASSED") false).act

def crossingMirrored : ClosedLoop FlatJson.Scalar :=
  (handle wire publishers { crossingLoop with statuses := crossingLoop.statuses.tail } env
    (.controls (statusMessage "pump" "BYPASSED"))).1.postConfig (mirroredConfig "pump" "false") true

def crossingTwice : ClosedLoop FlatJson.Scalar :=
  (handle wire publishers { crossingMirrored with statuses := [] } env
    (.controls (statusMessage "pump" "UNBYPASSED"))).1.postConfig
    (mirroredConfig "pump" "true") true

def crossingEchoed : ClosedLoop FlatJson.Scalar :=
  (handle wire publishers { crossingTwice with configs := crossingTwice.configs.tail } env
    (.phoebus "plant" (mirroredConfig "pump" "false"))).1.reportStatus .bypassed
      (statusMessage "pump" "BYPASSED") true

theorem crossing_run : Labelled.Run (Step wire publishers "plant" "pump" 0) (fun _ _ => True)
    pumpLoop crossingEchoed := by
  have bypassed : Step wire publishers "plant" "pump" 0 pumpLoop .operator bypassedLoop :=
    .operatorControls pumpLoop (.inr (.inl rfl)) reports_bypassed
  have unbypassed : Step wire publishers "plant" "pump" 0 bypassedLoop .operator crossingLoop :=
    .operatorControls bypassedLoop (.inl rfl) reports_unbypassed
  have first : (handle wire publishers
      { crossingLoop with statuses := crossingLoop.statuses.tail } env
      (.controls (statusMessage "pump" "BYPASSED"))).2 =
      [.publish "pump" "plant" (mirroredConfig "pump" "false")] := by decide +kernel
  have mirrored : Step wire publishers "plant" "pump" 0 crossingLoop .status crossingMirrored :=
    .handleStatus env rfl (le_refl 0) env_works (.of_publish first)
  have second : (handle wire publishers { crossingMirrored with statuses := [] } env
      (.controls (statusMessage "pump" "UNBYPASSED"))).2 =
      [.publish "pump" "plant" (mirroredConfig "pump" "true")] := by decide +kernel
  have twice : Step wire publishers "plant" "pump" 0 crossingMirrored .status crossingTwice :=
    .handleStatus env rfl (le_refl 0) env_works (.of_publish second)
  have echo : (handle wire publishers
      { crossingTwice with configs := crossingTwice.configs.tail } env
      (.phoebus "plant" (mirroredConfig "pump" "false"))).2 =
      [.call "pump" (.bypass ["pump#Epics"] "operator")] := by decide +kernel
  have echoed : Step wire publishers "plant" "pump" 0 crossingTwice .config crossingEchoed :=
    .handleConfig env rfl (le_refl 0) env_works (.of_call echo rfl rfl reports_bypassed)
  exact ((((Labelled.Run.start.step trivial bypassed).step trivial unbypassed).step trivial
    mirrored).step trivial twice).step trivial echoed

/-- Two actions and three calls: the echo of the bypass is mirrored as if it were new. -/
theorem crossing_echo_is_mirrored : ¬ ∀ c₀ c : ClosedLoop FlatJson.Scalar,
    Initial wire publishers "pump" c₀ →
    Labelled.Run (Step wire publishers "plant" "pump" 0) (fun _ _ => True) c₀ c →
    c.world.sent.length ≤ c₀.world.sent.length + c.actions := by
  intro claim
  have bounded := claim pumpLoop crossingEchoed pumpLoop_initial crossing_run
  revert bounded
  decide +kernel

end

end ClosedLoop

end AlarmSync
