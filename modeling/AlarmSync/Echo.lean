import AlarmSync.Atomic
import AlarmSync.ClosedLoop

/-! What comes back of a call while handlers interleave: a published message is there for the
monitor of its topic, and a request is reported to the Controls task, as soon as it is sent. -/
namespace AlarmSync
open EffectProgram

variable {Value ι : Type}

def CommandRequest.requested : CommandRequest → CachedState
  | acknowledge .. => ⟨.acknowledged, none⟩
  | activate .. => .ofBool true
  | bypass .. => .bypassed
  | snooze _ _ wake => ⟨.bypassed, some wake⟩

/-- What an operator can do to a device. -/
def CachedState.Action (horizon : Int) (x : CachedState) : Prop :=
  x = ⟨.acknowledged, none⟩ ∨ x.Timely horizon

/-- Every intent that the message can carry up to the horizon is of this kind. -/
def Message.Only (w : Wire Value) (horizon : Int) (kind : Intent → Prop) (m : Message) : Prop :=
  ∀ publishers metadata now, now ≤ horizon →
  ∀ x, m.intent w publishers now metadata = some x → kind x

/-- What a call is returned as, and to whom. -/
def Outbound.Echo (w : Wire Value) (topics : ι → String) (out : Outbound) : Worker ι →
    StringMessage → Prop
  | .controls, msg => ∃ device label request, out = .call label request ∧
      request.devices = [device ++ "#Epics"] ∧ Reports w device request.requested msg
  | .monitor i, msg => ∃ device, out = .publish device (topics i) msg

/-- The echoes of a call are about its own device, and mean `x` if that is `d`. -/
def Outbound.Sound (w : Wire Value) (topics : ι → String) (d : String) (horizon : Int)
    (x : CachedState) (out : Outbound) : Prop :=
  ∀ worker msg, out.Echo w topics worker msg → (worker.receives topics msg).Only w horizon
    fun i => i.device = out.device ∧ (i.device = d → i.state = x)

theorem Message.Only.imp {w : Wire Value} {horizon : Int} {kind kind' : Intent → Prop} {m : Message}
    (only : m.Only w horizon kind) (h : ∀ i, kind i → kind' i) : m.Only w horizon kind' :=
  fun publishers metadata now clock i carried => h i (only publishers metadata now clock i carried)

section
variable {w : Wire Value} {topics : ι → String} {d : String} {horizon : Int} {x : CachedState}

theorem reports_only {device : String} {msg : StringMessage} (reported : Reports w device x msg) :
    (Message.controls msg).Only w horizon fun i => i.device = device ∧ i.state = x := by
  obtain ⟨alarm, read, _, rfl, rfl⟩ := reported
  intro publishers metadata now _ i carried
  obtain ⟨alarm', _, _, read', _, _, _, rfl⟩ := controlsIntent_eq_some.mp carried
  cases read.symm.trans read'
  exact ⟨rfl, rfl⟩

theorem status_intent {publishers : List String} {now : Int} {msg : StringMessage} {alarm : Status}
    {operation : Operation} (pvMetadata : PvMetadata Value)
    (read : w.statusFromStr msg.value = some alarm) (source : alarm.source = .epics)
    (mirrored : Controls.stateToOperation alarm.state = some operation) :
    (Message.controls msg).intent w publishers now (fun _ => some pvMetadata) = some ⟨alarm.device,
      .ofStatus alarm, controlsOutbound w publishers alarm operation pvMetadata⟩ := by
  simp only [Message.intent]
  exact controlsIntent_eq_some.mpr ⟨alarm, pvMetadata, operation, read, source, rfl, mirrored, rfl⟩

theorem acknowledge_intent {publishers : List String}
    {metadata : String → Option (PvMetadata Value)} {now : Int} {topic : String}
    {msg : StringMessage} {key : Key} {command : Command}
    (acknowledged : acknowledgeCommand w msg = some (key, command)) :
    (Message.phoebus topic msg).intent w publishers now metadata = some
      ⟨key.device, ⟨.acknowledged, none⟩,
      some (.call key.device (.acknowledge [epicsName key.device] command.user))⟩ := by
  simp only [Message.intent, acknowledge_excludes_config acknowledged, commandIntent,
    acknowledged, Option.map_some]

theorem config_intent {publishers : List String} {metadata : String → Option (PvMetadata Value)}
    {now : Int} {topic : String} {msg : StringMessage} {key : Key} {config : Config Value}
    {state : CachedState}
    (valid : validConfig w now msg = some (key, config, state)) :
    (Message.phoebus topic msg).intent w publishers now metadata = some
      (configIntent key config state) := by
  simp only [Message.intent, valid]

theorem phoebus_intent {publishers : List String} {metadata : String → Option (PvMetadata Value)}
    {now : Int} {topic : String} {msg : StringMessage} {i : Intent}
    (carried : (Message.phoebus topic msg).intent w publishers now metadata = some i) :
    (∃ key config, validConfig w now msg = some (key, config, i.state) ∧ i.device = key.device) ∨
      ∃ key, keyOf .command msg = some key ∧ i.device = key.device ∧
      i.state = ⟨.acknowledged, none⟩ := by
  simp only [Message.intent] at carried
  cases valid : validConfig w now msg with
  | none =>
      simp only [valid, commandIntent, Option.map_eq_some_iff] at carried
      obtain ⟨⟨key, command⟩, acknowledged, rfl⟩ := carried
      exact .inr ⟨key, (acknowledgeCommand_eq_some.mp acknowledged).1, rfl, rfl⟩
  | some found =>
      obtain ⟨key, config, state⟩ := found
      simp only [valid, Option.some.injEq] at carried
      cases carried
      exact .inl ⟨key, config, rfl, rfl⟩

theorem Configures.only {topic : String} {msg : StringMessage}
    (configured : Configures w d horizon x msg) : (Message.phoebus topic msg).Only w horizon
    fun i => i.device = d ∧ i.state = x := by
  intro publishers metadata now clock i carried
  obtain ⟨key, config, valid, rfl⟩ := configured now clock
  rw [config_intent valid] at carried
  cases carried
  exact ⟨rfl, rfl⟩

theorem requested_enablementRequest (timely : x.Timely horizon) (device user : String) :
    (enablementRequest device user x).requested = x := by
  rcases timely with rfl | rfl | ⟨t, rfl, _⟩ <;> rfl

theorem call_sound {device : String} {request : CommandRequest}
    (named : request.devices = [device ++ "#Epics"]) (forD : device = d → request.requested = x) :
    (Outbound.call device request).Sound w topics d horizon x := by
  intro worker msg echo
  cases worker with
  | controls =>
      obtain ⟨device', _, _, same, named', reported⟩ := echo
      cases same
      obtain rfl : device = device' := by simpa using named.symm.trans named'
      refine (reports_only reported).imp fun i means => ⟨means.1, fun same => ?_⟩
      exact means.2.trans (forD (means.1.symm.trans same))
  | monitor i =>
      obtain ⟨_, same⟩ := echo
      cases same

theorem published_sound (lawful : w.Lawful) (action : x.Action horizon) {publishers : List String}
    {alarm : Status} {operation : Operation} {pvMetadata : PvMetadata Value} {out : Outbound}
    (forD : alarm.device = d → CachedState.ofStatus alarm = x)
    (mirrored : Controls.stateToOperation alarm.state = some operation)
    (addressable : Addressable alarm.device) (unnamed : pvMetadata.phoebusConfigMetadata.Unnamed)
    (outbound : controlsOutbound w publishers alarm operation pvMetadata = some out) :
    out.Sound w topics d horizon x ∧ out.device = alarm.device := by
  obtain ⟨topic, message, _, published, _, rfl⟩ := controlsOutbound_eq_some.mp outbound
  refine ⟨?_, rfl⟩
  intro worker msg echo
  cases worker with
  | controls =>
      obtain ⟨_, _, _, same, _⟩ := echo
      cases same
  | monitor j =>
      obtain ⟨_, same⟩ := echo
      cases same
      intro publishers' metadata now clock i carried
      have keyed : ∀ {other key}, keyOf other message = some key →
          key.device = alarm.device ∧ other = operation := by
        intro other key keyed
        obtain ⟨keyStr, given, parsed, rfl⟩ := keyOf_eq_some.mp keyed
        cases operation with
        | state => cases published
        | _ =>
            cases published
            cases given
            rw [Key.parse_getPhoebusKey _ _ addressable] at parsed
            cases parsed
            exact ⟨rfl, rfl⟩
      rcases phoebus_intent carried with ⟨key, config, valid, device⟩ | ⟨key,
        commanded, device, state⟩
      · obtain ⟨named, rfl⟩ := keyed (validConfig_eq_some.mp valid).1
        refine ⟨device.trans named, fun same => ?_⟩
        have means := forD (named.symm.trans (device.symm.trans same))
        have timely : (CachedState.ofStatus alarm).Timely horizon := by
          rcases action with acknowledged | timely
          · have state : alarm.state = .acknowledged :=
              congrArg CachedState.state (means.trans acknowledged)
            rw [state] at mirrored
            cases mirrored
          · exact means ▸ timely
        obtain ⟨config', valid', _⟩ :=
          validConfig_published lawful timely clock addressable unnamed published
        have decoded := valid.symm.trans valid'
        simp only [Option.some.injEq, Prod.mk.injEq] at decoded
        exact decoded.2.2.trans means
      · obtain ⟨named, rfl⟩ := keyed commanded
        refine ⟨device.trans named, fun same => ?_⟩
        have means := forD (named.symm.trans (device.symm.trans same))
        rw [state]
        rcases action with acknowledged | timely
        · exact acknowledged.symm
        · have enablement : (CachedState.ofStatus alarm).Enablement := means ▸ timely.enablement
          rcases enablement with bypassed | unbypassed
          · have state : alarm.state = .bypassed := bypassed
            rw [state] at mirrored
            cases mirrored
          · have state : alarm.state = .unbypassed := unbypassed
            rw [state] at mirrored
            cases mirrored

end

/-- Only sound calls are made, given well-formed metadata and a clock before the horizon. -/
def sounding (w : Wire Value) (topics : ι → String) (d : String) (horizon : Int) (x : CachedState) :
    Contract (effects Value) Unit where
  may _
    | .lookupMetadata device, answer => ∀ pvMetadata, answer = some pvMetadata →
        Addressable device ∧ pvMetadata.phoebusConfigMetadata.Unnamed
    | .readClock, now => @LE.le Int _ now horizon
    | _, _ => True
  ok _
    | .send out => out.Sound w topics d horizon x
    | _ => True
  step _ _ _ := ()

section
variable {w : Wire Value} {topics : ι → String} {d : String} {horizon : Int} {x : CachedState}

theorem convey_sounding {final : Unit → Prop} {out : Option Outbound} {device : String}
    {state : CachedState}
    (sound : ∀ call, out = some call → call.Sound w topics d horizon x) (ends : final ()) :
    (convey out device state).Meets (sounding w topics d horizon x) (fun _ => final) () := by
  cases out with
  | none => exact ⟨trivial, fun _ _ => ends⟩
  | some out => exact ⟨sound out rfl, fun _ _ => ⟨trivial, fun _ _ => ends⟩⟩

variable [DecidableEq Value] {publishers : List String}

theorem handler_sounding (lawful : w.Lawful) (action : x.Action horizon) (worker : Worker ι)
    (msg : StringMessage)
    (only : (worker.receives topics msg).Only w horizon fun i => i.device = d → i.state = x) :
    ((worker.receives topics msg).handler w publishers).Meets (sounding w topics d horizon x)
      (fun _ _ => True) () := by
  cases worker with
  | controls =>
      apply Controls.meets_processRuntimeMessage trivial
      intro alarm read source
      refine ⟨trivial, fun observed _ => ⟨trivial, fun known wellFormed => ⟨trivial, ?_⟩⟩⟩
      rintro pvMetadata operation rfl mirrored _
      obtain ⟨addressable, unnamed⟩ := wellFormed pvMetadata rfl
      refine convey_sounding (fun out outbound => ?_) trivial
      have means := only publishers _ horizon (le_refl _) _
        (status_intent pvMetadata read source mirrored)
      exact (published_sound lawful action means mirrored addressable unnamed outbound).1
  | monitor j =>
      apply Monitor.meets_processRuntimeMessage fun _ => trivial
      · intro key _
        refine ⟨trivial, fun observed _ => ⟨trivial, ?_⟩⟩
        intro command acknowledged _
        refine convey_sounding ?_ trivial
        intro call same
        cases same
        refine call_sound rfl ?_
        exact only [] (fun _ => none) horizon (le_refl _) _ (acknowledge_intent acknowledged)
      · intro key config keyed read
        refine ⟨trivial, fun known _ => ⟨trivial, fun observed _ => ⟨trivial, fun now clock => ?_⟩⟩⟩
        have updated : (Handler.updateMetadata key.device (configMetadata (topics j) known key
            config)).Meets (sounding w topics d horizon x) (fun _ _ => True) () :=
          ⟨trivial, fun _ _ => trivial⟩
        refine
          { malformed := fun _ _ => trivial
            duplicate := fun _ _ _ _ => trivial
            unchanged := fun _ _ _ => updated
            mirrored := fun state decoded _ => convey_sounding ?_ updated }
        intro call same
        cases same
        refine call_sound (devices_enablementRequest key.device config.user state) fun same => ?_
        have means : state = x := only [] (fun _ => none) now clock _
          (config_intent (validConfig_eq_some.mpr ⟨keyed, read, decoded⟩)) same
        have timely : x.Timely horizon := by
          rcases action with acknowledged | timely
          · have enablement := Config.asCachedState_enablement decoded
            rw [means, acknowledged] at enablement
            rcases enablement with bypassed | unbypassed
            · cases bypassed
            · cases unbypassed
          · exact timely
        rw [means]
        exact requested_enablementRequest timely key.device config.user

variable [DecidableEq ι] {P Q R : Tasks Value ι} {earlier later : List Outbound} {worker : Worker ι}

/-- What tasks take while nobody acts on `d`: an echo of a call made since, or a message that
carries nothing for `d`. Their clocks stay before the horizon. -/
def Delivers (w : Wire Value) (topics : ι → String) (d : String) (horizon : Int) (earlier : Nat)
    (Q : Tasks Value ι) : Act Value ι → Prop
  | .take worker msg => (worker.receives topics msg).Only w horizon (·.device ≠ d) ∨
      ∃ out ∈ Q.shared.sent.drop earlier, out.Echo w topics worker msg
  | .perform _ .readClock now => @LE.le Int _ now horizon
  | _ => True

/-- All calls made since are sound, and so are those to come. -/
structure Sounds (w : Wire Value) (publishers : List String) (topics : ι → String) (d : String)
    (horizon : Int) (x : CachedState) (earlier later : List Outbound)
    (Q : Tasks Value ι) : Prop where
  reached : Reached w publishers topics Q
  sent : Q.shared.sent = earlier ++ later
  sound : ∀ out ∈ later, out.Sound w topics d horizon x
  tasks : ∀ worker, (Q.task worker).Meets (sounding w topics d horizon x) (fun _ _ => True) ()

theorem Sounds.echo {msg : StringMessage}
    (sounds : Sounds w publishers topics d horizon x earlier later Q)
    (delivered : Delivers w topics d horizon earlier.length Q (.take worker msg)) :
    (worker.receives topics msg).Only w horizon fun i => i.device = d →
      i.state = x ∧ ∃ out ∈ later, out.device = d := by
  rcases delivered with noise | ⟨out, member, echo⟩
  · exact noise.imp fun i other same => absurd same other
  · rw [sounds.sent, List.drop_left] at member
    refine (sounds.sound out member worker msg echo).imp fun i means same => ?_
    exact ⟨means.2 same, out, member, means.1.symm.trans same⟩

theorem Sounds.take (lawful : w.Lawful) (action : x.Action horizon) {msg : StringMessage}
    (sounds : Sounds w publishers topics d horizon x earlier later Q)
    (step : (synchronizer w publishers topics).Step Q (.take worker msg) R)
    (only : (worker.receives topics msg).Only w horizon fun i => i.device = d → i.state = x) :
    Sounds w publishers topics d horizon x earlier later R := by
  obtain ⟨_, shared, task⟩ := step.taken
  refine ⟨sounds.reached.step step, shared ▸ sounds.sent, sounds.sound, ?_⟩
  rw [task]
  exact (Function.forall_update_iff Q.task fun _ p =>
    p.Meets (sounding w topics d horizon x) (fun _ _ => True) ()).mpr
    ⟨handler_sounding lawful action worker msg only, fun other _ => sounds.tasks other⟩

theorem Sounds.perform {o : Op Value} {answer : o.Answer}
    (sounds : Sounds w publishers topics d horizon x earlier later Q)
    (step : (synchronizer w publishers topics).Step Q (.perform worker o answer) R)
    (delivered : Delivers w topics d horizon earlier.length Q (.perform worker o answer)) :
    Sounds w publishers topics d horizon x earlier (later ++ o.calls) R := by
  obtain ⟨next, ready, effect, task⟩ := step.performed
  have own := sounds.tasks worker
  rw [ready] at own
  have relied : (sounding w topics d horizon x).may () o answer := by
    cases o with
    | lookupMetadata device =>
        rintro pvMetadata rfl
        exact sounds.reached.wellFormed device pvMetadata effect.1.symm
    | readClock => exact delivered
    | _ => trivial
  refine ⟨sounds.reached.step step, ?_, ?_, ?_⟩
  · rw [effect.2, World.sent_after, sounds.sent, List.append_assoc]
  · intro out member
    rcases List.mem_append.mp member with before | now
    · exact sounds.sound out before
    · cases o with
      | send call =>
          cases List.mem_singleton.mp now
          exact own.1
      | _ => cases now
  · rw [task]
    exact (Function.forall_update_iff Q.task fun _ p =>
      p.Meets (sounding w topics d horizon x) (fun _ _ => True) ()).mpr
      ⟨own.2 answer relied, fun other _ => sounds.tasks other⟩

end

end AlarmSync
