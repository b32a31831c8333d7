import AlarmSync.Scope

/-! For which devices the synchronizer acts, and which of them are in scope. -/
namespace AlarmSync

variable {Value : Type}

def World.callsOn [DecidableEq Value] (w : Wire Value) (publishers : List String)
    (world : World Value) (e : Env × Event) : List Outbound :=
      (world.step w publishers e).sent.drop world.sent.length

/-- Every call on an event is for a device that is in scope once the event has been handled. -/
def ActsInScope [DecidableEq Value] (w : Wire Value) (publishers : List String)
    (world : World Value) (e : Env × Event) : Prop :=
  ∀ out ∈ world.callsOn w publishers e, (world.step w publishers e).inScope out.device

/-- An acknowledge command for a device out of scope that the entry of the device lets through. -/
def AcknowledgesOutOfScope (w : Wire Value) (world : World Value) : Event → Prop
  | .handle (.phoebus _ msg) => ∃ key command, acknowledgeCommand w msg = some (key, command) ∧
      ¬ world.inScope key.device ∧
      (ObservedStatePolicy.mk (world.alarmState key.device)).suppressesIncoming
      ⟨.acknowledged, none⟩ = false
  | _ => False

section
variable [DecidableEq Value] (w : Wire Value) (publishers : List String)
  (world : World Value) (env : Env)

theorem callsOn_hydrate (topic : String) (msg : StringMessage) :
    world.callsOn w publishers (env, .hydrate topic msg) = [] := by
  simp only [World.callsOn, sent_step_hydrate, List.drop_length]

theorem callsOn_handle (m : Message) : world.callsOn w publishers (env, .handle m) =
    (m.intent w publishers env.now world.metadata).elim [] fun x =>
      if x.suppressed (world.alarmState x.device) then [] else x.outbound.toList := by
  simp only [World.callsOn, (step_handle w publishers env world m).2]
  cases m.intent w publishers env.now world.metadata with
  | none => simp
  | some x => simp [World.sent_observe]

theorem acts_in_scope_step_iff (e : Env × Event) :
    ActsInScope w publishers world e ↔ ¬ AcknowledgesOutOfScope w world e.2 := by
  obtain ⟨env, event⟩ := e
  unfold ActsInScope
  cases event with
  | hydrate topic msg => simp [callsOn_hydrate, AcknowledgesOutOfScope]
  | handle m =>
      rw [callsOn_handle]
      simp only [inScope_step]
      cases m with
      | controls msg =>
          simp only [Message.intent, AcknowledgesOutOfScope, not_false_eq_true, iff_true]
          intro out member
          cases carried : controlsIntent w publishers world.metadata msg with
          | none => simp [carried] at member
          | some x =>
              obtain ⟨alarm, pvMetadata, operation, _, _, known, _, rfl⟩ :=
                controlsIntent_eq_some.mp carried
              simp only [carried, Option.elim_some] at member
              split_ifs at member
              · cases member
              · obtain ⟨_, _, _, _, _, rfl⟩ :=
                  controlsOutbound_eq_some.mp (Option.mem_toList.mp member)
                left
                simp [World.inScope, Outbound.device, known]
      | phoebus topic msg =>
          simp only [Message.intent]
          rcases valid : validConfig w env.now msg with _ | ⟨key, config, state⟩
          · simp only [commandIntent, AcknowledgesOutOfScope]
            rcases ack : acknowledgeCommand w msg with _ | ⟨key, command⟩
            · simp
            · have unadmitted : ∀ d, ¬ Event.admits w d world
                  (env, .handle (.phoebus topic msg)) = true := by
                simp [Event.admits, Event.config, valid]
              by_cases policy : (ObservedStatePolicy.mk
                  (world.alarmState key.device)).suppressesIncoming ⟨.acknowledged, none⟩ = true
              · simp [Intent.suppressed, policy]
              · simp [Intent.suppressed, policy, Outbound.device, unadmitted]
          · have notAck : ¬ AcknowledgesOutOfScope w world (.handle (.phoebus topic msg)) := by
              rintro ⟨key', command, ack, _⟩
              rw [acknowledge_excludes_config ack] at valid
              cases valid
            simp only [notAck, not_false_eq_true, iff_true, Option.elim_some]
            intro out member
            split_ifs at member with suppressed
            · cases member
            · simp only [configIntent, Option.toList_some, List.mem_singleton] at member
              subst member
              right
              have mirrored : (ObservedStatePolicy.mk
                  (world.alarmState key.device)).suppressesIncoming state = false := by
                simpa [configIntent, Intent.suppressed] using suppressed
              simp [Event.admits, Event.config, valid, Outbound.device, mirrored]

/-- Startup on any records and then any messages: every call is for a device in scope exactly if
no acknowledge command that is let through is for a device out of scope. -/
theorem acts_only_in_scope_iff (records : List (Env × String × StringMessage))
    (messages : List (Env × Message)) :
    let events := startupThenRuntime records messages
    (∀ before e, before ++ [e] <+: events →
        ActsInScope w publishers (World.empty.run w publishers before) e) ↔
      ∀ before e, before ++ [e] <+: events →
        ¬ AcknowledgesOutOfScope w (World.empty.run w publishers before) e.2 := by
  intro events
  simp only [acts_in_scope_step_iff]

end

section
open PlainWire

/-- The first message is an acknowledge command of a device that no config was ever read for. -/
theorem unknown_device_acknowledged : ¬ ∀ (publishers : List String)
    (records : List (Env × String × StringMessage)) (messages : List (Env × Message)),
    let events := startupThenRuntime records messages
    ∀ before e, before ++ [e] <+: events →
      ActsInScope wire publishers (World.empty.run wire publishers before) e := by
  intro claim
  have acts := claim publishers [] [(env, .phoebus "plantCommand" (commandMessage "pump"))] []
    (env, .handle (.phoebus "plantCommand" (commandMessage "pump"))) (List.prefix_refl _)
  have called : (.call "pump" (.acknowledge [epicsName "pump"] "operator")) ∈
      World.empty.callsOn wire publishers
        (env, .handle (.phoebus "plantCommand" (commandMessage "pump"))) := by decide +kernel
  have inScope := acts _ called
  revert inScope
  unfold World.inScope
  decide +kernel

end

end AlarmSync
