import AlarmSync.CivilWire
import AlarmSync.Mirror
import AlarmSync.Scope

/-! Which entries carry a wake: only those of a bypass, unless a status brings one with it. -/
namespace AlarmSync

variable {Value : Type}

def CachedState.WellTimed (x : CachedState) : Prop := x.wake ≠ none → x.state = .bypassed

def World.WellTimed (world : World Value) : Prop := ∀ d x, world.alarmState d = some x → x.WellTimed

theorem CachedState.wellTimed_unsnoozed (state : State) : CachedState.WellTimed ⟨state, none⟩ :=
  fun wake => absurd rfl wake

theorem NormalizedEnablement.asCachedState_wellTimed (now : Int) (e : NormalizedEnablement) :
    (e.asCachedState now).WellTimed := by
  cases e with
  | active => exact CachedState.wellTimed_unsnoozed _
  | bypassed => exact CachedState.wellTimed_unsnoozed _
  | snoozedUntil dt =>
      simp only [asCachedState, CachedState.ofDateTime]
      split
      · exact fun _ => rfl
      · exact CachedState.wellTimed_unsnoozed _

theorem validConfig_wellTimed {w : Wire Value} {now : Int} {msg : StringMessage} {key : Key}
    {config : Config Value} {state : CachedState}
    (valid : validConfig w now msg = some (key, config, state)) : state.WellTimed := by
  obtain ⟨e, _, rfl⟩ := Config.asCachedState_eq_ok_iff.mp (validConfig_eq_some.mp valid).2.2
  exact e.asCachedState_wellTimed now

/-- An EPICS acknowledgement or unbypass with a wake, of a device in scope whose entry lets it
through. -/
def Mistimed (w : Wire Value) (world : World Value) : Event → Prop
  | .handle (.controls msg) =>
      ∃ alarm, w.statusFromStr msg.value = some alarm ∧ alarm.source = .epics ∧
      (alarm.state = .acknowledged ∨ alarm.state = .unbypassed) ∧ alarm.wake ≠ none ∧
      world.inScope alarm.device ∧
      (ObservedStatePolicy.mk (world.alarmState alarm.device)).suppressesIncoming
      (.ofStatus alarm) = false
  | _ => False

section
variable [DecidableEq Value] (w : Wire Value) (publishers : List String)

theorem wellTimed_step_iff {world : World Value} (wellTimed : world.WellTimed) (e : Env × Event) :
    (world.step w publishers e).WellTimed ↔ ¬ Mistimed w world e.2 := by
  constructor
  · obtain ⟨env, event⟩ := e
    intro after mistimed
    cases event with
    | hydrate topic msg => exact mistimed
    | handle m =>
        cases m with
        | phoebus topic msg => exact mistimed
        | controls msg =>
            obtain ⟨alarm, read, source, state, wake, inScope, policy⟩ := mistimed
            obtain ⟨pvMetadata, known⟩ := Option.isSome_iff_exists.mp inScope
            obtain ⟨operation, mirrored, notBypassed⟩ : ∃ operation,
                Controls.stateToOperation alarm.state = some operation ∧
                alarm.state ≠ .bypassed := by
              rcases state with h | h <;> simp [h, Controls.stateToOperation]
            have carried : controlsIntent w publishers world.metadata msg = some ⟨alarm.device,
                .ofStatus alarm, controlsOutbound w publishers alarm operation pvMetadata⟩ :=
              controlsIntent_eq_some.mpr ⟨alarm, pvMetadata, operation, read, source,
                known, mirrored, rfl⟩
            have entry :
                (world.step w publishers (env, .handle (.controls msg))).alarmState alarm.device =
                  some (.ofStatus alarm) := by
              simp [(step_handle w publishers env world _).1, Message.intent, carried,
                World.alarmState_observe, Intent.suppressed, policy]
            exact notBypassed (after _ _ entry wake)
  · intro timely d x after
    rcases alarmState_step_cases w publishers d after with before | written
    · exact wellTimed d x before
    · cases written with
      | config configured _ =>
          obtain ⟨now, msg, valid⟩ := Event.config_eq_some configured
          exact validConfig_wellTimed valid
      | evidence severity => exact CachedState.wellTimed_unsnoozed _
      | command => exact CachedState.wellTimed_unsnoozed _
      | @status msg alarm operation handled read source device inScope mirrored policy =>
          subst device
          intro wake
          by_contra notBypassed
          have state : alarm.state = .acknowledged ∨ alarm.state = .unbypassed := by
            cases state : alarm.state with
            | acknowledged => exact .inl rfl
            | unbypassed => exact .inr rfl
            | bypassed => exact absurd state notBypassed
            | _ => simp [state, Controls.stateToOperation] at mirrored
          rw [handled] at timely
          exact timely ⟨alarm, read, source, state, wake, inScope, policy⟩

/-- From empty caches, through any startup and any messages: every entry has a wake only if it is
a bypass, exactly if no acknowledgement or unbypass that has a wake is let through. -/
theorem wake_only_if_bypassed_iff (records : List (Env × String × StringMessage))
    (messages : List (Env × Message)) :
    let events := startupThenRuntime records messages
    (∀ before, before <+: events → (World.empty.run w publishers before).WellTimed) ↔
      ∀ before e, before ++ [e] <+: events →
      ¬ Mistimed w (World.empty.run w publishers before) e.2 := by
  intro events
  have initial : (World.empty : World Value).WellTimed := fun d x entry => by cases entry
  exact Labelled.prefix_invariant_iff initial
    (fun world e wellTimed => wellTimed_step_iff w publishers wellTimed e) events

end

section
open CivilWire
open PlainWire (publishers env configMessage)

/-- An unbypass that still has the wake of the snooze it ends. -/
theorem unbypass_keeps_wake :
    ¬ ∀ (publishers : List String) (records : List (Env × String × StringMessage))
    (messages : List (Env × Message)),
    let events := startupThenRuntime records messages
    ∀ before, before <+: events → (World.empty.run wire publishers before).WellTimed := by
  intro claim
  have wellTimed := claim publishers [(env, "plant", configMessage "pump" "false")]
    [(env, .controls (statusMessage "pump" "UNBYPASSED" "1722470399" "0"))] _ (List.prefix_refl _)
    "pump" ⟨.unbypassed, some ⟨1722470399, 0⟩⟩ (by decide +kernel)
  exact absurd (wellTimed (by decide)) (by decide)

end

end AlarmSync
