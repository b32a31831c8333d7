import AlarmSync.Atomic
import AlarmSync.PlainWire

/-! How a device comes out of bypass when the handlers interleave. A handler looks at the
entry of its device once and records later; the law holds as long as no bypass is recorded
in between, under an acknowledgement that the earlier look has let through. -/
namespace AlarmSync
open EffectProgram

variable {Value ι : Type}

/-- What a look at an entry says about an acknowledgement: it is not forbidden. -/
def notBypassed (observed : Option CachedState) : Bool := !observed.any (·.state == .bypassed)

def World.free (d : String) (world : World Value) : Bool := notBypassed (world.alarmState d)

/-- Only a bypass or an unbypass is recorded for `d`, unless `d` is known to be free. -/
def bypassGuard (d : String) : Contract (effects Value) Bool where
  may _ _ _ := True
  ok free
    | .recordAlarmState device state => device = d → state.Enablement ∨ free = true
    | .recordEvidence .. => False
    | _ => True
  step free
    | .readAlarmState device, observed => if device = d then notBypassed observed else free
    | .recordAlarmState device state, _ => if device = d then notBypassed (some state) else free
    | _, _ => free

/-- An acknowledgement of `d` is let through and still to be recorded: the program may record
it without another look at the entry. -/
inductive Pending {α : Type} (d : String) : Handler Value α → Prop
  | record {state : CachedState} {next : Unit → Handler Value α} (other : ¬ state.Enablement) :
      Pending d (.perform (.recordAlarmState d state) next)
  | later {o : Op Value} {next : o.Answer → Handler Value α} (answer : o.Answer)
      (unread : o ≠ .readAlarmState d) (rest : Pending d (next answer)) :
      Pending d (.perform o next)

theorem not_pending_idle {α : Type} {d : String} {p : Handler Value α} (idle : p.busy = false) :
    ¬ Pending d p := by
  obtain ⟨a, rfl⟩ := Program.eq_done_of_idle idle
  rintro ⟨⟩

def Op.acknowledges (d : String) (o : Op Value) : Prop :=
  ∃ state, o = .recordAlarmState d state ∧ ¬ state.Enablement

theorem not_pending_avoids {α : Type} {d : String} {p : Handler Value α}
    (never : p.Avoids (Op.acknowledges d)) : ¬ Pending d p := by
  intro pending
  induction pending with
  | record other => exact never.1 ⟨_, rfl, other⟩
  | later answer _ _ ih => exact ih (never.2 answer trivial)

theorem enablement_or_notBypassed {observed : Option CachedState} {state : CachedState}
    (policy : (ObservedStatePolicy.mk observed).suppressesIncoming state = false) :
    state.Enablement ∨ notBypassed observed = true := by
  by_cases free : notBypassed observed = true
  · exact .inr free
  · left
    by_contra other
    obtain ⟨o, seen, bypassed⟩ : ∃ o, observed = some o ∧ o.state = .bypassed := by
      cases observed with
      | none => simp [notBypassed] at free
      | some o => exact ⟨o, rfl, by simpa [notBypassed] using free⟩
    have forbidden : isTransitionForbidden o state = true :=
      (isTransitionForbidden_iff o state).mpr
        ⟨bypassed, fun same => other (.inl same), fun same => other (.inr same)⟩
    have suppressed := (suppressesIncoming_iff observed state).mpr (.inr ⟨o, seen, forbidden⟩)
    rw [policy] at suppressed
    cases suppressed

section
variable {d : String} {free : Bool}

theorem convey_guarded {final : Bool → Prop} {out : Option Outbound} {device : String}
    {state : CachedState} (ends : ∀ free, final free)
    (allowed : device = d → state.Enablement ∨ free = true) :
    (convey out device state : Handler Value Unit).Meets (bypassGuard d) (fun _ => final) free := by
  cases out with
  | none => exact ⟨allowed, fun _ _ => ends _⟩
  | some out => exact ⟨trivial, fun _ _ => ⟨allowed, fun _ _ => ends _⟩⟩

theorem handler_guarded [DecidableEq Value] (w : Wire Value)
    (publishers : List String) (m : Message) : (m.handler w publishers).Meets (bypassGuard d)
    (fun _ _ => True) free := by
  have looked : ∀ {device observed state free},
      (ObservedStatePolicy.mk observed).suppressesIncoming state = false → device = d →
      state.Enablement ∨
        (bypassGuard d).step free (.readAlarmState device : Op Value) observed = true := by
    rintro device observed state free policy rfl
    simpa [bypassGuard] using enablement_or_notBypassed policy
  cases m with
  | controls msg =>
      apply Controls.meets_processRuntimeMessage trivial
      intro alarm _ _
      refine ⟨trivial, fun observed _ => ⟨trivial, fun known _ => ⟨trivial, ?_⟩⟩⟩
      intro pvMetadata operation _ _ policy
      exact convey_guarded (fun _ => trivial) (looked policy)
  | phoebus topic msg =>
      apply Monitor.meets_processRuntimeMessage fun _ => trivial
      · intro key _
        refine ⟨trivial, fun observed _ => ⟨trivial, ?_⟩⟩
        intro command _ policy
        exact convey_guarded (fun _ => trivial) (looked policy)
      · intro key config _ _
        refine ⟨trivial, fun known _ => ⟨trivial, fun observed _ => ⟨trivial, fun now _ => ?_⟩⟩⟩
        have updated : ∀ free, (Handler.updateMetadata key.device (configMetadata topic known key
            config)).Meets (bypassGuard d) (fun _ _ => True) free :=
          fun _ => ⟨trivial, fun _ _ => trivial⟩
        exact
          { malformed := fun _ _ => trivial
            duplicate := fun _ _ _ _ => trivial
            unchanged := fun _ _ _ => updated _
            mirrored := fun state decoded _ => convey_guarded updated fun _ =>
              .inl (Config.asCachedState_enablement decoded) }

theorem config_unacknowledging [DecidableEq Value] (w : Wire Value) (publishers : List String)
    {topic : String} {msg : StringMessage} (noCommand : keyOf .command msg = none) :
    ((Message.phoebus topic msg).handler w publishers).Avoids (Op.acknowledges d) := by
  apply Monitor.meets_processRuntimeMessage fun _ => trivial
  · intro key keyed
    rw [noCommand] at keyed
    cases keyed
  · intro key config _ _
    have updated : ∀ known, (Handler.updateMetadata key.device (configMetadata topic known key
        config)).Avoids (Op.acknowledges d) := by
      refine fun known => ⟨?_, fun _ _ => trivial⟩
      rintro ⟨_, ⟨⟩, _⟩
    refine ⟨?_, fun known _ => ⟨?_, fun observed _ => ⟨?_, fun now _ => ?_⟩⟩⟩
    · rintro ⟨_, ⟨⟩, _⟩
    · rintro ⟨_, ⟨⟩, _⟩
    · rintro ⟨_, ⟨⟩, _⟩
    · exact
        { malformed := fun _ _ => trivial
          duplicate := fun _ _ _ _ => trivial
          unchanged := fun _ _ _ => updated known
          mirrored := fun state decoded _ => by
            refine ⟨?_, fun _ _ => ⟨?_, fun _ _ => updated known⟩⟩
            · rintro ⟨_, ⟨⟩, _⟩
            · rintro ⟨_, same, other⟩
              cases same
              exact other (Config.asCachedState_enablement decoded) }

variable {α : Type} {p : Handler Value α}

theorem guarded_free (meets : p.Meets (bypassGuard d) (fun _ _ => True) free) :
    p.Meets (bypassGuard d) (fun _ _ => True) true := by
  refine meets.refine (fun free free' => free = true → free' = true) ?_
    (fun _ _ => trivial) (fun _ => rfl)
  intro free free' o weaker ok
  constructor
  · cases o with
    | recordAlarmState device state => exact fun same => (ok same).imp_right weaker
    | recordEvidence => exact ok
    | _ => trivial
  · intro answer _
    refine ⟨trivial, ?_⟩
    cases o with
    | readAlarmState device =>
        intro free
        by_cases same : device = d <;> simp_all [bypassGuard]
    | recordAlarmState device state =>
        intro free
        by_cases same : device = d <;> simp_all [bypassGuard]
    | _ => exact weaker

theorem guarded_bypassed (meets : p.Meets (bypassGuard d) (fun _ _ => True) true)
    (notPending : ¬ Pending d p) : p.Meets (bypassGuard d) (fun _ _ => True) false := by
  induction p with
  | done a => trivial
  | perform o next ih =>
      obtain ⟨ok, rest⟩ := meets
      have later : ∀ answer, o ≠ .readAlarmState d → ¬ Pending d (next answer) :=
        fun answer unread pending => notPending (.later answer unread pending)
      cases o with
      | readAlarmState device =>
          refine ⟨trivial, ?_⟩
          intro observed relied
          by_cases same : device = d
          · simpa [bypassGuard, same] using rest observed relied
          · have unread : Op.readAlarmState device ≠ (Op.readAlarmState d : Op Value) := by
              simpa using same
            have continued := ih observed (by simpa [bypassGuard, same] using rest observed relied)
              (later observed unread)
            simpa [bypassGuard, same] using continued
      | recordAlarmState device state =>
          refine ⟨?_, ?_⟩
          · rintro rfl
            by_contra other
            exact notPending (.record (fun enablement => other (.inl enablement)))
          · intro answer relied
            by_cases same : device = d
            · simpa [bypassGuard, same] using rest answer relied
            · have continued := ih answer (by simpa [bypassGuard, same] using rest answer relied)
                (later answer (by simp))
              simpa [bypassGuard, same] using continued
      | recordEvidence device state => exact ok.elim
      | _ =>
          exact ⟨trivial, fun answer relied => ih answer (rest answer relied)
            (later answer (by simp))⟩

end

theorem World.free_effect {d : String} {world world' : World Value} {o : Op Value}
    {answer : o.Answer} (ok : (bypassGuard d).ok (world.free d) o)
    (effect : World.Effect o world answer world') :
    world'.free d = (bypassGuard d).step (world.free d) o answer := by
  obtain ⟨answered, rfl⟩ := effect
  unfold free
  rw [alarmState_after]
  cases o with
  | readAlarmState device =>
      by_cases same : device = d
      · subst same
        have known : answer = world.alarmState device := answered
        simp [bypassGuard, known]
      · simp [bypassGuard, same]
  | recordAlarmState device state =>
      by_cases same : d = device
      · simp [bypassGuard, same]
      · simp [bypassGuard, same, Ne.symm same]
  | recordEvidence device state => exact ok.elim
  | _ => rfl

section
variable [DecidableEq ι] [DecidableEq Value] {w : Wire Value} {publishers : List String}
  {topics : ι → String} {d : String} {P Q R : Tasks Value ι} {moves : List (Act Value ι)}
  {move : Act Value ι}

/-- No bypass of `d` is recorded while another task has an acknowledgement of `d` pending. -/
def NotOvertaken (d : String) (Q : Tasks Value ι) : Act Value ι → Prop
  | .perform i (.recordAlarmState device state) _ => device = d → state.state = .bypassed →
      ∀ j, j ≠ i → ¬ Pending d (Q.task j)
  | _ => True

theorem guarded_run (idle : Idle P)
    (run : (synchronizer w publishers topics).Trace (NotOvertaken d) P moves Q)
    (worker : Worker ι) : (Q.task worker).Meets (bypassGuard d) (fun _ _ => True)
    (Q.shared.free d) := by
  let A : Worker ι → World Value → Handler Value (Option SyncOutcome) → Prop := fun _ world p =>
    p.Meets (bypassGuard d) (fun _ _ => True) (world.free d)
  refine run.assertion (A := A) ?_ ?_ ?_ ?_ worker
  · intro i
    obtain ⟨a, done⟩ := Program.eq_done_of_idle (idle i)
    rw [done]
    trivial
  · exact fun _ _ _ m _ => handler_guarded w publishers _
  · rintro i world o next answer world' ⟨ok, rest⟩ effect
    have continued := rest answer trivial
    rw [← World.free_effect ok effect] at continued
    exact continued
  · intro Q i j o next answer world' holds other ready clear effect
    have performs := holds i
    rw [ready] at performs
    have moved := World.free_effect performs.1 effect
    have before := holds j
    show (Q.task j).Meets (bypassGuard d) _ _
    by_cases same : world'.free d = Q.shared.free d
    · rw [same]
      exact before
    · cases free : world'.free d with
      | true => exact guarded_free before
      | false =>
          have wasFree : Q.shared.free d = true := by
            cases was : Q.shared.free d with
            | true => rfl
            | false => exact absurd (free.trans was.symm) same
          refine guarded_bypassed (guarded_free before) ?_
          rw [free, wasFree] at moved
          obtain ⟨answered, rfl⟩ := effect
          cases o with
          | recordAlarmState device state =>
              by_cases written : device = d
              · refine clear written ?_ j (Ne.symm other)
                simpa [bypassGuard, written, notBypassed] using moved
              · simp [bypassGuard, written] at moved
          | readAlarmState device => simp [World.free, World.alarmState_after] at same
          | recordEvidence device state => exact performs.1.elim
          | _ => simp [bypassGuard] at moved

/-- Bypass is left only explicitly, as long as no bypass is recorded over a pending
acknowledgement: a bypassed entry goes to a bypass or to an unbypass. -/
theorem bypass_left_explicitly (idle : Idle P)
    (run : (synchronizer w publishers topics).Trace (NotOvertaken d) P moves Q)
    (step : (synchronizer w publishers topics).Step Q move R) {x : CachedState}
    (entry : Q.shared.alarmState d = some x) (bypassed : x.state = .bypassed) :
    ∃ y, R.shared.alarmState d = some y ∧ (y.state = .bypassed ∨ y.state = .unbypassed) := by
  have guarded := guarded_run idle run
  cases step with
  | take m idle => exact ⟨x, entry, .inl bypassed⟩
  | @perform world world' t i o next answer ready effect =>
      obtain ⟨ok, _⟩ : (Program.perform o next).Meets (bypassGuard d) (fun _ _ => True)
        (world.free d) :=
        ready ▸ guarded i
      have entry : world.alarmState d = some x := entry
      have notFree : world.free d = false := by simp [World.free, notBypassed, entry, bypassed]
      obtain ⟨_, rfl⟩ := effect
      show ∃ y, (world.after o).alarmState d = some y ∧ _
      rw [World.alarmState_after]
      cases o with
      | recordAlarmState device state =>
          by_cases same : d = device
          · refine ⟨state, by simp [same], ?_⟩
            rcases ok same.symm with enablement | free
            · exact enablement
            · rw [notFree] at free
              cases free
          · exact ⟨x, by simpa [same] using entry, .inl bypassed⟩
      | recordEvidence device state => exact ok.elim
      | _ => exact ⟨x, entry, .inl bypassed⟩

end

section
open PlainWire

abbrev plant : Machine (effects FlatJson.Scalar) (Worker Bool) StringMessage (World FlatJson.Scalar)
    (Option SyncOutcome) := synchronizer wire publishers monitored

theorem notOvertaken_of_unpending {d : String} {P : Tasks FlatJson.Scalar Bool} {i : Worker Bool}
    (others : ∀ j, j ≠ i → ¬ Pending d (P.task j)) (o : Op FlatJson.Scalar)
    (world : World FlatJson.Scalar) (p : Handler FlatJson.Scalar (Option SyncOutcome))
    (answer : o.Answer) :
    NotOvertaken d ⟨world, Function.update P.task i p⟩ (.perform i o answer) := by
  cases o with
  | recordAlarmState device state =>
      intro _ _ j other pending
      simp only [Function.update_of_ne other] at pending
      exact others j other pending
  | _ => trivial

def bypassedPlant : Tasks FlatJson.Scalar Bool :=
  ((waiting (started "true")).hand plant .controls (statusMessage "pump" "BYPASSED")).advance
    env.answer .controls 4

/-- A monitor has seen the bypass, and is about to end it for a config. -/
def settingPlant : Tasks FlatJson.Scalar Bool :=
  (bypassedPlant.hand plant (.monitor false) (configMessage "pump" "true")).advance
    env.answer (.monitor false) 3

/-- Meanwhile an unbypass has been published, and is about to be recorded. -/
def unbypassingPlant : Tasks FlatJson.Scalar Bool :=
  (settingPlant.hand plant .controls (statusMessage "pump" "UNBYPASSED")).advance
    env.answer .controls 3

theorem settingPlant_unpending : ¬ Pending "pump" (settingPlant.task (.monitor false)) := by
  have noCommand : keyOf .command (configMessage "pump" "true") = none := by decide +kernel
  have config : (plant.handler (.monitor false) (configMessage "pump" "true")).Avoids
      (Op.acknowledges "pump") := config_unacknowledging wire publishers noCommand
  exact not_pending_avoids (config.advance env.answer 3 _)

theorem unbypassingPlant_leaves_bypass : (unbypassingPlant.task (.monitor false)).busy = true ∧
    ∃ y, (unbypassingPlant.advance env.answer .controls 1).shared.alarmState "pump" = some y ∧
      (y.state = .bypassed ∨ y.state = .unbypassed) := by
  have mirroring : ∀ j, j ≠ .controls →
      ¬ Pending "pump" (((waiting (started "true")).hand plant .controls
        (statusMessage "pump" "BYPASSED")).task j) := by
    rintro (_ | _) other
    · exact absurd rfl other
    · exact not_pending_idle rfl
  have setting : ∀ j, j ≠ .monitor false →
      ¬ Pending "pump" ((bypassedPlant.hand plant (.monitor false)
        (configMessage "pump" "true")).task j) := by
    rintro (_ | _ | _) other
    · exact not_pending_idle (by decide +kernel)
    · exact absurd rfl other
    · exact not_pending_idle rfl
  have unbypassing : ∀ j, j ≠ .controls →
      ¬ Pending "pump" ((settingPlant.hand plant .controls
        (statusMessage "pump" "UNBYPASSED")).task j) := by
    rintro (_ | _ | _) other
    · exact absurd rfl other
    · exact settingPlant_unpending
    · exact not_pending_idle rfl
  have bypass := Machine.trace_hand (K := plant) (C := NotOvertaken "pump")
    (P := waiting (started "true")) (i := .controls) (statusMessage "pump" "BYPASSED") trivial rfl
  obtain ⟨mirror, mirrored⟩ := Machine.trace_advance (K := plant) (C := NotOvertaken "pump")
    (P := (waiting (started "true")).hand plant .controls (statusMessage "pump" "BYPASSED"))
    env.answer_effect .controls 4 fun o s _ => notOvertaken_of_unpending mirroring o s _ _
  have config := Machine.trace_hand (K := plant) (C := NotOvertaken "pump") (P := bypassedPlant)
    (i := .monitor false) (configMessage "pump" "true") trivial rfl
  obtain ⟨look, looked⟩ := Machine.trace_advance (K := plant) (C := NotOvertaken "pump")
    (P := bypassedPlant.hand plant (.monitor false) (configMessage "pump" "true"))
    env.answer_effect (.monitor false) 3 fun o s _ => notOvertaken_of_unpending setting o s _ _
  have unbypass := Machine.trace_hand (K := plant) (C := NotOvertaken "pump") (P := settingPlant)
    (i := .controls) (statusMessage "pump" "UNBYPASSED") trivial (by decide +kernel)
  obtain ⟨send, sent⟩ := Machine.trace_advance (K := plant) (C := NotOvertaken "pump")
    (P := settingPlant.hand plant .controls (statusMessage "pump" "UNBYPASSED"))
    env.answer_effect .controls 3 fun o s _ => notOvertaken_of_unpending unbypassing o s _ _
  obtain ⟨o, record⟩ := Machine.step_advance (K := plant) (P := unbypassingPlant) (i := .controls)
    env.answer_effect (by decide +kernel)
  have run := ((bypass.append mirrored).append (config.append looked)).append (unbypass.append sent)
  refine ⟨by decide +kernel, ?_⟩
  exact bypass_left_explicitly (fun _ => rfl) run record (x := .bypassed) (by decide +kernel) rfl

def acknowledgingPlant : Tasks FlatJson.Scalar Bool :=
  ((waiting (started "true")).hand plant (.monitor true) (commandMessage "pump")).advance
    env.answer (.monitor true) 1

/-- Once a monitor has let an acknowledgement through, the other one handles a bypass; the
acknowledgement is sent nevertheless. -/
def overtakenPlant : Tasks FlatJson.Scalar Bool :=
  ((acknowledgingPlant.hand plant (.monitor false) (configMessage "pump" "false")).advance
    env.answer (.monitor false) 6).advance env.answer (.monitor true) 1

/-- An acknowledgement ends a bypass that was recorded after the look that let it through. -/
theorem acknowledgement_overtakes_bypass : ¬ ∀ (P Q R : Tasks FlatJson.Scalar Bool) (moves : List _)
    (move : Act FlatJson.Scalar Bool) (x : CachedState),
    Reached wire publishers monitored P → Idle P → plant.Trace (fun _ _ => True) P moves Q →
    plant.Step Q move R → Q.shared.alarmState "pump" = some x → x.state = .bypassed →
    ∃ y, R.shared.alarmState "pump" = some y ∧ (y.state = .bypassed ∨ y.state = .unbypassed) := by
  intro law
  have acknowledge := Machine.trace_hand (K := plant) (C := fun _ _ => True)
    (P := waiting (started "true")) (i := .monitor true) (commandMessage "pump") trivial rfl
  obtain ⟨look, looked⟩ := Machine.trace_advance (K := plant) (C := fun _ _ => True)
    (P := (waiting (started "true")).hand plant (.monitor true) (commandMessage "pump"))
    env.answer_effect (.monitor true) 1 (fun _ _ _ => trivial)
  have bypass := Machine.trace_hand (K := plant) (C := fun _ _ => True) (P := acknowledgingPlant)
    (i := .monitor false) (configMessage "pump" "false") trivial rfl
  obtain ⟨handle, handled⟩ := Machine.trace_advance (K := plant) (C := fun _ _ => True)
    (P := acknowledgingPlant.hand plant (.monitor false) (configMessage "pump" "false"))
    env.answer_effect (.monitor false) 6 (fun _ _ _ => trivial)
  obtain ⟨send, sent⟩ := Machine.trace_advance (K := plant) (C := fun _ _ => True)
    (P := (acknowledgingPlant.hand plant (.monitor false) (configMessage "pump" "false")).advance
      env.answer (.monitor false) 6) env.answer_effect (.monitor true) 1 (fun _ _ _ => trivial)
  obtain ⟨o, record⟩ := Machine.step_advance (K := plant) (P := overtakenPlant)
    (i := .monitor true) env.answer_effect (by decide +kernel)
  have run := ((acknowledge.append looked).append (bypass.append handled)).append sent
  obtain ⟨y, entry, explicit⟩ := law _ _ _ _ _ .bypassed (.of_reachable ⟨_, rfl⟩)
    (fun _ => rfl) run record (by decide +kernel) rfl
  have lost : (overtakenPlant.advance env.answer (.monitor true) 1).shared.alarmState "pump" =
      some ⟨.acknowledged, none⟩ := by decide +kernel
  rw [lost] at entry
  cases entry
  rcases explicit with same | same <;> cases same

end

end AlarmSync
