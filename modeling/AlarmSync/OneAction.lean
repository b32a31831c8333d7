import AlarmSync.Echo
import AlarmSync.Register
import AlarmSync.BypassLaw

/-! One action of an operator on one device, and the calls made for it while the handlers
interleave. The echo of a call is dropped because the state is recorded by then; between the
send and the record it is not. -/
namespace AlarmSync
open EffectProgram

variable {Value ι : Type}

/-- The operations that make a call for `d` or write its entry. -/
def Op.concerns (d : String) : Op Value → Bool
  | send out => out.device == d
  | recordAlarmState device _ | recordEvidence device _ => device == d
  | _ => false

/-- What a handler may still do for `d`: send once and record `x`; record `x` now that it has sent;
nothing; or nothing provided that it finds `x` recorded. -/
inductive Stage where
  | free | owing | muted | reading
  deriving DecidableEq

def Stage.Paid (stage : Stage) : Prop := stage ≠ .owing

def mirroring (d : String) (horizon : Int) (x : CachedState) : Contract (effects Value) Stage where
  may stage
    | .readAlarmState device, answer => stage = .reading → device = d → answer = some x
    | .readClock, now => @LE.le Int _ now horizon
    | _, _ => True
  ok stage o :=
    match stage with
    | .free => o.concerns d = true → o = .recordAlarmState d x ∨ ∃ out, o = .send out
    | .owing => o = .recordAlarmState d x
    | .muted | .reading => o.concerns d = false
  step stage o _ :=
    match stage with
    | .free => if o.concerns d then (match o with | .send _ => .owing | _ => .muted) else .free
    | .owing => .muted
    | .muted => .muted
    | .reading => .reading

section
variable {d : String} {horizon : Int} {x : CachedState} {stage : Stage} {α : Type}

/-- The rest of a handler at a stage; what it has sent, it records. -/
def At (d : String) (horizon : Int) (x : CachedState) (stage : Stage)
    (p : Handler Value α) : Prop :=
  p.Meets (mirroring d horizon x) (fun _ => Stage.Paid) stage

theorem unconcerned_ok {o : Op Value} (notOwing : stage.Paid) (quiet : o.concerns d = false) :
    (mirroring d horizon x).ok stage o ∧
    ∀ answer, (mirroring d horizon x).step stage o answer = stage := by
  cases stage with
  | free => simp [mirroring, quiet]
  | owing => exact absurd rfl notOwing
  | muted => exact ⟨quiet, fun _ => rfl⟩
  | reading => exact ⟨quiet, fun _ => rfl⟩

theorem step_record (state : CachedState) : (mirroring d horizon x).step .free
    (.recordAlarmState d state : Op Value) = fun _ => .muted := by
  simp [mirroring, Op.concerns]

theorem step_send {out : Outbound} (about : out.device = d) :
    (mirroring d horizon x).step .free (.send out : Op Value) = fun _ => .owing := by
  simp [mirroring, Op.concerns, about]

theorem meets_unconcerned {post : α → Stage → Prop} {o : Op Value}
    {next : o.Answer → Handler Value α} (notOwing : stage.Paid) (quiet : o.concerns d = false)
    (rest : ∀ answer, (mirroring d horizon x).may stage o answer →
      (next answer).Meets (mirroring d horizon x) post stage) :
    (Program.perform o next).Meets (mirroring d horizon x) post stage := by
  obtain ⟨ok, same⟩ := unconcerned_ok notOwing quiet
  refine ⟨ok, ?_⟩
  intro answer relied
  rw [same]
  exact rest answer relied

theorem convey_mirroring {final : Stage → Prop} {out : Option Outbound} {device : String}
    {state : CachedState} (notOwing : stage.Paid) (forD : device = d → state = x ∧ stage = .free)
    (labelled : ∀ call, out = some call → call.device = device)
    (ends : ∀ stage, stage.Paid → final stage) :
    (convey out device state : Handler Value Unit).Meets (mirroring d horizon x)
      (fun _ => final) stage := by
  by_cases same : device = d
  · obtain ⟨rfl, rfl⟩ := forD same
    subst same
    have muted : Stage.muted.Paid := by simp [Stage.Paid]
    cases out with
    | none =>
        refine ⟨fun _ => .inl rfl, fun _ _ => ?_⟩
        rw [step_record]
        exact ends .muted muted
    | some call =>
        refine ⟨fun _ => .inr ⟨call, rfl⟩, fun _ _ => ?_⟩
        rw [step_send (labelled call rfl)]
        exact ⟨rfl, fun _ _ => ends .muted muted⟩
  · have other : (device == d) = false := by simpa using same
    have recorded : (Handler.recordAlarmState device state : Handler Value Unit).Meets
        (mirroring d horizon x) (fun _ => final) stage :=
          meets_unconcerned notOwing other fun _ _ => ends stage notOwing
    cases out with
    | none => exact recorded
    | some call =>
        refine meets_unconcerned notOwing ?_ fun _ _ => recorded
        rw [Op.concerns, labelled call rfl, other]

theorem handler_mirroring [DecidableEq Value] {w : Wire Value} {publishers : List String}
    {topics : ι → String} (notOwing : stage.Paid) (worker : Worker ι) {msg : StringMessage}
    (only : (worker.receives topics msg).Only w horizon fun i => i.device = d →
      i.state = x ∧ stage ≠ .muted) :
    At d horizon x stage ((worker.receives topics msg).handler w publishers) := by
  -- an unsuppressed intent for `d` is met only by the handler that may send
  have free : ∀ {device : String} {observed : Option CachedState} {state : CachedState},
      (stage = .reading → device = d → observed = some x) →
      (ObservedStatePolicy.mk observed).suppressesIncoming state = false →
      (device = d → state = x ∧ stage ≠ .muted) → device = d → state = x ∧ stage = .free := by
    rintro device observed state given policy means same
    obtain ⟨rfl, notMuted⟩ := means same
    refine ⟨rfl, ?_⟩
    cases stage with
    | free => rfl
    | owing => exact absurd rfl notOwing
    | muted => exact absurd rfl notMuted
    | reading =>
        have suppressed := (suppressesIncoming_iff observed state).mpr (.inl (given rfl same))
        rw [policy] at suppressed
        cases suppressed
  cases worker with
  | controls =>
      apply Controls.meets_processRuntimeMessage notOwing
      intro alarm read source
      refine meets_unconcerned notOwing rfl fun observed given => ?_
      refine meets_unconcerned notOwing rfl fun known _ => ⟨notOwing, ?_⟩
      rintro pvMetadata operation rfl mirrored policy
      refine convey_mirroring notOwing (free given policy ?_) ?_ (fun _ => id)
      · exact only publishers _ horizon (le_refl _) _
          (status_intent pvMetadata read source mirrored)
      · intro call outbound
        obtain ⟨_, _, _, _, _, rfl⟩ := controlsOutbound_eq_some.mp outbound
        rfl
  | monitor j =>
      apply Monitor.meets_processRuntimeMessage fun _ => notOwing
      · intro key _
        refine meets_unconcerned notOwing rfl fun observed given => ⟨notOwing, ?_⟩
        intro command acknowledged policy
        refine convey_mirroring notOwing (free given policy ?_) ?_ (fun _ => id)
        · exact only [] (fun _ => none) horizon (le_refl _) _ (acknowledge_intent acknowledged)
        · rintro call ⟨⟩
          rfl
      · intro key config keyed read
        refine meets_unconcerned notOwing rfl fun known _ => ?_
        refine meets_unconcerned notOwing rfl fun observed given => ?_
        refine meets_unconcerned notOwing rfl fun now clock => ?_
        have updated : ∀ stage, stage.Paid →
            (Handler.updateMetadata key.device (configMetadata (topics j)
            known key config)).Meets (mirroring d horizon x) (fun _ => Stage.Paid) stage :=
          fun stage notOwing => meets_unconcerned notOwing rfl fun _ _ => notOwing
        refine
          { malformed := fun _ _ => notOwing
            duplicate := fun _ _ _ _ => notOwing
            unchanged := fun _ _ _ => updated stage notOwing
            mirrored := fun state decoded policy =>
              convey_mirroring notOwing (free given policy ?_) ?_ updated }
        · exact only [] (fun _ => none) now clock _
            (config_intent (validConfig_eq_some.mpr ⟨keyed, read, decoded⟩))
        · rintro call ⟨⟩
          rfl

variable {p : Handler Value α}

theorem At.of_muted (weaker : stage = .free ∨ stage = .reading) (muted : At d horizon x .muted p) :
    At d horizon x stage p := by
  have paid : stage.Paid := by rcases weaker with rfl | rfl <;> simp [Stage.Paid]
  refine muted.refine (fun before after => before = .muted ∧ after = stage) ?_ ?_ ⟨rfl, rfl⟩
  · rintro _ _ o ⟨rfl, rfl⟩ quiet
    obtain ⟨ok, same⟩ := unconcerned_ok paid quiet
    refine ⟨ok, fun answer relied => ⟨?_, rfl, same answer⟩⟩
    cases o with
    | readAlarmState => rintro ⟨⟩
    | readClock => exact relied
    | _ => trivial
  · rintro _ _ a ⟨_, rfl⟩ _
    exact paid

theorem At.of_avoids (avoids : p.Avoids (fun o : Op Value => o.concerns d = true)) :
    At d horizon x .reading p := by
  refine avoids.refine (fun _ after => after = .reading) ?_ ?_ rfl
  · rintro _ _ o rfl quiet
    exact ⟨Bool.eq_false_iff.mpr quiet, fun _ _ => ⟨trivial, rfl⟩⟩
  · rintro _ _ a rfl _
    simp [Stage.Paid]

theorem unconcerned_entry {o : Op Value} {world : World Value} (quiet : o.concerns d = false) :
    (world.after o).alarmState d = world.alarmState d := by
  rw [World.alarmState_after]
  cases o with
  | recordAlarmState device state =>
      have other : d ≠ device := by
        rintro rfl
        simp [Op.concerns] at quiet
      simp [other]
  | recordEvidence device state =>
      have other : d ≠ device := by
        rintro rfl
        simp [Op.concerns] at quiet
      show (world.recordEvidence device state).alarmState d = _
      unfold World.recordEvidence
      split
      · rfl
      · simp [other]
  | _ => rfl

theorem unconcerned_calls {o : Op Value} (quiet : o.concerns d = false) :
    ∀ out ∈ o.calls, out.device ≠ d := by
  intro out member
  cases o with
  | send call =>
      cases List.mem_singleton.mp member
      simpa [Op.concerns] using quiet
  | _ => cases member

theorem unconcerned_append {o : Op Value} {later : List Outbound}
    (none : ∀ out ∈ later, out.device ≠ d) (quiet : o.concerns d = false) :
    ∀ out ∈ later ++ o.calls, out.device ≠ d := by
  intro out member
  rcases List.mem_append.mp member with before | now
  · exact none out before
  · exact unconcerned_calls quiet out now

def callsAbout (d : String) (calls : List Outbound) : Nat := (calls.filter (·.device = d)).length

theorem callsAbout_none {calls : List Outbound} (none : ∀ out ∈ calls, out.device ≠ d) :
    callsAbout d calls = 0 := by
  rw [callsAbout, List.length_eq_zero_iff, List.filter_eq_nil_iff]
  intro out member
  simpa using none out member

theorem callsAbout_append (before after : List Outbound) :
    callsAbout d (before ++ after) = callsAbout d before + callsAbout d after := by
  simp [callsAbout]

theorem callsAbout_quiet {o : Op Value} (quiet : o.concerns d = false) (later : List Outbound) :
    callsAbout d (later ++ o.calls) = callsAbout d later := by
  rw [callsAbout_append, callsAbout_none (unconcerned_calls quiet), Nat.add_zero]

/-- Nothing but the record is left to do for `d`. -/
def AboutToRecord (d : String) (p : Handler Value α) : Prop :=
  ∃ state next, p = .perform (.recordAlarmState d state) next

theorem At.aboutToRecord (owing : At d horizon x .owing p) : AboutToRecord d p := by
  cases p with
  | done a => exact absurd rfl owing
  | perform o next =>
      obtain ⟨rfl, _⟩ := owing
      exact ⟨x, next, rfl⟩

end

section
variable {w : Wire Value} {publishers : List String} {topics : ι → String}
  {d : String} {horizon : Int} {x : CachedState} {P Q R : Tasks Value ι} {later : List Outbound}
  {worker : Worker ι}

/-- No handler that may still do something for `d` reads its entry while another handler is
between its send for `d` and its record. -/
def Undisturbed (d : String) (Q : Tasks Value ι) : Act Value ι → Prop
  | .perform reader (.readAlarmState device) _ => device = d →
      (Q.task reader).Avoids (fun o : Op Value => o.concerns d = true) ∨
        ∀ other, ¬ AboutToRecord d (Q.task other)
  | _ => True

/-- How far one action has come, with these calls made since. -/
inductive Phase (d : String) (horizon : Int) (x : CachedState) (later : List Outbound)
    (Q : Tasks Value ι) : Prop
  | unsent (actor : Worker ι) (own : At d horizon x .free (Q.task actor))
      (others : ∀ j, j ≠ actor → At d horizon x .muted (Q.task j))
      (none : ∀ out ∈ later, out.device ≠ d)
  | unrecorded (actor : Worker ι) (own : At d horizon x .owing (Q.task actor))
      (others : ∀ j, j ≠ actor → At d horizon x .reading (Q.task j)) (once : callsAbout d later = 1)
  | recorded (entry : Q.shared.alarmState d = some x)
      (all : ∀ j, At d horizon x .reading (Q.task j)) (once : callsAbout d later ≤ 1)

theorem Phase.callsAbout_le (phase : Phase d horizon x later Q) : callsAbout d later ≤ 1 := by
  cases phase with
  | unsent _ _ _ none => simp [callsAbout_none none]
  | unrecorded _ _ _ once => exact once.le
  | recorded _ _ once => exact once

/-- A message of an operator's action: a status in Controls, or a record in Phoebus. -/
def Expresses (w : Wire Value) (d : String) (horizon : Int) (x : CachedState) : Message → Prop
  | .controls msg => Reports w d x msg
  | .phoebus _ msg => Configures w d horizon x msg ∨ x = ⟨.acknowledged, none⟩ ∧
      ∃ key command, acknowledgeCommand w msg = some (key, command) ∧ key.device = d

theorem Expresses.only {m : Message} (expressed : Expresses w d horizon x m) :
    m.Only w horizon fun i => i.device = d ∧ i.state = x := by
  cases m with
  | controls msg => exact reports_only expressed
  | phoebus topic msg =>
      rcases expressed with configured | ⟨rfl, key, command, acknowledged, rfl⟩
      · exact configured.only
      · intro publishers metadata now clock i carried
        rw [acknowledge_intent acknowledged] at carried
        cases carried
        exact ⟨rfl, rfl⟩

theorem At.of_idle {stage : Stage} {p : Handler Value (Option SyncOutcome)} (paid : stage.Paid)
    (idle : p.busy = false) : At d horizon x stage p := by
  obtain ⟨a, rfl⟩ := Program.eq_done_of_idle idle
  exact paid

theorem Delivers.may {o : Op Value} {answer : o.Answer} {earlier : Nat} {stage : Stage}
    (delivered : Delivers w topics d horizon earlier Q (.perform worker o answer))
    (other : stage ≠ .reading) : (mirroring d horizon x).may stage o answer := by
  cases o with
  | readAlarmState => exact fun reading => absurd reading other
  | readClock => exact delivered
  | _ => trivial

variable [DecidableEq ι] [DecidableEq Value]

theorem Phase.take {msg : StringMessage} (phase : Phase d horizon x later Q)
    (step : (synchronizer w publishers topics).Step Q (.take worker msg) R)
    (only : (worker.receives topics msg).Only w horizon fun i => i.device = d →
      i.state = x ∧ ∃ out ∈ later, out.device = d) : Phase d horizon x later R := by
  obtain ⟨⟨a, idle⟩, shared, task⟩ := step.taken
  have reading : At d horizon x .reading ((synchronizer w publishers topics).handler worker msg) :=
    handler_mirroring (by simp [Stage.Paid]) worker
      (only.imp fun i means same => ⟨(means same).1, by simp⟩)
  cases phase with
  | unsent actor own others none =>
      have muted : At d horizon x .muted
          ((synchronizer w publishers topics).handler worker msg) := by
        refine handler_mirroring (by simp [Stage.Paid]) worker (only.imp fun i means same => ?_)
        obtain ⟨_, out, member, about⟩ := means same
        exact absurd about (none out member)
      refine .unsent actor ?_ ?_ none
      · rw [task]
        by_cases same : actor = worker
        · subst same
          rw [Function.update_self]
          exact muted.of_muted (.inl rfl)
        · rw [Function.update_of_ne same]
          exact own
      · rw [task]
        exact (Function.forall_update_iff Q.task fun j p => j ≠ actor → At d horizon x .muted p).mpr
          ⟨fun _ => muted, fun j _ => others j⟩
  | unrecorded actor own others once =>
      have busy : actor ≠ worker := by
        rintro rfl
        rw [idle] at own
        exact absurd rfl own
      refine .unrecorded actor ?_ ?_ once
      · rw [task, Function.update_of_ne busy]
        exact own
      · rw [task]
        exact (Function.forall_update_iff Q.task fun j p => j ≠ actor →
          At d horizon x .reading p).mpr ⟨fun _ => reading, fun j _ => others j⟩
  | recorded entry all once =>
      refine .recorded (shared ▸ entry) ?_ once
      rw [task]
      exact (Function.forall_update_iff Q.task fun _ p => At d horizon x .reading p).mpr
        ⟨reading, fun j _ => all j⟩

section
variable {o : Op Value} {answer : o.Answer} {earlier : Nat} {actor : Worker ι}
  (step : (synchronizer w publishers topics).Step Q (.perform worker o answer) R)
  (delivered : Delivers w topics d horizon earlier Q (.perform worker o answer))

include step delivered

theorem Phase.perform_actor (own : At d horizon x .free (Q.task worker))
    (others : ∀ j, j ≠ worker → At d horizon x .muted (Q.task j))
    (none : ∀ out ∈ later, out.device ≠ d) : Phase d horizon x (later ++ o.calls) R := by
  obtain ⟨next, ready, effect, task⟩ := step.performed
  rw [ready] at own
  obtain ⟨ok, rest⟩ := own
  have rest := rest answer (delivered.may (by simp))
  cases quiet : o.concerns d with
  | false =>
      have free : Stage.free.Paid := by simp [Stage.Paid]
      rw [(unconcerned_ok free quiet).2] at rest
      refine .unsent worker ?_ ?_ (unconcerned_append none quiet)
      · rw [task, Function.update_self]
        exact rest
      · intro j other
        rw [task, Function.update_of_ne other]
        exact others j other
  | true =>
      have waits : ∀ j, j ≠ worker → At d horizon x .reading (Q.task j) :=
        fun j other => (others j other).of_muted (.inr rfl)
      rcases ok quiet with rfl | ⟨out, rfl⟩
      · rw [step_record] at rest
        have muted : At d horizon x .muted (next answer) := rest
        refine .recorded ?_ ?_ ?_
        · rw [effect.2, World.alarmState_after]
          simp
        · rw [task]
          exact (Function.forall_update_iff Q.task fun _ p => At d horizon x .reading p).mpr
            ⟨muted.of_muted (.inr rfl), waits⟩
        · rw [callsAbout_append, callsAbout_none none]
          simp [Op.calls, callsAbout]
      · have about : out.device = d := by simpa [Op.concerns] using quiet
        rw [step_send about] at rest
        refine .unrecorded worker ?_ ?_ ?_
        · rw [task, Function.update_self]
          exact rest
        · intro j other
          rw [task, Function.update_of_ne other]
          exact waits j other
        · rw [callsAbout_append, callsAbout_none none]
          simp [Op.calls, callsAbout, about]

theorem Phase.perform_muted (acts : actor ≠ worker) (own : At d horizon x .free (Q.task actor))
    (others : ∀ j, j ≠ actor → At d horizon x .muted (Q.task j))
    (none : ∀ out ∈ later, out.device ≠ d) : Phase d horizon x (later ++ o.calls) R := by
  obtain ⟨next, ready, effect, task⟩ := step.performed
  have muted := others worker (Ne.symm acts)
  rw [ready] at muted
  obtain ⟨quiet, rest⟩ := muted
  refine .unsent actor ?_ ?_ (unconcerned_append none quiet)
  · rw [task, Function.update_of_ne acts]
    exact own
  · rw [task]
    exact (Function.forall_update_iff Q.task fun j p => j ≠ actor → At d horizon x .muted p).mpr
      ⟨fun _ => rest answer (delivered.may (by simp)), fun j _ => others j⟩

omit delivered in
theorem Phase.perform_owing (own : At d horizon x .owing (Q.task worker))
    (others : ∀ j, j ≠ worker → At d horizon x .reading (Q.task j))
    (once : callsAbout d later = 1) : Phase d horizon x (later ++ o.calls) R := by
  obtain ⟨next, ready, effect, task⟩ := step.performed
  rw [ready] at own
  obtain ⟨rfl, rest⟩ := own
  have muted : At d horizon x .muted (next answer) := rest answer trivial
  refine .recorded ?_ ?_ ?_
  · rw [effect.2, World.alarmState_after]
    simp
  · rw [task]
    exact (Function.forall_update_iff Q.task fun _ p => At d horizon x .reading p).mpr
      ⟨muted.of_muted (.inr rfl), others⟩
  · simp [Op.calls, once]

theorem At.reading_step (own : At d horizon x .reading (Q.task worker))
    (finds : ∀ device, o = .readAlarmState device → device = d →
      (Q.task worker).Avoids (fun o : Op Value => o.concerns d = true) ∨
        Q.shared.alarmState d = some x) :
    o.concerns d = false ∧ At d horizon x .reading (R.task worker) := by
  obtain ⟨next, ready, effect, task⟩ := step.performed
  rw [task, Function.update_self]
  rw [ready] at own finds
  obtain ⟨quiet, rest⟩ := own
  refine ⟨quiet, ?_⟩
  cases o with
  | readAlarmState device =>
      by_cases same : device = d
      · rcases finds device rfl same with avoids | entry
        · exact At.of_avoids (avoids.2 answer trivial)
        · refine rest answer ?_
          rintro _ rfl
          exact effect.1.trans entry
      · exact rest answer fun _ same' => absurd same' same
  | readClock => exact rest answer delivered
  | _ => exact rest answer trivial

theorem Phase.perform (phase : Phase d horizon x later Q)
    (undisturbed : Undisturbed d Q (.perform worker o answer)) :
    Phase d horizon x (later ++ o.calls) R := by
  obtain ⟨next, ready, effect, task⟩ := step.performed
  cases phase with
  | unsent actor own others none =>
      by_cases acts : actor = worker
      · subst acts
        exact Phase.perform_actor step delivered own others none
      · exact Phase.perform_muted step delivered acts own others none
  | unrecorded actor own others once =>
      by_cases acts : actor = worker
      · subst acts
        exact Phase.perform_owing step own others once
      · obtain ⟨quiet, continued⟩ := At.reading_step step delivered (others worker (Ne.symm acts))
          (by
            rintro device rfl same
            exact .inl ((undisturbed same).resolve_right fun none => none actor own.aboutToRecord))
        refine .unrecorded actor ?_ ?_ ((callsAbout_quiet quiet later).trans once)
        · rw [task, Function.update_of_ne acts]
          exact own
        · intro j other
          by_cases same : j = worker
          · exact same ▸ continued
          · rw [task, Function.update_of_ne same]
            exact others j other
  | recorded entry all once =>
      obtain ⟨quiet, continued⟩ :=
        At.reading_step step delivered (all worker) fun _ _ _ => .inr entry
      refine .recorded ?_ ?_ ((callsAbout_quiet quiet later).trans_le once)
      · rw [effect.2, unconcerned_entry quiet]
        exact entry
      · intro j
        by_cases same : j = worker
        · exact same ▸ continued
        · rw [task, Function.update_of_ne same]
          exact all j

end

theorem muted_run {earlier : List Outbound} {moves : List (Act Value ι)} (lawful : w.Lawful)
    (action : x.Action horizon)
    (start : Sounds w publishers topics d horizon x earlier [] P) (idle : Idle P)
    (run : (synchronizer w publishers topics).Trace
      (Delivers w topics d horizon earlier.length) P moves Q) :
    ∃ later, Sounds w publishers topics d horizon x earlier later Q ∧
      (∀ j, At d horizon x .muted (Q.task j)) ∧ ∀ out ∈ later, out.device ≠ d := by
  refine run.invariant
    (I := fun _ Q => ∃ later, Sounds w publishers topics d horizon x earlier later Q ∧
    (∀ j, At d horizon x .muted (Q.task j)) ∧ ∀ out ∈ later, out.device ≠ d) ?_ ?_
  · exact ⟨[], start, fun j => .of_idle (by simp [Stage.Paid]) (idle j), by simp⟩
  · rintro _ Q move R ⟨later, sounds, muted, none⟩ delivered step
    cases move with
    | take worker msg =>
        have only := sounds.echo delivered
        obtain ⟨_, _, task⟩ := step.taken
        have sounds' := sounds.take lawful action step (only.imp fun i means same => (means same).1)
        refine ⟨later, sounds', ?_, none⟩
        rw [task]
        refine (Function.forall_update_iff Q.task fun _ p => At d horizon x .muted p).mpr
          ⟨?_, fun j _ => muted j⟩
        refine handler_mirroring (by simp [Stage.Paid]) worker (only.imp fun i means same => ?_)
        obtain ⟨_, out, member, about⟩ := means same
        exact absurd about (none out member)
    | perform worker o answer =>
        obtain ⟨next, ready, effect, task⟩ := step.performed
        have own := muted worker
        rw [ready] at own
        refine ⟨later ++ o.calls, sounds.perform step delivered, ?_, ?_⟩
        · rw [task]
          exact (Function.forall_update_iff Q.task fun _ p => At d horizon x .muted p).mpr
            ⟨own.2 answer (delivered.may (by simp)), fun j _ => muted j⟩
        · exact unconcerned_append none own.1

/-- One operator action is mirrored at most once, as long as no other handler reads the entry of
the device between the send and the record. -/
theorem one_action_one_call (lawful : w.Lawful) (action : x.Action horizon) {Q₁ : Tasks Value ι}
    {moves rest : List (Act Value ι)} {msg : StringMessage}
    (reached : Reached w publishers topics P) (idle : Idle P)
    (before : (synchronizer w publishers topics).Trace
      (Delivers w topics d horizon P.shared.sent.length) P moves Q)
    (expressed : Expresses w d horizon x (worker.receives topics msg))
    (acts : (synchronizer w publishers topics).Step Q (.take worker msg) Q₁)
    (after : (synchronizer w publishers topics).Trace (fun S move =>
      Delivers w topics d horizon P.shared.sent.length S move ∧ Undisturbed d S move) Q₁ rest R) :
    (R.shared.callsFor d).length ≤ (P.shared.callsFor d).length + 1 := by
  have start : Sounds w publishers topics d horizon x P.shared.sent [] P := by
    refine ⟨reached, by simp, by simp, ?_⟩
    intro j
    obtain ⟨a, done⟩ := Program.eq_done_of_idle (idle j)
    rw [done]
    trivial
  obtain ⟨later, sounds, muted, none⟩ := muted_run lawful action start idle before
  have only := expressed.only
  have begun : Phase d horizon x later Q₁ := by
    refine .unsent worker ?_ ?_ none
    · rw [acts.taken.2.2, Function.update_self]
      exact handler_mirroring (by simp [Stage.Paid]) worker
        (only.imp fun i means _ => ⟨means.2, by simp⟩)
    · intro j other
      rw [acts.taken.2.2, Function.update_of_ne other]
      exact muted j
  have sounds₁ := sounds.take lawful action acts (only.imp fun i means _ => means.2)
  obtain ⟨later', sounds', phase⟩ :
    ∃ later, Sounds w publishers topics d horizon x P.shared.sent later R ∧
      Phase d horizon x later R := by
    refine after.invariant
      (I := fun _ R => ∃ later, Sounds w publishers topics d horizon x P.shared.sent
      later R ∧ Phase d horizon x later R) ⟨later, sounds₁, begun⟩ ?_
    rintro _ S move S' ⟨later, sounds, phase⟩ ⟨delivered, undisturbed⟩ step
    cases move with
    | take worker msg =>
        have only := sounds.echo delivered
        exact ⟨later, sounds.take lawful action step (only.imp fun i means same => (means same).1),
          phase.take step only⟩
    | perform worker o answer =>
        exact ⟨_, sounds.perform step delivered, Phase.perform step delivered phase undisturbed⟩
  have once := phase.callsAbout_le
  simp only [World.callsFor, List.length_map, sounds'.sent, List.filter_append, List.length_append]
  exact Nat.add_le_add_left once _

end

section
open PlainWire

/-- The bypass of an operator is sent, and not yet recorded. -/
def sendingPlant : Tasks FlatJson.Scalar Bool :=
  ((waiting (started "true")).hand plant .controls (statusMessage "pump" "BYPASSED")).advance
    env.answer .controls 3

/-- It is recorded before the monitor handles the echo. -/
def mirroredPlant : Tasks FlatJson.Scalar Bool := sendingPlant.advance env.answer .controls 1

def echoedPlant : Tasks FlatJson.Scalar Bool :=
  (mirroredPlant.hand plant (.monitor false) (mirroredConfig "pump" "false")).advance
    env.answer (.monitor false) 3

theorem delivers_perform {Q : Tasks FlatJson.Scalar Bool} {worker : Worker Bool} {earlier : Nat}
    (o : Op FlatJson.Scalar) (world : World FlatJson.Scalar) :
    Delivers wire monitored "pump" 0 earlier Q (.perform worker o (env.answer o world).1) := by
  cases o with
  | readClock => exact le_refl (0 : Int)
  | _ => trivial

theorem undisturbed_alone {P : Tasks FlatJson.Scalar Bool} {i : Worker Bool}
    (alone : ∀ j, j ≠ i → (P.task j).busy = false) (o : Op FlatJson.Scalar)
    (world : World FlatJson.Scalar) (next : o.Answer → Handler FlatJson.Scalar (Option SyncOutcome))
    (answer : o.Answer) :
    Undisturbed "pump" ⟨world, Function.update P.task i (.perform o next)⟩
      (.perform i o answer) := by
  cases o with
  | readAlarmState device =>
      refine fun _ => .inr ?_
      rintro j ⟨state, rest, same⟩
      by_cases reader : j = i
      · subst reader
        simp only [Function.update_self] at same
        cases same
      · simp only [Function.update_of_ne reader] at same
        have idle := alone j reader
        rw [same] at idle
        cases idle
  | _ => trivial

theorem expresses_bypassed : Expresses wire "pump" 0 .bypassed
    (Worker.receives monitored .controls (statusMessage "pump" "BYPASSED")) :=
  ClosedLoop.reports_bypassed

theorem echoedPlant_calls : (echoedPlant.shared.callsFor "pump").length ≤
    ((waiting (started "true") : Tasks FlatJson.Scalar Bool).shared.callsFor
      "pump").length + 1 := by
  let C : Tasks FlatJson.Scalar Bool → Act FlatJson.Scalar Bool → Prop := fun S move =>
    Delivers wire monitored "pump" 0 (started "true").sent.length S move ∧ Undisturbed "pump" S move
  have acts : plant.Step (waiting (started "true"))
      (.take .controls (statusMessage "pump" "BYPASSED")) _ :=
    Machine.step_hand _ rfl
  obtain ⟨send, sent⟩ := Machine.trace_advance (K := plant) (C := C)
    (P := (waiting (started "true")).hand plant .controls (statusMessage "pump" "BYPASSED"))
    env.answer_effect .controls 3 (fun o s _ => ⟨delivers_perform o s,
      undisturbed_alone (by rintro (_ | _) other; exact absurd rfl other; rfl) o s _ _⟩)
  obtain ⟨record, recorded⟩ := Machine.trace_advance (K := plant) (C := C) (P := sendingPlant)
    env.answer_effect .controls 1 (fun o s _ => ⟨delivers_perform o s,
      undisturbed_alone (by rintro (_ | _) other; exact absurd rfl other; rfl) o s _ _⟩)
  have published : .publish "pump" "plant" (mirroredConfig "pump" "false") ∈
      mirroredPlant.shared.sent.drop (started "true").sent.length := by decide +kernel
  have take := Machine.trace_hand (K := plant) (C := C) (P := mirroredPlant) (i := .monitor false)
    (mirroredConfig "pump" "false") ⟨.inr ⟨_, published, "pump", rfl⟩, trivial⟩ rfl
  have idle : (mirroredPlant.task .controls).busy = false := by decide +kernel
  obtain ⟨handle, handled⟩ := Machine.trace_advance (K := plant) (C := C)
    (P := mirroredPlant.hand plant (.monitor false) (mirroredConfig "pump" "false"))
    env.answer_effect (.monitor false) 3 (fun o s _ => ⟨delivers_perform o s, undisturbed_alone (by
      rintro (_ | _ | _) other
      · exact idle
      · exact absurd rfl other
      · rfl) o s _ _⟩)
  have run := ((sent.append recorded).append take).append handled
  exact one_action_one_call lawful (.inr (.inr (.inl rfl))) (.of_reachable ⟨_, rfl⟩) (fun _ => rfl)
    (.nil _) expresses_bypassed acts run

/-- The monitor handles the echo while the record is still to come. -/
def overlappingPlant : Tasks FlatJson.Scalar Bool :=
  (sendingPlant.hand plant (.monitor false) (mirroredConfig "pump" "false")).advance
    env.answer (.monitor false) 4

/-- One bypass and two calls: the echo is mirrored back. -/
theorem overlapping_echo_is_mirrored :
    ¬ ∀ (P Q Q₁ R : Tasks FlatJson.Scalar Bool) (moves rest : List _)
      (worker : Worker Bool) (msg : StringMessage) (x : CachedState), x.Action 0 →
    Reached wire publishers monitored P → Idle P →
    plant.Trace (Delivers wire monitored "pump" 0 P.shared.sent.length) P moves Q →
    Expresses wire "pump" 0 x (worker.receives monitored msg) → plant.Step Q (.take worker msg) Q₁ →
    plant.Trace (Delivers wire monitored "pump" 0 P.shared.sent.length) Q₁ rest R →
    (R.shared.callsFor "pump").length ≤ (P.shared.callsFor "pump").length + 1 := by
  intro claim
  let C : Tasks FlatJson.Scalar Bool → Act FlatJson.Scalar Bool → Prop :=
    Delivers wire monitored "pump" 0 (started "true").sent.length
  have acts : plant.Step (waiting (started "true"))
      (.take .controls (statusMessage "pump" "BYPASSED")) _ :=
    Machine.step_hand _ rfl
  obtain ⟨send, sent⟩ := Machine.trace_advance (K := plant) (C := C)
    (P := (waiting (started "true")).hand plant .controls (statusMessage "pump" "BYPASSED"))
    env.answer_effect .controls 3 (fun o s _ => delivers_perform o s)
  have published : .publish "pump" "plant" (mirroredConfig "pump" "false") ∈
      sendingPlant.shared.sent.drop (started "true").sent.length := by decide +kernel
  have take := Machine.trace_hand (K := plant) (C := C) (P := sendingPlant) (i := .monitor false)
    (mirroredConfig "pump" "false") (.inr ⟨_, published, "pump", rfl⟩) rfl
  obtain ⟨handle, handled⟩ := Machine.trace_advance (K := plant) (C := C)
    (P := sendingPlant.hand plant (.monitor false) (mirroredConfig "pump" "false"))
    env.answer_effect (.monitor false) 4 (fun o s _ => delivers_perform o s)
  have bounded := claim _ _ _ overlappingPlant _ _ .controls _ .bypassed (.inr (.inr (.inl rfl)))
    (.of_reachable ⟨_, rfl⟩) (fun _ => rfl) (.nil _) expresses_bypassed acts
    ((sent.append take).append handled)
  revert bounded
  decide +kernel

end

end AlarmSync
