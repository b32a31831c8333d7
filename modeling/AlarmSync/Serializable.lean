import AlarmSync.Isolation
import AlarmSync.OneAction

/-! Interleaved handlers against complete handling. A handler reads the clock and sends at most
once, so whatever it is answered, complete handling in some environment answers the same; and
handlers of different devices can be put one after the other. -/
namespace AlarmSync
open EffectProgram

variable {Value ι : Type}

/-- Operations with answers that complete handling in this environment may have given. -/
def Env.Gives (env : Env) (performed : List ((o : Op Value) × o.Answer)) : Prop :=
  ∀ step ∈ performed, ∃ world, step.2 = env.reply world step.1

/-- One reading of the clock at most, and one send at most: whether there was one. -/
structure Spent where
  clock : Bool
  send : Bool

def Op.spend (spent : Spent) : Op Value → Spent
  | readClock => { spent with clock := true }
  | send _ => { spent with send := true }
  | _ => spent

def sober : Contract (effects Value) Spent where
  may _ _ _ := True
  ok
    | spent, .readClock => spent.clock = false
    | spent, .send _ => spent.send = false
    | _, _ => True
  step spent o _ := o.spend spent

def Spent.Agree (spent : Spent) (env env' : Env) : Prop :=
  (spent.clock = true → env'.now = env.now) ∧
    (spent.send = true → env'.published = env.published ∧ env'.transport = env.transport)

theorem Spent.Agree.of_spend {spent : Spent} {env env' : Env} {o : Op Value}
    (agree : (o.spend spent).Agree env env') : spent.Agree env env' := by
  cases o with
  | readClock => exact ⟨fun _ => agree.1 rfl, agree.2⟩
  | send out => exact ⟨agree.1, fun _ => agree.2 rfl⟩
  | _ => exact agree

theorem sober_answer {spent : Spent} {o : Op Value} {world : World Value} {answer : o.Answer}
    (ok : sober.ok spent o) (answered : world.Answers o answer) (env : Env) :
    ∃ env' : Env, spent.Agree env env' ∧ ∀ env'' : Env, (o.spend spent).Agree env' env'' →
      env''.reply world o = answer := by
  have unchanged : spent.Agree env env := ⟨fun _ => rfl, fun _ => ⟨rfl, rfl⟩⟩
  cases o with
  | readAlarmState device => exact ⟨env, unchanged, fun _ _ => answered.symm⟩
  | lookupMetadata device => exact ⟨env, unchanged, fun _ _ => answered.symm⟩
  | recordAlarmState device state => exact ⟨env, unchanged, fun _ _ => rfl⟩
  | recordEvidence device state => exact ⟨env, unchanged, fun _ _ => rfl⟩
  | updateMetadata device new => exact ⟨env, unchanged, fun _ _ => rfl⟩
  | readClock =>
      have unread : spent.clock = false := ok
      exact ⟨{ env with now := answer }, ⟨by simp [unread], unchanged.2⟩,
        fun _ agree => agree.1 rfl⟩
  | send out =>
      have unsent : spent.send = false := ok
      cases out with
      | publish device topic message =>
          exact ⟨{ env with published := answer }, ⟨unchanged.1, by simp [unsent]⟩,
            fun _ agree => (agree.2 rfl).1⟩
      | call device request =>
          exact ⟨{ env with transport := answer }, ⟨unchanged.1, by simp [unsent]⟩,
            fun _ agree => (agree.2 rfl).2⟩

theorem sober_run {α : Type} {p : Handler Value α} {spent : Spent}
    {world world' : World Value} {a : α} {performed : List ((o : Op Value) × o.Answer)}
    (meets : p.Meets sober (fun _ _ => True) spent)
    (steps : p.Steps World.Effect world performed (.done a) world') (env : Env) :
    ∃ env' : Env, spent.Agree env env' ∧ env'.Gives performed ∧
    p.run env'.answer world = (a, world') := by
  induction p generalizing spent world env performed with
  | done b =>
      rcases steps.inversion with ⟨rfl, same, rfl⟩ | ⟨o, next, _, _, _, same, _⟩
      · cases same
        exact ⟨env, ⟨fun _ => rfl, fun _ => ⟨rfl, rfl⟩⟩, by simp [Env.Gives], rfl⟩
      · cases same
  | perform o next ih =>
      rcases steps.inversion with ⟨_, same, _⟩ | ⟨o', next', answer, world₁, rest, same,
        rfl, effect, later⟩
      · cases same
      · cases same
        obtain ⟨ok, continues⟩ := meets
        obtain ⟨env₁, agree₁, replies⟩ := sober_answer ok effect.1 env
        obtain ⟨env₂, agree₂, given, run⟩ := ih answer (continues answer trivial) later env₁
        have reply := replies env₂ agree₂
        have before := agree₂.of_spend
        refine ⟨env₂, ⟨fun c => (before.1 c).trans (agree₁.1 c), fun s => ?_⟩, ?_, ?_⟩
        · exact ⟨(before.2 s).1.trans (agree₁.2 s).1, (before.2 s).2.trans (agree₁.2 s).2⟩
        · intro step member
          rcases List.mem_cons.mp member with rfl | later'
          · exact ⟨world, reply.symm⟩
          · exact given step later'
        · rw [Program.run_perform]
          simp only [Env.answer, reply]
          rw [← effect.2]
          exact run

theorem convey_sober {spent : Spent} {out : Option Outbound} {device : String} {state : CachedState}
    (unsent : spent.send = false) :
    (convey out device state : Handler Value Unit).Meets sober (fun _ _ => True) spent := by
  cases out with
  | none => exact ⟨trivial, fun _ _ => trivial⟩
  | some call => exact ⟨unsent, fun _ _ => ⟨trivial, fun _ _ => trivial⟩⟩

section
variable [DecidableEq Value] {w : Wire Value} {publishers : List String}

theorem message_sober (m : Message) :
    (m.handler w publishers).Meets sober (fun _ _ => True) ⟨false, false⟩ := by
  cases m with
  | controls msg =>
      apply Controls.meets_processRuntimeMessage trivial
      intro alarm _ _
      refine ⟨trivial, fun observed _ => ⟨trivial, fun known _ => ⟨trivial, ?_⟩⟩⟩
      intro pvMetadata operation _ _ _
      exact convey_sober rfl
  | phoebus topic msg =>
      apply Monitor.meets_processRuntimeMessage fun _ => trivial
      · intro key _
        refine ⟨trivial, fun observed _ => ⟨trivial, ?_⟩⟩
        intro command _ _
        exact convey_sober rfl
      · intro key config _ _
        refine ⟨trivial, fun known _ => ⟨trivial, fun observed _ => ⟨rfl, fun now _ => ?_⟩⟩⟩
        exact
          { malformed := fun _ _ => trivial
            duplicate := fun _ _ _ _ => trivial
            unchanged := fun _ _ _ => ⟨trivial, fun _ _ => trivial⟩
            mirrored := fun _ _ _ =>
              (convey_sober rfl).weaken fun _ _ _ => ⟨trivial, fun _ _ => trivial⟩ }

variable {topics : ι → String} {world world' : World Value}
  {turns : List (Turn (effects Value) (Worker ι) StringMessage)}

/-- A message together with the environment in which it might have been handled completely. -/
abbrev Turned (Value ι : Type) := Env × Turn (effects Value) (Worker ι) StringMessage

def Turned.handled (topics : ι → String) (t : Turned Value ι) : Env × Message :=
  (t.1, t.2.task.receives topics t.2.message)

theorem serial_handleAll (serial : (synchronizer w publishers topics).Serial world turns world') :
    ∃ order : List (Turned Value ι), order.map Prod.snd = turns ∧
      (∀ t ∈ order, t.1.Gives t.2.performed) ∧
      world' = world.handleAll w publishers (order.map (Turned.handled topics)) := by
  induction serial with
  | nil => exact ⟨[], rfl, by simp, rfl⟩
  | @snoc turns world₁ turn a world₂ _ steps ih =>
      obtain ⟨order, rfl, given, rfl⟩ := ih
      obtain ⟨env, _, gives, run⟩ :=
        sober_run (message_sober (turn.task.receives topics turn.message)) steps
        ⟨0, true, ⟨true, true, true⟩⟩
      refine ⟨order ++ [(env, turn)], by simp, ?_, ?_⟩
      · intro t member
        rcases List.mem_append.mp member with before | last
        · exact given t before
        · cases List.mem_singleton.mp last
          exact gives
      · have handled := congrArg Prod.snd run
        rw [List.map_append, World.handleAll_append]
        exact handled.symm

variable [DecidableEq ι]

def Worker.deviceOf (w : Wire Value) (topics : ι → String) (worker : Worker ι)
    (msg : StringMessage) : Option String := (worker.receives topics msg).deviceOf w

variable (w publishers topics) in
/-- An order of complete handling that does what an interleaving does. -/
structure Serializes (moves : List (Act Value ι)) (P Q : Tasks Value ι)
    (order : List (Turned Value ι)) : Prop where
  given : ∀ t ∈ order, t.1.Gives t.2.performed
  own : ∀ worker, movesOf worker (order.flatMap (·.2.moves)) = movesOf worker moves
  taken : ∀ d, takesAt (Worker.deviceOf w topics) d (order.flatMap (·.2.moves)) =
    takesAt (Worker.deviceOf w topics) d moves
  seen : ∀ d, (P.shared.handleAll w publishers (order.map (Turned.handled topics))).view d =
      Q.shared.view d

theorem exists_serializes {P Q : Tasks Value ι} {moves : List (Act Value ι)} (begins : Idle P)
    (run : (synchronizer w publishers topics).Exclusive (Worker.deviceOf w topics) P moves Q)
    (ends : Idle Q) :
    ∃ order, Serializes w publishers topics moves P Q order := by
  obtain ⟨turns, world, serial, own, taken, seen⟩ := run.serial (D := devices Value)
    (fun worker msg d => keeps_message) (fun worker msg => idle_message) begins ends
  obtain ⟨order, rfl, given, rfl⟩ := serial_handleAll serial
  simp only [List.flatMap_map] at own taken
  exact ⟨order, given, own, taken, seen⟩

/-- An interleaving from rest to rest in which no two handlers of one device are ever busy at once
comes to what complete handling of its messages comes to, one after the other: for every device the
same entry, the same metadata and the same calls. Each task handles its messages in the same order,
with the same operations and answers; so are the messages of each device. -/
theorem interleaving_serializable {P Q : Tasks Value ι} {moves : List (Act Value ι)}
    (begins : Idle P)
    (run : (synchronizer w publishers topics).Exclusive (Worker.deviceOf w topics) P moves Q)
    (ends : Idle Q) :
    ∃ order : List (Turned Value ι), (∀ t ∈ order, t.1.Gives t.2.performed) ∧
      (∀ worker, movesOf worker (order.flatMap (·.2.moves)) = movesOf worker moves) ∧
      (∀ d, takesAt (Worker.deviceOf w topics) d (order.flatMap (·.2.moves)) =
        takesAt (Worker.deviceOf w topics) d moves) ∧
      ∀ d, (P.shared.handleAll w publishers (order.map (Turned.handled topics))).view d =
        Q.shared.view d := by
  obtain ⟨order, serializes⟩ := exists_serializes begins run ends
  exact ⟨order, serializes.given, serializes.own, serializes.taken, serializes.seen⟩

end

section
open PlainWire

def actingPlant : Tasks FlatJson.Scalar Bool :=
  ((waiting (started "true")).hand plant (.monitor false) (configMessage "pump" "false")).advance
    env.answer (.monitor false) 3

/-- While a config is about to be acted on, a status of another device is handled. -/
def sharingPlant : Tasks FlatJson.Scalar Bool :=
  (actingPlant.hand plant .controls (statusMessage "fan" "ACKNOWLEDGED")).advance
    env.answer .controls 2

theorem sharingPlant_serializable : ∃ order : List (Turned FlatJson.Scalar Bool),
    ∀ d, ((started "true").handleAll wire publishers
      (order.map (Turned.handled PlainWire.monitored))).view d =
      (sharingPlant.advance env.answer (.monitor false) 3).shared.view d := by
  have take : plant.Exclusive (Worker.deviceOf wire PlainWire.monitored)
      (waiting (started "true")) _ _ :=
    .take (.nil _) (Machine.step_hand (i := .monitor false) (configMessage "pump" "false") rfl)
      fun j d _ handling => by cases handling.1
  obtain ⟨moves, reads, latest⟩ := take.advance env.answer_effect (.monitor false) 3
  have apart : ∀ j d,
      Worker.deviceOf wire PlainWire.monitored .controls
      (statusMessage "fan" "ACKNOWLEDGED") = some d →
      ¬ Machine.HandlingAt (Worker.deviceOf wire PlainWire.monitored) moves actingPlant j d := by
    rintro j d fan ⟨busy, msg, taken, placed⟩
    have isFan : Worker.deviceOf wire PlainWire.monitored .controls
        (statusMessage "fan" "ACKNOWLEDGED") = some "fan" := by decide +kernel
    rcases j with _ | _ | _
    · cases busy
    · rw [latest, current_take, if_pos rfl] at taken
      cases taken
      have isPump : Worker.deviceOf wire PlainWire.monitored (.monitor false)
          (configMessage "pump" "false") = some "pump" := by decide +kernel
      rw [isFan] at fan
      rw [isPump, ← fan] at placed
      exact absurd placed (by decide)
    · cases busy
  have hands := Machine.step_hand (K := plant) (i := .controls) (statusMessage "fan" "ACKNOWLEDGED")
    (rfl : (actingPlant.task .controls).busy = false)
  have second := reads.take hands apart
  obtain ⟨_, looked, _⟩ := second.advance env.answer_effect .controls 2
  obtain ⟨_, finished, _⟩ := looked.advance env.answer_effect (.monitor false) 3
  have rest : Idle (sharingPlant.advance env.answer (.monitor false) 3) := by
    rintro (_ | _ | _)
    · decide +kernel
    · decide +kernel
    · rfl
  obtain ⟨order, _, _, _, seen⟩ := interleaving_serializable (fun _ => rfl) finished rest
  exact ⟨order, seen⟩

end

end AlarmSync
