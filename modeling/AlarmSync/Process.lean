import AlarmSync.Published
import AlarmSync.Serializable

/-! The whole process: hydration and the Controls task from the beginning, the monitors once
hydration is over, streams that end and are opened again, and cancellation at any moment. -/
namespace AlarmSync
open EffectProgram

variable {Value ι : Type}

/-- What performs operations: the Phoebus task while it hydrates, and the readers of streams. -/
inductive Role (ι : Type) where
  | startup
  | reader (worker : Worker ι)
  deriving DecidableEq, Repr

/-- Where the loop of a reader is: it is `reading` from the time its stream is open until it leaves
the inner loop, messages being handled meanwhile. -/
inductive ReaderStage where
  | unstarted | connecting | reading | leaving | sleeping | returned
  deriving DecidableEq, Repr

inductive PhoebusStage where
  | hydrating | supervising | returned
  deriving DecidableEq, Repr

/-- The health server: `stopped` if it has ended by itself. -/
inductive Health where
  | serving | notServing | stopped
  deriving DecidableEq, Repr

structure Lifecycle (ι : Type) where
  cancelled : Bool
  health : Health
  phoebus : PhoebusStage
  /-- the monitors have been dropped with their `JoinSet`: each ends where it waits next -/
  aborted : Bool
  stage : Worker ι → ReaderStage

def Lifecycle.start : Lifecycle ι where
  cancelled := false
  health := .serving
  phoebus := .hydrating
  aborted := false
  stage
    | .controls => .connecting
    | .monitor _ => .unstarted

abbrev Crew (Value ι : Type) := Pool (effects Value) (Role ι) (World Value) (Option SyncOutcome)

structure Process (Value ι : Type) where
  crew : Crew Value ι
  life : Lifecycle ι

/-- What happens to the process, apart from the answers of operations. -/
inductive Incident (Value ι : Type) where
  | take (worker : Worker ι) (msg : StringMessage)
  | perform (role : Role ι) (o : Op Value) (answer : o.Answer)
  | connected (worker : Worker ι)
  | left (worker : Worker ι)
  | checked (worker : Worker ι)
  | woken (worker : Worker ι)
  | hydrated | interrupted | dismissed | joined
  | dropped (i : ι)
  | cancel | reported | serverFailed | serverStopped

/-- The task that an incident drops, amid a message or a record as it may be. -/
def Incident.drops : Incident Value ι → Option (Role ι)
  | interrupted => some .startup
  | dropped i => some (.reader (.monitor i))
  | _ => none

/-- The tasks of the process. Startup takes no messages. -/
def crewMachine [DecidableEq Value] (w : Wire Value) (publishers : List String)
    (topics : ι → String) :
    Machine (effects Value) (Role ι) StringMessage (World Value) (Option SyncOutcome) where
  handler
    | .startup, _ => .done none
    | .reader worker, msg => (worker.receives topics msg).handler w publishers
  effect := World.Effect

namespace Process

variable [DecidableEq ι] [DecidableEq Value]

def setStage (P : Process Value ι) (worker : Worker ι) (stage : ReaderStage) : Process Value ι :=
  { P with life := { P.life with stage := Function.update P.life.stage worker stage } }

def hydrated (P : Process Value ι) : Process Value ι :=
  { P with life := { P.life with
    phoebus := .supervising
    stage := fun
      | .controls => P.life.stage .controls
      | .monitor _ => .connecting } }

def drop (P : Process Value ι) (role : Role ι) : Process Value ι :=
  { P with crew := { P.crew with task := Function.update P.crew.task role (.done none) } }

def start (w : Wire Value) (snapshots : List (String × Except Unit (List StringMessage))) :
    Process Value ι where
  crew :=
    { shared := World.empty
      task
        | .startup => do
          Startup.getExistingMessagesFromPhoebus w snapshots
          return none
        | .reader _ => .done none }
  life := .start

variable (w : Wire Value) (publishers : List String) (topics : ι → String)

inductive Step : Process Value ι → Incident Value ι → Process Value ι → Prop
  /-- `select!` may take the next message though the token is cancelled. -/
  | take {P worker msg crew} (reading : P.life.stage worker = .reading)
      (move : (crewMachine w publishers topics).Step P.crew (.take (.reader worker) msg) crew) :
      Step P (.take worker msg) { P with crew := crew }
  | perform {P role o answer crew}
      (move : (crewMachine w publishers topics).Step P.crew (.perform role o answer) crew) :
      Step P (.perform role o answer) { P with crew := crew }
  | connected {P worker} (connecting : P.life.stage worker = .connecting) :
      Step P (.connected worker) (P.setStage worker .reading)
  /-- The stream has ended, or the reader has noticed the cancellation, between two messages. -/
  | left {P worker} (reading : P.life.stage worker = .reading)
      (idle : (P.crew.task (.reader worker)).busy = false) :
      Step P (.left worker) (P.setStage worker .leaving)
  | checked {P worker} (leaving : P.life.stage worker = .leaving) :
      Step P (.checked worker)
        (P.setStage worker (if P.life.cancelled then .returned else .sleeping))
  | woken {P worker} (sleeping : P.life.stage worker = .sleeping) :
      Step P (.woken worker) (P.setStage worker .connecting)
  /-- Hydration has ended first. -/
  | hydrated {P} (hydrating : P.life.phoebus = .hydrating)
      (idle : (P.crew.task .startup).busy = false) : Step P .hydrated P.hydrated
  /-- The cancellation came first: hydration is dropped. -/
  | interrupted {P} (hydrating : P.life.phoebus = .hydrating)
      (cancelled : P.life.cancelled = true) :
      Step P .interrupted ({ P with life := { P.life with phoebus := .returned } }.drop .startup)
  | dismissed {P} (supervising : P.life.phoebus = .supervising)
      (cancelled : P.life.cancelled = true) :
      Step P .dismissed { P with life := { P.life with phoebus := .returned, aborted := true } }
  | joined {P} (supervising : P.life.phoebus = .supervising)
      (all : ∀ i, P.life.stage (.monitor i) = .returned) :
      Step P .joined { P with life := { P.life with phoebus := .returned } }
  | dropped {P i} (aborted : P.life.aborted = true)
      (there : P.life.stage (.monitor i) ≠ .returned) :
      Step P (.dropped i) ((P.setStage (.monitor i) .returned).drop (.reader (.monitor i)))
  | cancel {P} (running : P.life.cancelled = false) :
      Step P .cancel { P with life := { P.life with cancelled := true } }
  | reported {P} (serving : P.life.health = .serving) (cancelled : P.life.cancelled = true) :
      Step P .reported { P with life := { P.life with health := .notServing } }
  | serverFailed {P} (serving : P.life.health = .serving) :
      Step P .serverFailed { P with life := { P.life with health := .stopped, cancelled := true } }
  | serverStopped {P} (serving : P.life.health = .serving) :
      Step P .serverStopped { P with life := { P.life with health := .stopped } }

/-- A run in which every incident meets the condition `C`. -/
inductive Run (C : Incident Value ι → Prop) : Process Value ι → Process Value ι → Prop
  | refl (P) : Run C P P
  | step {P Q incident R} : Run C P Q → C incident → Step w publishers topics Q incident R →
      Run C P R

def Finished (P : Process Value ι) : Prop :=
  P.life.phoebus = .returned ∧ P.life.stage .controls = .returned

def plantSnapshots : List (String × Except Unit (List StringMessage)) :=
  [("plant", .ok [PlainWire.configMessage "pump" "false"])]

def plantStart : Process FlatJson.Scalar Bool := start PlainWire.wire plantSnapshots

abbrev PlantStep := Step PlainWire.wire PlainWire.publishers PlainWire.monitored

abbrev PlantRun := Run PlainWire.wire PlainWire.publishers PlainWire.monitored fun _ => True

variable {w publishers topics} {P Q R : Process Value ι} {incident : Incident Value ι}
  {C : Incident Value ι → Prop}

theorem Run.weaken {C' : Incident Value ι → Prop} (run : Run w publishers topics C P Q)
    (allowed : ∀ incident, C incident → C' incident) : Run w publishers topics C' P Q := by
  induction run with
  | refl => exact .refl _
  | step _ c one ih => exact ih.step (allowed _ c) one

theorem Step.crew_cases (step : Step w publishers topics P incident Q) :
    (∃ worker msg, incident = .take worker msg ∧ P.life.stage worker = .reading ∧ Q.life = P.life ∧
      (crewMachine w publishers topics).Step P.crew (.take (.reader worker) msg) Q.crew) ∨
    (∃ role o answer, incident = .perform role o answer ∧ Q.life = P.life ∧
      (crewMachine w publishers topics).Step P.crew (.perform role o answer) Q.crew) ∨
    (Q.crew.shared = P.crew.shared ∧ ∀ role, Q.crew.task role = P.crew.task role ∨
      incident.drops = some role ∧ Q.crew.task role = .done none) := by
  cases step with
  | take reading move => exact .inl ⟨_, _, rfl, reading, rfl, move⟩
  | perform move => exact .inr (.inl ⟨_, _, _, rfl, rfl, move⟩)
  | interrupted _ _ =>
      refine .inr (.inr ⟨rfl, ?_⟩)
      exact (Function.forall_update_iff P.crew.task fun role p => p = P.crew.task role ∨
        some .startup = some role ∧ p = .done none).mpr ⟨.inr ⟨rfl, rfl⟩, fun _ _ => .inl rfl⟩
  | @dropped i _ _ =>
      refine .inr (.inr ⟨rfl, ?_⟩)
      exact (Function.forall_update_iff P.crew.task fun role p => p = P.crew.task role ∨
        some (.reader (.monitor i)) = some role ∧ p = .done none).mpr
        ⟨.inr ⟨rfl, rfl⟩, fun _ _ => .inl rfl⟩
  | _ => exact .inr (.inr ⟨rfl, fun _ => .inl rfl⟩)

/-- Owicki-Gries for the process: an assertion on each task's remaining program that a task fulfils
which is dropped, that its own operations carry along and that the others leave true. -/
theorem Run.assertion {A : Role ι → World Value → Handler Value (Option SyncOutcome) → Prop}
    (run : Run w publishers topics C P Q) (begin_ : ∀ role, A role P.crew.shared (P.crew.task role))
    (dropped : ∀ incident role world p, C incident → incident.drops = some role → A role world p →
      A role world (.done none))
    (take : ∀ worker world p msg, C (.take worker msg) → A (.reader worker) world p →
      A (.reader worker) world ((worker.receives topics msg).handler w publishers))
    (own : ∀ {role world o next answer}, A role world (.perform o next) → world.Answers o answer →
      A role (world.after o) (next answer))
    (other : ∀ {role role' world o next answer q}, A role world (.perform o next) →
      A role' world q → role ≠ role' → world.Answers o answer → A role' (world.after o) q) :
    ∀ role, A role Q.crew.shared (Q.crew.task role) := by
  induction run with
  | refl => exact begin_
  | @step Q incident R _ allowed one ih =>
      intro role
      rcases one.crew_cases with ⟨worker, msg, rfl, _, _, move⟩ |
        ⟨role', o, answer, rfl, _, move⟩ | ⟨shared, task⟩
      · obtain ⟨_, shared, task⟩ := move.taken
        rw [shared, task]
        refine (Function.forall_update_iff Q.crew.task fun role p => A role Q.crew.shared p).mpr
          ⟨?_, ?_⟩ role
        · exact take worker _ _ msg allowed (ih _)
        · exact fun role _ => ih role
      · obtain ⟨next, ready, ⟨answered, after⟩, task⟩ := move.performed
        have acting := ih role'
        rw [ready] at acting
        rw [after, task]
        refine (Function.forall_update_iff Q.crew.task fun role p =>
          A role (Q.crew.shared.after o) p).mpr ⟨?_, ?_⟩ role
        · exact own acting answered
        · exact fun role different => other acting (ih role) (Ne.symm different) answered
      · rw [shared]
        rcases task role with same | ⟨drops, none'⟩
        · exact same ▸ ih role
        · exact none' ▸ dropped incident role _ _ allowed drops (ih role)

/-- A contract whose answers an invariant bears out and whose operations keep it. If what the tasks
begin with and all the messages that are taken meet it, the invariant holds from then on. -/
theorem Run.kept {c : Contract (effects Value) Unit} {I : World Value → Prop}
    (run : Run w publishers topics C P Q) (begins : I P.crew.shared)
    (tasks : ∀ role, (P.crew.task role).Meets c (fun _ _ => True) ())
    (messages : ∀ worker msg, C (.take worker msg) →
      ((worker.receives topics msg).handler w publishers).Meets c (fun _ _ => True) ())
    (operation : ∀ {world : World Value} {o : Op Value} {answer : o.Answer}, I world →
      world.Answers o answer → c.ok () o → c.may () o answer ∧ I (world.after o)) :
      I Q.crew.shared := by
  let A : Role ι → World Value → Handler Value (Option SyncOutcome) → Prop := fun _ world p =>
    I world ∧ p.Meets c (fun _ _ => True) ()
  have all : ∀ role, A role Q.crew.shared (Q.crew.task role) := by
    refine run.assertion (A := A) (fun role => ⟨begins, tasks role⟩) ?_ ?_ ?_ ?_
    · exact fun _ _ _ _ _ _ holds => ⟨holds.1, trivial⟩
    · exact fun worker _ _ msg allowed holds => ⟨holds.1, messages worker msg allowed⟩
    · intro role world o next answer holds answered
      obtain ⟨relied, after⟩ := operation holds.1 answered holds.2.1
      exact ⟨after, holds.2.2 answer relied⟩
    · intro role role' world o next answer q acts others _ answered
      exact ⟨(operation acts.1 answered acts.2.1).2, others.2⟩
  exact (all .startup).1

/-- What is known of every state of the process: who has returned and why, and who may be busy. -/
structure Sound (P : Process Value ι) : Prop where
  begun : P.life.stage .controls ≠ .unstarted
  returned : ∀ worker, P.life.stage worker = .returned → P.life.cancelled = true
  phoebus : P.life.phoebus = .returned → P.life.cancelled = true
  reported : P.life.health = .notServing → P.life.cancelled = true
  aborted : P.life.aborted = true → P.life.phoebus = .returned
  unstarted : P.life.phoebus = .hydrating → ∀ i, P.life.stage (.monitor i) = .unstarted
  startup : P.life.phoebus ≠ .hydrating → (P.crew.task .startup).busy = false
  resting : ∀ worker, P.life.stage worker ≠ .reading → (P.crew.task (.reader worker)).busy = false

omit [DecidableEq ι] [DecidableEq Value] in
theorem sound_start (snapshots : List (String × Except Unit (List StringMessage))) :
    (start w snapshots : Process Value ι).Sound where
  begun at_ := by cases at_
  returned worker at_ := by cases worker <;> cases at_
  phoebus at_ := by cases at_
  reported at_ := by cases at_
  aborted at_ := by cases at_
  unstarted _ _ := rfl
  startup other := absurd rfl other
  resting _ _ := rfl

omit [DecidableEq Value] in
theorem Sound.setStage (sound : P.Sound) {worker : Worker ι} {stage : ReaderStage}
    (started : P.life.stage worker ≠ .unstarted) (starts : stage ≠ .unstarted)
    (returns : stage = .returned → P.life.cancelled = true)
    (idle : (P.crew.task (.reader worker)).busy = false) : (P.setStage worker stage).Sound := by
  refine ⟨?_, ?_, sound.phoebus, sound.reported, sound.aborted, ?_, sound.startup, ?_⟩
  · intro at_
    by_cases same : worker = .controls
    · subst same
      exact starts (by simpa [Process.setStage] using at_)
    · exact sound.begun (by simpa [Process.setStage, Ne.symm same] using at_)
  · exact (Function.forall_update_iff P.life.stage fun _ at_ => at_ = .returned →
      P.life.cancelled = true).mpr ⟨returns, fun other _ => sound.returned other⟩
  · intro hydrating i
    have waits := sound.unstarted hydrating i
    have other : Worker.monitor i ≠ worker := by
      rintro rfl
      exact started waits
    exact (Function.update_of_ne other _ _).trans waits
  · exact (Function.forall_update_iff P.life.stage fun worker at_ => at_ ≠ .reading →
      (P.crew.task (.reader worker)).busy = false).mpr
      ⟨fun _ => idle, fun other _ => sound.resting other⟩

omit [DecidableEq Value] in
theorem Sound.drop (sound : P.Sound) (role : Role ι) : (P.drop role).Sound := by
  have idle : ∀ other, (P.crew.task other).busy = false →
      (Function.update P.crew.task role (.done none) other).busy = false := by
    intro other rest
    by_cases same : other = role
    · rw [same, Function.update_self]
      rfl
    · rwa [Function.update_of_ne same]
  exact ⟨sound.begun, sound.returned, sound.phoebus, sound.reported, sound.aborted, sound.unstarted,
    fun other => idle _ (sound.startup other), fun worker other =>
    idle _ (sound.resting worker other)⟩

omit [DecidableEq ι] [DecidableEq Value] in
theorem Sound.of_move (sound : P.Sound) (life : Q.life = P.life)
    (acts : ∀ role, (Q.crew.task role).busy = true → (P.crew.task role).busy = true ∨
      ∃ worker, role = .reader worker ∧ P.life.stage worker = .reading) : Q.Sound := by
  rw [← life] at acts
  obtain ⟨begun, returned, phoebus, reported, aborted, unstarted, startup, resting⟩ := sound
  rw [← life] at begun returned phoebus reported aborted unstarted startup resting
  refine ⟨begun, returned, phoebus, reported, aborted, unstarted, fun other => ?_,
    fun worker other => ?_⟩
  · rw [Bool.eq_false_iff]
    intro busy
    rcases acts _ busy with before | ⟨worker, same, _⟩
    · rw [startup other] at before
      cases before
    · cases same
  · rw [Bool.eq_false_iff]
    intro busy
    rcases acts _ busy with before | ⟨worker', same, reading⟩
    · rw [resting worker other] at before
      cases before
    · cases same
      exact other reading

theorem sound_step [Nonempty ι] (sound : P.Sound) (step : Step w publishers topics P incident Q) :
    Q.Sound := by
  have resting := sound.resting
  cases step with
  | @take worker msg crew reading move =>
      refine sound.of_move (Q := { P with crew := crew }) rfl fun role busy => ?_
      obtain ⟨_, _, task⟩ := move.taken
      by_cases same : role = .reader worker
      · exact .inr ⟨worker, same, reading⟩
      · simp only [task, Function.update_of_ne same] at busy
        exact .inl busy
  | @perform role o answer crew move =>
      refine sound.of_move (Q := { P with crew := crew }) rfl fun role' busy => ?_
      obtain ⟨next, ready, _, task⟩ := move.performed
      by_cases same : role' = role
      · subst same
        exact .inl (by rw [ready]; rfl)
      · simp only [task, Function.update_of_ne same] at busy
        exact .inl busy
  | @connected worker at_ =>
      have idle := resting worker (by simp [at_])
      exact sound.setStage (by simp [at_]) (by simp) (by simp) idle
  | @left worker at_ idle => exact sound.setStage (by simp [at_]) (by simp) (by simp) idle
  | @checked worker at_ =>
      have idle := resting worker (by simp [at_])
      refine sound.setStage (by simp [at_]) ?_ ?_ idle <;> cases P.life.cancelled <;> simp
  | @woken worker at_ =>
      have idle := resting worker (by simp [at_])
      exact sound.setStage (by simp [at_]) (by simp) (by simp) idle
  | hydrated hydrating idle =>
      have unstarted := sound.unstarted hydrating
      refine ⟨sound.begun, ?_, by simp [Process.hydrated], sound.reported, ?_,
        by simp [Process.hydrated], fun _ => idle, ?_⟩
      · rintro (_ | i) at_
        · exact sound.returned .controls at_
        · cases at_
      · intro aborted
        have returned := sound.aborted aborted
        rw [hydrating] at returned
        cases returned
      · rintro (_ | i) other
        · exact resting .controls other
        · exact resting (.monitor i) (by simp [unstarted i])
  | interrupted hydrating cancelled =>
      refine ⟨sound.begun, sound.returned, fun _ => cancelled, sound.reported,
        fun _ => rfl, by simp [Process.drop], ?_, ?_⟩
      · intro _
        simp [Process.drop, Program.busy]
      · intro worker other
        simpa [Process.drop] using resting worker other
  | dismissed supervising cancelled =>
      refine ⟨sound.begun, sound.returned, fun _ => cancelled, sound.reported,
        fun _ => rfl, by simp, fun _ => ?_, resting⟩
      exact sound.startup (by simp [supervising])
  | joined supervising all =>
      obtain ⟨i⟩ := ‹Nonempty ι›
      have cancelled := sound.returned _ (all i)
      refine ⟨sound.begun, sound.returned, fun _ => cancelled, sound.reported,
        fun _ => rfl, by simp, fun _ => ?_, resting⟩
      exact sound.startup (by simp [supervising])
  | @dropped i aborted there =>
      have returned := sound.aborted aborted
      have cancelled := sound.phoebus returned
      have dropped := sound.drop (.reader (.monitor i))
      refine ⟨?_, ?_, sound.phoebus, sound.reported, sound.aborted, ?_, dropped.startup, ?_⟩
      · exact fun at_ => sound.begun (by simpa [Process.setStage, Process.drop] using at_)
      · exact fun _ _ => cancelled
      · intro hydrating
        rw [show P.life.phoebus = .hydrating from hydrating] at returned
        cases returned
      · refine (Function.forall_update_iff P.life.stage fun worker at_ => at_ ≠ .reading →
          ((P.drop (.reader (.monitor i))).crew.task (.reader worker)).busy = false).mpr ⟨?_, ?_⟩
        · intro _
          simp [Process.drop, Program.busy]
        · exact fun worker _ => dropped.resting worker
  | cancel =>
      exact ⟨sound.begun, fun _ _ => rfl, fun _ => rfl, fun _ => rfl,
        sound.aborted, sound.unstarted, sound.startup, resting⟩
  | reported serving cancelled =>
      exact ⟨sound.begun, sound.returned, sound.phoebus, fun _ => cancelled,
        sound.aborted, sound.unstarted, sound.startup, resting⟩
  | serverFailed serving =>
      exact ⟨sound.begun, fun _ _ => rfl, fun _ => rfl, by simp, sound.aborted, sound.unstarted,
        sound.startup, resting⟩
  | serverStopped serving =>
      exact ⟨sound.begun, sound.returned, sound.phoebus, by simp, sound.aborted, sound.unstarted,
        sound.startup, resting⟩

theorem Run.sound [Nonempty ι] (run : Run w publishers topics C P Q)
    (sound : P.Sound) : Q.Sound := by
  induction run with
  | refl => exact sound
  | step _ _ one ih => exact sound_step ih one

def advance (env : Env) (role : Role ι) (n : Nat) (P : Process Value ι) : Process Value ι :=
  { P with crew := P.crew.advance env.answer role n }

theorem Run.advance (run : Run w publishers topics C P Q) (env : Env) (role : Role ι) (n : Nat)
    (allowed : ∀ o answer, C (.perform role o answer)) :
    Run w publishers topics C P (Q.advance env role n) := by
  obtain ⟨moves, trace⟩ := Machine.trace_advance (K := crewMachine w publishers topics)
    (C := fun _ move => ∃ o answer, move = .perform role o answer)
    (P := Q.crew) env.answer_effect role n fun o _ _ => ⟨o, _, rfl⟩
  refine trace.invariant
    (I := fun _ crew => Run w publishers topics C P { Q with crew := crew }) run ?_
  rintro _ crew move crew' before ⟨o, answer, rfl⟩ step
  exact before.step (allowed o answer) (.perform step)

def handed (P : Process FlatJson.Scalar Bool) (worker : Worker Bool) (msg : StringMessage) :
    Process FlatJson.Scalar Bool :=
  { P with
    crew := P.crew.hand (crewMachine PlainWire.wire PlainWire.publishers PlainWire.monitored)
      (.reader worker) msg }

theorem handed_step (P : Process FlatJson.Scalar Bool) (worker : Worker Bool) (msg : StringMessage)
    (reading : P.life.stage worker = .reading)
    (idle : (P.crew.task (.reader worker)).busy = false) :
    PlantStep P (.take worker msg) (P.handed worker msg) :=
  .take reading (Machine.step_hand msg idle)

def fanStatus : StringMessage := PlainWire.statusMessage "fan" "BYPASSED"

theorem fanStatus_device :
    Worker.deviceOf PlainWire.wire PlainWire.monitored .controls fanStatus = some "fan" := by
  decide +kernel

/-- The Controls task is amid a status of the fan when hydration ends. -/
def plantOverlapping : Process FlatJson.Scalar Bool :=
  ((((plantStart.setStage .controls .reading).handed .controls fanStatus).advance PlainWire.env
    (.reader .controls) 1).advance PlainWire.env .startup 3).hydrated

def plantMonitoring : Process FlatJson.Scalar Bool :=
  ((plantOverlapping.setStage (.monitor false) .reading).handed (.monitor false)
    (PlainWire.configMessage "pump" "true")).advance PlainWire.env (.reader (.monitor false)) 2

theorem plantOverlapping_run : PlantRun plantStart plantOverlapping := by
  have connects : PlantStep plantStart (.connected .controls) _ := .connected rfl
  have takes := handed_step (plantStart.setStage .controls .reading) .controls fanStatus rfl rfl
  have looks : PlantRun plantStart _ :=
    (((Run.refl _).step trivial connects).step trivial takes).advance
    PlainWire.env (.reader .controls) 1 fun _ _ => trivial
  have reads := looks.advance PlainWire.env .startup 3 fun _ _ => trivial
  exact reads.step trivial (.hydrated rfl (by decide +kernel))

section
variable [Nonempty ι] {snapshots : List (String × Except Unit (List StringMessage))}

/-- The process goes on until it is cancelled: neither of its two tasks returns and no monitor does,
whatever streams end, and it is not reported as out of service before. -/
theorem stops_only_when_cancelled (run : Run w publishers topics C (start w snapshots) P)
    (stopped : P.life.phoebus = .returned ∨ (∃ worker, P.life.stage worker = .returned) ∨
      P.life.health = .notServing) : P.life.cancelled = true := by
  have sound := run.sound (sound_start snapshots)
  rcases stopped with phoebus | ⟨worker, returned⟩ | reported
  · exact sound.phoebus phoebus
  · exact sound.returned worker returned
  · exact sound.reported reported

theorem failedServer_cancels : ∃ P, PlantRun plantStart P ∧ P.life.stage .controls = .returned ∧
    P.life.phoebus = .hydrating ∧ P.life.cancelled = true := by
  let reading := plantStart.setStage .controls .reading
  let failed := { reading with life := { reading.life with health := .stopped, cancelled := true } }
  let leaving := failed.setStage .controls .leaving
  have connects : PlantStep plantStart (.connected .controls) reading := .connected rfl
  have fails : PlantStep reading .serverFailed failed := .serverFailed rfl
  have leaves : PlantStep failed (.left .controls) leaving := .left rfl rfl
  have returns : PlantStep leaving (.checked .controls) (leaving.setStage .controls .returned) :=
    .checked rfl
  have failing : PlantRun plantStart failed :=
    ((Run.refl _).step trivial connects).step trivial fails
  have run : PlantRun plantStart (leaving.setStage .controls .returned) :=
    (failing.step trivial leaves).step trivial returns
  exact ⟨_, run, rfl, rfl, stops_only_when_cancelled run (.inr (.inl ⟨.controls, rfl⟩))⟩

def OfMonitor (move : Move (effects Value) (Role ι) StringMessage) : Prop :=
  ∃ i, move.task = .reader (.monitor i)

variable (w publishers topics) in
/-- From `P` to `Q` the tasks are interleaved, without the monitors first, and without startup
once it has ended. -/
def Phased (P Q : Process Value ι) : Prop := ∃ before crew after,
  (crewMachine w publishers topics).Trace (fun _ move => ¬ OfMonitor move) P.crew before crew ∧
  (crewMachine w publishers topics).Trace (fun _ move => move.task ≠ .startup) crew after Q.crew ∧
  (Q.life.phoebus = .hydrating → after = []) ∧
  (Q.life.phoebus = .supervising → (crew.task .startup).busy = false)

omit [Nonempty ι] in
theorem Phased.move {move : Move (effects Value) (Role ι) StringMessage}
    (phased : Phased w publishers topics P Q) (sound : Q.Sound) (there : Q.life.phoebus ≠ .returned)
    (step : (crewMachine w publishers topics).Step Q.crew move R.crew) (life : R.life = Q.life)
    (acts : (∃ worker, move.task = .reader worker ∧ Q.life.stage worker = .reading) ∨
      (Q.crew.task move.task).busy = true) : Phased w publishers topics P R := by
  have own : ∀ role, move.task = role → (Q.crew.task role).busy = false →
      ∃ worker, role = .reader worker ∧ Q.life.stage worker = .reading := by
    rintro role rfl idle
    rcases acts with reading | busy
    · exact reading
    · rw [idle] at busy
      cases busy
  obtain ⟨before, crew, after, first, later, none', ended⟩ := phased
  rw [Phased, life]
  cases at_ : Q.life.phoebus with
  | returned => exact absurd at_ there
  | hydrating =>
      obtain rfl := none' at_
      rw [← later.eq_of_nil] at first
      have notMonitor : ¬ OfMonitor move := by
        rintro ⟨i, same⟩
        have waits := sound.unstarted at_ i
        obtain ⟨_, ⟨⟩, reading⟩ := own _ same (sound.resting _ (by simp [waits]))
        rw [waits] at reading
        cases reading
      exact ⟨_, R.crew, [], first.snoc notMonitor step, .nil _, fun _ => rfl, by simp⟩
  | supervising =>
      have notStartup : move.task ≠ .startup := by
        intro same
        obtain ⟨_, ⟨⟩, _⟩ := own _ same (sound.startup (by simp [at_]))
      exact ⟨before, crew, _, first, later.snoc notStartup step, by simp, fun _ => ended at_⟩

/-- As long as the Phoebus task is there nothing is dropped, and the monitors begin where
hydration has ended. -/
theorem interleaved_in_phases (run : Run w publishers topics C (start w snapshots) P)
    (there : P.life.phoebus ≠ .returned) : Phased w publishers topics (start w snapshots) P := by
  induction run with
  | refl => exact ⟨[], _, [], .nil _, .nil _, fun _ => rfl, fun at_ => by cases at_⟩
  | @step Q incident R before _ one ih =>
      have sound := before.sound (sound_start snapshots)
      cases one with
      | @take worker msg crew reading move =>
          exact (ih there).move sound there move rfl (.inl ⟨worker, rfl, reading⟩)
      | @perform role o answer crew move =>
          obtain ⟨next, ready, _, _⟩ := move.performed
          refine (ih there).move sound there move rfl (.inr ?_)
          rw [Move.task, ready]
          rfl
      | hydrated hydrating idle =>
          obtain ⟨first, crew, rest, hydration, later, none', _⟩ := ih (by simp [hydrating])
          obtain rfl := none' hydrating
          rw [← later.eq_of_nil] at hydration
          exact ⟨first, _, [], hydration, .nil _, fun _ => rfl, fun _ => idle⟩
      | interrupted | dismissed | joined => exact absurd rfl there
      | dropped aborted _ => exact absurd (sound.aborted aborted) there
      | _ => exact ih there

/-- The Controls task reads a status of the fan while hydration reads the config of the pump; then
the monitors are there, and one of them looks at a config amid that status. -/
theorem hydratedPlant_phased : (plantOverlapping.crew.task (.reader .controls)).busy = true ∧
    (plantMonitoring.crew.task (.reader (.monitor false))).busy = true ∧
    Phased PlainWire.wire PlainWire.publishers PlainWire.monitored plantStart plantMonitoring := by
  have connects : PlantStep plantOverlapping (.connected (.monitor false)) _ := .connected rfl
  have takes := handed_step (plantOverlapping.setStage (.monitor false) .reading) (.monitor false)
    (PlainWire.configMessage "pump" "true") rfl rfl
  have run : PlantRun plantStart plantMonitoring :=
    ((plantOverlapping_run.step trivial connects).step trivial takes).advance _ _ _
      fun _ _ => trivial
  refine ⟨by decide +kernel, by decide +kernel, interleaved_in_phases run ?_⟩
  simp [plantMonitoring, plantOverlapping, advance, handed, setStage, hydrated]

end

end Process

end AlarmSync
