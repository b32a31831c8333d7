import AlarmSync.ConcurrentStartup
import Mathlib.Data.Fintype.EquivFin
import Mathlib.Data.Fintype.Option
import Mathlib.Algebra.BigOperators.Group.Finset.Basic
import Mathlib.Algebra.Order.BigOperators.Group.Finset

/-! How the process comes to its end once it is cancelled: each handler performs a bounded number of
operations, each loop is left at its next check, and nobody waits for anybody for ever. -/
namespace EffectProgram

variable {S : Signature} {α β : Type}

/-- What is known is how many operations are left. -/
def countdown (S : Signature) : Contract S Nat where
  may _ _ _ := True
  ok n _ := 0 < n
  step n _ _ := n - 1

namespace Program

def Within (n : Nat) (p : Program S α) : Prop := p.Meets (countdown S) (fun _ _ => True) n

variable {n m : Nat} {p : Program S α}

@[simp] theorem within_done (a : α) : (done a : Program S α).Within n := trivial

theorem Within.next {o : S.Op} {next : S.Answer o → Program S α}
    (within : (perform o next).Within n) (answer : S.Answer o) : ∃ m, n = m + 1 ∧
    (next answer).Within m := by
  obtain ⟨left, rest⟩ := within
  exact ⟨n - 1, (Nat.sub_add_cancel left).symm, rest answer trivial⟩

theorem Within.mono (within : p.Within n) (le : n ≤ m) : p.Within m := by
  refine Meets.refine (· ≤ ·) ?_ (fun _ _ => trivial) le within
  intro k k' o below left
  have left' : 0 < k := left
  exact ⟨lt_of_lt_of_le left' below, fun _ _ => ⟨trivial, Nat.sub_le_sub_right below 1⟩⟩

theorem Within.bind {f : α → Program S β} (first : p.Within n) (second : ∀ a, (f a).Within m) :
    (p >>= f).Within (n + m) := by
  induction p generalizing n with
  | done a => exact (second a).mono (Nat.le_add_left m n)
  | perform o next ih =>
      refine ⟨Nat.lt_of_lt_of_le first.1 (Nat.le_add_right n m), ?_⟩
      intro answer _
      obtain ⟨n', rfl, rest⟩ := first.next answer
      have left : (countdown S).step (n' + 1 + m) o answer = n' + m := by
        simp only [countdown]
        omega
      rw [left]
      exact ih answer rest

end Program
end EffectProgram

namespace AlarmSync
open EffectProgram

variable {Value ι : Type}

def Worker.optionEquiv : Option ι ≃ Worker ι where
  toFun
    | none => .controls
    | some i => .monitor i
  invFun
    | .controls => none
    | .monitor i => some i
  left_inv := by rintro (_ | _) <;> rfl
  right_inv := by rintro (_ | _) <;> rfl

instance [Fintype ι] : Fintype (Worker ι) := .ofEquiv _ Worker.optionEquiv

theorem Worker.card [Fintype ι] : Fintype.card (Worker ι) = Fintype.card ι + 1 := by
  rw [← Fintype.card_congr Worker.optionEquiv, Fintype.card_option]

theorem convey_within (out : Option Outbound) (device : String) (state : CachedState) :
    (convey out device state : Handler Value Unit).Within 2 := by
  cases out with
  | none => exact ⟨Nat.succ_pos _, fun _ _ => trivial⟩
  | some call => exact ⟨Nat.succ_pos _, fun _ _ => ⟨Nat.succ_pos _, fun _ _ => trivial⟩⟩

/-- No handler performs more than six operations: two readings of the caches and one of the clock, a
send, and a record in each cache. -/
theorem message_within [DecidableEq Value] (w : Wire Value)
    (publishers : List String) (m : Message) : (m.handler w publishers).Within 6 := by
  cases m with
  | controls msg =>
      apply Controls.meets_processRuntimeMessage trivial
      intro alarm _ _
      refine ⟨Nat.succ_pos _, fun observed _ => ⟨Nat.succ_pos _, fun known _ => ⟨trivial, ?_⟩⟩⟩
      intro pvMetadata operation _ _ _
      exact (convey_within _ _ _).mono (by decide : 2 ≤ 4)
  | phoebus topic msg =>
      apply Monitor.meets_processRuntimeMessage fun _ => trivial
      · intro key _
        refine ⟨Nat.succ_pos _, fun observed _ => ⟨trivial, ?_⟩⟩
        intro command _ _
        exact (convey_within _ _ _).mono (by decide : 2 ≤ 5)
      · intro key config _ _
        have updated : ∀ n new,
            (Handler.updateMetadata key.device new : Handler Value Unit).Within (n + 1) :=
          fun _ _ => ⟨Nat.succ_pos _, fun _ _ => trivial⟩
        refine ⟨Nat.succ_pos _, fun known _ =>
          ⟨Nat.succ_pos _, fun observed _ => ⟨Nat.succ_pos _, fun now _ => ?_⟩⟩⟩
        exact
          { malformed := fun _ _ => trivial
            duplicate := fun _ _ _ _ => trivial
            unchanged := fun _ _ _ => updated 2 _
            mirrored := fun _ _ _ =>
              (Program.meets_bind _ _).mp ((convey_within _ _ _).bind fun _ => updated 0 _) }

namespace Startup

theorem hydrateMessage_within (w : Wire Value) (topic : String) (msg : StringMessage) :
    (hydrateMessage w topic msg).Within 3 := by
  apply meets_hydrateMessage trivial
  · intro key severity _ _
    exact ⟨Nat.succ_pos _, fun _ _ => trivial⟩
  · intro key config _ _
    refine ⟨Nat.succ_pos _, fun now _ => ⟨trivial, fun state _ => ⟨Nat.succ_pos _, fun _ _ => ?_⟩⟩⟩
    exact ⟨Nat.succ_pos _, fun _ _ => trivial⟩

theorem populateCaches_within (w : Wire Value) (topic : String) (messages : List StringMessage) :
    (populateCaches w topic messages).Within (3 * messages.length) := by
  induction messages with
  | nil => exact trivial
  | cons msg rest ih =>
      refine ((hydrateMessage_within w topic msg).bind fun _ => ih).mono ?_
      rw [List.length_cons]
      omega

theorem hydration_within (w : Wire Value)
    (snapshots : List (String × Except Unit (List StringMessage))) :
    (getExistingMessagesFromPhoebus w snapshots).Within (3 * (recordsOf snapshots).length) := by
  induction snapshots with
  | nil => exact trivial
  | cons snapshot rest ih =>
      obtain ⟨topic, result⟩ := snapshot
      refine ((populateCaches_within w topic _).bind fun _ => ih).mono ?_
      simp only [recordsOf, List.flatMap_cons, List.length_append, List.length_map]
      omega

end Startup

/-- How many more checks and waits there are until the loop is left, once it is cancelled. -/
def ReaderStage.distance : ReaderStage → Nat
  | .sleeping => 4
  | .unstarted | .connecting => 3
  | .reading => 2
  | .leaving => 1
  | .returned => 0

def PhoebusStage.distance : PhoebusStage → Nat
  | .hydrating => 2
  | .supervising => 1
  | .returned => 0

def Health.distance : Health → Nat
  | .serving => 1
  | .notServing | .stopped => 0

def Incident.takes : Incident Value ι → Bool
  | .take .. => true
  | _ => false

namespace Process

variable [DecidableEq ι] [DecidableEq Value] (w : Wire Value) (publishers : List String)
  (topics : ι → String)

/-- One incident after the other. -/
inductive Course : Process Value ι → List (Incident Value ι) → Process Value ι → Prop
  | nil (P) : Course P [] P
  | cons {P incident Q rest R} : Step w publishers topics P incident Q → Course Q rest R →
      Course P (incident :: rest) R

variable {w publishers topics} {P Q R : Process Value ι} {incident : Incident Value ι}
  {incidents : List (Incident Value ι)} {C : Incident Value ι → Prop}
  {snapshots : List (String × Except Unit (List StringMessage))}

/-- How many operations each task may perform before it takes another message. -/
def share (snapshots : List (String × Except Unit (List StringMessage))) : Role ι → Nat
  | .startup => 3 * (recordsOf snapshots).length
  | .reader _ => 6

theorem Run.within (run : Run w publishers topics C (start w snapshots) P) (role : Role ι) :
    (P.crew.task role).Within (share snapshots role) := by
  refine run.assertion (A := fun role _ p => p.Within (share snapshots role)) ?_ ?_ ?_ ?_ ?_ role
  · rintro (_ | worker)
    · exact ((Startup.hydration_within w snapshots).bind fun _ => Program.within_done (n := 0) none)
    · trivial
  · intro _ _ _ _ _ _ _
    trivial
  · intro worker _ _ msg _ _
    exact message_within w publishers _
  · intro role _ _ _ answer within _
    obtain ⟨m, enough, rest⟩ := within.next answer
    exact rest.mono (by omega)
  · intro _ _ _ _ _ _ _ _ within _ _
    exact within

variable [Fintype ι]

/-- No more than so many incidents are left once the process is cancelled, unless
messages are taken. -/
def Load (P : Process Value ι) (n : Nat) : Prop :=
  ∃ (hydration : Nat) (operations : Worker ι → Nat), (P.crew.task .startup).Within hydration ∧
    (∀ worker, (P.crew.task (.reader worker)).Within (operations worker)) ∧
    hydration + ∑ worker,
      (operations worker + (P.life.stage worker).distance) + P.life.phoebus.distance +
      P.life.health.distance ≤ n

omit [DecidableEq Value] in
theorem Load.reader {n gained : Nat} (load : P.Load n) (worker : Worker ι)
    (own : ∀ operations, (P.crew.task (.reader worker)).Within operations → ∃ operations',
      (Q.crew.task (.reader worker)).Within operations' ∧
      operations' + (Q.life.stage worker).distance + 1 ≤ operations +
      (P.life.stage worker).distance + gained)
    (others : ∀ other, other ≠ worker → Q.crew.task (.reader other) = P.crew.task (.reader other) ∧
      Q.life.stage other = P.life.stage other)
    (startup : Q.crew.task .startup = P.crew.task .startup)
    (phoebus : Q.life.phoebus = P.life.phoebus) (health : Q.life.health = P.life.health) :
    ∃ m, n + gained = m + 1 ∧ Q.Load m := by
  obtain ⟨hydration, operations, starting, reading, bound⟩ := load
  obtain ⟨operations', within, less⟩ := own _ (reading worker)
  have before := Finset.add_sum_erase Finset.univ
    (fun worker => operations worker + (P.life.stage worker).distance) (Finset.mem_univ worker)
  have after := Finset.add_sum_erase Finset.univ
    (fun other => Function.update operations worker operations' other +
      (Q.life.stage other).distance)
    (Finset.mem_univ worker)
  have rest : ∑ other ∈ Finset.univ.erase worker,
      (Function.update operations worker operations' other + (Q.life.stage other).distance) =
      ∑ other ∈ Finset.univ.erase worker, (operations other + (P.life.stage other).distance) := by
    refine Finset.sum_congr rfl fun other member => ?_
    have different := Finset.ne_of_mem_erase member
    rw [Function.update_of_ne different, (others _ different).2]
  simp only [Function.update_self] at after
  refine ⟨n + gained - 1, by omega, hydration,
    Function.update operations worker operations', ?_, ?_, ?_⟩
  · rw [startup]
    exact starting
  · refine (Function.forall_update_iff operations fun other allowed =>
      (Q.crew.task (.reader other)).Within allowed).mpr ⟨within, fun other different => ?_⟩
    rw [(others _ different).1]
    exact reading other
  · rw [phoebus, health]
    omega

omit [DecidableEq ι] [DecidableEq Value] in
theorem Load.phase {n : Nat} (load : P.Load n)
    (tasks : ∀ role, Q.crew.task role = P.crew.task role ∨ Q.crew.task role = .done none)
    (stages : ∀ worker, (Q.life.stage worker).distance ≤ (P.life.stage worker).distance)
    (less : Q.life.phoebus.distance + Q.life.health.distance <
      P.life.phoebus.distance + P.life.health.distance) :
    ∃ m, n = m + 1 ∧ Q.Load m := by
  obtain ⟨hydration, operations, starting, reading, bound⟩ := load
  have within : ∀ role n, (P.crew.task role).Within n → (Q.crew.task role).Within n := by
    intro role n allowed
    rcases tasks role with same | none'
    · exact same ▸ allowed
    · exact none' ▸ Program.within_done none
  have sums : ∑ worker, (operations worker + (Q.life.stage worker).distance) ≤
      ∑ worker, (operations worker + (P.life.stage worker).distance) :=
    Finset.sum_le_sum fun worker _ => Nat.add_le_add_left (stages worker) _
  refine ⟨n - 1, by omega, hydration, operations, within _ _ starting, fun worker =>
    within _ _ (reading worker), ?_⟩
  omega

/-- How many incidents an incident makes room for: a message is taken, and its operations follow. -/
def granted (incident : Incident Value ι) : Nat := if incident.takes then 7 else 0

theorem load_step {n : Nat} (sound : P.Sound) (cancelled : P.life.cancelled = true)
    (load : P.Load n) (step : Step w publishers topics P incident Q) :
    ∃ m, n + granted incident = m + 1 ∧ Q.Load m := by
  have moved : ∀ (worker : Worker ι) (stage : ReaderStage),
      stage.distance < (P.life.stage worker).distance →
      ∃ m, n + 0 = m + 1 ∧ (P.setStage worker stage).Load m := by
    intro worker stage less
    refine load.reader worker (fun operations within => ⟨operations, within, ?_⟩) ?_ rfl rfl rfl
    · simp only [setStage, Function.update_self]
      omega
    · intro other different
      exact ⟨rfl, Function.update_of_ne different _ _⟩
  cases step with
  | @take worker msg crew reading move =>
      obtain ⟨_, _, task⟩ := move.taken
      refine load.reader worker (fun operations within => ⟨6, ?_, ?_⟩) ?_ ?_ rfl rfl
      · simp only [task, Function.update_self]
        exact message_within w publishers _
      · simp only [granted, Incident.takes, if_true]
        omega
      · intro other different
        exact ⟨by simp [task, different], rfl⟩
      · simp [task]
  | @perform role o answer crew move =>
      obtain ⟨next, ready, _, task⟩ := move.performed
      cases role with
      | startup =>
          obtain ⟨hydration, operations, starting, reading, bound⟩ := load
          rw [ready] at starting
          obtain ⟨left, rfl, rest⟩ := starting.next answer
          have same : ∀ worker, crew.task (.reader worker) = P.crew.task (.reader worker) := by
            simp [task]
          have fewer : n + granted (.perform .startup o answer : Incident Value ι) = n - 1 + 1 := by
            simp only [granted, Incident.takes, Bool.false_eq_true, if_false]
            omega
          refine ⟨n - 1, fewer, left, operations, ?_, ?_, ?_⟩
          · simpa only [task, Function.update_self] using rest
          · exact fun worker => same worker ▸ reading worker
          · dsimp only
            omega
      | reader worker =>
          refine load.reader worker (fun operations within => ?_) ?_ ?_ rfl rfl
          · rw [ready] at within
            obtain ⟨left, rfl, rest⟩ := within.next answer
            refine ⟨left, by simpa only [task, Function.update_self] using rest, ?_⟩
            dsimp only
            omega
          · intro other different
            exact ⟨by simp [task, different], rfl⟩
          · simp [task]
  | @connected worker at_ => exact moved worker .reading (by rw [at_]; decide)
  | @left worker at_ _ => exact moved worker .leaving (by rw [at_]; decide)
  | @checked worker at_ =>
      rw [cancelled]
      exact moved worker .returned (by rw [at_]; decide)
  | @woken worker at_ => exact moved worker .connecting (by rw [at_]; decide)
  | hydrated hydrating _ =>
      refine load.phase (fun _ => .inl rfl) ?_
        (by simp [hydrating, Process.hydrated, PhoebusStage.distance])
      rintro (_ | i)
      · exact le_rfl
      · simp [Process.hydrated, sound.unstarted hydrating i, ReaderStage.distance]
  | interrupted hydrating _ =>
      refine load.phase ?_ (fun _ => le_rfl) (by simp [hydrating, drop, PhoebusStage.distance])
      exact (Function.forall_update_iff P.crew.task fun role p => p = P.crew.task role ∨
        p = .done none).mpr ⟨.inr rfl, fun _ _ => .inl rfl⟩
  | dismissed supervising _ =>
      exact load.phase (fun _ => .inl rfl) (fun _ => le_rfl)
        (by simp [supervising, PhoebusStage.distance])
  | joined supervising _ =>
      exact load.phase (fun _ => .inl rfl) (fun _ => le_rfl)
        (by simp [supervising, PhoebusStage.distance])
  | @dropped i aborted there =>
      refine load.reader (.monitor i) (fun operations _ => ⟨operations, ?_, ?_⟩) ?_ ?_ rfl rfl
      · simp [drop]
      · have started : 0 < (P.life.stage (.monitor i)).distance := by
          cases at_ : P.life.stage (.monitor i) <;> simp_all [ReaderStage.distance]
        have ended : ReaderStage.returned.distance = 0 := rfl
        simp only [drop, setStage, Function.update_self, ended]
        omega
      · intro other different
        simp [drop, setStage, different]
      · simp [drop, setStage]
  | cancel running => simp [running] at cancelled
  | reported serving _ =>
      exact load.phase (fun _ => .inl rfl) (fun _ => le_rfl) (by simp [serving, Health.distance])
  | serverFailed serving =>
      exact load.phase (fun _ => .inl rfl) (fun _ => le_rfl) (by simp [serving, Health.distance])
  | serverStopped serving =>
      exact load.phase (fun _ => .inl rfl) (fun _ => le_rfl) (by simp [serving, Health.distance])

omit [Fintype ι] in
theorem Step.still_cancelled (step : Step w publishers topics P incident Q)
    (cancelled : P.life.cancelled = true) :
    Q.life.cancelled = true := by
  cases step <;> first | exact cancelled | rfl

omit [Fintype ι] in
theorem reader_goes_on {worker : Worker ι} (started : P.life.stage worker ≠ .unstarted)
    (there : P.life.stage worker ≠ .returned) :
    ∃ incident Q, incident.takes = false ∧ Step w publishers topics P incident Q := by
  cases at_ : P.life.stage worker with
  | unstarted => exact absurd at_ started
  | returned => exact absurd at_ there
  | connecting => exact ⟨.connected worker, _, rfl, .connected at_⟩
  | leaving => exact ⟨.checked worker, _, rfl, .checked at_⟩
  | sleeping => exact ⟨.woken worker, _, rfl, .woken at_⟩
  | reading =>
      cases busy : (P.crew.task (.reader worker)).busy with
      | false => exact ⟨.left worker, _, rfl, .left at_ busy⟩
      | true =>
          -- an operation is always answered, by a failure if need be
          have env : Env := ⟨0, false, ⟨false, false, false⟩⟩
          obtain ⟨o, step⟩ := Machine.step_advance (K := crewMachine w publishers topics)
            (fun o world => env.answer_effect o world) busy
          exact ⟨.perform (.reader worker) o _, _, rfl, .perform step⟩

omit [Fintype ι] in
theorem goes_on (sound : P.Sound) (cancelled : P.life.cancelled = true) :
    P.Finished ∨ ∃ incident Q, incident.takes = false ∧ Step w publishers topics P incident Q := by
  cases at_ : P.life.phoebus with
  | hydrating => exact .inr ⟨.interrupted, _, rfl, .interrupted at_ cancelled⟩
  | supervising => exact .inr ⟨.dismissed, _, rfl, .dismissed at_ cancelled⟩
  | returned =>
      by_cases there : P.life.stage .controls = .returned
      · exact .inl ⟨at_, there⟩
      · exact .inr (reader_goes_on sound.begun there)

variable [Nonempty ι]

theorem course_bounded {n : Nat} (course : Course w publishers topics P incidents Q)
    (sound : P.Sound) (cancelled : P.life.cancelled = true) (load : P.Load n) :
    incidents.length ≤ n + 7 * incidents.countP Incident.takes ∧ Q.Sound ∧
    Q.life.cancelled = true := by
  induction course generalizing n with
  | nil => exact ⟨Nat.zero_le _, sound, cancelled⟩
  | @cons P incident Q rest R step _ ih =>
      obtain ⟨m, granted', load'⟩ := load_step sound cancelled load step
      obtain ⟨bound, ends⟩ := ih (sound_step sound step) (step.still_cancelled cancelled) load'
      refine ⟨?_, ends⟩
      rw [List.length_cons, List.countP_cons]
      unfold granted at granted'
      split <;> simp_all <;> omega

/-- Once the process is cancelled it comes to its end: each message that is still taken aside, with
the operations of its handler, only so many incidents are left, and until both tasks have returned
there is always one that needs no message. -/
theorem shutdown_ends (run : Run w publishers topics C (start w snapshots) P)
    (cancelled : P.life.cancelled = true)
    (course : Course w publishers topics P incidents Q) :
    incidents.length ≤ 3 * (recordsOf snapshots).length + 10 * (Fintype.card ι + 1) + 3 +
      7 * incidents.countP Incident.takes ∧
    (Q.Finished ∨ ∃ incident R, incident.takes = false ∧
      Step w publishers topics Q incident R) := by
  have sound := run.sound (sound_start snapshots)
  have load : P.Load (3 * (recordsOf snapshots).length + 10 * (Fintype.card ι + 1) + 3) := by
    refine ⟨_, fun _ => 6, run.within .startup, fun worker => run.within (.reader worker), ?_⟩
    have each : ∀ worker ∈ (Finset.univ : Finset (Worker ι)),
        6 + (P.life.stage worker).distance ≤ 10 := by
      intro worker _
      cases P.life.stage worker <;> decide
    have readers := Finset.sum_le_card_nsmul _ _ _ each
    have phoebus : P.life.phoebus.distance ≤ 2 := by cases P.life.phoebus <;> decide
    have health : P.life.health.distance ≤ 1 := by cases P.life.health <;> decide
    rw [Finset.card_univ, Worker.card, smul_eq_mul] at readers
    simp only [share]
    omega
  obtain ⟨bound, sound', cancelled'⟩ := course_bounded course sound cancelled load
  exact ⟨bound, goes_on sound' cancelled'⟩

/-- The plant is cancelled amid hydration, which is dropped: the Controls task is still
there, and goes on. -/
theorem interruptedPlant_ends : ∃ P Q, PlantRun plantStart P ∧ P.life.cancelled = true ∧
    Course PlainWire.wire PlainWire.publishers PlainWire.monitored P [.interrupted] Q ∧
    (Q.Finished ∨ ∃ incident R, incident.takes = false ∧ PlantStep Q incident R) := by
  let cancelled := { plantStart with life := { plantStart.life with cancelled := true } }
  have cancels : PlantStep plantStart .cancel cancelled := .cancel rfl
  have run : PlantRun plantStart cancelled := (Run.refl _).step trivial cancels
  have course : Course PlainWire.wire PlainWire.publishers PlainWire.monitored cancelled
      [.interrupted] _ :=
    .cons (.interrupted rfl rfl) (.nil _)
  exact ⟨_, _, run, rfl, course, (shutdown_ends run rfl course).2⟩

end Process

end AlarmSync
