import Mathlib.Data.List.Induction
import Mathlib.Logic.Function.Basic

/-! Runs of a labelled step relation, and simulations between two of them; histories of a step
function. -/
namespace Labelled

variable {σ τ μ ν : Type}

/-- A run, every step of which meets the condition `C` in the state it starts from. -/
inductive Run (Step : σ → μ → σ → Prop) (C : σ → μ → Prop) (start : σ) : σ → Prop
  | start : Run Step C start start
  | step {s s' : σ} {move : μ} : Run Step C start s → C s move → Step s move s' →
      Run Step C start s'

variable {Step : σ → μ → σ → Prop} {C : σ → μ → Prop} {start s : σ}

theorem Run.invariant {I : σ → Prop} (initial : I start)
    (step : ∀ {s move s'}, I s → C s move → Step s move s' → I s')
    (run : Run Step C start s) : I s := by
  induction run with
  | start => exact initial
  | step _ c one ih => exact step ih c one

theorem Run.weaken {C' : σ → μ → Prop} (run : Run Step C start s)
    (h : ∀ s move, C s move → C' s move) : Run Step C' start s := by
  induction run with
  | start => exact .start
  | step _ c one ih => exact .step ih (h _ _ c) one

/-- Forward simulation: related states step to related states, and the conditions carry over. -/
theorem Run.simulates {Step' : τ → ν → τ → Prop} {C' : τ → ν → Prop} {R : σ → τ → Prop} {start' : τ}
    (initial : R start start')
    (step : ∀ {s move s' a}, R s a → C s move → Step s move s' →
      ∃ move' a', C' a move' ∧ Step' a move' a' ∧ R s' a')
    (run : Run Step C start s) : ∃ a, Run Step' C' start' a ∧ R s a := by
  induction run with
  | start => exact ⟨start', .start, initial⟩
  | step _ c one ih =>
      obtain ⟨a, run', related⟩ := ih
      obtain ⟨move', a', c', one', related'⟩ := step related c one
      exact ⟨a', .step run' c' one', related'⟩

/-- An invariant that a move keeps exactly under a condition holds throughout a history exactly if
the condition does at every move. -/
theorem prefix_invariant_iff {next : σ → μ → σ} {I : σ → Prop} (initial : I start)
    (keeps : ∀ s move, I s → (I (next s move) ↔ C s move)) (moves : List μ) :
    (∀ before, before <+: moves → I (before.foldl next start)) ↔
      ∀ before move, before ++ [move] <+: moves → C (before.foldl next start) move := by
  constructor
  · intro holds before move isPrefix
    have now := holds before ((List.prefix_append _ _).trans isPrefix)
    have later := holds _ isPrefix
    rw [List.foldl_append] at later
    exact (keeps _ move now).mp later
  · intro meets before
    induction before using List.reverseRecOn with
    | nil => exact fun _ => initial
    | append_singleton before move ih =>
        intro isPrefix
        have now := ih ((List.prefix_append _ _).trans isPrefix)
        rw [List.foldl_append]
        exact (keeps _ move now).mpr (meets before move isPrefix)

end Labelled

/-! Two systems kept equal by a mirror that remembers one value. Each system holds a value
and reports every change of it on a stream; the mirror reads the streams and sets the other
system to what it reads, unless that is the value it remembers. -/
namespace EchoMirror

inductive Side where
  | left | right
  deriving DecidableEq, Repr

def Side.other : Side → Side
  | left => right
  | right => left

@[simp] theorem Side.other_ne (side : Side) : side.other ≠ side := by
  cases side <;> simp [other]

theorem Side.eq_or_eq_other (side s : Side) : s = side ∨ s = side.other := by
  cases side <;> cases s <;> simp [other]

/-- A report; an echo reports a change that the mirror itself made. -/
structure Mail (X : Type) where
  value : X
  echo : Bool
  deriving DecidableEq, Repr

structure System (X : Type) where
  register : Option X
  held : Side → Option X
  inbox : Side → List (Mail X)
  actions : Nat
  sends : Nat

variable {X : Type}

namespace System

def act (s : System X) (side : Side) (x : X) : System X :=
  { s with
    held := Function.update s.held side (some x)
    inbox := Function.update s.inbox side (s.inbox side ++ [⟨x, false⟩])
    actions := s.actions + 1 }

def drop (s : System X) (side : Side) (rest : List (Mail X)) : System X :=
  { s with inbox := Function.update s.inbox side rest }

/-- The mirror sets the other system, whose report will be an echo. -/
def mirror (s : System X) (side : Side) (x : X) : System X :=
  { s with
    register := some x
    held := Function.update s.held side.other (some x)
    inbox := Function.update s.inbox side.other (s.inbox side.other ++ [⟨x, true⟩])
    sends := s.sends + 1 }

/-- What a system last reported, as far as it is unread, or else what is remembered. -/
def pending (s : System X) (side : Side) : Option X :=
  ((s.inbox side).getLast?.map (·.value)).or s.register

def fresh (s : System X) (side : Side) : Nat := (s.inbox side).countP (!·.echo)

end System

/-- Each system holds the value of its last unread report, or the remembered one. -/
def Settled (s : System X) : Prop := ∀ side, s.pending side = s.held side

/-- Echoes carry what is remembered, and every send was paid for by an action. -/
structure Quiet (s : System X) : Prop where
  echoes : ∀ side, ∀ e ∈ s.inbox side, e.echo = true → s.register = some e.value
  paid : s.sends + (s.fresh .left + s.fresh .right) ≤ s.actions

section
variable {s : System X} {side : Side} {m : Mail X} {rest : List (Mail X)}

theorem pending_head (head : s.inbox side = m :: rest) :
    s.pending side = (rest.getLast?.map (·.value)).or (some m.value) := by
  rw [System.pending, head, List.getLast?_cons]
  cases rest.getLast? <;> rfl

theorem held_eq_register (settled : Settled s) (empty : s.inbox side = []) :
    s.held side = s.register := by
  rw [← settled side, System.pending, empty]
  rfl

theorem settled_act (settled : Settled s) (side : Side) (x : X) : Settled (s.act side x) := by
  intro s'
  by_cases same : s' = side
  · subst same
    simp [System.act, System.pending]
  · simpa [System.act, System.pending, same] using settled s'

theorem settled_drop (settled : Settled s) (head : s.inbox side = m :: rest)
    (known : s.register = some m.value) : Settled (s.drop side rest) := by
  have here := settled side
  rw [pending_head head] at here
  intro s'
  rcases Side.eq_or_eq_other side s' with rfl | rfl
  · simpa [System.drop, System.pending, known] using here
  · simpa [System.drop, System.pending] using settled side.other

theorem settled_mirror (settled : Settled s) (head : s.inbox side = m :: rest) :
    Settled ((s.drop side rest).mirror side m.value) := by
  have here := settled side
  rw [pending_head head] at here
  intro s'
  rcases Side.eq_or_eq_other side s' with rfl | rfl
  · have ne : s' ≠ s'.other := fun h => Side.other_ne s' h.symm
    simpa [System.drop, System.mirror, System.pending, ne] using here
  · simp [System.drop, System.mirror, System.pending]

theorem fresh_both (s : System X) (side : Side) :
    s.fresh .left + s.fresh .right = s.fresh side + s.fresh side.other := by
  cases side with
  | left => rfl
  | right => exact Nat.add_comm _ _

theorem quiet_act (quiet : Quiet s) (side : Side) (x : X) : Quiet (s.act side x) := by
  refine ⟨?_, ?_⟩
  · intro s' e member echo
    by_cases same : s' = side
    · subst same
      have split : e ∈ s.inbox s' ∨ e = ⟨x, false⟩ := by simpa [System.act] using member
      rcases split with old | rfl
      · exact quiet.echoes s' e old echo
      · cases echo
    · exact quiet.echoes s' e (by simpa [System.act, same] using member) echo
  · have paid := quiet.paid
    rw [fresh_both _ side] at paid ⊢
    simp only [System.fresh, System.act, Function.update_self, Side.other_ne, ne_eq,
      not_false_eq_true, Function.update_of_ne, List.countP_append, List.countP_singleton,
      Bool.not_false, if_true] at paid ⊢
    omega

theorem quiet_drop (quiet : Quiet s) (head : s.inbox side = m :: rest) :
    Quiet (s.drop side rest) := by
  refine ⟨?_, ?_⟩
  · intro s' e member echo
    rcases Side.eq_or_eq_other side s' with rfl | rfl
    · have old : e ∈ rest := by simpa [System.drop] using member
      exact quiet.echoes s' e (head ▸ List.mem_cons_of_mem m old) echo
    · exact quiet.echoes _ e (by simpa [System.drop] using member) echo
  · have paid := quiet.paid
    rw [fresh_both _ side] at paid ⊢
    simp only [System.fresh, System.drop, head, Function.update_self, Side.other_ne, ne_eq,
      not_false_eq_true, Function.update_of_ne, List.countP_cons] at paid ⊢
    omega

theorem quiet_mirror (quiet : Quiet s) (head : s.inbox side = m :: rest)
    (fresh : s.register ≠ some m.value)
    (gone : ∀ e ∈ rest ++ s.inbox side.other, e.echo = false) :
    Quiet ((s.drop side rest).mirror side m.value) := by
  have notEcho : m.echo = false := by
    cases echo : m.echo with
    | false => rfl
    | true => exact absurd (quiet.echoes side m (head ▸ List.mem_cons_self) echo) fresh
  have ne : side ≠ side.other := fun h => Side.other_ne side h.symm
  refine ⟨?_, ?_⟩
  · intro s' e member echo
    rcases Side.eq_or_eq_other side s' with rfl | rfl
    · have old : e ∈ rest := by simpa [System.drop, System.mirror, ne] using member
      rw [gone e (List.mem_append_left _ old)] at echo
      cases echo
    · have split : e ∈ s.inbox side.other ∨ e = ⟨m.value, true⟩ := by
        simpa [System.drop, System.mirror] using member
      rcases split with old | rfl
      · rw [gone e (List.mem_append_right _ old)] at echo
        cases echo
      · rfl
  · have paid := quiet.paid
    rw [fresh_both _ side] at paid ⊢
    simp only [System.fresh, System.drop, System.mirror, head, Function.update_self, Side.other_ne,
      ne_eq, not_false_eq_true, Function.update_of_ne, List.countP_cons, List.countP_append,
      List.countP_nil, notEcho, ne, Bool.not_false, Bool.not_true, if_true, Bool.false_eq_true,
      if_false] at paid ⊢
    omega

end

inductive Move (X : Type) where
  | act (side : Side) (x : X)
  | receive (side : Side)

variable [DecidableEq X]

def System.receive (s : System X) (side : Side) (m : Mail X) (rest : List (Mail X)) : System X :=
  if s.register = some m.value then s.drop side rest else (s.drop side rest).mirror side m.value

inductive Step : System X → Move X → System X → Prop
  | act (s : System X) (side : Side) (x : X) : Step s (.act side x) (s.act side x)
  | receive {s : System X} {side : Side} {m : Mail X} {rest : List (Mail X)}
      (head : s.inbox side = m :: rest) : Step s (.receive side) (s.receive side m rest)

/-- A report that is mirrored leaves no echo unread behind it. -/
def Clear (s : System X) : Move X → Prop
  | .act .. => True
  | .receive side => ∀ m rest, s.inbox side = m :: rest → s.register ≠ some m.value →
      ∀ e ∈ rest ++ s.inbox side.other, e.echo = false

theorem settled_run {C : System X → Move X → Prop} {start s : System X} (settled : Settled start)
    (run : Labelled.Run Step C start s) : Settled s := by
  refine run.invariant settled ?_
  intro s move s' settled _ step
  cases step with
  | act side x => exact settled_act settled side x
  | @receive side m rest head =>
      unfold System.receive
      split_ifs with known
      · exact settled_drop settled head known
      · exact settled_mirror settled head

/-- In a run whose mirrored reports leave no echo unread, no echo is ever mirrored, and there are
never more sends than actions. -/
theorem quiet_run {start s : System X} (quiet : Quiet start)
    (run : Labelled.Run Step Clear start s) : Quiet s := by
  refine run.invariant quiet ?_
  intro s move s' quiet clear step
  cases step with
  | act side x => exact quiet_act quiet side x
  | @receive side m rest head =>
      unfold System.receive
      split_ifs with known
      · exact quiet_drop quiet head
      · exact quiet_mirror quiet head known (clear m rest head known)

end EchoMirror
