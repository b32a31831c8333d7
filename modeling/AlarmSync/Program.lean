import Mathlib.Logic.Function.Basic

/-! Programs over a signature of operations. The same program text is run
uninterrupted, or one operation at a time among other tasks sharing its state. -/
namespace EffectProgram

/-- The operations a program may perform, each with the type of its answer. -/
structure Signature where
  Op : Type
  Answer : Op → Type

/-- Either finished, or one operation and what follows each answer to it. -/
inductive Program (S : Signature) (α : Type) where
  | done (a : α)
  | perform (op : S.Op) (next : S.Answer op → Program S α)

variable {S : Signature} {α β : Type}

namespace Program

def bind : Program S α → (α → Program S β) → Program S β
  | done a, f => f a
  | perform op next, f => perform op fun answer => (next answer).bind f

instance : Monad (Program S) where
  pure := done
  bind := bind

@[simp] theorem pure_eq (a : α) : (pure a : Program S α) = done a := rfl

@[simp] theorem done_bind (a : α) (f : α → Program S β) : (done a >>= f) = f a := rfl

@[simp] theorem perform_bind (o : S.Op) (next : S.Answer o → Program S α) (f : α → Program S β) :
    (perform o next >>= f) = perform o fun answer => next answer >>= f := rfl

/-- An environment that answers every operation at once and moves its own state. -/
abbrev Environment (S : Signature) (σ : Type) := (o : S.Op) → σ → S.Answer o × σ

variable {σ : Type}

def run (env : Environment S σ) : Program S α → σ → α × σ
  | done a, s => (a, s)
  | perform o next, s => (next (env o s).1).run env (env o s).2

@[simp] theorem run_done (env : Environment S σ) (a : α) (s : σ) :
    (done a : Program S α).run env s = (a, s) := rfl

@[simp] theorem run_perform (env : Environment S σ) (o : S.Op) (next : S.Answer o → Program S α)
    (s : σ) : (perform o next).run env s = (next (env o s).1).run env (env o s).2 := rfl

@[simp] theorem run_bind (env : Environment S σ) (p : Program S α) (f : α → Program S β) (s : σ) :
    (p >>= f).run env s = (f (p.run env s).1).run env (p.run env s).2 := by
  induction p generalizing s with
  | done a => rfl
  | perform o next ih => exact ih (env o s).1 (env o s).2

end Program

/-- Tasks over one shared state; each is what remains of the handler it is running. -/
structure Pool (S : Signature) (ι σ α : Type) where
  shared : σ
  task : ι → Program S α

/-- A task takes its next message, or performs its next operation and gets this answer. -/
inductive Move (S : Signature) (ι M : Type) where
  | take (i : ι) (m : M)
  | perform (i : ι) (o : S.Op) (answer : S.Answer o)

/-- What each task does with a message, and what an operation does to the shared state. -/
structure Machine (S : Signature) (ι M σ α : Type) where
  handler : ι → M → Program S α
  effect : (o : S.Op) → σ → S.Answer o → σ → Prop

variable {ι M σ : Type} [DecidableEq ι]

namespace Machine

/-- One atomic step. A task takes a message only when its last handler has finished. -/
inductive Step (K : Machine S ι M σ α) : Pool S ι σ α → Move S ι M → Pool S ι σ α → Prop
  | take {s : σ} {t : ι → Program S α} {i : ι} {a : α} (m : M) (idle : t i = .done a) :
      Step K ⟨s, t⟩ (.take i m) ⟨s, Function.update t i (K.handler i m)⟩
  | perform {s s' : σ} {t : ι → Program S α} {i : ι} {o : S.Op} {next : S.Answer o → Program S α}
      {answer : S.Answer o} (ready : t i = .perform o next) (effect : K.effect o s answer s') :
      Step K ⟨s, t⟩ (.perform i o answer) ⟨s', Function.update t i (next answer)⟩

theorem Step.taken {K : Machine S ι M σ α} {P Q : Pool S ι σ α} {i : ι} {m : M}
    (step : K.Step P (.take i m) Q) : (∃ a, P.task i = .done a) ∧ Q.shared = P.shared ∧
      Q.task = Function.update P.task i (K.handler i m) := by
  cases step with
  | take _ idle => exact ⟨⟨_, idle⟩, rfl, rfl⟩

theorem Step.performed {K : Machine S ι M σ α} {P Q : Pool S ι σ α} {i : ι} {o : S.Op}
    {answer : S.Answer o} (step : K.Step P (.perform i o answer) Q) : ∃ next,
      P.task i = .perform o next ∧ K.effect o P.shared answer Q.shared ∧
        Q.task = Function.update P.task i (next answer) := by
  cases step with
  | perform ready effect => exact ⟨_, ready, effect, rfl⟩

/-- A finite run, every step of which meets the condition `C` in the pool it starts from. -/
inductive Trace (K : Machine S ι M σ α) (C : Pool S ι σ α → Move S ι M → Prop) :
    Pool S ι σ α → List (Move S ι M) → Pool S ι σ α → Prop
  | nil (P) : Trace K C P [] P
  | snoc {P moves Q move R} : Trace K C P moves Q → C Q move → K.Step Q move R →
      Trace K C P (moves ++ [move]) R

variable {K : Machine S ι M σ α} {C : Pool S ι σ α → Move S ι M → Prop} {P Q R : Pool S ι σ α}
  {moves rest : List (Move S ι M)}

theorem Trace.single {move : Move S ι M} (c : C P move) (step : K.Step P move Q) :
    K.Trace C P [move] Q := .snoc (.nil P) c step

theorem Trace.append (first : K.Trace C P moves Q) (second : K.Trace C Q rest R) :
    K.Trace C P (moves ++ rest) R := by
  induction second with
  | nil => simpa only [List.append_nil] using first
  | snoc _ c step ih =>
      rw [← List.append_assoc]
      exact .snoc ih c step

theorem Trace.weaken {C' : Pool S ι σ α → Move S ι M → Prop} (trace : K.Trace C P moves Q)
    (h : ∀ Q move, C Q move → C' Q move) : K.Trace C' P moves Q := by
  induction trace with
  | nil => exact .nil _
  | snoc _ c step ih => exact .snoc ih (h _ _ c) step

/-- Invariants may speak of the history as well as of the pool. -/
theorem Trace.invariant {I : List (Move S ι M) → Pool S ι σ α → Prop} (start : I [] P)
    (step : ∀ {moves Q move R}, I moves Q → C Q move → K.Step Q move R → I (moves ++ [move]) R)
    (trace : K.Trace C P moves Q) : I moves Q := by
  induction trace with
  | nil => exact start
  | snoc _ c one ih => exact step ih c one

/-- Owicki-Gries form: an assertion on each task's remaining program that its own steps carry
along and the other tasks' steps leave true. -/
theorem Trace.assertion {A : ι → σ → Program S α → Prop}
    (start : ∀ i, A i P.shared (P.task i))
    (take : ∀ i s a m, A i s (.done a) → A i s (K.handler i m))
    (own : ∀ {i s o next answer s'}, A i s (.perform o next) → K.effect o s answer s' →
      A i s' (next answer))
    (other : ∀ {Q : Pool S ι σ α} {i j o next answer s'}, (∀ k, A k Q.shared (Q.task k)) →
      i ≠ j → Q.task i = .perform o next → C Q (.perform i o answer) →
      K.effect o Q.shared answer s' → A j s' (Q.task j))
    (trace : K.Trace C P moves Q) : ∀ i, A i Q.shared (Q.task i) := by
  refine trace.invariant (I := fun _ Q => ∀ i, A i Q.shared (Q.task i)) start ?_
  intro _ Q move R holds c step j
  cases step with
  | @take s t i a m idle =>
      by_cases same : j = i
      · subst same
        have before : A j s (.done a) := idle ▸ holds j
        simpa only [Function.update_self] using take j s a m before
      · simpa only [Function.update_of_ne same] using holds j
  | @perform s s' t i o next answer ready effect =>
      by_cases same : j = i
      · subst same
        have before : A j s (.perform o next) := ready ▸ holds j
        simpa only [Function.update_self] using own before effect
      · simpa only [Function.update_of_ne same] using
          other (Q := ⟨s, t⟩) holds (Ne.symm same) ready c effect

end Machine

def Program.advance (env : Program.Environment S σ) : Nat → Program S α → σ → Program S α × σ
  | 0, p, s => (p, s)
  | _ + 1, .done a, s => (.done a, s)
  | n + 1, .perform o next, s => (next (env o s).1).advance env n (env o s).2

def Program.busy : Program S α → Bool
  | .done _ => false
  | .perform .. => true

theorem Program.eq_done_of_idle {p : Program S α} (idle : p.busy = false) : ∃ a, p = .done a := by
  cases p with
  | done a => exact ⟨a, rfl⟩
  | perform o next => cases idle

theorem Program.advance_run (env : Program.Environment S σ) (p : Program S α) (s : σ) :
    ∃ n, p.advance env n s = (.done (p.run env s).1, (p.run env s).2) := by
  induction p generalizing s with
  | done a => exact ⟨0, rfl⟩
  | perform o next ih =>
      obtain ⟨n, rest⟩ := ih (env o s).1 (env o s).2
      exact ⟨n + 1, rest⟩

namespace Pool

def hand (K : Machine S ι M σ α) (i : ι) (m : M) (P : Pool S ι σ α) : Pool S ι σ α :=
  ⟨P.shared, Function.update P.task i (K.handler i m)⟩

def advance (env : Program.Environment S σ) (i : ι) (n : Nat) (P : Pool S ι σ α) : Pool S ι σ α :=
  ⟨((P.task i).advance env n P.shared).2,
    Function.update P.task i ((P.task i).advance env n P.shared).1⟩

end Pool

namespace Machine

variable {K : Machine S ι M σ α} {C : Pool S ι σ α → Move S ι M → Prop} {P : Pool S ι σ α}

theorem step_hand {i : ι} (m : M) (idle : (P.task i).busy = false) :
    K.Step P (.take i m) (P.hand K i m) := by
  obtain ⟨a, ready⟩ := Program.eq_done_of_idle idle
  exact .take m ready

theorem trace_hand {i : ι} (m : M) (c : C P (.take i m)) (idle : (P.task i).busy = false) :
    K.Trace C P [.take i m] (P.hand K i m) := .single c (step_hand m idle)

theorem step_advance {env : Program.Environment S σ}
    (sound : ∀ o s, K.effect o s (env o s).1 (env o s).2) {i : ι}
    (busy : (P.task i).busy = true) :
    ∃ o, K.Step P (.perform i o (env o P.shared).1) (P.advance env i 1) := by
  obtain ⟨s, t⟩ := P
  cases ready : t i with
  | done a => simp [ready, Program.busy] at busy
  | perform o next =>
      refine ⟨o, ?_⟩
      simpa only [Pool.advance, ready, Program.advance] using
        Step.perform ready (sound o s)

theorem trace_advance {env : Program.Environment S σ}
    (sound : ∀ o s, K.effect o s (env o s).1 (env o s).2) (i : ι) (n : Nat)
    (allowed : ∀ o s next, C ⟨s, Function.update P.task i (.perform o next)⟩
      (.perform i o (env o s).1)) :
    ∃ moves, K.Trace C P moves (P.advance env i n) := by
  induction n generalizing P with
  | zero =>
      refine ⟨[], ?_⟩
      simpa only [Pool.advance, Program.advance, Function.update_eq_self] using Trace.nil P
  | succ n ih =>
      obtain ⟨s, t⟩ := P
      cases ready : t i with
      | done a =>
          refine ⟨[], ?_⟩
          have same : Function.update t i (Program.done a) = t := by
            rw [← ready, Function.update_eq_self]
          simpa only [Pool.advance, ready, Program.advance, same] using Trace.nil (Pool.mk s t)
      | perform o next =>
          have first : K.Trace C ⟨s, t⟩ [.perform i o (env o s).1]
              ⟨(env o s).2, Function.update t i (next (env o s).1)⟩ := by
            refine .single ?_ (.perform ready (sound o s))
            simpa only [← ready, Function.update_eq_self] using allowed o s next
          obtain ⟨moves, rest⟩ := @ih ⟨(env o s).2, Function.update t i (next (env o s).1)⟩
            fun o s next => by simpa only [Function.update_idem] using allowed o s next
          have whole := first.append rest
          simp only [Pool.advance, Function.update_self, Function.update_idem] at whole
          exact ⟨_, by simpa only [Pool.advance, ready, Program.advance] using whole⟩

end Machine
end EffectProgram
