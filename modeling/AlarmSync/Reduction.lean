import AlarmSync.Contract

/-! Tasks that share a state in shards. If no two of them handle messages of the same shard at once,
any interleaving can be rearranged: the messages one after the other, each task with the same
operations and the same answers as before, and the same state of every shard in the end. -/
namespace EffectProgram

variable {S : Signature} {ι M σ α L V : Type}

def Move.task : Move S ι M → ι
  | take i _ => i
  | perform i _ _ => i

/-- Complete handling of a message by a task, with the operations performed and their answers. -/
structure Turn (S : Signature) (ι M : Type) where
  task : ι
  message : M
  performed : List ((o : S.Op) × S.Answer o)

def Turn.moves (turn : Turn S ι M) : List (Move S ι M) :=
  .take turn.task turn.message :: turn.performed.map fun step => .perform turn.task step.1 step.2

/-- A program that performs operations, with nobody between. -/
inductive Program.Steps (effect : (o : S.Op) → σ → S.Answer o → σ → Prop) :
    Program S α → σ → List ((o : S.Op) × S.Answer o) → Program S α → σ → Prop
  | nil (p s) : Steps effect p s [] p s
  | snoc {p s performed o next s' answer s''} : Steps effect p s performed (.perform o next) s' →
      effect o s' answer s'' → Steps effect p s (performed ++ [⟨o, answer⟩]) (next answer) s''

theorem Program.Steps.inversion {effect : (o : S.Op) → σ → S.Answer o → σ → Prop}
    {p q : Program S α} {s s' : σ} {performed : List ((o : S.Op) × S.Answer o)}
    (steps : p.Steps effect s performed q s') :
    performed = [] ∧ q = p ∧ s' = s ∨ ∃ o next answer t rest, p = .perform o next ∧
      performed = ⟨o, answer⟩ :: rest ∧ effect o s answer t ∧
      (next answer).Steps effect t rest q s' := by
  induction steps with
  | nil => exact .inl ⟨rfl, rfl, rfl⟩
  | @snoc _ o next t answer _ _ one ih =>
      rcases ih with ⟨rfl, rfl, rfl⟩ | ⟨o', next', answer', t', rest, rfl, rfl, first, later⟩
      · exact .inr ⟨o, next, answer, _, [], rfl, rfl, one, .nil _ _⟩
      · exact .inr ⟨o', next', answer', t', _, rfl, rfl, first, .snoc later one⟩

/-- A program with the same answers in two states that correspond ends in states that correspond. -/
theorem Program.Avoids.run_related {σ' : Type} {bad : S.Op → Prop} {p : Program S α}
    {R : σ → σ' → Prop} {env : Program.Environment S σ} {env' : Program.Environment S σ'}
    {s : σ} {s' : σ'} (answers : ∀ o s s', ¬ bad o → R s s' → (env' o s').1 = (env o s).1 ∧
      R (env o s).2 (env' o s').2)
    (avoids : p.Avoids bad) (related : R s s') :
    (p.run env' s').1 = (p.run env s).1 ∧ R (p.run env s).2 (p.run env' s').2 := by
  induction p generalizing s s' with
  | done a => exact ⟨rfl, related⟩
  | perform o next ih =>
      obtain ⟨same, related'⟩ := answers o s s' avoids.1 related
      rw [Program.run_perform, Program.run_perform, same]
      exact ih _ (avoids.2 _ trivial) related'

theorem Program.Avoids.or {bad bad' : S.Op → Prop} {p : Program S α} (avoids : p.Avoids bad)
    (avoids' : p.Avoids bad') : p.Avoids fun o => bad o ∨ bad' o := by
  induction p with
  | done a => trivial
  | perform o next ih =>
      exact ⟨not_or.mpr ⟨avoids.1, avoids'.1⟩, fun answer _ =>
        ih answer (avoids.2 answer trivial) (avoids'.2 answer trivial)⟩

/-- A state in shards. An operation within a shard changes that one only, and needs to
see no other. -/
structure Sharding (effect : (o : S.Op) → σ → S.Answer o → σ → Prop) (L V : Type) where
  view : L → σ → V
  Within : L → S.Op → Prop
  frame : ∀ {l l' o s answer s'}, Within l o → effect o s answer s' → l' ≠ l →
      view l' s' = view l' s
  sight : ∀ {l o s answer s' t}, Within l o → effect o s answer s' → view l t = view l s →
    ∃ t', effect o t answer t' ∧ view l t' = view l s'

namespace Sharding

variable {effect : (o : S.Op) → σ → S.Answer o → σ → Prop} (D : Sharding effect L V) {l : L}

/-- Every operation that the program may perform is within the shard. -/
def Keeps (l : L) (p : Program S α) : Prop := p.Avoids fun o => ¬ D.Within l o

variable {D} {p q : Program S α} {s s' t : σ} {performed : List ((o : S.Op) × S.Answer o)}

theorem Keeps.perform {o : S.Op} {next : S.Answer o → Program S α}
    (keeps : D.Keeps l (.perform o next)) (answer : S.Answer o) : D.Within l o ∧
    D.Keeps l (next answer) :=
  ⟨not_not.mp keeps.1, keeps.2 answer trivial⟩

theorem Keeps.steps (keeps : D.Keeps l p) (steps : p.Steps effect s performed q s') :
    D.Keeps l q := by
  induction steps with
  | nil => exact keeps
  | snoc _ _ ih => exact (ih.perform _).2

theorem Keeps.frame {l' : L} (keeps : D.Keeps l p) (steps : p.Steps effect s performed q s')
    (other : l' ≠ l) :
    D.view l' s' = D.view l' s := by
  induction steps with
  | nil => rfl
  | @snoc _ _ _ _ answer _ before one ih =>
      have within := ((keeps.steps before).perform answer).1
      exact (D.frame within one other).trans ih

/-- A program within a shard goes the same way from any state with the same view of it. -/
theorem Keeps.rebase (keeps : D.Keeps l p) (steps : p.Steps effect s performed q s')
    (same : D.view l t = D.view l s) : ∃ t', p.Steps effect t performed q t' ∧
    D.view l t' = D.view l s' := by
  induction steps with
  | nil => exact ⟨t, .nil _ _, same⟩
  | @snoc _ _ _ _ answer _ before one ih =>
      obtain ⟨t', moved, same'⟩ := ih
      have within := ((keeps.steps before).perform answer).1
      obtain ⟨t'', effect', same''⟩ := D.sight within one same'
      exact ⟨t'', .snoc moved effect', same''⟩

section
variable {env : Program.Environment S σ}

theorem Keeps.run_frame {l' : L} (sound : ∀ o s, effect o s (env o s).1 (env o s).2)
    (keeps : D.Keeps l p) (other : l' ≠ l) : D.view l' (p.run env s).2 = D.view l' s := by
  induction p generalizing s with
  | done a => rfl
  | perform o next ih =>
      obtain ⟨within, rest⟩ := keeps.perform (env o s).1
      exact (ih _ rest).trans (D.frame within (sound o s) other)

theorem Keeps.run_local (answers : ∀ o s t, D.Within l o → D.view l t = D.view l s →
      (env o t).1 = (env o s).1 ∧ D.view l (env o t).2 = D.view l (env o s).2)
    (keeps : D.Keeps l p) (same : D.view l t = D.view l s) :
    (p.run env t).1 = (p.run env s).1 ∧ D.view l (p.run env t).2 = D.view l (p.run env s).2 :=
  Program.Avoids.run_related (R := fun s t => D.view l t = D.view l s)
    (fun o s t within => answers o s t (not_not.mp within)) keeps same

end

end Sharding

variable [DecidableEq L]

def Move.taken (home : ι → M → Option L) (l : L) : Move S ι M → Option (ι × M)
  | take i m => if home i m = some l then some (i, m) else none
  | perform .. => none

def takesAt (home : ι → M → Option L) (l : L) (moves : List (Move S ι M)) : List (ι × M) :=
  moves.filterMap (Move.taken home l)

section
variable {home : ι → M → Option L} {l : L} {i : ι} {m : M} {moves rest : List (Move S ι M)}
  {turn : Turn S ι M}

@[simp] theorem takesAt_append :
    takesAt home l (moves ++ rest) = takesAt home l moves ++ takesAt home l rest :=
  List.filterMap_append ..

theorem takesAt_take : takesAt home l ([.take i m] : List (Move S ι M)) =
    if home i m = some l then [(i, m)] else [] := by
  by_cases same : home i m = some l <;> simp [takesAt, Move.taken, same]

@[simp] theorem takesAt_perform {o : S.Op} {answer : S.Answer o} :
    takesAt home l ([.perform i o answer] : List (Move S ι M)) = [] := rfl

theorem takesAt_turn : takesAt home l turn.moves =
    if home turn.task turn.message = some l then [(turn.task, turn.message)] else [] := by
  have performs : takesAt home l
      (turn.performed.map fun step => Move.perform turn.task step.1 step.2) = [] := by
    simp [takesAt, Move.taken]
  have split : turn.moves = [.take turn.task turn.message] ++
    turn.performed.map fun step => Move.perform turn.task step.1 step.2 := rfl
  rw [split, takesAt_append, performs, List.append_nil, takesAt_take]

end

variable [DecidableEq ι]

def movesOf (i : ι) (moves : List (Move S ι M)) : List (Move S ι M) := moves.filter (·.task = i)

def Move.message (i : ι) : Move S ι M → Option M
  | take j m => if j = i then some m else none
  | perform .. => none

/-- The message that a task has taken last. -/
def current (i : ι) (moves : List (Move S ι M)) : Option M :=
  (moves.filterMap (Move.message i)).getLast?

section
variable {i j : ι} {m : M} {moves rest : List (Move S ι M)} {turn : Turn S ι M}

@[simp] theorem movesOf_append : movesOf i (moves ++ rest) = movesOf i moves ++ movesOf i rest :=
  List.filter_append ..

theorem movesOf_one {move : Move S ι M} :
    movesOf i [move] = if move.task = i then [move] else [] := by
  by_cases same : move.task = i <;> simp [movesOf, same]

theorem movesOf_other {move : Move S ι M} (other : move.task ≠ i) :
    movesOf i (moves ++ [move]) = movesOf i moves := by
  simp [movesOf_one, other]

omit [DecidableEq ι] in
theorem task_of_mem_turn {move : Move S ι M} (member : move ∈ turn.moves) :
    move.task = turn.task := by
  rcases List.mem_cons.mp member with rfl | performed
  · rfl
  · obtain ⟨_, _, rfl⟩ := List.mem_map.mp performed
    rfl

theorem movesOf_turn : movesOf i turn.moves = if turn.task = i then turn.moves else [] := by
  by_cases same : turn.task = i
  · rw [if_pos same, movesOf, List.filter_eq_self]
    intro move member
    simpa [task_of_mem_turn member] using same
  · rw [if_neg same, movesOf, List.filter_eq_nil_iff]
    intro move member
    simpa [task_of_mem_turn member] using same

theorem current_take :
    current i (moves ++ [.take j m]) = if j = i then some m else current i moves := by
  by_cases same : j = i <;> simp [current, Move.message, same]

theorem current_perform {o : S.Op} {answer : S.Answer o} :
    current i (moves ++ [.perform j o answer]) = current i moves := by
  simp [current, Move.message]

theorem current_other {move : Move S ι M} (other : move.task ≠ i) :
    current i (moves ++ [move]) = current i moves := by
  cases move with
  | take j m => rw [current_take, if_neg (show ¬ j = i from other)]
  | perform j o answer => exact current_perform

end

namespace Machine

variable (K : Machine S ι M σ α) (home : ι → M → Option L)

/-- Task `j` is busy with a message of the shard `l`. -/
def HandlingAt (moves : List (Move S ι M)) (Q : Pool S ι σ α) (j : ι) (l : L) : Prop :=
  (Q.task j).busy = true ∧ ∃ m, current j moves = some m ∧ home j m = some l

/-- An interleaving in which a message is taken only while no task is busy with another
of its shard. -/
inductive Exclusive : Pool S ι σ α → List (Move S ι M) → Pool S ι σ α → Prop
  | nil (P) : Exclusive P [] P
  | take {P moves Q i m R} : Exclusive P moves Q → K.Step Q (.take i m) R →
      (∀ j l, home i m = some l → ¬ HandlingAt home moves Q j l) →
      Exclusive P (moves ++ [.take i m]) R
  | perform {P moves Q i o answer R} : Exclusive P moves Q → K.Step Q (.perform i o answer) R →
      Exclusive P (moves ++ [.perform i o answer]) R

omit [DecidableEq L] in
theorem Trace.eq_of_nil {C : Pool S ι σ α → Move S ι M → Prop} {P Q : Pool S ι σ α}
    (trace : K.Trace C P [] Q) :
    Q = P := by
  generalize none' : ([] : List (Move S ι M)) = moves at trace
  cases trace with
  | nil => rfl
  | snoc => simp at none'

/-- One message after the other, each handled completely before the next is taken. -/
inductive Serial : σ → List (Turn S ι M) → σ → Prop
  | nil (s) : Serial s [] s
  | snoc {s turns s' turn a s''} : Serial s turns s' →
      (K.handler turn.task turn.message).Steps K.effect s' turn.performed (.done a) s'' →
      Serial s (turns ++ [turn]) s''

variable {K home}

omit [DecidableEq L] in
theorem Exclusive.advance {P Q : Pool S ι σ α} {moves : List (Move S ι M)}
    {env : Program.Environment S σ} (sound : ∀ o s, K.effect o s (env o s).1 (env o s).2)
    (i : ι) (n : Nat) (run : K.Exclusive home P moves Q) :
    ∃ rest, K.Exclusive home P rest (Q.advance env i n) ∧
    ∀ j, current j rest = current j moves := by
  induction n generalizing Q moves with
  | zero =>
      refine ⟨moves, ?_, fun _ => rfl⟩
      simpa only [Pool.advance, Program.advance, Function.update_eq_self] using run
  | succ n ih =>
      obtain ⟨s, t⟩ := Q
      cases ready : t i with
      | done a =>
          have same : Function.update t i (Program.done a) = t := by
            rw [← ready, Function.update_eq_self]
          refine ⟨moves, ?_, fun _ => rfl⟩
          simpa only [Pool.advance, ready, Program.advance, same] using run
      | perform o next =>
          obtain ⟨rest, later, latest⟩ := ih (run.perform (.perform ready (sound o s)))
          simp only [Pool.advance, Function.update_self, Function.update_idem] at later
          refine ⟨rest, ?_, fun j => (latest j).trans current_perform⟩
          simpa only [Pool.advance, ready, Program.advance] using later

variable (K home)

/-- A task amid a message of the shard `l`: alone, from the state `s` after the messages that are
finished, it would have come to where it is now. -/
structure Underway (D : Sharding K.effect L V) (moves : List (Move S ι M)) (Q : Pool S ι σ α)
    (turns : List (Turn S ι M)) (s : σ) (i : ι) (l : L) (turn : Turn S ι M) (t : σ) : Prop where
  task : turn.task = i
  latest : current i moves = some turn.message
  placed : home i turn.message = some l
  moved : movesOf i moves = movesOf i (turns.flatMap Turn.moves) ++ turn.moves
  next : takesAt home l moves = takesAt home l (turns.flatMap Turn.moves) ++ [(i, turn.message)]
  steps : (K.handler i turn.message).Steps K.effect s turn.performed (Q.task i) t
  seen : D.view l t = D.view l Q.shared

/-- An interleaving, and how far its messages have been put one after the other. -/
structure Rearranged (D : Sharding K.effect L V) (P : Pool S ι σ α) (moves : List (Move S ι M))
    (Q : Pool S ι σ α) (turns : List (Turn S ι M)) (s : σ) (place : ι → Option L) : Prop where
  serial : K.Serial P.shared turns s
  settled : ∀ i, place i = none → movesOf i (turns.flatMap Turn.moves) = movesOf i moves ∧
    (Q.task i).busy = false
  underway : ∀ i l, place i = some l → ∃ turn t, K.Underway home D moves Q turns s i l turn t
  free : ∀ l, (∀ i, place i ≠ some l) → D.view l s = D.view l Q.shared ∧
    takesAt home l (turns.flatMap Turn.moves) = takesAt home l moves
  apart : ∀ i j l, place i = some l → place j = some l → i = j

variable {K home} {D : Sharding K.effect L V} {P Q R : Pool S ι σ α} {moves : List (Move S ι M)}
  {turns : List (Turn S ι M)} {s : σ} {place : ι → Option L} {i : ι} {m : M}

theorem Rearranged.start (idle : ∀ i, (P.task i).busy = false) :
    K.Rearranged home D P [] P [] P.shared fun _ => none where
  serial := .nil _
  settled i _ := ⟨rfl, idle i⟩
  underway i l placed := by cases placed
  free l _ := ⟨rfl, rfl⟩
  apart i j l placed := by cases placed

theorem Underway.elsewhere {l : L} {turn : Turn S ι M} {t : σ} {move : Move S ι M}
    (underway : K.Underway home D moves Q turns s i l turn t) (other : move.task ≠ i)
    (untaken : takesAt home l [move] = []) (task : R.task i = Q.task i)
    (unseen : D.view l R.shared = D.view l Q.shared) :
    K.Underway home D (moves ++ [move]) R turns s i l turn t where
  task := underway.task
  latest := (current_other other).trans underway.latest
  placed := underway.placed
  moved := (movesOf_other other).trans underway.moved
  next := by rw [takesAt_append, untaken, List.append_nil, underway.next]
  steps := task ▸ underway.steps
  seen := underway.seen.trans unseen.symm

theorem Rearranged.take {l : L} (rearranged : K.Rearranged home D P moves Q turns s place)
    (step : K.Step Q (.take i m) R) (rest : place i = none) (placed : home i m = some l)
    (alone : ∀ j, place j ≠ some l) :
    K.Rearranged home D P (moves ++ [.take i m]) R turns s (Function.update place i (some l)) := by
  obtain ⟨_, shared, task⟩ := step.taken
  have untaken : ∀ l', l' ≠ l → takesAt home l' ([.take i m] : List (Move S ι M)) = [] := by
    intro l' different
    simp [takesAt_take, placed, Ne.symm different]
  refine ⟨rearranged.serial, ?settled, ?underway, ?free, ?apart⟩
  case settled =>
    refine (Function.forall_update_iff place fun j at' => at' = none →
      movesOf j (turns.flatMap Turn.moves) = movesOf j (moves ++ [Move.take i m]) ∧
        (R.task j).busy = false).mpr ⟨?_, ?_⟩
    · intro at'
      cases at'
    · intro j other at'
      obtain ⟨settled, idle⟩ := rearranged.settled j at'
      rw [movesOf_other (Ne.symm other), task, Function.update_of_ne other]
      exact ⟨settled, idle⟩
  case underway =>
    refine (Function.forall_update_iff place fun j at' => ∀ l', at' = some l' →
      ∃ turn t, K.Underway home D (moves ++ [Move.take i m]) R turns s j l' turn t).mpr ⟨?_, ?_⟩
    · rintro _ ⟨⟩
      obtain ⟨settled, idle⟩ := rearranged.settled i rest
      obtain ⟨seen, taken⟩ := rearranged.free l alone
      refine ⟨⟨i, m, []⟩, s, rfl, ?_, placed, ?_, ?_, ?_, ?_⟩
      · simp [current_take]
      · simp [settled, movesOf_one, Move.task, Turn.moves]
      · simp [taken, takesAt_take, placed]
      · rw [task, Function.update_self]
        exact .nil _ _
      · rw [shared]
        exact seen
    · intro j other l' at'
      obtain ⟨turn, t, underway⟩ := rearranged.underway j l' at'
      have different : l' ≠ l := by
        rintro rfl
        exact alone j at'
      exact ⟨turn, t, underway.elsewhere (Ne.symm other) (untaken l' different)
        (by rw [task, Function.update_of_ne other]) (by rw [shared])⟩
  case free =>
    intro l' nobody
    have different : l' ≠ l := by
      rintro rfl
      exact nobody i (Function.update_self ..)
    have before : ∀ j, place j ≠ some l' := by
      intro j at'
      by_cases same : j = i
      · rw [same, rest] at at'
        cases at'
      · exact nobody j (by rwa [Function.update_of_ne same])
    obtain ⟨seen, taken⟩ := rearranged.free l' before
    rw [shared, takesAt_append, untaken l' different, List.append_nil]
    exact ⟨seen, taken⟩
  case apart =>
    intro j k l' at' at''
    by_cases first : j = i <;> by_cases second : k = i
    · rw [first, second]
    · subst first
      obtain rfl : l = l' := by simpa using at'
      rw [Function.update_of_ne second] at at''
      exact absurd at'' (alone k)
    · subst second
      obtain rfl : l = l' := by simpa using at''
      rw [Function.update_of_ne first] at at'
      exact absurd at' (alone j)
    · rw [Function.update_of_ne first] at at'
      rw [Function.update_of_ne second] at at''
      exact rearranged.apart j k l' at' at''

theorem Rearranged.perform {l : L} {o : S.Op} {answer : S.Answer o}
    (rearranged : K.Rearranged home D P moves Q turns s place)
    (step : K.Step Q (.perform i o answer) R)
    (keeps : ∀ m, home i m = some l → D.Keeps l (K.handler i m)) (at_ : place i = some l) :
    K.Rearranged home D P (moves ++ [.perform i o answer]) R turns s place := by
  obtain ⟨next, ready, effect, task⟩ := step.performed
  obtain ⟨turn, t, underway⟩ := rearranged.underway i l at_
  have steps := underway.steps
  rw [ready] at steps
  have within := (((keeps _ underway.placed).steps steps).perform answer).1
  have unseen : ∀ l', l' ≠ l → D.view l' R.shared = D.view l' Q.shared := fun l' =>
    D.frame within effect
  refine ⟨rearranged.serial, ?settled, ?underway, ?free, rearranged.apart⟩
  case settled =>
    intro j rest
    have other : j ≠ i := by
      rintro rfl
      rw [at_] at rest
      cases rest
    obtain ⟨settled, idle⟩ := rearranged.settled j rest
    rw [movesOf_other (Ne.symm other), task, Function.update_of_ne other]
    exact ⟨settled, idle⟩
  case underway =>
    intro j l' at'
    by_cases same : j = i
    · subst same
      obtain rfl : l = l' := Option.some.inj (at_.symm.trans at')
      obtain ⟨t', effect', seen⟩ := D.sight within effect underway.seen
      refine ⟨⟨turn.task, turn.message, turn.performed ++ [⟨o, answer⟩]⟩, t', underway.task, ?_,
        underway.placed, ?_, ?_, ?_, seen⟩
      · rw [current_perform]
        exact underway.latest
      · simp [underway.moved, movesOf_one, Move.task, Turn.moves, underway.task]
      · rw [takesAt_append, takesAt_perform, List.append_nil]
        exact underway.next
      · rw [task, Function.update_self]
        exact .snoc steps effect'
    · obtain ⟨turn', t', underway'⟩ := rearranged.underway j l' at'
      have different : l' ≠ l := by
        rintro rfl
        exact same (rearranged.apart j i l' at' at_)
      exact ⟨turn', t', underway'.elsewhere (Ne.symm same) takesAt_perform
        (by rw [task, Function.update_of_ne same]) (unseen l' different)⟩
  case free =>
    intro l' nobody
    have different : l' ≠ l := by
      rintro rfl
      exact nobody i at_
    rw [unseen l' different, takesAt_append, takesAt_perform, List.append_nil]
    exact rearranged.free l' nobody

theorem Rearranged.close {l : L} (rearranged : K.Rearranged home D P moves Q turns s place)
    (keeps : ∀ j m l, home j m = some l → D.Keeps l (K.handler j m)) (at_ : place i = some l)
    (finished : (Q.task i).busy = false) :
    ∃ turn t, K.Rearranged home D P moves Q (turns ++ [turn]) t (Function.update place i none) := by
  obtain ⟨turn, t, underway⟩ := rearranged.underway i l at_
  obtain ⟨a, done⟩ := Program.eq_done_of_idle finished
  have task := underway.task
  have own := keeps i turn.message l underway.placed
  have ended := underway.steps
  rw [done] at ended
  have frame : ∀ l', l' ≠ l → D.view l' t = D.view l' s := fun l' => own.frame ended
  have elsewhere : ∀ l', l' ≠ l → takesAt home l' turn.moves = [] := by
    intro l' different
    rw [takesAt_turn, task, underway.placed, if_neg]
    rintro ⟨⟩
    exact different rfl
  refine ⟨turn, t, .snoc (a := a) rearranged.serial ?serial, ?settled, ?underway, ?free, ?apart⟩
  case serial =>
    rw [task]
    exact ended
  case settled =>
    refine (Function.forall_update_iff place fun j at' => at' = none →
      movesOf j ((turns ++ [turn]).flatMap Turn.moves) = movesOf j moves ∧
        (Q.task j).busy = false).mpr ⟨?_, ?_⟩
    · intro _
      simp [movesOf_turn, task, underway.moved, finished]
    · intro j other rest
      obtain ⟨settled, idle⟩ := rearranged.settled j rest
      simp [movesOf_turn, task, Ne.symm other, settled, idle]
  case underway =>
    refine (Function.forall_update_iff place fun j at' => ∀ l', at' = some l' →
      ∃ turn' t', K.Underway home D moves Q (turns ++ [turn]) t j l' turn' t').mpr
        ⟨?_, ?_⟩
    · intro l' at'
      cases at'
    · intro j other l' at'
      obtain ⟨turn', t', underway'⟩ := rearranged.underway j l' at'
      have different : l' ≠ l := by
        rintro rfl
        exact other (rearranged.apart j i l' at' at_)
      obtain ⟨t'', steps, same⟩ :=
        (keeps j turn'.message l' underway'.placed).rebase underway'.steps (frame l' different)
      refine ⟨turn', t'', underway'.task, underway'.latest, underway'.placed, ?_, ?_, steps,
        same.trans underway'.seen⟩
      · simp [movesOf_turn, task, Ne.symm other, underway'.moved]
      · simp [elsewhere l' different, underway'.next]
  case free =>
    intro l' nobody
    by_cases same : l' = l
    · subst same
      refine ⟨underway.seen, ?_⟩
      simp [takesAt_turn, task, underway.placed, underway.next]
    · have before : ∀ j, place j ≠ some l' := by
        intro j at'
        by_cases first : j = i
        · rw [first, at_] at at'
          exact same (Option.some.inj at').symm
        · exact nobody j (by rwa [Function.update_of_ne first])
      obtain ⟨seen, taken⟩ := rearranged.free l' before
      rw [frame l' same, List.flatMap_append, takesAt_append, taken]
      exact ⟨seen, by simp [elsewhere l' same]⟩
  case apart =>
    intro j k l' at' at''
    have first : j ≠ i := by
      rintro rfl
      simp at at'
    have second : k ≠ i := by
      rintro rfl
      simp at at''
    rw [Function.update_of_ne first] at at'
    rw [Function.update_of_ne second] at at''
    exact rearranged.apart j k l' at' at''

theorem Rearranged.pass (rearranged : K.Rearranged home D P moves Q turns s place)
    (step : K.Step Q (.take i m) R) (rest : place i = none) (homeless : home i m = none)
    (nothing : (K.handler i m).busy = false) :
    K.Rearranged home D P (moves ++ [.take i m]) R (turns ++ [⟨i, m, []⟩]) s place := by
  obtain ⟨_, shared, task⟩ := step.taken
  obtain ⟨a, done⟩ := Program.eq_done_of_idle nothing
  have untaken : ∀ l, takesAt home l ([.take i m] : List (Move S ι M)) = [] := by
    intro l
    simp [takesAt_take, homeless]
  refine ⟨.snoc (a := a) rearranged.serial ?serial, ?settled, ?underway, ?free, rearranged.apart⟩
  case serial =>
    show (K.handler i m).Steps K.effect s [] (.done a) s
    rw [done]
    exact .nil _ _
  case settled =>
    intro j at'
    obtain ⟨settled, idle⟩ := rearranged.settled j at'
    by_cases same : j = i
    · subst same
      simp [settled, task, nothing, movesOf_one, Move.task, Turn.moves]
    · rw [task, Function.update_of_ne same]
      simp [settled, idle, movesOf_one, Move.task, Turn.moves, Ne.symm same]
  case underway =>
    intro j l at'
    have other : j ≠ i := by
      rintro rfl
      rw [rest] at at'
      cases at'
    obtain ⟨turn, t, underway⟩ := rearranged.underway j l at'
    have same := underway.elsewhere (R := R)
      (show (Move.take i m).task ≠ j from Ne.symm other) (untaken l)
      (by rw [task, Function.update_of_ne other]) (by rw [shared])
    refine ⟨turn, t, same.task, same.latest, same.placed, ?_, ?_, same.steps, same.seen⟩
    · simp [same.moved, movesOf_turn, Ne.symm other]
    · simp [same.next, takesAt_turn, homeless]
  case free =>
    intro l nobody
    obtain ⟨seen, taken⟩ := rearranged.free l nobody
    rw [shared, takesAt_append, untaken l]
    simp [seen, taken, takesAt_turn, homeless]

theorem Rearranged.tidy (rearranged : K.Rearranged home D P moves Q turns s place)
    (keeps : ∀ j m l, home j m = some l → D.Keeps l (K.handler j m))
    (busy : ∀ j, j ≠ i → place j ≠ none → (Q.task j).busy = true) :
    ∃ turns s place, K.Rearranged home D P moves Q turns s place ∧
      ∀ j, place j ≠ none → (Q.task j).busy = true := by
  cases working : (Q.task i).busy with
  | true =>
      refine ⟨turns, s, place, rearranged, fun j placed => ?_⟩
      by_cases same : j = i
      · exact same ▸ working
      · exact busy j same placed
  | false =>
      cases at_ : place i with
      | none =>
          refine ⟨turns, s, place, rearranged, fun j placed => busy j ?_ placed⟩
          rintro rfl
          exact placed at_
      | some l =>
          obtain ⟨turn, t, closed⟩ := rearranged.close keeps at_ working
          refine ⟨_, t, _, closed, fun j placed => ?_⟩
          have other : j ≠ i := by
            rintro rfl
            simp at placed
          rw [Function.update_of_ne other] at placed
          exact busy j other placed

section
variable (keeps : ∀ j m l, home j m = some l → D.Keeps l (K.handler j m))
  (nothing : ∀ j m, home j m = none → (K.handler j m).busy = false)
  (idle : ∀ j, (P.task j).busy = false) (run : K.Exclusive home P moves Q)

include keeps nothing idle run

theorem Exclusive.rearranged : ∃ turns s place, K.Rearranged home D P moves Q turns s place ∧
    ∀ j, place j ≠ none → (Q.task j).busy = true := by
  induction run with
  | nil => exact ⟨[], P.shared, _, .start idle, fun j placed => absurd rfl placed⟩
  | @take moves Q i m R _ step alone ih =>
      obtain ⟨turns, s, place, rearranged, busy⟩ := ih
      obtain ⟨⟨a, finished⟩, _, task⟩ := step.taken
      have rest : place i = none := by
        by_contra placed
        have working := busy i placed
        rw [finished] at working
        cases working
      have busy' : ∀ j, j ≠ i → place j ≠ none → (R.task j).busy = true := by
        intro j other placed
        rw [task, Function.update_of_ne other]
        exact busy j placed
      cases placed : home i m with
      | none =>
          exact (rearranged.pass step rest placed (nothing i m placed)).tidy keeps busy'
      | some l =>
          refine (rearranged.take step rest placed fun j at_ => ?_).tidy (i := i) keeps
            fun j other => ?_
          · obtain ⟨turn, t, underway⟩ := rearranged.underway j l at_
            exact alone j l placed ⟨busy j (by simp [at_]), _, underway.latest, underway.placed⟩
          · rw [Function.update_of_ne other]
            exact busy' j other
  | @perform moves Q i o answer R _ step ih =>
      obtain ⟨turns, s, place, rearranged, busy⟩ := ih
      obtain ⟨next, ready, _, task⟩ := step.performed
      cases at_ : place i with
      | none =>
          have resting := (rearranged.settled i at_).2
          rw [ready] at resting
          cases resting
      | some l =>
          have performed := rearranged.perform step (fun m => keeps i m l) at_
          refine performed.tidy (i := i) keeps fun j other placed => ?_
          rw [task, Function.update_of_ne other]
          exact busy j placed

/-- An exclusive interleaving does what its messages do one after the other: with the same moves of
every task, the messages of every shard in the order in which they were taken, and the same view of
every shard in the end. -/
theorem Exclusive.serial (ends : ∀ j, (Q.task j).busy = false) :
    ∃ turns s, K.Serial P.shared turns s ∧
    (∀ i, movesOf i (turns.flatMap Turn.moves) = movesOf i moves) ∧
    (∀ l, takesAt home l (turns.flatMap Turn.moves) = takesAt home l moves) ∧
    ∀ l, D.view l s = D.view l Q.shared := by
  obtain ⟨turns, s, place, rearranged, busy⟩ := run.rearranged keeps nothing idle
  have nowhere : ∀ j, place j = none := by
    intro j
    by_contra placed
    have working := busy j placed
    rw [ends j] at working
    cases working
  have free : ∀ l, _ := fun l => rearranged.free l fun i at_ => by simp [nowhere i] at at_
  exact ⟨turns, s, rearranged.serial, fun i => (rearranged.settled i (nowhere i)).1,
    fun l => (free l).2, fun l => (free l).1⟩

end

end Machine
end EffectProgram
