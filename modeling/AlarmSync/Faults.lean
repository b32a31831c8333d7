import AlarmSync.Mirror

/-! A mirror whose sends may fail. It remembers a value all the same, so the system that missed it
is behind; whatever changes that system again brings it back into step. -/
namespace EchoMirror

variable {X : Type}

/-- The system holds the value of its last unread report, or the remembered one. -/
def InStep (s : System X) (side : Side) : Prop := s.pending side = s.held side

/-- The value that was read is remembered, but does not reach the other system. -/
def System.lose (s : System X) (x : X) : System X :=
  { s with register := some x, sends := s.sends + 1 }

def System.report (s : System X) (side : Side) (x : X) (echo : Bool) : System X :=
  { s with
    held := Function.update s.held side (some x)
    inbox := Function.update s.inbox side (s.inbox side ++ [⟨x, echo⟩]) }

section
variable {s : System X} {side side' : Side} {m : Mail X} {rest : List (Mail X)}

theorem inStep_report (s : System X) (side : Side) (x : X) (echo : Bool) :
    InStep (s.report side x echo) side := by
  simp [InStep, System.report, System.pending]

theorem InStep.report (inStep : InStep s side') (side : Side) (x : X) (echo : Bool) :
    InStep (s.report side x echo) side' := by
  by_cases same : side' = side
  · subst same
    exact inStep_report s side' x echo
  · simpa [InStep, System.report, System.pending, same] using inStep

theorem InStep.drop (inStep : InStep s side') (head : s.inbox side = m :: rest)
    (known : s.register = some m.value) : InStep (s.drop side rest) side' := by
  rcases Side.eq_or_eq_other side side' with rfl | rfl
  · rw [InStep, pending_head head] at inStep
    simpa [InStep, System.drop, System.pending, known] using inStep
  · simpa [InStep, System.drop, System.pending] using inStep

theorem InStep.lose (inStep : InStep s side) (head : s.inbox side = m :: rest) :
    InStep ((s.drop side rest).lose m.value) side := by
  rw [InStep, pending_head head] at inStep
  simpa [InStep, System.drop, System.lose, System.pending] using inStep

theorem InStep.held_eq_register (inStep : InStep s side) (empty : s.inbox side = []) :
    s.held side = s.register := by
  rw [← inStep, System.pending, empty]
  rfl

end

end EchoMirror
