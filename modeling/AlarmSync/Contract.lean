import AlarmSync.Program

/-! Contracts of tasks over a shared state: what a task relies on in the answers it is given
and what it keeps to in its operations, from what is known as it goes along. -/
namespace EffectProgram

variable {S : Signature} {α β κ κ' : Type}

/-- At each state of what is known: the answers relied on, the operations allowed, and what is
known after an operation. -/
structure Contract (S : Signature) (κ : Type) where
  may : κ → (o : S.Op) → S.Answer o → Prop
  ok : κ → S.Op → Prop
  step : κ → (o : S.Op) → S.Answer o → κ

namespace Program

/-- The weakest precondition: as long as the answers are those relied on, every operation is
allowed and the program can only end in `post`. -/
def Meets (c : Contract S κ) (post : α → κ → Prop) : Program S α → κ → Prop
  | done a, k => post a k
  | perform o next, k =>
    c.ok k o ∧ ∀ answer, c.may k o answer → (next answer).Meets c post (c.step k o answer)

variable {c : Contract S κ} {post : α → κ → Prop} {k : κ}

@[simp] theorem meets_done (a : α) : (done a : Program S α).Meets c post k ↔ post a k := Iff.rfl

@[simp] theorem meets_perform (o : S.Op) (next : S.Answer o → Program S α) :
    (perform o next).Meets c post k ↔ c.ok k o ∧
      ∀ answer, c.may k o answer → (next answer).Meets c post (c.step k o answer) := Iff.rfl

@[simp] theorem meets_bind (p : Program S α) (f : α → Program S β) {post : β → κ → Prop} :
    (p >>= f).Meets c post k ↔ p.Meets c (fun a k => (f a).Meets c post k) k := by
  induction p generalizing k with
  | done a => exact Iff.rfl
  | perform o next ih =>
      constructor
      · rintro ⟨ok, rest⟩
        exact ⟨ok, fun answer relied => (ih answer).mp (rest answer relied)⟩
      · rintro ⟨ok, rest⟩
        exact ⟨ok, fun answer relied => (ih answer).mpr (rest answer relied)⟩

/-- A contract refines another along a relation of what is known: fewer answers are relied on
to keep to more. -/
theorem Meets.refine {c' : Contract S κ'} {post' : α → κ' → Prop} {k' : κ'} {p : Program S α}
    (R : κ → κ' → Prop)
    (keeps : ∀ {k k' o}, R k k' → c.ok k o → c'.ok k' o ∧
      ∀ answer, c'.may k' o answer → c.may k o answer ∧ R (c.step k o answer) (c'.step k' o answer))
    (ends : ∀ {k k' a}, R k k' → post a k → post' a k') (related : R k k')
    (meets : p.Meets c post k) : p.Meets c' post' k' := by
  induction p generalizing k k' with
  | done a => exact ends related meets
  | perform o next ih =>
      obtain ⟨ok, rest⟩ := meets
      obtain ⟨ok', answers⟩ := keeps related ok
      refine ⟨ok', ?_⟩
      intro answer relied'
      obtain ⟨relied, related'⟩ := answers answer relied'
      exact ih answer related' (rest answer relied)

theorem Meets.weaken {post' : α → κ → Prop} {p : Program S α} (h : ∀ a k, post a k → post' a k)
    (meets : p.Meets c post k) : p.Meets c post' k := by
  refine meets.refine (· = ·) ?_ ?_ rfl
  · rintro k _ o rfl ok
    exact ⟨ok, fun answer relied => ⟨relied, rfl⟩⟩
  · rintro k _ a rfl
    exact h a k

/-- The program performs no operation of this kind, whatever it is answered. -/
def Avoids (bad : S.Op → Prop) (p : Program S α) : Prop :=
  p.Meets ⟨fun _ _ _ => True, fun _ o => ¬ bad o, fun k _ _ => k⟩ (fun _ (_ : Unit) => True) ()

theorem avoids_idle {bad : S.Op → Prop} {p : Program S α} (idle : p.busy = false) :
    p.Avoids bad := by
  obtain ⟨a, rfl⟩ := eq_done_of_idle idle
  trivial

theorem Avoids.advance {σ : Type} {bad : S.Op → Prop} {p : Program S α} (avoids : p.Avoids bad)
    (env : Environment S σ) (n : Nat) (s : σ) : (p.advance env n s).1.Avoids bad := by
  induction n generalizing p s with
  | zero => exact avoids
  | succ n ih =>
      cases p with
      | done a => trivial
      | perform o next => exact ih (avoids.2 _ trivial) _

theorem Meets.now {post : κ → Prop} {p : Program S α} {changes : S.Op → Prop}
    (answerable : ∀ o, ∃ answer, c.may k o answer)
    (unchanged : ∀ o answer, ¬ changes o → c.may k o answer → c.step k o answer = k)
    (still : p.Avoids changes) (meets : p.Meets c (fun _ => post) k) : post k := by
  induction p with
  | done a => exact meets
  | perform o next ih =>
      obtain ⟨answer, relied⟩ := answerable o
      have rest := meets.2 answer relied
      rw [unchanged o answer still.1 relied] at rest
      exact ih answer (still.2 answer trivial) rest

end Program
end EffectProgram
