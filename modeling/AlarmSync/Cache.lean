import Mathlib.Data.Option.Basic

/-! The alarm states the synchronizer remembers, and the policy by which the state
last observed for a device suppresses an incoming one. -/
namespace AlarmSync

/-- `Status.State`. The enumerators the program never names are `other`. -/
inductive State where
  | unknown | ok | alarmed | acknowledged | bypassed | unbypassed
  | other (tag : Int32)
  deriving DecidableEq, Repr

/-- `Status.Source`. Only EPICS is told apart from the other sources. -/
inductive Source where
  | epics
  | other (tag : Int32)
  deriving DecidableEq, Repr

structure Timestamp where
  seconds : Int64
  nanos : Int32
  deriving DecidableEq, Repr

/-- An instant as `chrono` keeps it; the offset of a `DateTime` plays no part in its meaning. -/
structure DateTime where
  timestamp : Int64
  timestampSubsecNanos : UInt32
  deriving DecidableEq, Repr

def DateTime.timestampMillis (dt : DateTime) : Int :=
  dt.timestamp.toInt * 1000 + (dt.timestampSubsecNanos.toNat / 1000000 : Nat)

/-- The part of the Controls `Status` record that the program reads. -/
structure Status where
  device : String
  source : Source
  state : State
  wake : Option Timestamp
  user : String
  deriving DecidableEq, Repr

structure CachedState where
  state : State
  wake : Option Timestamp
  deriving DecidableEq, Repr

namespace CachedState

def bypassed : CachedState := ⟨.bypassed, none⟩

def ofStatus (value : Status) : CachedState := ⟨value.state, value.wake⟩

def ofBool (isActive : Bool) : CachedState :=
  ⟨if isActive then .unbypassed else .bypassed, none⟩

/-- `now` is the reading of `Utc::now().timestamp_millis()`. -/
def ofDateTime (now : Int) (value : DateTime) : CachedState :=
  if value.timestampMillis > now then
    ⟨.bypassed, some ⟨value.timestamp, value.timestampSubsecNanos.toInt32⟩⟩
  else
    ⟨.unbypassed, none⟩

end CachedState

/-- Guards against a device coming out of bypass other than by a new bypass or an unbypass. -/
def isTransitionForbidden (observed incoming : CachedState) : Bool :=
  observed.state == .bypassed && !(incoming.state == .bypassed || incoming.state == .unbypassed)

structure ObservedStatePolicy where
  observed : Option CachedState
  deriving DecidableEq, Repr

def ObservedStatePolicy.suppressesIncoming (policy : ObservedStatePolicy)
    (incoming : CachedState) : Bool :=
  policy.observed.any fun observed => observed == incoming ||
    isTransitionForbidden observed incoming

theorem suppressesIncoming_iff (observed : Option CachedState) (incoming : CachedState) :
    (ObservedStatePolicy.mk observed).suppressesIncoming incoming = true ↔
      observed = some incoming ∨ ∃ o, observed = some o ∧
      isTransitionForbidden o incoming = true := by
  cases observed with
  | none => simp [ObservedStatePolicy.suppressesIncoming]
  | some o => simp [ObservedStatePolicy.suppressesIncoming]

theorem isTransitionForbidden_iff (observed incoming : CachedState) :
    isTransitionForbidden observed incoming = true ↔
      observed.state = .bypassed ∧ incoming.state ≠ .bypassed ∧ incoming.state ≠ .unbypassed := by
  simp [isTransitionForbidden]

/-- The states an operator's action leaves behind: the only ones that are ever mirrored. -/
def CachedState.Enablement (x : CachedState) : Prop := x.state = .bypassed ∨ x.state = .unbypassed

theorem CachedState.ofDateTime_enablement (now : Int) (value : DateTime) :
    (CachedState.ofDateTime now value).Enablement := by
  unfold ofDateTime Enablement
  split
  · exact .inl rfl
  · exact .inr rfl

theorem suppressesIncoming_enablement {x : CachedState} (enablement : x.Enablement)
    (observed : Option CachedState) :
    (ObservedStatePolicy.mk observed).suppressesIncoming x = true ↔ observed = some x := by
  rw [suppressesIncoming_iff]
  constructor
  · rintro (same | ⟨o, _, forbidden⟩)
    · exact same
    · obtain ⟨_, notBypassed, notUnbypassed⟩ := (isTransitionForbidden_iff o x).mp forbidden
      rcases enablement with h | h <;> contradiction
  · exact .inl

end AlarmSync
