import AlarmSync.CivilWire

/-! The enablement of a status on its way to Phoebus: the text that is published as `enabled`,
and what a reader of that text takes it to mean. -/
namespace AlarmSync

variable {Value : Type}

def DateTime.instant (dt : DateTime) : Int :=
  dt.timestamp.toInt * 1000000000 + dt.timestampSubsecNanos.toNat

def Timestamp.instant (t : Timestamp) : Int := t.seconds.toInt * 1000000000 + t.nanos.toInt

/-- The enablement says what the status says: active, bypassed for good, or snoozed
until its wake. -/
def NormalizedEnablement.Faithful (alarm : Status) : NormalizedEnablement → Prop
  | active => alarm.state = .unbypassed
  | bypassed => alarm.state = .bypassed ∧ alarm.wake = none
  | snoozedUntil dt => alarm.state = .bypassed ∧ ∃ t, alarm.wake = some t ∧ dt.instant = t.instant

theorem Timestamp.instant_dateTime {t : Timestamp} (civil : t.Civil) :
    t.dateTime.instant = t.instant := by
  obtain ⟨_, nonneg, _⟩ := civil
  have cast := toNat_toUInt32 t.nanos
  rw [if_neg (by omega)] at cast
  simp only [DateTime.instant, Timestamp.instant, Timestamp.dateTime, cast]

theorem normalizeEnablement_published {w : Wire Value} (lawful : w.Lawful) (calendar : w.Calendar)
    {alarm : Status} {c : Config Value}
    (enabled : c.enabled = (Controls.normalizedEnablementFromControls w alarm).asEnabledString w) :
    c.normalizeEnablement w =
      if alarm.state = .bypassed then
        match alarm.wake with
        | none => .ok .bypassed
        | some t =>
          match w.timestampOpt t.seconds t.nanos.toUInt32 with
          | none => .ok .bypassed
          | some dt =>
              if FourDigitYear t.seconds then .ok (.snoozedUntil dt) else .error .malformedMessage
      else .ok .active := by
  unfold Config.normalizeEnablement
  rw [enabled]
  by_cases bypassed : alarm.state = .bypassed
  · cases wake : alarm.wake with
    | none =>
        simp [Controls.normalizedEnablementFromControls, bypassed, wake,
          NormalizedEnablement.asEnabledString, lawful.rfc3339_false]
    | some t =>
        cases accepted : w.timestampOpt t.seconds t.nanos.toUInt32 with
        | none =>
            simp [Controls.normalizedEnablementFromControls, bypassed, wake, accepted,
              NormalizedEnablement.asEnabledString, lawful.rfc3339_false]
        | some dt =>
            obtain ⟨notTrue, notFalse⟩ := calendar.rfc3339_notBool dt
            by_cases year : FourDigitYear t.seconds
            · simp [Controls.normalizedEnablementFromControls, bypassed, wake, accepted, year,
                NormalizedEnablement.asEnabledString, calendar.rfc3339_read _ _ _ accepted year]
            · simp [Controls.normalizedEnablementFromControls, bypassed, wake, accepted, year,
                NormalizedEnablement.asEnabledString, calendar.rfc3339_signed _ _ _ accepted year,
                notTrue, notFalse]
  · simp [Controls.normalizedEnablementFromControls, bypassed, NormalizedEnablement.asEnabledString,
      lawful.rfc3339_true]

/-- The text published for a bypass or an unbypass is accepted, and means what the status says,
exactly if a bypass has no wake or one that is an instant of a year with four digits. -/
theorem enablement_faithful_iff {w : Wire Value} (lawful : w.Lawful) (calendar : w.Calendar)
    {alarm : Status} (enablement : (CachedState.ofStatus alarm).Enablement) :
    (∀ c : Config Value,
        c.enabled = (Controls.normalizedEnablementFromControls w alarm).asEnabledString w →
        ∃ e, c.normalizeEnablement w = .ok e ∧ e.Faithful alarm) ↔
      ∀ t, alarm.state = .bypassed → alarm.wake = some t → t.Civil := by
  constructor
  · intro faithful t bypassed wake
    obtain ⟨e, decoded, means⟩ := faithful ⟨_, "", "", ∅⟩ rfl
    rw [normalizeEnablement_published lawful calendar rfl, if_pos bypassed, wake] at decoded
    cases accepted : w.timestampOpt t.seconds t.nanos.toUInt32 with
    | none =>
        -- a snooze that is published as an indefinite bypass
        simp only [accepted, Except.ok.injEq] at decoded
        subst decoded
        rw [means.2] at wake
        cases wake
    | some dt =>
        obtain ⟨_, fraction⟩ := calendar.timestampOpt_some _ _ _ accepted
        by_cases year : FourDigitYear t.seconds
        · exact ⟨year, (nanosOfSecond_cast _ _).mp fraction⟩
        · simp [accepted, year] at decoded
  · intro civil c enabled
    rw [normalizeEnablement_published lawful calendar enabled]
    rcases enablement with bypassed | unbypassed
    · have state : alarm.state = .bypassed := bypassed
      rw [if_pos state]
      cases wake : alarm.wake with
      | none => exact ⟨.bypassed, rfl, state, wake⟩
      | some t =>
          have good := civil t state wake
          simp only [calendar.timestampOpt_civil good, if_pos good.1]
          exact ⟨_, rfl, state, t, wake, Timestamp.instant_dateTime good⟩
    · have state : alarm.state = .unbypassed := unbypassed
      exact ⟨.active, by simp [state], state⟩

section
open CivilWire

theorem july_snooze_faithful :
    ∃ e, Config.normalizeEnablement wire ⟨some "2024-07-31T23:59:59+00:00", Controls.controlsHost,
        "operator", ∅⟩ = .ok e ∧
      e.Faithful ⟨"pump", .epics, .bypassed, some ⟨1722470399, 0⟩, "operator"⟩ := by
  have published : some "2024-07-31T23:59:59+00:00" =
      (Controls.normalizedEnablementFromControls wire
      ⟨"pump", .epics, .bypassed, some ⟨1722470399, 0⟩, "operator"⟩).asEnabledString wire := by
    decide +kernel
  refine (enablement_faithful_iff lawful calendar (.inl rfl)).mpr ?_ _ published
  intro t _ wake
  cases wake
  decide +kernel

/-- A wake one nanosecond before a full second, with the sign on the nanoseconds. -/
theorem negative_nanos_bypass : ¬ ∀ alarm : Status, (CachedState.ofStatus alarm).Enablement →
    ∀ c : Config FlatJson.Scalar,
      c.enabled = (Controls.normalizedEnablementFromControls wire alarm).asEnabledString wire →
      ∃ e, c.normalizeEnablement wire = .ok e ∧ e.Faithful alarm := by
  intro claim
  obtain ⟨e, decoded, means⟩ := claim ⟨"pump", .epics, .bypassed, some ⟨1722470400, -1⟩, "operator"⟩
    (.inl rfl) ⟨some "false", "", "", ∅⟩ (by decide +kernel)
  have bypassed : Config.normalizeEnablement wire ⟨some "false", "", "", ∅⟩ = .ok .bypassed := by
    decide +kernel
  rw [bypassed] at decoded
  cases decoded
  cases means.2

end

end AlarmSync
