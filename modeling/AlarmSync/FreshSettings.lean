import AlarmSync.Atomic
import AlarmSync.PlainWire

/-! Which settings the Controls task publishes when it interleaves with one monitor. The
monitor keeps the settings of a config last of all, after its call; a config published from
metadata looked up before that would carry older ones. -/
namespace AlarmSync
open EffectProgram

variable {Value : Type}

/-- A config of `d` with valid JSON and a valid enabled value, and these settings. -/
def ConfigFor (w : Wire Value) (d : String) (settings : Settings Value)
    (msg : StringMessage) : Prop :=
  ∃ key config e, keyOf .config msg = some key ∧ key.device = d ∧
    Config.fromStr w msg.value = some config ∧ config.normalizeEnablement w = .ok e ∧
    config.phoebusSpecific = settings

theorem configFor_iff {w : Wire Value} {d : String} {settings : Settings Value}
    {msg : StringMessage} {key : Key} {config : Config Value} (keyed : keyOf .config msg = some key)
    (read : Config.fromStr w msg.value = some config) :
    ConfigFor w d settings msg ↔ key.device = d ∧ (∃ e, config.normalizeEnablement w = .ok e) ∧
      config.phoebusSpecific = settings := by
  constructor
  · rintro ⟨key', config', e, keyed', same, read', valid, specific⟩
    cases keyed.symm.trans keyed'
    cases read.symm.trans read'
    exact ⟨same, ⟨e, valid⟩, specific⟩
  · rintro ⟨same, ⟨e, valid⟩, specific⟩
    exact ⟨key, config, e, keyed, same, read, valid, specific⟩

/-- If it is a config, it carries exactly these settings. -/
def Carries (w : Wire Value) (settings : Settings Value) (message : StringMessage) : Prop :=
  ∀ key, keyOf .config message = some key →
    ∃ config, Config.fromStr w message.value = some config ∧ config.phoebusSpecific = settings

theorem carries_published {w : Wire Value} (lawful : w.Lawful) {alarm : Status}
    {operation : Operation} {pvMetadata : PvMetadata Value}
    (unnamed : pvMetadata.phoebusConfigMetadata.Unnamed) {message : StringMessage}
    (published : Controls.controlsToPhoebus w alarm operation pvMetadata = some message) :
    Carries w pvMetadata.phoebusConfigMetadata message := by
  intro key keyed
  obtain ⟨keyStr, given, parsed, config⟩ := keyOf_eq_some.mp keyed
  cases operation with
  | config =>
      cases published
      exact ⟨_, Config.fromStr_toStr lawful unnamed, rfl⟩
  | command =>
      cases published
      cases given
      have command := Key.parse_getPhoebusKey_operation parsed
      rw [config] at command
      cases command
  | state => cases published

def World.settings (d : String) (world : World Value) : Option (Settings Value) :=
  (world.metadata d).map (·.phoebusConfigMetadata)

/-- Every config published for `d` carries the settings, if the lookups of `d` return them. -/
def posting (w : Wire Value) (d : String) (settings : Settings Value) :
    Contract (effects Value) Unit where
  may _
    | .lookupMetadata device, answer => device = d → ∀ pvMetadata, answer = some pvMetadata →
        pvMetadata.phoebusConfigMetadata = settings ∧ pvMetadata.phoebusConfigMetadata.Unnamed
    | _, _ => True
  ok _
    | .send (.publish device _ message) => device = d → Carries w settings message
    | _ => True
  step _ _ _ := ()

/-- Keeps track of the settings known for `d`. -/
def settling (d : String) : Contract (effects Value) (Option (Settings Value)) where
  may known
    | .lookupMetadata device, answer => device = d → answer.map (·.phoebusConfigMetadata) = known
    | _, _ => True
  ok _ _ := True
  step known
    | .updateMetadata device new, _ => if device = d then some new.phoebusConfigMetadata else known
    | _, _ => known

def Settled (settings : Settings Value) (known : Option (Settings Value)) : Prop :=
  known = none ∨ known = some settings

section
variable {w : Wire Value} {publishers : List String} {d : String} {settings : Settings Value}

theorem handler_posting (lawful : w.Lawful) (msg : StringMessage) :
    (Controls.processRuntimeMessage w publishers msg).Meets (posting w d settings)
      (fun _ _ => True) () := by
  apply Controls.meets_processRuntimeMessage trivial
  intro alarm _ _
  refine ⟨trivial, fun observed _ => ⟨trivial, fun known given => ⟨trivial, ?_⟩⟩⟩
  rintro pvMetadata operation rfl _ _
  cases outbound : controlsOutbound w publishers alarm operation pvMetadata with
  | none => exact ⟨trivial, fun _ _ => trivial⟩
  | some out =>
      obtain ⟨topic, message, _, published, _, rfl⟩ := controlsOutbound_eq_some.mp outbound
      refine ⟨?_, fun _ _ => ⟨trivial, fun _ _ => trivial⟩⟩
      intro same
      obtain ⟨known, unnamed⟩ := given same pvMetadata rfl
      exact known ▸ carries_published lawful unnamed published

theorem handler_settling [DecidableEq Value] (topic : String) {msg : StringMessage}
    {known : Option (Settings Value)}
    (settled : Settled settings known ∨ ConfigFor w d settings msg)
    (same : ∀ other, ConfigFor w d other msg → other = settings) :
    (Monitor.processRuntimeMessage w topic msg).Meets (settling d)
      (fun _ => Settled settings) known := by
  have unlessConfig : (∀ key config, keyOf .config msg = some key →
      Config.fromStr w msg.value ≠ some config) → Settled settings known := by
    intro noConfig
    rcases settled with settled | ⟨key, config, _, keyed, _, read, _⟩
    · exact settled
    · exact absurd read (noConfig key config keyed)
  apply Monitor.meets_processRuntimeMessage unlessConfig
  · intro key keyed
    have ends : Settled settings known := by
      refine unlessConfig fun key' _ keyed' => ?_
      cases keyOf_operation keyed keyed'
    refine ⟨trivial, fun observed _ => ⟨ends, ?_⟩⟩
    intro command _ _
    exact ⟨trivial, fun _ _ => ⟨trivial, fun _ _ => ends⟩⟩
  · intro key config keyed read
    refine ⟨trivial, fun pvMetadata given =>
      ⟨trivial, fun observed _ => ⟨trivial, fun now _ => ?_⟩⟩⟩
    have valid : ∀ state, config.asCachedState w now = .ok state →
        ∃ e, config.normalizeEnablement w = .ok e := by
      intro state decoded
      obtain ⟨e, enabled, _⟩ := Config.asCachedState_eq_ok_iff.mp decoded
      exact ⟨e, enabled⟩
    have elsewhere : key.device ≠ d → Settled settings known := by
      intro other
      rcases settled with settled | config'
      · exact settled
      · exact absurd ((configFor_iff keyed read).mp config').1 other
    have malformed : ∀ e, config.asCachedState w now = .error e → Settled settings known := by
      intro e decoded
      rcases settled with settled | config'
      · exact settled
      · obtain ⟨_, ⟨e', valid⟩, _⟩ := (configFor_iff keyed read).mp config'
        have refused := Config.asCachedState_eq_error_iff.mp decoded
        rw [valid] at refused
        cases refused
    have updated : ∀ state, config.asCachedState w now = .ok state →
        (Handler.updateMetadata key.device (configMetadata topic pvMetadata key config)).Meets
          (settling d) (fun _ => Settled settings) known := by
      intro state decoded
      refine ⟨trivial, fun _ _ => ?_⟩
      show Settled settings (if key.device = d then some config.phoebusSpecific else known)
      by_cases forD : key.device = d
      · have specific := same _ ((configFor_iff keyed read).mpr ⟨forD, valid state decoded, rfl⟩)
        rw [if_pos forD, specific]
        exact .inr rfl
      · rw [if_neg forD]
        exact elsewhere forD
    exact
      { malformed := malformed
        duplicate := by
          intro state decoded _ duplicate
          by_cases forD : key.device = d
          · have specific := same _
              ((configFor_iff keyed read).mpr ⟨forD, valid state decoded, rfl⟩)
            have known' : pvMetadata.map (·.phoebusConfigMetadata) = known := given forD
            show Settled settings known
            cases pvMetadata with
            | none => exact .inl known'.symm
            | some pvMetadata =>
                right
                rw [← known', ← specific, duplicate]
                rfl
          · exact elsewhere forD
        unchanged := fun state decoded _ => updated state decoded
        mirrored := fun state decoded _ =>
          ⟨trivial, fun _ _ => ⟨trivial, fun _ _ => updated state decoded⟩⟩ }

end

theorem World.settings_effect {d : String} {world world' : World Value} {o : Op Value}
    {answer : o.Answer} (effect : World.Effect o world answer world') :
    (settling d).may (world.settings d) o answer ∧
      world'.settings d = (settling d).step (world.settings d) o answer := by
  obtain ⟨answered, rfl⟩ := effect
  unfold settings
  rw [metadata_after]
  constructor
  · cases o with
    | lookupMetadata device =>
        rintro rfl
        exact congrArg (Option.map _) answered
    | _ => trivial
  · cases o with
    | updateMetadata device new =>
        by_cases same : d = device
        · simp [settling, same]
        · simp [settling, same, Ne.symm same]
    | _ => rfl

theorem log_after {w : Wire Value} {d : String} {settings : Settings Value} {base : List Outbound}
    {world : World Value} (o : Op Value)
    (log : ∃ later, world.sent = base ++ later ∧
      ∀ topic message, .publish d topic message ∈ later → Carries w settings message)
    (new : ∀ topic message, o = .send (.publish d topic message) → Carries w settings message) :
    ∃ later, (world.after o).sent = base ++ later ∧
      ∀ topic message, .publish d topic message ∈ later → Carries w settings message := by
  obtain ⟨later, sent, carried⟩ := log
  refine ⟨later ++ o.calls, by rw [World.sent_after, sent, List.append_assoc], ?_⟩
  intro topic message member
  rcases List.mem_append.mp member with earlier | last
  · exact carried topic message earlier
  · refine new topic message ?_
    cases o with
    | send out => exact congrArg Op.send (List.mem_singleton.mp last).symm
    | _ => cases last

section
variable [DecidableEq Value] {w : Wire Value} {publishers : List String} {topics : Unit → String}
  {d : String} {settings : Settings Value} {P Q R : Tasks Value Unit} {move : Act Value Unit}
  {moves rest : List (Act Value Unit)}

def NoConfig (w : Wire Value) (d : String) (move : Act Value Unit) : Prop :=
  ∀ msg, move = .take (.monitor ()) msg → ∀ settings, ¬ ConfigFor w d settings msg

/-- The monitor can only end with the settings, or with nothing known of the device. -/
def Settling (d : String) (settings : Settings Value) (Q : Tasks Value Unit) : Prop :=
  (Q.task (.monitor ())).Meets (settling d) (fun _ => Settled settings) (Q.shared.settings d)

theorem settling_step (reached : Reached w publishers topics Q)
    (step : (synchronizer w publishers topics).Step Q move R)
    (same : ∀ msg, move = .take (.monitor ()) msg → ∀ other, ConfigFor w d other msg →
      other = settings)
    (before : Settling d settings Q) : Settling d settings R := by
  have other : (.monitor () : Worker Unit) ≠ .controls := by simp
  unfold Settling at *
  cases move with
  | take i m =>
      obtain ⟨⟨a, idle⟩, shared, task⟩ := step.taken
      rw [shared, task]
      cases i with
      | controls =>
          rw [Function.update_of_ne other]
          exact before
      | monitor u =>
          rw [Function.update_self]
          rw [idle] at before
          exact handler_settling _ (.inl before) (same m rfl)
  | perform i o answer =>
      obtain ⟨next, ready, effect, task⟩ := step.performed
      obtain ⟨relied, known⟩ := World.settings_effect (d := d) effect
      rw [task, known]
      cases i with
      | controls =>
          have role := reached.role .controls
          rw [ready] at role
          rw [Function.update_of_ne other]
          cases o with
          | updateMetadata => exact absurd trivial role.1
          | _ => exact before
      | monitor u =>
          rw [Function.update_self]
          rw [ready] at before
          exact before.2 answer relied

theorem settling_run (reached : Reached w publishers topics P)
    (run : (synchronizer w publishers topics).Trace (fun _ => NoConfig w d) P moves Q)
    (start : Settling d settings P) : Settling d settings Q := by
  refine (run.invariant (I := fun _ Q => Reached w publishers topics Q ∧ Settling d settings Q)
    ⟨reached, start⟩ ?_).2
  rintro _ Q move R ⟨reached, before⟩ none step
  refine ⟨reached.step step, settling_step reached step ?_ before⟩
  intro msg taken other config
  exact absurd config (none msg taken other)

def Changes (d : String) (settings : Settings Value) : Op Value → Prop
  | .updateMetadata device new => device = d ∧ new.phoebusConfigMetadata ≠ settings
  | _ => False

theorem Settling.now {pvMetadata : PvMetadata Value} (ends : Settling d settings Q)
    (known : Q.shared.metadata d = some pvMetadata)
    (still : (Q.task (.monitor ())).Avoids (Changes d pvMetadata.phoebusConfigMetadata)) :
    pvMetadata.phoebusConfigMetadata = settings := by
  unfold Settling World.settings at ends
  rw [known] at ends
  have settled : Settled settings (some pvMetadata.phoebusConfigMetadata) := by
    refine Program.Meets.now ?_ ?_ still ends
    · intro o
      cases o with
      | lookupMetadata device => exact ⟨some pvMetadata, fun _ => rfl⟩
      | readAlarmState device => exact ⟨none, trivial⟩
      | readClock => exact ⟨(0 : Int), trivial⟩
      | send out =>
          cases out with
          | publish => exact ⟨true, trivial⟩
          | call => exact ⟨(⟨true, true, true⟩ : Transport), trivial⟩
      | _ => exact ⟨(), trivial⟩
    · intro o answer still _
      cases o with
      | updateMetadata device new =>
          by_cases same : device = d
          · have kept : new.phoebusConfigMetadata = pvMetadata.phoebusConfigMetadata := by
              by_contra changed
              exact still ⟨same, changed⟩
            simp [settling, same, kept]
          · simp [settling, same]
      | _ => rfl
  rcases settled with none | some
  · cases none
  · exact Option.some.inj some

/-- When the Controls task looks up `d`, no change of the settings of `d` is ahead of the monitor,
and the monitor takes no config of `d` as long as that lookup is ahead. -/
def LookupSettled (w : Wire Value) (d : String) (Q : Tasks Value Unit) : Act Value Unit → Prop
  | .take (.monitor _) msg => (∃ settings, ConfigFor w d settings msg) →
      (Q.task .controls).Avoids (· = Op.lookupMetadata d)
  | .perform .controls (.lookupMetadata device) _ => device = d → ∀ pvMetadata,
      Q.shared.metadata d = some pvMetadata →
        (Q.task (.monitor ())).Avoids (Changes d pvMetadata.phoebusConfigMetadata)
  | _ => True

/-- While the Controls task handles one message: what it publishes, what it may still look up, and
what has been published since `base`. -/
structure Fresh (w : Wire Value) (publishers : List String) (topics : Unit → String) (d : String)
    (settings : Settings Value) (base : List Outbound) (R : Tasks Value Unit) : Prop where
  reached : Reached w publishers topics R
  posts : (R.task .controls).Meets (posting w d settings) (fun _ _ => True) ()
  settles : (R.task .controls).Avoids (· = Op.lookupMetadata d) ∨ Settling d settings R
  log : ∃ later, R.shared.sent = base ++ later ∧
    ∀ topic message, .publish d topic message ∈ later → Carries w settings message

theorem Fresh.take {base : List Outbound} {msg : StringMessage}
    (fresh : Fresh w publishers topics d settings base Q)
    (step : (synchronizer w publishers topics).Step Q (.take (.monitor ()) msg) R)
    (clear : LookupSettled w d Q (.take (.monitor ()) msg)) :
    Fresh w publishers topics d settings base R := by
  have other : (.controls : Worker Unit) ≠ .monitor () := by simp
  obtain ⟨_, shared, task⟩ := step.taken
  have controls : R.task .controls = Q.task .controls := by rw [task, Function.update_of_ne other]
  refine ⟨fresh.reached.step step, controls ▸ fresh.posts, ?_, shared ▸ fresh.log⟩
  rw [controls]
  by_cases config : ∃ settings, ConfigFor w d settings msg
  · exact .inl (clear config)
  · refine fresh.settles.imp_right fun before => settling_step fresh.reached step ?_ before
    rintro msg' same other config'
    cases same
    exact absurd ⟨other, config'⟩ config

theorem Fresh.perform_monitor {base : List Outbound} {o : Op Value} {answer : o.Answer}
    (fresh : Fresh w publishers topics d settings base Q)
    (step : (synchronizer w publishers topics).Step Q (.perform (.monitor ()) o answer) R) :
    Fresh w publishers topics d settings base R := by
  have other : (.controls : Worker Unit) ≠ .monitor () := by simp
  obtain ⟨next, ready, effect, task⟩ := step.performed
  have controls : R.task .controls = Q.task .controls := by rw [task, Function.update_of_ne other]
  refine ⟨fresh.reached.step step, controls ▸ fresh.posts, ?_, ?_⟩
  · rw [controls]
    refine fresh.settles.imp_right fun before => settling_step fresh.reached step ?_ before
    rintro msg ⟨⟩
  · rw [effect.2]
    refine log_after o fresh.log ?_
    rintro topic message rfl
    have role := fresh.reached.role (.monitor ())
    rw [ready] at role
    exact absurd trivial role.1

theorem Fresh.perform_controls {base : List Outbound} {o : Op Value} {answer : o.Answer}
    (fresh : Fresh w publishers topics d settings base Q)
    (step : (synchronizer w publishers topics).Step Q (.perform .controls o answer) R)
    (clear : LookupSettled w d Q (.perform .controls o answer)) :
    Fresh w publishers topics d settings base R := by
  obtain ⟨next, ready, effect, task⟩ := step.performed
  have controls : R.task .controls = next answer := by rw [task, Function.update_self]
  have own := fresh.posts
  have before := fresh.settles
  rw [ready] at own before
  have relied : (posting w d settings).may () o answer := by
    cases o with
    | lookupMetadata device =>
        rintro rfl pvMetadata rfl
        have known : Q.shared.metadata device = some pvMetadata := effect.1.symm
        refine ⟨?_, (fresh.reached.wellFormed device pvMetadata known).2⟩
        rcases before with avoids | ends
        · exact absurd rfl avoids.1
        · exact ends.now known (clear rfl pvMetadata known)
    | _ => trivial
  refine ⟨fresh.reached.step step, controls ▸ own.2 answer relied, ?_, ?_⟩
  · rw [controls]
    refine before.imp (fun avoids => avoids.2 answer trivial) fun ends => ?_
    refine settling_step fresh.reached step ?_ ends
    rintro msg ⟨⟩
  · rw [effect.2]
    refine log_after o fresh.log ?_
    rintro topic message rfl
    exact own.1 rfl

/-- Controls-driven updates publish no stale settings. Once the monitor has taken a config of the
device and no other, a status that Controls takes is published with the settings of that config, as
long as these are settled whenever Controls looks them up. -/
theorem published_settings_fresh (lawful : w.Lawful) {P P₁ Q Q₁ R : Tasks Value Unit}
    (reached : Reached w publishers topics P) {config : StringMessage}
    (configured : ConfigFor w d settings config)
    (taken : (synchronizer w publishers topics).Step P (.take (.monitor ()) config) P₁)
    (between : (synchronizer w publishers topics).Trace (fun _ => NoConfig w d) P₁ moves Q)
    {status : StringMessage}
    (next : (synchronizer w publishers topics).Step Q (.take .controls status) Q₁)
    (handling : (synchronizer w publishers topics).Trace (fun S move => LookupSettled w d S move ∧
      ∀ msg, move ≠ .take .controls msg) Q₁ rest R)
    {topic : String} {message : StringMessage}
    (published : .publish d topic message ∈ R.shared.sent.drop Q₁.shared.sent.length) :
    Carries w settings message := by
  have begun : Settling d settings P₁ := by
    unfold Settling
    rw [taken.taken.2.2, Function.update_self]
    refine handler_settling _ (.inr configured) ?_
    intro other config'
    obtain ⟨key, parsed, _, keyed, _, read, _, specific⟩ := configured
    exact ((configFor_iff keyed read).mp config').2.2.symm.trans specific
  have settled := settling_run (reached.step taken) between begun
  have reachedQ := (reached.step taken).trace between
  have start : Fresh w publishers topics d settings Q₁.shared.sent Q₁ := by
    refine ⟨reachedQ.step next, ?_, .inr (settling_step reachedQ next ?_ settled), [],
      by simp, by simp⟩
    · rw [next.taken.2.2, Function.update_self]
      exact handler_posting lawful status
    · rintro msg ⟨⟩
  have fresh : Fresh w publishers topics d settings Q₁.shared.sent R := by
    refine handling.invariant
      (I := fun _ R => Fresh w publishers topics d settings Q₁.shared.sent R) start ?_
    rintro _ S move S' fresh ⟨clear, new⟩ step
    cases move with
    | take i msg =>
        cases i with
        | controls => exact absurd rfl (new msg)
        | monitor => exact fresh.take step clear
    | perform i o answer =>
        cases i with
        | controls => exact fresh.perform_controls step clear
        | monitor => exact fresh.perform_monitor step
  obtain ⟨later, sent, carried⟩ := fresh.log
  rw [sent, List.drop_left] at published
  exact carried topic message published

end

section
open PlainWire

abbrev pair : Machine (effects FlatJson.Scalar) (Worker Unit) StringMessage (World FlatJson.Scalar)
    (Option SyncOutcome) := synchronizer wire publishers fun _ => "plant"

def inlet : Settings FlatJson.Scalar :=
  (∅ : Settings FlatJson.Scalar).insert "description" (.string "inlet")

def tunedConfig (enabled host : String) : StringMessage :=
  ⟨some (Controls.getPhoebusKey .config "/plant" "pump"),
    Config.toStr wire ⟨some enabled, host, "operator", inlet⟩⟩

theorem inlet_unnamed : inlet.Unnamed := by
  intro k named
  have other : k ≠ "description" := by
    rintro rfl
    cases named
  rw [inlet, Finmap.lookup_insert_of_ne _ other, Finmap.lookup_empty]

theorem tunedConfig_for : ConfigFor wire "pump" inlet (tunedConfig "true" "console") := by
  have addressable : Addressable "pump" := by decide
  refine ⟨_, _, .active, keyOf_eq_some.mpr ⟨_, rfl, Key.parse_getPhoebusKey _ _ addressable, rfl⟩,
    rfl, Config.fromStr_toStr lawful inlet_unnamed, ?_, rfl⟩
  simp [Config.normalizeEnablement, lawful.rfc3339_true]

def tuning : Tasks FlatJson.Scalar Unit :=
  (waiting (started "true")).hand pair (.monitor ()) (tunedConfig "true" "console")

def tuned : Tasks FlatJson.Scalar Unit := tuning.advance env.answer (.monitor ()) 4

def tunedBypass : Tasks FlatJson.Scalar Unit :=
  (tuned.hand pair .controls (statusMessage "pump" "BYPASSED")).advance env.answer .controls 4

theorem tunedBypass_fresh : Carries wire inlet (tunedConfig "false" Controls.controlsHost) := by
  have taken : pair.Step (waiting (started "true"))
      (.take (.monitor ()) (tunedConfig "true" "console")) tuning := Machine.step_hand _ rfl
  obtain ⟨moves, between⟩ := Machine.trace_advance (K := pair)
    (C := fun _ => NoConfig wire "pump") (P := tuning) env.answer_effect (.monitor ()) 4
    (by rintro o world p msg ⟨⟩)
  have status : pair.Step tuned (.take .controls (statusMessage "pump" "BYPASSED")) _ :=
    Machine.step_hand _ (by decide +kernel)
  have idle : (tuned.task (.monitor ())).busy = false := by decide +kernel
  obtain ⟨rest, handling⟩ := Machine.trace_advance (K := pair)
    (C := fun S move => LookupSettled wire "pump" S move ∧ ∀ msg, move ≠ .take .controls msg)
    (P := tuned.hand pair .controls (statusMessage "pump" "BYPASSED"))
    env.answer_effect .controls 4 (by
      intro o world p
      refine ⟨?_, fun msg => by simp⟩
      cases o with
      | lookupMetadata device => exact fun _ _ _ => Program.avoids_idle idle
      | _ => trivial)
  have member : .publish "pump" "plant" (tunedConfig "false" Controls.controlsHost) ∈
      tunedBypass.shared.sent.drop
        (tuned.hand pair .controls (statusMessage "pump" "BYPASSED")).shared.sent.length := by
    decide +kernel
  exact published_settings_fresh lawful (.of_reachable ⟨_, rfl⟩) tunedConfig_for taken between
    status handling member

/-- A bypass is taken before the monitor keeps the new settings. -/
def staleBypass : Tasks FlatJson.Scalar Unit :=
  (tuning.hand pair .controls (statusMessage "pump" "BYPASSED")).advance env.answer .controls 4

/-- The config published for the bypass lacks the settings of the config taken before. -/
theorem stale_settings_published :
    ¬ ∀ (P P₁ Q Q₁ R : Tasks FlatJson.Scalar Unit) (moves rest : List _)
    (settings : Settings FlatJson.Scalar) (config status : StringMessage) (topic : String)
    (message : StringMessage), Reached wire publishers (fun _ => "plant") P →
    ConfigFor wire "pump" settings config → pair.Step P (.take (.monitor ()) config) P₁ →
    pair.Trace (fun _ => NoConfig wire "pump") P₁ moves Q →
    pair.Step Q (.take .controls status) Q₁ →
    pair.Trace (fun _ move => ∀ msg, move ≠ .take .controls msg) Q₁ rest R →
    .publish "pump" topic message ∈ R.shared.sent.drop Q₁.shared.sent.length →
    Carries wire settings message := by
  intro claim
  have taken : pair.Step (waiting (started "true"))
      (.take (.monitor ()) (tunedConfig "true" "console")) tuning := Machine.step_hand _ rfl
  have status : pair.Step tuning (.take .controls (statusMessage "pump" "BYPASSED")) _ :=
    Machine.step_hand _ rfl
  obtain ⟨rest, handling⟩ := Machine.trace_advance (K := pair)
    (C := fun _ move => ∀ msg, move ≠ .take .controls msg)
    (P := tuning.hand pair .controls (statusMessage "pump" "BYPASSED"))
    env.answer_effect .controls 4 (by rintro o world p msg ⟨⟩)
  have carries := claim _ _ _ _ staleBypass _ _ inlet _ _ "plant" (mirroredConfig "pump" "false")
    (.of_reachable ⟨_, rfl⟩) tunedConfig_for taken (.nil _) status handling (by decide +kernel)
  have addressable : Addressable "pump" := by decide
  obtain ⟨config, read, specific⟩ := carries ⟨"pump", "/plant", .config⟩
    (keyOf_eq_some.mpr ⟨_, rfl, Key.parse_getPhoebusKey _ _ addressable, rfl⟩)
  have empty : config.phoebusSpecific = ∅ := by
    have written := Config.fromStr_toStr lawful
      (c := ⟨some "false", Controls.controlsHost, "operator", ∅⟩) fun k _ => Finmap.lookup_empty k
    cases read.symm.trans written
    rfl
  have missing : inlet.lookup "description" = none := by
    rw [← specific, empty, Finmap.lookup_empty]
  rw [inlet, Finmap.lookup_insert] at missing
  cases missing

end

end AlarmSync
