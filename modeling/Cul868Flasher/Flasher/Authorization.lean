import Cul868Flasher.Effects.Evaluation
import Cul868Flasher.Flasher.Diagnostics
import Cul868Flasher.Flasher.Commands
import Cul868Flasher.Options
import Cul868Flasher.Persistence

/-!
# How long a handoff authorizes a recovery

`B01` may change the USB descriptor of the device. The record saved before it
lets planning accept a bootloader with another serial, but only for as long as
the flash itself would wait for that bootloader.
-/

namespace Cul868Flasher
open Python Effects

namespace Flasher

/-! ## What the other operations save -/

/-- The kinds of steps of an operation that reads from the application. -/
def exclusiveKinds : List OpKind :=
  [.clock, .sleep, .usb, .file, .session, .query, .ledCommand, .save (some .verifiedApplication),
    .get, .post]

theorem readVersion_uses (device : Path) (baudrate : ℕ) :
    Uses [.sleep, .session] (readVersion device baudrate) := by
  refine (Emits.retry (fun _ => perform_uses (k := .sleep) rfl (by decide))
    (fun _ => ?_) _ _ _).bind
    fun x => ?_
  · exact (readVersionOnce_uses (by decide) device baudrate).attempt.bind fun _ => .pure _
  · obtain ⟨result, _⟩ := x
    cases result <;> trivial

theorem setLedPass_uses (device : Path) (baudrate : ℕ) (mode : LedMode) :
    Uses [.session, .ledCommand] (setLedPass device baudrate mode) := by
  have hattempt : Uses [.session, .ledCommand] (setLedAttempt device baudrate mode) := by
    refine sessionWith_uses (by decide) (((version_uses (by decide)).raisingWith _).bind
      fun version => ?_)
    split_ifs
    · trivial
    · refine Emits.bind (Emits.raisingWith ?_ _) fun _ => .pure _
      exact Emits.bind (perform_uses (k := .ledCommand) rfl (by decide)) fun answer => .ofExcept _
  refine hattempt.attempt.bind fun result => ?_
  cases result with
  | ok x => trivial
  | error x =>
    dsimp only
    split_ifs <;> trivial

theorem setLedAfterVerification_uses (device : Path) (baudrate : ℕ) (mode : LedMode) :
    Uses [.sleep, .session, .ledCommand] (setLedAfterVerification device baudrate mode) := by
  refine (Emits.retry (fun _ => perform_uses (k := .sleep) rfl (by decide))
    (fun _ => ?_) _ _ _).bind
    fun x => ?_
  · exact ((setLedPass_uses device baudrate mode).of_subset (by decide)).bind fun _ => .pure _
  · obtain ⟨result, _⟩ := x
    cases result <;> trivial

theorem optionalQuery_uses {ks : List OpKind} {query : Program α} (h : Uses ks query) :
    Uses ks (optionalQuery query) := by
  refine h.attempt.bind fun result => ?_
  cases result <;> trivial

theorem readTelemetry_uses (device : Path) (baudrate : ℕ) :
    Uses [.session, .query] (readTelemetry device baudrate) := by
  refine session_uses (by decide) ?_
  refine Emits.bind (optionalQuery_uses ?_) fun _ => Emits.bind (optionalQuery_uses ?_) fun _ =>
    .pure _
  · exact Emits.bind (perform_uses (k := .query) rfl (by decide)) fun answer => .ofExcept _
  · exact Emits.bind (perform_uses (k := .query) rfl (by decide)) fun answer => .ofExcept _

variable (fuel : ℕ) (settings : Settings)

theorem temporarilyStop_uses {ks : List OpKind} (device : Path) (additional : List String)
    {block : CulConsumerPause → Paused (α × CulConsumerPause)} (h : ∀ pause, Uses ks (block pause))
    (hks : [.clock, .sleep, .get, .post, .file] ⊆ ks) :
    Uses ks (SupervisorClient.temporarilyStopCulConsumers fuel device additional block) := by
  refine ((SupervisorClient.pauseConsumers_uses fuel _ _).of_subset hks).bind fun paused => ?_
  refine (h paused.1).attempt.bind fun result => ?_
  refine (SupervisorClient.resumeConsumers_uses fuel _ _).of_subset (List.Subset.trans ?_ hks)
  decide

/-- The body that the three operations share. -/
theorem exclusive_uses {block : CulConsumerPause → Paused (α × CulConsumerPause)}
    (h : ∀ pause, Uses exclusiveKinds (block pause)) {f : α → β} :
    Uses exclusiveKinds (do
      let _ ← configuredApplicationEndpoint settings none
      let (result, _) ← SupervisorClient.temporarilyStopCulConsumers fuel settings.device
        settings.additionalCulAddons block
      return f result) := by
  refine ((configuredApplicationEndpoint_uses settings none).of_subset (by decide)).bind fun _ => ?_
  exact (temporarilyStop_uses fuel _ _ h (by decide)).bind fun _ => .pure _

theorem saveVerified_uses (application : UsbTarget) (version : String) (pause : CulConsumerPause) :
    Uses exclusiveKinds ((DeviceStateStore.save
      (verifiedApplication settings application version)).raisingWith pause) :=
  (save_uses (b := .verifiedApplication) rfl (by decide)).raisingWith pause

theorem verifyRunningApplication_uses :
    Uses exclusiveKinds (verifyRunningApplication fuel settings) := by
  refine Emits.bind (Emits.attempt (exclusive_uses fuel settings (f := id) fun pause => ?_))
    fun result => ?_
  · refine Emits.bind (((configuredApplicationEndpoint_uses settings none).of_subset
      (by decide)).raisingWith _) fun endpoint => ?_
    refine Emits.bind (((readVersion_uses _ _).of_subset (by decide)).raisingWith _)
      fun version => ?_
    exact (saveVerified_uses settings _ _ _).bind fun _ => .pure _
  · cases result with
    | ok _ => trivial
    | error err =>
      dsimp only
      split_ifs <;> trivial

theorem setLed_uses (mode : LedMode) : Uses exclusiveKinds (setLed fuel settings mode) := by
  refine Emits.bind (Emits.attempt (exclusive_uses fuel settings
    (f := fun version => (⟨mode, version⟩ : LedResult)) fun pause => ?_)) fun result => ?_
  · refine Emits.bind (((configuredApplicationEndpoint_uses settings none).of_subset
      (by decide)).raisingWith _) fun endpoint => ?_
    refine Emits.bind (Emits.raisingWith (Emits.bind (((setLedAfterVerification_uses _ _
      mode).of_subset (by decide)).catching _) fun result => ?_) _) fun version => ?_
    · cases result <;> trivial
    · exact (saveVerified_uses settings _ _ _).bind fun _ => .pure _
  · cases result with
    | ok _ => trivial
    | error err =>
      dsimp only
      split_ifs <;> trivial

theorem diagnostics_uses : Uses exclusiveKinds (diagnostics fuel settings) := by
  refine Emits.bind (Emits.attempt (exclusive_uses fuel settings (f := id) fun pause => ?_))
    fun result => ?_
  · refine Emits.bind (((configuredApplicationEndpoint_uses settings none).of_subset
      (by decide)).raisingWith _) fun endpoint => ?_
    refine Emits.bind (Emits.raisingWith (Emits.bind (((readVersion_uses _ _).of_subset
      (by decide)).catching _) fun result => ?_) _) fun version => ?_
    · cases result <;> trivial
    · refine Emits.bind (((readTelemetry_uses _ _).of_subset (by decide)).raisingWith _)
        fun telemetry => ?_
      exact (saveVerified_uses settings _ _ _).bind fun _ => .pure _
  · cases result with
    | ok _ => trivial
    | error err =>
      dsimp only
      split_ifs <;> trivial

end Flasher

/-! ## Histories -/

/-- What one operation of the flasher has done, whole or cut. -/
inductive OperationRun (settings : Settings) (t : Trace World) : Prop
  | flash (fuel : ℕ) (image : HexImage) (manualRecovery : Option ManualRecoveryTarget)
      (r : Outcome Exn FlashResult) (h : Run (Flasher.flash fuel settings image manualRecovery) t r)
  | verify (fuel : ℕ) (r : Outcome Exn String)
      (h : Run (Flasher.verifyRunningApplication fuel settings) t r)
  | setLed (fuel : ℕ) (mode : LedMode) (r : Outcome Exn LedResult)
      (h : Run (Flasher.setLed fuel settings mode) t r)
  | diagnostics (fuel : ℕ) (r : Outcome Exn DiagnosticsResult)
      (h : Run (Flasher.diagnostics fuel settings) t r)

/-- Operations one after the other. Each comes with the settings of its process,
which a restart can change. -/
def History (past : List (Settings × Trace World)) : Prop :=
  ∀ x ∈ past, x.1.Admitted ∧ OperationRun x.1 x.2

theorem no_handoff_of_uses {p : Program α} (h : Uses Flasher.exclusiveKinds p) {t : Trace World}
    {r : Outcome Exn α} (hrun : Run p t r) {file : StateFile} (hfile : file ∈ replaced t) :
    file.binding ≠ some .handoffPending := by
  obtain ⟨u, outcome, v, rfl⟩ := mem_replaced hfile
  have hkind := h.run hrun ⟨.saveState file, outcome⟩ (by simp)
  intro hbinding
  change OpKind.save file.binding ∈ Flasher.exclusiveKinds at hkind
  rw [hbinding] at hkind
  exact absurd hkind (by decide)

/-- A handoff record carries the time at which it was written. -/
theorem OperationRun.handoff {settings : Settings} {t : Trace World} (h : OperationRun settings t)
    {file : StateFile} (hfile : file ∈ replaced t)
    (hbinding : file.binding = some .handoffPending) :
    ∃ plan now, ⟨.time, (now : ℚ)⟩ ∈ t ∧
      DeviceStateStore.encode (Flasher.handoffPending settings plan now) = .ok file := by
  cases h with
  | verify fuel r h =>
    exact absurd hbinding
      (no_handoff_of_uses (Flasher.verifyRunningApplication_uses fuel settings) h hfile)
  | setLed fuel mode r h =>
    exact absurd hbinding (no_handoff_of_uses (Flasher.setLed_uses fuel settings mode) h hfile)
  | diagnostics fuel r h =>
    exact absurd hbinding (no_handoff_of_uses (Flasher.diagnostics_uses fuel settings) h hfile)
  | flash fuel image manualRecovery r h =>
    rcases PlannedRun.of_run h with hplanning | ⟨x, -, -, rfl⟩
    · rw [replaced_planning hplanning] at hfile
      cases hfile
    · rw [replaced_append, replaced_planning x.before_uses, List.nil_append] at hfile
      obtain ⟨u, ⟨outcome, v, hafter⟩, hallowed⟩ := Flasher.saveAllowed x.stepsAllowed hfile
      obtain ⟨-, -, w, now, rfl, hencode⟩ | ⟨-, -, _, _, _, -, -, hencode⟩ | ⟨hverified, -⟩ :=
        hallowed
      · exact ⟨x.plan, now, by simp [hafter], hencode⟩
      · rw [binding_encode hencode] at hbinding
        cases hbinding
      · rw [hverified] at hbinding
        cases hbinding

theorem mem_replaced_flatMap {past : List (Settings × Trace World)} {file : StateFile}
    (h : file ∈ replaced (past.flatMap Prod.snd)) : ∃ x ∈ past, file ∈ replaced x.2 := by
  obtain ⟨e, he, hreplaced⟩ := List.mem_filterMap.mp h
  obtain ⟨x, hx, he⟩ := List.mem_flatMap.mp he
  exact ⟨x, hx, List.mem_filterMap.mpr ⟨e, he, hreplaced⟩⟩

/-! ## What acceptance has checked -/

theorem DeviceStateStore.decode_some {read : StateRead} {known : KnownDevice}
    (h : decode read = .ok (some known)) : ∃ content fields, read = .file content ∧
      content.document = some (.obj fields) ∧ decodeFields fields = some known := by
  cases read with
  | missing => cases h
  | raised e => cases h
  | file content =>
    simp only [decode] at h
    split_ifs at h
    · cases h
    · split at h
      · rename_i fields hdocument
        exact ⟨content, fields, rfl, hdocument, Except.ok.inj h⟩
      · cases h

/-- The fields of a document that reads as a handoff record. -/
structure HandoffDocument (fields : List (String × Json)) (known : KnownDevice) (limit : ℤ) :
    Prop where
  binding : fields.lookup "recovery_binding" = some (.str "handoff-pending")
  deadline : fields.lookup "handoff_deadline" = some (.int limit)
  topology : fields.lookup "topology" = some (.str known.topology)
  device : ∀ device, known.configuredDevice = some device →
    fields.lookup "configured_device" = some (.str device)
  range : 0 ≤ limit ∧ limit ≤ 4102444800

theorem lookup_of_get {fields : List (String × Json)} {key : String} {value : Json}
    (h : Json.get fields key = value) (hne : value ≠ .null) : fields.lookup key = some value := by
  rw [Json.get] at h
  cases hlookup : fields.lookup key with
  | none =>
    rw [hlookup] at h
    exact absurd h.symm hne
  | some found =>
    rw [hlookup] at h
    exact congrArg some h

theorem recoveryBindingForDocument_handoff {fields : List (String × Json)}
    {version : Option String}
    (h : recoveryBindingForDocument fields version = some .handoffPending) :
    fields.lookup "recovery_binding" = some (.str "handoff-pending") := by
  simp only [recoveryBindingForDocument] at h
  split at h
  · cases version with
    | none => simp at h
    | some v => simp at h
  · rename_i text hlookup
    rw [hlookup]
    unfold RecoveryBinding.ofText at h
    split_ifs at h with h₁ h₂ h₃ h₄
    · cases h
    · rw [h₂]
    · cases h
    · cases h
  · cases h

theorem safeHandoffDeadline_json {value : Json} {n : ℤ} (h : safeHandoffDeadline value = some n) :
    value = .int n := by
  cases value with
  | int m =>
    simp only [safeHandoffDeadline] at h
    split_ifs at h
    rw [Option.some.inj h]
  | _ => cases h

theorem safeOptionalDevicePath_json {value : Json} {s : String}
    (h : safeOptionalDevicePath value = some s) : value = .str s := by
  cases value with
  | str text =>
    simp only [safeOptionalDevicePath] at h
    split_ifs at h
    rw [Option.some.inj h]
  | _ => cases h

theorem handoffDocument_of_decode {fields : List (String × Json)} {known : KnownDevice}
    (h : DeviceStateStore.decodeFields fields = some known)
    (hbinding : known.recoveryBinding = .handoffPending) :
    ∃ limit, known.handoffDeadline = some limit ∧ HandoffDocument fields known limit := by
  simp only [DeviceStateStore.decodeFields] at h
  split at h
  · rename_i topology htopology
    split_ifs at h
    split at h
    · cases h
    · rename_i binding hdocument
      split_ifs at h with hmissing hpending
      · cases h
        obtain ⟨limit, hlimit⟩ :=
          Option.ne_none_iff_exists'.mp fun hnone => hmissing ⟨hpending, hnone⟩
        rw [hpending] at hdocument
        exact ⟨limit, hlimit, {
          binding := recoveryBindingForDocument_handoff hdocument
          deadline := lookup_of_get (safeHandoffDeadline_json hlimit) (by simp)
          topology := lookup_of_get htopology (by simp)
          device := fun device hdevice =>
            lookup_of_get (safeOptionalDevicePath_json hdevice) (by simp)
          range := KnownDevice.safeHandoffDeadline_range hlimit }⟩
      · cases h
        exact absurd hbinding hpending
  · cases h

namespace Flasher

/-- A bootloader with another serial is accepted within the window of the handoff. -/
theorem bootloaderForKnown_window {settings : Settings} {known : KnownDevice} {t : Trace World}
    {bootloader : UsbTarget}
    (h : Run (bootloaderForKnown settings known) t (.returned (some bootloader)))
    (hchanged : hasChangedUsbSerial known bootloader = true) :
    known.recoveryBinding = .handoffPending ∧ ∃ limit now, known.handoffDeadline = some limit ∧
      ⟨.time, (now : ℚ)⟩ ∈ t ∧ 0 ≤ limit - truncate now ∧
      limit - truncate now ≤ postDfuTimeout settings := by
  obtain ⟨found, t₁, t₂, rfl, -, h₂⟩ := Run.bind_returned.mp h
  cases found with
  | none => cases (Run.pure_returned.mp h₂).2
  | some found =>
    dsimp only at h₂
    split at h₂
    · obtain ⟨current, u₁, u₂, rfl, hu₁, hu₂⟩ := Run.bind_returned.mp h₂
      cases current with
      | false =>
        simp only [Bool.false_eq_true, if_false] at hu₂
        split at hu₂
        · exact absurd hu₂ Run.raise_returned
        · exact absurd hu₂ Run.raise_returned
      | true =>
        obtain ⟨now, v₁, v₂, rfl, hv₁, hv₂⟩ := Run.bind_returned.mp hu₁
        rw [Run.perform_returned.mp hv₁]
        split at hv₂
        · cases (Run.pure_returned.mp hv₂).2
        · rename_i limit hlimit
          have hwindow := (Run.pure_returned.mp hv₂).2
          simp only [Bool.true_eq, Bool.and_eq_true, decide_eq_true_eq] at hwindow
          exact ⟨hwindow.1.1, limit, now, hlimit, by simp, hwindow.1.2, hwindow.2⟩
    · rename_i hsame
      obtain ⟨-, hb⟩ := Run.pure_returned.mp h₂
      cases hb
      exact absurd hchanged hsame

/-- What planning has done when it recovers the known device. -/
theorem plan_recovery {settings : Settings} {manualRecovery : Option ManualRecoveryTarget}
    {allow : Bool} {t : Trace World} {p : FlashPlan}
    (h : Run (plan settings manualRecovery allow) t (.returned p)) (hmode : p.mode = .recovery) :
    ∃ read known bootloader t₁ t₂, t = ⟨.loadState, read⟩ :: t₁ ++ t₂ ∧
      DeviceStateStore.decode read = .ok (some known) ∧
      stateMatchesConfiguration settings known = true ∧
      p = ⟨.recovery, known.topology, none, some bootloader, some known, none⟩ ∧
      Run (bootloaderForKnown settings known) t₂ (.returned (some bootloader)) := by
  have hunpaired : ∀ {applicationError recoveryError known knownForConfig u},
      ¬ Run (planUnpaired allow applicationError recoveryError known knownForConfig) u
        (.returned p) := by
    intro _ _ _ _ _ hrun
    obtain ⟨-, _, _, rfl, -⟩ := planUnpaired_returned hrun
    cases hmode
  obtain ⟨known, t₁, t₂, rfl, h₁, h₂⟩ := Run.bind_returned.mp h
  obtain ⟨read, rfl, hread⟩ := load_returned h₁
  obtain ⟨found, t₃, t₄, rfl, h₃, h₄⟩ := Run.bind_returned.mp h₂
  obtain ⟨application, rfl, -⟩ | ⟨applicationError, -, rfl, -⟩ := Run.catching_returned h₃
  · cases manualRecovery with
    | some confirmed => exact absurd h₄ Run.raise_returned
    | none =>
      obtain ⟨-, rfl⟩ := Run.pure_returned.mp h₄
      cases hmode
  · cases manualRecovery with
    | some confirmed =>
      obtain ⟨bootloader, rfl, -⟩ := manualPlan_returned h₄
      cases hmode
    | none =>
      dsimp only at h₄
      unfold planRecovery at h₄
      split at h₄
      · exact absurd h₄ hunpaired
      · rename_i device hknown
        obtain ⟨found, u₁, u₂, rfl, hu₁, hu₂⟩ := Run.bind_returned.mp h₄
        split at hu₂
        · obtain ⟨rfl, rfl⟩ := Run.pure_returned.mp hu₂
          obtain ⟨found', hf, hrun⟩ | ⟨e, -, hf, -⟩ := Run.catching_returned hu₁
          · cases hf
            obtain ⟨rfl, hmatches⟩ := Option.filter_eq_some_iff.mp hknown
            exact ⟨read, device, _, t₃, u₁, by simp, hread, hmatches, rfl, hrun⟩
          · cases hf
        · exact absurd hu₂ hunpaired
        · exact absurd hu₂ hunpaired

end Flasher

/-- The time limit of a handoff is that of the wait for the bootloader. -/
theorem Settings.Admitted.postDfuTimeout {settings : Settings} (h : settings.Admitted) :
    90 ≤ Flasher.postDfuTimeout settings ∧ Flasher.postDfuTimeout settings ≤ 120 := by
  obtain ⟨-, hupper⟩ := h.bootTimeout
  simp only [Flasher.postDfuTimeout, Flasher.minPostDfuTimeoutSeconds]
  omega

/-- The record that stands after a history was there before it, or has been
written by `B01` in one of its operations. -/
theorem handoff_written {past : List (Settings × Trace World)} (hpast : History past)
    {before : StateRead} {content : StateFile} {fields : List (String × Json)}
    {known : KnownDevice} {limit : ℤ}
    (hcontent : stateAfter before (past.flatMap Prod.snd) = .file content)
    (hdocument : content.document = some (.obj fields))
    (hfields : DeviceStateStore.decodeFields fields = some known)
    (hbinding : known.recoveryBinding = .handoffPending)
    (hlimit : known.handoffDeadline = some limit) :
    (durable (past.flatMap Prod.snd) = none ∧ before = .file content) ∨
      ∃ x ∈ past, ∃ plan written, ⟨.time, (written : ℚ)⟩ ∈ x.2 ∧
        DeviceStateStore.encode (Flasher.handoffPending x.1 plan written) = .ok content ∧
        limit = Flasher.truncate written + Flasher.postDfuTimeout x.1 := by
  rw [stateAfter] at hcontent
  cases hdurable : durable (past.flatMap Prod.snd) with
  | none =>
    rw [hdurable] at hcontent
    exact .inl ⟨rfl, hcontent⟩
  | some file =>
    rw [hdurable] at hcontent
    obtain rfl : file = content := StateRead.file.inj hcontent
    have hrecord : file.record = some known := by
      rw [StateFile.record, hdocument]
      exact hfields
    obtain ⟨x, hx, hfile⟩ := mem_replaced_flatMap (durable_mem hdurable)
    obtain ⟨plan, written, hwritten, hencode⟩ := (hpast x hx).2.handoff hfile (by
      rw [StateFile.binding, hrecord, Option.map_some, hbinding])
    refine .inr ⟨x, hx, plan, written, hwritten, hencode, ?_⟩
    rw [DeviceStateStore.record_encode hencode] at hrecord
    rw [← Option.some.inj hrecord] at hlimit
    simpa [KnownDevice.normalize, Flasher.handoffPending] using hlimit.symm

/-- A recovery of a bootloader with another serial is authorized by a handoff
record of this configuration and this path, in the window before its deadline. -/
theorem handoff_authorizes {past : List (Settings × Trace World)} (hpast : History past)
    {before : StateRead} {settings : Settings} (hsettings : settings.Admitted)
    {manualRecovery : Option ManualRecoveryTarget} {allow : Bool} {t : Trace World}
    {p : FlashPlan} (h : Run (Flasher.plan settings manualRecovery allow) t (.returned p))
    (hload : ∀ read, (⟨.loadState, read⟩ : Event World) ∈ t →
      read = stateAfter before (past.flatMap Prod.snd))
    (hmode : p.mode = .recovery) {known : KnownDevice} {bootloader : UsbTarget}
    (hknown : p.known = some known) (hbootloader : p.bootloader = some bootloader)
    (hchanged : Flasher.hasChangedUsbSerial known bootloader = true) :
    ∃ content fields limit now,
      stateAfter before (past.flatMap Prod.snd) = .file content ∧
      content.document = some (.obj fields) ∧ HandoffDocument fields known limit ∧
      known.recoveryBinding = .handoffPending ∧ known.handoffDeadline = some limit ∧
      known.configuredDevice = some (toString settings.device) ∧
      p.topology = known.topology ∧ bootloader.topology = known.topology ∧
      (90 ≤ Flasher.postDfuTimeout settings ∧ Flasher.postDfuTimeout settings ≤ 120) ∧
      ⟨.time, (now : ℚ)⟩ ∈ t ∧ limit - Flasher.postDfuTimeout settings ≤ Flasher.truncate now ∧
      Flasher.truncate now ≤ limit ∧
      ((durable (past.flatMap Prod.snd) = none ∧ before = .file content) ∨
        ∃ x ∈ past, ∃ plan written, ⟨.time, (written : ℚ)⟩ ∈ x.2 ∧
          DeviceStateStore.encode (Flasher.handoffPending x.1 plan written) = .ok content ∧
          limit = Flasher.truncate written + Flasher.postDfuTimeout x.1 ∧
          Flasher.truncate now ≤ Flasher.truncate written + 120) := by
  obtain ⟨read, known', bootloader', t₁, t₂, rfl, hread, hmatches, rfl, hrun⟩ :=
    Flasher.plan_recovery h hmode
  cases hknown
  cases hbootloader
  obtain ⟨hbinding, limit, now, hlimit, hnow, hlower, hupper⟩ :=
    Flasher.bootloaderForKnown_window hrun hchanged
  obtain ⟨⟨e, -, hfound⟩, -⟩ := Flasher.bootloaderForKnown_returned hrun
  obtain rfl := hload read (by simp)
  obtain ⟨content, fields, hcontent, hdocument, hfields⟩ := DeviceStateStore.decode_some hread
  obtain ⟨limit', hlimit', hdoc⟩ := handoffDocument_of_decode hfields hbinding
  obtain rfl : limit = limit' := Option.some.inj (hlimit.symm.trans hlimit')
  refine ⟨content, fields, limit, now, hcontent, hdocument, hdoc, hbinding, hlimit,
    by simpa [Flasher.stateMatchesConfiguration] using hmatches, rfl, hfound.valid.2,
    hsettings.postDfuTimeout, by simp [hnow], by omega, by omega, ?_⟩
  rcases handoff_written hpast hcontent hdocument hfields hbinding hlimit with hbefore |
    ⟨x, hx, plan, written, hwritten, hencode, hdeadline⟩
  · exact .inl hbefore
  · have hlong := (hpast x hx).1.postDfuTimeout.2
    exact .inr ⟨x, hx, plan, written, hwritten, hencode, hdeadline, by omega⟩

/-! ## A recovery after a restart -/

/-- The CUL has a serial number, and `B01` is lost on its way. -/
def lostHandoffAnswer (n : ℕ) : (o : Op) → World.Ans o
  | .usb _ => Sysfs.ofDevices [cul "1-1" "ttyACM0" (some "A")] []
  | o => lostAnswer n o

/-- The flash that has sent `B01`. -/
def lostHandoff : Trace World :=
  ((Flasher.flash 2 PlannedRun.qemuSettings sampleImage none).exec (I := World)
    lostHandoffAnswer 0).1

theorem lostHandoff_run : OperationRun PlannedRun.qemuSettings lostHandoff :=
  .flash 2 sampleImage none _ (Run.of_exec (I := World) _ _ _)

attribute [irreducible] lostHandoff

/-- The bootloader of the CUL has another serial number. -/
def restartScript : Script where
  usb _ := .ofDevices [dfuBootloader "1-1" (some "B")] []
  state := stateAfter .missing lostHandoff

/-- The next process waits longer for a bootloader. -/
def restartSettings : Settings := { PlannedRun.qemuSettings with bootTimeout := 120 }

theorem qemuSettings_device : DevicePath PlannedRun.qemuSettings.device where
  root := by decide +kernel
  dev := ⟨"ttyACM0", [], by decide +kernel⟩
  components := by
    have htail : PlannedRun.qemuSettings.device.tail = ["dev", "ttyACM0"] := by decide +kernel
    rw [htail]
    intro name hname
    rcases List.mem_cons.mp hname with rfl | hname
    · exact ⟨⟨by decide, by decide, by decide⟩, by decide⟩
    · rw [List.mem_singleton.mp hname]
      exact ⟨⟨by decide, by decide, by decide⟩, by decide⟩
  length := by decide +kernel

theorem qemuSettings_admitted : PlannedRun.qemuSettings.Admitted :=
  ⟨qemuSettings_device, by decide, by decide⟩

theorem restartSettings_admitted : restartSettings.Admitted :=
  ⟨qemuSettings_device, by decide, by decide⟩

theorem restart_history : History [(PlannedRun.qemuSettings, lostHandoff)] := by
  rintro x hx
  rw [List.mem_singleton.mp hx]
  exact ⟨qemuSettings_admitted, lostHandoff_run⟩

theorem handoff_authorizes_restart :
    ∃ (past : List (Settings × Trace World)) (t : Trace World) (p : FlashPlan)
      (known : KnownDevice) (bootloader : UsbTarget),
      History past ∧ Run (Flasher.plan restartSettings none false) t (.returned p) ∧
      p.known = some known ∧ p.bootloader = some bootloader ∧
      Flasher.hasChangedUsbSerial known bootloader = true ∧
      ∃ x ∈ past, ∃ written now : ℚ, ⟨.time, written⟩ ∈ x.2 ∧ ⟨.time, now⟩ ∈ t ∧
        Flasher.truncate now ≤ Flasher.truncate written + 120 := by
  have hrun := Run.of_exec (I := World) restartScript.answer
    (Flasher.plan restartSettings none false) 0
  have hrecovers : ((Flasher.plan restartSettings none false).exec (I := World)
      restartScript.answer 0).2.result.any fun p => decide (p.mode = .recovery) &&
        p.known.any fun known => p.bootloader.any fun bootloader =>
          Flasher.hasChangedUsbSerial known bootloader := by
    decide +kernel
  obtain ⟨p, hp, hx⟩ := (Option.any_eq_true _ _).mp hrecovers
  simp only [Bool.and_eq_true, decide_eq_true_eq, Option.any_eq_true] at hx
  obtain ⟨hmode, known, hknown, bootloader, hbootloader, hchanged⟩ := hx
  rw [Outcome.result_eq_some.mp hp] at hrun
  have hload : ∀ read, (⟨.loadState, read⟩ : Event World) ∈
      ((Flasher.plan restartSettings none false).exec (I := World) restartScript.answer 0).1 →
      read = stateAfter .missing ([(PlannedRun.qemuSettings, lostHandoff)].flatMap Prod.snd) := by
    intro read hmem
    obtain ⟨n, hn⟩ := Prog.exec_answers hmem
    rw [List.flatMap_singleton]
    exact hn
  obtain ⟨content, fields, limit, now, -, -, -, -, -, -, -, -, -, hnow, -, -, hwritten⟩ :=
    handoff_authorizes restart_history restartSettings_admitted hrun hload hmode hknown
      hbootloader hchanged
  rcases hwritten with ⟨-, hbefore⟩ | ⟨x, hx, plan, written, hwritten, -, -, hle⟩
  · cases hbefore
  · exact ⟨_, _, p, known, bootloader, restart_history, hrun, hknown, hbootloader, hchanged, x, hx,
      written, now, hwritten, hnow, hle⟩

end Cul868Flasher
