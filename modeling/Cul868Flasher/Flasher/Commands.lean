import Cul868Flasher.Flasher.LedCommand
import Cul868Flasher.Flasher.Order

/-!
# Commands to the CUL

`B01` and the LED command may take effect although their session fails, so each
is sent at most once, and only right after an accepted `V`. What happens to an
exception depends on whether the command had been reached.
-/

namespace Cul868Flasher
open Python Effects

instance (e : Event World) : Decidable (IsCommand e) := inferInstanceAs (Decidable (_ = _))

theorem before_no_command {h : Trace World} (hb : Before h) : ∀ e ∈ h, ¬ IsCommand e := by
  intro e he hk
  exact hb e he (by rw [show e.op.kind = .bootloaderCommand from hk]; simp)

namespace Flasher

/-- A command, answered with `answer` and followed by `v`, has gone wrong: itself or
in the closing of its session. -/
def SessionRaises (answer : Except Exn Unit) (v : Trace World) : Prop :=
  answer ≠ .ok () ∨ ∃ (closed : Except Exn Unit) (w : Trace World),
    v = ⟨.closeSerial, closed⟩ :: w ∧ closed ≠ .ok ()

theorem not_sessionRaises {w : Trace World} :
    ¬ SessionRaises (.ok ()) (⟨.closeSerial, (.ok () : Except Exn Unit)⟩ :: w) := by
  rintro (hraises | ⟨closed, w', hv, hraises⟩)
  · exact hraises rfl
  · cases hv
    exact hraises rfl

/-! ## The endpoint of an attempt -/

/-- The lookups `t` have led from the configured path to `device`, and from there
back to a device with the identity of `application`. -/
def EndpointResolved (settings : Settings) (application : UsbTarget) (device : Path)
    (t : Trace World) : Prop :=
  ∃ configured direct fs₁ fs₂ fs₃, t = [usbEvent (.configuredApplication settings.device) fs₁,
      usbEvent (.ttyForTopology configured.topology) fs₂,
      usbEvent (.configuredApplication device) fs₃] ∧
    fs₁.configuredApplication settings.device = .ok configured ∧
    fs₂.ttyForTopology configured.topology = .ok (some device) ∧
    fs₃.configuredApplication device = .ok direct ∧
    direct.topology = application.topology ∧ direct.vendorId = application.vendorId ∧
    direct.productId = application.productId ∧ direct.usbSerial = application.usbSerial

theorem sameApplicationIdentity_iff {expected current : UsbTarget} :
    sameApplicationIdentity expected current = true ↔
      current.topology = expected.topology ∧ current.vendorId = expected.vendorId ∧
      current.productId = expected.productId ∧ current.usbSerial = expected.usbSerial := by
  simp only [sameApplicationIdentity, Bool.and_eq_true, decide_eq_true_eq, and_assoc]
  constructor
  · rintro ⟨h₁, h₂, h₃, h₄⟩
    exact ⟨h₁.symm, h₂.symm, h₃.symm, h₄.symm⟩
  · rintro ⟨h₁, h₂, h₃, h₄⟩
    exact ⟨h₁.symm, h₂.symm, h₃.symm, h₄.symm⟩

theorem configuredApplicationEndpoint_returned {settings : Settings}
    {application direct : UsbTarget} {device : Path} {t : Trace World}
    (h : Run (configuredApplicationEndpoint settings (some application)) t
      (.returned (direct, device))) : EndpointResolved settings application device t := by
  obtain ⟨configured, t₁, t₂, rfl, h₁, h₂⟩ := Run.bind_returned.mp h
  obtain ⟨fs₁, rfl, hfs₁⟩ := usbLookup_returned (orFlashError_returned h₁)
  split at h₂
  · exact absurd h₂ Run.raise_returned
  · obtain ⟨found, t₃, t₄, rfl, h₃, h₄⟩ := Run.bind_returned.mp h₂
    obtain ⟨fs₂, rfl, hfs₂⟩ := usbLookup_returned (orFlashError_returned h₃)
    cases found with
    | none => exact absurd h₄ Run.raise_returned
    | some found =>
      obtain ⟨direct', t₅, t₆, rfl, h₅, h₆⟩ := Run.bind_returned.mp h₄
      obtain ⟨fs₃, rfl, hfs₃⟩ := usbLookup_returned (orFlashError_returned h₅)
      split at h₆
      · exact absurd h₆ Run.raise_returned
      · split at h₆
        · exact absurd h₆ Run.raise_returned
        · rename_i hsame
          obtain ⟨rfl, hpair⟩ := Run.pure_returned.mp h₆
          cases hpair
          have hidentity : sameApplicationIdentity application direct = true := by
            simpa using hsame
          exact ⟨configured, direct, fs₁, fs₂, fs₃, by simp, hfs₁, hfs₂, hfs₃,
            sameApplicationIdentity_iff.mp hidentity⟩

/-! ## `B01` -/

variable {settings : Settings} {plan : FlashPlan}

/-- A failed handoff is the last thing a run does. -/
theorem failed_of_checked {u v : Trace World} {answer : Except Exn Unit} {e : Exn}
    (hu : ∀ x ∈ u, ¬ IsCommand x) (hraises : SessionRaises answer v)
    (hc : CommandChecked e (u ++ ⟨.enterBootloader, answer⟩ :: v)) :
    e.isFlashError = true ∧ ∃ closed : Except Exn Unit, v = [⟨.closeSerial, closed⟩] := by
  have hcommand : IsCommand ⟨.enterBootloader, answer⟩ := rfl
  rcases hc with ha | ⟨w, z, hsplit, hw, -⟩ | ⟨⟨w, a, c, hsplit, hw, -⟩, hflash⟩
  · exact absurd (by simp [Op.kind]) (ha ⟨.enterBootloader, answer⟩ (by simp))
  · rw [List.append_assoc] at hsplit
    obtain ⟨rfl, he, rfl⟩ := split_first hsplit hu hcommand (before_no_command hw) rfl
    cases he
    exact absurd hraises not_sessionRaises
  · obtain ⟨rfl, -, rfl⟩ := split_first hsplit hu hcommand (before_no_command hw) rfl
    exact ⟨hflash, c, rfl⟩

/-- A run that returns has seen no failed handoff. -/
theorem not_raises_of_past {u v : Trace World} {answer : Except Exn Unit}
    (hu : ∀ x ∈ u, ¬ IsCommand x)
    (hp : Past plan (u ++ ⟨.enterBootloader, answer⟩ :: v)) : ¬ SessionRaises answer v := by
  have hcommand : IsCommand ⟨.enterBootloader, answer⟩ := rfl
  rcases hp with ⟨-, w, z, hsplit, hw, -⟩ | ⟨-, -, ha⟩
  · rw [List.append_assoc] at hsplit
    obtain ⟨rfl, he, rfl⟩ := split_first hsplit hu hcommand (before_no_command hw) rfl
    cases he
    exact not_sessionRaises
  · exact absurd (by simp [Op.kind]) (ha ⟨.enterBootloader, answer⟩ (by simp))

/-- What stands before `B01` in a flash with `plan`. -/
def CommandOrdered (settings : Settings) (plan : FlashPlan) (h : Trace World) : Prop :=
  (∀ e ∈ h, ¬ IsCommand e) ∧ ∃ application device version now file u t,
    plan.application = some application ∧ EndpointResolved settings application device t ∧
    DeviceStateStore.encode (handoffPending settings plan now) = .ok file ∧
    h = u ++ t ++ requestSteps device settings.baudrate version now file

theorem CommandAllowed.ordered {h : Trace World} (hc : CommandAllowed settings plan h) :
    CommandOrdered settings plan h := by
  obtain ⟨hb, application, direct, device, version, now, file, u, t, happlication, heq, hrun,
    hfile⟩ := hc
  exact ⟨before_no_command hb, application, device, version, now, file, u, t, happlication,
    configuredApplicationEndpoint_returned hrun, hfile, heq⟩

/-- Every exception of the paused section that comes after `B01` has been sent
finds the pause switched. -/
theorem flashPaused_leaveStopped {fuel : ℕ} {image : HexImage} {pause pause' : CulConsumerPause}
    {t : Trace World} {e : Exn} (h : Run (flashPaused fuel settings plan image pause) t
      (.raised (e, pause'))) (hc : ∃ x ∈ t, IsCommand x) :
    pause' = pause.leaveStoppedAfterError := by
  have hfresh : Fresh [] := fun _ he => absurd he List.not_mem_nil
  obtain ⟨x, hx, hcommand⟩ := hc
  rcases (flashPaused_steps fuel pause).raised Guarded.nil hfresh h with
    ⟨-, hb, -⟩ | ⟨-, hpause, -⟩ | ⟨hpause, -⟩
  · exact absurd hcommand (before_no_command hb x hx)
  · exact hpause
  · exact hpause

/-! ## The LED command -/

theorem setLed_command {fuel : ℕ} {mode mode' : LedMode} {t u v : Trace World}
    {r : Outcome Exn LedResult} {answer : Except Exn Unit} (h : Run (setLed fuel settings mode) t r)
    (ht : t = u ++ ⟨.setLed mode', answer⟩ :: v) :
    mode' = mode ∧ LedOrdered settings u ∧ (∀ x ∈ v, ∀ device baudrate,
        x.op ≠ .openSerial device baudrate) ∧
      (SessionRaises answer v → ∀ result, r ≠ .returned result) := by
  have hguarded := setLed_guarded h
  have hcommand : ∀ (m : LedMode) (a : Except Exn Unit), IsLedCommand ⟨.setLed m, a⟩ :=
    fun _ _ => rfl
  obtain ⟨hnone, hmode, hordered⟩ := (hguarded _ _ _ ht).command (hcommand _ _)
  refine ⟨Op.setLed.inj hmode, hordered, fun x hx device baudrate hopen => ?_,
    fun hraises result hr => ?_⟩
  · obtain ⟨v₁, v₂, rfl⟩ := List.append_of_mem hx
    have hsplit : t = (u ++ ⟨.setLed mode', answer⟩ :: v₁) ++ x :: v₂ := by simp [ht]
    exact (hguarded _ _ _ hsplit).opened _ _ hopen ⟨.setLed mode', answer⟩ (by simp) rfl
  · rw [hr] at h
    obtain ⟨u', v', hdone⟩ := setLed_returned h
    have hfirst := (hguarded _ _ _ hdone).command (hcommand _ _)
    rw [ht] at hdone
    obtain ⟨rfl, he, rfl⟩ := split_first hdone hnone (hcommand _ _) hfirst.1 (hcommand _ _)
    cases he
    exact not_sessionRaises hraises

end Flasher

/-! ## The commands of a call -/

theorem command_not_planning {e : Event World} (he : IsCommand e) :
    e.op.kind ∉ Flasher.planningKinds := by
  rw [show e.op.kind = .bootloaderCommand from he]
  decide

namespace PlannedRun
variable {settings : Settings} {image : HexImage} {manualRecovery : Option ManualRecoveryTarget}

theorem command_ordered (x : PlannedRun settings image manualRecovery) {u v : Trace World}
    {e : Event World} (hsplit : x.after = u ++ e :: v) (he : IsCommand e) :
    Flasher.CommandOrdered settings x.plan u :=
  ((x.stepsAllowed u e v hsplit).command he).ordered

/-- A handoff that fails is the end of the call. -/
theorem handoff_raises (x : PlannedRun settings image manualRecovery) {u v : Trace World}
    {answer : Except Exn Unit} (hsplit : x.after = u ++ ⟨.enterBootloader, answer⟩ :: v)
    (hraises : Flasher.SessionRaises answer v) : x.outcome = .cut ∨ ∃ e, ∃ closed : Except Exn Unit,
      x.outcome = .raised e ∧ e.isFlashError = true ∧ v = [⟨.closeSerial, closed⟩] := by
  have hu := (x.command_ordered hsplit rfl).1
  have hsteps : Flasher.Steps settings x.plan (fun h => h = [])
      (Flasher.transact x.fuel settings x.checked x.plan) (fun _ => Flasher.Past x.plan)
      Flasher.CommandChecked := Flasher.transact_steps x.fuel
  have htransact := x.transact
  rw [hsplit] at htransact
  cases hr : x.outcome with
  | cut => exact .inl rfl
  | returned result =>
    rw [hr] at htransact
    have hpast := hsteps.returned Guarded.nil rfl htransact
    exact absurd hraises (Flasher.not_raises_of_past hu hpast)
  | raised e =>
    rw [hr] at htransact
    have hchecked := hsteps.raised Guarded.nil rfl htransact
    obtain ⟨hflash, closed, rfl⟩ := Flasher.failed_of_checked hu hraises hchecked
    exact .inr ⟨e, closed, rfl, hflash, rfl⟩

end PlannedRun

/-- The commands of one call, whatever its steps answer. -/
theorem commands_once (fuel : ℕ) (settings : Settings) :
    (∀ image manualRecovery t r, Run (Flasher.flash fuel settings image manualRecovery) t r →
      (t.filter fun e => decide (IsCommand e)).length ≤ 1 ∧
      ∀ u answer v, t = u ++ ⟨.enterBootloader, answer⟩ :: v →
        (∃ plan w z, u = w ++ z ∧
          Run (Flasher.prepare settings image manualRecovery) w (.returned (image, plan)) ∧
          Flasher.CommandOrdered settings plan z) ∧
        (Flasher.SessionRaises answer v → r = .cut ∨ ∃ e, ∃ closed : Except Exn Unit,
          r = .raised e ∧ e.isFlashError = true ∧ v = [⟨.closeSerial, closed⟩])) ∧
    (∀ plan image pause pause' t e, Run (Flasher.flashPaused fuel settings plan image pause) t
        (.raised (e, pause')) → (∃ x ∈ t, IsCommand x) → pause' = pause.leaveStoppedAfterError) ∧
    ∀ mode t r, Run (Flasher.setLed fuel settings mode) t r →
      (t.filter fun e => decide (IsLedCommand e)).length ≤ 1 ∧
      (∀ u mode' answer v, t = u ++ ⟨.setLed mode', answer⟩ :: v → mode' = mode ∧
        Flasher.LedOrdered settings u ∧
        (∀ x ∈ v, ∀ device baudrate, x.op ≠ .openSerial device baudrate) ∧
        (Flasher.SessionRaises answer v → ∀ result, r ≠ .returned result)) ∧
      ∀ e, r = .raised e → e.isFlashError = true := by
  refine ⟨fun image manualRecovery t r h => ?_, fun plan image pause pause' t e h hc =>
    Flasher.flashPaused_leaveStopped h hc, fun mode t r h => ⟨?_, ?_, ?_⟩⟩
  · rcases PlannedRun.of_run h with hplanning | ⟨x, -, rfl, rfl⟩
    · have hnone : ∀ e ∈ t, ¬ IsCommand e := fun e he hc => command_not_planning hc (hplanning e he)
      refine ⟨?_, fun u answer v ht => ?_⟩
      · rw [List.filter_eq_nil_iff.mpr fun e he => by simpa using hnone e he]
        simp
      · exact absurd rfl (hnone ⟨.enterBootloader, answer⟩ (by simp [ht]))
    · refine ⟨?_, fun u answer v ht => ?_⟩
      · rw [List.filter_append, List.filter_eq_nil_iff.mpr fun e he => ?_, List.nil_append]
        · exact x.stepsAllowed.filter_length_le_one fun u e hg hc => (hg.command hc).ordered.1
        · simpa using fun hc => command_not_planning hc (x.before_uses e he)
      · obtain ⟨w, rfl, hw⟩ := x.split_after ht (command_not_planning rfl)
        have hprepare := x.prepared
        rw [x.checked_eq.1] at hprepare
        exact ⟨⟨x.plan, x.before, w, rfl, hprepare, x.command_ordered hw rfl⟩, x.handoff_raises hw⟩
  · exact (Flasher.setLed_guarded h).filter_length_le_one fun u e hg hc => (hg.command hc).1
  · exact fun u mode' answer v ht => Flasher.setLed_command h ht
  · rintro e rfl
    exact (Flasher.setLed_raises fuel).run h

/-! ## Runs -/

/-- The configured CUL enters its bootloader at `B01`, and the state directory is full after it. -/
def fullDiskScript : Script where
  usb n := .ofDevices (if n < 17 then [cul "1-1" "ttyACM0" none] else [dfuBootloader "1-1" none]) []
  save n := if n < 17 then .saved else .failed false (.osError "No space left on device")

theorem command_then_osError :
    ¬ ∀ (settings : Settings) (image : HexImage) (manualRecovery : Option ManualRecoveryTarget)
      (x : PlannedRun settings image manualRecovery), (∃ e ∈ x.after, IsCommand e) →
      ∀ e, x.outcome = .raised e → e.isFlashError = true := by
  intro h
  have hrun : (PlannedRun.ofScript fullDiskScript.answer 2 PlannedRun.qemuSettings sampleImage
      none).any fun x => (x.after.any fun e => decide (IsCommand e)) &&
        x.outcome.exception.any fun e => !e.isFlashError := by
    decide +kernel
  obtain ⟨x, -, hx⟩ := (Option.any_eq_true _ _).mp hrun
  rw [Bool.and_eq_true] at hx
  obtain ⟨hcommand, hother⟩ := hx
  obtain ⟨e, hraised, hclass⟩ := (Option.any_eq_true _ _).mp hother
  rw [h _ _ _ x (by simpa using hcommand) e (Outcome.exception_eq_some.mp hraised)] at hclass
  cases hclass

/-- The connection is lost when a command is written. -/
def lostAnswer (n : ℕ) : (o : Op) → World.Ans o
  | .enterBootloader => (.error (.osError "Input/output error") : Except Exn Unit)
  | .setLed _ => (.error (.osError "Input/output error") : Except Exn Unit)
  | o => fullDiskScript.answer n o

/-- Both commands are lost on the way, and neither is repeated. -/
theorem commands_once_lost :
    (∃ u v answer e, Run (Flasher.flash 2 PlannedRun.qemuSettings sampleImage none)
        (u ++ ⟨.enterBootloader, answer⟩ :: v) (.raised e) ∧ answer ≠ .ok () ∧
      (∃ closed : Except Exn Unit, v = [⟨.closeSerial, closed⟩]) ∧ e.isFlashError = true) ∧
    ∃ t e, Run (Flasher.setLed 2 PlannedRun.qemuSettings .on) t (.raised e) ∧
      (t.filter fun e => decide (IsLedCommand e)).length = 1 ∧ e.isFlashError = true := by
  constructor
  · let flash := Flasher.flash 2 PlannedRun.qemuSettings sampleImage none
    have hrun := Run.of_exec (I := World) lostAnswer flash 0
    have hcheck : (flash.exec (I := World) lostAnswer 0).2.exception.isSome &&
        (flash.exec (I := World) lostAnswer 0).1.any fun x => match x with
          | ⟨.enterBootloader, .error _⟩ => true
          | _ => false := by
      decide +kernel
    rw [Bool.and_eq_true, List.any_eq_true] at hcheck
    obtain ⟨hraised, x, hx, hcommand⟩ := hcheck
    obtain ⟨e, he⟩ := Option.isSome_iff_exists.mp hraised
    split at hcommand
    · rename_i err
      obtain ⟨u, v, hsplit⟩ := List.append_of_mem hx
      rw [Outcome.exception_eq_some.mp he, hsplit] at hrun
      have hraises : Flasher.SessionRaises (.error err) v := .inl fun heq => by cases heq
      rcases (((commands_once 2 PlannedRun.qemuSettings).1 sampleImage none _ _ hrun).2 u _ v
        rfl).2 hraises with hcut | ⟨e', closed, heq, hflash, hv⟩
      · cases hcut
      · cases heq
        exact ⟨u, v, _, e, hrun, (fun hok => by cases hok), ⟨closed, hv⟩, hflash⟩
    · cases hcommand
  · let led := Flasher.setLed 2 PlannedRun.qemuSettings .on
    have hrun := Run.of_exec (I := World) lostAnswer led 0
    have hcheck : (led.exec (I := World) lostAnswer 0).2.exception.isSome &&
        decide (((led.exec (I := World) lostAnswer 0).1.filter fun e =>
          decide (IsLedCommand e)).length = 1) := by
      decide +kernel
    rw [Bool.and_eq_true, decide_eq_true_eq] at hcheck
    obtain ⟨hraised, hlength⟩ := hcheck
    obtain ⟨e, he⟩ := Option.isSome_iff_exists.mp hraised
    rw [Outcome.exception_eq_some.mp he] at hrun
    exact ⟨_, e, hrun, hlength,
      ((commands_once 2 PlannedRun.qemuSettings).2.2 _ _ _ hrun).2.2 e rfl⟩

end Cul868Flasher
