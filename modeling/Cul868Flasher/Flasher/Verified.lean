import Cul868Flasher.Flasher.Completion
import Cul868Flasher.Flasher.Targeting

/-!
# The application after DFU

A verified-application record is saved for the application whose serial port
gave an accepted `V` response. That application is looked for on the path of
the bootloader and, with the workaround, as the only one there is.
-/

namespace Cul868Flasher
open Python Effects

/-- A serial session in which `V` was accepted. -/
def acceptedSession (device : Path) (baudrate : ℕ) (version : String) : Trace World :=
  [⟨.openSerial device baudrate, (.ok () : Except Exn Unit)⟩,
   ⟨.version, (.ok version : Except Exn String)⟩, ⟨.closeSerial, (.ok () : Except Exn Unit)⟩]

namespace Flasher

/-! ## What the wait for the application has seen -/

/-- The last lookups show `application` with its serial port `device`. -/
def ApplicationFound (topology : String) (qemu : Bool) (application : UsbTarget) (device : Path)
    (t : Trace World) : Prop :=
  ∃ w fs fs', fs'.ttyForTopology application.topology = .ok (some device) ∧
    ((t = w ++ [usbEvent (.applicationForTopology topology) fs,
        usbEvent (.ttyForTopology application.topology) fs'] ∧
      fs.applicationForTopology topology = .ok (some application)) ∨
    (qemu = true ∧ t = w ++ [usbEvent .applicationTargets fs,
        usbEvent (.ttyForTopology application.topology) fs'] ∧
      fs.applicationTargets = .ok [application]))

/-- The application was found and its port accepted `V`. -/
def VersionAccepted (topology : String) (qemu : Bool) (baudrate : ℕ) (application : UsbTarget)
    (device : Path) (version : String) (t : Trace World) : Prop :=
  ∃ w v, t = w ++ acceptedSession device baudrate version ++ v ∧
    ApplicationFound topology qemu application device w

theorem ApplicationFound.append {topology : String} {qemu : Bool} {application : UsbTarget}
    {device : Path} {t : Trace World} (h : ApplicationFound topology qemu application device t)
    (u : Trace World) : ApplicationFound topology qemu application device (u ++ t) := by
  obtain ⟨w, fs, fs', htty, ⟨rfl, hfs⟩ | ⟨hqemu, rfl, hfs⟩⟩ := h
  · exact ⟨u ++ w, fs, fs', htty, .inl ⟨by simp, hfs⟩⟩
  · exact ⟨u ++ w, fs, fs', htty, .inr ⟨hqemu, by simp, hfs⟩⟩

theorem ApplicationFound.valid {topology : String} {qemu : Bool} {application : UsbTarget}
    {device : Path} {t : Trace World} (h : ApplicationFound topology qemu application device t) :
    application.Valid := by
  obtain ⟨w, fs, fs', -, ⟨-, hfs⟩ | ⟨-, -, hfs⟩⟩ := h
  · exact (Sysfs.singleTarget_some hfs).1
  · exact (Sysfs.targetsWithIdentity_mem hfs application (by simp)).1

theorem VersionAccepted.append {topology : String} {qemu : Bool} {baudrate : ℕ}
    {application : UsbTarget} {device : Path} {version : String} {t : Trace World}
    (h : VersionAccepted topology qemu baudrate application device version t) (u v : Trace World) :
    VersionAccepted topology qemu baudrate application device version (u ++ t ++ v) := by
  obtain ⟨w, v', rfl, hfound⟩ := h
  exact ⟨u ++ w, v' ++ v, by simp, hfound.append u⟩

theorem reenumeratedApplication_returned {expected : Option String} {allow : Bool}
    {t : Trace World} {application : UsbTarget} {device : Path} {lastError : String}
    (h : Run (reenumeratedApplication expected allow) t
      (.returned (some (application, device), lastError))) :
    ∃ fs fs', t = [usbEvent .applicationTargets fs,
        usbEvent (.ttyForTopology application.topology) fs'] ∧
      fs.applicationTargets = .ok [application] ∧
      fs'.ttyForTopology application.topology = .ok (some device) := by
  obtain ⟨reenumerated, t₁, t₂, rfl, h₁, h₂⟩ := Run.bind_returned.mp h
  cases reenumerated with
  | none => cases (Run.pure_returned.mp h₂).2
  | some found =>
    obtain ⟨fs, rfl, hfs, -⟩ := singleReenumeratedTarget_returned h₁
    obtain ⟨answer, t₃, t₄, rfl, h₃, h₄⟩ := Run.bind_returned.mp h₂
    obtain ⟨answer, rfl, hd⟩ | ⟨e, -, rfl, -⟩ := Run.catching_returned h₃
    · obtain ⟨fs', rfl, hfs'⟩ := usbLookup_returned hd
      cases answer with
      | none => cases (Run.pure_returned.mp h₄).2
      | some answer =>
        obtain ⟨rfl, hpair⟩ := Run.pure_returned.mp h₄
        cases hpair
        exact ⟨fs, fs', by simp, hfs, hfs'⟩
    · cases (Run.pure_returned.mp h₄).2

theorem findApplication_returned {topology : String} {expected : Option String} {qemu allow : Bool}
    {t : Trace World} {application : UsbTarget} {device : Path} {lastError : String}
    (h : Run (findApplication topology expected qemu allow) t
      (.returned (some (application, device), lastError))) :
    ApplicationFound topology qemu application device t := by
  obtain ⟨found, t₁, t₂, rfl, h₁, h₂⟩ := Run.bind_returned.mp h
  split at h₂
  · cases (Run.pure_returned.mp h₂).2
  · obtain ⟨_, t₃, t₄, rfl, h₃, h₄⟩ := Run.bind_returned.mp h₂
    obtain ⟨rfl, -⟩ := ofExcept_returned.mp h₃
    obtain ⟨rfl, hpair⟩ := Run.pure_returned.mp h₄
    cases hpair
    obtain ⟨answer, heq, hd⟩ | ⟨e, -, hx, -⟩ := Run.catching_returned h₁
    · cases heq
      obtain ⟨found, u₁, u₂, rfl, hu₁, hu₂⟩ := Run.bind_returned.mp hd
      obtain ⟨fs, rfl, hfs⟩ := usbLookup_returned hu₁
      obtain ⟨answer, u₃, u₄, rfl, hu₃, hu₄⟩ := Run.bind_returned.mp hu₂
      obtain ⟨fs', rfl, hfs'⟩ := usbLookup_returned hu₃
      obtain ⟨rfl, hpair⟩ := Run.pure_returned.mp hu₄
      cases hpair
      obtain ⟨-, htopology, -⟩ := Sysfs.singleTarget_some hfs
      rw [← htopology] at hfs'
      exact ⟨[], fs, fs', hfs', .inl ⟨by simp [htopology], hfs⟩⟩
    · cases hx
  · split at h₂
    · rename_i hqemu
      obtain ⟨fs, fs', rfl, hfs, hfs'⟩ := reenumeratedApplication_returned h₂
      exact ⟨t₁, fs, fs', hfs', .inr ⟨hqemu, by simp, hfs⟩⟩
    · cases (Run.pure_returned.mp h₂).2

theorem readVersionOnce_returned {device : Path} {baudrate : ℕ} {t : Trace World}
    {version : String} (h : Run (readVersionOnce device baudrate) t (.returned version)) :
    t = acceptedSession device baudrate version := by
  obtain ⟨_, t₁, t₂, rfl, h₁, h⟩ := Run.bind_returned.mp h
  obtain ⟨answer, t₃, t₄, rfl, h₃, h⟩ := Run.bind_returned.mp h
  obtain ⟨_, t₅, t₆, rfl, h₅, h₆⟩ := Run.bind_returned.mp h
  obtain ⟨rfl, hanswer⟩ := ofExcept_returned.mp h₆
  subst hanswer
  rcases Run.attempt_returned_iff.mp h₃ with ⟨_, heq, h₃⟩ | ⟨_, heq, -⟩
  · cases heq
    obtain ⟨opened, rfl, hopened⟩ := performed h₁
    obtain ⟨answer, rfl, hanswer⟩ := performed h₃
    obtain ⟨closed, rfl, hclosed⟩ := performed h₅
    cases hopened
    cases hanswer
    cases hclosed
    rfl
  · cases heq

theorem waitForApplicationVersion_returned {fuel : ℕ} {topology : String}
    {expected : Option String} {timeout : ℚ} {baudrate : ℕ} {qemu allow : Bool} {t : Trace World}
    {application : UsbTarget} {device : Path} {version : String}
    (h : Run (waitForApplicationVersion fuel topology expected timeout baudrate qemu allow) t
      (.returned (application, device, version))) :
    VersionAccepted topology qemu baudrate application device version t := by
  obtain ⟨start, t₁, t₂, rfl, -, h⟩ := Run.bind_returned.mp h
  obtain ⟨found, t₃, t₄, rfl, h₃, h⟩ := Run.bind_returned.mp h
  cases found with
  | error lastError =>
    obtain ⟨_, _, _, rfl, -, h⟩ := Run.bind_returned.mp h
    exact absurd h Run.raise_returned
  | ok found =>
    obtain ⟨rfl, rfl⟩ := Run.pure_returned.mp h
    obtain ⟨lastError, u₁, u₂, rfl, hstep⟩ := Run.loop_returned h₃
    obtain ⟨now, u₃, u₄, rfl, -, hstep⟩ := Run.bind_returned.mp hstep
    split at hstep
    · obtain ⟨⟨target, error⟩, u₅, u₆, rfl, hu₅, hstep⟩ := Run.bind_returned.mp hstep
      cases target with
      | none =>
        obtain ⟨_, _, _, rfl, -, hstep⟩ := Run.bind_returned.mp hstep
        cases (Run.pure_returned.mp hstep).2
      | some found =>
        obtain ⟨answer, u₇, u₈, rfl, hu₇, hstep⟩ := Run.bind_returned.mp hstep
        cases answer with
        | error err =>
          obtain ⟨_, _, _, rfl, -, hstep⟩ := Run.bind_returned.mp hstep
          cases (Run.pure_returned.mp hstep).2
        | ok version' =>
          obtain ⟨rfl, hpair⟩ := Run.pure_returned.mp hstep
          cases hpair
          rcases Run.attempt_returned_iff.mp hu₇ with ⟨_, heq, hread⟩ | ⟨_, heq, -⟩
          · cases heq
            have hfound := (findApplication_returned hu₅).append (t₁ ++ u₁ ++ u₃)
            exact ⟨_, [], by rw [readVersionOnce_returned hread]; simp, hfound⟩
          · cases heq
    · cases (Run.pure_returned.mp hstep).2

theorem verifyApplication_returned {fuel : ℕ} {settings : Settings} {topology : String}
    {expected : Option String} {startError : Option Exn} {t : Trace World}
    {application : UsbTarget} {device : Path} {version : String}
    (h : Run (verifyApplication fuel settings topology expected startError) t
      (.returned (application, device, version))) :
    VersionAccepted topology settings.qemuUsbReenumerationWorkaround settings.baudrate application
      device version t := by
  obtain ⟨result, t₁, t₂, rfl, h₁, h⟩ := Run.bind_returned.mp h
  obtain ⟨found, rfl, hawait⟩ | ⟨e, -, rfl, -⟩ := Run.catching_returned h₁
  · obtain ⟨rfl, rfl⟩ := Run.pure_returned.mp h
    obtain ⟨_, u₁, u₂, rfl, -, hawait⟩ := Run.bind_returned.mp hawait
    obtain ⟨found, u₃, u₄, rfl, hu₃, hawait⟩ := Run.bind_returned.mp hawait
    obtain ⟨_, u₅, u₆, rfl, -, hawait⟩ := Run.bind_returned.mp hawait
    obtain ⟨rfl, hpair⟩ := Run.pure_returned.mp hawait
    cases hpair
    have haccepted := (waitForApplicationVersion_returned hu₃).append u₁ u₅
    simpa using haccepted
  · dsimp only at h
    split at h
    · exact absurd h Run.raise_returned
    · exact absurd h Run.raise_returned

/-! ## The verified record -/

/-- Before the record in `file` is saved, the bound bootloader has been started
and the application it describes has accepted `V`. -/
def ApplicationVerified (settings : Settings) (plan : FlashPlan) (h : Trace World)
    (file : StateFile) : Prop :=
  ∃ target application device version h₀ t, h = h₀ ++ t ∧
    Attempted settings plan target .start h₀ ∧
    VersionAccepted target.topology settings.qemuUsbReenumerationWorkaround settings.baudrate
      application device version t ∧
    DeviceStateStore.encode (verifiedApplication settings application version) = .ok file

abbrev AllVerified (settings : Settings) (plan : FlashPlan) : Trace World → Prop :=
  Guarded fun h e => ∀ file outcome, e = ⟨.saveState file, outcome⟩ →
    file.binding = some .verifiedApplication → ApplicationVerified settings plan h file

section
variable {settings : Settings} {plan : FlashPlan} {image : HexImage}

theorem verified_of_kind {ks : List OpKind} (hks : .save (some .verifiedApplication) ∉ ks)
    (h : Trace World) (e : Event World) (he : e.op.kind ∈ ks) (file : StateFile)
    (outcome : SaveOutcome) (hfile : e = ⟨.saveState file, outcome⟩)
    (hbinding : file.binding = some .verifiedApplication) :
    ApplicationVerified settings plan h file := by
  rw [hfile] at he
  change OpKind.save file.binding ∈ ks at he
  rw [hbinding] at he
  exact absurd he hks

/-- A part that saves no verified record keeps what is known of it otherwise. -/
theorem verifies {ks : List OpKind} {p : Prog World ε α} {P : Trace World → Prop}
    {Q : α → Trace World → Prop} (hp : Permits settings plan image P p Q) (huses : Uses ks p)
    (hks : .save (some .verifiedApplication) ∉ ks) :
    Triple (fun h => AllAllowed settings plan image h ∧ AllVerified settings plan h) P p Q
      fun _ _ => True := by
  have hframe : Triple (AllVerified settings plan) (fun _ => True) p (fun _ _ => True)
      (fun _ _ => True) :=
    Guarded.frame huses (verified_of_kind hks) fun _ _ _ _ => trivial
  exact (hp.and hframe).conseq (fun _ _ h => ⟨h, trivial⟩) (fun _ _ _ h => h.1)
    fun _ _ _ _ => trivial

theorem recordApplication_verifies (fuel : ℕ) (before : Option String) (application : UsbTarget)
    (device : Path) (version : String) (pause : CulConsumerPause) :
    Triple (fun h => AllAllowed settings plan image h ∧ AllVerified settings plan h)
      (fun h => ∀ file, DeviceStateStore.encode (verifiedApplication settings application version) =
        .ok file → ApplicationVerified settings plan h file)
      (recordApplication fuel settings before application device version pause)
      (fun _ _ => True) (fun _ _ => True) := by
  have hsave : ∀ h file (outcome : SaveOutcome),
      DeviceStateStore.encode (verifiedApplication settings application version) = .ok file →
      (AllAllowed settings plan image h ∧ AllVerified settings plan h) →
      (∀ file, DeviceStateStore.encode (verifiedApplication settings application version) =
        .ok file → ApplicationVerified settings plan h file) →
      AllAllowed settings plan image (h ++ [⟨.saveState file, outcome⟩]) ∧
        AllVerified settings plan (h ++ [⟨.saveState file, outcome⟩]) := by
    intro h file outcome hfile hj hp
    refine ⟨hj.1.snoc (fun call hcall => by cases hcall), hj.2.snoc ?_⟩
    intro file' outcome' heq _
    cases heq
    exact hp file hfile
  refine Triple.bind (R := fun _ _ => True) (Triple.raisingWith (save_triple ?_ ?_ ?_)) fun _ => ?_
  · exact fun h file hfile hj hp => ⟨hsave h file _ hfile hj hp, trivial⟩
  · exact fun h file replaced e hfile hj hp => ⟨hsave h file _ hfile hj hp, trivial⟩
  · exact fun _ _ _ _ _ => trivial
  · have huses : Uses aliasKinds (manualSerialByIdMigration fuel settings.device device pause >>=
        fun x => (pure (⟨before, version, application, x.1⟩, x.2) :
          Paused (Flashed × CulConsumerPause))) :=
      (manualSerialByIdMigration_uses fuel _ _ _).bind fun _ => .pure _
    exact verifies (permits_rest huses (by decide)) huses (by decide)

theorem transact_verifies (fuel : ℕ) :
    Triple (fun h => AllAllowed settings plan image h ∧ AllVerified settings plan h)
      (fun h => h = []) (transact fuel settings image plan) (fun _ _ => True)
      fun _ _ => True := by
  have hpause : Permits settings plan image Untouched
      (SupervisorClient.pauseConsumers fuel settings.device settings.additionalCulAddons)
      fun _ => Untouched :=
    permits_frame (SupervisorClient.pauseConsumers_uses fuel _ _) (by decide)
      (untouched_snoc (by decide) (by decide))
  have hresume := fun stopped result =>
    SupervisorClient.resumeConsumers_uses (α := Flashed) fuel stopped result
  refine Triple.bind (R := fun _ _ => True) ?_ fun _ => .pure fun _ _ _ => trivial
  refine Triple.bind ((verifies hpause (SupervisorClient.pauseConsumers_uses fuel _ _)
    (by decide)).pre ?_) fun paused => ?_
  · rintro h - rfl
    exact ⟨rfl, by simp⟩
  refine Triple.bind (R := fun _ _ => True) ?_ fun result =>
    verifies (permits_rest (hresume _ _) (by decide)) (hresume _ _) (by decide)
  refine (Triple.attempt (Q := fun _ _ => True) (E := fun _ _ => True) ?_).post
    fun _ _ _ _ => trivial
  refine (verifies (selectBootloader_permits fuel _) (selectBootloader_uses fuel settings plan _)
    (by decide)).bind fun x => ?_
  refine (Triple.raisingWith (verifies (programBootloader_permits fuel _)
    (programBootloader_uses fuel settings plan image _) (by decide))).bind fun startError => ?_
  have hverify := verifyApplication_uses fuel settings x.1.bootloader.topology
    x.1.expectedApplicationSerial startError
  refine Triple.bind (R := fun (y : UsbTarget × Path × String) h => ∀ file,
      DeviceStateStore.encode (verifiedApplication settings y.1 y.2.2) = .ok file →
      ApplicationVerified settings plan h file) ?_ fun y =>
    recordApplication_verifies fuel _ _ _ _ _
  refine Triple.raisingWith ((verifies (permits_rest hverify (by decide)) hverify
    (by decide)).record.conseq (fun _ _ h => h) ?_ fun _ _ _ _ => trivial)
  rintro ⟨application, device, version⟩ h - ⟨-, h₀, t, rfl, hattempted, hrun⟩ file hfile
  exact ⟨_, application, device, version, h₀, t, rfl, hattempted, verifyApplication_returned hrun,
    hfile⟩

end
end Flasher

/-! ## The path of the application -/

def Sysfs.applicationPaths (fs : Sysfs) : List String :=
  match fs.applicationTargets with
  | .ok targets => targets.map UsbTarget.topology
  | .error _ => []

/-- What lies between the binding of the bootloader and the last DFU command, last step first. -/
def dfuWindow (t : Trace World) : Trace World :=
  (t.dropWhile fun e => decide (¬ IsBinding e)).reverse.dropWhile fun e => (dfuOf e).isNone

namespace PlannedRun
variable {settings : Settings} {image : HexImage} {manualRecovery : Option ManualRecoveryTarget}

/-- The paths of the applications that were there during the DFU commands. -/
def dfuApplicationPaths (x : PlannedRun settings image manualRecovery) : List String :=
  ((dfuWindow x.after).filterMap snapshotOf).flatMap Sysfs.applicationPaths

/-- The topology is that of a DFU command of the run. -/
def Flashes (x : PlannedRun settings image manualRecovery) (topology : String) : Prop :=
  ∃ call ∈ dfuCalls x.after, call.bootloader.topology = topology

/-- After the start command, a lookup of the fallback shows `target`. -/
def FallbackFindsApplication (x : PlannedRun settings image manualRecovery)
    (target : UsbTarget) : Prop :=
  ∃ u v fs, x.after = u ++ usbEvent .applicationTargets fs :: v ∧
    (∃ call ∈ dfuCalls u, call.command = .start) ∧ fs.applicationTargets = .ok [target]

theorem flashes_of_attempted (x : PlannedRun settings image manualRecovery) {h t : Trace World}
    {target : UsbTarget} (hafter : x.after = h ++ t)
    (hattempted : Flasher.Attempted settings x.plan target .start h) :
    x.Flashes target.topology ∧ ∃ call ∈ dfuCalls h, call.command = .start := by
  have hstart : DfuCommand.start ∈ (dfuCalls h).map DfuCall.command := by
    rw [hattempted.order]
    simp
  obtain ⟨call, hcall, hcommand⟩ := List.mem_map.mp hstart
  have hmem : call ∈ dfuCalls x.after := by
    rw [hafter, dfuCalls_append]
    exact List.mem_append_left _ hcall
  obtain ⟨d, _, _, hbinds, htopology, -⟩ := x.bindsAt_of_bound hafter hattempted.bound
  obtain ⟨target', d', _, _, hbinds', htopology', -, -, e, -, hfound, -⟩ := x.dfu_bound hmem
  obtain rfl := hbinds.unique hbinds'
  refine ⟨⟨call, hmem, ?_⟩, call, hcall, hcommand⟩
  rw [hfound.valid.2, ← htopology', htopology]

/-- The record is saved for an application that has accepted `V` on the flashed
path or, with the workaround, on one where the fallback has found it alone. -/
theorem verified_application (x : PlannedRun settings image manualRecovery)
    {u v : Trace World} {file : StateFile} {outcome : SaveOutcome}
    (hafter : x.after = u ++ ⟨.saveState file, outcome⟩ :: v)
    (hbinding : file.binding = some .verifiedApplication) :
    ∃ topology application device version, x.Flashes topology ∧
      (∃ call ∈ dfuCalls u, call.command = .start) ∧
      Flasher.VersionAccepted topology settings.qemuUsbReenumerationWorkaround settings.baudrate
        application device version u ∧
      file.record = some (Flasher.verifiedApplication settings application version).normalize ∧
      (application.topology = topology ∨ settings.qemuUsbReenumerationWorkaround = true ∧
        x.FallbackFindsApplication application) := by
  have hall := (Flasher.transact_verifies x.fuel).invariant ⟨Guarded.nil, Guarded.nil⟩ rfl
    x.transact
  obtain ⟨target, application, device, version, h, t, rfl, hattempted, haccepted, hfile⟩ :=
    hall.2 u _ v hafter file outcome rfl hbinding
  obtain ⟨hflashes, call, hcall, hcommand⟩ :=
    x.flashes_of_attempted (by rw [hafter, List.append_assoc]) hattempted
  refine ⟨target.topology, application, device, version, hflashes,
    ⟨call, by simp [hcall], hcommand⟩, ?_, DeviceStateStore.record_encode hfile, ?_⟩
  · simpa using haccepted.append h []
  · obtain ⟨w, v', rfl, w', fs, fs', -, ⟨rfl, hfs⟩ | ⟨hqemu, rfl, hfs⟩⟩ := haccepted
    · exact .inl (Sysfs.singleTarget_some hfs).2.1
    · have hsplit : x.after = (h ++ w') ++ usbEvent .applicationTargets fs ::
          ([usbEvent (.ttyForTopology application.topology) fs'] ++
            acceptedSession device settings.baudrate version ++ v' ++
            ⟨.saveState file, outcome⟩ :: v) := by
        rw [hafter]
        simp only [List.append_assoc, List.cons_append, List.nil_append]
      exact .inr ⟨hqemu, h ++ w', _, fs, hsplit, ⟨call, by simp [hcall], hcommand⟩, hfs⟩

/-- The fallback is what can take another CUL for the flashed one. -/
theorem verified_path (x : PlannedRun settings image manualRecovery)
    (hfallback : settings.qemuUsbReenumerationWorkaround = true → ∀ target,
      x.FallbackFindsApplication target → ¬ x.Flashes target.topology →
      target.topology ∉ x.dfuApplicationPaths) :
    (∀ u v file outcome d, x.after = u ++ ⟨.saveState file, outcome⟩ :: v →
      file.record = some d → d.recoveryBinding = .verifiedApplication →
      (∃ topology application device version, d.topology = application.topology ∧
        Flasher.VersionAccepted topology settings.qemuUsbReenumerationWorkaround settings.baudrate
          application device version u) ∧
      (x.Flashes d.topology ∨ settings.qemuUsbReenumerationWorkaround = true ∧
        d.topology ∉ x.dfuApplicationPaths)) ∧
    (∀ result, x.outcome = .returned result →
      (∃ topology application device, result.topology = application.topology ∧
        Flasher.VersionAccepted topology settings.qemuUsbReenumerationWorkaround settings.baudrate
          application device result.installedVersion x.after) ∧
      (x.Flashes result.topology ∨ settings.qemuUsbReenumerationWorkaround = true ∧
        result.topology ∉ x.dfuApplicationPaths)) := by
  have hsave : ∀ u v file outcome d, x.after = u ++ ⟨.saveState file, outcome⟩ :: v →
      file.record = some d → d.recoveryBinding = .verifiedApplication →
      (∃ topology application device version, d.topology = application.topology ∧
        Flasher.VersionAccepted topology settings.qemuUsbReenumerationWorkaround settings.baudrate
          application device version u) ∧
      (x.Flashes d.topology ∨ settings.qemuUsbReenumerationWorkaround = true ∧
        d.topology ∉ x.dfuApplicationPaths) := by
    intro u v file outcome d hafter hrecord hbinding
    obtain ⟨topology, application, device, version, hflashes, -, haccepted, hfile, hpath⟩ :=
      x.verified_application hafter (by simp [StateFile.binding, hrecord, hbinding])
    have hd : d.topology = application.topology := by
      rw [hrecord] at hfile
      rw [Option.some.inj hfile]
      rfl
    refine ⟨⟨topology, application, device, version, hd, haccepted⟩, ?_⟩
    rw [hd]
    by_cases h : x.Flashes application.topology
    · exact .inl h
    · rcases hpath with hpath | ⟨hqemu, hfinds⟩
      · rw [hpath] at h
        exact absurd hflashes h
      · exact .inr ⟨hqemu, hfallback hqemu application hfinds h⟩
  refine ⟨hsave, fun result hresult => ?_⟩
  have htransact := x.transact
  rw [hresult] at htransact
  obtain ⟨c, hafter, rfl⟩ := Flasher.transact_returned.mp htransact
  refine ⟨⟨c.selected.1.bootloader.topology, c.verified.1, c.verified.2.1, rfl, ?_⟩, ?_⟩
  · have haccepted := (Flasher.verifyApplication_returned c.verifying_run).append
      (c.pausing ++ (c.selecting ++ c.programming))
      (⟨.saveState c.file, SaveOutcome.saved⟩ :: (c.migrating ++ c.restoring))
    rw [hafter]
    simpa [Completion.trace, Completion.proof] using haccepted
  · exact (hsave _ _ _ _ _ hafter (DeviceStateStore.record_encode c.file_encodes) rfl).2

/-! ## Runs with a second CUL -/

/-- A second CUL runs its application all the time; the flashed one does not come back. -/
def secondCulScript : Script where
  usb n := .ofDevices ((if n < 17 then [cul "1-1" "ttyACM0" none]
    else if n < 41 then [dfuBootloader "1-1" none] else []) ++ [cul "1-2" "ttyACM1" none]) []

/-- The flashed CUL comes back on another path, where nothing was. -/
def movedApplicationScript : Script where
  usb n := .ofDevices [if n < 17 then cul "1-1" "ttyACM0" none
    else if n < 41 then dfuBootloader "1-1" none else cul "1-4" "ttyACM0" none] []

theorem verified_other_cul :
    ¬ ∀ (settings : Settings) (image : HexImage) (manualRecovery : Option ManualRecoveryTarget)
      (x : PlannedRun settings image manualRecovery) (result : FlashResult),
      x.outcome = .returned result → x.Flashes result.topology ∨
        settings.qemuUsbReenumerationWorkaround = true ∧
          result.topology ∉ x.dfuApplicationPaths := by
  intro h
  have hrun : (ofScript secondCulScript.answer 2 qemuSettings sampleImage none).any fun x =>
      x.outcome.result.any fun result => decide (result.topology ∈ x.dfuApplicationPaths) &&
        (dfuCalls x.after).all fun call => decide (call.bootloader.topology ≠ result.topology) := by
    decide +kernel
  obtain ⟨x, -, hx⟩ := (Option.any_eq_true _ _).mp hrun
  obtain ⟨result, hresult, hx⟩ := (Option.any_eq_true _ _).mp hx
  simp only [Bool.and_eq_true, decide_eq_true_eq, List.all_eq_true] at hx
  rcases h _ _ _ x result (Outcome.result_eq_some.mp hresult) with
    ⟨call, hcall, htopology⟩ | ⟨-, hunseen⟩
  · exact hx.2 call hcall htopology
  · exact hunseen hx.1

theorem verified_path_moved :
    ∃ (x : PlannedRun qemuSettings sampleImage none) (result : FlashResult),
      x.outcome = .returned result ∧ result.topology = "1-4" ∧
      (x.Flashes result.topology ∨ result.topology ∉ x.dfuApplicationPaths) := by
  have hrun : (ofScript movedApplicationScript.answer 2 qemuSettings sampleImage none).any fun x =>
      decide (x.dfuApplicationPaths = []) &&
        x.outcome.result.any fun result => decide (result.topology = "1-4") := by
    decide +kernel
  obtain ⟨x, -, hx⟩ := (Option.any_eq_true _ _).mp hrun
  rw [Bool.and_eq_true, decide_eq_true_eq] at hx
  obtain ⟨hpaths, hx⟩ := hx
  obtain ⟨result, hsome, htopology⟩ := (Option.any_eq_true _ _).mp hx
  have hresult := Outcome.result_eq_some.mp hsome
  have hpath := x.verified_path fun _ target _ _ => by simp [hpaths]
  refine ⟨x, result, hresult, by simpa using htopology, ?_⟩
  exact (hpath.2 result hresult).2.imp id And.right

end PlannedRun
end Cul868Flasher
