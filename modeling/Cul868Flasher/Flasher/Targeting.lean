import Cul868Flasher.Flasher.Runs

/-!
# Which bootloader is flashed

The path and the serial of every DFU target are those of the plan, unless a
lookup of the fallback or a target without a serial number comes between. The
theorems name these lookups; the runs behind them show that they matter.
-/

namespace Cul868Flasher
open Python Effects

namespace Flasher

/-! ## What planning has seen -/

theorem orFlashError_returned {lookup : Program α} {message : Exn → String} {t : Trace World}
    {a : α} (h : Run (orFlashError lookup message) t (.returned a)) :
    Run lookup t (.returned a) := by
  obtain ⟨found, t₁, t₂, rfl, h₁, h₂⟩ := Run.bind_returned.mp h
  obtain ⟨b, rfl, hb⟩ | ⟨e, -, rfl, -⟩ := Run.catching_returned h₁
  · obtain ⟨rfl, rfl⟩ := Run.pure_returned.mp h₂
    simpa using hb
  · exact absurd h₂ Run.raise_returned

/-- A confirmed bootloader is planned for only when its serial is the confirmed one. -/
theorem manualPlan_returned {confirmed : ManualRecoveryTarget} {t : Trace World} {p : FlashPlan}
    (h : Run (manualPlan confirmed) t (.returned p)) :
    ∃ bootloader,
      p = ⟨.manualRecovery, confirmed.topology, none, some bootloader, none, some confirmed⟩ ∧
      (confirmed.usbSerial ≠ none → bootloader.usbSerial = confirmed.usbSerial) := by
  obtain ⟨bootloader, t₁, t₂, rfl, h₁, h₂⟩ := Run.bind_returned.mp h
  obtain ⟨rfl, rfl⟩ := Run.pure_returned.mp h₂
  refine ⟨bootloader, rfl, ?_⟩
  obtain ⟨found, u₁, u₂, rfl, -, hu₂⟩ := Run.bind_returned.mp h₁
  cases found with
  | none => exact absurd hu₂ Run.raise_returned
  | some found =>
    dsimp only at hu₂
    split at hu₂
    · exact absurd hu₂ Run.raise_returned
    · rename_i hserial
      obtain ⟨-, rfl⟩ := Run.pure_returned.mp hu₂
      intro hne
      by_contra hdiff
      exact hserial ⟨hne, hdiff⟩

theorem bootloaderForKnown_returned {settings : Settings} {known : KnownDevice} {t : Trace World}
    {bootloader : UsbTarget}
    (h : Run (bootloaderForKnown settings known) t (.returned (some bootloader))) :
    (∃ e ∈ t, FoundOnPath known.topology e bootloader) ∧
      (hasChangedUsbSerial known bootloader = false ∨ known.recoveryBinding = .handoffPending) := by
  obtain ⟨found, t₁, t₂, rfl, h₁, h₂⟩ := Run.bind_returned.mp h
  obtain ⟨fs, rfl, hfs⟩ := usbLookup_returned (orFlashError_returned h₁)
  cases found with
  | none => cases (Run.pure_returned.mp h₂).2
  | some found =>
    dsimp only at h₂
    split at h₂
    · obtain ⟨current, u₁, u₂, rfl, hu₁, hu₂⟩ := Run.bind_returned.mp h₂
      split at hu₂
      · rename_i hcurrent
        obtain ⟨rfl, hb⟩ := Run.pure_returned.mp hu₂
        cases hb
        refine ⟨⟨_, by simp, fs, rfl, hfs⟩, .inr ?_⟩
        obtain ⟨now, v₁, v₂, rfl, -, hv₂⟩ := Run.bind_returned.mp hu₁
        split at hv₂
        · obtain ⟨-, hf⟩ := Run.pure_returned.mp hv₂
          simp [hcurrent] at hf
        · obtain ⟨-, hf⟩ := Run.pure_returned.mp hv₂
          rw [hcurrent] at hf
          simp only [Bool.true_eq, Bool.and_eq_true, decide_eq_true_eq] at hf
          exact hf.1.1
      · split at hu₂
        · exact absurd hu₂ Run.raise_returned
        · exact absurd hu₂ Run.raise_returned
    · rename_i hchanged
      obtain ⟨rfl, hb⟩ := Run.pure_returned.mp h₂
      cases hb
      exact ⟨⟨_, by simp, fs, rfl, hfs⟩, .inl (by simpa using hchanged)⟩

theorem refusePlan_returned {applicationError : Exn} {recoveryError : Option Exn}
    {known knownForConfig : Option KnownDevice} {t : Trace World} {p : FlashPlan} :
    ¬ Run (refusePlan applicationError recoveryError known knownForConfig) t (.returned p) := by
  intro h
  unfold refusePlan at h
  split at h
  · exact Run.raise_returned h
  · split at h
    · exact Run.raise_returned h
    · obtain ⟨unpaired, _, _, rfl, -, h⟩ := Run.bind_returned.mp h
      cases unpaired with
      | none => exact Run.raise_returned h
      | some _ => exact Run.raise_returned h

theorem planUnpaired_returned {allow : Bool} {applicationError : Exn} {recoveryError : Option Exn}
    {known knownForConfig : Option KnownDevice} {t : Trace World} {p : FlashPlan}
    (h : Run (planUnpaired allow applicationError recoveryError known knownForConfig) t
      (.returned p)) :
    allow = true ∧ ∃ confirmed bootloader,
      p = ⟨.manualRecovery, confirmed.topology, none, some bootloader, none, some confirmed⟩ ∧
      (confirmed.usbSerial ≠ none → bootloader.usbSerial = confirmed.usbSerial) := by
  unfold planUnpaired at h
  split at h
  · rename_i hallow
    obtain ⟨discovered, t₁, t₂, rfl, -, h₂⟩ := Run.bind_returned.mp h
    cases discovered with
    | none => exact absurd h₂ refusePlan_returned
    | some discovered =>
      obtain ⟨bootloader, hp, hserial⟩ := manualPlan_returned h₂
      exact ⟨hallow, discovered, bootloader, hp, hserial⟩
  · exact absurd h refusePlan_returned

/-- The state file is read as `known`. -/
def Loads (t : Trace World) (known : KnownDevice) : Prop :=
  ∃ read, ⟨.loadState, read⟩ ∈ t ∧ DeviceStateStore.decode read = .ok (some known)

theorem load_returned {t : Trace World} {known : Option KnownDevice}
    (h : Run DeviceStateStore.load t (.returned known)) :
    ∃ read, t = [⟨.loadState, read⟩] ∧ DeviceStateStore.decode read = .ok known :=
  performed h

/-- The three kinds of plan. -/
theorem plan_returned {settings : Settings} {manualRecovery : Option ManualRecoveryTarget}
    {allow : Bool} {t : Trace World} {p : FlashPlan}
    (h : Run (plan settings manualRecovery allow) t (.returned p)) :
    (∃ application known, application.Valid ∧ manualRecovery = none ∧
      p = ⟨.application, application.topology, some application, none, known, none⟩) ∨
    (∃ confirmed bootloader, (manualRecovery = some confirmed ∨ allow = true) ∧
      p = ⟨.manualRecovery, confirmed.topology, none, some bootloader, none, some confirmed⟩ ∧
      (confirmed.usbSerial ≠ none → bootloader.usbSerial = confirmed.usbSerial)) ∨
    (∃ known bootloader, manualRecovery = none ∧
      p = ⟨.recovery, known.topology, none, some bootloader, some known, none⟩ ∧
      Loads t known ∧ (∃ e ∈ t, FoundOnPath known.topology e bootloader) ∧
      (hasChangedUsbSerial known bootloader = false ∨
        known.recoveryBinding = .handoffPending)) := by
  obtain ⟨known, t₁, t₂, rfl, h₁, h₂⟩ := Run.bind_returned.mp h
  obtain ⟨read, rfl, hread⟩ := load_returned h₁
  obtain ⟨found, t₃, t₄, rfl, h₃, h₄⟩ := Run.bind_returned.mp h₂
  obtain ⟨application, rfl, happ⟩ | ⟨applicationError, -, rfl, -⟩ := Run.catching_returned h₃
  · obtain ⟨fs, rfl, hfs⟩ := usbLookup_returned happ
    cases manualRecovery with
    | some confirmed => exact absurd h₄ Run.raise_returned
    | none =>
      obtain ⟨rfl, rfl⟩ := Run.pure_returned.mp h₄
      exact .inl ⟨application, known, Sysfs.configuredApplication_valid hfs, rfl, rfl⟩
  · cases manualRecovery with
    | some confirmed =>
      obtain ⟨bootloader, rfl, hserial⟩ := manualPlan_returned h₄
      exact .inr (.inl ⟨confirmed, bootloader, .inl rfl, rfl, hserial⟩)
    | none =>
      dsimp only at h₄
      unfold planRecovery at h₄
      split at h₄
      · obtain ⟨hallow, confirmed, bootloader, hp⟩ := planUnpaired_returned h₄
        exact .inr (.inl ⟨confirmed, bootloader, .inr hallow, hp⟩)
      · rename_i known' device hknown
        obtain ⟨found, u₁, u₂, rfl, hu₁, hu₂⟩ := Run.bind_returned.mp h₄
        split at hu₂
        · obtain ⟨rfl, rfl⟩ := Run.pure_returned.mp hu₂
          obtain ⟨found', hf, hrun⟩ | ⟨e, -, hf, -⟩ := Run.catching_returned hu₁
          · cases hf
            obtain ⟨⟨e, he, hfound⟩, hserial⟩ := bootloaderForKnown_returned hrun
            rw [(Option.filter_eq_some_iff.mp hknown).1] at hread
            have hloads : Loads ([⟨.loadState, read⟩] ++ (t₃ ++ (u₁ ++ []))) device :=
              ⟨read, by simp, hread⟩
            exact .inr (.inr ⟨device, _, rfl, rfl, hloads, ⟨e, by simp [he], hfound⟩, hserial⟩)
          · cases hf
        · obtain ⟨hallow, confirmed, bootloader, hp⟩ := planUnpaired_returned hu₂
          exact .inr (.inl ⟨confirmed, bootloader, .inr hallow, hp⟩)
        · obtain ⟨hallow, confirmed, bootloader, hp⟩ := planUnpaired_returned hu₂
          exact .inr (.inl ⟨confirmed, bootloader, .inr hallow, hp⟩)

end Flasher

/-! ## The path -/

def Sysfs.bootloaderPaths (fs : Sysfs) : List String :=
  match fs.bootloaderTargets with
  | .ok targets => targets.map UsbTarget.topology
  | .error _ => []

namespace PlannedRun
variable {settings : Settings} {image : HexImage} {manualRecovery : Option ManualRecoveryTarget}

/-- The paths of the bootloaders that were there while the flash was planned. -/
def plannedBootloaderPaths (x : PlannedRun settings image manualRecovery) : List String :=
  (x.before.filterMap snapshotOf).flatMap Sysfs.bootloaderPaths

/-- Before the bootloader is bound, a lookup of the fallback shows `target`. -/
def FallbackFinds (x : PlannedRun settings image manualRecovery) (target : UsbTarget) : Prop :=
  ∃ u e v, x.after = u ++ e :: v ∧ (∀ y ∈ u, ¬ IsBinding y) ∧ Flasher.FoundAlone e target

/-- The bootloader that an event shows as the only one. -/
def aloneOf : Event World → Option UsbTarget
  | ⟨.usb .bootloaderTargets, fs⟩ =>
    match (fs : Sysfs).bootloaderTargets with
    | .ok [target] => some target
    | _ => none
  | _ => none

theorem aloneOf_eq {e : Event World} {target : UsbTarget} (h : Flasher.FoundAlone e target) :
    aloneOf e = some target := by
  obtain ⟨fs, rfl, hfs⟩ := h
  simp only [aloneOf, hfs]

theorem fallbackFinds_mem (x : PlannedRun settings image manualRecovery) {target : UsbTarget}
    (h : x.FallbackFinds target) : target ∈ x.after.filterMap aloneOf := by
  obtain ⟨u, e, v, hafter, -, halone⟩ := h
  exact List.mem_filterMap.mpr ⟨e, by simp [hafter], aloneOf_eq halone⟩

theorem dfu_topology (x : PlannedRun settings image manualRecovery) {call : DfuCall}
    (hcall : call ∈ dfuCalls x.after) :
    call.bootloader.topology = x.plan.topology ∨
      settings.qemuUsbReenumerationWorkaround = true ∧ ∃ target, x.FallbackFinds target ∧
        call.bootloader.topology = target.topology ∧
        Flasher.SerialAccepted (Flasher.expectedSerial x.plan) target
          (x.plan.mode = .application) := by
  obtain ⟨u, e, v, hafter, he⟩ := exists_of_mem_dfuCalls hcall
  obtain ⟨target, ⟨u', e', file, v', hu, hsel, hfirst, -⟩, w, e'', hw, hfound, -⟩ :=
    (x.allowed u v e call hafter he).bound
  have htopology : call.bootloader.topology = target.topology := hfound.valid.2
  rcases hsel with ⟨hserial, hpath | ⟨hqemu, halone⟩⟩
  · left
    rw [htopology, hpath.valid.2]
  · right
    have hsplit : x.after = u' ++ e' :: (⟨.saveState file, SaveOutcome.saved⟩ :: v' ++ e :: v) := by
      rw [hafter, hu]
      simp only [List.append_assoc, List.cons_append]
    exact ⟨hqemu, target, ⟨u', e', _, hsplit, hfirst, halone⟩, htopology, hserial⟩

/-- The fallback is what can select a bootloader that planning has seen elsewhere. -/
theorem dfu_unseen (x : PlannedRun settings image manualRecovery)
    (hfallback : ∀ target, x.FallbackFinds target → target.topology ≠ x.plan.topology →
      target.topology ∉ x.plannedBootloaderPaths)
    {call : DfuCall} (hcall : call ∈ dfuCalls x.after)
    (hseen : call.bootloader.topology ∈ x.plannedBootloaderPaths) :
    call.bootloader.topology = x.plan.topology := by
  rcases x.dfu_topology hcall with h | ⟨-, target, hfinds, htopology, -⟩
  · exact h
  · by_contra hne
    rw [htopology] at hne hseen
    exact hfallback target hfinds hne hseen

/-- Without a bootloader of the right serial elsewhere, a recovery stays on its path. -/
theorem recovery_topology (x : PlannedRun settings image manualRecovery)
    (hmode : x.plan.mode ≠ .application)
    (hfallback : settings.qemuUsbReenumerationWorkaround = true → ∀ target,
      x.FallbackFinds target → target.topology ≠ x.plan.topology →
      ¬ Flasher.SerialAccepted (Flasher.expectedSerial x.plan) target false)
    {call : DfuCall} (hcall : call ∈ dfuCalls x.after) :
    call.bootloader.topology = x.plan.topology := by
  rcases x.dfu_topology hcall with h | ⟨hqemu, target, hfinds, htopology, hserial⟩
  · exact h
  · by_contra hne
    rw [htopology] at hne
    rw [decide_eq_false hmode] at hserial
    exact hfallback hqemu target hfinds hne hserial

/-! ## Runs with the workaround -/

/-- The configured CUL is on `/dev/ttyACM0`. -/
def qemuSettings : Settings where
  device := .ofString "/dev/ttyACM0"
  baudrate := 9600
  bootTimeout := 90
  qemuUsbReenumerationWorkaround := true
  additionalCulAddons := []

/-- The CUL leaves the bus at `B01`; the bootloader on another path has always been there. -/
def bystanderScript : Script where
  usb n := .ofDevices (if n < 17 then [cul "1-1" "ttyACM0" none, dfuBootloader "1-2" none]
    else [dfuBootloader "1-2" none]) []

/-- The CUL comes back in DFU mode on another path, where nothing was. -/
def movedScript : Script where
  usb n := .ofDevices (if n < 17 then [cul "1-1" "ttyACM0" none] else [dfuBootloader "1-3" none]) []

theorem dfu_adopts_bystander :
    ¬ ∀ (settings : Settings) (image : HexImage) (manualRecovery : Option ManualRecoveryTarget)
      (x : PlannedRun settings image manualRecovery), x.plan.mode = .application →
      settings.qemuUsbReenumerationWorkaround = true → ∀ call ∈ dfuCalls x.after,
        call.bootloader.topology ∈ x.plannedBootloaderPaths →
        call.bootloader.topology = x.plan.topology := by
  intro h
  have hrun : (ofScript bystanderScript.answer 2 qemuSettings sampleImage none).any
      fun x => decide (x.plan.mode = .application) && (dfuCalls x.after).any fun call =>
        decide (call.bootloader.topology ∈ x.plannedBootloaderPaths) &&
          decide (call.bootloader.topology ≠ x.plan.topology) := by
    decide +kernel
  obtain ⟨x, -, hx⟩ := (Option.any_eq_true _ _).mp hrun
  simp only [Bool.and_eq_true, decide_eq_true_eq, List.any_eq_true] at hx
  obtain ⟨hmode, call, hcall, hseen, hmoved⟩ := hx
  exact hmoved (h _ _ _ x hmode rfl call hcall hseen)

theorem dfu_unseen_moved :
    ∃ x : PlannedRun qemuSettings sampleImage none,
      x.plan.mode = .application ∧ (dfuCalls x.after).length = 3 ∧
      ∀ call ∈ dfuCalls x.after, call.bootloader.topology ≠ x.plan.topology ∧
        (call.bootloader.topology ∈ x.plannedBootloaderPaths →
          call.bootloader.topology = x.plan.topology) := by
  have hrun : (ofScript movedScript.answer 2 qemuSettings sampleImage none).any
      fun x => decide (x.plan.mode = .application) && decide ((dfuCalls x.after).length = 3) &&
        decide (x.plannedBootloaderPaths = []) &&
        (dfuCalls x.after).all fun call => decide (call.bootloader.topology ≠ x.plan.topology) := by
    decide +kernel
  obtain ⟨x, -, hx⟩ := (Option.any_eq_true _ _).mp hrun
  simp only [Bool.and_eq_true, decide_eq_true_eq, List.all_eq_true] at hx
  obtain ⟨⟨⟨hmode, hlength⟩, hpaths⟩, hmoved⟩ := hx
  refine ⟨x, hmode, hlength, fun call hcall => ⟨hmoved call hcall, ?_⟩⟩
  refine x.dfu_unseen (fun target _ _ => ?_) hcall
  rw [hpaths]
  exact List.not_mem_nil

/-- The state file of a bootloader observed before. -/
def observedState (topology : String) (usbSerial : Option String) : StateRead :=
  .file ⟨100, some (.obj (DeviceStateStore.fields
    ⟨topology, usbSerial, none, some "/dev/ttyACM0", .observedBootloader, none⟩ none))⟩

/-- After planning, the bootloader of the record gives way to another one. -/
def replacedScript : Script where
  usb n := .ofDevices (if n < 7 then [dfuBootloader "1-1" none] else [dfuBootloader "1-2" none]) []
  state := observedState "1-1" none

/-- The bootloader of the record stays, until it starts its application. -/
def recoveredScript : Script where
  usb n := .ofDevices (if n < 31 then [dfuBootloader "1-1" (some "A"), dfuBootloader "1-2" none]
    else [cul "1-1" "ttyACM0" (some "A"), dfuBootloader "1-2" none]) []
  state := observedState "1-1" (some "A")

theorem recovery_adopts_other :
    ¬ ∀ (settings : Settings) (image : HexImage) (manualRecovery : Option ManualRecoveryTarget)
      (x : PlannedRun settings image manualRecovery), x.plan.mode ≠ .application →
      ∀ call ∈ dfuCalls x.after, call.bootloader.topology = x.plan.topology := by
  intro h
  have hrun : (ofScript replacedScript.answer 2 qemuSettings sampleImage none).any
      fun x => decide (x.plan.mode ≠ .application) && (dfuCalls x.after).any fun call =>
        decide (call.bootloader.topology ≠ x.plan.topology) := by
    decide +kernel
  obtain ⟨x, -, hx⟩ := (Option.any_eq_true _ _).mp hrun
  simp only [Bool.and_eq_true, decide_eq_true_eq, List.any_eq_true] at hx
  obtain ⟨hmode, call, hcall, hmoved⟩ := hx
  exact hmoved (h _ _ _ x hmode call hcall)

theorem recovery_topology_recovered :
    ∃ x : PlannedRun qemuSettings sampleImage none,
      x.plan.mode = .recovery ∧ (dfuCalls x.after).length = 3 ∧
      ∀ call ∈ dfuCalls x.after, call.bootloader.topology = x.plan.topology := by
  have hrun : (ofScript recoveredScript.answer 2 qemuSettings sampleImage none).any
      fun x => decide (x.plan.mode = .recovery) && decide ((dfuCalls x.after).length = 3) &&
        (x.after.filterMap aloneOf).isEmpty := by
    decide +kernel
  obtain ⟨x, -, hx⟩ := (Option.any_eq_true _ _).mp hrun
  simp only [Bool.and_eq_true, decide_eq_true_eq, List.isEmpty_iff] at hx
  obtain ⟨⟨hmode, hlength⟩, halone⟩ := hx
  refine ⟨x, hmode, hlength, fun call hcall => ?_⟩
  refine x.recovery_topology (by simp [hmode]) (fun _ target hfinds => ?_) hcall
  exact absurd (x.fallbackFinds_mem hfinds) (by simp [halone])

end PlannedRun
end Cul868Flasher
