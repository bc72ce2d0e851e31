import Cul868Flasher.Flasher.Led

/-!
# Which steps the parts of a transaction can take

External steps are sorted into kinds. `Uses ks p` bounds the kinds that `p` can
take at all, whatever its environment answers.
-/

namespace Cul868Flasher
open Python Effects

inductive OpKind where
  | clock
  | sleep
  | report
  | usb
  | file
  | save (binding : Option RecoveryBinding)
  | session
  | bootloaderCommand
  | ledCommand
  | query
  | dfu
  | get
  | post
  deriving DecidableEq

def StateFile.binding (file : StateFile) : Option RecoveryBinding :=
  file.record.map KnownDevice.recoveryBinding

theorem binding_encode {d : KnownDevice} {file : StateFile}
    (h : DeviceStateStore.encode d = .ok file) : file.binding = some d.recoveryBinding := by
  simp [StateFile.binding, DeviceStateStore.record_encode h, KnownDevice.normalize]

def Op.kind : Op → OpKind
  | .monotonic => .clock
  | .time => .clock
  | .sleep _ => .sleep
  | .report _ _ => .report
  | .usb _ => .usb
  | .resolvePath _ => .file
  | .lstat _ => .file
  | .statSize _ => .file
  | .readBytes _ => .file
  | .loadState => .file
  | .saveState file => .save file.binding
  | .openSerial _ _ => .session
  | .version => .session
  | .enterBootloader => .bootloaderCommand
  | .setLed _ => .ledCommand
  | .uptimeTicks => .query
  | .mbusMode => .query
  | .closeSerial => .session
  | .dfuAvailable => .file
  | .dfu _ _ _ => .dfu
  | .request .get _ => .get
  | .request .post _ => .post

abbrev Uses (ks : List OpKind) (p : Prog World ε α) : Prop :=
  Emits (I := World) (fun o => o.kind ∈ ks) p

theorem Uses.of_subset {ks ks' : List OpKind} {p : Prog World ε α} (h : Uses ks p)
    (hks : ks ⊆ ks') : Uses ks' p :=
  Emits.mono (fun _ ho => hks ho) h

theorem perform_uses {ks : List OpKind} {k : OpKind} {o : Op} (hk : o.kind = k) (h : k ∈ ks) :
    Uses ks (perform o : Prog World ε (World.Ans o)) :=
  Emits.perform (show o.kind ∈ ks from hk ▸ h)

theorem report_uses {ks : List OpKind} (h : .report ∈ ks) (percent : ℕ) (message : String) :
    Uses ks (report percent message) :=
  Emits.bind (perform_uses rfl h) fun answer => Emits.ofExcept answer

theorem reportOnly_uses (percent : ℕ) (message : String) :
    Uses [.report] (report percent message) :=
  report_uses (List.mem_singleton_self _) percent message

theorem save_uses {ks : List OpKind} {d : KnownDevice} {b : RecoveryBinding}
    (hb : d.recoveryBinding = b) (h : .save (some b) ∈ ks) : Uses ks (DeviceStateStore.save d) := by
  refine Emits.ofExcept_bind fun file he => ?_
  have hk : (Op.saveState file).kind = .save (some b) := by
    rw [Op.kind, binding_encode he, hb]
  refine Emits.bind (perform_uses hk h) fun outcome => ?_
  cases outcome with
  | saved => trivial
  | failed replaced e => trivial

section Lookups
variable {ks : List OpKind} (h : .usb ∈ ks)
include h

theorem usb_uses (call : UsbCall) : Uses ks (usb call : Prog World ε Sysfs) := perform_uses rfl h

theorem configuredApplication_uses (device : Path) :
    Uses ks (UsbTopology.configuredApplication device) :=
  (usb_uses h _).bind fun _ => .ofExcept _

theorem applicationForTopology_uses (topology : String) :
    Uses ks (UsbTopology.applicationForTopology topology) :=
  (usb_uses h _).bind fun _ => .ofExcept _

theorem applicationTargets_uses : Uses ks UsbTopology.applicationTargets :=
  (usb_uses h _).bind fun _ => .ofExcept _

theorem bootloaderForTopology_uses (topology : String) :
    Uses ks (UsbTopology.bootloaderForTopology topology) :=
  (usb_uses h _).bind fun _ => .ofExcept _

theorem bootloaderTargets_uses : Uses ks UsbTopology.bootloaderTargets :=
  (usb_uses h _).bind fun _ => .ofExcept _

theorem ttyForTopology_uses (topology : String) :
    Uses ks (UsbTopology.ttyForTopology topology) :=
  (usb_uses h _).bind fun _ => .ofExcept _

theorem byIdPathsForTty_uses (tty : Path) : Uses ks (UsbTopology.byIdPathsForTty tty) :=
  (usb_uses h _).bind fun _ => .pure _

end Lookups

/-! ## The serial session -/

theorem open_uses {ks : List OpKind} (h : .session ∈ ks) (device : Path) (baudrate : ℕ) :
    Uses ks (CulSerial.open_ device baudrate) :=
  Emits.bind (perform_uses rfl h) fun answer => Emits.ofExcept answer

theorem version_uses {ks : List OpKind} (h : .session ∈ ks) : Uses ks CulSerial.version :=
  Emits.bind (perform_uses rfl h) fun answer => Emits.ofExcept answer

theorem close_uses {ks : List OpKind} (h : .session ∈ ks) : Uses ks CulSerial.close :=
  Emits.bind (perform_uses rfl h) fun answer => Emits.ofExcept answer

theorem session_uses {ks : List OpKind} (h : .session ∈ ks) {device : Path} {baudrate : ℕ}
    {block : Program α} (hb : Uses ks block) : Uses ks (CulSerial.session device baudrate block) :=
  (open_uses h _ _).bind fun _ => hb.ensuring fun _ => close_uses h

theorem sessionWith_uses {ks : List OpKind} (h : .session ∈ ks) {s : σ} {device : Path}
    {baudrate : ℕ} {block : Prog World (Exn × σ) (α × σ)} (hb : Uses ks block) :
    Uses ks (CulSerial.sessionWith s device baudrate block) := by
  refine ((open_uses h _ _).raisingWith s).bind fun _ => hb.ensuring fun x => ?_
  cases x with
  | ok a => exact (close_uses h).raisingWith _
  | error e => exact (close_uses h).raisingWith _

theorem readVersionOnce_uses {ks : List OpKind} (h : .session ∈ ks) (device : Path)
    (baudrate : ℕ) : Uses ks (Flasher.readVersionOnce device baudrate) :=
  session_uses h (version_uses h)

/-! ## The polling loops -/

namespace Flasher
variable (fuel : ℕ) (settings : Settings)

theorem singleReenumeratedTarget_uses {ks : List OpKind} {discovery : Program (List UsbTarget)}
    (h : Uses ks discovery) (expected : Option String) (label : String) (allow : Bool) :
    Uses ks (singleReenumeratedTarget discovery expected label allow) := by
  refine (h.catching _).bind fun found => ?_
  split
  · trivial
  · trivial
  · exact (Emits.ofExcept _).bind fun _ => .pure _
  · trivial

theorem waitHint_uses {ks : List OpKind} {discovery : Program (List UsbTarget)}
    (h : Uses ks discovery) (qemu : Bool) (topology label lastError : String) :
    Uses ks (waitHint qemu discovery topology label lastError) := by
  unfold waitHint
  split
  · trivial
  refine (h.catching _).bind fun found => ?_
  split
  · trivial
  · split_ifs <;> trivial
  · trivial

theorem orFlashError_uses {ks : List OpKind} {lookup : Program α} (h : Uses ks lookup)
    (message : Exn → String) : Uses ks (orFlashError lookup message) := by
  refine (h.catching _).bind fun found => ?_
  cases found with
  | ok a => trivial
  | error e => trivial

theorem waitForBootloaderStep_uses (topology : String) (expected : Option String) (deadline : ℚ)
    (qemu allow : Bool) (lastError : String) :
    Uses [.clock, .sleep, .usb]
      (waitForBootloaderStep topology expected deadline qemu allow lastError) := by
  have hsleep : Uses [.clock, .sleep, .usb] (sleep pollSeconds : Program Unit) :=
    perform_uses rfl (by decide)
  refine (perform_uses rfl (by decide)).bind fun now => ?_
  split_ifs with hnow hq
  · refine ((bootloaderForTopology_uses (by decide) _).catching _).bind fun found => ?_
    split
    · exact hsleep.bind fun _ => .pure _
    · exact (Emits.ofExcept _).bind fun _ => .pure _
    · refine (singleReenumeratedTarget_uses (bootloaderTargets_uses (by decide)) _ _ _).bind
        fun reenumerated => ?_
      cases reenumerated with
      | some b => trivial
      | none => exact hsleep.bind fun _ => .pure _
  · refine ((bootloaderForTopology_uses (by decide) _).catching _).bind fun found => ?_
    split
    · exact hsleep.bind fun _ => .pure _
    · exact (Emits.ofExcept _).bind fun _ => .pure _
    · exact hsleep.bind fun _ => .pure _
  · trivial

theorem waitForBootloader_uses (topology : String) (expected : Option String)
    (timeout : Option ℤ) (qemu allow : Bool) :
    Uses [.clock, .sleep, .usb]
      (waitForBootloader fuel settings topology expected timeout qemu allow) := by
  refine (perform_uses rfl (by decide)).bind fun start => ?_
  refine (Emits.loop (waitForBootloaderStep_uses _ _ _ _ _) _ _).bind fun found => ?_
  cases found with
  | ok b => trivial
  | error lastError =>
    exact (waitHint_uses (bootloaderTargets_uses (by decide)) _ _ _ _).bind fun _ => .raise _

theorem findApplication_uses (topology : String) (expected : Option String) (qemu allow : Bool) :
    Uses [.usb] (findApplication topology expected qemu allow) := by
  have hpath : Uses [.usb] (applicationOnPath topology) := by
    refine (applicationForTopology_uses (by decide) _).bind fun application => ?_
    exact (ttyForTopology_uses (by decide) _).bind fun device => .pure _
  have hmoved : Uses [.usb] (reenumeratedApplication expected allow) := by
    refine (singleReenumeratedTarget_uses (applicationTargets_uses (by decide)) _ _ _).bind
      fun reenumerated => ?_
    cases reenumerated with
    | none => trivial
    | some application =>
      refine ((ttyForTopology_uses (by decide) _).catching _).bind fun device => ?_
      split <;> trivial
  refine (hpath.catching _).bind fun found => ?_
  split
  · trivial
  · exact (Emits.ofExcept _).bind fun _ => .pure _
  · split_ifs
    · exact hmoved
    · trivial

theorem sleepUntil_uses (deadline : ℚ) : Uses [.clock, .sleep] (sleepUntil deadline) := by
  refine (perform_uses rfl (by decide)).bind fun now => ?_
  split_ifs
  · exact perform_uses (k := .sleep) rfl (by decide)
  · trivial

theorem waitForApplicationVersionStep_uses (topology : String) (expected : Option String)
    (deadline : ℚ) (baudrate : ℕ) (qemu allow : Bool) (lastError : String) :
    Uses [.clock, .sleep, .usb, .session]
      (waitForApplicationVersionStep topology expected deadline baudrate qemu allow lastError) := by
  have hsleep := (sleepUntil_uses deadline).of_subset
    (by decide : [OpKind.clock, .sleep] ⊆ [.clock, .sleep, .usb, .session])
  refine (perform_uses rfl (by decide)).bind fun now => ?_
  split_ifs
  · refine ((findApplication_uses _ _ _ _).of_subset (by decide)).bind fun found => ?_
    obtain ⟨target, lastError⟩ := found
    cases target with
    | none => exact hsleep.bind fun _ => .pure _
    | some target =>
      refine ((readVersionOnce_uses (by decide) _ _).attempt).bind fun version => ?_
      cases version with
      | ok v => trivial
      | error e => exact hsleep.bind fun _ => .pure _
  · trivial

theorem waitForApplicationVersion_uses (topology : String) (expected : Option String)
    (timeout : ℚ) (baudrate : ℕ) (qemu allow : Bool) :
    Uses [.clock, .sleep, .usb, .session]
      (waitForApplicationVersion fuel topology expected timeout baudrate qemu allow) := by
  refine (perform_uses rfl (by decide)).bind fun start => ?_
  refine (Emits.loop (waitForApplicationVersionStep_uses _ _ _ _ _ _) _ _).bind fun found => ?_
  cases found with
  | ok verified => trivial
  | error lastError =>
    exact (waitHint_uses (applicationTargets_uses (by decide)) _ _ _ _).bind fun _ => .raise _

theorem configuredApplicationEndpoint_uses (expected : Option UsbTarget) :
    Uses [.usb] (configuredApplicationEndpoint settings expected) := by
  refine (orFlashError_uses (configuredApplication_uses (by decide) _) _).bind
    fun configured => ?_
  split_ifs
  · trivial
  · refine (orFlashError_uses (ttyForTopology_uses (by decide) _) _).bind fun device => ?_
    cases device with
    | none => trivial
    | some device =>
      refine (orFlashError_uses (configuredApplication_uses (by decide) _) _).bind
        fun direct => ?_
      split_ifs <;> trivial

theorem settleAfterUsbChange_uses (target : String) :
    Uses [.report, .sleep] (settleAfterUsbChange settings target) := by
  unfold settleAfterUsbChange
  split
  · exact (report_uses (by decide) _ _).bind fun _ => perform_uses rfl (by decide)
  · trivial

end Flasher

/-! ## The Supervisor client -/

namespace SupervisorClient
variable (fuel : ℕ)

theorem request_uses {ks : List OpKind} {k : OpKind} {method : HttpMethod} {path : String}
    (hk : (Op.request method path).kind = k) (h : k ∈ ks) : Uses ks (request method path) :=
  Emits.bind (perform_uses hk h) fun _ => .ofExcept _

theorem addonInfo_uses (slug : String) : Uses [.get] (addonInfo slug) := by
  refine (Emits.ofExcept _).bind fun path => ?_
  exact (request_uses (k := .get) rfl (by decide)).bind fun document => .ofExcept _

theorem addonState_uses (slug : String) : Uses [.get] (addonState slug) := by
  refine (addonInfo_uses slug).bind fun data => ?_
  split
  · split_ifs <;> trivial
  · trivial

theorem stopAddon_uses (slug : String) : Uses [.post] (stopAddon slug) :=
  (Emits.ofExcept _).bind fun _ =>
    (request_uses (k := .post) rfl (by decide)).bind fun _ => .pure _

theorem startAddon_uses (slug : String) : Uses [.post] (startAddon slug) :=
  (Emits.ofExcept _).bind fun _ =>
    (request_uses (k := .post) rfl (by decide)).bind fun _ => .pure _

theorem resolvePath_uses (path : Path) : Uses [.file] (resolvePath path) :=
  (perform_uses (k := .file) rfl (by decide)).bind fun _ => .ofExcept _

theorem resolvesTo_uses (candidate device : Path) : Uses [.file] (resolvesTo candidate device) := by
  have hnode : Uses [.file] (sameNode candidate device) :=
    (resolvePath_uses candidate).bind fun _ => (resolvePath_uses device).bind fun _ => .pure _
  refine (hnode.catching _).bind fun same => ?_
  cases same with
  | ok same => trivial
  | error e => trivial

theorem sameDevicePath_uses (candidate : String) (device : Path) :
    Uses [.file] (sameDevicePath candidate device) := by
  unfold sameDevicePath
  split_ifs
  · trivial
  · trivial
  · trivial
  · exact resolvesTo_uses _ _

theorem anySpecification_uses (device : Path) (specifications : List String) :
    Uses [.file] (anySpecification device specifications) := by
  induction specifications with
  | nil => trivial
  | cons specification rest ih =>
    have hspec : Uses [.file] (wmbusmetersDeviceSpecUsesDevice specification device) := by
      unfold wmbusmetersDeviceSpecUsesDevice
      generalize String.ofList (specificationEndpoint specification) = endpoint
      have hpath := sameDevicePath_uses endpoint device
      dsimp only
      split_ifs
      · exact Emits.pure _
      · exact Emits.pure _
      · exact hpath
    refine hspec.bind fun used => ?_
    split_ifs
    · trivial
    · exact ih

theorem wmbusmetersUsesDevice_uses (options : Json) (device : Path) :
    Uses [.file] (wmbusmetersUsesDevice options device) := by
  unfold wmbusmetersUsesDevice
  split
  · dsimp only
    split
    · split_ifs
      · trivial
      · exact anySpecification_uses _ _
    · trivial
  · trivial

theorem max2mqttUsesDevice_uses (options : Json) (device : Path) :
    Uses [.file] (max2mqttUsesDevice options device) := by
  unfold max2mqttUsesDevice
  split
  · split
    · exact sameDevicePath_uses _ _
    · trivial
  · trivial

theorem startedOnDevice_uses (slug : String) {usesDevice : Json → Program Bool}
    (h : ∀ options, Uses [.file] (usesDevice options)) :
    Uses [.get, .file] (startedOnDevice slug usesDevice) := by
  refine ((addonInfo_uses slug).of_subset (by decide)).bind fun info => ?_
  split_ifs
  · exact (h _).of_subset (by decide)
  · trivial

theorem discoverAddon_uses (device : Path) (additional : List String) (found : Discovered)
    (addon : Json) : Uses [.get, .file] (discoverAddon device additional found addon) := by
  unfold discoverAddon
  split
  · split
    · split
      · trivial
      · split
        · exact (startedOnDevice_uses _ fun _ => wmbusmetersUsesDevice_uses _ _).bind
            fun _ => .pure _
        · split
          · exact (startedOnDevice_uses _ fun _ => max2mqttUsesDevice_uses _ _).bind
              fun _ => .pure _
          · trivial
    · trivial
  · trivial

theorem discoverAddons_uses (device : Path) (additional : List String) (found : Discovered)
    (addons : List Json) : Uses [.get, .file] (discoverAddons device additional found addons) := by
  induction addons generalizing found with
  | nil => trivial
  | cons addon rest ih => exact (discoverAddon_uses _ _ _ _).bind fun found' => ih found'

theorem runningCulConsumersUsingDevice_uses (device : Path) (additional : List String) :
    Uses [.get, .file] (runningCulConsumersUsingDevice device additional) := by
  refine (request_uses rfl (by decide)).bind fun document => ?_
  refine (Emits.ofExcept _).bind fun data => ?_
  split
  · exact (discoverAddons_uses _ _ _ _).bind fun _ => .pure _
  · trivial

theorem hardwareSerialByIdPathsForTty_uses (device : Path) :
    Uses [.get] (hardwareSerialByIdPathsForTty device) := by
  refine (Emits.ofExcept _).bind fun _ => ?_
  refine (request_uses rfl (by decide)).bind fun document => ?_
  refine (Emits.ofExcept _).bind fun data => ?_
  split <;> trivial

theorem waitForStateStep_uses (slug expected : String) (deadline : ℚ) (lastState : String) :
    Uses [.clock, .sleep, .get] (waitForStateStep slug expected deadline lastState) := by
  refine (perform_uses rfl (by decide)).bind fun now => ?_
  split_ifs
  · refine ((addonState_uses slug).of_subset (by decide)).bind fun state => ?_
    split_ifs
    · trivial
    · exact (perform_uses rfl (by decide)).bind fun _ => .pure _
  · trivial

theorem waitForState_uses (slug expected : String) :
    Uses [.clock, .sleep, .get] (waitForState fuel slug expected) :=
  (perform_uses rfl (by decide)).bind fun _ => .loop (waitForStateStep_uses _ _ _) _ _

theorem restoreAddon_uses (slug : String) :
    Uses [.clock, .sleep, .get, .post] (restoreAddon fuel slug) := by
  have hattempt : Uses [.clock, .sleep, .get, .post] (restoreAttempt fuel slug) := by
    refine ((addonState_uses slug).of_subset (by decide)).bind fun state => ?_
    split_ifs
    · refine ((startAddon_uses slug).of_subset (by decide)).bind fun _ => ?_
      exact (waitForState_uses fuel _ _).of_subset (by decide)
    · exact (waitForState_uses fuel _ _).of_subset (by decide)
  refine Emits.bind
    (Emits.retry (fun _ => perform_uses (k := .sleep) rfl (by decide)) (fun _ => ?_) _ _ _)
    fun x => ?_
  · exact (hattempt.catching _).bind fun _ => .pure _
  · split
    split <;> trivial

theorem restoreAddons_uses (slugs : List String) :
    Uses [.clock, .sleep, .get, .post] (restoreAddons fuel slugs) := by
  induction slugs with
  | nil => trivial
  | cons slug rest ih => exact (restoreAddon_uses fuel slug).bind fun _ => ih.bind fun _ => .pure _

theorem restore_uses (slugs : List String) :
    Uses [.clock, .sleep, .get, .post] (restore fuel slugs) :=
  restoreAddons_uses fuel _

theorem stopAddons_uses (stopped slugs : List String) :
    Uses [.clock, .sleep, .get, .post] (stopAddons fuel stopped slugs) := by
  induction slugs generalizing stopped with
  | nil => trivial
  | cons slug rest ih =>
    refine (((stopAddon_uses slug).of_subset (by decide)).raisingWith _).bind fun _ => ?_
    refine (((waitForState_uses fuel _ _).of_subset (by decide)).raisingWith _).bind fun _ => ?_
    exact ih _

theorem stopConsumers_uses (matched : CulConsumerPause) :
    Uses [.clock, .sleep, .get, .post] (stopConsumers fuel matched) := by
  refine ((stopAddons_uses fuel _ _).attempt).bind fun result => ?_
  cases result with
  | ok stopped => trivial
  | error e => exact (restore_uses fuel _).bind fun _ => .raise _

theorem pauseConsumers_uses (device : Path) (additional : List String) :
    Uses [.clock, .sleep, .get, .post, .file] (pauseConsumers fuel device additional) := by
  refine ((runningCulConsumersUsingDevice_uses _ _).of_subset (by decide)).bind fun matched => ?_
  exact ((stopConsumers_uses fuel _).of_subset (by decide)).bind fun _ => .pure _

theorem resumeConsumers_uses (stopped : List String)
    (x : Except (Exn × CulConsumerPause) (α × CulConsumerPause)) :
    Uses [.clock, .sleep, .get, .post] (resumeConsumers fuel stopped x) := by
  unfold resumeConsumers
  split
  · split_ifs
    · exact (restore_uses fuel _).bind fun _ => .raise _
    · trivial
    · trivial
  · refine (restore_uses fuel _).bind fun failures => ?_
    split_ifs <;> trivial

end SupervisorClient

/-! ## Planning -/

namespace Flasher
variable (fuel : ℕ) (settings : Settings)

/-- Planning looks at the world and changes nothing. -/
def planningKinds : List OpKind := [.clock, .report, .usb, .file]

/-- The plan itself does not report either. -/
def lookupKinds : List OpKind := [.clock, .usb, .file]

theorem bootloaderForKnown_uses (known : KnownDevice) :
    Uses lookupKinds (bootloaderForKnown settings known) := by
  refine (orFlashError_uses (bootloaderForTopology_uses (by decide) _) _).bind fun found => ?_
  cases found with
  | none => trivial
  | some bootloader =>
    dsimp only
    split
    · have hcurrent : Uses lookupKinds (handoffDescriptorChangeIsCurrent settings known) := by
        refine (perform_uses rfl (by decide)).bind fun now => ?_
        split <;> trivial
      refine hcurrent.bind fun current => ?_
      split_ifs <;> trivial
    · trivial

theorem singleUnpairedRecoveryTarget_uses :
    Uses lookupKinds singleUnpairedRecoveryTarget := by
  refine (orFlashError_uses (bootloaderTargets_uses (by decide)) _).bind fun targets => ?_
  split
  · trivial
  · exact (Emits.ofExcept _).bind fun _ => .pure _
  · trivial

theorem manualPlan_uses (confirmed : ManualRecoveryTarget) :
    Uses lookupKinds (manualPlan confirmed) := by
  have hbootloader : Uses lookupKinds (manualBootloaderForTarget confirmed) := by
    refine (orFlashError_uses (bootloaderForTopology_uses (by decide) _) _).bind fun found => ?_
    cases found with
    | none => trivial
    | some bootloader =>
      dsimp only
      split_ifs <;> trivial
  exact hbootloader.bind fun _ => .pure _

theorem planUnpaired_uses (allow : Bool) (applicationError : Exn) (recoveryError : Option Exn)
    (known knownForConfig : Option KnownDevice) :
    Uses lookupKinds (planUnpaired allow applicationError recoveryError known knownForConfig) := by
  have hrefuse : Uses lookupKinds
      (refusePlan applicationError recoveryError known knownForConfig) := by
    unfold refusePlan
    split
    · trivial
    · split_ifs
      · trivial
      · refine singleUnpairedRecoveryTarget_uses.bind fun unpaired => ?_
        cases unpaired <;> trivial
  unfold planUnpaired
  split_ifs
  · refine singleUnpairedRecoveryTarget_uses.bind fun discovered => ?_
    cases discovered with
    | none => exact hrefuse
    | some discovered => exact manualPlan_uses _
  · exact hrefuse

theorem planRecovery_uses (allow : Bool) (applicationError : Exn)
    (known knownForConfig : Option KnownDevice) :
    Uses lookupKinds (planRecovery settings allow applicationError known knownForConfig) := by
  unfold planRecovery
  split
  · exact planUnpaired_uses _ _ _ _ _
  · refine ((bootloaderForKnown_uses settings _).catching _).bind fun found => ?_
    split
    · trivial
    · exact planUnpaired_uses _ _ _ _ _
    · exact planUnpaired_uses _ _ _ _ _

theorem plan_uses (manualRecovery : Option ManualRecoveryTarget) (allow : Bool) :
    Uses lookupKinds (plan settings manualRecovery allow) := by
  refine Emits.bind (Emits.bind (perform_uses rfl (by decide)) fun read => .ofExcept _)
    fun known => ?_
  refine ((configuredApplication_uses (by decide) _).catching _).bind fun found => ?_
  split
  · split_ifs <;> trivial
  · split
    · exact manualPlan_uses _
    · exact planRecovery_uses settings _ _ _ _

theorem parseHexFile_uses (path : Path) : Uses [.file] (parseHexFile path) := by
  refine Emits.bind (perform_uses (k := .file) rfl (by decide)) fun size => ?_
  cases size with
  | none => trivial
  | some size =>
    dsimp only
    split_ifs
    · trivial
    · refine Emits.bind (perform_uses (k := .file) rfl (by decide)) fun source => ?_
      cases source with
      | none => trivial
      | some source =>
        dsimp only
        split_ifs
        · trivial
        · exact .ofExcept _

theorem revalidateImage_uses (image : HexImage) : Uses [.file] (revalidateImage image) := by
  refine Emits.bind (perform_uses (k := .file) rfl (by decide)) fun details => ?_
  cases details with
  | none => trivial
  | some details =>
    dsimp only
    split_ifs
    · trivial
    · refine (parseHexFile_uses image.path).attempt.bind fun checked => ?_
      cases checked with
      | error e => trivial
      | ok checked =>
        dsimp only
        split_ifs <;> trivial

theorem prepare_uses (image : HexImage) (manualRecovery : Option ManualRecoveryTarget) :
    Uses planningKinds (prepare settings image manualRecovery) := by
  refine ((revalidateImage_uses image).of_subset (by decide)).bind fun image => ?_
  refine (report_uses (by decide) _ _).bind fun _ => ?_
  exact ((plan_uses settings _ _).of_subset (by decide)).bind fun _ => .pure _

/-! ## The transaction -/

def handoffKinds : List OpKind :=
  [.clock, .sleep, .report, .usb, .session, .save (some .handoffPending), .bootloaderCommand]

/-- An attempt itself does not pause. -/
def attemptKinds : List OpKind :=
  [.clock, .report, .usb, .session, .save (some .handoffPending), .bootloaderCommand]

theorem handoffAttempt_uses (plan : FlashPlan) (application : UsbTarget)
    (pause : CulConsumerPause) :
    Uses attemptKinds (handoffAttempt settings plan application pause) := by
  refine (((configuredApplicationEndpoint_uses settings _).of_subset (by decide)).raisingWith
    _).bind fun endpoint => sessionWith_uses (by decide) ?_
  refine ((version_uses (by decide)).raisingWith _).bind fun before => ?_
  refine ((report_uses (by decide) _ _).raisingWith _).bind fun _ => ?_
  have hstore : Uses attemptKinds (storeHandoffPending settings plan) :=
    Emits.bind (perform_uses rfl (by decide)) fun now =>
      save_uses (b := .handoffPending) rfl (by decide)
  refine (hstore.raisingWith _).bind fun _ => ?_
  have hcommand : Uses attemptKinds CulSerial.enterBootloader :=
    Emits.bind (perform_uses rfl (by decide)) fun answer => Emits.ofExcept answer
  exact (hcommand.raisingWith _).bind fun _ => .pure _

theorem enterBootloader_uses (plan : FlashPlan) (pause : CulConsumerPause) :
    Uses handoffKinds (enterBootloader settings plan pause) := by
  unfold enterBootloader
  split
  · trivial
  · refine ((report_uses (by decide) _ _).raisingWith _).bind fun _ => ?_
    refine Emits.bind (Emits.retry (fun _ => perform_uses rfl (by decide)) (fun pause => ?_) _ _ _)
      fun x => ?_
    · refine ((handoffAttempt_uses settings _ _ _).of_subset (by decide)).attempt.bind
        fun result => ?_
      split
      · trivial
      · split_ifs <;> trivial
    · split
      split <;> trivial

theorem selectFromApplication_uses (plan : FlashPlan) (application : UsbTarget)
    (pause : CulConsumerPause) :
    Uses handoffKinds (selectFromApplication fuel settings plan application pause) := by
  refine (enterBootloader_uses settings plan pause).bind fun x => ?_
  refine (((settleAfterUsbChange_uses settings _).of_subset (by decide)).raisingWith _).bind
    fun _ => ?_
  exact (((waitForBootloader_uses fuel settings _ _ _ _ _).of_subset (by decide)).raisingWith
    _).bind fun _ => .pure _

theorem selectFromRecovery_uses (plan : FlashPlan) (pause : CulConsumerPause) :
    Uses [.clock, .sleep, .report, .usb] (selectFromRecovery fuel settings plan pause) := by
  refine ((report_uses (by decide) _ _).raisingWith _).bind fun _ => ?_
  exact (((waitForBootloader_uses fuel settings _ _ _ _ _).of_subset (by decide)).raisingWith
    _).bind fun _ => .pure _

theorem selectBootloader_uses (plan : FlashPlan) (pause : CulConsumerPause) :
    Uses handoffKinds (selectBootloader fuel settings plan pause) := by
  unfold selectBootloader
  split_ifs
  · split
    · trivial
    · exact selectFromApplication_uses fuel settings _ _ _
  · exact (selectFromRecovery_uses fuel settings _ _).of_subset (by decide)

theorem reportMoved_uses {ks : List OpKind} (h : .report ∈ ks) (oldTopology newTopology : String)
    (percent : ℕ) (message : String) :
    Uses ks (reportMoved oldTopology newTopology percent message) := by
  unfold reportMoved
  split
  · exact report_uses h _ _
  · trivial

def dfuKinds : List OpKind := [.clock, .sleep, .report, .usb, .file, .dfu]

theorem runDfu_uses (topology : String) (expected : Option String) (command : DfuCommand)
    (arguments : List String) :
    Uses dfuKinds (runDfu fuel settings topology expected command arguments) := by
  refine (perform_uses rfl (by decide)).bind fun available => ?_
  split
  · trivial
  · refine ((waitForBootloader_uses fuel settings _ _ _ _ _).of_subset (by decide)).bind
      fun bootloader => ?_
    exact (perform_uses (k := .dfu) rfl (by decide)).bind fun outcome => .ofExcept _

theorem startApplication_uses (topology : String) (expected : Option String) :
    Uses dfuKinds (startApplication fuel settings topology expected) := by
  refine ((runDfu_uses fuel settings _ _ _ _).catching _).bind fun started => ?_
  cases started with
  | ok _ => trivial
  | error err => exact (report_uses (by decide) _ _).bind fun _ => .pure _

def programmingKinds : List OpKind := .save (some .observedBootloader) :: dfuKinds

theorem programBootloader_uses (plan : FlashPlan) (image : HexImage) (bootloader : UsbTarget) :
    Uses programmingKinds (programBootloader fuel settings plan image bootloader) := by
  have hreport : ∀ percent message, Uses programmingKinds (report percent message) :=
    fun _ _ => report_uses (by decide) _ _
  have hsubset : dfuKinds ⊆ programmingKinds := List.subset_cons_self _ _
  have hdfu := fun command arguments => (runDfu_uses fuel settings bootloader.topology
    bootloader.usbSerial command arguments).of_subset hsubset
  have hstart := (startApplication_uses fuel settings bootloader.topology
    bootloader.usbSerial).of_subset hsubset
  refine (save_uses (b := .observedBootloader) rfl (by decide)).bind fun _ => ?_
  refine (reportMoved_uses (by decide) _ _ _ _).bind fun _ => ?_
  refine (hreport _ _).bind fun _ => (hdfu _ _).bind fun _ => ?_
  refine (hreport _ _).bind fun _ => (hdfu _ _).bind fun _ => ?_
  refine (hreport _ _).bind fun _ => hstart.bind fun startError => ?_
  exact ((settleAfterUsbChange_uses settings _).of_subset (by decide)).bind fun _ => .pure _

def verifyKinds : List OpKind := [.clock, .sleep, .report, .usb, .session]

theorem verifyApplication_uses (topology : String) (expected : Option String)
    (startError : Option Exn) :
    Uses verifyKinds (verifyApplication fuel settings topology expected startError) := by
  have hawait : Uses verifyKinds (awaitApplication fuel settings topology expected) := by
    refine (report_uses (by decide) _ _).bind fun _ => ?_
    refine ((waitForApplicationVersion_uses fuel _ _ _ _ _ _).of_subset (by decide)).bind
      fun found => ?_
    exact (reportMoved_uses (by decide) _ _ _ _).bind fun _ => .pure _
  refine (hawait.catching _).bind fun result => ?_
  split
  · trivial
  · split <;> trivial

def aliasKinds : List OpKind := [.clock, .sleep, .report, .usb, .get]

theorem waitForSerialByIdAliases_uses (device : Path) :
    Uses aliasKinds (waitForSerialByIdAliases fuel device) := by
  refine (perform_uses rfl (by decide)).bind fun start => Emits.loop (fun s => ?_) _ _
  refine ((byIdPathsForTty_uses (by decide) _).catching _).bind fun found => ?_
  split
  · trivial
  · refine (((SupervisorClient.hardwareSerialByIdPathsForTty_uses _).of_subset
      (by decide)).catching _).bind fun hardware => ?_
    split
    · trivial
    · refine (perform_uses rfl (by decide)).bind fun now => ?_
      have hsleep : ∀ (seconds : ℚ) (next : AliasWait), Uses aliasKinds
          ((sleep seconds : Program Unit) >>= fun _ =>
            (pure (.inl next) : Program (AliasWait ⊕ List Path))) :=
        fun _ next => (perform_uses (k := .sleep) rfl (by decide)).bind fun _ => .pure _
      split_ifs
      · trivial
      · trivial
      · exact (report_uses (by decide) _ _).bind fun _ => hsleep _ _
      · exact hsleep _ _

theorem inspectAliases_uses (device : Path) :
    Uses aliasKinds (inspectAliases fuel device) := by
  refine ((waitForSerialByIdAliases_uses fuel device).catching _).bind fun aliases => ?_
  cases aliases <;> trivial

theorem manualSerialByIdMigration_uses (previous device : Path) (pause : CulConsumerPause) :
    Uses aliasKinds (manualSerialByIdMigration fuel previous device pause) := by
  unfold manualSerialByIdMigration
  split_ifs
  · trivial
  · refine ((inspectAliases_uses fuel device).raisingWith _).bind fun x => ?_
    split
    split
    · trivial
    · exact ((report_uses (by decide) _ _).raisingWith _).bind fun _ => .pure _

theorem recordApplication_uses (before : Option String) (application : UsbTarget)
    (device : Path) (after : String) (pause : CulConsumerPause) :
    Uses (.save (some .verifiedApplication) :: aliasKinds)
      (recordApplication fuel settings before application device after pause) := by
  refine ((save_uses (b := .verifiedApplication) rfl (by decide)).raisingWith _).bind fun _ => ?_
  exact ((manualSerialByIdMigration_uses fuel _ _ _).of_subset (by decide)).bind fun _ => .pure _

end Flasher
end Cul868Flasher
