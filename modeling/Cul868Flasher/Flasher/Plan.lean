import Cul868Flasher.Flasher.Lookup
import Cul868Flasher.Hexfile

/-!
# Choosing the device to flash

Planning reads the recovery record once and looks at the USB tree. It decides
between the running application, the bootloader of the record and the
bootloader that the operator has confirmed.
-/

namespace Cul868Flasher
open Python Effects

inductive PlanMode where
  | application
  | recovery
  | manualRecovery
  deriving DecidableEq

structure FlashPlan where
  mode : PlanMode
  topology : String
  application : Option UsbTarget
  bootloader : Option UsbTarget
  known : Option KnownDevice
  manualRecovery : Option ManualRecoveryTarget

namespace Flasher

variable (settings : Settings)

def stateMatchesConfiguration (known : KnownDevice) : Bool :=
  known.configuredDevice = some (toString settings.device)

def handoffDescriptorChangeIsCurrent (known : KnownDevice) : Program Bool := do
  let now ← time
  match known.handoffDeadline with
  | none => return false
  | some deadline =>
    return known.recoveryBinding = .handoffPending && 0 ≤ deadline - truncate now &&
      deadline - truncate now ≤ postDfuTimeout settings

def hasChangedUsbSerial (known : KnownDevice) (target : UsbTarget) : Bool :=
  known.usbSerial ≠ none && target.usbSerial ≠ none && known.usbSerial ≠ target.usbSerial

def bootloaderForKnown (known : KnownDevice) : Program (Option UsbTarget) := do
  let found ← orFlashError (UsbTopology.bootloaderForTopology known.topology) Exn.message
  match found with
  | none => return none
  | some bootloader =>
    if hasChangedUsbSerial known bootloader then
      let current ← handoffDescriptorChangeIsCurrent settings known
      if current then return some bootloader
      else if known.recoveryBinding = .handoffPending then
        .raise (.flashError ("saved CUL DFU handoff expired or has an invalid time window; " ++
          "explicit recovery confirmation is required"))
      else
        .raise (.flashError (
          "DFU device on the saved USB path has a different USB serial number; " ++
            "explicit recovery confirmation is required"))
    else return some bootloader

def singleUnpairedRecoveryTarget : Program (Option ManualRecoveryTarget) := do
  let bootloaders ← orFlashError UsbTopology.bootloaderTargets
    fun err => s!"could not enumerate CUL868 DFU bootloaders: {err}"
  match bootloaders with
  | [] => return none
  | [target] =>
    let recovery ← .ofExcept (ManualRecoveryTarget.make target.topology target.usbSerial)
    return some recovery
  | targets => .raise (.flashError (
      s!"found {targets.length} CUL868 DFU bootloaders ({joinTopologies targets}); " ++
        "unplug or detach the others before explicit recovery"))

/-- Re-prove the confirmed bootloader immediately before use. -/
def manualBootloaderForTarget (expected : ManualRecoveryTarget) : Program UsbTarget := do
  let found ← orFlashError (UsbTopology.bootloaderForTopology expected.topology)
    fun err => s!"could not inspect the confirmed CUL868 DFU target: {err}"
  match found with
  | none => .raise (.flashError (
      "the confirmed CUL868 DFU bootloader is no longer present on USB path " ++
        expected.topology))
  | some bootloader =>
    if expected.usbSerial ≠ none ∧ bootloader.usbSerial ≠ expected.usbSerial then
      .raise (.flashError (
        "the USB serial number for the confirmed CUL868 DFU bootloader changed; " ++
          "validate the firmware again"))
    else return bootloader

def manualPlan (confirmed : ManualRecoveryTarget) : Program FlashPlan := do
  let bootloader ← manualBootloaderForTarget confirmed
  return ⟨.manualRecovery, confirmed.topology, none, some bootloader, none, some confirmed⟩

/-- The bootloader of the record, or the error that refuses it. -/
def recoverKnown (known : KnownDevice) : Program (Except Exn (Option UsbTarget)) :=
  (bootloaderForKnown settings known).catching Exn.isFlashError

/-- The end of planning, when neither an application nor a known bootloader has
been found. -/
def refusePlan (applicationError : Exn) (recoveryError : Option Exn)
    (known knownForConfig : Option KnownDevice) : Program FlashPlan :=
  match recoveryError with
  | some err => .raise (.flashError err.message)
  | none =>
    if known ≠ none ∧ knownForConfig = none then
      .raise (.flashError (
        "configured CUL serial path changed since the last verified device; " ++
          "automatic bootloader recovery is refused"))
    else do
      let unpaired ← singleUnpairedRecoveryTarget
      match unpaired with
      | some _ => .raise (.flashError
          "unpaired CUL868 DFU recovery requires explicit confirmation during firmware validation")
      | none => .raise (.flashError (
          s!"configured CUL application is unavailable: {applicationError}. " ++
            "No uniquely identifiable CUL868 DFU bootloader is available for recovery."))

/-- Planning without an automatic recovery: offer the unpaired bootloader, or refuse. -/
def planUnpaired (allowUnpairedRecovery : Bool) (applicationError : Exn)
    (recoveryError : Option Exn) (known knownForConfig : Option KnownDevice) :
    Program FlashPlan :=
  if allowUnpairedRecovery then do
    let discovered ← singleUnpairedRecoveryTarget
    match discovered with
    | some discovered => manualPlan discovered
    | none => refusePlan applicationError recoveryError known knownForConfig
  else refusePlan applicationError recoveryError known knownForConfig

/-- Planning when no application answers on the configured path. -/
def planRecovery (allowUnpairedRecovery : Bool) (applicationError : Exn)
    (known knownForConfig : Option KnownDevice) : Program FlashPlan :=
  match knownForConfig with
  | none => planUnpaired allowUnpairedRecovery applicationError none known none
  | some device => do
    let found ← recoverKnown settings device
    match found with
    | .ok (some bootloader) =>
      return ⟨.recovery, device.topology, none, some bootloader, some device, none⟩
    | .ok none => planUnpaired allowUnpairedRecovery applicationError none known (some device)
    | .error err =>
      planUnpaired allowUnpairedRecovery applicationError (some err) known (some device)

def plan (manualRecovery : Option ManualRecoveryTarget) (allowUnpairedRecovery : Bool) :
    Program FlashPlan := do
  let known ← DeviceStateStore.load
  let knownForConfig := known.filter (stateMatchesConfiguration settings)
  let found ← (UsbTopology.configuredApplication settings.device).catching Exn.isUsbTopologyError
  match found with
  | .ok application =>
    if manualRecovery.isSome then
      .raise (.flashError ("the explicitly confirmed DFU bootloader is no longer active; " ++
        "validate the firmware again"))
    else return ⟨.application, application.topology, some application, none, known, none⟩
  | .error applicationError =>
    match manualRecovery with
    | some confirmed => manualPlan confirmed
    | none => planRecovery settings allowUnpairedRecovery applicationError known knownForConfig

/-! ## The image -/

def parseHexFile (path : Path) : Program HexImage := do
  let size : Option ℕ ← perform (.statSize path)
  match size with
  | none => .raise (.hexFileError "uploaded firmware file is unavailable")
  | some size =>
    if size < 1 ∨ maxHexFileBytes < size then
      .raise (.hexFileError s!"firmware file must be between 1 and {maxHexFileBytes} bytes")
    else
      let source : Option (List UInt8) ← perform (.readBytes path)
      match source with
      | none => .raise (.hexFileError "uploaded firmware file cannot be read")
      | some source =>
        if source.length ≠ size then
          .raise (.hexFileError "uploaded firmware changed while it was being validated")
        else .ofExcept (HexFile.parseHex source path)

def isStagedFile (details : FileStat) (path : Path) : Bool :=
  details.isRegular && details.mode &&& 0o077 = 0 && path.parent = .ofString "/tmp" &&
    "cul868-".toList.isPrefixOf path.name.toList && path.suffix = ".hex"

def revalidateImage (image : HexImage) : Program HexImage := do
  let details : Option FileStat ← perform (.lstat image.path)
  match details with
  | none => .raise (.flashError "validated firmware image is no longer available")
  | some details =>
    if !isStagedFile details image.path then
      .raise (.flashError
        "validated firmware image no longer has the required private staging form")
    else
      let checked ← (parseHexFile image.path).attempt
      match checked with
      | .error err => .raise (.flashError
          s!"validated firmware image changed before flashing: {err}")
      | .ok checked =>
        if checked ≠ image then
          .raise (.flashError "validated firmware image changed before flashing")
        else return checked

end Flasher
end Cul868Flasher
