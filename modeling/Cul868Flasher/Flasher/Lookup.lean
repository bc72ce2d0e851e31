import Cul868Flasher.Supervisor
import Mathlib.Data.Rat.Floor

/-!
# Waiting for the device

The polling loops of the flasher. A loop carries the text of the last error it
saw; `fuel` bounds its iterations and nothing else.
-/

namespace Cul868Flasher
open Python Effects

structure Settings where
  device : Path
  baudrate : ℕ
  bootTimeout : ℤ
  qemuUsbReenumerationWorkaround : Bool
  additionalCulAddons : List String

namespace Flasher

def pollSeconds : ℚ := 1 / 4
def qemuSettleSeconds : ℚ := 8
def minPostDfuTimeoutSeconds : ℤ := 90
def versionReadAttempts : ℕ := 3
def versionRetrySeconds : ℚ := 1

/-- Python's `int()` of a clock reading. -/
def truncate (q : ℚ) : ℤ := if 0 ≤ q then ⌊q⌋ else ⌈q⌉

def postDfuTimeout (settings : Settings) : ℤ :=
  max settings.bootTimeout minPostDfuTimeoutSeconds

/-- Compare stable application identity without trusting transient address values. -/
def sameApplicationIdentity (expected current : UsbTarget) : Bool :=
  expected.topology = current.topology && expected.vendorId = current.vendorId &&
    expected.productId = current.productId && expected.usbSerial = current.usbSerial

def requireExpectedUsbSerial (target : UsbTarget) (expectedUsbSerial : Option String)
    (label : String) (allowDescriptorSerialChange : Bool) : Except Exn Unit :=
  if expectedUsbSerial ≠ none ∧ target.usbSerial ≠ none ∧ target.usbSerial ≠ expectedUsbSerial ∧
      allowDescriptorSerialChange = false then
    .error (.flashError s!"{label} has a different USB serial number")
  else .ok ()

def joinTopologies (targets : List UsbTarget) : String :=
  String.intercalate ", " ((targets.take 4).map UsbTarget.topology)

def singleReenumeratedTarget (discovery : Program (List UsbTarget))
    (expectedUsbSerial : Option String) (label : String) (allowDescriptorSerialChange : Bool) :
    Program (Option UsbTarget) := do
  let found ← discovery.catching Exn.isUsbTopologyError
  match found with
  | .error err => .raise (.flashError
      s!"could not inspect {label} after QEMU re-enumeration: {err}")
  | .ok [] => return none
  | .ok [target] => do
    .ofExcept (requireExpectedUsbSerial target expectedUsbSerial
      s!"{label} on changed guest USB path" allowDescriptorSerialChange)
    return some target
  | .ok targets => .raise (.flashError (
      s!"found {targets.length} {label} targets during QEMU guest USB re-enumeration " ++
        s!"({joinTopologies targets}); refusing to choose one"))

def qemuTopologyHint (discovery : Program (List UsbTarget)) (expectedTopology label : String)
    (lastError : String) : Program String := do
  let found ← discovery.catching Exn.isUsbTopologyError
  match found with
  | .error _ => return lastError
  | .ok [target] =>
    if target.topology ≠ expectedTopology then
      return (
        s!"{label} is visible on guest USB path {target.topology}, not {expectedTopology}; " ++
          "enable QEMU USB re-enumeration workaround to permit this exact-one fallback")
    else return lastError
  | .ok _ => return lastError

/-- The last error of a wait, with the hint that only the default needs. -/
def waitHint (allowQemuTopologyChange : Bool) (discovery : Program (List UsbTarget))
    (expectedTopology label lastError : String) : Program String :=
  if allowQemuTopologyChange then return lastError
  else qemuTopologyHint discovery expectedTopology label lastError

variable (fuel : ℕ) (settings : Settings)

/-- One pass of the loop. Its result is the bootloader, or the last error when
the deadline has passed. -/
def waitForBootloaderStep (topology : String) (expectedUsbSerial : Option String) (deadline : ℚ)
    (allowQemuTopologyChange allowDescriptorSerialChange : Bool) (lastError : String) :
    Program (String ⊕ Except String UsbTarget) := do
  let now ← monotonic
  if now < deadline then
    let found ← (UsbTopology.bootloaderForTopology topology).catching Exn.isUsbTopologyError
    match found with
    | .error err =>
      sleep pollSeconds
      return .inl err.message
    | .ok (some bootloader) =>
      .ofExcept (requireExpectedUsbSerial bootloader expectedUsbSerial
        "DFU device on the selected USB path" allowDescriptorSerialChange)
      return .inr (.ok bootloader)
    | .ok none =>
      if allowQemuTopologyChange then
        let reenumerated ← singleReenumeratedTarget UsbTopology.bootloaderTargets expectedUsbSerial
          "CUL868 DFU bootloader" allowDescriptorSerialChange
        match reenumerated with
        | some bootloader => return .inr (.ok bootloader)
        | none =>
          sleep pollSeconds
          return .inl lastError
      else
        sleep pollSeconds
        return .inl lastError
  else return .inr (.error lastError)

def waitForBootloader (topology : String) (expectedUsbSerial : Option String)
    (timeout : Option ℤ) (allowQemuTopologyChange allowDescriptorSerialChange : Bool) :
    Program UsbTarget := do
  let effectiveTimeout := timeout.getD settings.bootTimeout
  let start ← monotonic
  let found ← .loop (waitForBootloaderStep topology expectedUsbSerial (start + effectiveTimeout)
    allowQemuTopologyChange allowDescriptorSerialChange) fuel "DFU bootloader has not appeared"
  match found with
  | .ok bootloader => return bootloader
  | .error lastError =>
    let lastError ← waitHint allowQemuTopologyChange UsbTopology.bootloaderTargets topology
      "CUL868 DFU bootloader" lastError
    .raise (.flashError
      s!"CUL868 DFU bootloader 03eb:2ff4 did not appear on USB path {topology}: {lastError}")

/-- The lookups in front of the fallback, which share one handler. -/
def applicationOnPath (topology : String) : Program (Option UsbTarget × Option Path) := do
  let application ← UsbTopology.applicationForTopology topology
  let device ← UsbTopology.ttyForTopology topology
  return (application, device)

def reenumeratedApplication (expectedUsbSerial : Option String)
    (allowDescriptorSerialChange : Bool) : Program (Option (UsbTarget × Path) × String) := do
  let reenumerated ← singleReenumeratedTarget UsbTopology.applicationTargets expectedUsbSerial
    "CUL868 application" allowDescriptorSerialChange
  match reenumerated with
  | none => return (none, "CUL application has not appeared")
  | some application =>
    let device ← (UsbTopology.ttyForTopology application.topology).catching Exn.isUsbTopologyError
    match device with
    | .error err => return (none, err.message)
    | .ok none => return (none, "CUL application serial device has not appeared")
    | .ok (some device) => return (some (application, device), "")

def findApplication (topology : String) (expectedUsbSerial : Option String)
    (allowQemuTopologyChange allowDescriptorSerialChange : Bool) :
    Program (Option (UsbTarget × Path) × String) := do
  let found ← (applicationOnPath topology).catching Exn.isUsbTopologyError
  match found with
  | .error err => return (none, err.message)
  | .ok (some application, some device) =>
    .ofExcept (requireExpectedUsbSerial application expectedUsbSerial
      "CUL868 application on the selected USB path" allowDescriptorSerialChange)
    return (some (application, device), "")
  | .ok _ =>
    if allowQemuTopologyChange then
      reenumeratedApplication expectedUsbSerial allowDescriptorSerialChange
    else return (none, "CUL application has not appeared")

/-- Own one short serial session and return its validated version line. -/
def readVersionOnce (device : Path) (baudrate : ℕ) : Program String :=
  CulSerial.session device baudrate CulSerial.version

/-- The end of a pass that found nothing: sleep, but not past the deadline. -/
def sleepUntil (deadline : ℚ) : Program Unit := do
  let now ← monotonic
  if 0 < deadline - now then sleep (min versionRetrySeconds (deadline - now))

def waitForApplicationVersionStep (topology : String) (expectedUsbSerial : Option String)
    (deadline : ℚ) (baudrate : ℕ) (allowQemuTopologyChange allowDescriptorSerialChange : Bool)
    (lastError : String) : Program (String ⊕ Except String (UsbTarget × Path × String)) := do
  let now ← monotonic
  if now < deadline then
    let (target, lastError) ← findApplication topology expectedUsbSerial allowQemuTopologyChange
      allowDescriptorSerialChange
    match target with
    | none =>
      sleepUntil deadline
      return .inl lastError
    | some (application, device) =>
      let version ← (readVersionOnce device baudrate).attempt
      match version with
      | .ok version => return .inr (.ok (application, device, version))
      | .error err =>
        sleepUntil deadline
        return .inl err.message
  else return .inr (.error lastError)

def waitForApplicationVersion (topology : String) (expectedUsbSerial : Option String)
    (timeout : ℚ) (baudrate : ℕ) (allowQemuTopologyChange allowDescriptorSerialChange : Bool) :
    Program (UsbTarget × Path × String) := do
  let start ← monotonic
  let found ← .loop (waitForApplicationVersionStep topology expectedUsbSerial (start + timeout)
    baudrate allowQemuTopologyChange allowDescriptorSerialChange) fuel
    "CUL application has not appeared"
  match found with
  | .ok verified => return verified
  | .error lastError =>
    let lastError ← waitHint allowQemuTopologyChange UsbTopology.applicationTargets topology
      "CUL868 application" lastError
    .raise (.flashError ("CUL868 application did not provide a valid V response within " ++
      s!"the {truncate timeout}-second post-DFU timeout: {lastError}"))

/-- A lookup whose `UsbTopologyError` is reported as a `FlashError`. -/
def orFlashError (lookup : Program α) (message : Exn → String) : Program α := do
  let found ← lookup.catching Exn.isUsbTopologyError
  match found with
  | .ok result => return result
  | .error err => .raise (.flashError (message err))

def targetChanged : Exn := .flashError
  "configured CUL USB target changed after validation; validate the target again before flashing"

/-- Bind the configured alias to one current concrete TTY. -/
def configuredApplicationEndpoint (expected : Option UsbTarget) : Program (UsbTarget × Path) := do
  let configured ← orFlashError (UsbTopology.configuredApplication settings.device)
    fun err => s!"configured CUL application is unavailable: {err}"
  if expected.any fun e => !sameApplicationIdentity e configured then .raise targetChanged
  else
    let device ← orFlashError (UsbTopology.ttyForTopology configured.topology)
      fun err => s!"could not resolve the verified CUL serial endpoint: {err}"
    match device with
    | none => .raise (.flashError
        "the verified CUL serial endpoint disappeared before it could be opened")
    | some device =>
      let direct ← orFlashError (UsbTopology.configuredApplication device)
        fun err => s!"could not revalidate the verified CUL serial endpoint: {err}"
      if !sameApplicationIdentity configured direct then
        .raise (.flashError "the verified CUL serial endpoint changed before it could be opened")
      else if expected.any fun e => !sameApplicationIdentity e direct then .raise targetChanged
      else return (direct, device)

def settleAfterUsbChange (target : String) : Program Unit :=
  if settings.qemuUsbReenumerationWorkaround then do
    report (if target = "USB DFU bootloader" then 25 else 84)
      s!"Waiting for {target} USB re-enumeration."
    sleep qemuSettleSeconds
  else return ()

end Flasher
end Cul868Flasher
