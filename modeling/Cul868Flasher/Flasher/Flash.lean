import Cul868Flasher.Flasher.Plan

/-!
# The flash transaction

`flash` revalidates the image, plans, pauses the consumers and runs the four
parts of the transaction: select a bootloader, program it, verify the
application, record it. The pause is the state the parts share.
-/

namespace Cul868Flasher
open Python Effects

/-- A program of the paused section. -/
abbrev Paused (α : Type) := Prog World (Exn × CulConsumerPause) α

structure SerialPathMigration where
  previous : String
  current : Option String
  applicationEndpoint : String
  reason : Option String
  deriving DecidableEq

structure FlashResult where
  previousVersion : Option String
  installedVersion : String
  topology : String
  pausedWmbusmetersAddons : List String
  pausedMax2mqttAddons : List String
  pausedAdditionalCulAddons : List String
  stoppedCulAddons : List String
  manualSerialPathMigration : Option SerialPathMigration
  device : String
  firmwareSha256 : String
  firmwareBytes : ℕ
  deriving DecidableEq

namespace Flasher

variable (fuel : ℕ) (settings : Settings)

/-! ## The recovery record -/

def observedBootloader (bootloader : UsbTarget) (topology : String) : KnownDevice where
  topology := topology
  usbSerial := bootloader.usbSerial
  version := none
  configuredDevice := some (toString settings.device)
  recoveryBinding := .observedBootloader
  handoffDeadline := none

def storeObservedBootloader (bootloader : UsbTarget) (topology : String) : Program Unit :=
  DeviceStateStore.save (observedBootloader settings bootloader topology)

/-- The best known descriptor identity while a firmware state is unknown. -/
def transitionUsbSerial (plan : FlashPlan) : Option String :=
  match plan.application with
  | some application => application.usbSerial
  | none =>
    match plan.bootloader with
    | some bootloader => bootloader.usbSerial
    | none =>
      match plan.known with
      | some known => known.usbSerial
      | none => none

def handoffPending (plan : FlashPlan) (now : ℚ) : KnownDevice where
  topology := plan.topology
  usbSerial := transitionUsbSerial plan
  version := none
  configuredDevice := some (toString settings.device)
  recoveryBinding := .handoffPending
  handoffDeadline := some (truncate now + postDfuTimeout settings)

def storeHandoffPending (plan : FlashPlan) : Program Unit := do
  let now ← time
  DeviceStateStore.save (handoffPending settings plan now)

def verifiedApplication (application : UsbTarget) (version : String) : KnownDevice where
  topology := application.topology
  usbSerial := application.usbSerial
  version := some version
  configuredDevice := some (toString settings.device)
  recoveryBinding := .verifiedApplication
  handoffDeadline := none

/-! ## From the application to the bootloader -/

/-- The `try` block of one attempt. Its state is the pause and the flag that
tells whether `B01` may have been sent. -/
def handoffAttempt (plan : FlashPlan) (application : UsbTarget) (pause : CulConsumerPause) :
    Prog World (Exn × CulConsumerPause × Bool) (String × CulConsumerPause × Bool) := do
  let (_, device) ← (configuredApplicationEndpoint settings (some application)).raisingWith
    (pause, false)
  CulSerial.sessionWith (pause, false) device settings.baudrate do
    let before ← CulSerial.version.raisingWith (pause, false)
    (report 20 "Requesting the verified CUL868 application to enter USB DFU mode.").raisingWith
      (pause, false)
    (storeHandoffPending settings plan).raisingWith (pause, false)
    CulSerial.enterBootloader.raisingWith (pause.leaveStoppedAfterError, true)
    return (before, pause.leaveStoppedAfterError, true)

/-- One pass of the loop over the attempts. An error before `B01` is a result. -/
def handoffPass (plan : FlashPlan) (application : UsbTarget) (pause : CulConsumerPause) :
    Paused (Except Exn String × CulConsumerPause) := do
  let result ← (handoffAttempt settings plan application pause).attempt
  match result with
  | .ok (before, pause, _) => return (.ok before, pause)
  | .error (err, pause, bootloaderRequested) =>
    if bootloaderRequested then
      .raise (.flashError s!"could not complete the CUL bootloader handoff: {err}", pause)
    else return (.error err, pause)

def enterBootloader (plan : FlashPlan) (pause : CulConsumerPause) :
    Paused (String × CulConsumerPause) :=
  match plan.application with
  | none => .raise (.flashError "internal error: application flash plan has no USB target", pause)
  | some application => do
    (report 10 "Verifying that the selected USB serial device is a CUL868.").raisingWith pause
    let (result, pause) ← .retry (fun _ => sleep versionRetrySeconds)
      (handoffPass settings plan application) (versionReadAttempts - 1) 1 pause
    match result with
    | .ok before => return (before, pause)
    | .error err => .raise (.flashError (
        s!"could not verify the selected CUL868 after {versionReadAttempts} attempts: {err}"),
          pause)

/-- What the first part of the transaction hands to the others. -/
structure Selection where
  bootloader : UsbTarget
  before : Option String
  expectedApplicationSerial : Option String

def selectFromApplication (plan : FlashPlan) (application : UsbTarget)
    (pause : CulConsumerPause) : Paused (Selection × CulConsumerPause) := do
  let (before, pause) ← enterBootloader settings plan pause
  (settleAfterUsbChange settings "USB DFU bootloader").raisingWith pause
  let bootloader ← (waitForBootloader fuel settings plan.topology application.usbSerial
    (some (postDfuTimeout settings)) settings.qemuUsbReenumerationWorkaround true).raisingWith pause
  return (⟨bootloader, some before, application.usbSerial⟩, pause)

def selectFromRecovery (plan : FlashPlan) (pause : CulConsumerPause) :
    Paused (Selection × CulConsumerPause) := do
  (report 15 (if plan.manualRecovery.isSome then
      "Using the explicitly confirmed CUL868 USB DFU bootloader."
    else "Using the saved CUL868 USB path in DFU recovery mode.")).raisingWith pause
  let pause := pause.leaveStoppedAfterError
  let bootloader ← (waitForBootloader fuel settings plan.topology
    (plan.bootloader.bind UsbTarget.usbSerial) none settings.qemuUsbReenumerationWorkaround
    false).raisingWith pause
  return (⟨bootloader, plan.known.bind KnownDevice.version, plan.known.bind KnownDevice.usbSerial⟩,
    pause)

def selectBootloader (plan : FlashPlan) (pause : CulConsumerPause) :
    Paused (Selection × CulConsumerPause) :=
  if plan.mode = .application then
    match plan.application with
    | none => .raise (.attributeError "'NoneType' object has no attribute 'usb_serial'", pause)
    | some application => selectFromApplication fuel settings plan application pause
  else selectFromRecovery fuel settings plan pause

/-! ## DFU commands -/

def dfuOutputCharacters : ℕ := 4 * 1024

/-- `transcript[-4096:]`. -/
def transcriptTail (transcript : String) : String :=
  String.ofList (transcript.toList.drop (transcript.length - dfuOutputCharacters))

def dfuResult (command : DfuCommand) : DfuOutcome → Except Exn Unit
  | .fileNotFound => .error (.flashError "dfu-programmer is not available in the add-on image")
  | .timeoutExpired =>
    .error (.dfuTransferError s!"dfu-programmer timed out while running {command.text}")
  | .osError message =>
    .error (.dfuTransferError s!"could not run dfu-programmer {command.text}: {message}")
  | .raised e => .error e
  | .completed returncode transcript =>
    if returncode ≠ 0 then
      let detail := if transcriptTail transcript = "" then "no diagnostic output"
        else transcriptTail transcript
      .error (.dfuTransferError s!"dfu-programmer {command.text} failed ({returncode}): {detail}")
    else .ok ()

def runDfu (topology : String) (expectedUsbSerial : Option String) (command : DfuCommand)
    (arguments : List String) : Program Unit := do
  let available : Bool ← perform .dfuAvailable
  if !available then .raise (.flashError "dfu-programmer is not available in the add-on image")
  else
    let bootloader ← waitForBootloader fuel settings topology expectedUsbSerial none false false
    let outcome : DfuOutcome ← perform (.dfu bootloader command arguments)
    .ofExcept (dfuResult command outcome)

/-- A start that fails in transport is kept, since the application may run all the same. -/
def startApplication (topology : String) (expectedUsbSerial : Option String) :
    Program (Option Exn) := do
  let started ← (runDfu fuel settings topology expectedUsbSerial .start []).catching
    Exn.isDfuTransferError
  match started with
  | .ok _ => return none
  | .error err => do
    report 82 "CUL DFU start reported an error; checking the application."
    return some err

/-- Report a device that has come back on another path. -/
def reportMoved (oldTopology newTopology : String) (percent : ℕ) (message : String) :
    Program Unit :=
  if newTopology ≠ oldTopology then report percent message else return ()

def programBootloader (plan : FlashPlan) (image : HexImage) (bootloader : UsbTarget) :
    Program (Option Exn) := do
  storeObservedBootloader settings bootloader bootloader.topology
  reportMoved plan.topology bootloader.topology 30
    s!"QEMU reattached the CUL DFU bootloader on guest USB path {bootloader.topology}."
  report 35 "Running the standard CUL DFU erase command."
  runDfu fuel settings bootloader.topology bootloader.usbSerial .erase []
  report 55 "Writing the validated firmware image."
  runDfu fuel settings bootloader.topology bootloader.usbSerial .flash [toString image.path]
  report 78 "Starting the new CUL868 firmware."
  let startError ← startApplication fuel settings bootloader.topology bootloader.usbSerial
  settleAfterUsbChange settings "CUL868 application"
  return startError

/-! ## The application after DFU -/

def awaitApplication (topology : String) (expectedApplicationSerial : Option String) :
    Program (UsbTarget × Path × String) := do
  report 90 "Waiting for the CUL868 application serial interface to become ready."
  let (application, device, after) ← waitForApplicationVersion fuel topology
    expectedApplicationSerial (postDfuTimeout settings) settings.baudrate
    settings.qemuUsbReenumerationWorkaround true
  reportMoved topology application.topology 88
    s!"QEMU reattached the CUL application on guest USB path {application.topology}."
  return (application, device, after)

def verifyApplication (topology : String) (expectedApplicationSerial : Option String)
    (startError : Option Exn) : Program (UsbTarget × Path × String) := do
  let result ← (awaitApplication fuel settings topology expectedApplicationSerial).catching
    Exn.isFlashError
  match result with
  | .ok verified => return verified
  | .error err =>
    match startError with
    | some startError => .raise (.flashError
        s!"{startError}; CUL did not verify the application after DFU: {err}")
    | none => .raise err

/-! ## The serial alias -/

/-- The two errors an alias lookup remembers, and whether waiting has been reported. -/
structure AliasWait where
  localError : Bool
  supervisorError : Bool
  waitingReported : Bool

/-- One pass over both sources of aliases. -/
def waitForSerialByIdAliasesStep (applicationDevice : Path) (deadline : ℚ) (s : AliasWait) :
    Program (AliasWait ⊕ List Path) := do
  let found ← (UsbTopology.byIdPathsForTty applicationDevice).catching Exn.isUsbTopologyError
  match found with
  | .ok (path :: paths) => return .inr (path :: paths)
  | found =>
    let localError := s.localError || !found.isOk
    let hardware ← (SupervisorClient.hardwareSerialByIdPathsForTty applicationDevice).catching
      Exn.isSupervisorError
    match hardware with
    | .ok (path :: paths) => return .inr (path :: paths)
    | hardware =>
      let supervisorError := s.supervisorError || !hardware.isOk
      let now ← monotonic
      if deadline - now ≤ 0 then
        if localError && supervisorError then
          .raise (.flashError ("CUL firmware verified, but its serial-by-id path could not be " ++
            "inspected locally or through Supervisor hardware inventory"))
        else return .inr []
      else
        if !s.waitingReported then
          report 93 "Waiting for the new CUL serial-by-id alias to become available."
        sleep (min 1 (deadline - now))
        return .inl ⟨localError, supervisorError, true⟩

def waitForSerialByIdAliases (applicationDevice : Path) : Program (List Path) := do
  let start ← monotonic
  .loop (waitForSerialByIdAliasesStep applicationDevice (start + 15)) fuel ⟨false, false, false⟩

/-- The aliases, and the reason why they could not be inspected. -/
def inspectAliases (applicationDevice : Path) : Program (List Path × Option String) := do
  let aliases ← (waitForSerialByIdAliases fuel applicationDevice).catching Exn.isFlashError
  match aliases with
  | .ok aliases => return (aliases, none)
  | .error err => return ([], some s!"the new alias could not be inspected: {err}")

def migrationReason (aliases : List Path) (reason : Option String) : Option String :=
  match aliases with
  | [_] => reason
  | [] => some (reason.getD
      "no /dev/serial/by-id alias points to the verified CUL serial endpoint")
  | _ => some (reason.getD
      "multiple /dev/serial/by-id aliases point to the verified CUL serial endpoint")

def migrationMessage (aliases : List Path) : String :=
  if aliases.length = 1 then
    "CUL firmware changed its serial-by-id name; update CUL app paths manually."
  else "CUL firmware changed its serial-by-id name; resolve the new CUL app paths manually."

def manualSerialByIdMigration (previous applicationDevice : Path) (pause : CulConsumerPause) :
    Paused (Option SerialPathMigration × CulConsumerPause) :=
  if previous.parent ≠ byIdDirectory then return (none, pause)
  else do
    let (aliases, reason) ← (inspectAliases fuel applicationDevice).raisingWith pause
    if previous ∈ aliases then return (none, pause)
    else
      (report 96 (migrationMessage aliases)).raisingWith pause
      return (some {
        previous := toString previous
        current := if aliases.length = 1 then aliases.head?.map toString else none
        applicationEndpoint := toString applicationDevice
        reason := migrationReason aliases reason }, pause.retainAddons pause.addons)

/-! ## The transaction -/

/-- What the paused section leaves for the result document. -/
structure Flashed where
  before : Option String
  after : String
  application : UsbTarget
  migration : Option SerialPathMigration

def recordApplication (before : Option String) (application : UsbTarget)
    (applicationDevice : Path) (after : String) (pause : CulConsumerPause) :
    Paused (Flashed × CulConsumerPause) := do
  (DeviceStateStore.save (verifiedApplication settings application after)).raisingWith pause
  let (migration, pause) ← manualSerialByIdMigration fuel settings.device applicationDevice pause
  return (⟨before, after, application, migration⟩, pause)

/-- The block of the `with` statement. -/
def flashPaused (plan : FlashPlan) (image : HexImage) (pause : CulConsumerPause) :
    Paused (Flashed × CulConsumerPause) := do
  let (selection, pause) ← selectBootloader fuel settings plan pause
  let startError ← (programBootloader fuel settings plan image selection.bootloader).raisingWith
    pause
  let (application, device, after) ← (verifyApplication fuel settings
    selection.bootloader.topology selection.expectedApplicationSerial startError).raisingWith pause
  recordApplication fuel settings selection.before application device after pause

/-- Everything before the consumers are touched. -/
def prepare (image : HexImage) (manualRecovery : Option ManualRecoveryTarget) :
    Program (HexImage × FlashPlan) := do
  let image ← revalidateImage image
  report 3 "Resolving the configured CUL868 USB target."
  let plan ← plan settings manualRecovery false
  return (image, plan)

def flashResult (image : HexImage) (flashed : Flashed) (pause : CulConsumerPause) :
    FlashResult where
  previousVersion := flashed.before
  installedVersion := flashed.after
  topology := flashed.application.topology
  pausedWmbusmetersAddons := pause.wmbusmetersAddons
  pausedMax2mqttAddons := pause.max2mqttAddons
  pausedAdditionalCulAddons := pause.additionalAddons
  stoppedCulAddons := pause.retainedAddons
  manualSerialPathMigration := flashed.migration
  device := toString settings.device
  firmwareSha256 := image.sha256
  firmwareBytes := image.dataBytes

/-- The transaction after planning. -/
def transact (image : HexImage) (plan : FlashPlan) : Program FlashResult := do
  let (flashed, pause) ← SupervisorClient.temporarilyStopCulConsumers fuel settings.device
    settings.additionalCulAddons (flashPaused fuel settings plan image)
  return flashResult settings image flashed pause

def flash (image : HexImage) (manualRecovery : Option ManualRecoveryTarget) :
    Program FlashResult := do
  let (image, plan) ← prepare settings image manualRecovery
  transact fuel settings image plan

end Flasher
end Cul868Flasher
