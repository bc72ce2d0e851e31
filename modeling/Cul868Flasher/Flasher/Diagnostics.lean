import Cul868Flasher.Flasher.Led

/-!
# Verification and diagnostics

`verifyRunningApplication` and `diagnostics` take the same exclusive route to
the serial device as `setLed`: the endpoint is bound once before the consumers
are paused and once again after.
-/

namespace Cul868Flasher
open Python Effects

namespace CulSerial

def uptimeTicks : Program ℕ := do
  let answer : Except Exn ℕ ← perform .uptimeTicks
  .ofExcept answer

def mbusMode : Program String := do
  let answer : Except Exn String ← perform .mbusMode
  .ofExcept answer

end CulSerial

/-- What the second session of `diagnostics` has read, with the error of each
query that the firmware does not support. -/
structure Telemetry where
  uptimeTicks : Option ℕ
  uptimeStatusError : Option String
  mbusMode : Option String
  mbusStatusError : Option String

structure DiagnosticsResult where
  version : String
  telemetry : Telemetry

def DiagnosticsResult.uptimeSeconds (r : DiagnosticsResult) : Option ℕ :=
  r.telemetry.uptimeTicks.map (· / 125)

namespace Flasher

def readVersion (device : Path) (baudrate : ℕ) : Program String := do
  let (result, _) ← .retry (fun _ => sleep versionRetrySeconds)
    (fun _ => do return (← (readVersionOnce device baudrate).attempt, ()))
    (versionReadAttempts - 1) 1 ()
  match result with
  | .ok version => return version
  | .error err => .raise (.flashError
      s!"CUL868 did not provide a valid V response after {versionReadAttempts} attempts: {err}")

/-- A query whose failure is a result. -/
def optionalQuery (query : Program α) : Program (Option α × Option String) := do
  let result ← query.attempt
  match result with
  | .ok a => return (some a, none)
  | .error err => return (none, some (String.ofList (err.message.toList.take 256)))

def readTelemetry (device : Path) (baudrate : ℕ) : Program Telemetry :=
  CulSerial.session device baudrate do
    let (uptimeTicks, uptimeStatusError) ← optionalQuery CulSerial.uptimeTicks
    let (mbusMode, mbusStatusError) ← optionalQuery CulSerial.mbusMode
    return ⟨uptimeTicks, uptimeStatusError, mbusMode, mbusStatusError⟩

variable (fuel : ℕ) (settings : Settings)

/-! ## Verification -/

def verifyPaused (pause : CulConsumerPause) : Paused (String × CulConsumerPause) := do
  let (application, device) ← (configuredApplicationEndpoint settings none).raisingWith pause
  let version ← (readVersion device settings.baudrate).raisingWith pause
  (DeviceStateStore.save (verifiedApplication settings application version)).raisingWith pause
  return (version, pause)

def verifyBody : Program String := do
  let _ ← configuredApplicationEndpoint settings none
  let (version, _) ← SupervisorClient.temporarilyStopCulConsumers fuel settings.device
    settings.additionalCulAddons (verifyPaused settings)
  return version

def verifyRunningApplication : Program String := do
  let result ← (verifyBody fuel settings).attempt
  match result with
  | .ok version => return version
  | .error err =>
    if err.isFlashError then .raise err
    else .raise (.flashError s!"could not verify the running CUL868 firmware: {err}")

/-! ## Diagnostics -/

/-- The version with its failure reported under the endpoint and the paused apps. -/
def readVersionOn (device : Path) (pause : CulConsumerPause) : Program String := do
  let result ← (readVersion device settings.baudrate).catching Exn.isFlashError
  match result with
  | .ok version => return version
  | .error err => .raise (.flashError (
      s!"could not read CUL diagnostics from {device} at {settings.baudrate} baud " ++
        s!"after pausing {pausedNames pause}: {err}"))

def diagnosticsPaused (pause : CulConsumerPause) :
    Paused (DiagnosticsResult × CulConsumerPause) := do
  let (application, device) ← (configuredApplicationEndpoint settings none).raisingWith pause
  let version ← (readVersionOn settings device pause).raisingWith pause
  let telemetry ← (readTelemetry device settings.baudrate).raisingWith pause
  (DeviceStateStore.save (verifiedApplication settings application version)).raisingWith pause
  return (⟨version, telemetry⟩, pause)

def diagnosticsBody : Program DiagnosticsResult := do
  let _ ← configuredApplicationEndpoint settings none
  let (result, _) ← SupervisorClient.temporarilyStopCulConsumers fuel settings.device
    settings.additionalCulAddons (diagnosticsPaused settings)
  return result

def diagnostics : Program DiagnosticsResult := do
  let result ← (diagnosticsBody fuel settings).attempt
  match result with
  | .ok result => return result
  | .error err =>
    if err.isFlashError then .raise err
    else .raise (.flashError s!"could not read CUL diagnostics: {err}")

end Flasher
end Cul868Flasher
