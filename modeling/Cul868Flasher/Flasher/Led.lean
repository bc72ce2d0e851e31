import Cul868Flasher.Flasher.Flash

/-!
# The LED command

`setLed` takes the same exclusive route to the serial device as `flash`. Its
retry loop stops for good once the command may have been written.
-/

namespace Cul868Flasher
open Python Effects

structure LedResult where
  mode : LedMode
  version : String
  deriving DecidableEq

def LedMode.text : LedMode → String
  | .off => "off"
  | .on => "on"
  | .blink => "blink"

def LedResult.message (r : LedResult) : String :=
  s!"CUL LED mode {r.mode.text} was sent after V verification."

namespace Flasher

def contains (text part : String) : Bool := text.toList.tails.any part.toList.isPrefixOf

def supportsCulLedControl (version : String) : Bool :=
  ("V ".toList.isPrefixOf version.toList || "VTS ".toList.isPrefixOf version.toList) &&
    contains version "CUL868"

/-- The `try` block of one attempt; its state tells whether the LED command may
have been sent. -/
def setLedAttempt (device : Path) (baudrate : ℕ) (mode : LedMode) :
    Prog World (Exn × Bool) (String × Bool) :=
  CulSerial.sessionWith false device baudrate do
    let version ← CulSerial.version.raisingWith false
    if !supportsCulLedControl version then
      .raise (.flashError "detected CUL firmware does not expose the supported LED command", false)
    else
      (CulSerial.setLed mode).raisingWith true
      return (version, true)

def setLedPass (device : Path) (baudrate : ℕ) (mode : LedMode) : Program (Except Exn String) := do
  let result ← (setLedAttempt device baudrate mode).attempt
  match result with
  | .ok (version, _) => return .ok version
  | .error (err, ledCommandStarted) =>
    if err.isFlashError then .raise err
    else if ledCommandStarted then
      .raise (.flashError s!"CUL LED command may have been sent and will not be retried: {err}")
    else return .error err

def setLedAfterVerification (device : Path) (baudrate : ℕ) (mode : LedMode) : Program String := do
  let (result, _) ← .retry (fun _ => sleep versionRetrySeconds)
    (fun _ => do return (← setLedPass device baudrate mode, ())) (versionReadAttempts - 1) 1 ()
  match result with
  | .ok version => return version
  | .error err => .raise (.flashError (
      "CUL868 did not provide a valid V response before the LED command " ++
        s!"after {versionReadAttempts} attempts: {err}"))

variable (fuel : ℕ) (settings : Settings)

def pausedNames (pause : CulConsumerPause) : String :=
  if String.intercalate ", " pause.addons = "" then "no matching CUL consumer apps"
  else String.intercalate ", " pause.addons

/-- The command with its failure reported under the endpoint and the paused apps. -/
def setLedOn (device : Path) (mode : LedMode) (pause : CulConsumerPause) : Program String := do
  let result ← (setLedAfterVerification device settings.baudrate mode).catching Exn.isFlashError
  match result with
  | .ok version => return version
  | .error err => .raise (.flashError (
      s!"could not set CUL LED on {device} at {settings.baudrate} baud " ++
        s!"after pausing {pausedNames pause}: {err}"))

def setLedPaused (mode : LedMode) (pause : CulConsumerPause) :
    Paused (String × CulConsumerPause) := do
  let (application, device) ← (configuredApplicationEndpoint settings none).raisingWith pause
  let version ← (setLedOn settings device mode pause).raisingWith pause
  (DeviceStateStore.save (verifiedApplication settings application version)).raisingWith pause
  return (version, pause)

def setLedBody (mode : LedMode) : Program LedResult := do
  let _ ← configuredApplicationEndpoint settings none
  let (version, _) ← SupervisorClient.temporarilyStopCulConsumers fuel settings.device
    settings.additionalCulAddons (setLedPaused settings mode)
  return ⟨mode, version⟩

def setLed (mode : LedMode) : Program LedResult := do
  let result ← (setLedBody fuel settings mode).attempt
  match result with
  | .ok result => return result
  | .error err =>
    if err.isFlashError then .raise err
    else .raise (.flashError s!"could not set the CUL LED: {err}")

end Flasher
end Cul868Flasher
