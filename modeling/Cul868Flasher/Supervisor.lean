import Cul868Flasher.World
import Mathlib.Data.List.Dedup

/-!
# The Supervisor client

Requests, consumer discovery and the pause of the consumers around a flash. The
pause object is changed by the code it surrounds, so that code takes it as a
state, which its exceptions carry too.
-/

namespace Cul868Flasher
open Python Effects

def maxResponseBytes : ℕ := 256 * 1024
def stateTimeoutSeconds : ℚ := 30
def restoreAttempts : ℕ := 3

/-- `sorted(set(values))`. -/
def sortedSet (values : List String) : List String := values.dedup.insertionSort (· ≤ ·)

structure CulConsumerPause where
  wmbusmetersAddons : List String
  max2mqttAddons : List String
  additionalAddons : List String
  restoreAfterError : Bool
  leaveStoppedReason : String
  retained : List String
  deriving DecidableEq

namespace CulConsumerPause

def make (wmbusmetersAddons max2mqttAddons additionalAddons : List String) : CulConsumerPause :=
  ⟨wmbusmetersAddons, max2mqttAddons, additionalAddons, true, "the CUL firmware did not verify", []⟩

def addons (p : CulConsumerPause) : List String :=
  sortedSet (p.wmbusmetersAddons ++ p.max2mqttAddons ++ p.additionalAddons)

def leaveStoppedAfterError (p : CulConsumerPause) : CulConsumerPause :=
  { p with restoreAfterError := false, leaveStoppedReason := "the CUL firmware did not verify" }

def retainAddons (p : CulConsumerPause) (addons : List String) : CulConsumerPause :=
  { p with retained := p.retained ++ addons.filter (p.addons.contains ·) }

def addonsToRestore (p : CulConsumerPause) : List String :=
  p.addons.filter fun slug => !p.retained.contains slug

def retainedAddons (p : CulConsumerPause) : List String := sortedSet p.retained

@[simp] theorem leaveStoppedAfterError_addons (p : CulConsumerPause) :
    p.leaveStoppedAfterError.addons = p.addons := rfl

@[simp] theorem leaveStoppedAfterError_restoreAfterError (p : CulConsumerPause) :
    p.leaveStoppedAfterError.restoreAfterError = false := rfl

@[simp] theorem leaveStoppedAfterError_retained (p : CulConsumerPause) :
    p.leaveStoppedAfterError.retained = p.retained := rfl

@[simp] theorem retainAddons_addons (p : CulConsumerPause) (addons : List String) :
    (p.retainAddons addons).addons = p.addons := rfl

end CulConsumerPause

namespace SupervisorClient

def isAddonSlug (value : String) : Bool :=
  1 ≤ value.length && value.length ≤ 128 && value ≠ "self" &&
    value.toList.all "abcdefghijklmnopqrstuvwxyz0123456789_-".toList.contains

def hasSuffix (value suffix : String) : Bool := suffix.toList.isSuffixOf value.toList

def isWmbusmetersSlug (value : String) : Bool :=
  let lowered := value.toLower
  ["wmbusmeters", "wmbusmeters-ha-addon", "wmbusmeters-ha-addon-edge"].contains lowered ||
    ["_wmbusmeters", "_wmbusmeters-ha-addon", "_wmbusmeters-ha-addon-edge"].any (hasSuffix lowered)

def isMax2mqttSlug (value : String) : Bool :=
  let lowered := value.toLower
  lowered = "max2mqtt" || hasSuffix lowered "_max2mqtt"

/-- What a response means to the caller of `request`. -/
def responseFields (method : HttpMethod) (path : String) :
    HttpOutcome → Except Exn (List (String × Json))
  | .httpError code detail => .error (.supervisorError (
      s!"Supervisor request {method.text} {path} failed: HTTP {code}: " ++
        String.ofList (detail.toList.take 512)))
  | .urlError reason => .error (.supervisorError
      s!"Supervisor request {method.text} {path} failed: {reason}")
  | .osError message => .error (.supervisorError
      s!"Supervisor request {method.text} {path} failed: {message}")
  | .raised e => .error e
  | .response size document =>
    if maxResponseBytes < size then
      .error (.supervisorError s!"Supervisor response to {method.text} {path} was too large")
    else match document with
      | none => .error (.supervisorError
          s!"Supervisor returned invalid JSON for {method.text} {path}")
      | some (.obj fields) =>
        match Json.get fields "result" with
        | .str "ok" => .ok fields
        | _ => .error (.supervisorError s!"Supervisor rejected {method.text} {path}")
      | some _ => .error (.supervisorError
          s!"Supervisor returned an invalid response for {method.text} {path}")

def request (method : HttpMethod) (path : String) : Program (List (String × Json)) := do
  let outcome : HttpOutcome ← perform (.request method path)
  .ofExcept (responseFields method path outcome)

def quoteSlug (slug : String) : Except Exn String :=
  if isAddonSlug slug then .ok slug
  else .error (.supervisorError "refusing to control an add-on with an invalid slug")

def addonPath (slug : String) : Except Exn String :=
  if slug = "self" then .ok "self" else quoteSlug slug

def requireMapping (value : Json) (label : String) : Except Exn (List (String × Json)) :=
  match value with
  | .obj fields => .ok fields
  | _ => .error (.supervisorError s!"Supervisor returned invalid {label} data")

def addonInfo (slug : String) : Program (List (String × Json)) := do
  let path ← .ofExcept (addonPath slug)
  let document ← request .get s!"/addons/{path}/info"
  .ofExcept (requireMapping (Json.get document "data") s!"add-on {slug}")

def addonState (slug : String) : Program String := do
  let data ← addonInfo slug
  match Json.get data "state" with
  | .str state =>
    if ["started", "stopped", "error"].contains state then return state
    else .raise (.supervisorError s!"Supervisor returned an invalid state for {slug}")
  | _ => .raise (.supervisorError s!"Supervisor returned an invalid state for {slug}")

def stopAddon (slug : String) : Program Unit := do
  let path ← .ofExcept (quoteSlug slug)
  let _ ← request .post s!"/addons/{path}/stop"

def startAddon (slug : String) : Program Unit := do
  let path ← .ofExcept (quoteSlug slug)
  let _ ← request .post s!"/addons/{path}/start"

/-! ## Consumer discovery -/

/-- `Path.resolve(strict=True)`. -/
def resolvePath (path : Path) : Program Path := do
  let answer : Except Exn Path ← perform (.resolvePath path)
  .ofExcept answer

def sameNode (candidate selectedDevice : Path) : Program Bool := do
  let left ← resolvePath candidate
  let right ← resolvePath selectedDevice
  return left = right

/-- A path without a node is no match; any other exception is let through. -/
def resolvesTo (candidate selectedDevice : Path) : Program Bool := do
  let same ← (sameNode candidate selectedDevice).catching Exn.isOSError
  match same with
  | .ok same => return same
  | .error _ => return false

def sameDevicePath (candidate : String) (selectedDevice : Path) : Program Bool :=
  if candidate = "" ∨ 512 < candidate.length ∨ '\x00' ∈ candidate.toList then return false
  else if !isDevicePath candidate then return false
  else if Path.ofString candidate = selectedDevice then return true
  else resolvesTo (.ofString candidate) selectedDevice

def specificationEndpoint (specification : String) : List Char :=
  let value := strip specification.toList
  let value := if '=' ∈ value then strip ((value.dropWhile (· ≠ '=')).drop 1) else value
  strip (value.takeWhile (· ≠ ':'))

def wmbusmetersDeviceSpecUsesDevice (specification : String) (selectedDevice : Path) :
    Program Bool :=
  if strip specification.toList = [] then return false
  else
    let endpoint := String.ofList (specificationEndpoint specification)
    if ["auto", "cul"].contains endpoint.toLower then return true
    else sameDevicePath endpoint selectedDevice

/-- Python's `any` over a generator. -/
def anySpecification (selectedDevice : Path) : List String → Program Bool
  | [] => return false
  | specification :: rest => do
    let used ← wmbusmetersDeviceSpecUsesDevice specification selectedDevice
    if used then return true else anySpecification selectedDevice rest

def wmbusmetersUsesDevice (options : Json) (selectedDevice : Path) : Program Bool :=
  match options with
  | .obj fields =>
    let deviceValue := match Json.get fields "conf" with
      | .obj configuration => Json.get configuration "device"
      | _ => Json.get fields "device"
    match deviceValue with
    | .str value =>
      if 4096 < value.length then return false
      else anySpecification selectedDevice ((value.toList.splitOn ';').map String.ofList)
    | _ => return false
  | _ => return false

def max2mqttUsesDevice (options : Json) (selectedDevice : Path) : Program Bool :=
  match options with
  | .obj fields =>
    match Json.get fields "serial_port" with
    | .str serialPort => sameDevicePath serialPort selectedDevice
    | _ => return false
  | _ => return false

/-- The three lists that the loop over the add-ons fills. -/
structure Discovered where
  wmbusmeters : List String
  max2mqtt : List String
  optedIn : List String

def isStarted (fields : List (String × Json)) : Bool :=
  match Json.get fields "state" with
  | .str state => state = "started"
  | _ => false

/-- An automatically recognized consumer that is running on the device. -/
def startedOnDevice (slug : String) (usesDevice : Json → Program Bool) : Program Bool := do
  let info ← addonInfo slug
  if isStarted info then usesDevice (Json.get info "options") else return false

def discoverAddon (device : Path) (additional : List String) (found : Discovered)
    (addon : Json) : Program Discovered :=
  match addon with
  | .obj fields =>
    match Json.get fields "slug" with
    | .str slug =>
      if additional.contains slug then
        return if isStarted fields then { found with optedIn := found.optedIn ++ [slug] } else found
      else if isWmbusmetersSlug slug then do
        let used ← startedOnDevice slug (wmbusmetersUsesDevice · device)
        return if used then { found with wmbusmeters := found.wmbusmeters ++ [slug] } else found
      else if isMax2mqttSlug slug then do
        let used ← startedOnDevice slug (max2mqttUsesDevice · device)
        return if used then { found with max2mqtt := found.max2mqtt ++ [slug] } else found
      else return found
    | _ => return found
  | _ => return found

def discoverAddons (device : Path) (additional : List String) :
    Discovered → List Json → Program Discovered
  | found, [] => return found
  | found, addon :: rest => do
    let found ← discoverAddon device additional found addon
    discoverAddons device additional found rest

def runningCulConsumersUsingDevice (device : Path) (additionalCulAddons : List String) :
    Program CulConsumerPause := do
  let document ← request .get "/addons"
  let data ← .ofExcept (requireMapping (Json.get document "data") "add-on list")
  match Json.get data "addons" with
  | .arr addons =>
    let found ← discoverAddons device (additionalCulAddons.filter isAddonSlug) ⟨[], [], []⟩ addons
    return .make (sortedSet found.wmbusmeters) (sortedSet found.max2mqtt) (sortedSet found.optedIn)
  | _ => .raise (.supervisorError "Supervisor returned an invalid add-on list")

def requireTtyPath (value : Path) : Except Exn Unit :=
  if !value.isAbsolute || value.parent ≠ devDirectory || !isTtyName value.name ||
      value.parts.contains ".." then
    .error (.supervisorError
      "refusing to inspect a serial path outside /dev/ttyACM* or /dev/ttyUSB*")
  else .ok ()

def serialByIdPath (value : Json) : Option Path :=
  match value with
  | .str text =>
    if text = "" ∨ 512 < text.length ∨ '\x00' ∈ text.toList then none
    else
      let path := Path.ofString text
      if path.parent ≠ byIdDirectory ∨ path.name = "" ∨ path.name = "." ∨ path.name = ".." then none
      else some path
  | _ => none

/-- The alias one entry of the hardware inventory gives for the endpoint. -/
def entryAlias (device : Path) (entry : Json) : Option Path :=
  match entry with
  | .obj fields =>
    match Json.get fields "dev_path" with
    | .str devPath =>
      if devPath = toString device then serialByIdPath (Json.get fields "by_id") else none
    | _ => none
  | _ => none

def hardwareSerialByIdPathsForTty (device : Path) : Program (List Path) := do
  .ofExcept (requireTtyPath device)
  let document ← request .get "/hardware/info"
  let data ← .ofExcept (requireMapping (Json.get document "data") "hardware")
  match Json.get data "devices" with
  | .arr devices =>
    return ((devices.filterMap (entryAlias device)).dedup).insertionSort
      fun a b => toString a ≤ toString b
  | _ => .raise (.supervisorError "Supervisor returned invalid hardware devices data")

/-! ## The pause -/

variable (fuel : ℕ)

/-- The last state seen is the state of the loop. -/
def waitForStateStep (slug expected : String) (deadline : ℚ) (lastState : String) :
    Program (String ⊕ Unit) := do
  let now ← monotonic
  if now < deadline then
    let state ← addonState slug
    if state = expected ∨ expected = "stopped" ∧ ["stopped", "error"].contains state then
      return .inr ()
    else
      sleep (1 / 2)
      return .inl state
  else .raise (.supervisorError
    s!"{slug} did not reach {expected} state before the timeout (last state: {lastState})")

def waitForState (slug expected : String) : Program Unit := do
  let start ← monotonic
  .loop (waitForStateStep slug expected (start + stateTimeoutSeconds)) fuel "unknown"

/-- One attempt of the restore loop. -/
def restoreAttempt (slug : String) : Program Unit := do
  let state ← addonState slug
  if state ≠ "started" then startAddon slug
  waitForState fuel slug "started"

def restoreAddon (slug : String) : Program (List String) := do
  let (restored, _) ← Prog.retry (fun attempt => sleep attempt)
    (fun _ => do return (← (restoreAttempt fuel slug).catching Exn.isSupervisorError, ()))
    (restoreAttempts - 1) 1 ()
  match restored with
  | .ok _ => return []
  | .error e => return [s!"{slug}: {e.message}"]

def restoreAddons : List String → Program (List String)
  | [] => return []
  | slug :: rest => do
    let failures ← restoreAddon fuel slug
    let more ← restoreAddons rest
    return failures ++ more

def restore (slugs : List String) : Program (List String) := restoreAddons fuel slugs.reverse

def addRestoreNote (e : Exn) (failures : List String) : Exn :=
  if failures = [] then e
  else e.addNote
    ("CUL consumer add-ons could not be restored: " ++ String.intercalate "; " failures)

/-- The loop over the consumers to stop; `stopped` is its bookkeeping list. -/
def stopAddons : List String → List String → Prog World (Exn × List String) (List String)
  | stopped, [] => return stopped
  | stopped, slug :: rest => do
    (stopAddon slug).raisingWith stopped
    (waitForState fuel slug "stopped").raisingWith (stopped ++ [slug])
    stopAddons (stopped ++ [slug]) rest

def stopConsumers (matched : CulConsumerPause) : Program (List String) := do
  let result ← (stopAddons fuel [] matched.addons).attempt
  match result with
  | .ok stopped => return stopped
  | .error (e, stopped) => do
    let failures ← restore fuel stopped
    .raise (addRestoreNote e failures)

def pauseOf (matched : CulConsumerPause) (stopped : List String) : CulConsumerPause :=
  .make (matched.wmbusmetersAddons.filter stopped.contains)
    (matched.max2mqttAddons.filter stopped.contains)
    (matched.additionalAddons.filter stopped.contains)

/-- The first part of the context manager, up to its `yield`. -/
def pauseConsumers (device : Path) (additionalCulAddons : List String) :
    Program (CulConsumerPause × List String) := do
  let matched ← runningCulConsumersUsingDevice device additionalCulAddons
  let stopped ← stopConsumers fuel matched
  return (pauseOf matched stopped, stopped)

/-- The part after the `yield`, for both ways the block can end. -/
def resumeConsumers (stopped : List String) :
    Except (Exn × CulConsumerPause) (α × CulConsumerPause) → Program (α × CulConsumerPause)
  | .error (e, pause) =>
    if pause.restoreAfterError then do
      let failures ← restore fuel pause.addonsToRestore
      .raise (addRestoreNote e failures)
    else if stopped ≠ [] then
      .raise
        (e.addNote ("CUL consumer add-ons remain stopped because " ++ pause.leaveStoppedReason))
    else .raise e
  | .ok (result, pause) => do
    let failures ← restore fuel pause.addonsToRestore
    if failures ≠ [] then
      .raise (.supervisorError
        ("could not restore CUL consumer add-ons: " ++ String.intercalate "; " failures))
    else return (result, pause)

def temporarilyStopCulConsumers (device : Path) (additionalCulAddons : List String)
    (block : CulConsumerPause → Prog World (Exn × CulConsumerPause) (α × CulConsumerPause)) :
    Program (α × CulConsumerPause) := do
  let (pause, stopped) ← pauseConsumers fuel device additionalCulAddons
  let result ← (block pause).attempt
  resumeConsumers fuel stopped result

end SupervisorClient
end Cul868Flasher
