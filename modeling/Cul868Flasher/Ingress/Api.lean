import Cul868Flasher.Flasher.Diagnostics
import Cul868Flasher.Ingress.Controller
import Cul868Flasher.Ingress.Registry

/-!
# The Ingress API

`write_upload` and the methods of `IngressApi`. A request thread runs one of
them; the submission lock is held over the transitions that span the registry
and the controller, never over upload I/O.
-/

namespace Cul868Flasher
open Python Effects

/-! ## The upload -/

def uploadChunkBytes : ℕ := 16 * 1024

def fileStep (path : Path) (step : FileStep) : AppProgram Unit := do
  let answer : Except Exn Unit ← call (.file path step)
  .ofExcept answer

/-- One pass of the loop; its variable is the number of bytes that are missing. -/
def copyChunk (path : Path) (remaining : ℕ) : AppProgram (ℕ ⊕ Unit) :=
  if remaining = 0 then return .inr ()
  else do
    let answer : Except Exn (List UInt8) ← call (.read (min uploadChunkBytes remaining))
    let chunk ← .ofExcept answer
    if chunk = [] then
      .raise (.hexFileError "firmware upload ended before its declared length")
    else if remaining < chunk.length then
      .raise (.hexFileError "firmware upload exceeded its declared length")
    else do
      fileStep path (.write chunk)
      return .inl (remaining - chunk.length)

/-- Every pass but the last takes a byte at least, so the budget is enough. -/
def copyUpload (path : Path) (contentLength : ℕ) : AppProgram Unit := do
  .loop (copyChunk path) (contentLength + 1) contentLength
  fileStep path .flush
  fileStep path .fsync

def fillUpload (path : Path) (contentLength : ℕ) : AppProgram Unit := do
  fileStep path .fdopen
  (copyUpload path contentLength).ensuring fun _ => fileStep path .close
  fileStep path .chmod

/-- `except Exception: path.unlink(missing_ok=True); raise`. -/
def unlinkOnError (path : Path) (block : AppProgram α) : AppProgram α := do
  let result ← block.attempt
  match result with
  | .ok a => return a
  | .error e => do
    let _ : Unit ← call (.unlink path)
    .raise e

def writeUpload (contentLength : ℕ) : AppProgram Path :=
  if contentLength < 1 ∨ maxHexFileBytes < contentLength then
    .raise (.hexFileError s!"firmware upload must be between 1 and {maxHexFileBytes} bytes")
  else do
    let made : Except Exn Unit ← call .mkdir
    .ofExcept made
    let named : Except Exn Path ← call .mkstemp
    let path ← .ofExcept named
    unlinkOnError path (fillUpload path contentLength)
    return path

/-! ## Admission -/

/-- A program of the flasher, run by a thread of the add-on. -/
def onFlasher (p : Program α) : AppProgram α := p.handle fun o => call (.flasher o)

namespace IngressApi

def expire : AppProgram Unit := ArtifactRegistry.expire

def requireIdle : AppProgram Unit := do
  let c ← OperationController.snapshot
  if c.status.busy then
    .raise (.operationBusyError "a CUL868 flash operation is already pending or active")
  else return ()

def requireAcceptingMutationsLocked : AppProgram Unit := do
  let refused : Exn :=
    .ingressError "CUL868 Firmware Flasher is stopping and cannot accept a new flash"
  let stopping : Bool ← call .stopping
  if stopping then .raise refused
  else do
    let accepting : Bool ← call .accepting
    if !accepting then .raise refused
    else return ()

def closeAdmission : AppProgram Unit := withLock .submission (call .closeAdmission)

def close : AppProgram Unit := do
  closeAdmission
  ArtifactRegistry.close

def discardImage (image : HexImage) : AppProgram Unit := call (.unlink image.path)

variable (fuel : ℕ) (settings : Settings)

/-! ## Requests -/

structure StatusDocument where
  device : Except String DeviceStatus
  operation : Controller

def status : AppProgram StatusDocument := do
  expire
  let device ← (onFlasher (Flasher.status settings)).attempt
  let operation ← OperationController.snapshot
  match device with
  | .ok device => return ⟨.ok device, operation⟩
  | .error err =>
    let detail := String.ofList (err.message.toList.take 384)
    return ⟨.error s!"Could not inspect CUL USB state: {detail}", operation⟩

def operation : AppProgram Controller := do
  expire
  OperationController.snapshot

structure Validation where
  artifactId : String
  image : HexImage
  preflight : FlashPreflight

/-- The idle check, or the staging, of an upload under the submission lock. -/
def admitted (block : AppProgram α) : AppProgram α :=
  withLock .submission do
    requireAcceptingMutationsLocked
    requireIdle
    block

def stageUpload (path : Path) : AppProgram Validation := do
  let image ← onFlasher (Flasher.parseHexFile path)
  let preflight ← onFlasher (Flasher.preflight settings)
  let artifactId ← admitted (ArtifactRegistry.stage image preflight)
  return ⟨artifactId, image, preflight⟩

def validateUpload (contentLength : ℕ) : AppProgram Validation := do
  admitted (return ())
  let path ← writeUpload contentLength
  unlinkOnError path (stageUpload settings path)

/-- The second confirmation, for an upload that would recover an unpaired device. -/
def requireRecoveryConsent (preflight : FlashPreflight) (confirmUnpairedRecovery : Json) :
    AppProgram Unit :=
  match preflight.manualRecovery, confirmUnpairedRecovery with
  | some _, .bool true => return ()
  | some _, _ => .raise (.ingressError
      "explicit confirmation of the unpaired CUL868 DFU bootloader is required")
  | none, .null => return ()
  | none, .bool false => return ()
  | none, _ => .raise (.ingressError
      "unpaired CUL868 DFU recovery was not selected for this upload")

/-- The `try` block, whose failure releases the claim. -/
def submitClaimed (artifactId : String) (artifact : StagedArtifact)
    (confirmUnpairedRecovery : Json) : AppProgram FlashOperation := do
  let submitted ← (do
    requireRecoveryConsent artifact.preflight confirmUnpairedRecovery
    OperationController.submit artifactId artifact.image artifact.preflight.manualRecovery).attempt
  match submitted with
  | .ok operation => return operation
  | .error e => do
    ArtifactRegistry.releaseClaim artifactId
    .raise e

def flashLocked (artifactId : String) (confirmUnpairedRecovery : Json) :
    AppProgram FlashOperation := do
  requireAcceptingMutationsLocked
  let artifact ← ArtifactRegistry.claim (.str artifactId)
  let operation ← submitClaimed artifactId artifact confirmUnpairedRecovery
  ArtifactRegistry.consume artifactId
  return operation

/-- The identifier of the operation that was queued. -/
def flash (artifactId confirm confirmUnpairedRecovery : Json) : AppProgram String :=
  match confirm with
  | .bool true =>
    match artifactId with
    | .str artifactId => do
      let operation ← withLock .submission (flashLocked artifactId confirmUnpairedRecovery)
      return operation.operationId
    | _ => .raise (.assertionError "")
  | _ => .raise (.ingressError "explicit confirmation is required before flashing")

def ledMode : Json → Option LedMode
  | .str mode =>
    if mode = "off" then some .off
    else if mode = "on" then some .on
    else if mode = "blink" then some .blink
    else none
  | _ => none

def setLed (mode : Json) : AppProgram LedResult :=
  match ledMode mode with
  | none => .raise (.ingressError "LED mode must be off, on, or blink")
  | some mode =>
    admitted (withLock .flash (onFlasher (Flasher.setLed fuel settings mode)))

def diagnostics : AppProgram DiagnosticsResult :=
  admitted (withLock .flash (onFlasher (Flasher.diagnostics fuel settings)))

end IngressApi

/-! ## The threads next to the worker -/

namespace IngressServer

/-- One pass of the reaper's loop. -/
def reapPass (_ : Unit) : AppProgram (Unit ⊕ Unit) := do
  let stopped : Bool ← call .waitReaper
  if stopped then return .inr ()
  else do
    IngressApi.expire
    return .inl ()

def reapExpiredArtifacts (fuel : ℕ) : AppProgram Unit := .loop reapPass fuel ()

end IngressServer

/-- A request that a handler thread serves, or the reaper. -/
inductive Task where
  | status
  | operation
  | validateUpload (contentLength : ℕ)
  | flash (artifactId confirm confirmUnpairedRecovery : Json)
  | setLed (mode : Json)
  | diagnostics
  | reaper

def Task.program (fuel : ℕ) (settings : Settings) : Task → AppProgram Unit
  | .status => do
    let _ ← IngressApi.status settings
    return ()
  | .operation => do
    let _ ← IngressApi.operation
    return ()
  | .validateUpload contentLength => do
    let _ ← IngressApi.validateUpload settings contentLength
    return ()
  | .flash artifactId confirm confirmUnpairedRecovery => do
    let _ ← IngressApi.flash artifactId confirm confirmUnpairedRecovery
    return ()
  | .setLed mode => do
    let _ ← IngressApi.setLed fuel settings mode
    return ()
  | .diagnostics => do
    let _ ← IngressApi.diagnostics fuel settings
    return ()
  | .reaper => IngressServer.reapExpiredArtifacts fuel

end Cul868Flasher
