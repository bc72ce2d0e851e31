import Cul868Flasher.Ingress.Api

/-!
# The process

`run` serves the API, consumes at most one flash operation at a time and cleans
up when it is told to stop. Its thread, the request threads and the reaper are
the machine; a signal is a move of the surroundings.
-/

namespace Cul868Flasher
open Python Effects

namespace Main

/-- A call on the controller. The exception that leaves it goes on record. -/
def watched (p : AppProgram α) : AppProgram α := do
  let result ← p.attempt
  match result with
  | .ok a => return a
  | .error e => do
    let _ : Unit ← call (.escaped e)
    .raise e

/-- The callback of the flash; its exception is the flash's to handle. -/
def reporter (operationId : String) : (o : World.Op) → AppProgram (World.Ans o)
  | .report percent message =>
    (watched (OperationController.reportProgress operationId percent message)).attempt
  | o => call (.flasher o)

def retainedMessage (retained : List String) : String :=
  "; CUL apps remain stopped for a manual serial-path review: " ++ ", ".intercalate retained

/-- The migration document always carries the verified endpoint. -/
def migrationMessage : Option SerialPathMigration → String
  | none => ""
  | some migration =>
    match migration.current with
    | some current =>
      "; CUL serial-by-id name changed to " ++
        s!"{current}; update this add-on and paused CUL app settings manually"
    | none =>
      "; CUL serial-by-id name needs manual resolution; the verified endpoint is " ++
        migration.applicationEndpoint

def completionMessage (result : FlashResult) : String :=
  let installed := if result.installedVersion = "" then "version unavailable"
    else result.installedVersion
  s!"CUL868 firmware verified: {installed}" ++
    migrationMessage result.manualSerialPathMigration ++ retainedMessage result.stoppedCulAddons

variable (fuel : ℕ) (settings : Settings)

/-- `with self._flash_lock` and the transaction. -/
def flashReported (operation : FlashOperation) : AppProgram FlashResult :=
  withLock .flash ((Flasher.flash fuel settings operation.image operation.manualRecovery).handle
    (reporter operation.operationId))

def flashAndReport (operation : FlashOperation) : AppProgram Unit := do
  let result ← (flashReported fuel settings operation).attempt
  match result with
  | .error err => watched (OperationController.fail operation.operationId err)
  | .ok result =>
    watched (OperationController.complete operation.operationId (completionMessage result))

/-- One pass of the worker loop. -/
def workerPass (_ : Unit) : AppProgram (Unit ⊕ Unit) := do
  let stopping : Bool ← call .stopping
  if stopping then return .inr ()
  else do
    let operation ← watched OperationController.get
    match operation with
    | none => return .inl ()
    | some operation => do
      let claimed ← watched (OperationController.claimForRun operation.operationId)
      if !claimed then do
        IngressApi.discardImage operation.image
        return .inr ()
      else do
        (flashAndReport fuel settings operation).ensuring fun _ =>
          IngressApi.discardImage operation.image
        return .inl ()

/-- An unavailable device is not fatal at startup. -/
def verifyStartupFirmware : AppProgram Unit := do
  let _ ← (withLock .flash (onFlasher (Flasher.verifyRunningApplication fuel settings))).catching
    Exn.isFlashError
  return ()

def discardAll : List FlashOperation → AppProgram Unit
  | [] => return ()
  | operation :: rest => do
    IngressApi.discardImage operation.image
    discardAll rest

/-- `IngressServer.stop`. -/
def stopServer : AppProgram Unit := do
  IngressApi.closeAdmission
  call .stopServer

/-- The `finally` block. -/
def cleanUp : AppProgram Unit := do
  IngressApi.closeAdmission
  stopServer
  let pending ← watched (OperationController.drain fuel)
  discardAll pending
  IngressApi.close

def run : AppProgram Unit := do
  let started : Except Exn Unit ← call .startServer
  .ofExcept started
  (do
    verifyStartupFirmware fuel settings
    .loop (workerPass fuel settings) fuel ()).ensuring fun _ => cleanUp fuel

end Main

/-! ## The machine -/

/-- SIGTERM or SIGINT. -/
inductive Signal where
  | requestStop
  deriving DecidableEq

/-- The thread of `run`. -/
def worker : ℕ := 0

def addon (fuel : ℕ) (settings : Settings) : Machine App Exn Site Task Signal where
  answers := Site.answers
  starts := fun s _ => s.serving = true
  program := Task.program fuel settings
  moves := fun s n s' => match n with
    | .requestStop => s' = { s with stopping := true }

/-- The process as it starts: `run` alone, over an empty registry. -/
def boot (fuel : ℕ) (settings : Settings) : System App Exn Site where
  store := .initial
  threads := fun i => if i = worker then some (Main.run fuel settings) else none

/-- An interleaving of the worker, the requests, the reaper and the signals. -/
abbrev Reached (fuel : ℕ) (settings : Settings) (t : List (Act App Task Signal))
    (c : System App Exn Site) : Prop :=
  (addon fuel settings).Reaches (boot fuel settings) t c

end Cul868Flasher
