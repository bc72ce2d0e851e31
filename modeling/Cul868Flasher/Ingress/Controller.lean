import Cul868Flasher.Ingress.Site

/-!
# The operation controller

The methods of `OperationController` as programs. Each holds the controller's
lock from its first look at the fields to its last change of them, except that
`get` takes from the queue without it.
-/

namespace Cul868Flasher
open Python Effects

namespace OperationController

/-- A change of the fields, with the clock reading of its event. -/
def update (u : Update) : AppProgram Unit := do
  let now : ℚ ← call .time
  call (.update u (Flasher.truncate now))

def requireCurrent (operationId : String) : AppProgram Unit := do
  let c : Controller ← call .controller
  if c.operationId ≠ some operationId then
    .raise (.valueError "flash operation is no longer current")
  else return ()

def shutdownMessage : String := "Queued firmware was discarded during shutdown."

def enqueue (operation : FlashOperation) : AppProgram Unit := do
  let c : Controller ← call .controller
  if c.status.busy then
    .raise (.operationBusyError "another CUL868 flash operation is already in progress")
  else do
    let put : Bool ← call (.putNowait operation)
    if !put then
      .raise (.operationBusyError "another CUL868 flash operation is already queued")
    else update (.queued operation.operationId)

def submit (artifactId : String) (image : HexImage)
    (manualRecovery : Option ManualRecoveryTarget) : AppProgram FlashOperation :=
  if artifactId = "" ∨ 128 < artifactId.length then .raise (.valueError "artifact ID is invalid")
  else do
    let operationId : String ← call .tokenHex
    let operation : FlashOperation := ⟨operationId, artifactId, image, manualRecovery⟩
    withLock .controller (enqueue operation)
    return operation

def get : AppProgram (Option FlashOperation) := call .get

/-- One pass of the loop that empties the queue. -/
def takePending (pending : List FlashOperation) :
    AppProgram (List FlashOperation ⊕ List FlashOperation) := do
  let item : Option FlashOperation ← call .getNowait
  match item with
  | some operation => return .inl (pending ++ [operation])
  | none => return .inr pending

def drainLocked (fuel : ℕ) : AppProgram (List FlashOperation) := do
  let pending ← .loop takePending fuel []
  let c : Controller ← call .controller
  if pending ≠ [] ∧ c.status = .queued then update (.discarded shutdownMessage)
  return pending

/-- Return unstarted work so shutdown can delete its private upload. -/
def drain (fuel : ℕ) : AppProgram (List FlashOperation) :=
  withLock .controller (drainLocked fuel)

def discardQueued (operationId : String) : AppProgram Unit :=
  withLock .controller do
    requireCurrent operationId
    let c : Controller ← call .controller
    if c.status ≠ .queued then
      .raise (.valueError "only a queued flash operation can be discarded")
    else update (.discarded shutdownMessage)

def claimLocked (operationId : String) : AppProgram Bool := do
  requireCurrent operationId
  let c : Controller ← call .controller
  if c.status ≠ .queued then
    .raise (.valueError "only a queued flash operation can be started")
  else do
    let stopping : Bool ← call .stopping
    if stopping then do
      update (.discarded shutdownMessage)
      return false
    else do
      update .running
      return true

/-- Atomically either claim queued work or discard it after shutdown. -/
def claimForRun (operationId : String) : AppProgram Bool :=
  withLock .controller (claimLocked operationId)

def progressLocked (operationId : String) (percent : ℤ) (message : String) :
    AppProgram Unit := do
  requireCurrent operationId
  let c : Controller ← call .controller
  if c.status ≠ .running then return ()
  else update (.progress percent message)

def reportProgress (operationId : String) (percent : ℤ) (message : String) : AppProgram Unit :=
  if percent < 0 ∨ 100 < percent then .raise (.valueError "progress percentage is invalid")
  else withLock .controller (progressLocked operationId percent (safeMessage message))

/-- What `complete` and `fail` share. -/
def finishLocked (operationId : String) (u : Update) : AppProgram Unit := do
  requireCurrent operationId
  update u

def complete (operationId : String) (message : String) : AppProgram Unit :=
  withLock .controller (finishLocked operationId (.succeeded (safeMessage message)))

def fail (operationId : String) (error : Exn) : AppProgram Unit :=
  withLock .controller (finishLocked operationId (.failed (safeMessage (errorText error))))

def snapshot : AppProgram Controller := withLock .controller (call .controller)

end OperationController
end Cul868Flasher
