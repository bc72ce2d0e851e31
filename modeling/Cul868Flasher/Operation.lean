import Cul868Flasher.Hexfile
import Cul868Flasher.Usb

/-!
# The flash operation and its visible state

`Controller` holds the fields of `OperationController` that its lock protects. A
change of them is an `Update`, made in one critical section with the clock
reading of its event.
-/

namespace Cul868Flasher
open Python

deriving instance DecidableEq for ManualRecoveryTarget

inductive OperationStatus where
  | idle
  | queued
  | running
  | succeeded
  | failed
  deriving DecidableEq

/-- `status in {"queued", "running"}`. -/
def OperationStatus.busy (status : OperationStatus) : Bool :=
  status = .queued || status = .running

/-- One validated staged upload assigned to a single flash worker. -/
structure FlashOperation where
  operationId : String
  artifactId : String
  image : HexImage
  manualRecovery : Option ManualRecoveryTarget
  deriving DecidableEq

inductive EventKind where
  | queued
  | discarded
  | running
  | progress
  | succeeded
  | failed
  deriving DecidableEq

structure OperationEvent where
  at_ : ℤ
  kind : EventKind
  message : String
  deriving DecidableEq

def maxEvents : ℕ := 32

/-- `value.split()`. -/
def words (value : List Char) : List (List Char) :=
  (value.splitOnP isSpace).filter fun word => !word.isEmpty

/-- `_safe_message` of a text. -/
def safeMessage (value : String) : String :=
  let joined := [' '].intercalate (words value.toList)
  if joined.isEmpty then "Unexpected flash operation status."
  else String.ofList (joined.take 512)

/-- The text of an exception and its notes, as `fail` puts it together. -/
def errorText (error : Exn) : String :=
  "\n".intercalate (([error.message, "\n".intercalate error.notes]).filter (· ≠ ""))

structure Controller where
  status : OperationStatus
  operationId : Option String
  progress : ℤ
  message : String
  error : Option String
  events : List OperationEvent
  deriving DecidableEq

inductive Update where
  | queued (operationId : String)
  | discarded (message : String)
  | running
  | progress (percent : ℤ) (message : String)
  | succeeded (message : String)
  | failed (message : String)
  deriving DecidableEq

namespace Controller

def initial : Controller where
  status := .idle
  operationId := none
  progress := 0
  message := "No flash operation is running."
  error := none
  events := []

/-- `del self._events[:-_MAX_EVENTS]` keeps the last ones. -/
def appendEvent (now : ℤ) (kind : EventKind) (message : String) (c : Controller) : Controller :=
  let events := c.events ++ [⟨now, kind, message⟩]
  { c with events := events.drop (events.length - maxEvents) }

def queued (now : ℤ) (operationId : String) (c : Controller) : Controller :=
  { c with
    status := .queued
    operationId := some operationId
    progress := 0
    message := "Firmware is queued for flashing."
    error := none }.appendEvent now .queued "Firmware is queued for flashing."

def discardQueuedLocked (now : ℤ) (message : String) (c : Controller) : Controller :=
  { c with
    status := .idle
    operationId := none
    progress := 0
    message := "No flash operation is running."
    error := none }.appendEvent now .discarded message

def markRunningLocked (now : ℤ) (c : Controller) : Controller :=
  { c with
    status := .running
    progress := max c.progress 1
    message := "Preparing the CUL868 flash operation." }.appendEvent now .running
      "Preparing the CUL868 flash operation."

def progressed (now : ℤ) (percent : ℤ) (message : String) (c : Controller) : Controller :=
  { c with
    progress := max c.progress percent
    message := message }.appendEvent now .progress message

def succeeded (now : ℤ) (message : String) (c : Controller) : Controller :=
  { c with
    status := .succeeded
    progress := 100
    message := message
    error := none }.appendEvent now .succeeded message

def failed (now : ℤ) (message : String) (c : Controller) : Controller :=
  { c with
    status := .failed
    message := "The flash operation failed."
    error := some message }.appendEvent now .failed message

def update (now : ℤ) : Update → Controller → Controller
  | .queued operationId, c => c.queued now operationId
  | .discarded message, c => c.discardQueuedLocked now message
  | .running, c => c.markRunningLocked now
  | .progress percent message, c => c.progressed now percent message
  | .succeeded message, c => c.succeeded now message
  | .failed message, c => c.failed now message

end Controller

/-- The status that an update leaves behind. -/
def Update.status : Update → OperationStatus → OperationStatus
  | .queued _, _ => .queued
  | .discarded _, _ => .idle
  | .running, _ => .running
  | .progress _ _, status => status
  | .succeeded _, _ => .succeeded
  | .failed _, _ => .failed

/-- The operation that is current after an update. -/
def Update.operationId : Update → Option String → Option String
  | .queued operationId, _ => some operationId
  | .discarded _, _ => none
  | .running, operationId => operationId
  | .progress _ _, operationId => operationId
  | .succeeded _, operationId => operationId
  | .failed _, operationId => operationId

namespace Controller

@[simp] theorem update_status (now : ℤ) (u : Update) (c : Controller) :
    (c.update now u).status = u.status c.status := by
  cases u <;> rfl

@[simp] theorem update_operationId (now : ℤ) (u : Update) (c : Controller) :
    (c.update now u).operationId = u.operationId c.operationId := by
  cases u <;> rfl

theorem update_succeeded_message (now : ℤ) (message : String) (c : Controller) :
    (c.update now (.succeeded message)).message = message := rfl

end Controller
end Cul868Flasher
