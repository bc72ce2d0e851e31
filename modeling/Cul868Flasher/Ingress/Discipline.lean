import Cul868Flasher.Effects.Discipline
import Cul868Flasher.Ingress.Worker

/-!
# The discipline of the threads

`Standing` describes what a thread has taken upon itself: the locks it holds,
what it has read under them, the entry it has claimed, the files and the
operation it answers for. The discipline says when a step may be taken.
-/

namespace Cul868Flasher
open Python Effects

/-! ## What the calls of one thread show -/

/-- The operation a thread has taken from the queue. -/
inductive Job where
  | none
  | taken (operation : FlashOperation)
  | running (operation : FlashOperation)
  /-- Completed, failed or discarded; its file is still to be deleted. -/
  | finished (operation : FlashOperation)
  deriving DecidableEq

namespace Job

def operation : Job → Option FlashOperation
  | .none => .none
  | .taken operation => some operation
  | .running operation => some operation
  | .finished operation => some operation

/-- Taken and neither claimed nor discarded. -/
def pending : Job → List FlashOperation
  | .none => []
  | .taken operation => [operation]
  | .running _ => []
  | .finished _ => []

def current : Job → List FlashOperation
  | .none => []
  | .taken _ => []
  | .running operation => [operation]
  | .finished _ => []

@[simp] def take (job : Job) : Option FlashOperation → Job
  | some operation => .taken operation
  | .none => job

@[simp] def update : Job → Update → Job
  | .taken operation, .running => .running operation
  | .taken operation, .discarded _ => .finished operation
  | .running operation, .succeeded _ => .finished operation
  | .running operation, .failed _ => .finished operation
  | job, _ => job

@[simp] def unlink : Job → Path → Job
  | .finished operation, path => if operation.image.path = path then .none else .finished operation
  | job, _ => job

/-- The job after one more call. -/
@[simp] def after (job : Job) : (o : App.Op) → App.Ans o → Job
  | .get, item => job.take item
  | .getNowait, item => job.take item
  | .update u _, _ => job.update u
  | .unlink path, _ => job.unlink path
  | _, _ => job

end Job

/-- The upload file a thread has created and neither staged nor deleted. -/
@[simp] def uploadAfter (upload : Option Path) : (o : App.Op) → App.Ans o → Option Path
  | .mkstemp, named => (resultOf named).head?.or upload
  | .insert _ _, _ => none
  | .unlink path, _ => if upload = some path then none else upload
  | _, _ => upload

/-- The files of entries a thread has removed in order to delete them. A claimed
entry is removed for the operation that took its file over. -/
@[simp] def removedAfter (removed : List Path) : (o : App.Op) → App.Ans o → List Path
  | .pop _, entry =>
    let entry : Option StagedArtifact := entry
    match entry with
    | some entry => if entry.claimed then removed else entry.image.path :: removed
    | none => removed
  | .clear, entries => Entries.paths entries ++ removed
  | .unlink path, _ => removed.filter (· ≠ path)
  | _, _ => removed

/-- What a thread has read of the stop event since it took the controller's lock;
`none` when it does not hold it. -/
@[simp] def stopSeenAfter (seen : Option (Option Bool)) :
    (o : App.Op) → App.Ans o → Option (Option Bool)
  | .acquire .controller, _ => some none
  | .release .controller, _ => none
  | .stopping, stopping => seen.map fun _ => some stopping
  | _, _ => seen

/-- A component of the standing, read off the calls of a thread. -/
def observe {β : Type} (after : β → (o : App.Op) → App.Ans o → β) (b : β) (h : Trace App) : β :=
  h.foldl (fun b e => after b e.op e.ans) b

@[simp] theorem observe_nil {β : Type} (after : β → (o : App.Op) → App.Ans o → β) (b : β) :
    observe after b [] = b := rfl

@[simp] theorem observe_snoc {β : Type} (after : β → (o : App.Op) → App.Ans o → β) (b : β)
    (h : Trace App) (e : Event App) :
    observe after b (h ++ [e]) = after (observe after b h) e.op e.ans := by
  simp [observe]

/-! ## Standing -/

inductive Role where
  | unstarted
  | worker
  | request (task : Task)

/-- How far the process has come. -/
inductive Phase where
  | booting
  | serving
  /-- Admission is closed. -/
  | closed
  /-- The queue has been found empty since. -/
  | drained
  /-- The registry has been cleared since. -/
  | cleared
  deriving DecidableEq

namespace Phase

/-- Admission has been closed. -/
def isClosed : Phase → Bool
  | .booting => false
  | .serving => false
  | .closed => true
  | .drained => true
  | .cleared => true

def isDrained : Phase → Bool
  | .booting => false
  | .serving => false
  | .closed => false
  | .drained => true
  | .cleared => true

@[simp] def start (phase : Phase) : Except Exn Unit → Phase
  | .ok _ => .serving
  | .error _ => phase

@[simp] def close : Phase → Phase
  | .serving => .closed
  | phase => phase

@[simp] def drain : Phase → Option FlashOperation → Phase
  | .closed, none => .drained
  | phase, _ => phase

@[simp] def clear : Phase → Phase
  | .drained => .cleared
  | phase => phase

end Phase

/-- An entry that a thread has claimed: what it held then, the clock reading it
was found unexpired at, and whether its operation is in the queue. -/
structure Claim where
  identifier : String
  entry : StagedArtifact
  readAt : Option ℚ
  sent : Bool

structure Standing where
  role : Role
  held : List Lock
  /-- Admission was found open under the submission lock. -/
  admitted : Bool
  /-- The fields of the controller as read under its lock. -/
  fields : Option Controller
  /-- The entries of the registry as read under its lock. -/
  entries : Option Entries
  clock : Option ℚ
  stopSeen : Option (Option Bool)
  claim : Option Claim
  /-- An operation in the queue that the fields do not show yet. -/
  unmarked : Option FlashOperation
  token : Option String
  upload : Option Path
  removed : List Path
  job : Job
  phase : Phase

namespace Standing

/-- Nothing held and nothing owed. -/
def rest (role : Role) (upload : Option Path) (job : Job) (phase : Phase) : Standing where
  role := role
  held := []
  admitted := false
  fields := none
  entries := none
  clock := none
  stopSeen := none
  claim := none
  unmarked := none
  token := none
  upload := upload
  removed := []
  job := job
  phase := phase

def idle : Standing := rest .unstarted none .none .booting

/-- How a thread starts. -/
def born (task : Task) : Standing := rest (.request task) none .none .booting

variable (ℓ : Standing)

@[simp] def releaseLock (lock : Lock) : Standing :=
  { ℓ with
    held := ℓ.held.erase lock
    admitted := if lock = .submission then false else ℓ.admitted
    entries := if lock = .registry then none else ℓ.entries
    clock := if lock = .registry then none else ℓ.clock
    fields := if lock = .controller then none else ℓ.fields }

@[simp] def updateFields (u : Update) (now : ℤ) : Standing :=
  { ℓ with
    fields := ℓ.fields.map (Controller.update now u)
    unmarked := match u with
      | .queued _ => none
      | _ => ℓ.unmarked }

@[simp] def put (operation : FlashOperation) (put : Bool) : Standing :=
  { ℓ with
    unmarked := if put then some operation else ℓ.unmarked
    claim := if put then ℓ.claim.map fun c => { c with sent := true } else ℓ.claim }

/-- An own claim ends when its entry is removed. -/
@[simp] def popEntry (identifier : String) : Standing :=
  { ℓ with
    entries := ℓ.entries.map fun entries => entries.erase identifier
    claim := ℓ.claim.filter fun c => c.identifier ≠ identifier }

@[simp] def claimEntry (identifier : String) (claimed : Bool) : Standing :=
  { ℓ with
    entries := ℓ.entries.map fun entries => entries.setClaimed identifier claimed
    claim := if claimed then
        (ℓ.entries.bind fun entries => entries.lookup identifier).map fun entry =>
          ⟨identifier, { entry with claimed := true }, ℓ.clock, false⟩
      else none }

/-- The part of the standing that is not read off single calls. -/
@[simp] def afterCall : (o : App.Op) → App.Ans o → Standing
  | .acquire lock, _ => { ℓ with held := lock :: ℓ.held }
  | .release lock, _ => ℓ.releaseLock lock
  | .accepting, accepting => { ℓ with admitted := accepting }
  | .closeAdmission, _ => { ℓ with phase := ℓ.phase.close }
  | .tokenUrlsafe, token => { ℓ with token := some token }
  | .monotonic, now => { ℓ with clock := some now }
  | .controller, c => { ℓ with fields := some c }
  | .update u now, _ => ℓ.updateFields u now
  | .putNowait operation, put => ℓ.put operation put
  | .getNowait, item => { ℓ with phase := ℓ.phase.drain item }
  | .entries, entries => { ℓ with entries := some entries }
  | .pop identifier, _ => ℓ.popEntry identifier
  | .clear, _ => { ℓ with entries := some [], phase := ℓ.phase.clear }
  | .insert identifier entry, _ =>
    { ℓ with
      entries := ℓ.entries.map fun entries => entries.set identifier entry
      token := none }
  | .setClaimed identifier claimed, _ => ℓ.claimEntry identifier claimed
  | .startServer, started => { ℓ with phase := ℓ.phase.start started }
  | _, _ => ℓ

@[simp] def after (o : App.Op) (a : App.Ans o) : Standing :=
  { ℓ.afterCall o a with
    stopSeen := stopSeenAfter ℓ.stopSeen o a
    upload := uploadAfter ℓ.upload o a
    removed := removedAfter ℓ.removed o a
    job := ℓ.job.after o a }

/-! ## What is allowed and what can be trusted -/

/-- What has to be in order before a lock is given back. -/
@[simp] def MayRelease : Lock → Prop
  | .submission => ℓ.claim = none ∧ ℓ.token = none ∧ ℓ.removed = []
  | .registry => ℓ.removed = [] ∨ ℓ.admitted = true ∨ ℓ.phase = .cleared
  | .controller => ℓ.unmarked = none
  | .flash => True

@[simp] def MayUpdate : Update → Prop
  | .queued operationId => ∃ operation, ℓ.unmarked = some operation ∧
      operation.operationId = operationId
  | .discarded _ => ∃ operation, ℓ.job = .taken operation
  | .running => ℓ.stopSeen = some (some false) ∧ ∃ operation, ℓ.job = .taken operation
  | .progress _ _ => ∃ operation, ℓ.job = .running operation
  | .succeeded _ => ∃ operation, ℓ.job = .running operation
  | .failed _ => ∃ operation, ℓ.job = .running operation

/-- The client asked for the operation with the consent it needs. -/
def Consents (operation : FlashOperation) : Prop :=
  ∃ confirmUnpairedRecovery, ℓ.role = .request (.flash (.str operation.artifactId) (.bool true)
      confirmUnpairedRecovery) ∧
    (operation.manualRecovery.isSome → confirmUnpairedRecovery = .bool true)

structure MayPut (operation : FlashOperation) : Prop where
  locked : .controller ∈ ℓ.held
  admitted : ℓ.admitted = true
  marked : ℓ.unmarked = none
  notBusy : ∃ fields, ℓ.fields = some fields ∧ fields.status.busy = false
  claimed : ∃ c, ℓ.claim = some c ∧ c.sent = false ∧ operation.artifactId = c.identifier ∧
    operation.image = c.entry.image ∧ operation.manualRecovery = c.entry.preflight.manualRecovery
  consents : ℓ.Consents operation

structure MayInsert (identifier : String) (entry : StagedArtifact) : Prop where
  locked : .registry ∈ ℓ.held
  admitted : ℓ.admitted = true
  empty : ℓ.entries = some []
  fresh : ℓ.token = some identifier
  own : ℓ.upload = some entry.image.path
  unclaimed : entry.claimed = false
  expires : ∃ now, ℓ.clock = some now ∧ entry.expiresAt = now + stagedArtifactTtlSeconds
  role : ∃ contentLength, ℓ.role = .request (.validateUpload contentLength)

/-- The entry is there, unclaimed and not expired at the last clock reading. -/
structure MayClaim (identifier : String) : Prop where
  locked : .registry ∈ ℓ.held
  admitted : ℓ.admitted = true
  single : ℓ.claim = none
  role : ∃ confirmUnpairedRecovery, ℓ.role = .request (.flash (.str identifier) (.bool true)
      confirmUnpairedRecovery)
  found : ∃ entries entry now, ℓ.entries = some entries ∧ entries.lookup identifier = some entry ∧
    entry.claimed = false ∧ ℓ.clock = some now ∧ now < entry.expiresAt

/-- An entry is removed by the thread whose claim it fulfilled, or unclaimed and
expired at the last clock reading. -/
def MayPop (identifier : String) : Prop :=
  .registry ∈ ℓ.held ∧
    ((∃ c, ℓ.claim = some c ∧ c.identifier = identifier ∧ c.sent = true) ∨
      ℓ.claim = none ∧ ∃ entries entry, ℓ.entries = some entries ∧
        entries.lookup identifier = some entry ∧ entry.claimed = false ∧
        ∃ now, ℓ.clock = some now ∧ entry.expiresAt ≤ now)

def MayClear : Prop :=
  .registry ∈ ℓ.held ∧
    ((ℓ.admitted = true ∧ ℓ.claim = none ∧ ∃ entries, ℓ.entries = some entries ∧
        ∀ item ∈ entries, item.2.claimed = false) ∨
      ℓ.role = .worker ∧ ℓ.phase = .drained)

@[simp] def Allows : App.Op → Prop
  | .release lock => lock ∈ ℓ.held ∧ ℓ.MayRelease lock
  | .accepting => .submission ∈ ℓ.held ∧ ℓ.claim = none ∧ ℓ.token = none
  | .closeAdmission => .submission ∈ ℓ.held ∧ ℓ.role = .worker ∧ ℓ.phase ≠ .booting ∧
      ℓ.admitted = false
  | .tokenUrlsafe => ℓ.admitted = true ∧ ℓ.token = none
  | .monotonic => .registry ∈ ℓ.held
  | .controller => .controller ∈ ℓ.held
  | .update u _ => .controller ∈ ℓ.held ∧ ℓ.MayUpdate u
  | .putNowait operation => ℓ.MayPut operation
  | .get => ℓ.role = .worker ∧ ℓ.job = .none ∧ ℓ.phase = .serving
  | .getNowait => ℓ.role = .worker ∧ .controller ∈ ℓ.held ∧ ℓ.phase = .closed ∧
      (ℓ.job = .none ∨ ∃ operation, ℓ.job = .taken operation)
  | .entries => .registry ∈ ℓ.held
  | .pop identifier => ℓ.MayPop identifier
  | .clear => ℓ.MayClear
  | .insert identifier entry => ℓ.MayInsert identifier entry
  | .setClaimed identifier true => ℓ.MayClaim identifier
  | .setClaimed identifier false => .registry ∈ ℓ.held ∧
      ∃ c, ℓ.claim = some c ∧ c.identifier = identifier ∧ c.sent = false
  | .mkstemp => ℓ.upload = none ∧ ∃ contentLength, ℓ.role = .request (.validateUpload contentLength)
  | .unlink path => ℓ.upload = some path ∨ path ∈ ℓ.removed ∨
      ∃ operation, ℓ.job = .finished operation ∧ operation.image.path = path
  | .startServer => ℓ.role = .worker ∧ ℓ.phase = .booting
  | .escaped _ => False
  | _ => True

/-- The fields show the operation that the thread answers for. -/
structure FieldsTrusted (fields : Controller) : Prop where
  taken : ∀ operation, ℓ.job = .taken operation →
    fields.status = .queued ∧ fields.operationId = some operation.operationId
  running : ∀ operation, ℓ.job = .running operation →
    fields.status = .running ∧ fields.operationId = some operation.operationId

structure EntriesTrusted (entries : Entries) : Prop where
  single : entries.length ≤ 1
  seen : ∀ view, ℓ.entries = some view → entries = view
  claimed : ∀ c, ℓ.claim = some c → entries = [(c.identifier, c.entry)]

/-- An entry that is removed is the one that was read; its file is not one the
thread answers for already. -/
structure PopTrusted (identifier : String) (entry : Option StagedArtifact) : Prop where
  seen : ∀ view, ℓ.entries = some view → entry = view.lookup identifier
  claimed : ∀ c, ℓ.claim = some c → c.identifier = identifier → entry = some c.entry
  other : ∀ e, entry = some e → e.claimed = false → ℓ.upload ≠ some e.image.path

structure ClearTrusted (entries : Entries) : Prop where
  single : entries.length ≤ 1
  other : ∀ path ∈ entries.paths, ℓ.upload ≠ some path

@[simp] def Trusts : (o : App.Op) → App.Ans o → Prop
  | .controller, fields => ℓ.FieldsTrusted fields
  | .putNowait _, put => put = true
  | .getNowait, item => ∀ operation, ℓ.job = .taken operation → item = none
  | .entries, entries => ℓ.EntriesTrusted entries
  | .pop identifier, entry => ℓ.PopTrusted identifier entry
  | .clear, entries => ℓ.ClearTrusted entries
  | _, _ => True

end Standing

@[simp] def discipline : Discipline App Standing where
  allows := Standing.Allows
  trusts := Standing.Trusts
  after := Standing.after

end Cul868Flasher
