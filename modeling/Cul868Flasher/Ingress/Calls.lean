import Cul868Flasher.Effects.Discipline
import Cul868Flasher.Flasher.Authorization
import Cul868Flasher.Ingress.Worker

/-!
# The calls of the add-on

External steps of the add-on are sorted into kinds. `Confined ks p` bounds the kinds that
`p` can emit, so what a program leaves alone is read off one list.
-/

namespace Cul868Flasher
open Python Effects

variable {α β : Type} {fuel : ℕ} {settings : Settings}

/-- The steps on the device, its record and its consumers. -/
def OpKind.onDevice : OpKind → Bool
  | .clock => false
  | .sleep => false
  | .report => false
  | .usb => false
  | .file => false
  | .save _ => true
  | .session => true
  | .bootloaderCommand => true
  | .ledCommand => true
  | .query => true
  | .dfu => true
  | .get => false
  | .post => true

inductive CallKind where
  | lock (lock : Lock)
  /-- A step that changes neither the fields of the controller nor the queue, and puts
  nothing into the registry. -/
  | step
  /-- A change of the fields that queues nothing. -/
  | change
  | submission
  | staging
  /-- A step of the flasher that leaves the device alone. -/
  | inspection
  | device
  deriving DecidableEq

def AppOp.kind : AppOp → CallKind
  | .acquire lock => .lock lock
  | .release lock => .lock lock
  | .update (.queued _) _ => .submission
  | .update _ _ => .change
  | .putNowait _ => .submission
  | .clear => .staging
  | .insert _ _ => .staging
  | .flasher o => if o.kind.onDevice then .device else .inspection
  | _ => .step

abbrev Confined (ks : List CallKind) (p : AppProgram α) : Prop :=
  Emits (I := App) (fun o => o.kind ∈ ks) p

theorem AppOp.kind_onDevice {o : Op} (h : o.kind.onDevice = true) :
    (AppOp.flasher o).kind = .device :=
  if_pos h

variable {ks ks' : List CallKind}

theorem Confined.of_subset {p : AppProgram α} (h : Confined ks p) (hks : ks ⊆ ks') :
    Confined ks' p :=
  h.mono fun _ ho => hks ho

theorem call_confined {o : AppOp} (k : CallKind) (ho : o.kind = k) (h : k ∈ ks) :
    Confined ks (call o) :=
  .perform (by rw [ho]; exact h)

theorem step_confined {o : AppOp} (ho : o.kind = .step) (h : .step ∈ ks) : Confined ks (call o) :=
  call_confined .step ho h

theorem withLock_confined {lock : Lock} {block : AppProgram α} (hlock : .lock lock ∈ ks)
    (hb : Confined ks block) : Confined ks (withLock lock block) :=
  (call_confined (.lock lock) rfl hlock).bind fun _ =>
    hb.ensuring fun _ => call_confined (.lock lock) rfl hlock

/-! ## The registry -/

namespace ArtifactRegistry

section Steps
variable (h : .step ∈ ks)
include h

theorem isExpired_confined (entry : StagedArtifact) : Confined ks (isExpired entry) := by
  unfold isExpired
  split_ifs
  · trivial
  · exact (step_confined rfl h).bind fun _ => .pure _

theorem expiredOf_confined (entries : Entries) : Confined ks (expiredOf entries) := by
  induction entries with
  | nil => trivial
  | cons item rest ih =>
    exact (isExpired_confined h item.2).bind fun _ => ih.bind fun _ => .pure _

theorem removeAll_confined (identifiers : List String) : Confined ks (removeAll identifiers) := by
  induction identifiers with
  | nil => trivial
  | cons identifier rest ih =>
    refine (step_confined rfl h).bind fun (entry : Option StagedArtifact) => ?_
    cases entry with
    | none => trivial
    | some entry => exact (step_confined rfl h).bind fun _ => ih

theorem unlinkAll_confined (paths : List Path) : Confined ks (unlinkAll paths) := by
  induction paths with
  | nil => trivial
  | cons path rest ih => exact (step_confined rfl h).bind fun _ => ih

theorem removeExpired_confined : Confined ks removeExpiredLocked :=
  (step_confined rfl h).bind fun entries =>
  (expiredOf_confined h entries).bind (removeAll_confined h)

theorem claimLocked_confined (identifier : String) : Confined ks (claimLocked identifier) := by
  refine (removeExpired_confined h).bind fun _ => (step_confined rfl h).bind fun entries => ?_
  split
  · trivial
  · split_ifs
    · trivial
    · exact (step_confined rfl h).bind fun _ => .pure _

theorem releaseLocked_confined (identifier : String) : Confined ks (releaseLocked identifier) := by
  refine (step_confined rfl h).bind fun entries => ?_
  split
  · trivial
  · exact step_confined rfl h

variable (hlock : .lock .registry ∈ ks)
include hlock

theorem expire_confined : Confined ks expire := withLock_confined hlock (removeExpired_confined h)

theorem claim_confined (identifier : Json) : Confined ks (claim identifier) := by
  unfold claim
  split
  · split_ifs
    · exact withLock_confined hlock (claimLocked_confined h _)
    · trivial
  · trivial

theorem releaseClaim_confined (identifier : String) : Confined ks (releaseClaim identifier) :=
  withLock_confined hlock (releaseLocked_confined h identifier)

theorem consume_confined (identifier : String) : Confined ks (consume identifier) :=
  withLock_confined hlock ((step_confined rfl h).bind fun _ => .pure _)

end Steps

theorem stageLocked_confined (image : HexImage) (preflight : FlashPreflight) :
    Confined [.step, .staging] (stageLocked image preflight) := by
  refine (removeExpired_confined (by decide)).bind fun _ =>
    (step_confined rfl (by decide)).bind fun entries => ?_
  split_ifs
  · trivial
  · refine (call_confined .staging rfl (by decide)).bind fun _ => ?_
    refine (step_confined rfl (by decide)).bind fun _ => (step_confined rfl (by decide)).bind
      fun _ => ?_
    exact (call_confined .staging rfl (by decide)).bind fun _ => .pure _

theorem stage_confined (image : HexImage) (preflight : FlashPreflight) :
    Confined [.lock .registry, .step, .staging] (stage image preflight) := by
  refine (withLock_confined (by decide)
    ((stageLocked_confined image preflight).of_subset (by decide))).bind fun x => ?_
  exact (unlinkAll_confined (by decide) _).bind fun _ => .pure _

theorem close_confined : Confined [.lock .registry, .step, .staging] close := by
  refine (withLock_confined (by decide) ?_).bind fun paths => unlinkAll_confined (by decide) paths
  exact (call_confined .staging rfl (by decide)).bind fun _ => .pure _

end ArtifactRegistry

/-! ## The controller -/

namespace OperationController

theorem update_confined {u : Update} (hu : ∀ operationId, u ≠ .queued operationId) :
    Confined [.step, .change] (update u) := by
  refine (step_confined rfl (by decide)).bind fun _ => call_confined .change ?_ (by decide)
  cases u with
  | queued operationId => exact absurd rfl (hu operationId)
  | _ => rfl

theorem requireCurrent_confined (h : .step ∈ ks) (operationId : String) :
    Confined ks (requireCurrent operationId) := by
  refine (step_confined rfl h).bind fun c => ?_
  split_ifs <;> trivial

theorem enqueue_confined (operation : FlashOperation) :
    Confined [.step, .submission] (enqueue operation) := by
  refine (step_confined rfl (by decide)).bind fun c => ?_
  split_ifs
  · trivial
  · refine (call_confined .submission rfl (by decide)).bind fun put => ?_
    split_ifs
    · trivial
    · exact (step_confined rfl (by decide)).bind fun _ => call_confined .submission rfl (by decide)

theorem claimLocked_confined (operationId : String) :
    Confined [.step, .change] (claimLocked operationId) := by
  refine (requireCurrent_confined (by decide) operationId).bind fun _ =>
    (step_confined rfl (by decide)).bind fun c => ?_
  split_ifs
  · trivial
  · refine (step_confined rfl (by decide)).bind fun stopping => ?_
    split_ifs
    · exact (update_confined (by simp)).bind fun _ => .pure _
    · exact (update_confined (by simp)).bind fun _ => .pure _

theorem progressLocked_confined (operationId : String) (percent : ℤ) (message : String) :
    Confined [.step, .change] (progressLocked operationId percent message) := by
  refine (requireCurrent_confined (by decide) operationId).bind fun _ =>
    (step_confined rfl (by decide)).bind fun c => ?_
  split_ifs
  · trivial
  · exact update_confined (by simp)

theorem finishLocked_confined (operationId : String) {u : Update}
    (hu : ∀ operationId, u ≠ .queued operationId) :
    Confined [.step, .change] (finishLocked operationId u) :=
  (requireCurrent_confined (by decide) operationId).bind fun _ => update_confined hu

theorem drainLocked_confined (fuel : ℕ) : Confined [.step, .change] (drainLocked fuel) := by
  have htake : ∀ pending, Confined [.step, .change] (takePending pending) := by
    refine fun pending => (step_confined rfl (by decide)).bind
      fun (item : Option FlashOperation) => ?_
    cases item <;> trivial
  refine (Emits.loop htake _ _).bind fun pending => (step_confined rfl (by decide)).bind fun c => ?_
  dsimp only
  split_ifs
  · exact (update_confined (by simp)).bind fun _ => .pure _
  · trivial

theorem snapshot_confined (hlock : .lock .controller ∈ ks) (h : .step ∈ ks) :
    Confined ks snapshot :=
  withLock_confined hlock (step_confined rfl h)

theorem submit_confined (artifactId : String) (image : HexImage)
    (manualRecovery : Option ManualRecoveryTarget) :
    Confined [.lock .controller, .step, .submission] (submit artifactId image manualRecovery) := by
  unfold submit
  split_ifs
  · trivial
  · refine (step_confined rfl (by decide)).bind fun operationId => ?_
    exact (withLock_confined (by decide) ((enqueue_confined _).of_subset (by decide))).bind
      fun _ => .pure _

theorem reportProgress_confined (operationId : String) (percent : ℤ) (message : String) :
    Confined [.lock .controller, .step, .change] (reportProgress operationId percent message) := by
  unfold reportProgress
  split_ifs
  · trivial
  · exact withLock_confined (by decide) ((progressLocked_confined _ _ _).of_subset (by decide))

theorem claimForRun_confined (operationId : String) :
    Confined [.lock .controller, .step, .change] (claimForRun operationId) :=
  withLock_confined (by decide) ((claimLocked_confined operationId).of_subset (by decide))

theorem complete_confined (operationId message : String) :
    Confined [.lock .controller, .step, .change] (complete operationId message) :=
  withLock_confined (by decide)
    ((finishLocked_confined operationId (by simp)).of_subset (by decide))

theorem fail_confined (operationId : String) (error : Exn) :
    Confined [.lock .controller, .step, .change] (fail operationId error) :=
  withLock_confined (by decide)
    ((finishLocked_confined operationId (by simp)).of_subset (by decide))

theorem drain_confined (fuel : ℕ) : Confined [.lock .controller, .step, .change] (drain fuel) :=
  withLock_confined (by decide) ((drainLocked_confined fuel).of_subset (by decide))

end OperationController

/-! ## The flasher -/

theorem onFlasher_confined {kinds : List OpKind} {p : Program α} (hp : Uses kinds p)
    (hkinds : ∀ k ∈ kinds, k.onDevice = false) (h : .inspection ∈ ks) : Confined ks (onFlasher p) :=
  Emits.handle (fun _ ho => call_confined .inspection (if_neg (by simp [hkinds _ ho])) h) hp

namespace Flasher

theorem load_uses {ks : List OpKind} (h : .file ∈ ks) : Uses ks DeviceStateStore.load :=
  (perform_uses rfl h).bind fun _ => .ofExcept _

theorem statusOffer_uses (known : Option KnownDevice) (refusal : Exn → String)
    (reason : Option String) (message : String) :
    Uses lookupKinds (statusOffer known refusal reason message) := by
  refine ((singleUnpairedRecoveryTarget_uses.of_subset (by decide)).catching _).bind fun offer => ?_
  split <;> trivial

theorem status_uses : Uses lookupKinds (status settings) := by
  refine (load_uses (by decide)).bind fun known => ?_
  refine ((configuredApplication_uses (by decide) _).catching _).bind fun found => ?_
  cases found with
  | ok application => trivial
  | error applicationError =>
    dsimp only
    unfold statusRecovery
    split
    · exact statusOffer_uses _ _ _ _
    · refine (((bootloaderForKnown_uses settings _).of_subset (by decide)).catching _).bind
        fun found => ?_
      split
      · exact statusOffer_uses _ _ _ _
      · trivial
      · exact statusOffer_uses _ _ _ _

theorem preflight_uses : Uses lookupKinds (preflight settings) :=
  (plan_uses settings none true).bind fun _ => .pure _

end Flasher

/-! ## The requests -/

section Upload
variable (h : .step ∈ ks)
include h

theorem unlinkOnError_confined {path : Path} {block : AppProgram α} (hb : Confined ks block) :
    Confined ks (unlinkOnError path block) := by
  refine hb.attempt.bind fun result => ?_
  cases result with
  | ok a => trivial
  | error e => exact (step_confined rfl h).bind fun _ => trivial

theorem fileStep_confined (path : Path) (step : FileStep) : Confined ks (fileStep path step) :=
  (step_confined rfl h).bind fun answer => .ofExcept answer

theorem copyChunk_confined (path : Path) (remaining : ℕ) :
    Confined ks (copyChunk path remaining) := by
  unfold copyChunk
  split_ifs
  · trivial
  · refine (step_confined rfl h).bind fun answer => (Emits.ofExcept answer).bind fun chunk => ?_
    split_ifs
    · trivial
    · trivial
    · exact (fileStep_confined h _ _).bind fun _ => .pure _

theorem writeUpload_confined (contentLength : ℕ) : Confined ks (writeUpload contentLength) := by
  have hcopy : ∀ path, Confined ks (copyUpload path contentLength) := fun path =>
    (Emits.loop (copyChunk_confined h path) _ _).bind fun _ =>
      (fileStep_confined h _ _).bind fun _ => fileStep_confined h _ _
  have hfill : ∀ path, Confined ks (fillUpload path contentLength) := fun path =>
    (fileStep_confined h _ _).bind fun _ =>
    ((hcopy path).ensuring fun _ => fileStep_confined h _ _).bind
      fun _ => fileStep_confined h _ _
  unfold writeUpload
  split_ifs
  · trivial
  · refine (step_confined rfl h).bind fun made => (Emits.ofExcept made).bind fun _ => ?_
    refine (step_confined rfl h).bind fun named => (Emits.ofExcept named).bind fun path => ?_
    exact (unlinkOnError_confined h (hfill path)).bind fun _ => .pure _

end Upload

namespace IngressApi

theorem status_confined : Confined [.lock .registry, .lock .controller, .step, .inspection]
    (status settings) := by
  refine (ArtifactRegistry.expire_confined (by decide) (by decide)).bind fun _ => ?_
  refine (onFlasher_confined Flasher.status_uses (by decide) (by decide)).attempt.bind
    fun device => ?_
  refine (OperationController.snapshot_confined (by decide) (by decide)).bind fun operation => ?_
  cases device <;> trivial

theorem operation_confined : Confined [.lock .registry, .lock .controller, .step] operation :=
  (ArtifactRegistry.expire_confined (by decide) (by decide)).bind fun _ =>
    OperationController.snapshot_confined (by decide) (by decide)

theorem requireAccepting_confined (h : .step ∈ ks) :
    Confined ks requireAcceptingMutationsLocked := by
  refine (step_confined rfl h).bind fun stopping => ?_
  dsimp only
  split_ifs
  · trivial
  · refine (step_confined rfl h).bind fun accepting => ?_
    split_ifs <;> trivial

theorem requireIdle_confined (hlock : .lock .controller ∈ ks) (h : .step ∈ ks) :
    Confined ks requireIdle := by
  refine (OperationController.snapshot_confined hlock h).bind fun c => ?_
  split_ifs <;> trivial

theorem admitted_confined (hsubmission : .lock .submission ∈ ks)
    (hcontroller : .lock .controller ∈ ks) (h : .step ∈ ks) {block : AppProgram α}
    (hb : Confined ks block) : Confined ks (admitted block) :=
  withLock_confined hsubmission ((requireAccepting_confined h).bind fun _ =>
    (requireIdle_confined hcontroller h).bind fun _ => hb)

theorem validateUpload_confined (contentLength : ℕ) :
    Confined [.lock .submission, .lock .controller, .lock .registry, .step, .staging, .inspection]
      (validateUpload settings contentLength) := by
  refine (admitted_confined (by decide) (by decide) (by decide) (.pure _)).bind fun _ => ?_
  refine (writeUpload_confined (by decide) _).bind fun path => unlinkOnError_confined (by decide) ?_
  refine (onFlasher_confined (Flasher.parseHexFile_uses path) (by decide) (by decide)).bind
    fun image => ?_
  refine (onFlasher_confined Flasher.preflight_uses (by decide) (by decide)).bind
    fun preflight => ?_
  exact (admitted_confined (by decide) (by decide) (by decide)
    ((ArtifactRegistry.stage_confined image preflight).of_subset (by decide))).bind fun _ => .pure _

theorem requireRecoveryConsent_confined (preflight : FlashPreflight)
    (confirmUnpairedRecovery : Json) :
    Confined ks (requireRecoveryConsent preflight confirmUnpairedRecovery) := by
  unfold requireRecoveryConsent
  split <;> trivial

theorem submitClaimed_confined (artifactId : String) (artifact : StagedArtifact)
    (confirmUnpairedRecovery : Json) :
    Confined [.lock .registry, .lock .controller, .step, .submission]
      (submitClaimed artifactId artifact confirmUnpairedRecovery) := by
  refine Emits.bind (Emits.attempt ((requireRecoveryConsent_confined _ _).bind fun _ =>
    (OperationController.submit_confined _ _ _).of_subset (by decide))) fun submitted => ?_
  cases submitted with
  | ok operation => trivial
  | error e =>
    exact Emits.bind (ArtifactRegistry.releaseClaim_confined (by decide) (by decide) _)
      fun _ => trivial

theorem flashLocked_confined (artifactId : String) (confirmUnpairedRecovery : Json) :
    Confined [.lock .registry, .lock .controller, .step, .submission]
      (flashLocked artifactId confirmUnpairedRecovery) := by
  refine (requireAccepting_confined (by decide)).bind fun _ => ?_
  refine (ArtifactRegistry.claim_confined (by decide) (by decide) _).bind fun artifact => ?_
  refine (submitClaimed_confined _ _ _).bind fun operation => ?_
  exact (ArtifactRegistry.consume_confined (by decide) (by decide) _).bind fun _ => .pure _

theorem flash_confined (artifactId confirm confirmUnpairedRecovery : Json) :
    Confined [.lock .submission, .lock .registry, .lock .controller, .step, .submission]
      (flash artifactId confirm confirmUnpairedRecovery) := by
  unfold flash
  split
  · split
    · exact (withLock_confined (by decide)
        ((flashLocked_confined _ _).of_subset (by decide))).bind fun _ => .pure _
    · trivial
  · trivial

theorem closeAdmission_confined (hlock : .lock .submission ∈ ks) (h : .step ∈ ks) :
    Confined ks closeAdmission :=
  withLock_confined hlock (step_confined rfl h)

end IngressApi

theorem reapExpiredArtifacts_confined :
    Confined [.lock .registry, .step] (IngressServer.reapExpiredArtifacts fuel) := by
  refine Emits.loop (fun _ => ?_) _ _
  refine (step_confined rfl (by decide)).bind fun (stopped : Bool) => ?_
  split_ifs
  · trivial
  · exact (ArtifactRegistry.expire_confined (by decide) (by decide)).bind fun _ => .pure _

/-! ## The worker -/

namespace Main

theorem watched_confined (h : .step ∈ ks) {p : AppProgram α} (hp : Confined ks p) :
    Confined ks (watched p) := by
  refine hp.attempt.bind fun result => ?_
  cases result with
  | ok a => trivial
  | error e => exact (step_confined rfl h).bind fun _ => trivial

theorem discardAll_confined (h : .step ∈ ks) (pending : List FlashOperation) :
    Confined ks (discardAll pending) := by
  induction pending with
  | nil => trivial
  | cons operation rest ih => exact (step_confined rfl h).bind fun _ => ih

theorem cleanUp_confined :
    Confined [.lock .submission, .lock .controller, .lock .registry, .step, .change, .staging]
      (cleanUp fuel) := by
  have hclose : Confined [.lock .submission, .lock .controller, .lock .registry, .step, .change,
      .staging] IngressApi.closeAdmission :=
    IngressApi.closeAdmission_confined (by decide) (by decide)
  refine hclose.bind fun _ => (hclose.bind fun _ => step_confined rfl (by decide)).bind fun _ => ?_
  refine (watched_confined (by decide)
    ((OperationController.drain_confined fuel).of_subset (by decide))).bind fun pending => ?_
  refine (discardAll_confined (by decide) pending).bind fun _ => hclose.bind fun _ => ?_
  exact ArtifactRegistry.close_confined.of_subset (by decide)

end Main

end Cul868Flasher
