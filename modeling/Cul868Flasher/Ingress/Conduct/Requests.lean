import Cul868Flasher.Flasher.Order
import Cul868Flasher.Ingress.Conduct.Registry

/-!
# The requests keep the discipline

A request starts and ends at rest. Under the submission lock it is `inside`,
with admission found open; an upload it has begun is its own until it is staged
or deleted.
-/

namespace Cul868Flasher
open Python Effects

variable {α β : Type} {ℓ : Standing} {task : Task} {upload upload' : Option Path}

/-- Between the sections of a request. -/
def atRest (task : Task) (upload : Option Path) : Standing :=
  .rest (.request task) upload .none .booting

/-- Under the submission lock, with admission open. -/
def inside (task : Task) (upload : Option Path) : Standing :=
  { atRest task upload with held := [.submission], admitted := true }

theorem atRest_controller : OperationController.Off (atRest task upload) := ⟨rfl, rfl, rfl⟩
theorem atRest_registry : ArtifactRegistry.Off (atRest task upload) := ⟨rfl, rfl, rfl, rfl, rfl⟩
theorem inside_controller : OperationController.Off (inside task upload) := ⟨rfl, rfl, rfl⟩
theorem inside_registry : ArtifactRegistry.Off (inside task upload) := ⟨rfl, rfl, rfl, rfl, rfl⟩

/-- Programs of the flasher concern none of the shared state. -/
theorem conduct_onFlasher (p : Program α) :
    Follows discipline (fun a ℓ' => ℓ' = ℓ ∧ ∃ t, Run p t (.returned a)) (fun _ ℓ' => ℓ' = ℓ)
      (onFlasher p) ℓ := by
  refine Follows.handle (K := fun ℓ' => ℓ' = ℓ) ?_ (Emits.all p) rfl
  rintro o _ _ rfl
  exact Follows.perform trivial fun _ _ => rfl

theorem conduct_flashLock {p : Program α} :
    Follows discipline (fun _ ℓ' => ℓ' = ℓ) (fun _ ℓ' => ℓ' = ℓ)
      (withLock .flash (onFlasher p)) ℓ := by
  refine conduct_withLock ((conduct_onFlasher p).conseq ?_ ?_)
  · rintro _ _ ⟨rfl, _⟩
    exact ⟨⟨by simp, trivial⟩, by simp⟩
  · rintro _ _ rfl
    exact ⟨⟨by simp, trivial⟩, by simp⟩

namespace IngressApi

theorem conduct_requireIdle (h : OperationController.Off ℓ) :
    Follows discipline (fun _ ℓ' => ℓ' = ℓ) (fun _ ℓ' => ℓ' = ℓ) requireIdle ℓ := by
  refine Follows.bind ((OperationController.conduct_snapshot h).conseq (fun _ _ h => h)
    fun _ _ h => h.elim) ?_
  rintro c _ rfl
  split_ifs with hbusy
  · exact Follows.raise rfl
  · exact Follows.ret rfl

/-- What the submission lock is taken with. -/
def entering (task : Task) (upload : Option Path) : Standing :=
  { atRest task upload with held := [.submission] }

theorem conduct_requireAccepting :
    Follows discipline (fun _ ℓ' => ℓ' = inside task upload) (fun _ ℓ' => ℓ' = entering task upload)
      requireAcceptingMutationsLocked (entering task upload) := by
  refine conduct_call trivial fun (stopping : Bool) _ => ?_
  cases stopping with
  | true => exact Follows.raise rfl
  | false =>
    refine conduct_call ⟨by simp [entering], rfl, rfl⟩ fun (accepting : Bool) _ => ?_
    cases accepting with
    | true => exact Follows.ret rfl
    | false => exact Follows.raise rfl

/-- Leaving the submission lock, whether or not admission was found open. -/
theorem inside_released : (.submission ∈ (inside task upload).held ∧
      (inside task upload).MayRelease .submission) ∧
    (inside task upload).after (.release .submission) () = atRest task upload :=
  ⟨⟨by simp [inside], rfl, rfl, rfl⟩, rfl⟩

theorem entering_released : (.submission ∈ (entering task upload).held ∧
      (entering task upload).MayRelease .submission) ∧
    (entering task upload).after (.release .submission) () = atRest task upload :=
  ⟨⟨by simp [entering], rfl, rfl, rfl⟩, rfl⟩

/-- A section under the submission lock that begins with the admission check. -/
theorem conduct_submission {block : AppProgram α} {Q : α → Prop}
    (hb : Follows discipline (fun a ℓ' => ℓ' = inside task upload' ∧ Q a)
      (fun _ ℓ' => ℓ' = inside task upload) block (inside task upload)) :
    Follows discipline (fun a ℓ' => ℓ' = atRest task upload' ∧ Q a)
      (fun _ ℓ' => ℓ' = atRest task upload)
      (withLock .submission (requireAcceptingMutationsLocked >>= fun _ => block))
      (atRest task upload) := by
  refine conduct_withLock (Follows.bind ((conduct_requireAccepting).conseq (fun _ _ h => h) ?_) ?_)
  · rintro _ _ rfl
    exact ⟨entering_released.1, entering_released.2⟩
  · rintro _ _ rfl
    refine hb.conseq ?_ ?_
    · rintro a _ ⟨rfl, ha⟩
      exact ⟨inside_released.1, inside_released.2, ha⟩
    · rintro _ _ rfl
      exact ⟨inside_released.1, inside_released.2⟩

theorem conduct_admitted {block : AppProgram α} {Q : α → Prop}
    (hb : Follows discipline (fun a ℓ' => ℓ' = inside task upload' ∧ Q a)
      (fun _ ℓ' => ℓ' = inside task upload) block (inside task upload)) :
    Follows discipline (fun a ℓ' => ℓ' = atRest task upload' ∧ Q a)
      (fun _ ℓ' => ℓ' = atRest task upload) (admitted block) (atRest task upload) := by
  refine conduct_submission (Follows.bind (conduct_requireIdle inside_controller) ?_)
  rintro _ _ rfl
  exact hb

end IngressApi

/-! ## Uploads -/

/-- A program that leaves the standing as it finds it. -/
def Steady (p : AppProgram α) : Prop :=
  ∀ ℓ, Follows discipline (fun _ ℓ' => ℓ' = ℓ) (fun _ ℓ' => ℓ' = ℓ) p ℓ

namespace Steady

theorem ret (a : α) : Steady (.ret a) := fun _ => Follows.ret rfl

theorem raise (e : Exn) : Steady (.raise e : AppProgram α) := fun _ => Follows.raise rfl

theorem bind {p : AppProgram α} {f : α → AppProgram β} (hp : Steady p) (hf : ∀ a, Steady (f a)) :
    Steady (p >>= f) := by
  refine fun ℓ => Follows.bind (hp ℓ) ?_
  rintro a _ rfl
  exact hf a _

theorem ofExcept (x : Except Exn α) : Steady (.ofExcept x) := by
  cases x with
  | ok a => exact ret a
  | error e => exact raise e

theorem ensuring {p : AppProgram α} {release : Except Exn α → AppProgram Unit} (hp : Steady p)
    (hr : ∀ x, Steady (release x)) : Steady (p.ensuring release) := by
  refine fun ℓ => Follows.ensuring (hp ℓ) ?_ ?_
  · rintro a _ rfl
    exact hr _ _
  · rintro e _ rfl
    exact hr _ _

theorem loop {σ : Type} {body : σ → AppProgram (σ ⊕ α)} (hb : ∀ s, Steady (body s)) (n : ℕ)
    (s : σ) : Steady (.loop body n s) := by
  refine fun ℓ => Follows.loop (K := fun _ ℓ' => ℓ' = ℓ) ?_ n rfl
  rintro s _ rfl
  exact (hb s _).conseq (fun _ _ h => ⟨fun _ _ => h, fun _ _ => h⟩) fun _ _ h => h

end Steady

theorem steady_fileStep (path : Path) (step : FileStep) : Steady (fileStep path step) :=
  fun _ => conduct_call trivial fun answer _ => Steady.ofExcept answer _

theorem steady_copyChunk (path : Path) (remaining : ℕ) : Steady (copyChunk path remaining) := by
  unfold copyChunk
  split_ifs with hzero
  · exact .ret _
  refine fun ℓ => conduct_call trivial fun answer _ => ?_
  refine Steady.bind (.ofExcept answer) (fun chunk => ?_) ℓ
  split_ifs with hempty hlong
  · exact .raise _
  · exact .raise _
  · exact (steady_fileStep _ _).bind fun _ => .ret _

theorem steady_fillUpload (path : Path) (contentLength : ℕ) :
    Steady (fillUpload path contentLength) := by
  have hcopy : Steady (copyUpload path contentLength) :=
    (Steady.loop (steady_copyChunk path) _ _).bind fun _ =>
      (steady_fileStep _ _).bind fun _ => steady_fileStep _ _
  exact (steady_fileStep _ _).bind fun _ =>
    (hcopy.ensuring fun _ => steady_fileStep _ _).bind fun _ => steady_fileStep _ _

/-- An upload that fails is deleted. -/
theorem conduct_unlinkOnError {path : Path} {block : AppProgram α} {R : α → Standing → Prop}
    (hb : Follows discipline R (fun _ ℓ' => ℓ' = atRest task (some path)) block ℓ) :
    Follows discipline R (fun _ ℓ' => ℓ' = atRest task none) (unlinkOnError path block) ℓ := by
  refine Follows.attempt_bind hb (fun a ℓ h => Follows.ret h) ?_
  rintro e _ rfl
  refine conduct_call (.inl rfl) fun _ _ => Follows.raise ?_
  simp [atRest, Standing.rest]

theorem conduct_writeUpload {contentLength : ℕ} (hrole : ∃ n, task = .validateUpload n) :
    Follows discipline (fun path ℓ' => ℓ' = atRest task (some path))
      (fun _ ℓ' => ℓ' = atRest task none) (writeUpload contentLength) (atRest task none) := by
  obtain ⟨n, rfl⟩ := hrole
  unfold writeUpload
  split_ifs with hlength
  · exact Follows.raise rfl
  refine conduct_call trivial fun (made : Except Exn Unit) _ => ?_
  refine Follows.bind (Steady.ofExcept made _) ?_
  rintro _ _ rfl
  refine conduct_call ⟨rfl, n, rfl⟩ fun (named : Except Exn Path) _ => ?_
  cases named with
  | error e => exact Follows.raise rfl
  | ok path =>
    change Follows discipline _ _
      (unlinkOnError path (fillUpload path contentLength) >>= fun _ => .ret path)
      (atRest (.validateUpload n) (some path))
    refine Follows.bind (conduct_unlinkOnError (steady_fillUpload path contentLength _)) ?_
    rintro _ _ rfl
    exact Follows.ret rfl

theorem parseHex_path {source : List UInt8} {path : Path} {image : HexImage}
    (h : HexFile.parseHex source path = .ok image) : image.path = path := by
  unfold HexFile.parseHex at h
  split at h
  · cases h
  · rename_i text _
    dsimp only at h
    split_ifs at h
    cases hs : HexFile.scanLines 1 HexFile.Scan.initial (splitlines text) with
    | error e => simp [hs, bind, Except.bind] at h
    | ok s =>
      cases hlowest : s.lowestAddress with
      | none =>
        simp only [hs, hlowest, bind, Except.bind] at h
        split_ifs at h
      | some lowest =>
        simp only [hs, hlowest, bind, Except.bind] at h
        split_ifs at h
        cases h
        rfl

namespace IngressApi
variable {settings : Settings}

theorem conduct_stageUpload {path : Path} {contentLength : ℕ} :
    Follows discipline (fun _ ℓ' => ℓ' = atRest (.validateUpload contentLength) none)
      (fun _ ℓ' => ℓ' = atRest (.validateUpload contentLength) (some path))
      (stageUpload settings path) (atRest (.validateUpload contentLength) (some path)) := by
  refine Follows.bind (conduct_onFlasher _) ?_
  rintro image _ ⟨rfl, t, himage⟩
  refine Follows.bind (conduct_onFlasher _) ?_
  rintro preflight _ ⟨rfl, -⟩
  obtain ⟨source, -, hparse⟩ := Flasher.parseHexFile_returned himage
  have hoff : ArtifactRegistry.Off (inside (.validateUpload contentLength) (some path)) :=
    inside_registry
  have hstage := ArtifactRegistry.conduct_stage image preflight hoff
    ⟨rfl, rfl, congrArg some (parseHex_path hparse).symm, ⟨contentLength, rfl⟩, rfl⟩
  refine Follows.bind (R := fun _ ℓ' => ℓ' = atRest (.validateUpload contentLength) none ∧ True)
    (conduct_admitted (hstage.conseq ?_ fun _ _ h => h)) ?_
  · rintro _ _ rfl
    exact ⟨rfl, trivial⟩
  · rintro _ _ ⟨rfl, -⟩
    exact Follows.ret rfl

theorem conduct_validateUpload {contentLength : ℕ} :
    Follows discipline (fun _ ℓ' => ℓ' = atRest (.validateUpload contentLength) none)
      (fun _ ℓ' => ℓ' = atRest (.validateUpload contentLength) none)
      (validateUpload settings contentLength) (atRest (.validateUpload contentLength) none) := by
  refine Follows.bind (conduct_admitted (Q := fun _ => True) (Follows.ret ⟨rfl, trivial⟩)) ?_
  rintro _ _ ⟨rfl, -⟩
  refine Follows.bind (conduct_writeUpload ⟨contentLength, rfl⟩) ?_
  rintro path _ rfl
  exact conduct_unlinkOnError conduct_stageUpload

/-! ## Flashing -/

theorem conduct_requireRecoveryConsent {preflight : FlashPreflight}
    {confirmUnpairedRecovery : Json} :
    Follows discipline
      (fun _ ℓ' => ℓ' = ℓ ∧
        (preflight.manualRecovery.isSome → confirmUnpairedRecovery = .bool true))
      (fun _ ℓ' => ℓ' = ℓ) (requireRecoveryConsent preflight confirmUnpairedRecovery) ℓ := by
  unfold requireRecoveryConsent
  split
  · exact Follows.ret ⟨rfl, fun _ => rfl⟩
  · exact Follows.raise rfl
  · rename_i hnone
    exact Follows.ret ⟨rfl, by simp [hnone]⟩
  · rename_i hnone
    exact Follows.ret ⟨rfl, by simp [hnone]⟩
  · exact Follows.raise rfl

/-- Under the submission lock, with a claim on the entry. -/
def claiming (task : Task) (c : Claim) : Standing := { inside task none with claim := some c }

theorem conduct_submitClaimed {artifactId : String} (entry : StagedArtifact) (readAt : Option ℚ)
    {confirmUnpairedRecovery : Json}
    (htask : task = .flash (.str artifactId) (.bool true) confirmUnpairedRecovery) :
    Follows discipline
      (fun _ ℓ' => ℓ' = claiming task ⟨artifactId, entry, readAt, true⟩)
      (fun _ ℓ' => ℓ' = inside task none)
      (submitClaimed artifactId entry confirmUnpairedRecovery)
      (claiming task ⟨artifactId, entry, readAt, false⟩) := by
  refine Follows.attempt_bind
    (R := fun _ ℓ' => ℓ' = claiming task ⟨artifactId, entry, readAt, true⟩)
    (F := fun _ ℓ' => ℓ' = claiming task ⟨artifactId, entry, readAt, false⟩) ?_ ?_ ?_
  · refine Follows.bind conduct_requireRecoveryConsent ?_
    rintro _ _ ⟨rfl, hconsent⟩
    refine OperationController.conduct_submit
      (ℓ := claiming task ⟨artifactId, entry, readAt, false⟩)
      (c := ⟨artifactId, entry, readAt, false⟩) ⟨rfl, rfl, rfl⟩ ⟨rfl, rfl, rfl, rfl, rfl, rfl,
        fun _ => ⟨confirmUnpairedRecovery, ?_, hconsent⟩⟩
    exact congrArg Role.request htask
  · rintro operation _ rfl
    exact Follows.ret rfl
  · rintro e _ rfl
    refine Follows.bind ((ArtifactRegistry.conduct_releaseClaim
      (c := ⟨artifactId, entry, readAt, false⟩) ⟨rfl, rfl, rfl, rfl, rfl⟩ rfl rfl).conseq
        (fun _ _ h => h) fun _ _ h => h.elim) ?_
    rintro _ _ rfl
    exact Follows.raise rfl

theorem conduct_flashClaimed {artifactId : String} {confirmUnpairedRecovery : Json}
    (htask : task = .flash (.str artifactId) (.bool true) confirmUnpairedRecovery) :
    Follows discipline (fun _ ℓ' => ℓ' = inside task none ∧ True)
      (fun _ ℓ' => ℓ' = inside task none)
      (do
        let artifact ← ArtifactRegistry.claim (.str artifactId)
        let operation ← submitClaimed artifactId artifact confirmUnpairedRecovery
        ArtifactRegistry.consume artifactId
        return operation) (inside task none) := by
  refine Follows.bind (ArtifactRegistry.conduct_claim inside_registry rfl rfl
    ⟨confirmUnpairedRecovery, congrArg Role.request htask⟩) ?_
  rintro entry _ ⟨hclaimed, readAt, rfl⟩
  refine Follows.bind (conduct_submitClaimed entry readAt htask) ?_
  rintro operation _ rfl
  refine Follows.bind ((ArtifactRegistry.conduct_consume (c := ⟨artifactId, entry, readAt, true⟩)
    ⟨rfl, rfl, rfl, rfl, rfl⟩ rfl rfl hclaimed).conseq (fun _ _ h => h) fun _ _ h => h.elim) ?_
  rintro _ _ rfl
  exact Follows.ret ⟨rfl, trivial⟩

theorem conduct_flash {artifactId confirm confirmUnpairedRecovery : Json}
    (htask : task = .flash artifactId confirm confirmUnpairedRecovery) :
    Follows discipline (fun _ ℓ' => ℓ' = atRest task none) (fun _ ℓ' => ℓ' = atRest task none)
      (flash artifactId confirm confirmUnpairedRecovery) (atRest task none) := by
  unfold flash
  split
  · split
    · refine Follows.bind (conduct_submission (conduct_flashClaimed htask)) ?_
      rintro _ _ ⟨rfl, -⟩
      exact Follows.ret rfl
    · exact Follows.raise rfl
  · exact Follows.raise rfl

/-! ## The other requests -/

theorem conduct_expire :
    Follows discipline (fun _ ℓ' => ℓ' = atRest task upload) (fun _ ℓ' => ℓ' = atRest task upload)
      expire (atRest task upload) :=
  (ArtifactRegistry.conduct_expire atRest_registry rfl).conseq (fun _ _ h => h) fun _ _ h => h.elim

theorem conduct_snapshot :
    Follows discipline (fun _ ℓ' => ℓ' = atRest task none) (fun _ ℓ' => ℓ' = atRest task none)
      OperationController.snapshot (atRest task none) :=
  (OperationController.conduct_snapshot atRest_controller).conseq (fun _ _ h => h)
    fun _ _ h => h.elim

theorem conduct_operation :
    Follows discipline (fun _ ℓ' => ℓ' = atRest task none) (fun _ ℓ' => ℓ' = atRest task none)
      operation (atRest task none) := by
  refine Follows.bind conduct_expire ?_
  rintro _ _ rfl
  exact conduct_snapshot

theorem conduct_status :
    Follows discipline (fun _ ℓ' => ℓ' = atRest task none) (fun _ ℓ' => ℓ' = atRest task none)
      (status settings) (atRest task none) := by
  refine Follows.bind conduct_expire ?_
  rintro _ _ rfl
  refine Follows.attempt_bind (conduct_onFlasher _) ?_ ?_
  · rintro device _ ⟨rfl, -⟩
    refine Follows.bind conduct_snapshot ?_
    rintro c _ rfl
    exact Follows.ret rfl
  · rintro err _ rfl
    refine Follows.bind conduct_snapshot ?_
    rintro c _ rfl
    exact Follows.ret rfl

/-- A command to the device, sent while admission is locked. -/
theorem conduct_exclusive {p : Program α} :
    Follows discipline (fun _ ℓ' => ℓ' = atRest task none) (fun _ ℓ' => ℓ' = atRest task none)
      (admitted (withLock .flash (onFlasher p))) (atRest task none) := by
  refine (conduct_admitted (Q := fun _ => True) (conduct_flashLock.conseq ?_ fun _ _ h => h)).conseq
    (fun _ _ h => h.1) fun _ _ h => h
  rintro _ _ rfl
  exact ⟨rfl, trivial⟩

theorem conduct_setLed {fuel : ℕ} {mode : Json} :
    Follows discipline (fun _ ℓ' => ℓ' = atRest task none) (fun _ ℓ' => ℓ' = atRest task none)
      (setLed fuel settings mode) (atRest task none) := by
  unfold setLed
  split
  · exact Follows.raise rfl
  · exact conduct_exclusive

end IngressApi

namespace IngressServer

theorem conduct_reapExpiredArtifacts {fuel : ℕ} :
    Follows discipline (fun _ ℓ' => ℓ' = atRest task none) (fun _ ℓ' => ℓ' = atRest task none)
      (reapExpiredArtifacts fuel) (atRest task none) := by
  refine Follows.loop (K := fun _ ℓ' => ℓ' = atRest task none) ?_ fuel rfl
  rintro _ _ rfl
  refine conduct_call trivial fun (stopped : Bool) _ => ?_
  cases stopped with
  | true => exact Follows.ret ⟨fun _ _ => rfl, fun _ _ => rfl⟩
  | false =>
    refine Follows.bind IngressApi.conduct_expire ?_
    rintro _ _ rfl
    exact Follows.ret ⟨fun _ _ => rfl, fun _ _ => rfl⟩

end IngressServer

/-- Every request ends as it began. -/
theorem Task.conduct_program {fuel : ℕ} {settings : Settings} (task : Task) :
    Follows discipline (fun _ ℓ' => ℓ' = atRest task none) (fun _ ℓ' => ℓ' = atRest task none)
      (task.program fuel settings) (Standing.born task) := by
  cases task with
  | status => exact IngressApi.conduct_status.bind fun _ _ h => Follows.ret h
  | operation => exact IngressApi.conduct_operation.bind fun _ _ h => Follows.ret h
  | validateUpload contentLength =>
    exact IngressApi.conduct_validateUpload.bind fun _ _ h => Follows.ret h
  | flash artifactId confirm confirmUnpairedRecovery =>
    exact (IngressApi.conduct_flash rfl).bind fun _ _ h => Follows.ret h
  | setLed mode => exact IngressApi.conduct_setLed.bind fun _ _ h => Follows.ret h
  | diagnostics => exact IngressApi.conduct_exclusive.bind fun _ _ h => Follows.ret h
  | reaper => exact IngressServer.conduct_reapExpiredArtifacts

end Cul868Flasher
