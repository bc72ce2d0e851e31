import Cul868Flasher.Flasher.Reports
import Cul868Flasher.Ingress.Conduct.Requests

/-!
# The worker keeps the discipline

No call of the worker on the controller raises: the fields show the operation it
answers for, and the percentages of a flash are in range. Every way out of the
loop leads through the cleanup.
-/

namespace Cul868Flasher
open Python Effects

variable {α : Type} {ℓ : Standing} {operation : FlashOperation} {fuel : ℕ} {settings : Settings}

/-- The worker outside all locks. -/
def working (job : Job) (phase : Phase) : Standing := .rest .worker none job phase

theorem working_controller {job : Job} {phase : Phase} :
    OperationController.Off (working job phase) := ⟨rfl, rfl, rfl⟩

namespace Main

theorem conduct_watched {p : AppProgram α} {Q : α → Standing → Prop}
    (hp : Follows discipline Q (fun _ _ => False) p ℓ) :
    Follows discipline Q (fun _ _ => False) (watched p) ℓ :=
  Follows.attempt_bind hp (fun _ _ h => Follows.ret h) fun _ _ h => h.elim

/-! ## The flash -/

/-- The worker while the flasher works for it. -/
def flashing (operation : FlashOperation) : Standing :=
  { working (.running operation) .serving with held := [.flash] }

theorem conduct_reporter (o : World.Op) (ho : Mild o) :
    Follows discipline (fun _ ℓ' => ℓ' = flashing operation) (fun _ _ => False)
      (reporter operation.operationId o) (flashing operation) := by
  cases o with
  | report percent message =>
    have hwatched : Follows discipline (fun _ ℓ' => ℓ' = flashing operation) (fun _ _ => False)
        (watched (OperationController.reportProgress operation.operationId percent message))
        (flashing operation) :=
      conduct_watched (OperationController.conduct_reportProgress ⟨rfl, rfl, rfl⟩ rfl ho)
    refine hwatched.attempt.conseq ?_ fun _ _ h => h
    rintro x ℓ ⟨hok, herr⟩
    cases x with
    | ok a => exact hok a rfl
    | error e => exact (herr e rfl).elim
  | _ => exact Follows.perform trivial fun _ _ => rfl

theorem conduct_flashReported :
    Follows discipline (fun _ ℓ' => ℓ' = working (.running operation) .serving)
      (fun _ ℓ' => ℓ' = working (.running operation) .serving)
      (flashReported fuel settings operation) (working (.running operation) .serving) := by
  refine conduct_withLock ((Follows.handle (K := fun ℓ' => ℓ' = flashing operation) ?_
    (Flasher.flash_mild fuel settings _ _) rfl).conseq ?_ ?_)
  · rintro o _ ho rfl
    exact conduct_reporter o ho
  · rintro _ _ ⟨rfl, -⟩
    exact ⟨⟨by simp [flashing], trivial⟩, rfl⟩
  · rintro _ _ rfl
    exact ⟨⟨by simp [flashing], trivial⟩, rfl⟩

theorem conduct_flashAndReport :
    Follows discipline (fun _ ℓ' => ℓ' = working (.finished operation) .serving)
      (fun _ _ => False) (flashAndReport fuel settings operation)
      (working (.running operation) .serving) := by
  refine Follows.attempt_bind conduct_flashReported ?_ ?_
  · rintro result _ rfl
    exact conduct_watched (OperationController.conduct_finish working_controller rfl
      (.inl ⟨_, rfl⟩))
  · rintro err _ rfl
    exact conduct_watched (OperationController.conduct_finish working_controller rfl
      (.inr ⟨_, rfl⟩))

theorem conduct_discardImage {phase : Phase} :
    Follows discipline (fun _ ℓ' => ℓ' = working .none phase) (fun _ _ => False)
      (IngressApi.discardImage operation.image) (working (.finished operation) phase) := by
  refine Follows.perform (.inr (.inr ⟨operation, rfl, rfl⟩)) fun _ _ => ?_
  simp [discipline, working, Standing.rest]

/-! ## The loop -/

theorem conduct_workerPass :
    Follows discipline (fun _ ℓ' => ℓ' = working .none .serving) (fun _ _ => False)
      (workerPass fuel settings ()) (working .none .serving) := by
  refine conduct_call trivial fun (stopping : Bool) _ => ?_
  cases stopping with
  | true => exact Follows.ret rfl
  | false =>
    refine Follows.bind (R := fun item ℓ' => ℓ' = working (Job.none.take item) .serving)
      (conduct_watched (Follows.perform ⟨rfl, rfl, rfl⟩ fun item _ => rfl)) ?_
    rintro item _ rfl
    cases item with
    | none => exact Follows.ret rfl
    | some operation =>
      refine Follows.bind (conduct_watched
        (OperationController.conduct_claimForRun working_controller rfl)) ?_
      rintro claimed _ rfl
      cases claimed with
      | false =>
        refine Follows.bind conduct_discardImage ?_
        rintro _ _ rfl
        exact Follows.ret rfl
      | true =>
        refine Follows.bind (Follows.ensuring (Q := fun _ ℓ' => ℓ' = working .none .serving)
          conduct_flashAndReport ?_ fun _ _ h => h.elim) ?_
        · rintro _ _ rfl
          exact conduct_discardImage
        · rintro _ _ rfl
          exact Follows.ret rfl

theorem conduct_verifyStartupFirmware :
    Follows discipline (fun _ ℓ' => ℓ' = working .none .serving)
      (fun _ ℓ' => ℓ' = working .none .serving)
      (verifyStartupFirmware fuel settings) (working .none .serving) :=
  Follows.catching_bind conduct_flashLock (fun _ _ h => Follows.ret h)
    (fun _ _ _ h => Follows.ret h) fun _ _ _ h => h

/-! ## The cleanup -/

theorem conduct_closeAdmission {phase : Phase} (hphase : phase ≠ .booting) :
    Follows discipline (fun _ ℓ' => ℓ' = working .none phase.close) (fun _ _ => False)
      IngressApi.closeAdmission (working .none phase) :=
  conduct_withLock (Follows.perform ⟨by simp, rfl, hphase, rfl⟩ fun _ _ =>
    ⟨⟨by simp [discipline], rfl, rfl, rfl⟩, rfl⟩)

theorem conduct_discardAll {pending : List FlashOperation} {job : Job} (phase : Phase)
    (h : OperationController.Drained pending job) :
    Follows discipline (fun _ ℓ' => ℓ' = working .none phase) (fun _ _ => False)
      (discardAll pending) (working job phase) := by
  match pending, h with
  | [], h =>
    obtain rfl : job = .none := h
    exact Follows.ret rfl
  | [operation], h =>
    obtain rfl : job = .finished operation := h
    refine Follows.bind conduct_discardImage ?_
    rintro _ _ rfl
    exact Follows.ret rfl

theorem conduct_cleanUp :
    Follows discipline (fun _ ℓ' => ℓ' = working .none .cleared) (fun _ _ => False)
      (cleanUp fuel) (working .none .serving) := by
  refine Follows.bind (conduct_closeAdmission (by simp)) ?_
  rintro _ _ rfl
  refine Follows.bind (R := fun _ ℓ' => ℓ' = working .none .closed)
    (Follows.bind (conduct_closeAdmission (by simp)) ?_) ?_
  · rintro _ _ rfl
    exact Follows.perform trivial fun _ _ => rfl
  rintro _ _ rfl
  refine Follows.bind (conduct_watched
    (OperationController.conduct_drain working_controller rfl rfl rfl)) ?_
  rintro pending _ ⟨job, rfl, hdrained⟩
  refine Follows.bind (conduct_discardAll .drained hdrained) ?_
  rintro _ _ rfl
  refine Follows.bind (conduct_closeAdmission (by simp)) ?_
  rintro _ _ rfl
  exact ArtifactRegistry.conduct_close ⟨rfl, rfl, rfl, rfl, rfl⟩ rfl rfl rfl

theorem conduct_run :
    Follows discipline (fun _ ℓ' => ℓ' = working .none .cleared)
      (fun _ ℓ' => ℓ' = working .none .booting ∨ ℓ' = working .none .cleared)
      (run fuel settings) (working .none .booting) := by
  refine conduct_call ⟨rfl, rfl⟩ fun (started : Except Exn Unit) _ => ?_
  cases started with
  | error e => exact Follows.raise (.inl rfl)
  | ok _ =>
    change Follows discipline _ _ (Prog.ensuring _ _) (working .none .serving)
    refine Follows.ensuring (R := fun _ ℓ' => ℓ' = working .none .serving)
      (F := fun _ ℓ' => ℓ' = working .none .serving) ?_ ?_ ?_
    · refine Follows.bind conduct_verifyStartupFirmware ?_
      rintro _ _ rfl
      refine Follows.loop (K := fun _ ℓ' => ℓ' = working .none .serving) ?_ fuel rfl
      rintro _ _ rfl
      exact conduct_workerPass.conseq (fun _ _ h => ⟨fun _ _ => h, fun _ _ => h⟩)
        fun _ _ h => h.elim
    · rintro _ _ rfl
      exact conduct_cleanUp.conseq (fun _ _ h => h) fun _ _ h => h.elim
    · rintro _ _ rfl
      exact conduct_cleanUp.conseq (fun _ _ h => .inr h) fun _ _ h => h.elim

end Main
end Cul868Flasher
