import Cul868Flasher.Ingress.Discipline

/-!
# The controller's methods keep the discipline

Each method takes a thread from a standing outside the controller's lock to
another one. What the worker relies on is that the fields show the operation it
answers for; so none of its calls raises.
-/

namespace Cul868Flasher
open Python Effects

variable {α β : Type} {ℓ : Standing} {Q : α → Standing → Prop} {E : Exn → Standing → Prop}

theorem conduct_call {o : AppOp} {f : App.Ans o → AppProgram β} {Q : β → Standing → Prop}
    (ho : ℓ.Allows o)
    (hf : ∀ a, ℓ.Trusts o a → Follows discipline Q E (f a) (ℓ.after o a)) :
    Follows discipline Q E (call o >>= f) ℓ :=
  Follows.step ho hf

theorem conduct_withLock {lock : Lock} {block : AppProgram α}
    (hb : Follows discipline
      (fun a ℓ => (lock ∈ ℓ.held ∧ ℓ.MayRelease lock) ∧ Q a (ℓ.after (.release lock) ()))
      (fun e ℓ => (lock ∈ ℓ.held ∧ ℓ.MayRelease lock) ∧ E e (ℓ.after (.release lock) ()))
      block (ℓ.after (.acquire lock) ())) :
    Follows discipline Q E (withLock lock block) ℓ := by
  refine conduct_call trivial fun _ _ => ?_
  refine Follows.ensuring hb (fun a ℓ h => ?_) fun e ℓ h => ?_
  · exact Follows.perform h.1 fun _ _ => h.2
  · exact Follows.perform h.1 fun _ _ => h.2

namespace OperationController

/-- Nothing is left over from a section under the controller's lock. -/
structure Off (ℓ : Standing) : Prop where
  fields : ℓ.fields = none
  stopSeen : ℓ.stopSeen = none
  unmarked : ℓ.unmarked = none

/-- What a section leaves behind once the lock is given back. -/
theorem Off.released (h : Off ℓ) {ℓ' : Standing} (fields : Option Controller)
    (seen : Option (Option Bool)) (claim : Option Claim) (job : Job) (phase : Phase)
    (hℓ : ℓ' =
      { ℓ with held := .controller :: ℓ.held, fields, stopSeen := seen, claim, job, phase }) :
    (.controller ∈ ℓ'.held ∧ ℓ'.MayRelease .controller) ∧
      ℓ'.after (.release .controller) () = { ℓ with claim, job, phase } := by
  obtain ⟨hf, hs, hu⟩ := h
  subst hℓ
  refine ⟨by simp [hu], ?_⟩
  simp [← hf, ← hs]

theorem conduct_update {u : Update} {Q : Unit → Standing → Prop} (hl : .controller ∈ ℓ.held)
    (hu : ℓ.MayUpdate u) (hQ : ∀ now, Q () (ℓ.after (.update u now) ())) :
    Follows discipline Q E (update u) ℓ :=
  conduct_call trivial fun _ _ => Follows.perform ⟨hl, hu⟩ fun _ _ => hQ _

theorem conduct_update_bind {u : Update} {f : Unit → AppProgram β} {Q : β → Standing → Prop}
    (hl : .controller ∈ ℓ.held) (hu : ℓ.MayUpdate u)
    (hf : ∀ now, Follows discipline Q E (f ()) (ℓ.after (.update u now) ())) :
    Follows discipline Q E (update u >>= f) ℓ :=
  (conduct_update hl hu fun now => ⟨now, rfl⟩).bind
    (R := fun _ ℓ' => ∃ now, ℓ' = ℓ.after (.update u now) ()) fun _ _ ⟨now, h⟩ => h ▸ hf now

theorem conduct_snapshot (h : Off ℓ) :
    Follows discipline (fun _ ℓ' => ℓ' = ℓ) (fun _ _ => False) snapshot ℓ := by
  refine conduct_withLock (Follows.perform (by simp) fun c _ => ?_)
  exact h.released (some c) (some none) ℓ.claim ℓ.job ℓ.phase rfl

/-! ## Submission -/

/-- The operation that a request is about to put in the queue. -/
structure Submits (ℓ : Standing) (c : Claim) (artifactId : String) (image : HexImage)
    (manualRecovery : Option ManualRecoveryTarget) : Prop where
  admitted : ℓ.admitted = true
  claimed : ℓ.claim = some c
  unsent : c.sent = false
  artifact : artifactId = c.identifier
  file : image = c.entry.image
  target : manualRecovery = c.entry.preflight.manualRecovery
  consents : ∀ operationId, ℓ.Consents ⟨operationId, artifactId, image, manualRecovery⟩

theorem conduct_submit {c : Claim} {artifactId : String} {image : HexImage}
    {manualRecovery : Option ManualRecoveryTarget} (h : Off ℓ)
    (hc : Submits ℓ c artifactId image manualRecovery) :
    Follows discipline (fun _ ℓ' => ℓ' = { ℓ with claim := some { c with sent := true } })
      (fun _ ℓ' => ℓ' = ℓ) (submit artifactId image manualRecovery) ℓ := by
  unfold submit
  split_ifs with hid
  · exact Follows.raise rfl
  refine conduct_call trivial fun operationId _ => ?_
  refine Follows.bind (R := fun _ ℓ' => ℓ' = { ℓ with claim := some { c with sent := true } }) ?_
    fun _ _ h => Follows.ret h
  refine conduct_withLock (conduct_call (by simp) fun (fields : Controller) _ => ?_)
  dsimp only
  split_ifs with hbusy
  · exact Follows.raise (h.released (some fields) (some none) ℓ.claim ℓ.job ℓ.phase rfl)
  have hput : ((ℓ.after (.acquire .controller) ()).after .controller fields).MayPut
      ⟨operationId, artifactId, image, manualRecovery⟩ :=
    { locked := by simp
      admitted := hc.admitted
      marked := h.unmarked
      notBusy := ⟨fields, rfl, by simpa using hbusy⟩
      claimed := ⟨c, hc.claimed, hc.unsent, hc.artifact, hc.file, hc.target⟩
      consents := hc.consents operationId }
  refine conduct_call hput fun put hput => ?_
  obtain rfl : put = true := hput
  simp only [Bool.not_true, Bool.false_eq_true, if_false]
  refine conduct_update (by simp) ⟨_, rfl, rfl⟩ fun now => ?_
  refine h.released (some (fields.update now (.queued operationId))) (some none)
    (some { c with sent := true }) ℓ.job ℓ.phase ?_
  simp [hc.claimed, h.unmarked]

/-! ## The worker's calls -/

/-- The answer to a look at the fields under the lock. -/
theorem conduct_requireCurrent {operation : FlashOperation} {Q : Unit → Standing → Prop}
    (hl : .controller ∈ ℓ.held)
    (hjob : ℓ.job = .taken operation ∨ ℓ.job = .running operation)
    (hQ : ∀ fields, Q () (ℓ.after .controller fields)) :
    Follows discipline Q (fun _ _ => False) (requireCurrent operation.operationId) ℓ := by
  refine conduct_call hl fun fields hfields => ?_
  have hcurrent : fields.operationId = some operation.operationId := by
    rcases hjob with hjob | hjob
    · exact (hfields.taken operation hjob).2
    · exact (hfields.running operation hjob).2
  rw [if_neg (by simpa using hcurrent)]
  exact Follows.ret (hQ fields)

theorem conduct_claimForRun {operation : FlashOperation} (h : Off ℓ)
    (hjob : ℓ.job = .taken operation) :
    Follows discipline
      (fun claimed ℓ' => ℓ' = { ℓ with
        job := if claimed then .running operation else .finished operation })
      (fun _ _ => False) (claimForRun operation.operationId) ℓ := by
  refine (conduct_withLock (E := fun _ _ => False) ?_)
  refine Follows.bind (R := fun _ ℓ' => ∃ fields, ℓ' = (ℓ.after (.acquire .controller) ()).after
    .controller fields) ?_ ?_
  · exact (conduct_requireCurrent (by simp) (.inl (by simpa using hjob)) fun fields =>
      ⟨fields, rfl⟩).conseq (fun _ _ h => h) fun _ _ h => h.elim
  rintro _ _ ⟨_, rfl⟩
  refine conduct_call (by simp) fun (fields : Controller) hfields => ?_
  have hqueued : fields.status = .queued := (hfields.taken operation (by simpa using hjob)).1
  rw [if_neg (by simpa using hqueued)]
  refine conduct_call trivial fun stopping _ => ?_
  cases stopping with
  | true =>
    refine conduct_update_bind (by simp) ⟨operation, by simpa using hjob⟩ fun now => ?_
    refine h.released (some (fields.update now (.discarded shutdownMessage))) (some (some true))
      ℓ.claim (.finished operation) ℓ.phase ?_
    simp [hjob]
  | false =>
    refine conduct_update_bind (by simp) ⟨by simp, operation, by simpa using hjob⟩ fun now => ?_
    refine h.released (some (fields.update now .running)) (some (some false))
      ℓ.claim (.running operation) ℓ.phase ?_
    simp [hjob]

theorem conduct_reportProgress {operation : FlashOperation} {percent : ℕ} {message : String}
    (h : Off ℓ) (hjob : ℓ.job = .running operation) (hpercent : percent ≤ 100) :
    Follows discipline (fun _ ℓ' => ℓ' = ℓ) (fun _ _ => False)
      (reportProgress operation.operationId percent message) ℓ := by
  unfold reportProgress
  rw [if_neg (by omega)]
  refine conduct_withLock ?_
  refine Follows.bind (R := fun _ ℓ' => ∃ fields, ℓ' = (ℓ.after (.acquire .controller) ()).after
    .controller fields) ?_ ?_
  · exact (conduct_requireCurrent (by simp) (.inr (by simpa using hjob)) fun fields =>
      ⟨fields, rfl⟩).conseq (fun _ _ h => h) fun _ _ h => h.elim
  rintro _ _ ⟨_, rfl⟩
  refine conduct_call (by simp) fun (fields : Controller) hfields => ?_
  have hrunning : fields.status = .running := (hfields.running operation (by simpa using hjob)).1
  rw [if_neg (by simpa using hrunning)]
  refine conduct_update (by simp) ⟨operation, by simpa using hjob⟩ fun now => ?_
  refine h.released (some (fields.update now (.progress percent (safeMessage message)))) (some none)
    ℓ.claim ℓ.job ℓ.phase ?_
  simp [hjob, h.unmarked]

/-- `complete` and `fail` finish the running operation. -/
theorem conduct_finish {operation : FlashOperation} {u : Update} (h : Off ℓ)
    (hjob : ℓ.job = .running operation)
    (hu : (∃ message, u = .succeeded message) ∨ ∃ message, u = .failed message) :
    Follows discipline (fun _ ℓ' => ℓ' = { ℓ with job := .finished operation }) (fun _ _ => False)
      (withLock .controller (finishLocked operation.operationId u)) ℓ := by
  refine conduct_withLock ?_
  refine Follows.bind (R := fun _ ℓ' => ∃ fields : Controller, ℓ' =
    (ℓ.after (.acquire .controller) ()).after .controller fields) ?_ ?_
  · exact (conduct_requireCurrent (by simp) (.inr (by simpa using hjob)) fun fields =>
      ⟨fields, rfl⟩).conseq (fun _ _ h => h) fun _ _ h => h.elim
  rintro _ _ ⟨fields, rfl⟩
  rcases hu with ⟨message, rfl⟩ | ⟨message, rfl⟩
  · refine conduct_update (by simp) ⟨operation, by simpa using hjob⟩ fun now => ?_
    refine h.released (some (fields.update now (.succeeded message))) (some none)
      ℓ.claim (.finished operation) ℓ.phase ?_
    simp [hjob, h.unmarked]
  · refine conduct_update (by simp) ⟨operation, by simpa using hjob⟩ fun now => ?_
    refine h.released (some (fields.update now (.failed message))) (some none)
      ℓ.claim (.finished operation) ℓ.phase ?_
    simp [hjob, h.unmarked]

/-! ## The final drain -/

/-- What `drain` hands over, and the job that is left with it. -/
def Drained : List FlashOperation → Job → Prop
  | [], job => job = .none
  | [operation], job => job = .finished operation
  | _, _ => False

/-- The job while the queue is emptied. -/
def Collected : List FlashOperation → Job → Prop
  | [], job => job = .none
  | [operation], job => job = .taken operation
  | _, _ => False

theorem conduct_takePending {pending : List FlashOperation} {ℓ₁ : Standing}
    (hrole : ℓ₁.role = .worker) (hlock : .controller ∈ ℓ₁.held) (hphase : ℓ₁.phase = .closed)
    (hjob : Collected pending ℓ₁.job) :
    Follows discipline
      (fun x ℓ' => (∀ more, x = .inl more → ∃ job, ℓ' = { ℓ₁ with job } ∧ Collected more job) ∧
        ∀ all, x = .inr all → ∃ job, ℓ' = { ℓ₁ with job, phase := .drained } ∧ Collected all job)
      (fun _ _ => False) (takePending pending) ℓ₁ := by
  have hallow : ℓ₁.Allows .getNowait := by
    refine ⟨hrole, hlock, hphase, ?_⟩
    match pending, hjob with
    | [], hjob => exact .inl hjob
    | [operation], hjob => exact .inr ⟨operation, hjob⟩
  refine conduct_call hallow fun (item : Option FlashOperation) hitem => ?_
  cases item with
  | none =>
    refine Follows.ret ⟨by rintro _ ⟨⟩, ?_⟩
    rintro _ ⟨⟩
    exact ⟨ℓ₁.job, by simp [hphase], hjob⟩
  | some operation =>
    refine Follows.ret ⟨?_, by rintro _ ⟨⟩⟩
    rintro _ ⟨⟩
    match pending, hjob with
    | [], hjob => exact ⟨.taken operation, by simp [hphase], rfl⟩
    | [first], hjob => cases hitem first hjob

theorem conduct_drain {fuel : ℕ} (h : Off ℓ) (hrole : ℓ.role = .worker)
    (hphase : ℓ.phase = .closed) (hjob : ℓ.job = .none) :
    Follows discipline
      (fun pending ℓ' => ∃ job, ℓ' = { ℓ with job, phase := .drained } ∧ Drained pending job)
      (fun _ _ => False) (drain fuel) ℓ := by
  refine conduct_withLock ?_
  let ℓ₁ := ℓ.after (.acquire .controller) ()
  refine Follows.bind (R := fun pending ℓ' => ∃ job,
    ℓ' = { ℓ₁ with job, phase := .drained } ∧ Collected pending job) ?_ ?_
  · refine Follows.loop (K := fun pending ℓ' => ∃ job, ℓ' = { ℓ₁ with job } ∧
      Collected pending job) ?_ fuel ⟨ℓ.job, rfl, hjob⟩
    rintro pending _ ⟨job, rfl, hcollected⟩
    exact (conduct_takePending (by simp [ℓ₁, hrole]) (by simp [ℓ₁]) (by simp [ℓ₁, hphase])
      hcollected).conseq (fun _ _ h => h) fun _ _ h => h.elim
  rintro pending _ ⟨job, rfl, hcollected⟩
  refine conduct_call (by simp [ℓ₁]) fun (fields : Controller) hfields => ?_
  match pending, hcollected with
  | [], hjob' =>
    rw [if_neg (by simp)]
    have hend := h.released (some fields) (some none) ℓ.claim job .drained rfl
    exact Follows.ret ⟨hend.1, job, hend.2, hjob'⟩
  | [operation], hjob' =>
    obtain rfl : job = .taken operation := hjob'
    rw [if_pos ⟨by simp, (hfields.taken operation rfl).1⟩]
    refine conduct_update_bind (by simp [ℓ₁]) ⟨operation, rfl⟩ fun now => Follows.ret ?_
    have hend := h.released (some (fields.update now (.discarded shutdownMessage)))
      (some none) ℓ.claim (.finished operation) .drained rfl
    exact ⟨hend.1, .finished operation, hend.2, rfl⟩

end OperationController
end Cul868Flasher
