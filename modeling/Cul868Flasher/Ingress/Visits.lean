import Cul868Flasher.Ingress.Locking

/-!
# Requests on an idle device

A request that touches the device has found, under the submission lock, that no
flash is queued or running. Nothing is queued before it gives the lock back.
-/

namespace Cul868Flasher
open Python Effects

/-- What a thread has done and found under the submission lock. -/
structure Visit where
  /-- The worker runs the flashes; nothing is asked of it here. -/
  exempt : Bool
  entered : Bool
  /-- The controller was found without a flash since. -/
  idle : Bool

namespace Visit

def outside : Visit := ⟨false, false, false⟩

@[simp] def Allows (v : Visit) : App.Op → Prop
  | .flasher o => o.kind.onDevice = true → v.exempt = true ∨ v.idle = true
  | .update (.queued _) _ => v.exempt = true ∨ v.entered = true
  | _ => True

@[simp] def after (v : Visit) (o : App.Op) (a : App.Ans o) : Visit := match o, a with
  | .acquire .submission, _ => { v with entered := true }
  | .release .submission, _ => { v with entered := false, idle := false }
  | .controller, c =>
    let c : Controller := c
    { v with idle := v.entered && !c.status.busy }
  | .update _ _, _ => { v with idle := false }
  | _, _ => v

theorem after_exempt (v : Visit) (o : App.Op) (a : App.Ans o) :
    (v.after o a).exempt = v.exempt := by
  cases o with
  | acquire lock => cases lock <;> rfl
  | release lock => cases lock <;> rfl
  | _ => rfl

end Visit

def visiting : Discipline App Visit where
  allows := Visit.Allows
  trusts _ _ _ := True
  after := Visit.after

variable {α β : Type} {fuel : ℕ} {settings : Settings}

/-- The program keeps to the discipline from wherever `K` holds. -/
abbrev Visits (K : Visit → Prop) (p : AppProgram α) : Prop :=
  ∀ v, K v → Follows visiting (fun _ _ => True) (fun _ _ => True) p v

/-! ## Programs that leave the device alone -/

/-- The calls off the device that queue no operation. -/
def aloofKinds : List CallKind :=
  [.lock .submission, .lock .flash, .lock .registry, .lock .controller, .step, .change, .staging,
    .inspection]

abbrev Aloof (p : AppProgram α) : Prop := Confined aloofKinds p

theorem aloof_allows {o : App.Op} (ho : AppOp.kind o ∈ aloofKinds) (v : Visit) : v.Allows o := by
  cases o with
  | flasher o =>
    intro hdevice
    rw [AppOp.kind_onDevice hdevice] at ho
    exact absurd ho (by decide)
  | update u now =>
    cases u with
    | queued =>
      have hsubmission : CallKind.submission ∉ aloofKinds := by decide
      exact absurd ho hsubmission
    | _ => trivial
  | _ => trivial

theorem Aloof.visits {K : Visit → Prop} {p : AppProgram α} (h : Aloof p) : Visits K p := fun _ _ =>
  (Follows.keeping (K := fun _ => True) h (fun v _ ho _ => ⟨aloof_allows ho v, fun _ => trivial⟩)
    trivial).conseq (fun _ _ _ => trivial) fun _ _ _ => trivial

/-! ## Under the submission lock -/

theorem entered_kept {v : Visit} {o : App.Op} (ho : AppOp.kind o ∈ clearKinds .submission)
    (hv : v.entered = true) :
    v.Allows o ∧ ∀ a, (v.after o a).entered = true := by
  cases o with
  | acquire lock => cases lock <;> exact ⟨trivial, fun _ => by first | exact hv | rfl⟩
  | release lock =>
    refine ⟨trivial, fun _ => ?_⟩
    cases lock with
    | submission => exact absurd ho (by decide)
    | _ => exact hv
  | flasher o =>
    refine ⟨fun hdevice => ?_, fun _ => hv⟩
    rw [AppOp.kind_onDevice hdevice] at ho
    exact absurd ho (by decide)
  | update u now => cases u <;> first | exact ⟨trivial, fun _ => hv⟩ | exact ⟨.inr hv, fun _ => hv⟩
  | _ => exact ⟨trivial, fun _ => hv⟩

/-- What stays under the lock keeps the visit. -/
theorem follows_clear {p : AppProgram α} (hp : Clears .submission p) {v : Visit}
    (hv : v.entered = true) :
    Follows visiting (fun _ v => v.entered = true) (fun _ _ => True) p v :=
  (Follows.keeping (K := fun v : Visit => v.entered = true) hp (fun _ _ ho hv => entered_kept ho hv)
    hv).conseq (fun _ _ h => h) fun _ _ _ => trivial

theorem visits_submission {block : AppProgram α} (hb : Visits (fun v => v.entered = true) block) :
    Visits (fun _ => True) (withLock .submission block) := by
  intro v _
  refine Follows.step trivial fun _ _ => (hb _ rfl).ensuring ?_ ?_
  · exact fun _ _ _ => .perform trivial fun _ _ => trivial
  · exact fun _ _ _ => .perform trivial fun _ _ => trivial

theorem follows_snapshot {v : Visit} (hv : v.entered = true) :
    Follows visiting (fun (c : Controller) v => v.idle = !c.status.busy) (fun _ _ => True)
      OperationController.snapshot v := by
  refine Follows.step trivial fun _ _ => ?_
  refine Follows.ensuring (R := fun (c : Controller) v => v.idle = !c.status.busy)
    (F := fun _ _ => True) ?_ ?_ ?_
  · refine .perform trivial fun c _ => ?_
    change (v.entered && !(Controller.status c).busy) = _
    rw [hv, Bool.true_and]
  · exact fun _ _ hidle => .perform trivial fun _ _ => hidle
  · exact fun _ _ _ => .perform trivial fun _ _ => trivial

/-- `_require_idle` returns on a controller without a flash. -/
theorem follows_requireIdle {v : Visit} (hv : v.entered = true) :
    Follows visiting (fun _ v => v.idle = true) (fun _ _ => True) IngressApi.requireIdle v := by
  refine (follows_snapshot hv).bind fun c v hidle => ?_
  split_ifs with hbusy
  · exact .raise trivial
  · exact .pure (by rw [hidle, Bool.not_eq_true _ |>.mp hbusy]; rfl)

theorem emits_exclusive (p : Program α) : Emits (I := App)
    (fun o => o = .acquire .flash ∨ o = .release .flash ∨ ∃ o', o = .flasher o')
    (withLock .flash (onFlasher p)) := by
  refine (Emits.perform (.inl rfl)).bind fun _ => Emits.ensuring ?_ fun _ =>
    .perform (.inr (.inl rfl))
  exact Emits.handle (fun o _ => .perform (.inr (.inr ⟨o, rfl⟩))) (Emits.all p)

/-- An operation on the device, between the flash lock and its release. -/
theorem visits_exclusive (p : Program α) :
    Visits (fun _ => True) (IngressApi.admitted (withLock .flash (onFlasher p))) := by
  refine visits_submission fun v hv => ?_
  refine (follows_clear (IngressApi.requireAccepting_confined (by decide)) hv).bind fun _ v hv => ?_
  refine (follows_requireIdle hv).bind fun _ v hv => ?_
  refine (Follows.keeping (K := fun v : Visit => v.idle = true) (emits_exclusive p) ?_
    hv).conseq (fun _ _ _ => trivial) fun _ _ _ => trivial
  rintro v o (rfl | rfl | ⟨o', rfl⟩) hv
  · exact ⟨trivial, fun _ => hv⟩
  · exact ⟨trivial, fun _ => hv⟩
  · exact ⟨fun _ => .inr hv, fun _ => hv⟩

theorem visits_flash (artifactId confirm confirmUnpairedRecovery : Json) :
    Visits (fun _ => True) (IngressApi.flash artifactId confirm confirmUnpairedRecovery) := by
  intro v hv
  unfold IngressApi.flash
  split
  · split
    · refine (visits_submission (fun v hv => ?_) v hv).bind fun _ _ _ => .pure trivial
      exact (follows_clear ((IngressApi.flashLocked_confined _ _).of_subset (by decide)) hv).conseq
        (fun _ _ _ => trivial) fun _ _ _ => trivial
    · exact .raise trivial
  · exact .raise trivial

theorem visits_program (task : Task) : Visits (fun _ => True) (task.program fuel settings) := by
  cases task with
  | status =>
    exact Aloof.visits ((IngressApi.status_confined.of_subset (by decide)).bind fun _ => .pure _)
  | operation =>
    exact Aloof.visits ((IngressApi.operation_confined.of_subset (by decide)).bind fun _ => .pure _)
  | validateUpload contentLength =>
    exact Aloof.visits
      (((IngressApi.validateUpload_confined contentLength).of_subset (by decide)).bind
      fun _ => .pure _)
  | flash artifactId confirm confirmUnpairedRecovery =>
    exact fun v hv => (visits_flash _ _ _ v hv).bind fun _ _ _ => .pure trivial
  | setLed mode =>
    refine fun v hv => Follows.bind (R := fun _ _ => True) ?_ fun _ _ _ => .pure trivial
    unfold IngressApi.setLed
    split
    · exact .raise trivial
    · exact visits_exclusive _ v hv
  | diagnostics => exact fun v hv => (visits_exclusive _ v hv).bind fun _ _ _ => .pure trivial
  | reaper => exact Aloof.visits (reapExpiredArtifacts_confined.of_subset (by decide))

theorem visits_run : Visits (fun v => v.exempt = true) (Main.run fuel settings) := by
  intro v hv
  refine (Follows.keeping (K := fun v : Visit => v.exempt = true) (Emits.all _) ?_ hv).conseq
    (fun _ _ _ => trivial) fun _ _ _ => trivial
  refine fun v o _ hv => ⟨?_, fun a => (v.after_exempt o a).trans hv⟩
  cases o with
  | flasher o => exact fun _ => .inl hv
  | update u now =>
    cases u with
    | queued operationId => exact .inl hv
    | _ => trivial
  | _ => trivial

/-! ## Every interleaving -/

variable {i j : ℕ} {s s' : Site} {ℓ : ℕ → Standing × Visit} {o : App.Op} {a : App.Ans o}

structure Visiting (s : Site) (ℓ : ℕ → Standing × Visit) : Prop where
  exempt : ∀ i, (ℓ i).2.exempt = true → i = worker
  entered : ∀ i, (ℓ i).2.entered = true → .submission ∈ (ℓ i).1.held
  idle : ∀ i, (ℓ i).2.idle = true → (ℓ i).2.entered = true ∧ s.controller.status.busy = false

namespace Visiting

/-- While a thread visits an idle controller, the steps of the others leave it idle. -/
theorem calm_call (h : Visiting s ℓ) (horder : Orderly s fun i => (ℓ i).1) (hj : j ≠ i)
    (hidle : (ℓ j).2.idle = true) (ho : (ℓ i).1.Allows o) (hv : (ℓ i).2.Allows o)
    (ha : s.answers i o a s') : s'.controller.status.busy = false := by
  obtain ⟨hentered, hcalm⟩ := h.idle j hidle
  obtain ⟨-, -, rfl⟩ := ha
  cases o with
  | update u now =>
    change ((s.controller.update now u).status).busy = false
    rw [Controller.update_status]
    cases u with
    | queued operationId =>
      rcases hv with hexempt | hentered'
      · obtain rfl := h.exempt i hexempt
        obtain ⟨operation, hoperation, -⟩ := ho.2
        exact absurd (horder.admission.worker_marked.symm.trans hoperation) (by simp)
      · exact absurd (horder.sections.exclusive (h.entered j hentered) (h.entered i hentered')) hj
    | running =>
      obtain ⟨-, operation, hjob⟩ := ho.2
      have hqueued := ((horder.admission.fieldsTrusted horder.sections ho.1).taken operation hjob).1
      rw [hqueued] at hcalm
      cases hcalm
    | progress percent message => exact hcalm
    | _ => rfl
  | _ => exact hcalm

theorem call (h : Visiting s ℓ) (horder : Orderly s fun i => (ℓ i).1) (ho : (ℓ i).1.Allows o)
    (hv : (ℓ i).2.Allows o) (ha : s.answers i o a s') :
    Visiting s' (Function.update ℓ i ((ℓ i).1.after o a, (ℓ i).2.after o a)) where
  exempt j hexempt := by
    by_cases hj : j = i
    · subst hj
      rw [Function.update_self, Visit.after_exempt] at hexempt
      exact h.exempt j hexempt
    · rw [Function.update_of_ne hj] at hexempt
      exact h.exempt j hexempt
  entered j hentered := by
    by_cases hj : j = i
    · subst hj
      rw [Function.update_self] at hentered ⊢
      cases o with
      | acquire lock =>
        cases lock with
        | submission => exact List.mem_cons_self
        | _ => exact List.mem_cons_of_mem _ (h.entered j hentered)
      | release lock =>
        cases lock with
        | submission => cases hentered
        | _ => exact (List.mem_erase_of_ne (by decide)).mpr (h.entered j hentered)
      | _ => exact h.entered j hentered
    · rw [Function.update_of_ne hj] at hentered ⊢
      exact h.entered j hentered
  idle j hidle := by
    by_cases hj : j = i
    · subst hj
      rw [Function.update_self] at hidle ⊢
      obtain ⟨⟨oracle, rfl⟩, -, rfl⟩ := ha
      cases o with
      | acquire lock =>
        cases lock with
        | submission => exact ⟨rfl, (h.idle j hidle).2⟩
        | _ => exact h.idle j hidle
      | release lock =>
        cases lock with
        | submission => cases hidle
        | _ => exact h.idle j hidle
      | controller =>
        obtain ⟨hentered, hcalm⟩ := (Bool.and_eq_true _ _).mp hidle
        exact ⟨hentered, Bool.not_eq_true' _ |>.mp hcalm⟩
      | update u now => cases hidle
      | _ => exact h.idle j hidle
    · rw [Function.update_of_ne hj] at hidle ⊢
      exact ⟨(h.idle j hidle).1, h.calm_call horder hj hidle ho hv ha⟩

theorem start (h : Visiting s ℓ) (task : Task) :
    Visiting s (Function.update ℓ i (.born task, .outside)) where
  exempt j hexempt := by
    by_cases hj : j = i
    · subst hj
      rw [Function.update_self] at hexempt
      cases hexempt
    · rw [Function.update_of_ne hj] at hexempt
      exact h.exempt j hexempt
  entered j hentered := by
    by_cases hj : j = i
    · subst hj
      rw [Function.update_self] at hentered
      cases hentered
    · rw [Function.update_of_ne hj] at hentered ⊢
      exact h.entered j hentered
  idle j hidle := by
    by_cases hj : j = i
    · subst hj
      rw [Function.update_self] at hidle
      cases hidle
    · rw [Function.update_of_ne hj] at hidle ⊢
      exact h.idle j hidle

end Visiting

/-- The worker's visit and those of the threads to come. -/
def arriving (i : ℕ) : Standing × Visit :=
  (boarding i, if i = worker then ⟨true, false, false⟩ else .outside)

theorem visiting_initial : Visiting .initial arriving where
  exempt i hexempt := by
    by_contra hi
    rw [arriving, if_neg hi] at hexempt
    cases hexempt
  entered i hentered := by
    unfold arriving at hentered
    split_ifs at hentered
    cases hentered
  idle i hidle := by
    unfold arriving at hidle
    split_ifs at hidle
    cases hidle

theorem visiting_kept (fuel : ℕ) (settings : Settings) :
    Described.Kept (discipline.both visiting) (.idle, .outside) (fun ℓ => Rested ℓ.1)
      (fun _ s ℓ => Orderly s (fun i => (ℓ i).1) ∧ Visiting s ℓ) (addon fuel settings)
      fun task => (.born task, .outside) where
  call t s ℓ i o a s' h ho ha := by
    obtain ⟨htrust, horder⟩ := (orderly_kept fuel settings).call t s _ i o a s' h.1 ho.1 ha
    refine ⟨⟨htrust, trivial⟩, ?_, h.2.call h.1 ho.1 ho.2 ha⟩
    have hfst := Function.comp_update Prod.fst ℓ i ((ℓ i).1.after o a, (ℓ i).2.after o a)
    exact (congrArg (Orderly s') hfst).mpr horder
  start t s ℓ i task h hidle hstart := by
    have horder := (orderly_kept fuel settings).start t s _ i task h.1
      (congrArg Prod.fst hidle) hstart
    have hfst := Function.comp_update Prod.fst ℓ i (Standing.born task, Visit.outside)
    exact ⟨(congrArg (Orderly s) hfst).mpr horder, h.2.start task⟩
  program task := (((orderly_kept fuel settings).program task).both
    (visits_program task .outside trivial)).conseq (fun _ _ h => h.1) fun _ _ h => h.1
  move t s ℓ n s' h hmove := by
    refine ⟨(orderly_kept fuel settings).move t s _ n s' h.1 hmove, ?_⟩
    cases n with
    | requestStop =>
      obtain rfl := hmove
      exact ⟨h.2.exempt, h.2.entered, h.2.idle⟩

theorem boot_visiting (fuel : ℕ) (settings : Settings) :
    Described (discipline.both visiting) (.idle, .outside) (fun ℓ => Rested ℓ.1)
      (fun _ s ℓ => Orderly s (fun i => (ℓ i).1) ∧ Visiting s ℓ)
      ([] : List (Act App Task Signal)) (boot fuel settings) arriving := by
  have hboot := boot_described (K := fun _ => Orderly) fuel settings .initial
  refine ⟨⟨.initial, visiting_initial⟩, fun i p hp => ?_, fun i hi => ?_⟩
  · have hvisit : Follows visiting (fun _ _ => True) (fun _ _ => True) p (arriving i).2 := by
      by_cases hi : i = worker
      · subst hi
        obtain rfl : Main.run fuel settings = p := by simpa [boot] using hp
        exact visits_run _ rfl
      · simp [boot, hi] at hp
    exact ((hboot.follows i p hp).both hvisit).conseq (fun _ _ h => h.1) fun _ _ h => h.1
  · have hne : i ≠ worker := by
      rintro rfl
      simp [boot] at hi
    rw [arriving, if_neg hne, hboot.unstarted i hi]

variable {d : World.Op} {b : World.Ans d} {t u v : List (Act App Task Signal)}
  {c : System App Exn Site}

/-- A request takes a step on the device only while no flash is queued or running,
and it holds the submission lock and the flash lock then. -/
theorem device_idle (h : Reached fuel settings (u ++ .call i ⟨.flasher d, b⟩ :: v) c)
    (hd : d.kind.onDevice = true) (hi : i ≠ worker) :
    ∃ c₁, Reached fuel settings u c₁ ∧ c₁.store.controller.status.busy = false ∧
      c₁.store.locks .submission = some i ∧ c₁.store.locks .flash = some i := by
  obtain ⟨c₁, c₂, hreach, hstep⟩ := h.split
  have hdescribed :=
    Described.reaches (visiting_kept fuel settings) (boot_visiting fuel settings) hreach
  obtain ⟨k, hk, -⟩ := hstep.call_inv
  obtain ⟨horder, hvisiting⟩ := hdescribed.holds
  rcases (hdescribed.allows hk).2 hd with hexempt | hidle
  · exact absurd (hvisiting.exempt i hexempt) hi
  · obtain ⟨hentered, hcalm⟩ := hvisiting.idle i hidle
    obtain ⟨held, hheld⟩ := reached_holding hreach
    exact ⟨c₁, hreach, hcalm, (horder.sections.held i _).mp (hvisiting.entered i hentered),
      hheld.guarded hstep rfl (if_pos hd)⟩

theorem device_idle_succession :
    ∃ u v : List (Act App Task Signal), ∃ (d : World.Op) (b : World.Ans d)
        (c c₁ : System App Exn Site),
      Reached 2 PlannedRun.qemuSettings (u ++ .call 1 ⟨.flasher d, b⟩ :: v) c ∧
      d.kind.onDevice = true ∧ Reached 2 PlannedRun.qemuSettings u c₁ ∧
      c₁.store.controller.status.busy = false ∧ c₁.store.locks .submission = some 1 ∧
      c₁.store.locks .flash = some 1 := by
  have hplay : (play 2 PlannedRun.qemuSettings (sampleScript.answer 0) succession
      ([], boot 2 PlannedRun.qemuSettings)).any fun x =>
        decide (x.1[33]?.bind deviceStep = some 1) := by
    decide +kernel
  obtain ⟨⟨t, c⟩, hx, hend⟩ := (Option.any_eq_true _ _).mp hplay
  obtain ⟨d, b, ht, hdevice⟩ := split_deviceStep (of_decide_eq_true hend)
  have hreach := play_reached .nil hx
  rw [ht] at hreach
  obtain ⟨c₁, hprefix, hcalm, hsubmission, hflash⟩ := device_idle hreach hdevice (by decide)
  exact ⟨_, _, d, b, c, c₁, hreach, hdevice, hprefix, hcalm, hsubmission, hflash⟩

end Cul868Flasher
