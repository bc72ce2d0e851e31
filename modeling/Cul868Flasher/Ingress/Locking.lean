import Cul868Flasher.Effects.LockOrder
import Cul868Flasher.Ingress.Calls
import Cul868Flasher.Ingress.Provenance
import Cul868Flasher.Ingress.Snapshots
import Mathlib.Data.Fintype.EquivFin

/-!
# The order of the locks

Every thread of the add-on takes the submission lock before the flash lock or the
registry's, and the controller's lock last. Steps on the device, its record and
its consumers are taken under the flash lock.
-/

namespace Cul868Flasher
open Python Effects

def Lock.rank : Lock → ℕ
  | .submission => 0
  | .flash => 1
  | .registry => 1
  | .controller => 2

def locking : Locking App Lock where
  step
    | .acquire lock => some (.acquire lock)
    | .release lock => some (.release lock)
    | _ => none
  rank := Lock.rank
  guard
    | .flasher o => if o.kind.onDevice then some .flash else none
    | _ => none

variable {α β : Type} {held : List Lock} {fuel : ℕ} {settings : Settings}

/-- The calls that take no lock, give none back and want none. -/
def locklessKinds : List CallKind := [.step, .change, .submission, .staging, .inspection]

abbrev Lockless (p : AppProgram α) : Prop := Confined locklessKinds p

theorem lockless_step {o : AppOp} (ho : o.kind ∈ locklessKinds) :
    locking.step o = none ∧ locking.guard o = none := by
  cases o with
  | acquire lock => simp [AppOp.kind, locklessKinds] at ho
  | release lock => simp [AppOp.kind, locklessKinds] at ho
  | flasher o =>
    refine ⟨rfl, if_neg fun hdevice => ?_⟩
    rw [AppOp.kind_onDevice hdevice] at ho
    exact absurd ho (by decide)
  | _ => exact ⟨rfl, rfl⟩

theorem Lockless.nests {p : AppProgram α} (h : Lockless p) : locking.Nests held p := by
  refine .of_emits (h.mono fun o ho => ⟨(lockless_step ho).1, fun lock hlock => ?_⟩)
  rw [(lockless_step ho).2] at hlock
  cases hlock

theorem nests_withLock {lock : Lock} {block : AppProgram α}
    (hrank : ∀ l ∈ held, l.rank < lock.rank) (hb : locking.Nests (lock :: held) block) :
    locking.Nests held (withLock lock block) :=
  .section_ rfl hrank hb fun _ => Locking.Nests.releases rfl

/-! ## The flasher -/

/-- A program of the flasher that leaves the device alone needs no lock; any other
runs under the flash lock. -/
theorem nests_onFlasher {ks : List OpKind} {p : Program α} (hp : Uses ks p)
    (hks : .flash ∈ held ∨ ∀ k ∈ ks, k.onDevice = false) : locking.Nests held (onFlasher p) := by
  refine Preserves.handle hp fun o ho => Locking.Nests.perform ⟨rfl, fun lock hlock => ?_⟩
  rcases hks with hmem | hnone
  · have hguard : (if o.kind.onDevice then some Lock.flash else none) = some lock := hlock
    split_ifs at hguard
    cases hguard
    exact hmem
  · have hguard : (if o.kind.onDevice then some Lock.flash else none) = some lock := hlock
    rw [hnone _ ho] at hguard
    cases hguard

/-! ## The registry and the controller -/

namespace ArtifactRegistry

variable (h : ∀ l ∈ held, l.rank < Lock.registry.rank)
include h

theorem nests_expire : locking.Nests held expire :=
  nests_withLock h (Lockless.nests (removeExpired_confined (by decide)))

theorem nests_stage (image : HexImage) (preflight : FlashPreflight) :
    locking.Nests held (stage image preflight) := by
  refine (nests_withLock h (Lockless.nests
    ((stageLocked_confined image preflight).of_subset (by decide)))).bind fun x => ?_
  exact Preserves.bind (Lockless.nests (unlinkAll_confined (by decide) _)) fun _ => .ret _

theorem nests_claim (identifier : Json) : locking.Nests held (claim identifier) := by
  unfold claim
  split
  · split_ifs
    · exact nests_withLock h (Lockless.nests (claimLocked_confined (by decide) _))
    · exact .raise _
  · exact .raise _

theorem nests_releaseClaim (identifier : String) : locking.Nests held (releaseClaim identifier) :=
  nests_withLock h (Lockless.nests (releaseLocked_confined (by decide) identifier))

theorem nests_consume (identifier : String) : locking.Nests held (consume identifier) :=
  nests_withLock h (Lockless.nests ((step_confined rfl (by decide)).bind fun _ => .pure _))

theorem nests_close : locking.Nests held close := by
  refine Preserves.bind (nests_withLock h (Lockless.nests ?_)) fun paths =>
    Lockless.nests (unlinkAll_confined (by decide) paths)
  exact (call_confined .staging rfl (by decide)).bind fun _ => .pure _

end ArtifactRegistry

namespace OperationController

variable (h : ∀ l ∈ held, l.rank < Lock.controller.rank)
include h

theorem nests_submit (artifactId : String) (image : HexImage)
    (manualRecovery : Option ManualRecoveryTarget) :
    locking.Nests held (submit artifactId image manualRecovery) := by
  unfold submit
  split_ifs
  · exact .raise _
  · refine Preserves.bind (Lockless.nests (step_confined rfl (by decide))) fun operationId => ?_
    exact (nests_withLock h (Lockless.nests ((enqueue_confined _).of_subset (by decide)))).bind
      fun _ => .ret _

theorem nests_claimForRun (operationId : String) : locking.Nests held (claimForRun operationId) :=
  nests_withLock h (Lockless.nests ((claimLocked_confined operationId).of_subset (by decide)))

theorem nests_reportProgress (operationId : String) (percent : ℤ) (message : String) :
    locking.Nests held (reportProgress operationId percent message) := by
  unfold reportProgress
  split_ifs
  · exact .raise _
  · exact nests_withLock h (Lockless.nests ((progressLocked_confined _ _ _).of_subset (by decide)))

theorem nests_complete (operationId message : String) :
    locking.Nests held (complete operationId message) :=
  nests_withLock h (Lockless.nests ((finishLocked_confined _ (by simp)).of_subset (by decide)))

theorem nests_fail (operationId : String) (error : Exn) :
    locking.Nests held (fail operationId error) :=
  nests_withLock h (Lockless.nests ((finishLocked_confined _ (by simp)).of_subset (by decide)))

theorem nests_drain (fuel : ℕ) : locking.Nests held (drain fuel) :=
  nests_withLock h (Lockless.nests ((drainLocked_confined fuel).of_subset (by decide)))

theorem nests_snapshot : locking.Nests held snapshot :=
  nests_withLock h (Lockless.nests (step_confined rfl (by decide)))

end OperationController

/-! ## The requests -/

theorem nests_unlinkOnError {path : Path} {block : AppProgram α} (hb : locking.Nests held block) :
    locking.Nests held (unlinkOnError path block) := by
  refine hb.attempt.bind fun result => ?_
  cases result with
  | ok a => exact .ret _
  | error e =>
    exact Preserves.bind (Lockless.nests (step_confined rfl (by decide))) fun _ => .raise _

namespace IngressApi

theorem nests_requireIdle (h : ∀ l ∈ held, l.rank < Lock.controller.rank) :
    locking.Nests held requireIdle := by
  refine (OperationController.nests_snapshot h).bind fun c => ?_
  split_ifs
  · exact .raise _
  · exact .ret _

theorem nests_admitted {block : AppProgram α} (hb : locking.Nests [.submission] block) :
    locking.Nests [] (admitted block) := by
  refine nests_withLock (by simp) ?_
  exact Preserves.bind (Lockless.nests (requireAccepting_confined (by decide))) fun _ =>
    (nests_requireIdle (by decide)).bind fun _ => hb

theorem nests_validateUpload (contentLength : ℕ) :
    locking.Nests [] (validateUpload settings contentLength) := by
  refine (nests_admitted (.ret _)).bind fun _ => ?_
  refine Preserves.bind (Lockless.nests (writeUpload_confined (by decide) _)) fun path => ?_
  refine nests_unlinkOnError ?_
  refine (nests_onFlasher (Flasher.parseHexFile_uses path) (.inr (by decide))).bind fun image => ?_
  refine (nests_onFlasher Flasher.preflight_uses (.inr (by decide))).bind fun preflight => ?_
  exact (nests_admitted (ArtifactRegistry.nests_stage (by decide) image preflight)).bind
    fun _ => .ret _

theorem nests_submitClaimed (artifactId : String) (artifact : StagedArtifact)
    (confirmUnpairedRecovery : Json) :
    locking.Nests [.submission] (submitClaimed artifactId artifact confirmUnpairedRecovery) := by
  refine Preserves.bind (Preserves.attempt (Preserves.bind
    (Lockless.nests (requireRecoveryConsent_confined _ _)) fun _ =>
      OperationController.nests_submit (by decide) _ _ _)) fun submitted => ?_
  cases submitted with
  | ok operation => exact .ret _
  | error e => exact (ArtifactRegistry.nests_releaseClaim (by decide) _).bind fun _ => .raise _

theorem nests_flash (artifactId confirm confirmUnpairedRecovery : Json) :
    locking.Nests [] (flash artifactId confirm confirmUnpairedRecovery) := by
  unfold flash
  split
  · split
    · refine Preserves.bind (nests_withLock (by simp) ?_) fun _ => .ret _
      refine Preserves.bind (Lockless.nests (requireAccepting_confined (by decide))) fun _ => ?_
      refine (ArtifactRegistry.nests_claim (by decide) _).bind fun artifact => ?_
      refine (nests_submitClaimed _ _ _).bind fun operation => ?_
      exact (ArtifactRegistry.nests_consume (by decide) _).bind fun _ => .ret _
    · exact .raise _
  · exact .raise _

/-- An operation of the flasher between two locks. -/
theorem nests_exclusive {p : Program α} (hp : Uses Flasher.exclusiveKinds p) :
    locking.Nests [] (admitted (withLock .flash (onFlasher p))) :=
  nests_admitted (nests_withLock (by decide) (nests_onFlasher hp (.inl (by simp))))

end IngressApi

theorem nests_program (task : Task) : locking.Nests [] (task.program fuel settings) := by
  cases task with
  | status =>
    refine Preserves.bind ?_ fun _ => .ret _
    refine (ArtifactRegistry.nests_expire (by simp)).bind fun _ => ?_
    refine (nests_onFlasher Flasher.status_uses (.inr (by decide))).attempt.bind fun device => ?_
    refine (OperationController.nests_snapshot (by simp)).bind fun operation => ?_
    cases device <;> exact .ret _
  | operation =>
    refine Preserves.bind ?_ fun _ => .ret _
    exact (ArtifactRegistry.nests_expire (by simp)).bind fun _ =>
      OperationController.nests_snapshot (by simp)
  | validateUpload contentLength =>
    exact (IngressApi.nests_validateUpload contentLength).bind fun _ => .ret _
  | flash artifactId confirm confirmUnpairedRecovery =>
    exact (IngressApi.nests_flash _ _ _).bind fun _ => .ret _
  | setLed mode =>
    refine Preserves.bind ?_ fun _ => .ret _
    unfold IngressApi.setLed
    split
    · exact .raise _
    · exact IngressApi.nests_exclusive (Flasher.setLed_uses fuel settings _)
  | diagnostics =>
    exact (IngressApi.nests_exclusive (Flasher.diagnostics_uses fuel settings)).bind fun _ => .ret _
  | reaper =>
    refine Preserves.loop (fun _ => ?_) _ _
    refine Preserves.bind (Lockless.nests (step_confined rfl (by decide)))
      fun (stopped : Bool) => ?_
    split_ifs
    · exact .ret _
    · exact (ArtifactRegistry.nests_expire (by simp)).bind fun _ => .ret _

/-! ## The worker -/

namespace Main

theorem nests_watched {p : AppProgram α} (hp : locking.Nests held p) :
    locking.Nests held (watched p) := by
  refine hp.attempt.bind fun result => ?_
  cases result with
  | ok a => exact .ret _
  | error e =>
    exact Preserves.bind (Lockless.nests (step_confined rfl (by decide))) fun _ => .raise _

/-- A flash reports to the controller while it holds the flash lock. -/
theorem nests_reporter (operationId : String) (o : World.Op) :
    locking.Nests [.flash] (reporter operationId o) := by
  have hother : locking.Nests [.flash] (call (.flasher o)) := by
    refine .perform ⟨rfl, fun lock hlock => ?_⟩
    have hguard : (if o.kind.onDevice then some Lock.flash else none) = some lock := hlock
    split_ifs at hguard
    cases hguard
    simp
  cases o with
  | report percent message =>
    exact (nests_watched (OperationController.nests_reportProgress (by decide) _ _ _)).attempt
  | _ => exact hother

theorem nests_flashAndReport (operation : FlashOperation) :
    locking.Nests [] (flashAndReport fuel settings operation) := by
  refine Preserves.bind (Preserves.attempt (nests_withLock (by simp)
    (Preserves.handle (Emits.all _) fun o _ => nests_reporter _ o))) fun result => ?_
  cases result with
  | ok result => exact nests_watched (OperationController.nests_complete (by simp) _ _)
  | error err => exact nests_watched (OperationController.nests_fail (by simp) _ _)

theorem nests_workerPass : locking.Nests [] (workerPass fuel settings ()) := by
  refine Preserves.bind (Lockless.nests (step_confined rfl (by decide))) fun (stopping : Bool) => ?_
  split_ifs
  · exact .ret _
  · refine (nests_watched (Lockless.nests (step_confined rfl (by decide)))).bind
      fun (operation : Option FlashOperation) => ?_
    cases operation with
    | none => exact .ret _
    | some operation =>
      refine (nests_watched (OperationController.nests_claimForRun (by simp) _)).bind
        fun claimed => ?_
      split_ifs
      · exact Preserves.bind (Lockless.nests (step_confined rfl (by decide))) fun _ => .ret _
      · exact Preserves.bind ((nests_flashAndReport operation).ensuring
          fun _ => Lockless.nests (step_confined rfl (by decide))) fun _ => .ret _

theorem nests_closeAdmission : locking.Nests [] IngressApi.closeAdmission :=
  nests_withLock (by simp) (Lockless.nests (step_confined rfl (by decide)))

theorem nests_cleanUp : locking.Nests [] (cleanUp fuel) := by
  refine nests_closeAdmission.bind fun _ => ?_
  refine Preserves.bind (nests_closeAdmission.bind fun _ =>
    Lockless.nests (step_confined rfl (by decide))) fun _ => ?_
  refine (nests_watched (OperationController.nests_drain (by simp) _)).bind fun pending => ?_
  refine Preserves.bind (Lockless.nests (discardAll_confined (by decide) pending)) fun _ => ?_
  exact nests_closeAdmission.bind fun _ => ArtifactRegistry.nests_close (by simp)

theorem nests_run : locking.Nests [] (run fuel settings) := by
  refine Preserves.bind (Lockless.nests (step_confined rfl (by decide))) fun started => ?_
  refine Preserves.bind (.ofExcept _) fun _ => ?_
  refine Preserves.ensuring (Preserves.bind ?_ fun _ =>
    .loop (fun _ => nests_workerPass) _ _) fun _ => nests_cleanUp
  refine Preserves.bind (Preserves.catching (nests_withLock (by simp)
    (nests_onFlasher (Flasher.verifyRunningApplication_uses fuel settings) (.inl (by simp)))) _)
    fun _ => .ret _

end Main

/-! ## Programs that leave a lock alone -/

/-- The calls that neither take the lock nor give it back, and want none. -/
def clearKinds (lock : Lock) : List CallKind :=
  [.lock .submission, .lock .flash, .lock .registry, .lock .controller].erase (.lock lock) ++
    locklessKinds

abbrev Clears (lock : Lock) (p : AppProgram α) : Prop := Confined (clearKinds lock) p

/-! ## Every interleaving -/

/-- No file can be made. -/
def fullDisk : Site.Oracle
  | .mkstemp => .error (.osError "No space left on device")
  | o => quietScript.answer 0 o

/-- The shared state gives a free lock to whoever asks; any other call can be
answered, for tokens do not run out and the making of a file may fail. -/
theorem site_grants (fuel : ℕ) (settings : Settings) :
    Locking.Grants locking (addon fuel settings) Site.locks where
  acquired := by
    rintro i s o a s' lock ⟨-, hpermit, rfl⟩ hstep
    cases o with
    | acquire l =>
      cases hstep
      exact ⟨by simpa [Site.permits] using hpermit, rfl⟩
    | _ => cases hstep
  released := by
    rintro i s o a s' lock ⟨-, -, rfl⟩ hstep
    cases o with
    | release l =>
      cases hstep
      rfl
    | _ => cases hstep
  other := by
    rintro i s o a s' ⟨-, -, rfl⟩ hstep
    cases o with
    | acquire l => cases hstep
    | release l => cases hstep
    | _ => rfl
  moved := by
    rintro s n s' hmove
    cases n with
    | requestStop =>
      obtain rfl := hmove
      rfl
  granted := by
    intro i s o lock hstep hfree
    cases o with
    | acquire l =>
      cases hstep
      exact ⟨(), _, ⟨quietScript.answer 0, rfl⟩, by simp [Site.permits, hfree], rfl⟩
    | _ => cases hstep
  answered := by
    intro i s o hstep
    cases o with
    | acquire l => exact absurd rfl (hstep l)
    | tokenUrlsafe =>
      obtain ⟨token, htoken⟩ := Infinite.exists_notMem_finset s.issued.toFinset
      refine ⟨token, _, ⟨{ quietScript with token := fun _ => token }.answer 0, rfl⟩, ?_, rfl⟩
      simpa [Site.permits] using htoken
    | mkstemp =>
      exact ⟨_, _, ⟨fullDisk, rfl⟩, rfl, rfl⟩
    | _ => exact ⟨_, _, ⟨quietScript.answer 0, rfl⟩, rfl, rfl⟩

theorem boot_holding (fuel : ℕ) (settings : Settings) :
    Locking.Holding locking Site.locks (boot fuel settings) fun _ => [] where
  ordered := .initial
  follows := by
    intro i p hp
    by_cases hi : i = worker
    · subst hi
      obtain rfl : Main.run fuel settings = p := by simpa [boot] using hp
      exact Main.nests_run
    · simp [boot, hi] at hp
  unstarted _ _ := rfl

variable {i j : ℕ} {o o' : World.Op} {a : World.Ans o} {a' : World.Ans o'}
  {t u v w : List (Act App Task Signal)} {c : System App Exn Site}

theorem reached_holding (h : Reached fuel settings t c) :
    ∃ held, Locking.Holding locking Site.locks c held :=
  ⟨_, (boot_holding fuel settings).reaches (site_grants fuel settings) (fun _ => nests_program _) h⟩

theorem acquires_eq {e : Event App} {lock : Lock} (h : locking.step e.op = some (.acquire lock)) :
    e = ⟨.acquire lock, ()⟩ := by
  obtain ⟨o, a⟩ := e
  cases o with
  | acquire l =>
    cases h
    rfl
  | _ => cases h

theorem releases_eq {e : Event App} {lock : Lock} (h : locking.step e.op = some (.release lock)) :
    e = ⟨.release lock, ()⟩ := by
  obtain ⟨o, a⟩ := e
  cases o with
  | release l =>
    cases h
    rfl
  | _ => cases h

/-- Who takes a step on the device holds the flash lock before it and after it. -/
theorem device_locked (h : Reached fuel settings (u ++ .call i ⟨.flasher o, a⟩ :: v) c)
    (ho : o.kind.onDevice = true) :
    ∃ c₁ held, Locking.Holding locking Site.locks c₁ held ∧ c₁.store.locks .flash = some i ∧
      (addon fuel settings).Reaches c₁ v c := by
  obtain ⟨c₀, hu, hv⟩ := h.append_inv
  obtain ⟨c₁, hstep, hv⟩ := hv.cons_inv
  obtain ⟨held, hheld⟩ := reached_holding hu
  obtain ⟨held₁, hheld₁⟩ := reached_holding (hu.snoc hstep)
  have howner : c₀.store.locks .flash = some i := hheld.guarded hstep rfl (if_pos ho)
  obtain ⟨k, -, -, -, hstore⟩ := hstep.call_inv
  exact ⟨c₁, held₁, hheld₁, by rw [hstore]; exact howner, hv⟩

/-- Between a step of one thread on the device and a step of another, the first has
given back the flash lock and after that the other has taken it: two operations on
the device never interleave. -/
theorem device_exclusive
    (h : Reached fuel settings
      (u ++ .call i ⟨.flasher o, a⟩ :: v ++ .call j ⟨.flasher o', a'⟩ :: w) c)
    (ho : o.kind.onDevice = true) (ho' : o'.kind.onDevice = true) (hij : i ≠ j) :
    ∃ v₁ v₂ v₃, v = v₁ ++ .call i ⟨.release .flash, ()⟩ ::
      (v₂ ++ .call j ⟨.acquire .flash, ()⟩ :: v₃) := by
  obtain ⟨c₀, hu, hw⟩ := h.append_inv
  obtain ⟨c₁, held, hheld, howner, hv⟩ := device_locked hu ho
  obtain ⟨c₂, hstep, -⟩ := hw.cons_inv
  obtain ⟨held₀, hheld₀⟩ := reached_holding hu
  have howner' : c₀.store.locks .flash = some j := hheld₀.guarded hstep rfl (if_pos ho')
  rcases hheld.handed_over (site_grants fuel settings) (fun _ => nests_program _) hv howner with
    hsame | ⟨v₁, m, v₂, rfl, ⟨e, rfl, hrelease⟩, htaken⟩
  · rw [howner'] at hsame
    exact absurd (Option.some.inj hsame).symm hij
  · obtain ⟨m', hmem, e', rfl, hacquire⟩ := htaken j howner'
    obtain ⟨v₃, v₄, rfl⟩ := List.append_of_mem hmem
    exact ⟨v₁, v₃, v₄, by rw [releases_eq hrelease, acquires_eq hacquire]⟩

/-- The thread that takes a step on the device, if the step is one. -/
def deviceStep : Act App Task Signal → Option ℕ
  | .call i ⟨.flasher o, _⟩ => if o.kind.onDevice then some i else none
  | _ => none

theorem of_deviceStep {i : ℕ} {m : Act App Task Signal} (h : deviceStep m = some i) :
    ∃ o : World.Op, ∃ a, m = .call i ⟨.flasher o, a⟩ ∧ o.kind.onDevice = true := by
  unfold deviceStep at h
  split at h
  · split_ifs at h with hdevice
    cases h
    exact ⟨_, _, rfl, hdevice⟩
  · cases h

theorem split_deviceStep {i n : ℕ} {t : List (Act App Task Signal)}
    (h : t[n]?.bind deviceStep = some i) : ∃ (o : World.Op) (a : _),
      t = t.take n ++ .call i ⟨.flasher o, a⟩ :: t.drop (n + 1) ∧ o.kind.onDevice = true := by
  obtain ⟨m, hm, hstep⟩ := Option.bind_eq_some_iff.mp h
  obtain ⟨o, a, rfl, hdevice⟩ := of_deviceStep hstep
  obtain ⟨hn, hget⟩ := List.getElem?_eq_some_iff.mp hm
  refine ⟨o, a, ?_, hdevice⟩
  rw [← hget, List.getElem_cons_drop, List.take_append_drop]

/-- The verification of the start, and then a request for the indicator. -/
def succession : List Turn :=
  [.run worker 40, .start 1 (.setLed (.str "on")), .run 1 100]

theorem device_exclusive_succession : ∃ u v w : List (Act App Task Signal),
    ∃ (o : World.Op) (a : World.Ans o) (o' : World.Op) (a' : World.Ans o')
    (c : System App Exn Site),
      Reached 2 PlannedRun.qemuSettings
        (u ++ .call worker ⟨.flasher o, a⟩ :: v ++ .call 1 ⟨.flasher o', a'⟩ :: w) c ∧
      o.kind.onDevice = true ∧ o'.kind.onDevice = true ∧
      ∃ v₁ v₂ v₃, v = v₁ ++ .call worker ⟨.release .flash, ()⟩ ::
        (v₂ ++ .call 1 ⟨.acquire .flash, ()⟩ :: v₃) := by
  have hplay : (play 2 PlannedRun.qemuSettings (sampleScript.answer 0) succession
      ([], boot 2 PlannedRun.qemuSettings)).any fun x =>
        decide (x.1[12]?.bind deviceStep = some worker ∧
          (x.1.drop 13)[20]?.bind deviceStep = some 1) := by
    decide +kernel
  obtain ⟨⟨t, c⟩, hx, hend⟩ := (Option.any_eq_true _ _).mp hplay
  obtain ⟨hfirst, hsecond⟩ := of_decide_eq_true hend
  have hreach := play_reached .nil hx
  obtain ⟨o, a, ht, hdevice⟩ := split_deviceStep hfirst
  obtain ⟨o', a', hv, hdevice'⟩ := split_deviceStep hsecond
  rw [ht, hv, ← List.cons_append, ← List.append_assoc] at hreach
  exact ⟨_, _, _, o, a, o', a', c, hreach, hdevice, hdevice',
    device_exclusive hreach hdevice hdevice' (by decide)⟩

end Cul868Flasher
