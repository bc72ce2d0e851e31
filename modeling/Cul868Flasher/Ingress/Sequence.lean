import Cul868Flasher.Effects.Serialization
import Cul868Flasher.Ingress.Locking

/-!
# One operation after another

Whatever the threads do, the steps that are taken under the flash lock are those
of whole operations of the flasher, each on its own, and of the one under way.
-/

namespace Cul868Flasher
open Python Effects

variable {α β : Type} {fuel : ℕ} {settings : Settings}

/-- What one operation of the flasher has done from its start to its end. -/
inductive OperationEnd (settings : Settings) (t : Trace World) : Prop
  | flash (fuel : ℕ) (image : HexImage) (manualRecovery : Option ManualRecoveryTarget)
      (r : Outcome Exn FlashResult) (hr : r ≠ .cut)
      (h : Run (Flasher.flash fuel settings image manualRecovery) t r)
  | verify (fuel : ℕ) (r : Outcome Exn String) (hr : r ≠ .cut)
      (h : Run (Flasher.verifyRunningApplication fuel settings) t r)
  | setLed (fuel : ℕ) (mode : LedMode) (r : Outcome Exn LedResult) (hr : r ≠ .cut)
      (h : Run (Flasher.setLed fuel settings mode) t r)
  | diagnostics (fuel : ℕ) (r : Outcome Exn DiagnosticsResult) (hr : r ≠ .cut)
      (h : Run (Flasher.diagnostics fuel settings) t r)

/-- The steps of the flasher's own. The reports of a flash are calls on the
controller. -/
def ownSteps (t : Trace World) : Trace World := t.filter fun e => decide (e.op.kind ≠ .report)

/-- The calls of a thread that takes them. -/
def asCalls (t : Trace World) : Trace App := (ownSteps t).map fun e => ⟨.flasher e.op, e.ans⟩

def conducting (settings : Settings) : Sectioning locking where
  lock := .flash
  counts
    | .flasher _ => true
    | _ => false
  underway w := ∃ t, w = asCalls t ∧ OperationRun settings t
  whole w := ∃ t, w = asCalls t ∧ OperationEnd settings t

/-- A thread whose sections under the flash lock are operations. -/
abbrev Conducts (settings : Settings) (p : AppProgram α) : Prop :=
  Preserves (conducting settings).discipline none p

theorem asCalls_report {t : Trace World} {o : World.Op} (ho : o.kind = .report) (a : World.Ans o) :
    asCalls (t ++ [⟨o, a⟩]) = asCalls t := by
  simp [asCalls, ownSteps, ho]

theorem asCalls_step {t : Trace World} {o : World.Op} (ho : o.kind ≠ .report) (a : World.Ans o) :
    asCalls (t ++ [⟨o, a⟩]) = asCalls t ++ [⟨.flasher o, a⟩] := by
  simp [asCalls, ownSteps, ho]

/-! ## One thread -/

theorem Clears.conducts {p : AppProgram α} (h : Clears .flash p) :
    Conducts settings p := by
  have hflash : CallKind.lock .flash ∉ clearKinds .flash := by decide
  refine Sectioning.preserves_of_emits (h.mono fun o ho => ⟨?_, ?_, fun _ => rfl⟩)
  · cases o with
    | acquire lock =>
      intro hstep
      cases hstep
      exact absurd ho hflash
    | _ => exact nofun
  · cases o with
    | release lock =>
      intro hstep
      cases hstep
      exact absurd ho hflash
    | _ => exact nofun

/-- A program of the flasher, answered call by call. What it does next is what is
left of an operation that has done `t`. -/
theorem follows_conducted {A : World.Op → Prop} {h : (o : World.Op) → AppProgram (World.Ans o)}
    {p : Program β} (hp : Emits (I := World) A p)
    (hh : ∀ o, A o → o.kind ≠ .report ∧ h o = call (.flasher o) ∨
      o.kind = .report ∧ ∀ s, Follows (conducting settings).discipline (fun _ s' => s' = s)
        (fun _ _ => False) (h o) s) {t : Trace World}
    (hrun : ∀ u r, Run p u r → OperationRun settings (t ++ u))
    (hend : ∀ u r, Run p u r → r ≠ .cut → OperationEnd settings (t ++ u)) :
    Follows (conducting settings).discipline (fun _ => (conducting settings).Ended)
      (fun _ => (conducting settings).Ended) (p.handle h) (some (asCalls t)) := by
  induction p generalizing t with
  | ret b =>
    have hwhole := hend [] _ (.returned b) nofun
    rw [List.append_nil] at hwhole
    exact ⟨_, rfl, t, rfl, hwhole⟩
  | raise e =>
    have hwhole := hend [] _ (.raised e) nofun
    rw [List.append_nil] at hwhole
    exact ⟨_, rfl, t, rfl, hwhole⟩
  | call o k ih =>
    have hnext : ∀ a, Follows (conducting settings).discipline
        (fun _ => (conducting settings).Ended) (fun _ => (conducting settings).Ended)
        ((k a).handle h) (some (asCalls (t ++ [⟨o, a⟩]))) := by
      refine fun a => ih a (hp.2 a) (fun u r hu => ?_) fun u r hu hr => ?_
      · rw [List.append_assoc]
        exact hrun _ r (.call a hu)
      · rw [List.append_assoc]
        exact hend _ r (.call a hu) hr
    rcases hh o hp.1 with ⟨ho, hcall⟩ | ⟨ho, hpreserves⟩
    · change Follows _ _ _ (h o >>= fun a => (k a).handle h) _
      rw [hcall]
      refine Follows.step ?_ fun a _ => ?_
      · rintro - w hw a
        cases hw
        exact ⟨_, (asCalls_step ho a).symm, hrun [⟨o, a⟩] .cut (.call (k := k) a (.cut (k a)))⟩
      · change Follows _ _ _ _ (some (asCalls t ++ [⟨.flasher o, a⟩]))
        rw [← asCalls_step ho]
        exact hnext a
    · refine Follows.bind ((hpreserves (some (asCalls t))).conseq (fun _ _ h => h)
        fun _ _ h => h.elim) ?_
      rintro a _ rfl
      rw [← asCalls_report ho a]
      exact hnext a
  | halt => trivial

/-- An operation between the acquisition and the release of the flash lock. -/
theorem conducts_section {A : World.Op → Prop} {h : (o : World.Op) → AppProgram (World.Ans o)}
    {p : Program β} (hp : Emits (I := World) A p)
    (hh : ∀ o, A o → o.kind ≠ .report ∧ h o = call (.flasher o) ∨
      o.kind = .report ∧ ∀ s, Follows (conducting settings).discipline (fun _ s' => s' = s)
        (fun _ _ => False) (h o) s)
    (hrun : ∀ u r, Run p u r → OperationRun settings u)
    (hend : ∀ u r, Run p u r → r ≠ .cut → OperationEnd settings u) :
    Conducts settings (withLock .flash (p.handle h)) :=
  Sectioning.preserves_section rfl (follows_conducted (t := []) hp hh hrun hend)
    fun _ _ hs => Sectioning.follows_release rfl hs

/-- The operations that report nothing. -/
theorem conducts_silent {ks : List OpKind} {p : Program β} (hp : Uses ks p) (hks : .report ∉ ks)
    (hrun : ∀ u r, Run p u r → OperationRun settings u)
    (hend : ∀ u r, Run p u r → r ≠ .cut → OperationEnd settings u) :
    Conducts settings (withLock .flash (onFlasher p)) := by
  refine conducts_section hp (fun o ho => .inl ⟨fun hreport => hks ?_, rfl⟩) hrun hend
  rw [← hreport]
  exact ho

namespace IngressApi

theorem conducts_admitted {block : AppProgram α}
    (hb : Conducts settings block) :
    Conducts settings (admitted block) := by
  refine Preserves.bind (Clears.conducts (call_confined (.lock .submission) rfl (by decide)))
    fun _ => ?_
  refine Preserves.ensuring (Preserves.bind
    (Clears.conducts (requireAccepting_confined (by decide))) fun _ => ?_)
      fun _ => Clears.conducts (call_confined (.lock .submission) rfl (by decide))
  exact Preserves.bind (Clears.conducts (requireIdle_confined (by decide) (by decide))) fun _ => hb

end IngressApi

theorem conducts_program (task : Task) :
    Conducts settings (task.program fuel settings) := by
  cases task with
  | status =>
    exact Clears.conducts ((IngressApi.status_confined.of_subset (by decide)).bind fun _ => .pure _)
  | operation =>
    exact Clears.conducts
      ((IngressApi.operation_confined.of_subset (by decide)).bind fun _ => .pure _)
  | validateUpload contentLength =>
    exact Clears.conducts (((IngressApi.validateUpload_confined contentLength).of_subset
      (by decide)).bind fun _ => .pure _)
  | flash artifactId confirm confirmUnpairedRecovery =>
    exact Clears.conducts (((IngressApi.flash_confined _ _ _).of_subset (by decide)).bind
      fun _ => .pure _)
  | setLed mode =>
    refine Preserves.bind ?_ fun _ => .ret _
    unfold IngressApi.setLed
    split
    · exact .raise _
    · exact IngressApi.conducts_admitted (conducts_silent (Flasher.setLed_uses fuel settings _)
        (by decide) (fun u r h => .setLed fuel _ r h) fun u r h hr => .setLed fuel _ r hr h)
  | diagnostics =>
    refine Preserves.bind ?_ fun _ => .ret _
    exact IngressApi.conducts_admitted (conducts_silent (Flasher.diagnostics_uses fuel settings)
      (by decide) (fun u r h => .diagnostics fuel r h) fun u r h hr => .diagnostics fuel r hr h)
  | reaper => exact Clears.conducts (reapExpiredArtifacts_confined.of_subset (by decide))

/-! ## The worker -/

/-- The calls that have nothing to do with the flash lock or the flasher. -/
def bystandingKinds : List CallKind :=
  [.lock .submission, .lock .registry, .lock .controller, .step, .change, .submission, .staging]

theorem flasher_not_bystanding (o : Op) : (AppOp.flasher o).kind ∉ bystandingKinds := by
  rw [AppOp.kind]
  split_ifs <;> decide

theorem bystanding_aside {o : AppOp} (h : o.kind ∈ bystandingKinds) (s : Option (Trace App)) :
    (conducting settings).Aside s o := by
  have hflash : CallKind.lock .flash ∉ bystandingKinds := by decide
  refine ⟨?_, ?_, ?_⟩
  · cases o with
    | acquire lock =>
      intro hstep
      cases hstep
      exact absurd h hflash
    | _ => exact nofun
  · cases o with
    | release lock =>
      intro hstep
      cases hstep
      exact absurd h hflash
    | _ => exact nofun
  · cases o with
    | flasher o => exact absurd h (flasher_not_bystanding o)
    | _ => exact nofun

namespace Main

theorem bystanding_report (operationId : String) (percent : ℤ) (message : String) :
    Confined bystandingKinds
      (watched (OperationController.reportProgress operationId percent message)) :=
  watched_confined (by decide)
    ((OperationController.reportProgress_confined operationId percent message).of_subset
      (by decide))

/-- A report changes nothing of the section, and its exception stays in it. -/
theorem follows_reporter (operationId : String) (percent : ℕ) (message : String)
    (s : Option (Trace App)) :
    Follows (conducting settings).discipline (fun _ s' => s' = s) (fun _ _ => False)
      (reporter operationId (.report percent message)) s := by
  have hpreserves : Preserves (conducting settings).discipline s
      (watched (OperationController.reportProgress operationId percent message)) :=
    Sectioning.preserves_of_emits
      ((bystanding_report _ _ _).mono fun o ho => bystanding_aside ho s)
  refine (Follows.attempt hpreserves).conseq (fun x s' h => ?_) fun _ _ h => h
  cases x with
  | ok a => exact h.1 a rfl
  | error e => exact h.2 e rfl

theorem conducts_flashReported (operation : FlashOperation) :
    Conducts settings (flashReported fuel settings operation) := by
  refine conducts_section (Emits.all _) (fun o _ => ?_) (fun u r h => .flash fuel _ _ r h)
    fun u r h hr => .flash fuel _ _ r hr h
  cases o with
  | report percent message =>
    exact .inr ⟨rfl, follows_reporter operation.operationId percent message⟩
  | request method path => cases method <;> exact .inl ⟨nofun, rfl⟩
  | _ => exact .inl ⟨nofun, rfl⟩

theorem conducts_flashAndReport (operation : FlashOperation) :
    Conducts settings (flashAndReport fuel settings operation) := by
  refine Preserves.bind (conducts_flashReported operation).attempt fun result => Clears.conducts ?_
  cases result with
  | ok result =>
    exact watched_confined (by decide)
      ((OperationController.complete_confined _ _).of_subset (by decide))
  | error err =>
    exact watched_confined (by decide)
      ((OperationController.fail_confined _ _).of_subset (by decide))

theorem conducts_workerPass :
    Conducts settings (workerPass fuel settings ()) := by
  refine Preserves.bind (Clears.conducts (step_confined rfl (by decide)))
    fun (stopping : Bool) => ?_
  split_ifs
  · exact .ret _
  · refine Preserves.bind
      (Clears.conducts (watched_confined (by decide) (step_confined rfl (by decide))))
      fun (operation : Option FlashOperation) => ?_
    cases operation with
    | none => exact .ret _
    | some operation =>
      refine Preserves.bind (Clears.conducts (watched_confined (by decide)
        ((OperationController.claimForRun_confined _).of_subset (by decide)))) fun claimed => ?_
      split_ifs
      · exact Preserves.bind (Clears.conducts (step_confined rfl (by decide))) fun _ => .ret _
      · exact Preserves.bind ((conducts_flashAndReport operation).ensuring
          fun _ => Clears.conducts (step_confined rfl (by decide))) fun _ => .ret _

theorem conducts_run : Conducts settings (run fuel settings) := by
  refine Preserves.bind (Clears.conducts (step_confined rfl (by decide))) fun started => ?_
  refine Preserves.bind (.ofExcept _) fun _ => ?_
  refine Preserves.ensuring (Preserves.bind ?_ fun _ => .loop (fun _ => conducts_workerPass) _ _)
    fun _ => Clears.conducts (cleanUp_confined.of_subset (by decide))
  refine Preserves.bind (Preserves.catching (conducts_silent
    (Flasher.verifyRunningApplication_uses fuel settings) (by decide)
    (fun u r h => .verify fuel r h) fun u r h hr => .verify fuel r hr h) _) fun _ => .ret _

end Main

/-! ## Every interleaving -/

/-- The step of the flasher that a call is. -/
def flasherStep : Event App → Option (Event World)
  | ⟨.flasher o, a⟩ => some ⟨o, a⟩
  | _ => none

/-- The thread that holds the flash lock, and what the flasher has done under it each
time it was held, the last time first, after one more step of the process. -/
def sessionsAfter (x : Option ℕ × List (Trace World)) :
    Act App Task Signal → Option ℕ × List (Trace World)
  | .call i ⟨.acquire .flash, _⟩ => (some i, [] :: x.2)
  | .call _ ⟨.release .flash, _⟩ => (none, x.2)
  | .call i ⟨.flasher o, a⟩ => if x.1 = some i then (x.1, x.2.modifyHead (· ++ [⟨o, a⟩])) else x
  | _ => x

/-- What the flasher has done each time its lock was held. -/
def lockedSessions (t : List (Act App Task Signal)) : List (Trace World) :=
  (t.foldl sessionsAfter (none, [])).2.reverse

/-- The steps on the device, whichever thread took them. -/
def deviceSteps (t : List (Act App Task Signal)) : Trace World :=
  ((Sectioning.allCalls t).filterMap flasherStep).filter fun e => e.op.kind.onDevice

variable {t : List (Act App Task Signal)} {c : System App Exn Site}

theorem sessions_eq (settings : Settings) (t : List (Act App Task Signal)) :
    lockedSessions t =
      (((conducting settings).notes t).2.map (·.filterMap flasherStep)).reverse := by
  let view (x : Option ℕ × List (Trace App)) : Option ℕ × List (Trace World) :=
    (x.1, x.2.map (·.filterMap flasherStep))
  have hview : ∀ x m, sessionsAfter (view x) m = view ((conducting settings).noted x m) := by
    rintro ⟨own, ws⟩ m
    cases m with
    | call i e =>
      obtain ⟨o, a⟩ := e
      cases o with
      | acquire lock => cases lock <;> rfl
      | release lock => cases lock <;> rfl
      | flasher o =>
        by_cases howner : own = some i
        · cases ws <;>
            simp [sessionsAfter, view, Sectioning.noted, locking, conducting, howner, flasherStep]
        · simp [sessionsAfter, view, Sectioning.noted, locking, conducting, howner]
      | _ => simp [sessionsAfter, view, Sectioning.noted, locking, conducting]
    | start i task => rfl
    | move n => rfl
  have hfold : t.foldl sessionsAfter (view (none, [])) =
      view (t.foldl (conducting settings).noted (none, [])) := List.foldl_hom view hview
  exact congrArg (fun x => x.2.reverse) hfold

theorem flasherSteps_asCalls (t : Trace World) :
    (asCalls t).filterMap flasherStep = ownSteps t := by
  rw [asCalls, List.filterMap_map]
  exact List.filterMap_some

/-- The call is a step on the device. -/
def onDevice : Event App → Bool
  | ⟨.flasher o, _⟩ => o.kind.onDevice
  | _ => false

theorem device_filter (w : Trace App) :
    (w.filterMap flasherStep).filter (fun e => e.op.kind.onDevice) =
      (w.filter onDevice).filterMap flasherStep := by
  induction w with
  | nil => rfl
  | cons e w ih =>
    obtain ⟨o, a⟩ := e
    cases o with
    | flasher o => cases hdevice : o.kind.onDevice <;> simp [flasherStep, onDevice, hdevice, ih]
    | _ => exact ih

theorem OperationEnd.operationRun {u : Trace World} (h : OperationEnd settings u) :
    OperationRun settings u := by
  cases h with
  | flash fuel image manualRecovery r _ h => exact .flash fuel image manualRecovery r h
  | verify fuel r _ h => exact .verify fuel r h
  | setLed fuel mode r _ h => exact .setLed fuel mode r h
  | diagnostics fuel r _ h => exact .diagnostics fuel r h

theorem exists_operations {past : List (Trace App)}
    (h : ∀ w ∈ past, (conducting settings).whole w) :
    ∃ operations : List (Trace World), (∀ u ∈ operations, OperationEnd settings u) ∧
      past.map (·.filterMap flasherStep) = operations.map ownSteps := by
  induction past with
  | nil => exact ⟨[], by simp, rfl⟩
  | cons w past ih =>
    obtain ⟨u, rfl, hu⟩ := h w (by simp)
    obtain ⟨operations, hoperations, hpast⟩ := ih fun w hw => h w (List.mem_cons_of_mem _ hw)
    refine ⟨u :: operations, ?_, by
      rw [List.map_cons, List.map_cons, flasherSteps_asCalls, hpast]⟩
    intro u' hu'
    rcases List.mem_cons.mp hu' with rfl | hu'
    · exact hu
    · exact hoperations u' hu'

theorem boot_conducts (fuel : ℕ) (settings : Settings) :
    ∀ i p, (boot fuel settings).threads i = some p → Conducts settings p := by
  intro i p hp
  by_cases hi : i = worker
  · subst hi
    obtain rfl : Main.run fuel settings = p := by simpa [boot] using hp
    exact Main.conducts_run
  · simp [boot, hi] at hp

theorem reached_serialized (h : Reached fuel settings t c) :
    ((conducting settings).notes t).1 = c.store.locks .flash ∧
      ((∀ w ∈ ((conducting settings).notes t).2, (conducting settings).whole w) ∨
        c.store.locks .flash ≠ none ∧ ∃ last past,
          ((conducting settings).notes t).2 = last :: past ∧
            (conducting settings).underway last ∧ ∀ w ∈ past, (conducting settings).whole w) :=
  Sectioning.serialized (site_grants fuel settings) ⟨[], rfl, .diagnostics 0 .cut (.cut _)⟩
    conducts_program rfl (boot_conducts fuel settings) h

theorem lockedSessions_operations (h : Reached fuel settings t c) :
    ∃ operations : List (Trace World), lockedSessions t = operations.map ownSteps ∧
      (∀ u ∈ operations, OperationRun settings u) ∧
      (∀ u ∈ operations.dropLast, OperationEnd settings u) ∧
      (c.store.locks .flash = none → ∀ u ∈ operations, OperationEnd settings u) := by
  rw [sessions_eq settings]
  rcases (reached_serialized h).2 with hwhole | ⟨htaken, last, past, hnotes, ⟨u, rfl, hu⟩, hpast⟩
  · obtain ⟨operations, hoperations, hmap⟩ := exists_operations hwhole
    have hreverse : ∀ u ∈ operations.reverse, OperationEnd settings u := fun u hu =>
      hoperations u (List.mem_reverse.mp hu)
    exact ⟨operations.reverse, by rw [hmap, List.map_reverse],
      fun u hu => (hreverse u hu).operationRun,
      fun u hu => hreverse u (List.mem_of_mem_dropLast hu), fun _ => hreverse⟩
  · obtain ⟨operations, hoperations, hmap⟩ := exists_operations hpast
    have hreverse : ∀ u ∈ operations.reverse, OperationEnd settings u := fun u hu =>
      hoperations u (List.mem_reverse.mp hu)
    refine ⟨operations.reverse ++ [u], ?_, fun u' hu' => ?_, fun u' hu' => ?_,
      fun hfree => absurd hfree htaken⟩
    · rw [hnotes, List.map_cons, hmap, flasherSteps_asCalls]
      simp
    · rcases List.mem_append.mp hu' with hu' | hu'
      · exact (hreverse u' hu').operationRun
      · rw [List.mem_singleton.mp hu']
        exact hu
    · rw [List.dropLast_concat] at hu'
      exact hreverse u' hu'

theorem deviceSteps_lockedSessions (h : Reached fuel settings t c) :
    deviceSteps t = (lockedSessions t).flatten.filter fun e => e.op.kind.onDevice := by
  have hguarded : ∀ e, onDevice e = true → locking.step e.op = none ∧
      locking.guard e.op = some .flash ∧ (conducting settings).counts e.op = true := by
    rintro ⟨o, a⟩ hdevice
    cases o with
    | flasher o => exact ⟨rfl, if_pos hdevice, rfl⟩
    | _ => cases hdevice
  have hdevice := Sectioning.guarded_noted (Z := conducting settings) (site_grants fuel settings)
    (fun _ => nests_program _) (boot_holding fuel settings) (fun h => (reached_serialized h).1)
    hguarded h
  rw [sessions_eq settings, ← List.map_reverse, ← List.filterMap_flatten, device_filter, hdevice,
    deviceSteps, device_filter]

/-- In every interleaving, the flasher's steps under its lock are those of one
operation after another, all of them whole except that the holder of the lock is
still in the last one. No step on the device is taken elsewhere. -/
theorem device_serial (h : Reached fuel settings t c) :
    (∃ operations : List (Trace World), lockedSessions t = operations.map ownSteps ∧
      (∀ u ∈ operations, OperationRun settings u) ∧
      (∀ u ∈ operations.dropLast, OperationEnd settings u) ∧
      (c.store.locks .flash = none → ∀ u ∈ operations, OperationEnd settings u)) ∧
    deviceSteps t = (lockedSessions t).flatten.filter fun e => e.op.kind.onDevice :=
  ⟨lockedSessions_operations h, deviceSteps_lockedSessions h⟩

/-- The verification of the start and the request for the indicator, as two
operations. -/
theorem device_serial_succession : ∃ t c, Reached 2 PlannedRun.qemuSettings t c ∧
    (lockedSessions t).length = 2 ∧ (deviceSteps t).length = 9 ∧
    ∃ operations : List (Trace World), lockedSessions t = operations.map ownSteps ∧
      ∀ u ∈ operations, OperationRun PlannedRun.qemuSettings u := by
  have hplay : (play 2 PlannedRun.qemuSettings (sampleScript.answer 0) succession
      ([], boot 2 PlannedRun.qemuSettings)).any fun x =>
        decide ((lockedSessions x.1).length = 2 ∧ (deviceSteps x.1).length = 9) := by
    decide +kernel
  obtain ⟨⟨t, c⟩, hx, hend⟩ := (Option.any_eq_true _ _).mp hplay
  obtain ⟨hsessions, hsteps⟩ := of_decide_eq_true hend
  have hreach := play_reached .nil hx
  obtain ⟨⟨operations, hlocked, hruns, -⟩, -⟩ := device_serial hreach
  exact ⟨t, c, hreach, hsessions, hsteps, operations, hlocked, hruns⟩

end Cul868Flasher
