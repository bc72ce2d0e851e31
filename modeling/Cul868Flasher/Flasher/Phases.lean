import Cul868Flasher.Flasher.Handoff

/-!
# The transaction step by step

The parts of the transaction in the order in which they run, each with what is
known of the history when it returns and when it raises. The pause that leaves
a part tells how far the part has come.
-/

namespace Cul868Flasher
open Python Effects

namespace Flasher

/-! ## States of the history -/

/-- The command has been sent, and its session closed, without an error. -/
def Handover (h : Trace World) : Prop :=
  ∃ u v, h = u ++ [⟨.enterBootloader, (.ok () : Except Exn Unit)⟩,
    ⟨.closeSerial, (.ok () : Except Exn Unit)⟩] ++ v ∧ Before u ∧ Avoids [.bootloaderCommand] v

/-- The step after which a recovery counts as begun. -/
def RecoveryBegun (h : Trace World) : Prop :=
  ∃ message, ⟨.report 15 message, (.ok () : Except Exn Unit)⟩ ∈ h

/-- The run has left the application behind, by a handoff or by a recovery. -/
def Past (plan : FlashPlan) (h : Trace World) : Prop :=
  plan.mode = .application ∧ Handover h ∨
    plan.mode ≠ .application ∧ RecoveryBegun h ∧ Avoids [.bootloaderCommand] h

/-- `B01` has not been sent, and no recovery has begun. -/
def Early (plan : FlashPlan) (h : Trace World) : Prop :=
  Before h ∧ (plan.mode ≠ .application → ¬ RecoveryBegun h)

def Selected (plan : FlashPlan) (h : Trace World) : Prop :=
  Past plan h ∧ Avoids laterKinds h

/-- A bootloader has been bound. -/
def Programming (plan : FlashPlan) (h : Trace World) : Prop :=
  Past plan h ∧ Avoids [.save (some .verifiedApplication)] h ∧
    ∃ bound, ⟨.saveState bound, SaveOutcome.saved⟩ ∈ h ∧
      bound.binding = some .observedBootloader

def VerifiedSaved (h : Trace World) : Prop :=
  ∃ file, ⟨.saveState file, SaveOutcome.saved⟩ ∈ h ∧ file.binding = some .verifiedApplication

theorem Past.snoc {plan : FlashPlan} {h : Trace World} {e : Event World} (hp : Past plan h)
    (he : e.op.kind ≠ .bootloaderCommand) : Past plan (h ++ [e]) := by
  have hnot : e.op.kind ∉ [OpKind.bootloaderCommand] := by simpa using he
  rcases hp with ⟨hmode, u, v, rfl, hu, hv⟩ | ⟨hmode, ⟨message, hbegun⟩, ha⟩
  · exact .inl ⟨hmode, u, v ++ [e], by simp, hu, hv.snoc hnot⟩
  · exact .inr ⟨hmode, ⟨message, List.mem_append_left _ hbegun⟩, ha.snoc hnot⟩

theorem quiet_not_command {k : OpKind} (hk : k ∈ quietKinds) : k ≠ .bootloaderCommand := by
  rintro rfl
  exact absurd hk (by decide)

theorem Past.quiet {plan : FlashPlan} (h : Trace World) (e : Event World)
    (he : e.op.kind ∈ quietKinds) (hp : Past plan h) : Past plan (h ++ [e]) :=
  hp.snoc (quiet_not_command he)

theorem Selected.quiet {plan : FlashPlan} (h : Trace World) (e : Event World)
    (he : e.op.kind ∈ quietKinds) (hs : Selected plan h) : Selected plan (h ++ [e]) :=
  ⟨hs.1.quiet h e he, quiet_avoids (by decide) he hs.2⟩

theorem Programming.quiet {plan : FlashPlan} (h : Trace World) (e : Event World)
    (he : e.op.kind ∈ quietKinds) (hp : Programming plan h) : Programming plan (h ++ [e]) := by
  obtain ⟨hpast, hverified, bound, hbound, hbinding⟩ := hp
  exact ⟨hpast.quiet h e he, quiet_avoids (by decide) he hverified,
    bound, by simp [hbound], hbinding⟩

theorem Handed.selected {plan : FlashPlan} {h : Trace World} (hmode : plan.mode = .application)
    (hh : Handed h) : Selected plan h := by
  obtain ⟨u, rfl, hu⟩ := hh
  refine ⟨.inl ⟨hmode, u, [], by simp, hu, fun _ he => absurd he (List.not_mem_nil)⟩, ?_⟩
  intro e he
  rcases List.mem_append.mp he with he | he
  · exact hu.of_subset (List.subset_cons_self _ _) e he
  · simp only [List.mem_cons, List.not_mem_nil, or_false] at he
    rcases he with rfl | rfl
    · simp [Op.kind, laterKinds]
    · simp [Op.kind, laterKinds]

/-- How a part of the paused section raises. -/
def Raised (plan : FlashPlan) (pause : CulConsumerPause) (x : Exn × CulConsumerPause)
    (h : Trace World) : Prop :=
  x.2 = pause ∧ Early plan h ∨ CommandRaised pause x h ∨
    x.2 = pause.leaveStoppedAfterError ∧ Past plan h

section
variable {settings : Settings} {plan : FlashPlan} {image : HexImage} (fuel : ℕ)

/-! ## Selection -/

/-- Nothing that counts has been done: no report, no command, no later record. -/
abbrev Fresh : Trace World → Prop := Avoids (.report :: .bootloaderCommand :: laterKinds)

theorem selectFromApplication_steps (hmode : plan.mode = .application) {application : UsbTarget}
    (happlication : plan.application = some application) (pause : CulConsumerPause) :
    Steps settings plan Before (selectFromApplication fuel settings plan application pause)
      (fun x h => x.2 = pause.leaveStoppedAfterError ∧ Selected plan h) (Raised plan pause) := by
  refine Triple.bind (R := fun x h => x.2 = pause.leaveStoppedAfterError ∧ Selected plan h)
    ((enterBootloader_steps hmode happlication pause).conseq (fun _ _ h => h) ?_ ?_) fun x => ?_
  · exact fun x h _ hx => ⟨hx.1, hx.2.selected hmode⟩
  · rintro x h - (⟨hpause, hb⟩ | hraised)
    · exact .inl ⟨hpause, hb, fun hne => absurd hmode hne⟩
    · exact .inr (.inl hraised)
  obtain ⟨before, pause'⟩ := x
  refine .fact fun hpause => ?_
  obtain rfl : pause' = pause.leaveStoppedAfterError := hpause
  refine Triple.bind (Triple.raisingWith ((quiet_steps (settleAfterUsbChange_uses settings _)
    (by decide) Selected.quiet).exc fun e h _ hs => .inr (.inr ⟨rfl, hs.1⟩))) fun _ => ?_
  refine Triple.bind (Triple.raisingWith ((quiet_steps (waitForBootloader_uses fuel settings _ _ _ _
    _) (by decide) Selected.quiet).exc fun e h _ hs => .inr (.inr ⟨rfl, hs.1⟩))) fun _ => ?_
  exact .pure fun h _ hs => ⟨rfl, hs⟩

theorem selectFromRecovery_steps (hmode : plan.mode ≠ .application) (pause : CulConsumerPause) :
    Steps settings plan Fresh (selectFromRecovery fuel settings plan pause)
      (fun x h => x.2 = pause.leaveStoppedAfterError ∧ Selected plan h) (Raised plan pause) := by
  refine Triple.bind (R := fun _ => Selected plan) (Triple.raisingWith (fallible_triple
    fun h a hj hf => ?_)) fun _ => ?_
  · have hkind : (Op.report 15 (if plan.manualRecovery.isSome then
        "Using the explicitly confirmed CUL868 USB DFU bootloader."
      else "Using the saved CUL868 USB path in DFU recovery mode.")).kind ∈ quietKinds := by
      simp [Op.kind, quietKinds]
    have hbefore : Before h := hf.of_subset (List.subset_cons_self _ _)
    have hnext := Before.quiet h ⟨_, a⟩ hkind hbefore
    refine ⟨hj.snoc (stepAllowed_quiet h _ hkind), ?_, fun e he => ?_⟩
    · rintro _ rfl
      exact ⟨.inr ⟨hmode, ⟨_, List.mem_append_right _ (List.mem_singleton_self _)⟩,
        hnext.of_subset (by decide)⟩, hnext.of_subset (by decide)⟩
    · refine .inl ⟨rfl, hnext, fun _ => ?_⟩
      rintro ⟨message, hmem⟩
      rcases List.mem_append.mp hmem with hmem | hmem
      · exact hf _ hmem (by simp [Op.kind])
      · have heq := List.mem_singleton.mp hmem
        cases heq
        cases he
  · refine Triple.bind (Triple.raisingWith ((quiet_steps (waitForBootloader_uses fuel settings _ _ _
      _ _) (by decide) Selected.quiet).exc fun e h _ hs => .inr (.inr ⟨rfl, hs.1⟩))) fun _ => ?_
    exact .pure fun h _ hs => ⟨rfl, hs⟩

theorem selectBootloader_steps (pause : CulConsumerPause) :
    Steps settings plan Fresh (selectBootloader fuel settings plan pause)
      (fun x h => x.2 = pause.leaveStoppedAfterError ∧ Selected plan h ∧
        ∃ u e, h = u ++ [e] ∧ Selects settings plan e x.1.bootloader) (Raised plan pause) := by
  have hselect : Steps settings plan Fresh (selectBootloader fuel settings plan pause)
      (fun x h => x.2 = pause.leaveStoppedAfterError ∧ Selected plan h) (Raised plan pause) := by
    unfold selectBootloader
    split
    · rename_i hmode
      split
      · exact .raise fun h _ hf =>
          .inl ⟨rfl, hf.of_subset (List.subset_cons_self _ _), fun hne => absurd hmode hne⟩
      · rename_i application happlication
        exact (selectFromApplication_steps fuel hmode happlication pause).pre
          fun h _ hf => hf.of_subset (List.subset_cons_self _ _)
    · rename_i hmode
      exact selectFromRecovery_steps fuel hmode pause
  refine hselect.record.conseq (fun _ _ h => h) ?_ fun _ _ _ hx => hx.1
  rintro ⟨selection, pause'⟩ h - ⟨⟨hpause, hs⟩, h₀, t, rfl, -, hrun⟩
  obtain ⟨u, e, rfl, hsel⟩ := selectBootloader_returned hrun
  exact ⟨hpause, hs, h₀ ++ u, e, by simp, hsel⟩

/-! ## Programming and verification -/

theorem saveObserved_allowed {h : Trace World} {file : StateFile} {bootloader : UsbTarget}
    (hs : Selected plan h) (hsel : ∃ u e, h = u ++ [e] ∧ Selects settings plan e bootloader)
    (hfile : DeviceStateStore.encode (observedBootloader settings bootloader bootloader.topology) =
      .ok file) : SaveAllowed settings plan h file := by
  obtain ⟨w, x, hw, hx⟩ := hsel
  refine .inr (.inl ⟨hs.2, fun hmode => ?_, bootloader, w, x, hw, hx, hfile⟩)
  rcases hs.1 with ⟨-, u, v, rfl, -, -⟩ | ⟨hne, -⟩
  · exact ⟨⟨.enterBootloader, (.ok () : Except Exn Unit)⟩, by simp, rfl⟩
  · exact absurd hmode hne

theorem storeObservedBootloader_steps (bootloader : UsbTarget) :
    Steps settings plan
      (fun h => Selected plan h ∧ ∃ u e, h = u ++ [e] ∧ Selects settings plan e bootloader)
      (storeObservedBootloader settings bootloader bootloader.topology)
      (fun _ => Programming plan) fun _ => Past plan := by
  refine save_triple ?_ ?_ fun _ _ _ _ hs => hs.1.1
  · rintro h file hfile hj ⟨hs, hsel⟩
    have hbinding : file.binding = some .observedBootloader := binding_encode hfile
    refine ⟨hj.snoc (stepAllowed_save _ (saveObserved_allowed hs hsel hfile)),
      hs.1.snoc (by simp [Op.kind]), ?_, file, by simp, hbinding⟩
    exact (hs.2.of_subset (by decide)).snoc (by simp [Op.kind, hbinding])
  · rintro h file replaced e hfile hj ⟨hs, hsel⟩
    exact ⟨hj.snoc (stepAllowed_save _ (saveObserved_allowed hs hsel hfile)),
      hs.1.snoc (by simp [Op.kind])⟩

theorem programBootloader_steps (bootloader : UsbTarget) :
    Steps settings plan
      (fun h => Selected plan h ∧ ∃ u e, h = u ++ [e] ∧ Selects settings plan e bootloader)
      (programBootloader fuel settings plan image bootloader)
      (fun _ => Programming plan) fun _ => Past plan := by
  have hquiet : ∀ {α : Type} {ks : List OpKind} {p : Program α}, Uses ks p → ks ⊆ quietKinds →
      Steps settings plan (Programming plan) p (fun _ => Programming plan) fun _ => Past plan :=
    fun hp hks => (quiet_steps hp hks Programming.quiet).exc fun _ _ _ hx => hx.1
  have hreport := fun percent message =>
    hquiet (reportOnly_uses percent message) (by decide)
  have hdfu := fun command arguments => hquiet (runDfu_uses fuel settings bootloader.topology
    bootloader.usbSerial command arguments) (by decide)
  refine (storeObservedBootloader_steps bootloader).bind fun _ => ?_
  refine (hquiet (reportMoved_uses (List.mem_singleton_self OpKind.report) _ _ _ _)
    (by decide)).bind fun _ => ?_
  refine (hreport _ _).bind fun _ => (hdfu _ _).bind fun _ => ?_
  refine (hreport _ _).bind fun _ => (hdfu _ _).bind fun _ => ?_
  refine (hreport _ _).bind fun _ => (hquiet (startApplication_uses fuel settings _ _)
    (by decide)).bind fun startError => ?_
  exact (hquiet (settleAfterUsbChange_uses settings _) (by decide)).bind fun _ =>
    .pure fun _ _ hx => hx

/-- The pause a flash ends with: as it was, or with every consumer retained. -/
def Migrated (pause pause' : CulConsumerPause) : Prop :=
  pause' = pause ∨ pause' = pause.retainAddons pause.addons

theorem manualSerialByIdMigration_steps {P : Trace World → Prop}
    (hP : ∀ h e, e.op.kind ∈ quietKinds → P h → P (h ++ [e])) (previous device : Path)
    (pause : CulConsumerPause) :
    Steps settings plan P (manualSerialByIdMigration fuel previous device pause)
      (fun x h => Migrated pause x.2 ∧ P h) fun x h => x.2 = pause ∧ P h := by
  unfold manualSerialByIdMigration
  split
  · exact .pure fun h _ hp => ⟨.inl rfl, hp⟩
  refine Triple.bind (R := fun _ => P) (Triple.raisingWith ((quiet_steps
    (inspectAliases_uses fuel device) (by decide) hP).exc fun e h _ hp => ⟨rfl, hp⟩)) fun x => ?_
  obtain ⟨aliases, reason⟩ := x
  dsimp only
  split
  · exact .pure fun h _ hp => ⟨.inl rfl, hp⟩
  · refine Triple.bind (R := fun _ => P) (Triple.raisingWith ((quiet_steps (reportOnly_uses _ _)
      (by decide) hP).exc fun e h _ hp => ⟨rfl, hp⟩)) fun _ => ?_
    exact .pure fun h _ hp => ⟨.inr rfl, hp⟩

theorem recordApplication_steps (before : Option String) (application : UsbTarget)
    (device : Path) (version : String) (pause : CulConsumerPause) :
    Steps settings plan (Programming plan)
      (recordApplication fuel settings before application device version pause)
      (fun x h => Migrated pause x.2 ∧ Past plan h ∧ VerifiedSaved h)
      fun x h => x.2 = pause ∧ Past plan h := by
  have hallowed : ∀ h file, DeviceStateStore.encode
      (verifiedApplication settings application version) = .ok file → Programming plan h →
      SaveAllowed settings plan h file := fun h file hfile hp =>
    .inr (.inr ⟨binding_encode hfile, hp.2.1, hp.2.2⟩)
  refine Triple.bind (R := fun _ h => Past plan h ∧ VerifiedSaved h)
    (Triple.raisingWith (save_triple ?_ ?_ fun _ _ _ _ hp => ⟨rfl, hp.1⟩)) fun _ => ?_
  · intro h file hfile hj hp
    exact ⟨hj.snoc (stepAllowed_save _ (hallowed h file hfile hp)),
      hp.1.snoc (by simp [Op.kind]), file, by simp, binding_encode hfile⟩
  · intro h file replaced e hfile hj hp
    exact ⟨hj.snoc (stepAllowed_save _ (hallowed h file hfile hp)), rfl,
      hp.1.snoc (by simp [Op.kind])⟩
  refine Triple.bind ((manualSerialByIdMigration_steps fuel (P := fun h => Past plan h ∧
    VerifiedSaved h) ?_ _ _ _).exc fun x h _ hx => ⟨hx.1, hx.2.1⟩) fun x =>
      .pure fun h _ hx => hx
  rintro h e he ⟨hp, file, hfile, hbinding⟩
  exact ⟨hp.quiet h e he, file, by simp [hfile], hbinding⟩

/-- The paused section. -/
theorem flashPaused_steps (pause : CulConsumerPause) :
    Steps settings plan Fresh (flashPaused fuel settings plan image pause)
      (fun x h => Migrated pause.leaveStoppedAfterError x.2 ∧ Past plan h ∧ VerifiedSaved h)
      (Raised plan pause) := by
  refine (selectBootloader_steps fuel pause).bind fun x => ?_
  obtain ⟨selection, pause'⟩ := x
  refine .fact fun hpause => ?_
  obtain rfl : pause' = pause.leaveStoppedAfterError := hpause
  refine Triple.bind (Triple.raisingWith ((programBootloader_steps fuel _).exc
    fun e h _ hp => .inr (.inr ⟨rfl, hp⟩))) fun startError => ?_
  refine Triple.bind (Triple.raisingWith ((quiet_steps (verifyApplication_uses fuel settings _ _ _)
    (by decide) Programming.quiet).exc fun e h _ hp => .inr (.inr ⟨rfl, hp.1⟩))) fun verified => ?_
  exact (recordApplication_steps fuel _ _ _ _ _).exc fun x h _ hx => .inr (.inr hx)

/-! ## The transaction -/

/-- An exception after the command has gone wrong is a `FlashError`. -/
def CommandChecked (e : Exn) (h : Trace World) : Prop :=
  Avoids [.bootloaderCommand] h ∨ Handover h ∨ HandoffFailed h ∧ e.isFlashError = true

theorem Past.checked {h : Trace World} (hp : Past plan h) (e : Exn) : CommandChecked e h := by
  rcases hp with ⟨-, hh⟩ | ⟨-, -, ha⟩
  · exact .inr (.inl hh)
  · exact .inl ha

/-- A section that has raised makes the whole raise. -/
theorem resumeConsumers_error {stopped : List String} {x : Exn × CulConsumerPause}
    {t : Trace World} {a : α × CulConsumerPause} :
    ¬ Run (SupervisorClient.resumeConsumers fuel stopped (.error x)) t (.returned a) := by
  intro h
  unfold SupervisorClient.resumeConsumers at h
  dsimp only at h
  split at h
  · obtain ⟨_, _, _, rfl, -, h₂⟩ := Run.bind_returned.mp h
    exact Run.raise_returned h₂
  · split at h
    · exact Run.raise_returned h
    · exact Run.raise_returned h

/-- Consumers that are to stay stopped are not touched. -/
theorem resumeConsumers_stopped (stopped : List String) (e : Exn) {pause : CulConsumerPause}
    (hpause : pause.restoreAfterError = false) : ∃ e', e'.isFlashError = e.isFlashError ∧
      SupervisorClient.resumeConsumers (α := α) fuel stopped (.error (e, pause)) = .raise e' := by
  unfold SupervisorClient.resumeConsumers
  dsimp only
  rw [if_neg (by simp [hpause])]
  split
  · exact ⟨_, e.addNote_isFlashError _, rfl⟩
  · exact ⟨e, rfl, rfl⟩

theorem pauseConsumers_steps :
    Steps settings plan (fun h => h = [])
      (SupervisorClient.pauseConsumers fuel settings.device settings.additionalCulAddons)
      (fun _ => Fresh) fun _ h => Avoids [.bootloaderCommand] h := by
  refine (Guarded.frame (P := Fresh) (SupervisorClient.pauseConsumers_uses fuel _ _)
    (fun h e he => stepAllowed_quiet h e ?_) fun h e he hf => hf.snoc ?_).conseq ?_
      (fun _ _ _ hf => hf) fun _ _ _ hf => hf.of_subset (by decide)
  · exact (by decide : [OpKind.clock, .sleep, .get, .post, .file] ⊆ quietKinds) he
  · exact (by decide : ∀ k ∈ [OpKind.clock, .sleep, .get, .post, .file],
      k ∉ OpKind.report :: .bootloaderCommand :: laterKinds) _ he
  · rintro h - rfl
    exact fun e he => absurd he List.not_mem_nil

theorem transact_steps :
    Steps settings plan (fun h => h = []) (transact fuel settings image plan)
      (fun _ => Past plan) CommandChecked := by
  have hquiet : ∀ {α ε : Type} {ks : List OpKind} {p : Prog World ε α} {P : Trace World → Prop},
      Uses ks p → ks ⊆ quietKinds → (∀ h e, e.op.kind ∈ quietKinds → P h → P (h ++ [e])) →
      Steps settings plan P p (fun _ => P) fun _ => P := fun hp hks hP => quiet_steps hp hks hP
  refine Triple.bind (R := fun _ => Past plan) ?_ fun _ => .pure fun _ _ hp => hp
  refine Triple.bind ((pauseConsumers_steps fuel).exc fun e h _ ha => .inl ha) fun paused => ?_
  refine Triple.bind (flashPaused_steps fuel paused.1).attempt fun result => ?_
  have hresume := SupervisorClient.resumeConsumers_uses (α := Flashed) fuel paused.2
  rcases result with ⟨e, pause'⟩ | x
  · have hraised : Steps settings plan (Raised plan paused.1 (e, pause'))
        (SupervisorClient.resumeConsumers (α := Flashed) fuel paused.2 (.error (e, pause')))
        (fun _ => Past plan) CommandChecked := by
      refine .or (.fact fun hstate => ?_) (.or ?_ (.fact fun hstate => ?_))
      · refine ((hquiet (P := Avoids [.bootloaderCommand]) (hresume _) (by decide)
          fun h e he => quiet_avoids (by decide) he).record.conseq
          (fun h _ hb => hb.1.of_subset (by decide)) ?_ fun _ _ _ ha => .inl ha.1)
        rintro a h - ⟨-, h₀, t, rfl, -, hrun⟩
        exact absurd hrun (resumeConsumers_error fuel)
      · refine (Triple.fact fun hflash => .fact fun hstate => ?_)
        obtain rfl : pause' = paused.1.leaveStoppedAfterError := hstate
        obtain ⟨e', hclass, heq⟩ := resumeConsumers_stopped (α := Flashed) fuel paused.2 e
          paused.1.leaveStoppedAfterError_restoreAfterError
        rw [heq]
        exact .raise fun h _ hf => .inr (.inr ⟨hf, hclass.trans hflash⟩)
      · obtain rfl : pause' = paused.1.leaveStoppedAfterError := hstate
        obtain ⟨e', -, heq⟩ := resumeConsumers_stopped (α := Flashed) fuel paused.2 e
          paused.1.leaveStoppedAfterError_restoreAfterError
        rw [heq]
        exact .raise fun h _ hp => hp.checked e'
    exact hraised.pre fun h _ hx => hx.2 _ rfl
  · refine ((hquiet (P := Past plan) (hresume _) (by decide) Past.quiet).conseq ?_
      (fun _ _ _ hp => hp) fun e h _ hp => hp.checked e)
    exact fun h _ hx => (hx.1 _ rfl).2.1

end
end Flasher
end Cul868Flasher
