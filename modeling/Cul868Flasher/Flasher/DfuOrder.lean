import Cul868Flasher.Flasher.Found

/-!
# The order of the DFU commands

Whatever a transaction has done when it runs a DFU command, it has bound one
bootloader, resolved it again, and run the commands that come before with exit
status 0. `Allowed` states this of one command and of the history before it.
-/

namespace Cul868Flasher
open Python Effects

structure DfuCall where
  bootloader : UsbTarget
  command : DfuCommand
  arguments : List String
  outcome : DfuOutcome

def dfuOf : Event World → Option DfuCall
  | ⟨.dfu bootloader command arguments, outcome⟩ => some ⟨bootloader, command, arguments, outcome⟩
  | _ => none

def dfuCalls (t : Trace World) : List DfuCall := t.filterMap dfuOf

/-- An attempt to save an observed bootloader, with or without success. -/
def IsBinding (e : Event World) : Prop := e.op.kind = .save (some .observedBootloader)

instance (e : Event World) : Decidable (IsBinding e) := inferInstanceAs (Decidable (_ = _))

theorem dfuOf_none {e : Event World} (h : e.op.kind ≠ .dfu) : dfuOf e = none := by
  obtain ⟨o, a⟩ := e
  cases o with
  | dfu bootloader command arguments => exact absurd rfl h
  | _ => rfl

@[simp] theorem dfuCalls_append (t u : Trace World) :
    dfuCalls (t ++ u) = dfuCalls t ++ dfuCalls u :=
  List.filterMap_append ..

theorem dfuCalls_snoc {t : Trace World} {e : Event World} (h : e.op.kind ≠ .dfu) :
    dfuCalls (t ++ [e]) = dfuCalls t := by
  simp [dfuCalls, dfuOf_none h]

def DfuCall.Succeeded (call : DfuCall) : Prop :=
  ∃ transcript, call.outcome = .completed 0 transcript

namespace DfuCommand

def before : DfuCommand → List DfuCommand
  | .erase => []
  | .flash => [.erase]
  | .start => [.erase, .flash]

def argumentsFor (image : HexImage) : DfuCommand → List String
  | .flash => [toString image.path]
  | _ => []

end DfuCommand

namespace Flasher

theorem dfuResult_ok {command : DfuCommand} {outcome : DfuOutcome} :
    dfuResult command outcome = .ok () ↔ ∃ transcript, outcome = .completed 0 transcript := by
  cases outcome with
  | completed returncode transcript =>
    by_cases h : returncode = 0
    · simp [dfuResult, h]
    · simp [dfuResult, h]
  | _ => simp [dfuResult]

/-- The serial the selection expects, from the plan. -/
def expectedSerial (plan : FlashPlan) : Option String :=
  if plan.mode = .application then plan.application.bind UsbTarget.usbSerial
  else plan.bootloader.bind UsbTarget.usbSerial

/-- The event selects `target` as the bootloader of this plan. -/
def Selects (settings : Settings) (plan : FlashPlan) (e : Event World)
    (target : UsbTarget) : Prop :=
  FoundBy plan.topology (expectedSerial plan) settings.qemuUsbReenumerationWorkaround
    (plan.mode = .application) e target

/-- The first attempt to bind saved `target`, right after an event selected it. -/
def Bound (settings : Settings) (plan : FlashPlan) (h : Trace World) (target : UsbTarget) : Prop :=
  ∃ u e file v, h = u ++ e :: ⟨.saveState file, SaveOutcome.saved⟩ :: v ∧
    Selects settings plan e target ∧ (∀ x ∈ u, ¬ IsBinding x) ∧
    DeviceStateStore.encode (observedBootloader settings target target.topology) = .ok file

/-- The last event shows `target` on the path of the bound bootloader. -/
def Resolves (bound : UsbTarget) (h : Trace World) (target : UsbTarget) : Prop :=
  ∃ u e, h = u ++ [e] ∧ FoundOnPath bound.topology e target ∧
    SerialAccepted bound.usbSerial target false

/-- What holds when a DFU command is run after the history `h`. -/
structure Allowed (settings : Settings) (plan : FlashPlan) (image : HexImage) (h : Trace World)
    (call : DfuCall) : Prop where
  bound : ∃ target, Bound settings plan h target ∧ Resolves target h call.bootloader
  order : (dfuCalls h).map DfuCall.command = call.command.before
  succeeded : ∀ earlier ∈ dfuCalls h, earlier.Succeeded
  arguments : call.arguments = call.command.argumentsFor image

abbrev AllAllowed (settings : Settings) (plan : FlashPlan) (image : HexImage) :
    Trace World → Prop :=
  Guarded fun h e => ∀ call, dfuOf e = some call → Allowed settings plan image h call

section
variable {settings : Settings} {plan : FlashPlan} {image : HexImage}

/-- Steps that are no DFU command need no permission. -/
theorem allowed_of_kind {ks : List OpKind} (hks : .dfu ∉ ks) (h : Trace World) (e : Event World)
    (he : e.op.kind ∈ ks) (call : DfuCall) (hcall : dfuOf e = some call) :
    Allowed settings plan image h call := by
  rw [dfuOf_none fun hk => hks (hk ▸ he)] at hcall
  cases hcall

theorem Bound.append {h : Trace World} {target : UsbTarget} (hb : Bound settings plan h target)
    (t : Trace World) : Bound settings plan (h ++ t) target := by
  obtain ⟨u, e, file, v, rfl, hrest⟩ := hb
  exact ⟨u, e, file, v ++ t, by simp, hrest⟩

/-! ## The parts of the transaction -/

abbrev Permits (settings : Settings) (plan : FlashPlan) (image : HexImage) (P : Trace World → Prop)
    (p : Prog World ε α) (Q : α → Trace World → Prop) : Prop :=
  Triple (AllAllowed settings plan image) P p Q fun _ _ => True

theorem permits_frame {ks : List OpKind} {p : Prog World ε α} (hp : Uses ks p) (hks : .dfu ∉ ks)
    {P : Trace World → Prop} (hP : ∀ h e, e.op.kind ∈ ks → P h → P (h ++ [e])) :
    Permits settings plan image P p fun _ => P :=
  (Guarded.frame hp (allowed_of_kind hks) hP).exc fun _ _ _ _ => trivial

/-- Nothing has been bound and no DFU command has been run. -/
def Untouched (h : Trace World) : Prop := dfuCalls h = [] ∧ ∀ e ∈ h, ¬ IsBinding e

theorem untouched_snoc {ks : List OpKind} (hks : .dfu ∉ ks)
    (hsave : .save (some .observedBootloader) ∉ ks) (h : Trace World) (e : Event World)
    (he : e.op.kind ∈ ks) (hu : Untouched h) : Untouched (h ++ [e]) := by
  refine ⟨by rw [dfuCalls_snoc fun hk => hks (hk ▸ he)]; exact hu.1, fun x hx => ?_⟩
  rcases List.mem_append.mp hx with hx | hx
  · exact hu.2 x hx
  · rw [List.mem_singleton.mp hx]
    exact fun hk => hsave (hk ▸ he)

theorem selectBootloader_returned {fuel : ℕ} {pause pause' : CulConsumerPause} {t : Trace World}
    {selection : Selection}
    (h : Run (selectBootloader fuel settings plan pause) t (.returned (selection, pause'))) :
    ∃ u e, t = u ++ [e] ∧ Selects settings plan e selection.bootloader := by
  unfold selectBootloader at h
  split at h
  · rename_i hmode
    split at h
    · exact absurd h Run.raise_returned
    · rename_i application happ
      obtain ⟨⟨before, pause₁⟩, t₁, t₂, rfl, -, h⟩ := Run.bind_returned.mp h
      obtain ⟨_, t₃, t₄, rfl, -, h⟩ := Run.bind_returned.mp h
      obtain ⟨bootloader, t₅, t₆, rfl, h₅, h⟩ := Run.bind_returned.mp h
      obtain ⟨rfl, hsel⟩ := Run.pure_returned.mp h
      obtain ⟨u, e, rfl, hfound⟩ :=
        waitForBootloader_returned (Run.raisingWith_returned.mp h₅)
      cases hsel
      refine ⟨t₁ ++ (t₃ ++ u), e, by simp, ?_⟩
      simpa [Selects, expectedSerial, hmode, happ] using hfound
  · rename_i hmode
    obtain ⟨_, t₃, t₄, rfl, -, h⟩ := Run.bind_returned.mp h
    obtain ⟨bootloader, t₅, t₆, rfl, h₅, h⟩ := Run.bind_returned.mp h
    obtain ⟨rfl, hsel⟩ := Run.pure_returned.mp h
    obtain ⟨u, e, rfl, hfound⟩ := waitForBootloader_returned (Run.raisingWith_returned.mp h₅)
    cases hsel
    refine ⟨t₃ ++ u, e, by simp, ?_⟩
    simpa [Selects, expectedSerial, hmode] using hfound

theorem selectBootloader_permits (fuel : ℕ) (pause : CulConsumerPause) :
    Permits settings plan image Untouched (selectBootloader fuel settings plan pause)
      fun x h => Untouched h ∧ ∃ u e, h = u ++ [e] ∧ Selects settings plan e x.1.bootloader := by
  have hframe : Permits settings plan image Untouched
      (selectBootloader fuel settings plan pause) fun _ => Untouched :=
    permits_frame (selectBootloader_uses fuel settings plan pause) (by decide)
      (untouched_snoc (by decide) (by decide))
  refine hframe.record.conseq (fun _ _ h => h) ?_ fun _ _ _ _ => trivial
  rintro ⟨selection, pause'⟩ h - ⟨hu, h₀, t, rfl, -, hrun⟩
  obtain ⟨u, e, rfl, hsel⟩ := selectBootloader_returned hrun
  exact ⟨hu, h₀ ++ u, e, by simp, hsel⟩

/-- A bootloader is bound and exactly the commands `done` have succeeded. -/
structure Ready (settings : Settings) (plan : FlashPlan) (target : UsbTarget)
    (done : List DfuCommand) (h : Trace World) : Prop where
  bound : Bound settings plan h target
  order : (dfuCalls h).map DfuCall.command = done
  succeeded : ∀ earlier ∈ dfuCalls h, earlier.Succeeded

theorem Ready.snoc {target : UsbTarget} {done : List DfuCommand} {ks : List OpKind}
    (hks : .dfu ∉ ks) (h : Trace World) (e : Event World) (he : e.op.kind ∈ ks)
    (hr : Ready settings plan target done h) : Ready settings plan target done (h ++ [e]) := by
  have hcalls : dfuCalls (h ++ [e]) = dfuCalls h := dfuCalls_snoc fun hk => hks (hk ▸ he)
  exact ⟨hr.bound.append _, hcalls ▸ hr.order, hcalls ▸ hr.succeeded⟩

theorem ready_frame {target : UsbTarget} {done : List DfuCommand} {ks : List OpKind}
    {p : Prog World ε α} (hp : Uses ks p) (hks : .dfu ∉ ks) :
    Permits settings plan image (Ready settings plan target done) p
      fun _ => Ready settings plan target done :=
  permits_frame hp hks (Ready.snoc hks)

theorem storeObservedBootloader_permits (target : UsbTarget) :
    Permits settings plan image
      (fun h => Untouched h ∧ ∃ u e, h = u ++ [e] ∧ Selects settings plan e target)
      (storeObservedBootloader settings target target.topology)
      fun _ => Ready settings plan target [] := by
  refine save_triple ?_ (fun h file _ _ _ hj _ => ⟨?_, trivial⟩) fun _ _ _ _ _ => trivial
  · rintro h file hf hj ⟨hu, u, e, rfl, hsel⟩
    refine ⟨hj.snoc (fun call hcall => by cases hcall), ?_⟩
    have hcalls : dfuCalls (u ++ [e] ++ [⟨.saveState file, SaveOutcome.saved⟩]) = [] := by
      rw [dfuCalls_snoc (by simp [Op.kind])]
      exact hu.1
    refine ⟨⟨u, e, file, [], by simp, hsel, fun x hx => hu.2 x (by simp [hx]), hf⟩, ?_, ?_⟩
    · rw [hcalls]
      rfl
    · rw [hcalls]
      simp
  · exact hj.snoc fun call hcall => by cases hcall

/-- The command has been run, whatever came of it. -/
structure Attempted (settings : Settings) (plan : FlashPlan) (target : UsbTarget)
    (command : DfuCommand) (h : Trace World) : Prop where
  bound : Bound settings plan h target
  order : (dfuCalls h).map DfuCall.command = command.before ++ [command]

theorem Attempted.snoc {target : UsbTarget} {command : DfuCommand} {ks : List OpKind}
    (hks : .dfu ∉ ks) (h : Trace World) (e : Event World) (he : e.op.kind ∈ ks)
    (hr : Attempted settings plan target command h) :
    Attempted settings plan target command (h ++ [e]) := by
  have hcalls : dfuCalls (h ++ [e]) = dfuCalls h := dfuCalls_snoc fun hk => hks (hk ▸ he)
  exact ⟨hr.bound.append _, hcalls ▸ hr.order⟩

theorem runDfu_triple (fuel : ℕ) (target : UsbTarget) (command : DfuCommand) :
    Triple (AllAllowed settings plan image) (Ready settings plan target command.before)
      (runDfu fuel settings target.topology target.usbSerial command
        (command.argumentsFor image))
      (fun _ => Ready settings plan target (command.before ++ [command]))
      fun e h => NoTransferError e ∨ Attempted settings plan target command h := by
  refine Triple.bind (R := fun _ => Ready settings plan target command.before)
    (Triple.perform fun available h hj hr => ?_) fun available => ?_
  · have hkind : (Op.dfuAvailable).kind ∈ [OpKind.file] := by decide
    exact ⟨hj.snoc (allowed_of_kind (by decide) h _ hkind), Ready.snoc (by decide) h _ hkind hr⟩
  split
  · exact .raise fun _ _ _ => .inl rfl
  have hwait : Permits settings plan image (Ready settings plan target command.before)
      (waitForBootloader fuel settings target.topology target.usbSerial none false false)
      fun _ => Ready settings plan target command.before :=
    ready_frame (waitForBootloader_uses fuel settings _ _ _ _ _) (by decide)
  refine Triple.bind (R := fun b h => Ready settings plan target command.before h ∧
    Resolves target h b) (hwait.record.conseq (fun _ _ h => h) ?_ ?_) fun b => ?_
  · rintro b h - ⟨hr, h₀, t, rfl, -, hrun⟩
    obtain ⟨u, e, rfl, hserial, hfound⟩ := waitForBootloader_returned hrun
    rcases hfound with hfound | ⟨hq, -⟩
    · exact ⟨hr, h₀ ++ u, e, by simp, hfound, hserial⟩
    · cases hq
  · rintro e h - ⟨-, h₀, t, rfl, -, hrun⟩
    exact .inl ((waitForBootloader_raises fuel settings _ _ _ _ _).run hrun)
  refine fallible_triple (o := .dfu b command (command.argumentsFor image))
    (f := dfuResult command) fun h outcome hj hp => ?_
  have hallowed : Allowed settings plan image h
      ⟨b, command, command.argumentsFor image, outcome⟩ :=
    ⟨⟨target, hp.1.bound, hp.2⟩, hp.1.order, hp.1.succeeded, rfl⟩
  have hcalls : dfuCalls (h ++ [⟨.dfu b command (command.argumentsFor image), outcome⟩]) =
      dfuCalls h ++ [⟨b, command, command.argumentsFor image, outcome⟩] := by
    simp [dfuCalls, dfuOf]
  have horder : (dfuCalls (h ++ [⟨.dfu b command (command.argumentsFor image), outcome⟩])).map
      DfuCall.command = command.before ++ [command] := by
    rw [hcalls, List.map_append, hp.1.order]
    rfl
  refine ⟨hj.snoc fun call hcall => ?_, fun _ hok => ?_, fun _ _ => ?_⟩
  · cases hcall
    exact hallowed
  · refine ⟨hp.1.bound.append _, horder, ?_⟩
    intro earlier hmem
    rw [hcalls] at hmem
    rcases List.mem_append.mp hmem with hmem | hmem
    · exact hp.1.succeeded earlier hmem
    · rw [List.mem_singleton.mp hmem]
      exact dfuResult_ok.mp hok
  · exact .inr ⟨hp.1.bound.append _, horder⟩

/-- The tail of a transaction, where no DFU command is run. -/
theorem permits_rest {ks : List OpKind} {p : Prog World ε α} (hp : Uses ks p) (hks : .dfu ∉ ks)
    {P : Trace World → Prop} : Permits settings plan image P p fun _ _ => True :=
  (permits_frame hp hks (P := fun _ => True) fun _ _ _ _ => trivial).pre fun _ _ _ => trivial

theorem attempted_frame {target : UsbTarget} {command : DfuCommand} {ks : List OpKind}
    {p : Prog World ε α} (hp : Uses ks p) (hks : .dfu ∉ ks) :
    Permits settings plan image (Attempted settings plan target command) p
      fun _ => Attempted settings plan target command :=
  permits_frame hp hks (Attempted.snoc hks)

theorem startApplication_permits (fuel : ℕ) (target : UsbTarget) :
    Permits settings plan image (Ready settings plan target DfuCommand.start.before)
      (startApplication fuel settings target.topology target.usbSerial)
      fun _ => Attempted settings plan target .start := by
  refine Triple.bind ((runDfu_triple fuel target .start).catching.exc fun _ _ _ _ => trivial)
    fun started => ?_
  cases started with
  | ok _ =>
    exact .pure fun h _ hx => ⟨(hx.1 _ rfl).bound, (hx.1 _ rfl).order⟩
  | error err =>
    refine Triple.bind (R := fun _ => Attempted settings plan target .start) ?_ fun _ =>
      .pure fun _ _ hx => hx
    refine (attempted_frame (reportOnly_uses _ _) (by decide)).pre ?_
    intro h _ hx
    obtain ⟨htransfer, hno | hattempted⟩ := hx.2 err rfl
    · exact absurd htransfer (by simp [show err.isDfuTransferError = false from hno])
    · exact hattempted

theorem programBootloader_permits (fuel : ℕ) (target : UsbTarget) :
    Permits settings plan image
      (fun h => Untouched h ∧ ∃ u e, h = u ++ [e] ∧ Selects settings plan e target)
      (programBootloader fuel settings plan image target)
      fun _ => Attempted settings plan target .start := by
  have hreport : ∀ done percent message, Permits settings plan image
      (Ready settings plan target done) (report percent message)
      fun _ => Ready settings plan target done := fun done percent message =>
    ready_frame (reportOnly_uses _ _) (by decide)
  have hdfu : ∀ command, Permits settings plan image (Ready settings plan target command.before)
      (runDfu fuel settings target.topology target.usbSerial command (command.argumentsFor image))
      fun _ => Ready settings plan target (command.before ++ [command]) := fun command =>
    (runDfu_triple fuel target command).exc fun _ _ _ _ => trivial
  refine (storeObservedBootloader_permits target).bind fun _ => ?_
  have hmoved := reportMoved_uses (List.mem_singleton_self OpKind.report) plan.topology
    target.topology
  refine (ready_frame (hmoved _ _) (by decide)).bind fun _ => ?_
  refine (hreport _ _ _).bind fun _ => (hdfu .erase).bind fun _ => ?_
  refine (hreport _ _ _).bind fun _ => (hdfu .flash).bind fun _ => ?_
  refine (hreport _ _ _).bind fun _ => (startApplication_permits fuel target).bind fun _ => ?_
  exact (attempted_frame (settleAfterUsbChange_uses settings _) (by decide)).bind fun _ =>
    .pure fun _ _ hx => hx

theorem transact_permits (fuel : ℕ) :
    Permits settings plan image (fun h => h = []) (transact fuel settings image plan)
      fun _ _ => True := by
  have hpause : Permits settings plan image Untouched
      (SupervisorClient.pauseConsumers fuel settings.device settings.additionalCulAddons)
      fun _ => Untouched :=
    permits_frame (SupervisorClient.pauseConsumers_uses fuel _ _) (by decide)
      (untouched_snoc (by decide) (by decide))
  refine Triple.bind (R := fun _ _ => True) ?_ fun _ => .pure fun _ _ _ => trivial
  refine Triple.bind (hpause.pre ?_) fun paused => ?_
  · rintro h - rfl
    exact ⟨rfl, by simp⟩
  refine Triple.bind (R := fun _ _ => True) ?_ fun result =>
    permits_rest (SupervisorClient.resumeConsumers_uses fuel _ _) (by decide)
  refine (Triple.attempt (Q := fun _ _ => True) (E := fun _ _ => True) ?_).post
    fun _ _ _ _ => trivial
  refine (selectBootloader_permits fuel _).bind fun x => ?_
  refine ((programBootloader_permits fuel _).raisingWith).bind fun startError => ?_
  refine Triple.bind (permits_rest ((verifyApplication_uses fuel settings _ _ _).raisingWith _)
    (by decide)) fun verified => ?_
  exact permits_rest (recordApplication_uses fuel settings _ _ _ _ _) (by decide)

end
end Flasher
end Cul868Flasher
