import Cul868Flasher.Flasher.Phases
import Cul868Flasher.Flasher.Verified

/-!
# The recovery record over a run

The state file after a history is the last one that a save has put in place.
What is known of each save, and of the commands between the saves, determines
this file at every moment of a flash.
-/

namespace Cul868Flasher
open Python Effects

/-- The state file that a step puts in place. -/
def replacedBy : Event World → Option StateFile
  | ⟨.saveState file, outcome⟩ =>
    match (outcome : SaveOutcome) with
    | .saved => some file
    | .failed true _ => some file
    | .failed false _ => none
  | _ => none

def replaced (t : Trace World) : List StateFile := t.filterMap replacedBy

/-- The state file after the steps; `none` is the file that was there before. -/
def durable (t : Trace World) : Option StateFile := (replaced t).getLast?

@[simp] theorem replaced_append (t u : Trace World) :
    replaced (t ++ u) = replaced t ++ replaced u :=
  List.filterMap_append ..

theorem replaced_cons (e : Event World) (t : Trace World) :
    replaced (e :: t) = replaced [e] ++ replaced t :=
  replaced_append [e] t

theorem mem_replaced {file : StateFile} {t : Trace World} (h : file ∈ replaced t) :
    ∃ u outcome v, t = u ++ ⟨.saveState file, outcome⟩ :: v := by
  obtain ⟨⟨o, a⟩, hmem, he⟩ := List.mem_filterMap.mp h
  cases o with
  | saveState file' =>
    have hfile : file' = file := by
      cases (a : SaveOutcome) with
      | saved => exact Option.some.inj he
      | failed wasReplaced e =>
        cases wasReplaced with
        | true => exact Option.some.inj he
        | false => cases he
    obtain ⟨u, v, rfl⟩ := List.append_of_mem hmem
    exact ⟨u, a, v, by rw [hfile]⟩
  | _ => cases he

theorem replaced_of_saved {file : StateFile} {t : Trace World}
    (h : (⟨.saveState file, SaveOutcome.saved⟩ : Event World) ∈ t) : file ∈ replaced t :=
  List.mem_filterMap.mpr ⟨_, h, rfl⟩

theorem durable_mem {file : StateFile} {t : Trace World} (h : durable t = some file) :
    file ∈ replaced t :=
  List.mem_of_getLast? h

/-- The last save that has put a file in place decides. -/
theorem durable_of_last {file : StateFile} {u v : Trace World} (hv : replaced v = []) :
    durable (u ++ ⟨.saveState file, SaveOutcome.saved⟩ :: v) = some file := by
  have hsaved : replaced (⟨.saveState file, SaveOutcome.saved⟩ :: v) = [file] := by
    rw [replaced_cons, hv]
    rfl
  rw [durable, replaced_append, hsaved, List.getLast?_append]
  rfl

namespace Flasher
variable {settings : Settings} {plan : FlashPlan} {t : Trace World}

/-- The record is consistent with what a flash has done in the steps `t`, so a
crash after them leaves a record that recovery can rely on. -/
structure CrashConsistent (settings : Settings) (plan : FlashPlan) (t : Trace World) : Prop where
  untouched : plan.mode = .application →
    (∀ file ∈ replaced t, file.binding ≠ some .handoffPending) → durable t = none
  untouched_recovery : plan.mode ≠ .application →
    (∀ file ∈ replaced t, file.binding ≠ some .observedBootloader) → durable t = none
  handoff : ∀ u e v, t = u ++ e :: v → IsCommand e →
    ∃ application now file d, plan.application = some application ∧ ⟨.time, (now : ℚ)⟩ ∈ u ∧
      durable u = some file ∧ file.record = some d ∧ d.recoveryBinding = .handoffPending ∧
      d.topology = plan.topology ∧ d.usbSerial = application.usbSerial ∧ d.version = none ∧
      d.handoffDeadline = some (truncate now + postDfuTimeout settings) ∧
      ((∀ file ∈ replaced t, file.binding ≠ some .observedBootloader) → durable t = some file)
  bound : ∀ u e v, t = u ++ e :: v → (dfuOf e).isSome →
    ∃ target selection file d w z, Selects settings plan selection target ∧
      u = w ++ selection :: ⟨.saveState file, SaveOutcome.saved⟩ :: z ∧
      durable u = some file ∧ file.record = some d ∧ d.recoveryBinding = .observedBootloader ∧
      d.topology = target.topology ∧ d.usbSerial = target.usbSerial ∧ d.version = none ∧
      ((∀ file ∈ replaced t, file.binding ≠ some .verifiedApplication) → durable t = some file)
  verified : ∀ u file outcome v, t = u ++ ⟨.saveState file, outcome⟩ :: v →
    file.binding = some .verifiedApplication →
    ∃ topology application device version d, (∃ call ∈ dfuCalls u, call.command = .start) ∧
      VersionAccepted topology settings.qemuUsbReenumerationWorkaround settings.baudrate
        application device version u ∧
      file.record = some d ∧ d.topology = application.topology ∧
      d.usbSerial = application.usbSerial ∧
      d.version = safeOptionalText (.str version) 512

/-! ## From the guards to the record -/

section
variable (hg : Guarded (StepAllowed settings plan) t)
include hg

theorem command_handoff {e : Event World} (he : e ∈ t) (hc : IsCommand e) :
    ∃ file ∈ replaced t, file.binding = some .handoffPending := by
  obtain ⟨u, v, rfl⟩ := List.append_of_mem he
  obtain ⟨-, application, direct, device, version, now, file, w, s, -, rfl, -, hfile⟩ :=
    (hg u e v rfl).command hc
  exact ⟨file, replaced_of_saved (by simp [requestSteps]), binding_encode hfile⟩

theorem saveAllowed {file : StateFile} (hfile : file ∈ replaced t) :
    ∃ u, (∃ outcome v, t = u ++ ⟨.saveState file, outcome⟩ :: v) ∧
      SaveAllowed settings plan u file := by
  obtain ⟨u, outcome, v, rfl⟩ := mem_replaced hfile
  exact ⟨u, ⟨outcome, v, rfl⟩, (hg u _ v rfl).save file outcome rfl⟩

theorem observed_command (hmode : plan.mode = .application) {file : StateFile}
    (hfile : file ∈ replaced t) (hbinding : file.binding = some .observedBootloader) :
    ∃ e ∈ t, IsCommand e := by
  obtain ⟨u, ⟨outcome, v, rfl⟩, ⟨-, -, _, _, -, hencode⟩ | ⟨-, hcommand, -⟩ | ⟨hverified, -⟩⟩ :=
    saveAllowed hg hfile
  · rw [binding_encode hencode] at hbinding
    cases hbinding
  · obtain ⟨e, he, hc⟩ := hcommand hmode
    exact ⟨e, List.mem_append_left _ he, hc⟩
  · rw [hverified] at hbinding
    cases hbinding

theorem untouched_of_guarded (hmode : plan.mode = .application)
    (hnone : ∀ file ∈ replaced t, file.binding ≠ some .handoffPending) : durable t = none := by
  have hobserved : ∀ file ∈ replaced t, file.binding ≠ some .observedBootloader := by
    intro file hfile hbinding
    obtain ⟨e, he, hc⟩ := observed_command hg hmode hfile hbinding
    obtain ⟨file', hfile', hbinding'⟩ := command_handoff hg he hc
    exact hnone file' hfile' hbinding'
  by_contra hne
  obtain ⟨file, hdurable⟩ := Option.ne_none_iff_exists'.mp hne
  have hfile := durable_mem hdurable
  obtain ⟨u, ⟨outcome, v, rfl⟩, ⟨-, -, _, _, -, hencode⟩ | ⟨-, -, _, _, _, -, -, hencode⟩ |
    ⟨-, -, bound, hbound, hbinding⟩⟩ := saveAllowed hg hfile
  · exact hnone file hfile (binding_encode hencode)
  · exact hobserved file hfile (binding_encode hencode)
  · exact hobserved bound (replaced_of_saved (List.mem_append_left _ hbound)) hbinding

theorem untouched_recovery_of_guarded (hmode : plan.mode ≠ .application)
    (hnone : ∀ file ∈ replaced t, file.binding ≠ some .observedBootloader) : durable t = none := by
  by_contra hne
  obtain ⟨file, hdurable⟩ := Option.ne_none_iff_exists'.mp hne
  have hfile := durable_mem hdurable
  obtain ⟨u, ⟨outcome, v, rfl⟩, ⟨happ, -⟩ | ⟨-, -, _, _, _, -, -, hencode⟩ |
    ⟨-, -, bound, hbound, hbinding⟩⟩ := saveAllowed hg hfile
  · exact hmode happ
  · exact hnone file hfile (binding_encode hencode)
  · exact hnone bound (replaced_of_saved (List.mem_append_left _ hbound)) hbinding

/-- Nothing is put in place after the command until a bootloader is bound. -/
theorem replaced_after_command {u v : Trace World} {e : Event World} (ht : t = u ++ e :: v)
    (hc : IsCommand e) (hnone : ∀ file ∈ replaced t, file.binding ≠ some .observedBootloader) :
    replaced v = [] := by
  by_contra hne
  obtain ⟨file, hfile⟩ := List.exists_mem_of_ne_nil _ hne
  obtain ⟨v₁, outcome, v₂, rfl⟩ := mem_replaced hfile
  have hsplit : t = (u ++ e :: v₁) ++ ⟨.saveState file, outcome⟩ :: v₂ := by
    rw [ht]
    simp only [List.append_assoc, List.cons_append]
  have hmem : file ∈ replaced t := by
    rw [ht, replaced_append, replaced_cons]
    exact List.mem_append_right _ (List.mem_append_right _ hfile)
  rcases (hg _ _ _ hsplit).save file outcome rfl with ⟨-, hb, -⟩ | ⟨-, -, _, _, _, -, -, hencode⟩ |
    ⟨-, -, bound, hbound, hbinding⟩
  · exact hb e (by simp) (by rw [show e.op.kind = .bootloaderCommand from hc]; simp)
  · exact hnone file hmem (binding_encode hencode)
  · refine hnone bound (replaced_of_saved ?_) hbinding
    rw [hsplit]
    exact List.mem_append_left _ hbound

/-- Nothing is put in place after a bootloader is bound until the verified record. -/
theorem replaced_after_binding {u v : Trace World} {b : Event World} (ht : t = u ++ b :: v)
    (hb : IsBinding b) (hnone : ∀ file ∈ replaced v, file.binding ≠ some .verifiedApplication) :
    replaced v = [] := by
  by_contra hne
  obtain ⟨file, hfile⟩ := List.exists_mem_of_ne_nil _ hne
  obtain ⟨v₁, outcome, v₂, rfl⟩ := mem_replaced hfile
  have hsplit : t = (u ++ b :: v₁) ++ ⟨.saveState file, outcome⟩ :: v₂ := by
    rw [ht]
    simp only [List.append_assoc, List.cons_append]
  have hkind : b.op.kind = .save (some .observedBootloader) := hb
  rcases (hg _ _ _ hsplit).save file outcome rfl with ⟨-, hbefore, -⟩ | ⟨hlater, -⟩ |
    ⟨hverified, -⟩
  · exact hbefore b (by simp) (by rw [hkind]; simp [laterKinds])
  · exact hlater b (by simp) (by rw [hkind]; simp [laterKinds])
  · exact hnone file hfile hverified

end

theorem handoff_of_guarded (hg : Guarded (StepAllowed settings plan) t)
    (happlication : ∀ application ∈ plan.application, application.Valid)
    {u v : Trace World} {e : Event World} (ht : t = u ++ e :: v) (hc : IsCommand e) :
    ∃ application now file d, plan.application = some application ∧ ⟨.time, (now : ℚ)⟩ ∈ u ∧
      durable u = some file ∧ file.record = some d ∧ d.recoveryBinding = .handoffPending ∧
      d.topology = plan.topology ∧ d.usbSerial = application.usbSerial ∧ d.version = none ∧
      d.handoffDeadline = some (truncate now + postDfuTimeout settings) ∧
      ((∀ file ∈ replaced t, file.binding ≠ some .observedBootloader) → durable t = some file) := by
  obtain ⟨-, application, direct, device, version, now, file, w, s, happ, hu, -, hfile⟩ :=
    (hg u e v ht).command hc
  have hvalid := happlication application happ
  have hsplit : u = (w ++ s ++ [⟨.openSerial device settings.baudrate, (.ok () : Except Exn Unit)⟩,
      ⟨.version, (.ok version : Except Exn String)⟩, ⟨.report 20
        "Requesting the verified CUL868 application to enter USB DFU mode.",
        (.ok () : Except Exn Unit)⟩, ⟨.time, (now : ℚ)⟩]) ++
      ⟨.saveState file, SaveOutcome.saved⟩ :: [] := by
    rw [hu]
    simp [requestSteps]
  refine ⟨application, now, file, _, happ, by simp [hsplit], ?_,
    DeviceStateStore.record_encode hfile, rfl, rfl, ?_, rfl, rfl, fun hnone => ?_⟩
  · rw [hsplit]
    exact durable_of_last rfl
  · have hserial : transitionUsbSerial plan = application.usbSerial := by
      simp [transitionUsbSerial, happ]
    change safeOptionalText (optionJson (transitionUsbSerial plan)) 128 = application.usbSerial
    rw [hserial]
    exact safeOptionalText_of_safe hvalid.usbSerial
  · rw [ht, hsplit, List.append_assoc, List.cons_append]
    refine durable_of_last ?_
    rw [List.nil_append, replaced_cons, replaced_after_command hg ht hc hnone]
    have hquiet : replaced [e] = [] := by
      obtain ⟨o, a⟩ := e
      cases o with
      | saveState file => cases hc
      | _ => rfl
    rw [hquiet]
    rfl

/-- The verified record is saved after the last DFU command. -/
theorem verified_after_dfu {image : HexImage} (hall : AllAllowed settings plan image t)
    (hver : AllVerified settings plan t) {u v : Trace World} {e : Event World}
    (ht : t = u ++ e :: v) (he : (dfuOf e).isSome) :
    ∀ file ∈ replaced u, file.binding ≠ some .verifiedApplication := by
  intro file hfile hbinding
  obtain ⟨call, hcall⟩ := Option.isSome_iff_exists.mp he
  obtain ⟨u₁, outcome, u₂, rfl⟩ := mem_replaced hfile
  have hsplit : t = u₁ ++ ⟨.saveState file, outcome⟩ :: (u₂ ++ e :: v) := by
    rw [ht]
    simp only [List.append_assoc, List.cons_append]
  obtain ⟨target, _, _, _, h, s, rfl, hattempted, -⟩ := hver _ _ _ hsplit file outcome rfl hbinding
  have horder := congrArg List.length (hall _ e v ht call hcall).order
  have hthree := congrArg List.length hattempted.order
  simp only [dfuCalls_append, List.map_append, List.length_append] at horder
  have hbefore : call.command.before.length ≤ 2 := by
    cases call.command <;> decide
  have hlength : (DfuCommand.start.before ++ [DfuCommand.start]).length = 3 := rfl
  omega

theorem bound_of_guarded {image : HexImage} (hg : Guarded (StepAllowed settings plan) t)
    (hall : AllAllowed settings plan image t)
    (hver : AllVerified settings plan t) {u v : Trace World} {e : Event World}
    (ht : t = u ++ e :: v) (he : (dfuOf e).isSome) :
    ∃ target selection file d w z, Selects settings plan selection target ∧
      u = w ++ selection :: ⟨.saveState file, SaveOutcome.saved⟩ :: z ∧
      durable u = some file ∧ file.record = some d ∧ d.recoveryBinding = .observedBootloader ∧
      d.topology = target.topology ∧ d.usbSerial = target.usbSerial ∧ d.version = none ∧
      ((∀ file ∈ replaced t, file.binding ≠ some .verifiedApplication) →
        durable t = some file) := by
  obtain ⟨call, hcall⟩ := Option.isSome_iff_exists.mp he
  obtain ⟨target, ⟨w, selection, file, z, hu, hsel, -, hfile⟩, -⟩ :=
    (hall u e v ht call hcall).bound
  have hvalid : target.Valid := hsel.valid
  have hbinding : IsBinding ⟨.saveState file, SaveOutcome.saved⟩ := by
    rw [IsBinding, Op.kind, binding_encode hfile]
    rfl
  have hu' : u = (w ++ [selection]) ++ ⟨.saveState file, SaveOutcome.saved⟩ :: z := by
    rw [hu]
    simp only [List.append_assoc, List.cons_append, List.nil_append]
  have ht' : t = (w ++ [selection]) ++ ⟨.saveState file, SaveOutcome.saved⟩ :: (z ++ e :: v) := by
    rw [ht, hu']
    simp only [List.append_assoc, List.cons_append]
  have hz : replaced z = [] := by
    have hgu : Guarded (StepAllowed settings plan) u := (ht ▸ hg).of_append
    refine replaced_after_binding hgu hu' hbinding fun file' hfile' => ?_
    refine verified_after_dfu hall hver ht he file' ?_
    rw [hu', replaced_append, replaced_cons]
    exact List.mem_append_right _ (List.mem_append_right _ hfile')
  refine ⟨target, selection, file, _, w, z, hsel, hu, ?_, DeviceStateStore.record_encode hfile,
    rfl, rfl, safeOptionalText_of_safe hvalid.usbSerial, rfl, fun hnone => ?_⟩
  · rw [hu']
    exact durable_of_last hz
  · rw [ht']
    refine durable_of_last (replaced_after_binding hg ht' hbinding fun file' hfile' => ?_)
    refine hnone file' ?_
    rw [ht', replaced_append, replaced_cons]
    exact List.mem_append_right _ (List.mem_append_right _ hfile')

end Flasher

namespace PlannedRun
variable {settings : Settings} {image : HexImage} {manualRecovery : Option ManualRecoveryTarget}

theorem stepsAllowed (x : PlannedRun settings image manualRecovery) :
    Guarded (Flasher.StepAllowed settings x.plan) x.after := by
  have hall := (Flasher.transact_steps x.fuel).invariant Guarded.nil rfl x.transact
  simpa using hall

theorem application_valid (x : PlannedRun settings image manualRecovery) :
    ∀ application ∈ x.plan.application, application.Valid := by
  intro application happlication
  obtain ⟨_, _, -, -, _, _, -, hplan⟩ := x.planned
  rcases Flasher.plan_returned hplan with ⟨planned, _, hvalid, -, hp⟩ | ⟨_, _, -, hp, -⟩ |
    ⟨_, _, -, hp, -⟩
  · rw [hp] at happlication
    rwa [← Option.some.inj happlication]
  · rw [hp] at happlication
    cases happlication
  · rw [hp] at happlication
    cases happlication

theorem crashConsistent (x : PlannedRun settings image manualRecovery) :
    Flasher.CrashConsistent settings x.plan x.after := by
  have hg := x.stepsAllowed
  have hver := (Flasher.transact_verifies x.fuel).invariant ⟨Guarded.nil, Guarded.nil⟩ rfl
    x.transact
  refine ⟨Flasher.untouched_of_guarded hg, Flasher.untouched_recovery_of_guarded hg, ?_, ?_, ?_⟩
  · exact fun u e v ht hc => Flasher.handoff_of_guarded hg x.application_valid ht hc
  · exact fun u e v ht he => Flasher.bound_of_guarded hg hver.1 hver.2 ht he
  · intro u file outcome v ht hbinding
    obtain ⟨topology, application, device, version, -, hstart, haccepted, hrecord, -⟩ :=
      x.verified_application ht hbinding
    have hvalid : application.Valid := by
      obtain ⟨w, z, -, hfound⟩ := haccepted
      exact hfound.valid
    exact ⟨topology, application, device, version, _, hstart, haccepted, hrecord, rfl,
      safeOptionalText_of_safe hvalid.usbSerial, rfl⟩

end PlannedRun

theorem replaced_planning {t : Trace World} (h : ∀ e ∈ t, e.op.kind ∈ Flasher.planningKinds) :
    replaced t = [] := by
  refine List.filterMap_eq_nil_iff.mpr fun e he => ?_
  obtain ⟨o, a⟩ := e
  have hkind := h _ he
  cases o with
  | saveState file => simp [Op.kind, Flasher.planningKinds] at hkind
  | _ => rfl

/-- At every moment of every flash the record is consistent: planning leaves the
file alone, and so does the transaction, but for the saves it accounts for. -/
theorem flash_record {fuel : ℕ} {settings : Settings} {image : HexImage}
    {manualRecovery : Option ManualRecoveryTarget} {t : Trace World}
    {r : Outcome Exn FlashResult} (h : Run (Flasher.flash fuel settings image manualRecovery) t r) :
    (durable t = none ∧ ∀ e ∈ t, ¬ IsCommand e ∧ dfuOf e = none) ∨
      ∃ x : PlannedRun settings image manualRecovery, t = x.before ++ x.after ∧ x.outcome = r ∧
        durable x.before = none ∧ durable t = durable x.after ∧
        Flasher.CrashConsistent settings x.plan x.after := by
  rcases PlannedRun.of_run h with hplanning | ⟨x, -, rfl, rfl⟩
  · left
    refine ⟨by rw [durable, replaced_planning hplanning]; rfl, fun e he => ⟨fun hc => ?_, ?_⟩⟩
    · have hkind := hplanning e he
      rw [show e.op.kind = .bootloaderCommand from hc] at hkind
      exact absurd hkind (by decide)
    · refine dfuOf_none fun hk => ?_
      have hkind := hplanning e he
      rw [hk] at hkind
      exact absurd hkind (by decide)
  · right
    have hbefore := replaced_planning x.before_uses
    refine ⟨x, rfl, rfl, by rw [durable, hbefore]; rfl, ?_, x.crashConsistent⟩
    rw [durable, replaced_append, hbefore]
    rfl

theorem flash_record_recovered :
    ∃ (t : Trace World) (x : PlannedRun PlannedRun.qemuSettings sampleImage none),
      Run (Flasher.flash 2 PlannedRun.qemuSettings sampleImage none) t x.outcome ∧
      t = x.before ++ x.after ∧ (dfuCalls t).length = 3 ∧
      Flasher.CrashConsistent PlannedRun.qemuSettings x.plan x.after := by
  let flash := Flasher.flash 2 PlannedRun.qemuSettings sampleImage none
  have hrun := Run.of_exec (I := World) PlannedRun.recoveredScript.answer flash 0
  have hcalls : (dfuCalls (flash.exec (I := World) PlannedRun.recoveredScript.answer 0).1).length =
      3 := by
    decide +kernel
  rcases flash_record hrun with ⟨-, hnone⟩ | ⟨x, ht, hr, -, -, hconsistent⟩
  · have hempty : dfuCalls (flash.exec (I := World) PlannedRun.recoveredScript.answer 0).1 = [] :=
      List.filterMap_eq_nil_iff.mpr fun e he => (hnone e he).2
    rw [hempty] at hcalls
    cases hcalls
  · rw [← hr] at hrun
    exact ⟨_, x, hrun, ht, hcalls, hconsistent⟩

end Cul868Flasher
