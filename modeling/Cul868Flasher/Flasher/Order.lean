import Cul868Flasher.Flasher.Record

/-!
# The order of a flash

The DFU commands of a flash run in their order, on one bootloader, with the
file that was validated; nothing happens before planning has succeeded; and a
flash returns exactly when every step from the start command on has succeeded.
-/

namespace Cul868Flasher
open Python Effects

namespace Flasher

/-! ## The image -/

theorem parseHexFile_returned {path : Path} {t : Trace World} {image : HexImage}
    (h : Run (parseHexFile path) t (.returned image)) :
    ∃ source : List UInt8, ⟨.readBytes path, some source⟩ ∈ t ∧
      HexFile.parseHex source path = .ok image := by
  obtain ⟨size, t₁, t₂, rfl, -, h₂⟩ := Run.bind_returned.mp h
  cases (size : Option ℕ) with
  | none => exact absurd h₂ Run.raise_returned
  | some size =>
    dsimp only at h₂
    split at h₂
    · exact absurd h₂ Run.raise_returned
    · obtain ⟨source, t₃, t₄, rfl, h₃, h₄⟩ := Run.bind_returned.mp h₂
      rw [Run.perform_returned.mp h₃]
      cases (source : Option (List UInt8)) with
      | none => exact absurd h₄ Run.raise_returned
      | some source =>
        dsimp only at h₄
        split at h₄
        · exact absurd h₄ Run.raise_returned
        · obtain ⟨rfl, hparse⟩ := ofExcept_returned.mp h₄
          exact ⟨source, by simp, hparse⟩

/-- The image that a flash goes on with is the validated one, parsed again. -/
theorem revalidateImage_returned {image checked : HexImage} {t : Trace World}
    (h : Run (revalidateImage image) t (.returned checked)) :
    checked = image ∧ ∃ source : List UInt8, ⟨.readBytes image.path, some source⟩ ∈ t ∧
      HexFile.parseHex source image.path = .ok image := by
  obtain ⟨details, t₁, t₂, rfl, -, h₂⟩ := Run.bind_returned.mp h
  cases (details : Option FileStat) with
  | none => exact absurd h₂ Run.raise_returned
  | some details =>
    dsimp only at h₂
    split at h₂
    · exact absurd h₂ Run.raise_returned
    · obtain ⟨result, t₃, t₄, rfl, h₃, h₄⟩ := Run.bind_returned.mp h₂
      rcases Run.attempt_returned_iff.mp h₃ with ⟨parsed, rfl, hparsed⟩ | ⟨e, rfl, -⟩
      · dsimp only at h₄
        split at h₄
        · exact absurd h₄ Run.raise_returned
        · rename_i hsame
          obtain ⟨rfl, rfl⟩ := Run.pure_returned.mp h₄
          obtain rfl := not_not.mp hsame
          obtain ⟨source, hsource, hparse⟩ := parseHexFile_returned hparsed
          exact ⟨rfl, source, by simp [hsource], hparse⟩
      · exact absurd h₄ Run.raise_returned

/-! ## The start command -/

variable {fuel : ℕ} {settings : Settings} {plan : FlashPlan} {image : HexImage}

theorem runDfu_returned {topology : String} {expected : Option String} {command : DfuCommand}
    {arguments : List String} {t : Trace World}
    (h : Run (runDfu fuel settings topology expected command arguments) t (.returned ())) :
    ∃ u bootloader outcome, t = u ++ [⟨.dfu bootloader command arguments, outcome⟩] ∧
      dfuResult command outcome = .ok () := by
  obtain ⟨available, t₁, t₂, rfl, -, h₂⟩ := Run.bind_returned.mp h
  split at h₂
  · exact absurd h₂ Run.raise_returned
  · obtain ⟨bootloader, t₃, t₄, rfl, -, h₄⟩ := Run.bind_returned.mp h₂
    obtain ⟨outcome, rfl, hresult⟩ := performed h₄
    exact ⟨t₁ ++ t₃, bootloader, outcome, by simp, hresult⟩

/-- Only the command itself raises a transfer error. -/
theorem runDfu_transferError {topology : String} {expected : Option String} {command : DfuCommand}
    {arguments : List String} {t : Trace World} {e : Exn}
    (h : Run (runDfu fuel settings topology expected command arguments) t (.raised e))
    (he : e.isDfuTransferError = true) :
    ∃ u bootloader outcome, t = u ++ [⟨.dfu bootloader command arguments, outcome⟩] ∧
      dfuResult command outcome = .error e := by
  rcases Run.bind_inv h with ⟨available, t₁, t₂, rfl, -, h₂⟩ | ⟨_, -, h₁⟩ | ⟨hc, -⟩
  · split at h₂
    · obtain ⟨-, hraised | hcut⟩ := Run.raise_iff.mp h₂
      · cases hraised
        cases he
      · cases hcut
    · rcases Run.bind_inv h₂ with ⟨bootloader, t₃, t₄, rfl, -, h₄⟩ | ⟨e', hraised, h₃⟩ | ⟨hc, -⟩
      · obtain ⟨outcome, rfl, hresult⟩ := performed_raised h₄
        exact ⟨t₁ ++ t₃, bootloader, outcome, by simp, hresult⟩
      · cases hraised
        have hno := (waitForBootloader_raises fuel settings topology expected none false
          false).run h₃
        rw [NoTransferError, he] at hno
        cases hno
      · cases hc
  · exact absurd h₁ Run.perform_raised
  · cases hc

/-- The start command has been tried, with success or with the one tolerated error. -/
def StartTried (startError : Option Exn) (t : Trace World) : Prop :=
  ∃ call ∈ dfuCalls t, call.command = .start ∧
    (startError = none ∧ call.Succeeded ∨ ∃ err, startError = some err ∧
      dfuResult .start call.outcome = .error err ∧ err.isDfuTransferError = true)

theorem startApplication_returned {topology : String} {expected : Option String} {t : Trace World}
    {startError : Option Exn}
    (h : Run (startApplication fuel settings topology expected) t (.returned startError)) :
    StartTried startError t := by
  obtain ⟨started, t₁, t₂, rfl, h₁, h₂⟩ := Run.bind_returned.mp h
  rcases Run.catching_returned h₁ with ⟨_, rfl, hran⟩ | ⟨err, herr, rfl, hraised⟩
  · obtain ⟨rfl, rfl⟩ := Run.pure_returned.mp h₂
    obtain ⟨u, bootloader, outcome, rfl, hresult⟩ := runDfu_returned hran
    exact ⟨⟨bootloader, .start, [], outcome⟩, by simp [dfuCalls, dfuOf], rfl,
      .inl ⟨rfl, dfuResult_ok.mp hresult⟩⟩
  · obtain ⟨_, t₃, t₄, rfl, -, h₄⟩ := Run.bind_returned.mp h₂
    obtain ⟨rfl, rfl⟩ := Run.pure_returned.mp h₄
    obtain ⟨u, bootloader, outcome, rfl, hresult⟩ := runDfu_transferError hraised herr
    exact ⟨⟨bootloader, .start, [], outcome⟩, by simp [dfuCalls, dfuOf], rfl,
      .inr ⟨err, rfl, hresult, herr⟩⟩

theorem programBootloader_returned {bootloader : UsbTarget} {t : Trace World}
    {startError : Option Exn}
    (h : Run (programBootloader fuel settings plan image bootloader) t (.returned startError)) :
    StartTried startError t := by
  obtain ⟨_, t₁, t₂, rfl, -, h₂⟩ := Run.bind_returned.mp h
  obtain ⟨_, t₃, t₄, rfl, -, h₄⟩ := Run.bind_returned.mp h₂
  obtain ⟨_, t₅, t₆, rfl, -, h₆⟩ := Run.bind_returned.mp h₄
  obtain ⟨_, t₇, t₈, rfl, -, h₈⟩ := Run.bind_returned.mp h₆
  obtain ⟨_, u₁, u₂, rfl, -, hu₂⟩ := Run.bind_returned.mp h₈
  obtain ⟨_, u₃, u₄, rfl, -, hu₄⟩ := Run.bind_returned.mp hu₂
  obtain ⟨_, u₅, u₆, rfl, -, hu₆⟩ := Run.bind_returned.mp hu₄
  obtain ⟨started, u₇, u₈, rfl, hu₇, hu₈⟩ := Run.bind_returned.mp hu₆
  obtain ⟨_, v₁, v₂, rfl, -, hv₂⟩ := Run.bind_returned.mp hu₈
  obtain ⟨rfl, rfl⟩ := Run.pure_returned.mp hv₂
  obtain ⟨call, hcall, hrest⟩ := startApplication_returned hu₇
  exact ⟨call, by simp [hcall], hrest⟩

/-! ## The commands of a run -/

/-- Each command runs after those before it, so none runs twice. -/
theorem commands_prefix {t : Trace World} (h : AllAllowed settings plan image t) :
    (dfuCalls t).map DfuCall.command <+: [.erase, .flash, .start] := by
  induction t using List.reverseRecOn with
  | nil => exact List.nil_prefix
  | append_singleton t e ih =>
    rw [dfuCalls_append, List.map_append]
    cases hcall : dfuOf e with
    | none =>
      have hnone : dfuCalls [e] = [] := by simp [dfuCalls, hcall]
      rw [hnone, List.map_nil, List.append_nil]
      exact ih h.of_append
    | some call =>
      have hone : dfuCalls [e] = [call] := by simp [dfuCalls, hcall]
      rw [hone, (h t e [] rfl call hcall).order]
      cases hcommand : call.command with
      | erase => simp [DfuCommand.before, hcommand]
      | flash => simp [DfuCommand.before, hcommand]
      | start => simp [DfuCommand.before, hcommand]

end Flasher

namespace PlannedRun
variable {settings : Settings} {image : HexImage} {manualRecovery : Option ManualRecoveryTarget}

theorem dfu_same_topology (x : PlannedRun settings image manualRecovery) {call other : DfuCall}
    (hcall : call ∈ dfuCalls x.after) (hother : other ∈ dfuCalls x.after) :
    other.bootloader.topology = call.bootloader.topology := by
  obtain ⟨target, d, _, _, hbinds, htopology, -, -, e, -, hfound, -⟩ := x.dfu_bound hcall
  obtain ⟨target', d', _, _, hbinds', htopology', -, -, e', -, hfound', -⟩ := x.dfu_bound hother
  obtain rfl := hbinds.unique hbinds'
  rw [hfound.valid.2, hfound'.valid.2, ← htopology, ← htopology']

theorem checked_eq (x : PlannedRun settings image manualRecovery) :
    x.checked = image ∧ ∃ source : List UInt8, ⟨.readBytes image.path, some source⟩ ∈ x.before ∧
      HexFile.parseHex source image.path = .ok image := by
  obtain ⟨t₁, t₂, hbefore, hchecked, -⟩ := x.planned
  obtain ⟨heq, source, hsource, hparse⟩ := Flasher.revalidateImage_returned hchecked
  exact ⟨heq, source, by simp [hbefore, hsource], hparse⟩

/-- A run that has not been cut has returned if and only if it is complete. -/
theorem returned_iff (x : PlannedRun settings image manualRecovery) (hcut : x.outcome ≠ .cut) :
    (∃ result, x.outcome = .returned result) ↔
      ∃ c : Completion x.fuel settings x.checked x.plan, x.after = c.trace := by
  constructor
  · rintro ⟨result, hresult⟩
    have htransact := x.transact
    rw [hresult] at htransact
    obtain ⟨c, hafter, -⟩ := Flasher.transact_returned.mp htransact
    exact ⟨c, hafter⟩
  · rintro ⟨c, hafter⟩
    have hreturned := Flasher.transact_returned.mpr ⟨c, hafter, rfl⟩
    exact ⟨c.result, x.transact.outcome_unique hreturned hcut (by simp)⟩

end PlannedRun

theorem dfuCalls_planning {t : Trace World} (h : ∀ e ∈ t, e.op.kind ∈ Flasher.planningKinds) :
    dfuCalls t = [] := by
  refine List.filterMap_eq_nil_iff.mpr fun e he => dfuOf_none fun hk => ?_
  have hkind := h e he
  rw [hk] at hkind
  exact absurd hkind (by decide)

/-- What a DFU command of a flash of `image` comes after, with `calls` all commands of the run. -/
structure DfuOrdered (image : HexImage) (calls : List DfuCall) (h : Trace World)
    (call : DfuCall) : Prop where
  order : (dfuCalls h).map DfuCall.command = call.command.before
  succeeded : ∀ earlier ∈ dfuCalls h, earlier.Succeeded
  resolved : ∃ w lookup, h = w ++ [lookup] ∧
    Flasher.FoundOnPath call.bootloader.topology lookup call.bootloader
  topology : ∀ other ∈ calls, other.bootloader.topology = call.bootloader.topology
  arguments : call.arguments = call.command.argumentsFor image
  parsed : ∃ source : List UInt8, ⟨.readBytes image.path, some source⟩ ∈ h ∧
    HexFile.parseHex source image.path = .ok image

/-- The order of every flash, whatever its steps answer. -/
theorem flash_order {fuel : ℕ} {settings : Settings} {image : HexImage}
    {manualRecovery : Option ManualRecoveryTarget} {t : Trace World}
    {r : Outcome Exn FlashResult} (h : Run (Flasher.flash fuel settings image manualRecovery) t r) :
    (dfuCalls t).map DfuCall.command <+: [.erase, .flash, .start] ∧
    (∀ u e v call, t = u ++ e :: v → dfuOf e = some call →
      DfuOrdered image (dfuCalls t) u call) ∧
    ((∀ e ∈ t, e.op.kind ∈ Flasher.planningKinds) ∨ ∃ u v plan, t = u ++ v ∧
      (∀ e ∈ u, e.op.kind ∈ Flasher.planningKinds) ∧
      Run (Flasher.prepare settings image manualRecovery) u (.returned (image, plan))) ∧
    (r ≠ .cut → ((∃ result, r = .returned result) ↔
      ∃ u plan, ∃ c : Completion fuel settings image plan, t = u ++ c.trace ∧
        Run (Flasher.prepare settings image manualRecovery) u (.returned (image, plan)) ∧
        Flasher.StartTried c.startError c.programming ∧
        Flasher.VersionAccepted c.selected.1.bootloader.topology
          settings.qemuUsbReenumerationWorkaround settings.baudrate c.verified.1 c.verified.2.1
          c.verified.2.2 c.verifying)) := by
  have hiff : r ≠ .cut → ((∃ result, r = .returned result) ↔
      ∃ u plan, ∃ c : Completion fuel settings image plan, t = u ++ c.trace ∧
        Run (Flasher.prepare settings image manualRecovery) u (.returned (image, plan)) ∧
        Flasher.StartTried c.startError c.programming ∧
        Flasher.VersionAccepted c.selected.1.bootloader.topology
          settings.qemuUsbReenumerationWorkaround settings.baudrate c.verified.1 c.verified.2.1
          c.verified.2.2 c.verifying) := by
    intro hcut
    constructor
    · rintro ⟨result, rfl⟩
      obtain ⟨⟨checked, plan⟩, u, v, rfl, hprepare, htransact⟩ := Run.bind_returned.mp h
      let x : PlannedRun settings image manualRecovery :=
        ⟨fuel, checked, plan, u, v, .returned result, hprepare, h⟩
      obtain rfl : checked = image := x.checked_eq.1
      obtain ⟨c, rfl, -⟩ := Flasher.transact_returned.mp htransact
      exact ⟨u, plan, c, rfl, hprepare, Flasher.programBootloader_returned c.programming_run,
        Flasher.verifyApplication_returned c.verifying_run⟩
    · rintro ⟨u, plan, c, rfl, hprepare, -⟩
      have hreturned : Run (Flasher.flash fuel settings image manualRecovery) (u ++ c.trace)
          (.returned c.result) :=
        hprepare.bind (Flasher.transact_returned.mpr ⟨c, rfl, rfl⟩)
      exact ⟨c.result, h.outcome_unique hreturned hcut (by simp)⟩
  rcases PlannedRun.of_run h with hplanning | ⟨x, -, -, rfl⟩
  · have hcalls := dfuCalls_planning hplanning
    refine ⟨by rw [hcalls]; exact List.nil_prefix, fun u e v call ht he => ?_, .inl hplanning, hiff⟩
    have hmem : call ∈ dfuCalls t := List.mem_filterMap.mpr ⟨e, by simp [ht], he⟩
    rw [hcalls] at hmem
    cases hmem
  · have hcalls := dfuCalls_planning x.before_uses
    obtain ⟨hchecked, source, hsource, hparse⟩ := x.checked_eq
    have hprepare := x.prepared
    rw [hchecked] at hprepare
    refine ⟨?_, fun u e v call ht he => ?_, .inr ⟨_, _, _, rfl, x.before_uses, hprepare⟩, hiff⟩
    · rw [dfuCalls_append, hcalls, List.nil_append]
      have hall := (Flasher.transact_permits x.fuel).invariant Guarded.nil rfl x.transact
      exact Flasher.commands_prefix hall
    · rw [dfuCalls_append, hcalls, List.nil_append]
      have hkind : e.op.kind ∉ Flasher.planningKinds := by
        intro hk
        rw [dfuOf_none fun hdfu => absurd (hdfu ▸ hk) (by decide)] at he
        cases he
      obtain ⟨w, rfl, hw⟩ := x.split_after ht hkind
      have hallowed := x.allowed w v e call hw he
      obtain ⟨target, -, w', lookup, hlast, hfound, -⟩ := hallowed.bound
      have hmem : call ∈ dfuCalls x.after := List.mem_filterMap.mpr ⟨e, by simp [hw], he⟩
      refine ⟨?_, ?_, ⟨x.before ++ w', lookup, by simp [hlast], ?_⟩,
        fun other hother => x.dfu_same_topology hmem hother, ?_, source, by simp [hsource], hparse⟩
      · rw [dfuCalls_append, hcalls]
        exact hallowed.order
      · rw [dfuCalls_append, hcalls]
        exact hallowed.succeeded
      · rwa [hfound.valid.2]
      · rw [← hchecked]
        exact hallowed.arguments

/-- A flash whose start command reports an error and that returns all the same. -/
theorem flash_order_startError :
    ∃ (t : Trace World) (result : FlashResult),
      Run (Flasher.flash 2 PlannedRun.qemuSettings sampleImage none) t (.returned result) ∧
      (dfuCalls t).map DfuCall.outcome =
        [.completed 0 "", .completed 0 "", .completed 1 "no response"] ∧
      (dfuCalls t).map DfuCall.command <+: [.erase, .flash, .start] := by
  let flash := Flasher.flash 2 PlannedRun.qemuSettings sampleImage none
  let w := ({ PlannedRun.recoveredScript with
    dfu := fun n =>
      if n = 30 then .completed 1 "no response" else .completed 0 "" } : Script).answer
  have hrun := Run.of_exec (I := World) w flash 0
  have hcheck : (flash.exec (I := World) w 0).2.result.isSome &&
      decide ((dfuCalls (flash.exec (I := World) w 0).1).map DfuCall.outcome =
        [.completed 0 "", .completed 0 "", .completed 1 "no response"]) := by
    decide +kernel
  rw [Bool.and_eq_true, decide_eq_true_eq] at hcheck
  obtain ⟨hreturned, hcalls⟩ := hcheck
  obtain ⟨result, hresult⟩ := Option.isSome_iff_exists.mp hreturned
  rw [Outcome.result_eq_some.mp hresult] at hrun
  exact ⟨_, result, hrun, hcalls, (flash_order hrun).1⟩

end Cul868Flasher
