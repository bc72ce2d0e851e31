import Cul868Flasher.Effects.Evaluation
import Cul868Flasher.Flasher.Targeting

/-!
# Status and preflight

`status` reports what is on the bus, `preflight` resolves what would be flashed.
They look at the same facts in two decision trees of their own. On a bus that
stands still they agree with each other and with the plan of the flash.
-/

namespace Cul868Flasher
open Python Effects

inductive CulState where
  | application
  | bootloader
  | unpairedBootloader
  | unavailable
  deriving DecidableEq

/-- The state that a device has when it is planned for. -/
def PlanMode.state : PlanMode → CulState
  | .application => .application
  | .recovery => .bootloader
  | .manualRecovery => .unpairedBootloader

theorem PlanMode.state_ne_unavailable (mode : PlanMode) : mode.state ≠ .unavailable := by
  cases mode <;> simp [PlanMode.state]

theorem PlanMode.state_injective {mode mode' : PlanMode} (h : mode.state = mode'.state) :
    mode = mode' := by
  cases mode <;> cases mode' <;> simp_all [PlanMode.state]

structure DeviceStatus where
  state : CulState
  topology : Option String
  usbSerial : Option String
  lastVerifiedVersion : Option String
  message : String

/-- A resolved flash target plus any required one-time recovery consent. -/
structure FlashPreflight where
  mode : PlanMode
  topology : String
  message : String
  manualRecovery : Option ManualRecoveryTarget

namespace Flasher

def knownVersionForApplication (known : Option KnownDevice) (application : UsbTarget) :
    Option String :=
  match known with
  | none => none
  | some known =>
    if known.topology ≠ application.topology then none
    else if hasChangedUsbSerial known application then none
    else known.version

def unpairedBootloaderStatus (manualRecovery : ManualRecoveryTarget) (reason : Option String) :
    DeviceStatus :=
  let message := "One unpaired CUL868 DFU bootloader is present. Validate firmware, then " ++
    "explicitly confirm that this is the configured CUL868 before recovery."
  { state := .unpairedBootloader
    topology := some manualRecovery.topology
    usbSerial := manualRecovery.usbSerial
    lastVerifiedVersion := none
    message := match reason with
      | none => message
      | some reason => s!"{reason}. {message}" }

def statusError (known : Option KnownDevice) (message : String) : DeviceStatus where
  state := .unavailable
  topology := known.map KnownDevice.topology
  usbSerial := known.bind KnownDevice.usbSerial
  lastVerifiedVersion := known.bind KnownDevice.version
  message := message

/-- The unpaired bootloader, or the error that leaves none to offer. -/
def offerUnpaired : Program (Except Exn (Option ManualRecoveryTarget)) :=
  singleUnpairedRecoveryTarget.catching Exn.isFlashError

/-- The status when only an unpaired bootloader can be offered. -/
def statusOffer (known : Option KnownDevice) (refusal : Exn → String) (reason : Option String)
    (message : String) : Program DeviceStatus := do
  let offer ← offerUnpaired
  match offer with
  | .error recoveryError => return statusError known (refusal recoveryError)
  | .ok (some manualRecovery) => return unpairedBootloaderStatus manualRecovery reason
  | .ok none => return statusError known message

/-- The record names no bootloader that is there. -/
def statusUnpaired (known : Option KnownDevice) (applicationError : Exn) : Program DeviceStatus :=
  statusOffer known (fun recoveryError => s!"{applicationError}. {recoveryError}") none
    applicationError.message

/-- The bootloader of the record is refused. -/
def statusRefused (known : KnownDevice) (bootloaderError : Exn) : Program DeviceStatus :=
  statusOffer (some known) Exn.message (some s!"Automatic recovery is refused: {bootloaderError}")
    bootloaderError.message

variable (settings : Settings)

/-- The status when no application answers on the configured path. -/
def statusRecovery (applicationError : Exn) (knownForConfig : Option KnownDevice) :
    Program DeviceStatus :=
  match knownForConfig with
  | none => statusUnpaired none applicationError
  | some known => do
    let found ← recoverKnown settings known
    match found with
    | .error bootloaderError => statusRefused known bootloaderError
    | .ok (some bootloader) => return {
        state := .bootloader
        topology := some known.topology
        usbSerial := bootloader.usbSerial
        lastVerifiedVersion := known.version
        message := "CUL868 is in the known USB DFU bootloader and can be recovered." }
    | .ok none => statusUnpaired (some known) applicationError

/-- Report USB presence without opening the serial device or stopping apps. -/
def status : Program DeviceStatus := do
  let known ← DeviceStateStore.load
  let knownForConfig := known.filter (stateMatchesConfiguration settings)
  let found ← (UsbTopology.configuredApplication settings.device).catching Exn.isUsbTopologyError
  match found with
  | .ok application => return {
      state := .application
      topology := some application.topology
      usbSerial := application.usbSerial
      lastVerifiedVersion := knownVersionForApplication knownForConfig application
      message := "Configured CUL application USB endpoint is present." }
  | .error applicationError => statusRecovery settings applicationError knownForConfig

/-- How a plan is put to the operator. -/
def preflightOfPlan (plan : FlashPlan) : FlashPreflight :=
  if plan.mode = .application then
    ⟨.application, plan.topology,
      s!"Configured CUL endpoint found at USB path {plan.topology}. " ++
        "It will be verified with V before flashing.", none⟩
  else match plan.manualRecovery with
    | some manualRecovery =>
      ⟨.manualRecovery, plan.topology,
        s!"One unpaired CUL868 DFU bootloader was found at USB path {plan.topology}. " ++
          "A second explicit confirmation is required before this USB path can be flashed.",
        some manualRecovery⟩
    | none =>
      ⟨.recovery, plan.topology,
        s!"Known CUL868 USB DFU bootloader found at USB path {plan.topology}. " ++
          "Recovery will flash this same USB path.", none⟩

/-- Resolve a safe target before accepting a confirmation to flash it. -/
def preflight : Program FlashPreflight := do
  let plan ← plan settings none true
  return preflightOfPlan plan

end Flasher

/-! ## A bus that stands still -/

/-- One moment of the bus, of the state file and of the clock. -/
structure Snapshot where
  usb : Sysfs
  read : StateRead
  now : ℚ
  /-- A directory lists each of its entries once. -/
  entries_nodup : ∀ entries ∈ usb.usbDevices, entries.Nodup
  /-- `FlashError` is the flasher's own. -/
  read_raises : ∀ e, read = .raised e → e.isFlashError = false

namespace Snapshot

/-- The answers of an environment that shows the snapshot; it answers all other
operations as it likes. -/
def answer (s : Snapshot) (other : (o : World.Op) → World.Ans o) : (o : World.Op) → World.Ans o
  | .usb _ => s.usb
  | .loadState => s.read
  | .time => s.now
  | o => other o

variable (s : Snapshot) (other : (o : World.Op) → World.Ans o)

theorem eval_load :
    DeviceStateStore.load.eval (s.answer other) = .ofExcept (DeviceStateStore.decode s.read) := by
  change (Prog.ofExcept (DeviceStateStore.decode s.read)).eval _ = _
  exact Prog.eval_ofExcept _ _

theorem eval_configuredApplication (device : Path) :
    (UsbTopology.configuredApplication device).eval (s.answer other) =
      .ofExcept (s.usb.configuredApplication device) := by
  change (Prog.ofExcept (s.usb.configuredApplication device)).eval _ = _
  exact Prog.eval_ofExcept _ _

theorem eval_bootloaderForTopology (topology : String) :
    (UsbTopology.bootloaderForTopology topology).eval (s.answer other) =
      .ofExcept (s.usb.bootloaderForTopology topology) := by
  change (Prog.ofExcept (s.usb.bootloaderForTopology topology)).eval _ = _
  exact Prog.eval_ofExcept _ _

theorem eval_bootloaderTargets :
    UsbTopology.bootloaderTargets.eval (s.answer other) = .ofExcept s.usb.bootloaderTargets := by
  change (Prog.ofExcept s.usb.bootloaderTargets).eval _ = _
  exact Prog.eval_ofExcept _ _

attribute [irreducible] answer

end Snapshot

theorem DeviceStateStore.decode_error {read : StateRead} {e : Exn} (h : decode read = .error e) :
    read = .raised e := by
  cases read with
  | missing => cases h
  | raised e' =>
    cases h
    rfl
  | file content =>
    simp only [decode] at h
    split_ifs at h
    split at h
    · cases h
    · cases h

namespace Sysfs

/-- A target is called after the entry that it was read from. -/
theorem targetFromPath_path {fs : Sysfs} {path : Path} {t : UsbTarget}
    (h : fs.targetFromPath path = .ok t) : t.sysfsPath = path ∧ t.topology = path.name := by
  simp only [targetFromPath] at h
  split at h
  · split_ifs at h
    split at h
    · cases h
      exact ⟨rfl, rfl⟩
    · cases h
  · cases h

/-- What is listed under a name is the target of that path. -/
theorem mem_allUsbTargets {fs : Sysfs} {ts : List UsbTarget} (h : fs.allUsbTargets = .ok ts)
    {t : UsbTarget} (ht : t ∈ ts) : fs.targetFromPath (sysBusUsb.child t.topology) = .ok t := by
  simp only [allUsbTargets] at h
  split at h
  · cases h
  · cases h
    obtain ⟨name, -, hname⟩ := List.mem_filterMap.mp ht
    cases hp : fs.targetFromPath (sysBusUsb.child name) with
    | error e => simp [hp, Except.toOption] at hname
    | ok t' =>
      obtain rfl : t' = t := by simpa [hp, Except.toOption] using hname
      rwa [(targetFromPath_path hp).2, Path.name_child]

theorem allUsbTargets_nodup {fs : Sysfs} {ts : List UsbTarget}
    (hentries : ∀ entries ∈ fs.usbDevices, entries.Nodup) (h : fs.allUsbTargets = .ok ts) :
    ts.Nodup := by
  simp only [allUsbTargets] at h
  split at h
  · cases h
  · rename_i entries hdevices
    cases h
    refine (hentries entries hdevices).filterMap fun name name' t hname hname' => ?_
    have hof : ∀ name, t ∈ (fs.targetFromPath (sysBusUsb.child name)).toOption →
        t.topology = name := by
      intro name hname
      cases hp : fs.targetFromPath (sysBusUsb.child name) with
      | error e => simp [hp, Except.toOption] at hname
      | ok t' =>
        obtain rfl : t' = t := by simpa [hp, Except.toOption] using hname
        rw [(targetFromPath_path hp).2, Path.name_child]
    rw [← hof name hname, hof name' hname']

/-- The only bootloader on the bus is the one on its path. -/
theorem bootloaderForTopology_of_alone {fs : Sysfs} {t : UsbTarget}
    (hentries : ∀ entries ∈ fs.usbDevices, entries.Nodup) (h : fs.bootloaderTargets = .ok [t]) :
    t.Valid ∧ fs.bootloaderForTopology t.topology = .ok (some t) := by
  obtain ⟨hvalid, hmatch⟩ := targetsWithIdentity_mem h t (by simp)
  refine ⟨hvalid, ?_⟩
  cases hall : fs.allUsbTargets with
  | error e => simp [bootloaderTargets, targetsWithIdentity, hall, bind, Except.bind] at h
  | ok ts =>
    have hmem : t ∈ ts := by
      simp only [bootloaderTargets, targetsWithIdentity, hall, bind, Except.bind, pure,
        Except.pure, Except.ok.injEq] at h
      have ht : t ∈ fs.dedupe (ts.filter (matching bootloaderVendorId bootloaderProductId)) := by
        rw [← List.mem_insertionSort fun a b => a.topology ≤ b.topology, h]
        exact List.mem_singleton_self t
      exact (List.mem_filter.mp (mem_of_mem_dedupe ht)).1
    have hfilter : ts.filter (fun u => u.topology = t.topology &&
        matching bootloaderVendorId bootloaderProductId u) = [t] := by
      have hsame : ∀ u ∈ ts.filter (fun u => u.topology = t.topology &&
          matching bootloaderVendorId bootloaderProductId u), u = t := by
        intro u hu
        obtain ⟨hu, hprop⟩ := List.mem_filter.mp hu
        simp only [Bool.and_eq_true, decide_eq_true_eq] at hprop
        have hpath := mem_allUsbTargets hall hu
        rw [hprop.1, mem_allUsbTargets hall hmem] at hpath
        exact (Except.ok.inj hpath).symm
      have hnodup := (allUsbTargets_nodup hentries hall).filter
        (fun u => u.topology = t.topology && matching bootloaderVendorId bootloaderProductId u)
      have hin : t ∈ ts.filter (fun u => u.topology = t.topology &&
          matching bootloaderVendorId bootloaderProductId u) :=
        List.mem_filter.mpr ⟨hmem, by simp [hmatch]⟩
      rw [List.eq_replicate_of_mem hsame] at hnodup ⊢
      have hlength := List.nodup_replicate.mp hnodup
      have hpos := List.length_pos_of_mem hin
      rw [show (ts.filter _).length = 1 by omega, List.replicate_one]
    simp only [bootloaderForTopology, singleTarget, validateUsbTopology, hvalid.topology, if_true,
      hall, bind, Except.bind, pure, Except.pure, hfilter]

theorem configuredApplication_error {fs : Sysfs} {device : Path} {e : Exn}
    (h : fs.configuredApplication device = .error e) : e.isUsbTopologyError = true := by
  simp only [configuredApplication] at h
  split at h
  · cases h
    rfl
  · rename_i resolved hresolved
    split_ifs at h
    · cases h
      rfl
    cases ht : fs.targetForTty resolved.name with
    | error e' =>
      simp only [ht, bind, Except.bind, Except.error.injEq] at h
      subst h
      simp only [targetForTty] at ht
      split_ifs at ht
      · cases ht
        rfl
      split at ht
      · cases ht
        rfl
      · simp only [targetFromDescendant] at ht
        split at ht
        · cases ht
        · cases ht
          rfl
    | ok target =>
      simp only [ht, bind, Except.bind, pure, Except.pure] at h
      split at h
      · rename_i e' hid
        cases h
        simp only [requireIdentity] at hid
        split_ifs at hid
        cases hid
        rfl
      · cases h

end Sysfs

/-! ## One decision -/

namespace Flasher
variable (s : Snapshot) (other : (o : World.Op) → World.Ans o) (settings : Settings)

theorem eval_orFlashError {lookup : Program α} {message : Exn → String} {x : Except Exn α}
    {w : (o : World.Op) → World.Ans o} (h : lookup.eval w = .ofExcept x) :
    (orFlashError lookup message).eval w = .ofExcept (x.mapError fun e =>
      if e.isUsbTopologyError then .flashError (message e) else e) := by
  simp only [orFlashError, Prog.eval_bind, Prog.eval_catching, h]
  cases x with
  | ok a => rfl
  | error e =>
    cases he : e.isUsbTopologyError <;> simp [Outcome.ofExcept, Except.mapError, he]

theorem singleUnpairedRecoveryTarget_ne_cut :
    singleUnpairedRecoveryTarget.eval (s.answer other) ≠ .cut := by
  refine Prog.eval_bind_ne_cut _ ?_ fun bootloaders _ => ?_
  · rw [eval_orFlashError (s.eval_bootloaderTargets other)]
    exact Outcome.ofExcept_ne_cut _
  · match bootloaders with
    | [] => simp
    | [target] =>
      refine Prog.eval_bind_ne_cut _ ?_ fun recovery _ => by simp
      rw [Prog.eval_ofExcept]
      exact Outcome.ofExcept_ne_cut _
    | _ :: _ :: _ => simp

/-- The bootloader that is offered to the operator can be confirmed. -/
theorem manualPlan_of_offer {confirmed : ManualRecoveryTarget}
    (h : singleUnpairedRecoveryTarget.eval (s.answer other) = .returned (some confirmed)) :
    ∃ bootloader, (manualPlan confirmed).eval (s.answer other) = .returned
      ⟨.manualRecovery, confirmed.topology, none, some bootloader, none, some confirmed⟩ := by
  rw [singleUnpairedRecoveryTarget, Prog.eval_bind,
    eval_orFlashError (s.eval_bootloaderTargets other)] at h
  cases hall : s.usb.bootloaderTargets with
  | error e =>
    rw [hall] at h
    simp [Except.mapError, Outcome.ofExcept] at h
  | ok targets =>
    rw [hall] at h
    obtain _ | ⟨target, _ | ⟨second, rest⟩⟩ := targets
    · simp [Except.mapError, Outcome.ofExcept] at h
    · obtain ⟨hvalid, hfound⟩ := Sysfs.bootloaderForTopology_of_alone s.entries_nodup hall
      have hmake : ManualRecoveryTarget.make target.topology target.usbSerial =
          .ok ⟨target.topology, target.usbSerial, hvalid.topology, hvalid.usbSerial⟩ := by
        rw [ManualRecoveryTarget.make, dif_pos hvalid.topology, dif_pos hvalid.usbSerial]
      simp only [Except.mapError, Outcome.returned_bind, hmake, Prog.eval_bind, Prog.eval_ofExcept,
        Outcome.ofExcept, Prog.eval_pure, Outcome.returned.injEq, Option.some.injEq] at h
      subst h
      refine ⟨target, ?_⟩
      rw [manualPlan, Prog.eval_bind, manualBootloaderForTarget, Prog.eval_bind,
        eval_orFlashError (s.eval_bootloaderForTopology other _), hfound]
      change ((ite _ _ (pure target) : Program UsbTarget).eval _).bind _ = _
      rw [if_neg fun hchanged => hchanged.2 rfl]
      rfl
    · simp [Except.mapError, Outcome.ofExcept] at h

theorem refusePlan_of_offer {offer : Option ManualRecoveryTarget} (applicationError : Exn)
    (recoveryError : Option Exn) (known knownForConfig : Option KnownDevice)
    (h : singleUnpairedRecoveryTarget.eval (s.answer other) = .returned offer) :
    ∃ e, (refusePlan applicationError recoveryError known knownForConfig).eval (s.answer other) =
      .raised e ∧ e.isFlashError = true := by
  cases recoveryError with
  | some err => exact ⟨_, rfl, rfl⟩
  | none =>
    unfold refusePlan
    split_ifs
    · exact ⟨_, rfl, rfl⟩
    · rw [Prog.eval_bind, h]
      cases offer with
      | some confirmed => exact ⟨_, rfl, rfl⟩
      | none => exact ⟨_, rfl, rfl⟩

/-- What the status says, what is planned for the preflight, what is planned for
a flash without a target and what is planned for one with a confirmed target. -/
inductive Agree (status : Outcome Exn DeviceStatus) (offered automatic : Outcome Exn FlashPlan)
    (confirmed : ManualRecoveryTarget → Outcome Exn FlashPlan) : Prop
  | automatic (st : DeviceStatus) (q : FlashPlan) (hstatus : status = .returned st)
      (hoffered : offered = .returned q) (hautomatic : automatic = .returned q)
      (hstate : st.state = q.mode.state) (htopology : st.topology = some q.topology)
      (hmode : q.mode ≠ .manualRecovery) (hmanual : q.manualRecovery = none)
  | unpaired (st : DeviceStatus) (q : FlashPlan) (target : ManualRecoveryTarget) (e : Exn)
      (hstatus : status = .returned st) (hoffered : offered = .returned q)
      (hconfirmed : confirmed target = .returned q) (hautomatic : automatic = .raised e)
      (he : e.isFlashError = true) (hstate : st.state = q.mode.state)
      (htopology : st.topology = some q.topology) (hmode : q.mode = .manualRecovery)
      (hmanual : q.manualRecovery = some target)
  | unavailable (st : DeviceStatus) (e : Exn) (hstatus : status = .returned st)
      (hoffered : offered = .raised e) (hstate : st.state = .unavailable)
      (he : e.isFlashError = true)
  | failed (e : Exn) (hstatus : status = .raised e) (hoffered : offered = .raised e)
      (he : e.isFlashError = false)

/-- Without an automatic recovery all depends on what can be offered. -/
theorem agree_unpaired (known : Option KnownDevice) (refusal : Exn → String)
    (reason : Option String) (message : String) (applicationError : Exn)
    (recoveryError : Option Exn) (loaded knownForConfig : Option KnownDevice) :
    Agree ((statusOffer known refusal reason message).eval (s.answer other))
      ((planUnpaired true applicationError recoveryError loaded knownForConfig).eval
        (s.answer other))
      ((planUnpaired false applicationError recoveryError loaded knownForConfig).eval
        (s.answer other))
      fun target => (manualPlan target).eval (s.answer other) := by
  rw [statusOffer, offerUnpaired, Prog.eval_bind, Prog.eval_catching, planUnpaired, if_pos rfl,
    Prog.eval_bind, planUnpaired, if_neg (by simp)]
  cases h : singleUnpairedRecoveryTarget.eval (s.answer other) with
  | cut => exact absurd h (singleUnpairedRecoveryTarget_ne_cut s other)
  | raised e =>
    cases he : e.isFlashError with
    | true => exact .unavailable _ e (by simp [he]; rfl) rfl rfl he
    | false => exact .failed e (by simp [he]) rfl he
  | returned offer =>
    obtain ⟨e, hrefuse, he⟩ := refusePlan_of_offer s other applicationError recoveryError loaded
      knownForConfig h
    cases offer with
    | none => exact .unavailable _ e rfl hrefuse rfl he
    | some target =>
      obtain ⟨bootloader, hplan⟩ := manualPlan_of_offer s other h
      exact .unpaired _ _ target e rfl hplan hplan hrefuse he rfl rfl rfl rfl

theorem recoverKnown_ne_cut (known : KnownDevice) :
    (recoverKnown settings known).eval (s.answer other) ≠ .cut := by
  refine Prog.eval_catching_ne_cut _ (Prog.eval_bind_ne_cut _ ?_ fun found _ => ?_)
  · rw [eval_orFlashError (s.eval_bootloaderForTopology other _)]
    exact Outcome.ofExcept_ne_cut _
  · cases found with
    | none => simp
    | some bootloader =>
      dsimp only
      split
      · refine Prog.eval_bind_ne_cut _ (Prog.eval_bind_ne_cut _ ?_ fun now _ => ?_)
          fun current _ => ?_
        · exact fun h => by cases h
        · cases known.handoffDeadline <;> simp
        · split_ifs <;> simp
      · simp

theorem agree_recovery (applicationError : Exn) (loaded knownForConfig : Option KnownDevice) :
    Agree ((statusRecovery settings applicationError knownForConfig).eval (s.answer other))
      ((planRecovery settings true applicationError loaded knownForConfig).eval (s.answer other))
      ((planRecovery settings false applicationError loaded knownForConfig).eval (s.answer other))
      fun target => (manualPlan target).eval (s.answer other) := by
  cases knownForConfig with
  | none => exact agree_unpaired s other none _ _ _ applicationError none loaded none
  | some known =>
    simp only [statusRecovery, planRecovery, Prog.eval_bind]
    cases h : (recoverKnown settings known).eval (s.answer other) with
    | cut => exact absurd h (recoverKnown_ne_cut s other settings known)
    | raised e => exact .failed e rfl rfl (Prog.eval_catching_raised _ h)
    | returned found =>
      cases found with
      | error bootloaderError =>
        exact agree_unpaired s other (some known) _ _ _ applicationError (some bootloaderError)
          loaded (some known)
      | ok bootloader =>
        cases bootloader with
        | some bootloader => exact .automatic _ _ rfl rfl rfl rfl rfl (by simp) rfl
        | none =>
          exact agree_unpaired s other (some known) _ _ _ applicationError none loaded (some known)

theorem agree : Agree ((status settings).eval (s.answer other))
    ((plan settings none true).eval (s.answer other))
    ((plan settings none false).eval (s.answer other))
    fun target => (plan settings (some target) false).eval (s.answer other) := by
  simp only [status, plan, Prog.eval_bind, s.eval_load, Prog.eval_catching,
    s.eval_configuredApplication]
  cases hread : DeviceStateStore.decode s.read with
  | error e =>
    exact .failed e rfl rfl (s.read_raises e (DeviceStateStore.decode_error hread))
  | ok known =>
    cases happ : s.usb.configuredApplication settings.device with
    | ok application => exact .automatic _ _ rfl rfl rfl rfl rfl (by simp) rfl
    | error applicationError =>
      have husb := Sysfs.configuredApplication_error happ
      simp only [Outcome.ofExcept, husb, if_true, Outcome.returned_bind]
      exact agree_recovery s other settings applicationError known _

@[simp] theorem preflightOfPlan_topology (q : FlashPlan) :
    (preflightOfPlan q).topology = q.topology := by
  unfold preflightOfPlan
  split_ifs
  · rfl
  · split
    · rfl
    · rfl

theorem preflightOfPlan_automatic {q : FlashPlan} (hmode : q.mode ≠ .manualRecovery)
    (hmanual : q.manualRecovery = none) :
    (preflightOfPlan q).mode = q.mode ∧ (preflightOfPlan q).manualRecovery = none := by
  unfold preflightOfPlan
  split_ifs with happ
  · exact ⟨happ.symm, rfl⟩
  · rw [hmanual]
    cases h : q.mode with
    | application => exact absurd h happ
    | recovery => exact ⟨rfl, rfl⟩
    | manualRecovery => exact absurd h hmode

theorem preflightOfPlan_unpaired {q : FlashPlan} {target : ManualRecoveryTarget}
    (hmode : q.mode = .manualRecovery) (hmanual : q.manualRecovery = some target) :
    (preflightOfPlan q).mode = .manualRecovery ∧
      (preflightOfPlan q).manualRecovery = some target := by
  rw [preflightOfPlan, if_neg (by simp [hmode]), hmanual]
  exact ⟨rfl, rfl⟩

theorem eval_preflight {w : (o : World.Op) → World.Ans o} :
    (preflight settings).eval w =
      ((plan settings none true).eval w).bind fun q => .returned (preflightOfPlan q) :=
  Prog.eval_bind _ _ _

theorem plan_of_preflight {p : FlashPreflight}
    (h : (preflight settings).eval (s.answer other) = .returned p) :
    (∃ q, (plan settings p.manualRecovery false).eval (s.answer other) = .returned q ∧
      q.mode = p.mode ∧ q.topology = p.topology) ∧
    (p.mode = .manualRecovery →
      ∃ e, (plan settings none false).eval (s.answer other) = .raised e ∧
        e.isFlashError = true) := by
  rw [eval_preflight] at h
  cases agree s other settings with
  | automatic st q hstatus hoffered hautomatic hstate htopology hmode hmanual =>
    obtain ⟨hpmode, hpmanual⟩ := preflightOfPlan_automatic hmode hmanual
    rw [hoffered] at h
    cases h
    rw [hpmode, hpmanual, preflightOfPlan_topology]
    exact ⟨⟨q, hautomatic, rfl, rfl⟩, fun h => absurd h hmode⟩
  | unpaired st q target e hstatus hoffered hconfirmed hautomatic he hstate htopology hmode
      hmanual =>
    obtain ⟨hpmode, hpmanual⟩ := preflightOfPlan_unpaired hmode hmanual
    rw [hoffered] at h
    cases h
    rw [hpmode, hpmanual, preflightOfPlan_topology]
    exact ⟨⟨q, hconfirmed, hmode, rfl⟩, fun _ => ⟨e, hautomatic, he⟩⟩
  | unavailable st e hstatus hoffered hstate he => simp [hoffered] at h
  | failed e hstatus hoffered he => simp [hoffered] at h

/-- The status, the preflight and the plan of the flash on one moment of the bus. -/
theorem status_preflight_flash_agree :
    (∀ mode, (∃ st, (status settings).eval (s.answer other) = .returned st ∧
        st.state = mode.state) ↔
      ∃ p, (preflight settings).eval (s.answer other) = .returned p ∧ p.mode = mode) ∧
    ((∃ st, (status settings).eval (s.answer other) = .returned st ∧ st.state = .unavailable) ↔
      ∃ e, (preflight settings).eval (s.answer other) = .raised e ∧ e.isFlashError = true) ∧
    (∀ st p, (status settings).eval (s.answer other) = .returned st →
      (preflight settings).eval (s.answer other) = .returned p → st.topology = some p.topology) ∧
    ∀ p, (preflight settings).eval (s.answer other) = .returned p →
      (∃ q, (plan settings p.manualRecovery false).eval (s.answer other) = .returned q ∧
        q.mode = p.mode ∧ q.topology = p.topology) ∧
      (p.mode = .manualRecovery →
        ∃ e, (plan settings none false).eval (s.answer other) = .raised e ∧
          e.isFlashError = true) := by
  rw [← and_assoc, ← and_assoc]
  refine ⟨?_, fun p => plan_of_preflight s other settings⟩
  rw [and_assoc, eval_preflight]
  cases agree s other settings with
  | automatic st q hstatus hoffered hautomatic hstate htopology hmode hmanual =>
    have hpmode := (preflightOfPlan_automatic hmode hmanual).1
    have hne : q.mode.state ≠ .unavailable := PlanMode.state_ne_unavailable _
    simp only [hstatus, hoffered, Outcome.returned_bind, Outcome.returned.injEq, exists_eq_left',
      hstate, hpmode]
    refine ⟨fun mode => ⟨PlanMode.state_injective, fun h => by rw [h]⟩, ?_, ?_⟩
    · simp [hne]
    · rintro _ _ rfl rfl
      rw [htopology, preflightOfPlan_topology]
  | unpaired st q target e hstatus hoffered hconfirmed hautomatic he hstate htopology hmode
      hmanual =>
    have hpmode := (preflightOfPlan_unpaired hmode hmanual).1
    have hne : q.mode.state ≠ .unavailable := PlanMode.state_ne_unavailable _
    simp only [hstatus, hoffered, Outcome.returned_bind, Outcome.returned.injEq, exists_eq_left',
      hstate, hpmode, hmode]
    refine ⟨fun mode => ⟨PlanMode.state_injective, fun h => by rw [h]⟩, ?_, ?_⟩
    · simp [PlanMode.state]
    · rintro _ _ rfl rfl
      rw [htopology, preflightOfPlan_topology]
  | unavailable st e hstatus hoffered hstate he =>
    refine ⟨fun mode => ⟨?_, ?_⟩, ⟨?_, ?_⟩, ?_⟩
    · rintro ⟨st', hst', hmode⟩
      rw [hstatus] at hst'
      cases hst'
      exact absurd (hmode.symm.trans hstate) (PlanMode.state_ne_unavailable mode)
    · rintro ⟨p, hp, -⟩
      simp [hoffered] at hp
    · exact fun _ => ⟨e, by rw [hoffered]; rfl, he⟩
    · exact fun _ => ⟨st, hstatus, hstate⟩
    · intro st' p _ hp
      simp [hoffered] at hp
  | failed e hstatus hoffered he =>
    refine ⟨fun mode => ⟨?_, ?_⟩, ⟨?_, ?_⟩, ?_⟩
    · rintro ⟨st, hst, -⟩
      simp [hstatus] at hst
    · rintro ⟨p, hp, -⟩
      simp [hoffered] at hp
    · rintro ⟨st, hst, -⟩
      simp [hstatus] at hst
    · rintro ⟨e', he', hflash⟩
      simp only [hoffered, Outcome.raised_bind, Outcome.raised.injEq] at he'
      rw [← he', he] at hflash
      cases hflash
    · intro st p hst
      simp [hstatus] at hst

/-- A bus with one bootloader on it, of which no record is kept. -/
def unpairedSnapshot : Snapshot where
  usb := .ofDevices [dfuBootloader "1-1" none] []
  read := .missing
  now := 0
  entries_nodup := by
    rintro entries ⟨⟩
    exact List.nodup_singleton _
  read_raises e h := by cases h

/-- That bootloader is offered, and it is flashed only once it has been confirmed. -/
theorem status_preflight_flash_agree_unpaired :
    let w := unpairedSnapshot.answer (PlannedRun.movedScript.answer 0)
    ∃ st p q e, (status PlannedRun.qemuSettings).eval w = .returned st ∧
      st.state = .unpairedBootloader ∧ st.topology = some "1-1" ∧
      (preflight PlannedRun.qemuSettings).eval w = .returned p ∧ p.mode = .manualRecovery ∧
      (plan PlannedRun.qemuSettings p.manualRecovery false).eval w = .returned q ∧
      q.mode = .manualRecovery ∧ q.topology = "1-1" ∧
      (plan PlannedRun.qemuSettings none false).eval w = .raised e ∧ e.isFlashError = true := by
  intro w
  have hrun : ((status PlannedRun.qemuSettings).eval w).result.any fun st =>
      decide (st.state = .unpairedBootloader) && decide (st.topology = some "1-1") := by
    decide +kernel
  obtain ⟨st, hst, hshown⟩ := (Option.any_eq_true _ _).mp hrun
  rw [Outcome.result_eq_some] at hst
  simp only [Bool.and_eq_true, decide_eq_true_eq] at hshown
  obtain ⟨hstates, -, htopologies, hflash⟩ := status_preflight_flash_agree unpairedSnapshot
    (PlannedRun.movedScript.answer 0) PlannedRun.qemuSettings
  obtain ⟨p, hp, hmode⟩ := (hstates .manualRecovery).mp ⟨st, hst, hshown.1⟩
  obtain ⟨⟨q, hq, hqmode, hqtopology⟩, hrefused⟩ := hflash p hp
  obtain ⟨e, he, hflashError⟩ := hrefused hmode
  have htopology : p.topology = "1-1" :=
    (Option.some.inj ((htopologies st p hst hp).symm.trans hshown.2))
  exact ⟨st, p, q, e, hst, hshown.1, hshown.2, hp, hmode, hq, hqmode.trans hmode,
    hqtopology.trans htopology, he, hflashError⟩

/-! ## Runs of the flash -/

variable {s other settings} {image : HexImage} {t : Trace World}

theorem plan_of_prepare {manualRecovery : Option ManualRecoveryTarget} {checked : HexImage}
    {q : FlashPlan} (h : Run (prepare settings image manualRecovery) t (.returned (checked, q)))
    (ht : ∀ e ∈ t, e.ans = s.answer other e.op) :
    (plan settings manualRecovery false).eval (s.answer other) = .returned q := by
  obtain ⟨image', t₁, t₂, rfl, -, h⟩ := Run.bind_returned.mp h
  obtain ⟨_, t₃, t₄, rfl, -, h⟩ := Run.bind_returned.mp h
  obtain ⟨q', t₅, t₆, rfl, hplan, h⟩ := Run.bind_returned.mp h
  obtain ⟨rfl, hpair⟩ := Run.pure_returned.mp h
  obtain ⟨rfl, rfl⟩ := Prod.mk.inj hpair
  exact Prog.eval_eq_of_run _ hplan (fun e he => ht e (by simp [he])) (by simp)

/-- A flash that has been confirmed is planned as the preflight has said. -/
theorem prepare_of_preflight {p : FlashPreflight} {checked : HexImage} {q : FlashPlan}
    (hp : (preflight settings).eval (s.answer other) = .returned p)
    (h : Run (prepare settings image p.manualRecovery) t (.returned (checked, q)))
    (ht : ∀ e ∈ t, e.ans = s.answer other e.op) : q.mode = p.mode ∧ q.topology = p.topology := by
  obtain ⟨⟨q', hplan, hq⟩, -⟩ := plan_of_preflight s other settings hp
  rw [plan_of_prepare h ht] at hplan
  cases hplan
  exact hq

/-- No flash without the target gets past planning where the target is needed. -/
theorem not_prepare_of_preflight {p : FlashPreflight} {x : HexImage × FlashPlan}
    (hp : (preflight settings).eval (s.answer other) = .returned p)
    (hmode : p.mode = .manualRecovery)
    (ht : ∀ e ∈ t, e.ans = s.answer other e.op) :
    ¬ Run (prepare settings image none) t (.returned x) := by
  intro h
  obtain ⟨e, he, -⟩ := (plan_of_preflight s other settings hp).2 hmode
  rw [plan_of_prepare h ht] at he
  cases he

end Flasher
end Cul868Flasher
