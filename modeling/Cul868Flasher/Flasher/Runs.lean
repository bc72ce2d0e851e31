import Cul868Flasher.Flasher.DfuOrder

/-!
# Runs of a flash

A planned run is a run of `flash` that has left planning with a plan. The trace
`after` is what the transaction has done since; it may stop anywhere.
-/

namespace Cul868Flasher
open Python Effects

structure PlannedRun (settings : Settings) (image : HexImage)
    (manualRecovery : Option ManualRecoveryTarget) where
  fuel : ℕ
  checked : HexImage
  plan : FlashPlan
  before : Trace World
  after : Trace World
  outcome : Outcome Exn FlashResult
  prepared : Run (Flasher.prepare settings image manualRecovery) before (.returned (checked, plan))
  run : Run (Flasher.flash fuel settings image manualRecovery) (before ++ after) outcome

/-- The tree that a lookup has seen. -/
def snapshotOf : Event World → Option Sysfs
  | ⟨.usb _, fs⟩ => some fs
  | _ => none

/-- A history has at most one first step of a kind. -/
theorem split_first {P : Event World → Prop} {e e' : Event World} {u u' v v' : Trace World}
    (h : u ++ e :: v = u' ++ e' :: v') (hu : ∀ x ∈ u, ¬ P x) (he : P e) (hu' : ∀ x ∈ u', ¬ P x)
    (he' : P e') : u = u' ∧ e = e' ∧ v = v' := by
  induction u generalizing u' with
  | nil =>
    cases u' with
    | nil => simpa using h
    | cons x u' =>
      obtain rfl : e = x := (List.cons.inj h).1
      exact absurd he (hu' e (by simp))
  | cons x u ih =>
    cases u' with
    | nil =>
      obtain rfl : x = e' := (List.cons.inj h).1
      exact absurd he' (hu x (by simp))
    | cons y u' =>
      obtain ⟨rfl, htail⟩ := List.cons.inj h
      obtain ⟨rfl, he, hv⟩ := ih htail (fun z hz => hu z (by simp [hz]))
        fun z hz => hu' z (by simp [hz])
      exact ⟨rfl, he, hv⟩

namespace PlannedRun
variable {settings : Settings} {image : HexImage} {manualRecovery : Option ManualRecoveryTarget}

theorem transact (x : PlannedRun settings image manualRecovery) :
    Run (Flasher.transact x.fuel settings x.checked x.plan) x.after x.outcome := by
  have hrun := x.run
  unfold Flasher.flash at hrun
  have hrest := Run.bind_resume x.prepared hrun
  exact hrest

/-- A run of `flash` is a run of its planning or has a plan. -/
theorem of_run {fuel : ℕ} {t : Trace World} {r : Outcome Exn FlashResult}
    (h : Run (Flasher.flash fuel settings image manualRecovery) t r) :
    (∀ e ∈ t, e.op.kind ∈ Flasher.planningKinds) ∨
      ∃ x : PlannedRun settings image manualRecovery, x.fuel = fuel ∧ x.outcome = r ∧
        t = x.before ++ x.after := by
  have huses := Flasher.prepare_uses settings image manualRecovery
  obtain ⟨⟨checked, plan⟩, t₁, t₂, rfl, h₁, -⟩ | ⟨e, -, h₁⟩ | ⟨-, h₁⟩ := Run.bind_inv h
  · exact .inr ⟨⟨fuel, checked, plan, t₁, t₂, r, h₁, h⟩, rfl, rfl, rfl⟩
  · exact .inl (huses.run h₁)
  · exact .inl (huses.run h₁)

theorem before_uses (x : PlannedRun settings image manualRecovery) :
    ∀ e ∈ x.before, e.op.kind ∈ Flasher.planningKinds :=
  (Flasher.prepare_uses settings image manualRecovery).run x.prepared

/-- Steps that planning does not take belong to the transaction. -/
theorem split_after (x : PlannedRun settings image manualRecovery) {u v : Trace World}
    {e : Event World} (ht : x.before ++ x.after = u ++ e :: v)
    (he : e.op.kind ∉ Flasher.planningKinds) : ∃ w, u = x.before ++ w ∧ x.after = w ++ e :: v := by
  rcases List.append_eq_append_iff.mp ht with ⟨w, hu, hw⟩ | ⟨w, hbefore, hw⟩
  · exact ⟨w, hu, hw⟩
  · cases w with
    | nil => exact ⟨[], by simpa using hbefore.symm, by simpa using hw.symm⟩
    | cons y w =>
      obtain ⟨rfl, -⟩ := List.cons.inj hw
      exact absurd (x.before_uses e (by simp [hbefore])) he

/-- The planning of the run. -/
theorem planned (x : PlannedRun settings image manualRecovery) :
    ∃ t₁ t₂, x.before = t₁ ++ t₂ ∧ Run (Flasher.revalidateImage image) t₁ (.returned x.checked) ∧
      ∃ t₃ t₄, t₂ = t₃ ++ t₄ ∧
        Run (Flasher.plan settings manualRecovery false) t₄ (.returned x.plan) := by
  obtain ⟨checked, t₁, t₂, hbefore, h₁, h⟩ := Run.bind_returned.mp x.prepared
  obtain ⟨_, t₃, t₄, rfl, -, h⟩ := Run.bind_returned.mp h
  obtain ⟨plan, t₅, t₆, rfl, h₅, h⟩ := Run.bind_returned.mp h
  obtain ⟨rfl, hpair⟩ := Run.pure_returned.mp h
  obtain ⟨rfl, hplan⟩ := Prod.mk.inj hpair
  rw [hplan]
  exact ⟨t₁, _, hbefore, h₁, t₃, t₅, by simp, h₅⟩

theorem allowed (x : PlannedRun settings image manualRecovery) (u v : Trace World)
    (e : Event World) (call : DfuCall) (h : x.after = u ++ e :: v) (he : dfuOf e = some call) :
    Flasher.Allowed settings x.plan x.checked u call := by
  have hall := (Flasher.transact_permits x.fuel).invariant Guarded.nil rfl x.transact
  exact hall u e v h call he

theorem exists_of_mem_dfuCalls {t : Trace World} {call : DfuCall} (h : call ∈ dfuCalls t) :
    ∃ u e v, t = u ++ e :: v ∧ dfuOf e = some call := by
  obtain ⟨e, hmem, he⟩ := List.mem_filterMap.mp h
  obtain ⟨u, v, rfl⟩ := List.append_of_mem hmem
  exact ⟨u, e, v, rfl, he⟩

/-- The first observed bootloader that the run has saved is `d`, after the steps `u`. -/
def BindsAt (x : PlannedRun settings image manualRecovery) (d : KnownDevice)
    (u v : Trace World) : Prop :=
  ∃ file, x.after = u ++ ⟨.saveState file, SaveOutcome.saved⟩ :: v ∧ (∀ y ∈ u, ¬ IsBinding y) ∧
    file.record = some d ∧ d.recoveryBinding = .observedBootloader

theorem isBinding_save {file : StateFile} {d : KnownDevice} (h : file.record = some d)
    (hd : d.recoveryBinding = .observedBootloader) (outcome : SaveOutcome) :
    IsBinding ⟨.saveState file, outcome⟩ := by
  simp [IsBinding, Op.kind, StateFile.binding, h, hd]

theorem BindsAt.unique {x : PlannedRun settings image manualRecovery} {d d' : KnownDevice}
    {u u' v v' : Trace World} (h : x.BindsAt d u v) (h' : x.BindsAt d' u' v') : d = d' := by
  obtain ⟨file, hafter, hu, hd, hb⟩ := h
  obtain ⟨file', hafter', hu', hd', hb'⟩ := h'
  rw [hafter] at hafter'
  obtain ⟨-, he, -⟩ :=
    split_first hafter' hu (isBinding_save hd hb _) hu' (isBinding_save hd' hb' _)
  cases he
  rw [hd] at hd'
  exact Option.some.inj hd'

theorem selects_not_binding {plan : FlashPlan} {e : Event World} {target : UsbTarget}
    (h : Flasher.Selects settings plan e target) : ¬ IsBinding e := by
  rcases h.2 with ⟨fs, rfl, -⟩ | ⟨-, fs, rfl, -⟩
  · simp [IsBinding, Op.kind]
  · simp [IsBinding, Op.kind]

/-- What is bound in a part of the run is bound in the run. -/
theorem bindsAt_of_bound (x : PlannedRun settings image manualRecovery) {w z : Trace World}
    {target : UsbTarget} (hafter : x.after = w ++ z)
    (hbound : Flasher.Bound settings x.plan w target) :
    ∃ d u v, x.BindsAt d u v ∧ d.topology = target.topology ∧ d.usbSerial = target.usbSerial ∧
      (∃ e ∈ x.after, Flasher.Selects settings x.plan e target) ∧
      ∃ b v', w = u ++ b :: v' ∧ IsBinding b ∧ v = v' ++ z := by
  obtain ⟨u, e, file, v, hw, hsel, hfirst, hfile⟩ := hbound
  have hvalid : target.Valid := hsel.valid
  have hrecord := DeviceStateStore.record_encode hfile
  have hsplit : w = (u ++ [e]) ++ ⟨.saveState file, SaveOutcome.saved⟩ :: v := by
    rw [hw]
    simp only [List.append_assoc, List.cons_append, List.nil_append]
  have hnone : ∀ y ∈ u ++ [e], ¬ IsBinding y := by
    intro y hy
    rcases List.mem_append.mp hy with hy | hy
    · exact hfirst y hy
    · rw [List.mem_singleton.mp hy]
      exact selects_not_binding hsel
  refine ⟨_, u ++ [e], v ++ z, ⟨file, ?_, hnone, hrecord, rfl⟩, rfl, ?_,
    ⟨e, by simp [hafter, hw], hsel⟩, _, v, hsplit, isBinding_save hrecord rfl _, rfl⟩
  · rw [hafter, hsplit]
    simp only [List.append_assoc, List.cons_append]
  · exact safeOptionalText_of_safe hvalid.usbSerial

/-- What stands behind a DFU command: a selected and saved target, and a later
lookup on its path. -/
theorem dfu_bound (x : PlannedRun settings image manualRecovery) {call : DfuCall}
    (hcall : call ∈ dfuCalls x.after) :
    ∃ target d u v, x.BindsAt d u v ∧ d.topology = target.topology ∧
      d.usbSerial = target.usbSerial ∧ (∃ e ∈ x.after, Flasher.Selects settings x.plan e target) ∧
      ∃ e ∈ v, Flasher.FoundOnPath target.topology e call.bootloader ∧
        Flasher.SerialAccepted target.usbSerial call.bootloader false := by
  obtain ⟨w, e, z, hafter, he⟩ := exists_of_mem_dfuCalls hcall
  obtain ⟨target, hbound, w', e', hw', hfound, hserial⟩ := (x.allowed w z e call hafter he).bound
  obtain ⟨d, u, v, hbinds, htopology, hd, hsel, b, v', hw, hb, rfl⟩ :=
    x.bindsAt_of_bound hafter hbound
  have hmem : e' ∈ v' := by
    rcases List.eq_nil_or_concat v' with rfl | ⟨v'', y, rfl⟩
    · have hlast : u ++ [b] = w' ++ [e'] := by rw [← hw', hw]
      obtain ⟨fs, rfl, -⟩ := hfound
      obtain rfl : b = usbEvent (.bootloaderForTopology target.topology) fs := by
        simpa using (List.append_inj' hlast rfl).2
      simp [IsBinding, Op.kind] at hb
    · have hlast : (u ++ b :: v'') ++ [y] = w' ++ [e'] := by
        rw [← hw', hw]
        simp only [List.concat_eq_append, List.append_assoc, List.cons_append]
      obtain rfl : y = e' := by simpa using (List.append_inj' hlast rfl).2
      simp
  exact ⟨target, d, u, _, hbinds, htopology, hd, hsel, e', by simp [hmem], hfound, hserial⟩

/-- A run that executes against a script, if planning succeeds there. -/
def ofScript (w : ℕ → (o : Op) → World.Ans o) (fuel : ℕ) (settings : Settings) (image : HexImage)
    (manualRecovery : Option ManualRecoveryTarget) :
    Option (PlannedRun settings image manualRecovery) :=
  match h : (Flasher.prepare settings image manualRecovery).exec (I := World) w 0 with
  | (before, .returned (checked, plan)) => some {
      fuel := fuel
      checked := checked
      plan := plan
      before := before
      after := ((Flasher.transact fuel settings checked plan).exec (I := World) w before.length).1
      outcome := ((Flasher.transact fuel settings checked plan).exec (I := World) w before.length).2
      prepared := by
        have hrun := Run.of_exec (I := World) w (Flasher.prepare settings image manualRecovery) 0
        rwa [h] at hrun
      run := by
        have hrun := Run.of_exec (I := World) w (Flasher.prepare settings image manualRecovery) 0
        rw [h] at hrun
        have htransact := Run.of_exec (I := World) w (Flasher.transact fuel settings checked plan)
          before.length
        exact hrun.bind htransact }
  | _ => none

end PlannedRun

/-! ## Scripted worlds -/

/-- A device of a scripted USB tree. -/
structure FakeDevice where
  topology : String
  productId : String
  usbSerial : Option String
  tty : Option String

def FakeDevice.content (d : FakeDevice) (name : String) : Option (List UInt8) :=
  let text : Option String :=
    if name = "idVendor" then some "03eb"
    else if name = "idProduct" then some d.productId
    else if name = "busnum" then some "1"
    else if name = "devnum" then some "5"
    else if name = "serial" then d.usbSerial
    else none
  text.map fun s => s.toUTF8.data.toList

/-- The tree of some devices; `aliases` are serial-by-id names with their nodes. -/
def Sysfs.ofDevices (devices : List FakeDevice) (aliases : List (String × String)) : Sysfs where
  usbDevices := some (devices.map FakeDevice.topology)
  ttyClass := some (devices.filterMap FakeDevice.tty)
  byId := some (aliases.map Prod.fst)
  read path := (devices.find? fun d => sysBusUsb.child d.topology = path.parent).bind
    (·.content path.name)
  resolve path :=
    if path.parent = devDirectory then some path
    else if path.parent = byIdDirectory then (aliases.lookup path.name).map devDirectory.child
    else (devices.find? fun d =>
      d.tty.any fun tty => (sysClassTty.child tty).child "device" = path).map
        fun d => sysBusUsb.child d.topology
  isSymlink path := path.parent = byIdDirectory

def cul (topology tty : String) (usbSerial : Option String) : FakeDevice :=
  ⟨topology, applicationProductId, usbSerial, some tty⟩

def dfuBootloader (topology : String) (usbSerial : Option String) : FakeDevice :=
  ⟨topology, bootloaderProductId, usbSerial, none⟩

def sampleSource : List UInt8 := ":010000000CF3\n:00000001FF\n".toUTF8.data.toList

def sampleImage : HexImage where
  path := .ofString "/tmp/cul868-firmware.hex"
  size := 26
  sha256 := "74ac73ed3981f27c954d4ffde435174a6553289f92b184e87480799e95b24cd2"
  records := 2
  dataBytes := 1
  lowestAddress := 0
  highestAddress := 0

/-- What varies between the scripted worlds, by the number of the step. -/
structure Script where
  usb : ℕ → Sysfs
  state : StateRead := .missing
  addons : List Json := []
  save : ℕ → SaveOutcome := fun _ => .saved
  dfu : ℕ → DfuOutcome := fun _ => .completed 0 ""
  post : ℕ → HttpOutcome := fun _ => .response 0 (some (.obj [("result", .str "ok")]))

/-- A world in which every step not told otherwise succeeds and no time passes. -/
def Script.answer (s : Script) (n : ℕ) : (o : Op) → World.Ans o
  | .monotonic => (0 : ℚ)
  | .time => (0 : ℚ)
  | .sleep _ => ()
  | .report _ _ => Except.ok ()
  | .usb _ => s.usb n
  | .resolvePath path => .ok path
  | .lstat _ => some (⟨true, 0o100600⟩ : FileStat)
  | .statSize _ => some sampleSource.length
  | .readBytes _ => some sampleSource
  | .loadState => s.state
  | .saveState _ => s.save n
  | .openSerial _ _ => Except.ok ()
  | .version => Except.ok "V 1.67 CUL868"
  | .enterBootloader => Except.ok ()
  | .setLed _ => Except.ok ()
  | .uptimeTicks => Except.ok (0 : ℕ)
  | .mbusMode => Except.ok "OFF"
  | .closeSerial => Except.ok ()
  | .dfuAvailable => true
  | .dfu _ _ _ => s.dfu n
  | .request .post _ => s.post n
  | .request .get _ => HttpOutcome.response 0 (some (.obj [("result", .str "ok"),
      ("data", .obj [("addons", .arr s.addons), ("state", .str "stopped")])]))

end Cul868Flasher
