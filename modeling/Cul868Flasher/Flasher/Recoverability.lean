import Cul868Flasher.Effects.Discipline
import Cul868Flasher.Flasher.Authorization
import Cul868Flasher.Flasher.ConfiguredPath
import Cul868Flasher.Flasher.Status
import Mathlib.Algebra.Order.BigOperators.Group.List
import Mathlib.Data.Nat.Digits.Defs

/-!
# Taking up an interrupted flash

From the first `B01` or DFU command until the new application is verified, the
record on disk is one that is short enough to be read again. If the device is
found in its bootloader at the path of the record, planning chooses its recovery
without asking the operator.
-/

namespace Cul868Flasher
open Python Effects

/-! ## The size of the record -/

theorem mem_intersperse {α : Type} {sep x : α} {xs : List α} (h : x ∈ xs.intersperse sep) :
    x = sep ∨ x ∈ xs := by
  induction xs with
  | nil => cases h
  | cons y ys ih =>
    cases ys with
    | nil => exact .inr h
    | cons z zs =>
      rw [List.intersperse_cons_cons, List.mem_cons, List.mem_cons] at h
      rcases h with rfl | rfl | h
      · exact .inr (by simp)
      · exact .inl rfl
      · exact (ih h).imp id (List.mem_cons_of_mem _)

theorem mem_splitOn {α : Type} [DecidableEq α] (sep : α) {c : α} {cs : List α} (h : c ∈ cs) :
    c = sep ∨ ∃ part ∈ cs.splitOn sep, c ∈ part := by
  have hcs : cs = List.intercalate [sep] (cs.splitOn sep) := (List.intercalate_splitOn sep).symm
  rw [hcs, List.intercalate, List.mem_flatten] at h
  obtain ⟨part, hpart, hc⟩ := h
  rcases mem_intersperse hpart with rfl | hpart
  · exact .inl (List.mem_singleton.mp hc)
  · exact .inr ⟨part, hpart, hc⟩

theorem isPortNumber_printable {cs : List Char} (h : isPortNumber cs = true) :
    ∀ c ∈ cs, isPrintable c = true := by
  have hdigit : ∀ {c : Char}, 48 ≤ c.toNat → c.toNat ≤ 57 → isPrintable c = true := by
    intro c hlow hhigh
    simp only [isPrintable, Bool.and_eq_true, decide_eq_true_eq]
    omega
  cases cs with
  | nil => cases h
  | cons first rest =>
    simp only [isPortNumber, Bool.and_eq_true, decide_eq_true_eq, List.all_eq_true] at h
    obtain ⟨⟨hone, hnine⟩, hrest⟩ := h
    rintro c (_ | ⟨_, hc⟩)
    · have hlow : 49 ≤ first.toNat := hone
      exact hdigit (by omega) hnine
    · exact hdigit (hrest c hc).1 (hrest c hc).2

theorem isTopology_printable {topology : String} (h : isTopology topology = true) :
    ∀ c ∈ topology.toList, isPrintable c = true := by
  intro c hc
  rw [isTopology] at h
  split at h
  · rename_i bus ports hsplit
    obtain ⟨hbus, hports⟩ := Bool.and_eq_true_iff.mp h
    rcases mem_splitOn '-' hc with rfl | ⟨part, hpart, hc⟩
    · decide
    rw [hsplit] at hpart
    rcases List.mem_pair.mp hpart with rfl | rfl
    · exact isPortNumber_printable hbus c hc
    · rcases mem_splitOn '.' hc with rfl | ⟨port, hport, hc⟩
      · decide
      · exact isPortNumber_printable (List.all_eq_true.mp hports port hport) c hc
  · cases h

theorem length_escapeChar_printable {c : Char} (h : isPrintable c = true) :
    (Json.escapeChar c).length ≤ 2 := by
  have hrange : 32 ≤ c.toNat ∧ c.toNat ≤ 126 := by simpa [isPrintable] using h
  unfold Json.escapeChar
  split_ifs <;> simp

theorem length_escapeChar_ascii {c : Char} (h : c.toNat < 128) :
    (Json.escapeChar c).length ≤ 6 := by
  unfold Json.escapeChar
  split_ifs <;> first | omega | simp [Json.escapeUnit]

theorem jsonTextSize_le {s : String} {n : ℕ} (h : ∀ c ∈ s.toList, (Json.escapeChar c).length ≤ n) :
    jsonTextSize s ≤ 2 + s.length * n := by
  have hsum := List.sum_le_card_nsmul (s.toList.map fun c => (Json.escapeChar c).length) n
    (fun x hx => by
      obtain ⟨c, hc, rfl⟩ := List.mem_map.mp hx
      exact h c hc)
  rw [List.length_map, String.length_toList, Nat.nsmul_eq_mul] at hsum
  exact Nat.add_le_add_left hsum 2

theorem optionTextSize_le {value : Option String} {m n : ℕ} (h : ∀ s ∈ value,
    (∀ c ∈ s.toList, (Json.escapeChar c).length ≤ n) ∧ s.length * n ≤ m) :
    optionTextSize value ≤ max 4 (2 + m) := by
  cases value with
  | none => exact le_max_left 4 _
  | some s =>
    obtain ⟨hescape, hlength⟩ := h s rfl
    exact ((jsonTextSize_le hescape).trans (by omega)).trans (le_max_right 4 _)

theorem safeOptionalText_bound {value : Json} {maximum : ℕ} {s : String}
    (h : s ∈ safeOptionalText value maximum) :
    s.length ≤ maximum ∧ ∀ c ∈ s.toList, isPrintable c = true := by
  cases value with
  | str text =>
    simp only [safeOptionalText, Option.mem_def] at h
    split_ifs at h with hsafe
    cases h
    simp only [isSafeText, Bool.and_eq_true, decide_eq_true_eq, List.all_eq_true] at hsafe
    exact ⟨hsafe.1.2, hsafe.2⟩
  | _ => cases h

theorem safeOptionalDevicePath_bound {value : Json} {s : String}
    (h : s ∈ safeOptionalDevicePath value) : s.length ≤ 512 ∧ ∀ c ∈ s.toList, c.toNat < 128 := by
  cases value with
  | str text =>
    simp only [safeOptionalDevicePath, Option.mem_def] at h
    split_ifs at h with hsafe
    cases h
    exact ⟨hsafe.2.1, by simpa using hsafe.2.2.1⟩
  | _ => cases h

/-- The length of a file name on Linux. -/
def nameLimit : ℕ := 255

namespace KnownDevice
variable {d : KnownDevice}

/-- A record without a version is short enough to be read, whatever its path is. -/
theorem storedSize_le (hstorable : d.Storable) (hversion : d.version = none)
    (hname : d.topology.length ≤ nameLimit) : d.storedSize ≤ maxStateBytes := by
  have htopology : jsonTextSize d.topology ≤ 2 + 255 * 2 := by
    refine (jsonTextSize_le fun c hc => length_escapeChar_printable
      (isTopology_printable hstorable.topology c hc)).trans ?_
    have := Nat.mul_le_mul_right 2 hname
    rw [nameLimit] at this
    omega
  have hserial : optionTextSize d.normalize.usbSerial ≤ max 4 (2 + 128 * 2) := by
    refine optionTextSize_le (n := 2) fun s hs => ?_
    obtain ⟨hlength, hprintable⟩ := safeOptionalText_bound hs
    refine ⟨fun c hc => length_escapeChar_printable (hprintable c hc), ?_⟩
    exact Nat.mul_le_mul_right 2 hlength
  have hdevice : optionTextSize d.normalize.configuredDevice ≤ max 4 (2 + 512 * 6) := by
    refine optionTextSize_le (n := 6) fun s hs => ?_
    obtain ⟨hlength, hascii⟩ := safeOptionalDevicePath_bound hs
    refine ⟨fun c hc => length_escapeChar_ascii (hascii c hc), ?_⟩
    exact Nat.mul_le_mul_right 6 hlength
  have hnone : optionTextSize d.normalize.version = 4 := by
    simp [normalize, hversion, optionJson, safeOptionalText, optionTextSize]
  have hbinding : jsonTextSize d.recoveryBinding.text ≤ 22 := by
    cases d.recoveryBinding <;> decide
  have hdeadline : (d.normalize.handoffDeadline.elim 4 fun n => (toString n).length) ≤ 10 := by
    unfold normalize
    split_ifs with hpending
    · obtain ⟨n, hn, hlow, hhigh⟩ := hstorable.handoffDeadline hpending
      obtain ⟨n, rfl⟩ := Int.eq_ofNat_of_zero_le hlow
      rw [hn, Option.elim_some]
      change (Nat.repr n).length ≤ 10
      exact Nat.repr_length n 10 (by decide) (by omega)
    · exact show 4 ≤ 10 by decide
  unfold storedSize maxStateBytes
  omega

end KnownDevice

/-! ## Planning after an interruption -/

namespace Flasher

/-- The device of the record `d` is no application on the configured path but a
bootloader on the path of the record. Another serial than that of the record is one
that a handoff may have brought, within its time. -/
def isStranded (settings : Settings) (d : KnownDevice) : (o : World.Op) → World.Ans o → Bool
  | .usb (.configuredApplication device), fs =>
    let fs : Sysfs := fs
    !(fs.configuredApplication device).isOk
  | .usb (.bootloaderForTopology topology), fs =>
    let fs : Sysfs := fs
    match fs.bootloaderForTopology topology with
    | .ok (some b) => !hasChangedUsbSerial d b || d.recoveryBinding = .handoffPending
    | _ => false
  | .time, now =>
    let now : ℚ := now
    d.handoffDeadline.all fun deadline =>
      0 ≤ deadline - truncate now && deadline - truncate now ≤ postDfuTimeout settings
  | _, _ => true

/-- What planning sees then, while `state` is the state file. -/
def stranded (settings : Settings) (state : StateRead) (d : KnownDevice) :
    Discipline World Unit where
  allows _ _ := True
  trusts _ o a := isStranded settings d o a = true ∧
    ∀ read, (⟨.loadState, read⟩ : Event World) = ⟨o, a⟩ → read = state
  after _ _ _ := ()

variable {settings : Settings} {state : StateRead} {d : KnownDevice}

/-- The bootloader of the record is found. -/
theorem follows_bootloaderForKnown (hpending : d.recoveryBinding = .handoffPending →
    d.handoffDeadline ≠ none) : Follows (stranded settings state d)
      (fun found _ => ∃ b, b.topology = d.topology ∧ found = some b) (fun _ _ => False)
      (bootloaderForKnown settings d) () := by
  refine Follows.bind (R := fun found _ => ∃ b, b.topology = d.topology ∧ found = some b ∧
    (hasChangedUsbSerial d b = true → d.recoveryBinding = .handoffPending)) ?_ ?_
  · refine Follows.catching_bind
      (R := fun found _ => ∃ b, b.topology = d.topology ∧ found = some b ∧
        (hasChangedUsbSerial d b = true → d.recoveryBinding = .handoffPending))
      (F := fun _ _ => False)
      (Follows.step trivial fun (fs : Sysfs) hfs => ?_) (fun _ _ h => .pure h)
      (fun _ _ _ h => h.elim) fun _ _ _ h => h
    have hseen : isStranded settings d (.usb (.bootloaderForTopology d.topology)) fs = true := hfs.1
    simp only [isStranded] at hseen
    split at hseen
    · rename_i b hb
      rw [hb]
      refine .ret ⟨b, (Sysfs.singleTarget_some hb).2.1, rfl, fun hchanged => ?_⟩
      simpa [hchanged] using hseen
    · cases hseen
  · rintro _ _ ⟨b, htopology, rfl, hserial⟩
    dsimp only
    by_cases hchanged : hasChangedUsbSerial d b = true
    · rw [if_pos hchanged]
      have hbinding := hserial hchanged
      obtain ⟨deadline, hdeadline⟩ := Option.ne_none_iff_exists'.mp (hpending hbinding)
      refine Follows.bind (R := fun current _ => current = true)
        (Follows.step trivial fun (now : ℚ) hnow => ?_) fun current _ hcurrent => ?_
      · have hwindow : isStranded settings d .time now = true := hnow.1
        simp only [isStranded, hdeadline, Option.all_some, Bool.and_eq_true,
          decide_eq_true_eq] at hwindow
        obtain ⟨hlow, hhigh⟩ := hwindow
        rw [hdeadline]
        exact .pure (by simp only [hbinding, hlow, hhigh, decide_true, Bool.and_true])
      · rw [hcurrent]
        exact .pure ⟨b, htopology, rfl⟩
    · rw [if_neg hchanged]
      exact .pure ⟨b, htopology, rfl⟩

theorem follows_plan_stranded (allow : Bool) (hload : DeviceStateStore.decode state = .ok (some d))
    (hmatches : stateMatchesConfiguration settings d = true)
    (hpending : d.recoveryBinding = .handoffPending → d.handoffDeadline ≠ none) :
    Follows (stranded settings state d)
      (fun plan _ => ∃ b, b.topology = d.topology ∧
        plan = ⟨.recovery, d.topology, none, some b, some d, none⟩)
      (fun _ _ => False) (plan settings none allow) () := by
  refine Follows.bind (R := fun known _ => known = some d)
    (Follows.step trivial fun (read : StateRead) hread => ?_) ?_
  · obtain rfl : read = state := hread.2 read rfl
    rw [hload]
    exact .ret rfl
  rintro _ _ rfl
  rw [Option.filter_some, if_pos hmatches]
  refine Follows.catching_bind (R := fun _ _ => False)
    (F := fun e _ => e.isUsbTopologyError = true)
    (Follows.step trivial fun (fs : Sysfs) hfs => ?_) (fun _ _ h => h.elim) (fun e _ _ _ => ?_)
    fun e _ hother h => ?_
  · have hnone : isStranded settings d (.usb (.configuredApplication settings.device)) fs = true :=
      hfs.1
    cases hfound : fs.configuredApplication settings.device with
    | ok application =>
      simp only [isStranded, hfound] at hnone
      cases hnone
    | error e => exact .raise (Sysfs.configuredApplication_error hfound)
  · refine Follows.catching_bind (follows_bootloaderForKnown hpending) ?_ (fun _ _ _ h => h.elim)
      fun _ _ _ h => h
    rintro _ _ ⟨b, htopology, rfl⟩
    exact .pure ⟨b, htopology, rfl⟩
  · rw [h] at hother
    cases hother

end Flasher

/-- The record of a transition on the configured path. -/
structure KnownDevice.Transition (settings : Settings) (d : KnownDevice) : Prop where
  binding : d.recoveryBinding = .handoffPending ∨ d.recoveryBinding = .observedBootloader
  pending : d.recoveryBinding = .handoffPending → d.handoffDeadline ≠ none
  configured : ∀ settings' : Settings, settings'.device = settings.device →
    Flasher.stateMatchesConfiguration settings' d = true

/-- Where the device of a transition is stranded, planning recovers it. -/
theorem KnownDevice.Transition.recovers {settings settings' : Settings} {d : KnownDevice}
    {state : StateRead} {allow : Bool} {u : Trace World} {q : Outcome Exn FlashPlan}
    (h : d.Transition settings) (hload : DeviceStateStore.decode state = .ok (some d))
    (hsame : settings'.device = settings.device)
    (hplan : Run (Flasher.plan settings' none allow) u q) (hcut : q ≠ .cut)
    (hread : ∀ read, ⟨.loadState, read⟩ ∈ u → read = state)
    (hstranded : ∀ e ∈ u, Flasher.isStranded settings' d e.op e.ans = true) :
    ∃ b, b.topology = d.topology ∧
      q = .returned ⟨.recovery, d.topology, none, some b, some d, none⟩ := by
  have hfollows :=
    Flasher.follows_plan_stranded allow hload (h.configured settings' hsame) h.pending
  have htrusted : (Flasher.stranded settings' state d).Trusted () u := by
    refine Discipline.trusted_of_mem (fun e he _ => ?_) ()
    exact ⟨hstranded e he, fun read heq => hread read (heq ▸ he)⟩
  obtain ⟨-, hreturned, hraised⟩ := hfollows.run hplan htrusted
  cases q with
  | returned p =>
    obtain ⟨b, htopology, rfl⟩ := hreturned p rfl
    exact ⟨b, htopology, rfl⟩
  | raised e => exact (hraised e rfl).elim
  | cut => exact absurd rfl hcut

/-! ## The record of an interrupted flash -/

namespace PlannedRun
variable {settings : Settings} {image : HexImage} {manualRecovery : Option ManualRecoveryTarget}

/-- The last file that has been put in place is the record of the transition. -/
theorem durable_known (x : PlannedRun settings image manualRecovery) (hne : replaced x.after ≠ [])
    (hunverified : ∀ file ∈ replaced x.after, file.binding ≠ some .verifiedApplication) :
    ∃ file d, durable x.after = some file ∧ DeviceStateStore.encode d = .ok file ∧
      d.version = none ∧ d.configuredDevice = some (toString settings.device) ∧
      (d.recoveryBinding = .handoffPending ∨ d.recoveryBinding = .observedBootloader) := by
  obtain ⟨file, hfile⟩ := Option.ne_none_iff_exists'.mp
    (fun hnone => hne (List.getLast?_eq_none_iff.mp hnone) : durable x.after ≠ none)
  obtain ⟨u, -, hsave⟩ := Flasher.saveAllowed x.stepsAllowed (durable_mem hfile)
  rcases hsave with ⟨-, -, _, now, -, hencode⟩ | ⟨-, -, bootloader, _, _, -, -, hencode⟩ |
    ⟨hverified, -⟩
  · exact ⟨file, _, hfile, hencode, rfl, rfl, .inl rfl⟩
  · exact ⟨file, _, hfile, hencode, rfl, rfl, .inr rfl⟩
  · exact absurd hverified (hunverified file (durable_mem hfile))

/-- Once a DFU command has been run, that is the record of its bootloader. -/
theorem durable_bound (x : PlannedRun settings image manualRecovery) {call : DfuCall}
    (hcall : call ∈ dfuCalls x.after)
    (hunverified : ∀ file ∈ replaced x.after, file.binding ≠ some .verifiedApplication) :
    ∃ file target, durable x.after = some file ∧ call.bootloader.topology = target.topology ∧
      DeviceStateStore.encode (Flasher.observedBootloader settings target target.topology) =
        .ok file := by
  obtain ⟨w, e, z, hafter, he⟩ := exists_of_mem_dfuCalls hcall
  obtain ⟨target, ⟨u, selection, file, v, hw, -, -, hfile⟩, _, e', -, hfound, -⟩ :=
    (x.allowed w z e call hafter he).bound
  refine ⟨file, target, ?_, hfound.valid.2, hfile⟩
  have hsplit : x.after = (u ++ [selection]) ++ ⟨.saveState file, SaveOutcome.saved⟩ ::
      (v ++ e :: z) := by
    rw [hafter, hw]
    simp only [List.append_assoc, List.cons_append, List.nil_append]
  have hbinding : IsBinding ⟨.saveState file, SaveOutcome.saved⟩ := by
    rw [IsBinding, Op.kind, binding_encode hfile]
    rfl
  rw [hsplit]
  refine durable_of_last (Flasher.replaced_after_binding x.stepsAllowed hsplit hbinding
    fun file' hfile' => hunverified file' ?_)
  rw [hsplit, replaced_append, replaced_cons]
  exact List.mem_append_right _ (List.mem_append_right _ hfile')

end PlannedRun

/-- Nothing has been done to the device while the flash was planned. -/
theorem not_underway {t : Trace World} (h : ∀ e ∈ t, e.op.kind ∈ Flasher.planningKinds)
    {e : Event World} (he : e ∈ t) : ¬ (IsCommand e ∨ (dfuOf e).isSome) := by
  have hkind := h e he
  rintro (hcommand | hdfu)
  · rw [show e.op.kind = .bootloaderCommand from hcommand] at hkind
    exact absurd hkind (by decide)
  · rw [dfuOf_none fun hk => absurd (hk ▸ hkind) (by decide)] at hdfu
    cases hdfu

/-- A flash that has sent `B01` or has run a DFU command has put a record in place. -/
theorem PlannedRun.replaced_ne {settings : Settings} {image : HexImage}
    {manualRecovery : Option ManualRecoveryTarget} (x : PlannedRun settings image manualRecovery)
    (hunderway : ∃ e ∈ x.before ++ x.after, IsCommand e ∨ (dfuOf e).isSome)
    (hunverified : ∀ file ∈ replaced x.after, file.binding ≠ some .verifiedApplication) :
    replaced x.after ≠ [] := by
  obtain ⟨e, he, hkind⟩ := hunderway
  have hafter : e ∈ x.after := (List.mem_append.mp he).resolve_left fun hbefore =>
    not_underway x.before_uses hbefore hkind
  rcases hkind with hcommand | hdfu
  · obtain ⟨file, hfile, -⟩ := Flasher.command_handoff x.stepsAllowed hafter hcommand
    exact List.ne_nil_of_mem hfile
  · obtain ⟨call, hcall⟩ := Option.isSome_iff_exists.mp hdfu
    obtain ⟨file, -, hfile, -⟩ :=
      x.durable_bound (List.mem_filterMap.mpr ⟨e, hafter, hcall⟩) hunverified
    exact List.ne_nil_of_mem (durable_mem hfile)

/-- A transition record is read as it has been written. -/
theorem decode_durable {t : Trace World} {file : StateFile} {d : KnownDevice}
    (hfile : durable t = some file) (hencode : DeviceStateStore.encode d = .ok file)
    (hversion : d.version = none) (hname : d.topology.length ≤ nameLimit) (before : StateRead) :
    DeviceStateStore.decode (stateAfter before t) = .ok (some d.normalize) := by
  have hstorable := KnownDevice.storable_of_encode hencode
  have hsize := KnownDevice.storedSize_le hstorable hversion hname
  have hload := DeviceStateStore.loadsTo_file (r := .returned (some d.normalize)) hencode
  rw [if_pos hsize, DeviceStateStore.loadsTo_iff] at hload
  rw [stateAfter, hfile, Option.elim_some]
  rcases hload.mpr rfl with ⟨d', hdecode, heq⟩ | ⟨e, -, heq⟩
  · rw [hdecode, Outcome.returned.inj heq]
  · cases heq

/-- The last file that has been put in place, if it is the record of a transition. -/
theorem transition_durable {settings : Settings} {t : Trace World} {file : StateFile}
    {d : KnownDevice} (hsettings : settings.Admitted)
    (hascii : (toString settings.device).toList.all (fun c => c.toNat < 128) = true)
    (hfile : durable t = some file) (hencode : DeviceStateStore.encode d = .ok file)
    (hversion : d.version = none)
    (hdevice : d.configuredDevice = some (toString settings.device))
    (hbinding : d.recoveryBinding = .handoffPending ∨ d.recoveryBinding = .observedBootloader)
    (hname : ∀ file ∈ replaced t, ∀ d ∈ file.record, d.topology.length ≤ nameLimit) :
    d.normalize.Transition settings ∧
      ∀ before, DeviceStateStore.decode (stateAfter before t) = .ok (some d.normalize) := by
  have hlength : d.topology.length ≤ nameLimit :=
    hname file (durable_mem hfile) d.normalize (DeviceStateStore.record_encode hencode)
  refine ⟨⟨hbinding, fun hb => ?_, fun settings' hsame => ?_⟩,
    decode_durable hfile hencode hversion hlength⟩
  · obtain ⟨n, hn, -⟩ := (KnownDevice.storable_of_encode hencode).handoffDeadline hb
    rw [show d.normalize.handoffDeadline = d.handoffDeadline from if_pos hb, hn]
    exact Option.some_ne_none n
  · simp only [Flasher.stateMatchesConfiguration, KnownDevice.normalize, hdevice, optionJson,
      Option.elim_some, hsettings.device.safeOptionalDevicePath, hascii, hsame, if_true,
      decide_true]

/-- An interrupted or failed flash that has sent `B01` or has run a DFU command is
taken up by the next one: where the device of its record waits in its bootloader,
planning recovers it, whatever else is on the bus. -/
theorem interrupted_recovers {fuel : ℕ} {settings : Settings} {image : HexImage}
    {manualRecovery : Option ManualRecoveryTarget} {t : Trace World} {r : Outcome Exn FlashResult}
    (hsettings : settings.Admitted)
    (hascii : (toString settings.device).toList.all (fun c => c.toNat < 128) = true)
    (h : Run (Flasher.flash fuel settings image manualRecovery) t r)
    (hunderway : ∃ e ∈ t, IsCommand e ∨ (dfuOf e).isSome)
    (hunverified : ∀ file ∈ replaced t, file.binding ≠ some .verifiedApplication)
    (hname : ∀ file ∈ replaced t, ∀ d ∈ file.record, d.topology.length ≤ nameLimit) :
    ∃ d, (∀ before, DeviceStateStore.decode (stateAfter before t) = .ok (some d)) ∧
      (d.recoveryBinding = .handoffPending ∨ d.recoveryBinding = .observedBootloader) ∧
      (∀ call ∈ dfuCalls t, d.recoveryBinding = .observedBootloader ∧
        call.bootloader.topology = d.topology) ∧
      ∀ before settings' allow u q, settings'.device = settings.device →
        Run (Flasher.plan settings' none allow) u q → q ≠ .cut →
        (∀ read, ⟨.loadState, read⟩ ∈ u → read = stateAfter before t) →
        (∀ e ∈ u, Flasher.isStranded settings' d e.op e.ans = true) →
        ∃ b, b.topology = d.topology ∧
          q = .returned ⟨.recovery, d.topology, none, some b, some d, none⟩ := by
  rcases PlannedRun.of_run h with hplanning | ⟨x, -, -, rfl⟩
  · obtain ⟨e, he, hkind⟩ := hunderway
    exact absurd hkind (not_underway hplanning he)
  have hreplaced : replaced (x.before ++ x.after) = replaced x.after := by
    rw [replaced_append, replaced_planning x.before_uses, List.nil_append]
  have hcalls : dfuCalls (x.before ++ x.after) = dfuCalls x.after := by
    rw [dfuCalls_append, dfuCalls_planning x.before_uses, List.nil_append]
  have hdurable : durable (x.before ++ x.after) = durable x.after := by
    rw [durable, hreplaced]
    rfl
  rw [hreplaced] at hunverified hname
  obtain ⟨file, d, hfile, hencode, hversion, hdevice, hbinding⟩ :=
    x.durable_known (x.replaced_ne hunderway hunverified) hunverified
  obtain ⟨htransition, hload⟩ := transition_durable hsettings hascii (hdurable.trans hfile) hencode
    hversion hdevice hbinding (hreplaced ▸ hname)
  refine ⟨d.normalize, hload, hbinding, fun call hcall => ?_, fun before settings' allow u q hsame
    hplan hcut hread hstranded => htransition.recovers (hload before) hsame hplan hcut hread
      hstranded⟩
  rw [hcalls] at hcall
  obtain ⟨file', target, hfile', htopology, hencode'⟩ := x.durable_bound hcall hunverified
  obtain rfl : file = file' := Option.some.inj (hfile.symm.trans hfile')
  have hrecord := (DeviceStateStore.record_encode hencode).symm.trans
    (DeviceStateStore.record_encode hencode')
  rw [Option.some.inj hrecord]
  exact ⟨rfl, htopology⟩

/-- The record that the lost handoff has left. -/
def lostRecord : KnownDevice :=
  ⟨"1-1", some "A", none, some "/dev/ttyACM0", .handoffPending, some 90⟩

theorem interrupted_recovers_restart : ∃ b, Flasher.hasChangedUsbSerial lostRecord b = true ∧
    ((Flasher.plan restartSettings none false).exec (I := World) restartScript.answer 0).2 =
      .returned ⟨.recovery, "1-1", none, some b, some lostRecord, none⟩ := by
  have hrun : Run (Flasher.flash 2 PlannedRun.qemuSettings sampleImage none) lostHandoff
      ((Flasher.flash 2 PlannedRun.qemuSettings sampleImage none).exec (I := World)
        lostHandoffAnswer 0).2 := by
    unfold lostHandoff
    exact Run.of_exec (I := World) _ _ _
  have hunderway : lostHandoff.any fun e => decide (IsCommand e) := by decide +kernel
  obtain ⟨e, he, hcommand⟩ := List.any_eq_true.mp hunderway
  have hfiles : (replaced lostHandoff).all fun file =>
      decide (file.binding ≠ some .verifiedApplication) &&
        file.record.all fun d => decide (d.topology.length ≤ nameLimit) := by
    decide +kernel
  have hfile := fun file hfile => Bool.and_eq_true_iff.mp (List.all_eq_true.mp hfiles file hfile)
  obtain ⟨d, hload, -, -, hplan⟩ := interrupted_recovers qemuSettings_admitted (by decide +kernel)
    hrun ⟨e, he, .inl (of_decide_eq_true hcommand)⟩
    (fun file h => of_decide_eq_true (hfile file h).1)
    (fun file h d hd => of_decide_eq_true ((Option.all_eq_true _ _).mp (hfile file h).2 d hd))
  have hdecode : (DeviceStateStore.decode (stateAfter .missing lostHandoff)).toOption.join =
      some lostRecord := by
    decide +kernel
  rw [hload .missing] at hdecode
  obtain rfl : d = lostRecord := Option.some.inj hdecode
  let run := (Flasher.plan restartSettings none false).exec (I := World) restartScript.answer 0
  have hreturned : run.2.result.isSome = true := by decide +kernel
  have hstranded : run.1.all fun e => Flasher.isStranded restartSettings lostRecord e.op e.ans := by
    decide +kernel
  obtain ⟨b, -, hb⟩ := hplan .missing restartSettings false run.1 run.2 rfl
    (Run.of_exec (I := World) _ _ _) (fun hcut => by rw [hcut] at hreturned; cases hreturned)
    (fun read hread => by
      obtain ⟨n, hn⟩ := Prog.exec_answers hread
      exact hn)
    (fun e he => List.all_eq_true.mp hstranded e he)
  refine ⟨b, ?_, hb⟩
  have hchanged :
      run.2.result.any fun p => p.bootloader.any (Flasher.hasChangedUsbSerial lostRecord) := by
    decide +kernel
  rw [hb] at hchanged
  exact hchanged

end Cul868Flasher
