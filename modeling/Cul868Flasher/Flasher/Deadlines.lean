import Cul868Flasher.Effects.Lowering
import Cul868Flasher.Flasher.Targeting
import Cul868Flasher.Flasher.Waits

/-!
# The three waits of the flasher

A pass of the loop keeps count of the polls against the time since the start. The
checks that end a wait raise between a lookup and the pause that would follow it.
-/

namespace Cul868Flasher
open Python Effects WaitRules

variable {α : Type}

/-! ## Parts that always end -/

theorem total_usb {call : UsbCall} {f : Sysfs → Except Exn α} :
    Total (usb call >>= fun fs => .ofExcept (f fs) : Program α) :=
  (Total.perform _).andThen fun _ => .ofExcept _

namespace CulSerial

/-- A command to the serial device is one call. -/
theorem total_command {o : World.Op} {f : World.Ans o → Except ε α} :
    Total (Prog.perform o >>= fun answer => .ofExcept (f answer) : Prog World ε α) :=
  (Total.perform _).andThen fun _ => .ofExcept _

theorem total_session {device : Path} {baudrate : ℕ} {block : Program α} (h : Total block) :
    Total (session device baudrate block) :=
  Total.andThen total_command fun _ => h.ensuring fun _ => total_command

end CulSerial

namespace Flasher

theorem total_waitHint {call : UsbCall} {f : Sysfs → Except Exn (List UsbTarget)} {qemu : Bool}
    {topology label lastError : String} :
    Total (waitHint qemu (usb call >>= fun fs => .ofExcept (f fs)) topology label lastError) := by
  cases qemu with
  | true => exact .pure _
  | false =>
    refine (total_usb.catching _).andThen fun found => ?_
    match found with
    | .error _ => trivial
    | .ok [] => trivial
    | .ok [target] =>
      dsimp only
      split <;> trivial
    | .ok (_ :: _ :: _) => trivial

/-! ## The exceptions that are not waited out -/

def refusalOf : Except Exn α → Option Exn
  | .ok _ => none
  | .error e => some e

/-- What `singleReenumeratedTarget` makes of the targets it is given. -/
def reenumerated (expected : Option String) (label : String) (allow : Bool) :
    Except Exn (List UsbTarget) → Except Exn (Option UsbTarget)
  | .error e => .error (if e.isUsbTopologyError then
      .flashError s!"could not inspect {label} after QEMU re-enumeration: {e}" else e)
  | .ok [] => .ok none
  | .ok [target] => (requireExpectedUsbSerial target expected
      s!"{label} on changed guest USB path" allow).map fun _ => some target
  | .ok targets => .error (.flashError (
      s!"found {targets.length} {label} targets during QEMU guest USB re-enumeration " ++
        s!"({joinTopologies targets}); refusing to choose one"))

/-- The part of `singleReenumeratedTarget` that follows the lookup. -/
theorem catching_reenumerated (expected : Option String) (label : String) (allow : Bool)
    (x : Except Exn (List UsbTarget)) :
    singleReenumeratedTarget (.ofExcept x) expected label allow =
      .ofExcept (reenumerated expected label allow x) := by
  cases x with
  | error e =>
    cases he : e.isUsbTopologyError with
    | true =>
      simp [singleReenumeratedTarget, Prog.ofExcept, Prog.catching, Prog.attempt, he, reenumerated,
        bind, Prog.bind]
    | false =>
      simp [singleReenumeratedTarget, Prog.ofExcept, Prog.catching, Prog.attempt, he, reenumerated,
        bind, Prog.bind]
  | ok targets =>
    match targets with
    | [] => rfl
    | [target] =>
      change ((Prog.ofExcept (requireExpectedUsbSerial target expected _ allow)).bind _) = _
      cases h : requireExpectedUsbSerial target expected
        s!"{label} on changed guest USB path" allow with
      | ok u => simp [reenumerated, h, Except.map, Prog.ofExcept, Prog.bind, pure]
      | error e => simp [reenumerated, h, Except.map, Prog.ofExcept, Prog.bind]
    | _ :: _ :: _ => rfl

theorem singleReenumeratedTarget_eq {call : UsbCall} {f : Sysfs → Except Exn (List UsbTarget)}
    (expected : Option String) (label : String) (allow : Bool) :
    singleReenumeratedTarget (usb call >>= fun fs => .ofExcept (f fs)) expected label allow =
      (usb call >>= fun fs => .ofExcept (reenumerated expected label allow (f fs))) :=
  congrArg (Prog.call (I := World) (.usb call))
    (funext fun fs => catching_reenumerated expected label allow (f fs))

/-- A run of `singleReenumeratedTarget` that raises is one lookup. -/
theorem singleReenumeratedTarget_raised {call : UsbCall}
    {f : Sysfs → Except Exn (List UsbTarget)} {expected : Option String} {label : String}
    {allow : Bool} {t : Trace World} {e : Exn}
    (h : Run (singleReenumeratedTarget (usb call >>= fun fs => .ofExcept (f fs)) expected label
      allow) t (.raised e)) :
    ∃ fs, t = [usbEvent call fs] ∧ reenumerated expected label allow (f fs) = .error e := by
  rw [singleReenumeratedTarget_eq] at h
  cases h with
  | call fs h =>
    change Run (Prog.ofExcept (reenumerated expected label allow (f fs))) _ _ at h
    cases hx : reenumerated expected label allow (f fs) with
    | ok a =>
      rw [hx] at h
      cases h
    | error e' =>
      rw [hx] at h
      cases h
      exact ⟨fs, rfl, hx⟩

/-- What `singleReenumeratedTarget` raises in a pass is the refusal of its lookup. -/
theorem follows_reenumerated {R : WaitRules} {call : UsbCall}
    {f : Sysfs → Except Exn (List UsbTarget)} {w : Wait} {start now : ℚ} {n : ℕ}
    {expected : Option String} {label : String} {allow : Bool} (hw : w.Shows start now n)
    (hcall : call ≠ R.poll) (hrefusal : ∀ fs : Sysfs,
      R.refusal w.found call fs = refusalOf (reenumerated expected label allow (f fs))) :
    Follows R.discipline (fun _ w' => w'.Shows start now n ∧ ∃ fs, w'.found = R.found call fs)
      (fun e w' => w'.LeftWith e)
      (singleReenumeratedTarget (usb call >>= fun fs => .ofExcept (f fs)) expected label allow)
      w := by
  rw [singleReenumeratedTarget_eq]
  refine (follows_lookup hw.unrefused fun h => absurd h hcall).conseq ?_ ?_
  · rintro found _ ⟨fs, hfs, rfl⟩
    exact ⟨hw.usb R _ (by rw [hrefusal, hfs, refusalOf]) hcall, fs, rfl⟩
  · rintro e _ ⟨fs, hfs, rfl⟩
    exact .inr ((hrefusal fs).trans (by rw [hfs, refusalOf]))

/-- The hint at the end of a wait looks once more, but never refuses. -/
theorem follows_waitHint {R : WaitRules} {call : UsbCall}
    {f : Sysfs → Except Exn (List UsbTarget)} {w : Wait} {qemu : Bool} {topology label : String}
    {lastError : String} (hw : w.refused = none) (hcall : call ≠ R.poll)
    (hrefusal : qemu = false → ∀ fs : Sysfs, R.refusal w.found call fs = none) :
    Follows R.discipline (fun _ w' => w'.refused = none) (fun _ w' => w'.refused = none)
      (waitHint qemu (usb call >>= fun fs => .ofExcept (f fs)) topology label lastError) w := by
  cases qemu with
  | true => exact .pure hw
  | false =>
    refine follows_catching hw (fun h => absurd h hcall) (fun fs targets _ => ?_)
      (fun fs e _ => .pure (hrefusal rfl fs)) fun fs e _ => hrefusal rfl fs
    match targets with
    | [] => exact .pure (hrefusal rfl fs)
    | [target] =>
      dsimp only
      split <;> exact .pure (hrefusal rfl fs)
    | _ :: _ :: _ => exact .pure (hrefusal rfl fs)

/-- Neither the clock nor the bus is asked. -/
theorem follows_apart {R : WaitRules} {ks : List OpKind} {p : Program α} {w : Wait}
    (hks : .clock ∉ ks ∧ .sleep ∉ ks ∧ .usb ∉ ks) (hp : Uses ks p) (hw : w.refused = none) :
    Follows R.discipline (fun _ w' => w' = w) (fun _ w' => w' = w) p w := by
  obtain ⟨hclock, hsleep, husb⟩ := hks
  refine Follows.frame hp (fun o ho => ?_) fun o a ho => ?_
  · cases o with
    | sleep seconds => exact absurd ho hsleep
    | usb call => exact absurd ho husb
    | _ => exact hw
  · cases o with
    | monotonic => exact absurd ho hclock
    | sleep seconds => exact absurd ho hsleep
    | usb call => exact absurd ho husb
    | _ => rfl

/-! ## The bootloader -/

section Bootloader
variable (topology : String) (expected : Option String) (qemu allow : Bool)

/-- A check of `waitForBootloader` raises at what a poll has seen. -/
inductive BootloaderRefused : Trace World → Exn → Prop where
  | serial {fs : Sysfs} {target : UsbTarget} {e : Exn}
      (found : fs.bootloaderForTopology topology = .ok (some target))
      (raised : requireExpectedUsbSerial target expected "DFU device on the selected USB path"
        allow = .error e) :
      BootloaderRefused [usbEvent (.bootloaderForTopology topology) fs] e
  | reenumerated {t : Trace World} {e : Exn} (changed : qemu = true)
      (raised : Run (singleReenumeratedTarget UsbTopology.bootloaderTargets expected
        "CUL868 DFU bootloader" allow) t (.raised e)) :
      BootloaderRefused t e

def bootloaderRefusal : UsbCall → Sysfs → Option Exn
  | .bootloaderForTopology topology, fs =>
    match fs.bootloaderForTopology topology with
    | .ok (some target) => refusalOf
        (requireExpectedUsbSerial target expected "DFU device on the selected USB path" allow)
    | _ => none
  | .bootloaderTargets, fs =>
    if qemu then
      refusalOf (reenumerated expected "CUL868 DFU bootloader" allow fs.bootloaderTargets)
    else none
  | _, _ => none

def bootloaderRules (timeout : ℚ) : WaitRules where
  poll := .bootloaderForTopology topology
  timeout := timeout
  overrun := 1 / 4
  most := ⌈4 * timeout⌉₊
  found _ _ := none
  refusal _ := bootloaderRefusal expected qemu allow

variable {topology expected qemu allow} {timeout start : ℚ} {w : Wait}

theorem BootloaderRefused.refusal {seen : Trace World} {e : Exn}
    (h : BootloaderRefused topology expected qemu allow seen e) :
    ((bootloaderRules topology expected qemu allow timeout).discipline.over w seen).refused =
      some e := by
  cases h with
  | @serial fs target e found raised =>
    change bootloaderRefusal expected qemu allow (.bootloaderForTopology topology) fs = some e
    simp only [bootloaderRefusal, found, raised, refusalOf]
  | reenumerated changed raised =>
    obtain ⟨fs, rfl, hfs⟩ := singleReenumeratedTarget_raised raised
    change bootloaderRefusal expected qemu allow .bootloaderTargets fs = some e
    simp only [bootloaderRefusal, changed, hfs, refusalOf, if_true]

/-- Four polls a second, since a pause takes a quarter of it. -/
def BootloaderHead (start : ℚ) (w : Wait) : Prop :=
  w.refused = none ∧ w.start = some start ∧ (w.polls : ℚ) ≤ 4 * (w.now - start)

theorem waitForBootloaderStep_follows (lastError : String) (hw : BootloaderHead start w) :
    Follows (bootloaderRules topology expected qemu allow timeout).discipline
      (Pass (bootloaderRules topology expected qemu allow timeout) (BootloaderHead start)
        (fun _ w => w.refused = none) w)
      (fun e w => w.LeftWith e)
      (waitForBootloaderStep topology expected (start + timeout) qemu allow lastError) w := by
  obtain ⟨hrefused, hstart, hpolls⟩ := hw
  refine Follows.step hrefused fun (now : ℚ) (hnow : w.now ≤ now) => ?_
  have hshows := Wait.shows_read (R := bootloaderRules topology expected qemu allow timeout)
    hrefused hstart now
  split
  · rename_i hdeadline
    have hlt : w.polls < ⌈4 * timeout⌉₊ := Nat.lt_ceil.mpr (by linarith)
    -- nothing reads the clock between the poll and the pause
    have hpause {w' : Wait} (lastError : String) (hw' : w'.Shows start now (w.polls + 1)) :
        Follows (bootloaderRules topology expected qemu allow timeout).discipline
          (Pass (bootloaderRules topology expected qemu allow timeout) (BootloaderHead start)
            (fun _ w => w.refused = none) w)
          (fun e w => w.LeftWith e) (sleep pollSeconds >>= fun _ => pure (.inl lastError) :
            Program (String ⊕ Except String UsbTarget)) w' := by
      refine follows_pause hw' (by norm_num [pollSeconds]) ?_ ⟨⟨hw'.unrefused, hw'.started, ?_⟩, ?_⟩
      · simp only [bootloaderRules, pollSeconds]
        linarith
      · rw [hw'.polled]
        push_cast [pollSeconds]
        linarith
      · rw [hw'.polled]
        exact ⟨Nat.lt_succ_self _, hlt⟩
    refine follows_catching hrefused (fun _ => hlt) (fun fs found hfs => ?_) (fun fs e hfs => ?_)
      fun fs e hfs => ?_
    · cases found with
      | some bootloader =>
        refine Follows.bind (R := fun _ (w : Wait) => w.refused = none) (Follows.ofExcept
          (fun _ hok => ?_) fun e he => ?_) fun _ _ hw => .pure hw
        · simp [bootloaderRules, bootloaderRefusal, hfs, hok, refusalOf]
        · exact .inr (by simp [bootloaderRules, bootloaderRefusal, hfs, he, refusalOf])
      | none =>
        have hpolled := hshows.poll (bootloaderRules topology expected qemu allow timeout) fs
          (show bootloaderRefusal expected qemu allow (.bootloaderForTopology topology) fs = none by
            simp [bootloaderRefusal, hfs])
        dsimp only
        split
        · rename_i hqemu
          refine (follows_reenumerated hpolled ?_ fun fs => ?_).bind fun reenumerated w' hw' => ?_
          · exact nofun
          · simp [bootloaderRules, bootloaderRefusal, hqemu]
          · cases reenumerated with
            | some bootloader => exact .pure hw'.1.unrefused
            | none => exact hpause _ hw'.1
        · exact hpause _ hpolled
    · exact hpause _ (hshows.poll _ _ (by simp [bootloaderRules, bootloaderRefusal, hfs]))
    · exact .inl (by simp [bootloaderRules, bootloaderRefusal, hfs])
  · exact .pure hrefused

theorem total_waitForBootloaderStep (deadline : ℚ) (lastError : String) :
    Total (waitForBootloaderStep topology expected deadline qemu allow lastError) := by
  refine (Total.perform _).andThen fun (now : ℚ) => ?_
  have hpause (lastError : String) : Total (sleep pollSeconds >>= fun _ => pure (.inl lastError) :
      Program (String ⊕ Except String UsbTarget)) := (Total.perform _).andThen fun _ => .pure _
  split
  · refine (total_usb.catching _).andThen fun found => ?_
    split
    · exact hpause _
    · exact (Total.ofExcept _).andThen fun _ => .pure _
    · split
      · rw [UsbTopology.bootloaderTargets, singleReenumeratedTarget_eq]
        refine total_usb.andThen fun reenumerated => ?_
        cases reenumerated with
        | some bootloader => exact .pure _
        | none => exact hpause _
      · exact hpause _
  · exact .pure _

theorem waitForBootloader_bounded (settings : Settings) (topology : String)
    (expected : Option String) (timeout : Option ℤ) (qemu allow : Bool) :
    BoundedWait
      (fun fuel => waitForBootloader fuel settings topology expected timeout qemu allow)
      (.bootloaderForTopology topology) (timeout.getD settings.bootTimeout : ℤ) (1 / 4)
      ⌈4 * ((timeout.getD settings.bootTimeout : ℤ) : ℚ)⌉₊
      (BootloaderRefused topology expected qemu allow) := by
  let R := bootloaderRules topology expected qemu allow (timeout.getD settings.bootTimeout : ℤ)
  have hhead (now start : ℚ) :
      BootloaderHead start (R.discipline.after (.begin now) .monotonic start) :=
    ⟨rfl, rfl, by simp [Wait.begin]⟩
  refine WaitRules.bounded (R := R) (fun fuel now hfuel => ?_) (fun fuel now => ?_)
    fun _ _ _ h => h.refusal
  · intro start _
    refine (loop_ends (fun s w hw => waitForBootloaderStep_follows s hw)
      (total_waitForBootloaderStep _) hfuel (hhead now start)).andThen fun found w => ?_
    cases found with
    | ok bootloader => exact .pure _
    | error lastError => exact .of_total (total_waitHint.andThen fun _ => trivial)
  · refine Follows.step rfl fun start _ => ?_
    refine (loop_follows (fun s w hw => waitForBootloaderStep_follows s hw) fuel
      (hhead now start)).bind fun found w hw => ?_
    cases found with
    | ok bootloader => exact .pure hw
    | error lastError =>
      refine ((follows_waitHint hw ?_ fun hqemu fs => ?_).conseq (fun _ _ h => h)
        fun _ _ h => Or.inl h).bind fun lastError w hw => .raise (Or.inl hw)
      · intro hcall
        cases hcall
      · simp [bootloaderRules, bootloaderRefusal, hqemu]

end Bootloader

/-! ## The application -/

section Application
variable (topology : String) (expected : Option String) (qemu allow : Bool)

/-- A check of `waitForApplicationVersion` raises at what a poll has seen. -/
inductive ApplicationRefused : Trace World → Exn → Prop where
  | serial {fs fs' : Sysfs} {application : UsbTarget} {device : Path} {e : Exn}
      (found : fs.applicationForTopology topology = .ok (some application))
      (endpoint : fs'.ttyForTopology topology = .ok (some device))
      (raised : requireExpectedUsbSerial application expected
        "CUL868 application on the selected USB path" allow = .error e) :
      ApplicationRefused [usbEvent (.applicationForTopology topology) fs,
        usbEvent (.ttyForTopology topology) fs'] e
  | reenumerated {t : Trace World} {e : Exn} (changed : qemu = true)
      (raised : Run (singleReenumeratedTarget UsbTopology.applicationTargets expected
        "CUL868 application" allow) t (.raised e)) :
      ApplicationRefused t e

def applicationFound : UsbCall → Sysfs → Option UsbTarget
  | .applicationForTopology topology, fs =>
    match fs.applicationForTopology topology with
    | .ok application => application
    | .error _ => none
  | _, _ => none

def applicationRefusal : Option UsbTarget → UsbCall → Sysfs → Option Exn
  | some application, .ttyForTopology topology, fs =>
    match fs.ttyForTopology topology with
    | .ok (some _) => refusalOf (requireExpectedUsbSerial application expected
        "CUL868 application on the selected USB path" allow)
    | _ => none
  | _, .applicationTargets, fs =>
    if qemu then refusalOf (reenumerated expected "CUL868 application" allow fs.applicationTargets)
    else none
  | _, _, _ => none

def applicationRules (timeout : ℚ) : WaitRules where
  poll := .applicationForTopology topology
  timeout := timeout
  overrun := 0
  most := ⌈timeout⌉₊
  found := applicationFound
  refusal := applicationRefusal expected qemu allow

variable {topology expected qemu allow} {timeout start now : ℚ} {n : ℕ} {w : Wait}

theorem applicationRefusal_targets (found : Option UsbTarget) (fs : Sysfs) :
    applicationRefusal expected qemu allow found .applicationTargets fs =
      if qemu then
        refusalOf (reenumerated expected "CUL868 application" allow fs.applicationTargets)
      else none := by
  cases found <;> rfl

theorem applicationRefusal_poll (found : Option UsbTarget) (fs : Sysfs) :
    applicationRefusal expected qemu allow found (.applicationForTopology topology) fs = none := by
  cases found <;> rfl

theorem ApplicationRefused.refusal {seen : Trace World} {e : Exn}
    (h : ApplicationRefused topology expected qemu allow seen e) :
    ((applicationRules topology expected qemu allow timeout).discipline.over w seen).refused =
      some e := by
  cases h with
  | @serial fs fs' application device e found endpoint raised =>
    change applicationRefusal expected qemu allow
      (applicationFound (.applicationForTopology topology) fs)
      (.ttyForTopology topology) fs' = some e
    simp only [applicationFound, found, applicationRefusal, endpoint, raised, refusalOf]
  | reenumerated changed raised =>
    obtain ⟨fs, rfl, hfs⟩ := singleReenumeratedTarget_raised raised
    change applicationRefusal expected qemu allow w.found .applicationTargets fs = some e
    rw [applicationRefusal_targets, if_pos changed, hfs, refusalOf]

/-- What both lookups on the path leave behind. -/
def OnPath (expected : Option String) (allow : Bool) (start now : ℚ) (n : ℕ) (w : Wait) :
    Option UsbTarget × Option Path → Prop
  | (some application, some _) =>
    w.refused = refusalOf (requireExpectedUsbSerial application expected
      "CUL868 application on the selected USB path" allow) ∧
    (w.refused = none → w.Shows start now n)
  | _ => w.Shows start now n

theorem applicationOnPath_follows (hw : w.Shows start now n) (hn : n < ⌈timeout⌉₊) :
    Follows (applicationRules topology expected qemu allow timeout).discipline
      (fun found w' => OnPath expected allow start now (n + 1) w' found)
      (fun _ w' => w'.Shows start now (n + 1)) (applicationOnPath topology) w := by
  refine Follows.bind ((follows_lookup hw.unrefused fun _ => ?_).conseq (fun _ _ h => h) ?_) ?_
  · rw [hw.polled]
    exact hn
  · rintro e _ ⟨fs, -, rfl⟩
    exact hw.poll _ _ (applicationRefusal_poll _ _)
  · rintro application _ ⟨fs, hfs, rfl⟩
    have hpolled := hw.poll (applicationRules topology expected qemu allow timeout) fs
      (applicationRefusal_poll _ _)
    have hfound : applicationFound (.applicationForTopology topology) fs = application := by
      simp only [applicationFound, hfs]
    have hnext {fs' : Sysfs} (hnone : applicationRefusal expected qemu allow application
        (.ttyForTopology topology) fs' = none) :
        ((w.after (applicationRules topology expected qemu allow timeout)
          (.usb (.applicationForTopology topology)) fs).after
            (applicationRules topology expected qemu allow timeout)
            (.usb (.ttyForTopology topology)) fs').Shows start now (n + 1) :=
      hpolled.usb _ fs' (by rw [← hnone, ← hfound]; rfl) nofun
    refine Follows.bind ((follows_lookup hpolled.unrefused ?_).conseq (fun _ _ h => h) ?_) ?_
    · exact nofun
    · rintro e _ ⟨fs', hfs', rfl⟩
      cases application with
      | none => exact hnext rfl
      | some application => exact hnext (by simp only [applicationRefusal, hfs'])
    · rintro device _ ⟨fs', hfs', rfl⟩
      refine .pure ?_
      cases application with
      | none => exact hnext rfl
      | some application =>
        cases device with
        | none => exact hnext (by simp only [applicationRefusal, hfs'])
        | some device =>
          have hrefusal : applicationRefusal expected qemu allow (some application)
              (.ttyForTopology topology) fs' = refusalOf (requireExpectedUsbSerial application
                expected "CUL868 application on the selected USB path" allow) := by
            simp only [applicationRefusal, hfs']
          have hrefused : ((w.after (applicationRules topology expected qemu allow timeout)
              (.usb (.applicationForTopology topology)) fs).after
                (applicationRules topology expected qemu allow timeout)
                (.usb (.ttyForTopology topology)) fs').refused =
              refusalOf (requireExpectedUsbSerial application expected
                "CUL868 application on the selected USB path" allow) := by
            rw [← hrefusal, ← hfound]
            rfl
          exact ⟨hrefused, fun hnone => hnext (hrefusal.trans (hrefused.symm.trans hnone))⟩

theorem reenumeratedApplication_follows (hqemu : qemu = true) (hw : w.Shows start now n) :
    Follows (applicationRules topology expected qemu allow timeout).discipline
      (fun _ w' => w'.Shows start now n) (fun e w' => w'.LeftWith e)
      (reenumeratedApplication expected allow) w := by
  refine (follows_reenumerated hw ?_ fun fs => ?_).bind fun reenumerated w' hw' => ?_
  · exact nofun
  · change applicationRefusal expected qemu allow w.found .applicationTargets fs = _
    rw [applicationRefusal_targets, if_pos hqemu]
  · obtain ⟨hshows, fs, hfound⟩ := hw'
    cases reenumerated with
    | none => exact .pure hshows
    | some application =>
      -- the target of a changed path was not found by a poll
      have hnext {fs' : Sysfs} : (w'.after (applicationRules topology expected qemu allow timeout)
          (.usb (.ttyForTopology application.topology)) fs').Shows start now n :=
        hshows.usb _ fs' (by rw [hfound]; rfl) nofun
      refine follows_catching hshows.unrefused ?_ (fun fs' device _ => ?_) (fun fs' e _ => ?_)
        fun fs' e _ => ?_
      · exact nofun
      · cases device with
        | none => exact .pure hnext
        | some device => exact .pure hnext
      · exact .pure hnext
      · exact .inl hnext.unrefused

theorem findApplication_follows (hw : w.Shows start now n) (hn : n < ⌈timeout⌉₊) :
    Follows (applicationRules topology expected qemu allow timeout).discipline
      (fun _ w' => w'.Shows start now (n + 1)) (fun e w' => w'.LeftWith e)
      (findApplication topology expected qemu allow) w := by
  refine Follows.catching_bind (applicationOnPath_follows hw hn) (fun found w' hw' => ?_)
    (fun e w' _ hw' => .pure hw') fun e w' _ hw' => .inl hw'.unrefused
  have hfallback (hw' : w'.Shows start now (n + 1)) :
      Follows (applicationRules topology expected qemu allow timeout).discipline
        (fun _ w' => w'.Shows start now (n + 1)) (fun e w' => w'.LeftWith e)
        (if qemu = true then reenumeratedApplication expected allow
        else pure (none, "CUL application has not appeared")) w' := by
    split
    · rename_i hqemu
      exact reenumeratedApplication_follows hqemu hw'
    · exact .pure hw'
  match found with
  | (some application, some device) =>
    obtain ⟨hrefused, hshows⟩ := hw'
    refine Follows.bind (R := fun _ w => w.Shows start now (n + 1)) (Follows.ofExcept
      (fun _ hok => ?_) fun e he => ?_) fun _ _ hw => .pure hw
    · exact hshows (by rw [hrefused, hok, refusalOf])
    · exact .inr (by rw [hrefused, he, refusalOf])
  | (some application, none) => exact hfallback hw'
  | (none, device) => exact hfallback hw'

/-- A poll a second, until a pause reaches the deadline. -/
def ApplicationHead (timeout start : ℚ) (w : Wait) : Prop :=
  w.refused = none ∧ w.start = some start ∧
    ((w.polls : ℚ) ≤ w.now - start ∨ start + timeout ≤ w.now)

theorem sleepUntil_follows (hw : w.Shows start now (n + 1)) (hn : (n : ℚ) ≤ now - start) :
    Follows (applicationRules topology expected qemu allow timeout).discipline
      (fun _ w' => ApplicationHead timeout start w' ∧ w'.polls = n + 1) (fun e w' => w'.LeftWith e)
      (sleepUntil (start + timeout)) w := by
  refine Follows.step hw.unrefused fun (later : ℚ) (hlater : w.now ≤ later) => ?_
  rw [hw.present] at hlater
  have hshows := Wait.shows_read (R := applicationRules topology expected qemu allow timeout)
    hw.unrefused hw.started later
  rw [hw.polled] at hshows
  split
  · rename_i hleft
    refine Follows.perform ⟨hshows.unrefused, ?_, start, later, hshows.started, hshows.read, ?_⟩
      fun _ _ => ⟨⟨hshows.unrefused, hshows.started, ?_⟩, hshows.polled⟩
    · exact le_min (by norm_num [versionRetrySeconds]) hleft.le
    · have := min_le_right versionRetrySeconds (start + timeout - later)
      simp only [applicationRules]
      linarith
    · change ((w.polls : ℕ) : ℚ) ≤ later +
        min versionRetrySeconds (start + timeout - later) - start ∨
        start + timeout ≤ later + min versionRetrySeconds (start + timeout - later)
      rw [hw.polled]
      rcases le_total versionRetrySeconds (start + timeout - later) with h | h
      · rw [min_eq_left h]
        left
        push_cast [versionRetrySeconds]
        linarith
      · rw [min_eq_right h]
        right
        linarith
  · rename_i hleft
    refine .pure ⟨⟨hshows.unrefused, hshows.started, .inr ?_⟩, hshows.polled⟩
    change start + timeout ≤ later
    linarith

theorem waitForApplicationVersionStep_follows (baudrate : ℕ) (lastError : String)
    (hw : ApplicationHead timeout start w) :
    Follows (applicationRules topology expected qemu allow timeout).discipline
      (Pass (applicationRules topology expected qemu allow timeout) (ApplicationHead timeout start)
        (fun _ w => w.refused = none) w)
      (fun e w => w.LeftWith e)
      (waitForApplicationVersionStep topology expected (start + timeout) baudrate qemu allow
        lastError) w := by
  obtain ⟨hrefused, hstart, hpolls⟩ := hw
  refine Follows.step hrefused fun (now : ℚ) (hnow : w.now ≤ now) => ?_
  have hshows := Wait.shows_read (R := applicationRules topology expected qemu allow timeout)
    hrefused hstart now
  split
  · rename_i hdeadline
    have hpolls : (w.polls : ℚ) ≤ now - start := by
      rcases hpolls with h | h <;> linarith
    have hlt : w.polls < ⌈timeout⌉₊ := Nat.lt_ceil.mpr (by linarith)
    have hpause {w' : Wait} (lastError : String) (hw' : w'.Shows start now (w.polls + 1)) :
        Follows (applicationRules topology expected qemu allow timeout).discipline
          (Pass (applicationRules topology expected qemu allow timeout)
            (ApplicationHead timeout start) (fun _ w => w.refused = none) w)
          (fun e w => w.LeftWith e)
          (sleepUntil (start + timeout) >>= fun _ => pure (.inl lastError) :
            Program (String ⊕ Except String (UsbTarget × Path × String))) w' := by
      refine (sleepUntil_follows hw' hpolls).bind fun _ w'' hw'' => .pure ⟨hw''.1, ?_⟩
      rw [hw''.2]
      exact ⟨Nat.lt_succ_self _, hlt⟩
    refine (findApplication_follows hshows hlt).bind fun found w' hw' => ?_
    obtain ⟨target, lastError⟩ := found
    cases target with
    | none => exact hpause _ hw'
    | some target =>
      have hversion := follows_apart (R := applicationRules topology expected qemu allow timeout)
        (by decide)
        (readVersionOnce_uses (List.mem_singleton_self OpKind.session) target.2 baudrate)
        hw'.unrefused
      refine Follows.attempt_bind hversion ?_ ?_
      · rintro version _ rfl
        exact .pure hw'.unrefused
      · rintro e _ rfl
        exact hpause _ hw'
  · exact .pure hrefused

theorem total_findApplication : Total (findApplication topology expected qemu allow) := by
  have hpath : Total (applicationOnPath topology) :=
    total_usb.andThen fun _ => total_usb.andThen fun _ => .pure _
  have hmoved : Total (reenumeratedApplication expected allow) := by
    rw [reenumeratedApplication, UsbTopology.applicationTargets, singleReenumeratedTarget_eq]
    refine total_usb.andThen fun reenumerated => ?_
    cases reenumerated with
    | none => exact .pure _
    | some application =>
      refine (total_usb.catching _).andThen fun device => ?_
      split <;> trivial
  refine (hpath.catching _).andThen fun found => ?_
  split
  · exact .pure _
  · exact (Total.ofExcept _).andThen fun _ => .pure _
  · split
    · exact hmoved
    · exact .pure _

theorem total_waitForApplicationVersionStep (deadline : ℚ) (baudrate : ℕ) (lastError : String) :
    Total (waitForApplicationVersionStep topology expected deadline baudrate qemu allow
      lastError) := by
  have hpause (lastError : String) : Total (sleepUntil deadline >>= fun _ =>
      pure (.inl lastError) : Program (String ⊕ Except String (UsbTarget × Path × String))) := by
    refine Total.andThen ((Total.perform _).andThen fun (now : ℚ) => ?_) fun _ => .pure _
    split
    · exact Total.perform _
    · exact .pure _
  refine (Total.perform _).andThen fun (now : ℚ) => ?_
  split
  · refine total_findApplication.andThen fun found => ?_
    obtain ⟨target, lastError⟩ := found
    cases target with
    | none => exact hpause _
    | some target =>
      refine (CulSerial.total_session CulSerial.total_command).attempt.andThen fun version => ?_
      cases version with
      | ok version => exact .pure _
      | error e => exact hpause _
  · exact .pure _

theorem waitForApplicationVersion_bounded (topology : String) (expected : Option String)
    (timeout : ℚ) (baudrate : ℕ) (qemu allow : Bool) :
    BoundedWait
      (fun fuel => waitForApplicationVersion fuel topology expected timeout baudrate qemu allow)
      (.applicationForTopology topology) timeout 0 ⌈timeout⌉₊
      (ApplicationRefused topology expected qemu allow) := by
  let R := applicationRules topology expected qemu allow timeout
  have hhead (now start : ℚ) :
      ApplicationHead timeout start (R.discipline.after (.begin now) .monotonic start) :=
    ⟨rfl, rfl, .inl (by simp [Wait.begin])⟩
  refine WaitRules.bounded (R := R) (fun fuel now hfuel => ?_) (fun fuel now => ?_)
    fun _ _ _ h => h.refusal
  · intro start _
    refine (loop_ends (fun s w hw => waitForApplicationVersionStep_follows baudrate s hw)
      (total_waitForApplicationVersionStep _ _) hfuel (hhead now start)).andThen fun found w => ?_
    cases found with
    | ok verified => exact .pure _
    | error lastError => exact .of_total (total_waitHint.andThen fun _ => trivial)
  · refine Follows.step rfl fun start _ => ?_
    refine (loop_follows (fun s w hw => waitForApplicationVersionStep_follows baudrate s hw) fuel
      (hhead now start)).bind fun found w hw => ?_
    cases found with
    | ok verified => exact .pure hw
    | error lastError =>
      refine ((follows_waitHint hw ?_ fun hqemu fs => ?_).conseq (fun _ _ h => h)
        fun _ _ h => Or.inl h).bind fun lastError w hw => .raise (Or.inl hw)
      · intro hcall
        cases hcall
      · exact (applicationRefusal_targets _ _).trans (by simp [hqemu])

end Application

/-! ## The serial aliases -/

section Aliases
variable {device : Path} {start now : ℚ} {w : Wait}

def aliasRules (device : Path) : WaitRules where
  poll := .byIdPathsForTty device
  timeout := 15
  overrun := 0
  most := 16
  found _ _ := none
  refusal _ _ _ := none

/-- Fifteen pauses at most reach the deadline, after which one more poll follows. -/
def AliasHead (start : ℚ) (w : Wait) : Prop :=
  w.refused = none ∧ w.start = some start ∧ w.polls ≤ 15 ∧
    ((w.polls : ℚ) ≤ w.now - start ∨ start + 15 ≤ w.now)

theorem aliasPause_follows {next : AliasWait} {w' : Wait} (hw : (w.polls : ℚ) ≤ now - start)
    (hw' : w'.Shows start now (w.polls + 1)) (hleft : 0 < start + 15 - now) :
    Follows (aliasRules device).discipline
      (Pass (aliasRules device) (AliasHead start) (fun _ w => w.refused = none) w)
      (fun e w => w.LeftWith e)
      (sleep (min 1 (start + 15 - now)) >>= fun _ => pure (.inl next) :
        Program (AliasWait ⊕ List Path)) w' := by
  have hbound : w.polls < 15 := by
    have : (w.polls : ℚ) < 15 := by linarith
    exact_mod_cast this
  refine follows_pause hw' (le_min (by norm_num) hleft.le) ?_
    ⟨⟨hw'.unrefused, hw'.started, ?_, ?_⟩, ?_⟩
  · have := min_le_right 1 (start + 15 - now)
    simp only [aliasRules]
    linarith
  · rw [hw'.polled]
    exact hbound
  · rw [hw'.polled]
    rcases le_total 1 (start + 15 - now) with h | h
    · rw [min_eq_left h]
      left
      push_cast
      linarith
    · rw [min_eq_right h]
      right
      linarith
  · simp only [hw'.polled, aliasRules]
    omega

theorem waitForSerialByIdAliasesStep_follows (s : AliasWait) (hw : AliasHead start w) :
    Follows (aliasRules device).discipline
      (Pass (aliasRules device) (AliasHead start) (fun _ w => w.refused = none) w)
      (fun e w => w.LeftWith e) (waitForSerialByIdAliasesStep device (start + 15) s) w := by
  obtain ⟨hrefused, hstart, hmost, hpolls⟩ := hw
  have hlookup : UsbTopology.byIdPathsForTty device = (usb (.byIdPathsForTty device) >>= fun fs =>
      .ofExcept (.ok (fs.byIdPathsForTty device)) : Program (List Path)) := rfl
  rw [waitForSerialByIdAliasesStep, hlookup]
  refine follows_catching hrefused (fun _ => Nat.lt_succ_of_le hmost) (fun fs aliases _ => ?_) nofun
    nofun
  obtain ⟨hrefused', hnow', hstart', hpolls'⟩ :
      (w.after (aliasRules device) (.usb (.byIdPathsForTty device)) fs).refused = none ∧
      (w.after (aliasRules device) (.usb (.byIdPathsForTty device)) fs).now = w.now ∧
      (w.after (aliasRules device) (.usb (.byIdPathsForTty device)) fs).start = some start ∧
      (w.after (aliasRules device) (.usb (.byIdPathsForTty device)) fs).polls = w.polls + 1 :=
    ⟨rfl, rfl, hstart, by simp [aliasRules]⟩
  generalize w.after (aliasRules device) (.usb (.byIdPathsForTty device)) fs = w' at *
  cases aliases with
  | cons path paths => exact .pure hrefused'
  | nil =>
    have hhardware := follows_apart (R := aliasRules device) (by decide)
      ((SupervisorClient.hardwareSerialByIdPathsForTty_uses device).catching
        Exn.isSupervisorError) hrefused'
    refine (hhardware.conseq (fun _ _ h => h) ?_).bind ?_
    · rintro e _ rfl
      exact .inl hrefused'
    intro hardware w'' hw''
    rw [hw'']
    split
    · exact .pure hrefused'
    · refine Follows.step hrefused' fun (now : ℚ) (hnow : w'.now ≤ now) => ?_
      have hshows := Wait.shows_read (R := aliasRules device) hrefused' hstart' now
      rw [hpolls'] at hshows
      rw [hnow'] at hnow
      have hpolls (hleft : ¬start + 15 - now ≤ 0) : (w.polls : ℚ) ≤ now - start := by
        rcases hpolls with h | h <;> linarith
      split_ifs with hleft herrors hreported
      · exact .raise (.inl hrefused')
      · exact .pure hrefused'
      · refine ((follows_apart (by decide) (report_uses (List.mem_singleton_self OpKind.report) _ _)
          hshows.unrefused).conseq (fun _ _ h => h) ?_).bind ?_
        · rintro e _ rfl
          exact .inl hrefused'
        · intro _ w'' hw''
          rw [hw'']
          exact aliasPause_follows (hpolls hleft) hshows (not_le.mp hleft)
      · exact aliasPause_follows (hpolls hleft) hshows (not_le.mp hleft)

theorem total_waitForSerialByIdAliasesStep (deadline : ℚ) (s : AliasWait) :
    Total (waitForSerialByIdAliasesStep device deadline s) := by
  have hpause (next : AliasWait) (seconds : ℚ) : Total (sleep seconds >>= fun _ =>
      pure (.inl next) : Program (AliasWait ⊕ List Path)) :=
    (Total.perform _).andThen fun _ => .pure _
  have hhardware : Total (SupervisorClient.hardwareSerialByIdPathsForTty device) := by
    refine (Total.ofExcept _).andThen fun _ => Total.andThen ?_ fun document => ?_
    · exact (Total.perform _).andThen fun outcome => .ofExcept _
    · refine (Total.ofExcept _).andThen fun data => ?_
      split <;> trivial
  refine Total.andThen (((Total.perform _).andThen fun _ => .pure _).catching _) fun found => ?_
  split
  · exact .pure _
  · refine (hhardware.catching _).andThen fun hardware => ?_
    split
    · exact .pure _
    · refine (Total.perform _).andThen fun (now : ℚ) => ?_
      split_ifs
      · trivial
      · exact .pure _
      · exact Total.andThen ((Total.perform _).andThen fun answer => .ofExcept _) fun _ =>
          hpause _ _
      · exact hpause _ _

end Aliases

theorem waitForSerialByIdAliases_bounded (device : Path) :
    BoundedWait (fun fuel => waitForSerialByIdAliases fuel device) (.byIdPathsForTty device) 15 0 16
      fun _ _ => False := by
  have hhead (now start : ℚ) :
      AliasHead start ((aliasRules device).discipline.after (.begin now) .monotonic start) :=
    ⟨rfl, rfl, Nat.zero_le _, .inl (by simp [Wait.begin])⟩
  refine WaitRules.bounded (R := aliasRules device) (fun fuel now hfuel => ?_) (fun fuel now => ?_)
    fun _ _ _ h => h.elim
  · exact fun start _ => loop_ends (fun s w hw => waitForSerialByIdAliasesStep_follows s hw)
      (total_waitForSerialByIdAliasesStep _) hfuel (hhead now start)
  · exact Follows.step rfl fun start _ =>
      loop_follows (fun s w hw => waitForSerialByIdAliasesStep_follows s hw) fuel (hhead now start)

/-- All three waits are bounded, each by its own timeout. -/
theorem waits_bounded :
    (∀ (settings : Settings) (topology : String) (expected : Option String) (timeout : Option ℤ)
      (qemu allow : Bool), BoundedWait
        (fun fuel => waitForBootloader fuel settings topology expected timeout qemu allow)
        (.bootloaderForTopology topology) (timeout.getD settings.bootTimeout : ℤ) (1 / 4)
        ⌈4 * ((timeout.getD settings.bootTimeout : ℤ) : ℚ)⌉₊
        (BootloaderRefused topology expected qemu allow)) ∧
    (∀ (topology : String) (expected : Option String) (timeout : ℚ) (baudrate : ℕ)
      (qemu allow : Bool), BoundedWait
        (fun fuel => waitForApplicationVersion fuel topology expected timeout baudrate qemu allow)
        (.applicationForTopology topology) timeout 0 ⌈timeout⌉₊
        (ApplicationRefused topology expected qemu allow)) ∧
    ∀ device : Path, BoundedWait (fun fuel => waitForSerialByIdAliases fuel device)
      (.byIdPathsForTty device) 15 0 16 fun _ _ => False :=
  ⟨waitForBootloader_bounded, waitForApplicationVersion_bounded, waitForSerialByIdAliases_bounded⟩

/-- The bootloader appears before the fourth poll. -/
def lateScript : Script where
  usb n := .ofDevices (if n < 9 then [] else [dfuBootloader "1-1" none]) []

def lateWait : Program UsbTarget :=
  waitForBootloader 5 PlannedRun.qemuSettings "1-1" none (some 1) false true

theorem waits_bounded_late : ∃ t bootloader, Run lateWait t (.returned bootloader) ∧
    readings t = [0, 0, 1 / 4, 1 / 2, 3 / 4] ∧
    pollsOf (.bootloaderForTopology "1-1") t ≤ ⌈4 * ((1 : ℤ) : ℚ)⌉₊ ∧
    ∀ u seconds a v, t = u ++ ⟨.sleep seconds, a⟩ :: v → 0 ≤ seconds ∧ ∃ start last,
      (readings u).head? = some start ∧ (readings u).getLast? = some last ∧
        last + seconds ≤ start + ((1 : ℤ) : ℚ) + 1 / 4 := by
  let run :=
    SupervisorClient.clock.medium.exec (SupervisorClient.tick lateScript.answer) lateWait 0 0
  have hreturned : run.2.1.result.isSome = true := by decide +kernel
  have hreadings : readings run.1 = [0, 0, 1 / 4, 1 / 2, 3 / 4] := by decide +kernel
  obtain ⟨bootloader, hbootloader⟩ := Option.isSome_iff_exists.mp hreturned
  have hrun : Run lateWait run.1 run.2.1 := SupervisorClient.clock.medium.exec_run _ lateWait 0 0
  rw [Outcome.result_eq_some.mp hbootloader] at hrun
  have hclock : SupervisorClient.clock.Trusted 0 run.1 :=
    (SupervisorClient.clock.exec_trusted (SupervisorClient.tick_trusted lateScript.answer)
      lateWait 0 0).1
  have hbounded := waits_bounded.1 PlannedRun.qemuSettings "1-1" none (some 1) false true
  exact ⟨run.1, bootloader, hrun, hreadings, hbounded.polls 5 run.1 _ 0 hrun hclock,
    hbounded.pauses 5 run.1 _ 0 hrun hclock⟩

end Flasher
end Cul868Flasher
