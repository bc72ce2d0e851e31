import Cul868Flasher.Flasher.Targeting

/-!
# The serial of the flashed bootloader

A serial that has been recorded or confirmed is compared with what a later
lookup shows, but a bootloader that shows no serial passes. The results hold
for the runs in which it shows one wherever one is expected.
-/

namespace Cul868Flasher
open Python Effects

namespace PlannedRun
variable {settings : Settings} {image : HexImage} {manualRecovery : Option ManualRecoveryTarget}

/-- Where a serial is expected, the lookups show a bootloader that has one. -/
structure PublishesSerials (x : PlannedRun settings image manualRecovery) : Prop where
  known : ∀ known, manualRecovery = none → Flasher.Loads x.before known →
    known.recoveryBinding = .observedBootloader → known.usbSerial ≠ none →
    ∀ e ∈ x.before, ∀ found, Flasher.FoundOnPath known.topology e found → found.usbSerial ≠ none
  confirmed : ∀ confirmed ∈ manualRecovery, confirmed.usbSerial ≠ none →
    ∀ e ∈ x.after, ∀ found, Flasher.Selects settings x.plan e found → found.usbSerial ≠ none
  bound : ∀ d u v, x.BindsAt d u v → d.usbSerial ≠ none →
    ∀ e ∈ v, ∀ found, Flasher.FoundOnPath d.topology e found → found.usbSerial ≠ none

theorem serial_eq_of_accepted {expected : Option String} {target : UsbTarget}
    (h : Flasher.SerialAccepted expected target false) (hexpected : expected ≠ none)
    (htarget : target.usbSerial ≠ none) : target.usbSerial = expected := by
  rcases h with h | h | h | h
  · exact absurd h hexpected
  · exact absurd h htarget
  · exact h
  · cases h

/-- In the manual mode the serial of the plan is the confirmed one. -/
theorem expectedSerial_confirmed (x : PlannedRun settings image manualRecovery)
    {confirmed : ManualRecoveryTarget} (hconfirmed : manualRecovery = some confirmed)
    (hserial : confirmed.usbSerial ≠ none) :
    x.plan.mode ≠ .application ∧ Flasher.expectedSerial x.plan = confirmed.usbSerial := by
  obtain ⟨_, _, -, -, _, _, -, hplan⟩ := x.planned
  rcases Flasher.plan_returned hplan with ⟨_, _, -, hnone, -⟩ |
    ⟨confirmed', bootloader, hmanual, hp, hb⟩ | ⟨_, _, hnone, -⟩
  · rw [hconfirmed] at hnone
    cases hnone
  · rcases hmanual with hmanual | hfalse
    · rw [hconfirmed] at hmanual
      obtain rfl := Option.some.inj hmanual
      simp [hp, Flasher.expectedSerial, hb hserial]
    · cases hfalse
  · rw [hconfirmed] at hnone
    cases hnone

/-- The serials agree wherever a lookup does not leave them out. -/
theorem dfu_serial (x : PlannedRun settings image manualRecovery) (h : x.PublishesSerials) :
    (∀ d u v, x.BindsAt d u v → d.usbSerial ≠ none → ∀ call ∈ dfuCalls x.after,
      call.bootloader.usbSerial = d.usbSerial ∧ call.bootloader.topology = d.topology) ∧
    (∀ confirmed ∈ manualRecovery, confirmed.usbSerial ≠ none → ∀ call ∈ dfuCalls x.after,
      call.bootloader.usbSerial = confirmed.usbSerial) ∧
    (∀ known, x.plan.mode = .recovery → x.plan.known = some known →
      known.recoveryBinding = .observedBootloader → known.usbSerial ≠ none →
      x.plan.bootloader.bind UsbTarget.usbSerial = known.usbSerial) := by
  have hcommand : ∀ d u v, x.BindsAt d u v → d.usbSerial ≠ none → ∀ call ∈ dfuCalls x.after,
      call.bootloader.usbSerial = d.usbSerial ∧ call.bootloader.topology = d.topology := by
    intro d u v hbinds hserial call hcall
    obtain ⟨target, d', u', v', hbinds', htopology, hd', -, e, he, hfound, haccepted⟩ :=
      x.dfu_bound hcall
    obtain rfl := hbinds.unique hbinds'
    rw [← htopology] at hfound
    rw [← hd'] at haccepted
    have hpublished := h.bound d u' v' hbinds' hserial e he _ hfound
    exact ⟨serial_eq_of_accepted haccepted hserial hpublished, hfound.valid.2⟩
  refine ⟨hcommand, ?_, ?_⟩
  · intro confirmed hconfirmed hserial call hcall
    obtain ⟨target, d, u, v, hbinds, -, hd, ⟨e, he, hsel⟩, -⟩ := x.dfu_bound hcall
    obtain ⟨hmode, hexpected⟩ := x.expectedSerial_confirmed hconfirmed hserial
    have hpublished := h.confirmed confirmed hconfirmed hserial e he target hsel
    have haccepted := hsel.1
    rw [hexpected, decide_eq_false hmode] at haccepted
    have htarget := serial_eq_of_accepted haccepted hserial hpublished
    rw [← htarget, ← hd]
    exact (hcommand d u v hbinds (by rwa [hd]) call hcall).1
  · intro known hmode hknown hbinding hserial
    obtain ⟨_, t₂, hbefore, -, _, t₄, rfl, hplan⟩ := x.planned
    rcases Flasher.plan_returned hplan with ⟨_, _, -, -, hp⟩ | ⟨_, _, -, hp, -⟩ |
      ⟨known', bootloader, hnone, hp, hloads, ⟨e, he, hfound⟩, hchanged⟩
    · rw [hp] at hmode
      cases hmode
    · rw [hp] at hmode
      cases hmode
    · rw [hp] at hknown ⊢
      obtain rfl := Option.some.inj hknown
      obtain ⟨read, hread, hdecode⟩ := hloads
      have hpublished := h.known known' hnone ⟨read, by simp [hbefore, hread], hdecode⟩ hbinding
        hserial e (by simp [hbefore, he]) bootloader hfound
      have hsame : Flasher.hasChangedUsbSerial known' bootloader = false := by
        rcases hchanged with hchanged | hpending
        · exact hchanged
        · rw [hbinding] at hpending
          cases hpending
      have heq : known'.usbSerial = bootloader.usbSerial := by
        simpa [Flasher.hasChangedUsbSerial, hserial, hpublished] using hsame
      exact heq.symm

/-- The bootloader that an event shows on the path it looked at. -/
def onPathOf : Event World → Option UsbTarget
  | ⟨.usb (.bootloaderForTopology topology), fs⟩ =>
    match (fs : Sysfs).bootloaderForTopology topology with
    | .ok found => found
    | .error _ => none
  | _ => none

theorem onPathOf_eq {topology : String} {e : Event World} {target : UsbTarget}
    (h : Flasher.FoundOnPath topology e target) : onPathOf e = some target := by
  obtain ⟨fs, rfl, hfs⟩ := h
  simp only [onPathOf, hfs]

theorem publishesSerials_of_all (x : PlannedRun settings image manualRecovery)
    (hpath : ∀ target ∈ (x.before ++ x.after).filterMap onPathOf, target.usbSerial ≠ none)
    (halone : ∀ target ∈ x.after.filterMap aloneOf, target.usbSerial ≠ none) :
    x.PublishesSerials where
  known known _ _ _ _ e he found hfound :=
    hpath found (List.mem_filterMap.mpr ⟨e, by simp [he], onPathOf_eq hfound⟩)
  confirmed confirmed _ _ e he found hfound := by
    rcases hfound.2 with hfound | ⟨-, hfound⟩
    · exact hpath found (List.mem_filterMap.mpr ⟨e, by simp [he], onPathOf_eq hfound⟩)
    · exact halone found (List.mem_filterMap.mpr ⟨e, he, aloneOf_eq hfound⟩)
  bound d u v hbinds _ e he found hfound := by
    obtain ⟨file, hafter, -⟩ := hbinds
    exact hpath found (List.mem_filterMap.mpr ⟨e, by simp [hafter, he], onPathOf_eq hfound⟩)

/-- A bootloader confirmed under its serial. -/
def confirmedTarget : ManualRecoveryTarget := ⟨"1-1", some "A", by decide, by decide⟩

/-- From the erase on, the confirmed bootloader shows no serial. -/
def silentScript : Script where
  usb n := .ofDevices [dfuBootloader "1-1" (if n < 12 then some "A" else none)] []

theorem dfu_without_serial :
    ¬ ∀ (settings : Settings) (image : HexImage) (manualRecovery : Option ManualRecoveryTarget)
      (x : PlannedRun settings image manualRecovery),
      (∀ d u v, x.BindsAt d u v → d.usbSerial ≠ none → ∀ call ∈ dfuCalls x.after,
        call.bootloader.usbSerial = d.usbSerial ∧ call.bootloader.topology = d.topology) ∧
      (∀ confirmed ∈ manualRecovery, confirmed.usbSerial ≠ none → ∀ call ∈ dfuCalls x.after,
        call.bootloader.usbSerial = confirmed.usbSerial) ∧
      (∀ known, x.plan.mode = .recovery → x.plan.known = some known →
        known.recoveryBinding = .observedBootloader → known.usbSerial ≠ none →
        x.plan.bootloader.bind UsbTarget.usbSerial = known.usbSerial) := by
  intro h
  have hrun : (ofScript silentScript.answer 2 qemuSettings sampleImage (some confirmedTarget)).any
      fun x => (dfuCalls x.after).any fun call =>
        decide (call.bootloader.usbSerial ≠ some "A") := by
    decide +kernel
  obtain ⟨x, -, hx⟩ := (Option.any_eq_true _ _).mp hrun
  simp only [decide_eq_true_eq, List.any_eq_true] at hx
  obtain ⟨call, hcall, hserial⟩ := hx
  exact hserial ((h _ _ _ x).2.1 confirmedTarget rfl (by simp [confirmedTarget]) call hcall)

theorem dfu_serial_recovered :
    ∃ x : PlannedRun qemuSettings sampleImage none,
      x.plan.mode = .recovery ∧ (dfuCalls x.after).length = 3 ∧
      ∀ d u v, x.BindsAt d u v → d.usbSerial ≠ none → ∀ call ∈ dfuCalls x.after,
        call.bootloader.usbSerial = d.usbSerial ∧ call.bootloader.topology = d.topology := by
  have hrun : (ofScript recoveredScript.answer 2 qemuSettings sampleImage none).any
      fun x => decide (x.plan.mode = .recovery) && decide ((dfuCalls x.after).length = 3) &&
        (x.after.filterMap aloneOf).isEmpty &&
        ((x.before ++ x.after).filterMap onPathOf).all fun target =>
          decide (target.usbSerial ≠ none) := by
    decide +kernel
  obtain ⟨x, -, hx⟩ := (Option.any_eq_true _ _).mp hrun
  simp only [Bool.and_eq_true, decide_eq_true_eq, List.isEmpty_iff, List.all_eq_true] at hx
  obtain ⟨⟨⟨hmode, hlength⟩, halone⟩, hpath⟩ := hx
  have hpublishes : x.PublishesSerials := x.publishesSerials_of_all hpath (by simp [halone])
  exact ⟨x, hmode, hlength, (x.dfu_serial hpublishes).1⟩

end PlannedRun
end Cul868Flasher
