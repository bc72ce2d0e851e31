import Cul868Flasher.Options
import Cul868Flasher.Persistence

/-!
# The configured path in the recovery record

The options and the state file have a validator of device paths each. A record
that is saved for a path is of use only if both admit the path.
-/

namespace Cul868Flasher
open Python Effects

namespace DevicePath
variable {path : Path}

theorem ofString_toString (h : DevicePath path) : Path.ofString (toString path) = path :=
  Path.ofString_toString h.root fun name hname => (h.components name hname).1

/-- The state file takes a path of the options if all its characters are ASCII. -/
theorem safeOptionalDevicePath (h : DevicePath path) :
    safeOptionalDevicePath (.str (toString path)) =
      if (toString path).toList.all (fun c => c.toNat < 128) then some (toString path)
      else none := by
  have hne : toString path ≠ "" := by
    intro hempty
    have htext := Path.toList_toString h.root
    rw [hempty] at htext
    cases htext
  simp only [Cul868Flasher.safeOptionalDevicePath, hne, h.length,
    h.isDevicePath h.ofString_toString, ne_eq,
    not_false_eq_true, true_and, and_true]

end DevicePath

namespace Flasher
variable {settings : Settings} {d : KnownDevice}

/-- What a load returns after the record has been saved is for the configured path. -/
def BindingSurvives (settings : Settings) (d : KnownDevice) : Prop :=
  ∀ before t, Run (DeviceStateStore.save d) t (.returned ()) →
    ∀ q, DeviceStateStore.LoadsTo (stateAfter before t) q →
      ∃ known, q = .returned (some known) ∧ stateMatchesConfiguration settings known = true

theorem bindingSurvives_iff_file : BindingSurvives settings d ↔
    ∀ file, DeviceStateStore.encode d = .ok file →
      d.storedSize ≤ maxStateBytes ∧ stateMatchesConfiguration settings d.normalize = true := by
  have hsaves {file : StateFile} (hfile : DeviceStateStore.encode d = .ok file) :
      Run (DeviceStateStore.save d) [⟨.saveState file, SaveOutcome.saved⟩] (.returned ()) :=
    DeviceStateStore.save_saves hfile
  constructor
  · intro h file hfile
    have hload := h .missing _ (hsaves hfile) _ ((DeviceStateStore.loadsTo_file hfile).mpr rfl)
    obtain ⟨known, hknown, hmatches⟩ := hload
    split_ifs at hknown with hsize
    · cases hknown
      exact ⟨hsize, hmatches⟩
    · cases hknown
  · intro h before t hrun q hq
    obtain ⟨file, hfile, hstate⟩ := DeviceStateStore.save_returned hrun before
    obtain ⟨hsize, hmatches⟩ := h file hfile
    rw [hstate, DeviceStateStore.loadsTo_file hfile, if_pos hsize] at hq
    exact ⟨_, hq, hmatches⟩

/-- The binding survives for ASCII paths and records that are not too long. -/
theorem binding_survives_iff {options : List (String × Json)}
    (hoptions : Settings.fromMapping options = .ok settings)
    (hdevice : d.configuredDevice = some (toString settings.device)) :
    BindingSurvives settings d ↔ (d.Storable →
      (toString settings.device).toList.all (fun c => c.toNat < 128) = true ∧
        d.storedSize ≤ maxStateBytes) := by
  have hpath := (Settings.admitted hoptions).device
  have hmatches : stateMatchesConfiguration settings d.normalize = true ↔
      (toString settings.device).toList.all (fun c => c.toNat < 128) = true := by
    simp only [stateMatchesConfiguration, KnownDevice.normalize, hdevice, optionJson,
      Option.elim_some, hpath.safeOptionalDevicePath, decide_eq_true_eq]
    split_ifs with hascii
    · simp [hascii]
    · simp [hascii]
  rw [bindingSurvives_iff_file]
  constructor
  · intro h hstorable
    obtain ⟨file, hfile, -⟩ := hstorable.encode
    exact ⟨hmatches.mp (h file hfile).2, (h file hfile).1⟩
  · intro h file hfile
    obtain ⟨hascii, hsize⟩ := h (KnownDevice.storable_of_encode hfile)
    exact ⟨hsize, hmatches.mpr hascii⟩

/-- The record that is saved for a device after its verification. -/
def verifiedRecord (device : String) : KnownDevice :=
  ⟨"1-1.4", some "85433", some "V 1.67 CUL868", some device, .verifiedApplication, none⟩

theorem binding_survives_acm : BindingSurvives ⟨.ofString "/dev/ttyACM0", 9600, 90, false, []⟩
    (verifiedRecord "/dev/ttyACM0") := by
  have hoptions : Settings.fromMapping [("device", .str "/dev/ttyACM0")] =
      .ok ⟨.ofString "/dev/ttyACM0", 9600, 90, false, []⟩ := by decide +kernel
  refine (binding_survives_iff hoptions (by decide +kernel)).mpr fun _ => ?_
  exact ⟨by decide +kernel, by decide +kernel⟩

theorem binding_lost : ¬ ∀ options settings d, Settings.fromMapping options = .ok settings →
    d.configuredDevice = some (toString settings.device) → BindingSurvives settings d := by
  intro h
  have hoptions :
      Settings.fromMapping [("device", .str "/dev/serial/by-id/usb-Küche_CUL868-if00")] =
      .ok ⟨.ofString "/dev/serial/by-id/usb-Küche_CUL868-if00", 9600, 90, false, []⟩ := by
    decide +kernel
  have hdevice : (verifiedRecord "/dev/serial/by-id/usb-Küche_CUL868-if00").configuredDevice =
      some (toString (Path.ofString "/dev/serial/by-id/usb-Küche_CUL868-if00")) := by
    decide +kernel
  have hsurvives := (binding_survives_iff hoptions hdevice).mp (h _ _ _ hoptions hdevice)
  have hascii := (hsurvives ⟨by decide, fun hb => by cases hb⟩).1
  exact absurd hascii (by decide +kernel)

end Flasher
end Cul868Flasher
