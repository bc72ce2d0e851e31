import Cul868Flasher.Flasher.Record
import Cul868Flasher.StateText

/-!
# The round trip through the state file

What a `load` returns after a `save`, with no other `save` between them. The
writer puts no limit on its payload and the reader has one, so the round trip
rests on the size of the stored record.
-/

namespace Cul868Flasher
open Python Effects

/-- The arguments of `KnownDevice`, whose binding can be any text. -/
structure DeviceArguments where
  topology : String
  usbSerial : Option String
  version : Option String
  configuredDevice : Option String
  recoveryBinding : String
  handoffDeadline : Option ℤ

def requireRecoveryBinding (value : String) : Except Exn RecoveryBinding :=
  match RecoveryBinding.ofText value with
  | some binding => .ok binding
  | none => .error (.valueError "recovery binding is invalid")

namespace DeviceArguments

def withBinding (device : DeviceArguments) (binding : RecoveryBinding) : KnownDevice where
  topology := device.topology
  usbSerial := device.usbSerial
  version := device.version
  configuredDevice := device.configuredDevice
  recoveryBinding := binding
  handoffDeadline := device.handoffDeadline

/-- The record, if its binding is one of the four. -/
def checked (device : DeviceArguments) : Option KnownDevice :=
  (RecoveryBinding.ofText device.recoveryBinding).map device.withBinding

end DeviceArguments

def KnownDevice.arguments (d : KnownDevice) : DeviceArguments where
  topology := d.topology
  usbSerial := d.usbSerial
  version := d.version
  configuredDevice := d.configuredDevice
  recoveryBinding := d.recoveryBinding.text
  handoffDeadline := d.handoffDeadline

theorem KnownDevice.checked_arguments (d : KnownDevice) : d.arguments.checked = some d := by
  simp only [DeviceArguments.checked, arguments, RecoveryBinding.ofText_text, Option.map_some]
  rfl

/-- The state file after the steps `t`, where `before` was there at first. -/
def stateAfter (before : StateRead) (t : Trace World) : StateRead :=
  (durable t).elim before .file

namespace DeviceStateStore

/-- `save`, for a record that any caller has built. -/
def saveArguments (device : DeviceArguments) : Program Unit := do
  let binding ← .ofExcept (requireRecoveryBinding device.recoveryBinding)
  save (device.withBinding binding)

/-- A whole `load` while `state` is the state file ends in `r`. -/
def LoadsTo (state : StateRead) (r : Outcome Exn (Option KnownDevice)) : Prop :=
  r ≠ .cut ∧ ∃ t, Run load t r ∧ ∀ read, (⟨.loadState, read⟩ : Event World) ∈ t → read = state

/-- The record goes to the file and comes back, or the save leaves the file alone. -/
structure RoundTrips (device : DeviceArguments) : Prop where
  normal : ∀ before t r, Run (saveArguments device) t r → r ≠ .cut →
    (∃ e, r = .raised e ∧ stateAfter before t = before) ∨
      ∃ d, device.checked = some d ∧
        ∀ q, LoadsTo (stateAfter before t) q → q = .returned (some d.normalize)
  reload : ∀ read d before t, LoadsTo read (.returned (some d)) → device = d.arguments →
    Run (saveArguments device) t (.returned ()) →
      ∀ q, LoadsTo (stateAfter before t) q → q = .returned (some d)
  found : ∀ before t, Run (saveArguments device) t (.returned ()) →
    ¬ LoadsTo (stateAfter before t) (.returned none)

/-! ## One load, one save -/

/-- The outcome of a load is what the file decodes to. -/
theorem loadsTo_iff {state : StateRead} {r : Outcome Exn (Option KnownDevice)} :
    LoadsTo state r ↔ (∃ d, decode state = .ok d ∧ r = .returned d) ∨
      ∃ e, decode state = .error e ∧ r = .raised e := by
  constructor
  · rintro ⟨hr, t, hrun, hread⟩
    obtain ⟨read, t₁, t₂, rfl, h₁, h₂⟩ | ⟨e, rfl, h₁⟩ | ⟨rfl, -⟩ := Run.bind_inv hrun
    · rw [Run.perform_returned.mp h₁] at hread
      obtain rfl : read = state := hread read (by simp)
      cases hd : decode read with
      | ok d =>
        rw [hd] at h₂
        obtain ⟨-, rfl | rfl⟩ := Run.ret_iff.mp h₂
        · exact .inl ⟨d, rfl, rfl⟩
        · exact absurd rfl hr
      | error e =>
        rw [hd] at h₂
        obtain ⟨-, rfl | rfl⟩ := Run.raise_iff.mp h₂
        · exact .inr ⟨e, rfl, rfl⟩
        · exact absurd rfl hr
    · exact absurd h₁ Run.perform_raised
    · exact absurd rfl hr
  · have hload {q : Outcome Exn (Option KnownDevice)} (hq : q ≠ .cut)
        (h : Run (Prog.ofExcept (decode state) : Program (Option KnownDevice)) [] q) :
        LoadsTo state q := by
      refine ⟨hq, [⟨.loadState, state⟩], Run.bind (Run.perform_returned.mpr rfl) h, ?_⟩
      rintro read hmem
      cases List.mem_singleton.mp hmem
      rfl
    rintro (⟨d, hd, rfl⟩ | ⟨e, he, rfl⟩)
    · exact hload (by simp) (by rw [hd]; exact .returned d)
    · exact hload (by simp) (by rw [he]; exact .raised e)

theorem loadsTo_file {file : StateFile} {d : KnownDevice} {r : Outcome Exn (Option KnownDevice)}
    (h : encode d = .ok file) : LoadsTo (.file file) r ↔
      r = .returned (if d.storedSize ≤ maxStateBytes then some d.normalize else none) := by
  have hrecord := record_encode h
  have hdecode : decode (.file file) =
      .ok (if d.storedSize ≤ maxStateBytes then some d.normalize else none) := by
    rw [decode, KnownDevice.size_of_encode h]
    by_cases hsize : d.storedSize ≤ maxStateBytes
    · rw [if_neg (by omega), if_pos hsize, ← hrecord, StateFile.record]
      split <;> rfl
    · rw [if_pos (by omega), if_neg hsize]
  rw [loadsTo_iff, hdecode]
  simp

/-- A whole save refuses the record, or makes one attempt to put its file in place. -/
theorem save_run {d : KnownDevice} {t : Trace World} {r : Outcome Exn Unit}
    (h : Run (save d) t r) (hr : r ≠ .cut) :
    (t = [] ∧ ∃ e, r = .raised e) ∨
      ∃ file, ∃ outcome : SaveOutcome, encode d = .ok file ∧ t = [⟨.saveState file, outcome⟩] ∧
        ((outcome = .saved ∧ r = .returned ()) ∨
          ∃ replaced e, outcome = .failed replaced e ∧ r = .raised e) := by
  rw [save] at h
  cases hencode : encode d with
  | error e =>
    rw [hencode] at h
    obtain ⟨rfl, rfl | rfl⟩ := Run.raise_iff.mp h
    · exact .inl ⟨rfl, e, rfl⟩
    · exact absurd rfl hr
  | ok file =>
    rw [hencode] at h
    change Run (perform (.saveState file) >>= _) t r at h
    obtain ⟨outcome, t₁, t₂, rfl, h₁, h₂⟩ | ⟨e, rfl, h₁⟩ | ⟨rfl, -⟩ := Run.bind_inv h
    · have ht₁ := Run.perform_returned.mp h₁
      cases (outcome : SaveOutcome) with
      | saved =>
        obtain ⟨rfl, rfl | rfl⟩ := Run.pure_iff.mp h₂
        · exact .inr ⟨file, .saved, rfl, by simpa using ht₁, .inl ⟨rfl, rfl⟩⟩
        · exact absurd rfl hr
      | failed replaced e =>
        obtain ⟨rfl, rfl | rfl⟩ := Run.raise_iff.mp h₂
        · exact .inr
            ⟨file, .failed replaced e, rfl, by simpa using ht₁, .inr ⟨replaced, e, rfl, rfl⟩⟩
        · exact absurd rfl hr
    · exact absurd h₁ Run.perform_raised
    · exact absurd rfl hr

/-- A save that returns has put the file of its record in place. -/
theorem save_returned {d : KnownDevice} {t : Trace World} (h : Run (save d) t (.returned ()))
    (before : StateRead) : ∃ file, encode d = .ok file ∧ stateAfter before t = .file file := by
  obtain ⟨-, e, he⟩ | ⟨file, outcome, hfile, rfl, ⟨rfl, -⟩ | ⟨replaced, e, -, he⟩⟩ :=
    save_run h (by simp)
  · cases he
  · exact ⟨file, hfile, rfl⟩
  · cases he

theorem save_saves {d : KnownDevice} {file : StateFile} (h : encode d = .ok file) :
    Run (save d) [⟨.saveState file, SaveOutcome.saved⟩] (.returned ()) := by
  rw [save, h]
  change Run (perform (.saveState file) >>= _) _ _
  exact Run.bind (Run.perform_returned.mpr rfl) (.returned ())

/-- Only records with one of the four bindings get past the first check. -/
theorem saveArguments_run {device : DeviceArguments} {t : Trace World} {r : Outcome Exn Unit}
    (h : Run (saveArguments device) t r) (hr : r ≠ .cut) :
    (t = [] ∧ ∃ e, r = .raised e) ∨ ∃ d, device.checked = some d ∧ Run (save d) t r := by
  rw [saveArguments, requireRecoveryBinding] at h
  cases hb : RecoveryBinding.ofText device.recoveryBinding with
  | none =>
    rw [hb] at h
    obtain ⟨rfl, rfl | rfl⟩ := Run.raise_iff.mp h
    · exact .inl ⟨rfl, _, rfl⟩
    · exact absurd rfl hr
  | some binding =>
    rw [hb] at h
    exact .inr ⟨device.withBinding binding, by rw [DeviceArguments.checked, hb, Option.map_some], h⟩

theorem saveArguments_returned {device : DeviceArguments} {t : Trace World}
    (h : Run (saveArguments device) t (.returned ())) (before : StateRead) :
    ∃ d file, device.checked = some d ∧ encode d = .ok file ∧
      stateAfter before t = .file file := by
  obtain ⟨-, e, he⟩ | ⟨d, hd, hsave⟩ := saveArguments_run h (by simp)
  · cases he
  · obtain ⟨file, hfile, hstate⟩ := save_returned hsave before
    exact ⟨d, file, hd, hfile, hstate⟩

theorem saveArguments_saves {device : DeviceArguments} {d : KnownDevice} {file : StateFile}
    (hd : device.checked = some d) (hfile : encode d = .ok file) :
    Run (saveArguments device) [⟨.saveState file, SaveOutcome.saved⟩] (.returned ()) := by
  obtain ⟨binding, hbinding, rfl⟩ := Option.map_eq_some_iff.mp hd
  rw [saveArguments, requireRecoveryBinding, hbinding]
  exact save_saves hfile

/-! ## The round trip -/

variable {device : DeviceArguments}

theorem RoundTrips.of_size (hsize : ∀ d, device.checked = some d → d.Storable →
    d.storedSize ≤ maxStateBytes) : RoundTrips device := by
  have hload {d : KnownDevice} {file : StateFile} {q : Outcome Exn (Option KnownDevice)}
      (hd : device.checked = some d) (hfile : encode d = .ok file)
      (hq : LoadsTo (.file file) q) : q = .returned (some d.normalize) := by
    rw [loadsTo_file hfile, if_pos (hsize d hd (KnownDevice.storable_of_encode hfile))] at hq
    exact hq
  constructor
  · intro before t r hrun hr
    obtain ⟨rfl, e, rfl⟩ | ⟨d, hd, hsave⟩ := saveArguments_run hrun hr
    · exact .inl ⟨e, rfl, rfl⟩
    · obtain ⟨rfl, e, rfl⟩ | ⟨file, outcome, hfile, rfl, ⟨rfl, rfl⟩ | ⟨replaced, e, rfl, rfl⟩⟩ :=
        save_run hsave hr
      · exact .inl ⟨e, rfl, rfl⟩
      · exact .inr ⟨d, hd, fun q hq => hload hd hfile hq⟩
      · cases replaced with
        | true => exact .inr ⟨d, hd, fun q hq => hload hd hfile hq⟩
        | false => exact .inl ⟨e, rfl, rfl⟩
  · rintro read d before t hread rfl hrun q hq
    obtain ⟨d', file, hd, hfile, hstate⟩ := saveArguments_returned hrun before
    rw [KnownDevice.checked_arguments, Option.some.injEq] at hd
    subst hd
    rw [hstate] at hq
    rw [hload (KnownDevice.checked_arguments d) hfile hq]
    -- A record that has been read is in normal form.
    obtain ⟨x, hx, heq⟩ | ⟨e, -, heq⟩ := loadsTo_iff.mp hread
    · cases heq
      rw [KnownDevice.normalize_of_load hx]
    · cases heq
  · intro before t hrun hnone
    obtain ⟨d, file, hd, hfile, hstate⟩ := saveArguments_returned hrun before
    rw [hstate] at hnone
    cases hload hd hfile hnone

/-- The round trip holds of the records whose payload the reader does not
refuse for its size, and of those that are never written. -/
theorem round_trips_iff (device : DeviceArguments) : RoundTrips device ↔
    ∀ d, device.checked = some d → d.Storable → d.storedSize ≤ maxStateBytes := by
  refine ⟨fun h d hd hstorable => ?_, RoundTrips.of_size⟩
  by_contra hsize
  obtain ⟨file, hfile, -⟩ := hstorable.encode
  refine h.found .missing _ (saveArguments_saves hd hfile) ?_
  exact (loadsTo_file hfile).mpr (by rw [if_neg hsize])

theorem safeOptionalText_replicate (n : ℕ) {m : ℕ} (c : Char) (hn : 0 < n) (hm : n ≤ m)
    (hc : isPrintable c = true) : safeOptionalText (.str (String.ofList (List.replicate n c))) m =
      some (String.ofList (List.replicate n c)) := by
  have hne : List.replicate n c ≠ [] := by simpa using hn.ne'
  refine if_pos ?_
  simp [isSafeText, hc, hm, hne, ← String.length_toList]

theorem jsonTextSize_replicate (n : ℕ) (c : Char) :
    jsonTextSize (String.ofList (List.replicate n c)) = 2 + n * (Json.escapeChar c).length := by
  simp [jsonTextSize]

/-- One name under `/dev` is a device path. -/
theorem isDevicePath_name {cs : List Char} (hslash : '/' ∉ cs) (hlong : 3 ≤ cs.length) :
    isDevicePath ("/dev/" ++ String.ofList cs) = true := by
  have hshort (short : List Char) (h : short.length < 3) : cs ≠ short := by
    rintro rfl
    omega
  have hname : Path.IsComponent (String.ofList cs).toList := by
    rw [String.toList_ofList]
    exact ⟨hshort _ (by simp), hshort _ (by simp), hslash⟩
  have hdots : String.ofList cs ≠ ".." := fun h =>
    hshort "..".toList (by decide) (by rw [← h, String.toList_ofList])
  have htext :
      toString (⟨"/", ["dev", String.ofList cs]⟩ : Path) = "/dev/" ++ String.ofList cs := by
    rw [← String.toList_inj, Path.toList_toString rfl]
    simp
  rw [isDevicePath, ← htext, Path.ofString_toString rfl (by
    rintro name (_ | ⟨_, _ | ⟨_, ⟨⟩⟩⟩)
    · exact ⟨by decide, by decide, by decide⟩
    · exact hname)]
  simp [Path.isAbsolute, Path.parts, hdots.symm]

theorem safeOptionalDevicePath_name (cs : List Char) (hslash : '/' ∉ cs) (hlong : 3 ≤ cs.length)
    (hshort : cs.length ≤ 507) (hascii : ∀ c ∈ cs, c.toNat < 128) :
    safeOptionalDevicePath (.str ("/dev/" ++ String.ofList cs)) =
      some ("/dev/" ++ String.ofList cs) := by
  refine if_pos ⟨?_, ?_, ?_, isDevicePath_name hslash hlong⟩
  · simp [← String.toList_inj]
  · rw [← String.length_toList]
    simp
    omega
  · simpa using hascii

theorem jsonTextSize_name (cs : List Char) : jsonTextSize ("/dev/" ++ String.ofList cs) =
    5 + jsonTextSize (String.ofList cs) := by
  simp [jsonTextSize, Json.escapeChar]
  omega

theorem storedSize_verified {topology serial version path : String}
    (hserial : safeOptionalText (.str serial) 128 = some serial)
    (hversion : safeOptionalText (.str version) 512 = some version)
    (hpath : safeOptionalDevicePath (.str path) = some path) :
    KnownDevice.storedSize ⟨topology, some serial, some version, some path, .verifiedApplication,
      none⟩ = 99 + jsonTextSize topology + jsonTextSize serial + jsonTextSize version +
        jsonTextSize path + jsonTextSize RecoveryBinding.verifiedApplication.text + 4 := by
  simp [KnownDevice.storedSize, KnownDevice.normalize, optionJson, optionTextSize, hserial,
    hversion,
    hpath]

/-- Every field is within its own limit, and the payload is too long. -/
def oversizedDevice : KnownDevice where
  topology := "1-1"
  usbSerial := some (String.ofList (List.replicate 128 '"'))
  version := some (String.ofList (List.replicate 512 '"'))
  configuredDevice := some ("/dev/" ++ String.ofList (List.replicate 507 (Char.ofNat 1)))
  recoveryBinding := .verifiedApplication
  handoffDeadline := none

theorem oversizedDevice_size : ¬ oversizedDevice.storedSize ≤ maxStateBytes := by
  have hsize : oversizedDevice.storedSize = _ := storedSize_verified
    (safeOptionalText_replicate 128 '"' (by omega) (le_refl 128) (by decide))
    (safeOptionalText_replicate 512 '"' (by omega) (le_refl 512) (by decide))
    (safeOptionalDevicePath_name (List.replicate 507 (Char.ofNat 1))
      (by rw [List.mem_replicate]; exact fun h => absurd h.2 (by decide))
      (by rw [List.length_replicate]; omega) (by rw [List.length_replicate])
      fun c hc => by rw [List.eq_of_mem_replicate hc]; decide)
  have hquote : (Json.escapeChar '"').length = 2 := by decide
  have hcontrol : (Json.escapeChar (Char.ofNat 1)).length = 6 := by decide
  rw [hsize, jsonTextSize_name, jsonTextSize_replicate, jsonTextSize_replicate,
    jsonTextSize_replicate, hquote, hcontrol, maxStateBytes]
  omega

theorem oversizedDevice_lost : ¬ ∀ device, RoundTrips device := by
  intro h
  have hstorable : oversizedDevice.Storable := ⟨by decide, fun hb => by cases hb⟩
  exact oversizedDevice_size ((round_trips_iff _).mp (h oversizedDevice.arguments) oversizedDevice
    (KnownDevice.checked_arguments oversizedDevice) hstorable)

end DeviceStateStore
end Cul868Flasher
