import Cul868Flasher.Python.Json
import Cul868Flasher.Usb

/-!
# The recovery record

One JSON file holds what the flasher knows of its device. `decode` is the part
of `DeviceStateStore.load` after the file has been read, `encode` the part of
`DeviceStateStore.save` before it is written.
-/

namespace Cul868Flasher
open Python

def maxStateBytes : ℕ := 4 * 1024

inductive RecoveryBinding where
  | verifiedApplication
  | handoffPending
  | observedBootloader
  | legacyUnknown
  deriving DecidableEq

def RecoveryBinding.text : RecoveryBinding → String
  | .verifiedApplication => "verified-application"
  | .handoffPending => "handoff-pending"
  | .observedBootloader => "observed-bootloader"
  | .legacyUnknown => "legacy-unknown"

def RecoveryBinding.ofText (text : String) : Option RecoveryBinding :=
  if text = "verified-application" then some .verifiedApplication
  else if text = "handoff-pending" then some .handoffPending
  else if text = "observed-bootloader" then some .observedBootloader
  else if text = "legacy-unknown" then some .legacyUnknown
  else none

structure KnownDevice where
  topology : String
  usbSerial : Option String
  version : Option String
  configuredDevice : Option String
  recoveryBinding : RecoveryBinding
  handoffDeadline : Option ℤ
  deriving DecidableEq

/-- The state file as it lies on disk; `document` is `none` when it is no JSON. -/
structure StateFile where
  size : ℕ
  document : Option Json

inductive StateRead where
  | missing
  | file (content : StateFile)
  | raised (e : Exn)

inductive SaveOutcome where
  | saved
  /-- Some step failed, before or after `os.replace` took effect. -/
  | failed (replaced : Bool) (e : Exn)

def safeOptionalText (value : Json) (maximum : ℕ) : Option String :=
  match value with
  | .str s => if isSafeText s maximum then some s else none
  | _ => none

def isDevicePath (value : String) : Bool :=
  let path := Path.ofString value
  path.isAbsolute && path.parts.take 2 = ["/", "dev"] && !path.parts.contains ".."

def safeOptionalDevicePath (value : Json) : Option String :=
  match value with
  | .str s =>
    if s ≠ "" ∧ s.length ≤ 512 ∧ s.toList.all (fun c => c.toNat < 128) ∧ isDevicePath s then some s
    else none
  | _ => none

def recoveryBindingForDocument (fields : List (String × Json)) (version : Option String) :
    Option RecoveryBinding :=
  match fields.lookup "recovery_binding" with
  | none => some (if version.isSome then .verifiedApplication else .legacyUnknown)
  | some (.str text) => RecoveryBinding.ofText text
  | some _ => none

def safeHandoffDeadline (value : Json) : Option ℤ :=
  match value with
  | .int n => if 0 ≤ n ∧ n ≤ 4102444800 then some n else none
  | _ => none

def optionJson (value : Option String) : Json := value.elim .null .str

namespace DeviceStateStore

def decodeFields (fields : List (String × Json)) : Option KnownDevice :=
  match Json.get fields "topology" with
  | .str topology =>
    if !isTopology topology then none
    else
      let version := safeOptionalText (Json.get fields "version") 512
      let handoffDeadline := safeHandoffDeadline (Json.get fields "handoff_deadline")
      match recoveryBindingForDocument fields version with
      | none => none
      | some binding =>
        if binding = .handoffPending ∧ handoffDeadline = none then none
        else some {
          topology := topology
          usbSerial := safeOptionalText (Json.get fields "usb_serial") 128
          version := version
          configuredDevice := safeOptionalDevicePath (Json.get fields "configured_device")
          recoveryBinding := binding
          handoffDeadline := if binding = .handoffPending then handoffDeadline else none }
  | _ => none

def decode : StateRead → Except Exn (Option KnownDevice)
  | .missing => .ok none
  | .raised e => .error e
  | .file content =>
    if maxStateBytes < content.size then .ok none
    else match content.document with
      | some (.obj fields) => .ok (decodeFields fields)
      | _ => .ok none

def fields (device : KnownDevice) (handoffDeadline : Option ℤ) : List (String × Json) :=
  [("topology", .str device.topology),
   ("usb_serial", optionJson (safeOptionalText (optionJson device.usbSerial) 128)),
   ("version", optionJson (safeOptionalText (optionJson device.version) 512)),
   ("configured_device", optionJson (safeOptionalDevicePath (optionJson device.configuredDevice))),
   ("recovery_binding", .str device.recoveryBinding.text),
   ("handoff_deadline", handoffDeadline.elim .null .int)]

def encode (device : KnownDevice) : Except Exn StateFile :=
  let handoffDeadline := safeHandoffDeadline (device.handoffDeadline.elim .null .int)
  if device.recoveryBinding = .handoffPending ∧ handoffDeadline = none then
    .error (.valueError "handoff-pending recovery state requires a deadline")
  else do
    let handoffDeadline :=
      if device.recoveryBinding = .handoffPending then handoffDeadline else none
    let _ ← validateUsbTopology device.topology
    let document := fields device handoffDeadline
    return ⟨(Json.dumpsFields document).length, some (.obj document)⟩

end DeviceStateStore

/-! ## What a saved record reads back as -/

/-- The record a state file holds, whatever its size. -/
def StateFile.record (file : StateFile) : Option KnownDevice :=
  match file.document with
  | some (.obj fields) => DeviceStateStore.decodeFields fields
  | _ => none

/-- A device with the fields that do not pass their sanitizer dropped. -/
def KnownDevice.normalize (d : KnownDevice) : KnownDevice where
  topology := d.topology
  usbSerial := safeOptionalText (optionJson d.usbSerial) 128
  version := safeOptionalText (optionJson d.version) 512
  configuredDevice := safeOptionalDevicePath (optionJson d.configuredDevice)
  recoveryBinding := d.recoveryBinding
  handoffDeadline := if d.recoveryBinding = .handoffPending then d.handoffDeadline else none

theorem RecoveryBinding.ofText_text (b : RecoveryBinding) : ofText b.text = some b := by
  cases b <;> decide

theorem safeOptionalText_idem (value : Json) (maximum : ℕ) :
    safeOptionalText (optionJson (safeOptionalText value maximum)) maximum =
      safeOptionalText value maximum := by
  cases value with
  | str s =>
    by_cases h : isSafeText s maximum
    · simp [safeOptionalText, optionJson, h]
    · simp [safeOptionalText, optionJson, h]
  | _ => rfl

theorem safeOptionalText_of_safe {value : Option String} {maximum : ℕ}
    (h : ∀ s ∈ value, isSafeText s maximum = true) :
    safeOptionalText (optionJson value) maximum = value := by
  cases value with
  | none => rfl
  | some s => simp [safeOptionalText, optionJson, h s rfl]

theorem safeOptionalDevicePath_idem (value : Json) :
    safeOptionalDevicePath (optionJson (safeOptionalDevicePath value)) =
      safeOptionalDevicePath value := by
  cases value with
  | str s =>
    simp only [safeOptionalDevicePath]
    split_ifs with h
    · simp only [optionJson, Option.elim_some, if_pos h]
    · rfl
  | _ => rfl

theorem safeHandoffDeadline_some {value : Option ℤ} {deadline : ℤ}
    (h : safeHandoffDeadline (value.elim .null .int) = some deadline) : value = some deadline := by
  cases value with
  | none => simp [safeHandoffDeadline] at h
  | some n =>
    simp only [safeHandoffDeadline, Option.elim_some] at h
    split_ifs at h
    exact h

namespace DeviceStateStore

theorem encode_ok {d : KnownDevice} {file : StateFile} (h : encode d = .ok file) :
    isTopology d.topology = true ∧ (d.recoveryBinding = .handoffPending →
      safeHandoffDeadline (d.handoffDeadline.elim .null .int) = d.handoffDeadline) ∧
    file.document = some (.obj (fields d (if d.recoveryBinding = .handoffPending then
      safeHandoffDeadline (d.handoffDeadline.elim .null .int) else none))) := by
  simp only [encode] at h
  split_ifs at h with hd ht
  · by_cases hv : isTopology d.topology
    · simp only [validateUsbTopology, hv, if_true, bind, Except.bind, pure, Except.pure,
        Except.ok.injEq] at h
      subst h
      refine ⟨hv, fun _ => ?_, by simp [ht]⟩
      cases hs : safeHandoffDeadline (d.handoffDeadline.elim .null .int) with
      | none => exact absurd ⟨ht, hs⟩ hd
      | some n => exact (safeHandoffDeadline_some hs).symm
    · simp [validateUsbTopology, hv, bind, Except.bind] at h
  · by_cases hv : isTopology d.topology
    · simp only [validateUsbTopology, hv, if_true, bind, Except.bind, pure, Except.pure,
        Except.ok.injEq] at h
      subst h
      exact ⟨hv, fun hb => absurd hb ht, by simp [ht]⟩
    · simp [validateUsbTopology, hv, bind, Except.bind] at h

theorem lookup_fields (d : KnownDevice) (deadline : Option ℤ) :
    (fields d deadline).lookup "topology" = some (.str d.topology) ∧
    (fields d deadline).lookup "usb_serial" =
      some (optionJson (safeOptionalText (optionJson d.usbSerial) 128)) ∧
    (fields d deadline).lookup "version" =
      some (optionJson (safeOptionalText (optionJson d.version) 512)) ∧
    (fields d deadline).lookup "configured_device" =
      some (optionJson (safeOptionalDevicePath (optionJson d.configuredDevice))) ∧
    (fields d deadline).lookup "recovery_binding" = some (.str d.recoveryBinding.text) ∧
    (fields d deadline).lookup "handoff_deadline" = some (deadline.elim .null .int) := by
  simp only [fields, List.lookup_cons]
  exact ⟨by simp, by simp, by simp, by simp, by simp, by simp⟩

theorem decodeFields_fields {d : KnownDevice} {deadline : Option ℤ}
    (ht : isTopology d.topology = true)
    (hd : safeHandoffDeadline (deadline.elim .null .int) = deadline)
    (hb : if d.recoveryBinding = .handoffPending then deadline = d.handoffDeadline ∧ deadline ≠ none
      else deadline = none) :
    decodeFields (fields d deadline) = some d.normalize := by
  obtain ⟨h₁, h₂, h₃, h₄, h₅, h₆⟩ := lookup_fields d deadline
  simp only [decodeFields, Json.get, recoveryBindingForDocument, h₁, h₂, h₃, h₄, h₅, h₆,
    Option.getD_some, ht, Bool.not_true, Bool.false_eq_true, if_false, RecoveryBinding.ofText_text,
    safeOptionalText_idem, safeOptionalDevicePath_idem, hd]
  by_cases hp : d.recoveryBinding = .handoffPending
  · rw [if_pos hp] at hb
    simp [hp, hb.2, KnownDevice.normalize, ← hb.1]
  · simp [hp, KnownDevice.normalize]

/-- What has been saved is what will be read, up to the sanitizers. -/
theorem record_encode {d : KnownDevice} {file : StateFile} (h : encode d = .ok file) :
    file.record = some d.normalize := by
  obtain ⟨ht, hd, hdoc⟩ := encode_ok h
  simp only [StateFile.record, hdoc]
  by_cases hp : d.recoveryBinding = .handoffPending
  · have hdead := hd hp
    have hsome : d.handoffDeadline ≠ none := by
      intro hn
      simp [encode, hp, hn, safeHandoffDeadline] at h
    rw [if_pos hp, hdead]
    exact decodeFields_fields ht hdead (by rw [if_pos hp]; exact ⟨rfl, hsome⟩)
  · rw [if_neg hp]
    exact decodeFields_fields ht rfl (by rw [if_neg hp])

end DeviceStateStore

end Cul868Flasher
