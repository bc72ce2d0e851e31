import Cul868Flasher.Python.JsonText
import Cul868Flasher.State

/-!
# The state file as text

The payload that `DeviceStateStore.save` writes, the file that a text makes, and
the size of the payload of a record.
-/

namespace Cul868Flasher
open Python

/-- What `DeviceStateStore.load` sees of a file with this text. -/
def StateFile.ofText (text : List Char) : StateFile :=
  ⟨(text.map Char.utf8Size).sum, Json.loads text⟩

/-- The conditions under which `DeviceStateStore.save` writes a payload at all. -/
structure KnownDevice.Storable (d : KnownDevice) : Prop where
  topology : isTopology d.topology = true
  handoffDeadline : d.recoveryBinding = .handoffPending →
    ∃ n, d.handoffDeadline = some n ∧ 0 ≤ n ∧ n ≤ 4102444800

def jsonTextSize (s : String) : ℕ := 2 + (s.toList.map fun c => (Json.escapeChar c).length).sum

def optionTextSize (value : Option String) : ℕ := value.elim 4 jsonTextSize

/-- The bytes that a saved record takes: keys and punctuation, and the six values
with their fields sanitized and their characters escaped. -/
def KnownDevice.storedSize (d : KnownDevice) : ℕ :=
  99 + jsonTextSize d.topology + optionTextSize d.normalize.usbSerial +
    optionTextSize d.normalize.version + optionTextSize d.normalize.configuredDevice +
    jsonTextSize d.recoveryBinding.text +
    d.normalize.handoffDeadline.elim 4 fun n => (toString n).length

namespace DeviceStateStore

/-- The text of the JSON document that `save` writes. -/
def payload (device : KnownDevice) : Except Exn (List Char) :=
  let handoffDeadline := safeHandoffDeadline (device.handoffDeadline.elim .null .int)
  if device.recoveryBinding = .handoffPending ∧ handoffDeadline = none then
    .error (.valueError "handoff-pending recovery state requires a deadline")
  else do
    let handoffDeadline :=
      if device.recoveryBinding = .handoffPending then handoffDeadline else none
    let _ ← validateUsbTopology device.topology
    return Json.dumpsFields (fields device handoffDeadline)

/-! ## The text of a document is plain ASCII -/

theorem utf8Size_eq_one {c : Char} (h : c.toNat < 128) : c.utf8Size = 1 := by
  have hval : c.val.toNat ≤ 127 := Nat.le_of_lt_succ h
  exact Char.utf8Size_eq_one_iff.mpr (UInt32.le_iff_toNat_le.mpr hval)

theorem size_ofText {text : List Char} (h : ∀ c ∈ text, c.toNat < 128) :
    (StateFile.ofText text).size = text.length := by
  change (text.map Char.utf8Size).sum = text.length
  rw [List.map_congr_left fun c hc => utf8Size_eq_one (h c hc)]
  simp

theorem hexDigitChar_ascii {n : ℕ} (h : n < 16) : (Json.hexDigitChar n).toNat < 128 := by
  have hall : ∀ m < 16, (Json.hexDigitChar m).toNat < 128 := by decide
  exact hall n h

theorem escapeUnit_ascii (n : ℕ) : ∀ c ∈ Json.escapeUnit n, c.toNat < 128 := by
  have hmod (m : ℕ) : m % 16 < 16 := Nat.mod_lt m (by decide)
  simp only [Json.escapeUnit, List.mem_cons, List.not_mem_nil, or_false, forall_eq_or_imp,
    forall_eq]
  exact ⟨by decide, by decide, hexDigitChar_ascii (hmod _), hexDigitChar_ascii (hmod _),
    hexDigitChar_ascii (hmod _), hexDigitChar_ascii (hmod _)⟩

theorem ascii_of_all {cs : List Char} (h : cs.all (·.toNat < 128) = true) :
    ∀ c ∈ cs, c.toNat < 128 :=
  fun c hc => of_decide_eq_true (List.all_eq_true.mp h c hc)

theorem escapeChar_ascii (c : Char) : ∀ x ∈ Json.escapeChar c, x.toNat < 128 := by
  unfold Json.escapeChar
  split_ifs with h₁ h₂ h₃ h₄ h₅ h₆ h₇ h₈ h₉
  · exact ascii_of_all (by decide)
  · exact ascii_of_all (by decide)
  · exact ascii_of_all (by decide)
  · exact ascii_of_all (by decide)
  · exact ascii_of_all (by decide)
  · exact ascii_of_all (by decide)
  · exact ascii_of_all (by decide)
  · intro x hx
    rw [List.mem_singleton.mp hx]
    omega
  · exact escapeUnit_ascii _
  · intro x hx
    rcases List.mem_append.mp hx with hx | hx
    · exact escapeUnit_ascii _ x hx
    · exact escapeUnit_ascii _ x hx

theorem dumpsString_ascii (s : String) : ∀ c ∈ Json.dumpsString s, c.toNat < 128 := by
  intro c hc
  simp only [Json.dumpsString, List.cons_append, List.mem_cons, List.mem_append, List.mem_flatMap,
    List.not_mem_nil, or_false] at hc
  rcases hc with rfl | ⟨x, -, hx⟩ | rfl
  · decide
  · exact escapeChar_ascii x c hx
  · decide

theorem toString_int_ascii (n : ℤ) : ∀ c ∈ (toString n).toList, c.toNat < 128 := by
  have hdigit {c : Char} (h : c.isDigit = true) : c.toNat < 128 := by
    have hnine : '9'.toNat = 57 := rfl
    rw [Char.isDigit_iff_toNat] at h
    omega
  intro c hc
  cases n with
  | ofNat n =>
    rw [Json.toString_ofNat] at hc
    exact hdigit (Json.isDigit_of_mem hc)
  | negSucc n =>
    rw [Json.toString_negSucc] at hc
    rcases List.mem_cons.mp hc with rfl | hc
    · decide
    · exact hdigit (Json.isDigit_of_mem hc)

theorem dumpsScalar_ascii {value : Json} (h : value.IsScalar) :
    ∀ c ∈ Json.dumpsScalar value, c.toNat < 128 := by
  cases value with
  | null => exact ascii_of_all (by decide)
  | bool b => cases b <;> exact ascii_of_all (by decide)
  | int n => exact toString_int_ascii n
  | str s => exact dumpsString_ascii s
  | float digits => exact h.elim
  | arr items => exact h.elim
  | obj fields => exact h.elim

theorem mem_intercalate {x : Char} {sep : List Char} {ls : List (List Char)}
    (h : x ∈ sep.intercalate ls) : x ∈ sep ∨ ∃ l ∈ ls, x ∈ l := by
  induction ls with
  | nil => cases h
  | cons l ls ih =>
    cases ls with
    | nil => exact .inr ⟨l, by simp, by simpa using h⟩
    | cons l' ls =>
      rw [List.intercalate_cons_cons, List.append_assoc, List.mem_append, List.mem_append] at h
      rcases h with h | h | h
      · exact .inr ⟨l, by simp, h⟩
      · exact .inl h
      · rcases ih h with h | ⟨y, hy, h⟩
        · exact .inl h
        · exact .inr ⟨y, List.mem_cons_of_mem _ hy, h⟩

theorem dumpsFields_ascii {fields : List (String × Json)} (h : ∀ f ∈ fields, f.2.IsScalar) :
    ∀ c ∈ Json.dumpsFields fields, c.toNat < 128 := by
  intro c hc
  simp only [Json.dumpsFields, List.cons_append, List.mem_cons, List.mem_append, List.not_mem_nil,
    or_false] at hc
  rcases hc with rfl | hc | rfl
  · decide
  · rcases mem_intercalate hc with hc | ⟨l, hl, hc⟩
    · rw [List.mem_singleton.mp hc]
      decide
    · obtain ⟨field, hfield, rfl⟩ := List.mem_map.mp hl
      rcases List.mem_append.mp hc with hc | hc
      · exact dumpsString_ascii _ c hc
      · rcases List.mem_cons.mp hc with rfl | hc
        · decide
        · exact dumpsScalar_ascii (h field hfield) c hc
  · decide

/-! ## The payload and its size -/

theorem isScalar_optionJson (value : Option String) : (optionJson value).IsScalar := by
  cases value <;> trivial

theorem fields_scalar (d : KnownDevice) (deadline : Option ℤ) :
    ∀ f ∈ fields d deadline, f.2.IsScalar := by
  have hdeadline : (deadline.elim Json.null Json.int).IsScalar := by
    cases deadline <;> trivial
  simp only [fields, List.mem_cons, List.not_mem_nil, or_false, forall_eq_or_imp, forall_eq]
  exact ⟨trivial, isScalar_optionJson _, isScalar_optionJson _, isScalar_optionJson _, trivial,
    hdeadline⟩

theorem fields_keys (d : KnownDevice) (deadline : Option ℤ) :
    ((fields d deadline).map Prod.fst).Nodup := by
  simp only [fields, List.map_cons, List.map_nil]
  decide

theorem ofText_fields (d : KnownDevice) (deadline : Option ℤ) :
    StateFile.ofText (Json.dumpsFields (fields d deadline)) =
      ⟨(Json.dumpsFields (fields d deadline)).length, some (.obj (fields d deadline))⟩ := by
  have hsize := size_ofText (dumpsFields_ascii (fields_scalar d deadline))
  have hdocument := Json.loads_dumpsFields (fields_scalar d deadline) (fields_keys d deadline)
  rw [StateFile.ofText] at hsize ⊢
  rw [hdocument] at hsize ⊢
  dsimp only at hsize
  rw [hsize]

/-- The file that a save puts in place is the file of its payload. -/
theorem encode_eq (d : KnownDevice) : encode d = (payload d).map StateFile.ofText := by
  unfold encode payload
  dsimp only
  split_ifs with hd hb
  · rfl
  · cases hv : validateUsbTopology d.topology with
    | error e => rfl
    | ok topology =>
      simp only [bind, Except.bind, pure, Except.pure, Except.map, ofText_fields]
  · cases hv : validateUsbTopology d.topology with
    | error e => rfl
    | ok topology =>
      simp only [bind, Except.bind, pure, Except.pure, Except.map, ofText_fields]

theorem length_dumpsString (s : String) : (Json.dumpsString s).length = jsonTextSize s := by
  simp only [Json.dumpsString, jsonTextSize, List.length_cons, List.length_append,
    List.length_flatMap, List.cons_append, List.length_nil]
  omega

theorem length_optionJson (value : Option String) :
    (Json.dumpsScalar (optionJson value)).length = optionTextSize value := by
  cases value with
  | none => rfl
  | some s => exact length_dumpsString s

theorem length_deadline (deadline : Option ℤ) :
    (Json.dumpsScalar (deadline.elim .null .int)).length =
      deadline.elim 4 fun n => (toString n).length := by
  cases deadline with
  | none => rfl
  | some n => exact String.length_toList

theorem length_fields (d : KnownDevice) (deadline : Option ℤ) :
    (Json.dumpsFields (fields d deadline)).length =
      99 + jsonTextSize d.topology + optionTextSize d.normalize.usbSerial +
        optionTextSize d.normalize.version + optionTextSize d.normalize.configuredDevice +
        jsonTextSize d.recoveryBinding.text + deadline.elim 4 fun n => (toString n).length := by
  have hkey : (Json.dumpsString "topology").length = 10 ∧
      (Json.dumpsString "usb_serial").length = 12 ∧ (Json.dumpsString "version").length = 9 ∧
      (Json.dumpsString "configured_device").length = 19 ∧
      (Json.dumpsString "recovery_binding").length = 18 ∧
      (Json.dumpsString "handoff_deadline").length = 18 := by decide
  obtain ⟨h₁, h₂, h₃, h₄, h₅, h₆⟩ := hkey
  simp only [Json.dumpsFields, fields, List.map_cons, List.map_nil, List.intercalate_cons_cons,
    List.intercalate_singleton, List.length_cons, List.length_append, List.length_nil,
    List.cons_append, h₁, h₂, h₃, h₄, h₅, h₆, length_optionJson, length_deadline]
  simp only [Json.dumpsScalar, length_dumpsString, KnownDevice.normalize]
  omega

end DeviceStateStore

/-! ## Records that can be saved -/

namespace KnownDevice
variable {d : KnownDevice}

/-- The deadline that is written is the one the record keeps. -/
theorem Storable.deadline (h : d.Storable) : (if d.recoveryBinding = .handoffPending then
    safeHandoffDeadline (d.handoffDeadline.elim .null .int) else none) =
      d.normalize.handoffDeadline := by
  by_cases hb : d.recoveryBinding = .handoffPending
  · obtain ⟨n, hn, hrange⟩ := h.handoffDeadline hb
    simp [hb, hn, normalize, safeHandoffDeadline, hrange]
  · simp [hb, normalize]

/-- A record that can be stored is written, with the size that is told. -/
theorem Storable.encode (h : d.Storable) : ∃ file, DeviceStateStore.encode d = .ok file ∧
    file.size = d.storedSize := by
  have hdeadline := h.deadline
  have hpending : ¬ (d.recoveryBinding = .handoffPending ∧
      safeHandoffDeadline (d.handoffDeadline.elim .null .int) = none) := by
    rintro ⟨hb, hnone⟩
    obtain ⟨n, hn, hrange⟩ := h.handoffDeadline hb
    simp [hn, safeHandoffDeadline, hrange] at hnone
  refine ⟨⟨(Json.dumpsFields (DeviceStateStore.fields d d.normalize.handoffDeadline)).length,
    some (.obj (DeviceStateStore.fields d d.normalize.handoffDeadline))⟩, ?_,
    DeviceStateStore.length_fields d _⟩
  simp only [DeviceStateStore.encode, if_neg hpending, hdeadline, validateUsbTopology, h.topology,
    if_true, bind, Except.bind, pure, Except.pure]

theorem storable_of_encode {file : StateFile} (h : DeviceStateStore.encode d = .ok file) :
    d.Storable := by
  obtain ⟨htopology, hdeadline, -⟩ := DeviceStateStore.encode_ok h
  refine ⟨htopology, fun hb => ?_⟩
  cases hd : d.handoffDeadline with
  | none => simp [DeviceStateStore.encode, hb, hd, safeHandoffDeadline] at h
  | some n =>
    refine ⟨n, rfl, ?_⟩
    by_contra hrange
    have hnone := hdeadline hb
    rw [hd] at hnone
    simp [safeHandoffDeadline, hrange] at hnone

theorem size_of_encode {file : StateFile} (h : DeviceStateStore.encode d = .ok file) :
    file.size = d.storedSize := by
  obtain ⟨file', h', hsize⟩ := (storable_of_encode h).encode
  rw [h] at h'
  rw [Except.ok.inj h', hsize]

theorem normalize_normalize (d : KnownDevice) : d.normalize.normalize = d.normalize := by
  by_cases hb : d.recoveryBinding = .handoffPending
  · simp [normalize, hb, safeOptionalText_idem, safeOptionalDevicePath_idem]
  · simp [normalize, hb, safeOptionalText_idem, safeOptionalDevicePath_idem]

theorem safeHandoffDeadline_range {value : Json} {n : ℤ} (h : safeHandoffDeadline value = some n) :
    0 ≤ n ∧ n ≤ 4102444800 := by
  cases value with
  | int m =>
    simp only [safeHandoffDeadline] at h
    split_ifs at h with hrange
    cases h
    exact hrange
  | _ => cases h

/-- What a file reads back as has the form of a saved record. -/
theorem normalize_of_decode {fields : List (String × Json)}
    (h : DeviceStateStore.decodeFields fields = some d) : d.normalize = d ∧ d.Storable := by
  simp only [DeviceStateStore.decodeFields] at h
  split at h
  · split_ifs at h with htopology
    split at h
    · cases h
    · split_ifs at h with hpending
      · cases h
        refine ⟨by simp [normalize, ‹_ = RecoveryBinding.handoffPending›, safeOptionalText_idem,
          safeOptionalDevicePath_idem], by simpa using htopology, fun hb => ?_⟩
        obtain ⟨n, hn⟩ := Option.ne_none_iff_exists'.mp fun hnone => hpending ⟨hb, hnone⟩
        exact ⟨n, hn, safeHandoffDeadline_range hn⟩
      · cases h
        refine ⟨by simp [normalize, safeOptionalText_idem, safeOptionalDevicePath_idem],
          by simpa using htopology, fun hb => ?_⟩
        exact absurd hb ‹_›
  · cases h

theorem normalize_of_load {read : StateRead}
    (h : DeviceStateStore.decode read = .ok (some d)) : d.normalize = d := by
  cases read with
  | missing => cases h
  | raised e => cases h
  | file content =>
    rw [DeviceStateStore.decode] at h
    split_ifs at h
    · cases h
    · split at h
      · exact (normalize_of_decode (Except.ok.inj h)).1
      · cases h

end KnownDevice
end Cul868Flasher
