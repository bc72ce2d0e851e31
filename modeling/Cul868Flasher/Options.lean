import Cul868Flasher.Flasher.Lookup
import Cul868Flasher.Python.JsonText

/-!
# The Supervisor options

`Settings.fromMapping` is the only way from the options of the app to its
settings. `Settings.Admitted` collects what the checks leave.
-/

namespace Cul868Flasher
open Python

def supportedBaudrates : List ℕ := [9600, 19200, 38400, 57600, 115200]
def defaultBaudrate : ℤ := 9600
def defaultBootTimeout : ℤ := 90
def defaultQemuUsbReenumerationWorkaround : Bool := false
def maxAdditionalCulAddons : ℕ := 16

def requiredString (value : Json) (name : String) : Except Exn String :=
  match value with
  | .str s => if s = "" then .error (.valueError s!"{name} must be a non-empty string") else .ok s
  | _ => .error (.valueError s!"{name} must be a non-empty string")

def optionalBool (value : Json) (name : String) (default : Bool) : Except Exn Bool :=
  match value with
  | .null => .ok default
  | .bool b => .ok b
  | _ => .error (.valueError s!"{name} must be a boolean")

def integer (value : Json) (name : String) (default : ℤ) : Except Exn ℤ :=
  match value with
  | .null => .ok default
  | .int n => .ok n
  | _ => .error (.valueError s!"{name} must be an integer")

def devicePath (value : Json) : Except Exn Path := do
  let raw ← requiredString value "device"
  if 512 < raw.length ∨ '\x00' ∈ raw.toList then
    .error (.valueError "device path is invalid")
  else
    let normalized := Path.ofString raw
    if normalized.isAbsolute = false ∨ normalized.parts.take 2 ≠ ["/", "dev"] then
      .error (.valueError "device must be a Home Assistant mapped /dev path")
    else if ".." ∈ normalized.parts ∨ normalized.parts.length < 3 then
      .error (.valueError "device path is invalid")
    else .ok normalized

/-- Lowercase letters, digits, `_` and `-`, as in the slugs of the Supervisor. -/
def isSlugChar (c : Char) : Bool :=
  ('a' ≤ c && c ≤ 'z') || ('0' ≤ c && c ≤ '9') || c = '_' || c = '-'

def addonSlug (value : Json) : Except Exn String :=
  match value with
  | .str s =>
    if s = "" ∨ 128 < s.length ∨ s = "self" ∨ s.toList.all isSlugChar = false then
      .error (.valueError "additional_cul_addons contains an invalid app slug")
    else .ok s
  | _ => .error (.valueError "additional_cul_addons contains an invalid app slug")

def additionalCulAddons (value : Json) : Except Exn (List String) :=
  match value with
  | .null => .ok []
  | .arr items =>
    if maxAdditionalCulAddons < items.length then
      .error (.valueError (s!"additional_cul_addons must be a list of at most " ++
        s!"{maxAdditionalCulAddons} app slugs"))
    else do
      let slugs ← items.mapM addonSlug
      return sortedSet slugs
  | _ => .error (.valueError (s!"additional_cul_addons must be a list of at most " ++
      s!"{maxAdditionalCulAddons} app slugs"))

/-- The schema delivers the baud rate as text, whose digits `int` reads up to a
limit of its own. -/
def baudrateNumber (value : Json) : Except Exn ℤ :=
  match value with
  | .int n => .ok n
  | .str s =>
    if s = "" ∨ s.toList.all Char.isDigit = false then
      .error (.valueError "baudrate must be an integer")
    else if 4300 < s.length then
      .error (.valueError ("Exceeds the limit (4300 digits) for integer string conversion: " ++
        s!"value has {s.length} digits; use sys.set_int_max_str_digits() to increase the limit"))
    else .ok (decimal s.toList)
  | _ => .error (.valueError "baudrate must be an integer")

def baudrateOption (value : Json) : Except Exn ℕ := do
  let baudrate ← baudrateNumber value
  match supportedBaudrates.find? fun (supported : ℕ) => (supported : ℤ) = baudrate with
  | some supported => .ok supported
  | none => .error (.valueError "baudrate is not supported by this app")

deriving instance DecidableEq for Settings

def Settings.fromMapping (options : List (String × Json)) : Except Exn Settings := do
  let device ← devicePath (Json.get options "device")
  let baudrate ← baudrateOption ((options.lookup "baudrate").getD (.int defaultBaudrate))
  let bootTimeout ← integer (Json.get options "boot_timeout") "boot_timeout" defaultBootTimeout
  if ¬ (15 ≤ bootTimeout ∧ bootTimeout ≤ 120) then
    .error (.valueError "boot_timeout must be between 15 and 120 seconds")
  else
    let qemuUsbReenumerationWorkaround ← optionalBool
      (Json.get options "qemu_usb_reenumeration_workaround") "qemu_usb_reenumeration_workaround"
      defaultQemuUsbReenumerationWorkaround
    let additionalCulAddons ←
      Cul868Flasher.additionalCulAddons (Json.get options "additional_cul_addons")
    return {
      device := device
      baudrate := baudrate
      bootTimeout := bootTimeout
      qemuUsbReenumerationWorkaround := qemuUsbReenumerationWorkaround
      additionalCulAddons := additionalCulAddons }

/-! ## What the checks leave -/

/-- A path below `/dev`, in the form that `pathlib` gives it. -/
structure DevicePath (path : Path) : Prop where
  root : path.root = "/"
  dev : ∃ name names, path.tail = "dev" :: name :: names
  components : ∀ name ∈ path.tail, Path.IsComponent name.toList ∧ name ≠ ".."
  length : (toString path).length ≤ 512

structure Settings.Admitted (settings : Settings) : Prop where
  device : DevicePath settings.device
  baudrate : settings.baudrate ∈ supportedBaudrates
  bootTimeout : 15 ≤ settings.bootTimeout ∧ settings.bootTimeout ≤ 120

/-- The state file and the search for consumers have the same notion of a device path. -/
theorem DevicePath.isDevicePath {path : Path} {text : String} (h : DevicePath path)
    (htext : Path.ofString text = path) : isDevicePath text = true := by
  have hroot : path.root ≠ "" := by
    rw [h.root]
    decide
  obtain ⟨name, names, hdev⟩ := h.dev
  have hparts : path.parts = "/" :: path.tail := by rw [Path.parts, if_neg hroot, h.root]
  have hparent : ".." ∉ path.parts := by
    rw [hparts, List.mem_cons, not_or]
    exact ⟨by decide, fun hmem => (h.components _ hmem).2 rfl⟩
  have hprefix : path.parts.take 2 = ["/", "dev"] := by rw [hparts, hdev]; rfl
  simp [Cul868Flasher.isDevicePath, htext, Path.isAbsolute, hroot, hprefix, hparent]

theorem requiredString_ok {value : Json} {name s : String} (h : requiredString value name = .ok s) :
    value = .str s := by
  cases value with
  | str raw =>
    simp only [requiredString] at h
    split_ifs at h
    cases h
    rfl
  | _ => cases h

/-- What a path made of three or more parts under `/dev` looks like. -/
theorem dev_of_parts {path : Path} (hroot : path.isAbsolute = true)
    (hparts : path.parts.take 2 = ["/", "dev"]) (hlength : ¬ path.parts.length < 3) :
    path.root = "/" ∧ ∃ name names, path.tail = "dev" :: name :: names := by
  have hne : path.root ≠ "" := by simpa [Path.isAbsolute] using hroot
  rw [Path.parts, if_neg hne] at hparts hlength
  obtain ⟨root, tail⟩ := path
  match tail with
  | [] => simp at hparts
  | [_] => simp at hlength
  | first :: name :: names =>
    simp only [List.take_succ_cons, List.take_zero, List.cons.injEq, and_true] at hparts
    obtain ⟨rfl, rfl⟩ := hparts
    exact ⟨rfl, name, names, rfl⟩

/-- The text of a path that the options admit. -/
structure DeviceText (raw : String) (path : Path) : Prop where
  ofString : Path.ofString raw = path
  path : DevicePath path
  length : raw.length ≤ 512
  no_nul : '\x00' ∉ raw.toList

theorem DeviceText.slash {raw : String} {path : Path} (h : DeviceText raw path) :
    ∃ cs, raw.toList = '/' :: cs :=
  Path.exists_of_root (by rw [h.ofString]; exact h.path.root)

theorem devicePath_ok {value : Json} {path : Path} (h : devicePath value = .ok path) :
    ∃ raw, value = .str raw ∧ DeviceText raw path := by
  rw [devicePath] at h
  cases hraw : requiredString value "device" with
  | error e =>
    rw [hraw] at h
    cases h
  | ok raw =>
    rw [hraw] at h
    simp only [bind, Except.bind] at h
    split_ifs at h with hlength habsolute hparts
    cases h
    rw [not_or] at hlength habsolute hparts
    obtain ⟨hroot, hdev⟩ := dev_of_parts (by simpa using habsolute.1) (by simpa using habsolute.2)
      hparts.2
    have hle : raw.length ≤ 512 := by omega
    refine ⟨raw, requiredString_ok hraw, rfl, ⟨hroot, hdev, fun name hname => ?_, ?_⟩, hle,
      hlength.2⟩
    · refine ⟨Path.isComponent_tail raw name hname, ?_⟩
      rintro rfl
      refine hparts.1 ?_
      rw [Path.parts, if_neg (by rw [hroot]; decide)]
      exact List.mem_cons_of_mem _ hname
    · exact le_trans (Path.length_toString_le hroot) hle

theorem baudrateOption_ok {value : Json} {baudrate : ℕ} (h : baudrateOption value = .ok baudrate) :
    baudrate ∈ supportedBaudrates := by
  rw [baudrateOption] at h
  cases hnumber : baudrateNumber value with
  | error e =>
    rw [hnumber] at h
    cases h
  | ok n =>
    rw [hnumber] at h
    simp only [bind, Except.bind] at h
    split at h
    · rename_i supported hfound
      cases h
      exact List.mem_of_find?_eq_some hfound
    · cases h

/-- Settings that the options are turned into have passed every check. -/
theorem Settings.admitted {options : List (String × Json)} {settings : Settings}
    (h : fromMapping options = .ok settings) : settings.Admitted := by
  simp only [fromMapping, bind, Except.bind] at h
  split at h
  · cases h
  · rename_i device hdevice
    obtain ⟨raw, -, hraw⟩ := devicePath_ok hdevice
    split at h
    · cases h
    · rename_i baudrate hbaudrate
      split at h
      · cases h
      · split_ifs at h with htimeout
        split at h
        · cases h
        · split at h
          · cases h
          · cases h
            exact ⟨hraw.path, baudrateOption_ok hbaudrate, htimeout⟩

end Cul868Flasher
