import Cul868Flasher.Errors
import Cul868Flasher.Python.Path
import Cul868Flasher.Python.Setdefault
import Cul868Flasher.Python.Text
import Mathlib.Data.List.Sort

/-!
# USB topology discovery

`Sysfs` is what one lookup can see of the USB tree. Every lookup of the source
is a function of such a snapshot, so two lookups may see two different trees.
-/

namespace Cul868Flasher
open Python

def applicationVendorId : String := "03eb"
def applicationProductId : String := "204b"
def bootloaderVendorId : String := "03eb"
def bootloaderProductId : String := "2ff4"

/-- `[1-9][0-9]*` -/
def isPortNumber : List Char → Bool
  | [] => false
  | c :: cs => '1' ≤ c && c ≤ '9' && cs.all fun d => '0' ≤ d && d ≤ '9'

/-- `[1-9][0-9]*-[1-9][0-9]*(?:\.[1-9][0-9]*)*` -/
def isTopology (value : String) : Bool :=
  match value.toList.splitOn '-' with
  | [bus, ports] => isPortNumber bus && (ports.splitOn '.').all isPortNumber
  | _ => false

def validateUsbTopology (value : String) : Except Exn String :=
  if isTopology value then .ok value
  else .error (.valueError "USB topology must look like 2-3 or 2-3.1")

/-- `[0-9a-f]{4}` -/
def isUsbId (value : String) : Bool :=
  value.length = 4 && value.toList.all fun c => ('0' ≤ c && c ≤ '9') || ('a' ≤ c && c ≤ 'f')

/-- Printable ASCII text of a bounded length, the form of a serial that can be stored. -/
def isSafeText (value : String) (maximum : ℕ) : Bool :=
  value ≠ "" && value.length ≤ maximum && value.toList.all isPrintable

structure UsbTarget where
  topology : String
  vendorId : String
  productId : String
  busNumber : ℕ
  deviceAddress : ℕ
  usbSerial : Option String
  product : Option String
  sysfsPath : Path
  deriving DecidableEq

def UsbTarget.vidPid (t : UsbTarget) : String := s!"{t.vendorId}:{t.productId}"

/-- What every target of a lookup satisfies. -/
structure UsbTarget.Valid (t : UsbTarget) : Prop where
  topology : isTopology t.topology = true
  usbSerial : ∀ s ∈ t.usbSerial, isSafeText s 128 = true

/-- A bootloader-only target that the operator has confirmed. -/
structure ManualRecoveryTarget where
  topology : String
  usbSerial : Option String
  topology_valid : isTopology topology = true
  serial_valid : ∀ s ∈ usbSerial, isSafeText s 128 = true

/-- The constructor with its `__post_init__` check. -/
def ManualRecoveryTarget.make (topology : String) (usbSerial : Option String) :
    Except Exn ManualRecoveryTarget :=
  if ht : isTopology topology then
    if hs : ∀ s ∈ usbSerial, isSafeText s 128 = true then .ok ⟨topology, usbSerial, ht, hs⟩
    else .error (.valueError "USB serial is invalid")
  else .error (.valueError "USB topology must look like 2-3 or 2-3.1")

/-- The directories and files a lookup reads. `none` is an `OSError`. -/
structure Sysfs where
  usbDevices : Option (List String)
  ttyClass : Option (List String)
  byId : Option (List String)
  read : Path → Option (List UInt8)
  resolve : Path → Option Path
  isSymlink : Path → Bool

def sysClassTty : Path := .ofString "/sys/class/tty"
def sysBusUsb : Path := .ofString "/sys/bus/usb/devices"
def devDirectory : Path := .ofString "/dev"
def byIdDirectory : Path := .ofString "/dev/serial/by-id"

def isTtyName (name : String) : Bool :=
  "ttyACM".toList.isPrefixOf name.toList || "ttyUSB".toList.isPrefixOf name.toList

namespace Sysfs

def readAttribute (fs : Sysfs) (path : Path) : Option String :=
  match fs.read path with
  | none => none
  | some raw =>
    if 1024 < raw.length then none
    else match decodeAscii raw with
      | none => none
      | some text => if strip text = [] then none else some (String.ofList (strip text))

def optionalText (fs : Sysfs) (path : Path) (maximum : ℕ) : Option String :=
  match fs.readAttribute path with
  | none => none
  | some value => if value.length ≤ maximum ∧ value.toList.all isPrintable then some value else none

/-- `none` is a `ValueError`, which the only caller turns into a `UsbTopologyError`. -/
def positiveInteger (fs : Sysfs) (path : Path) : Option ℕ :=
  match fs.readAttribute path with
  | none => none
  | some value =>
    if value.toList.all Char.isDigit then
      let parsed := decimal value.toList
      if parsed < 1 then none else some parsed
    else none

def targetFromPath (fs : Sysfs) (path : Path) : Except Exn UsbTarget :=
  match fs.readAttribute (path.child "idVendor"), fs.readAttribute (path.child "idProduct") with
  | some vendorId, some productId =>
    let vendorId := vendorId.toLower
    let productId := productId.toLower
    if !isUsbId vendorId || !isUsbId productId then
      .error (.usbTopologyError s!"{path.name} has malformed USB identifiers")
    else if !isTopology path.name then
      .error (.usbTopologyError s!"{path.name} has incomplete USB topology data")
    else match fs.positiveInteger (path.child "busnum"),
        fs.positiveInteger (path.child "devnum") with
      | some busNumber, some deviceAddress => .ok {
          topology := path.name
          vendorId := vendorId
          productId := productId
          busNumber := busNumber
          deviceAddress := deviceAddress
          usbSerial := fs.optionalText (path.child "serial") 128
          product := fs.optionalText (path.child "product") 128
          sysfsPath := path }
      | _, _ => .error (.usbTopologyError s!"{path.name} has incomplete USB topology data")
  | _, _ => .error (.usbTopologyError s!"{path.name} is not a USB device")

/-- The loop over a path and its parents; the components come innermost first. -/
def targetFromAncestors (fs : Sysfs) (root : String) : List String → Except Exn UsbTarget
  | [] => fs.targetFromPath ⟨root, []⟩
  | name :: rest =>
    match fs.targetFromPath ⟨root, (name :: rest).reverse⟩ with
    | .ok target => .ok target
    | .error _ => targetFromAncestors fs root rest

def targetFromDescendant (fs : Sysfs) (path : Path) : Except Exn UsbTarget :=
  match fs.targetFromAncestors path.root path.tail.reverse with
  | .ok target => .ok target
  | .error _ => .error (.usbTopologyError s!"could not find a USB device ancestor for {path}")

def targetForTty (fs : Sysfs) (ttyName : String) : Except Exn UsbTarget :=
  if !isTtyName ttyName then
    .error (.usbTopologyError s!"{ttyName} is not a USB CDC serial endpoint")
  else match fs.resolve ((sysClassTty.child ttyName).child "device") with
    | none => .error (.usbTopologyError s!"could not resolve USB topology for {ttyName}")
    | some devicePath => fs.targetFromDescendant devicePath

def allUsbTargets (fs : Sysfs) : Except Exn (List UsbTarget) :=
  match fs.usbDevices with
  | none => .error (.usbTopologyError "USB topology is unavailable inside this add-on")
  | some entries => .ok (entries.filterMap fun name =>
      (fs.targetFromPath (sysBusUsb.child name)).toOption)

def requireIdentity (target : UsbTarget) (vendorId productId label : String) : Except Exn Unit :=
  if target.vendorId ≠ vendorId ∨ target.productId ≠ productId then
    .error (.usbTopologyError (
      s!"selected serial device is {target.vidPid}, " ++
        s!"not the expected {label} {vendorId}:{productId}"))
  else .ok ()

def configuredApplication (fs : Sysfs) (device : Path) : Except Exn UsbTarget :=
  match fs.resolve device with
  | none => .error (.usbTopologyError s!"configured CUL serial device {device} is not present")
  | some resolved =>
    if resolved.parent ≠ devDirectory ∨ !isTtyName resolved.name then
      .error (.usbTopologyError
        s!"configured device {device} is not a supported USB serial endpoint")
    else do
      let target ← fs.targetForTty resolved.name
      requireIdentity target applicationVendorId applicationProductId "CUL application"
      return target

def matching (vendorId productId : String) (target : UsbTarget) : Bool :=
  target.vendorId = vendorId && target.productId = productId

def singleTarget (fs : Sysfs) (topology vendorId productId label : String) :
    Except Exn (Option UsbTarget) := do
  let topology ← validateUsbTopology topology
  let targets ← fs.allUsbTargets
  match targets.filter fun t => t.topology = topology && matching vendorId productId t with
  | [] => return none
  | [target] => return some target
  | _ => throw (.usbTopologyError s!"more than one {label} is present at USB path {topology}")

def applicationForTopology (fs : Sysfs) (topology : String) : Except Exn (Option UsbTarget) :=
  fs.singleTarget topology applicationVendorId applicationProductId "CUL application"

def bootloaderForTopology (fs : Sysfs) (topology : String) : Except Exn (Option UsbTarget) :=
  fs.singleTarget topology bootloaderVendorId bootloaderProductId "ATmega32U4 DFU bootloader"

/-- The physical device behind a target: aliases of it resolve to the same path. -/
def identity (fs : Sysfs) (target : UsbTarget) : Path :=
  (fs.resolve target.sysfsPath).getD target.sysfsPath

/-- `targets.setdefault(identity, target)` over the matching targets. -/
def dedupe (fs : Sysfs) (targets : List UsbTarget) : List UsbTarget :=
  targets.foldl (fun seen target =>
    if seen.any fun other => fs.identity other = fs.identity target then seen
    else seen ++ [target]) []

def targetsWithIdentity (fs : Sysfs) (vendorId productId : String) :
    Except Exn (List UsbTarget) := do
  let targets ← fs.allUsbTargets
  return (fs.dedupe (targets.filter (matching vendorId productId))).insertionSort
    fun a b => a.topology ≤ b.topology

def applicationTargets (fs : Sysfs) : Except Exn (List UsbTarget) :=
  fs.targetsWithIdentity applicationVendorId applicationProductId

def bootloaderTargets (fs : Sysfs) : Except Exn (List UsbTarget) :=
  fs.targetsWithIdentity bootloaderVendorId bootloaderProductId

def ttyForTopology (fs : Sysfs) (topology : String) : Except Exn (Option Path) :=
  match fs.ttyClass with
  | none => .ok none
  | some entries =>
    let hits := entries.filter fun name =>
      match fs.targetForTty name with
      | .error _ => false
      | .ok target => target.topology = topology &&
          matching applicationVendorId applicationProductId target
    match hits with
    | [] => .ok none
    | [name] => .ok (some (devDirectory.child name))
    | _ => .error (.usbTopologyError
        s!"more than one serial endpoint belongs to CUL USB path {topology}")

def byIdPathsForTty (fs : Sysfs) (tty : Path) : List Path :=
  match fs.resolve tty with
  | none => []
  | some resolvedTty =>
    match fs.byId with
    | none => []
    | some entries =>
      ((entries.map byIdDirectory.child).filter fun entry =>
        fs.isSymlink entry && fs.resolve entry = some resolvedTty).insertionSort
          fun a b => a.name ≤ b.name

/-! ## Targets of a lookup -/

theorem readAttribute_ne_empty {fs : Sysfs} {path : Path} {value : String}
    (h : fs.readAttribute path = some value) : value ≠ "" := by
  simp only [readAttribute] at h
  split at h
  · cases h
  · split_ifs at h
    split at h
    · cases h
    · split_ifs at h with hne
      cases h
      simpa using hne

theorem optionalText_safe {fs : Sysfs} {path : Path} {maximum : ℕ} :
    ∀ s ∈ fs.optionalText path maximum, isSafeText s maximum = true := by
  intro s hs
  simp only [optionalText, Option.mem_def] at hs
  split at hs
  · cases hs
  · rename_i value hv
    split_ifs at hs with hsafe
    cases hs
    have hne := readAttribute_ne_empty hv
    simp only [isSafeText, hne, hsafe.1, hsafe.2, decide_true, Bool.and_true, ne_eq,
      not_false_eq_true]

theorem targetFromPath_valid {fs : Sysfs} {path : Path} {t : UsbTarget}
    (h : fs.targetFromPath path = .ok t) : t.Valid := by
  simp only [targetFromPath] at h
  split at h
  · split_ifs at h with hid htop
    split at h
    · cases h
      exact ⟨by simpa using htop, optionalText_safe⟩
    · cases h
  · cases h

theorem targetFromAncestors_valid {fs : Sysfs} {root : String} {names : List String}
    {t : UsbTarget} (h : fs.targetFromAncestors root names = .ok t) : t.Valid := by
  induction names with
  | nil => exact targetFromPath_valid h
  | cons name rest ih =>
    simp only [targetFromAncestors] at h
    split at h
    · rename_i target ht
      cases h
      exact targetFromPath_valid ht
    · exact ih h

theorem targetForTty_valid {fs : Sysfs} {name : String} {t : UsbTarget}
    (h : fs.targetForTty name = .ok t) : t.Valid := by
  simp only [targetForTty] at h
  split_ifs at h
  split at h
  · cases h
  · simp only [targetFromDescendant] at h
    split at h
    · rename_i target ht
      cases h
      exact targetFromAncestors_valid ht
    · cases h

theorem allUsbTargets_valid {fs : Sysfs} {ts : List UsbTarget} (h : fs.allUsbTargets = .ok ts) :
    ∀ t ∈ ts, t.Valid := by
  simp only [allUsbTargets] at h
  split at h
  · cases h
  · cases h
    intro t ht
    obtain ⟨name, _, hname⟩ := List.mem_filterMap.mp ht
    cases hp : fs.targetFromPath (sysBusUsb.child name) with
    | error e => simp [hp, Except.toOption] at hname
    | ok t' =>
      simp only [hp, Except.toOption, Option.some.injEq] at hname
      exact hname ▸ targetFromPath_valid hp

theorem configuredApplication_valid {fs : Sysfs} {device : Path} {t : UsbTarget}
    (h : fs.configuredApplication device = .ok t) : t.Valid := by
  simp only [configuredApplication] at h
  split at h
  · cases h
  · split_ifs at h
    rename_i resolved _ _
    cases ht : fs.targetForTty resolved.name with
    | error e => simp [ht, bind, Except.bind] at h
    | ok t' =>
      simp only [ht, bind, Except.bind, pure, Except.pure] at h
      split at h
      · cases h
      · cases h
        exact targetForTty_valid ht

theorem singleTarget_some {fs : Sysfs} {topology vendorId productId label : String}
    {t : UsbTarget} (h : fs.singleTarget topology vendorId productId label = .ok (some t)) :
    t.Valid ∧ t.topology = topology ∧ matching vendorId productId t = true := by
  simp only [singleTarget, bind, Except.bind, pure, Except.pure] at h
  split at h
  · cases h
  · rename_i topo htopo
    have heq : topo = topology := by
      simp only [validateUsbTopology] at htopo
      split_ifs at htopo
      exact (Except.ok.inj htopo).symm
    subst heq
    split at h
    · cases h
    · rename_i ts hts
      split at h
      · cases h
      · rename_i target hf
        cases h
        have hmem : t ∈ ts.filter fun t => t.topology = topo && matching vendorId productId t := by
          rw [hf]
          simp
        obtain ⟨hin, hprop⟩ := List.mem_filter.mp hmem
        simp only [Bool.and_eq_true, decide_eq_true_eq] at hprop
        exact ⟨allUsbTargets_valid hts t hin, hprop⟩
      · cases h

/-- The exceptions of a lookup: the second is that of a malformed path. -/
def LookupError (e : Exn) : Prop := e.cls = .usbTopologyError ∨ e.cls = .valueError

theorem allUsbTargets_error {fs : Sysfs} {e : Exn} (h : fs.allUsbTargets = .error e) :
    LookupError e := by
  simp only [allUsbTargets] at h
  split at h
  · cases h
    exact .inl rfl
  · cases h

theorem singleTarget_error {fs : Sysfs} {topology vendorId productId label : String} {e : Exn}
    (h : fs.singleTarget topology vendorId productId label = .error e) : LookupError e := by
  simp only [singleTarget, bind, Except.bind, pure, Except.pure] at h
  split at h
  · rename_i err hv
    cases h
    simp only [validateUsbTopology] at hv
    split_ifs at hv
    cases hv
    exact .inr rfl
  · split at h
    · rename_i err herr
      cases h
      exact allUsbTargets_error herr
    · split at h
      · cases h
      · cases h
      · cases h
        exact .inl rfl

theorem targetsWithIdentity_error {fs : Sysfs} {vendorId productId : String} {e : Exn}
    (h : fs.targetsWithIdentity vendorId productId = .error e) : LookupError e := by
  simp only [targetsWithIdentity, bind, Except.bind, pure, Except.pure] at h
  split at h
  · rename_i err herr
    cases h
    exact allUsbTargets_error herr
  · cases h

theorem mem_of_mem_dedupe {fs : Sysfs} {targets : List UsbTarget} {t : UsbTarget}
    (h : t ∈ fs.dedupe targets) : t ∈ targets :=
  mem_of_mem_setdefaults fs.identity h

theorem targetsWithIdentity_mem {fs : Sysfs} {vendorId productId : String}
    {ts : List UsbTarget} (h : fs.targetsWithIdentity vendorId productId = .ok ts) :
    ∀ t ∈ ts, t.Valid ∧ matching vendorId productId t = true := by
  simp only [targetsWithIdentity, bind, Except.bind, pure, Except.pure] at h
  split at h
  · cases h
  · rename_i all hall
    cases h
    intro t ht
    rw [List.mem_insertionSort] at ht
    obtain ⟨hin, hmatch⟩ := List.mem_filter.mp (mem_of_mem_dedupe ht)
    exact ⟨allUsbTargets_valid hall t hin, hmatch⟩

end Sysfs
end Cul868Flasher
