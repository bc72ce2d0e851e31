import Cul868Flasher.Effects.Triples
import Cul868Flasher.State
import Mathlib.Algebra.Order.Ring.Unbundled.Rat

/-!
# The world the flasher acts on

One constructor for each kind of external step: clocks, USB lookups, the state
file, the serial session, `dfu-programmer` and the Supervisor. A step answers
with its result or with the exception it raises.
-/

namespace Cul868Flasher
open Python Effects

/-- One lookup of `UsbTopology`; the answer is the tree it saw. -/
inductive UsbCall where
  | configuredApplication (device : Path)
  | applicationForTopology (topology : String)
  | applicationTargets
  | bootloaderForTopology (topology : String)
  | bootloaderTargets
  | ttyForTopology (topology : String)
  | byIdPathsForTty (tty : Path)
  deriving DecidableEq

inductive DfuCommand where
  | erase
  | flash
  | start
  deriving DecidableEq

def DfuCommand.text : DfuCommand → String
  | .erase => "erase"
  | .flash => "flash"
  | .start => "start"

inductive DfuOutcome where
  | completed (returncode : ℤ) (transcript : String)
  | fileNotFound
  | timeoutExpired
  | osError (message : String)
  /-- An exception of any other class, of the exchange or of `json.loads` on its body. -/
  | raised (e : Exn)
  deriving DecidableEq

inductive LedMode where
  | off
  | on
  | blink
  deriving DecidableEq

inductive HttpMethod where
  | get
  | post
  deriving DecidableEq

def HttpMethod.text : HttpMethod → String
  | .get => "GET"
  | .post => "POST"

inductive HttpOutcome where
  /-- A response body; `document` is `none` when it is no JSON text. -/
  | response (size : ℕ) (document : Option Json)
  | httpError (code : ℤ) (detail : String)
  | urlError (reason : String)
  | osError (message : String)
  | raised (e : Exn)

structure FileStat where
  isRegular : Bool
  mode : ℕ

inductive Op where
  | monotonic
  | time
  | sleep (seconds : ℚ)
  | report (percent : ℕ) (message : String)
  | usb (call : UsbCall)
  | resolvePath (path : Path)
  | lstat (path : Path)
  | statSize (path : Path)
  | readBytes (path : Path)
  | loadState
  | saveState (file : StateFile)
  | openSerial (device : Path) (baudrate : ℕ)
  | version
  | enterBootloader
  | setLed (mode : LedMode)
  | uptimeTicks
  | mbusMode
  | closeSerial
  | dfuAvailable
  /-- `bootloader` is the target resolved for the command; the command line
  names its bus and its address. -/
  | dfu (bootloader : UsbTarget) (command : DfuCommand) (arguments : List String)
  | request (method : HttpMethod) (path : String)

def World : Interface where
  Op := Op
  Ans
    | .monotonic => ℚ
    | .time => ℚ
    | .sleep _ => Unit
    | .report _ _ => Except Exn Unit
    | .usb _ => Sysfs
    | .resolvePath _ => Except Exn Path
    | .lstat _ => Option FileStat
    | .statSize _ => Option ℕ
    | .readBytes _ => Option (List UInt8)
    | .loadState => StateRead
    | .saveState _ => SaveOutcome
    | .openSerial _ _ => Except Exn Unit
    | .version => Except Exn String
    | .enterBootloader => Except Exn Unit
    | .setLed _ => Except Exn Unit
    | .uptimeTicks => Except Exn ℕ
    | .mbusMode => Except Exn String
    | .closeSerial => Except Exn Unit
    | .dfuAvailable => Bool
    | .dfu _ _ _ => DfuOutcome
    | .request _ _ => HttpOutcome

abbrev Program (α : Type) := Prog World Exn α

/-- `atmega32u4:bus,address`, the selector of a DFU command line. -/
def selector (bootloader : UsbTarget) : String :=
  s!"atmega32u4:{bootloader.busNumber},{bootloader.deviceAddress}"

def perform (o : Op) : Prog World ε (World.Ans o) := Prog.perform (I := World) o

def monotonic : Prog World ε ℚ := perform .monotonic
def time : Prog World ε ℚ := perform .time
def sleep (seconds : ℚ) : Prog World ε Unit := perform (.sleep seconds)
def usb (call : UsbCall) : Prog World ε Sysfs := perform (.usb call)

def report (percent : ℕ) (message : String) : Program Unit := do
  let answer : Except Exn Unit ← perform (.report percent message)
  .ofExcept answer

namespace UsbTopology

def configuredApplication (device : Path) : Program UsbTarget := do
  let fs ← usb (.configuredApplication device)
  .ofExcept (fs.configuredApplication device)

def applicationForTopology (topology : String) : Program (Option UsbTarget) := do
  let fs ← usb (.applicationForTopology topology)
  .ofExcept (fs.applicationForTopology topology)

def applicationTargets : Program (List UsbTarget) := do
  let fs ← usb .applicationTargets
  .ofExcept fs.applicationTargets

def bootloaderForTopology (topology : String) : Program (Option UsbTarget) := do
  let fs ← usb (.bootloaderForTopology topology)
  .ofExcept (fs.bootloaderForTopology topology)

def bootloaderTargets : Program (List UsbTarget) := do
  let fs ← usb .bootloaderTargets
  .ofExcept fs.bootloaderTargets

def ttyForTopology (topology : String) : Program (Option Path) := do
  let fs ← usb (.ttyForTopology topology)
  .ofExcept (fs.ttyForTopology topology)

def byIdPathsForTty (tty : Path) : Program (List Path) := do
  let fs ← usb (.byIdPathsForTty tty)
  return fs.byIdPathsForTty tty

end UsbTopology

namespace DeviceStateStore

def load : Program (Option KnownDevice) := do
  let read : StateRead ← perform .loadState
  .ofExcept (decode read)

def save (device : KnownDevice) : Program Unit := do
  let file ← .ofExcept (encode device)
  let outcome : SaveOutcome ← perform (.saveState file)
  match outcome with
  | .saved => return ()
  | .failed _ e => .raise e

end DeviceStateStore

namespace CulSerial

def open_ (device : Path) (baudrate : ℕ) : Program Unit := do
  let answer : Except Exn Unit ← perform (.openSerial device baudrate)
  .ofExcept answer

def version : Program String := do
  let answer : Except Exn String ← perform .version
  .ofExcept answer

def enterBootloader : Program Unit := do
  let answer : Except Exn Unit ← perform .enterBootloader
  .ofExcept answer

def setLed (mode : LedMode) : Program Unit := do
  let answer : Except Exn Unit ← perform (.setLed mode)
  .ofExcept answer

def close : Program Unit := do
  let answer : Except Exn Unit ← perform .closeSerial
  .ofExcept answer

/-- `with serial_factory(device, baudrate) as serial:`. The session is closed
whatever becomes of the block. -/
def session (device : Path) (baudrate : ℕ) (block : Program α) : Program α := do
  open_ device baudrate
  block.ensuring fun _ => close

/-- The session of a block that works on a state. -/
def sessionWith (s : σ) (device : Path) (baudrate : ℕ)
    (block : Prog World (Exn × σ) (α × σ)) : Prog World (Exn × σ) (α × σ) := do
  (open_ device baudrate).raisingWith s
  block.ensuring fun
    | .ok (_, s) => close.raisingWith s
    | .error (_, s) => close.raisingWith s

end CulSerial

end Cul868Flasher
