import Cul868Flasher.Effects.Lowering
import Cul868Flasher.Flasher.Diagnostics
import Cul868Flasher.Serial

/-!
# Sessions on a descriptor

`CulSerial` over the calls of `os`, `fcntl` and `termios`. A session step of the
flasher is a method of the object that the last `serial_factory` has made; the
other steps are those of the world.
-/

namespace Cul868Flasher
open Python Effects

/-! ## Terminal attributes -/

inductive ControlCharacter where
  | byte (b : UInt8)
  | number (n : ℤ)
  deriving DecidableEq

structure Attributes where
  iflag : BitVec 32
  oflag : BitVec 32
  cflag : BitVec 32
  lflag : BitVec 32
  ispeed : ℕ
  ospeed : ℕ
  cc : List ControlCharacter
  deriving DecidableEq

/-! The constants of Linux. -/

namespace Termios

def parenb : BitVec 32 := 0o400
def cstopb : BitVec 32 := 0o100
def csize : BitVec 32 := 0o60
def clocal : BitVec 32 := 0o4000
def cread : BitVec 32 := 0o200
def cs8 : BitVec 32 := 0o60
def vmin : ℕ := 6
def vtime : ℕ := 5
def eio : ℤ := 5
def enodev : ℤ := 19

end Termios

/-- `_SPEEDS`. -/
def speeds : List (ℕ × ℕ) :=
  [(9600, 0o15), (19200, 0o16), (38400, 0o17), (57600, 0o10001), (115200, 0o10002)]

namespace Attributes
open Termios

def withSpeed (a : Attributes) (speed : ℕ) : Attributes :=
  { a with ispeed := speed, ospeed := speed }

/-- Raw 8N1 at `speed`, without control lines and without waiting. -/
def raw (a : Attributes) (speed : ℕ) : Attributes where
  iflag := 0
  oflag := 0
  cflag := a.cflag &&& ~~~(parenb ||| cstopb ||| csize) ||| (clocal ||| cread ||| cs8)
  lflag := 0
  ispeed := speed
  ospeed := speed
  cc := (a.cc.set vmin (.number 0)).set vtime (.number 0)

end Attributes

/-! ## The calls -/

/-- An `OSError` or a `termios.error`, which has no attribute `errno`. -/
structure Failure where
  text : String
  errno : Option ℤ

instance : ToString Failure := ⟨Failure.text⟩

inductive HostOp where
  | world (o : Op)
  | openDevice (device : Path)
  | tiocexcl (descriptor : ℕ)
  | tiocnxcl (descriptor : ℕ)
  | tcgetattr (descriptor : ℕ)
  /-- With `TCSANOW`. -/
  | tcsetattr (descriptor : ℕ) (attributes : Attributes)
  /-- With `TCIOFLUSH`. -/
  | tcflush (descriptor : ℕ)
  | tcdrain (descriptor : ℕ)
  | close (descriptor : ℕ)
  | tty (descriptor : ℕ) (o : TtyOp)

def Host : Interface where
  Op := HostOp
  Ans
    | .world o => World.Ans o
    | .openDevice _ => Except Failure ℕ
    | .tiocexcl _ => Except Failure Unit
    | .tiocnxcl _ => Except Failure Unit
    | .tcgetattr _ => Except Failure Attributes
    | .tcsetattr _ _ => Except Failure Unit
    | .tcflush _ => Except Failure Unit
    | .tcdrain _ => Except Failure Unit
    | .close _ => Except Failure Unit
    | .tty _ o => Tty.Ans o

abbrev HostProgram (ε α : Type) := Prog Host ε α

/-- A `CulSerial` object. -/
structure SerialSession where
  device : Path
  baudrate : ℕ
  descriptor : Option ℕ
  originalAttributes : Option Attributes

namespace SerialSession
open Serial

variable {ε α : Type}

def host (o : HostOp) : HostProgram ε (Host.Ans o) := Prog.perform (I := Host) o

/-- `__init__`. -/
def new (device : Path) (baudrate : ℕ) : SerialSession := ⟨device, baudrate, none, none⟩

/-- The default of `__init__`. -/
def timeout : ℚ := 3

/-! ## Opening and closing -/

/-- A failure in the block of `__enter__` leaves the object behind for `__exit__`. -/
def orLeave (s : SerialSession) (answer : Except Failure α) :
    HostProgram (Failure × SerialSession) α :=
  .ofExcept (answer.mapError fun err => (err, s))

def alternateSpeed (baudrate : ℕ) : ℕ := if baudrate ≠ 115200 then 0o10002 else 0o15

/-- `_reassert_cdc_line_coding`: the rate is changed for a moment, so that the
driver sends the line coding although its cached one matches already. -/
def reassertCdcLineCoding (s : SerialSession) (descriptor : ℕ) (attributes : Attributes) :
    HostProgram (Failure × SerialSession) Unit := do
  let recovery := attributes.withSpeed (alternateSpeed s.baudrate)
  let toggled : Except Failure Unit ← host (.tcsetattr descriptor recovery)
  s.orLeave toggled
  let restored : Except Failure Unit ← host (.tcsetattr descriptor attributes)
  s.orLeave restored

/-- The `try` block of `__enter__`. -/
def configure (s : SerialSession) (descriptor speed : ℕ) :
    HostProgram (Failure × SerialSession) SerialSession := do
  let locked : Except Failure Unit ← host (.tiocexcl descriptor)
  s.orLeave locked
  let original : Except Failure Attributes ← host (.tcgetattr descriptor)
  let original ← s.orLeave original
  let s := { s with originalAttributes := some original }
  let current : Except Failure Attributes ← host (.tcgetattr descriptor)
  let current ← s.orLeave current
  s.reassertCdcLineCoding descriptor (current.raw speed)
  let flushed : Except Failure Unit ← host (.tcflush descriptor)
  s.orLeave flushed
  return s

/-- The `try` block of `__exit__`, whose failures are passed over. -/
def restore (s : SerialSession) (descriptor : ℕ) : HostProgram ε Unit :=
  match s.originalAttributes with
  | none => do
    let _ : Except Failure Unit ← host (.tiocnxcl descriptor)
    return ()
  | some original => do
    let restored : Except Failure Unit ← host (.tcsetattr descriptor original)
    match restored with
    | .error _ => return ()
    | .ok _ => do
      let _ : Except Failure Unit ← host (.tiocnxcl descriptor)
      return ()

/-- `__exit__`. -/
def exit (s : SerialSession) : HostProgram ε SerialSession :=
  match s.descriptor with
  | none => return s
  | some descriptor => do
    s.restore descriptor
    let _ : Except Failure Unit ← host (.close descriptor)
    return { s with descriptor := none, originalAttributes := none }

/-- `__enter__`. -/
def enter (s : SerialSession) : HostProgram ε (Except Exn Unit × SerialSession) :=
  match speeds.lookup s.baudrate with
  | none => return (.error (culSerialError s!"unsupported CUL baudrate {s.baudrate}"), s)
  | some speed => do
    let opened : Except Failure ℕ ← host (.openDevice s.device)
    match opened with
    | .error err => return (.error (culSerialError
        s!"cannot exclusively open CUL serial device {s.device}: {err}"), s)
    | .ok descriptor => do
      let configured ← (configure { s with descriptor := some descriptor } descriptor speed).attempt
      match configured with
      | .ok s => return (.ok (), s)
      | .error (err, s) => do
        let s ← s.exit
        return (.error (culSerialError s!"cannot configure CUL serial device {s.device}: {err}"), s)

/-! ## Commands -/

/-- `_require_descriptor`. -/
def requireDescriptor (s : SerialSession) : HostProgram Exn ℕ :=
  match s.descriptor with
  | none => .raise (culSerialError "CUL serial session is not open")
  | some descriptor => return descriptor

def onTty (descriptor : ℕ) (p : TtyProgram α) : HostProgram Exn α :=
  p.handle fun o => host (.tty descriptor o)

variable (fuel : ℕ)

def version (s : SerialSession) : HostProgram Exn String := do
  let descriptor ← s.requireDescriptor
  onTty descriptor (Serial.version fuel timeout)

def uptimeTicks (s : SerialSession) : HostProgram Exn ℕ := do
  let descriptor ← s.requireDescriptor
  onTty descriptor (Serial.uptimeTicks fuel timeout)

def mbusMode (s : SerialSession) : HostProgram Exn String := do
  let descriptor ← s.requireDescriptor
  onTty descriptor (Serial.mbusMode fuel timeout)

def bootloaderCommand : List UInt8 := bytes "B01\n"

def enterBootloader (s : SerialSession) : HostProgram Exn Unit := do
  let descriptor ← s.requireDescriptor
  onTty descriptor (writeAll fuel timeout bootloaderCommand)
  let drained : Except Failure Unit ← host (.tcdrain descriptor)
  match drained with
  | .ok _ => return ()
  | .error err =>
    if err.errno = some Termios.eio ∨ err.errno = some Termios.enodev then return ()
    else .raise (culSerialError s!"CUL bootloader command could not drain: {err}")

/-- `_LED_MODE_COMMANDS`. -/
def ledModeCommand : LedMode → List UInt8
  | .off => bytes "l00\r\n"
  | .on => bytes "l01\r\n"
  | .blink => bytes "l02\r\n"

def setLed (s : SerialSession) (mode : LedMode) : HostProgram Exn Unit := do
  let descriptor ← s.requireDescriptor
  onTty descriptor (writeAll fuel timeout (ledModeCommand mode))
  let drained : Except Failure Unit ← host (.tcdrain descriptor)
  match drained with
  | .ok _ => return ()
  | .error err => .raise (culSerialError s!"CUL LED command could not drain: {err}")

/-! ## The steps of the flasher -/

/-- A method that leaves the object as it is. -/
def answering (s : SerialSession) (p : HostProgram Exn α) :
    HostProgram Empty (Except Exn α × SerialSession) := do
  let answer ← p.attempt
  return (answer, s)

def step : (o : Op) → SerialSession → HostProgram Empty (World.Ans o × SerialSession)
  | .openSerial device baudrate, _ => (new device baudrate).enter
  | .version, s => s.answering (s.version fuel)
  | .enterBootloader, s => s.answering (s.enterBootloader fuel)
  | .setLed mode, s => s.answering (s.setLed fuel mode)
  | .uptimeTicks, s => s.answering (s.uptimeTicks fuel)
  | .mbusMode, s => s.answering (s.mbusMode fuel)
  | .closeSerial, s => do
    let s ← s.exit
    return ((.ok () : Except Exn Unit), s)
  | o, s => do
    let answer ← host (.world o)
    return (answer, s)

/-- Before the first session. -/
def unused : SerialSession := new ⟨"", []⟩ 0

/-- A program of the flasher on the calls of the host. -/
def lowered (p : Program α) : HostProgram Empty (Except Exn α × SerialSession) :=
  p.lower (step fuel) unused

end SerialSession
end Cul868Flasher
