import Cul868Flasher.Effects.Threads
import Cul868Flasher.Flasher.Status
import Cul868Flasher.Operation

/-!
# What the threads of the add-on share

One constructor for each step of the server, the registry, the controller and
the worker on something another thread can see. A field that only the holder of
its lock touches is read and written as a whole; the queue and the stop event,
which have locks of their own, take part step by step.
-/

namespace Cul868Flasher
open Python Effects

deriving instance DecidableEq for FlashPreflight

inductive Lock where
  | submission
  | registry
  | controller
  | flash
  deriving DecidableEq

structure StagedArtifact where
  image : HexImage
  preflight : FlashPreflight
  expiresAt : ℚ
  claimed : Bool
  deriving DecidableEq

/-- `dict[str, _StagedArtifact]`, in the order of insertion. -/
abbrev Entries := List (String × StagedArtifact)

namespace Entries

def set (entries : Entries) (identifier : String) (entry : StagedArtifact) : Entries :=
  if entries.any (·.1 = identifier) then
    entries.map fun item => if item.1 = identifier then (identifier, entry) else item
  else entries ++ [(identifier, entry)]

def setClaimed (entries : Entries) (identifier : String) (claimed : Bool) : Entries :=
  entries.map fun item =>
    if item.1 = identifier then (item.1, { item.2 with claimed := claimed }) else item

def erase (entries : Entries) (identifier : String) : Entries :=
  entries.filter (·.1 ≠ identifier)

def paths (entries : Entries) : List Path := entries.map (·.2.image.path)

theorem mem_of_lookup {entries : Entries} {identifier : String} {entry : StagedArtifact}
    (h : entries.lookup identifier = some entry) : (identifier, entry) ∈ entries := by
  obtain ⟨l₁, l₂, rfl, _⟩ := List.lookup_eq_some_iff.mp h
  simp

end Entries

/-- A step on the upload file while it is written. -/
inductive FileStep where
  | fdopen
  | write (chunk : List UInt8)
  | flush
  | fsync
  | close
  | chmod
  deriving DecidableEq

inductive AppOp where
  | acquire (lock : Lock)
  | release (lock : Lock)
  | stopping
  | accepting
  | closeAdmission
  | tokenHex
  | tokenUrlsafe
  | monotonic
  | time
  | controller
  | update (u : Update) (now : ℤ)
  | putNowait (operation : FlashOperation)
  | get
  | getNowait
  | entries
  | pop (identifier : String)
  /-- `tuple(entries.values())` and `entries.clear()`. -/
  | clear
  | insert (identifier : String) (entry : StagedArtifact)
  | setClaimed (identifier : String) (claimed : Bool)
  | mkdir
  | mkstemp
  | read (size : ℕ)
  | file (path : Path) (step : FileStep)
  | unlink (path : Path)
  | startServer
  | stopServer
  | waitReaper
  | flasher (o : Op)
  /-- No step of the program: a call of the worker on the controller was left
  by this exception. -/
  | escaped (e : Exn)

abbrev App : Interface where
  Op := AppOp
  Ans
    | .acquire _ => Unit
    | .release _ => Unit
    | .stopping => Bool
    | .accepting => Bool
    | .closeAdmission => Unit
    | .tokenHex => String
    | .tokenUrlsafe => String
    | .monotonic => ℚ
    | .time => ℚ
    | .controller => Controller
    | .update _ _ => Unit
    | .putNowait _ => Bool
    | .get => Option FlashOperation
    | .getNowait => Option FlashOperation
    | .entries => Entries
    | .pop _ => Option StagedArtifact
    | .clear => Entries
    | .insert _ _ => Unit
    | .setClaimed _ _ => Unit
    | .mkdir => Except Exn Unit
    | .mkstemp => Except Exn Path
    | .read _ => Except Exn (List UInt8)
    | .file _ _ => Except Exn Unit
    | .unlink _ => Unit
    | .startServer => Except Exn Unit
    | .stopServer => Unit
    | .waitReaper => Bool
    | .flasher o => World.Ans o
    | .escaped _ => Unit

abbrev AppProgram (α : Type) := Prog App Exn α

def call (o : AppOp) : AppProgram (App.Ans o) := Prog.perform (I := App) o

/-- `with lock:`. -/
def withLock (lock : Lock) (block : AppProgram α) : AppProgram α := do
  let _ : Unit ← call (.acquire lock)
  block.ensuring fun _ => call (.release lock)

/-- The value, if there is one. -/
def resultOf {α ε : Type} : Except ε α → List α
  | .ok a => [a]
  | .error _ => []

/-! ## The shared state -/

structure Site where
  /-- The thread that holds a lock. -/
  locks : Lock → Option ℕ
  stopping : Bool
  accepting : Bool
  serving : Bool
  queue : List FlashOperation
  controller : Controller
  entries : Entries
  /-- The private upload files that exist. -/
  files : List Path
  /-- The tokens handed out so far. -/
  issued : List String

namespace Site

def initial : Site where
  locks := fun _ => none
  stopping := false
  accepting := true
  serving := false
  queue := []
  controller := .initial
  entries := []
  files := []
  issued := []

/-- What a step may find that the shared state does not decide: tokens, names,
clocks, streams, devices. -/
abbrev Oracle := (o : App.Op) → App.Ans o

def answer (oracle : Oracle) (s : Site) : (o : App.Op) → App.Ans o
  | .stopping => s.stopping
  | .accepting => s.accepting
  | .controller => s.controller
  | .putNowait _ => decide (s.queue.length < 1)
  | .get => s.queue.head?
  | .getNowait => s.queue.head?
  | .entries => s.entries
  | .pop identifier => s.entries.lookup identifier
  | .clear => s.entries
  | o => oracle o

/-- A lock is given to nobody else while it is held; tokens that were given out
and names that are in use are not given again. -/
def permits (s : Site) : (o : App.Op) → App.Ans o → Bool
  | .acquire lock, _ => (s.locks lock).isNone
  | .tokenUrlsafe, token => decide (token ∉ s.issued)
  | .mkstemp, named =>
    let named : Except Exn Path := named
    match named with
    | .ok path => decide (path ∉ s.files)
    | .error _ => true
  | _, _ => true

/-- The state that an answered call of thread `i` leaves. -/
def next (i : ℕ) (s : Site) : (o : App.Op) → App.Ans o → Site
  | .acquire lock, _ => { s with locks := Function.update s.locks lock (some i) }
  | .release lock, _ => { s with locks := Function.update s.locks lock none }
  | .closeAdmission, _ => { s with accepting := false }
  | .tokenUrlsafe, token => { s with issued := token :: s.issued }
  | .update u now, _ => { s with controller := s.controller.update now u }
  | .putNowait operation, put =>
    { s with queue := s.queue ++ if put then [operation] else [] }
  | .get, _ => { s with queue := s.queue.tail }
  | .getNowait, _ => { s with queue := s.queue.tail }
  | .pop identifier, _ => { s with entries := s.entries.erase identifier }
  | .clear, _ => { s with entries := [] }
  | .insert identifier entry, _ => { s with entries := s.entries.set identifier entry }
  | .setClaimed identifier claimed, _ =>
    { s with entries := s.entries.setClaimed identifier claimed }
  | .mkstemp, named => { s with files := resultOf named ++ s.files }
  | .unlink path, _ => { s with files := s.files.filter (· ≠ path) }
  | .startServer, started => { s with serving := !(resultOf started).isEmpty || s.serving }
  | _, _ => s

def answers (i : ℕ) (s : Site) (o : App.Op) (a : App.Ans o) (s' : Site) : Prop :=
  (∃ oracle, a = s.answer oracle o) ∧ s.permits o a = true ∧ s' = s.next i o a

end Site

/-- What varies between scripted environments, by the number of the step. -/
structure AppScript where
  world : ℕ → (o : World.Op) → World.Ans o
  token : ℕ → String := fun _ => "0123456789abcdef"
  clock : ℕ → ℚ := fun _ => 0
  read : ℕ → Except Exn (List UInt8) := fun _ => .ok []

/-- Every step that the script does not tell otherwise succeeds. -/
def AppScript.answer (s : AppScript) (n : ℕ) : Site.Oracle
  | .acquire _ => ()
  | .release _ => ()
  | .stopping => false
  | .accepting => true
  | .closeAdmission => ()
  | .tokenHex => s.token n
  | .tokenUrlsafe => s.token n
  | .monotonic => s.clock n
  | .time => s.clock n
  | .controller => .initial
  | .update _ _ => ()
  | .putNowait _ => true
  | .get => none
  | .getNowait => none
  | .entries => []
  | .pop _ => none
  | .clear => []
  | .insert _ _ => ()
  | .setClaimed _ _ => ()
  | .mkdir => .ok ()
  | .mkstemp => .ok (.ofString "/tmp/cul868-firmware.hex")
  | .read _ => s.read n
  | .file _ _ => .ok ()
  | .unlink _ => ()
  | .startServer => .ok ()
  | .stopServer => ()
  | .waitReaper => true
  | .flasher o => s.world n o
  | .escaped _ => ()

end Cul868Flasher
