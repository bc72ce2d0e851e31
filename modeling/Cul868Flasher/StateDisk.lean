import Cul868Flasher.Effects.Lowering
import Cul868Flasher.Ingress.Http
import Cul868Flasher.Persistence
import Cul868Flasher.Python.JsonLimits

/-!
# The state file on its disk

`DeviceStateStore` over the calls of its directory, each of which may fail. The
directory says what its names show to a process, and what the name of the state file
may show after a power cut: the store syncs a new file before it puts it in place, but
never the directory itself.
-/

namespace Cul868Flasher
open Python Effects

/-! ## The calls -/

/-- A step on a temporary file. -/
inductive TemporaryStep where
  | fdopen
  | write (data : List UInt8)
  | flush
  | fsync
  | close
  | chmod
  /-- `os.replace` onto the state file. -/
  | replace
  | unlink
  deriving DecidableEq

inductive FileOp where
  | world (o : Op)
  | mkdir
  | mkstemp
  | temporary (name : String) (step : TemporaryStep)
  | stat
  | readBytes

/-- A call that fails is an `OSError` with its message. -/
def Files : Interface where
  Op := FileOp
  Ans
    | .world o => World.Ans o
    | .mkdir => Except String Unit
    | .mkstemp => Except String String
    | .temporary _ _ => Except String Unit
    | .stat => Except String ℕ
    | .readBytes => Except String (List UInt8)

abbrev FileProgram (α : Type) := Prog Files Exn α

/-! ## The contents -/

/-- `str.encode("ascii")`, for the text of `json.dumps` with `ensure_ascii`. -/
def asciiBytes (text : List Char) : List UInt8 := text.map fun c => c.val.toUInt8

/-- What the `try` block of `load` makes of a file with these bytes. -/
def StateRead.ofBytes (depth : ℕ) (bytes : List UInt8) : StateRead :=
  match decodeUtf8 bytes with
  | none => .file ⟨bytes.length, none⟩
  | some text =>
    match Json.loadsWithin maxStrDigits depth text with
    | .ok document => .file ⟨bytes.length, some document⟩
    | .error .malformed => .file ⟨bytes.length, none⟩
    | .error .tooManyDigits => .raised (.valueError
        s!"Exceeds the limit ({maxStrDigits} digits) for integer string conversion")
    | .error .tooDeep => .raised Handler.recursionError

/-- The bytes of a record. -/
def StateFile.bytes (file : StateFile) : List UInt8 :=
  match file.document with
  | some (.obj fields) => asciiBytes (Json.dumpsFields fields)
  | _ => []

/-! ## The store -/

namespace DeviceStateStore

variable {ε α : Type}

def files (o : FileOp) : Prog Files ε (Files.Ans o) := Prog.perform (I := Files) o

def orOSError (answer : Except String α) : FileProgram α := .ofExcept (answer.mapError Exn.osError)

def temporaryStep (name : String) (step : TemporaryStep) : FileProgram Unit := do
  let answer : Except String Unit ← files (.temporary name step)
  orOSError answer

/-- The `try` block of `save`. Leaving the `with` statement closes the file. -/
def writeTemporary (name : String) (payload : List UInt8) : FileProgram Unit := do
  temporaryStep name .fdopen
  (do
    temporaryStep name (.write payload)
    temporaryStep name .flush
    temporaryStep name .fsync).ensuring fun _ => temporaryStep name .close
  temporaryStep name .chmod
  temporaryStep name .replace

/-- What `save` does under the lock. -/
def savePayload (payload : List UInt8) : FileProgram Unit := do
  let made : Except String Unit ← files .mkdir
  orOSError made
  let named : Except String String ← files .mkstemp
  let name ← orOSError named
  (writeTemporary name payload).ensuring fun _ => temporaryStep name .unlink

def saveFile (device : KnownDevice) : FileProgram Unit := do
  let text ← .ofExcept (payload device)
  savePayload (asciiBytes text)

/-- The `try` block of `load`; an `OSError` is no record. -/
def readState (depth : ℕ) : Prog Files ε StateRead := do
  let size : Except String ℕ ← files .stat
  match size with
  | .error _ => return .missing
  | .ok size =>
    if maxStateBytes < size then return .file ⟨size, none⟩
    else do
      let bytes : Except String (List UInt8) ← files .readBytes
      match bytes with
      | .error _ => return .missing
      | .ok bytes => return .ofBytes depth bytes

def loadFile (depth : ℕ) : FileProgram (Option KnownDevice) := do
  let read ← readState depth
  .ofExcept (decode read)

/-! ## As steps of the world -/

/-- A `finally` block that raises takes the place of what was raised before. -/
def outcomeOf : Except Exn Unit → Except Exn Unit → SaveOutcome
  | .ok (), .ok () => .saved
  | .error e, .ok () => .failed false e
  | replaced, .error e => .failed replaced.isOk e

/-- `savePayload`, whose exceptions are outcomes. -/
def saveOutcome (payload : List UInt8) : Prog Files ε SaveOutcome := do
  let made : Except String Unit ← files .mkdir
  match made with
  | .error message => return .failed false (.osError message)
  | .ok () =>
    let named : Except String String ← files .mkstemp
    match named with
    | .error message => return .failed false (.osError message)
    | .ok name =>
      let replaced ← (writeTemporary name payload).attempt
      let unlinked ← (temporaryStep name .unlink).attempt
      return outcomeOf replaced unlinked

theorem payload_fields {device : KnownDevice} {text : List Char} (h : payload device = .ok text) :
    ∃ deadline, text = Json.dumpsFields (fields device deadline) := by
  simp only [payload] at h
  cases hv : validateUsbTopology device.topology with
  | ok topology =>
    rw [hv] at h
    split_ifs at h
    · cases h
      exact ⟨_, rfl⟩
    · cases h
      exact ⟨_, rfl⟩
  | error e =>
    rw [hv] at h
    split_ifs at h <;> cases h

/-- A step of the world on the files. -/
def fileStep (depth : ℕ) : (o : Op) → Unit → Prog Files Empty (World.Ans o × Unit)
  | .loadState, s => do
    let read ← readState depth
    return (read, s)
  | .saveState file, s => do
    let outcome ← saveOutcome file.bytes
    return (outcome, s)
  | o, s => .call (.world o) fun a => .ret (a, s)

/-- A program whose steps on the state file go to its directory. -/
def stored (depth : ℕ) (p : Program α) : Prog Files Empty (Except Exn α × Unit) :=
  p.lower (fileStep depth) ()

/-! Their own steps come to the same as the methods. -/

theorem attempt_attempt_bind {I : Interface} {ε ε' ε'' β : Type} (p : Prog I ε α)
    (f : Except ε α → Prog I ε' β) :
    ((p.attempt >>= f).attempt : Prog I ε'' (Except ε' β)) =
      p.attempt >>= fun x => (f x).attempt := by
  induction p with
  | ret a => rfl
  | raise e => rfl
  | call o k ih => exact congrArg (Prog.call o) (funext ih)
  | halt => rfl

/-- How a save with this outcome ends. -/
def ending : SaveOutcome → Except Exn Unit
  | .saved => .ok ()
  | .failed _ e => .error e

theorem attempt_savePayload {ε : Type} (payload : List UInt8) :
    ((savePayload payload).attempt : Prog Files ε (Except Exn Unit)) =
      saveOutcome payload >>= fun outcome => pure (ending outcome) := by
  refine congrArg (Prog.call (I := Files) FileOp.mkdir)
    (funext fun (made : Except String Unit) => ?_)
  cases made with
  | error message => rfl
  | ok u =>
    refine congrArg (Prog.call (I := Files) FileOp.mkstemp)
      (funext fun (named : Except String String) => ?_)
    cases named with
    | error message => rfl
    | ok name =>
      change ((writeTemporary name payload).attempt >>= fun replaced =>
          temporaryStep name .unlink >>= fun _ => .ofExcept replaced).attempt =
        ((writeTemporary name payload).attempt >>= fun replaced =>
          (temporaryStep name .unlink).attempt >>= fun unlinked =>
            pure (outcomeOf replaced unlinked)) >>= fun outcome => pure (ending outcome)
      rw [Prog.bind_assoc, attempt_attempt_bind]
      refine congrArg _ (funext fun replaced => ?_)
      refine congrArg (Prog.call (I := Files) (FileOp.temporary name .unlink))
        (funext fun (answer : Except String Unit) => ?_)
      cases answer with
      | ok u => cases replaced <;> rfl
      | error message => cases replaced <;> rfl

theorem stored_save (depth : ℕ) (device : KnownDevice) :
    stored depth (save device) = (saveFile device).attempt >>= fun x => pure (x, ()) := by
  cases hpayload : payload device with
  | error e =>
    have hencode : encode device = .error e := by rw [encode_eq, hpayload]; rfl
    rw [stored, save, saveFile, hencode, hpayload]
    rfl
  | ok text =>
    obtain ⟨deadline, rfl⟩ := payload_fields hpayload
    have hencode : encode device = .ok ⟨(Json.dumpsFields (fields device deadline)).length,
        some (.obj (fields device deadline))⟩ := by
      rw [encode_eq, hpayload, ← ofText_fields]
      rfl
    rw [stored, save, saveFile, hencode, hpayload]
    change ((saveOutcome _ >>= fun outcome => pure (outcome, ())) >>= _) =
      (savePayload (asciiBytes (Json.dumpsFields (fields device deadline)))).attempt >>= _
    rw [attempt_savePayload]
    refine (Prog.bind_assoc _ _ _).trans (Eq.trans ?_ (Prog.bind_assoc _ _ _).symm)
    refine congrArg _ (funext fun outcome => ?_)
    cases outcome <;> rfl

/-- No part of `readState` raises. -/
theorem attempt_readState {ε β : Type} (depth : ℕ) (f : StateRead → FileProgram β) :
    ((readState depth >>= f).attempt : Prog Files ε (Except Exn β)) =
      readState depth >>= fun read => (f read).attempt := by
  refine congrArg (Prog.call (I := Files) FileOp.stat)
    (funext fun (size : Except String ℕ) => ?_)
  cases size with
  | error message => rfl
  | ok size =>
    by_cases hlarge : maxStateBytes < size
    · simp only [Prog.bind, if_pos hlarge]
      rfl
    · simp only [Prog.bind, if_neg hlarge]
      refine congrArg (Prog.call (I := Files) FileOp.readBytes)
        (funext fun (bytes : Except String (List UInt8)) => ?_)
      cases bytes <;> rfl

theorem stored_load (depth : ℕ) :
    stored depth load = (loadFile depth).attempt >>= fun x => pure (x, ()) := by
  rw [loadFile, attempt_readState]
  refine (Prog.bind_assoc _ _ _).trans (Eq.trans ?_ (Prog.bind_assoc _ _ _).symm)
  refine congrArg _ (funext fun read => ?_)
  change stored depth (.ofExcept (decode read)) = _
  cases decode read <;> rfl

end DeviceStateStore

/-! ## The directory -/

/-- What a name shows. -/
inductive Content where
  | absent
  | whole (bytes : List UInt8)
  /-- Some part of what has been written. -/
  | torn
  deriving DecidableEq

/-- What `load` returns or raises; `none` when that is not known. -/
def Content.record (depth : ℕ) : Content → Option (Except Exn (Option KnownDevice))
  | .absent => some (.ok none)
  | .whole bytes => some (if maxStateBytes < bytes.length then .ok none
      else DeviceStateStore.decode (.ofBytes depth bytes))
  | .torn => none

structure Temporary where
  /-- What has been given to `write`. -/
  given : List UInt8
  intact : Bool
  content : Content
  /-- The content would survive a power cut. -/
  synced : Bool

namespace Temporary

def fresh : Temporary := ⟨[], true, .whole [], false⟩

/-- Buffered bytes are in the file once they have been flushed. -/
def flushed (f : Temporary) : Temporary :=
  { f with content := if f.intact then .whole f.given else .torn }

def broken (f : Temporary) : Temporary :=
  { f with intact := false, content := .torn, synced := false }

def after (f : Temporary) : TemporaryStep → Bool → Temporary
  | .write data, true => { f with given := f.given ++ data, content := .torn, synced := false }
  | .flush, true => f.flushed
  | .fsync, true => { f with synced := true }
  | .close, true => f.flushed
  | .write _, false => f.broken
  | .flush, false => f.broken
  | .close, false => f.broken
  | _, _ => f

end Temporary

structure Disk where
  file : Content
  /-- What the name of the state file may show after a power cut. -/
  shown : List Content
  temporaries : String → Option Temporary

namespace Disk

def permits (d : Disk) : (o : FileOp) → Files.Ans o → Prop
  | .mkstemp, named => ∀ name, named = .ok name → d.temporaries name = none
  | .temporary name .replace, answer => answer = .ok () → (d.temporaries name).isSome = true
  | .stat, size => (∀ n, size = .ok n →
      d.file = .torn ∨ ∃ bytes, d.file = .whole bytes ∧ n = bytes.length)
  | .readBytes, read => ∀ bytes, read = .ok bytes → d.file = .torn ∨ d.file = .whole bytes
  | _, _ => True

def set (d : Disk) (name : String) (f : Option Temporary) : Disk :=
  { d with temporaries := Function.update d.temporaries name f }

/-- The file takes the place of the state file. -/
def renamed (d : Disk) (name : String) (f : Temporary) : Disk where
  file := f.content
  shown := (if f.synced then f.content else .torn) :: d.shown
  temporaries := Function.update d.temporaries name none

def nextTemporary (d : Disk) (name : String) : TemporaryStep → Bool → Disk
  | .replace, true => (d.temporaries name).elim d (d.renamed name)
  | .unlink, true => d.set name none
  | step, ok => d.set name ((d.temporaries name).map fun f => f.after step ok)

def next (d : Disk) : (o : FileOp) → Files.Ans o → Disk
  | .mkstemp, named =>
    let named : Except String String := named
    match named with
    | .ok name => d.set name (some .fresh)
    | .error _ => d
  | .temporary name step, answer =>
    let answer : Except String Unit := answer
    d.nextTemporary name step answer.isOk
  | _, _ => d

/-- The power is cut. What had been replaced may be there again; temporary files are
not looked at. -/
def PowerCut (d d' : Disk) : Prop := d'.file ∈ d.shown ∧ d'.shown = [d'.file]

@[simp] theorem set_file (d : Disk) (name : String) (f : Option Temporary) :
    (d.set name f).file = d.file := rfl

@[simp] theorem set_shown (d : Disk) (name : String) (f : Option Temporary) :
    (d.set name f).shown = d.shown := rfl

@[simp] theorem set_temporaries (d : Disk) (name : String) (f : Option Temporary) :
    (d.set name f).temporaries name = f := Function.update_self ..

@[simp] theorem set_set (d : Disk) (name : String) (f g : Option Temporary) :
    (d.set name f).set name g = d.set name g := by
  simp [set]

end Disk

/-- A directory on a file system that may fail at any step. -/
def directory : Medium Files Disk := ⟨Disk.permits, Disk.next⟩

/-! ## What a save does to the directory -/

namespace Disk

/-- The state file is as it was. -/
structure Unsaved (d d' : Disk) : Prop where
  file : d'.file = d.file
  shown : d'.shown = d.shown

/-- The state file has been replaced. -/
structure Saved (payload : List UInt8) (d d' : Disk) : Prop where
  file : d'.file = .whole payload
  shown : d'.shown = .whole payload :: d.shown

/-- At each moment of a save. -/
def Saving (payload : List UInt8) (d d' : Disk) : Prop := Unsaved d d' ∨ Saved payload d d'

theorem unsaved_set (d : Disk) (name : String) (f : Option Temporary) : Unsaved d (d.set name f) :=
  ⟨rfl, rfl⟩

end Disk

namespace DeviceStateStore
open Disk

variable {payload : List UInt8} {d : Disk} {name : String} {f : Temporary} {step : TemporaryStep}

theorem nextTemporary_other (hreplace : step ≠ .replace) (hunlink : step ≠ .unlink) (ok : Bool) :
    (d.set name (some f)).nextTemporary name step ok = d.set name (some (f.after step ok)) := by
  cases step with
  | replace => exact absurd rfl hreplace
  | unlink => exact absurd rfl hunlink
  | _ => simp [nextTemporary]

theorem follows_step (hreplace : step ≠ .replace) (hunlink : step ≠ .unlink) :
    Follows (directory.discipline (Saving payload d))
      (fun _ d' => d' = d.set name (some (f.after step true)))
      (fun _ d' => d' = d.set name (some (f.after step false))) (temporaryStep name step)
      (d.set name (some f)) := by
  refine Follows.step (fun answer _ => ?_) fun (answer : Except String Unit) _ => ?_
  · change Saving payload d ((d.set name (some f)).nextTemporary name step _)
    rw [nextTemporary_other hreplace hunlink]
    exact .inl (unsaved_set d name _)
  · change Follows _ _ _ _ ((d.set name (some f)).nextTemporary name step _)
    rw [nextTemporary_other hreplace hunlink]
    cases answer with
    | ok _ => exact .ret rfl
    | error message => exact .raise rfl

theorem follows_step_or (hreplace : step ≠ .replace) (hunlink : step ≠ .unlink) :
    Follows (directory.discipline (Saving payload d))
      (fun _ d' => d' = d.set name (some (f.after step true)))
      (fun _ d' => ∃ f, d' = d.set name (some f)) (temporaryStep name step)
      (d.set name (some f)) :=
  (follows_step hreplace hunlink).conseq (fun _ _ h => h) fun _ _ h => ⟨_, h⟩

def Temporary.complete (payload : List UInt8) : Temporary := ⟨payload, true, .whole payload, true⟩

/-- The file is written, flushed and synced, and then closed in any case. -/
theorem follows_written : Follows (directory.discipline (Saving payload d))
    (fun _ d' => d' = d.set name (some (Temporary.complete payload)))
    (fun _ d' => ∃ f, d' = d.set name (some f))
    ((do
      temporaryStep name (.write payload)
      temporaryStep name .flush
      temporaryStep name .fsync : FileProgram Unit).ensuring fun _ => temporaryStep name .close)
    (d.set name (some .fresh)) := by
  refine Follows.ensuring (R := fun _ d' => d' = d.set name (some (Temporary.complete payload)))
    (F := fun _ d' => ∃ f, d' = d.set name (some f)) ?_ ?_ ?_
  · refine (follows_step_or (by simp) (by simp)).bind ?_
    rintro _ _ rfl
    refine (follows_step_or (by simp) (by simp)).bind ?_
    rintro _ _ rfl
    exact follows_step_or (by simp) (by simp)
  · rintro _ _ rfl
    exact follows_step_or (by simp) (by simp)
  · rintro e _ ⟨f, rfl⟩
    exact (follows_step_or (by simp) (by simp)).conseq (fun _ _ h => ⟨_, h⟩) fun _ _ h => h

theorem follows_replace : Follows (directory.discipline (Saving payload d))
    (fun _ d' => Saved payload d d') (fun _ d' => ∃ f, d' = d.set name (some f))
    (temporaryStep name .replace) (d.set name (some (Temporary.complete payload))) := by
  have hreplaced :
      (d.set name (some (Temporary.complete payload))).nextTemporary name .replace true =
        (d.set name (some (Temporary.complete payload))).renamed name
          (Temporary.complete payload) := by
    simp [nextTemporary]
  refine Follows.step (fun (answer : Except String Unit) _ => ?_)
    fun (answer : Except String Unit) _ => ?_
  · change Saving payload d (nextTemporary _ name .replace _)
    cases answer with
    | ok _ => exact .inr (hreplaced ▸ ⟨rfl, rfl⟩)
    | error message => exact .inl ⟨rfl, rfl⟩
  · change Follows _ _ _ _ (nextTemporary _ name .replace _)
    cases answer with
    | ok _ => exact .ret (hreplaced ▸ ⟨rfl, rfl⟩)
    | error message => exact .raise ⟨_, by simp [nextTemporary, Except.isOk, Except.toBool]; rfl⟩

/-- Only a synced file with the whole payload is put in place. -/
theorem follows_writeTemporary : Follows (directory.discipline (Saving payload d))
    (fun _ d' => Saved payload d d') (fun _ d' => ∃ f, d' = d.set name (some f))
    (writeTemporary name payload) (d.set name (some .fresh)) := by
  refine (follows_step_or (by simp) (by simp)).bind ?_
  rintro _ _ rfl
  refine follows_written.bind ?_
  rintro _ _ rfl
  refine (follows_step_or (by simp) (by simp)).bind ?_
  rintro _ _ rfl
  exact follows_replace

theorem unsaved_unlink (d : Disk) (name : String) (ok : Bool) :
    Unsaved d (d.nextTemporary name .unlink ok) := by
  cases ok <;> exact ⟨rfl, rfl⟩

theorem Saving.of_unsaved {d' d'' : Disk} (hd : Saving payload d d') (h : Unsaved d' d'') :
    Saving payload d d'' := by
  rcases hd with hd | hd
  · exact .inl ⟨h.file.trans hd.file, h.shown.trans hd.shown⟩
  · exact .inr ⟨h.file.trans hd.file, h.shown.trans hd.shown⟩

theorem follows_unlink {ε : Type} {E : ε → Disk → Prop} {d' : Disk} (hd : Saving payload d d') :
    Follows (directory.discipline (Saving payload d)) (fun _ d'' => Unsaved d' d'') E
      ((temporaryStep name .unlink).attempt : Prog Files ε (Except Exn Unit)) d' := by
  refine Follows.step (fun answer _ => ?_) fun (answer : Except String Unit) _ => ?_
  · exact Saving.of_unsaved hd (unsaved_unlink d' name _)
  · cases answer with
    | ok _ => exact .ret (unsaved_unlink d' name true)
    | error message => exact .ret (unsaved_unlink d' name false)

/-- What the outcome of a save says of the directory. -/
def Shows (payload : List UInt8) (d d' : Disk) : SaveOutcome → Prop
  | .saved => Saved payload d d'
  | .failed replaced _ => if replaced then Saved payload d d' else Unsaved d d'

theorem shows_outcomeOf {replaced unlinked : Except Exn Unit} {d' d'' : Disk}
    (hok : replaced = .ok () → Saved payload d d')
    (herr : ∀ e, replaced = .error e → Unsaved d d') (h : Unsaved d' d'') :
    Shows payload d d'' (outcomeOf replaced unlinked) := by
  cases replaced with
  | ok _ =>
    have hsaved := hok rfl
    have hd : Saved payload d d'' := ⟨h.file.trans hsaved.file, h.shown.trans hsaved.shown⟩
    cases unlinked with
    | ok _ => exact hd
    | error e => exact hd
  | error e =>
    have hunsaved := herr e rfl
    have hd : Unsaved d d'' := ⟨h.file.trans hunsaved.file, h.shown.trans hunsaved.shown⟩
    cases unlinked with
    | ok _ => exact hd
    | error e => exact hd

theorem follows_saveOutcome {ε : Type} {E : ε → Disk → Prop} :
    Follows (directory.discipline (Saving payload d))
      (fun outcome d' => Shows payload d d' outcome) E
      (saveOutcome payload) d := by
  have hd : Unsaved d d := ⟨rfl, rfl⟩
  refine Follows.step (fun _ _ => .inl hd) fun (made : Except String Unit) _ => ?_
  cases made with
  | error message => exact .ret hd
  | ok _ =>
    refine Follows.step (fun (named : Except String String) _ => ?_)
      fun (named : Except String String) _ => ?_
    · cases named with
      | ok name => exact .inl (unsaved_set d name _)
      | error message => exact .inl hd
    · cases named with
      | error message => exact .ret hd
      | ok name =>
        refine follows_writeTemporary.attempt.bind fun replaced d' hreplaced => ?_
        have hunsaved : ∀ e, replaced = .error e → Unsaved d d' := by
          intro e he
          obtain ⟨f, rfl⟩ := hreplaced.2 e he
          exact unsaved_set d name _
        have hsaving : Saving payload d d' := by
          cases replaced with
          | ok u => exact .inr (hreplaced.1 u rfl)
          | error e => exact .inl (hunsaved e rfl)
        refine (follows_unlink hsaving).bind fun unlinked d'' h => ?_
        exact .ret (shows_outcomeOf (hreplaced.1 ()) hunsaved h)

/-! ## What a load finds -/

theorem follows_readState {ε : Type} {E : ε → Disk → Prop} {depth : ℕ} :
    Follows (directory.discipline fun d' => d' = d) (fun read d' => d' = d ∧
      ∀ record, d.file.record depth = some record → decode read = record ∨ read = .missing) E
      (readState depth) d := by
  refine Follows.step (fun _ _ => rfl) fun (size : Except String ℕ) hsize => ?_
  cases size with
  | error message => exact .ret ⟨rfl, fun _ _ => .inr rfl⟩
  | ok size =>
    have hfile := hsize size rfl
    dsimp only
    split_ifs with hlarge
    · refine .ret ⟨rfl, fun record hrecord => .inl ?_⟩
      rcases hfile with htorn | ⟨bytes, hbytes, rfl⟩
      · rw [htorn] at hrecord
        cases hrecord
      · rw [hbytes, Content.record, if_pos hlarge] at hrecord
        rw [decode, if_pos hlarge]
        exact Option.some.inj hrecord
    · refine Follows.step (fun _ _ => rfl) fun (read : Except String (List UInt8)) hread => ?_
      cases read with
      | error message => exact .ret ⟨rfl, fun _ _ => .inr rfl⟩
      | ok bytes =>
        refine .ret ⟨rfl, fun record hrecord => .inl ?_⟩
        have hread : d.file = .torn ∨ d.file = .whole bytes := hread bytes rfl
        rcases hread with htorn | hbytes
        · rw [htorn] at hrecord
          cases hrecord
        · rcases hfile with htorn | ⟨bytes', hbytes', rfl⟩
          · rw [htorn] at hrecord
            cases hrecord
          · rw [hbytes] at hbytes' hrecord
            cases hbytes'
            rw [Content.record, if_neg hlarge] at hrecord
            exact Option.some.inj hrecord

end DeviceStateStore

end Cul868Flasher
