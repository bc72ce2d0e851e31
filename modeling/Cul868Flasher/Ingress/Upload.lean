import Cul868Flasher.Effects.Discipline
import Cul868Flasher.Flasher.Runs
import Cul868Flasher.Ingress.Api

/-!
# The copy of an upload

`writeUpload` takes exactly the declared number of bytes from the stream. What it
has taken is what the file holds, at every pass of the copy loop.
-/

namespace Cul868Flasher
open Python Effects

/-- What the calls of a copy amount to: the bytes taken from the stream, the
number of reads that returned some, the files with their contents. -/
structure Copy where
  received : List UInt8
  reads : ℕ
  directory : Path → Option (List UInt8)

namespace Copy

def take (c : Copy) (chunk : List UInt8) : Copy :=
  { c with
    received := c.received ++ chunk
    reads := if chunk = [] then c.reads else c.reads + 1 }

def write (c : Copy) (path : Path) (step : FileStep) : Copy :=
  match step with
  | .write chunk =>
    { c with directory := Function.update c.directory path ((c.directory path).map (· ++ chunk)) }
  | _ => c

def after (c : Copy) : (o : App.Op) → App.Ans o → Copy
  | .mkstemp, named =>
    let named : Except Exn Path := named
    match named with
    | .ok path => { c with directory := Function.update c.directory path (some []) }
    | .error _ => c
  | .read _, answer =>
    let answer : Except Exn (List UInt8) := answer
    match answer with
    | .ok chunk => c.take chunk
    | .error _ => c
  | .file path step, answer =>
    let answer : Except Exn Unit := answer
    match answer with
    | .ok _ => c.write path step
    | .error _ => c
  | .unlink path, _ => { c with directory := Function.update c.directory path none }
  | _, _ => c

/-- `mkstemp` names no file that exists. -/
def Fresh (c : Copy) : (o : App.Op) → App.Ans o → Prop
  | .mkstemp, named => ∀ path, named = Except.ok path → c.directory path = none
  | _, _ => True

/-- What a read may ask for when `contentLength` bytes are declared. -/
def MayRead (contentLength : ℕ) (c : Copy) : App.Op → Prop
  | .read size => 1 ≤ size ∧ c.received.length + size ≤ contentLength ∧ c.reads < contentLength
  | _ => True

end Copy

def copying (contentLength : ℕ) : Discipline App Copy where
  allows := Copy.MayRead contentLength
  trusts := Copy.Fresh
  after := Copy.after

/-- What a history of calls has made of a directory. -/
def copied (directory : Path → Option (List UInt8)) (t : Trace App) : Copy :=
  t.foldl (fun c e => c.after e.op e.ans) ⟨[], 0, directory⟩

/-- A run of `write_upload` over a stream. -/
structure ExactCopy (contentLength : ℕ) (directory : Path → Option (List UInt8))
    (stream : List UInt8) (t : Trace App) (r : Outcome Exn Path) : Prop where
  returned : ∀ path, r = .returned path →
    (stream.take contentLength).length = contentLength ∧
      (copied directory t).received = stream.take contentLength ∧
      (copied directory t).directory =
        Function.update directory path (some (stream.take contentLength))
  raised : ∀ e, r = .raised e → (copied directory t).directory = directory
  requested : ∀ u size a v, t = u ++ ⟨.read size, a⟩ :: v →
    1 ≤ size ∧ (copied directory u).received.length + size ≤ contentLength
  reads : (copied directory t).reads ≤ contentLength

variable {contentLength : ℕ} {directory : Path → Option (List UInt8)} {path : Path} {c : Copy}

/-- In the copy loop: what was taken is in the file, and the rest is missing. -/
structure Copying (contentLength : ℕ) (directory : Path → Option (List UInt8)) (path : Path)
    (remaining : ℕ) (c : Copy) : Prop where
  missing : c.received.length + remaining = contentLength
  reads : c.reads ≤ c.received.length
  written : c.directory = Function.update directory path (some c.received)

/-- The file is there, with whatever content. -/
def Begun (directory : Path → Option (List UInt8)) (path : Path) (c : Copy) : Prop :=
  ∃ content, c.directory = Function.update directory path content

theorem Copying.begun {remaining : ℕ} (h : Copying contentLength directory path remaining c) :
    Begun directory path c :=
  ⟨_, h.written⟩

/-- A step on the file that writes nothing. -/
theorem follows_fileStep {step : FileStep} {K : Copy → Prop} (hstep : ∀ chunk, step ≠ .write chunk)
    (hc : K c) :
    Follows (copying contentLength) (fun _ => K) (fun _ => K) (fileStep path step) c := by
  have hsame : ∀ a, (copying contentLength).after c (.file path step) a = c := by
    intro a
    cases (a : Except Exn Unit) with
    | error e => rfl
    | ok u =>
      cases step with
      | write chunk => exact absurd rfl (hstep chunk)
      | _ => rfl
  refine Follows.step trivial fun a _ => ?_
  rw [hsame]
  exact Follows.ofExcept (fun _ _ => hc) fun _ _ => hc

/-- A chunk that was taken is written before anything else happens. -/
theorem follows_write {remaining : ℕ} {chunk : List UInt8}
    (h : Copying contentLength directory path remaining c) (hne : chunk ≠ [])
    (hle : chunk.length ≤ remaining) :
    Follows (copying contentLength)
      (fun _ => Copying contentLength directory path (remaining - chunk.length))
      (fun _ => Begun directory path) (fileStep path (.write chunk)) (c.take chunk) := by
  refine Follows.step trivial fun a _ => ?_
  cases (a : Except Exn Unit) with
  | error e => exact h.begun
  | ok u =>
    refine Follows.ret ⟨?_, ?_, ?_⟩
    · have := h.missing
      change (c.received ++ chunk).length + _ = _
      rw [List.length_append]
      omega
    · have hreads := h.reads
      have hpos := List.length_pos_iff.mpr hne
      change (if chunk = [] then c.reads else c.reads + 1) ≤ (c.received ++ chunk).length
      rw [if_neg hne, List.length_append]
      omega
    · change Function.update c.directory path ((c.directory path).map (· ++ chunk)) = _
      rw [h.written]
      simp
      rfl

theorem follows_copyChunk {remaining : ℕ} (h : Copying contentLength directory path remaining c) :
    Follows (copying contentLength)
      (fun x c => (∀ remaining', x = .inl remaining' →
        Copying contentLength directory path remaining' c) ∧
        ∀ u, x = .inr u → Copying contentLength directory path 0 c)
      (fun _ => Begun directory path) (copyChunk path remaining) c := by
  rw [copyChunk]
  split_ifs with h₀
  · subst h₀
    exact Follows.ret ⟨fun _ hx => (by cases hx), fun _ _ => h⟩
  have hmissing := h.missing
  have hreads := h.reads
  have hread : Copy.MayRead contentLength c (.read (min uploadChunkBytes remaining)) := by
    simp only [Copy.MayRead, uploadChunkBytes]
    omega
  refine Follows.step hread fun a _ => ?_
  cases (a : Except Exn (List UInt8)) with
  | error e => exact Follows.raise h.begun
  | ok chunk =>
    change Follows _ _ _ (ite _ _ _) (c.take chunk)
    have hbegun : Begun directory path (c.take chunk) := h.begun
    split_ifs with hempty hlong
    · exact Follows.raise hbegun
    · exact Follows.raise hbegun
    · refine Follows.bind (follows_write h hempty (by omega)) fun _ c' h' => Follows.ret ⟨?_, ?_⟩
      · rintro _ ⟨⟩
        exact h'
      · intro _ hx
        cases hx

theorem follows_copyUpload (h : Copying contentLength directory path contentLength c) :
    Follows (copying contentLength) (fun _ => Copying contentLength directory path 0)
      (fun _ => Begun directory path) (copyUpload path contentLength) c := by
  refine Follows.bind (Follows.loop (fun _ _ h => follows_copyChunk h) _ h) fun _ c h => ?_
  refine Follows.bind ((follows_fileStep (by simp) h).conseq (fun _ _ h => h)
    fun _ _ h => h.begun) fun _ c h => ?_
  exact (follows_fileStep (by simp) h).conseq (fun _ _ h => h) fun _ _ h => h.begun

theorem follows_fillUpload (h : Copying contentLength directory path contentLength c) :
    Follows (copying contentLength) (fun _ => Copying contentLength directory path 0)
      (fun _ => Begun directory path) (fillUpload path contentLength) c := by
  refine Follows.bind ((follows_fileStep (by simp) h).conseq (fun _ _ h => h)
    fun _ _ h => h.begun) fun _ c h => ?_
  refine Follows.bind (R := fun _ => Copying contentLength directory path 0)
    (Follows.ensuring (follows_copyUpload h) ?_ ?_) fun _ c h => ?_
  · intro _ c h
    exact (follows_fileStep (by simp) h).conseq (fun _ _ h => h) fun _ _ h => h.begun
  · intro _ c h
    exact follows_fileStep (by simp) h
  · exact (follows_fileStep (by simp) h).conseq (fun _ _ h => h) fun _ _ h => h.begun

theorem follows_writeUpload (directory : Path → Option (List UInt8)) :
    Follows (copying contentLength)
      (fun path => Copying contentLength directory path 0) (fun _ c => c.directory = directory)
      (writeUpload contentLength) ⟨[], 0, directory⟩ := by
  rw [writeUpload]
  split_ifs
  · exact Follows.raise rfl
  refine Follows.step trivial fun made _ => ?_
  refine Follows.bind (R := fun _ c => c = ⟨[], 0, directory⟩)
    (Follows.ofExcept (fun _ _ => rfl) fun _ _ => rfl) ?_
  rintro _ _ rfl
  refine Follows.step trivial fun named hfresh => ?_
  cases (named : Except Exn Path) with
  | error e => exact Follows.raise rfl
  | ok path =>
    have hnone : directory path = none := hfresh path rfl
    have hstart : Copying contentLength directory path contentLength
        ⟨[], 0, Function.update directory path (some [])⟩ := ⟨by simp, by simp, rfl⟩
    change Follows _ _ _
      (unlinkOnError path (fillUpload path contentLength) >>= fun _ => pure path) _
    refine Follows.bind (R := fun _ => Copying contentLength directory path 0) ?_
      fun _ _ h => Follows.ret h
    refine Follows.attempt_bind (follows_fillUpload hstart) (fun _ _ h => Follows.ret h) ?_
    rintro e c ⟨content, hc⟩
    refine Follows.step trivial fun _ _ => Follows.raise ?_
    change Function.update c.directory path none = directory
    rw [hc, Function.update_idem, ← hnone, Function.update_eq_self]

/-! ## The loop ends -/

theorem total_fileStep (path : Path) (step : FileStep) : Total (fileStep path step) :=
  (Total.perform _).bind fun _ _ _ => .ofExcept _

theorem total_copyChunk (path : Path) (remaining : ℕ) : Total (copyChunk path remaining) := by
  rw [copyChunk]
  split_ifs
  · trivial
  refine (Total.perform _).bind fun _ _ _ => (Total.ofExcept _).bind fun _ _ _ => ?_
  split_ifs
  · trivial
  · trivial
  · exact (total_fileStep _ _).bind fun _ _ _ => .pure _

/-- A pass that goes on has taken a byte at least. -/
theorem copyChunk_down {remaining remaining' : ℕ} {t : Trace App}
    (h : Run (copyChunk path remaining) t (.returned (.inl remaining'))) :
    remaining' < remaining := by
  rw [copyChunk] at h
  split_ifs at h with h₀
  · cases (Run.pure_returned.mp h).2
  obtain ⟨answer, _, _, rfl, -, h⟩ := Run.bind_returned.mp h
  obtain ⟨chunk, _, _, rfl, -, h⟩ := Run.bind_returned.mp h
  split_ifs at h with hempty hlong
  · exact absurd h Run.raise_returned
  · exact absurd h Run.raise_returned
  · obtain ⟨_, _, _, rfl, -, h⟩ := Run.bind_returned.mp h
    cases (Run.pure_returned.mp h).2
    have := List.length_pos_iff.mpr hempty
    omega

theorem total_writeUpload (contentLength : ℕ) : Total (writeUpload contentLength) := by
  have hcopy (path : Path) : Total (copyUpload path contentLength) :=
    (Total.loop id (total_copyChunk path) (fun _ _ _ h => copyChunk_down h)
      (Nat.lt_succ_self _)).bind fun _ _ _ =>
        (total_fileStep _ _).bind fun _ _ _ => total_fileStep _ _
  have hclose (path : Path) :
      Total ((copyUpload path contentLength).ensuring fun _ => fileStep path .close) :=
    (hcopy path).attempt.bind fun _ _ _ => (total_fileStep _ _).bind fun _ _ _ => .ofExcept _
  have hfill (path : Path) : Total (fillUpload path contentLength) :=
    (total_fileStep _ _).bind fun _ _ _ => (hclose path).bind fun _ _ _ => total_fileStep _ _
  rw [writeUpload]
  split_ifs
  · trivial
  refine (Total.perform _).bind fun _ _ _ => (Total.ofExcept _).bind fun _ _ _ => ?_
  refine (Total.perform _).bind fun _ _ _ => (Total.ofExcept _).bind fun _ path _ => ?_
  refine Total.bind ((hfill path).attempt.bind fun _ x _ => ?_) fun _ _ _ => .pure _
  cases x with
  | ok u => trivial
  | error e => exact (Total.perform _).bind fun _ _ _ => trivial

/-! ## The result -/

theorem copied_append (directory : Path → Option (List UInt8)) (t u : Trace App) :
    copied directory (t ++ u) = u.foldl (fun c e => c.after e.op e.ans) (copied directory t) := by
  simp [copied]

/-- Only a read takes bytes, and one at a time counts. -/
theorem Copy.reads_after (c : Copy) (e : Event App) :
    (c.after e.op e.ans).reads = c.reads ∨
      (∃ size, e.op = .read size) ∧ (c.after e.op e.ans).reads = c.reads + 1 := by
  obtain ⟨o, a⟩ := e
  cases o with
  | mkstemp => cases (a : Except Exn Path) <;> exact .inl rfl
  | read size =>
    cases (a : Except Exn (List UInt8)) with
    | error e => exact .inl rfl
    | ok chunk =>
      by_cases hempty : chunk = []
      · exact .inl (if_pos hempty)
      · exact .inr ⟨⟨size, rfl⟩, if_neg hempty⟩
  | file path step =>
    cases (a : Except Exn Unit) with
    | error e => exact .inl rfl
    | ok u => cases step <;> exact .inl rfl
  | _ => exact .inl rfl

/-- Reads that are made only while fewer bytes than declared were taken. -/
theorem reads_le {t : Trace App}
    (hreads : ∀ u size a v, t = u ++ ⟨.read size, a⟩ :: v →
      (copied directory u).reads < contentLength) :
    (copied directory t).reads ≤ contentLength := by
  induction t using List.reverseRecOn with
  | nil => exact Nat.zero_le _
  | append_singleton t e ih =>
    have ht := ih fun u size a v hsplit => hreads u size a (v ++ [e]) (by simp [hsplit])
    rw [copied_append]
    rcases (copied directory t).reads_after e with h | ⟨⟨size, hsize⟩, h⟩
    · exact h.trans_le ht
    · obtain ⟨o, a⟩ := e
      obtain rfl : o = .read size := hsize
      exact h.trans_le (hreads t size a [] rfl)

/-- `write_upload` copies exactly the declared bytes or leaves nothing behind, and
it ends whatever the stream does. -/
theorem writeUpload_exact (contentLength : ℕ) (directory : Path → Option (List UInt8))
    (t : Trace App) (r : Outcome Exn Path) (h : Run (writeUpload contentLength) t r)
    (hfresh : (copying contentLength).Trusted ⟨[], 0, directory⟩ t)
    (stream : List UInt8) (hstream : (copied directory t).received <+: stream) :
    ExactCopy contentLength directory stream t r ∧
      ∀ w n, ((writeUpload contentLength).exec w n).2 ≠ .cut := by
  obtain ⟨hallow, hret, hraise⟩ := (follows_writeUpload directory).run h hfresh
  have hread : ∀ u size a v, t = u ++ ⟨.read size, a⟩ :: v →
      Copy.MayRead contentLength (copied directory u) (.read size) :=
    fun u size a v hsplit => hallow u _ v hsplit
  refine ⟨⟨fun path hr => ?_, hraise, fun u size a v hsplit => ?_, ?_⟩,
    (total_writeUpload contentLength).exec⟩
  · have hc : Copying contentLength directory path 0 (copied directory t) := hret path hr
    have hlength : (copied directory t).received.length = contentLength := hc.missing
    obtain ⟨rest, rfl⟩ := hstream
    rw [← hlength, List.take_left]
    exact ⟨rfl, rfl, hc.written⟩
  · obtain ⟨hpos, hle, -⟩ := hread u size a v hsplit
    exact ⟨hpos, hle⟩
  · exact reads_le fun u size a v hsplit => (hread u size a v hsplit).2.2

/-- A stream of three bytes that comes in two pieces. -/
def twoPieces : AppScript where
  world := Script.answer { usb := fun _ => .ofDevices [] [] }
  read n := .ok (if n = 3 then [0x3a, 0x30] else [0x31])

theorem writeUpload_two_pieces :
    ExactCopy 3 (fun _ => none) [0x3a, 0x30, 0x31, 0x0a] ((writeUpload 3).exec twoPieces.answer 0).1
      (.returned (.ofString "/tmp/cul868-firmware.hex")) := by
  refine (writeUpload_exact 3 _ _ _ (Run.of_exec twoPieces.answer (writeUpload 3) 0) ?_ _ ?_).1
  · -- only the answer of `mkstemp` is in question
    refine .intro trivial (.intro (fun _ _ => rfl) ?_)
    iterate 9 refine And.intro trivial ?_
    trivial
  · exact ⟨[0x0a], by decide +kernel⟩

end Cul868Flasher
