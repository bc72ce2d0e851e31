import Cul868Flasher.Flasher.Sessions
import Cul868Flasher.SerialChunks
import Cul868Flasher.SerialSession

/-!
# What goes over the wire

The calls of the flasher's operations on their descriptors. A descriptor is
prepared before anything is sent over it and given up on every way out; a command
to the CUL follows only on an answer to `V` that was read from the same descriptor.
-/

namespace Cul868Flasher
open Python Effects Serial

/-- A descriptor and what its session has done. -/
structure Wire where
  descriptor : Option ℕ
  exclusive : Bool
  /-- The attributes that were found first. -/
  original : Option Attributes
  /-- The attributes that have been set since, the last ones first. -/
  assigned : List Attributes
  flushed : Bool
  /-- The attributes set last, or tried to set, are those that were found first. -/
  restored : Bool
  sent : List UInt8
  heard : List UInt8
  /-- More than `V` has been offered to the device in this session. -/
  ordered : Bool
  /-- The same in an earlier session. -/
  spent : Bool
  /-- The record saved last in this session. -/
  record : Option StateFile

/-- The command that an operation may give. -/
def Errand.order : Errand → List UInt8
  | .verification => []
  | .diagnostics => []
  | .flash => SerialSession.bootloaderCommand
  | .led mode => SerialSession.ledModeCommand mode

/-- An accepted answer to `V` is among what has been read. -/
def Confirmed (heard : List UInt8) : Prop :=
  ∃ line text, line ∈ bufferedLines heard ∧ Query.version.accepts line = true ∧
    decodeAscii line = some text ∧ Flasher.contains (String.ofList text) "CUL868" = true

namespace Wire

def idle : Wire := ⟨none, false, none, [], false, false, [], [], false, false, none⟩

/-- The session is exclusive, its attributes are raw 8N1 and have been sent to the
device, for the speed was another one before. -/
structure Ready (w : Wire) : Prop where
  exclusive : w.exclusive = true
  original : w.original.isSome = true
  flushed : w.flushed = true
  coding : ∃ (found : Attributes) (speed alternate : ℕ), alternate ≠ speed ∧
    w.assigned = [found.raw speed, (found.raw speed).withSpeed alternate]

/-- What may be written next. -/
inductive MaySend (errand : Errand) (w : Wire) (data : List UInt8) : Prop where
  | version : w.sent ++ data <+: Query.version.command → MaySend errand w data
  | order : Confirmed w.heard → w.spent = false →
      (errand = .flash → w.record.bind StateFile.binding = some .handoffPending) →
      Query.version.command <+: w.sent →
      w.sent ++ data <+: Query.version.command ++ errand.order → MaySend errand w data
  | telemetry (uptime mbus : List UInt8) : errand = .diagnostics →
      uptime <+: Query.uptime.command → mbus <+: Query.mbus.command →
      w.sent ++ data = uptime ++ mbus → MaySend errand w data

@[simp] def MayTalk (errand : Errand) (w : Wire) (d : ℕ) : TtyOp → Prop
  | .write data => w.descriptor = some d ∧ w.Ready ∧ w.MaySend errand data
  | _ => w.descriptor = some d ∧ w.Ready

@[simp] def Allows (errand : Errand) (w : Wire) : Host.Op → Prop
  | .world _ => True
  | .openDevice _ => w.descriptor = none
  | .tiocexcl d => w.descriptor = some d ∧ w.exclusive = false
  | .tiocnxcl d => w.descriptor = some d
  | .tcgetattr d => w.descriptor = some d ∧ w.exclusive = true
  | .tcsetattr d attributes => w.descriptor = some d ∧ (w.original = some attributes ∨
      w.exclusive = true ∧ w.original.isSome = true ∧ w.sent = [])
  | .tcflush d => w.descriptor = some d ∧ w.exclusive = true ∧ w.sent = []
  | .tcdrain d => w.descriptor = some d ∧ w.Ready
  | .close d => w.descriptor = some d ∧ (w.original.isSome = true → w.restored = true)
  | .tty d o => w.MayTalk errand d o

def opened (w : Wire) : Except Failure ℕ → Wire
  | .error _ => w
  | .ok d => { idle with descriptor := some d, spent := w.spent || w.ordered }

def found (w : Wire) : Except Failure Attributes → Wire
  | .error _ => w
  | .ok attributes => { w with original := w.original.or (some attributes) }

def assign (w : Wire) (attributes : Attributes) : Except Failure Unit → Wire
  | .error _ => { w with restored := w.original = some attributes }
  | .ok _ => { w with
      restored := w.original = some attributes
      assigned := attributes :: w.assigned }

def wrote (w : Wire) (data : List UInt8) : Except String ℤ → Wire
  | .error _ => { w with ordered := w.ordered || Query.version.command.isPrefixOf w.sent }
  | .ok n => { w with
      ordered := w.ordered || Query.version.command.isPrefixOf w.sent
      sent := w.sent ++ data.take n.toNat }

def read (w : Wire) : Except String (List UInt8) → Wire
  | .error _ => w
  | .ok chunk => { w with heard := w.heard ++ chunk }

/-- A record that has been saved for good. -/
def saved (w : Wire) : (o : Op) → World.Ans o → Wire
  | .saveState file, outcome =>
    let outcome : SaveOutcome := outcome
    match outcome with
    | .saved => { w with record := some file }
    | .failed _ _ => w
  | _, _ => w

@[simp] def spoken (w : Wire) : (o : TtyOp) → Tty.Ans o → Wire
  | .read _, answer => w.read answer
  | .write data, answer => w.wrote data answer
  | .monotonic, _ => w
  | .selectRead _, _ => w
  | .selectWrite _, _ => w

@[simp] def after (w : Wire) : (o : Host.Op) → Host.Ans o → Wire
  | .openDevice _, answer => w.opened answer
  | .tiocexcl _, answer =>
    let answer : Except Failure Unit := answer
    { w with exclusive := w.exclusive || answer.isOk }
  | .tiocnxcl _, answer =>
    let answer : Except Failure Unit := answer
    { w with exclusive := w.exclusive && !answer.isOk }
  | .tcgetattr _, answer => w.found answer
  | .tcsetattr _ attributes, answer => w.assign attributes answer
  | .tcflush _, answer =>
    let answer : Except Failure Unit := answer
    { w with flushed := w.flushed || answer.isOk }
  | .close _, _ => { w with descriptor := none }
  | .tty _ o, answer => w.spoken o answer
  | .world o, answer => w.saved o answer
  | .tcdrain _, _ => w

end Wire

/-- How an operation treats its descriptors. -/
def wiring (errand : Errand) : Discipline Host Wire where
  allows := Wire.Allows errand
  trusts _ _ _ := True
  after := Wire.after

/-- The same on the terminal of an open descriptor. -/
def speaking (errand : Errand) (d : ℕ) : Discipline Tty Wire where
  allows w := w.MayTalk errand d
  trusts _ _ _ := True
  after := Wire.spoken

variable {errand : Errand} {α ε : Type} {d fuel : ℕ} {w : Wire}

theorem follows_onTty {Q : α → Wire → Prop} {E : Exn → Wire → Prop} {p : TtyProgram α}
    (h : Follows (speaking errand d) Q E p w) :
    Follows (wiring errand) Q E (SerialSession.onTty d p) w := by
  induction p generalizing w with
  | ret a => exact h
  | raise e => exact h
  | call o k ih => exact ⟨h.1, fun a ha => ih a (h.2 a ha)⟩
  | halt => trivial

/-! ## Commands and answers -/

namespace Wire

theorem Ready.say {w : Wire} (h : w.Ready) (sent heard : List UInt8) (ordered : Bool) :
    Ready { w with sent := sent, heard := heard, ordered := ordered } :=
  ⟨h.exclusive, h.original, h.flushed, h.coding⟩

/-- The part `p` of `data` has been sent. Whether it has been offered as a command
is known from what had been sent before. -/
def Sends (w : Wire) (data p : List UInt8) (w' : Wire) : Prop :=
  ∃ ordered, w' = { w with sent := w.sent ++ p, ordered := ordered } ∧
    ((∀ q rest, data = q ++ rest → rest ≠ [] → ¬Query.version.command <+: w.sent ++ q) →
      ordered = w.ordered)

theorem Sends.refl (w : Wire) (data : List UInt8) : w.Sends data [] w :=
  ⟨w.ordered, by rw [List.append_nil], fun _ => rfl⟩

theorem Sends.wrote {w w' : Wire} {data p rest : List UInt8} (h : w.Sends data p w')
    (hdata : data = p ++ rest) (hrest : rest ≠ []) (n : ℤ) :
    w.Sends data (p ++ rest.take n.toNat) (w'.wrote rest (.ok n)) := by
  obtain ⟨ordered, rfl, hquiet⟩ := h
  refine ⟨_, by rw [Wire.wrote, ← List.append_assoc], fun hnone => ?_⟩
  have hnot := hnone p rest hdata hrest
  rw [← List.isPrefixOf_iff_prefix, Bool.not_eq_true] at hnot
  rw [hnot, Bool.or_false]
  exact hquiet hnone

theorem Sends.failed {w w' : Wire} {data p rest : List UInt8} (h : w.Sends data p w')
    (hdata : data = p ++ rest) (hrest : rest ≠ []) (message : String) :
    w.Sends data p (w'.wrote rest (.error message)) := by
  obtain ⟨ordered, rfl, hquiet⟩ := h
  refine ⟨_, rfl, fun hnone => ?_⟩
  have hnot := hnone p rest hdata hrest
  rw [← List.isPrefixOf_iff_prefix, Bool.not_eq_true] at hnot
  rw [hnot, Bool.or_false]
  exact hquiet hnone

end Wire

variable {timeout : ℚ}

/-- A command is written from its first byte on, and raises with a part of it written. -/
theorem follows_writeAll {data : List UInt8} (hd : w.descriptor = some d) (hready : w.Ready)
    (hsend : ∀ p rest w', data = p ++ rest → rest ≠ [] → w.Sends data p w' →
      w'.MaySend errand rest) :
    Follows (speaking errand d) (fun _ => w.Sends data data)
      (fun _ w' => ∃ p, p <+: data ∧ w.Sends data p w') (writeAll fuel timeout data) w := by
  have hopen : ∀ {p w'}, w.Sends data p w' → w'.descriptor = some d ∧ w'.Ready := by
    rintro p _ ⟨ordered, rfl, -⟩
    exact ⟨hd, hready.say _ _ _⟩
  refine Follows.step ⟨hd, hready⟩ fun start _ => ?_
  refine .loop (K := fun view w' => ∃ p, data = p ++ view ∧ w.Sends data p w') ?_ fuel
    ⟨[], rfl, .refl w data⟩
  rintro view w' ⟨p, hdata, hp⟩
  unfold writeStep
  split_ifs with hview
  · rw [hview, List.append_nil] at hdata
    exact .pure ⟨(fun _ h => by cases h), fun _ _ => hdata ▸ hp⟩
  · have hprefix : p <+: data := ⟨view, hdata.symm⟩
    refine Follows.step (hopen hp) fun now _ => Follows.step (hopen hp) fun writable _ => ?_
    rcases writable with err | (_ | _)
    · exact .raise ⟨p, hprefix, hp⟩
    · exact .raise ⟨p, hprefix, hp⟩
    · refine Follows.step ⟨(hopen hp).1, (hopen hp).2, hsend p view w' hdata hview hp⟩
        fun written _ => ?_
      cases written with
      | error err => exact .raise ⟨p, hprefix, hp.failed hdata hview err⟩
      | ok n =>
        have hwrote := hp.wrote hdata hview n
        have hsplit : data = (p ++ view.take n.toNat) ++ view.drop n.toNat := by
          rw [List.append_assoc, List.take_append_drop, hdata]
        dsimp only
        split_ifs
        · exact .raise ⟨_, ⟨_, hsplit.symm⟩, hwrote⟩
        · refine .pure ⟨fun view' h => ?_, fun _ h => by cases h⟩
          cases h
          exact ⟨_, hsplit, hwrote⟩

theorem examine_inr {q : Query} {response : List UInt8} {text : String}
    (h : examine q response = .ok (.inr text)) : ∃ line, line ∈ bufferedLines response ∧
      q.accepts line = true ∧ decodeAscii line = some text.toList := by
  rw [examine] at h
  split at h
  · rename_i line hfind
    split at h
    · rename_i text' hdecode
      cases h
      exact ⟨line, List.mem_of_find?_eq_some hfind, List.find?_some hfind, by
        rw [hdecode, String.toList_ofList]⟩
    · cases h
  · split_ifs at h
    cases h

/-- An answer is an accepted line of what has been read since the command. -/
theorem follows_readLine {q : Query} (hd : w.descriptor = some d) (hready : w.Ready) :
    Follows (speaking errand d)
      (fun text w' => ∃ response line, w' = { w with heard := w.heard ++ response } ∧
        line ∈ bufferedLines response ∧ q.accepts line = true ∧ decodeAscii line = some text.toList)
      (fun _ w' => ∃ response, w' = { w with heard := w.heard ++ response })
      (readLine fuel timeout q) w := by
  refine Follows.step ⟨hd, hready⟩ fun (start : ℚ) _ => ?_
  refine .loop (K := fun response w' => w' = { w with heard := w.heard ++ response }) ?_ fuel
    (by
      rw [List.append_nil]
      rfl)
  rintro response _ rfl
  have hopen : ∀ heard, ({ w with heard := heard } : Wire).descriptor = some d ∧
      ({ w with heard := heard } : Wire).Ready := fun heard => ⟨hd, hready.say _ _ _⟩
  unfold readStep
  refine Follows.step (hopen _) fun (now : ℚ) _ => ?_
  change Follows (speaking errand d) _ _ (if start + timeout ≤ now then _ else _) _
  split_ifs
  · exact .raise ⟨response, rfl⟩
  · refine Follows.step (hopen _) fun now _ => Follows.step (hopen _) fun readable _ => ?_
    rcases readable with err | (_ | _)
    · exact .raise ⟨response, rfl⟩
    · exact .raise ⟨response, rfl⟩
    · refine Follows.step (hopen _) fun chunk _ => ?_
      cases chunk with
      | error err => exact .raise ⟨response, rfl⟩
      | ok chunk =>
        have hread : ({ w with heard := w.heard ++ response } : Wire).read (.ok chunk) =
            { w with heard := w.heard ++ (response ++ chunk) } := by
          rw [Wire.read, List.append_assoc]
        dsimp only
        split_ifs with hchunk
        · refine .pure ⟨fun _ h => ?_, fun _ h => by cases h⟩
          cases h
          rw [hchunk] at hread ⊢
          exact hread.trans (by rw [List.append_nil])
        · refine .ofExcept (fun x hx => ?_) fun e _ => ⟨_, hread⟩
          refine ⟨fun grown h => ?_, fun text h => ?_⟩
          · subst h
            rw [(examine_inl hx).1]
            exact hread
          · subst h
            obtain ⟨line, hline, haccepts, hdecode⟩ := examine_inr hx
            exact ⟨_, line, hread, hline, haccepts, hdecode⟩

/-! ## Opening and closing -/

namespace SerialSession

variable {s : SerialSession}

/-- The object knows its descriptor and what is to be restored. -/
structure Owns (s : SerialSession) (d : ℕ) (w : Wire) : Prop where
  object : s.descriptor = some d
  wire : w.descriptor = some d
  original : s.originalAttributes = w.original

/-- Nothing has gone over the wire yet. -/
structure Untouched (spent : Bool) (w : Wire) : Prop where
  sent : w.sent = []
  heard : w.heard = []
  ordered : w.ordered = false
  spent : w.spent = spent
  record : w.record = none

theorem follows_exit {Q : SerialSession → Wire → Prop} {E : ε → Wire → Prop} (h : s.Owns d w)
    (hQ : ∀ s w', s.descriptor = none → w'.descriptor = none → w'.ordered = w.ordered →
      w'.spent = w.spent → Q s w') : Follows (wiring errand) Q E s.exit w := by
  have hclose :
      ∀ w' : Wire, w'.descriptor = some d → (w'.original.isSome = true → w'.restored = true) →
      w'.ordered = w.ordered → w'.spent = w.spent → Follows (wiring errand) Q E (do
        let _ : Except Failure Unit ← host (.close d)
        return { s with descriptor := none, originalAttributes := none }) w' :=
    fun w' hd hrestored hordered hspent => Follows.step ⟨hd, hrestored⟩ fun _ _ =>
      .pure (hQ _ _ rfl rfl hordered hspent)
  unfold exit
  rw [h.object]
  dsimp only
  unfold restore
  have horiginal := h.original
  cases hfound : s.originalAttributes with
  | none =>
    rw [hfound] at horiginal
    refine Follows.step h.wire fun _ _ => hclose _ h.wire (fun hsome => ?_) rfl rfl
    change w.original.isSome = true at hsome
    rw [← horiginal] at hsome
    cases hsome
  | some original =>
    rw [hfound] at horiginal
    have hrestored : decide (w.original = some original) = true := decide_eq_true horiginal.symm
    refine Follows.step ⟨h.wire, .inl horiginal.symm⟩ fun (answer : Except Failure Unit) _ => ?_
    cases answer with
    | error err => exact hclose _ h.wire (fun _ => hrestored) rfl rfl
    | ok _ => exact Follows.step h.wire fun _ _ => hclose _ h.wire (fun _ => hrestored) rfl rfl

/-- The speed that is set for a moment is not the one of the session. -/
theorem alternateSpeed_ne {baudrate speed : ℕ} (h : speeds.lookup baudrate = some speed) :
    alternateSpeed baudrate ≠ speed := by
  unfold alternateSpeed speeds at *
  by_cases hfast : baudrate = 115200
  · subst hfast
    cases h
    decide
  · rw [if_pos hfast]
    rintro rfl
    -- Every speed of the table but 115200 is another one.
    simp only [List.lookup_cons] at h
    repeat' split at h
    any_goals cases h
    rename_i heq
    exact hfast (by simpa using heq)

/-- The preparation of a fresh descriptor, or its failure before anything is sent. -/
theorem follows_configure {speed : ℕ} (spent : Bool) (hspeed : alternateSpeed s.baudrate ≠ speed)
    (hnone : s.originalAttributes = none) (hd : s.descriptor = some d) :
    Follows (wiring errand)
      (fun s w => s.Owns d w ∧ w.Ready ∧ Untouched spent w)
      (fun e w => e.2.Owns d w ∧ Untouched spent w) (s.configure d speed)
      { Wire.idle with descriptor := some d, spent := spent } := by
  have hun : ∀ w : Wire, w.sent = [] → w.heard = [] → w.ordered = false → w.spent = spent →
      w.record = none → Untouched spent w := fun _ h₁ h₂ h₃ h₄ h₅ => ⟨h₁, h₂, h₃, h₄, h₅⟩
  refine Follows.step ⟨rfl, rfl⟩ fun (locked : Except Failure Unit) _ => ?_
  cases locked with
  | error err => exact .raise ⟨⟨hd, rfl, hnone⟩, hun _ rfl rfl rfl rfl rfl⟩
  | ok _ =>
  refine Follows.step ⟨rfl, rfl⟩ fun (original : Except Failure Attributes) _ => ?_
  cases original with
  | error err => exact .raise ⟨⟨hd, rfl, hnone⟩, hun _ rfl rfl rfl rfl rfl⟩
  | ok original =>
  refine Follows.step ⟨rfl, rfl⟩ fun (current : Except Failure Attributes) _ => ?_
  cases current with
  | error err => exact .raise ⟨⟨hd, rfl, rfl⟩, hun _ rfl rfl rfl rfl rfl⟩
  | ok current =>
  refine Follows.step ⟨rfl, .inr ⟨rfl, rfl, rfl⟩⟩ fun (toggled : Except Failure Unit) _ => ?_
  cases toggled with
  | error err => exact .raise ⟨⟨hd, rfl, rfl⟩, hun _ rfl rfl rfl rfl rfl⟩
  | ok _ =>
  refine Follows.step ⟨rfl, .inr ⟨rfl, rfl, rfl⟩⟩ fun (restored : Except Failure Unit) _ => ?_
  cases restored with
  | error err => exact .raise ⟨⟨hd, rfl, rfl⟩, hun _ rfl rfl rfl rfl rfl⟩
  | ok _ =>
  refine Follows.step ⟨rfl, rfl, rfl⟩ fun (flushed : Except Failure Unit) _ => ?_
  cases flushed with
  | error err => exact .raise ⟨⟨hd, rfl, rfl⟩, hun _ rfl rfl rfl rfl rfl⟩
  | ok _ =>
    exact .pure ⟨⟨hd, rfl, rfl⟩, ⟨rfl, rfl, rfl, ⟨current, speed, _, hspeed, rfl⟩⟩,
      hun _ rfl rfl rfl rfl rfl⟩

/-- A session that cannot be prepared is given up again. -/
theorem follows_enter {device : Path} {baudrate : ℕ}
    {Q : Except Exn Unit × SerialSession → Wire → Prop}
    {E : ε → Wire → Prop} (hw : w.descriptor = none)
    (hsame : ∀ e s, Q (.error e, s) w)
    (hopened : ∀ s d w', s.Owns d w' → w'.Ready → Untouched (w.spent || w.ordered) w' →
      Q (.ok (), s) w')
    (hfailed : ∀ e s w', w'.descriptor = none → w'.ordered = false →
      w'.spent = (w.spent || w.ordered) → Q (.error e, s) w') :
    Follows (wiring errand) Q E (new device baudrate).enter w := by
  unfold enter
  cases hspeed : speeds.lookup (new device baudrate).baudrate with
  | none => exact .pure (hsame _ _)
  | some speed =>
    refine Follows.step hw fun (opened : Except Failure ℕ) _ => ?_
    cases opened with
    | error err => exact .pure (hsame _ _)
    | ok d =>
      refine Follows.attempt_bind (follows_configure (w.spent || w.ordered)
        (s := { new device baudrate with descriptor := some d }) (alternateSpeed_ne hspeed) rfl rfl)
        (fun s w' h => ?_) fun e w' h => ?_
      · exact .pure (hopened s d w' h.1 h.2.1 h.2.2)
      · obtain ⟨err, s⟩ := e
        obtain ⟨howns, huntouched⟩ := h
        refine Follows.bind (R := fun _ w' => w'.descriptor = none ∧ w'.ordered = false ∧
          w'.spent = (w.spent || w.ordered)) ?_ fun s w'' h => .pure (hfailed _ _ _ h.1 h.2.1 h.2.2)
        exact follows_exit howns fun _ _ _ hnone hordered hspent =>
          ⟨hnone, hordered.trans huntouched.ordered, hspent.trans huntouched.spent⟩

/-! ## Commands -/

theorem follows_version (hd : s.descriptor = some d) (hw : w.descriptor = some d) (hready : w.Ready)
    (hsent : w.sent = []) (hheard : w.heard = []) :
    Follows (wiring errand)
      (fun _ w' => ∃ heard, w' = { w with sent := Query.version.command, heard := heard } ∧
        Confirmed heard)
      (fun _ w' => ∃ sent heard, w' = { w with sent := sent, heard := heard })
      (s.version fuel) w := by
  have hnone : ∀ q rest, Query.version.command = q ++ rest → rest ≠ [] →
      ¬Query.version.command <+: w.sent ++ q := by
    intro q rest hdata hrest hprefix
    rw [hsent, List.nil_append] at hprefix
    have hlength := hprefix.length_le
    rw [hdata, List.length_append] at hlength
    exact hrest (List.length_eq_zero_iff.mp (by omega))
  have hsends : ∀ p w', w.Sends Query.version.command p w' → w' = { w with sent := p } := by
    rintro p _ ⟨ordered, rfl, hquiet⟩
    rw [hquiet hnone, hsent, List.nil_append]
  unfold version
  rw [requireDescriptor, hd]
  change Follows (wiring errand) _ _ (onTty d (Serial.version fuel _)) w
  refine follows_onTty (Follows.bind (R := fun text w' => ∃ response line,
    w' = { w with sent := Query.version.command, heard := response } ∧
      line ∈ bufferedLines response ∧ Query.version.accepts line = true ∧
      decodeAscii line = some text.toList) (Follows.bind (R := fun _ w' =>
        w' = { w with sent := Query.version.command }) ?_ ?_) ?_)
  · refine (follows_writeAll hw hready fun p rest w' hdata _ hp => ?_).conseq
      (fun _ w' h => hsends _ _ h) ?_
    · rw [hsends p w' hp]
      exact .version ⟨[], by rw [List.append_nil, hdata]⟩
    · rintro e w' ⟨p, -, hp⟩
      exact ⟨p, w.heard, hsends p w' hp⟩
  · rintro _ _ rfl
    refine (follows_readLine (w := { w with sent := Query.version.command }) hw
      (hready.say _ _ _)).conseq ?_ ?_
    · rintro text _ ⟨response, line, rfl, h⟩
      exact ⟨response, line, by rw [hheard, List.nil_append], h⟩
    · rintro e _ ⟨response, rfl⟩
      exact ⟨_, _, rfl⟩
  · rintro text _ ⟨response, line, rfl, hline, haccepts, hdecode⟩
    split_ifs with hcontains
    · exact .raise ⟨_, _, rfl⟩
    · refine .pure ⟨response, rfl, line, text.toList, hline, haccepts, hdecode, ?_⟩
      rw [String.ofList_toList]
      simpa using hcontains

/-- A command behind an accepted answer to `V`. -/
theorem follows_order {p : HostProgram Exn Unit} {command : List UInt8}
    (hcommand : errand.order = command)
    (hw : w.descriptor = some d) (hready : w.Ready) (hsent : w.sent = Query.version.command)
    (hconfirmed : Confirmed w.heard) (hspent : w.spent = false)
    (hrecord : errand = .flash → w.record.bind StateFile.binding = some .handoffPending)
    (hp : ∀ sent ordered, Follows (wiring errand)
      (fun _ w' => w'.descriptor = some d ∧ w'.Ready ∧ w'.original = w.original ∧
        w'.record = w.record)
      (fun _ w' => w'.descriptor = some d ∧ w'.Ready ∧ w'.original = w.original ∧
        w'.record = w.record) p
      { w with sent := sent, ordered := ordered }) :
    Follows (wiring errand)
      (fun _ w' => w'.descriptor = some d ∧ w'.Ready ∧ w'.original = w.original ∧
        w'.record = w.record)
      (fun _ w' => w'.descriptor = some d ∧ w'.Ready ∧ w'.original = w.original ∧
        w'.record = w.record)
      (onTty d (writeAll fuel timeout command) >>= fun _ => p) w := by
  refine (follows_onTty ((follows_writeAll hw hready ?_).conseq (fun _ _ h => h) ?_)).bind ?_
  · rintro q rest _ hdata hrest ⟨ordered, rfl, -⟩
    refine .order hconfirmed hspent hrecord ⟨q, by rw [hsent]⟩ ⟨[], ?_⟩
    rw [List.append_nil, hsent, List.append_assoc, ← hdata, hcommand]
  · rintro e _ ⟨q, -, ordered, rfl, -⟩
    exact ⟨hw, hready.say _ _ _, rfl, rfl⟩
  · rintro _ _ ⟨ordered, rfl, -⟩
    exact hp _ _

/-- A query of the telemetry, answered or not. -/
theorem follows_query {q : Query} (hw : w.descriptor = some d) (hready : w.Ready)
    (hsend : ∀ p rest (w' : Wire), q.command = p ++ rest → w'.sent = w.sent ++ p →
      w'.MaySend errand rest) :
    Follows (speaking errand d)
      (fun _ w' => ∃ p heard ordered, p <+: q.command ∧
        w' = { w with sent := w.sent ++ p, heard := heard, ordered := ordered })
      (fun _ w' => ∃ p heard ordered, p <+: q.command ∧
        w' = { w with sent := w.sent ++ p, heard := heard, ordered := ordered })
      (requestLine fuel timeout q) w := by
  refine Follows.bind (R := fun _ w' => ∃ ordered,
    w' = { w with sent := w.sent ++ q.command, ordered := ordered }) ?_ ?_
  · refine (follows_writeAll hw hready ?_).conseq ?_ ?_
    · rintro p rest _ hdata _ ⟨ordered, rfl, -⟩
      exact hsend p rest _ hdata rfl
    · rintro _ _ ⟨ordered, rfl, -⟩
      exact ⟨ordered, rfl⟩
    · rintro e _ ⟨p, hp, ordered, rfl, -⟩
      exact ⟨p, w.heard, ordered, hp, rfl⟩
  · rintro _ _ ⟨ordered, rfl⟩
    refine (follows_readLine (w := { w with sent := w.sent ++ q.command, ordered := ordered }) hw
      (hready.say _ _ _)).conseq ?_ ?_
    · rintro text _ ⟨response, line, rfl, -⟩
      exact ⟨_, _, ordered, List.prefix_refl _, rfl⟩
    · rintro e _ ⟨response, rfl⟩
      exact ⟨_, _, ordered, List.prefix_refl _, rfl⟩

end SerialSession

/-! ## The steps of the flasher -/

/-- What the dialogue above says of the object and of its wire. -/
structure Tied (errand : Errand) (ℓ : Talk) (s : SerialSession) (w : Wire) : Prop where
  shut : ℓ.link = .shut → w.descriptor = none
  live : ℓ.link ≠ .shut → w.Ready ∧ ∃ d, s.Owns d w
  record : ℓ.link ≠ .shut → w.record = ℓ.record
  unordered : errand.order ≠ [] → ℓ.ordered = false → w.ordered = false ∧ w.spent = false
  fresh : ℓ.link = .fresh → w.sent = [] ∧ w.heard = []
  verified : ℓ.link = .verified → w.sent = Query.version.command ∧ Confirmed w.heard
  asked : ℓ.link = .asked → w.sent <+: Query.uptime.command

namespace Tied

variable {ℓ : Talk} {s : SerialSession} {rec : Option StateFile}

theorem of_shut {b : Bool} (hw : w.descriptor = none)
    (h : errand.order ≠ [] → b = false → w.ordered = false ∧ w.spent = false) :
    Tied errand ⟨.shut, b, rec⟩ s w where
  shut _ := hw
  live hlink := absurd rfl hlink
  record hlink := absurd rfl hlink
  unordered := h
  fresh hlink := by cases hlink
  verified hlink := by cases hlink
  asked hlink := by cases hlink

/-- A link over which no more is asked for. -/
theorem of_spent {b : Bool} (hready : w.Ready) (howns : s.Owns d w) (hrecord : w.record = rec)
    (h : errand.order ≠ [] → b = false → w.ordered = false ∧ w.spent = false) :
    Tied errand ⟨.spent, b, rec⟩ s w where
  shut hlink := by cases hlink
  live _ := ⟨hready, d, howns⟩
  record _ := hrecord
  unordered := h
  fresh hlink := by cases hlink
  verified hlink := by cases hlink
  asked hlink := by cases hlink

theorem follows_answering {β : Type} {R : Except Exn β → SerialSession → Wire → Prop}
    {p : HostProgram Exn β}
    (hp : Follows (wiring errand) (fun a => R (.ok a) s) (fun e => R (.error e) s) p w) :
    Follows (wiring errand) (fun x => R x.1 x.2) (fun e _ => e.elim) (s.answering p) w :=
  hp.attempt_bind (fun _ _ h => .pure h) fun _ _ h => .pure h

theorem follows_open {b : Bool} {device : Path} {baudrate : ℕ}
    (h : Tied errand ⟨.shut, b, rec⟩ s w) :
    Follows (wiring errand)
      (fun x w' =>
        Tied errand (Talk.after ⟨.shut, b, rec⟩ (.openSerial device baudrate) x.1) x.2 w')
      (fun e _ => e.elim) ((SerialSession.new device baudrate).enter : HostProgram Empty _) w := by
  have hspent : errand.order ≠ [] → b = false → (w.spent || w.ordered) = false := by
    intro horder hb
    obtain ⟨hordered, hspent⟩ := h.unordered horder hb
    rw [hordered, hspent]
    rfl
  refine SerialSession.follows_enter (h.shut rfl) (fun e s => ?_)
    (fun s d w' howns hready hun => ?_)
    fun e s w' hnone hordered hspent' => ?_
  · exact of_shut (h.shut rfl) h.unordered
  · exact {
      shut := fun hlink => by cases hlink
      live := fun _ => ⟨hready, d, howns⟩
      record := fun _ => hun.record
      unordered := fun horder hb => ⟨hun.ordered, hun.spent.trans (hspent horder hb)⟩
      fresh := fun _ => ⟨hun.sent, hun.heard⟩
      verified := fun hlink => by cases hlink
      asked := fun hlink => by cases hlink }
  · exact of_shut hnone fun horder hb => ⟨hordered, hspent'.trans (hspent horder hb)⟩

theorem follows_version {b : Bool} (h : Tied errand ⟨.fresh, b, rec⟩ s w) :
    Follows (wiring errand)
      (fun x w' => Tied errand (Talk.after ⟨.fresh, b, rec⟩ .version x.1) x.2 w')
      (fun e _ => e.elim) (s.answering (s.version fuel)) w := by
  obtain ⟨hready, d, howns⟩ := h.live (by simp)
  obtain ⟨hsent, hheard⟩ := h.fresh rfl
  refine follows_answering
    (R := fun x s w' => Tied errand (Talk.after ⟨.fresh, b, rec⟩ .version x) s w')
    ((SerialSession.follows_version howns.object howns.wire hready hsent hheard).conseq ?_ ?_)
  · rintro text _ ⟨heard, rfl, hconfirmed⟩
    exact {
      shut := fun hlink => by cases hlink
      live := fun _ => ⟨hready.say _ _ _, d, howns.object, howns.wire, howns.original⟩
      record := fun _ => h.record (by simp)
      unordered := h.unordered
      fresh := fun hlink => by cases hlink
      verified := fun _ => ⟨rfl, hconfirmed⟩
      asked := fun hlink => by cases hlink }
  · rintro e _ ⟨sent, heard, rfl⟩
    exact of_spent (hready.say _ _ _) ⟨howns.object, howns.wire, howns.original⟩
      (h.record (by simp)) h.unordered

/-- The way of both commands; `p` waits until the command has been sent. -/
theorem follows_order {b : Bool} {command : List UInt8} {p : ℕ → HostProgram Exn Unit}
    (h : Tied errand ⟨.verified, b, rec⟩ s w) (hb : b = false) (hcommand : errand.order = command)
    (hne : command ≠ [])
    (hrec : errand = .flash → rec.bind StateFile.binding = some .handoffPending)
    (hp : ∀ d (w' : Wire), w'.descriptor = some d → w'.Ready →
      Follows (wiring errand) (fun _ => (· = w')) (fun _ => (· = w')) (p d) w') :
    Follows (wiring errand) (fun _ w' => Tied errand ⟨.spent, true, rec⟩ s w')
      (fun _ w' => Tied errand ⟨.spent, true, rec⟩ s w') (do
        let descriptor ← s.requireDescriptor
        SerialSession.onTty descriptor (writeAll fuel timeout command)
        p descriptor) w := by
  obtain ⟨hready, d, howns⟩ := h.live (by simp)
  obtain ⟨hsent, hconfirmed⟩ := h.verified rfl
  obtain ⟨-, hspent⟩ := h.unordered (by rw [hcommand]; exact hne) hb
  have hrecord : w.record = rec := h.record (by simp)
  rw [SerialSession.requireDescriptor, howns.object]
  refine (SerialSession.follows_order hcommand howns.wire hready hsent hconfirmed hspent
    (hrecord ▸ hrec) fun sent ordered => ?_).conseq ?_ ?_
  · refine (hp d { w with sent := sent, ordered := ordered } howns.wire
      (hready.say _ _ _)).conseq ?_ ?_
    · rintro _ _ rfl
      exact ⟨howns.wire, hready.say _ _ _, rfl, rfl⟩
    · rintro _ _ rfl
      exact ⟨howns.wire, hready.say _ _ _, rfl, rfl⟩
  · rintro _ w' ⟨hd, hready', horiginal, hrecord'⟩
    exact of_spent hready' ⟨howns.object, hd, howns.original.trans horiginal.symm⟩
      (hrecord'.trans hrecord) fun _ hfalse => by cases hfalse
  · rintro _ w' ⟨hd, hready', horiginal, hrecord'⟩
    exact of_spent hready' ⟨howns.object, hd, howns.original.trans horiginal.symm⟩
      (hrecord'.trans hrecord) fun _ hfalse => by cases hfalse

theorem follows_enterBootloader {b : Bool} (h : Tied .flash ⟨.verified, b, rec⟩ s w)
    (hb : b = false)
    (hrec : rec.bind StateFile.binding = some .handoffPending) : Follows (wiring .flash)
      (fun x w' => Tied .flash (Talk.after ⟨.verified, b, rec⟩ .enterBootloader x.1) x.2 w')
      (fun e _ => e.elim) (s.answering (s.enterBootloader fuel)) w := by
  refine follows_answering (R := fun _ s w' => Tied .flash ⟨.spent, true, rec⟩ s w')
    (follows_order h hb rfl (by decide) (fun _ => hrec) fun d w' hd hready => ?_)
  refine Follows.step ⟨hd, hready⟩ fun (drained : Except Failure Unit) _ => ?_
  cases drained with
  | ok _ => exact .pure rfl
  | error err =>
    dsimp only
    split_ifs
    · exact .pure rfl
    · exact .raise rfl

theorem follows_setLed {b : Bool} {mode : LedMode} (h : Tied (.led mode) ⟨.verified, b, rec⟩ s w)
    (hb : b = false) : Follows (wiring (.led mode))
      (fun x w' => Tied (.led mode) (Talk.after ⟨.verified, b, rec⟩ (.setLed mode) x.1) x.2 w')
      (fun e _ => e.elim) (s.answering (s.setLed fuel mode)) w := by
  refine follows_answering (R := fun _ s w' => Tied (.led mode) ⟨.spent, true, rec⟩ s w')
    (follows_order h hb rfl (by cases mode <;> decide) (fun hflash => by cases hflash)
      fun d w' hd hready => ?_)
  refine Follows.step ⟨hd, hready⟩ fun (drained : Except Failure Unit) _ => ?_
  cases drained with
  | ok _ => exact .pure rfl
  | error err => exact .raise rfl

theorem follows_uptimeTicks {b : Bool} (h : Tied .diagnostics ⟨.fresh, b, rec⟩ s w) :
    Follows (wiring .diagnostics)
      (fun x w' => Tied .diagnostics (Talk.after ⟨.fresh, b, rec⟩ .uptimeTicks x.1) x.2 w')
      (fun e _ => e.elim) (s.answering (s.uptimeTicks fuel)) w := by
  obtain ⟨hready, d, howns⟩ := h.live (by simp)
  obtain ⟨hsent, -⟩ := h.fresh rfl
  have hasked (p heard : List UInt8) (ordered : Bool) (hp : p <+: Query.uptime.command) :
      Tied .diagnostics ⟨.asked, b, rec⟩ s
        { w with sent := w.sent ++ p, heard := heard, ordered := ordered } := {
    shut := fun hlink => by cases hlink
    live := fun _ => ⟨hready.say _ _ _, d, howns.object, howns.wire, howns.original⟩
    record := fun _ => h.record (by simp)
    unordered := fun hnone => absurd rfl hnone
    fresh := fun hlink => by cases hlink
    verified := fun hlink => by cases hlink
    asked := fun _ => by rw [hsent]; exact hp }
  refine follows_answering (R := fun _ s w' => Tied .diagnostics ⟨.asked, b, rec⟩ s w') ?_
  unfold SerialSession.uptimeTicks
  rw [SerialSession.requireDescriptor, howns.object]
  refine follows_onTty (Follows.bind ((SerialSession.follows_query howns.wire hready ?_).conseq
    (fun _ _ h => h) ?_) ?_)
  · intro p rest w' hdata hw'
    refine .telemetry (p ++ rest) [] rfl ⟨[], by rw [List.append_nil, hdata]⟩ List.nil_prefix ?_
    rw [hw', hsent, List.nil_append, List.append_nil]
  · rintro e _ ⟨p, heard, ordered, hp, rfl⟩
    exact hasked p heard ordered hp
  · rintro line _ ⟨p, heard, ordered, hp, rfl⟩
    exact .pure (hasked p heard ordered hp)

theorem follows_mbusMode {b : Bool} (h : Tied .diagnostics ⟨.asked, b, rec⟩ s w) :
    Follows (wiring .diagnostics)
      (fun x w' => Tied .diagnostics (Talk.after ⟨.asked, b, rec⟩ .mbusMode x.1) x.2 w')
      (fun e _ => e.elim) (s.answering (s.mbusMode fuel)) w := by
  obtain ⟨hready, d, howns⟩ := h.live (by simp)
  refine follows_answering (R := fun _ s w' => Tied .diagnostics ⟨.spent, b, rec⟩ s w') ?_
  unfold SerialSession.mbusMode
  rw [SerialSession.requireDescriptor, howns.object]
  have hspent : ∀ (p heard : List UInt8) (ordered : Bool), Tied .diagnostics ⟨.spent, b, rec⟩ s
      { w with sent := w.sent ++ p, heard := heard, ordered := ordered } := fun p heard ordered =>
    of_spent (hready.say _ _ _) ⟨howns.object, howns.wire, howns.original⟩
      (h.record (by simp)) fun hnone => absurd rfl hnone
  refine follows_onTty ((SerialSession.follows_query howns.wire hready ?_).conseq ?_ ?_)
  · intro p rest w' hdata hw'
    refine .telemetry w.sent (p ++ rest) rfl (h.asked rfl) ⟨[], by rw [List.append_nil, hdata]⟩ ?_
    rw [hw', List.append_assoc]
  · rintro text _ ⟨p, heard, ordered, -, rfl⟩
    exact hspent p heard ordered
  · rintro e _ ⟨p, heard, ordered, -, rfl⟩
    exact hspent p heard ordered

/-- Every step of the flasher keeps its object and the wire in order. -/
theorem follows_step (o : World.Op) (ho : ℓ.Allows errand o) (h : Tied errand ℓ s w) :
    Follows (wiring errand) (fun x w' => True ∧ Tied errand (ℓ.after o x.1) x.2 w')
      (fun e _ => e.elim) (SerialSession.step fuel o s) w := by
  suffices hstep : Follows (wiring errand) (fun x w' => Tied errand (ℓ.after o x.1) x.2 w')
      (fun e _ => e.elim) (SerialSession.step fuel o s) w from
    hstep.conseq (fun _ _ h => ⟨trivial, h⟩) fun e _ _ => e.elim
  obtain ⟨link, b, rec⟩ := ℓ
  cases o with
  | openSerial device baudrate =>
    obtain rfl : link = .shut := ho
    exact follows_open h
  | version =>
    obtain rfl : link = .fresh := ho
    exact follows_version h
  | enterBootloader =>
    obtain ⟨rfl, hb, rfl, hrec⟩ : link = .verified ∧ b = false ∧ errand = .flash ∧
      rec.bind StateFile.binding = some .handoffPending := ho
    exact follows_enterBootloader h hb hrec
  | setLed mode =>
    obtain ⟨rfl, hb, rfl⟩ : link = .verified ∧ b = false ∧ errand = .led mode := ho
    exact follows_setLed h hb
  | uptimeTicks =>
    obtain ⟨rfl, rfl⟩ : link = .fresh ∧ errand = .diagnostics := ho
    exact follows_uptimeTicks h
  | mbusMode =>
    obtain ⟨rfl, rfl⟩ : link = .asked ∧ errand = .diagnostics := ho
    exact follows_mbusMode h
  | closeSerial =>
    obtain ⟨-, d, howns⟩ := h.live ho
    refine Follows.bind (R := fun s w' => Tied errand ⟨.shut, b, rec⟩ s w') ?_ fun _ _ h => .pure h
    exact SerialSession.follows_exit howns fun s w' _ hnone hordered hspent =>
      of_shut hnone fun hne hb => by rw [hordered, hspent]; exact h.unordered hne hb
  | saveState file =>
    refine Follows.step trivial fun (outcome : SaveOutcome) _ => .pure ?_
    cases outcome with
    | saved =>
      exact {
        shut := h.shut
        live := fun hlink => by
          obtain ⟨hready, d, howns⟩ := h.live hlink
          exact ⟨⟨hready.exclusive, hready.original, hready.flushed, hready.coding⟩, d,
            howns.object, howns.wire, howns.original⟩
        record := fun _ => rfl
        unordered := h.unordered
        fresh := h.fresh
        verified := h.verified
        asked := h.asked }
    | failed replaced e => exact h
  | _ => exact Follows.step trivial fun _ _ => .pure h

end Tied

/-! ## Every run -/

/-- What every step below `p` and the end of a run have to satisfy. -/
def WellWired (errand : Errand) {β : Type} (p : Program β) : Prop :=
  ∀ fuel t r, Run (SerialSession.lowered fuel p) t r →
    (∀ u e v, t = u ++ e :: v → Wire.Allows errand ((wiring errand).over .idle u) e.op) ∧
      (r ≠ .cut → ((wiring errand).over .idle t).descriptor = none)

theorem wellWired_of_talks {β : Type} {p : Program β} (h : Follows (talking errand)
    (fun _ ℓ => ℓ.link = .shut) (fun _ ℓ => ℓ.link = .shut) p ⟨.shut, false, none⟩) :
    WellWired errand p := by
  intro fuel t r hr
  have htied : Tied errand ⟨.shut, false, none⟩ SerialSession.unused .idle :=
    .of_shut rfl fun _ _ => ⟨rfl, rfl⟩
  have hlower := Follows.lower (R := Tied errand) (h := SerialSession.step fuel)
    (fun o ℓ s w ho hR => Tied.follows_step o ho hR) h htied
  obtain ⟨hallows, hreturned, hraised⟩ := hlower.run hr
    ((wiring errand).trusted_of (fun _ _ _ => trivial) _ _)
  refine ⟨hallows, fun hcut => ?_⟩
  cases r with
  | returned x =>
    obtain ⟨ℓ, hR, hok, herr⟩ := hreturned x rfl
    obtain ⟨x, s⟩ := x
    cases x with
    | ok a => exact hR.shut (hok a rfl)
    | error e => exact hR.shut (herr e rfl)
  | raised e => exact e.elim
  | cut => exact absurd rfl hcut

/-- The operations keep their descriptors in order at every step, and whatever
becomes of them none stays open. -/
theorem operations_wellWired (fuel : ℕ) (settings : Settings) :
    (∀ image manualRecovery,
      WellWired .flash (Flasher.flash fuel settings image manualRecovery)) ∧
    WellWired .verification (Flasher.verifyRunningApplication fuel settings) ∧
    WellWired .diagnostics (Flasher.diagnostics fuel settings) ∧
    ∀ mode, WellWired (.led mode) (Flasher.setLed fuel settings mode) :=
  ⟨fun image manualRecovery =>
      wellWired_of_talks (Flasher.talks_flash fuel settings image manualRecovery),
    wellWired_of_talks (Flasher.talks_verification fuel settings),
    wellWired_of_talks (Flasher.talks_diagnostics fuel settings),
    fun mode => wellWired_of_talks (Flasher.talks_led fuel settings mode)⟩

/-! ## The bytes of the sessions -/

/-- What the sessions so far have sent, the last one first. -/
def wiresAfter (wires : List (List UInt8)) (e : Event Host) : List (List UInt8) :=
  match e with
  | ⟨.openDevice _, answer⟩ =>
    let answer : Except Failure ℕ := answer
    if answer.isOk then [] :: wires else wires
  | ⟨.tty _ (.write data), answer⟩ =>
    let answer : Except String ℤ := answer
    match answer, wires with
    | .ok n, wire :: wires => (wire ++ data.take n.toNat) :: wires
    | _, wires => wires
  | _ => wires

def wires (t : Trace Host) : List (List UInt8) := t.foldl wiresAfter []

/-- `V` or a part of it, or parts of the queries for the telemetry. -/
def Inquiring (errand : Errand) (wire : List UInt8) : Prop :=
  wire <+: Query.version.command ∨ errand = .diagnostics ∧ ∃ uptime mbus,
    uptime <+: Query.uptime.command ∧ mbus <+: Query.mbus.command ∧ wire = uptime ++ mbus

/-- The command of the operation follows on `V` at most. -/
def Spoken (errand : Errand) (wire : List UInt8) : Prop :=
  Inquiring errand wire ∨ wire <+: Query.version.command ++ errand.order

theorem prefix_query {p uptime mbus : List UInt8} (h : p <+: uptime ++ mbus) :
    ∃ u m, u <+: uptime ∧ m <+: mbus ∧ p = u ++ m := by
  rcases List.prefix_or_prefix_of_prefix h (List.prefix_append _ _) with hp | ⟨m, rfl⟩
  · exact ⟨p, [], hp, List.nil_prefix, by rw [List.append_nil]⟩
  · exact ⟨uptime, m, List.prefix_refl _, (List.prefix_append_right_inj _).mp h, rfl⟩

theorem Inquiring.of_prefix {p wire : List UInt8} (h : Inquiring errand wire) (hp : p <+: wire) :
    Inquiring errand p := by
  rcases h with hversion | ⟨hdiagnostics, uptime, mbus, huptime, hmbus, rfl⟩
  · exact .inl (hp.trans hversion)
  · obtain ⟨u, m, hu, hm, rfl⟩ := prefix_query hp
    exact .inr ⟨hdiagnostics, u, m, hu.trans huptime, hm.trans hmbus, rfl⟩

/-- The wires of a run, as the description of the last one shows them. -/
inductive Wires (errand : Errand) (w : Wire) : List (List UInt8) → Prop where
  | unopened : w.descriptor = none → Wires errand w []
  | last {earlier : List (List UInt8)} : (∀ wire ∈ w.sent :: earlier, Spoken errand wire) →
      (w.spent = false → ∀ wire ∈ earlier, Inquiring errand wire) →
      (w.ordered = false → Inquiring errand w.sent) →
      (w.sent :: earlier).Pairwise
        (fun wire wire' => Inquiring errand wire ∨ Inquiring errand wire') →
      Wires errand w (w.sent :: earlier)

namespace Wires

variable {ws : List (List UInt8)}

/-- Steps that send nothing. -/
theorem congr {w' : Wire} (h : Wires errand w ws) (hsent : w'.sent = w.sent)
    (hordered : w'.ordered = false → w.ordered = false) (hspent : w'.spent = w.spent)
    (hnone : w.descriptor = none → w'.descriptor = none) : Wires errand w' ws := by
  cases h with
  | unopened hw => exact .unopened (hnone hw)
  | last hspoken hearlier hcurrent honce =>
    rw [← hsent] at hspoken hcurrent honce ⊢
    exact .last hspoken (fun h => hearlier (hspent ▸ h)) (fun h => hcurrent (hordered h)) honce

theorem open_call {d : ℕ} (h : Wires errand w ws) :
    Wires errand (w.opened (.ok d)) ([] :: ws) := by
  have hnil : Inquiring errand [] := .inl List.nil_prefix
  cases h with
  | unopened hw =>
    exact .last (fun wire hwire => by rw [List.mem_singleton.mp hwire]; exact .inl hnil)
      (fun _ wire hwire => by cases hwire) (fun _ => hnil) (List.pairwise_singleton _ _)
  | @last earlier hspoken hearlier hcurrent honce =>
    refine .last ?_ (fun hspent wire hwire => ?_) (fun _ => hnil) ?_
    · rintro wire (_ | ⟨_, hwire⟩)
      · exact .inl hnil
      · exact hspoken wire hwire
    · obtain ⟨hspent, hordered⟩ := Bool.or_eq_false_iff.mp hspent
      rcases List.mem_cons.mp hwire with rfl | hwire
      · exact hcurrent hordered
      · exact hearlier hspent wire hwire
    · exact List.pairwise_cons.mpr ⟨fun _ _ => .inl hnil, honce⟩

theorem write_call {data : List UInt8} {n : ℤ} (h : Wires errand w ws) (hw : w.descriptor ≠ none)
    (hsend : w.MaySend errand data) : ∃ earlier, ws = w.sent :: earlier ∧
      Wires errand (w.wrote data (.ok n)) ((w.sent ++ data.take n.toNat) :: earlier) := by
  cases h with
  | unopened hnone => exact absurd hnone hw
  | @last earlier hspoken hearlier hcurrent honce =>
    refine ⟨earlier, rfl, ?_⟩
    have hpart : w.sent ++ data.take n.toNat <+: w.sent ++ data :=
      (List.prefix_append_right_inj _).mpr (List.take_prefix _ _)
    have htail : ∀ wire ∈ earlier, Spoken errand wire := fun wire hwire =>
      hspoken wire (List.mem_cons_of_mem _ hwire)
    obtain ⟨hhead, hpairs⟩ := List.pairwise_cons.mp honce
    have hinquiring : Inquiring errand (w.sent ++ data) → Wires errand (w.wrote data (.ok n))
        ((w.sent ++ data.take n.toNat) :: earlier) := by
      intro hdata
      have hsent := hdata.of_prefix hpart
      refine .last ?_ hearlier (fun _ => hsent)
        (List.pairwise_cons.mpr ⟨fun _ _ => .inl hsent, hpairs⟩)
      rintro wire (_ | ⟨_, hwire⟩)
      · exact .inl hsent
      · exact htail wire hwire
    cases hsend with
    | version hversion => exact hinquiring (.inl hversion)
    | telemetry uptime mbus hdiagnostics huptime hmbus heq =>
      exact hinquiring (.inr ⟨hdiagnostics, uptime, mbus, huptime, hmbus, heq⟩)
    | order hconfirmed hspent hrecord hversion horder =>
      refine .last ?_ hearlier (fun hordered => ?_)
        (List.pairwise_cons.mpr ⟨fun wire hwire => .inr (hearlier hspent wire hwire), hpairs⟩)
      · rintro wire (_ | ⟨_, hwire⟩)
        · exact .inr (hpart.trans horder)
        · exact htail wire hwire
      · have hnot := (Bool.or_eq_false_iff.mp hordered).2
        rw [List.isPrefixOf_iff_prefix.mpr hversion] at hnot
        cases hnot

theorem step {e : Event Host} (h : Wires errand w ws) (ho : w.Allows errand e.op) :
    Wires errand (w.after e.op e.ans) (wiresAfter ws e) := by
  obtain ⟨o, a⟩ := e
  cases o with
  | openDevice device =>
    let answer : Except Failure ℕ := a
    change Wires errand (w.opened answer) (if answer.isOk then [] :: ws else ws)
    cases answer with
    | error err => exact h
    | ok d => exact h.open_call
  | tty d o =>
    cases o with
    | write data =>
      obtain ⟨hd, hready, hsend⟩ := ho
      let answer : Except String ℤ := a
      change Wires errand (w.wrote data answer) (wiresAfter ws ⟨.tty d (.write data), answer⟩)
      cases answer with
      | error err => exact h.congr rfl (fun h => (Bool.or_eq_false_iff.mp h).1) rfl id
      | ok n =>
        have hopen : w.descriptor ≠ none := fun hnone => by
          rw [hnone] at hd
          cases hd
        obtain ⟨earlier, rfl, hwires⟩ := h.write_call (n := n) hopen hsend
        exact hwires
    | read maximum =>
      let answer : Except String (List UInt8) := a
      change Wires errand (w.read answer) ws
      cases answer with
      | error err => exact h
      | ok chunk => exact h.congr rfl id rfl id
    | _ => exact h
  | tcgetattr d =>
    let answer : Except Failure Attributes := a
    change Wires errand (w.found answer) ws
    cases answer with
    | error err => exact h
    | ok attributes => exact h.congr rfl id rfl id
  | tcsetattr d attributes =>
    let answer : Except Failure Unit := a
    change Wires errand (w.assign attributes answer) ws
    cases answer with
    | error err => exact h.congr rfl id rfl id
    | ok _ => exact h.congr rfl id rfl id
  | close d => exact h.congr rfl id rfl fun _ => rfl
  | world o =>
    cases o with
    | saveState file =>
      let outcome : SaveOutcome := a
      change Wires errand (w.saved (.saveState file) outcome) ws
      cases outcome with
      | saved => exact h.congr rfl id rfl id
      | failed replaced e => exact h
    | _ => exact h
  | _ => exact h.congr rfl id rfl id

theorem run {t : Trace Host}
    (h : ∀ u e v, t = u ++ e :: v → Wire.Allows errand ((wiring errand).over .idle u) e.op) :
    Wires errand ((wiring errand).over .idle t) (wires t) := by
  induction t using List.reverseRecOn with
  | nil => exact .unopened rfl
  | append_singleton t e ih =>
    have hbefore := ih fun u e' v ht => h u e' (v ++ [e]) (by rw [ht]; simp)
    rw [Discipline.over_append, wires, List.foldl_append]
    exact hbefore.step (h t e [] rfl)

end Wires

/-- Whatever a run sends in its sessions, each of them has begun with `V`, and the
command of the operation, or a part of it, has gone into one of them at most. -/
theorem wires_spoken {p : Program α} (hp : WellWired errand p) {t : Trace Host}
    {r : Outcome Empty (Except Exn α × SerialSession)}
    (h : Run (SerialSession.lowered fuel p) t r) :
    (∀ wire ∈ wires t, Spoken errand wire) ∧
      (wires t).Pairwise fun wire wire' => Inquiring errand wire ∨ Inquiring errand wire' := by
  have hwires := Wires.run (hp fuel t r h).1
  generalize wires t = ws at hwires ⊢
  cases hwires with
  | unopened => exact ⟨fun wire hwire => (by cases hwire), .nil⟩
  | last hspoken _ _ honce => exact ⟨hspoken, honce⟩

theorem inquiring_iff (h : errand ≠ .diagnostics) {wire : List UInt8} :
    Inquiring errand wire ↔ wire <+: Query.version.command :=
  ⟨fun hwire => hwire.resolve_right fun hdiagnostics => h hdiagnostics.1, .inl⟩

theorem spoken_iff (h : errand ≠ .diagnostics) {wire : List UInt8} :
    Spoken errand wire ↔ wire <+: Query.version.command ++ errand.order := by
  rw [Spoken, inquiring_iff h]
  exact ⟨fun hwire => hwire.elim (fun hp => hp.trans (List.prefix_append _ _)) id, .inr⟩

/-- The bytes that the operations send over all their sessions. -/
theorem command_bytes (serialFuel fuel : ℕ) (settings : Settings) :
    (∀ image manualRecovery t r, Run (SerialSession.lowered serialFuel
        (Flasher.flash fuel settings image manualRecovery)) t r →
      (∀ wire ∈ wires t, wire <+: bytes "V\r\n" ++ bytes "B01\n") ∧
      (wires t).Pairwise fun wire wire' => wire <+: bytes "V\r\n" ∨ wire' <+: bytes "V\r\n") ∧
    (∀ mode t r, Run (SerialSession.lowered serialFuel (Flasher.setLed fuel settings mode)) t r →
      (∀ wire ∈ wires t, wire <+: bytes "V\r\n" ++ SerialSession.ledModeCommand mode) ∧
      (wires t).Pairwise fun wire wire' => wire <+: bytes "V\r\n" ∨ wire' <+: bytes "V\r\n") ∧
    (∀ t r, Run (SerialSession.lowered serialFuel (Flasher.verifyRunningApplication fuel settings))
      t r → ∀ wire ∈ wires t, wire <+: bytes "V\r\n") ∧
    ∀ t r, Run (SerialSession.lowered serialFuel (Flasher.diagnostics fuel settings)) t r →
      ∀ wire ∈ wires t, wire <+: bytes "V\r\n" ∨ ∃ uptime mbus,
        uptime <+: bytes "t\r\n" ∧ mbus <+: bytes "b\r\n" ∧ wire = uptime ++ mbus := by
  refine ⟨fun image manualRecovery t r h => ?_, fun mode t r h => ?_, fun t r h wire hwire => ?_,
    fun t r h wire hwire => ?_⟩
  · have hwired := wellWired_of_talks (Flasher.talks_flash fuel settings image manualRecovery)
    obtain ⟨hspoken, honce⟩ := wires_spoken hwired h
    have hne : Errand.flash ≠ .diagnostics := by simp
    exact ⟨fun wire hwire => (spoken_iff hne).mp (hspoken wire hwire),
      honce.imp fun h => h.imp (inquiring_iff hne).mp (inquiring_iff hne).mp⟩
  · have hwired := wellWired_of_talks (Flasher.talks_led fuel settings mode)
    obtain ⟨hspoken, honce⟩ := wires_spoken hwired h
    have hne : Errand.led mode ≠ .diagnostics := by simp
    exact ⟨fun wire hwire => (spoken_iff hne).mp (hspoken wire hwire),
      honce.imp fun h => h.imp (inquiring_iff hne).mp (inquiring_iff hne).mp⟩
  · have hwired := wellWired_of_talks (Flasher.talks_verification fuel settings)
    have hspoken := (wires_spoken hwired h).1 wire hwire
    rw [spoken_iff (by simp), Errand.order, List.append_nil] at hspoken
    exact hspoken
  · have hwired := wellWired_of_talks (Flasher.talks_diagnostics fuel settings)
    rcases (wires_spoken hwired h).1 wire hwire with (hversion | ⟨-, htelemetry⟩) | hversion
    · exact .inl hversion
    · exact .inr htelemetry
    · rw [Errand.order, List.append_nil] at hversion
      exact .inl hversion

/-! ## A run -/

/-- A device that accepts every byte and answers to `V`. -/
def Script.hostAnswer (s : Script) (n : ℕ) : (o : HostOp) → Host.Ans o
  | .world o => s.answer n o
  | .openDevice _ => (.ok 3 : Except Failure ℕ)
  | .tiocexcl _ => (.ok () : Except Failure Unit)
  | .tiocnxcl _ => (.ok () : Except Failure Unit)
  | .tcgetattr _ => (.ok ⟨0, 0, 0, 0, 0o15, 0o15, []⟩ : Except Failure Attributes)
  | .tcsetattr _ _ => (.ok () : Except Failure Unit)
  | .tcflush _ => (.ok () : Except Failure Unit)
  | .tcdrain _ => (.ok () : Except Failure Unit)
  | .close _ => (.ok () : Except Failure Unit)
  | .tty _ .monotonic => (0 : ℚ)
  | .tty _ (.selectRead _) => .ok true
  | .tty _ (.read _) => (.ok (bytes "V 1.67 CUL868\r\n") : Except String (List UInt8))
  | .tty _ (.selectWrite _) => .ok true
  | .tty _ (.write data) => (.ok data.length : Except String ℤ)

/-- A CUL at its port, over calls that all succeed. -/
def aCul : Script where
  usb _ := .ofDevices [cul "1-1" "ttyACM0" none] []

theorem command_bytes_handoff :
    let t :=
  ((SerialSession.lowered 4 (Flasher.flash 2 PlannedRun.qemuSettings sampleImage none)).exec
      (I := Host) aCul.hostAnswer 0).1
    wires t = [bytes "V\r\nB01\n"] ∧
      (wires t).Pairwise fun wire wire' => wire <+: bytes "V\r\n" ∨ wire' <+: bytes "V\r\n" :=
  ⟨by decide +kernel,
    ((command_bytes 4 2 PlannedRun.qemuSettings).1 sampleImage none _ _ (Run.of_exec _ _ _)).2⟩

end Cul868Flasher
