import Cul868Flasher.SerialWire

/-!
# The flasher on its own sessions

A run of an operation over the calls of the host is a run over the world, with the
same steps of the world and the same end. Its sessions answer what the flasher
expects of a CUL, or raise a `CulSerialError` or what a `select` raised, and closing
them never fails.
-/

namespace Cul868Flasher
open Python Effects Serial

/-- The steps that are methods of `CulSerial`. -/
def Op.ofSession : Op → Bool
  | .openSerial _ _ => true
  | .version => true
  | .enterBootloader => true
  | .setLed _ => true
  | .uptimeTicks => true
  | .mbusMode => true
  | .closeSerial => true
  | _ => false

def HostOp.isWorld : HostOp → Bool
  | .world _ => true
  | _ => false

/-- The steps of the world among those of the host. -/
def worldSteps (u : Trace Host) : Trace World :=
  u.filterMap fun e => match e with
    | ⟨.world o, answer⟩ => some ⟨o, answer⟩
    | _ => none

/-- What a `select` raised in this step. -/
def selectFailure : Event Host → Option Exn
  | ⟨.tty _ (.selectRead _), answer⟩ =>
    let answer : Except Exn Bool := answer
    match answer with
    | .ok _ => none
    | .error e => some e
  | ⟨.tty _ (.selectWrite _), answer⟩ =>
    let answer : Except Exn Bool := answer
    match answer with
    | .ok _ => none
    | .error e => some e
  | _ => none

def SelectRaised (u : Trace Host) (e : Exn) : Prop := ∃ x ∈ u, selectFailure x = some e

/-- An exception of a session, where those of `select` are `S`. -/
def SessionError (S : Exn → Prop) (e : Exn) : Prop := (∃ message, e = culSerialError message) ∨ S e

/-- What was asked for, or an exception of the session. -/
def Answers {α : Type} (S : Exn → Prop) (P : α → Prop) : Except Exn α → Prop
  | .ok a => P a
  | .error e => SessionError S e

/-- A version line that the flasher takes for that of a CUL868. -/
structure Identified (text : String) : Prop where
  start : "V ".toList <+: text.toList ∨ "VTS ".toList <+: text.toList
  name : Flasher.contains text "CUL868" = true
  line : ∀ c ∈ text.toList, c.toNat < 128 ∧ c ≠ '\r' ∧ c ≠ '\n'

/-- What a step of a session may answer. -/
def Plausible (S : Exn → Prop) : (o : Op) → World.Ans o → Prop
  | .openSerial _ _, answer => Answers S (fun _ : Unit => True) answer
  | .version, answer => Answers S Identified answer
  | .enterBootloader, answer => Answers S (fun _ : Unit => True) answer
  | .setLed _, answer => Answers S (fun _ : Unit => True) answer
  | .uptimeTicks, answer => Answers S (fun ticks : ℕ => ticks < 2 ^ 32) answer
  | .mbusMode, answer =>
    Answers S (fun mode : String => mode ∈ ["SMODE", "TMODE", "CMODE", "OFF"]) answer
  | .closeSerial, answer =>
    let answer : Except Exn Unit := answer
    answer = .ok ()
  | _, _ => True

/-! ## The ends of the methods -/

/-- Only the ends of a program on the terminal are described. -/
def ending (S : Exn → Prop) (d : ℕ) : Discipline Tty Unit where
  allows _ _ := True
  trusts _ o answer := ∀ e, selectFailure ⟨.tty d o, answer⟩ = some e → S e
  after _ _ _ := ()

/-- A method of a session takes no step of the world. -/
def offWorld (S : Exn → Prop) : Discipline Host Unit where
  allows _ o := HostOp.isWorld o = false
  trusts _ o answer := ∀ e, selectFailure ⟨o, answer⟩ = some e → S e
  after _ _ _ := ()

variable {α ε : Type} {fuel d : ℕ} {timeout : ℚ} {S : Exn → Prop}

abbrev Fails (S : Exn → Prop) (e : Exn) (_ : Unit) : Prop := SessionError S e

theorem ends_onTty {Q : α → Unit → Prop} {E : Exn → Unit → Prop} {p : TtyProgram α}
    (h : Follows (ending S d) Q E p ()) :
    Follows (offWorld S) Q E (SerialSession.onTty d p) () := by
  induction p with
  | ret a => exact h
  | raise e => exact h
  | call o k ih => exact ⟨rfl, fun a ha => ih a (h.2 a ha)⟩
  | halt => trivial

theorem ends_writeAll (data : List UInt8) :
    Follows (ending S d) (fun _ _ => True) (Fails S) (writeAll fuel timeout data) () := by
  refine Follows.step trivial fun start _ => .loop (K := fun _ _ => True) ?_ fuel trivial
  intro view _ _
  unfold writeStep
  split_ifs
  · exact .pure ⟨fun _ _ => trivial, fun _ _ => trivial⟩
  · refine Follows.step trivial fun now _ => Follows.step trivial fun writable hwritable => ?_
    rcases writable with err | (_ | _)
    · exact .raise (.inr (hwritable err rfl))
    · exact .raise (.inl ⟨_, rfl⟩)
    · refine Follows.step trivial fun written _ => ?_
      cases written with
      | error err => exact .raise (.inl ⟨_, rfl⟩)
      | ok n =>
        dsimp only
        split_ifs
        · exact .raise (.inl ⟨_, rfl⟩)
        · exact .pure ⟨fun _ _ => trivial, fun _ _ => trivial⟩

/-- A line that was read and decoded. -/
def Replied (q : Query) (text : String) : Prop :=
  ∃ line, q.accepts line = true ∧ decodeAscii line = some text.toList ∧
    ∀ b ∈ line, isLineEnd b = false

theorem examine_ends {q : Query} {response : List UInt8} {x : List UInt8 ⊕ String}
    (h : examine q response = .ok x) : ∀ text, x = .inr text → Replied q text := by
  rintro text rfl
  rw [examine] at h
  split at h
  · rename_i line hfind
    split at h
    · rename_i text' hdecode
      cases h
      have hmem := List.mem_of_find?_eq_some hfind
      rw [bufferedLines_eq] at hmem
      exact ⟨line, List.find?_some hfind, by rw [hdecode, String.toList_ofList],
        Buffer.mem_splitOnP_open hmem⟩
    · cases h
  · split_ifs at h
    cases h

theorem examine_fails {q : Query} {response : List UInt8} {e : Exn}
    (h : examine q response = .error e) : ∃ message, e = culSerialError message := by
  rw [examine] at h
  split at h
  · split at h
    · cases h
    · cases h
      exact ⟨_, rfl⟩
  · split_ifs at h
    cases h
    exact ⟨_, rfl⟩

theorem ends_readLine (q : Query) :
    Follows (ending S d) (fun text _ => Replied q text) (Fails S) (readLine fuel timeout q) () := by
  refine Follows.step trivial fun (start : ℚ) _ => .loop (K := fun _ _ => True) ?_ fuel trivial
  intro response _ _
  unfold readStep
  refine Follows.step trivial fun (now : ℚ) _ => ?_
  change Follows (ending S d) _ _ (if start + timeout ≤ now then _ else _) _
  split_ifs
  · exact .raise (.inl ⟨_, rfl⟩)
  · refine Follows.step trivial fun now _ => Follows.step trivial fun readable hreadable => ?_
    rcases readable with err | (_ | _)
    · exact .raise (.inr (hreadable err rfl))
    · exact .raise (.inl ⟨_, rfl⟩)
    · refine Follows.step trivial fun chunk _ => ?_
      cases chunk with
      | error err => exact .raise (.inl ⟨_, rfl⟩)
      | ok chunk =>
        dsimp only
        split_ifs
        · exact .pure ⟨fun _ _ => trivial, fun _ h => by cases h⟩
        · exact .ofExcept (fun x hx => ⟨fun _ _ => trivial, examine_ends hx⟩)
            fun e he => .inl (examine_fails he)

theorem ends_requestLine (q : Query) :
    Follows (ending S d) (fun text _ => Replied q text) (Fails S) (requestLine fuel timeout q) () :=
  (ends_writeAll q.command).bind fun _ _ _ => ends_readLine q

theorem Replied.char {q : Query} {text : String} (h : Replied q text) {c : Char}
    (hc : c ∈ text.toList) :
    c.toNat < 128 ∧ c ≠ '\r' ∧ c ≠ '\n' := by
  obtain ⟨line, -, hdecode, hline⟩ := h
  obtain ⟨hascii, htext⟩ := decodeAscii_iff.mp hdecode
  rw [htext] at hc
  obtain ⟨b, hb, rfl⟩ := List.mem_map.mp hc
  have hnat := toNat_ofByte (hascii b hb)
  have hend := hline b hb
  simp only [isLineEnd, Bool.or_eq_false_iff, decide_eq_false_iff_not] at hend
  refine ⟨by rw [hnat]; exact hascii b hb, fun h => hend.1 ?_, fun h => hend.2 ?_⟩
  · rw [h] at hnat
    exact UInt8.toNat_inj.mp hnat.symm
  · rw [h] at hnat
    exact UInt8.toNat_inj.mp hnat.symm

theorem Replied.identified {text : String} (h : Replied .version text)
    (hname : Flasher.contains text "CUL868" = true) : Identified text := by
  refine ⟨?_, hname, fun c hc => h.char hc⟩
  obtain ⟨line, haccepts, hdecode, -⟩ := h
  obtain ⟨-, htext⟩ := decodeAscii_iff.mp hdecode
  obtain ⟨start, hstart, hprefix⟩ := List.any_eq_true.mp haccepts
  have hmap := (List.isPrefixOf_iff_prefix.mp hprefix).map fun b : UInt8 => Char.ofNat b.toNat
  rw [← htext] at hmap
  rcases List.mem_pair.mp hstart with rfl | rfl
  · exact .inl hmap
  · exact .inr hmap

theorem hexDigit_getD_lt (c : Char) : (hexDigit c).getD 0 < 16 := by
  have hle : ∀ {a b : Char}, a ≤ b → a.toNat ≤ b.toNat := fun h => h
  unfold hexDigit
  split_ifs with hdigit hlower hupper
  · have := hle hdigit.2
    change c.toNat - 48 < 16
    change c.toNat ≤ 57 at this
    omega
  · have := hle hlower.2
    change c.toNat - 97 + 10 < 16
    change c.toNat ≤ 102 at this
    omega
  · have := hle hupper.2
    change c.toNat - 65 + 10 < 16
    change c.toNat ≤ 70 at this
    omega
  · decide

/-- `int(line, 16)` of eight digits. -/
theorem Replied.ticks {text : String} (h : Replied .uptime text) :
    text.toList.foldl (fun n c => 16 * n + (hexDigit c).getD 0) 0 < 2 ^ 32 := by
  obtain ⟨line, haccepts, hdecode, -⟩ := h
  obtain ⟨-, htext⟩ := decodeAscii_iff.mp hdecode
  have hlength : text.toList.length = 8 := by
    rw [htext, List.length_map]
    exact of_decide_eq_true (Bool.and_eq_true_iff.mp haccepts).1
  have hfold : ∀ (cs : List Char) (n : ℕ),
      cs.foldl (fun n c => 16 * n + (hexDigit c).getD 0) n < (n + 1) * 16 ^ cs.length := by
    intro cs
    induction cs with
    | nil => simp
    | cons c cs ih =>
      intro n
      have hdigit : (hexDigit c).getD 0 < 16 := hexDigit_getD_lt c
      calc _ < (16 * n + (hexDigit c).getD 0 + 1) * 16 ^ cs.length := ih _
        _ ≤ ((n + 1) * 16) * 16 ^ cs.length := Nat.mul_le_mul_right _ (by omega)
        _ = (n + 1) * 16 ^ (c :: cs).length := by rw [List.length_cons, pow_succ]; ring
  simpa [hlength] using hfold text.toList 0

theorem Replied.mode {text : String} (h : Replied .mbus text) :
    text ∈ ["SMODE", "TMODE", "CMODE", "OFF"] := by
  obtain ⟨line, haccepts, hdecode, -⟩ := h
  have hmem : line ∈ mbusModes := List.contains_iff_mem.mp haccepts
  have hof : text = String.ofList ((decodeAscii line).getD []) := by
    rw [hdecode, Option.getD_some, String.ofList_toList]
  have hall : ∀ line ∈ mbusModes,
      String.ofList ((decodeAscii line).getD []) ∈ ["SMODE", "TMODE", "CMODE", "OFF"] := by decide
  rw [hof]
  exact hall line hmem

/-! ## The steps -/

namespace SerialSession

variable {s : SerialSession}

theorem ends_requireDescriptor {Q : ℕ → Unit → Prop} (h : ∀ d, Q d ()) :
    Follows (offWorld S) Q (Fails S) s.requireDescriptor () := by
  unfold requireDescriptor
  cases s.descriptor with
  | none => exact .raise (.inl ⟨_, rfl⟩)
  | some d => exact .pure (h d)

theorem ends_exit {E : ε → Unit → Prop} :
    Follows (offWorld S) (fun _ _ => True) E s.exit () := by
  unfold exit
  cases s.descriptor with
  | none => exact .pure trivial
  | some d =>
    refine Follows.bind (R := fun _ _ => True) ?_ fun _ _ _ => Follows.step rfl fun _ _ =>
      .pure trivial
    unfold restore
    cases s.originalAttributes with
    | none => exact Follows.step rfl fun _ _ => .pure trivial
    | some original =>
      refine Follows.step rfl fun (answer : Except Failure Unit) _ => ?_
      cases answer with
      | error err => exact .pure trivial
      | ok _ => exact Follows.step rfl fun _ _ => .pure trivial

theorem ends_configure (d speed : ℕ) :
    Follows (offWorld S) (fun _ _ => True) (fun _ _ => True) (s.configure d speed) () := by
  have hleave : ∀ {β : Type} (s : SerialSession) (answer : Except Failure β),
      Follows (offWorld S) (fun _ _ => True) (fun _ _ => True) (s.orLeave answer) () :=
    fun _ _ => .ofExcept (fun _ _ => trivial) fun _ _ => trivial
  refine Follows.step rfl fun locked _ => (hleave _ _).bind fun _ _ _ => ?_
  refine Follows.step rfl fun original _ => (hleave _ _).bind fun _ _ _ => ?_
  refine Follows.step rfl fun current _ => (hleave _ _).bind fun _ _ _ => ?_
  refine Follows.bind (R := fun _ _ => True) ?_ fun _ _ _ => ?_
  · exact Follows.step rfl fun _ _ => (hleave _ _).bind fun _ _ _ =>
      Follows.step rfl fun _ _ => hleave _ _
  · exact Follows.step rfl fun _ _ => (hleave _ _).bind fun _ _ _ => .pure trivial

theorem ends_answering {β : Type} {P : β → Prop} {p : HostProgram Exn β}
    (hp : Follows (offWorld S) (fun b _ => P b) (Fails S) p ()) :
    Follows (offWorld S) (fun x _ => Answers S P x.1) (fun e _ => e.elim) (s.answering p) () :=
  hp.attempt_bind (fun _ _ h => .pure h) fun _ _ h => .pure h

theorem ends_command {command : List UInt8} {p : ℕ → Except Failure Unit → HostProgram Exn Unit}
    (hp : ∀ d drained, Follows (offWorld S) (fun _ _ => True) (Fails S) (p d drained) ()) :
    Follows (offWorld S) (fun _ _ => True) (Fails S) (do
      let descriptor ← s.requireDescriptor
      onTty descriptor (writeAll fuel timeout command)
      let drained : Except Failure Unit ← host (.tcdrain descriptor)
      p descriptor drained) () :=
  (ends_requireDescriptor (Q := fun _ _ => True) fun _ => trivial).bind fun _ _ _ =>
    (ends_onTty (ends_writeAll _)).bind fun _ _ _ => Follows.step rfl fun _ _ => hp _ _

/-- A method takes no step of the world, and answers as it should. -/
theorem ends_step {o : Op} (ho : o.ofSession = true) (s : SerialSession) :
    Follows (offWorld S) (fun x _ => Plausible S o x.1) (fun e _ => e.elim) (step fuel o s) () := by
  cases o with
  | openSerial device baudrate =>
    change Follows (offWorld S) _ _ (new device baudrate).enter ()
    unfold enter
    cases speeds.lookup (new device baudrate).baudrate with
    | none => exact .pure (.inl ⟨_, rfl⟩)
    | some speed =>
      refine Follows.step rfl fun (opened : Except Failure ℕ) _ => ?_
      cases opened with
      | error err => exact .pure (.inl ⟨_, rfl⟩)
      | ok d =>
        refine Follows.attempt_bind (ends_configure d speed) (fun _ _ _ => .pure trivial) ?_
        rintro ⟨err, s⟩ _ _
        exact ends_exit.bind fun _ _ _ => .pure (.inl ⟨_, rfl⟩)
  | version =>
    refine ends_answering (P := Identified) ?_
    refine (ends_requireDescriptor (Q := fun _ _ => True) fun _ => trivial).bind fun d _ _ => ?_
    refine ends_onTty ((ends_requestLine .version).bind fun text _ htext => ?_)
    split_ifs with hname
    · exact .raise (.inl ⟨_, rfl⟩)
    · exact .pure (htext.identified (by simpa using hname))
  | enterBootloader =>
    refine ends_answering (P := fun _ => True) (ends_command fun d drained => ?_)
    cases drained with
    | ok _ => exact .pure trivial
    | error err =>
      dsimp only
      split_ifs
      · exact .pure trivial
      · exact .raise (.inl ⟨_, rfl⟩)
  | setLed mode =>
    refine ends_answering (P := fun _ => True) (ends_command fun d drained => ?_)
    cases drained with
    | ok _ => exact .pure trivial
    | error err => exact .raise (.inl ⟨_, rfl⟩)
  | uptimeTicks =>
    refine ends_answering (P := fun ticks => ticks < 2 ^ 32) ?_
    refine (ends_requireDescriptor (Q := fun _ _ => True) fun _ => trivial).bind fun d _ _ => ?_
    exact ends_onTty ((ends_requestLine .uptime).bind fun text _ htext => .pure htext.ticks)
  | mbusMode =>
    refine ends_answering (P := fun mode => mode ∈ ["SMODE", "TMODE", "CMODE", "OFF"]) ?_
    refine (ends_requireDescriptor (Q := fun _ _ => True) fun _ => trivial).bind fun d _ _ => ?_
    exact ends_onTty ((ends_requestLine .mbus).conseq (fun _ _ h => h.mode) fun _ _ h => h)
  | closeSerial => exact ends_exit.bind fun _ _ _ => .pure rfl
  | _ => cases ho

/-! ## Runs -/

theorem worldSteps_append (u v : Trace Host) : worldSteps (u ++ v) = worldSteps u ++ worldSteps v :=
  List.filterMap_append

theorem selectRaised_append {u v : Trace Host} (h : ∀ e, SelectRaised (u ++ v) e → S e) :
    (∀ e, SelectRaised u e → S e) ∧ ∀ e, SelectRaised v e → S e := by
  constructor
  · rintro e ⟨x, hx, he⟩
    exact h e ⟨x, List.mem_append_left v hx, he⟩
  · rintro e ⟨x, hx, he⟩
    exact h e ⟨x, List.mem_append_right u hx, he⟩

/-- A run of a method, even one that is cut. -/
theorem session_run {o : Op} (ho : o.ofSession = true) {u : Trace Host}
    {r : Outcome Empty (World.Ans o × SerialSession)} (h : Run (step fuel o s) u r)
    (hu : ∀ e, SelectRaised u e → S e) :
    worldSteps u = [] ∧ ∀ x, r = .returned x → Plausible S o x.1 := by
  have htrusted : (offWorld S).Trusted () u :=
    Discipline.trusted_of_mem (fun x hx _ e he => hu e ⟨x, hx, he⟩) _
  obtain ⟨hallows, hreturned, -⟩ := (ends_step ho s).run h htrusted
  refine ⟨List.filterMap_eq_nil_iff.mpr fun e he => ?_, hreturned⟩
  obtain ⟨v, w, rfl⟩ := List.append_of_mem he
  have hnone : HostOp.isWorld e.op = false := hallows v e w rfl
  obtain ⟨o, a⟩ := e
  cases o with
  | world o => cases hnone
  | _ => rfl

/-- Any other step is the step of the world. -/
theorem world_run {o : Op} (ho : o.ofSession = false) {u : Trace Host}
    {r : Outcome Empty (World.Ans o × SerialSession)} (h : Run (step fuel o s) u r) :
    (r = .cut ∧ worldSteps u = []) ∨
      ∃ a, worldSteps u = [⟨o, a⟩] ∧ Plausible S o a ∧ (r = .returned (a, s) ∨ r = .cut) := by
  have hstep : step fuel o s = .call (.world o) fun a => .ret (a, s) := by
    cases o <;> first | rfl | cases ho
  have hplausible : ∀ a, Plausible S o a := by cases o <;> first | exact fun _ => trivial | cases ho
  rw [hstep] at h
  rcases Run.call_iff.mp h with ⟨rfl, rfl⟩ | ⟨a, v, rfl, hv⟩
  · exact .inl ⟨rfl, rfl⟩
  · obtain ⟨rfl, hr⟩ := Run.ret_iff.mp hv
    exact .inr ⟨a, rfl, hplausible a, hr⟩

/-- The steps of the world in a run above. -/
def ownSteps (t : Trace World) : Trace World := t.filter fun e => !e.op.ofSession

theorem realizes_steps {t : Trace World} {u : Trace Host} {s' : SerialSession}
    (h : Realizes (step fuel) s t u s') (hu : ∀ e, SelectRaised u e → S e) :
    worldSteps u = ownSteps t ∧ ∀ e ∈ t, Plausible S e.op e.ans := by
  induction h with
  | nil s => exact ⟨rfl, fun _ he => by cases he⟩
  | @cons o a s₁ s₂ s₃ t u v hrun _ ih =>
    obtain ⟨hu, hv⟩ := selectRaised_append hu
    obtain ⟨hsteps, hplausible⟩ := ih hv
    have hhead : worldSteps u = ownSteps [⟨o, a⟩] ∧ Plausible S o a := by
      cases ho : o.ofSession with
      | true =>
        obtain ⟨hnone, hanswer⟩ := session_run ho hrun hu
        exact ⟨by rw [hnone]; simp [ownSteps, ho], hanswer _ rfl⟩
      | false =>
        rcases world_run ho hrun with ⟨hcut, -⟩ | ⟨b, hown, hanswer, hr⟩
        · cases hcut
        · obtain ⟨rfl, -⟩ : a = b ∧ s₂ = s₁ := by simpa using hr
          exact ⟨by rw [hown]; simp [ownSteps, ho], hanswer⟩
    refine ⟨?_, ?_⟩
    · rw [worldSteps_append, hhead.1, hsteps, ownSteps, ownSteps, ← List.filter_append]
      rfl
    · rintro e (_ | ⟨_, he⟩)
      · exact hhead.2
      · exact hplausible e he

/-- A run over the calls of the host is a run over the world: with the same steps of
the world in the same order, with the same end, and with answers of its sessions
that are plausible: an exception of theirs is a `CulSerialError` or one that a
`select` of the run raised. -/
theorem lowered_refines {p : Program α} {u : Trace Host}
    {r : Outcome Empty (Except Exn α × SerialSession)} (h : Run (lowered fuel p) u r) :
    ∃ t, worldSteps u = ownSteps t ∧ (∀ e ∈ t, Plausible (SelectRaised u) e.op e.ans) ∧
      ((∃ x s, r = .returned (x, s) ∧ Run p t (.ofExcept x)) ∨ r = .cut ∧ Run p t .cut) := by
  rcases h.of_lower with ⟨t, x, s, rfl, ht, hreal⟩ | ⟨rfl, t, ht, hunder⟩
  · obtain ⟨hsteps, hplausible⟩ := realizes_steps hreal fun _ h => h
    exact ⟨t, hsteps, hplausible, .inl ⟨x, s, rfl, ht⟩⟩
  · cases hunder with
    | between hreal =>
      obtain ⟨hsteps, hplausible⟩ := realizes_steps hreal fun _ h => h
      exact ⟨t, hsteps, hplausible, .inr ⟨rfl, ht⟩⟩
    | @inside s' o v w hsplit hreal hcut hnext =>
      subst hsplit
      obtain ⟨hv, hw⟩ := selectRaised_append fun _ h => h
      obtain ⟨hsteps, hplausible⟩ := realizes_steps hreal hv
      -- The step of the world that was under way may have been taken already.
      have hlast : worldSteps w = [] ∨ ∃ a, o.ofSession = false ∧ worldSteps w = [⟨o, a⟩] ∧
          Plausible (SelectRaised (v ++ w)) o a := by
        cases ho : o.ofSession with
        | true => exact .inl (session_run ho hcut hw).1
        | false =>
          rcases world_run ho hcut with ⟨-, hnone⟩ | ⟨a, hown, hanswer, -⟩
          · exact .inl hnone
          · exact .inr ⟨a, rfl, hown, hanswer⟩
      rcases hlast with hnone | ⟨a, ho, hown, hanswer⟩
      · exact ⟨t, by rw [worldSteps_append, hnone, List.append_nil, hsteps], hplausible,
          .inr ⟨rfl, ht⟩⟩
      · refine ⟨t ++ [⟨o, a⟩], ?_, fun e he => ?_, .inr ⟨rfl, hnext a⟩⟩
        · rw [worldSteps_append, hown, hsteps, ownSteps, ownSteps, List.filter_append]
          simp [ho]
        · rcases List.mem_append.mp he with he | he
          · exact hplausible e he
          · rw [List.mem_singleton.mp he]
            exact hanswer

theorem lowered_refines_led :
    let run := (lowered 4 (Flasher.setLed 2 PlannedRun.qemuSettings .blink)).exec (I := Host)
      aCul.hostAnswer 0
    (worldSteps run.1).length = 8 ∧
      ∃ t, worldSteps run.1 = ownSteps t ∧
        ∀ e ∈ t, Plausible (SelectRaised run.1) e.op e.ans := by
  refine ⟨by decide +kernel, ?_⟩
  obtain ⟨t, hsteps, hplausible, -⟩ := lowered_refines
    (p := Flasher.setLed 2 PlannedRun.qemuSettings .blink)
    (Run.of_exec (I := Host) aCul.hostAnswer (lowered 4 _) 0)
  exact ⟨t, hsteps, hplausible⟩

end SerialSession

end Cul868Flasher
