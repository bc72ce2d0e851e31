import Cul868Flasher.Flasher.Phases

/-!
# The LED command of `setLed`

The command is sent at most once, in a session that has just read a version
with LED support, and no session is opened after it.
-/

namespace Cul868Flasher
open Python Effects

/-- The step that sends the LED command. -/
def IsLedCommand (e : Event World) : Prop := e.op.kind = .ledCommand

instance (e : Event World) : Decidable (IsLedCommand e) := inferInstanceAs (Decidable (_ = _))

namespace Flasher

/-- The LED command has not been sent. -/
def NoLed (h : Trace World) : Prop := ∀ e ∈ h, ¬ IsLedCommand e

/-- The history ends in a session that has just read a version with LED support. -/
def LedOrdered (settings : Settings) (h : Trace World) : Prop :=
  ∃ u device version, supportsCulLedControl version = true ∧
    h = u ++ [⟨.openSerial device settings.baudrate, (.ok () : Except Exn Unit)⟩,
      ⟨.version, (.ok version : Except Exn String)⟩]

/-- What holds when a step is made after the history `h`. -/
structure LedAllowed (settings : Settings) (mode : LedMode) (h : Trace World)
    (e : Event World) : Prop where
  command : IsLedCommand e → NoLed h ∧ e.op = .setLed mode ∧ LedOrdered settings h
  opened : ∀ device baudrate, e.op = .openSerial device baudrate → NoLed h

/-- The LED command has succeeded, and so has the closing of its session. -/
def LedDone (mode : LedMode) (h : Trace World) : Prop :=
  ∃ u v, h = u ++ ⟨.setLed mode, (.ok () : Except Exn Unit)⟩ ::
    ⟨.closeSerial, (.ok () : Except Exn Unit)⟩ :: v

theorem LedDone.snoc {mode : LedMode} {h : Trace World} (e : Event World) (hd : LedDone mode h) :
    LedDone mode (h ++ [e]) := by
  obtain ⟨u, v, rfl⟩ := hd
  exact ⟨u, v ++ [e], by simp⟩

theorem NoLed.snoc {h : Trace World} {e : Event World} (hn : NoLed h) (he : ¬ IsLedCommand e) :
    NoLed (h ++ [e]) := by
  intro x hx
  rcases List.mem_append.mp hx with hx | hx
  · exact hn x hx
  · rw [List.mem_singleton.mp hx]
    exact he

section
variable {settings : Settings} {mode : LedMode}

/-- The kinds that neither open a session nor send the command. -/
def ledQuietKinds : List OpKind :=
  [.clock, .sleep, .report, .usb, .file, .save (some .verifiedApplication), .get, .post]

theorem ledAllowed_of_op (h : Trace World) (e : Event World) (he : ¬ IsLedCommand e)
    (ho : ∀ device baudrate, e.op ≠ .openSerial device baudrate) : LedAllowed settings mode h e :=
  ⟨fun hc => absurd hc he, fun device baudrate heq => absurd heq (ho device baudrate)⟩

theorem ledQuiet_not_command {e : Event World} (he : e.op.kind ∈ ledQuietKinds) :
    ¬ IsLedCommand e := by
  intro hc
  rw [show e.op.kind = .ledCommand from hc] at he
  exact absurd he (by decide)

theorem ledAllowed_quiet (h : Trace World) (e : Event World) (he : e.op.kind ∈ ledQuietKinds) :
    LedAllowed settings mode h e := by
  refine ledAllowed_of_op h e (ledQuiet_not_command he) fun device baudrate heq => ?_
  rw [heq] at he
  simp [Op.kind, ledQuietKinds] at he

abbrev LedSteps (settings : Settings) (mode : LedMode) (P : Trace World → Prop)
    (p : Prog World ε α) (Q : α → Trace World → Prop) (E : ε → Trace World → Prop) : Prop :=
  Triple (Guarded (LedAllowed settings mode)) P p Q E

theorem noLed_steps {ks : List OpKind} {p : Prog World ε α} (hp : Uses ks p)
    (hks : ks ⊆ ledQuietKinds) :
    LedSteps settings mode NoLed p (fun _ => NoLed) (fun _ => NoLed) :=
  Guarded.frame (hp.of_subset hks) ledAllowed_quiet fun _ _ he hn =>
    hn.snoc (ledQuiet_not_command he)

theorem ledRest_steps {ks : List OpKind} {p : Prog World ε α} (hp : Uses ks p)
    (hks : ks ⊆ ledQuietKinds) {P : Trace World → Prop} (hP : ∀ h e, P h → P (h ++ [e])) :
    LedSteps settings mode P p (fun _ => P) (fun _ _ => True) :=
  (Guarded.frame (hp.of_subset hks) ledAllowed_quiet fun h e _ => hP h e).exc fun _ _ _ _ => trivial

/-- The flag of an exception is set once the command may have been sent. -/
def LedFailed (x : Exn × Bool) (h : Trace World) : Prop := x.2 = false → NoLed h

theorem closeLed_steps (flag : Bool) :
    LedSteps settings mode (fun h => flag = false → NoLed h)
      (CulSerial.close.raisingWith flag : Prog World (Exn × Bool) Unit)
      (fun _ h => flag = false → NoLed h) LedFailed := by
  refine Triple.raisingWith (fallible_triple fun h a hj hn => ?_)
  have hnot : ¬ IsLedCommand ⟨.closeSerial, a⟩ := by simp [IsLedCommand, Op.kind]
  refine ⟨hj.snoc (ledAllowed_of_op h _ hnot fun _ _ heq => by cases heq), ?_, ?_⟩
  · exact fun _ _ hf => (hn hf).snoc hnot
  · exact fun _ _ hf => (hn hf).snoc hnot

/-- Closing the session after the command has succeeded. -/
theorem closeSent_steps {flag : Bool} (hflag : flag = true) :
    LedSteps settings mode (fun h => ∃ u, h = u ++ [⟨.setLed mode, (.ok () : Except Exn Unit)⟩])
      (CulSerial.close.raisingWith flag : Prog World (Exn × Bool) Unit)
      (fun _ => LedDone mode) LedFailed := by
  refine Triple.raisingWith (fallible_triple fun h a hj hsent => ?_)
  obtain ⟨u, rfl⟩ := hsent
  have hnot : ¬ IsLedCommand ⟨.closeSerial, a⟩ := by simp [IsLedCommand, Op.kind]
  refine ⟨hj.snoc (ledAllowed_of_op _ _ hnot fun _ _ heq => by cases heq), ?_, ?_⟩
  · rintro _ rfl
    exact ⟨u, [], by simp⟩
  · intro _ _ hf
    rw [hflag] at hf
    cases hf

theorem setLedAttempt_steps (device : Path) :
    LedSteps settings mode NoLed (setLedAttempt device settings.baudrate mode)
      (fun _ => LedDone mode) LedFailed := by
  refine Triple.bind (R := fun _ h => NoLed h ∧ ∃ u, h =
      u ++ [⟨.openSerial device settings.baudrate, (.ok () : Except Exn Unit)⟩])
    (Triple.raisingWith (fallible_triple fun h a hj hn => ?_)) fun _ => ?_
  · have hnot : ¬ IsLedCommand ⟨.openSerial device settings.baudrate, a⟩ := by
      simp [IsLedCommand, Op.kind]
    refine ⟨hj.snoc ⟨fun hc => absurd hc hnot, fun _ _ _ => hn⟩, ?_, fun _ _ _ => hn.snoc hnot⟩
    rintro _ rfl
    exact ⟨hn.snoc hnot, h, rfl⟩
  refine Triple.ensuring (R := fun x h => x.2 = true ∧
    ∃ u, h = u ++ [⟨.setLed mode, (.ok () : Except Exn Unit)⟩]) (F := LedFailed) ?_
    (fun a => .fact fun hflag => closeSent_steps hflag) fun e => closeLed_steps e.2
  refine Triple.bind (R := fun version h => NoLed h ∧ ∃ u, h =
      u ++ [⟨.openSerial device settings.baudrate, (.ok () : Except Exn Unit)⟩,
        ⟨.version, (.ok version : Except Exn String)⟩])
    (Triple.raisingWith (fallible_triple fun h a hj hn => ?_)) fun version => ?_
  · obtain ⟨hn, u, hu⟩ := hn
    have hnot : ¬ IsLedCommand ⟨.version, a⟩ := by simp [IsLedCommand, Op.kind]
    refine ⟨hj.snoc (ledAllowed_of_op h _ hnot fun _ _ heq => by cases heq), ?_,
      fun _ _ _ => hn.snoc hnot⟩
    rintro version rfl
    exact ⟨hn.snoc hnot, u, by simp [hu]⟩
  split
  · exact .raise fun h _ hn _ => hn.1
  · rename_i hsupports
    refine Triple.bind (R := fun _ h => ∃ u, h =
        u ++ [⟨.setLed mode, (.ok () : Except Exn Unit)⟩]) (Triple.raisingWith (fallible_triple
      fun h a hj hn => ?_)) fun _ => .pure fun h _ hsent => ⟨rfl, hsent⟩
    obtain ⟨hn, u, hu⟩ := hn
    refine ⟨hj.snoc ⟨fun _ => ⟨hn, rfl, u, device, version, by simpa using hsupports, hu⟩,
      fun _ _ heq => by cases heq⟩, ?_, fun _ _ hf => by cases hf⟩
    rintro _ rfl
    exact ⟨h, rfl⟩

theorem setLedAfterVerification_steps (device : Path) :
    LedSteps settings mode NoLed (setLedAfterVerification device settings.baudrate mode)
      (fun _ => LedDone mode) fun _ _ => True := by
  have hpass : LedSteps settings mode NoLed (setLedPass device settings.baudrate mode)
      (fun x h => (∀ version, x = .ok version → LedDone mode h) ∧ ∀ e, x = .error e → NoLed h)
      fun _ _ => True := by
    refine (setLedAttempt_steps device).attempt.bind fun result => ?_
    rcases result with ⟨err, flag⟩ | ⟨version, flag⟩
    · dsimp only
      split
      · exact .raise fun _ _ _ => trivial
      · split
        · exact .raise fun _ _ _ => trivial
        · rename_i hflag
          exact .pure fun h _ hx => ⟨(fun _ he => by cases he), fun e _ =>
            hx.2 _ rfl (by simpa using hflag)⟩
    · exact .pure fun h _ hx => ⟨fun _ _ => hx.1 _ rfl, fun e he => by cases he⟩
  have hbody : ∀ s : Unit, LedSteps settings mode NoLed
      (do return (← setLedPass device settings.baudrate mode, s))
      (fun x h => (∀ version, x.1 = .ok version → LedDone mode h) ∧ ∀ e, x.1 = .error e → NoLed h)
      fun _ _ => True :=
    fun s => hpass.bind fun result => .pure fun h _ hx => hx
  have hsleep : ∀ (k : ℕ) (s : Unit), LedSteps settings mode NoLed
      (sleep versionRetrySeconds : Program Unit) (fun _ => NoLed) fun _ _ => True := by
    intro k s
    have huses : Uses [.sleep] (sleep versionRetrySeconds : Program Unit) :=
      perform_uses rfl (List.mem_singleton_self _)
    exact (noLed_steps huses (by decide)).exc fun _ _ _ _ => trivial
  refine Triple.bind (Triple.retry (S := fun _ => NoLed) (F := fun _ => NoLed)
    (Q := fun x h => ∀ version, x.1 = .ok version → LedDone mode h) hbody hsleep _ _ ())
    fun x => ?_
  obtain ⟨result, _⟩ := x
  cases result with
  | ok version => exact .pure fun _ _ hx => hx version rfl
  | error err => exact .raise fun _ _ _ => trivial

theorem setLedPaused_steps (pause : CulConsumerPause) :
    LedSteps settings mode NoLed (setLedPaused settings mode pause) (fun _ => LedDone mode)
      fun _ _ => True := by
  have hon : ∀ device, LedSteps settings mode NoLed (setLedOn settings device mode pause)
      (fun _ => LedDone mode) fun _ _ => True := by
    intro device
    refine Triple.bind ((setLedAfterVerification_steps device).catching.exc
      fun _ _ _ _ => trivial) fun result => ?_
    cases result with
    | ok version => exact .pure fun _ _ hx => hx.1 _ rfl
    | error err => exact .raise fun _ _ _ => trivial
  refine Triple.bind (Triple.raisingWith ((noLed_steps (configuredApplicationEndpoint_uses
    settings _) (by decide)).exc fun _ _ _ _ => trivial)) fun endpoint => ?_
  refine Triple.bind (Triple.raisingWith (hon _)) fun version => ?_
  have huses : Uses [.save (some .verifiedApplication)]
      (DeviceStateStore.save (verifiedApplication settings endpoint.1 version)) :=
    save_uses rfl (List.mem_singleton_self _)
  exact Triple.bind (Triple.raisingWith (ledRest_steps huses (by decide) fun _ e hd => hd.snoc e))
    fun _ => .pure fun _ _ hd => hd

theorem setLed_steps (fuel : ℕ) :
    LedSteps settings mode NoLed (setLed fuel settings mode) (fun _ => LedDone mode)
      fun _ _ => True := by
  have hbody : LedSteps settings mode NoLed (setLedBody fuel settings mode)
      (fun _ => LedDone mode) fun _ _ => True := by
    refine Triple.bind ((noLed_steps (configuredApplicationEndpoint_uses settings _)
      (by decide)).exc fun _ _ _ _ => trivial) fun _ => ?_
    refine Triple.bind (R := fun _ => LedDone mode) ?_ fun _ => .pure fun _ _ hd => hd
    refine Triple.bind ((noLed_steps (SupervisorClient.pauseConsumers_uses fuel _ _)
      (by decide)).exc fun _ _ _ _ => trivial) fun paused => ?_
    refine (setLedPaused_steps paused.1).attempt.bind fun result => ?_
    have hresume := SupervisorClient.resumeConsumers_uses (α := String) fuel paused.2 result
    cases result with
    | ok x =>
      refine (ledRest_steps (P := LedDone mode) hresume (by decide) fun _ e hd => hd.snoc e).pre ?_
      exact fun h _ hx => hx.1 x rfl
    | error x =>
      refine (ledRest_steps (P := fun _ => True) hresume (by decide)
        fun _ _ _ => trivial).record.conseq (fun _ _ _ => trivial) ?_ fun _ _ _ _ => trivial
      rintro a h - ⟨-, h₀, t, rfl, -, hrun⟩
      exact absurd hrun (resumeConsumers_error fuel)
  refine Triple.bind hbody.attempt fun result => ?_
  cases result with
  | ok result => exact .pure fun _ _ hx => hx.1 _ rfl
  | error err =>
    dsimp only
    split
    · exact .raise fun _ _ _ => trivial
    · exact .raise fun _ _ _ => trivial

theorem setLed_guarded {fuel : ℕ} {t : Trace World} {r : Outcome Exn LedResult}
    (h : Run (setLed fuel settings mode) t r) : Guarded (LedAllowed settings mode) t := by
  have hguarded :=
    (setLed_steps fuel).invariant Guarded.nil (fun _ he => absurd he List.not_mem_nil) h
  simpa using hguarded

theorem setLed_returned {fuel : ℕ} {t : Trace World} {result : LedResult}
    (h : Run (setLed fuel settings mode) t (.returned result)) : LedDone mode t := by
  have hdone := (setLed_steps fuel).returned Guarded.nil (fun _ he => absurd he List.not_mem_nil) h
  simpa using hdone

/-- Whatever goes wrong, the call ends with a `FlashError`. -/
theorem setLed_raises (fuel : ℕ) :
    Raises (fun e => e.isFlashError = true) (setLed fuel settings mode) := by
  refine Raises.bind (Raises.attempt _) fun result => ?_
  cases result with
  | ok result => trivial
  | error err =>
    dsimp only
    split
    · rename_i hflash
      exact hflash
    · rfl

end
end Flasher
end Cul868Flasher
