import Cul868Flasher.Effects.Discipline
import Cul868Flasher.Flasher.Authorization

/-!
# What is said in a session

Each operation of the flasher has its sessions one after the other. It asks `V`
first, and gives the one command it may give in a session that has answered.
-/

namespace Cul868Flasher
open Python Effects

inductive Errand where
  | verification
  | diagnostics
  | flash
  | led (mode : LedMode)

inductive Link where
  | shut
  | fresh
  /-- `V` has been answered. -/
  | verified
  /-- The uptime has been asked for. -/
  | asked
  | spent
  deriving DecidableEq

structure Talk where
  link : Link
  /-- A command has been given. -/
  ordered : Bool
  /-- The record saved last in this session. -/
  record : Option StateFile

namespace Talk

@[simp] def Allows (errand : Errand) (ℓ : Talk) : World.Op → Prop
  | .openSerial _ _ => ℓ.link = .shut
  | .version => ℓ.link = .fresh
  | .enterBootloader => ℓ.link = .verified ∧ ℓ.ordered = false ∧ errand = .flash ∧
      ℓ.record.bind StateFile.binding = some .handoffPending
  | .setLed mode => ℓ.link = .verified ∧ ℓ.ordered = false ∧ errand = .led mode
  | .uptimeTicks => ℓ.link = .fresh ∧ errand = .diagnostics
  | .mbusMode => ℓ.link = .asked ∧ errand = .diagnostics
  | .closeSerial => ℓ.link ≠ .shut
  | _ => True

@[simp] def after (ℓ : Talk) : (o : World.Op) → World.Ans o → Talk
  | .openSerial _ _, opened =>
    let opened : Except Exn Unit := opened
    { ℓ with
      link := if opened.isOk then .fresh else .shut
      record := none }
  | .version, answer =>
    let answer : Except Exn String := answer
    { ℓ with link := if answer.isOk then .verified else .spent }
  | .enterBootloader, _ => { ℓ with link := .spent, ordered := true }
  | .setLed _, _ => { ℓ with link := .spent, ordered := true }
  | .uptimeTicks, _ => { ℓ with link := .asked }
  | .mbusMode, _ => { ℓ with link := .spent }
  | .closeSerial, _ => { ℓ with link := .shut }
  | .saveState file, outcome =>
    let outcome : SaveOutcome := outcome
    match outcome with
    | .saved => { ℓ with record := some file }
    | .failed _ _ => ℓ
  | _, _ => ℓ

/-- Between two sessions, before any command. -/
structure Resting (ℓ : Talk) : Prop where
  shut : ℓ.link = .shut
  unordered : ℓ.ordered = false

end Talk

/-- The dialogue of an operation. -/
def talking (errand : Errand) : Discipline World Talk where
  allows := Talk.Allows errand
  trusts _ _ _ := True
  after := Talk.after

/-- The steps that are part of a session or of its description. -/
def OpKind.inSession : OpKind → Bool
  | .save _ => true
  | .session => true
  | .bootloaderCommand => true
  | .ledCommand => true
  | .query => true
  | _ => false

variable {errand : Errand} {α β σ ε : Type} {ℓ : Talk}

theorem silent {ks : List OpKind} {p : Prog World ε α} (hp : Uses ks p)
    (hks : ∀ k ∈ ks, k.inSession = false) :
    Follows (talking errand) (fun _ ℓ' => ℓ' = ℓ) (fun _ ℓ' => ℓ' = ℓ) p ℓ := by
  have hkind : ∀ o : Op, o.kind ∈ ks → o.kind.inSession = false := fun o ho => hks _ ho
  refine .frame hp (fun o ho => ?_) fun o a ho => ?_
  · have hnone := hkind o ho
    cases o <;> trivial
  · have hnone := hkind o ho
    cases o <;> first | rfl | cases hnone

/-- The program has its sessions and leaves none open. -/
abbrev Closes (errand : Errand) (p : Prog World ε α) : Prop :=
  ∀ ℓ : Talk, ℓ.link = .shut →
    Follows (talking errand) (fun _ ℓ => ℓ.link = .shut) (fun _ ℓ => ℓ.link = .shut) p ℓ

/-- Steps that are no part of a session; a record may be saved. -/
def OpKind.offLine : OpKind → Bool
  | .save _ => true
  | k => !k.inSession

theorem Uses.closes {ks : List OpKind} {p : Prog World ε α} (hp : Uses ks p)
    (hks : ∀ k ∈ ks, k.offLine = true) : Closes errand p := fun _ hℓ => by
  refine .keeping (K := fun ℓ : Talk => ℓ.link = .shut) hp (fun ℓ o ho hℓ => ?_) hℓ
  have hkind : o.kind.offLine = true := hks _ ho
  cases o with
  | saveState file =>
    refine ⟨trivial, fun (outcome : SaveOutcome) => ?_⟩
    cases outcome <;> exact hℓ
  | request method path => exact ⟨trivial, fun _ => hℓ⟩
  | _ => first | exact ⟨trivial, fun _ => hℓ⟩ | cases hkind

namespace Closes

theorem pure (a : α) : Closes errand (Pure.pure a : Prog World ε α) := fun _ hℓ => .pure hℓ

theorem raise (e : ε) : Closes errand (.raise e : Prog World ε α) := fun _ hℓ => .raise hℓ

theorem bind {p : Prog World ε α} {f : α → Prog World ε β} (hp : Closes errand p)
    (hf : ∀ a, Closes errand (f a)) : Closes errand (p >>= f) := fun _ hℓ =>
  (hp _ hℓ).bind fun a _ hℓ => hf a _ hℓ

theorem attempt {ε' : Type} {p : Prog World ε α} (hp : Closes errand p) :
    Closes errand (p.attempt : Prog World ε' (Except ε α)) := fun ℓ hℓ =>
  (hp ℓ hℓ).attempt.conseq (fun x ℓ hx => by
    cases x with
    | ok a => exact hx.1 a rfl
    | error e => exact hx.2 e rfl) fun _ _ h => h

theorem catching {p : Prog World ε α} (hp : Closes errand p) (c : ε → Bool) :
    Closes errand (p.catching c) := fun ℓ hℓ =>
  (hp ℓ hℓ).catching (fun _ _ h => h) (fun _ _ _ h => h) fun _ _ _ h => h

theorem raisingWith {p : Prog World ε α} (hp : Closes errand p) (s : σ) :
    Closes errand (p.raisingWith s) := fun ℓ hℓ =>
  .raisingWith (hp ℓ hℓ)

theorem loop {body : σ → Prog World ε (σ ⊕ α)} (hb : ∀ s, Closes errand (body s)) (n : ℕ) (s : σ) :
    Closes errand (Prog.loop body n s) := fun _ hℓ =>
  .loop (K := fun _ ℓ => ℓ.link = .shut) (fun s _ hℓ => (hb s _ hℓ).conseq
    (fun _ _ h => ⟨fun _ _ => h, fun _ _ => h⟩) fun _ _ h => h) n hℓ

theorem retry {δ : Type} {pause : ℕ → Prog World ε Unit} {body : σ → Prog World ε (Except δ α × σ)}
    (hp : ∀ k, Closes errand (pause k)) (hb : ∀ s, Closes errand (body s)) (n k : ℕ) (s : σ) :
    Closes errand (Prog.retry pause body n k s) := fun _ hℓ =>
  .retry (K := fun _ ℓ => ℓ.link = .shut) (fun k _ _ hℓ => hp k _ hℓ)
    (fun s _ hℓ => (hb s _ hℓ).conseq (fun _ _ h => ⟨h, fun _ _ => h⟩) fun _ _ h => h) n k hℓ

end Closes

/-! ## One session -/

namespace CulSerial

variable {device : Path} {baudrate : ℕ} {b : Bool} {r : Option StateFile}

theorem follows_open : Follows (talking errand) (fun _ ℓ => ℓ = ⟨.fresh, b, none⟩)
    (fun _ ℓ => ℓ = ⟨.shut, b, none⟩) (open_ device baudrate) ⟨.shut, b, r⟩ := by
  refine Follows.step rfl fun (opened : Except Exn Unit) _ => ?_
  cases opened with
  | ok _ => exact .ret rfl
  | error e => exact .raise rfl

theorem follows_close (hℓ : ℓ.link ≠ .shut) : Follows (talking errand)
    (fun _ ℓ' => ℓ' = { ℓ with link := .shut }) (fun _ ℓ' => ℓ' = { ℓ with link := .shut })
    close ℓ := by
  refine Follows.step hℓ fun (closed : Except Exn Unit) _ => ?_
  cases closed with
  | ok _ => exact .ret rfl
  | error e => exact .raise rfl

theorem follows_version : Follows (talking errand) (fun _ ℓ => ℓ = ⟨.verified, b, r⟩)
    (fun _ ℓ => ℓ = ⟨.spent, b, r⟩) version ⟨.fresh, b, r⟩ := by
  refine Follows.step rfl fun (answer : Except Exn String) _ => ?_
  cases answer with
  | ok text => exact .ret rfl
  | error e => exact .raise rfl

theorem closes_session {block : Program α}
    (hb : ∀ b,
      Follows (talking errand) (fun _ ℓ => ℓ.link ≠ .shut) (fun _ ℓ => ℓ.link ≠ .shut) block
      ⟨.fresh, b, none⟩) : Closes errand (session device baudrate block) := by
  rintro ⟨_, b, r⟩ rfl
  refine (follows_open.conseq (fun _ _ h => h) fun _ _ h => by rw [h]).bind ?_
  rintro _ _ rfl
  refine (hb b).ensuring (fun _ ℓ hℓ => ?_) fun _ ℓ hℓ => ?_
  · exact (follows_close hℓ).conseq (fun _ _ h => by rw [h]) fun _ _ h => by rw [h]
  · exact (follows_close hℓ).conseq (fun _ _ h => by rw [h]) fun _ _ h => by rw [h]

/-- A session whose block reports in its state whether a command has been given. -/
theorem follows_sessionWith {s : σ} {block : Prog World (Exn × σ) (α × σ)} {E : σ → Bool → Prop}
    {Q : α × σ → Bool → Prop} (hs : E s b) (hQ : ∀ x b, Q x b → E x.2 b)
    (hb : Follows (talking errand) (fun x ℓ => ℓ.link ≠ .shut ∧ Q x ℓ.ordered)
      (fun e ℓ => ℓ.link ≠ .shut ∧ E e.2 ℓ.ordered) block ⟨.fresh, b, none⟩) :
    Follows (talking errand) (fun x ℓ => ℓ.link = .shut ∧ Q x ℓ.ordered)
      (fun e ℓ => ℓ.link = .shut ∧ E e.2 ℓ.ordered) (sessionWith s device baudrate block)
      ⟨.shut, b, r⟩ := by
  refine (Follows.raisingWith (follows_open.conseq (fun _ _ h => h) fun _ _ h => ?_)).bind ?_
  · rw [h]
    exact ⟨rfl, hs⟩
  · rintro _ _ rfl
    refine hb.ensuring (fun x ℓ hℓ => ?_) fun e ℓ hℓ => ?_
    · refine .raisingWith ((follows_close hℓ.1).conseq (fun _ _ h => ?_) fun _ _ h => ?_)
      · rw [h]
        exact ⟨rfl, hℓ.2⟩
      · rw [h]
        exact ⟨rfl, hQ _ _ hℓ.2⟩
    · refine .raisingWith ((follows_close hℓ.1).conseq (fun _ _ h => ?_) fun _ _ h => ?_)
      · rw [h]
        exact ⟨rfl, hℓ.2⟩
      · rw [h]
        exact ⟨rfl, hℓ.2⟩

end CulSerial

namespace Flasher
variable (fuel : ℕ) (settings : Settings)

theorem closes_readVersionOnce (device : Path) (baudrate : ℕ) :
    Closes errand (readVersionOnce device baudrate) :=
  CulSerial.closes_session fun _ => CulSerial.follows_version.conseq
    (fun _ _ h => by simp [h]) fun _ _ h => by simp [h]

theorem closes_readVersion (device : Path) (baudrate : ℕ) :
    Closes errand (readVersion device baudrate) := by
  refine (Closes.retry (fun _ => ?_) (fun _ => ?_) _ _ _).bind fun x => ?_
  · exact Uses.closes (perform_uses rfl (List.mem_singleton_self _)) (by decide)
  · exact (closes_readVersionOnce device baudrate).attempt.bind fun _ => .pure _
  · obtain ⟨result, _⟩ := x
    cases result with
    | ok version => exact .pure _
    | error err => exact .raise _

theorem closes_optionalQuery {query : Program α} {ℓ ℓ' : Talk}
    (h : Follows (talking errand) (fun _ ℓ => ℓ = ℓ') (fun _ ℓ => ℓ = ℓ') query ℓ) :
    Follows (talking errand) (fun _ ℓ => ℓ = ℓ') (fun _ ℓ => ℓ = ℓ') (optionalQuery query) ℓ :=
  Follows.attempt_bind h (fun _ _ h => .pure h) fun _ _ h => .pure h

theorem closes_readTelemetry (device : Path) (baudrate : ℕ) :
    Closes .diagnostics (readTelemetry device baudrate) := by
  refine CulSerial.closes_session fun b => ?_
  have huptime : Follows (talking .diagnostics) (fun _ ℓ => ℓ = ⟨.asked, b, none⟩)
      (fun _ ℓ => ℓ = ⟨.asked, b, none⟩) CulSerial.uptimeTicks ⟨.fresh, b, none⟩ :=
    Follows.step ⟨rfl, rfl⟩ fun (answer : Except Exn ℕ) _ =>
      .ofExcept (fun _ _ => rfl) fun _ _ => rfl
  have hmbus : Follows (talking .diagnostics) (fun _ ℓ => ℓ = ⟨.spent, b, none⟩)
      (fun _ ℓ => ℓ = ⟨.spent, b, none⟩) CulSerial.mbusMode ⟨.asked, b, none⟩ :=
    Follows.step ⟨rfl, rfl⟩ fun (answer : Except Exn String) _ =>
      .ofExcept (fun _ _ => rfl) fun _ _ => rfl
  refine ((closes_optionalQuery huptime).conseq (fun _ _ h => h) fun _ _ h => by simp [h]).bind ?_
  rintro x _ rfl
  refine ((closes_optionalQuery hmbus).conseq (fun _ _ h => h) fun _ _ h => by simp [h]).bind ?_
  rintro y _ rfl
  exact .pure (by simp)

/-! ## The operations -/

theorem follows_temporarilyStop {device : Path} {additional : List String} {ℓ : Talk}
    (hℓ : ℓ.link = .shut) {block : CulConsumerPause → Paused (α × CulConsumerPause)}
    (hb : ∀ pause, Follows (talking errand) (fun _ ℓ => ℓ.link = .shut) (fun _ ℓ => ℓ.link = .shut)
      (block pause) ℓ) :
    Follows (talking errand) (fun _ ℓ => ℓ.link = .shut) (fun _ ℓ => ℓ.link = .shut)
      (SupervisorClient.temporarilyStopCulConsumers fuel device additional block) ℓ := by
  refine ((silent (SupervisorClient.pauseConsumers_uses fuel device additional)
    (by decide)).conseq (fun _ _ h => h) fun _ _ h => h ▸ hℓ).bind ?_
  rintro ⟨pause, stopped⟩ _ rfl
  have hresume : ∀ x : Except (Exn × CulConsumerPause) (α × CulConsumerPause), Closes errand
      (SupervisorClient.resumeConsumers fuel stopped x) := fun x =>
    Uses.closes (SupervisorClient.resumeConsumers_uses fuel stopped x) (by decide)
  exact (hb pause).attempt_bind (fun _ _ hℓ => hresume _ _ hℓ) fun _ _ hℓ => hresume _ _ hℓ

/-- The body that the operations but `flash` share. -/
theorem follows_exclusive {block : CulConsumerPause → Paused (α × CulConsumerPause)} {f : α → β}
    {b : Bool} (hb : ∀ pause, Follows (talking errand) (fun _ ℓ => ℓ.link = .shut)
      (fun _ ℓ => ℓ.link = .shut) (block pause) ⟨.shut, b, none⟩) :
    Follows (talking errand) (fun _ ℓ => ℓ.link = .shut) (fun _ ℓ => ℓ.link = .shut) (do
      let _ ← configuredApplicationEndpoint settings none
      let (result, _) ← SupervisorClient.temporarilyStopCulConsumers fuel settings.device
        settings.additionalCulAddons block
      return f result) ⟨.shut, b, none⟩ := by
  refine ((silent (configuredApplicationEndpoint_uses settings none) (by decide)).conseq
    (fun _ _ h => h) fun _ _ h => by rw [h]).bind ?_
  rintro _ _ rfl
  exact (follows_temporarilyStop fuel rfl hb).bind fun _ _ h => .pure h

theorem closes_endpoint (pause : CulConsumerPause) :
    Closes errand ((configuredApplicationEndpoint settings none).raisingWith pause) :=
  (Uses.closes (configuredApplicationEndpoint_uses settings none) (by decide)).raisingWith pause

theorem closes_save (application : UsbTarget) (version : String) (pause : CulConsumerPause) :
    Closes errand ((DeviceStateStore.save
      (verifiedApplication settings application version)).raisingWith pause) :=
  (Uses.closes (save_uses (b := .verifiedApplication) rfl
    (List.mem_singleton_self _)) (by decide)).raisingWith pause

/-- The way in which an operation reports its failure. -/
theorem follows_report {err report : Exn} {ℓ : Talk} (hℓ : ℓ.link = .shut) :
    Follows (talking errand) (fun _ ℓ => ℓ.link = .shut) (fun _ ℓ => ℓ.link = .shut)
      (if err.isFlashError then .raise err else .raise report : Program α) ℓ := by
  split_ifs
  · exact .raise hℓ
  · exact .raise hℓ

theorem talks_verification : Follows (talking .verification) (fun _ ℓ => ℓ.link = .shut)
    (fun _ ℓ => ℓ.link = .shut) (verifyRunningApplication fuel settings) ⟨.shut, false, none⟩ := by
  refine Follows.attempt_bind (follows_exclusive (f := id) fuel settings fun pause => ?_)
    (fun _ _ h => .pure h) fun _ _ h => follows_report h
  refine Closes.bind (closes_endpoint settings pause) (fun endpoint => ?_) _ rfl
  refine ((closes_readVersion _ _).raisingWith pause).bind fun version => ?_
  exact (closes_save settings _ _ pause).bind fun _ => .pure _

theorem talks_diagnostics : Follows (talking .diagnostics) (fun _ ℓ => ℓ.link = .shut)
    (fun _ ℓ => ℓ.link = .shut) (diagnostics fuel settings) ⟨.shut, false, none⟩ := by
  refine Follows.attempt_bind (follows_exclusive (f := id) fuel settings fun pause => ?_)
    (fun _ _ h => .pure h) fun _ _ h => follows_report h
  refine Closes.bind (closes_endpoint settings pause) (fun endpoint => ?_) _ rfl
  refine Closes.bind (Closes.raisingWith ?_ pause) fun version => ?_
  · refine ((closes_readVersion _ _).catching _).bind fun result => ?_
    cases result with
    | ok version => exact .pure _
    | error err => exact .raise _
  · refine ((closes_readTelemetry _ _).raisingWith pause).bind fun telemetry => ?_
    exact (closes_save settings _ _ pause).bind fun _ => .pure _

/-! ## The commands -/

/-- The pause between two attempts. -/
theorem follows_sleep {seconds : ℚ} (hℓ : ℓ.Resting) : Follows (talking errand)
    (fun _ ℓ => ℓ.Resting) (fun _ ℓ => ℓ.link = .shut) (sleep seconds : Program Unit) ℓ :=
  have hsleep : Uses [.sleep] (sleep seconds : Program Unit) :=
    perform_uses rfl (List.mem_singleton_self _)
  (silent hsleep (by decide)).conseq (fun _ _ h => h ▸ hℓ) fun _ _ h => h ▸ hℓ.shut

/-- Whether a command may have been given is known from the state of the attempt. -/
theorem follows_setLedAttempt (hℓ : ℓ.Resting) (device : Path) (baudrate : ℕ) (mode : LedMode) :
    Follows (talking (.led mode)) (fun _ ℓ => ℓ.link = .shut)
      (fun e ℓ => ℓ.link = .shut ∧ (e.2 = false → ℓ.ordered = false))
      (setLedAttempt device baudrate mode) ℓ := by
  obtain ⟨_, _, r⟩ := ℓ
  obtain ⟨rfl, rfl⟩ := hℓ
  refine (CulSerial.follows_sessionWith (E := fun s b => s = false → b = false)
    (Q := fun x _ => x.2 = true) (fun _ => rfl) (fun x _ hx hs => ?_) ?_).conseq
    (fun _ _ h => h.1) fun _ _ h => h
  · rw [hx] at hs
    cases hs
  · refine (Follows.raisingWith (CulSerial.follows_version.conseq (fun _ _ h => h)
      fun _ _ h => ?_)).bind ?_
    · rw [h]
      exact ⟨by simp, fun _ => rfl⟩
    · rintro version _ rfl
      split_ifs
      · exact .raise ⟨by simp, fun _ => rfl⟩
      · have hled : Follows (talking (.led mode)) (fun _ ℓ => ℓ = ⟨.spent, true, none⟩)
            (fun _ ℓ => ℓ = ⟨.spent, true, none⟩)
            (CulSerial.setLed mode) ⟨.verified, false, none⟩ :=
          Follows.step ⟨rfl, rfl, rfl⟩ fun (answer : Except Exn Unit) _ =>
            .ofExcept (fun _ _ => rfl) fun _ _ => rfl
        refine (Follows.raisingWith (hled.conseq (fun _ _ h => h) fun _ _ h => ?_)).bind ?_
        · rw [h]
          exact ⟨by simp, by simp⟩
        · rintro _ _ rfl
          exact .pure ⟨by simp, rfl⟩

theorem follows_setLedAfterVerification (device : Path) (baudrate : ℕ) (mode : LedMode) :
    Follows (talking (.led mode)) (fun _ ℓ => ℓ.link = .shut) (fun _ ℓ => ℓ.link = .shut)
      (setLedAfterVerification device baudrate mode) ⟨.shut, false, none⟩ := by
  refine Follows.bind (R := fun _ ℓ => ℓ.link = .shut)
    (.retry (K := fun _ ℓ => ℓ.Resting) (fun _ _ _ hℓ => follows_sleep hℓ) ?_ _ _ ⟨rfl, rfl⟩)
    fun x ℓ hℓ => ?_
  · rintro s ℓ hℓ
    refine Follows.bind (R := fun x ℓ => ℓ.link = .shut ∧ ∀ e, x = .error e → ℓ.ordered = false)
      ?_ fun x ℓ hx => ?_
    · refine (follows_setLedAttempt hℓ device baudrate mode).attempt_bind (fun x ℓ h => ?_)
        fun e ℓ h => ?_
      · exact .pure ⟨h, fun _ he => by cases he⟩
      · obtain ⟨err, started⟩ := e
        dsimp only
        split_ifs with hflash hstarted
        · exact .raise h.1
        · exact .raise h.1
        · exact .pure ⟨h.1, fun _ _ => h.2 (Bool.not_eq_true _ ▸ hstarted)⟩
    · exact .pure ⟨hx.1, fun e he => ⟨hx.1, hx.2 e he⟩⟩
  · obtain ⟨result, _⟩ := x
    cases result with
    | ok version => exact .pure hℓ
    | error err => exact .raise hℓ

theorem follows_setLedOn (device : Path) (mode : LedMode) (pause : CulConsumerPause) :
    Follows (talking (.led mode)) (fun _ ℓ => ℓ.link = .shut) (fun _ ℓ => ℓ.link = .shut)
      (setLedOn settings device mode pause) ⟨.shut, false, none⟩ := by
  refine Follows.bind (R := fun _ ℓ => ℓ.link = .shut) (.catching
    (follows_setLedAfterVerification device settings.baudrate mode) (fun _ _ h => h)
    (fun _ _ _ h => h) fun _ _ _ h => h) fun result ℓ h => ?_
  cases result with
  | ok version => exact .pure h
  | error err => exact .raise h

theorem talks_led (mode : LedMode) : Follows (talking (.led mode)) (fun _ ℓ => ℓ.link = .shut)
    (fun _ ℓ => ℓ.link = .shut) (setLed fuel settings mode) ⟨.shut, false, none⟩ := by
  refine Follows.attempt_bind (follows_exclusive fuel settings fun pause => ?_)
    (fun _ _ h => .pure h) fun _ _ h => follows_report h
  refine (Follows.raisingWith ((silent (configuredApplicationEndpoint_uses settings none)
    (by decide)).conseq (fun _ _ h => h) fun _ _ h => by rw [h])).bind ?_
  rintro ⟨application, device⟩ _ rfl
  refine (Follows.raisingWith (follows_setLedOn settings device mode pause)).bind
    fun version ℓ h => ?_
  exact ((closes_save settings _ _ pause).bind fun _ => .pure _) ℓ h

theorem closes_waitForApplicationVersion (topology : String) (expected : Option String)
    (timeout : ℚ) (baudrate : ℕ) (qemu allow : Bool) : Closes errand
      (waitForApplicationVersion fuel topology expected timeout baudrate qemu allow) := by
  have hclock : Closes errand (monotonic : Program ℚ) :=
    Uses.closes (perform_uses rfl (List.mem_singleton_self _)) (by decide)
  have hsleep : ∀ deadline, Closes errand (sleepUntil deadline) := fun deadline =>
    Uses.closes (sleepUntil_uses deadline) (by decide)
  refine hclock.bind fun start => (Closes.loop (fun lastError => ?_) fuel _).bind fun found => ?_
  · refine hclock.bind fun now => ?_
    split_ifs
    · refine (Uses.closes (findApplication_uses topology expected qemu allow) (by decide)).bind
        fun x => ?_
      obtain ⟨target, lastError⟩ := x
      cases target with
      | none => exact (hsleep _).bind fun _ => .pure _
      | some target =>
        refine (closes_readVersionOnce target.2 baudrate).attempt.bind fun version => ?_
        cases version with
        | ok version => exact .pure _
        | error err => exact (hsleep _).bind fun _ => .pure _
    · exact .pure _
  · cases found with
    | ok verified => exact .pure _
    | error lastError =>
      exact (Uses.closes (waitHint_uses (applicationTargets_uses
        (List.mem_singleton_self _)) _ _ _ _) (by decide)).bind fun _ => .raise _

/-- When the record of the handoff is stored, it is the last one of the session. -/
theorem follows_storeHandoffPending (plan : FlashPlan) (hℓ : ℓ = ⟨.verified, false, none⟩) :
    Follows (talking .flash) (fun _ ℓ' => ∃ file : StateFile,
        file.binding = some .handoffPending ∧ ℓ' = ⟨.verified, false, some file⟩)
      (fun _ ℓ' => ℓ' = ℓ) (storeHandoffPending settings plan) ℓ := by
  subst hℓ
  refine Follows.step trivial fun now _ => ?_
  refine Follows.bind (R := fun file ℓ => ℓ = ⟨.verified, false, none⟩ ∧
    file.binding = some .handoffPending) (.ofExcept (fun file hfile => ⟨rfl, binding_encode hfile⟩)
    fun _ _ => rfl) ?_
  rintro file _ ⟨rfl, hbinding⟩
  refine Follows.step trivial fun (outcome : SaveOutcome) _ => ?_
  cases outcome with
  | saved => exact .pure ⟨file, hbinding, rfl⟩
  | failed replaced e => exact .raise rfl

theorem follows_handoffAttempt (hℓ : ℓ.Resting) (plan : FlashPlan) (application : UsbTarget)
    (pause : CulConsumerPause) : Follows (talking .flash) (fun _ ℓ => ℓ.link = .shut)
      (fun e ℓ => ℓ.link = .shut ∧ (e.2.2 = false → ℓ.ordered = false))
      (handoffAttempt settings plan application pause) ℓ := by
  obtain ⟨_, _, r⟩ := ℓ
  obtain ⟨rfl, rfl⟩ := hℓ
  refine (Follows.raisingWith ((silent (configuredApplicationEndpoint_uses settings _)
    (by decide)).conseq (fun _ _ h => h) fun _ _ h => ?_)).bind ?_
  · rw [h]
    exact ⟨rfl, fun _ => rfl⟩
  rintro ⟨direct, device⟩ _ rfl
  refine (CulSerial.follows_sessionWith (E := fun s b => s.2 = false → b = false)
    (Q := fun x _ => x.2.2 = true) (fun _ => rfl) (fun x _ hx hs => ?_) ?_).conseq
    (fun _ _ h => h.1) fun _ _ h => h
  · rw [hx] at hs
    cases hs
  · have hnone : ∀ (e : Exn) (ℓ : Talk), ℓ = ⟨.verified, false, none⟩ →
        ℓ.link ≠ .shut ∧ (false = false → ℓ.ordered = false) := by
      rintro _ _ rfl
      exact ⟨by simp, fun _ => rfl⟩
    refine (Follows.raisingWith (CulSerial.follows_version.conseq (fun _ _ h => h)
      fun _ _ h => ?_)).bind ?_
    · rw [h]
      exact ⟨by simp, fun _ => rfl⟩
    rintro before _ rfl
    refine (Follows.raisingWith ((silent (reportOnly_uses _ _)
      (by decide)).conseq (fun _ _ h => h) hnone)).bind ?_
    rintro _ _ rfl
    refine (Follows.raisingWith ((follows_storeHandoffPending settings plan rfl).conseq
      (fun _ _ h => h) hnone)).bind ?_
    rintro _ _ ⟨file, hbinding, rfl⟩
    have hcommand : Follows (talking .flash) (fun _ ℓ => ℓ = ⟨.spent, true, some file⟩)
        (fun _ ℓ => ℓ = ⟨.spent, true, some file⟩) CulSerial.enterBootloader
        ⟨.verified, false, some file⟩ :=
      Follows.step ⟨rfl, rfl, rfl, hbinding⟩ fun (answer : Except Exn Unit) _ =>
        .ofExcept (fun _ _ => rfl) fun _ _ => rfl
    refine (Follows.raisingWith (hcommand.conseq (fun _ _ h => h) fun _ _ h => ?_)).bind ?_
    · rw [h]
      exact ⟨by simp, by simp⟩
    · rintro _ _ rfl
      exact .pure ⟨by simp, rfl⟩

theorem follows_enterBootloader (plan : FlashPlan) (pause : CulConsumerPause) :
    Follows (talking .flash) (fun _ ℓ => ℓ.link = .shut) (fun _ ℓ => ℓ.link = .shut)
      (enterBootloader settings plan pause) ⟨.shut, false, none⟩ := by
  unfold enterBootloader
  split
  · exact .raise rfl
  · refine (Follows.raisingWith ((silent (reportOnly_uses _ _)
      (by decide)).conseq (fun _ _ h => h) fun _ _ h => by rw [h])).bind ?_
    rintro _ _ rfl
    refine Follows.bind (R := fun _ ℓ => ℓ.link = .shut)
      (.retry (K := fun _ ℓ => ℓ.Resting) (fun _ _ _ hℓ => follows_sleep hℓ) ?_ _ _ ⟨rfl, rfl⟩)
      fun x ℓ hℓ => ?_
    · intro pause ℓ hℓ
      refine (follows_handoffAttempt settings hℓ _ _ pause).attempt_bind (fun x ℓ h => ?_)
        fun e ℓ h => ?_
      · exact .pure ⟨h, fun _ he => by cases he⟩
      · obtain ⟨err, pause, requested⟩ := e
        dsimp only
        split_ifs with hrequested
        · exact .raise h.1
        · exact .pure ⟨h.1, fun _ _ => ⟨h.1, h.2 (by simpa using hrequested)⟩⟩
    · obtain ⟨result, pause⟩ := x
      cases result with
      | ok before => exact .pure hℓ
      | error err => exact .raise hℓ

theorem follows_selectBootloader (plan : FlashPlan) (pause : CulConsumerPause) :
    Follows (talking .flash) (fun _ ℓ => ℓ.link = .shut) (fun _ ℓ => ℓ.link = .shut)
      (selectBootloader fuel settings plan pause) ⟨.shut, false, none⟩ := by
  unfold selectBootloader
  split_ifs
  · split
    · exact .raise rfl
    · refine (follows_enterBootloader settings plan pause).bind fun x ℓ hℓ => ?_
      refine Closes.bind
        ((Uses.closes (settleAfterUsbChange_uses settings _) (by decide)).raisingWith
        _) (fun _ => ?_) ℓ hℓ
      exact ((Uses.closes (waitForBootloader_uses fuel settings _ _ _ _ _) (by decide)).raisingWith
        _).bind fun _ => .pure _
  · exact Uses.closes (selectFromRecovery_uses fuel settings plan pause) (by decide) _ rfl

theorem closes_verifyApplication (topology : String) (expected : Option String)
    (startError : Option Exn) :
    Closes errand (verifyApplication fuel settings topology expected startError) := by
  refine Closes.bind (Closes.catching ?_ _) fun result => ?_
  · refine (Uses.closes (reportOnly_uses _ _) (by decide)).bind fun _ => ?_
    refine (closes_waitForApplicationVersion fuel _ _ _ _ _ _).bind fun x => ?_
    exact (Uses.closes (reportMoved_uses (List.mem_singleton_self _) _ _ _ _) (by decide)).bind
      fun _ => .pure _
  · cases result with
    | ok verified => exact .pure _
    | error err =>
      cases startError with
      | none => exact .raise _
      | some startError => exact .raise _

theorem talks_flash (image : HexImage) (manualRecovery : Option ManualRecoveryTarget) :
    Follows (talking .flash) (fun _ ℓ => ℓ.link = .shut) (fun _ ℓ => ℓ.link = .shut)
      (flash fuel settings image manualRecovery) ⟨.shut, false, none⟩ := by
  refine ((silent (prepare_uses settings image manualRecovery) (by decide)).conseq (fun _ _ h => h)
    fun _ _ h => by rw [h]).bind ?_
  rintro ⟨image, plan⟩ _ rfl
  refine (follows_temporarilyStop fuel rfl fun pause => ?_).bind fun _ _ h => .pure h
  refine (follows_selectBootloader fuel settings plan pause).bind fun x ℓ hℓ => ?_
  refine Closes.bind ((Uses.closes (programBootloader_uses fuel settings plan image _)
    (by decide)).raisingWith _) (fun startError => ?_) ℓ hℓ
  refine ((closes_verifyApplication fuel settings _ _ startError).raisingWith _).bind
    fun found => ?_
  exact Uses.closes (recordApplication_uses fuel settings _ _ _ _ _) (by decide)

end Flasher
end Cul868Flasher
