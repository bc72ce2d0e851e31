import Cul868Flasher.Effects.Lowering
import Cul868Flasher.Flasher.Authorization
import Cul868Flasher.Flasher.Consumers
import Cul868Flasher.Flasher.Pausing
import Cul868Flasher.Flasher.Phases
import Cul868Flasher.Flasher.Revalidation
import Cul868Flasher.Flasher.StopPhase

/-!
# How long an operation pauses

An operation has a fixed number of waits, and for every consumer that it stops one
wait until the consumer has stopped and at most three until it runs again. Only the
pauses are counted here, not the time that the calls between them take.
-/

namespace Cul868Flasher
open Python Effects

variable {α β ε σ : Type}

/-! ## Requests to stop -/

/-- A request to stop an add-on. -/
def isStop : World.Op → Bool
  | .request .post path => "/stop".toList.isSuffixOf path.toList
  | _ => false

def stops (t : Trace World) : ℕ := t.countP fun e => isStop e.op

@[simp] theorem stops_append {t u : Trace World} : stops (t ++ u) = stops t + stops u :=
  List.countP_append

@[simp] theorem slept_append {t u : Trace World} : slept (t ++ u) = slept t + slept u := cost_append

theorem isStop_stopPath (slug : String) :
    isStop (.request .post s!"/addons/{slug}/stop") = true := by
  have hpath : (s!"/addons/{slug}/stop").toList =
      ("/addons/" ++ slug).toList ++ "/stop".toList := String.toList_append
  simp only [isStop, hpath]
  exact List.isSuffixOf_iff_suffix.mpr (List.suffix_append _ _)

/-! ## Pauses against stopped consumers -/

/-- The pauses of a call, less what a stopped consumer may cost. -/
def netSeconds (o : World.Op) : ℚ := sleepSeconds o - if isStop o then 125 else 0

/-- On an honest clock, no run of `p` asks to sleep for more than `b` seconds and 125
seconds for each consumer that it stops. -/
abbrev Pausing (b : ℚ) (p : Prog World ε α) : Prop := Costs SupervisorClient.clock netSeconds b p

theorem cost_netSeconds (t : Trace World) :
    cost (I := World) netSeconds t = slept t - 125 * stops t := by
  induction t with
  | nil => simp [slept, stops]
  | cons e t ih =>
    have hstops : stops (e :: t) = stops t + if isStop e.op then 1 else 0 := List.countP_cons
    rw [cost_cons, ih, hstops, slept, slept, cost_cons, netSeconds]
    split_ifs <;> push_cast <;> ring

theorem Sleeps.pausing {b : ℚ} {p : Prog World ε α} (hp : Sleeps b p) : Pausing b p := by
  intro now t r h ht
  have hslept : slept t ≤ b := hp now t r h ht
  rw [cost_netSeconds]
  linarith

namespace SupervisorClient
variable (fuel : ℕ)

/-! ## Restoring -/

theorem restoreAttempt_sleeps (slug : String) : Sleeps (61 / 2) (restoreAttempt fuel slug) := by
  refine ((addonState_uses slug).sleeps (by decide)).after (by norm_num) fun state => ?_
  split_ifs
  · exact ((startAddon_uses slug).sleeps (by decide)).after (by norm_num) fun _ =>
      waitForState_sleeps fuel slug "started"
  · exact waitForState_sleeps fuel slug "started"

/-- Three attempts, with one and two seconds between them. -/
theorem restoreAddon_sleeps (slug : String) : Sleeps (189 / 2) (restoreAddon fuel slug) := by
  have hattempts : Sleeps (189 / 2) (Prog.retry (fun attempt => (sleep attempt : Program Unit))
      (fun _ => do return (← (restoreAttempt fuel slug).catching Exn.isSupervisorError, ()))
      (restoreAttempts - 1) 1 ()) := by
    refine (Costs.retry (b := 61 / 2) (c := fun k => (k : ℚ)) (fun k => Nat.cast_nonneg k)
      (by norm_num) (fun k => sleeps_sleep (Nat.cast_nonneg k))
      (fun _ => ((restoreAttempt_sleeps fuel slug).catching _).before fun _ => .pure _ le_rfl)
      _ _ _).mono ?_
    norm_num [restoreAttempts, Finset.sum_range_succ]
  refine hattempts.before fun x => ?_
  obtain ⟨restored | e, _⟩ := x
  · exact .pure _ le_rfl
  · exact .pure _ le_rfl

theorem restoreAddons_sleeps (slugs : List String) :
    Sleeps (189 / 2 * slugs.length) (restoreAddons fuel slugs) := by
  induction slugs with
  | nil => exact .pure _ (by simp)
  | cons slug rest ih =>
    have hrest : (0 : ℚ) ≤ 189 / 2 * rest.length := by positivity
    refine ((restoreAddon_sleeps fuel slug).bind hrest fun _ =>
      ih.before fun _ => .pure _ le_rfl).mono ?_
    rw [List.length_cons]
    push_cast
    linarith

theorem restore_sleeps (slugs : List String) :
    Sleeps (189 / 2 * slugs.length) (restore fuel slugs) := by
  refine (restoreAddons_sleeps fuel slugs.reverse).mono ?_
  rw [List.length_reverse]

/-- The pause that the block leaves behind. -/
def pauseAfter : Except (Exn × CulConsumerPause) (α × CulConsumerPause) → CulConsumerPause
  | .error x => x.2
  | .ok x => x.2

theorem resumeConsumers_sleeps (stopped : List String)
    (x : Except (Exn × CulConsumerPause) (α × CulConsumerPause)) :
    Sleeps (189 / 2 * (pauseAfter x).addons.length) (resumeConsumers fuel stopped x) := by
  have hlength (pause : CulConsumerPause) :
      (189 / 2 * pause.addonsToRestore.length : ℚ) ≤ 189 / 2 * pause.addons.length := by
    have hle : (pause.addonsToRestore.length : ℚ) ≤ pause.addons.length := by
      exact_mod_cast List.length_filter_le _ _
    linarith
  have hpos : (0 : ℚ) ≤ 189 / 2 * (pauseAfter x).addons.length := by positivity
  unfold resumeConsumers
  split
  · split_ifs
    · exact ((restore_sleeps fuel _).mono (hlength _)).before fun _ => .raise _ le_rfl
    · exact .raise _ hpos
    · exact .raise _ hpos
  · refine ((restore_sleeps fuel _).mono (hlength _)).before fun failures => ?_
    split_ifs
    · exact .raise _ le_rfl
    · exact .pure _ le_rfl

/-! ## Stopping -/

section
variable {fuel} {now : ℚ} {t : Trace World}

/-- What the loop has on its list it has asked to stop. -/
theorem stopAddons_slept {stopped slugs : List String}
    {r : Outcome (Exn × List String) (List String)} (h : Run (stopAddons fuel stopped slugs) t r)
    (ht : clock.Trusted now t) :
    slept t ≤ 61 / 2 * stops t ∧ ∀ result, (r = .returned result ∨ ∃ e, r = .raised (e, result)) →
      result.length ≤ stopped.length + stops t := by
  induction slugs generalizing stopped now t with
  | nil =>
    obtain ⟨rfl, hr⟩ := Run.pure_iff.mp h
    refine ⟨by simp [slept, stops], fun result hresult => ?_⟩
    rcases hr with rfl | rfl
    · obtain heq | ⟨e, heq⟩ := hresult
      · cases heq
        exact Nat.le_add_right _ _
      · cases heq
    · obtain heq | ⟨e, heq⟩ := hresult <;> cases heq
  | cons slug rest ih =>
    have hask : Sleeps 0 ((stopAddon slug).raisingWith stopped) :=
      ((stopAddon_uses slug).sleeps (by decide)).raisingWith stopped
    have hwait : Sleeps (61 / 2)
        ((waitForState fuel slug "stopped").raisingWith (stopped ++ [slug])) :=
      (waitForState_sleeps fuel slug "stopped").raisingWith _
    rcases Run.bind_inv h with ⟨_, t₁, t₂, rfl, h₁, h₂⟩ | ⟨e, rfl, h₁⟩ | ⟨rfl, h₁⟩
    · obtain ⟨ht₁, ht₂⟩ := Discipline.trusted_append.mp ht
      have hasked : slept t₁ ≤ 0 := hask _ _ _ h₁ ht₁
      have hcounted : stops t₁ = 1 := by
        obtain ⟨outcome, rfl⟩ := stopAddon_returned (Run.raisingWith_returned.mp h₁)
        exact List.countP_singleton.trans (if_pos (isStop_stopPath slug))
      rcases Run.bind_inv h₂ with ⟨_, t₃, t₄, rfl, h₃, h₄⟩ | ⟨e, rfl, h₃⟩ | ⟨rfl, h₃⟩
      · obtain ⟨ht₃, ht₄⟩ := Discipline.trusted_append.mp ht₂
        have hwaited : slept t₃ ≤ 61 / 2 := hwait _ _ _ h₃ ht₃
        obtain ⟨hslept, hlisted⟩ := ih h₄ ht₄
        refine ⟨?_, fun result hresult => ?_⟩
        · simp only [slept_append, stops_append, hcounted]
          push_cast
          linarith
        · have hlength := hlisted result hresult
          rw [List.length_append, List.length_singleton] at hlength
          simp only [stops_append, hcounted]
          omega
      · have hwaited : slept t₂ ≤ 61 / 2 := hwait _ _ _ h₃ ht₂
        obtain ⟨err, listed⟩ := e
        obtain ⟨rfl, -⟩ := raisingWith_raised h₃
        refine ⟨?_, fun result hresult => ?_⟩
        · simp only [slept_append, stops_append, hcounted]
          push_cast
          linarith
        · obtain heq | ⟨_, heq⟩ := hresult <;> cases heq
          simp only [stops_append, hcounted, List.length_append, List.length_singleton]
          omega
      · have hwaited : slept t₂ ≤ 61 / 2 := hwait _ _ _ h₃ ht₂
        refine ⟨?_, fun result hresult => ?_⟩
        · simp only [slept_append, stops_append, hcounted]
          push_cast
          linarith
        · obtain heq | ⟨_, heq⟩ := hresult <;> cases heq
    -- The consumer whose request fails is not on the list.
    · have hasked : slept t ≤ 0 := hask _ _ _ h₁ ht
      obtain ⟨err, listed⟩ := e
      obtain ⟨rfl, -⟩ := raisingWith_raised h₁
      refine ⟨by linarith, fun result hresult => ?_⟩
      obtain heq | ⟨_, heq⟩ := hresult <;> cases heq
      exact Nat.le_add_right _ _
    · have hasked : slept t ≤ 0 := hask _ _ _ h₁ ht
      refine ⟨by linarith, fun result hresult => ?_⟩
      obtain heq | ⟨_, heq⟩ := hresult <;> cases heq

theorem stopConsumers_slept {matched : CulConsumerPause} {r : Outcome Exn (List String)}
    (h : Run (stopConsumers fuel matched) t r) (ht : clock.Trusted now t) :
    slept t ≤ 125 * stops t ∧ ∀ stopped, r = .returned stopped →
      slept t ≤ 61 / 2 * stops t ∧ stopped.length ≤ stops t := by
  rcases Run.bind_inv h with ⟨result, t₁, t₂, rfl, h₁, h₂⟩ | ⟨e, rfl, h₁⟩ | ⟨rfl, h₁⟩
  · obtain ⟨ht₁, ht₂⟩ := Discipline.trusted_append.mp ht
    rcases Run.attempt_returned_iff.mp h₁ with ⟨stopped, rfl, hall⟩ | ⟨⟨err, stopped⟩, rfl, hpart⟩
    · obtain ⟨hslept, hlength⟩ := stopAddons_slept hall ht₁
      obtain ⟨rfl, hr⟩ := Run.pure_iff.mp h₂
      rw [List.append_nil]
      refine ⟨by linarith, fun result hresult => ⟨hslept, ?_⟩⟩
      obtain rfl | rfl := hr
      · cases hresult
        simpa using hlength stopped (.inl rfl)
      · cases hresult
    · obtain ⟨hslept, hlength⟩ := stopAddons_slept hpart ht₁
      have hlisted : (stopped.length : ℚ) ≤ stops t₁ := by
        exact_mod_cast (hlength stopped (.inr ⟨err, rfl⟩)).trans (by simp)
      have hrestored : slept t₂ ≤ 189 / 2 * stopped.length :=
        (restore_sleeps fuel stopped).before (fun _ => .raise _ le_rfl) _ _ _ h₂ ht₂
      refine ⟨?_, ?_⟩
      · simp only [slept_append, stops_append]
        push_cast
        linarith
      · rintro result rfl
        obtain ⟨_, _, _, rfl, -, hraised⟩ := Run.bind_returned.mp h₂
        exact absurd hraised Run.raise_returned
  · exact absurd h₁ Run.attempt_raised_not
  · obtain ⟨_, hr, -⟩ | ⟨_, hr, -⟩ | ⟨-, hcut⟩ := Run.attempt_inv h₁
    · cases hr
    · cases hr
    obtain ⟨hslept, -⟩ := stopAddons_slept hcut ht
    exact ⟨by linarith, fun _ hresult => by cases hresult⟩

theorem pauseConsumers_slept {device : Path} {additional : List String}
    {r : Outcome Exn (CulConsumerPause × List String)}
    (h : Run (pauseConsumers fuel device additional) t r) (ht : clock.Trusted now t) :
    slept t ≤ 125 * stops t ∧ ∀ paused, r = .returned paused →
      slept t ≤ 61 / 2 * stops t ∧ paused.1.addons.length ≤ stops t := by
  have hdiscover := (runningCulConsumersUsingDevice_uses device additional).sleeps (by decide)
  rcases Run.bind_inv h with ⟨matched, t₁, t₂, rfl, h₁, h₂⟩ | ⟨e, rfl, h₁⟩ | ⟨rfl, h₁⟩
  · obtain ⟨ht₁, ht₂⟩ := Discipline.trusted_append.mp ht
    have hdiscovered : slept t₁ ≤ 0 := hdiscover _ _ _ h₁ ht₁
    simp only [slept_append, stops_append]
    push_cast
    rcases Run.bind_inv h₂ with ⟨stopped, t₃, t₄, rfl, h₃, h₄⟩ | ⟨e, rfl, h₃⟩ | ⟨rfl, h₃⟩
    · obtain ⟨rfl, hr⟩ := Run.pure_iff.mp h₄
      rw [List.append_nil] at *
      obtain ⟨hslept, hreturned⟩ := stopConsumers_slept h₃ ht₂
      refine ⟨by linarith, ?_⟩
      rintro paused rfl
      obtain ⟨hless, hlength⟩ := hreturned stopped rfl
      obtain hpaused | hcut := hr
      · cases hpaused
        have haddons := (pauseConsumers_returned h).2.2
        rw [haddons]
        exact ⟨by linarith, by dsimp only; omega⟩
      · cases hcut
    · obtain ⟨hslept, -⟩ := stopConsumers_slept h₃ ht₂
      exact ⟨by linarith, fun _ hresult => by cases hresult⟩
    · obtain ⟨hslept, -⟩ := stopConsumers_slept h₃ ht₂
      exact ⟨by linarith, fun _ hresult => by cases hresult⟩
  · have hdiscovered : slept t ≤ 0 := hdiscover _ _ _ h₁ ht
    exact ⟨by linarith, fun _ hresult => by cases hresult⟩
  · have hdiscovered : slept t ≤ 0 := hdiscover _ _ _ h₁ ht
    exact ⟨by linarith, fun _ hresult => by cases hresult⟩

end

/-! ## The paused section -/

/-- However the block ends, it leaves a pause of the same consumers. -/
def Leaves (pause : CulConsumerPause)
    (block : Prog World (Exn × CulConsumerPause) (α × CulConsumerPause)) : Prop :=
  ∀ t x, Run (block.attempt : Program _) t (.returned x) → (pauseAfter x).addons = pause.addons

theorem Leaves.done {pause : CulConsumerPause} (a : α) :
    Leaves pause (pure (a, pause) : Prog World (Exn × CulConsumerPause) _) := by
  intro t x h
  rcases Run.attempt_returned_iff.mp h with ⟨_, rfl, hreturned⟩ | ⟨_, rfl, hraised⟩
  · rw [(Run.pure_returned.mp hreturned).2]
    rfl
  · obtain hr | hr := (Run.pure_iff.mp hraised).2 <;> cases hr

theorem Leaves.told {pause : CulConsumerPause} {p : Program β}
    {f : β → Prog World (Exn × CulConsumerPause) (α × CulConsumerPause)}
    (hf : ∀ b, Leaves pause (f b)) : Leaves pause (p.raisingWith pause >>= f) := by
  intro t x h
  rcases Run.attempt_returned_iff.mp h with ⟨_, rfl, hreturned⟩ | ⟨_, rfl, hraised⟩
  · obtain ⟨b, _, _, -, -, h₂⟩ := Run.bind_returned.mp hreturned
    exact hf b _ _ (Run.attempt_returned h₂)
  · rcases Run.bind_inv hraised with ⟨b, _, _, -, -, h₂⟩ | ⟨⟨e, left⟩, heq, h₁⟩ | ⟨hc, -⟩
    · exact hf b _ _ (Run.attempt_raised h₂)
    · cases heq
      rw [pauseAfter, (raisingWith_raised h₁).1]
    · cases hc

theorem temporarilyStop_pausing {b : ℚ} (hb : 0 ≤ b) (device : Path) (additional : List String)
    {block : CulConsumerPause → Prog World (Exn × CulConsumerPause) (α × CulConsumerPause)}
    (hblock : ∀ pause, Sleeps b (block pause)) (hleaves : ∀ pause, Leaves pause (block pause)) :
    Pausing b (temporarilyStopCulConsumers fuel device additional block) := by
  intro now t r h ht
  rw [cost_netSeconds]
  rcases Run.bind_inv h with ⟨⟨pause, stopped⟩, t₁, t₂, rfl, h₁, h₂⟩ | ⟨e, rfl, h₁⟩ | ⟨rfl, h₁⟩
  · obtain ⟨ht₁, ht₂⟩ := Discipline.trusted_append.mp ht
    obtain ⟨hpaused, hlength⟩ := (pauseConsumers_slept h₁ ht₁).2 _ rfl
    have haddons : (pause.addons.length : ℚ) ≤ stops t₁ := by exact_mod_cast hlength
    simp only [slept_append, stops_append]
    push_cast
    rcases Run.bind_inv h₂ with ⟨x, t₃, t₄, rfl, h₃, h₄⟩ | ⟨e, rfl, h₃⟩ | ⟨rfl, h₃⟩
    · obtain ⟨ht₃, ht₄⟩ := Discipline.trusted_append.mp ht₂
      have hrun : slept t₃ ≤ b := (hblock pause).attempt _ _ _ h₃ ht₃
      have hresumed : slept t₄ ≤ 189 / 2 * (pauseAfter x).addons.length :=
        resumeConsumers_sleeps fuel stopped x _ _ _ h₄ ht₄
      rw [hleaves pause _ _ h₃] at hresumed
      simp only [slept_append, stops_append]
      push_cast
      linarith
    · have hrun : slept t₂ ≤ b := (hblock pause).attempt _ _ _ h₃ ht₂
      linarith
    · have hrun : slept t₂ ≤ b := (hblock pause).attempt _ _ _ h₃ ht₂
      linarith
  · linarith [(pauseConsumers_slept h₁ ht).1]
  · linarith [(pauseConsumers_slept h₁ ht).1]

end SupervisorClient

namespace Flasher
open SupervisorClient

/-! ## The operations that read from the application -/

variable (fuel : ℕ) (settings : Settings)

theorem retry_sleeps {δ : Type} {body : σ → Prog World ε (Except δ α × σ)}
    (hbody : ∀ s, Sleeps 0 (body s)) (s : σ) :
    Sleeps 2
      (Prog.retry (fun _ => sleep versionRetrySeconds) body (versionReadAttempts - 1) 1 s) := by
  refine (Costs.retry (b := 0) (c := fun _ => 1) (fun _ => zero_le_one) le_rfl
    (fun _ => sleeps_sleep zero_le_one) hbody _ _ _).mono ?_
  norm_num [versionReadAttempts, Finset.sum_range_succ]

theorem readVersion_sleeps (device : Path) (baudrate : ℕ) :
    Sleeps 2 (readVersion device baudrate) := by
  refine (retry_sleeps (fun _ => ?_) ()).before fun x => ?_
  · exact ((readVersionOnce_uses (by decide) device baudrate : Uses [.session] _).sleeps
      (by decide)).attempt.before fun _ => .pure _ le_rfl
  · obtain ⟨result, _⟩ := x
    cases result with
    | ok version => exact .pure _ le_rfl
    | error err => exact .raise _ le_rfl

theorem setLedAfterVerification_sleeps (device : Path) (baudrate : ℕ) (mode : LedMode) :
    Sleeps 2 (setLedAfterVerification device baudrate mode) := by
  refine (retry_sleeps (fun _ => ?_) ()).before fun x => ?_
  · exact ((setLedPass_uses device baudrate mode).sleeps (by decide)).before fun _ => .pure _ le_rfl
  · obtain ⟨result, _⟩ := x
    cases result with
    | ok version => exact .pure _ le_rfl
    | error err => exact .raise _ le_rfl

theorem save_sleeps (device : KnownDevice) : Sleeps 0 (DeviceStateStore.save device) :=
  (save_uses rfl (List.mem_singleton_self _)).sleeps (by simp)

/-- Nothing pauses before the version is read. -/
theorem endpoint_sleeps {pause : CulConsumerPause} {b : ℚ} (hb : 0 ≤ b)
    {f : UsbTarget × Path → Paused α} (hf : ∀ x, Sleeps b (f x)) :
    Sleeps b ((configuredApplicationEndpoint settings none).raisingWith pause >>= f) :=
  (((configuredApplicationEndpoint_uses settings none).sleeps (by decide)).raisingWith
    pause).after hb hf

theorem saved_sleeps {pause : CulConsumerPause} (application : UsbTarget) (version : String)
    (x : α) : Sleeps 0 ((DeviceStateStore.save
      (verifiedApplication settings application version)).raisingWith pause >>= fun _ =>
        (pure x : Paused α)) :=
  ((save_sleeps _).raisingWith pause).before fun _ => .pure _ le_rfl

theorem verifyPaused_sleeps (pause : CulConsumerPause) : Sleeps 2 (verifyPaused settings pause) :=
  endpoint_sleeps settings (by norm_num) fun _ =>
    ((readVersion_sleeps _ _).raisingWith pause).before fun _ => saved_sleeps settings _ _ _

theorem setLedPaused_sleeps (mode : LedMode) (pause : CulConsumerPause) :
    Sleeps 2 (setLedPaused settings mode pause) := by
  refine endpoint_sleeps settings (by norm_num) fun x => ?_
  have hled : Sleeps 2 (setLedOn settings x.2 mode pause) := by
    refine ((setLedAfterVerification_sleeps _ _ mode).catching _).before fun result => ?_
    cases result with
    | ok version => exact .pure _ le_rfl
    | error err => exact .raise _ le_rfl
  exact (hled.raisingWith pause).before fun _ => saved_sleeps settings _ _ _

theorem diagnosticsPaused_sleeps (pause : CulConsumerPause) :
    Sleeps 2 (diagnosticsPaused settings pause) := by
  refine endpoint_sleeps settings (by norm_num) fun x => ?_
  have hversion : Sleeps 2 (readVersionOn settings x.2 pause) := by
    refine ((readVersion_sleeps _ _).catching _).before fun result => ?_
    cases result with
    | ok version => exact .pure _ le_rfl
    | error err => exact .raise _ le_rfl
  refine (hversion.raisingWith pause).before fun version => ?_
  exact (((readTelemetry_uses _ _).sleeps (by decide)).raisingWith pause).after le_rfl fun _ =>
    saved_sleeps settings _ _ _

/-- The body that the three operations share, and the message around it. -/
theorem exclusive_pausing {block : CulConsumerPause → Paused (α × CulConsumerPause)} {f : α → β}
    (hblock : ∀ pause, Sleeps 2 (block pause)) (hleaves : ∀ pause, Leaves pause (block pause))
    {g : Except Exn β → Program β} (hg : ∀ x, Sleeps 0 (g x)) :
    Pausing 2 ((do
      let _ ← configuredApplicationEndpoint settings none
      let (result, _) ← temporarilyStopCulConsumers fuel settings.device
        settings.additionalCulAddons block
      return f result : Program β).attempt >>= g) := by
  have hendpoint := ((configuredApplicationEndpoint_uses settings none).sleeps (by decide)).pausing
  have hbody := temporarilyStop_pausing fuel (b := 2) (by norm_num) settings.device
    settings.additionalCulAddons hblock hleaves
  exact (hendpoint.after (by norm_num) fun _ => hbody.before fun _ =>
    .pure _ le_rfl).attempt.before fun x => (hg x).pausing

theorem raised_sleeps {c : Bool} {e e' : Exn} :
    Sleeps 0 (if c then .raise e else .raise e' : Program α) := by
  split_ifs
  · exact .raise _ le_rfl
  · exact .raise _ le_rfl

theorem verifyRunningApplication_pausing :
    Pausing 2 (verifyRunningApplication fuel settings) := by
  refine exclusive_pausing fuel settings (f := id) (verifyPaused_sleeps settings)
    (fun pause => .told fun _ => .told fun _ => .told fun _ => .done _) fun x => ?_
  cases x with
  | ok version => exact .pure _ le_rfl
  | error err => exact raised_sleeps

theorem setLed_pausing (mode : LedMode) : Pausing 2 (setLed fuel settings mode) := by
  refine exclusive_pausing fuel settings (f := fun version => (⟨mode, version⟩ : LedResult))
    (setLedPaused_sleeps settings mode)
    (fun pause => .told fun _ => .told fun _ => .told fun _ => .done _) fun x => ?_
  cases x with
  | ok result => exact .pure _ le_rfl
  | error err => exact raised_sleeps

theorem diagnostics_pausing : Pausing 2 (diagnostics fuel settings) := by
  refine exclusive_pausing fuel settings (f := id) (diagnosticsPaused_sleeps settings)
    (fun pause => .told fun _ => .told fun _ => .told fun _ => .told fun _ => .done _) fun x => ?_
  cases x with
  | ok result => exact .pure _ le_rfl
  | error err => exact raised_sleeps

/-! ## The flash -/

theorem report_sleeps (percent : ℕ) (message : String) :
    Sleeps 0 (report percent message : Program Unit) :=
  (reportOnly_uses percent message).sleeps (by decide)

theorem enterBootloader_sleeps (plan : FlashPlan) (pause : CulConsumerPause) :
    Sleeps 2 (enterBootloader settings plan pause) := by
  unfold enterBootloader
  split
  · exact .raise _ (by norm_num)
  · refine ((report_sleeps _ _).raisingWith pause).after (by norm_num) fun _ => ?_
    refine (retry_sleeps (fun pause => ?_) pause).before fun x => ?_
    · refine ((handoffAttempt_uses settings _ _ pause).sleeps (by decide)).attempt.before
        fun result => ?_
      split
      · exact .pure _ le_rfl
      · split_ifs
        · exact .raise _ le_rfl
        · exact .pure _ le_rfl
    · split
      split
      · exact .pure _ le_rfl
      · exact .raise _ le_rfl

theorem settleAfterUsbChange_sleeps (target : String) :
    Sleeps 8 (settleAfterUsbChange settings target) := by
  unfold settleAfterUsbChange
  split
  · exact (report_sleeps _ _).after (by norm_num) fun _ => sleeps_sleep (by norm_num)
  · exact .pure _ (by norm_num)

theorem postDfuTimeout_nonneg : 0 ≤ postDfuTimeout settings := le_max_of_le_right (by decide)

theorem postDfuTimeout_cast_nonneg : (0 : ℚ) ≤ postDfuTimeout settings := by
  exact_mod_cast postDfuTimeout_nonneg settings

section Admitted
variable {settings} (hsettings : settings.Admitted)

include hsettings

theorem bootTimeout_nonneg : (0 : ℚ) ≤ settings.bootTimeout := by
  have hboot := hsettings.bootTimeout.1
  exact_mod_cast (by omega : 0 ≤ settings.bootTimeout)

theorem selectBootloader_sleeps (plan : FlashPlan) (pause : CulConsumerPause) :
    Sleeps (10 + (postDfuTimeout settings + 1 / 4))
      (selectBootloader fuel settings plan pause) := by
  have hpost := postDfuTimeout_nonneg settings
  have hcast := postDfuTimeout_cast_nonneg settings
  have hboot : 0 ≤ settings.bootTimeout := by exact_mod_cast bootTimeout_nonneg hsettings
  have hle : (settings.bootTimeout : ℚ) ≤ postDfuTimeout settings := by
    exact_mod_cast le_max_left _ _
  unfold selectBootloader
  split_ifs
  · split
    · exact .raise _ (by linarith)
    · refine ((enterBootloader_sleeps settings plan pause).bind
        (c := (8 + (postDfuTimeout settings + 1 / 4) : ℚ)) (by linarith) fun x => ?_).mono
          (by linarith)
      refine ((settleAfterUsbChange_sleeps settings _).raisingWith x.2).bind (by linarith)
        fun _ => ?_
      exact ((waitForBootloader_sleeps fuel settings plan.topology _ (some _) hpost _
        _).raisingWith _).before fun _ => .pure _ le_rfl
  · refine ((report_sleeps _ _).raisingWith _).after (by linarith) fun _ => ?_
    refine (((waitForBootloader_sleeps fuel settings plan.topology _ none hboot _
      _).raisingWith _).before fun _ => .pure _ le_rfl).mono ?_
    simp only [Option.getD_none]
    linarith

theorem runDfu_sleeps (topology : String) (expected : Option String) (command : DfuCommand)
    (arguments : List String) :
    Sleeps (settings.bootTimeout + 1 / 4)
      (runDfu fuel settings topology expected command arguments) := by
  have hnonneg := bootTimeout_nonneg hsettings
  have hboot : 0 ≤ settings.bootTimeout := by exact_mod_cast hnonneg
  have hask : Sleeps 0 (perform .dfuAvailable : Program Bool) :=
    Costs.perform le_rfl le_rfl
  refine hask.after (by linarith) fun available => ?_
  split_ifs
  · exact .raise _ (by linarith)
  · refine (waitForBootloader_sleeps fuel settings topology expected none hboot false
      false).before fun bootloader => ?_
    have hrun : Sleeps 0 (perform (.dfu bootloader command arguments) : Program DfuOutcome) :=
      Costs.perform le_rfl le_rfl
    exact hrun.before fun outcome => .ofExcept _ le_rfl

theorem programBootloader_sleeps (plan : FlashPlan) (image : HexImage) (bootloader : UsbTarget) :
    Sleeps (3 * (settings.bootTimeout + 1 / 4) + 8)
      (programBootloader fuel settings plan image bootloader) := by
  have hnonneg := bootTimeout_nonneg hsettings
  have hstore : Sleeps 0 (storeObservedBootloader settings bootloader bootloader.topology) :=
    save_sleeps _
  have hmoved (message : String) : Sleeps 0 (reportMoved plan.topology bootloader.topology 30
      message) := (reportMoved_uses (by decide) _ _ _ _ : Uses [.report] _).sleeps (by decide)
  have hdfu := runDfu_sleeps fuel hsettings bootloader.topology bootloader.usbSerial
  have hstart : Sleeps (settings.bootTimeout + 1 / 4)
      (startApplication fuel settings bootloader.topology bootloader.usbSerial) := by
    refine ((hdfu .start []).catching _).before fun started => ?_
    cases started with
    | ok _ => exact .pure _ le_rfl
    | error err => exact (report_sleeps _ _).before fun _ => .pure _ le_rfl
  refine hstore.after (by linarith) fun _ => (hmoved _).after (by linarith) fun _ =>
    (report_sleeps _ _).after (by linarith) fun _ => ?_
  refine ((hdfu .erase []).bind (c := (2 * (settings.bootTimeout + 1 / 4) + 8 : ℚ)) (by linarith)
    fun _ => (report_sleeps _ _).after (by linarith) fun _ => ?_).mono (by linarith)
  refine ((hdfu .flash _).bind (c := (settings.bootTimeout + 1 / 4 + 8 : ℚ)) (by linarith)
    fun _ => (report_sleeps _ _).after (by linarith) fun _ => ?_).mono (by linarith)
  exact hstart.bind (by norm_num) fun _ =>
    (settleAfterUsbChange_sleeps settings _).before fun _ => .pure _ le_rfl

omit hsettings in
theorem verifyApplication_sleeps (topology : String) (expected : Option String)
    (startError : Option Exn) : Sleeps (postDfuTimeout settings)
      (verifyApplication fuel settings topology expected startError) := by
  have hpost := postDfuTimeout_cast_nonneg settings
  have hawait : Sleeps (postDfuTimeout settings)
      (awaitApplication fuel settings topology expected) := by
    refine (report_sleeps _ _).after hpost fun _ => ?_
    refine (waitForApplicationVersion_sleeps fuel topology expected hpost _ _ _).before fun x => ?_
    exact ((reportMoved_uses (by decide) _ _ _ _ : Uses [.report] _).sleeps (by decide)).before
      fun _ => .pure _ le_rfl
  refine (hawait.catching _).before fun result => ?_
  cases result with
  | ok verified => exact .pure _ le_rfl
  | error err => cases startError <;> exact .raise _ le_rfl

omit hsettings in
theorem recordApplication_sleeps (before : Option String) (application : UsbTarget) (device : Path)
    (after : String) (pause : CulConsumerPause) :
    Sleeps 15 (recordApplication fuel settings before application device after pause) := by
  have hinspect : Sleeps 15 (inspectAliases fuel device) := by
    refine ((waitForSerialByIdAliases_sleeps fuel device).catching _).before fun aliases => ?_
    cases aliases <;> exact .pure _ le_rfl
  have hmigrate : Sleeps 15 (manualSerialByIdMigration fuel settings.device device pause) := by
    unfold manualSerialByIdMigration
    split_ifs
    · exact .pure _ (by norm_num)
    · refine (hinspect.raisingWith pause).before fun (aliases, reason) => ?_
      dsimp only
      split
      · exact .pure _ le_rfl
      · exact ((report_sleeps _ _).raisingWith pause).before fun _ => .pure _ le_rfl
  exact ((save_sleeps _).raisingWith pause).after (by norm_num) fun _ =>
    hmigrate.before fun _ => .pure _ le_rfl

theorem flashPaused_sleeps (plan : FlashPlan) (image : HexImage) (pause : CulConsumerPause) :
    Sleeps (34 + 2 * postDfuTimeout settings + 3 * settings.bootTimeout)
      (flashPaused fuel settings plan image pause) := by
  have hboot := bootTimeout_nonneg hsettings
  have hpost := postDfuTimeout_cast_nonneg settings
  refine ((selectBootloader_sleeps fuel hsettings plan pause).bind
    (c := (3 * (settings.bootTimeout + 1 / 4) + 8 + (postDfuTimeout settings + 15) : ℚ))
    (by linarith) fun x => ?_).mono (by linarith)
  refine ((programBootloader_sleeps fuel hsettings plan image _).raisingWith x.2).bind
    (by linarith) fun startError => ?_
  exact ((verifyApplication_sleeps fuel _ _ startError).raisingWith x.2).bind
    (by norm_num) fun _ => recordApplication_sleeps fuel _ _ _ _ _

end Admitted

theorem flashPaused_leaves (plan : FlashPlan) (image : HexImage) (pause : CulConsumerPause) :
    Leaves pause (flashPaused fuel settings plan image pause) := by
  intro t x h
  have hsteps : Steps settings plan Fresh (flashPaused fuel settings plan image pause) _ _ :=
    flashPaused_steps fuel pause
  have hfresh : Fresh [] := fun _ he => absurd he List.not_mem_nil
  rcases Run.attempt_returned_iff.mp h with ⟨y, rfl, hreturned⟩ | ⟨y, rfl, hraised⟩
  · obtain ⟨-, hret, -⟩ := hsteps [] t _ Guarded.nil hfresh hreturned
    obtain hmigrated | hmigrated := (hret y rfl).1
    · rw [pauseAfter, hmigrated]
      rfl
    · rw [pauseAfter, hmigrated]
      rfl
  · obtain ⟨-, -, hrai⟩ := hsteps [] t _ Guarded.nil hfresh hraised
    obtain ⟨hpause, -⟩ | ⟨-, hpause, -⟩ | ⟨hpause, -⟩ := hrai y rfl
    · rw [pauseAfter, hpause]
    · rw [pauseAfter, hpause]
      rfl
    · rw [pauseAfter, hpause]
      rfl

theorem flash_pausing {settings : Settings} (hsettings : settings.Admitted) (image : HexImage)
    (manualRecovery : Option ManualRecoveryTarget) :
    Pausing (34 + 2 * postDfuTimeout settings + 3 * settings.bootTimeout)
      (flash fuel settings image manualRecovery) := by
  have hpositive : (0 : ℚ) ≤ 34 + 2 * postDfuTimeout settings + 3 * settings.bootTimeout := by
    have hboot := bootTimeout_nonneg hsettings
    have hpost := postDfuTimeout_cast_nonneg settings
    linarith
  refine ((prepare_uses settings image manualRecovery).sleeps (by decide)).pausing.after hpositive
    fun x => ?_
  exact (temporarilyStop_pausing fuel hpositive _ _ (flashPaused_sleeps fuel hsettings x.2 x.1)
    (flashPaused_leaves fuel settings x.2 x.1)).before fun _ => .pure _ le_rfl

end Flasher

/-! ## Every operation -/

/-- However an operation ends and wherever it is cut, its pauses are bounded by its
settings and the number of consumers that it has asked to stop. -/
theorem downtime_bounded {settings : Settings} (hsettings : settings.Admitted) {now : ℚ}
    {t : Trace World} (hclock : SupervisorClient.clock.Trusted now t) :
    (∀ op : SerialOperation, op.Runs settings t → slept t ≤ 2 + 125 * stops t) ∧
      ∀ fuel image manualRecovery r,
        Run (Flasher.flash fuel settings image manualRecovery) t r →
          slept t ≤ 34 + 2 * Flasher.postDfuTimeout settings + 3 * settings.bootTimeout +
            125 * stops t := by
  have hbound {ε α : Type} {b : ℚ} {p : Prog World ε α} {r : Outcome ε α} (hp : Pausing b p)
      (h : Run p t r) : slept t ≤ b + 125 * stops t := by
    have hnet := hp now t r h hclock
    rw [cost_netSeconds] at hnet
    linarith
  refine ⟨fun op hruns => ?_, fun fuel image manualRecovery r h => ?_⟩
  · cases op with
    | verify =>
      obtain ⟨fuel, r, h⟩ := hruns
      exact hbound (Flasher.verifyRunningApplication_pausing fuel settings) h
    | setLed mode =>
      obtain ⟨fuel, r, h⟩ := hruns
      exact hbound (Flasher.setLed_pausing fuel settings mode) h
    | diagnostics =>
      obtain ⟨fuel, r, h⟩ := hruns
      exact hbound (Flasher.diagnostics_pausing fuel settings) h
  · exact hbound (Flasher.flash_pausing fuel hsettings image manualRecovery) h

def pausedSettings : Settings := { PlannedRun.qemuSettings with additionalCulAddons := ["core_a"] }

theorem pausedSettings_admitted : pausedSettings.Admitted :=
  ⟨qemuSettings_device, by decide, by decide⟩

/-- The consumer stops, and never starts again. -/
def pausedScript : Script where
  usb n := .ofDevices [if 25 ≤ n ∧ n < 46 then dfuBootloader "1-1" none
    else cul "1-1" "ttyACM0" none] []
  addons := [.obj [("slug", .str "core_a"), ("state", .str "started")]]

/-- Most of the pauses are those for the consumer. -/
theorem downtime_bounded_paused : ∃ t r,
    Run (Flasher.flash 200 pausedSettings sampleImage none) t r ∧
      stops t = 1 ∧ (t.countP fun e => e.op.kind = .clock) = 199 ∧ slept t = 109 ∧
      slept t ≤ 34 + 2 * Flasher.postDfuTimeout pausedSettings +
        3 * pausedSettings.bootTimeout + 125 * stops t := by
  let run := SupervisorClient.clock.medium.exec (SupervisorClient.tick pausedScript.answer)
    (Flasher.flash 200 pausedSettings sampleImage none) 0 0
  have hstops : stops run.1 = 1 := by decide +kernel
  have hreads : (run.1.countP fun e => e.op.kind = .clock) = 199 := by decide +kernel
  have hslept : slept run.1 = 109 := by decide +kernel
  have hrun : Run (Flasher.flash 200 pausedSettings sampleImage none) run.1 run.2.1 :=
    SupervisorClient.clock.medium.exec_run _ _ 0 0
  have hclock : SupervisorClient.clock.Trusted 0 run.1 :=
    (SupervisorClient.clock.exec_trusted
      (SupervisorClient.tick_trusted pausedScript.answer) _ 0 0).1
  exact ⟨run.1, run.2.1, hrun, hstops, hreads, hslept,
    (downtime_bounded pausedSettings_admitted hclock).2 200 sampleImage none _ hrun⟩

end Cul868Flasher
