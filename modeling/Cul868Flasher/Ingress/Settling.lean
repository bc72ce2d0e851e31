import Cul868Flasher.Flasher.Deadlines
import Cul868Flasher.Ingress.Http
import Cul868Flasher.Ingress.Upload

/-!
# Requests come to an end

The loops behind a request are the copy of an upload, which takes a byte at each
pass, and the polls for the state of a consumer, which the clock ends.
-/

namespace Cul868Flasher
open Python Effects

variable {α : Type} {settings : Settings} {fuel : ℕ} {ℓ : ℚ}

/-! ## The device -/

theorem total_ite {c : Prop} [Decidable c] {p q : Program α} (hp : Total p) (hq : Total q) :
    Total (if c then p else q) := by
  split
  · exact hp
  · exact hq

theorem total_orFlashError {lookup : Program α} {message : Exn → String} (h : Total lookup) :
    Total (Flasher.orFlashError lookup message) := by
  refine (h.catching _).andThen fun found => ?_
  cases found <;> trivial

theorem total_save (device : KnownDevice) : Total (DeviceStateStore.save device) := by
  refine (Total.ofExcept _).andThen fun file => (Total.perform _).andThen fun outcome => ?_
  cases (outcome : SaveOutcome) <;> trivial

namespace CulSerial

theorem total_sessionWith {s : σ} {device : Path} {baudrate : ℕ}
    {block : Prog World (Exn × σ) (α × σ)} (h : Total block) :
    Total (sessionWith s device baudrate block) := by
  have hclose (s : σ) : Total (close.raisingWith s) := Total.raisingWith total_command s
  refine (Total.raisingWith total_command s).andThen fun _ => h.ensuring fun x => ?_
  cases x with
  | ok result => exact hclose _
  | error failure => exact hclose _

end CulSerial

namespace Flasher

theorem total_configuredApplicationEndpoint (expected : Option UsbTarget) :
    Total (configuredApplicationEndpoint settings expected) := by
  refine (total_orFlashError total_usb).andThen fun configured => ?_
  split
  · trivial
  · refine (total_orFlashError total_usb).andThen fun device => ?_
    cases device with
    | none => trivial
    | some device =>
      refine (total_orFlashError total_usb).andThen fun direct => ?_
      split
      · trivial
      · split <;> trivial

theorem total_parseHexFile (path : Path) : Total (parseHexFile path) := by
  refine (Total.perform _).andThen fun size => ?_
  cases (size : Option ℕ) with
  | none => trivial
  | some size =>
    dsimp only
    split_ifs
    · trivial
    · refine (Total.perform _).andThen fun source => ?_
      cases (source : Option (List UInt8)) with
      | none => trivial
      | some source =>
        dsimp only
        split_ifs
        · trivial
        · exact .ofExcept _

theorem total_singleUnpairedRecoveryTarget : Total singleUnpairedRecoveryTarget := by
  refine (total_orFlashError total_usb).andThen fun bootloaders => ?_
  match bootloaders with
  | [] => trivial
  | [target] => exact (Total.ofExcept _).andThen fun _ => trivial
  | _ :: _ :: _ => trivial

theorem total_manualPlan (confirmed : ManualRecoveryTarget) : Total (manualPlan confirmed) := by
  refine Total.andThen ((total_orFlashError total_usb).andThen fun found => ?_) fun _ => .pure _
  cases found with
  | none => trivial
  | some bootloader =>
    dsimp only
    split_ifs <;> trivial

theorem total_recoverKnown (known : KnownDevice) : Total (recoverKnown settings known) := by
  refine Total.catching ((total_orFlashError total_usb).andThen fun found => ?_) _
  cases found with
  | none => trivial
  | some bootloader =>
    dsimp only
    split
    · refine Total.andThen ((Total.perform _).andThen fun now => ?_) fun current => ?_
      · cases known.handoffDeadline <;> trivial
      · split_ifs <;> trivial
    · trivial

theorem total_planUnpaired (applicationError : Exn) (recoveryError : Option Exn)
    (known knownForConfig : Option KnownDevice) :
    Total (planUnpaired true applicationError recoveryError known knownForConfig) := by
  have hrefuse : Total (refusePlan applicationError recoveryError known knownForConfig) := by
    unfold refusePlan
    split
    · trivial
    · split_ifs
      · trivial
      · refine total_singleUnpairedRecoveryTarget.andThen fun unpaired => ?_
        cases unpaired <;> trivial
  rw [planUnpaired, if_pos rfl]
  refine total_singleUnpairedRecoveryTarget.andThen fun discovered => ?_
  cases discovered with
  | none => exact hrefuse
  | some target => exact total_manualPlan target

theorem total_preflight : Total (preflight settings) := by
  refine Total.andThen ?_ fun _ => .pure _
  refine Total.andThen ((Total.perform _).andThen fun _ => .ofExcept _) fun known => ?_
  refine (total_usb.catching _).andThen fun found => ?_
  cases found with
  | ok application => trivial
  | error applicationError =>
    dsimp only [planRecovery]
    split
    · exact total_planUnpaired _ _ _ _
    · refine (total_recoverKnown _).andThen fun found => ?_
      match found with
      | .ok (some bootloader) => trivial
      | .ok none => exact total_planUnpaired _ _ _ _
      | .error err => exact total_planUnpaired _ _ _ _

theorem total_setLedOn (device : Path) (mode : LedMode) (pause : CulConsumerPause) :
    Total (setLedOn settings device mode pause) := by
  have hattempt : Total (setLedAttempt device settings.baudrate mode) := by
    refine CulSerial.total_sessionWith ((Total.raisingWith CulSerial.total_command _).andThen
      fun version => ?_)
    split
    · trivial
    · exact (Total.raisingWith CulSerial.total_command _).andThen fun _ => trivial
  have hpass (s : Unit) : Total (do return (← setLedPass device settings.baudrate mode, s)) := by
    refine (hattempt.attempt.andThen fun result => ?_).andThen fun _ => trivial
    match result with
    | .ok (version, _) => trivial
    | .error (err, ledCommandStarted) =>
      dsimp only
      split
      · trivial
      · split <;> trivial
  have hverified : Total (setLedAfterVerification device settings.baudrate mode) := by
    refine (Total.retry (fun _ => .perform _) hpass _ _ _).andThen fun x => ?_
    obtain ⟨result, _⟩ := x
    cases result <;> trivial
  refine (hverified.catching _).andThen fun result => ?_
  cases result <;> trivial

theorem total_setLedPaused (mode : LedMode) (pause : CulConsumerPause) :
    Total (setLedPaused settings mode pause) :=
  ((total_configuredApplicationEndpoint none).raisingWith pause).andThen fun (_, device) =>
    ((total_setLedOn device mode pause).raisingWith pause).andThen fun _ =>
      ((total_save _).raisingWith pause).andThen fun _ => trivial

theorem total_readVersionOn (device : Path) (pause : CulConsumerPause) :
    Total (readVersionOn settings device pause) := by
  have hread (s : Unit) :
      Total (do return (← (readVersionOnce device settings.baudrate).attempt, s) :
        Program (Except Exn String × Unit)) :=
    (CulSerial.total_session CulSerial.total_command).attempt.andThen fun _ => trivial
  have hversion : Total (readVersion device settings.baudrate) := by
    refine (Total.retry (fun _ => .perform _) hread _ _ _).andThen fun x => ?_
    obtain ⟨result, _⟩ := x
    cases result <;> trivial
  refine (hversion.catching _).andThen fun result => ?_
  cases result <;> trivial

theorem total_readTelemetry (device : Path) (baudrate : ℕ) :
    Total (readTelemetry device baudrate) := by
  have hquery {α : Type} {query : Program α} (h : Total query) : Total (optionalQuery query) := by
    refine h.attempt.andThen fun result => ?_
    cases result <;> trivial
  refine CulSerial.total_session ?_
  refine (hquery CulSerial.total_command).andThen fun (_, _) => ?_
  exact (hquery CulSerial.total_command).andThen fun (_, _) => trivial

theorem total_diagnosticsPaused (pause : CulConsumerPause) :
    Total (diagnosticsPaused settings pause) :=
  ((total_configuredApplicationEndpoint none).raisingWith pause).andThen fun (_, device) =>
    ((total_readVersionOn device pause).raisingWith pause).andThen fun _ =>
      ((total_readTelemetry device _).raisingWith pause).andThen fun _ =>
        ((total_save _).raisingWith pause).andThen fun _ => trivial

end Flasher

/-! ## The consumers -/

namespace SupervisorClient

theorem total_request (method : HttpMethod) (path : String) : Total (request method path) :=
  CulSerial.total_command

theorem total_addonInfo (slug : String) : Total (addonInfo slug) :=
  (Total.ofExcept _).andThen fun _ => (total_request _ _).andThen fun _ => .ofExcept _

theorem total_resolvesTo (candidate device : Path) : Total (resolvesTo candidate device) := by
  have hresolve : ∀ path, Total (resolvePath path) :=
    fun path => (Total.perform _).andThen fun _ => .ofExcept _
  have hnode : Total (sameNode candidate device) :=
    (hresolve candidate).andThen fun _ => (hresolve device).andThen fun _ => trivial
  refine (hnode.catching _).andThen fun same => ?_
  cases same with
  | ok same => trivial
  | error e => trivial

theorem total_sameDevicePath (candidate : String) (device : Path) :
    Total (sameDevicePath candidate device) := by
  unfold sameDevicePath
  split_ifs
  · trivial
  · trivial
  · trivial
  · exact total_resolvesTo _ _

theorem total_wmbusmetersDeviceSpecUsesDevice (specification : String) (device : Path) :
    Total (wmbusmetersDeviceSpecUsesDevice specification device) := by
  unfold wmbusmetersDeviceSpecUsesDevice
  generalize String.ofList (specificationEndpoint specification) = endpoint
  have hpath := total_sameDevicePath endpoint device
  dsimp only
  split_ifs
  · exact .pure _
  · exact .pure _
  · exact hpath

theorem total_anySpecification (device : Path) (specifications : List String) :
    Total (anySpecification device specifications) := by
  induction specifications with
  | nil => trivial
  | cons specification rest ih =>
    refine (total_wmbusmetersDeviceSpecUsesDevice _ _).andThen fun used => ?_
    split
    · exact .pure _
    · exact ih

theorem total_wmbusmetersUsesDevice (options : Json) (device : Path) :
    Total (wmbusmetersUsesDevice options device) := by
  unfold wmbusmetersUsesDevice
  split
  · dsimp only
    split
    · split_ifs
      · trivial
      · exact total_anySpecification _ _
    · trivial
  · trivial

theorem total_max2mqttUsesDevice (options : Json) (device : Path) :
    Total (max2mqttUsesDevice options device) := by
  unfold max2mqttUsesDevice
  split
  · split
    · exact total_sameDevicePath _ _
    · trivial
  · trivial

theorem total_startedOnDevice (slug : String) {usesDevice : Json → Program Bool}
    (h : ∀ options, Total (usesDevice options)) : Total (startedOnDevice slug usesDevice) := by
  refine (total_addonInfo slug).andThen fun info => ?_
  split_ifs
  · exact h _
  · trivial

theorem total_discoverAddons (device : Path) (additional : List String) (found : Discovered)
    (addons : List Json) : Total (discoverAddons device additional found addons) := by
  induction addons generalizing found with
  | nil => trivial
  | cons addon rest ih =>
    refine Total.andThen ?_ fun found => ih found
    unfold discoverAddon
    split
    · split
      · exact total_ite (.pure _) (total_ite
          ((total_startedOnDevice _ fun _ => total_wmbusmetersUsesDevice _ _).andThen fun _ =>
            .pure _)
          (total_ite
            ((total_startedOnDevice _ fun _ => total_max2mqttUsesDevice _ _).andThen fun _ =>
              .pure _)
            (.pure _)))
      · exact .pure _
    · exact .pure _

theorem total_runningCulConsumersUsingDevice (device : Path) (additional : List String) :
    Total (runningCulConsumersUsingDevice device additional) := by
  refine (total_request _ _).andThen fun document => (Total.ofExcept _).andThen fun data => ?_
  split
  · exact (total_discoverAddons _ _ _ _).andThen fun _ => trivial
  · trivial

theorem stopAddons_ends (hfuel : 61 ≤ fuel) (slugs stopped : List String) :
    Ends clock (stopAddons fuel stopped slugs) ℓ := by
  induction slugs generalizing stopped ℓ with
  | nil => trivial
  | cons slug rest ih =>
    have hstop : Total (stopAddon slug) :=
      (Total.ofExcept _).andThen fun _ => (total_request _ _).andThen fun _ => trivial
    refine ((Ends.of_total hstop).raisingWith stopped).andThen fun _ ℓ => ?_
    exact ((waitForState_ends hfuel "stopped").raisingWith _).andThen fun _ ℓ => ih _

theorem resumeConsumers_ends (hfuel : 61 ≤ fuel) (stopped : List String)
    (result : Except (Exn × CulConsumerPause) (α × CulConsumerPause)) :
    Ends clock (resumeConsumers fuel stopped result) ℓ := by
  match result with
  | .error (e, pause) =>
    dsimp only [resumeConsumers]
    split_ifs
    · exact (restore_ends hfuel _).andThen fun _ _ => .of_total trivial
    · trivial
    · trivial
  | .ok (result, pause) =>
    refine (restore_ends hfuel _).andThen fun failures _ => ?_
    split_ifs <;> trivial

/-- A paused section ends when its block does. -/
theorem temporarilyStopCulConsumers_ends (hfuel : 61 ≤ fuel) {device : Path}
    {additional : List String} {block : CulConsumerPause → Paused (α × CulConsumerPause)}
    (hblock : ∀ pause, Total (block pause)) :
    Ends clock (temporarilyStopCulConsumers fuel device additional block) ℓ := by
  have hstop (matched : CulConsumerPause) (ℓ : ℚ) : Ends clock (stopConsumers fuel matched) ℓ := by
    refine (stopAddons_ends hfuel _ _).attempt.andThen fun result ℓ => ?_
    match result with
    | .ok stopped => trivial
    | .error (e, stopped) => exact (restore_ends hfuel _).andThen fun _ _ => .of_total trivial
  refine Ends.andThen ?_ fun (pause, stopped) ℓ => ?_
  · refine (Ends.of_total (total_runningCulConsumersUsingDevice _ _)).andThen fun matched ℓ => ?_
    exact (hstop matched ℓ).andThen fun _ _ => .pure _
  · exact (Ends.of_total (hblock pause).attempt).andThen fun result ℓ =>
      resumeConsumers_ends hfuel stopped result

end SupervisorClient

namespace Flasher

theorem setLed_ends (hfuel : 61 ≤ fuel) (mode : LedMode) :
    Ends SupervisorClient.clock (setLed fuel settings mode) ℓ := by
  refine Ends.andThen (Ends.attempt ?_) fun result _ => ?_
  · refine (Ends.of_total (total_configuredApplicationEndpoint none)).andThen fun _ ℓ => ?_
    exact (SupervisorClient.temporarilyStopCulConsumers_ends hfuel
      fun pause => total_setLedPaused mode pause).andThen fun _ _ => .pure _
  · cases result with
    | ok result => trivial
    | error err =>
      dsimp only
      split_ifs <;> trivial

theorem diagnostics_ends (hfuel : 61 ≤ fuel) :
    Ends SupervisorClient.clock (diagnostics fuel settings) ℓ := by
  refine Ends.andThen (Ends.attempt ?_) fun result _ => ?_
  · refine (Ends.of_total (total_configuredApplicationEndpoint none)).andThen fun _ ℓ => ?_
    exact (SupervisorClient.temporarilyStopCulConsumers_ends hfuel
      total_diagnosticsPaused).andThen fun _ _ => .pure _
  · cases result with
    | ok result => trivial
    | error err =>
      dsimp only
      split_ifs <;> trivial

end Flasher

/-! ## The registry and the controller -/

theorem total_withLock {lock : Lock} {block : AppProgram α} (h : Total block) :
    Total (withLock lock block) :=
  (Total.perform _).andThen fun _ => h.ensuring fun _ => .perform _

theorem total_onFlasher {p : Program α} (h : Total p) : Total (onFlasher p) := by
  induction p with
  | ret a => trivial
  | raise e => trivial
  | call o k ih => exact fun a => ih a (h a)
  | halt => exact h

namespace ArtifactRegistry

theorem total_removeExpiredLocked : Total removeExpiredLocked := by
  have hexpired (entries : Entries) : Total (expiredOf entries) := by
    induction entries with
    | nil => trivial
    | cons item rest ih =>
      refine Total.andThen ?_ fun _ => ih.andThen fun _ => trivial
      unfold isExpired
      split_ifs
      · trivial
      · exact (Total.perform _).andThen fun _ => trivial
  have hremove (identifiers : List String) : Total (removeAll identifiers) := by
    induction identifiers with
    | nil => trivial
    | cons identifier rest ih =>
      refine (Total.perform _).andThen fun entry => ?_
      cases (entry : Option StagedArtifact) with
      | none => trivial
      | some entry => exact (Total.perform _).andThen fun _ => ih
  exact (Total.perform _).andThen fun entries => (hexpired entries).andThen fun _ => hremove _

theorem total_stage (image : HexImage) (preflight : FlashPreflight) :
    Total (stage image preflight) := by
  have hunlink (paths : List Path) : Total (unlinkAll paths) := by
    induction paths with
    | nil => trivial
    | cons path rest ih => exact (Total.perform _).andThen fun _ => ih
  refine (total_withLock (total_removeExpiredLocked.andThen fun _ =>
    (Total.perform _).andThen fun entries => ?_)).andThen fun (_, replaced) =>
      (hunlink replaced).andThen fun _ => trivial
  split_ifs
  · trivial
  · exact (Total.perform _).andThen fun _ => (Total.perform _).andThen fun _ =>
      (Total.perform _).andThen fun _ => (Total.perform _).andThen fun _ => trivial

theorem total_claim (identifier : Json) : Total (claim identifier) := by
  unfold claim
  split
  · split_ifs
    · refine total_withLock (total_removeExpiredLocked.andThen fun _ =>
        (Total.perform _).andThen fun entries => ?_)
      split
      · trivial
      · split_ifs
        · trivial
        · exact (Total.perform _).andThen fun _ => trivial
    · trivial
  · trivial

theorem total_releaseClaim (identifier : String) : Total (releaseClaim identifier) := by
  refine total_withLock ((Total.perform _).andThen fun entries => ?_)
  split
  · trivial
  · exact .perform _

end ArtifactRegistry

namespace OperationController

theorem total_update (u : Update) : Total (update u) :=
  (Total.perform _).andThen fun _ => .perform _

theorem total_submit (artifactId : String) (image : HexImage)
    (manualRecovery : Option ManualRecoveryTarget) :
    Total (submit artifactId image manualRecovery) := by
  unfold submit
  split_ifs
  · trivial
  refine (Total.perform _).andThen fun operationId =>
    (total_withLock ((Total.perform _).andThen fun fields => ?_)).andThen fun _ => trivial
  split
  · trivial
  · refine (Total.perform _).andThen fun put => ?_
    split
    · trivial
    · exact total_update _

end OperationController

/-! ## Requests -/

namespace IngressApi

theorem total_requireAccepting : Total requireAcceptingMutationsLocked := by
  refine (Total.perform _).andThen fun stopping => ?_
  split
  · trivial
  · refine (Total.perform _).andThen fun accepting => ?_
    split <;> trivial

theorem total_requireIdle : Total requireIdle := by
  refine (total_withLock (Total.perform _)).andThen fun fields => ?_
  split <;> trivial

theorem total_admitted {block : AppProgram α} (h : Total block) : Total (admitted block) :=
  total_withLock (total_requireAccepting.andThen fun _ => total_requireIdle.andThen fun _ => h)

theorem total_flash (artifactId confirm confirmUnpairedRecovery : Json) :
    Total (flash artifactId confirm confirmUnpairedRecovery) := by
  unfold flash
  split
  · split
    · rename_i text
      have hsubmit (artifact : StagedArtifact) :
          Total (submitClaimed text artifact confirmUnpairedRecovery) := by
        refine Total.andThen (Total.attempt ?_) fun submitted => ?_
        · refine Total.andThen ?_ fun _ => OperationController.total_submit _ _ _
          unfold requireRecoveryConsent
          split <;> trivial
        · cases submitted with
          | ok operation => trivial
          | error e => exact (ArtifactRegistry.total_releaseClaim text).andThen fun _ => trivial
      refine (total_withLock (total_requireAccepting.andThen fun _ =>
        (ArtifactRegistry.total_claim _).andThen fun artifact => (hsubmit artifact).andThen
          fun operation => Total.andThen ?_ fun _ => .pure operation)).andThen fun _ => .pure _
      exact total_withLock ((Total.perform _).andThen fun _ => trivial)
    · trivial
  · trivial

theorem total_validateUpload (contentLength : ℕ) :
    Total (validateUpload settings contentLength) := by
  have hrest {α : Type} {block : AppProgram α} {path : Path} (h : Total block) :
      Total (unlinkOnError path block) := by
    refine h.attempt.andThen fun result => ?_
    cases result with
    | ok a => trivial
    | error e => exact (Total.perform _).andThen fun _ => trivial
  refine (total_admitted (.pure _)).andThen fun _ =>
    (total_writeUpload contentLength).andThen fun path => hrest ?_
  refine (total_onFlasher (Flasher.total_parseHexFile path)).andThen fun image => ?_
  refine (total_onFlasher Flasher.total_preflight).andThen fun preflight => ?_
  exact (total_admitted (ArtifactRegistry.total_stage image preflight)).andThen fun _ => .pure _

end IngressApi

/-- The clock that the flasher reads on behalf of a request. -/
def appClock : Discipline App ℚ where
  allows _ _ := True
  trusts
    | now, .flasher o, a => SupervisorClient.clock.trusts now o a
    | _, _, _ => True
  after
    | now, .flasher o, a => SupervisorClient.clock.after now o a
    | now, _, _ => now

def httpClock : Discipline Http ℚ where
  allows _ _ := True
  trusts
    | now, .app o, a => appClock.trusts now o a
    | _, .respond _ _, _ => True
  after
    | now, .app o, a => appClock.after now o a
    | now, .respond _ _, _ => now

theorem onFlasher_ends {p : Program α} (h : Ends SupervisorClient.clock p ℓ) :
    Ends appClock (onFlasher p) ℓ := by
  induction p generalizing ℓ with
  | ret a => trivial
  | raise e => trivial
  | call o k ih => exact fun a ha => ih a (h a ha)
  | halt => exact h

theorem onApp_ends {p : AppProgram α} (h : Ends appClock p ℓ) : Ends httpClock (onApp p) ℓ := by
  induction p generalizing ℓ with
  | ret a => trivial
  | raise e => trivial
  | call o k ih => exact fun a ha => ih a (h a ha)
  | halt => exact h

namespace IngressApi

/-- A command to the device ends when the flasher's part of it does. -/
theorem exclusive_ends {p : Program α} (h : ∀ ℓ, Ends SupervisorClient.clock p ℓ) :
    Ends appClock (admitted (withLock .flash (onFlasher p))) ℓ := by
  have hlocked {α : Type} {lock : Lock} {block : AppProgram α} (hb : ∀ ℓ, Ends appClock block ℓ)
    (ℓ : ℚ) :
      Ends appClock (withLock lock block) ℓ :=
    (Ends.perform _).andThen fun _ ℓ => (hb ℓ).attempt.andThen fun _ ℓ =>
      (Ends.perform _).andThen fun _ ℓ => .ofExcept _
  refine hlocked (fun ℓ => ?_) ℓ
  refine (Ends.of_total total_requireAccepting).andThen fun _ ℓ => ?_
  exact (Ends.of_total total_requireIdle).andThen fun _ ℓ =>
    hlocked (fun ℓ => onFlasher_ends (h ℓ)) ℓ

theorem setLed_ends (hfuel : 61 ≤ fuel) (mode : Json) :
    Ends appClock (setLed fuel settings mode) ℓ := by
  unfold setLed
  split
  · trivial
  · exact exclusive_ends fun _ => Flasher.setLed_ends hfuel _

theorem diagnostics_ends (hfuel : 61 ≤ fuel) : Ends appClock (diagnostics fuel settings) ℓ :=
  exclusive_ends fun _ => Flasher.diagnostics_ends hfuel

end IngressApi

namespace Handler
variable {netlocAllowed : List Char → Bool} {depth : ℕ} {request : PostRequest}

theorem total_jsonBody : Total (jsonBody depth request) :=
  (Total.ofExcept _).andThen fun _ => (Total.perform _).andThen fun _ =>
    (Total.ofExcept _).andThen fun _ => .ofExcept _

theorem serve_ends (hfuel : 61 ≤ fuel) (branch : Route) :
    Ends httpClock (serve depth fuel settings request branch) ℓ := by
  cases branch with
  | validateUpload =>
    dsimp only [serve]
    split_ifs
    · trivial
    · refine (Ends.ofExcept _).andThen fun size ℓ => ?_
      exact (onApp_ends (.of_total (IngressApi.total_validateUpload size))).andThen
        fun _ _ => .pure _
  | flash =>
    refine (Ends.of_total total_jsonBody).andThen fun body ℓ => ?_
    exact (onApp_ends (.of_total (IngressApi.total_flash _ _ _))).andThen fun _ _ => .pure _
  | led =>
    refine (Ends.of_total total_jsonBody).andThen fun body ℓ => ?_
    exact (onApp_ends (IngressApi.setLed_ends hfuel _)).andThen fun _ _ => .pure _
  | diagnostics =>
    refine (Ends.of_total total_jsonBody).andThen fun body ℓ => ?_
    split
    · trivial
    · exact (onApp_ends (IngressApi.diagnostics_ends hfuel)).andThen fun _ _ => .pure _
  | unknown => trivial

theorem doPost_ends (hfuel : 61 ≤ fuel) :
    Ends httpClock (doPost netlocAllowed depth fuel settings request) ℓ := by
  refine Ends.andThen (Ends.attempt ?_) fun outcome ℓ => ?_
  · exact (Ends.ofExcept _).andThen fun branch ℓ => serve_ends hfuel branch
  · match outcome with
    | .ok (some payload) => exact Ends.perform _
    | .ok none => exact Ends.perform _
    | .error err =>
      dsimp only [answer]
      split_ifs
      · exact Ends.perform _
      · exact Ends.perform _
      · trivial

end Handler
end Cul868Flasher
