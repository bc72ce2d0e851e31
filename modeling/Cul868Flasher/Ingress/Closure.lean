import Cul868Flasher.Effects.Lowering
import Cul868Flasher.Flasher.LedCommand
import Cul868Flasher.Ingress.Conversation
import Cul868Flasher.Ingress.Settling

/-!
# Every request is answered

A handler answers once, with one of four statuses, unless its request makes an
exception of another class: `urlsplit`, `int` and `json.loads` raise their own, a
blank line of the upload raises `IndexError`, and a confirmed flash whose
artifact is no string fails an assertion.
-/

namespace Cul868Flasher
open Python Effects

variable {α β : Type} {c : Conversation} {B : Option (List UInt8) → Prop} {C : Exn → Prop}

/-! ## The preflight -/

namespace Sysfs

theorem allUsbTargets_topologyError {fs : Sysfs} {e : Exn} (h : fs.allUsbTargets = .error e) :
    e.isUsbTopologyError = true := by
  simp only [allUsbTargets] at h
  split at h
  · cases h
    rfl
  · cases h

theorem bootloaderTargets_topologyError {fs : Sysfs} {e : Exn}
    (h : fs.bootloaderTargets = .error e) :
    e.isUsbTopologyError = true := by
  cases hall : fs.allUsbTargets with
  | error e' =>
    simp only [bootloaderTargets, targetsWithIdentity, hall, bind, Except.bind,
      Except.error.injEq] at h
    exact h ▸ allUsbTargets_topologyError hall
  | ok targets => simp [bootloaderTargets, targetsWithIdentity, hall, bind, Except.bind, pure,
      Except.pure] at h

theorem bootloaderForTopology_topologyError {fs : Sysfs} {topology : String} {e : Exn}
    (hvalid : isTopology topology = true) (h : fs.bootloaderForTopology topology = .error e) :
    e.isUsbTopologyError = true := by
  simp only [bootloaderForTopology, singleTarget, validateUsbTopology, hvalid, if_true, bind,
    Except.bind] at h
  cases hall : fs.allUsbTargets with
  | error e' =>
    simp only [hall, Except.error.injEq] at h
    exact h ▸ allUsbTargets_topologyError hall
  | ok targets =>
    simp only [hall] at h
    split at h
    · cases h
    · cases h
    · cases h
      rfl

end Sysfs

theorem DeviceStateStore.decode_topology {read : StateRead} {known : KnownDevice}
    (h : decode read = .ok (some known)) : isTopology known.topology = true := by
  cases read with
  | missing => cases h
  | raised e => cases h
  | file content =>
    simp only [decode] at h
    split_ifs at h
    · cases h
    split at h
    · rename_i fields _
      simp only [Except.ok.injEq, decodeFields] at h
      split at h
      · split_ifs at h with hvalid
        split at h
        · cases h
        · split_ifs at h
          · cases h
            simpa using hvalid
          · cases h
            simpa using hvalid
      · cases h
    · cases h

namespace Flasher

/-- A lookup that finds `P`, and refuses with an exception in `C`. -/
def Probes (P : α → Prop) (C : Exn → Prop) (p : Program α) : Prop :=
  ∀ c, Follows inspecting (fun a c' => P a ∧ c' = c) (fun e c' => C e ∧ c' = c) p c

namespace Probes
variable {P : α → Prop} {Q : β → Prop}

theorem ret {a : α} (h : P a) : Probes P C (.ret a) := fun _ => Follows.ret ⟨h, rfl⟩

theorem raise {e : Exn} (h : C e) : Probes P C (.raise e : Program α) :=
  fun _ => Follows.raise ⟨h, rfl⟩

theorem bind {p : Program α} {f : α → Program β} (hp : Probes P C p)
    (hf : ∀ a, P a → Probes Q C (f a)) : Probes Q C (p >>= f) := by
  refine fun c => (hp c).bind ?_
  rintro a _ ⟨ha, rfl⟩
  exact hf a ha _

theorem ofExcept {x : Except Exn α} (hok : ∀ a, x = .ok a → P a) (herr : ∀ e, x = .error e → C e) :
    Probes P C (.ofExcept x) := by
  cases x with
  | ok a => exact ret (hok a rfl)
  | error e => exact raise (herr e rfl)

theorem usb {call : UsbCall} {f : Sysfs → Except Exn α} (hok : ∀ fs a, f fs = .ok a → P a)
    (herr : ∀ fs e, f fs = .error e → C e) :
    Probes P C (Cul868Flasher.usb call >>= fun fs => .ofExcept (f fs)) :=
  fun c => Follows.step trivial fun fs _ => ofExcept (hok fs) (herr fs) c

theorem catching {p : Program α} {clause : Exn → Bool} (hp : Probes P (clause · = true) p) :
    Probes (fun x => ∀ a, x = .ok a → P a) C (p.catching clause) := by
  intro c
  refine Follows.attempt_bind (hp c) ?_ ?_
  · rintro a _ ⟨ha, rfl⟩
    refine Follows.ret ⟨?_, rfl⟩
    rintro _ ⟨⟩
    exact ha
  · rintro e _ ⟨he, rfl⟩
    dsimp only
    rw [if_pos he]
    exact Follows.ret ⟨fun _ h => (by cases h), rfl⟩

theorem orFlashError {lookup : Program α} {message : Exn → String}
    (h : Probes P (·.isUsbTopologyError = true) lookup) :
    Probes P (·.isFlashError = true) (orFlashError lookup message) := by
  refine h.catching.bind fun found hfound => ?_
  cases found with
  | ok a => exact ret (hfound a rfl)
  | error e => exact raise rfl

end Probes

/-! The lookups of the preflight. -/

theorem probes_configuredApplication (device : Path) :
    Probes (fun _ => True) (·.isUsbTopologyError = true)
      (UsbTopology.configuredApplication device) :=
  .usb (fun _ _ _ => trivial) fun _ _ h => Sysfs.configuredApplication_error h

theorem probes_bootloaderTargets :
    Probes (fun targets => ∀ t ∈ targets, t.Valid) (·.isUsbTopologyError = true)
      UsbTopology.bootloaderTargets :=
  .usb (fun _ _ h t ht => (Sysfs.targetsWithIdentity_mem h t ht).1)
    fun _ _ h => Sysfs.bootloaderTargets_topologyError h

theorem probes_bootloaderForTopology {topology : String} (h : isTopology topology = true) :
    Probes (fun _ => True) (·.isUsbTopologyError = true)
      (UsbTopology.bootloaderForTopology topology) :=
  .usb (fun _ _ _ => trivial) fun _ _ he => Sysfs.bootloaderForTopology_topologyError h he

theorem probes_singleUnpairedRecoveryTarget :
    Probes (fun _ => True) (·.isFlashError = true) singleUnpairedRecoveryTarget := by
  refine probes_bootloaderTargets.orFlashError.bind fun bootloaders hvalid => ?_
  match bootloaders, hvalid with
  | [], _ => exact .ret trivial
  | [target], hvalid =>
    have ht := hvalid target (List.mem_singleton_self target)
    have hmake : ManualRecoveryTarget.make target.topology target.usbSerial =
        .ok ⟨target.topology, target.usbSerial, ht.topology, ht.usbSerial⟩ := by
      rw [ManualRecoveryTarget.make, dif_pos ht.topology, dif_pos ht.usbSerial]
    change Probes _ _ (.ofExcept (ManualRecoveryTarget.make _ _) >>= _)
    rw [hmake]
    exact .ret trivial
  | _ :: _ :: _, _ => exact .raise rfl

theorem probes_manualPlan (confirmed : ManualRecoveryTarget) :
    Probes (fun _ => True) (·.isFlashError = true) (manualPlan confirmed) := by
  refine Probes.bind (P := fun _ => True) ((probes_bootloaderForTopology
    confirmed.topology_valid).orFlashError.bind fun found _ => ?_) fun bootloader _ => .ret trivial
  cases found with
  | none => exact .raise rfl
  | some bootloader =>
    dsimp only
    split_ifs
    · exact .raise rfl
    · exact .ret trivial

variable {settings : Settings}

theorem probes_recoverKnown {known : KnownDevice} (h : isTopology known.topology = true) :
    Probes (fun _ => True) C (recoverKnown settings known) := by
  have hfound : Probes (fun _ => True) (·.isFlashError = true)
      (bootloaderForKnown settings known) := by
    refine (probes_bootloaderForTopology h).orFlashError.bind fun found _ => ?_
    cases found with
    | none => exact .ret trivial
    | some bootloader =>
      dsimp only
      split
      · refine Probes.bind (P := fun _ => True) (fun c => Follows.step trivial fun now _ => ?_)
          fun current _ => ?_
        · cases known.handoffDeadline with
          | none => exact Follows.ret ⟨trivial, rfl⟩
          | some deadline => exact Follows.ret ⟨trivial, rfl⟩
        · split_ifs
          · exact .ret trivial
          · exact .raise rfl
          · exact .raise rfl
      · exact .ret trivial
  exact fun c => (hfound.catching c).conseq (fun _ _ h => ⟨trivial, h.2⟩) fun _ _ h => h

theorem probes_refusePlan (applicationError : Exn) (recoveryError : Option Exn)
    (known knownForConfig : Option KnownDevice) :
    Probes (fun _ => True) (·.isFlashError = true)
      (refusePlan applicationError recoveryError known knownForConfig) := by
  unfold refusePlan
  split
  · exact .raise rfl
  · split_ifs
    · exact .raise rfl
    · refine probes_singleUnpairedRecoveryTarget.bind fun unpaired _ => ?_
      cases unpaired with
      | none => exact .raise rfl
      | some target => exact .raise rfl

theorem probes_planUnpaired (applicationError : Exn) (recoveryError : Option Exn)
    (known knownForConfig : Option KnownDevice) :
    Probes (fun _ => True) (·.isFlashError = true)
      (planUnpaired true applicationError recoveryError known knownForConfig) := by
  rw [planUnpaired, if_pos rfl]
  refine probes_singleUnpairedRecoveryTarget.bind fun discovered _ => ?_
  cases discovered with
  | none => exact probes_refusePlan _ _ _ _
  | some target => exact probes_manualPlan target

/-- Planning after the record has been read. -/
theorem probes_planRecovery (applicationError : Exn) {known knownForConfig : Option KnownDevice}
    (h : ∀ device, knownForConfig = some device → isTopology device.topology = true) :
    Probes (fun _ => True) (·.isFlashError = true)
      (planRecovery settings true applicationError known knownForConfig) := by
  cases knownForConfig with
  | none => exact probes_planUnpaired _ _ _ _
  | some device =>
    refine (probes_recoverKnown (h device rfl)).bind fun found _ => ?_
    match found with
    | .ok (some bootloader) => exact .ret trivial
    | .ok none => exact probes_planUnpaired _ _ _ _
    | .error err => exact probes_planUnpaired _ _ _ _

end Flasher

namespace Conversation

/-- The exception of an upload is one of the four classes, unless the upload or
the state file is at fault. -/
structure Told (e : Exn) (c : Conversation) : Prop where
  responses : c.responses = []
  fault : isMapped e = false ↔ c.blank ∨ c.unreadable

theorem Sound.told (h : c.Sound B) {e : Exn} (he : isMapped e = true) : c.Told e where
  responses := h.responses
  fault := by simp [he, h.blank, h.unreadable]

end Conversation

namespace Flasher
variable {settings : Settings}

theorem follows_load (hc : c.Sound B) :
    Follows inspecting
      (fun known c => c.Sound B ∧ ∀ device, known = some device → isTopology device.topology = true)
      (fun e c => c.Told e) DeviceStateStore.load c := by
  refine Follows.step trivial fun (read : StateRead) htrust => ?_
  cases hdecode : DeviceStateStore.decode read with
  | error e =>
    obtain rfl := DeviceStateStore.decode_error hdecode
    exact Follows.raise ⟨hc.responses, by simp [htrust e rfl, Conversation.afterFlasher]⟩
  | ok known =>
    have hsound : (c.afterFlasher .loadState read).Sound B := by
      cases read with
      | raised e => cases hdecode
      | missing => exact hc
      | file content => exact hc
    refine Follows.ret ⟨hsound, ?_⟩
    rintro device rfl
    exact DeviceStateStore.decode_topology hdecode

theorem Probes.follows {p : Program α}
    (hp : Probes (fun _ => True) (·.isFlashError = true) p) (hc : c.Sound B) :
    Follows inspecting (fun _ => Conversation.Sound B) (fun e c => c.Told e) p c := by
  refine (hp c).conseq ?_ ?_
  · rintro _ _ ⟨-, rfl⟩
    exact hc
  · rintro e _ ⟨he, rfl⟩
    exact hc.told (isMapped_of_flashError he)

theorem follows_plan (hc : c.Sound B) :
    Follows inspecting (fun _ => Conversation.Sound B) (fun e c => c.Told e)
      (plan settings none true) c := by
  refine (follows_load hc).bind ?_
  rintro known c ⟨hc, hvalid⟩
  refine Probes.follows ((probes_configuredApplication _).catching.bind fun found _ => ?_) hc
  cases found with
  | ok application => exact .ret trivial
  | error applicationError =>
    exact probes_planRecovery applicationError fun device hdevice =>
      hvalid device (Option.mem_filter_iff.mp hdevice).1

theorem follows_preflight (hc : c.Sound B) :
    Follows inspecting (fun _ => Conversation.Sound B) (fun e c => c.Told e)
      (preflight settings) c :=
  (follows_plan hc).bind fun _ _ h => Follows.ret h

theorem follows_parseHexFile (hc : c.Sound B) (path : Path) :
    Follows inspecting (fun _ => Conversation.Sound B) (fun e c => c.Told e) (parseHexFile path)
      c := by
  have hsize (size : Option ℕ) : Conversation.Sound B { c with size } :=
    ⟨hc.responses, hc.body, hc.blank, hc.unreadable⟩
  refine Follows.step trivial fun (size : Option ℕ) _ => ?_
  cases size with
  | none => exact Follows.raise ((hsize none).told rfl)
  | some size =>
    dsimp only
    split_ifs
    · exact Follows.raise ((hsize _).told rfl)
    refine Follows.step trivial fun (source : Option (List UInt8)) _ => ?_
    cases source with
    | none => exact Follows.raise ((hsize _).told rfl)
    | some source =>
      let c' : Conversation := { c with
        size := some size
        blank := some size = some source.length ∧ HexFile.ReachesBlankLine source }
      have hclear (hnot : ¬ c'.blank) : c'.Sound B :=
        ⟨hc.responses, hc.body, hnot, hc.unreadable⟩
      change Follows inspecting _ _ _ c'
      dsimp only
      split_ifs with hlength
      · refine Follows.raise ((hclear ?_).told rfl)
        rintro ⟨h, -⟩
        exact hlength (Option.some.inj h).symm
      have hraises := HexFile.parseHex_raises_iff source path
      cases hparse : HexFile.parseHex source path with
      | ok image =>
        refine Follows.ret (hclear ?_)
        rintro ⟨-, hblank⟩
        exact hraises.mp (by simp [hparse]) hblank
      | error e =>
        refine Follows.raise ⟨hc.responses, ?_⟩
        have hblank : c'.blank ↔ HexFile.ReachesBlankLine source :=
          and_iff_right (congrArg some (not_not.mp hlength).symm)
        rw [or_iff_left (show ¬ c'.unreadable from hc.unreadable), hblank, ← not_iff_not, ← hraises]
        simp only [Bool.not_eq_false, hparse, Except.error.injEq, forall_eq']
        constructor
        · intro hmapped
          rcases HexFile.parseHex_parserError hparse with h | h
          · exact h
          · simp [isMapped, Handler.isRefusal, Exn.isHexFileError, Exn.isFlashError, h] at hmapped
        · exact isMapped_of_hexFileError

/-- Whatever goes wrong, the diagnostics end with a `FlashError`. -/
theorem diagnostics_raises (fuel : ℕ) :
    Raises (fun e => e.isFlashError = true) (diagnostics fuel settings) := by
  refine Raises.bind (Raises.attempt _) fun result => ?_
  cases result with
  | ok result => trivial
  | error err =>
    dsimp only
    split
    · rename_i hflash
      exact hflash
    · rfl

end Flasher

/-! ## The upload -/

/-- What is known of a body that is read in pieces. -/
abbrev AnyBody : Option (List UInt8) → Prop := fun _ => True

theorem keeps_fileStep (path : Path) (step : FileStep) : Keeps B C (fileStep path step) := by
  refine fun c hc => Follows.step trivial fun answer hok => ?_
  obtain ⟨a, rfl⟩ := hok
  exact Follows.ret (hc.call (o := .file path step) trivial (.ok a))

theorem keeps_copyChunk (hC : ∀ message, C (.hexFileError message)) (path : Path) (remaining : ℕ) :
    Keeps AnyBody C (copyChunk path remaining) := by
  unfold copyChunk
  split_ifs
  · exact .ret _
  refine fun c hc => Follows.step trivial fun answer hok => ?_
  obtain ⟨chunk, rfl⟩ := hok
  have hread := hc.call (o := .read (min uploadChunkBytes remaining)) (fun _ => trivial) (.ok chunk)
  change Follows conversing _ _ (ite _ _ _) _
  split_ifs
  · exact Follows.raise ⟨hC _, hread⟩
  · exact Follows.raise ⟨hC _, hread⟩
  · exact ((keeps_fileStep _ _).bind fun _ => .ret _) _ hread

theorem keeps_fillUpload (hC : ∀ message, C (.hexFileError message)) (path : Path)
    (contentLength : ℕ) : Keeps AnyBody C (fillUpload path contentLength) := by
  have hcopy : Keeps AnyBody C (copyUpload path contentLength) := by
    refine Keeps.bind (fun c hc => ?_) fun _ => (keeps_fileStep _ _).bind fun _ =>
      keeps_fileStep _ _
    refine Follows.loop (K := fun _ c => c.Sound AnyBody) (fun remaining c hc => ?_) _ hc
    exact (keeps_copyChunk hC path remaining c hc).conseq
      (fun _ _ h => ⟨fun _ _ => h, fun _ _ => h⟩) fun _ _ h => h
  refine (keeps_fileStep _ _).bind fun _ => Keeps.bind ?_ fun _ => keeps_fileStep _ _
  exact hcopy.attempt_bind (fun a => (keeps_fileStep _ _).bind fun _ => .ret _)
    fun e he => (keeps_fileStep _ _).bind fun _ => .raise he

theorem keeps_writeUpload (hC : ∀ message, C (.hexFileError message)) (contentLength : ℕ) :
    Keeps AnyBody C (writeUpload contentLength) := by
  unfold writeUpload
  split_ifs
  · exact .raise (hC _)
  refine fun c hc => Follows.step trivial fun made hmade => ?_
  obtain ⟨a, rfl⟩ := hmade
  refine Follows.step trivial fun named hnamed => ?_
  obtain ⟨path, rfl⟩ := hnamed
  have hfill : Keeps AnyBody C (unlinkOnError path (fillUpload path contentLength)) :=
    (keeps_fillUpload hC path contentLength).attempt_bind (fun _ => .ret _)
      fun e he => Keeps.callBind (o := .unlink path) trivial fun _ => .raise he
  exact (hfill.bind fun _ => .ret path) _ ((hc.call (o := .mkdir) trivial (.ok a)).call
    (o := .mkstemp) trivial (.ok path))

namespace IngressApi
variable {settings : Settings} {fuel : ℕ}

theorem keeps_admitted (hbusy : ∀ message, C (.operationBusyError message))
    (hrefused : ∀ message, C (.ingressError message)) {block : AppProgram α}
    (hb : Keeps B C block) : Keeps B C (admitted block) :=
  Keeps.withLock ((keeps_requireAccepting hrefused).bind fun _ =>
    (keeps_requireIdle hbusy).bind fun _ => hb)

/-- A refusal that `do_POST` maps. -/
abbrev Mapped (e : Exn) : Prop := isMapped e = true

theorem follows_told {p : AppProgram α} (hp : Keeps B Mapped p) (hc : c.Sound B) :
    Follows conversing (fun _ => Conversation.Sound B) (fun e c => c.Told e) p c :=
  (hp c hc).conseq (fun _ _ h => h) fun _ _ h => h.2.told h.1

theorem follows_stageUpload (hc : c.Sound AnyBody) (path : Path) :
    Follows conversing (fun _ => Conversation.Sound AnyBody) (fun e c => c.Told e)
      (stageUpload settings path) c := by
  refine (follows_onFlasher (Flasher.follows_parseHexFile hc path)).bind fun image c hc => ?_
  refine (follows_onFlasher (Flasher.follows_preflight hc)).bind fun preflight c hc => ?_
  have hstage : Keeps AnyBody Mapped (ArtifactRegistry.stage image preflight) :=
    ArtifactRegistry.keeps_stage (fun _ => rfl) image preflight
  exact (follows_told (keeps_admitted (fun _ => rfl) (fun _ => rfl) hstage) hc).bind
    fun _ _ h => Follows.ret h

theorem follows_validateUpload (settings : Settings) (hc : c.Sound AnyBody) (contentLength : ℕ) :
    Follows conversing (fun _ => Conversation.Sound AnyBody) (fun e c => c.Told e)
      (validateUpload settings contentLength) c := by
  refine (follows_told (keeps_admitted (fun _ => rfl) (fun _ => rfl) (.ret ())) hc).bind
    fun _ c hc => ?_
  refine (follows_told (keeps_writeUpload (fun _ => rfl) contentLength) hc).bind fun path c hc => ?_
  exact Follows.attempt_bind (follows_stageUpload hc path) (fun _ _ h => Follows.ret h)
    fun e c h => Follows.step trivial fun _ _ => Follows.raise h

/-! ## The flash -/

/-- `assert isinstance(artifact_id, str)` fails. -/
def Asserts (artifactId confirm : Json) : Prop :=
  confirm = .bool true ∧ ∀ text, artifactId ≠ .str text

theorem keeps_claim (artifactId : String) :
    Keeps B Mapped (ArtifactRegistry.claim (.str artifactId)) := by
  unfold ArtifactRegistry.claim
  dsimp only
  split_ifs
  · exact Keeps.withLock (ArtifactRegistry.keeps_claimLocked (fun _ => rfl) artifactId)
  · exact .raise rfl

theorem keeps_requireRecoveryConsent (preflight : FlashPreflight) (confirmUnpairedRecovery : Json) :
    Keeps B Mapped (requireRecoveryConsent preflight confirmUnpairedRecovery) := by
  unfold requireRecoveryConsent
  split
  · exact .ret ()
  · exact .raise rfl
  · exact .ret ()
  · exact .ret ()
  · exact .raise rfl

theorem keeps_submitClaimed {artifactId : String}
    (hid : ¬ (artifactId = "" ∨ 128 < artifactId.length)) (artifact : StagedArtifact)
    (confirmUnpairedRecovery : Json) :
    Keeps B Mapped (submitClaimed artifactId artifact confirmUnpairedRecovery) :=
  Keeps.attempt_bind
    ((keeps_requireRecoveryConsent _ _).bind fun _ =>
      OperationController.keeps_submit (fun _ => rfl) hid _ _)
    (fun operation => .ret operation)
    fun _ he => (ArtifactRegistry.keeps_releaseClaim artifactId).bind fun _ => .raise he

/-- What the registry can hold a claim of has an identifier that can be submitted. -/
theorem keeps_flashLocked (artifactId : String) (confirmUnpairedRecovery : Json) :
    Keeps B Mapped (flashLocked artifactId confirmUnpairedRecovery) := by
  refine (keeps_requireAccepting fun _ => rfl).bind fun _ => ?_
  by_cases hlength : 16 ≤ artifactId.length ∧ artifactId.length ≤ 128
  · have hid : ¬ (artifactId = "" ∨ 128 < artifactId.length) := by
      rintro (rfl | h)
      · simp at hlength
      · omega
    exact (keeps_claim artifactId).bind fun artifact =>
      (keeps_submitClaimed hid artifact confirmUnpairedRecovery).bind fun operation =>
        (ArtifactRegistry.keeps_consume artifactId).bind fun _ => .ret operation
  · have hclaim : ArtifactRegistry.claim (.str artifactId) =
        .raise (.ingressError "a validated firmware image is required") := by
      rw [ArtifactRegistry.claim, if_neg hlength]
    rw [hclaim]
    exact .raise rfl

theorem follows_flash (hc : c.Sound B) (artifactId confirm confirmUnpairedRecovery : Json) :
    Follows conversing (fun _ c => c.Sound B ∧ ¬ Asserts artifactId confirm)
      (fun e c => c.Sound B ∧ (isMapped e = false ↔ Asserts artifactId confirm))
      (flash artifactId confirm confirmUnpairedRecovery) c := by
  unfold flash
  split
  · split
    · rename_i text
      have hnot : ¬ Asserts (.str text) (.bool true) := fun h => h.2 text rfl
      have hlocked :
          Keeps B Mapped (withLock .submission (flashLocked text confirmUnpairedRecovery)) :=
        Keeps.withLock (keeps_flashLocked text confirmUnpairedRecovery)
      refine ((hlocked.bind fun operation => .ret operation.operationId) c hc).conseq ?_ ?_
      · exact fun _ _ h => ⟨h, hnot⟩
      · exact fun e _ h => ⟨h.2, by simp [show isMapped e = true from h.1, hnot]⟩
    · rename_i hstr
      exact Follows.raise ⟨hc, iff_of_true rfl ⟨rfl, hstr⟩⟩
  · rename_i hconfirm
    exact Follows.raise ⟨hc, iff_of_false (by simp) fun h => hconfirm h.1⟩

/-! ## The device -/

/-- Programs of the flasher that refuse with `FlashError` only. -/
theorem follows_device {p : Program α} (hp : Raises (fun e => e.isFlashError = true) p)
    {body : Option (List UInt8)} (hc : c.responses = [] ∧ c.body = body) :
    Follows inspecting (fun _ c => c.responses = [] ∧ c.body = body)
      (fun e c => isMapped e = true ∧ c.responses = [] ∧ c.body = body) p c := by
  induction p generalizing c with
  | ret a => exact hc
  | raise e => exact ⟨isMapped_of_flashError hp, hc⟩
  | call o k ih =>
    refine ⟨trivial, fun a _ => ih a (hp a) ?_⟩
    cases o with
    | readBytes path => cases (a : Option (List UInt8)) <;> exact hc
    | loadState => cases (a : StateRead) <;> exact hc
    | _ => exact hc
  | halt => trivial

/-- A command to the device keeps the body, whatever it finds. -/
theorem follows_exclusive {p : Program α} (hp : Raises (fun e => e.isFlashError = true) p)
    {body : Option (List UInt8)} (hc : c.Sound (· = body)) :
    Follows conversing (fun _ c => c.responses = [] ∧ c.body = body)
      (fun e c => isMapped e = true ∧ c.responses = [] ∧ c.body = body)
      (admitted (withLock .flash (onFlasher p))) c := by
  have hrefused {e : Exn} {c : Conversation} (h : Mapped e ∧ c.Sound (· = body)) :
      isMapped e = true ∧ c.responses = [] ∧ c.body = body := ⟨h.1, h.2.responses, h.2.body⟩
  have haccepting : Keeps (· = body) Mapped requireAcceptingMutationsLocked :=
    keeps_requireAccepting fun _ => rfl
  have hidle : Keeps (· = body) Mapped requireIdle := keeps_requireIdle fun _ => rfl
  have hlocked := hc.call (o := .acquire .submission) trivial ()
  refine converse_withLock (fun _ _ h => h) (fun _ _ h => h) ?_
  refine ((haccepting _ hlocked).conseq (fun _ _ h => h) fun _ _ h => hrefused h).bind
    fun _ c hc => ?_
  refine ((hidle c hc).conseq (fun _ _ h => h) fun _ _ h => hrefused h).bind fun _ c hc => ?_
  exact converse_withLock (fun _ _ h => h) (fun _ _ h => h)
    (follows_onFlasher (follows_device hp ⟨hc.responses, hc.body⟩))

theorem follows_setLed {body : Option (List UInt8)} (hc : c.Sound (· = body)) (mode : Json) :
    Follows conversing (fun _ c => c.responses = [] ∧ c.body = body)
      (fun e c => isMapped e = true ∧ c.responses = [] ∧ c.body = body)
      (setLed fuel settings mode) c := by
  unfold setLed
  split
  · exact Follows.raise ⟨rfl, hc.responses, hc.body⟩
  · exact follows_exclusive (Flasher.setLed_raises fuel) hc

end IngressApi

/-! ## `do_POST` -/

namespace Handler

/-- A decimal `Content-Length` that `int` does not convert. -/
def LongLength (request : PostRequest) : Prop :=
  ∃ header, request.contentLength = some header ∧ isDecimalHeader header = true ∧
    maxStrDigits < header.toList.length

/-- `json.loads` stops at a limit of the interpreter. -/
def TooMuch (depth : ℕ) (body : List UInt8) : Prop :=
  ∃ text, decodeUtf8 body = some text ∧
    (Json.loadsWithin maxStrDigits depth text = .error .tooManyDigits ∨
      Json.loadsWithin maxStrDigits depth text = .error .tooDeep)

variable {netlocAllowed : List Char → Bool} {depth fuel : ℕ} {settings : Settings}
  {request : PostRequest}

theorem contentLength_error {maximum : ℕ} {e : Exn}
    (h : contentLength request.contentLength maximum = .error e) :
    isMapped e = false ↔ LongLength request := by
  unfold contentLength at h
  split at h
  · rename_i hnone
    cases h
    exact iff_of_false (by simp) fun ⟨_, hsome, _⟩ => by simp [hnone] at hsome
  · rename_i header hsome
    split_ifs at h with hdecimal
    · cases h
      refine iff_of_false (by simp) fun ⟨_, hsome', hdecimal', _⟩ => ?_
      rw [hsome] at hsome'
      cases hsome'
      simp [hdecimal'] at hdecimal
    · by_cases hlong : maxStrDigits < header.toList.length
      · rw [intOfDigits, if_pos hlong] at h
        cases h
        exact iff_of_true rfl ⟨header, hsome, by simpa using hdecimal, hlong⟩
      · rw [intOfDigits, if_neg hlong] at h
        simp only [bind, Except.bind] at h
        split_ifs at h
        · cases h
          refine iff_of_false (by simp) fun ⟨_, hsome', _, hlong'⟩ => ?_
          rw [hsome] at hsome'
          cases hsome'
          exact hlong hlong'
        · cases h

theorem contentLength_ok {maximum size : ℕ}
    (h : contentLength request.contentLength maximum = .ok size) : ¬ LongLength request := by
  rintro ⟨header, hsome, hdecimal, hlong⟩
  simp [contentLength, hsome, hdecimal, intOfDigits, hlong, bind, Except.bind] at h

theorem jsonObject_error {body : List UInt8} {e : Exn} (h : jsonObject depth body = .error e) :
    isMapped e = false ↔ TooMuch depth body := by
  unfold jsonObject at h
  dsimp only at h
  split at h
  · rename_i hnone
    cases h
    exact iff_of_false (by simp) fun ⟨_, hsome, _⟩ => by simp [hnone] at hsome
  · rename_i text htext
    have hfalse
      (hloads : ∀ e, Json.loadsWithin maxStrDigits depth text = .error e → e = .malformed) :
        ¬ TooMuch depth body := by
      rintro ⟨text', htext', h | h⟩
      · rw [htext] at htext'
        cases htext'
        cases hloads _ h
      · rw [htext] at htext'
        cases htext'
        cases hloads _ h
    split at h
    · cases h
    · rename_i hloads
      cases h
      exact iff_of_false (by simp) (hfalse (by simp [hloads]))
    · rename_i hloads
      cases h
      exact iff_of_false (by simp) (hfalse (by simp [hloads]))
    · rename_i hloads
      cases h
      exact iff_of_true rfl ⟨text, htext, .inl hloads⟩
    · rename_i hloads
      cases h
      exact iff_of_true rfl ⟨text, htext, .inr hloads⟩

theorem jsonObject_ok {body : List UInt8} {fields : List (String × Json)}
    (h : jsonObject depth body = .ok fields) : ¬ TooMuch depth body := by
  rintro ⟨text, htext, hloads | hloads⟩
  · simp [jsonObject, htext, hloads] at h
  · simp [jsonObject, htext, hloads] at h

/-- The length or the body that has been read goes beyond a limit. -/
def Overrun (depth : ℕ) (request : PostRequest) (c : Conversation) : Prop :=
  LongLength request ∨ ∃ body, c.body = some body ∧ TooMuch depth body

/-- The program raises something else than the four classes exactly when `X`. -/
def Closes (X : Conversation → Prop) (p : HttpProgram α) (c : Conversation) : Prop :=
  Follows handling (fun _ c => c.responses = [] ∧ ¬ X c)
    (fun e c => c.responses = [] ∧ (isMapped e = false ↔ X c)) p c

theorem follows_jsonBody (hc : c.Sound (· = none)) :
    Follows handling
      (fun fields c => (∃ body, c.Sound (· = some body) ∧ jsonObject depth body = .ok fields) ∧
        ¬ Overrun depth request c)
      (fun e c => c.responses = [] ∧ (isMapped e = false ↔ Overrun depth request c) ∧
        ∀ body fields, c.body = some body → jsonObject depth body ≠ .ok fields)
      (jsonBody depth request) c := by
  unfold jsonBody
  cases hlength : contentLength request.contentLength maxJsonBytes with
  | error e =>
    refine Follows.raise ⟨hc.responses, ?_, by simp [hc.body]⟩
    rw [contentLength_error hlength, Overrun, or_iff_left]
    rintro ⟨body, hbody, -⟩
    simp [hc.body] at hbody
  | ok size =>
    have hshort := contentLength_ok hlength
    refine Follows.step trivial fun answer hok => ?_
    obtain ⟨body, rfl⟩ := hok
    have hbody : (c.afterApp (.read size) (.ok body)).Sound (· = some body) :=
      ⟨hc.responses, rfl, hc.blank, hc.unreadable⟩
    have hover : Overrun depth request (c.afterApp (.read size) (.ok body)) ↔
        TooMuch depth body := by
      rw [Overrun, or_iff_right hshort, hbody.body]
      simp
    change Follows handling _ _ (Prog.ofExcept (jsonObject depth body)) _
    cases hobject : jsonObject depth body with
    | error e =>
      refine Follows.raise ⟨hbody.responses, ?_, ?_⟩
      · exact (jsonObject_error hobject).trans hover.symm
      · intro other fields hread h
        obtain rfl : body = other := Option.some.inj (hbody.body.symm.trans hread)
        rw [hobject] at h
        cases h
    | ok fields =>
      exact Follows.ret ⟨⟨body, hbody, hobject⟩, fun h => jsonObject_ok hobject (hover.mp h)⟩

/-- What a branch leaves behind that only the limits can make fail. -/
theorem closes_limited {f : List (String × Json) → HttpProgram α} (hc : c.Sound (· = none))
    (hf : ∀ fields body c, c.Sound (· = some body) → Follows handling
      (fun _ c => c.responses = [] ∧ c.body = some body)
      (fun e c => isMapped e = true ∧ c.responses = [] ∧ c.body = some body) (f fields) c) :
    Closes (Overrun depth request) (jsonBody depth request >>= f) c := by
  refine ((follows_jsonBody hc).conseq (fun _ _ h => h) fun e c h => ⟨h.1, h.2.1⟩).bind ?_
  rintro fields c ⟨⟨body, hc, -⟩, hwithin⟩
  have hsame {c' : Conversation} (hbody : c'.body = some body) : ¬ Overrun depth request c' := by
    rw [Overrun, hc.body] at hwithin
    rwa [Overrun, hbody]
  refine (hf fields body c hc).conseq ?_ ?_
  · exact fun _ c' h => ⟨h.1, hsame h.2⟩
  · exact fun e c' h => ⟨h.2.1, by simp [h.1, hsame h.2.2]⟩

theorem sound_start {B : Option (List UInt8) → Prop} (hB : B none) : Conversation.start.Sound B :=
  ⟨rfl, hB, not_false, not_false⟩

theorem closes_led (hc : c.Sound (· = none)) :
    Closes (Overrun depth request) (serve depth fuel settings request .led) c := by
  refine closes_limited hc fun fields body c hc => ?_
  refine Follows.bind (R := fun _ c => c.responses = [] ∧ c.body = some body) (follows_onApp ?_)
    fun _ _ h => Follows.ret h
  exact IngressApi.follows_setLed hc _

theorem closes_diagnostics (hc : c.Sound (· = none)) :
    Closes (Overrun depth request) (serve depth fuel settings request .diagnostics) c := by
  refine closes_limited hc fun fields body c hc => ?_
  split_ifs
  · exact Follows.raise ⟨rfl, hc.responses, hc.body⟩
  · refine Follows.bind (R := fun _ c => c.responses = [] ∧ c.body = some body) (follows_onApp ?_)
      fun _ _ h => Follows.ret h
    exact IngressApi.follows_exclusive (Flasher.diagnostics_raises fuel) hc

/-- The requests for a flash that escape. -/
def FlashEscapes (depth : ℕ) (request : PostRequest) (c : Conversation) : Prop :=
  Overrun depth request c ∨ ∃ body fields, c.body = some body ∧
    jsonObject depth body = .ok fields ∧
      IngressApi.Asserts (Json.get fields "artifact_id") (Json.get fields "confirm")

theorem closes_flash (hc : c.Sound (· = none)) :
    Closes (FlashEscapes depth request) (serve depth fuel settings request .flash) c := by
  refine ((follows_jsonBody hc).conseq (fun _ _ h => h) ?_).bind ?_
  · rintro e c ⟨hresponses, hmapped, hnot⟩
    refine ⟨hresponses, hmapped.trans (Iff.symm (or_iff_left ?_))⟩
    rintro ⟨body, fields, hbody, hobject, -⟩
    exact hnot body fields hbody hobject
  rintro fields c ⟨⟨body, hc, hobject⟩, hwithin⟩
  have hescapes {c' : Conversation} (hbody : c'.body = some body) :
      FlashEscapes depth request c' ↔
        IngressApi.Asserts (Json.get fields "artifact_id") (Json.get fields "confirm") := by
    rw [FlashEscapes, or_iff_right]
    · rw [hbody]
      constructor
      · rintro ⟨_, _, ⟨⟩, hobject', hasserts⟩
        rw [hobject] at hobject'
        cases hobject'
        exact hasserts
      · exact fun h => ⟨body, fields, rfl, hobject, h⟩
    · rw [Overrun, hc.body] at hwithin
      rwa [Overrun, hbody]
  have hflash := follows_onApp (IngressApi.follows_flash hc (Json.get fields "artifact_id")
    (Json.get fields "confirm") (Json.get fields "confirm_unpaired_recovery"))
  refine (hflash.conseq (fun _ _ h => h) ?_).bind ?_
  · exact fun e c' h => ⟨h.1.responses, h.2.trans (hescapes h.1.body).symm⟩
  · exact fun operationId c' h => Follows.ret ⟨h.1.responses, fun hx =>
      h.2 ((hescapes h.1.body).mp hx)⟩

/-- The uploads that escape. -/
def UploadEscapes (request : PostRequest) (c : Conversation) : Prop :=
  request.contentType = "application/octet-stream" ∧
    (LongLength request ∨ c.blank ∨ c.unreadable)

theorem closes_validateUpload (hc : c.Sound AnyBody) :
    Closes (UploadEscapes request) (serve depth fuel settings request .validateUpload) c := by
  unfold serve
  split_ifs with htype
  · exact Follows.raise ⟨hc.responses, iff_of_false (by simp) fun h => htype h.1⟩
  have hmatch : request.contentType = "application/octet-stream" := not_not.mp htype
  cases hlength : contentLength request.contentLength maxHexFileBytes with
  | error e =>
    refine Follows.raise ⟨hc.responses, ?_⟩
    rw [contentLength_error hlength, UploadEscapes, and_iff_right hmatch, or_iff_left]
    simp [hc.blank, hc.unreadable]
  | ok size =>
    have hshort := contentLength_ok hlength
    have hescapes (c' : Conversation) :
        UploadEscapes request c' ↔ c'.blank ∨ c'.unreadable := by
      rw [UploadEscapes, and_iff_right hmatch, or_iff_right hshort]
    have hupload := follows_onApp (IngressApi.follows_validateUpload settings hc size)
    refine (hupload.conseq (fun _ _ h => h) ?_).bind ?_
    · exact fun e c' h => ⟨h.responses, h.fault.trans (hescapes c').symm⟩
    · exact fun validation c' h => Follows.ret ⟨h.responses, fun hx =>
        ((hescapes c').mp hx).elim h.blank h.unreadable⟩

/-- The requests of a branch whose exception is none of the four classes. -/
def RouteEscapes (depth : ℕ) (request : PostRequest) : Route → Conversation → Prop
  | .validateUpload, c => UploadEscapes request c
  | .flash, c => FlashEscapes depth request c
  | .led, c => Overrun depth request c
  | .diagnostics, c => Overrun depth request c
  | .unknown, _ => False

def Escapes (netlocAllowed : List Char → Bool) (depth : ℕ) (request : PostRequest)
    (c : Conversation) : Prop :=
  match route netlocAllowed request with
  | .error _ => True
  | .ok branch => RouteEscapes depth request branch c

/-- One response, with one of the four statuses. -/
def AnsweredOnce (c : Conversation) : Prop :=
  ∃ status, status ∈ [200, 400, 404, 409] ∧ c.responses = [status]

theorem closes_route (hc : c.Sound (· = none)) (branch : Route) :
    Closes (RouteEscapes depth request branch) (serve depth fuel settings request branch) c := by
  cases branch with
  | validateUpload => exact closes_validateUpload ⟨hc.responses, trivial, hc.blank, hc.unreadable⟩
  | flash => exact closes_flash hc
  | led => exact closes_led hc
  | diagnostics => exact closes_diagnostics hc
  | unknown => exact Follows.ret ⟨hc.responses, not_false⟩

theorem closes_request (hc : c.Sound (· = none)) :
    Closes (Escapes netlocAllowed depth request) (do
      let branch ← Prog.ofExcept (route netlocAllowed request)
      serve depth fuel settings request branch) c := by
  unfold Closes Escapes
  cases hroute : route netlocAllowed request with
  | error e =>
    refine Follows.raise ⟨hc.responses, iff_of_true ?_ trivial⟩
    unfold route at hroute
    split at hroute
    · cases hroute
      rfl
    · cases hroute
  | ok branch => exact closes_route hc branch

theorem follows_json {X : Conversation → Prop}
    (hX : ∀ c status payload, X (c.afterHttp (.respond status payload) ()) ↔ X c)
    (hc : c.responses = []) (hx : ¬ X c) {status : ℕ} (hstatus : status ∈ [200, 400, 404, 409])
    (payload : List (String × Json)) :
    Follows handling (fun _ c => AnsweredOnce c ∧ ¬ X c) (fun _ c => c.responses = [] ∧ X c)
      (json status payload) c := by
  refine ⟨trivial, fun _ _ => ⟨⟨status, hstatus, ?_⟩, fun h => hx ((hX c status payload).mp h)⟩⟩
  change c.responses ++ [status] = [status]
  rw [hc, List.nil_append]

/-- The clauses answer what is mapped, once, and let everything else through. -/
theorem follows_answer {X : Conversation → Prop}
    (hX : ∀ c status payload, X (c.afterHttp (.respond status payload) ()) ↔ X c)
    {outcome : Except Exn (Option (List (String × Json)))} (hc : c.responses = [])
    (hok : ∀ payload, outcome = .ok payload → ¬ X c)
    (herr : ∀ e, outcome = .error e → (isMapped e = false ↔ X c)) :
    Follows handling (fun _ c => AnsweredOnce c ∧ ¬ X c) (fun _ c => c.responses = [] ∧ X c)
      (answer outcome) c := by
  match outcome, hok, herr with
  | .ok (some payload), hok, _ => exact follows_json hX hc (hok _ rfl) (by decide) _
  | .ok none, hok, _ => exact follows_json hX hc (hok _ rfl) (by decide) _
  | .error err, _, herr =>
    have hmapped := herr err rfl
    simp only [answer]
    split_ifs with hbusy hrefusal
    · exact follows_json hX hc (hmapped.not.mp (by simp [isMapped, hbusy])) (by decide) _
    · exact follows_json hX hc (hmapped.not.mp (by simp [isMapped, hrefusal])) (by decide) _
    · exact Follows.raise ⟨hc, hmapped.mp (by simp [isMapped, hbusy, hrefusal])⟩

/-- A response tells nothing of what is wrong with the request. -/
theorem escapes_respond (c : Conversation) (status : ℕ) (payload : List (String × Json)) :
    Escapes netlocAllowed depth request (c.afterHttp (.respond status payload) ()) ↔
      Escapes netlocAllowed depth request c := by
  unfold Escapes
  cases route netlocAllowed request with
  | error e => exact Iff.rfl
  | ok branch => cases branch <;> exact Iff.rfl

theorem follows_doPost :
    Follows handling
      (fun _ c => AnsweredOnce c ∧ ¬ Escapes netlocAllowed depth request c)
      (fun _ c => c.responses = [] ∧ Escapes netlocAllowed depth request c)
      (doPost netlocAllowed depth fuel settings request) .start := by
  refine Follows.attempt_bind (closes_request (sound_start rfl)) ?_ ?_
  · rintro payload c ⟨hresponses, hx⟩
    refine follows_answer escapes_respond hresponses (fun _ _ => hx) ?_
    rintro _ ⟨⟩
  · rintro e c ⟨hresponses, hx⟩
    refine follows_answer escapes_respond hresponses ?_ ?_
    · rintro _ ⟨⟩
    · rintro _ ⟨⟩
      exact hx

/-- What is promised of requests: `answered` of a whole request, the others of
the methods of the API whatever their arguments. -/
structure Closed (netlocAllowed : List Char → Bool) (depth fuel : ℕ) (settings : Settings) :
    Prop where
  answered : ∀ request t r, Run (doPost netlocAllowed depth fuel settings request) t r → r ≠ .cut →
    handling.Trusted .start t →
      ((r = .returned () ∧ AnsweredOnce (handling.over .start t)) ↔
        ¬ Escapes netlocAllowed depth request (handling.over .start t))
  ends : 61 ≤ fuel → ∀ request w n start,
    httpClock.Trusted start ((doPost netlocAllowed depth fuel settings request).exec w n).1 →
      ((doPost netlocAllowed depth fuel settings request).exec w n).2 ≠ .cut
  validateUpload : ∀ contentLength t e,
    Run (IngressApi.validateUpload settings contentLength) t (.raised e) →
      conversing.Trusted .start t →
        (isMapped e = false ↔ (conversing.over .start t).blank ∨
          (conversing.over .start t).unreadable)
  flash : ∀ artifactId confirm confirmUnpairedRecovery t e,
    Run (IngressApi.flash artifactId confirm confirmUnpairedRecovery) t (.raised e) →
      conversing.Trusted .start t → (isMapped e = false ↔ IngressApi.Asserts artifactId confirm)
  setLed : ∀ mode t e, Run (IngressApi.setLed fuel settings mode) t (.raised e) →
    conversing.Trusted .start t → isMapped e = true
  diagnostics : ∀ t e, Run (IngressApi.diagnostics fuel settings) t (.raised e) →
    conversing.Trusted .start t → isMapped e = true

theorem post_answered {t : Trace Http} {r : Outcome Exn Unit}
    (hrun : Run (doPost netlocAllowed depth fuel settings request) t r) (hr : r ≠ .cut)
    (ht : handling.Trusted .start t) :
    (r = .returned () ∧ AnsweredOnce (handling.over .start t)) ↔
      ¬ Escapes netlocAllowed depth request (handling.over .start t) := by
  obtain ⟨-, hret, hraise⟩ := follows_doPost.run hrun ht
  cases r with
  | returned a => exact iff_of_true ⟨rfl, (hret () rfl).1⟩ (hret () rfl).2
  | raised e => exact iff_of_false (fun h => by cases h.1) fun h => h (hraise e rfl).2
  | cut => exact absurd rfl hr

/-- Every request is answered once, with one of the four statuses, exactly when it
does not escape. -/
theorem requests_closed (netlocAllowed : List Char → Bool) (depth fuel : ℕ)
    (settings : Settings) : Closed netlocAllowed depth fuel settings where
  answered _ _ _ hrun hr ht := post_answered hrun hr ht
  ends hfuel _ _ _ _ ht := (doPost_ends hfuel).exec ht
  validateUpload contentLength _ e hrun ht :=
    (((IngressApi.follows_validateUpload settings (sound_start trivial) contentLength).run hrun
      ht).2.2 e rfl).fault
  flash artifactId confirm confirmUnpairedRecovery _ e hrun ht :=
    (((IngressApi.follows_flash (B := AnyBody)
      (sound_start trivial) artifactId confirm confirmUnpairedRecovery).run hrun
      ht).2.2 e rfl).2
  setLed mode _ e hrun ht :=
    (((IngressApi.follows_setLed (sound_start rfl) mode).run hrun ht).2.2 e rfl).1
  diagnostics _ e hrun ht :=
    (((IngressApi.follows_exclusive (Flasher.diagnostics_raises fuel) (sound_start rfl)).run hrun
      ht).2.2 e rfl).1

/-! A command for the LED. -/

def ledRequest : PostRequest where
  target := "/api/led"
  contentType := "application/json"
  contentLength := some "13"
  ingressPath := ""

/-- `{"mode":"on"}`. -/
def ledBody : List UInt8 := [123, 34, 109, 111, 100, 101, 34, 58, 34, 111, 110, 34, 125]

def ledScript : AppScript where
  world := Script.answer { usb := fun _ => .ofDevices [cul "1-1" "ttyACM0" none] [] }
  read _ := .ok ledBody

def ledAnswer (n : ℕ) (c : Conversation) : (o : HttpOp) → Http.Ans o
  | .app (.pop identifier) => c.view.bind fun view => view.lookup identifier
  | .app o => ledScript.answer n o
  | .respond _ _ => ()

theorem ledAnswer_trusted (n : ℕ) (c : Conversation) (o : HttpOp) :
    c.TrustsHttp o (ledAnswer n c o) := by
  cases o with
  | respond status payload => trivial
  | app o =>
    cases o with
    | entries => exact List.nodup_nil
    | pop identifier =>
      intro view hview
      simp [ledAnswer, hview]
    | mkdir => exact ⟨_, rfl⟩
    | mkstemp => exact ⟨_, rfl⟩
    | read size => exact ⟨_, rfl⟩
    | file path step => exact ⟨_, rfl⟩
    | flasher o =>
      cases o with
      | loadState =>
        rintro e ⟨⟩
      | _ => trivial
    | _ => trivial

def HttpOp.isLedOn : HttpOp → Bool
  | .app (.flasher (.setLed .on)) => true
  | _ => false

/-- The body is read, the command is sent and the request is answered, so it does not
escape. -/
theorem led_answered : ∃ t,
    Run (doPost (fun _ => true) 1000 61 PlannedRun.qemuSettings ledRequest) t (.returned ()) ∧
      (handling.over .start t).body = some ledBody ∧ (∃ e ∈ t, HttpOp.isLedOn e.op = true) ∧
      ¬ Escapes (fun _ => true) 1000 ledRequest (handling.over .start t) := by
  let run := handling.medium.exec ledAnswer
    (doPost (fun _ => true) 1000 61 PlannedRun.qemuSettings ledRequest) 0 .start
  have hresult : run.2.1.result = some () := by decide +kernel
  have hbody : run.2.2.body = some ledBody := by decide +kernel
  have hresponses : run.2.2.responses = [200] := by decide +kernel
  have hled : run.1.any fun e => HttpOp.isLedOn e.op := by decide +kernel
  have hrun : Run _ run.1 run.2.1 := handling.medium.exec_run ledAnswer _ 0 .start
  rw [Outcome.result_eq_some.mp hresult] at hrun
  obtain ⟨htrusted, hover⟩ : handling.Trusted .start run.1 ∧ handling.over .start run.1 = run.2.2 :=
    handling.exec_trusted ledAnswer_trusted _ 0 .start
  have hclosed := requests_closed (fun _ => true) 1000 61 PlannedRun.qemuSettings
  have hanswered := (hclosed.answered _ _ _ hrun (by simp) htrusted).mp
    ⟨rfl, 200, by decide, by rw [hover, hresponses]⟩
  exact ⟨run.1, hrun, by rw [hover, hbody], List.any_eq_true.mp hled, hanswered⟩

/-! A flash that is confirmed without an artifact. -/

def flashRequest : PostRequest where
  target := "/api/flash"
  contentType := "application/json"
  contentLength := some "16"
  ingressPath := ""

/-- `{"confirm":true}`. -/
def confirmedBody : List UInt8 :=
  [123, 34, 99, 111, 110, 102, 105, 114, 109, 34, 58, 116, 114, 117, 101, 125]

def readEvent (body : List UInt8) : Event Http :=
  ⟨.app (.read 16), (.ok body : Except Exn (List UInt8))⟩

def isConfirmation : Except Exn (List (String × Json)) → Bool
  | .ok [(key, .bool true)] => key = "confirm"
  | _ => false

theorem confirmedBody_fields : jsonObject 1000 confirmedBody = .ok [("confirm", .bool true)] := by
  have h : isConfirmation (jsonObject 1000 confirmedBody) = true := by decide +kernel
  generalize jsonObject 1000 confirmedBody = object at h
  unfold isConfirmation at h
  split at h
  · rw [of_decide_eq_true h]
  · cases h

theorem flashRequest_raises (fuel : ℕ) (settings : Settings) {depth : ℕ} {body : List UInt8}
    {fields : List (String × Json)} {e : Exn}
    (hobject : jsonObject depth body = .ok fields)
    (hflash : IngressApi.flash (Json.get fields "artifact_id") (Json.get fields "confirm")
      (Json.get fields "confirm_unpaired_recovery") = .raise e) :
    Run (do
        let branch ← Prog.ofExcept (route (fun _ => true) flashRequest)
        serve depth fuel settings flashRequest branch) [readEvent body] (.raised e) := by
  have hroute : route (fun _ => true) flashRequest = .ok .flash := by decide +kernel
  have hlength : contentLength flashRequest.contentLength maxJsonBytes = .ok 16 := by decide +kernel
  have hbody : Run (jsonBody depth flashRequest) [readEvent body] (.returned fields) := by
    unfold jsonBody
    rw [hlength]
    refine .call _ ?_
    change Run (Prog.ofExcept (jsonObject depth body)) [] _
    rw [hobject]
    exact .returned _
  rw [hroute]
  refine List.append_nil [readEvent body] ▸ hbody.bind ?_
  rw [hflash]
  exact .raised e

/-- A confirmed flash without an artifact fails an assertion, and is not answered. -/
theorem flash_unanswered :
    ¬ ∀ netlocAllowed depth fuel settings request t r,
      Run (doPost netlocAllowed depth fuel settings request) t r → r ≠ .cut →
        handling.Trusted .start t → r = .returned () ∧ AnsweredOnce (handling.over .start t) := by
  intro h
  have hartifact : Json.get [("confirm", .bool true)] "artifact_id" = .null := by
    simp [Json.get, List.lookup_cons]
  have hconfirm : Json.get [("confirm", .bool true)] "confirm" = .bool true := by simp [Json.get]
  have hserve :=
    flashRequest_raises 61 ⟨.ofString "/dev/ttyACM0", 9600, 30, false, []⟩ confirmedBody_fields
    (e := .assertionError "") (by rw [hartifact, hconfirm]; rfl)
  have hrun := (Run.attempt_raised hserve).bind (f := answer) (.raised _)
  cases (h _ _ _ _ _ _ _ hrun (by simp) ⟨⟨_, rfl⟩, trivial⟩).1

end Handler
end Cul868Flasher
