import Cul868Flasher.Ingress.Calls
import Cul868Flasher.Ingress.Uploads

/-!
# Requests that fail

A `flash` or `validate_upload` that raises has submitted and staged nothing: its
exceptions come before the calls that would.
-/

namespace Cul868Flasher
open Python Effects

variable {α β : Type} {lock : Lock} {p : AppProgram α} {f : α → AppProgram β} {b : Bool}

/-! ## What is refused -/

/-- The calls that neither submit nor stage anything. -/
def quietCallKinds : List CallKind :=
  [.lock .submission, .lock .flash, .lock .registry, .lock .controller, .step, .inspection, .device]

abbrev Quiet (p : AppProgram α) : Prop := Confined quietCallKinds p

/-- The answered call has neither submitted nor staged anything. -/
def spares : (o : App.Op) → App.Ans o → Bool
  | .update _ _, _ => false
  | .putNowait _, put => !put
  | .clear, _ => false
  | .insert _ _, _ => false
  | _, _ => true

@[simp] def sparing : Discipline App Bool where
  allows _ _ := True
  trusts _ _ _ := True
  after spared o a := spared && spares o a

/-- What an exception leaves behind has been spared. -/
def Careful (p : AppProgram α) : Prop :=
  Follows sparing (fun _ _ => True) (fun _ spared => spared = true) p true

theorem spares_of_quiet {o : App.Op} (h : AppOp.kind o ∈ quietCallKinds) (a : App.Ans o) :
    spares o a = true := by
  have hchange : CallKind.change ∉ quietCallKinds := by decide
  have hsubmission : CallKind.submission ∉ quietCallKinds := by decide
  have hstaging : CallKind.staging ∉ quietCallKinds := by decide
  cases o with
  | update u now => cases u <;> first | exact absurd h hchange | exact absurd h hsubmission
  | putNowait operation => exact absurd h hsubmission
  | clear => exact absurd h hstaging
  | insert identifier entry => exact absurd h hstaging
  | _ => rfl

theorem follows_quiet (hp : Quiet p) :
    Follows sparing (fun _ spared => spared = true) (fun _ spared => spared = true) p true :=
  Follows.frame hp (fun _ _ => trivial) fun _ a ho => by simp [spares_of_quiet ho a]

namespace Careful

theorem quiet (hp : Quiet p) : Careful p :=
  (follows_quiet hp).conseq (fun _ _ _ => trivial) fun _ _ h => h

/-- A quiet beginning. -/
theorem after (hp : Quiet p) (hf : ∀ a, Careful (f a)) : Careful (p >>= f) := by
  refine Follows.bind (follows_quiet hp) ?_
  rintro a _ rfl
  exact hf a

/-- An end that raises nothing. -/
theorem before (hp : Careful p) (hf : ∀ a, Raises (fun _ => False) (f a)) : Careful (p >>= f) :=
  Follows.bind hp fun a _ _ => (Follows.of_raises (fun _ _ => trivial) (hf a)).conseq
    (fun _ _ h => h) fun _ _ h => h.elim

theorem withLock {block : AppProgram α} (hb : Careful block) : Careful (withLock lock block) :=
  Follows.step trivial fun _ _ => Follows.ensuring hb
    (fun _ _ _ => Follows.perform trivial fun _ _ => trivial)
    fun _ spared h => Follows.perform trivial fun _ _ => by simp [h, spares]

theorem run {t : Trace App} {e : Exn} (hp : Careful p) (h : Run p t (.raised e)) :
    ∀ event ∈ t, spares event.op event.ans = true := by
  have htrusted : ∀ (spared : Bool) (t : Trace App), sparing.Trusted spared t := by
    intro spared t
    induction t generalizing spared with
    | nil => trivial
    | cons event t ih => exact ⟨trivial, ih _⟩
  have hover : ∀ (spared : Bool) (t : Trace App), sparing.over spared t =
      (spared && t.all fun event => spares event.op event.ans) := by
    intro spared t
    induction t generalizing spared with
    | nil => simp
    | cons event t ih => rw [Discipline.over_cons, ih, List.all_cons, sparing, Bool.and_assoc]
  have hall := (Follows.run hp h (htrusted true t)).2.2 e rfl
  rw [hover, Bool.true_and] at hall
  exact List.all_eq_true.mp hall

end Careful

/-! ## Flashing -/

theorem raises_unlinkAll (paths : List Path) :
    Raises (fun _ => False) (ArtifactRegistry.unlinkAll paths) := by
  induction paths with
  | nil => trivial
  | cons path paths ih => exact .bind (.perform _) fun _ => ih

theorem raises_withLock {block : AppProgram α} (hb : Raises (fun _ => False) block) :
    Raises (fun _ => False) (withLock lock block) :=
  .bind (.perform _) fun _ => hb.ensuring fun _ => .perform _

theorem careful_submit (artifactId : String) (image : HexImage)
    (manualRecovery : Option ManualRecoveryTarget) :
    Careful (OperationController.submit artifactId image manualRecovery) := by
  unfold OperationController.submit
  split_ifs
  · exact .quiet trivial
  refine .after (step_confined rfl (by decide)) fun operationId =>
    .before (.withLock ?_) fun _ => trivial
  refine .after (step_confined rfl (by decide)) fun (fields : Controller) => ?_
  split_ifs
  · exact .quiet trivial
  -- the queue is full, or the submission goes through
  refine Follows.step trivial fun (put : Bool) _ => ?_
  cases put with
  | false => exact Follows.raise rfl
  | true =>
    have hupdate : Raises (fun _ => False) (OperationController.update (.queued operationId)) :=
      .bind (.perform _) fun _ => .perform _
    exact (Follows.of_raises (fun _ _ => trivial) hupdate).conseq (fun _ _ h => h)
      fun _ _ h => h.elim

namespace IngressApi

theorem careful_submitClaimed (artifactId : String) (artifact : StagedArtifact)
    (confirmUnpairedRecovery : Json) :
    Careful (submitClaimed artifactId artifact confirmUnpairedRecovery) := by
  have hsubmit : Careful (requireRecoveryConsent artifact.preflight confirmUnpairedRecovery >>=
      fun _ => OperationController.submit artifactId artifact.image
        artifact.preflight.manualRecovery) :=
    .after (requireRecoveryConsent_confined _ _) fun _ => careful_submit _ _ _
  refine Follows.attempt_bind hsubmit (fun _ _ _ => Follows.ret trivial) ?_
  rintro e _ rfl
  exact Careful.quiet ((ArtifactRegistry.releaseClaim_confined (by decide) (by decide) _).bind
    fun _ => .raise e)

theorem careful_flash (artifactId confirm confirmUnpairedRecovery : Json) :
    Careful (flash artifactId confirm confirmUnpairedRecovery) := by
  unfold flash
  split
  · split
    · rename_i artifactId
      refine .before (.withLock (.after (requireAccepting_confined (by decide)) fun _ =>
          .after (ArtifactRegistry.claim_confined (by decide) (by decide) _) fun artifact => ?_))
        fun _ => trivial
      have hconsume : Raises (fun _ => False) (ArtifactRegistry.consume artifactId) :=
        raises_withLock (.bind (.perform _) fun _ => .pure _)
      exact .before (careful_submitClaimed artifactId artifact confirmUnpairedRecovery)
        fun _ => .bind hconsume fun _ => trivial
    · exact .quiet trivial
  · exact .quiet trivial

/-! ## Uploads -/

theorem careful_stage (image : HexImage) (preflight : FlashPreflight) :
    Careful (ArtifactRegistry.stage image preflight) := by
  refine .before (.withLock (.after (ArtifactRegistry.removeExpired_confined (by decide)) fun _ =>
    .after (step_confined rfl (by decide)) fun (entries : Entries) => ?_)) fun staged => ?_
  · split_ifs
    · exact .quiet trivial
    · refine (Follows.of_raises (C := fun _ => False) (fun _ _ => trivial) ?_).conseq
        (fun _ _ h => h) fun _ _ h => h.elim
      exact .bind (.perform _) fun _ => .bind (.perform _) fun _ => .bind (.perform _) fun _ =>
        .bind (.perform _) fun _ => trivial
  · exact .bind (raises_unlinkAll staged.2) fun _ => trivial

theorem careful_unlinkOnError {path : Path} {block : AppProgram α} (hb : Careful block) :
    Careful (unlinkOnError path block) := by
  refine Follows.attempt_bind hb (fun _ _ _ => Follows.ret trivial) ?_
  rintro e _ rfl
  exact Careful.quiet ((step_confined rfl (by decide)).bind fun _ => .raise e)

theorem careful_validateUpload (settings : Settings) (contentLength : ℕ) :
    Careful (validateUpload settings contentLength) := by
  refine .after (admitted_confined (by decide) (by decide) (by decide) trivial) fun _ => ?_
  refine .after (writeUpload_confined (by decide) contentLength) fun path =>
    careful_unlinkOnError ?_
  refine .after (onFlasher_confined (Flasher.parseHexFile_uses path) (by decide) (by decide))
    fun image => ?_
  refine .after (onFlasher_confined Flasher.preflight_uses (by decide) (by decide))
    fun preflight => ?_
  exact .before (.withLock (.after (requireAccepting_confined (by decide)) fun _ =>
    .after (requireIdle_confined (by decide) (by decide)) fun _ =>
    careful_stage image preflight)) fun _ => trivial

end IngressApi

/-- A request that submits or stages. -/
inductive Task.Mutates : Task → Prop where
  | validateUpload (contentLength : ℕ) : Mutates (.validateUpload contentLength)
  | flash (artifactId confirm confirmUnpairedRecovery : Json) :
    Mutates (.flash artifactId confirm confirmUnpairedRecovery)

theorem Task.Mutates.careful {task : Task} (h : task.Mutates) (fuel : ℕ) (settings : Settings) :
    Careful (task.program fuel settings) := by
  cases h with
  | validateUpload contentLength =>
    exact .before (IngressApi.careful_validateUpload settings contentLength) fun _ => trivial
  | flash artifactId confirm confirmUnpairedRecovery =>
    exact .before (IngressApi.careful_flash artifactId confirm confirmUnpairedRecovery)
      fun _ => trivial

end Cul868Flasher
