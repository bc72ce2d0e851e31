import Cul868Flasher.Effects.Alone
import Cul868Flasher.Ingress.Interleaving

/-!
# A staged upload can be flashed

Between the sections of the other threads a request runs as a sequential program.
From there the flash of an unexpired entry goes through, whatever the tokens and
the clocks answer.
-/

namespace Cul868Flasher
open Python Effects

variable {α β : Type} {fuel : ℕ} {settings : Settings} {i : ℕ} {s s' : Site} {oracle : Site.Oracle}

/-- Thread `i` runs the program while no other thread takes a step. -/
abbrev Does (fuel : ℕ) (settings : Settings) (i : ℕ) (p : AppProgram α) (s : Site)
    (x : Except Exn α) (s' : Site) : Prop :=
  Alone (addon fuel settings) i p s x s'

theorem does_step (oracle : Site.Oracle) {o : App.Op} {f : App.Ans o → AppProgram β}
    {x : Except Exn β} (h : s.permits o (s.answer oracle o) = true)
    (hf : Does fuel settings i (f (s.answer oracle o)) (s.next i o (s.answer oracle o)) x s') :
    Does fuel settings i (call o >>= f) s x s' :=
  .step ⟨⟨oracle, rfl⟩, h, rfl⟩ hf

/-- The state while thread `i` holds one more lock. -/
def Site.holding (s : Site) (lock : Lock) (i : ℕ) : Site :=
  { s with locks := Function.update s.locks lock (some i) }

/-- A section that finds its lock free. -/
theorem does_withLock (oracle : Site.Oracle) {lock : Lock} {block : AppProgram α}
    {x : Except Exn α} (hfree : s.locks lock = none) (hfree' : s'.locks lock = none)
    (hb : Does fuel settings i block (s.holding lock i) x (s'.holding lock i)) :
    Does fuel settings i (withLock lock block) s x s' := by
  refine does_step oracle (by simp [Site.permits, hfree]) (hb.ensuring ?_)
  have hend : (s'.holding lock i).next i (.release lock) () = s' := by
    simp only [Site.next, Site.holding, Function.update_idem, ← hfree', Function.update_eq_self]
  exact .perform ⟨⟨oracle, rfl⟩, rfl, hend.symm⟩

/-! ## The registry -/

namespace ArtifactRegistry
variable {identifier : String} {entry : StagedArtifact}

/-- The only entry is left in place while it is unexpired. -/
theorem does_removeExpired (hentries : s.entries = [(identifier, entry)])
    (hfresh : (oracle .monotonic : ℚ) < entry.expiresAt) :
    Does fuel settings i removeExpiredLocked s (.ok ()) s := by
  refine does_step oracle rfl ?_
  change Does fuel settings i (expiredOf s.entries >>= fun expired => removeAll expired) s _ _
  have hexpired : Does fuel settings i (expiredOf s.entries) s (.ok []) s := by
    rw [hentries, expiredOf]
    by_cases hclaimed : entry.claimed = true
    · rw [isExpired, if_pos hclaimed]
      exact .bind (.ret _ _) (.bind (.ret _ _) (.ret _ _))
    · rw [isExpired, if_neg hclaimed]
      have hkept : decide (entry.expiresAt ≤ oracle .monotonic) = false := by simpa using hfresh
      refine .bind (does_step oracle rfl (.ret _ _)) (.bind (.ret _ _) ?_)
      change Does fuel settings i (.ret (if decide (entry.expiresAt ≤ oracle .monotonic) then
        [identifier] else [])) s _ _
      rw [hkept]
      exact .ret _ _
  exact hexpired.bind (.ret _ _)

theorem does_claim (hlength : 16 ≤ identifier.length ∧ identifier.length ≤ 128)
    (hfree : s.locks .registry = none) (hentries : s.entries = [(identifier, entry)])
    (hun : entry.claimed = false) (hfresh : (oracle .monotonic : ℚ) < entry.expiresAt) :
    Does fuel settings i (claim (.str identifier)) s (.ok { entry with claimed := true })
      { s with entries := [(identifier, { entry with claimed := true })] } := by
  rw [claim, if_pos hlength]
  refine does_withLock oracle hfree hfree ?_
  have hentries' : (s.holding .registry i).entries = [(identifier, entry)] := hentries
  refine (does_removeExpired hentries' hfresh).bind (does_step oracle rfl ?_)
  simp only [Site.answer, Site.next, hentries', List.lookup_cons_self, hun, Bool.false_eq_true,
    if_false]
  refine does_step oracle rfl ?_
  simp only [Site.next, hentries', Entries.setClaimed, List.map_cons, List.map_nil, if_true]
  exact .ret _ _

theorem does_consume (oracle : Site.Oracle) (hfree : s.locks .registry = none)
    (herased : s.entries.erase identifier = []) :
    Does fuel settings i (consume identifier) s (.ok ()) { s with entries := [] } := by
  refine does_withLock oracle hfree hfree (does_step oracle rfl ?_)
  have herased' : (s.holding .registry i).entries.erase identifier = [] := herased
  simp only [Site.next, herased']
  exact .ret _ _

end ArtifactRegistry

/-! ## The controller -/

namespace OperationController

/-- The state after the submission of an operation. -/
def submitting (s : Site) (operation : FlashOperation) (now : ℤ) : Site :=
  { s with
    queue := [operation]
    controller := s.controller.update now (.queued operation.operationId) }

theorem does_enqueue (oracle : Site.Oracle) (operation : FlashOperation)
    (hfree : s.locks .controller = none) (hidle : s.controller.status.busy = false)
    (hqueue : s.queue = []) :
    Does fuel settings i (withLock .controller (enqueue operation)) s (.ok ())
      (submitting s operation (Flasher.truncate (oracle .time))) := by
  refine does_withLock oracle hfree hfree (does_step oracle rfl ?_)
  have hidle' : (s.holding .controller i).controller.status.busy = false := hidle
  simp only [Site.answer, Site.next, hidle', Bool.false_eq_true, if_false]
  refine does_step oracle rfl ?_
  have hqueue' : (s.holding .controller i).queue = [] := hqueue
  simp only [Site.answer, Site.next, hqueue', List.length_nil, Nat.zero_lt_one, decide_true,
    Bool.not_true, Bool.false_eq_true, if_false, if_true, List.nil_append]
  exact does_step oracle rfl (.perform ⟨⟨oracle, rfl⟩, rfl, rfl⟩)

/-- A submission goes through while nothing is pending. -/
theorem does_submit (oracle : Site.Oracle) {artifactId : String} (image : HexImage)
    (manualRecovery : Option ManualRecoveryTarget)
    (hlength : 16 ≤ artifactId.length ∧ artifactId.length ≤ 128)
    (hfree : s.locks .controller = none) (hidle : s.controller.status.busy = false)
    (hqueue : s.queue = []) :
    Does fuel settings i (submit artifactId image manualRecovery) s
      (.ok ⟨oracle .tokenHex, artifactId, image, manualRecovery⟩)
      (submitting s ⟨oracle .tokenHex, artifactId, image, manualRecovery⟩
        (Flasher.truncate (oracle .time))) := by
  have hvalid : ¬(artifactId = "" ∨ 128 < artifactId.length) := by
    rintro (rfl | hlong)
    · simp at hlength
    · omega
  rw [submit, if_neg hvalid]
  exact does_step oracle rfl ((does_enqueue oracle _ hfree hidle hqueue).bind (.ret _ _))

end OperationController

/-! ## The request -/

/-- The second confirmation is the one that the upload needs. -/
def ConsentFits (preflight : FlashPreflight) (confirmUnpairedRecovery : Json) : Prop :=
  if preflight.manualRecovery.isSome then confirmUnpairedRecovery = .bool true
  else confirmUnpairedRecovery = .null ∨ confirmUnpairedRecovery = .bool false

/-- Nobody is in a section, and the add-on takes flashes. -/
structure Calm (s : Site) : Prop where
  submission : s.locks .submission = none
  registry : s.locks .registry = none
  controller : s.locks .controller = none
  running : s.stopping = false
  accepting : s.accepting = true
  idle : s.controller.status.busy = false

/-- An entry that can be flashed before it expires. -/
structure Flashable (s : Site) (identifier : String) (entry : StagedArtifact) : Prop extends
    Calm s where
  queue : s.queue = []
  staged : s.entries = [(identifier, entry)]
  unclaimed : entry.claimed = false
  length : 16 ≤ identifier.length ∧ identifier.length ≤ 128

namespace IngressApi
variable {identifier : String} {entry : StagedArtifact} {confirmUnpairedRecovery : Json}

theorem does_requireRecoveryConsent {preflight : FlashPreflight}
    (h : ConsentFits preflight confirmUnpairedRecovery) :
    Does fuel settings i (requireRecoveryConsent preflight confirmUnpairedRecovery) s
      (.ok ()) s := by
  unfold ConsentFits at h
  unfold requireRecoveryConsent
  cases hrecovery : preflight.manualRecovery with
  | none =>
    rw [hrecovery] at h
    obtain rfl | rfl : confirmUnpairedRecovery = .null ∨ confirmUnpairedRecovery = .bool false := h
    · exact .ret _ _
    · exact .ret _ _
  | some target =>
    rw [hrecovery] at h
    obtain rfl : confirmUnpairedRecovery = .bool true := h
    exact .ret _ _

theorem does_requireAccepting (oracle : Site.Oracle) (hrunning : s.stopping = false)
    (hopen : s.accepting = true) :
    Does fuel settings i requireAcceptingMutationsLocked s (.ok ()) s := by
  refine does_step oracle rfl ?_
  simp only [Site.answer, Site.next, hrunning, Bool.false_eq_true, if_false]
  refine does_step oracle rfl ?_
  simp only [Site.answer, Site.next, hopen, Bool.not_true, Bool.false_eq_true, if_false]
  exact .ret _ _

theorem does_submitClaimed (oracle : Site.Oracle)
    (hlength : 16 ≤ identifier.length ∧ identifier.length ≤ 128)
    (hconsent : ConsentFits entry.preflight confirmUnpairedRecovery)
    (hfree : s.locks .controller = none) (hidle : s.controller.status.busy = false)
    (hqueue : s.queue = []) :
    Does fuel settings i (submitClaimed identifier entry confirmUnpairedRecovery) s
      (.ok ⟨oracle .tokenHex, identifier, entry.image, entry.preflight.manualRecovery⟩)
      (OperationController.submitting s
        ⟨oracle .tokenHex, identifier, entry.image, entry.preflight.manualRecovery⟩
        (Flasher.truncate (oracle .time))) := by
  refine Alone.bind (Alone.attempt (x := .ok _) ?_) (.ret _ _)
  exact (does_requireRecoveryConsent hconsent).bind
    (OperationController.does_submit oracle _ _ hlength hfree hidle hqueue)

variable (fuel settings i) in
/-- The flash of an entry that can be flashed, and what it leaves. -/
theorem does_flash (oracle : Site.Oracle) (h : Flashable s identifier entry)
    (hconsent : ConsentFits entry.preflight confirmUnpairedRecovery)
    (hfresh : (oracle .monotonic : ℚ) < entry.expiresAt) :
    ∃ operationId now, Does fuel settings i
      (flash (.str identifier) (.bool true) confirmUnpairedRecovery) s (.ok operationId)
      { OperationController.submitting s ⟨operationId, identifier, entry.image,
          entry.preflight.manualRecovery⟩ now with entries := [] } := by
  refine ⟨oracle .tokenHex, Flasher.truncate (oracle .time), ?_⟩
  have hrunning : (s.holding .submission i).stopping = false := h.running
  have haccepting : (s.holding .submission i).accepting = true := h.accepting
  have hregistry : (s.holding .submission i).locks .registry = none := h.registry
  have hcontroller : (s.holding .submission i).locks .controller = none := h.controller
  have hstaged : (s.holding .submission i).entries = [(identifier, entry)] := h.staged
  refine Alone.bind
    (a := ⟨oracle .tokenHex, identifier, entry.image, entry.preflight.manualRecovery⟩)
    (does_withLock oracle h.submission ?_ ?_) (.ret _ _)
  · exact h.submission
  refine (does_requireAccepting oracle hrunning haccepting).bind ?_
  refine (ArtifactRegistry.does_claim h.length hregistry hstaged h.unclaimed hfresh).bind ?_
  refine Alone.bind (does_submitClaimed oracle h.length ?_ ?_ ?_ ?_) ?_
  · exact hconsent
  · exact hcontroller
  · exact h.idle
  · exact h.queue
  refine Alone.bind (ArtifactRegistry.does_consume oracle ?_ ?_) (.ret _ _)
  · exact hregistry
  · simp [OperationController.submitting, Entries.erase]

end IngressApi
end Cul868Flasher
