import Cul868Flasher.Flasher.Recoverability
import Cul868Flasher.Ingress.Sequence

/-!
# The process dies

Wherever the threads stand when the process ends, the record on disk is what the
operations one after the other have left. If a flash among them has disturbed the
device and no later operation has verified it, the next start takes it up.
-/

namespace Cul868Flasher
open Python Effects

variable {settings : Settings} {t u : Trace World}

/-- The saves are among the steps that a filter lets through. -/
theorem replaced_filter {f : Event World → Bool}
    (hf : ∀ file outcome, f ⟨.saveState file, outcome⟩ = true) (t : Trace World) :
    replaced (t.filter f) = replaced t := by
  induction t with
  | nil => rfl
  | cons e t ih =>
    cases hkeep : f e with
    | true =>
      rw [List.filter_cons_of_pos hkeep, replaced_cons, ih, ← replaced_cons]
    | false =>
      have hnone : replaced [e] = [] := by
        obtain ⟨o, a⟩ := e
        cases o with
        | saveState file =>
          rw [hf file a] at hkeep
          cases hkeep
        | _ => rfl
      rw [List.filter_cons_of_neg (by rw [hkeep]; exact Bool.false_ne_true), ih, replaced_cons,
        hnone, List.nil_append]

theorem replaced_ownSteps (t : Trace World) : replaced (ownSteps t) = replaced t :=
  replaced_filter (fun file outcome => by simp [Op.kind]) t

/-! ## The operations -/

/-- An operation other than a flash saves verified applications only. -/
theorem verified_of_uses {α : Type} {p : Program α} (h : Uses Flasher.exclusiveKinds p)
    {r : Outcome Exn α} (hrun : Run p t r) {file : StateFile} (hfile : file ∈ replaced t) :
    file.binding = some .verifiedApplication := by
  obtain ⟨u, outcome, v, rfl⟩ := mem_replaced hfile
  have hkind : OpKind.save file.binding ∈ Flasher.exclusiveKinds :=
    h.run hrun ⟨.saveState file, outcome⟩ (by simp)
  simpa [Flasher.exclusiveKinds] using hkind

/-- Nor does it disturb the device. -/
theorem undisturbed_of_uses {α : Type} {p : Program α} (h : Uses Flasher.exclusiveKinds p)
    {r : Outcome Exn α} (hrun : Run p t r) {e : Event World} (he : e ∈ t) :
    ¬ (IsCommand e ∨ (dfuOf e).isSome) := by
  have hkind := h.run hrun e he
  rintro (hcommand | hdfu)
  · rw [show e.op.kind = .bootloaderCommand from hcommand] at hkind
    exact absurd hkind (by decide)
  · rw [dfuOf_none fun hk => absurd (hk ▸ hkind) (by decide)] at hdfu
    cases hdfu

/-- What an operation has put in place without verifying the device is the record of
a transition. -/
theorem OperationRun.durable_known (h : OperationRun settings t) (hne : replaced t ≠ [])
    (hunverified : ∀ file ∈ replaced t, file.binding ≠ some .verifiedApplication) :
    ∃ file d, durable t = some file ∧ DeviceStateStore.encode d = .ok file ∧
      d.version = none ∧ d.configuredDevice = some (toString settings.device) ∧
      (d.recoveryBinding = .handoffPending ∨ d.recoveryBinding = .observedBootloader) := by
  obtain ⟨file, hfile⟩ := List.exists_mem_of_ne_nil _ hne
  cases h with
  | verify fuel r h =>
    exact absurd (verified_of_uses (Flasher.verifyRunningApplication_uses fuel settings) h hfile)
      (hunverified file hfile)
  | setLed fuel mode r h =>
    exact absurd (verified_of_uses (Flasher.setLed_uses fuel settings mode) h hfile)
      (hunverified file hfile)
  | diagnostics fuel r h =>
    exact absurd (verified_of_uses (Flasher.diagnostics_uses fuel settings) h hfile)
      (hunverified file hfile)
  | flash fuel image manualRecovery r h =>
    rcases PlannedRun.of_run h with hplanning | ⟨x, -, -, rfl⟩
    · exact absurd (replaced_planning hplanning) hne
    · have hreplaced : replaced (x.before ++ x.after) = replaced x.after := by
        rw [replaced_append, replaced_planning x.before_uses, List.nil_append]
      rw [hreplaced] at hne hunverified
      rw [durable, hreplaced]
      exact x.durable_known hne hunverified

/-- An operation that has disturbed the device has put a record in place. -/
theorem OperationRun.replaced_ne (h : OperationRun settings t)
    (hunderway : ∃ e ∈ t, IsCommand e ∨ (dfuOf e).isSome)
    (hunverified : ∀ file ∈ replaced t, file.binding ≠ some .verifiedApplication) :
    replaced t ≠ [] := by
  obtain ⟨e, he, hkind⟩ := hunderway
  cases h with
  | verify fuel r h =>
    exact absurd hkind
      (undisturbed_of_uses (Flasher.verifyRunningApplication_uses fuel settings) h he)
  | setLed fuel mode r h =>
    exact absurd hkind (undisturbed_of_uses (Flasher.setLed_uses fuel settings mode) h he)
  | diagnostics fuel r h =>
    exact absurd hkind (undisturbed_of_uses (Flasher.diagnostics_uses fuel settings) h he)
  | flash fuel image manualRecovery r h =>
    rcases PlannedRun.of_run h with hplanning | ⟨x, -, -, rfl⟩
    · exact absurd hkind (not_underway hplanning he)
    · have hreplaced : replaced (x.before ++ x.after) = replaced x.after := by
        rw [replaced_append, replaced_planning x.before_uses, List.nil_append]
      rw [hreplaced] at hunverified ⊢
      exact x.replaced_ne ⟨e, he, hkind⟩ hunverified

/-! ## The history -/

/-- The last element with a property. -/
theorem exists_last {α : Type} {P : α → Prop} {l : List α} (h : ∃ x ∈ l, P x) :
    ∃ l₁ x l₂, l = l₁ ++ x :: l₂ ∧ P x ∧ ∀ y ∈ l₂, ¬P y := by
  induction l with
  | nil =>
    obtain ⟨x, hx, -⟩ := h
    cases hx
  | cons y l ih =>
    by_cases hl : ∃ x ∈ l, P x
    · obtain ⟨l₁, x, l₂, rfl, hx, hlast⟩ := ih hl
      exact ⟨y :: l₁, x, l₂, rfl, hx, hlast⟩
    · obtain ⟨x, hx, hP⟩ := h
      rcases List.mem_cons.mp hx with rfl | hx
      · exact ⟨[], x, l, rfl, hP, fun z hz hPz => hl ⟨z, hz, hPz⟩⟩
      · exact absurd ⟨x, hx, hP⟩ hl

theorem replaced_flatten_nil {l : List (Trace World)} (h : ∀ w ∈ l, replaced w = []) :
    replaced l.flatten = [] := by
  induction l with
  | nil => rfl
  | cons w l ih =>
    rw [List.flatten_cons, replaced_append, h w (by simp),
      ih fun w hw => h w (List.mem_cons_of_mem _ hw), List.append_nil]

theorem durable_flatten {l₁ l₂ : List (Trace World)} {w : Trace World} (hw : replaced w ≠ [])
    (hlast : ∀ v ∈ l₂, replaced v = []) : durable (l₁ ++ w :: l₂).flatten = durable w := by
  rw [durable, List.flatten_append, List.flatten_cons, replaced_append, replaced_append,
    replaced_flatten_nil hlast, List.append_nil, List.getLast?_append_of_ne_nil _ hw]
  rfl

variable {fuel : ℕ} {acts : List (Act App Task Signal)} {c : System App Exn Site}
  {before after : List (Trace World)} {w : Trace World}

/-- The process may end anywhere. If the device was disturbed while the flash lock
was held for the last time but `after`, and since then no verified record has been
put in place, then the record on disk is that of a transition, and planning recovers
its device wherever it is stranded. -/
theorem crash_recovers (hsettings : settings.Admitted)
    (hascii : (toString settings.device).toList.all (fun c => c.toNat < 128) = true)
    (h : Reached fuel settings acts c) (hsessions : lockedSessions acts = before ++ w :: after)
    (hunderway : ∃ e ∈ w, IsCommand e ∨ (dfuOf e).isSome)
    (hunverified : ∀ file ∈ replaced (w :: after).flatten,
      file.binding ≠ some .verifiedApplication)
    (hname : ∀ file ∈ replaced (w :: after).flatten, ∀ d ∈ file.record,
      d.topology.length ≤ nameLimit) :
    ∃ d, (∀ start, DeviceStateStore.decode (stateAfter start (deviceSteps acts)) = .ok (some d)) ∧
      (d.recoveryBinding = .handoffPending ∨ d.recoveryBinding = .observedBootloader) ∧
      ∀ start settings' allow u q, settings'.device = settings.device →
        Run (Flasher.plan settings' none allow) u q → q ≠ .cut →
        (∀ read, ⟨.loadState, read⟩ ∈ u → read = stateAfter start (deviceSteps acts)) →
        (∀ e ∈ u, Flasher.isStranded settings' d e.op e.ans = true) →
        ∃ b, b.topology = d.topology ∧
          q = .returned ⟨.recovery, d.topology, none, some b, some d, none⟩ := by
  obtain ⟨operations, hoperations, hruns, -⟩ := lockedSessions_operations h
  have hdevice := deviceSteps_lockedSessions h
  have hoperation : ∀ v ∈ lockedSessions acts, ∃ u, v = ownSteps u ∧ OperationRun settings u := by
    intro v hv
    rw [hoperations] at hv
    obtain ⟨u, hu, rfl⟩ := List.mem_map.mp hv
    exact ⟨u, rfl, hruns u hu⟩
  have hlocked : ∀ v ∈ w :: after, v ∈ lockedSessions acts := by
    intro v hv
    rw [hsessions]
    exact List.mem_append_right _ hv
  have hw : replaced w ≠ [] := by
    obtain ⟨u, rfl, hu⟩ := hoperation w (hlocked w (by simp))
    rw [replaced_ownSteps]
    obtain ⟨e, he, hkind⟩ := hunderway
    refine hu.replaced_ne ⟨e, List.mem_of_mem_filter he, hkind⟩ fun file hfile =>
      hunverified file ?_
    rw [List.flatten_cons, replaced_append, replaced_ownSteps]
    exact List.mem_append_left _ hfile
  -- The last session that has put a record in place.
  obtain ⟨l₁, v, l₂, hsplit, hv, hlast⟩ := exists_last (P := fun v => replaced v ≠ [])
    ⟨w, List.mem_cons_self, hw⟩
  have hfiles : ∀ file ∈ replaced v, file ∈ replaced (w :: after).flatten := by
    intro file hfile
    rw [hsplit, List.flatten_append, List.flatten_cons, replaced_append, replaced_append]
    exact List.mem_append_right _ (List.mem_append_left _ hfile)
  have hdurable : durable (deviceSteps acts) = durable v := by
    rw [durable, hdevice, replaced_filter (fun _ _ => rfl), hsessions, hsplit, ← List.append_assoc]
    exact durable_flatten hv fun v hv => not_not.mp (hlast v hv)
  have hmem : v ∈ w :: after := by
    rw [hsplit]
    simp
  obtain ⟨u, rfl, hu⟩ := hoperation v (hlocked v hmem)
  rw [replaced_ownSteps] at hv hfiles
  obtain ⟨file, d, hfile, hencode, hversion, hconfigured, hbinding⟩ :=
    hu.durable_known hv fun file hfile => hunverified file (hfiles file hfile)
  obtain ⟨htransition, hload⟩ := transition_durable hsettings hascii hfile hencode hversion
    hconfigured hbinding fun file hfile => hname file (hfiles file hfile)
  have hstate : ∀ start, stateAfter start (deviceSteps acts) = stateAfter start u := by
    intro start
    rw [stateAfter, hdurable, durable, replaced_ownSteps]
    rfl
  refine ⟨d.normalize, fun start => by rw [hstate, hload], htransition.binding,
    fun start settings' allow u' q hsame hplan hcut hread hstranded => ?_⟩
  rw [hstate] at hread
  exact htransition.recovers (hload start) hsame hplan hcut hread hstranded

/-- The CUL of the process has a serial number, and `B01` is lost on its way. -/
def lostScript : AppScript where
  world := lostHandoffAnswer
  read _ := .ok sampleSource

/-- The verification of the start, and then the flash of an upload. -/
def lostFlash : List Turn := submission ++ [.run worker 80]

theorem crash_recovers_lost : ∃ acts c d, Reached 2 PlannedRun.qemuSettings acts c ∧
    (lockedSessions acts).length = 2 ∧
    (∀ start, DeviceStateStore.decode (stateAfter start (deviceSteps acts)) = .ok (some d)) ∧
    (d.recoveryBinding = .handoffPending ∨ d.recoveryBinding = .observedBootloader) := by
  have hplay : (play 2 PlannedRun.qemuSettings (lostScript.answer 0) lostFlash
      ([], boot 2 PlannedRun.qemuSettings)).any fun x =>
        (lockedSessions x.1).length == 2 && (lockedSessions x.1).getLast?.any fun w =>
          w.any (fun e => decide (IsCommand e)) && (replaced w).all fun file =>
            decide (file.binding ≠ some .verifiedApplication) &&
              file.record.all fun d => decide (d.topology.length ≤ nameLimit) := by
    decide +kernel
  obtain ⟨⟨acts, c⟩, hx, hend⟩ := (Option.any_eq_true _ _).mp hplay
  obtain ⟨hlength, hlast⟩ := Bool.and_eq_true_iff.mp hend
  obtain ⟨w, hw, hsession⟩ := (Option.any_eq_true _ _).mp hlast
  obtain ⟨hcommand, hfiles⟩ := Bool.and_eq_true_iff.mp hsession
  obtain ⟨e, he, hcommand⟩ := List.any_eq_true.mp hcommand
  have hfile : ∀ file ∈ replaced [w].flatten, _ := fun file hfile =>
    Bool.and_eq_true_iff.mp (List.all_eq_true.mp hfiles file (by simpa using hfile))
  have hreach := play_reached .nil hx
  have hsplit : lockedSessions acts = (lockedSessions acts).dropLast ++ [w] :=
    (List.dropLast_append_getLast? w hw).symm
  obtain ⟨d, hload, hbinding, -⟩ := crash_recovers qemuSettings_admitted (by decide +kernel) hreach
    hsplit ⟨e, he, .inl (of_decide_eq_true hcommand)⟩
    (fun file h => of_decide_eq_true (hfile file h).1)
    fun file h d hd => of_decide_eq_true ((Option.all_eq_true _ _).mp (hfile file h).2 d hd)
  exact ⟨acts, c, d, hreach, beq_iff_eq.mp hlength, hload, hbinding⟩

end Cul868Flasher
