import Cul868Flasher.Flasher.Commands
import Cul868Flasher.Flasher.Restore
import Cul868Flasher.Flasher.Verified
import Mathlib.Data.String.Basic

/-!
# The consumers of a flash

The consumers that a flash has paused stay paused from the handoff or the
beginning of a recovery until the verified record is saved. A flash that fails
before restores them all, and one that returns restores all or none of them.
-/

namespace Cul868Flasher
open Python Effects

/-! ## Sorted sets -/

theorem mem_sortedSet {x : String} {l : List String} : x ∈ sortedSet l ↔ x ∈ l := by
  rw [sortedSet, List.mem_insertionSort, List.mem_dedup]

theorem sortedSet_sorted (l : List String) : (sortedSet l).SortedLT := by
  have hnodup : (sortedSet l).Nodup :=
    (List.perm_insertionSort (· ≤ ·) _).nodup_iff.mpr (List.nodup_dedup l)
  exact List.sortedLE_insertionSort.sortedLT_of_nodup hnodup

theorem sortedSet_congr {l l' : List String} (h : ∀ x, x ∈ l ↔ x ∈ l') :
    sortedSet l = sortedSet l' := by
  refine (sortedSet_sorted l).eq_of_mem_iff (sortedSet_sorted l') fun x => ?_
  rw [mem_sortedSet, mem_sortedSet, h]

theorem sortedSet_sortedSet (l : List String) : sortedSet (sortedSet l) = sortedSet l :=
  sortedSet_congr fun _ => mem_sortedSet

namespace CulConsumerPause

theorem retainAddons_addonsToRestore {p : CulConsumerPause} :
    (p.retainAddons p.addons).addonsToRestore = [] := by
  refine List.filter_eq_nil_iff.mpr fun slug hslug => ?_
  have hmem : slug ∈ p.addons := by simpa using hslug
  simp [retainAddons, hmem]

theorem retainAddons_retainedAddons {p : CulConsumerPause} (hp : p.retained = []) :
    (p.retainAddons p.addons).retainedAddons = p.addons := by
  have hall : p.addons.filter (p.addons.contains ·) = p.addons :=
    List.filter_eq_self.mpr fun slug hslug => by simpa using hslug
  rw [retainedAddons, retainAddons, hp, List.nil_append, hall]
  exact sortedSet_sortedSet _

theorem addonsToRestore_of_retained {p : CulConsumerPause} (hp : p.retained = []) :
    p.addonsToRestore = p.addons := by
  simp [addonsToRestore, hp]

theorem retainedAddons_of_retained {p : CulConsumerPause} (hp : p.retained = []) :
    p.retainedAddons = [] := by
  rw [retainedAddons, hp]
  rfl

end CulConsumerPause

/-! ## The pause -/

namespace SupervisorClient
variable {fuel : ℕ}

theorem stopAddons_returned {stopped slugs result : List String} {t : Trace World}
    (h : Run (stopAddons fuel stopped slugs) t (.returned result)) : result = stopped ++ slugs := by
  induction slugs generalizing stopped t with
  | nil =>
    rw [(Run.pure_returned.mp h).2, List.append_nil]
  | cons slug rest ih =>
    obtain ⟨_, t₁, t₂, rfl, -, h₂⟩ := Run.bind_returned.mp h
    obtain ⟨_, t₃, t₄, rfl, -, h₄⟩ := Run.bind_returned.mp h₂
    rw [ih h₄, List.append_assoc, List.singleton_append]

/-- Only an accepted slug can be stopped. -/
theorem stopAddons_accepted {stopped slugs result : List String} {t : Trace World}
    (h : Run (stopAddons fuel stopped slugs) t (.returned result)) :
    ∀ slug ∈ slugs, isAddonSlug slug = true := by
  induction slugs generalizing stopped t with
  | nil => simp
  | cons slug rest ih =>
    obtain ⟨_, t₁, t₂, rfl, h₁, h₂⟩ := Run.bind_returned.mp h
    obtain ⟨_, t₃, t₄, rfl, -, h₄⟩ := Run.bind_returned.mp h₂
    obtain ⟨path, _, _, -, hpath, -⟩ := Run.bind_returned.mp (Run.raisingWith_returned.mp h₁)
    rintro other (_ | ⟨_, hother⟩)
    · by_contra hnot
      have hquote := (Flasher.ofExcept_returned.mp hpath).2
      rw [quoteSlug, if_neg hnot] at hquote
      cases hquote
    · exact ih h₄ other hother

theorem stopConsumers_returned {matched : CulConsumerPause} {stopped : List String}
    {t : Trace World} (h : Run (stopConsumers fuel matched) t (.returned stopped)) :
    stopped = matched.addons := by
  obtain ⟨result, t₁, t₂, rfl, h₁, h₂⟩ := Run.bind_returned.mp h
  rcases Run.attempt_returned_iff.mp h₁ with ⟨all, rfl, hall⟩ | ⟨⟨e, partly⟩, rfl, -⟩
  · obtain ⟨rfl, rfl⟩ := Run.pure_returned.mp h₂
    simpa using stopAddons_returned hall
  · obtain ⟨_, _, _, rfl, -, h₄⟩ := Run.bind_returned.mp h₂
    exact absurd h₄ Run.raise_returned

theorem pauseOf_addons (matched : CulConsumerPause) :
    (pauseOf matched matched.addons).addons = matched.addons := by
  have hall : ∀ l : List String, (∀ slug ∈ l, slug ∈ matched.addons) →
      l.filter (matched.addons.contains ·) = l := fun l hl =>
    List.filter_eq_self.mpr fun slug hslug => by simpa using hl slug hslug
  have hmem : ∀ slug, slug ∈ matched.addons ↔ slug ∈ matched.wmbusmetersAddons ++
      matched.max2mqttAddons ++ matched.additionalAddons := fun slug => mem_sortedSet
  rw [pauseOf, hall _ fun slug hs => (hmem slug).mpr (by simp [hs]),
    hall _ fun slug hs => (hmem slug).mpr (by simp [hs]),
    hall _ fun slug hs => (hmem slug).mpr (by simp [hs])]
  rfl

/-- The pause lists the consumers that were stopped, and would restore them all. -/
theorem pauseConsumers_returned {device : Path} {additional : List String}
    {paused : CulConsumerPause × List String} {t : Trace World}
    (h : Run (pauseConsumers fuel device additional) t (.returned paused)) :
    paused.1.restoreAfterError = true ∧ paused.1.retained = [] ∧ paused.1.addons = paused.2 := by
  obtain ⟨matched, t₁, t₂, rfl, -, h₂⟩ := Run.bind_returned.mp h
  obtain ⟨stopped, t₃, t₄, rfl, h₃, h₄⟩ := Run.bind_returned.mp h₂
  obtain ⟨rfl, rfl⟩ := Run.pure_returned.mp h₄
  rw [stopConsumers_returned h₃]
  exact ⟨rfl, rfl, pauseOf_addons matched⟩

theorem pauseConsumers_accepted {device : Path} {additional : List String}
    {paused : CulConsumerPause × List String} {t : Trace World}
    (h : Run (pauseConsumers fuel device additional) t (.returned paused)) :
    ∀ slug ∈ paused.1.addons, isAddonSlug slug = true := by
  obtain ⟨matched, t₁, t₂, rfl, -, h₂⟩ := Run.bind_returned.mp h
  obtain ⟨stopped, t₃, t₄, rfl, h₃, h₄⟩ := Run.bind_returned.mp h₂
  obtain ⟨rfl, rfl⟩ := Run.pure_returned.mp h₄
  obtain ⟨result, t₅, t₆, rfl, h₅, h₆⟩ := Run.bind_returned.mp h₃
  rcases Run.attempt_returned_iff.mp h₅ with ⟨all, rfl, hall⟩ | ⟨⟨e, partly⟩, rfl, -⟩
  · obtain ⟨rfl, rfl⟩ := Run.pure_returned.mp h₆
    obtain rfl : stopped = matched.addons := by simpa using stopAddons_returned hall
    rw [pauseOf_addons]
    exact stopAddons_accepted hall
  · obtain ⟨_, _, _, rfl, -, h₈⟩ := Run.bind_returned.mp h₆
    exact absurd h₈ Run.raise_returned

end SupervisorClient

/-! ## Requests that change a consumer -/

namespace Flasher
variable {settings : Settings} {plan : FlashPlan} {image : HexImage}

/-- What holds when a consumer is started or stopped after the history `h`. -/
def PostAllowed (plan : FlashPlan) (h : Trace World) (e : Event World) : Prop :=
  e.op.kind = .post → Early plan h ∨ VerifiedSaved h

theorem flashPaused_uses (fuel : ℕ) (pause : CulConsumerPause) :
    Uses (.get :: .save (some .verifiedApplication) :: handoffKinds ++ programmingKinds)
      (flashPaused fuel settings plan image pause) := by
  refine ((selectBootloader_uses fuel settings plan pause).of_subset (by decide)).bind fun x => ?_
  refine (((programBootloader_uses fuel settings plan image _).of_subset
    (by decide)).raisingWith _).bind fun startError => ?_
  refine (((verifyApplication_uses fuel settings _ _ _).of_subset (by decide)).raisingWith _).bind
    fun verified => ?_
  exact (recordApplication_uses fuel settings _ _ _ _ _).of_subset (by decide)

def pausingKinds : List OpKind := [.clock, .sleep, .get, .post, .file]

theorem Early.pausing {h : Trace World} {e : Event World} (he : e.op.kind ∈ pausingKinds)
    (hh : Early plan h) : Early plan (h ++ [e]) := by
  have hbefore : Before (h ++ [e]) :=
    hh.1.snoc ((by decide : ∀ k ∈ pausingKinds, k ∉ OpKind.bootloaderCommand :: laterKinds) _ he)
  refine ⟨hbefore, fun hmode => ?_⟩
  rintro ⟨message, hmem⟩
  rcases List.mem_append.mp hmem with hmem | hmem
  · exact hh.2 hmode ⟨message, hmem⟩
  · rw [← List.mem_singleton.mp hmem] at he
    exact absurd he (by simp [Op.kind, pausingKinds])

theorem VerifiedSaved.snoc {h : Trace World} (e : Event World) (hv : VerifiedSaved h) :
    VerifiedSaved (h ++ [e]) := by
  obtain ⟨file, hfile, hbinding⟩ := hv
  exact ⟨file, List.mem_append_left _ hfile, hbinding⟩

theorem Early.nil : Early plan [] :=
  ⟨fun _ he => absurd he List.not_mem_nil, fun _ ⟨_, hmem⟩ => absurd hmem List.not_mem_nil⟩

abbrev Posts (settings : Settings) (plan : FlashPlan) (P : Trace World → Prop)
    (p : Prog World ε α) (Q : α → Trace World → Prop) (E : ε → Trace World → Prop) : Prop :=
  Triple (fun h => Guarded (PostAllowed plan) h ∧ Guarded (StepAllowed settings plan) h) P p Q E

/-- A program that controls consumers while each such step is allowed. -/
theorem posts_of_allowed {ks : List OpKind} {p : Prog World ε α} {P : Trace World → Prop}
    (hp : Uses ks p) (hks : ks ⊆ pausingKinds)
    (hallowed : ∀ h, P h → Early plan h ∨ VerifiedSaved h)
    (hP : ∀ h e, e.op.kind ∈ pausingKinds → P h → P (h ++ [e])) :
    Posts settings plan P p (fun _ => P) fun _ => P := by
  have hposts : Triple (Guarded (PostAllowed plan)) P p (fun _ => P) fun _ => P :=
    Guarded.frame_of (hp.of_subset hks) (fun h _ _ hh _ => hallowed h hh) hP
  have hsteps : Steps settings plan (fun _ => True) p (fun _ _ => True) fun _ _ => True :=
    quiet_steps (hp.of_subset hks) (by decide) fun _ _ _ _ => trivial
  exact (hposts.and hsteps).conseq (fun _ _ hh => ⟨hh, trivial⟩) (fun _ _ _ hx => hx.1)
    fun _ _ _ hx => hx.1

theorem flashPaused_posts (fuel : ℕ) (pause : CulConsumerPause) :
    Posts settings plan Fresh (flashPaused fuel settings plan image pause)
      (fun _ => VerifiedSaved) (Raised plan pause) := by
  have hposts : Triple (Guarded (PostAllowed plan)) (fun _ => True)
      (flashPaused fuel settings plan image pause) (fun _ _ => True) fun _ _ => True := by
    refine Guarded.frame (flashPaused_uses fuel pause) (fun h e he hpost => ?_)
      fun _ _ _ _ => trivial
    rw [hpost] at he
    exact absurd he (by decide)
  exact (hposts.and (flashPaused_steps fuel pause)).conseq (fun _ _ hh => ⟨trivial, hh⟩)
    (fun _ _ _ hx => hx.2.2.2) fun _ _ _ hx => hx.2

/-- Consumers are started and stopped only before the handoff and after the verified record. -/
theorem transact_posts (fuel : ℕ) :
    Posts settings plan (fun h => h = []) (transact fuel settings image plan) (fun _ _ => True)
      fun _ _ => True := by
  have hpausing : Posts settings plan (fun h => h = []) (SupervisorClient.pauseConsumers fuel
      settings.device settings.additionalCulAddons) (fun _ => Fresh) fun _ _ => True := by
    have hposts : Triple (Guarded (PostAllowed plan)) (Early plan) (SupervisorClient.pauseConsumers
        fuel settings.device settings.additionalCulAddons) (fun _ => Early plan)
        fun _ => Early plan :=
      Guarded.frame_of (SupervisorClient.pauseConsumers_uses fuel _ _)
        (fun h _ _ hh _ => .inl hh) fun _ _ he hh => hh.pausing he
    refine (hposts.and (pauseConsumers_steps fuel)).conseq ?_ (fun _ _ _ hx => hx.2)
      fun _ _ _ _ => trivial
    rintro h - rfl
    exact ⟨Early.nil, rfl⟩
  refine Triple.bind (R := fun _ _ => True) ?_ fun _ => .pure fun _ _ _ => trivial
  refine Triple.bind hpausing fun paused => ?_
  refine Triple.bind (flashPaused_posts fuel paused.1).attempt fun result => ?_
  have huses := SupervisorClient.resumeConsumers_uses (α := Flashed) fuel paused.2
  rcases result with ⟨e, pause'⟩ | x
  · have hstopped : pause' = paused.1.leaveStoppedAfterError →
        Posts settings plan (fun _ => True) (SupervisorClient.resumeConsumers (α := Flashed) fuel
          paused.2 (.error (e, pause'))) (fun _ _ => True) fun _ _ => True := by
      rintro rfl
      obtain ⟨e', -, heq⟩ := resumeConsumers_stopped (α := Flashed) fuel paused.2 e
        paused.1.leaveStoppedAfterError_restoreAfterError
      rw [heq]
      exact .raise fun _ _ _ => trivial
    have hraised : Posts settings plan (Raised plan paused.1 (e, pause'))
        (SupervisorClient.resumeConsumers (α := Flashed) fuel paused.2 (.error (e, pause')))
        (fun _ _ => True) fun _ _ => True := by
      refine .or (.fact fun _ => ?_) (.or ?_ (.fact fun hpause => ?_))
      · exact (posts_of_allowed (P := Early plan) (huses _) (by decide) (fun _ hh => .inl hh)
          fun _ _ he hh => hh.pausing he).conseq (fun _ _ hh => hh) (fun _ _ _ _ => trivial)
          fun _ _ _ _ => trivial
      · exact .fact fun _ => .fact fun hpause => (hstopped hpause).pre fun _ _ _ => trivial
      · exact (hstopped hpause).pre fun _ _ _ => trivial
    exact hraised.pre fun h _ hx => hx.2 _ rfl
  · exact (posts_of_allowed (P := VerifiedSaved) (huses _) (by decide) (fun _ hh => .inr hh)
      fun _ e _ hh => hh.snoc e).conseq (fun _ _ hx => hx.1 _ rfl) (fun _ _ _ _ => trivial)
      fun _ _ _ _ => trivial

/-! ## The old alias -/

/-- The local tree or the hardware inventory has shown `previous` as an alias of `device`. -/
def AliasSeen (previous device : Path) (t : Trace World) : Prop :=
  (∃ fs, usbEvent (.byIdPathsForTty device) fs ∈ t ∧ previous ∈ fs.byIdPathsForTty device) ∨
  ∃ u v w paths, t = u ++ v ++ w ∧ previous ∈ paths ∧
    Run (SupervisorClient.hardwareSerialByIdPathsForTty device) v (.returned paths)

theorem AliasSeen.append {previous device : Path} {t : Trace World}
    (h : AliasSeen previous device t) (w : Trace World) : AliasSeen previous device (w ++ t) := by
  rcases h with ⟨fs, hmem, hp⟩ | ⟨u, v, z, paths, rfl, hp, hrun⟩
  · exact .inl ⟨fs, List.mem_append_right _ hmem, hp⟩
  · exact .inr ⟨w ++ u, v, z, paths, by simp, hp, hrun⟩

theorem waitForSerialByIdAliasesStep_returned {device previous : Path} {deadline : ℚ}
    {s : AliasWait} {t : Trace World} {aliases : List Path}
    (h : Run (waitForSerialByIdAliasesStep device deadline s) t (.returned (.inr aliases)))
    (hp : previous ∈ aliases) : AliasSeen previous device t := by
  obtain ⟨found, t₁, t₂, rfl, h₁, h₂⟩ := Run.bind_returned.mp h
  split at h₂
  · rename_i path paths
    obtain ⟨rfl, heq⟩ := Run.pure_returned.mp h₂
    cases heq
    rcases Run.catching_returned h₁ with ⟨paths', hok, hrun⟩ | ⟨_, -, herror, -⟩
    · cases hok
      obtain ⟨fs, t₃, t₄, rfl, hfs, hpaths⟩ := Run.bind_returned.mp hrun
      obtain rfl := Run.perform_returned.mp hfs
      obtain ⟨rfl, heq⟩ := Run.pure_returned.mp hpaths
      rw [heq] at hp
      exact .inl ⟨fs, by simp, hp⟩
    · cases herror
  · obtain ⟨hardware, t₃, t₄, rfl, h₃, h₄⟩ := Run.bind_returned.mp h₂
    split at h₄
    · rename_i path paths
      obtain ⟨rfl, heq⟩ := Run.pure_returned.mp h₄
      cases heq
      rcases Run.catching_returned h₃ with ⟨paths', hok, hrun⟩ | ⟨_, -, herror, -⟩
      · cases hok
        exact .inr ⟨t₁, t₃, [], _, by simp, hp, hrun⟩
      · cases herror
    · obtain ⟨now, t₅, t₆, rfl, -, h₆⟩ := Run.bind_returned.mp h₄
      split at h₆
      · split at h₆
        · exact absurd h₆ Run.raise_returned
        · cases (Run.pure_returned.mp h₆).2
          exact absurd hp List.not_mem_nil
      · split at h₆
        · obtain ⟨_, _, _, rfl, -, h₈⟩ := Run.bind_returned.mp h₆
          obtain ⟨_, _, _, rfl, -, h₁₀⟩ := Run.bind_returned.mp h₈
          cases (Run.pure_returned.mp h₁₀).2
        · obtain ⟨_, _, _, rfl, -, h₈⟩ := Run.bind_returned.mp h₆
          cases (Run.pure_returned.mp h₈).2

theorem inspectAliases_returned {fuel : ℕ} {device previous : Path} {t : Trace World}
    {aliases : List Path} {reason : Option String}
    (h : Run (inspectAliases fuel device) t (.returned (aliases, reason)))
    (hp : previous ∈ aliases) : AliasSeen previous device t := by
  obtain ⟨result, t₁, t₂, rfl, h₁, h₂⟩ := Run.bind_returned.mp h
  rcases Run.catching_returned h₁ with ⟨found, rfl, hrun⟩ | ⟨e, -, rfl, -⟩
  · obtain ⟨rfl, heq⟩ := Run.pure_returned.mp h₂
    cases heq
    obtain ⟨start, t₃, t₄, rfl, -, hloop⟩ := Run.bind_returned.mp hrun
    obtain ⟨s, u₁, u₂, rfl, hstep⟩ := Run.loop_returned hloop
    simpa using (waitForSerialByIdAliasesStep_returned hstep hp).append (t₃ ++ u₁)
  · cases (Run.pure_returned.mp h₂).2
    exact absurd hp List.not_mem_nil

/-- The configured path still leads to the endpoint, as far as the flash can tell. -/
def AliasKept (fuel : ℕ) (previous device : Path) (t : Trace World) : Prop :=
  previous.parent ≠ byIdDirectory ∨ ∃ aliases reason,
    Run (inspectAliases fuel device) t (.returned (aliases, reason)) ∧ previous ∈ aliases ∧
      AliasSeen previous device t

/-- The configured path is an alias that the inspection has not found at the endpoint. -/
def AliasLost (fuel : ℕ) (previous device : Path) (t : Trace World) : Prop :=
  previous.parent = byIdDirectory ∧ ∃ aliases reason u v, t = u ++ v ∧
    Run (inspectAliases fuel device) u (.returned (aliases, reason)) ∧ previous ∉ aliases

theorem manualSerialByIdMigration_returned {fuel : ℕ} {previous device : Path}
    {pause : CulConsumerPause} {t : Trace World} {x : Option SerialPathMigration × CulConsumerPause}
    (h : Run (manualSerialByIdMigration fuel previous device pause) t (.returned x)) :
    x.2 = pause ∧ AliasKept fuel previous device t ∨
      x.2 = pause.retainAddons pause.addons ∧ AliasLost fuel previous device t := by
  unfold manualSerialByIdMigration at h
  split at h
  · rename_i hparent
    obtain ⟨rfl, rfl⟩ := Run.pure_returned.mp h
    exact .inl ⟨rfl, .inl hparent⟩
  · rename_i hparent
    obtain ⟨⟨aliases, reason⟩, t₁, t₂, rfl, h₁, h₂⟩ := Run.bind_returned.mp h
    have hinspect := Run.raisingWith_returned.mp h₁
    dsimp only at h₂
    split at h₂
    · rename_i hmem
      obtain ⟨rfl, rfl⟩ := Run.pure_returned.mp h₂
      rw [List.append_nil]
      exact .inl
        ⟨rfl, .inr ⟨aliases, reason, hinspect, hmem, inspectAliases_returned hinspect hmem⟩⟩
    · rename_i hmem
      obtain ⟨_, t₃, t₄, rfl, -, h₄⟩ := Run.bind_returned.mp h₂
      obtain ⟨rfl, rfl⟩ := Run.pure_returned.mp h₄
      exact .inr ⟨rfl, not_not.mp hparent, aliases, reason, t₁, _, rfl, hinspect, hmem⟩

/-- `B01` may have been written, or a recovery has begun. -/
def Begun (plan : FlashPlan) (h : Trace World) : Prop :=
  (∃ e ∈ h, IsCommand e) ∨ plan.mode ≠ .application ∧ RecoveryBegun h

theorem Early.not_begun {h : Trace World} (hh : Early plan h) : ¬ Begun plan h := by
  rintro (⟨e, he, hc⟩ | ⟨hmode, hbegun⟩)
  · exact before_no_command hh.1 e he hc
  · exact hh.2 hmode hbegun

theorem Past.begun {h : Trace World} (hp : Past plan h) : Begun plan h := by
  rcases hp with ⟨-, u, v, rfl, -, -⟩ | ⟨hmode, hbegun, -⟩
  · exact .inl ⟨⟨.enterBootloader, (.ok () : Except Exn Unit)⟩, by simp, rfl⟩
  · exact .inr ⟨hmode, hbegun⟩

theorem HandoffFailed.begun {h : Trace World} (hh : HandoffFailed h) : Begun plan h := by
  obtain ⟨u, a, c, rfl, -, -⟩ := hh
  exact .inl ⟨⟨.enterBootloader, a⟩, by simp, rfl⟩

theorem Begun.append {h : Trace World} (hb : Begun plan h) (t : Trace World) :
    Begun plan (h ++ t) := by
  rcases hb with ⟨e, he, hc⟩ | ⟨hmode, message, hmem⟩
  · exact .inl ⟨e, List.mem_append_left _ he, hc⟩
  · exact .inr ⟨hmode, message, List.mem_append_left _ hmem⟩

end Flasher

/-! ## The lifecycle -/

namespace PlannedRun
variable {settings : Settings} {image : HexImage} {manualRecovery : Option ManualRecoveryTarget}

/-- The application has answered `V` and its record is saved. -/
def VerifiedBefore (x : PlannedRun settings image manualRecovery) (h : Trace World) : Prop :=
  ∃ u file v topology application device version,
    h = u ++ ⟨.saveState file, SaveOutcome.saved⟩ :: v ∧ x.Flashes topology ∧
    Flasher.VersionAccepted topology settings.qemuUsbReenumerationWorkaround settings.baudrate
      application device version u ∧
    file.record = some (Flasher.verifiedApplication settings application version).normalize

/-- Every consumer is handed to the restore procedure after the exception `e`. -/
def RestoresAll (x : PlannedRun settings image manualRecovery) (e : Exn) : Prop :=
  ∃ paused pausing block restoring err pause', x.after = pausing ++ (block ++ restoring) ∧
    Run (SupervisorClient.pauseConsumers x.fuel settings.device settings.additionalCulAddons)
      pausing
      (.returned paused) ∧
    Run (Flasher.flashPaused x.fuel settings x.plan x.checked paused.1) block
      (.raised (err, pause')) ∧
    Run (SupervisorClient.restore x.fuel paused.1.addons >>= fun failures =>
      (.raise (SupervisorClient.addRestoreNote err failures) :
        Program (Flasher.Flashed × CulConsumerPause))) restoring (.raised e)

theorem post_allowed (x : PlannedRun settings image manualRecovery) {u v : Trace World}
    {e : Event World} (h : x.after = u ++ e :: v) (he : e.op.kind = .post)
    (hbegun : Flasher.Begun x.plan u) : x.VerifiedBefore u := by
  have hall := (Flasher.transact_posts x.fuel).invariant ⟨Guarded.nil, Guarded.nil⟩ rfl x.transact
  rcases hall.1 u e v h he with hearly | ⟨file, hmem, hbinding⟩
  · exact absurd hbegun hearly.not_begun
  · obtain ⟨u₁, u₂, rfl⟩ := List.append_of_mem hmem
    have hsplit : x.after = u₁ ++ ⟨.saveState file, SaveOutcome.saved⟩ :: (u₂ ++ e :: v) := by
      rw [h]
      simp only [List.append_assoc, List.cons_append]
    obtain ⟨topology, application, device, version, hflashes, -, haccepted, hrecord, -⟩ :=
      x.verified_application hsplit hbinding
    exact ⟨u₁, file, u₂, topology, application, device, version, rfl, hflashes, haccepted, hrecord⟩

/-- An exception before that point comes from the pause itself or leads to the restore. -/
theorem restores_of_raised (x : PlannedRun settings image manualRecovery) {e : Exn}
    (hr : x.outcome = .raised e) (hbegun : ¬ Flasher.Begun x.plan x.after) :
    Run (SupervisorClient.pauseConsumers x.fuel settings.device settings.additionalCulAddons)
      x.after (.raised e) ∨ x.RestoresAll e := by
  have htransact := x.transact
  rw [hr] at htransact
  rcases Run.bind_inv htransact with ⟨_, _, _, _, -, hpure⟩ | ⟨_, heq, hpaused⟩ | ⟨hcut, -⟩
  · cases (Run.pure_iff.mp hpure).2 with
    | inl h => cases h
    | inr h => cases h
  · cases heq
    rcases Run.bind_inv hpaused
      with ⟨paused, pausing, rest, hafter, h₁, h₂⟩ | ⟨_, heq, h₁⟩ | ⟨hcut, -⟩
    · right
      rcases Run.bind_inv h₂ with ⟨result, block, restoring, rfl, h₃, h₄⟩ | ⟨_, -, h₃⟩ | ⟨hcut, -⟩
      · have hpause : Flasher.Steps settings x.plan (fun h => h = [])
            (SupervisorClient.pauseConsumers x.fuel settings.device settings.additionalCulAddons)
            (fun _ => Flasher.Fresh) fun _ h => Avoids [.bootloaderCommand] h :=
          Flasher.pauseConsumers_steps x.fuel
        have hguarded := hpause.invariant Guarded.nil rfl h₁
        have hfresh := hpause.returned Guarded.nil rfl h₁
        have hblock : Flasher.Steps settings x.plan Flasher.Fresh
            (Flasher.flashPaused x.fuel settings x.plan x.checked paused.1)
            (fun y h => Flasher.Migrated paused.1.leaveStoppedAfterError y.2 ∧
              Flasher.Past x.plan h ∧ Flasher.VerifiedSaved h) (Flasher.Raised x.plan paused.1) :=
          Flasher.flashPaused_steps x.fuel paused.1
        have hlate : ∀ h, h = ([] ++ pausing) ++ block → ¬ Flasher.Begun x.plan h := by
          rintro h rfl hb
          rw [hafter, ← List.append_assoc] at hbegun
          exact hbegun (hb.append restoring)
        rcases Run.attempt_returned_iff.mp h₃ with ⟨y, rfl, hy⟩ | ⟨⟨err, pause'⟩, rfl, hy⟩
        · exact absurd (hblock.returned hguarded hfresh hy).2.1.begun (hlate _ rfl)
        · rcases hblock.raised hguarded hfresh hy with ⟨rfl, -⟩ | ⟨-, -, hfailed⟩ | ⟨-, hpast⟩
          · obtain ⟨hrestore, hretained, -⟩ := SupervisorClient.pauseConsumers_returned h₁
            refine ⟨paused, pausing, block, restoring, err, _, hafter, h₁, hy, ?_⟩
            unfold SupervisorClient.resumeConsumers at h₄
            dsimp only at h₄
            rw [if_pos hrestore, CulConsumerPause.addonsToRestore_of_retained hretained] at h₄
            exact h₄
          · exact absurd hfailed.begun (hlate _ rfl)
          · exact absurd hpast.begun (hlate _ rfl)
      · exact absurd h₃ Run.attempt_raised_not
      · cases hcut
    · cases heq
      exact .inl h₁
    · cases hcut
  · cases hcut

/-- All consumers of a flash that has returned run again. -/
def AllRestored {fuel : ℕ} {plan : FlashPlan} (c : Completion fuel settings image plan) : Prop :=
  Flasher.AliasKept fuel settings.device c.verified.2.1 c.migrating ∧
  Run (SupervisorClient.restore fuel c.paused.1.addons) c.restoring (.returned []) ∧
  (∀ slug ∈ c.paused.1.addons, ∃ u e v, c.restoring = u ++ e :: v ∧
    SupervisorClient.polledState slug e = some "started") ∧
  c.result.stoppedCulAddons = []

/-- No consumer of a flash that has returned is started. -/
def NoneRestored {fuel : ℕ} {plan : FlashPlan} (c : Completion fuel settings image plan) : Prop :=
  Flasher.AliasLost fuel settings.device c.verified.2.1 c.migrating ∧ c.restoring = [] ∧
  c.result.stoppedCulAddons = c.paused.1.addons

theorem completion_consumers {fuel : ℕ} {plan : FlashPlan}
    (c : Completion fuel settings image plan) : AllRestored c ∨ NoneRestored c := by
  obtain ⟨-, hretained, -⟩ := SupervisorClient.pauseConsumers_returned c.pausing_run
  have hpause : Flasher.Steps settings plan (fun h => h = [])
      (SupervisorClient.pauseConsumers fuel settings.device settings.additionalCulAddons)
      (fun _ => Flasher.Fresh) fun _ h => Avoids [.bootloaderCommand] h :=
    Flasher.pauseConsumers_steps fuel
  have hselected : c.selected.2 = c.paused.1.leaveStoppedAfterError :=
    ((Flasher.selectBootloader_steps fuel c.paused.1).returned
      (hpause.invariant Guarded.nil rfl c.pausing_run)
      (hpause.returned Guarded.nil rfl c.pausing_run) c.selecting_run).1
  have hrestoring := c.restoring_run
  have hresult : c.result.stoppedCulAddons = c.migrated.2.retainedAddons := rfl
  rcases Flasher.manualSerialByIdMigration_returned c.migrating_run with
    ⟨hmigrated, hkept⟩ | ⟨hmigrated, hlost⟩
  · left
    have hrestore : c.paused.1.leaveStoppedAfterError.addonsToRestore = c.paused.1.addons :=
      CulConsumerPause.addonsToRestore_of_retained hretained
    rw [hmigrated, hselected, hrestore] at hrestoring
    refine ⟨hkept, hrestoring, fun slug hslug => ?_, ?_⟩
    · rcases SupervisorClient.restore_returned hrestoring slug hslug with hseen | ⟨_, hfailed⟩
      · exact hseen
      · exact absurd hfailed List.not_mem_nil
    · rw [hresult, hmigrated, hselected]
      exact CulConsumerPause.retainedAddons_of_retained hretained
  · right
    rw [hmigrated, CulConsumerPause.retainAddons_addonsToRestore] at hrestoring
    refine ⟨hlost, (Run.pure_returned.mp hrestoring).1, ?_⟩
    rw [hresult, hmigrated, hselected]
    exact CulConsumerPause.retainAddons_retainedAddons hretained

/-- What becomes of the paused consumers, whatever the steps of the flash answer. -/
theorem consumer_lifecycle (x : PlannedRun settings image manualRecovery) :
    (∀ u e v, x.after = u ++ e :: v → e.op.kind = .post → Flasher.Begun x.plan u →
      x.VerifiedBefore u) ∧
    (∀ e, x.outcome = .raised e → ¬ Flasher.Begun x.plan x.after →
      Run (SupervisorClient.pauseConsumers x.fuel settings.device settings.additionalCulAddons)
        x.after (.raised e) ∨ x.RestoresAll e) ∧
    ∀ result, x.outcome = .returned result →
      ∃ c : Completion x.fuel settings x.checked x.plan, x.after = c.trace ∧ result = c.result ∧
        c.paused.1.addons = c.paused.2 ∧ (AllRestored c ∨ NoneRestored c) := by
  refine ⟨fun u e v => x.post_allowed, fun e => x.restores_of_raised, fun result hr => ?_⟩
  have htransact := x.transact
  rw [hr] at htransact
  obtain ⟨c, hafter, rfl⟩ := Flasher.transact_returned.mp htransact
  exact ⟨c, hafter, rfl, (SupervisorClient.pauseConsumers_returned c.pausing_run).2.2,
    completion_consumers c⟩

/-- The CUL is configured by an alias, and one consumer has been opted in. -/
def aliasSettings : Settings where
  device := .ofString "/dev/serial/by-id/usb-CUL868"
  baudrate := 9600
  bootTimeout := 90
  qemuUsbReenumerationWorkaround := false
  additionalCulAddons := ["core_a"]

/-- The new firmware gives the CUL another alias. -/
def renamedScript : Script where
  usb n := if n < 21 then .ofDevices [cul "1-1" "ttyACM0" none] [("usb-CUL868", "ttyACM0")]
    else if n < 46 then .ofDevices [dfuBootloader "1-1" none] []
    else .ofDevices [cul "1-1" "ttyACM0" none] [("usb-CUL868_new", "ttyACM0")]
  addons := [.obj [("slug", .str "core_a"), ("state", .str "started")]]

theorem consumer_lifecycle_renamed :
    ∃ x : PlannedRun aliasSettings sampleImage none,
      ∃ c : Completion x.fuel aliasSettings x.checked x.plan, x.after = c.trace ∧
        c.paused.1.addons = ["core_a"] ∧ NoneRestored c := by
  have hrun : (ofScript renamedScript.answer 2 aliasSettings sampleImage none).any
      fun x => x.outcome.result.any fun result =>
        decide (result.stoppedCulAddons = ["core_a"]) := by
    decide +kernel
  obtain ⟨x, -, hx⟩ := (Option.any_eq_true _ _).mp hrun
  obtain ⟨result, hresult, hstopped⟩ := (Option.any_eq_true _ _).mp hx
  rw [decide_eq_true_eq] at hstopped
  obtain ⟨c, hafter, rfl, -, hall | hnone⟩ :=
    x.consumer_lifecycle.2.2 result (Outcome.result_eq_some.mp hresult)
  · rw [hall.2.2.2] at hstopped
    cases hstopped
  · exact ⟨x, c, hafter, hnone.2.2.symm.trans hstopped, hnone⟩

end PlannedRun

end Cul868Flasher
