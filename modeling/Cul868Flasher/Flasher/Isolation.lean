import Cul868Flasher.Effects.Discipline
import Cul868Flasher.Effects.Evaluation
import Cul868Flasher.Flasher.Restore

/-!
# The restore loop isolates failures

A restore consists of one part for each consumer, of at most three attempts. It
goes through all of them exactly when no exchange raises an exception that the
client does not turn into a `SupervisorError`.
-/

namespace Cul868Flasher
open Python Effects

namespace SupervisorClient

/-- Attempts and the pauses between them; `attempt` is the number of the first. -/
def spaced : ℕ → List (Trace World) → Trace World
  | _, [] => []
  | _, [t] => t
  | attempt, t :: u :: rest => t ++ ⟨.sleep (attempt : ℚ), ()⟩ :: spaced (attempt+1) (u :: rest)

/-- What the restore loop does for one slug. -/
structure AddonRestore where
  slug : String
  attempts : List (Trace World)
  failures : List String

/-- The last step of the last attempt has read the state `started`. -/
def AddonRestore.Observed (x : AddonRestore) : Prop :=
  ∃ last, x.attempts.getLast? = some last ∧ SeenStarted x.slug last

structure AddonRestore.Valid (fuel : ℕ) (x : AddonRestore) : Prop where
  attempted : 1 ≤ x.attempts.length ∧ x.attempts.length ≤ 3
  run : ∀ t ∈ x.attempts, ∃ r, r ≠ .cut ∧ Run (restoreAttempt fuel x.slug) t r
  restored : x.Observed → x.failures = []
  failed : ¬ x.Observed → ∃ message : String, x.failures = [s!"{x.slug}: {message}"]

/-- A run of `_restore` that passes over no consumer. -/
def Isolated (fuel : ℕ) (slugs : List String) (t : Trace World) (r : Outcome Exn (List String)) :
    Prop :=
  ∃ parts : List AddonRestore, parts.map AddonRestore.slug = slugs.reverse ∧
    (∀ x ∈ parts, x.Valid fuel) ∧ t = parts.flatMap (fun x => spaced 1 x.attempts) ∧
    r = .returned (parts.flatMap AddonRestore.failures)

/-- Every exchange fails, if it fails, as `_request` expects. -/
def Translated (t : Trace World) : Prop :=
  ∀ method path e, ⟨.request method path, HttpOutcome.raised e⟩ ∈ t → e.isSupervisorError = true

/-! ## Attempts that fail -/

section Missed
variable {slug : String}

theorem seenStarted_snoc {h : Trace World} {e : Event World} :
    SeenStarted slug (h ++ [e]) ↔ polledState slug e = some "started" := by
  constructor
  · rintro ⟨u, e', heq, hpolled⟩
    obtain ⟨-, he⟩ := List.append_inj' heq rfl
    obtain rfl : e = e' := by simpa using he
    exact hpolled
  · intro h'
    exact ⟨h, e, rfl, h'⟩

/-- The exception leaves with anything but the state `started` read last. -/
abbrev Misses (slug : String) (P : Trace World → Prop) (p : Program α)
    (Q : α → Trace World → Prop) : Prop :=
  Triple (fun _ => True) P p Q fun _ h => ¬ SeenStarted slug h

/-- A step that reads no state of the add-on. -/
theorem perform_misses {o : World.Op} (ho : ∀ a, polledState slug ⟨o, a⟩ = none)
    {P : Trace World → Prop} :
    Misses slug P (Prog.perform o) fun _ h => ¬ SeenStarted slug h := by
  refine Triple.perform fun a h _ _ => ⟨trivial, ?_⟩
  rw [seenStarted_snoc, ho]
  simp

theorem addonState_misses :
    Misses slug (fun h => ¬ SeenStarted slug h) (addonState slug)
      fun state h => state ≠ "started" → ¬ SeenStarted slug h := by
  refine Triple.bind (R := fun data h => ∃ u, ∃ outcome : HttpOutcome, ∃ fields,
    h = u ++ [⟨.request .get s!"/addons/{slug}/info", outcome⟩] ∧
    responseFields .get s!"/addons/{slug}/info" outcome = .ok fields ∧
    Json.get fields "data" = .obj data) ?_ fun data => ?_
  · refine Triple.bind (R := fun path h => path = slug ∧ ¬ SeenStarted slug h) (Triple.ofExcept
      (fun path h hpath _ hh => ⟨addonPath_ok hpath, hh⟩) fun _ _ _ _ hh => hh) fun path =>
        .fact fun hpath => ?_
    subst hpath
    refine Triple.bind (R := fun fields h => ∃ u, ∃ outcome : HttpOutcome,
      h = u ++ [⟨.request .get s!"/addons/{path}/info", outcome⟩] ∧
      responseFields .get s!"/addons/{path}/info" outcome = .ok fields) ?_ fun document => ?_
    · refine Flasher.fallible_triple fun h outcome _ _ =>
        ⟨trivial, fun fields hok => ⟨h, outcome, rfl, hok⟩, fun e he => ?_⟩
      rw [seenStarted_snoc]
      simp [polledState, he]
    · refine Triple.ofExcept ?_ ?_
      · rintro data h hdata - ⟨u, outcome, rfl, hok⟩
        refine ⟨u, outcome, document, rfl, hok, ?_⟩
        unfold requireMapping at hdata
        split at hdata
        · rename_i fields hfields
          cases hdata
          exact hfields
        · cases hdata
      · rintro e h hdata - ⟨u, outcome, rfl, hok⟩
        rw [seenStarted_snoc]
        unfold requireMapping at hdata
        split at hdata
        · cases hdata
        · rename_i hfields
          simp [polledState, hok]
  · split
    · rename_i state hstate
      split
      · refine .pure ?_
        rintro h - ⟨u, outcome, fields, rfl, hok, hdata⟩ hne
        rw [seenStarted_snoc]
        simpa [polledState, hok, hdata, hstate] using hne
      · rename_i hknown
        refine .raise ?_
        rintro h - ⟨u, outcome, fields, rfl, hok, hdata⟩
        rw [seenStarted_snoc]
        simp only [polledState, if_true, hok, hdata, hstate, Option.some.injEq]
        rintro rfl
        exact hknown (by decide)
    · rename_i hstate
      refine .raise ?_
      rintro h - ⟨u, outcome, fields, rfl, hok, hdata⟩
      rw [seenStarted_snoc]
      simp [polledState, hok, hdata]

theorem startAddon_misses :
    Misses slug (fun h => ¬ SeenStarted slug h) (startAddon slug) fun _ _ => True := by
  refine Triple.bind (R := fun _ h => ¬ SeenStarted slug h)
    (Triple.ofExcept (fun _ _ _ _ hh => hh) fun _ _ _ _ hh => hh) fun path => ?_
  refine Triple.bind (R := fun _ _ => True) ?_ fun _ => .pure fun _ _ _ => trivial
  refine Flasher.fallible_triple fun h outcome _ _ =>
    ⟨trivial, fun _ _ => trivial, fun e _ => ?_⟩
  rw [seenStarted_snoc]
  simp [polledState]

theorem waitForState_misses (fuel : ℕ) (expected : String) :
    Misses slug (fun _ => True) (waitForState fuel slug expected) fun _ _ => True := by
  have hclock {P : Trace World → Prop} :
      Misses slug P monotonic fun _ h => ¬ SeenStarted slug h :=
    perform_misses fun _ => rfl
  refine Triple.bind hclock fun start => ?_
  refine Triple.loop (S := fun _ _ => True) (fun lastState => ?_) _ _ |>.pre fun _ _ _ => trivial
  refine Triple.bind hclock fun now => ?_
  split
  · refine addonState_misses.bind fun state => ?_
    split
    · exact .pure fun _ _ _ => ⟨fun _ _ => trivial, fun _ _ => trivial⟩
    · exact Triple.bind (perform_misses fun _ => rfl) fun _ =>
        .pure fun _ _ _ => ⟨fun _ _ => trivial, fun _ _ => trivial⟩
  · exact .raise fun _ _ hh => hh

theorem restoreAttempt_misses (fuel : ℕ) :
    Misses slug (fun h => ¬ SeenStarted slug h) (restoreAttempt fuel slug) fun _ _ => True := by
  refine addonState_misses.bind fun state => ?_
  split
  · rename_i hstate
    refine Triple.bind (R := fun _ _ => True) ?_ fun _ => waitForState_misses fuel _
    exact startAddon_misses.pre fun h _ hh => hh hstate
  · exact (waitForState_misses fuel _).pre fun _ _ _ => trivial

/-- An attempt has seen the consumer running exactly when it succeeds. -/
theorem restoreAttempt_seen {fuel : ℕ} {t : Trace World} {r : Outcome Exn Unit}
    (h : Run (restoreAttempt fuel slug) t r) (hr : r ≠ .cut) :
    SeenStarted slug t ↔ r = .returned () := by
  have hnil : ¬ SeenStarted slug [] := by
    rintro ⟨u, e, heq, -⟩
    simp at heq
  cases r with
  | returned u =>
    have hseen := (restoreAttempt_sees fuel slug).returned trivial trivial h (h := [])
    rw [List.nil_append] at hseen
    simpa using hseen
  | raised e =>
    have hmissed := (restoreAttempt_misses fuel).raised trivial hnil h (h := [])
    rw [List.nil_append] at hmissed
    simpa using hmissed
  | cut => exact absurd rfl hr

end Missed

/-! ## Exchanges that fail as expected -/

theorem Translated.nil : Translated [] := by simp [Translated]

theorem translated_append {t u : Trace World} :
    Translated (t ++ u) ↔ Translated t ∧ Translated u := by
  simp only [Translated, List.mem_append]
  exact ⟨fun h => ⟨fun m p e he => h m p e (.inl he), fun m p e he => h m p e (.inr he)⟩,
    fun h m p e he => he.elim (h.1 m p e) (h.2 m p e)⟩

/-- The exchanges fail as expected, unless the exception leaving is an unexpected one. -/
abbrev Translates (p : Program α) : Prop :=
  Triple (fun _ => True) Translated p (fun _ => Translated)
    fun e h => e.isSupervisorError = true → Translated h

theorem perform_translates {o : Op} (ho : ∀ method path, o ≠ .request method path) :
    Translates (Prog.perform (I := World) o) := by
  refine Triple.perform fun a h _ hh => ⟨trivial, translated_append.mpr ⟨hh, ?_⟩⟩
  intro method path e he
  rw [List.mem_singleton] at he
  exact absurd (congrArg Event.op he).symm (ho method path)

theorem ofExcept_translates (x : Except Exn α) : Translates (.ofExcept x) :=
  Triple.ofExcept (fun _ _ _ _ hh => hh) fun _ _ _ _ hh _ => hh

theorem request_translates (method : HttpMethod) (path : String) :
    Translates (request method path) := by
  have hsnoc (h : Trace World) (outcome : HttpOutcome) (hh : Translated h)
      (houtcome : ∀ e, outcome = .raised e → e.isSupervisorError = true) :
      Translated (h ++ [⟨.request method path, outcome⟩]) := by
    refine translated_append.mpr ⟨hh, fun m p e he => houtcome e ?_⟩
    cases List.mem_singleton.mp he
    rfl
  refine Flasher.fallible_triple fun h outcome _ hh => ⟨trivial, fun fields hok => ?_, ?_⟩
  · refine hsnoc h outcome hh ?_
    rintro e rfl
    cases hok
  · intro e he hclass
    refine hsnoc h outcome hh ?_
    rintro e' rfl
    cases he
    exact hclass

theorem addonState_translates (slug : String) : Translates (addonState slug) := by
  refine Triple.bind (R := fun _ => Translated) ?_ fun data => ?_
  · refine (ofExcept_translates _).bind fun path => ?_
    exact (request_translates _ _).bind fun document => ofExcept_translates _
  · split
    · split
      · exact .pure fun _ _ hh => hh
      · exact .raise fun _ _ hh _ => hh
    · exact .raise fun _ _ hh _ => hh

theorem startAddon_translates (slug : String) : Translates (startAddon slug) := by
  refine (ofExcept_translates _).bind fun path => ?_
  exact (request_translates _ _).bind fun _ => .pure fun _ _ hh => hh

theorem waitForState_translates (fuel : ℕ) (slug expected : String) :
    Translates (waitForState fuel slug expected) := by
  have hclock : Translates monotonic := perform_translates nofun
  refine hclock.bind fun start => ?_
  refine Triple.loop (S := fun _ => Translated) (fun lastState => ?_) _ _
  refine hclock.bind fun now => ?_
  split
  · refine (addonState_translates slug).bind fun state => ?_
    split
    · exact .pure fun _ _ hh => ⟨fun _ _ => hh, fun _ _ => hh⟩
    · have hsleep : Translates (sleep (1 / 2)) := perform_translates nofun
      exact hsleep.bind fun _ => .pure fun _ _ hh => ⟨fun _ _ => hh, fun _ _ => hh⟩
  · exact .raise fun _ _ hh _ => hh

theorem restoreAttempt_translates (fuel : ℕ) (slug : String) :
    Translates (restoreAttempt fuel slug) := by
  refine (addonState_translates slug).bind fun state => ?_
  split
  · exact (startAddon_translates slug).bind fun _ => waitForState_translates fuel slug _
  · exact waitForState_translates fuel slug _

theorem restoreAddon_translates (fuel : ℕ) (slug : String) :
    Translates (restoreAddon fuel slug) := by
  have hpause (k : ℕ) (s : Unit) : Translates (sleep (k : ℚ)) := perform_translates nofun
  have hbody (s : Unit) : Triple (fun _ => True) Translated
      (do return (← (restoreAttempt fuel slug).catching Exn.isSupervisorError, s))
      (fun x h => Translated h ∧ ∀ e, x.1 = .error e → Translated h)
      fun e h => e.isSupervisorError = true → Translated h := by
    refine Triple.bind ((restoreAttempt_translates fuel slug).catching.exc fun e h _ he => he.2)
      fun x => .pure fun h _ hx => ?_
    have hh : Translated h := by
      cases x with
      | ok a => exact hx.1 a rfl
      | error e => exact (hx.2 e rfl).2 (hx.2 e rfl).1
    exact ⟨hh, fun _ _ => hh⟩
  refine Triple.bind (Triple.retry (S := fun _ => Translated) (F := fun _ => Translated)
    (Q := fun _ => Translated) hbody hpause _ _ ()) fun x => ?_
  obtain ⟨restored, _⟩ := x
  cases restored with
  | ok _ => exact .pure fun _ _ hh => hh
  | error e => exact .pure fun _ _ hh => hh

theorem restoreAddons_translates (fuel : ℕ) (slugs : List String) :
    Translates (restoreAddons fuel slugs) := by
  induction slugs with
  | nil => exact .pure fun _ _ hh => hh
  | cons slug rest ih =>
    refine (restoreAddon_translates fuel slug).bind fun failures => ih.bind fun more => ?_
    exact .pure fun _ _ hh => hh

/-! ## One part for each consumer -/

section Parts
variable {fuel : ℕ}

theorem caught_attempt {slug : String} {t : Trace World} {x : Except Exn Unit × Unit}
    (h : Run
      (do return (← (restoreAttempt fuel slug).catching Exn.isSupervisorError, ()) : Program _)
      t (.returned x)) :
    Run (restoreAttempt fuel slug) t (.ofExcept x.1) := by
  obtain ⟨restored, t₁, t₂, rfl, h₁, h₂⟩ := Run.bind_returned.mp h
  obtain ⟨rfl, rfl⟩ := Run.pure_returned.mp h₂
  rw [List.append_nil]
  obtain ⟨a, rfl, ha⟩ | ⟨e, -, rfl, he⟩ := Run.catching_returned h₁
  · exact ha
  · exact he

/-- The attempts of a retry, of which the last has the result. -/
theorem retry_attempts {slug : String} {n k : ℕ} {t : Trace World} {x : Except Exn Unit × Unit}
    (h : Run (.retry (fun attempt => sleep (attempt : ℚ))
      (fun _ => do return (← (restoreAttempt fuel slug).catching Exn.isSupervisorError, ()))
      n k () : Program _) t (.returned x)) :
    ∃ attempts last, 1 ≤ attempts.length ∧ attempts.length ≤ n + 1 ∧ t = spaced k attempts ∧
      (∀ u ∈ attempts, ∃ r, r ≠ .cut ∧ Run (restoreAttempt fuel slug) u r) ∧
      attempts.getLast? = some last ∧ Run (restoreAttempt fuel slug) last (.ofExcept x.1) := by
  have hone {k n : ℕ} {u : Trace World} {x : Except Exn Unit × Unit}
      (hu : Run (restoreAttempt fuel slug) u (.ofExcept x.1)) :
      ∃ attempts last, 1 ≤ attempts.length ∧ attempts.length ≤ n + 1 ∧ u = spaced k attempts ∧
        (∀ u ∈ attempts, ∃ r, r ≠ .cut ∧ Run (restoreAttempt fuel slug) u r) ∧
        attempts.getLast? = some last ∧ Run (restoreAttempt fuel slug) last (.ofExcept x.1) := by
    refine ⟨[u], u, by simp, by simp, rfl, ?_, rfl, hu⟩
    simpa using ⟨_, Outcome.ofExcept_ne_cut _, hu⟩
  induction n generalizing k t with
  | zero => exact hone (caught_attempt h)
  | succ n ih =>
    obtain ⟨first, t₁, t₂, rfl, h₁, h₂⟩ := Run.bind_returned.mp h
    obtain ⟨e | a, _⟩ := first
    · obtain ⟨_, t₃, t₄, rfl, h₃, h₄⟩ := Run.bind_returned.mp h₂
      obtain rfl : t₃ = [⟨.sleep (k : ℚ), ()⟩] := Run.perform_returned.mp h₃
      obtain ⟨attempts, last, hpos, hlen, rfl, hruns, hlast, hres⟩ := ih h₄
      obtain ⟨u, rest, rfl⟩ := List.exists_cons_of_length_pos hpos
      refine ⟨t₁ :: u :: rest, last, by simp, by simpa using hlen, rfl, ?_, by simpa using hlast,
        hres⟩
      rintro v (_ | ⟨_, hv⟩)
      · exact ⟨_, Outcome.ofExcept_ne_cut _, caught_attempt h₁⟩
      · exact hruns v hv
    · obtain ⟨rfl, rfl⟩ := Run.pure_returned.mp h₂
      rw [List.append_nil]
      exact hone (caught_attempt h₁)

theorem restoreAddon_part {slug : String} {t : Trace World} {failures : List String}
    (h : Run (restoreAddon fuel slug) t (.returned failures)) :
    ∃ x : AddonRestore, x.slug = slug ∧ x.Valid fuel ∧ t = spaced 1 x.attempts ∧
      x.failures = failures := by
  obtain ⟨⟨restored, _⟩, t₁, t₂, rfl, h₁, h₂⟩ := Run.bind_returned.mp h
  obtain ⟨attempts, last, hpos, hlen, rfl, hruns, hlast, hres⟩ := retry_attempts h₁
  have hseen := restoreAttempt_seen hres (Outcome.ofExcept_ne_cut _)
  have hobserved : AddonRestore.Observed ⟨slug, attempts, failures⟩ ↔
      Outcome.ofExcept restored = .returned () := by
    rw [← hseen]
    constructor
    · rintro ⟨last', hlast', hstarted⟩
      rwa [Option.some.inj (hlast.symm.trans hlast')]
    · exact fun hstarted => ⟨last, hlast, hstarted⟩
  cases restored with
  | ok u =>
    obtain ⟨rfl, rfl⟩ := Run.pure_returned.mp h₂
    have hrun : AddonRestore.Observed ⟨slug, attempts, []⟩ := hobserved.mpr rfl
    exact ⟨⟨slug, attempts, []⟩, rfl,
      ⟨⟨hpos, hlen⟩, hruns, fun _ => rfl, fun hnot => absurd hrun hnot⟩, by simp, rfl⟩
  | error e =>
    obtain ⟨rfl, rfl⟩ := Run.pure_returned.mp h₂
    have hfailed : ¬ AddonRestore.Observed ⟨slug, attempts, [s!"{slug}: {e.message}"]⟩ :=
      fun hobs => by simpa [Outcome.ofExcept] using hobserved.mp hobs
    exact ⟨⟨slug, attempts, [s!"{slug}: {e.message}"]⟩, rfl,
      ⟨⟨hpos, hlen⟩, hruns, fun hobs => absurd hobs hfailed, fun _ => ⟨_, rfl⟩⟩, by simp, rfl⟩

theorem restoreAddons_parts {slugs failures : List String} {t : Trace World}
    (h : Run (restoreAddons fuel slugs) t (.returned failures)) :
    ∃ parts : List AddonRestore, parts.map AddonRestore.slug = slugs ∧
      (∀ x ∈ parts, x.Valid fuel) ∧ t = parts.flatMap (fun x => spaced 1 x.attempts) ∧
      failures = parts.flatMap AddonRestore.failures := by
  induction slugs generalizing t failures with
  | nil =>
    obtain ⟨rfl, rfl⟩ := Run.pure_returned.mp h
    exact ⟨[], rfl, by simp, rfl, rfl⟩
  | cons slug rest ih =>
    obtain ⟨first, t₁, t₂, rfl, h₁, h₂⟩ := Run.bind_returned.mp h
    obtain ⟨more, t₃, t₄, rfl, h₃, h₄⟩ := Run.bind_returned.mp h₂
    obtain ⟨rfl, rfl⟩ := Run.pure_returned.mp h₄
    obtain ⟨x, rfl, hvalid, rfl, rfl⟩ := restoreAddon_part h₁
    obtain ⟨parts, rfl, hparts, rfl, rfl⟩ := ih h₃
    refine ⟨x :: parts, rfl, ?_, by simp, by simp⟩
    rintro y (_ | ⟨_, hy⟩)
    · exact hvalid
    · exact hparts y hy

end Parts

/-! ## The polls end -/

/-- The clock never goes back, and a pause takes at least as long as asked. -/
def clock : Discipline World ℚ where
  allows _ _ := True
  trusts
    | now, .monotonic, a => now ≤ a
    | _, _, _ => True
  after
    | _, .monotonic, a => a
    | now, .sleep seconds, _ => now + seconds
    | now, _, _ => now

/-- The answers of a world in which nothing but a pause takes time. -/
def tick (w : ℕ → (o : Op) → World.Ans o) (n : ℕ) (now : ℚ) : (o : World.Op) → World.Ans o
  | .monotonic => now
  | o => w n o

theorem tick_trusted (w : ℕ → (o : Op) → World.Ans o) (n : ℕ) (now : ℚ) (o : World.Op) :
    clock.trusts now o (tick w n now o) := by
  cases o with
  | monotonic => exact le_refl now
  | _ => trivial

section Ends
variable {slug : String} {ℓ : ℚ}

theorem addonState_ends : Ends clock (addonState slug) ℓ := by
  refine Ends.andThen ?_ fun data ℓ => ?_
  · refine (Ends.ofExcept _).andThen fun path ℓ => ?_
    refine Ends.andThen ?_ fun document ℓ => Ends.ofExcept _
    exact Ends.andThen (Ends.perform _) fun outcome ℓ => Ends.ofExcept _
  · split
    · split <;> trivial
    · trivial

/-- A request takes no time off the clock. -/
theorem addonState_clock :
    Follows clock (fun _ now => now = ℓ) (fun _ _ => True) (addonState slug) ℓ := by
  refine Follows.bind (R := fun _ now => now = ℓ) ?_ fun data now hnow => ?_
  · refine Follows.bind (R := fun _ now => now = ℓ) (Follows.ofExcept (fun _ _ => rfl)
      fun _ _ => trivial) fun path now hnow => ?_
    refine Follows.bind (R := fun _ now => now = ℓ) ?_ fun document now hnow =>
      Follows.ofExcept (fun _ _ => hnow) fun _ _ => trivial
    exact Follows.step trivial fun outcome _ => Follows.ofExcept (fun _ _ => hnow)
      fun _ _ => trivial
  · split
    · split
      · exact .pure hnow
      · trivial
    · trivial

theorem startAddon_ends : Ends clock (startAddon slug) ℓ := by
  refine (Ends.ofExcept _).andThen fun path ℓ => Ends.andThen ?_ fun _ ℓ => trivial
  exact Ends.andThen (Ends.perform _) fun outcome ℓ => Ends.ofExcept _

/-- Every pass before the deadline brings it half a second closer. -/
theorem waitForState_ends {fuel : ℕ} (hfuel : 61 ≤ fuel) (expected : String) :
    Ends clock (waitForState fuel slug expected) ℓ := by
  refine Ends.bind (R := fun start now => start = now) (F := fun _ _ => True) (Ends.perform _)
    (Follows.perform trivial fun _ _ => rfl) fun start now hstart => ?_
  subst hstart
  refine Ends.loop (K := fun left _ now => start + stateTimeoutSeconds ≤ now + (left : ℚ) / 2)
    (F := fun _ _ => True) (fun left lastState now hnow => ?_) (m := 60) (by omega)
    (by norm_num [stateTimeoutSeconds])
  constructor
  · refine Ends.andThen (Ends.perform _) fun later ℓ => ?_
    split
    · refine addonState_ends.andThen fun state ℓ => ?_
      split
      · trivial
      · exact Ends.andThen (Ends.perform _) fun _ _ => trivial
    · trivial
  · refine Follows.step trivial fun later hlater => ?_
    change Follows clock _ _ _ later
    replace hlater : now ≤ later := hlater
    split
    · rename_i hbefore
      refine (addonState_clock).bind fun state ℓ hℓ => ?_
      subst hℓ
      split
      · exact .pure fun s' hs' => by cases hs'
      · refine Follows.step trivial fun _ _ => ?_
        refine .pure fun s' _ => ?_
        have hleft : 0 < left := by
          rcases Nat.eq_zero_or_pos left with rfl | hpos
          · exfalso
            norm_num at hnow
            linarith
          · exact hpos
        refine ⟨left - 1, by omega, ?_⟩
        change start + stateTimeoutSeconds ≤ ℓ + 1 / 2 + ((left - 1 : ℕ) : ℚ) / 2
        rw [Nat.cast_pred hleft]
        linarith
    · trivial

theorem restore_ends {fuel : ℕ} (hfuel : 61 ≤ fuel) (slugs : List String) :
    Ends clock (restore fuel slugs) ℓ := by
  have hattempt (slug : String) (ℓ : ℚ) : Ends clock (restoreAttempt fuel slug) ℓ := by
    refine addonState_ends.andThen fun state ℓ => ?_
    split
    · exact startAddon_ends.andThen fun _ ℓ => waitForState_ends hfuel _
    · exact waitForState_ends hfuel _
  have haddon (slug : String) (ℓ : ℚ) : Ends clock (restoreAddon fuel slug) ℓ := by
    refine Ends.andThen (Ends.retry (fun k ℓ => Ends.perform _) (fun s ℓ => ?_) _ _ _ _)
      fun x ℓ => ?_
    · exact ((hattempt slug ℓ).catching _).andThen fun _ _ => trivial
    · obtain ⟨restored, _⟩ := x
      cases restored <;> trivial
  suffices haddons : ∀ slugs ℓ, Ends clock (restoreAddons fuel slugs) ℓ from haddons slugs.reverse ℓ
  intro slugs
  induction slugs with
  | nil => exact fun _ => trivial
  | cons slug rest ih =>
    exact fun ℓ => (haddon slug ℓ).andThen fun failures ℓ => (ih ℓ).andThen fun more ℓ => trivial

end Ends

/-- An exception that the client does not translate ends the restore at once. -/
theorem restore_abandons {fuel : ℕ} (slugs : List String) {slug : String} {e : Exn}
    (hslug : addonPath slug = .ok slug) (he : e.isSupervisorError = false) :
    Run (restore fuel (slugs ++ [slug]))
      [⟨.request .get s!"/addons/{slug}/info", HttpOutcome.raised e⟩]
      (.raised e) := by
  have hinfo : Run (addonInfo slug)
      [⟨.request .get s!"/addons/{slug}/info", HttpOutcome.raised e⟩] (.raised e) := by
    have hrequest : Run (request .get s!"/addons/{slug}/info")
        [⟨.request .get s!"/addons/{slug}/info", HttpOutcome.raised e⟩] (.raised e) := by
      have hperform : Run (perform (.request .get s!"/addons/{slug}/info") : Program HttpOutcome)
          [⟨.request .get s!"/addons/{slug}/info", HttpOutcome.raised e⟩]
          (.returned (HttpOutcome.raised e)) := Run.perform_returned.mpr rfl
      exact hperform.bind (.raised e)
    unfold addonInfo
    rw [hslug]
    exact (Run.returned slug).bind (Run.bind_raised hrequest)
  have hattempt : Run (restoreAttempt fuel slug)
      [⟨.request .get s!"/addons/{slug}/info", HttpOutcome.raised e⟩] (.raised e) :=
    Run.bind_raised (Run.bind_raised hinfo)
  have hcaught : Run ((restoreAttempt fuel slug).catching Exn.isSupervisorError)
      [⟨.request .get s!"/addons/{slug}/info", HttpOutcome.raised e⟩] (.raised e) := by
    refine List.append_nil [_] ▸ (Run.attempt_raised hattempt).bind ?_
    dsimp only
    rw [if_neg (by simp [he])]
    exact .raised e
  unfold restore
  rw [List.reverse_append]
  exact Run.bind_raised (Run.bind_raised (Run.bind_raised (Run.bind_raised hcaught)))

/-- A restore that ends passes over no consumer exactly when no exchange fails
with an exception that the client does not translate, and it always ends. -/
theorem restore_isolated_iff (fuel : ℕ) (slugs : List String) :
    (∀ t r, Run (restore fuel slugs) t r → r ≠ .cut → (Isolated fuel slugs t r ↔ Translated t)) ∧
      (61 ≤ fuel → ∀ w n start, clock.Trusted start ((restore fuel slugs).exec w n).1 →
        ((restore fuel slugs).exec w n).2 ≠ .cut) := by
  refine ⟨fun t r h hr => ⟨?_, fun ht => ?_⟩, fun hfuel w n start htrusted =>
    (restore_ends hfuel slugs).exec htrusted⟩
  · rintro ⟨parts, -, -, -, rfl⟩
    have htranslated := (restoreAddons_translates fuel slugs.reverse).returned trivial .nil h
      (h := [])
    exact htranslated
  · cases r with
    | returned failures =>
      obtain ⟨parts, hslugs, hvalid, ht, rfl⟩ := restoreAddons_parts h
      exact ⟨parts, hslugs, hvalid, ht, rfl⟩
    | raised e =>
      obtain ⟨hclass, method, path, hmem⟩ := restore_raised h
      rw [ht method path e hmem] at hclass
      cases hclass
    | cut => exact absurd rfl hr

/-- A response that breaks off leaves a consumer without an attempt. -/
theorem restore_incomplete_read :
    ¬ ∀ fuel slugs t r, Run (restore fuel slugs) t r → r ≠ .cut → Isolated fuel slugs t r := by
  intro h
  have hrun : Run (restore 61 ["core_max2mqtt", "core_wmbusmeters"])
      [⟨.request .get "/addons/core_wmbusmeters/info",
        HttpOutcome.raised ⟨.other, "IncompleteRead(0 bytes read)", []⟩⟩]
      (.raised ⟨.other, "IncompleteRead(0 bytes read)", []⟩) :=
    restore_abandons ["core_max2mqtt"] (by decide) (by decide)
  obtain ⟨parts, -, -, -, hreturned⟩ := h _ _ _ _ hrun (fun hcut => nomatch hcut)
  cases hreturned

theorem restore_isolated_incomplete_read :
    ¬ Isolated 61 ["core_max2mqtt", "core_wmbusmeters"]
      [⟨.request .get "/addons/core_wmbusmeters/info",
        HttpOutcome.raised ⟨.other, "IncompleteRead(0 bytes read)", []⟩⟩]
      (.raised ⟨.other, "IncompleteRead(0 bytes read)", []⟩) := by
  have hrun : Run (restore 61 ["core_max2mqtt", "core_wmbusmeters"])
      [⟨.request .get "/addons/core_wmbusmeters/info",
        HttpOutcome.raised ⟨.other, "IncompleteRead(0 bytes read)", []⟩⟩]
      (.raised ⟨.other, "IncompleteRead(0 bytes read)", []⟩) :=
    restore_abandons ["core_max2mqtt"] (by decide) (by decide)
  have hiff := (restore_isolated_iff 61 ["core_max2mqtt", "core_wmbusmeters"]).1 _ _ hrun
    (fun hcut => nomatch hcut)
  intro hisolated
  have htranslated := hiff.mp hisolated .get "/addons/core_wmbusmeters/info"
    ⟨.other, "IncompleteRead(0 bytes read)", []⟩ (List.mem_singleton.mpr rfl)
  exact absurd htranslated (by decide)

end SupervisorClient
end Cul868Flasher
