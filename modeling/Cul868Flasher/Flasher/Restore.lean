import Cul868Flasher.Flasher.Found

/-!
# Restoring consumers

What a restore has seen when it returns: for each consumer it either reports a
failure or has polled the state `started`. Only an exception that the client
does not turn into a `SupervisorError` leaves it.
-/

namespace Cul868Flasher
open Python Effects

namespace SupervisorClient
open Flasher (fallible_triple ofExcept_returned)

/-- The state of the add-on that an answered request tells. -/
def polledState (slug : String) : Event World → Option String
  | ⟨.request .get path, outcome⟩ =>
    if path = s!"/addons/{slug}/info" then
      match responseFields .get path outcome with
      | .ok fields =>
        match Json.get fields "data" with
        | .obj data =>
          match Json.get data "state" with
          | .str state => some state
          | _ => none
        | _ => none
      | .error _ => none
    else none
  | _ => none

/-- An exchange has answered with an exception that is no `SupervisorError`. -/
def Escapes (e : Exn) (h : Trace World) : Prop :=
  e.isSupervisorError = false ∧ ∃ method path, ⟨.request method path, HttpOutcome.raised e⟩ ∈ h

/-- How an exchange can fail. -/
def RequestFailed (e : Exn) (h : Trace World) : Prop :=
  e.isSupervisorError = true ∨ Escapes e h

/-- The last step has polled a state that `φ` accepts. -/
def Polled (slug : String) (φ : String → Prop) (h : Trace World) : Prop :=
  ∃ u e state, h = u ++ [e] ∧ polledState slug e = some state ∧ φ state

theorem quoteSlug_ok {slug path : String} (h : quoteSlug slug = .ok path) : path = slug := by
  unfold quoteSlug at h
  split at h
  · cases h
    rfl
  · cases h

theorem addonPath_ok {slug path : String} (h : addonPath slug = .ok path) : path = slug := by
  unfold addonPath at h
  split at h
  · rename_i hself
    cases h
    exact hself.symm
  · exact quoteSlug_ok h

theorem quoteSlug_error {slug : String} {e : Exn} (h : quoteSlug slug = .error e) :
    e.isSupervisorError = true := by
  unfold quoteSlug at h
  split at h
  · cases h
  · cases h
    rfl

theorem addonPath_error {slug : String} {e : Exn} (h : addonPath slug = .error e) :
    e.isSupervisorError = true := by
  unfold addonPath at h
  split at h
  · cases h
  · exact quoteSlug_error h

theorem responseFields_error {method : HttpMethod} {path : String} {outcome : HttpOutcome} {e : Exn}
    (h : responseFields method path outcome = .error e) :
    e.isSupervisorError = true ∨ outcome = .raised e := by
  cases outcome with
  | response size document =>
    left
    simp only [responseFields] at h
    split at h
    · cases h
      rfl
    · split at h
      · cases h
        rfl
      · split at h
        · cases h
        · cases h
          rfl
      · cases h
        rfl
  | httpError code detail =>
    cases h
    exact .inl rfl
  | urlError reason =>
    cases h
    exact .inl rfl
  | osError message =>
    cases h
    exact .inl rfl
  | raised e' =>
    cases h
    exact .inr rfl

/-! ## Requests -/

/-- The triples of this module only speak of what has been seen. -/
abbrev Sees (p : Program α) (Q : α → Trace World → Prop) : Prop :=
  Triple (fun _ => True) (fun _ => True) p Q RequestFailed

theorem request_sees (method : HttpMethod) (path : String) :
    Sees (request method path) fun fields h => ∃ u, ∃ outcome : HttpOutcome,
      h = u ++ [⟨.request method path, outcome⟩] ∧
        responseFields method path outcome = .ok fields := by
  refine fallible_triple fun h outcome _ _ =>
    ⟨trivial, fun fields hok => ⟨h, outcome, rfl, hok⟩, ?_⟩
  intro e he
  cases hclass : e.isSupervisorError with
  | true => exact .inl hclass
  | false =>
    rcases responseFields_error he with hsupervisor | rfl
    · rw [hclass] at hsupervisor
      cases hsupervisor
    · exact .inr ⟨hclass, method, path, by simp⟩

theorem addonState_sees (slug : String) :
    Sees (addonState slug) fun state => Polled slug fun state' => state' = state := by
  refine Triple.bind (R := fun data h => ∃ u e fields, h = u ++ [e] ∧
    (∃ outcome : HttpOutcome, e = ⟨.request .get s!"/addons/{slug}/info", outcome⟩ ∧
      responseFields .get s!"/addons/{slug}/info" outcome = .ok fields) ∧
    Json.get fields "data" = .obj data) ?_ fun data => ?_
  · refine Triple.bind (R := fun path _ => path = slug ∧ True) (Triple.ofExcept
      (fun path h hpath _ _ => ⟨addonPath_ok hpath, trivial⟩)
      fun e h he _ _ => .inl (addonPath_error he)) fun path => .fact fun hpath => ?_
    subst hpath
    refine (request_sees .get s!"/addons/{path}/info").bind fun document => Triple.ofExcept ?_ ?_
    · rintro data h hdata - ⟨u, outcome, rfl, hok⟩
      refine ⟨u, _, document, rfl, ⟨outcome, rfl, hok⟩, ?_⟩
      unfold requireMapping at hdata
      split at hdata
      · rename_i fields hfields
        cases hdata
        exact hfields
      · cases hdata
    · intro e h hdata _ _
      unfold requireMapping at hdata
      split at hdata
      · cases hdata
      · cases hdata
        exact .inl rfl
  · split
    · rename_i state hstate
      split
      · refine .pure ?_
        rintro h - ⟨u, e, fields, rfl, ⟨outcome, rfl, hok⟩, hdata⟩
        exact ⟨u, _, state, rfl, by simp [polledState, hok, hdata, hstate], rfl⟩
      · exact .raise fun _ _ _ => .inl rfl
    · exact .raise fun _ _ _ => .inl rfl

theorem startAddon_sees (slug : String) : Sees (startAddon slug) fun _ _ => True := by
  refine Triple.bind (R := fun _ _ => True) (Triple.ofExcept (fun _ _ _ _ _ => trivial)
    fun e h he _ _ => .inl (quoteSlug_error he)) fun path => ?_
  exact Triple.bind ((request_sees .post _).post fun _ _ _ _ => trivial) fun _ =>
    .pure fun _ _ _ => trivial

theorem sleep_sees (seconds : ℚ) : Sees (sleep seconds) fun _ _ => True :=
  Triple.perform fun _ _ _ _ => ⟨trivial, trivial⟩

theorem waitForState_sees (fuel : ℕ) (slug expected : String) :
    Sees (waitForState fuel slug expected) fun _ => Polled slug fun state =>
      state = expected ∨ expected = "stopped" ∧ ["stopped", "error"].contains state := by
  have hclock : Sees monotonic fun _ _ => True := Triple.perform fun _ _ _ _ => ⟨trivial, trivial⟩
  refine Triple.bind hclock fun start => ?_
  refine Triple.loop (S := fun _ _ => True) (fun lastState => ?_) _ _
  refine Triple.bind hclock fun now => ?_
  split
  · refine (addonState_sees slug).bind fun state => ?_
    split
    · rename_i haccepted
      refine .pure ?_
      rintro h - ⟨u, e, _, rfl, hpolled, rfl⟩
      exact ⟨fun _ _ => trivial, fun _ _ => ⟨u, e, _, rfl, hpolled, haccepted⟩⟩
    · exact Triple.bind ((sleep_sees _).pre fun _ _ _ => trivial) fun _ =>
        .pure fun _ _ _ => ⟨fun _ _ => trivial, fun _ hx => by cases hx⟩
  · exact .raise fun _ _ _ => .inl rfl

/-! ## The restore loop -/

/-- One of the failures is that of the add-on. -/
def FailureNamed (slug : String) (failures : List String) : Prop :=
  ∃ message : String, s!"{slug}: {message}" ∈ failures

/-- The last step has found the add-on running. -/
def SeenStarted (slug : String) (h : Trace World) : Prop :=
  ∃ u e, h = u ++ [e] ∧ polledState slug e = some "started"

theorem restoreAttempt_sees (fuel : ℕ) (slug : String) :
    Sees (restoreAttempt fuel slug) fun _ => SeenStarted slug := by
  have hwait : Sees (waitForState fuel slug "started") fun _ => SeenStarted slug := by
    refine (waitForState_sees fuel slug "started").post ?_
    rintro _ h - ⟨u, e, state, rfl, hpolled, rfl | ⟨hstopped, -⟩⟩
    · exact ⟨u, e, rfl, hpolled⟩
    · exact absurd hstopped (by decide)
  refine Triple.bind (addonState_sees slug) fun state => ?_
  split
  · exact Triple.bind ((startAddon_sees slug).pre fun _ _ _ => trivial) fun _ => hwait
  · exact hwait.pre fun _ _ _ => trivial

/-- One consumer: it runs, or its failure is reported. -/
theorem restoreAddon_sees (fuel : ℕ) (slug : String) :
    Triple (fun _ => True) (fun _ => True) (restoreAddon fuel slug)
      (fun failures h => SeenStarted slug h ∨ FailureNamed slug failures)
      Escapes := by
  have hbody : ∀ s : Unit, Triple (fun _ => True) (fun _ => True)
      (do return (← (restoreAttempt fuel slug).catching Exn.isSupervisorError, s))
      (fun x h => (∀ a, x.1 = .ok a → SeenStarted slug h) ∧ ∀ e, x.1 = .error e → True)
        Escapes := by
    intro s
    refine Triple.bind ((restoreAttempt_sees fuel slug).catching.exc ?_) fun x =>
      .pure fun h _ hx => ⟨fun a ha => hx.1 a ha, fun _ _ => trivial⟩
    rintro e h - ⟨hclass, hsupervisor | hescapes⟩
    · rw [hclass] at hsupervisor
      cases hsupervisor
    · exact hescapes
  have hpause : ∀ (k : ℕ) (s : Unit), Triple (fun _ => True) (fun _ => True)
      (sleep (k : ℚ) : Program Unit) (fun _ _ => True) Escapes :=
    fun k s => Triple.perform fun _ _ _ _ => ⟨trivial, trivial⟩
  refine Triple.bind (Triple.retry (S := fun _ _ => True) (F := fun _ _ => True)
    (Q := fun x h => ∀ a, x.1 = .ok a → SeenStarted slug h) hbody hpause _ _ ()) fun x => ?_
  obtain ⟨restored, _⟩ := x
  cases restored with
  | ok _ => exact .pure fun h _ hx => .inl (hx _ rfl)
  | error e => exact .pure fun h _ _ => .inr ⟨e.message, by simp⟩

theorem restoreAddon_of_attempt {fuel : ℕ} {slug : String} {t : Trace World}
    (h : Run (restoreAttempt fuel slug) t (.returned ())) :
    Run (restoreAddon fuel slug) t (.returned []) := by
  have hpass : Run (do
      return (← (restoreAttempt fuel slug).catching Exn.isSupervisorError, ()) : Program _)
      (t ++ []) (.returned (.ok (), ())) := (Run.catching_of_returned h).bind (.returned _)
  have hretry : Run (.retry (fun attempt => sleep (attempt : ℚ))
      (fun _ => do return (← (restoreAttempt fuel slug).catching Exn.isSupervisorError, ()))
      (restoreAttempts - 1) 1 () : Program _) (t ++ [] ++ []) (.returned (.ok (), ())) :=
    hpass.bind (.returned _)
  have haddon : Run (restoreAddon fuel slug) (t ++ [] ++ [] ++ []) (.returned []) :=
    hretry.bind (.returned _)
  simpa using haddon

/-- The consumers were seen running at some step, or are named among the failures. -/
def RestoredIn (slugs failures : List String) (t : Trace World) : Prop :=
  ∀ slug ∈ slugs, (∃ u e v, t = u ++ e :: v ∧ polledState slug e = some "started") ∨
    FailureNamed slug failures

theorem restoreAddons_returned {fuel : ℕ} {slugs failures : List String} {t : Trace World}
    (h : Run (restoreAddons fuel slugs) t (.returned failures)) : RestoredIn slugs failures t := by
  induction slugs generalizing t failures with
  | nil => exact fun _ hslug => absurd hslug List.not_mem_nil
  | cons slug rest ih =>
    obtain ⟨first, t₁, t₂, rfl, h₁, h₂⟩ := Run.bind_returned.mp h
    obtain ⟨more, t₃, t₄, rfl, h₃, h₄⟩ := Run.bind_returned.mp h₂
    obtain ⟨rfl, rfl⟩ := Run.pure_returned.mp h₄
    have hfirst := (restoreAddon_sees fuel slug).returned trivial trivial h₁ (h := [])
    intro s hs
    rcases List.mem_cons.mp hs with rfl | hs
    · rcases hfirst with ⟨u, e, hu, hpolled⟩ | ⟨message, hmessage⟩
      · rw [List.nil_append] at hu
        exact .inl ⟨u, e, t₃ ++ [], by simp [hu], hpolled⟩
      · exact .inr ⟨message, List.mem_append_left _ hmessage⟩
    · rcases ih h₃ s hs with ⟨u, e, v, rfl, hpolled⟩ | ⟨message, hmessage⟩
      · exact .inl ⟨t₁ ++ u, e, v, by simp, hpolled⟩
      · exact .inr ⟨message, List.mem_append_right _ hmessage⟩

theorem restoreAddons_raised {fuel : ℕ} {slugs : List String} {t : Trace World} {e : Exn}
    (h : Run (restoreAddons fuel slugs) t (.raised e)) : Escapes e t := by
  induction slugs generalizing t with
  | nil => exact absurd (Run.pure_iff.mp h).2 (by simp)
  | cons slug rest ih =>
    rcases Run.bind_inv h with ⟨first, t₁, t₂, rfl, -, h₂⟩ | ⟨e', he, h₁⟩ | ⟨hc, -⟩
    · rcases Run.bind_inv h₂ with ⟨more, t₃, t₄, rfl, -, h₄⟩ | ⟨e', he, h₃⟩ | ⟨hc, -⟩
      · exact absurd (Run.pure_iff.mp h₄).2 (by simp)
      · cases he
        obtain ⟨hclass, method, path, hmem⟩ := ih h₃
        exact ⟨hclass, method, path, List.mem_append_right _ hmem⟩
      · cases hc
    · cases he
      have hescapes := (restoreAddon_sees fuel slug).raised trivial trivial h₁ (h := [])
      simpa using hescapes
    · cases hc

theorem restore_returned {fuel : ℕ} {slugs failures : List String} {t : Trace World}
    (h : Run (restore fuel slugs) t (.returned failures)) : RestoredIn slugs failures t :=
  fun slug hslug => restoreAddons_returned h slug (List.mem_reverse.mpr hslug)

theorem restore_raised {fuel : ℕ} {slugs : List String} {t : Trace World} {e : Exn}
    (h : Run (restore fuel slugs) t (.raised e)) : Escapes e t :=
  restoreAddons_raised h

end SupervisorClient
end Cul868Flasher
