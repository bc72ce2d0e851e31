import Cul868Flasher.Effects.Timeline
import Cul868Flasher.Flasher.Restore

/-!
# The stop phase next to the Supervisor

The Supervisor answers a request and carries it out at two different moments.
A failed stop phase leaves every consumer running or named in its note, unless
a stop request takes effect where the client does not expect it any more.
-/

namespace Cul868Flasher
open Python Effects

/-! ## The Supervisor -/

inductive Control where
  | stop
  | start
  deriving DecidableEq

structure AddonRequest where
  slug : String
  control : Control
  deriving DecidableEq

def AddonRequest.path : AddonRequest → String
  | ⟨slug, .stop⟩ => s!"/addons/{slug}/stop"
  | ⟨slug, .start⟩ => s!"/addons/{slug}/start"

/-- The add-ons that run, and the requests that have not been carried out. -/
structure SupervisorState where
  running : String → Bool
  pending : List AddonRequest

inductive SupervisorStep where
  | takesEffect (r : AddonRequest)
  | isLost (r : AddonRequest)

/-- The event sends the request. -/
def Requests (e : Event World) (r : AddonRequest) : Prop := e.op = .request .post r.path

/-- An answer is free, but the state that it tells is true; a request is accepted for
later, whatever its answer. -/
structure SupervisorAnswers (s : SupervisorState) (e : Event World) (s' : SupervisorState) :
    Prop where
  running : s'.running = s.running
  truthful : ∀ slug state, SupervisorClient.polledState slug e = some state →
    (state = "started" ↔ s.running slug = true)
  pending : (∃ r, Requests e r ∧ s'.pending = s.pending ++ [r]) ∨
    (∀ r, ¬ Requests e r) ∧ s'.pending = s.pending

def SupervisorSteps (s : SupervisorState) : SupervisorStep → SupervisorState → Prop
  | .takesEffect r, s' => r ∈ s.pending ∧
    s' = ⟨Function.update s.running r.slug (r.control = .start), s.pending.erase r⟩
  | .isLost r, s' => r ∈ s.pending ∧ s' = { s with pending := s.pending.erase r }

def supervisor : Environment World SupervisorStep SupervisorState where
  answers := SupervisorAnswers
  steps := SupervisorSteps

abbrev SupervisorMoment := Moment World SupervisorStep

/-- A consumer whose stop takes no effect keeps running. -/
theorem running_of_no_stop {s s' : SupervisorState} {ms : List SupervisorMoment} {slug : String}
    (h : Timeline supervisor s ms s') (hstop : .env (.takesEffect ⟨slug, .stop⟩) ∉ ms)
    (hs : s.running slug = true) : s'.running slug = true := by
  refine h.invariant (K := fun s => s.running slug = true)
    (M := fun m => m ≠ .env (.takesEffect ⟨slug, .stop⟩)) ?_ ?_ ?_ hs
  · intro s e s' _ ha hs
    rw [ha.running]
    exact hs
  · rintro s (r | r) s' hne ⟨-, rfl⟩ hs
    · by_cases hslug : slug = r.slug
      · subst hslug
        cases hcontrol : r.control with
        | start => simp
        | stop =>
          obtain ⟨slug, control⟩ := r
          cases hcontrol
          exact absurd rfl hne
      · dsimp only
        rw [Function.update_of_ne hslug]
        exact hs
    · exact hs
  · rintro m hm rfl
    exact hstop hm

theorem running_of_polled {s s' : SupervisorState} {ms ns : List SupervisorMoment}
    {e : Event World} {slug : String} (h : Timeline supervisor s (ms ++ .call e :: ns) s')
    (he : SupervisorClient.polledState slug e = some "started")
    (hstop : .env (.takesEffect ⟨slug, .stop⟩) ∉ ns) : s'.running slug = true := by
  obtain ⟨s₁, -, hrest⟩ := h.append_inv
  cases hrest with
  | call ha hrest =>
    refine running_of_no_stop hrest hstop ?_
    rw [ha.running]
    exact (ha.truthful slug "started" he).mp rfl

/-! ## The stop requests of a run -/

namespace SupervisorClient

theorem stopPath_inj {slug other : String}
    (h : s!"/addons/{slug}/stop" = s!"/addons/{other}/stop") :
    slug = other := by
  have htext : toString slug = toString other := by simpa using h
  exact htext

/-- A request to stop the consumer has been sent. -/
def StopSent (slug : String) (t : Trace World) : Prop := ∃ e ∈ t, Requests e ⟨slug, .stop⟩

/-- A request to stop the consumer has been answered with an error. -/
def StopRefused (slug : String) (t : Trace World) : Prop :=
  ∃ outcome : HttpOutcome, ⟨.request .post s!"/addons/{slug}/stop", outcome⟩ ∈ t ∧
    ∃ e, responseFields .post s!"/addons/{slug}/stop" outcome = .error e

theorem stopAddon_returned {slug : String} {t : Trace World}
    (h : Run (stopAddon slug) t (.returned ())) :
    ∃ outcome : HttpOutcome, t = [⟨.request .post s!"/addons/{slug}/stop", outcome⟩] := by
  obtain ⟨path, t₁, t₂, rfl, h₁, h₂⟩ := Run.bind_returned.mp h
  obtain ⟨rfl, hpath⟩ := Flasher.ofExcept_returned.mp h₁
  obtain rfl := quoteSlug_ok hpath
  obtain ⟨_, t₃, t₄, rfl, h₃, h₄⟩ := Run.bind_returned.mp h₂
  obtain ⟨outcome, rfl, -⟩ := Flasher.performed h₃
  obtain ⟨rfl, -⟩ := Run.pure_returned.mp h₄
  exact ⟨outcome, rfl⟩

theorem stopAddon_raised {slug : String} {t : Trace World} {e : Exn}
    (h : Run (stopAddon slug) t (.raised e)) : t = [] ∨ ∃ outcome : HttpOutcome,
      t = [⟨.request .post s!"/addons/{slug}/stop", outcome⟩] ∧
        responseFields .post s!"/addons/{slug}/stop" outcome = .error e := by
  rcases Run.bind_inv h with ⟨path, t₁, t₂, rfl, h₁, h₂⟩ | ⟨_, heq, h₁⟩ | ⟨hc, -⟩
  · obtain ⟨rfl, hpath⟩ := Flasher.ofExcept_returned.mp h₁
    obtain rfl := quoteSlug_ok hpath
    rcases Run.bind_inv h₂ with ⟨_, _, _, rfl, -, h₄⟩ | ⟨_, heq, h₃⟩ | ⟨hc, -⟩
    · cases (Run.pure_iff.mp h₄).2 with
      | inl hr => cases hr
      | inr hr => cases hr
    · cases heq
      obtain ⟨outcome, rfl, hfailed⟩ := Flasher.performed_raised h₃
      exact .inr ⟨outcome, rfl, hfailed⟩
    · cases hc
  · exact .inl (Flasher.ofExcept_raised h₁).1
  · cases hc

theorem requests_stop_iff {slug other : String} {outcome : HttpOutcome} :
    Requests ⟨.request .post s!"/addons/{other}/stop", outcome⟩ ⟨slug, .stop⟩ ↔ slug = other := by
  constructor
  · intro h
    have hpath : s!"/addons/{other}/stop" = s!"/addons/{slug}/stop" := (Op.request.inj h).2
    exact (stopPath_inj hpath).symm
  · rintro rfl
    rfl

theorem waitForState_not_sent {fuel : ℕ} {slug other expected : String} {t : Trace World}
    {r : Outcome Exn Unit} (h : Run (waitForState fuel other expected) t r) :
    ¬ StopSent slug t := by
  rintro ⟨e, he, hrequests⟩
  have hkind := (waitForState_uses fuel other expected).run h e he
  rw [show e.op = .request .post s!"/addons/{slug}/stop" from hrequests] at hkind
  exact absurd hkind (by simp [Op.kind])

theorem stopSent_append {slug : String} {t₁ t₂ : Trace World} :
    StopSent slug (t₁ ++ t₂) ↔ StopSent slug t₁ ∨ StopSent slug t₂ := by
  simp only [StopSent, List.mem_append, or_and_right, exists_or]

theorem stopSent_singleton {slug other : String} {outcome : HttpOutcome} :
    StopSent slug [⟨.request .post s!"/addons/{other}/stop", outcome⟩] ↔ slug = other := by
  simp only [StopSent, List.mem_singleton, exists_eq_left]
  exact requests_stop_iff

theorem StopRefused.append {slug : String} {t : Trace World} (h : StopRefused slug t)
    (u : Trace World) : StopRefused slug (u ++ t) := by
  obtain ⟨outcome, hmem, he⟩ := h
  exact ⟨outcome, List.mem_append_right _ hmem, he⟩

theorem raisingWith_raised {p : Program α} {s s' : σ} {t : Trace World} {e : Exn}
    (h : Run (p.raisingWith s) t (.raised (e, s'))) : s' = s ∧ Run p t (.raised e) := by
  rcases Run.raisingWith_inv h with ⟨_, heq, -⟩ | ⟨_, heq, hrun⟩ | ⟨heq, -⟩
  · cases heq
  · cases heq
    exact ⟨rfl, hrun⟩
  · cases heq

/-- The bookkeeping of the loop: what it has sent is on its list, or was refused. -/
theorem stopAddons_raised {fuel : ℕ} {stopped slugs result : List String} {t : Trace World}
    {e : Exn} (h : Run (stopAddons fuel stopped slugs) t (.raised (e, result))) :
    (∀ slug ∈ stopped, slug ∈ result) ∧ ∀ slug, StopSent slug t → slug ∈ slugs ∧
      (slug ∈ result ∨ StopRefused slug t) := by
  induction slugs generalizing stopped t with
  | nil =>
    cases (Run.pure_iff.mp h).2 with
    | inl hr => cases hr
    | inr hr => cases hr
  | cons next rest ih =>
    rcases Run.bind_inv h with ⟨_, t₁, t₂, rfl, h₁, h₂⟩ | ⟨_, heq, h₁⟩ | ⟨hc, -⟩
    · obtain ⟨outcome, rfl⟩ := stopAddon_returned (Run.raisingWith_returned.mp h₁)
      rcases Run.bind_inv h₂ with ⟨_, t₃, t₄, rfl, h₃, h₄⟩ | ⟨_, heq, h₃⟩ | ⟨hc, -⟩
      · obtain ⟨hkept, hsent⟩ := ih h₄
        refine ⟨fun slug hslug => hkept slug (List.mem_append_left _ hslug), fun slug hs => ?_⟩
        rcases stopSent_append.mp hs with hs | hs
        · obtain rfl := stopSent_singleton.mp hs
          exact ⟨List.mem_cons_self, .inl (hkept slug (by simp))⟩
        · rcases stopSent_append.mp hs with hs | hs
          · exact absurd hs (waitForState_not_sent (Run.raisingWith_returned.mp h₃))
          · obtain ⟨hrest, hlisted | hrefused⟩ := hsent slug hs
            · exact ⟨List.mem_cons_of_mem _ hrest, .inl hlisted⟩
            · exact ⟨List.mem_cons_of_mem _ hrest, .inr ((hrefused.append t₃).append _)⟩
      · cases heq
        obtain ⟨rfl, hwait⟩ := raisingWith_raised h₃
        refine ⟨fun slug hslug => List.mem_append_left _ hslug, fun slug hs => ?_⟩
        rcases stopSent_append.mp hs with hs | hs
        · obtain rfl := stopSent_singleton.mp hs
          exact ⟨List.mem_cons_self, .inl (by simp)⟩
        · exact absurd hs (waitForState_not_sent hwait)
      · cases hc
    · cases heq
      obtain ⟨rfl, hstop⟩ := raisingWith_raised h₁
      refine ⟨fun _ hslug => hslug, fun slug hs => ?_⟩
      rcases stopAddon_raised hstop with rfl | ⟨outcome, rfl, hfailed⟩
      · obtain ⟨_, hmem, -⟩ := hs
        exact absurd hmem List.not_mem_nil
      · obtain rfl := stopSent_singleton.mp hs
        exact ⟨List.mem_cons_self, .inr ⟨outcome, by simp, e, hfailed⟩⟩
    · cases hc

end SupervisorClient

/-! ## Failed stop phases -/

open SupervisorClient

/-- The note of the exception names the consumer. -/
def NamedInNote (slug : String) (e : Exn) : Prop :=
  ∃ failures, FailureNamed slug failures ∧
    "CUL consumer add-ons could not be restored: " ++ String.intercalate "; " failures ∈ e.notes

/-- A stop phase that raises, up to its exception and after it, next to the Supervisor.
The consumers run when it begins, and only its own requests change that. -/
structure FailedStop (fuel : ℕ) (matched : CulConsumerPause) where
  running : String → Bool
  stopping : List SupervisorMoment
  restoring : List SupervisorMoment
  final : SupervisorState
  err : Exn
  stopped : List String
  raised : Exn
  matched_running : ∀ slug ∈ matched.addons, running slug = true
  timeline : Timeline supervisor ⟨running, []⟩ (stopping ++ restoring) final
  stop_run : Run (stopAddons fuel [] matched.addons) (calls stopping) (.raised (err, stopped))
  run : Run (stopConsumers fuel matched) (calls (stopping ++ restoring)) (.raised raised)

namespace FailedStop
variable {fuel : ℕ} {matched : CulConsumerPause}

/-- Every stop phase that raises is of this form. -/
theorem exists_of_run {running : String → Bool} {ms : List SupervisorMoment}
    {final : SupervisorState} {e : Exn} (hrunning : ∀ slug ∈ matched.addons, running slug = true)
    (htimeline : Timeline supervisor ⟨running, []⟩ ms final)
    (hrun : Run (stopConsumers fuel matched) (calls ms) (.raised e)) :
    ∃ x : FailedStop fuel matched, ms = x.stopping ++ x.restoring ∧ x.final = final ∧
      x.raised = e := by
  rcases Run.bind_inv hrun with ⟨result, t₁, t₂, hcalls, h₁, h₂⟩ | ⟨_, -, h₁⟩ | ⟨hc, -⟩
  · rcases Run.attempt_returned_iff.mp h₁ with ⟨_, rfl, -⟩ | ⟨⟨err, stopped⟩, rfl, hstop⟩
    · cases (Run.pure_iff.mp h₂).2 with
      | inl hr => cases hr
      | inr hr => cases hr
    · obtain ⟨ns₁, ns₂, rfl, rfl, rfl⟩ := calls_eq_append hcalls
      exact ⟨⟨running, ns₁, ns₂, final, err, stopped, e, hrunning, htimeline, hstop, hrun⟩,
        rfl, rfl, rfl⟩
  · exact absurd h₁ Run.attempt_raised_not
  · cases hc

theorem restore_run (x : FailedStop fuel matched) :
    Run (restore fuel x.stopped >>= fun failures =>
      (.raise (addRestoreNote x.err failures) : Program (List String))) (calls x.restoring)
      (.raised x.raised) := by
  have hrun := x.run
  rw [calls_append] at hrun
  unfold stopConsumers at hrun
  have hrest := Run.bind_resume (Run.attempt_raised x.stop_run) hrun
  exact hrest

/-- A stop request that is answered with an error takes no effect. -/
def RefusedStopsLost (x : FailedStop fuel matched) : Prop :=
  ∀ slug, StopRefused slug (calls x.stopping) →
    .env (.takesEffect ⟨slug, .stop⟩) ∉ x.stopping ++ x.restoring

/-- No stop request takes effect after the restore has seen its consumer running. -/
def NoLateStop (x : FailedStop fuel matched) : Prop :=
  ∀ slug u e v, x.restoring = u ++ .call e :: v → polledState slug e = some "started" →
    .env (.takesEffect ⟨slug, .stop⟩) ∉ v

/-- The exchanges of the restore fail in no way that the client does not expect. -/
def RestoreAnswered (x : FailedStop fuel matched) : Prop :=
  ∀ method path e, .call ⟨.request method path, .raised e⟩ ∈ x.restoring →
    e.isSupervisorError = true

theorem restored_or_named (x : FailedStop fuel matched) (hrefused : x.RefusedStopsLost)
    (hlate : x.NoLateStop) (hanswered : x.RestoreAnswered) :
    ∀ slug, StopSent slug (calls x.stopping) →
      x.final.running slug = true ∨ NamedInNote slug x.raised := by
  intro slug hsent
  obtain ⟨hmatched, hlisted | hrefusal⟩ := (stopAddons_raised x.stop_run).2 slug hsent
  · rcases Run.bind_inv x.restore_run
      with ⟨failures, t₁, t₂, hcalls, h₁, h₂⟩ | ⟨e, heq, h₁⟩ | ⟨hc, -⟩
    · obtain ⟨rfl, hraised | hcut⟩ := Run.raise_iff.mp h₂
      · rw [List.append_nil] at hcalls
        rcases restore_returned h₁ slug hlisted with ⟨u, e, v, rfl, hpolled⟩ | hnamed
        · left
          obtain ⟨ns₁, ns₂, hrestoring, -, hrest⟩ := calls_eq_append hcalls
          obtain ⟨ns₃, ns₄, rfl, -, -⟩ := calls_eq_cons hrest
          have hsplit : x.restoring = (ns₁ ++ ns₃) ++ .call e :: ns₄ := by
            rw [hrestoring, List.append_assoc]
          have htimeline := x.timeline
          rw [hsplit, ← List.append_assoc] at htimeline
          exact running_of_polled htimeline hpolled (hlate slug _ e _ hsplit hpolled)
        · right
          have hnonempty : failures ≠ [] := by
            rintro rfl
            obtain ⟨_, hmem⟩ := hnamed
            exact absurd hmem List.not_mem_nil
          have hnote : x.raised = addRestoreNote x.err failures := Outcome.raised.inj hraised
          refine ⟨failures, hnamed, ?_⟩
          rw [hnote, addRestoreNote, if_neg hnonempty]
          simp
      · cases hcut
    · obtain ⟨hclass, method, path, hmem⟩ := restore_raised h₁
      rw [hanswered method path e (mem_calls.mp hmem)] at hclass
      cases hclass
    · cases hc
  · exact .inl (running_of_no_stop x.timeline (hrefused slug hrefusal)
      (x.matched_running slug hmatched))

end FailedStop

/-! ## Two runs -/

def oneConsumer : CulConsumerPause := .make [] [] ["core_a"]

theorem oneConsumer_addons : oneConsumer.addons = ["core_a"] := by
  decide +kernel

theorem quoteSlug_consumer : quoteSlug "core_a" = .ok "core_a" := by
  have hslug : isAddonSlug "core_a" = true := by decide +kernel
  rw [quoteSlug, if_pos hslug]

theorem addonPath_consumer : addonPath "core_a" = .ok "core_a" := by
  rw [addonPath, if_neg (by decide), quoteSlug_consumer]

theorem wait_open : (0 : ℚ) < 0 + stateTimeoutSeconds := by
  norm_num [stateTimeoutSeconds]

abbrev okResponse : HttpOutcome := .response 0 (some (.obj [("result", .str "ok")]))

abbrev stateResponse (state : String) : HttpOutcome :=
  .response 0 (some (.obj [("result", .str "ok"), ("data", .obj [("state", .str state)])]))

def consumerRequest (control : Control) (outcome : HttpOutcome) : Event World :=
  ⟨.request .post (AddonRequest.mk "core_a" control).path, outcome⟩

def infoPath (slug : String) : String := s!"/addons/{slug}/info"

def consumerPoll (outcome : HttpOutcome) : Event World :=
  ⟨.request .get (infoPath "core_a"), outcome⟩

def timedOut (method : HttpMethod) (path : String) : Exn :=
  .supervisorError s!"Supervisor request {method.text} {path} failed: timed out"

theorem supervisorAnswers_request {running : String → Bool} {pending : List AddonRequest}
    {control : Control} {outcome : HttpOutcome} :
    SupervisorAnswers ⟨running, pending⟩ (consumerRequest control outcome)
      ⟨running, pending ++ [⟨"core_a", control⟩]⟩ where
  running := rfl
  truthful slug state h := by cases h
  pending := .inl ⟨_, rfl, rfl⟩

theorem supervisorAnswers_clock {s : SupervisorState} :
    SupervisorAnswers s ⟨.monotonic, (0 : ℚ)⟩ s where
  running := rfl
  truthful slug state h := by cases h
  pending := .inr ⟨(fun r hr => by cases hr), rfl⟩

theorem polledState_slug {slug : String} {outcome : HttpOutcome} {state : String}
    (h : polledState slug (consumerPoll outcome) = some state) : slug = "core_a" := by
  unfold polledState consumerPoll at h
  dsimp only at h
  split at h
  · rename_i hpath
    have htext : toString "core_a" = toString slug := by simpa [infoPath] using hpath
    exact htext.symm
  · cases h

theorem supervisorAnswers_poll {s : SupervisorState} {outcome : HttpOutcome}
    (h : ∀ state, polledState "core_a" (consumerPoll outcome) = some state →
      (state = "started" ↔ s.running "core_a" = true)) :
    SupervisorAnswers s (consumerPoll outcome) s where
  running := rfl
  truthful slug state hpolled := by
    obtain rfl := polledState_slug hpolled
    exact h state hpolled
  pending := .inr ⟨(fun r hr => by cases hr), rfl⟩

theorem polledState_timedOut :
    polledState "core_a" (consumerPoll (.urlError "timed out")) = none := by
  decide +kernel

theorem polledState_response :
    polledState "core_a" (consumerPoll (stateResponse "stopped")) = some "stopped" ∧
      polledState "core_a" (consumerPoll (stateResponse "started")) = some "started" := by
  decide +kernel

theorem stop_takesEffect {running : String → Bool} :
    SupervisorSteps ⟨running, [⟨"core_a", .stop⟩]⟩ (.takesEffect ⟨"core_a", .stop⟩)
      ⟨Function.update running "core_a" false, []⟩ :=
  ⟨by simp, by simp⟩

theorem start_takesEffect {running : String → Bool} :
    SupervisorSteps ⟨running, [⟨"core_a", .start⟩]⟩ (.takesEffect ⟨"core_a", .start⟩)
      ⟨Function.update running "core_a" true, []⟩ :=
  ⟨by simp, by simp⟩

/-- The stop request is carried out, and its response is lost. -/
def lostResponse : FailedStop 1 oneConsumer where
  running _ := true
  stopping := [.call (consumerRequest .stop (.urlError "timed out")),
    .env (.takesEffect ⟨"core_a", .stop⟩)]
  restoring := []
  final := ⟨Function.update (fun _ => true) "core_a" false, []⟩
  err := timedOut .post (AddonRequest.mk "core_a" .stop).path
  stopped := []
  raised := timedOut .post (AddonRequest.mk "core_a" .stop).path
  matched_running _ _ := rfl
  timeline := .call supervisorAnswers_request (.env stop_takesEffect (.nil _))
  stop_run := by
    rw [oneConsumer_addons]
    simp only [stopAddons, stopAddon, quoteSlug_consumer]
    exact .call _ (.raised _)
  run := by
    unfold stopConsumers
    rw [oneConsumer_addons]
    simp only [stopAddons, stopAddon, quoteSlug_consumer]
    exact .call _ (.raised _)

theorem lostResponse_stays_stopped :
    ¬ ∀ (fuel : ℕ) (matched : CulConsumerPause) (x : FailedStop fuel matched),
      x.final.pending = [] → ∀ slug, StopSent slug (calls x.stopping) →
        x.final.running slug = true ∨ NamedInNote slug x.raised := by
  intro h
  have hsent : StopSent "core_a" (calls lostResponse.stopping) :=
    ⟨consumerRequest .stop (.urlError "timed out"), by simp [lostResponse, calls], rfl⟩
  rcases h 1 oneConsumer lostResponse rfl "core_a" hsent with hrunning | ⟨_, -, hnote⟩
  · simp [lostResponse] at hrunning
  · exact absurd hnote List.not_mem_nil

theorem lostPoll_stops : Run (stopAddons 1 [] oneConsumer.addons)
    [consumerRequest .stop okResponse, ⟨.monotonic, (0 : ℚ)⟩, ⟨.monotonic, (0 : ℚ)⟩,
      consumerPoll (.urlError "timed out")]
        (.raised (timedOut .get (infoPath "core_a"), ["core_a"])) := by
  rw [oneConsumer_addons]
  simp only [stopAddons, stopAddon, quoteSlug_consumer]
  refine .call _ (.call _ (.call _ ?_))
  simp only [Prog.bind, bind, if_pos wait_open, addonState, addonInfo, addonPath_consumer]
  exact .call _ (.raised _)

theorem addonState_stopped :
    Run (addonState "core_a") [consumerPoll (stateResponse "stopped")] (.returned "stopped") := by
  simp only [addonState, addonInfo, addonPath_consumer]
  exact .call _ (.returned _)

theorem startAddon_consumer :
    Run (startAddon "core_a") [consumerRequest .start okResponse] (.returned ()) := by
  simp only [startAddon, quoteSlug_consumer]
  exact .call _ (.returned _)

theorem waitForState_started : Run (waitForState 1 "core_a" "started")
    [⟨.monotonic, (0 : ℚ)⟩, ⟨.monotonic, (0 : ℚ)⟩, consumerPoll (stateResponse "started")]
    (.returned ()) := by
  refine .call _ (.call _ ?_)
  simp only [Prog.bind, bind, if_pos wait_open, addonState, addonInfo, addonPath_consumer]
  exact .call _ (.returned _)

theorem lostPoll_restores : Run (restore 1 ["core_a"]) [consumerPoll (stateResponse "stopped"),
    consumerRequest .start okResponse, ⟨.monotonic, (0 : ℚ)⟩, ⟨.monotonic, (0 : ℚ)⟩,
    consumerPoll (stateResponse "started")] (.returned []) := by
  have hattempt : Run (restoreAttempt 1 "core_a") _ (.returned ()) :=
    addonState_stopped.bind (startAddon_consumer.bind waitForState_started)
  exact (restoreAddon_of_attempt hattempt).bind ((Run.returned []).bind (.returned _))

/-- The poll after the stop is lost, and the restore starts the consumer again. -/
def lostPoll : FailedStop 1 oneConsumer where
  running _ := true
  stopping := [.call (consumerRequest .stop okResponse), .env (.takesEffect ⟨"core_a", .stop⟩),
    .call ⟨.monotonic, (0 : ℚ)⟩, .call ⟨.monotonic, (0 : ℚ)⟩,
    .call (consumerPoll (.urlError "timed out"))]
  restoring := [.call (consumerPoll (stateResponse "stopped")),
    .call (consumerRequest .start okResponse), .env (.takesEffect ⟨"core_a", .start⟩),
    .call ⟨.monotonic, (0 : ℚ)⟩, .call ⟨.monotonic, (0 : ℚ)⟩,
    .call (consumerPoll (stateResponse "started"))]
  final := ⟨Function.update (Function.update (fun _ => true) "core_a" false) "core_a" true, []⟩
  err := timedOut .get (infoPath "core_a")
  stopped := ["core_a"]
  raised := timedOut .get (infoPath "core_a")
  matched_running _ _ := rfl
  timeline := by
    refine .call supervisorAnswers_request (.env stop_takesEffect (.call supervisorAnswers_clock
      (.call supervisorAnswers_clock (.call (supervisorAnswers_poll ?_) (.call
        (supervisorAnswers_poll ?_) (.call supervisorAnswers_request (.env start_takesEffect (.call
          supervisorAnswers_clock (.call supervisorAnswers_clock (.call (supervisorAnswers_poll ?_)
            (.nil _)))))))))))
    · simp [polledState_timedOut]
    · simp [polledState_response]
    · simp [polledState_response]
  stop_run := lostPoll_stops
  run := by
    have hstop : Run (stopAddons 1 [] oneConsumer.addons) _ (.raised (timedOut .get (infoPath
        "core_a"), ["core_a"])) := lostPoll_stops
    have hrestore := lostPoll_restores
    unfold stopConsumers
    exact (Run.attempt_raised hstop).bind (hrestore.bind (.raised _))

theorem lostPoll_restored :
    ∃ x : FailedStop 1 oneConsumer, x.final.pending = [] ∧ StopSent "core_a" (calls x.stopping) ∧
      ∀ slug, StopSent slug (calls x.stopping) →
        x.final.running slug = true ∨ NamedInNote slug x.raised := by
  refine ⟨lostPoll, rfl, ⟨consumerRequest .stop okResponse, by simp [lostPoll, calls], rfl⟩,
    lostPoll.restored_or_named ?_ ?_ ?_⟩
  · rintro slug ⟨outcome, hmem, e, he⟩
    simp only [lostPoll, calls, List.mem_cons, List.not_mem_nil, or_false] at hmem
    rcases hmem with h | h | h | h
    · obtain ⟨-, houtcome⟩ := Event.mk.inj h
      cases houtcome
      cases he
    · cases h
    · cases h
    · cases h
  · intro slug u e v hsplit _ hmem
    have hall : .env (.takesEffect ⟨slug, .stop⟩) ∈ lostPoll.restoring := by
      rw [hsplit]
      exact List.mem_append_right _ (List.mem_cons_of_mem _ hmem)
    simp [lostPoll] at hall
  · intro method path e hmem
    simp only [lostPoll, List.mem_cons, Moment.call.injEq, List.not_mem_nil, or_false, reduceCtorEq,
      false_or] at hmem
    rcases hmem with h | h | h | h | h
    · cases h
    · cases h
    · cases h
    · cases h
    · cases h

end Cul868Flasher
