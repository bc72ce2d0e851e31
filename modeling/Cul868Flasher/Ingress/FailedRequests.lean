import Cul868Flasher.Ingress.Aftermath
import Cul868Flasher.Ingress.Readiness

/-!
# Failed requests

A `flash` or `validate_upload` that raises leaves the add-on as it was for
everybody else: in each interleaving by what its steps have done, and exactly when
nothing happens next to it. A staged upload can be flashed afterwards.
-/

namespace Cul868Flasher
open Python Effects

variable {i j : ℕ} {s s' : Site} {o : App.Op} {a : App.Ans o} {fuel : ℕ} {settings : Settings}
  {t u v w : List (Act App Task Signal)} {c c₀ c₁ : System App Exn Site} {task : Task} {e : Exn}

/-! ## Flashing after a failure -/

/-- A staged upload can be flashed as long as it has not expired: the request comes
through whatever the clocks and the tokens answer. -/
theorem staged_flashed (h : Reached fuel settings t c) (hcalm : Calm c.store)
    {identifier : String} {entry : StagedArtifact} (hentry : (identifier, entry) ∈ c.store.entries)
    (hlength : 16 ≤ identifier.length ∧ identifier.length ≤ 128) {confirmUnpairedRecovery : Json}
    (hconsent : ConsentFits entry.preflight confirmUnpairedRecovery) {oracle : Site.Oracle}
    (hfresh : (oracle .monotonic : ℚ) < entry.expiresAt) (hj : c.threads j = none) :
    ∃ w c' operationId, Reached fuel settings
        (t ++ .start j (.flash (.str identifier) (.bool true) confirmUnpairedRecovery) :: w) c' ∧
      c'.threads j = some (.ret ()) ∧
      c'.store.queue =
        [⟨operationId, identifier, entry.image, entry.preflight.manualRecovery⟩] ∧
      c'.store.controller.status = .queued ∧
      c'.store.controller.operationId = some operationId := by
  have horder := reached_orderly h
  have hun : entry.claimed = false := by
    rw [← Bool.not_eq_true]
    intro hclaimed
    obtain ⟨k, -, -, hlock, -⟩ := claimed_by h hentry hclaimed
    rw [hcalm.submission] at hlock
    cases hlock
  have hmarked := horder.admission.marked_of_free horder.sections hcalm.controller
  have hqueue : c.store.queue = [] := by
    have hempty := (horder.admission.shows hmarked).nil fun hqueued => by
      have hidle := hcalm.idle
      rw [hqueued] at hidle
      cases hidle
    exact (List.append_eq_nil_iff.mp hempty).1
  have hentries := horder.sections.entries_eq_of_mem hentry
  have hserving : c.store.serving = true := by
    rw [← Bool.not_eq_false]
    intro hnot
    rw [(horder.sections.unserved hnot).2.1] at hentry
    cases hentry
  have hflashable : Flashable c.store identifier entry := ⟨hcalm, hqueue, hentries, hun, hlength⟩
  obtain ⟨operationId, now, hflash⟩ :=
    IngressApi.does_flash fuel settings j oracle hflashable hconsent hfresh
  have hstart : Reached fuel settings
      (t ++ [.start j (.flash (.str identifier) (.bool true) confirmUnpairedRecovery)]) _ :=
    h.snoc (.start hj hserving)
  obtain ⟨w, hw⟩ := (hflash.bind (.ret () _)).reaches hstart (Function.update_self j _ _)
  rw [List.append_assoc] at hw
  exact ⟨w.map (.call j), _, operationId, hw, Function.update_self j _ _, rfl, rfl, rfl⟩

/-! ## A failed request with nothing next to it -/

/-- Only thread `i` takes steps, and they are calls. -/
def Solo (i : ℕ) (w : List (Act App Task Signal)) : Prop := ∀ m ∈ w, ∃ event, m = .call i event

theorem Solo.standings (h : Solo i w) (hj : j ≠ i) :
    standings (u ++ .start i task :: w) j = standings u j := by
  induction w using List.reverseRecOn with
  | nil => rw [standings_start, Function.update_of_ne hj]
  | append_singleton w m ih =>
    obtain ⟨event, rfl⟩ := h m (by simp)
    rw [← List.cons_append, ← List.append_assoc, standings_call, called_ne hj]
    exact ih fun m hm => h m (List.mem_append_left _ hm)

theorem reached_unique (h : Reached fuel settings t c) (h' : Reached fuel settings t c₁) :
    c = c₁ := by
  refine h.unique ?_ ?_ h'
  · rintro i s o a s₁ s₂ ⟨-, -, rfl⟩ ⟨-, -, rfl⟩
    rfl
  · rintro s n s₁ s₂ h₁ h₂
    cases n with
    | requestStop => exact h₁.trans h₂.symm

/-- The clock reading that a thread goes by is its own. -/
theorem clock_read {now : ℚ} (h : (standings t i).clock = some now) :
    .call i ⟨.monotonic, now⟩ ∈ t := by
  revert h
  refine standings_induction (P := fun t ℓ => ℓ.clock = some now → .call i ⟨.monotonic, now⟩ ∈ t)
    ?_ ?_ ?_ fun t m hold h => List.mem_append_left _ (hold h)
  · rw [boarding_frame Standing.clock rfl rfl]
    rintro ⟨⟩
  · intro t o a hold h
    cases o with
    | monotonic =>
      cases h
      simp
    | release lock =>
      have hclock : (if lock = .registry then none else (standings t i).clock) = some now := h
      split_ifs at hclock
      exact List.mem_append_left _ (hold hclock)
    | _ => exact List.mem_append_left _ (hold h)
  · rintro t task ⟨⟩

theorem ne_worker_of_start (h : Reached fuel settings t c) (hstart : .start i task ∈ t) :
    i ≠ worker := by
  obtain ⟨u, v, rfl⟩ := List.append_of_mem hstart
  obtain ⟨c₁, c₂, hreach, hstep⟩ := h.split
  have hboot := hreach.unstarted hstep.start_inv.1
  rintro rfl
  cases hboot

/-- The entries without their claims. -/
def Entries.unclaim (entries : Entries) : Entries :=
  entries.map fun item => (item.1, { item.2 with claimed := false })

/-- An entry that was there has expired by a clock reading of thread `i` in `w`. -/
structure Expired (i : ℕ) (w : List (Act App Task Signal)) (identifier : String)
    (entry : StagedArtifact) (entries : Entries) : Prop where
  unclaimed : entry.claimed = false
  read : ∃ now : ℚ, .call i ⟨.monotonic, now⟩ ∈ w ∧ entry.expiresAt ≤ now
  removed : entries = []

namespace Expired
variable {identifier : String} {entry : StagedArtifact} {entries : Entries}

theorem later (h : Expired i w identifier entry entries) (v : List (Act App Task Signal)) :
    Expired i (w ++ v) identifier entry entries where
  unclaimed := h.unclaimed
  read := by
    obtain ⟨now, hread, hle⟩ := h.read
    exact ⟨now, List.mem_append_left _ hread, hle⟩
  removed := h.removed

theorem unclaim (h : Expired i w identifier entry entries) :
    Entries.unclaim [(identifier, entry)] = [(identifier, entry)] := by
  simp [Entries.unclaim, ← h.unclaimed]

end Expired

theorem Harmless.nil {entries entries' : Entries} (h : Harmless i u v entries entries')
    (hnil : entries = []) : entries' = [] := by
  cases h with
  | same => exact hnil
  | expired => rfl
  | claimed => cases hnil
  | released => cases hnil

theorem unclaim_harmless {entries entries' : Entries} (h : Harmless i u v entries entries') :
    entries'.unclaim = entries.unclaim ∨
      ∃ identifier entry, entries = [(identifier, entry)] ∧
        Expired i u identifier entry entries' := by
  cases h with
  | same => exact .inl rfl
  | @expired identifier entry now hun hclock hle =>
    exact .inr ⟨identifier, entry, rfl, hun, ⟨now, clock_read hclock, hle⟩, rfl⟩
  | claimed => exact .inl rfl
  | released => exact .inl rfl

/-- Up to claims the registry is as it was, or its entry has expired. -/
theorem solo_entries (h : Reached fuel settings (u ++ .start i task :: w) c) (hover : Over c i)
    (hspares : ∀ event, .call i event ∈ u ++ .start i task :: w → spares event.op event.ans = true)
    (hi : i ≠ worker) (hsolo : Solo i w) (h₀ : Reached fuel settings u c₀)
    {w₁ w₂ : List (Act App Task Signal)}
    (hw : w = w₁ ++ w₂) (h₁ : Reached fuel settings (u ++ .start i task :: w₁) c₁) :
    c₁.store.controller = c₀.store.controller ∧ c₁.store.queue = c₀.store.queue ∧
      (c₁.store.entries.unclaim = c₀.store.entries.unclaim ∨
        ∃ identifier entry, c₀.store.entries.unclaim = [(identifier, entry)] ∧
          Expired i (u ++ .start i task :: w₁) identifier entry c₁.store.entries) := by
  subst hw
  induction w₁ using List.reverseRecOn generalizing w₂ c₁ with
  | nil =>
    obtain ⟨c₂, c₃, hreach, hstep⟩ := h₁.split
    obtain rfl := reached_unique h₀ hreach
    obtain rfl := reached_unique h₁ (hreach.snoc hstep)
    cases hstep with
    | start => exact ⟨rfl, rfl, .inl rfl⟩
  | append_singleton w₁ m ih =>
    obtain ⟨⟨o, a⟩, rfl⟩ := hsolo m (by simp)
    rw [← List.cons_append, ← List.append_assoc] at h₁
    obtain ⟨c₂, c₃, hreach, hstep⟩ := h₁.split
    obtain rfl := reached_unique h₁ (hreach.snoc hstep)
    obtain ⟨k, -, ha⟩ := hstep.call_inv
    rw [List.append_assoc, List.singleton_append] at h hspares hsolo
    obtain ⟨hcontroller₀, hqueue₀, hentries₀⟩ := ih hreach h hspares hsolo
    have hall : u ++ .start i task :: (w₁ ++ .call i ⟨o, a⟩ :: w₂) =
        (u ++ .start i task :: w₁) ++ .call i ⟨o, a⟩ :: w₂ := by simp
    rw [hall] at h hspares
    obtain ⟨hcontroller, hqueue, hharmless⟩ :=
      step_harmless h hover hspares hi hreach ha
    rw [← List.cons_append, ← List.append_assoc]
    refine ⟨hcontroller.trans hcontroller₀, hqueue.trans hqueue₀, ?_⟩
    rcases hentries₀ with hkept | ⟨identifier, entry, hone, hexpired⟩
    · rcases unclaim_harmless hharmless with hsame | ⟨identifier, entry, hone, hexpired⟩
      · exact .inl (hsame.trans hkept)
      · refine .inr ⟨identifier, entry, ?_, hexpired.later _⟩
        rw [← hkept, hone, hexpired.unclaim]
    · exact .inr ⟨identifier, entry, hone, hexpired.unclaimed, (hexpired.later _).read,
        hharmless.nil hexpired.removed⟩

theorem unclaim_eq_self {entries : Entries} (h : ∀ item ∈ entries, item.2.claimed = false) :
    entries.unclaim = entries := by
  refine (List.map_congr_left fun item hitem => ?_).trans (List.map_id entries)
  rw [← h item hitem]
  rfl

/-- Claims are the claims of others, who have not moved. -/
theorem solo_claim (h : Reached fuel settings (u ++ .start i task :: w) c) (hover : Over c i)
    (hsolo : Solo i w) (j : ℕ) :
    (standings (u ++ .start i task :: w) j).claim = (standings u j).claim := by
  by_cases hj : j = i
  · subst hj
    obtain ⟨c₁, c₂, hreach, hstep⟩ := h.split
    have hidle := (reached_described (orderly_kept fuel settings) .initial hreach).unstarted j
      hstep.start_inv.1
    rw [(hover.rested h).claim, hidle]
    rfl
  · rw [hsolo.standings hj]

/-- Nothing has happened between the two states but that an entry may have expired. -/
structure Unchanged (i : ℕ) (t : List (Act App Task Signal)) (s s' : Site) : Prop where
  controller : s'.controller = s.controller
  queue : s'.queue = s.queue
  entries : s'.entries = s.entries ∨
    ∃ identifier entry, s.entries = [(identifier, entry)] ∧ Expired i t identifier entry s'.entries
  files : ∀ path ∈ s'.files, path ∈ s.files

theorem solo_registry (h : Reached fuel settings (u ++ .start i task :: w) c) (hover : Over c i)
    (hspares : ∀ event, .call i event ∈ u ++ .start i task :: w → spares event.op event.ans = true)
    (hsolo : Solo i w) (h₀ : Reached fuel settings u c₀) :
    c.store.entries = c₀.store.entries ∨ ∃ identifier entry,
      c₀.store.entries = [(identifier, entry)] ∧
        Expired i (u ++ .start i task :: w) identifier entry c.store.entries := by
  have hclaims := solo_claim h hover hsolo
  by_cases hclaimed : ∃ j claim, (standings u j).claim = some claim
  · -- the claimed entry is the only one, before and after
    obtain ⟨j, claim, hj⟩ := hclaimed
    have hafter := ((reached_orderly h).sections.claim j claim (by rw [hclaims j, hj])).2.1
    have hbefore := ((reached_orderly h₀).sections.claim j claim hj).2.1
    exact .inl (hafter.trans hbefore.symm)
  · have hnone₀ : ∀ item ∈ c₀.store.entries, item.2.claimed = false := by
      intro item hitem
      rw [← Bool.not_eq_true]
      exact fun hitemClaimed => hclaimed (reached_claimants h₀ item hitem hitemClaimed)
    have hnone : ∀ item ∈ c.store.entries, item.2.claimed = false := by
      intro item hitem
      rw [← Bool.not_eq_true]
      intro hitemClaimed
      obtain ⟨j, claim, hj⟩ := reached_claimants h item hitem hitemClaimed
      exact hclaimed ⟨j, claim, by rw [← hclaims j, hj]⟩
    have hentries := (solo_entries h hover hspares (ne_worker_of_start h
      (List.mem_append_right u List.mem_cons_self)) hsolo h₀ (List.append_nil w).symm h).2.2
    rwa [unclaim_eq_self hnone, unclaim_eq_self hnone₀] at hentries

/-- Every file is one that had an owner before. -/
theorem solo_files (h : Reached fuel settings (u ++ .start i task :: w) c) (hover : Over c i)
    (hspares : ∀ event, .call i event ∈ u ++ .start i task :: w → spares event.op event.ans = true)
    (hsolo : Solo i w) (h₀ : Reached fuel settings u c₀) {path : Path}
    (hpath : path ∈ c.store.files) : path ∈ c₀.store.files := by
  have hi := ne_worker_of_start h (List.mem_append_right u List.mem_cons_self)
  obtain ⟨owner, howner⟩ := (reached_orderly h).ownership.custody.covered path hpath
  refine (reached_orderly h₀).ownership.custody.lives owner path ?_
  cases owner with
  | upload j =>
    by_cases hj : j = i
    · have hupload : (standings (u ++ .start i task :: w) j).upload = some path := howner
      rw [hj, (hover.rested h).upload] at hupload
      cases hupload
    · rwa [Owns, hsolo.standings hj] at howner
  | removed j =>
    by_cases hj : j = i
    · have hremoved : path ∈ (standings (u ++ .start i task :: w) j).removed := howner
      rw [hj, (hover.rested h).removed] at hremoved
      cases hremoved
    · rwa [Owns, hsolo.standings hj] at howner
  | registry =>
    obtain ⟨hentry, hunsent⟩ := howner
    refine ⟨?_, fun j claim hj => hunsent j claim (by rw [solo_claim h hover hsolo, hj])⟩
    rcases solo_registry h hover hspares hsolo h₀ with hsame | ⟨identifier, entry, -, hexpired⟩
    · rwa [← hsame]
    · rw [hexpired.removed] at hentry
      cases hentry
  | queue =>
    have hqueue := (solo_entries h hover hspares hi hsolo h₀ (List.append_nil w).symm h).2.1
    rwa [Owns, hqueue] at howner
  | job => rwa [Owns, hsolo.standings (Ne.symm hi)] at howner

theorem solo_unchanged (h : Reached fuel settings (u ++ .start i task :: w) c) (hover : Over c i)
    (hspares : ∀ event, .call i event ∈ u ++ .start i task :: w → spares event.op event.ans = true)
    (hsolo : Solo i w) (h₀ : Reached fuel settings u c₀) :
    Unchanged i (u ++ .start i task :: w) c₀.store c.store := by
  have hi := ne_worker_of_start h (List.mem_append_right u List.mem_cons_self)
  have hfields := solo_entries h hover hspares hi hsolo h₀ (List.append_nil w).symm h
  exact ⟨hfields.1, hfields.2.1, solo_registry h hover hspares hsolo h₀,
    fun _ hpath => solo_files h hover hspares hsolo h₀ hpath⟩

/-! ## Every interleaving -/

/-- What a failed request of thread `i` leaves in `c`. -/
structure Refused (fuel : ℕ) (settings : Settings) (t : List (Act App Task Signal))
    (c : System App Exn Site) (i : ℕ) : Prop where
  /-- None of its steps changes the snapshot or the queue. -/
  steps : ∀ u o a v c₁ s', t = u ++ .call i ⟨o, a⟩ :: v → Reached fuel settings u c₁ →
    c₁.store.answers i o a s' → s'.controller = c₁.store.controller ∧
      s'.queue = c₁.store.queue ∧ Harmless i u v c₁.store.entries s'.entries
  uploads : ∀ u path v, t = u ++ .call i ⟨.mkstemp, (.ok path : Except Exn Path)⟩ :: v →
    .call i ⟨.unlink path, ()⟩ ∈ v
  /-- A claim that is left belongs to a flash that is in its submission. -/
  claims : ∀ item ∈ c.store.entries, item.2.claimed = true →
    ∃ j confirmUnpairedRecovery, j ≠ i ∧ ¬Over c j ∧ c.store.locks .submission = some j ∧
      .start j (.flash (.str item.1) (.bool true) confirmUnpairedRecovery) ∈ t ∧
      ClaimedAs t j item.1 item.2
  /-- With nothing next to it the request changes nothing. -/
  solo : ∀ u task w c₀, t = u ++ .start i task :: w → Solo i w → Reached fuel settings u c₀ →
    Unchanged i t c₀.store c.store
  /-- What is staged can be flashed until it expires. -/
  ready : ∀ j identifier entry confirmUnpairedRecovery (oracle : Site.Oracle), Calm c.store →
    (identifier, entry) ∈ c.store.entries → 16 ≤ identifier.length ∧ identifier.length ≤ 128 →
    ConsentFits entry.preflight confirmUnpairedRecovery →
    (oracle .monotonic : ℚ) < entry.expiresAt → c.threads j = none →
    ∃ w c' operationId, Reached fuel settings
        (t ++ .start j (.flash (.str identifier) (.bool true) confirmUnpairedRecovery) :: w) c' ∧
      c'.threads j = some (.ret ()) ∧
      c'.store.queue =
        [⟨operationId, identifier, entry.image, entry.preflight.manualRecovery⟩] ∧
      c'.store.controller.status = .queued ∧
      c'.store.controller.operationId = some operationId

/-- In every interleaving a `flash` or `validate_upload` that raises undoes what it
has done. -/
theorem failed_request (h : Reached fuel settings t c) (hstart : .start i task ∈ t)
    (htask : task.Mutates) (hraised : c.threads i = some (.raise e)) :
    Refused fuel settings t c i := by
  have hspares := spares_of_raised h hstart htask hraised
  have hover : Over c i := .inr ⟨e, hraised⟩
  constructor
  · rintro u o a v c₁ s' rfl h₁ ha
    exact step_harmless h hover hspares (ne_worker_of_start h hstart) h₁ ha
  · rintro u path v rfl
    exact upload_deleted h hover hspares
  · intro item hitem hclaimed
    obtain ⟨j, cur, hnot, hlock, hflash, hclaim⟩ := claimed_by h hitem hclaimed
    refine ⟨j, cur, ?_, hnot, hlock, hflash, hclaim⟩
    rintro rfl
    exact hnot hover
  · rintro u task w c₀ rfl hsolo h₀
    exact solo_unchanged h hover hspares hsolo h₀
  · intro j identifier entry cur oracle hcalm hentry hlength hconsent hfresh hj
    exact staged_flashed h hcalm hentry hlength hconsent hfresh hj

/-- The exception that has left a program. -/
def raisedBy : AppProgram Unit → Option Exn
  | .raise e => some e
  | _ => none

theorem raised_of_raisedBy {p : Option (AppProgram Unit)} (h : (p.bind raisedBy).isSome = true) :
    ∃ e, p = some (.raise e) := by
  cases p with
  | none => cases h
  | some p =>
    cases p with
    | raise e => exact ⟨e, rfl⟩
    | _ => cases h

/-- An upload, and a flash of it with a consent that the upload does not ask for. -/
def refusal : List Turn :=
  [.run worker 1, .start 1 (.validateUpload 26), .run 1 100,
    .start 2 (.flash (.str "0123456789abcdef") (.bool true) (.bool true)), .run 2 100]

theorem failed_request_refusal : ∃ t c, Reached 2 PlannedRun.qemuSettings t c ∧
    c.store.entries ≠ [] ∧ Calm c.store ∧ c.threads 3 = none ∧
    Refused 2 PlannedRun.qemuSettings t c 2 := by
  have hplay : (play 2 PlannedRun.qemuSettings (sampleScript.answer 0) refusal
      ([], boot 2 PlannedRun.qemuSettings)).any fun x =>
        ((x.2.threads 2).bind raisedBy).isSome && (x.2.threads 3).isNone &&
        decide (x.2.store.entries ≠ [] ∧ x.2.store.locks .submission = none ∧
          x.2.store.locks .registry = none ∧ x.2.store.locks .controller = none ∧
          x.2.store.stopping = false ∧ x.2.store.accepting = true ∧
          x.2.store.controller.status.busy = false) := by
    decide +kernel
  obtain ⟨⟨t, c⟩, hx, hend⟩ := (Option.any_eq_true _ _).mp hplay
  simp only [Bool.and_eq_true, decide_eq_true_eq, Option.isNone_iff_eq_none] at hend
  obtain ⟨⟨hraised, hfree⟩, hentries, hsub, hreg, hcon, hrunning, haccepting, hidle⟩ := hend
  obtain ⟨e, hraised⟩ := raised_of_raisedBy hraised
  have hreach := play_reached .nil hx
  exact ⟨t, c, hreach, hentries, ⟨hsub, hreg, hcon, hrunning, haccepting, hidle⟩, hfree,
    failed_request hreach (play_started hx (by simp [refusal]))
      (.flash (.str "0123456789abcdef") (.bool true) (.bool true)) hraised⟩

/-- An upload, and a flash of it that stops after its claim; next to it a flash
without the confirmation. -/
def contention : List Turn :=
  [.run worker 1, .start 1 (.validateUpload 26), .run 1 100,
    .start 2 (.flash (.str "0123456789abcdef") (.bool true) .null), .run 2 8,
    .start 3 (.flash (.str "0123456789abcdef") (.bool false) .null), .run 3 100]

/-- A request can fail while another one has its claim. -/
theorem claimed_next_to_refusal : ¬∀ (fuel : ℕ) (settings : Settings)
    (t : List (Act App Task Signal)) (c : System App Exn Site) (i : ℕ) (task : Task) (e : Exn),
    Reached fuel settings t c → .start i task ∈ t → task.Mutates → c.threads i = some (.raise e) →
      ∀ item ∈ c.store.entries, item.2.claimed = false := by
  intro hall
  have hplay : (play 2 PlannedRun.qemuSettings (sampleScript.answer 0) contention
      ([], boot 2 PlannedRun.qemuSettings)).any fun x =>
        ((x.2.threads 3).bind raisedBy).isSome && x.2.store.entries.any (·.2.claimed) := by
    decide +kernel
  obtain ⟨⟨t, c⟩, hx, hend⟩ := (Option.any_eq_true _ _).mp hplay
  obtain ⟨hraised, hclaimed⟩ := (Bool.and_eq_true _ _).mp hend
  obtain ⟨e, hraised⟩ := raised_of_raisedBy hraised
  obtain ⟨item, hitem, hclaimed⟩ := List.any_eq_true.mp hclaimed
  have hun := hall 2 PlannedRun.qemuSettings t c 3 _ e (play_reached .nil hx)
    (play_started hx (by simp [contention])) (.flash (.str "0123456789abcdef") (.bool false) .null)
    hraised item hitem
  rw [hclaimed] at hun
  cases hun

end Cul868Flasher
