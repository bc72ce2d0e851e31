import Cul868Flasher.Ingress.Provenance

/-!
# One operation at a time

The worker judges each operation that was submitted, once and in the order of the
submissions: it claims the operation or discards it.
-/

namespace Cul868Flasher
open Python Effects

variable {i j : ℕ} {s s' : Site} {ℓ : ℕ → Standing} {o : App.Op} {a : App.Ans o}
  {fuel : ℕ} {settings : Settings} {t u v : List (Act App Task Signal)} {c : System App Exn Site}

inductive Verdict where
  | claimed
  | discarded
  deriving DecidableEq

/-- The verdict of a change of the fields on the operation the worker has taken. -/
def Update.verdict : Update → Option Verdict
  | .queued _ => none
  | .discarded _ => some .discarded
  | .running => some .claimed
  | .progress _ _ => none
  | .succeeded _ => none
  | .failed _ => none

/-- What a call adds to the verdicts. -/
def Job.judged (job : Job) : App.Op → List (FlashOperation × Verdict)
  | .update u _ => u.verdict.toList.flatMap fun verdict => job.pending.map fun operation =>
      (operation, verdict)
  | _ => []

/-- What a step adds to the verdicts. -/
def judgedBy (ℓ : ℕ → Standing) : Act App Task Signal → List (FlashOperation × Verdict)
  | .call _ e => (ℓ worker).job.judged e.op
  | .start _ _ => []
  | .move _ => []

/-- The standings and the verdicts after a history. -/
def verdictsWith (t : List (Act App Task Signal)) :
    (ℕ → Standing) × List (FlashOperation × Verdict) :=
  t.foldl (fun x m => (discipline.moved Standing.born x.1 m, x.2 ++ judgedBy x.1 m)) (boarding, [])

def verdicts (t : List (Act App Task Signal)) : List (FlashOperation × Verdict) :=
  (verdictsWith t).2

@[simp] theorem verdicts_nil : verdicts [] = [] := rfl

theorem verdictsWith_standings (t : List (Act App Task Signal)) :
    (verdictsWith t).1 = standings t := by
  induction t using List.reverseRecOn with
  | nil => rfl
  | append_singleton t m ih =>
    rw [standings, Discipline.described_snoc, ← standings, ← ih]
    simp [verdictsWith]

theorem verdicts_snoc (t : List (Act App Task Signal)) (m : Act App Task Signal) :
    verdicts (t ++ [m]) = verdicts t ++ judgedBy (standings t) m := by
  rw [← verdictsWith_standings]
  simp [verdicts, verdictsWith]

/-! ## The ledger -/

/-- Every submission has been judged or waits, in order. -/
structure Settled (t : List (Act App Task Signal)) (s : Site) (ℓ : ℕ → Standing) : Prop where
  described : ℓ = standings t
  settled : submitted t = (verdicts t).map Prod.fst ++ ((ℓ worker).job.pending ++ s.queue)

namespace Settled

theorem unlink_pending (job : Job) (path : Path) : (job.unlink path).pending = job.pending := by
  cases job with
  | finished operation =>
    simp only [Job.unlink]
    split_ifs <;> rfl
  | _ => rfl

/-- A call that has nothing to do with the queue and passes no verdict. -/
theorem apart (h : Settled t s ℓ) (hqueue : s'.queue = s.queue) (hsubmitted : submittedBy o a = [])
    (hjudged : (ℓ worker).job.judged o = [])
    (hpending : ((ℓ i).after o a).job.pending = (ℓ i).job.pending) :
    Settled (t ++ [.call i ⟨o, a⟩]) s' (called ℓ i o a) where
  described := by rw [h.described, standings_call]
  settled := by
    have hframe : (called ℓ i o a worker).job.pending = (ℓ worker).job.pending :=
      called_frame (fun ℓ => ℓ.job.pending) hpending worker
    rw [submitted, shown_call, verdicts_snoc, ← h.described]
    simp [judgedBy, hjudged, hsubmitted, hframe, hqueue, ← h.settled]

theorem put_call (h : Settled t s ℓ) {operation : FlashOperation} {put : Bool} (hput : put = true) :
    Settled (t ++ [.call i ⟨.putNowait operation, put⟩]) (s.next i (.putNowait operation) put)
      (called ℓ i (.putNowait operation) put) where
  described := by rw [h.described, standings_call]
  settled := by
    have hframe : (called ℓ i (.putNowait operation) put worker).job = (ℓ worker).job :=
      called_frame Standing.job rfl worker
    rw [submitted, shown_call, verdicts_snoc, ← h.described, ← submitted, h.settled, hframe]
    simp [judgedBy, Job.judged, submittedBy, Site.next, hput]

/-- What the worker takes out of the queue waits with it. -/
theorem take_call (h : Settled t s ℓ) {o : App.Op} {a : App.Ans o} {item : Option FlashOperation}
    (hsubmitted : submittedBy o a = []) (hjudged : (ℓ worker).job.judged o = [])
    (hitem : item = s.queue.head?) (hjob : (called ℓ i o a worker).job = (ℓ worker).job.take item)
    (hnone : ∀ operation, (ℓ worker).job.pending = [operation] → s.queue = [])
    (hone : (ℓ worker).job = .none ∨ ∃ operation, (ℓ worker).job = .taken operation) :
    Settled (t ++ [.call i ⟨o, a⟩]) { s with queue := s.queue.tail } (called ℓ i o a) where
  described := by rw [h.described, standings_call]
  settled := by
    have hwaiting : ((ℓ worker).job.take item).pending ++ s.queue.tail =
        (ℓ worker).job.pending ++ s.queue := by
      rcases hone with hjob | ⟨operation, hjob⟩
      · rw [hitem, hjob]
        cases s.queue <;> rfl
      · rw [hitem, hnone operation (by rw [hjob]; rfl)]
        rfl
    rw [submitted, shown_call, verdicts_snoc, ← h.described, ← submitted, h.settled, hjob, hwaiting]
    simp [judgedBy, hjudged, hsubmitted]

/-- The worker judges what it has taken. -/
theorem judge_call (h : Settled t s ℓ) {u : Update} {now : ℤ} {verdict : Verdict}
    {operation : FlashOperation} (hverdict : u.verdict = some verdict)
    (hjob : (ℓ worker).job = .taken operation) (hpending : ((ℓ worker).job.update u).pending = []) :
    Settled (t ++ [.call worker ⟨.update u now, ()⟩]) (s.next worker (.update u now) ())
      (called ℓ worker (.update u now) ()) where
  described := by rw [h.described, standings_call]
  settled := by
    have hafter : (called ℓ worker (.update u now) () worker).job = (ℓ worker).job.update u := by
      rw [called_self]
      rfl
    rw [submitted, shown_call, verdicts_snoc, ← h.described, ← submitted, h.settled, hafter,
      hpending]
    simp [judgedBy, Job.judged, hverdict, hjob, Job.pending, submittedBy, Site.next]

theorem call (h : Settled t s ℓ) (horder : Orderly s ℓ) (ho : (ℓ i).Allows o)
    (ha : s.answers i o a s') : Settled (t ++ [.call i ⟨o, a⟩]) s' (called ℓ i o a) := by
  have hs := horder.sections
  have htrust := horder.trusts ho ha
  cases o with
  | putNowait operation =>
    obtain ⟨-, -, rfl⟩ := ha
    exact h.put_call htrust
  | get =>
    obtain ⟨hrole, hjob, -⟩ := ho
    obtain rfl := hs.role_of_worker hrole
    obtain ⟨⟨oracle, rfl⟩, -, rfl⟩ := ha
    refine h.take_call rfl rfl rfl (by rw [called_self]; rfl) ?_ (.inl hjob)
    intro operation hpending
    rw [hjob] at hpending
    cases hpending
  | getNowait =>
    obtain ⟨hrole, -, -, hjob⟩ := ho
    obtain rfl := hs.role_of_worker hrole
    obtain ⟨⟨oracle, rfl⟩, -, rfl⟩ := ha
    refine h.take_call rfl rfl rfl (by rw [called_self]; rfl) ?_ hjob
    intro operation hpending
    rcases hjob with hjob | ⟨operation', hjob⟩
    · rw [hjob] at hpending
      cases hpending
    · exact horder.admission.queue_of_taken hjob
  | update u now =>
    obtain ⟨-, -, rfl⟩ := ha
    obtain ⟨-, hu⟩ := ho
    cases u with
    | queued operationId => exact h.apart rfl rfl rfl (by cases hj : (ℓ i).job <;> simp [hj])
    | discarded message =>
      obtain ⟨operation, hjob⟩ := hu
      obtain rfl := hs.worker_of_job (i := i) (by simp [hjob])
      exact h.judge_call rfl hjob (by rw [hjob]; rfl)
    | running =>
      obtain ⟨-, operation, hjob⟩ := hu
      obtain rfl := hs.worker_of_job (i := i) (by simp [hjob])
      exact h.judge_call rfl hjob (by rw [hjob]; rfl)
    | progress percent message =>
      obtain ⟨operation, hjob⟩ := hu
      exact h.apart rfl rfl rfl (by simp [hjob])
    | succeeded message =>
      obtain ⟨operation, hjob⟩ := hu
      exact h.apart rfl rfl rfl (by simp [hjob, Job.pending])
    | failed message =>
      obtain ⟨operation, hjob⟩ := hu
      exact h.apart rfl rfl rfl (by simp [hjob, Job.pending])
  | unlink path =>
    obtain ⟨-, -, rfl⟩ := ha
    exact h.apart rfl rfl rfl (unlink_pending _ path)
  | _ =>
    obtain ⟨-, -, rfl⟩ := ha
    exact h.apart rfl rfl rfl rfl

theorem start (h : Settled t s ℓ) (hs : Sections s ℓ) (hidle : ℓ i = .idle) (task : Task) :
    Settled (t ++ [.start i task]) s (Function.update ℓ i (.born task)) where
  described := by rw [h.described, standings_start]
  settled := by
    rw [verdicts_snoc, Function.update_of_ne (Ne.symm (hs.ne_worker hidle))]
    simpa [judgedBy] using h.settled

theorem move (h : Settled t s ℓ) (n : Signal) :
    Settled (t ++ [.move n]) { s with stopping := true } ℓ where
  described := by rw [h.described, standings_move]
  settled := by
    rw [verdicts_snoc]
    simpa [judgedBy] using h.settled

theorem initial : Settled [] .initial boarding where
  described := rfl
  settled := by simp [Job.pending, working, Standing.rest, Site.initial]

end Settled

theorem settled_kept (fuel : ℕ) (settings : Settings) :
    Described.Kept discipline .idle Rested (fun t s ℓ => Orderly s ℓ ∧ Settled t s ℓ)
      (addon fuel settings) Standing.born :=
  (orderly_kept fuel settings).extend
    (fun _ _ _ _ _ _ _ hk h ho _ ha => h.call hk ho ha)
    (fun _ _ _ _ task hk h hidle _ => h.start hk.sections hidle task)
    (by
      rintro _ _ _ n _ - h hmove
      cases n with
      | requestStop =>
        obtain rfl := hmove
        exact h.move .requestStop)

theorem reached_settled (h : Reached fuel settings t c) : Settled t c.store (standings t) :=
  (reached_described (settled_kept fuel settings) ⟨.initial, .initial⟩ h).holds.2

/-! ## The worker and the queue -/

structure SingleFlight (t : List (Act App Task Signal)) (c : System App Exn Site) : Prop where
  /-- At most one operation waits or runs. -/
  single : (c.store.queue ++ (standings t worker).job.pending ++
    (standings t worker).job.current).length ≤ 1
  running : c.store.controller.status = .running ↔ (standings t worker).job.current ≠ []
  queued : c.store.locks .controller = none → ∀ operation ∈ c.store.queue,
    c.store.controller.status = .queued ∧
      c.store.controller.operationId = some operation.operationId
  /-- The queue is never full. -/
  room : ∀ i operation put, .call i ⟨.putNowait operation, put⟩ ∈ t → put = true
  /-- No exception leaves a call of the worker on the controller. -/
  silent : ∀ i e answer, .call i ⟨.escaped e, answer⟩ ∉ t
  /-- A submission is judged once, in its turn. -/
  settled : submitted t = (verdicts t).map Prod.fst ++
    ((standings t worker).job.pending ++ c.store.queue)
  /-- No operation is judged twice. -/
  once : ((verdicts t).map Prod.fst).Nodup
  finished : Over c worker → submitted t = (verdicts t).map Prod.fst
  /-- Verdicts are the worker's, on the operation it has taken; it claims none in a
  section that has found the stop event set. -/
  judged : ∀ u i update now answer v, t = u ++ .call i ⟨.update update now, answer⟩ :: v →
    update.verdict.isSome → i = worker ∧
      (∃ operation, (standings u worker).job = .taken operation) ∧
      (update = .running → (standings u worker).stopSeen = some (some false))

theorem queued_shown (horder : Orderly s ℓ) (hfree : s.locks .controller = none)
    {operation : FlashOperation} (hmem : operation ∈ s.queue) :
    s.controller.status = .queued ∧ s.controller.operationId = some operation.operationId := by
  have hnone := horder.admission.marked_of_free horder.sections hfree
  obtain ⟨hnil, -⟩ | ⟨waits, hone, hqueued, hid⟩ := horder.admission.shows hnone
  · rw [waiting] at hnil
    simp [(List.append_eq_nil_iff.mp hnil).1] at hmem
  · have hwaits : operation ∈ waiting s ℓ := List.mem_append_left _ hmem
    rw [hone] at hwaits
    rw [List.mem_singleton.mp hwaits]
    exact ⟨hqueued, hid⟩

/-- Nothing waits while an operation runs. -/
theorem waiting_of_running (horder : Orderly s ℓ) {operation : FlashOperation}
    (hjob : (ℓ worker).job = .running operation) : waiting s ℓ = [] := by
  have hstatus := (horder.admission.running operation hjob).1
  have hnone (j : ℕ) : (ℓ j).unmarked = none := by
    cases hj : (ℓ j).unmarked with
    | none => rfl
    | some waits =>
      have hbusy := (horder.admission.unmarked j waits hj).2.2.1
      simp [hstatus, OperationStatus.busy] at hbusy
  exact (horder.admission.shows hnone).nil (by simp [hstatus])

theorem judged_by_worker {update : Update} {now : ℤ} {answer : App.Ans (.update update now)}
    (h : Reached fuel settings (u ++ .call i ⟨.update update now, answer⟩ :: v) c)
    (hverdict : update.verdict.isSome) :
    i = worker ∧ (∃ operation, (standings u worker).job = .taken operation) ∧
      (update = .running → (standings u worker).stopSeen = some (some false)) := by
  obtain ⟨c₁, -, hreach, ⟨-, hmay⟩, -⟩ := reached_allows h
  have hs := (reached_orderly hreach).sections
  cases update with
  | discarded message =>
    obtain ⟨operation, hjob⟩ := hmay
    obtain rfl := hs.worker_of_job (i := i) (by simp [hjob])
    exact ⟨rfl, ⟨operation, hjob⟩, by simp⟩
  | running =>
    obtain ⟨hseen, operation, hjob⟩ := hmay
    obtain rfl := hs.worker_of_job (i := i) (by simp [hjob])
    exact ⟨rfl, ⟨operation, hjob⟩, fun _ => hseen⟩
  | queued operationId => cases hverdict
  | progress percent message => cases hverdict
  | succeeded message => cases hverdict
  | failed message => cases hverdict

/-- When the worker is at its end, nothing is left to judge. -/
theorem settled_of_over (h : Reached fuel settings t c) (hover : Over c worker) :
    submitted t = (verdicts t).map Prod.fst := by
  have horder := reached_orderly h
  have hrested := hover.rested h
  have hqueue : c.store.queue = [] := by
    rcases hrested.phase with hbooting | hcleared
    · exact (horder.sections.unserved (horder.sections.booting hbooting)).1
    · exact horder.admission.drained (by rw [hcleared]; rfl)
  have hsettled := (reached_settled h).settled
  rw [hrested.job, hqueue] at hsettled
  simpa [Job.pending] using hsettled

/-- In every interleaving operations are admitted, run and discarded one by one. -/
theorem single_flight (h : Reached fuel settings t c) : SingleFlight t c := by
  have horder := reached_orderly h
  constructor
  · cases hjob : (standings t worker).job with
    | running operation =>
      have hnil := waiting_of_running horder hjob
      simp only [waiting, hjob] at hnil
      rw [hnil]
      exact le_refl 1
    | _ => simpa [waiting, hjob, Job.current] using horder.admission.length_le
  · constructor
    · intro hstatus
      obtain ⟨operation, hjob⟩ := horder.admission.busy hstatus
      simp [hjob, Job.current]
    · intro hcurrent
      cases hjob : (standings t worker).job with
      | running operation => exact (horder.admission.running operation hjob).1
      | _ => simp [hjob, Job.current] at hcurrent
  · exact fun hfree operation hmem => queued_shown horder hfree hmem
  · intro i operation put hmem
    obtain ⟨u, v, rfl⟩ := List.append_of_mem hmem
    obtain ⟨c₁, s', hreach, hallow, hanswer⟩ := reached_allows h
    exact (reached_orderly hreach).trusts hallow hanswer
  · intro i e answer hmem
    obtain ⟨u, v, rfl⟩ := List.append_of_mem hmem
    obtain ⟨-, -, -, hallow, -⟩ := reached_allows h
    exact hallow
  · exact (reached_settled h).settled
  · have hdistinct := (reached_provenance h).once.of_map _
    rw [(reached_settled h).settled] at hdistinct
    exact hdistinct.of_append_left
  · exact settled_of_over h
  · rintro u i update now answer v rfl
    exact judged_by_worker h

theorem single_flight_submission : ∃ t c, Reached 2 PlannedRun.qemuSettings t c ∧
    c.store.queue ≠ [] ∧ SingleFlight t c := by
  obtain ⟨t, c, hreach, -, hqueue, -⟩ := submission_reached
  exact ⟨t, c, hreach, hqueue, single_flight hreach⟩

end Cul868Flasher
