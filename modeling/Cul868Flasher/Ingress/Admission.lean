import Cul868Flasher.Ingress.Sections

/-!
# What the standings say of the queue and the fields

An operation waits in the queue or with the worker, and at most one does. Between
the step that puts it in the queue and the update of the fields the submitting
thread holds the controller's lock; outside of it the fields show what waits.
-/

namespace Cul868Flasher
open Python Effects

variable {i j : ℕ} {s s' : Site} {ℓ ℓ' : ℕ → Standing} {o : App.Op} {a : App.Ans o}

/-- The fields are queued for the operation that waits, and only for it. -/
def Shows (c : Controller) (waiting : List FlashOperation) : Prop :=
  (waiting = [] ∧ c.status ≠ .queued) ∨
    ∃ operation, waiting = [operation] ∧ c.status = .queued ∧
      c.operationId = some operation.operationId

theorem Shows.nil {c : Controller} {waiting : List FlashOperation} (h : Shows c waiting)
    (hc : c.status ≠ .queued) : waiting = [] := by
  obtain ⟨hnil, -⟩ | ⟨operation, -, hqueued, -⟩ := h
  · exact hnil
  · exact absurd hqueued hc

theorem Shows.length_le {c : Controller} {waiting : List FlashOperation} (h : Shows c waiting) :
    waiting.length ≤ 1 := by
  obtain ⟨rfl, -⟩ | ⟨operation, rfl, -⟩ := h
  · exact Nat.zero_le 1
  · exact le_refl 1

/-- What waits, when the worker has taken it. -/
theorem Shows.taken {c : Controller} {queue : List FlashOperation} {operation : FlashOperation}
    (h : Shows c (queue ++ [operation])) :
    queue = [] ∧ c.status = .queued ∧ c.operationId = some operation.operationId := by
  obtain ⟨hnil, -⟩ | ⟨operation', heq, hqueued, hid⟩ := h
  · simp at hnil
  · obtain ⟨rfl, rfl⟩ : queue = [] ∧ operation = operation' := by
      cases queue with
      | nil => simpa using heq
      | cons first rest => simp at heq
    exact ⟨rfl, hqueued, hid⟩

/-- The operations in the queue and the one the worker has taken and not claimed. -/
def waiting (s : Site) (ℓ : ℕ → Standing) : List FlashOperation := s.queue ++ (ℓ worker).job.pending

structure Admission (s : Site) (ℓ : ℕ → Standing) : Prop where
  unmarked : ∀ i operation, (ℓ i).unmarked = some operation → i ≠ worker ∧
    .controller ∈ (ℓ i).held ∧ s.controller.status.busy = false ∧ waiting s ℓ = [operation]
  shows : (∀ i, (ℓ i).unmarked = none) → Shows s.controller (waiting s ℓ)
  running : ∀ operation, (ℓ worker).job = .running operation →
    s.controller.status = .running ∧ s.controller.operationId = some operation.operationId
  busy : s.controller.status = .running → ∃ operation, (ℓ worker).job = .running operation
  drained : (ℓ worker).phase.isDrained = true → s.queue = []

/-- The thread that is at a job is the worker. -/
theorem Sections.worker_of_job (h : Sections s ℓ) (hjob : (ℓ i).job ≠ .none) : i = worker := by
  by_contra hi
  exact hjob (h.request i hi).2

namespace Admission

theorem length_le (h : Admission s ℓ) : (waiting s ℓ).length ≤ 1 := by
  by_cases hnone : ∀ i, (ℓ i).unmarked = none
  · exact (h.shows hnone).length_le
  · push Not at hnone
    obtain ⟨i, hi⟩ := hnone
    obtain ⟨operation, hi⟩ := Option.ne_none_iff_exists'.mp hi
    rw [(h.unmarked i operation hi).2.2.2]
    exact le_refl 1

/-- Under the controller's lock nobody else is between the queue and the fields. -/
theorem marked (h : Admission s ℓ) (hs : Sections s ℓ) (hi : .controller ∈ (ℓ i).held)
    (hnone : (ℓ i).unmarked = none) (j : ℕ) : (ℓ j).unmarked = none := by
  cases hj : (ℓ j).unmarked with
  | none => rfl
  | some operation =>
    obtain rfl := hs.exclusive hi (h.unmarked j operation hj).2.1
    rw [hnone] at hj
    cases hj

theorem marked_of_free (h : Admission s ℓ) (hs : Sections s ℓ) (hfree : s.locks .controller = none)
    (j : ℕ) : (ℓ j).unmarked = none := by
  cases hj : (ℓ j).unmarked with
  | none => rfl
  | some operation =>
    have hheld := (hs.held j .controller).mp (h.unmarked j operation hj).2.1
    rw [hfree] at hheld
    cases hheld

/-- The worker submits nothing. -/
theorem worker_marked (h : Admission s ℓ) : (ℓ worker).unmarked = none := by
  cases hw : (ℓ worker).unmarked with
  | none => rfl
  | some operation => exact absurd rfl (h.unmarked worker operation hw).1

/-- A step that changes no fields and moves at most a waiting operation from the
queue to the worker. -/
theorem frame (h : Admission s ℓ) (hcontroller : s'.controller = s.controller)
    (hwaiting : waiting s' ℓ' = waiting s ℓ)
    (hrunning : ∀ operation, (ℓ' worker).job = .running operation ↔
      (ℓ worker).job = .running operation)
    (hunmarked : ∀ j, (ℓ' j).unmarked = (ℓ j).unmarked)
    (hheld : ∀ j operation, (ℓ j).unmarked = some operation → .controller ∈ (ℓ j).held →
      .controller ∈ (ℓ' j).held)
    (hdrained : (ℓ' worker).phase.isDrained = true → s'.queue = []) : Admission s' ℓ' where
  unmarked j operation hj := by
    rw [hunmarked] at hj
    obtain ⟨hne, hmem, hbusy, hone⟩ := h.unmarked j operation hj
    exact ⟨hne, hheld j operation hj hmem, by rwa [hcontroller], by rw [hwaiting, hone]⟩
  shows hnone := by
    rw [hcontroller, hwaiting]
    exact h.shows fun j => (hunmarked j).symm.trans (hnone j)
  running operation hjob := by
    rw [hcontroller]
    exact h.running operation ((hrunning operation).mp hjob)
  busy hstatus := by
    rw [hcontroller] at hstatus
    obtain ⟨operation, hjob⟩ := h.busy hstatus
    exact ⟨operation, (hrunning operation).mpr hjob⟩
  drained := hdrained

/-! ## What can be trusted -/

theorem fieldsTrusted (h : Admission s ℓ) (hs : Sections s ℓ) (hi : .controller ∈ (ℓ i).held) :
    (ℓ i).FieldsTrusted s.controller where
  taken operation hjob := by
    obtain rfl := hs.worker_of_job (i := i) (by simp [hjob])
    have hshows := h.shows (h.marked hs hi h.worker_marked)
    simp only [waiting, hjob, Job.pending] at hshows
    exact hshows.taken.2
  running operation hjob := by
    obtain rfl := hs.worker_of_job (i := i) (by simp [hjob])
    exact h.running operation hjob

/-- There is room in the queue for whoever may put an operation there. -/
theorem putTrusted (h : Admission s ℓ) (hs : Sections s ℓ) {operation : FlashOperation}
    (ho : (ℓ i).MayPut operation) : s.controller.status.busy = false ∧ waiting s ℓ = [] := by
  obtain ⟨fields, hfields, hbusy⟩ := ho.notBusy
  obtain ⟨-, rfl⟩ := hs.fields i fields hfields
  refine ⟨hbusy, (h.shows (h.marked hs ho.locked ho.marked)).nil ?_⟩
  intro hqueued
  simp [hqueued, OperationStatus.busy] at hbusy

/-- The worker that has taken an operation finds the queue empty. -/
theorem queue_of_taken (h : Admission s ℓ) {operation : FlashOperation}
    (hjob : (ℓ worker).job = .taken operation) : s.queue = [] := by
  have hle := h.length_le
  simp only [waiting, hjob, Job.pending, List.length_append, List.length_singleton] at hle
  exact List.length_eq_zero_iff.mp (by omega)

/-! ## Steps -/

theorem drained_closed {phase : Phase} (h : phase.isDrained = true) : phase.isClosed = true := by
  cases phase <;> simp [Phase.isDrained, Phase.isClosed] at h ⊢

/-- A call that has nothing to do with the queue or the fields. -/
theorem apart (h : Admission s ℓ) (hqueue : s'.queue = s.queue)
    (hcontroller : s'.controller = s.controller)
    (hpending : ((ℓ i).after o a).job.pending = (ℓ i).job.pending)
    (hrunning : ∀ operation, ((ℓ i).after o a).job = .running operation ↔
      (ℓ i).job = .running operation)
    (hunmarked : ((ℓ i).after o a).unmarked = (ℓ i).unmarked)
    (hheld : ∀ operation, (ℓ i).unmarked = some operation → .controller ∈ (ℓ i).held →
      .controller ∈ ((ℓ i).after o a).held)
    (hdrained : ((ℓ i).after o a).phase.isDrained = true → (ℓ i).phase.isDrained = true) :
    Admission s' (called ℓ i o a) := by
  refine h.frame hcontroller ?_ ?_ (called_frame Standing.unmarked hunmarked) ?_ ?_
  · have hjob : (called ℓ i o a worker).job.pending = (ℓ worker).job.pending :=
      called_frame (fun ℓ => ℓ.job.pending) hpending worker
    rw [waiting, waiting, hqueue, hjob]
  · intro operation
    by_cases hi : worker = i
    · rw [hi, called_self]
      exact hrunning operation
    · rw [called_ne hi]
  · intro j operation
    by_cases hj : j = i
    · subst hj
      rw [called_self]
      exact hheld operation
    · rw [called_ne hj]
      exact fun _ hmem => hmem
  · intro hphase
    rw [hqueue]
    by_cases hi : worker = i
    · subst hi
      rw [called_self] at hphase
      exact h.drained (hdrained hphase)
    · rw [called_ne hi] at hphase
      exact h.drained hphase

/-- Nobody is between the queue and the fields. -/
theorem of_marked (hnone : ∀ j, (ℓ j).unmarked = none) (hshows : Shows s.controller (waiting s ℓ))
    (hrunning : ∀ operation, (ℓ worker).job = .running operation →
      s.controller.status = .running ∧ s.controller.operationId = some operation.operationId)
    (hbusy : s.controller.status = .running → ∃ operation, (ℓ worker).job = .running operation)
    (hdrained : (ℓ worker).phase.isDrained = true → s.queue = []) : Admission s ℓ where
  unmarked j operation hj := by
    rw [hnone j] at hj
    cases hj
  shows _ := hshows
  running := hrunning
  busy := hbusy
  drained := hdrained

theorem put_call (h : Admission s ℓ) (hs : Sections s ℓ) {operation : FlashOperation} {put : Bool}
    (ho : (ℓ i).MayPut operation) (ha : s.answers i (.putNowait operation) put s') :
    put = true ∧ Admission s' (called ℓ i (.putNowait operation) put) := by
  obtain ⟨hbusy, hempty⟩ := h.putTrusted hs ho
  obtain ⟨hqueue, hpending⟩ := List.append_eq_nil_iff.mp hempty
  obtain ⟨⟨oracle, hput⟩, -, rfl⟩ := ha
  obtain rfl : put = true := by
    rw [hput]
    simp [Site.answer, hqueue]
  have hworker : i ≠ worker := by
    rintro rfl
    obtain ⟨_, hrole, -⟩ := ho.consents
    have := (hs.role worker).mpr rfl
    rw [hrole] at this
    cases this
  have hframe : called ℓ i (.putNowait operation) true worker = ℓ worker :=
    called_ne (Ne.symm hworker)
  refine ⟨rfl, ?_⟩
  constructor
  · refine forall_called
      (P := fun j ℓ' => ∀ operation', ℓ'.unmarked = some operation' → j ≠ worker ∧
      .controller ∈ ℓ'.held ∧ _ ∧ _ = [operation']) ?_ ?_
    · rintro _ ⟨⟩
      refine ⟨hworker, ho.locked, hbusy, ?_⟩
      rw [waiting, hframe, hpending]
      simp [Site.next, hqueue]
    · intro j _ operation' hj
      rw [h.marked hs ho.locked ho.marked j] at hj
      cases hj
  · intro hnone
    have := hnone i
    rw [called_self] at this
    cases this
  · rw [hframe]
    exact h.running
  · rw [hframe]
    exact h.busy
  · rw [hframe]
    intro hphase
    have hclosed := hs.closed (drained_closed hphase)
    rw [(hs.admitted i ho.admitted).2] at hclosed
    cases hclosed

theorem queued_call (h : Admission s ℓ) (hs : Sections s ℓ) {operationId : String} {now : ℤ}
    (hlock : .controller ∈ (ℓ i).held) (hu : (ℓ i).MayUpdate (.queued operationId)) :
    Admission (s.next i (.update (.queued operationId) now) ())
      (called ℓ i (.update (.queued operationId) now) ()) := by
  obtain ⟨operation, hunmarked, rfl⟩ := hu
  obtain ⟨hworker, -, hbusy, hone⟩ := h.unmarked i operation hunmarked
  have hframe : called ℓ i (.update (.queued operation.operationId) now) () worker = ℓ worker :=
    called_ne (Ne.symm hworker)
  refine of_marked ?_ ?_ ?_ ?_ ?_
  · refine forall_called (P := fun _ ℓ' => ℓ'.unmarked = none) rfl fun j hj => ?_
    cases hunmarked' : (ℓ j).unmarked with
    | none => rfl
    | some operation' =>
      exact absurd (hs.exclusive (h.unmarked j operation' hunmarked').2.1 hlock) hj
  · refine .inr ⟨operation, ?_, by simp [Site.next, Update.status],
      by simp [Site.next, Update.operationId]⟩
    rw [waiting, hframe]
    exact hone
  · rw [hframe]
    intro operation' hjob
    rw [(h.running operation' hjob).1] at hbusy
    simp [OperationStatus.busy] at hbusy
  · intro hstatus
    simp [Site.next, Update.status] at hstatus
  · rw [hframe]
    exact h.drained

/-- What a call of the worker leaves, which holds the controller's lock. -/
theorem worker_update (h : Admission s ℓ) (hs : Sections s ℓ) {u : Update} {now : ℤ}
    (hlock : .controller ∈ (ℓ worker).held)
    (hshows : Shows (s.controller.update now u)
      (s.queue ++ ((ℓ worker).job.update u).pending))
    (hrunning : ∀ operation, (ℓ worker).job.update u = .running operation →
      u.status s.controller.status = .running ∧
        u.operationId s.controller.operationId = some operation.operationId)
    (hbusy : u.status s.controller.status = .running →
      ∃ operation, (ℓ worker).job.update u = .running operation) :
    Admission (s.next worker (.update u now) ()) (called ℓ worker (.update u now) ()) := by
  have hmarked := h.marked hs hlock h.worker_marked
  refine of_marked ?_ ?_ ?_ ?_ ?_
  · refine forall_called (P := fun _ ℓ' => ℓ'.unmarked = none) ?_ fun j _ => hmarked j
    cases u with
    | queued operationId => rfl
    | _ => exact hmarked worker
  · rw [waiting, called_self]
    exact hshows
  · rw [called_self]
    simpa [Site.next] using hrunning
  · rw [called_self]
    simpa [Site.next] using hbusy
  · rw [called_self]
    exact h.drained

/-- Nothing waits while the worker runs an operation. -/
theorem queue_of_running (h : Admission s ℓ) (hs : Sections s ℓ)
    (hlock : .controller ∈ (ℓ worker).held) {operation : FlashOperation}
    (hjob : (ℓ worker).job = .running operation) : s.queue = [] := by
  have hempty := (h.shows (h.marked hs hlock h.worker_marked)).nil
    (by simp [(h.running operation hjob).1])
  exact (List.append_eq_nil_iff.mp hempty).1

theorem update_call (h : Admission s ℓ) (hs : Sections s ℓ) {u : Update} {now : ℤ}
    (hlock : .controller ∈ (ℓ i).held) (hu : (ℓ i).MayUpdate u) :
    Admission (s.next i (.update u now) ()) (called ℓ i (.update u now) ()) := by
  cases u with
  | queued operationId => exact h.queued_call hs hlock hu
  | discarded message =>
    obtain ⟨operation, hjob⟩ := hu
    obtain rfl := hs.worker_of_job (i := i) (by simp [hjob])
    refine h.worker_update hs hlock (.inl ⟨?_, by simp [Update.status]⟩) ?_ ?_
    · simp [h.queue_of_taken hjob, hjob, Job.pending]
    · simp [hjob]
    · simp [Update.status]
  | running =>
    obtain ⟨-, operation, hjob⟩ := hu
    obtain rfl := hs.worker_of_job (i := i) (by simp [hjob])
    refine h.worker_update hs hlock (.inl ⟨?_, by simp [Update.status]⟩) ?_ ?_
    · simp [h.queue_of_taken hjob, hjob, Job.pending]
    · have htaken := (h.fieldsTrusted hs hlock).taken operation hjob
      intro operation' hjob'
      obtain rfl : operation = operation' := by simpa [hjob] using hjob'
      exact ⟨rfl, htaken.2⟩
    · simp [hjob]
  | progress percent message =>
    obtain ⟨operation, hjob⟩ := hu
    obtain rfl := hs.worker_of_job (i := i) (by simp [hjob])
    obtain ⟨hstatus, hid⟩ := h.running operation hjob
    refine h.worker_update hs hlock (.inl ⟨?_, by simp [Update.status, hstatus]⟩) ?_ ?_
    · simp [h.queue_of_running hs hlock hjob, hjob, Job.pending]
    · simp [hjob, Update.status, Update.operationId, hstatus, hid]
    · simp [hjob]
  | succeeded message =>
    obtain ⟨operation, hjob⟩ := hu
    obtain rfl := hs.worker_of_job (i := i) (by simp [hjob])
    refine h.worker_update hs hlock (.inl ⟨?_, by simp [Update.status]⟩) ?_ ?_
    · simp [h.queue_of_running hs hlock hjob, hjob, Job.pending]
    · simp [hjob]
    · simp [Update.status]
  | failed message =>
    obtain ⟨operation, hjob⟩ := hu
    obtain rfl := hs.worker_of_job (i := i) (by simp [hjob])
    refine h.worker_update hs hlock (.inl ⟨?_, by simp [Update.status]⟩) ?_ ?_
    · simp [h.queue_of_running hs hlock hjob, hjob, Job.pending]
    · simp [hjob]
    · simp [Update.status]

/-- The worker takes an operation out of the queue, and it still waits. -/
theorem take_call (h : Admission s ℓ) {job : Job} {ℓ' : ℕ → Standing}
    (hjob : (ℓ worker).job = .none ∨ ∃ operation, (ℓ worker).job = .taken operation)
    (htaken : job = (ℓ worker).job.take s.queue.head?) (hℓ : (ℓ' worker).job = job)
    (hframe : ∀ j, (ℓ' j).unmarked = (ℓ j).unmarked ∧ (ℓ' j).held = (ℓ j).held)
    (hdrained : (ℓ' worker).phase.isDrained = true → s.queue = []) :
    Admission { s with queue := s.queue.tail } ℓ' := by
  have hle := h.length_le
  refine h.frame rfl ?_ ?_ (fun j => (hframe j).1) (fun j _ _ hmem => by rwa [(hframe j).2]) ?_
  · simp only [waiting, hℓ, htaken] at hle ⊢
    cases hqueue : s.queue with
    | nil => rfl
    | cons first rest =>
      rw [hqueue, List.length_append, List.length_cons] at hle
      obtain rfl : rest = [] := List.length_eq_zero_iff.mp (by omega)
      have hpending : (ℓ worker).job.pending = [] := List.length_eq_zero_iff.mp (by omega)
      rw [hpending]
      rfl
  · intro operation
    rw [hℓ, htaken]
    cases s.queue.head? with
    | none => exact Iff.rfl
    | some first =>
      rcases hjob with hjob | ⟨operation', hjob⟩
      · simp [hjob]
      · simp [hjob]
  · intro hphase
    simp [hdrained hphase]

theorem get_call (h : Admission s ℓ) (hs : Sections s ℓ) {item : Option FlashOperation}
    (ho : (ℓ i).Allows .get) (ha : s.answers i .get item s') :
    Admission s' (called ℓ i .get item) := by
  obtain ⟨hrole, hjob, hphase⟩ := ho
  obtain rfl := hs.role_of_worker hrole
  obtain ⟨⟨oracle, rfl⟩, -, rfl⟩ := ha
  refine h.take_call (.inl hjob) rfl (by rw [called_self]; rfl)
    (fun j => ⟨called_frame Standing.unmarked rfl j, called_frame Standing.held rfl j⟩) ?_
  intro hdrained
  rw [called_self] at hdrained
  change (ℓ worker).phase.isDrained = true at hdrained
  simp [hphase, Phase.isDrained] at hdrained

theorem getNowait_call (h : Admission s ℓ) (hs : Sections s ℓ) {item : Option FlashOperation}
    (ho : (ℓ i).Allows .getNowait) (ha : s.answers i .getNowait item s') :
    Admission s' (called ℓ i .getNowait item) := by
  obtain ⟨hrole, -, hphase, hjob⟩ := ho
  obtain rfl := hs.role_of_worker hrole
  obtain ⟨⟨oracle, rfl⟩, -, rfl⟩ := ha
  refine h.take_call hjob rfl (by rw [called_self]; rfl)
    (fun j => ⟨called_frame Standing.unmarked rfl j, called_frame Standing.held rfl j⟩) ?_
  intro hdrained
  rw [called_self] at hdrained
  change ((ℓ worker).phase.drain s.queue.head?).isDrained = true at hdrained
  cases hqueue : s.queue with
  | nil => rfl
  | cons first rest => simp [hphase, hqueue, Phase.isDrained] at hdrained

theorem call (h : Admission s ℓ) (hs : Sections s ℓ) (ho : (ℓ i).Allows o)
    (ha : s.answers i o a s') : Admission s' (called ℓ i o a) := by
  cases o with
  | putNowait operation => exact (h.put_call hs ho ha).2
  | get => exact h.get_call hs ho ha
  | getNowait => exact h.getNowait_call hs ho ha
  | update u now =>
    obtain ⟨-, -, rfl⟩ := ha
    exact h.update_call hs ho.1 ho.2
  | release lock =>
    obtain ⟨-, -, rfl⟩ := ha
    refine h.apart rfl rfl rfl (fun _ => Iff.rfl) rfl ?_ fun h => h
    intro operation hunmarked hmem
    have hne : .controller ≠ lock := by
      rintro rfl
      rw [ho.2] at hunmarked
      cases hunmarked
    exact (List.mem_erase_of_ne hne).mpr hmem
  | acquire lock =>
    obtain ⟨-, -, rfl⟩ := ha
    exact h.apart rfl rfl rfl (fun _ => Iff.rfl) rfl (fun _ _ hmem => .tail _ hmem) fun h => h
  | closeAdmission =>
    obtain ⟨-, -, rfl⟩ := ha
    refine h.apart rfl rfl rfl (fun _ => Iff.rfl) rfl (fun _ _ hmem => hmem) ?_
    change ((ℓ i).phase.close).isDrained = true → _
    cases (ℓ i).phase <;> simp [Phase.isDrained]
  | clear =>
    obtain ⟨-, -, rfl⟩ := ha
    refine h.apart rfl rfl rfl (fun _ => Iff.rfl) rfl (fun _ _ hmem => hmem) ?_
    change ((ℓ i).phase.clear).isDrained = true → _
    cases (ℓ i).phase <;> simp [Phase.isDrained]
  | startServer =>
    obtain ⟨-, -, rfl⟩ := ha
    refine h.apart rfl rfl rfl (fun _ => Iff.rfl) rfl (fun _ _ hmem => hmem) ?_
    change ((ℓ i).phase.start a).isDrained = true → _
    cases (a : Except Exn Unit) <;> simp [Phase.isDrained]
  | unlink path =>
    obtain ⟨-, -, rfl⟩ := ha
    have hjob : ((ℓ i).job.unlink path).pending = (ℓ i).job.pending ∧
        ∀ operation, (ℓ i).job.unlink path = .running operation ↔
          (ℓ i).job = .running operation := by
      cases (ℓ i).job with
      | finished operation =>
        simp only [Job.unlink]
        split_ifs <;> simp [Job.pending]
      | _ => exact ⟨rfl, fun _ => Iff.rfl⟩
    exact h.apart rfl rfl hjob.1 hjob.2 rfl (fun _ _ hmem => hmem) fun h => h
  | _ =>
    obtain ⟨-, -, rfl⟩ := ha
    exact h.apart rfl rfl rfl (fun _ => Iff.rfl) rfl (fun _ _ hmem => hmem) fun h => h

theorem start (h : Admission s ℓ) (hs : Sections s ℓ) (hidle : ℓ i = .idle) (task : Task) :
    Admission s (Function.update ℓ i (.born task)) := by
  have hworker : Function.update ℓ i (.born task) worker = ℓ worker :=
    Function.update_of_ne (Ne.symm (hs.ne_worker hidle)) _ _
  refine h.frame rfl (by rw [waiting, waiting, hworker]) (fun _ => by rw [hworker])
    (Sections.started_frame Standing.unmarked hidle rfl) ?_ (by rw [hworker]; exact h.drained)
  intro j _ _ hmem
  rwa [Sections.started_frame Standing.held hidle rfl]

theorem stop (h : Admission s ℓ) : Admission { s with stopping := true } ℓ :=
  h.frame rfl rfl (fun _ => Iff.rfl) (fun _ => rfl) (fun _ _ _ hmem => hmem) h.drained

theorem initial : Admission .initial boarding := by
  refine of_marked (boarding_frame Standing.unmarked rfl rfl) (.inl ⟨?_, by decide⟩) ?_ ?_
    fun _ => rfl
  · rw [waiting, boarding_worker]
    rfl
  · intro operation hjob
    rw [boarding_worker] at hjob
    cases hjob
  · intro hstatus
    cases hstatus

end Admission
end Cul868Flasher
