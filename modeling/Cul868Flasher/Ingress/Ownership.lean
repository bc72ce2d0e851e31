import Cul868Flasher.Effects.Custody
import Cul868Flasher.Ingress.Admission

/-!
# Who owns an upload file

The request that has created it, the registry, the queue, the worker, or a thread
that has removed its entry in order to delete it. The entry of a submitted
operation stays in the registry until the submission is over, but its file is
the operation's.
-/

namespace Cul868Flasher
open Python Effects

variable {i j : ℕ} {s s' : Site} {ℓ ℓ' : ℕ → Standing} {o : App.Op} {a : App.Ans o}

inductive Owner where
  | upload (i : ℕ)
  | removed (i : ℕ)
  | registry
  | queue
  | job
  deriving DecidableEq

/-- No operation of a claimed entry is in the queue yet. -/
def Unsent (ℓ : ℕ → Standing) : Prop := ∀ i c, (ℓ i).claim = some c → c.sent = false

def Owns (s : Site) (ℓ : ℕ → Standing) : Owner → Path → Prop
  | .upload i, path => (ℓ i).upload = some path
  | .removed i, path => path ∈ (ℓ i).removed
  | .registry, path => path ∈ s.entries.paths ∧ Unsent ℓ
  | .queue, path => ∃ operation ∈ s.queue, operation.image.path = path
  | .job, path => ∃ operation, (ℓ worker).job.operation = some operation ∧
      operation.image.path = path

structure Ownership (s : Site) (ℓ : ℕ → Standing) : Prop where
  custody : Custody (· ∈ s.files) (Owns s ℓ)
  cleared : (ℓ worker).phase = .cleared → s.entries = []

namespace Ownership

/-! ## Claims -/

/-- A thread that was admitted is alone with its claim. -/
theorem unclaimed (hs : Sections s ℓ) (hadm : (ℓ i).admitted = true) (hnone : (ℓ i).claim = none)
    (j : ℕ) : (ℓ j).claim = none := by
  cases hj : (ℓ j).claim with
  | none => rfl
  | some c =>
    obtain rfl := hs.admitted_exclusive hadm (hs.claim j c hj).1
    rw [hnone] at hj
    cases hj

/-- Nothing is claimed once admission is closed. -/
theorem unclaimed_of_closed (hs : Sections s ℓ) (hclosed : (ℓ worker).phase.isClosed = true)
    (j : ℕ) : (ℓ j).claim = none := by
  cases hj : (ℓ j).claim with
  | none => rfl
  | some c =>
    have hopen := (hs.admitted j (hs.claim j c hj).1).2
    rw [hs.closed hclosed] at hopen
    cases hopen

/-- An entry that is unclaimed is claimed by nobody. -/
theorem unclaimed_of_entry (hs : Sections s ℓ) {item : String × StagedArtifact}
    (hentries : s.entries = [item]) (hun : item.2.claimed = false) (j : ℕ) :
    (ℓ j).claim = none := by
  cases hj : (ℓ j).claim with
  | none => rfl
  | some c =>
    obtain ⟨-, hone, hclaimed⟩ := hs.claim j c hj
    rw [hentries] at hone
    obtain rfl : item = (c.identifier, c.entry) := by simpa using hone
    rw [hclaimed] at hun
    cases hun

theorem unclaimed_of_clear (hs : Sections s ℓ) (ho : (ℓ i).MayClear) (j : ℕ) :
    (ℓ j).claim = none := by
  obtain ⟨-, ⟨hadm, hnone, -⟩ | ⟨hrole, hphase⟩⟩ := ho
  · exact unclaimed hs hadm hnone j
  · obtain rfl := hs.role_of_worker hrole
    exact unclaimed_of_closed hs (by rw [hphase]; rfl) j

theorem unsent_of_unclaimed (h : ∀ j, (ℓ j).claim = none) : Unsent ℓ := by
  intro j c hc
  rw [h j] at hc
  cases hc

/-- The claim of an admitted thread is the only one. -/
theorem unsent_iff (hs : Sections s ℓ) {c : Claim} (hc : (ℓ i).claim = some c) :
    Unsent ℓ ↔ c.sent = false := by
  refine ⟨fun h => h i c hc, fun h j c' hj => ?_⟩
  obtain rfl := hs.admitted_exclusive (hs.claim i c hc).1 (hs.claim j c' hj).1
  rw [hc] at hj
  cases hj
  exact h

/-- A claim is made or undone while none is sent. -/
theorem unsent_of_setClaimed (hs : Sections s ℓ) {identifier : String} {claimed : Bool}
    (ho : (ℓ i).Allows (.setClaimed identifier claimed)) : Unsent ℓ := by
  cases claimed with
  | true =>
    obtain ⟨-, hadm, hnone, -⟩ := ho
    exact unsent_of_unclaimed (unclaimed hs hadm hnone)
  | false =>
    obtain ⟨-, c, hc, -, hunsent⟩ := ho
    exact (unsent_iff hs hc).mpr hunsent

/-! ## Steps -/

theorem owns_congr (hupload : ∀ j, (ℓ' j).upload = (ℓ j).upload)
    (hremoved : ∀ j, (ℓ' j).removed = (ℓ j).removed)
    (hregistry : ∀ path, Owns s' ℓ' .registry path ↔ Owns s ℓ .registry path)
    (hqueue : s'.queue = s.queue)
    (hjob : (ℓ' worker).job.operation = (ℓ worker).job.operation) (w : Owner) (path : Path) :
    Owns s' ℓ' w path ↔ Owns s ℓ w path := by
  cases w with
  | upload j => simp only [Owns, hupload]
  | removed j => simp only [Owns, hremoved]
  | registry => exact hregistry path
  | queue => simp only [Owns, hqueue]
  | job => simp only [Owns, hjob]

theorem unsent_call (hclaim : ((ℓ i).after o a).claim = (ℓ i).claim) :
    Unsent (called ℓ i o a) ↔ Unsent ℓ :=
  forall_congr' fun j => by rw [called_frame Standing.claim hclaim]

/-- The registry has been cleared for good. -/
theorem cleared_call (h : Ownership s ℓ) {entries : Entries}
    (hentries : s.entries = [] → entries = [])
    (hphase : ((ℓ i).after o a).phase = .cleared → (ℓ i).phase = .cleared)
    (hcleared : (called ℓ i o a worker).phase = .cleared) : entries = [] := by
  revert hcleared
  refine forall_called (P := fun j ℓ => j = worker → ℓ.phase = .cleared → _ = []) ?_ ?_ worker rfl
  · rintro rfl hcleared
    exact hentries (h.cleared (hphase hcleared))
  · rintro j - rfl hcleared
    exact hentries (h.cleared hcleared)

/-- A call that moves no file. -/
theorem apart (h : Ownership s ℓ) (hfiles : s'.files = s.files) (hqueue : s'.queue = s.queue)
    (hentries : s'.entries = s.entries) (hupload : ((ℓ i).after o a).upload = (ℓ i).upload)
    (hremoved : ((ℓ i).after o a).removed = (ℓ i).removed)
    (hclaim : ((ℓ i).after o a).claim = (ℓ i).claim)
    (hjob : ((ℓ i).after o a).job.operation = (ℓ i).job.operation)
    (hphase : ((ℓ i).after o a).phase = .cleared → (ℓ i).phase = .cleared) :
    Ownership s' (called ℓ i o a) where
  custody := by
    refine h.custody.congr (fun path => by rw [hfiles]) (owns_congr
      (called_frame Standing.upload hupload) (called_frame Standing.removed hremoved)
      (fun path => ?_) hqueue (called_frame (fun ℓ => ℓ.job.operation) hjob worker))
    simp only [Owns, hentries, unsent_call hclaim]
  cleared := h.cleared_call (fun hnil => hentries.trans hnil) hphase

/-- The owners that a call of thread `i` can concern. -/
theorem owner_cases {P : Owner → Prop} (i : ℕ) (hupload : P (.upload i)) (hremoved : P (.removed i))
    (hregistry : P .registry) (hqueue : P .queue) (hjob : P .job)
    (hother : ∀ j, j ≠ i → P (.upload j) ∧ P (.removed j)) (w : Owner) : P w := by
  cases w with
  | upload j =>
    by_cases hj : j = i
    · exact hj ▸ hupload
    · exact (hother j hj).1
  | removed j =>
    by_cases hj : j = i
    · exact hj ▸ hremoved
    · exact (hother j hj).2
  | registry => exact hregistry
  | queue => exact hqueue
  | job => exact hjob

theorem mkstemp_call (h : Ownership s ℓ) {named : Except Exn Path} (ho : (ℓ i).Allows .mkstemp)
    (ha : s.answers i .mkstemp named s') : Ownership s' (called ℓ i .mkstemp named) := by
  obtain ⟨-, hpermit, rfl⟩ := ha
  cases named with
  | error e => exact h.apart rfl rfl rfl rfl rfl rfl rfl fun h => h
  | ok path =>
    have hfresh : path ∉ s.files := by simpa [Site.permits] using hpermit
    have hnone : (ℓ i).upload = none := ho.1
    refine ⟨h.custody.create (.upload i) hfresh (fun _ => List.mem_cons) fun w p => ?_, ?_⟩
    · refine owner_cases (P := fun w => Owns (s.next i .mkstemp (.ok path))
        (called ℓ i .mkstemp (.ok path)) w p ↔ w = .upload i ∧ p = path ∨ Owns s ℓ w p) i
        ?_ ?_ ?_ ?_ ?_ ?_ w
      · simp [Owns, called_self, hnone, eq_comm, resultOf]
      · simp [Owns, called_self]
      · have hunsent : Unsent (called ℓ i .mkstemp (.ok path)) ↔ Unsent ℓ := unsent_call rfl
        simp [Owns, hunsent, Site.next]
      · simp [Owns, Site.next]
      · have hjob : (called ℓ i .mkstemp (.ok path) worker).job = (ℓ worker).job :=
          called_frame Standing.job rfl worker
        simp [Owns, hjob]
      · intro j hj
        simp [Owns, called_ne hj, hj]
    · exact h.cleared_call (fun hnil => hnil) fun h => h

/-- An upload becomes an entry. -/
theorem insert_call (h : Ownership s ℓ) (hs : Sections s ℓ) {identifier : String}
    {entry : StagedArtifact} (ho : (ℓ i).MayInsert identifier entry) :
    Ownership (s.next i (.insert identifier entry) ())
      (called ℓ i (.insert identifier entry) ()) := by
  have hempty : s.entries = [] := (hs.entries i [] ho.empty).2
  have hnone (j : ℕ) : (ℓ j).claim = none := by
    cases hj : (ℓ j).claim with
    | none => rfl
    | some c =>
      have hone := (hs.claim j c hj).2.1
      simp [hempty] at hone
  have hunsent : Unsent (called ℓ i (.insert identifier entry) ()) ↔ Unsent ℓ := unsent_call rfl
  have hunsent₀ := unsent_of_unclaimed hnone
  have hjob : (called ℓ i (.insert identifier entry) () worker).job = (ℓ worker).job :=
    called_frame Standing.job rfl worker
  refine ⟨h.custody.transfer (.upload i) .registry fun w p => ?_, ?_⟩
  · refine owner_cases (P := fun w => Owns (s.next i (.insert identifier entry) ())
      (called ℓ i (.insert identifier entry) ()) w p ↔ w ≠ .upload i ∧ Owns s ℓ w p ∨
        w = .registry ∧ Owns s ℓ (.upload i) p) i ?_ ?_ ?_ ?_ ?_ ?_ w
    · simp [Owns, called_self]
    · simp [Owns, called_self]
    · simp [Owns, hunsent, hunsent₀, Site.next, hempty, Entries.set, Entries.paths, ho.own, eq_comm]
    · simp [Owns, Site.next]
    · simp [Owns, hjob]
    · intro j hj
      simp [Owns, called_ne hj, hj]
  · intro hcleared
    have hphase : (called ℓ i (.insert identifier entry) () worker).phase = (ℓ worker).phase :=
      called_frame Standing.phase rfl worker
    rw [hphase] at hcleared
    have hclosed := hs.closed (by rw [hcleared]; rfl)
    rw [(hs.admitted i ho.admitted).2] at hclosed
    cases hclosed

/-- The entry of a submitted operation is removed, or one that is to be deleted. -/
theorem pop_call (h : Ownership s ℓ) (hs : Sections s ℓ) {identifier : String}
    {entry : Option StagedArtifact} (ho : (ℓ i).MayPop identifier)
    (ha : s.answers i (.pop identifier) entry s') :
    Ownership s' (called ℓ i (.pop identifier) entry) := by
  obtain ⟨⟨oracle, rfl⟩, -, rfl⟩ := ha
  change Ownership _ (called ℓ i (.pop identifier) (s.entries.lookup identifier))
  have hjob : (called ℓ i (.pop identifier) (s.entries.lookup identifier) worker).job =
      (ℓ worker).job := called_frame Standing.job rfl worker
  have hcleared : (called ℓ i (.pop identifier) (s.entries.lookup identifier) worker).phase =
      .cleared → s.entries.erase identifier = [] :=
    h.cleared_call (fun hnil => by simp [hnil, Entries.erase]) fun h => h
  have herased {identifier : String} {entry : StagedArtifact}
      (hentries : s.entries = [(identifier, entry)]) : s.entries.erase identifier = [] := by
    simp [hentries, Entries.erase]
  obtain ⟨-, ⟨c, hc, rfl, hsent⟩ | ⟨hnone, v, entry, hv, hlookup, hun, -⟩⟩ := ho
  · obtain ⟨-, hentries, hclaimed⟩ := hs.claim i c hc
    refine ⟨h.custody.congr (fun _ => Iff.rfl) (owns_congr (called_frame Standing.upload rfl)
      (called_frame Standing.removed ?_) (fun p => ?_) rfl (by rw [hjob])), hcleared⟩
    · simp [hentries, hclaimed]
    · simp [Owns, unsent_iff hs hc, hsent, Site.next, herased hentries, Entries.paths]
  · have hentries := hs.entries_eq_of_lookup hv hlookup
    have hclaims := unclaimed_of_entry hs hentries hun
    refine ⟨h.custody.transfer .registry (.removed i) fun w p => ?_, hcleared⟩
    refine owner_cases
      (P := fun w => Owns (s.next i (.pop identifier) (s.entries.lookup identifier))
      (called ℓ i (.pop identifier) (s.entries.lookup identifier)) w p ↔
        w ≠ .registry ∧ Owns s ℓ w p ∨ w = .removed i ∧ Owns s ℓ .registry p) i
        ?_ ?_ ?_ ?_ ?_ ?_ w
    · simp [Owns, called_self]
    · simp [Owns, called_self, hun, hentries, Entries.paths, unsent_of_unclaimed hclaims,
        or_comm]
    · simp [Owns, Site.next, herased hentries, Entries.paths]
    · simp [Owns, Site.next]
    · simp [Owns, hjob]
    · intro j hj
      simp [Owns, called_ne hj, hj]

/-- Whoever clears the registry answers for all that was in it. -/
theorem clear_call (h : Ownership s ℓ) (hs : Sections s ℓ) {entries : Entries}
    (ho : (ℓ i).MayClear) (ha : s.answers i .clear entries s') :
    Ownership s' (called ℓ i .clear entries) := by
  obtain ⟨⟨oracle, rfl⟩, -, rfl⟩ := ha
  change Ownership _ (called ℓ i .clear s.entries)
  have hclaims := unclaimed_of_clear hs ho
  have hjob : (called ℓ i .clear s.entries worker).job = (ℓ worker).job :=
    called_frame Standing.job rfl worker
  refine ⟨h.custody.transfer .registry (.removed i) fun w p => ?_, fun _ => rfl⟩
  refine owner_cases (P := fun w => Owns (s.next i .clear s.entries) (called ℓ i .clear s.entries)
    w p ↔ w ≠ .registry ∧ Owns s ℓ w p ∨ w = .removed i ∧ Owns s ℓ .registry p) i
      ?_ ?_ ?_ ?_ ?_ ?_ w
  · simp [Owns, called_self]
  · simp [Owns, called_self, unsent_of_unclaimed hclaims, or_comm]
  · simp [Owns, Site.next, Entries.paths]
  · simp [Owns, Site.next]
  · simp [Owns, hjob]
  · intro j hj
    simp [Owns, called_ne hj, hj]

/-- Submission: the file of the entry is the operation's. -/
theorem put_call (h : Ownership s ℓ) (hs : Sections s ℓ) (hadm : Admission s ℓ)
    {operation : FlashOperation} {put : Bool} (ho : (ℓ i).MayPut operation)
    (ha : s.answers i (.putNowait operation) put s') :
    Ownership s' (called ℓ i (.putNowait operation) put) := by
  obtain ⟨rfl, -⟩ := hadm.put_call hs ho ha
  obtain ⟨-, -, rfl⟩ := ha
  have hqueue : s.queue = [] := (List.append_eq_nil_iff.mp (hadm.putTrusted hs ho).2).1
  obtain ⟨c, hc, hunsent, -, himage, -⟩ := ho.claimed
  obtain ⟨-, hentries, -⟩ := hs.claim i c hc
  have hjob : (called ℓ i (.putNowait operation) true worker).job = (ℓ worker).job :=
    called_frame Standing.job rfl worker
  have hsent : ¬Unsent (called ℓ i (.putNowait operation) true) := by
    intro hall
    have := hall i { c with sent := true } (by rw [called_self]; simp [hc])
    cases this
  refine ⟨h.custody.transfer .registry .queue fun w p => ?_,
    h.cleared_call (fun hnil => hnil) fun h => h⟩
  refine owner_cases (P := fun w => Owns (s.next i (.putNowait operation) true)
    (called ℓ i (.putNowait operation) true) w p ↔ w ≠ .registry ∧ Owns s ℓ w p ∨
      w = .queue ∧ Owns s ℓ .registry p) i ?_ ?_ ?_ ?_ ?_ ?_ w
  · simp [Owns, called_self]
  · simp [Owns, called_self]
  · simp [Owns, hsent]
  · simp [Owns, Site.next, hqueue, hentries, Entries.paths, unsent_iff hs hc, hunsent, himage,
      eq_comm]
  · simp [Owns, hjob]
  · intro j hj
    simp [Owns, called_ne hj]

/-- The worker takes over what it takes out of the queue. -/
theorem take_call (h : Ownership s ℓ) (hadm : Admission s ℓ) (hnone : ∀ operation ∈ s.queue,
    (ℓ worker).job.operation = none)
    (hjob : (ℓ' worker).job = (ℓ worker).job.take s.queue.head?)
    (hframe : ∀ j, (ℓ' j).upload = (ℓ j).upload ∧ (ℓ' j).removed = (ℓ j).removed ∧
      (ℓ' j).claim = (ℓ j).claim)
    (hcleared : (ℓ' worker).phase = .cleared → s.entries = []) :
    Ownership { s with queue := s.queue.tail } ℓ' := by
  have hunsent : Unsent ℓ' ↔ Unsent ℓ := forall_congr' fun j => by rw [(hframe j).2.2]
  have hle := hadm.length_le
  refine ⟨h.custody.transfer .queue .job fun w p => ?_, hcleared⟩
  cases w with
  | upload j => simp [Owns, (hframe j).1]
  | removed j => simp [Owns, (hframe j).2.1]
  | registry => simp [Owns, hunsent]
  | queue =>
    cases hqueue : s.queue with
    | nil => simp [Owns, hqueue]
    | cons first rest =>
      rw [waiting, hqueue, List.length_append, List.length_cons] at hle
      obtain rfl : rest = [] := List.length_eq_zero_iff.mp (by omega)
      simp [Owns, hqueue]
  | job =>
    cases hqueue : s.queue with
    | nil => simp [Owns, hjob, hqueue]
    | cons first rest =>
      rw [waiting, hqueue, List.length_append, List.length_cons] at hle
      obtain rfl : rest = [] := List.length_eq_zero_iff.mp (by omega)
      have hidle := hnone first (by simp [hqueue])
      have htaken : (Job.taken first).operation = some first := rfl
      simp [Owns, hjob, hqueue, hidle, htaken]

theorem setClaimed_call (h : Ownership s ℓ) (hs : Sections s ℓ) {identifier : String}
    {claimed : Bool} (ho : (ℓ i).Allows (.setClaimed identifier claimed)) :
    Ownership (s.next i (.setClaimed identifier claimed) ())
      (called ℓ i (.setClaimed identifier claimed) ()) := by
  have hpaths : (s.entries.setClaimed identifier claimed).paths = s.entries.paths := by
    simp only [Entries.setClaimed, Entries.paths, List.map_map]
    refine List.map_congr_left fun item _ => ?_
    simp only [Function.comp_apply]
    split_ifs <;> rfl
  have hunsent := unsent_of_setClaimed hs ho
  have hafter : Unsent (called ℓ i (.setClaimed identifier claimed) ()) := by
    refine forall_called (P := fun _ ℓ => ∀ c, ℓ.claim = some c → c.sent = false) ?_
      fun j _ => hunsent j
    intro c hc
    cases claimed with
    | true =>
      simp only [Standing.after, Standing.afterCall, Standing.claimEntry, if_true,
        Option.map_eq_some_iff] at hc
      obtain ⟨entry, -, rfl⟩ := hc
      rfl
    | false => cases hc
  refine ⟨h.custody.congr (fun _ => Iff.rfl) (owns_congr (called_frame Standing.upload rfl)
    (called_frame Standing.removed rfl) (fun p => ?_) rfl
    (congrArg Job.operation (called_frame Standing.job rfl worker))),
    h.cleared_call (fun hnil => by simp [Site.next, hnil, Entries.setClaimed]) fun h => h⟩
  simp [Owns, Site.next, hpaths, hunsent, hafter]

theorem operation_unlink {job : Job} {path : Path} {operation : FlashOperation} :
    (job.unlink path).operation = some operation ↔ job.operation = some operation ∧
      ¬(job = .finished operation ∧ operation.image.path = path) := by
  cases job with
  | finished first =>
    simp only [Job.unlink]
    split_ifs with hpath
    · simp only [Job.operation, Option.some.injEq, reduceCtorEq, false_iff]
      rintro ⟨rfl, h⟩
      exact h ⟨rfl, hpath⟩
    · simp only [Job.operation, Option.some.injEq]
      refine ⟨?_, fun h => h.1⟩
      rintro rfl
      exact ⟨rfl, fun h => hpath h.2⟩
  | _ => simp [Job.unlink, Job.operation]

/-- A file is deleted by its owner. -/
theorem unlink_call (h : Ownership s ℓ) (hs : Sections s ℓ) {path : Path}
    (ho : (ℓ i).Allows (.unlink path)) :
    Ownership (s.next i (.unlink path) ()) (called ℓ i (.unlink path) ()) := by
  have hjob : (called ℓ i (.unlink path) () worker).job =
      if i = worker then (ℓ worker).job.unlink path else (ℓ worker).job := by
    split_ifs with hi
    · subst hi
      rw [called_self]
      rfl
    · rw [called_ne (Ne.symm hi)]
  have hunsent : Unsent (called ℓ i (.unlink path) ()) ↔ Unsent ℓ := unsent_call rfl
  obtain ⟨w₀, hw₀, hgone⟩ : ∃ w₀, Owns s ℓ w₀ path ∧
      ¬Owns (s.next i (.unlink path) ()) (called ℓ i (.unlink path) ()) w₀ path := by
    rcases ho with hupload | hremoved | ⟨operation, hfinished, rfl⟩
    · exact ⟨.upload i, hupload, by simp [Owns, called_self, hupload]⟩
    · exact ⟨.removed i, hremoved, by simp [Owns, called_self]⟩
    · obtain rfl := hs.worker_of_job (i := i) (by simp [hfinished])
      refine ⟨.job, ⟨operation, by rw [hfinished]; rfl, rfl⟩, ?_⟩
      simp [Owns, hjob, hfinished, Job.operation]
  refine ⟨h.custody.dispose hw₀ hgone (fun p => by simp [Site.next]) (fun w p => ?_)
    (fun w p => ?_), h.cleared_call (fun hnil => hnil) fun h => h⟩
  · refine owner_cases (P := fun w => Owns (s.next i (.unlink path) ())
      (called ℓ i (.unlink path) ()) w p → Owns s ℓ w p) i ?_ ?_ ?_ ?_ ?_ ?_ w
    · simp [Owns, called_self]
    · simp only [Owns, called_self, Standing.after, removedAfter, List.mem_filter]
      exact fun h => h.1
    · simp [Owns, hunsent, Site.next]
    · simp [Owns, Site.next]
    · rintro ⟨operation, hoperation, rfl⟩
      refine ⟨operation, ?_, rfl⟩
      rw [hjob] at hoperation
      split_ifs at hoperation
      · exact (operation_unlink.mp hoperation).1
      · exact hoperation
    · intro j hj
      simp [Owns, called_ne hj]
  · refine owner_cases (P := fun w => Owns s ℓ w p → p ≠ path → Owns (s.next i (.unlink path) ())
      (called ℓ i (.unlink path) ()) w p) i ?_ ?_ ?_ ?_ ?_ ?_ w
    · intro hupload hne
      simp only [Owns] at hupload
      simp [Owns, called_self, hupload, hne]
    · intro hremoved hne
      simp only [Owns] at hremoved
      simp [Owns, called_self, hremoved, hne]
    · intro hregistry _
      simpa [Owns, hunsent, Site.next] using hregistry
    · intro hqueue _
      exact hqueue
    · rintro ⟨operation, hoperation, rfl⟩ hne
      refine ⟨operation, ?_, rfl⟩
      rw [hjob]
      split_ifs
      · exact operation_unlink.mpr ⟨hoperation, fun h => hne h.2⟩
      · exact hoperation
    · intro j hj
      simp only [Owns, called_ne hj]
      exact ⟨fun h _ => h, fun h _ => h⟩

theorem operation_update {job : Job} {u : Update} : (job.update u).operation = job.operation := by
  cases job <;> cases u <;> rfl

theorem call (h : Ownership s ℓ) (hs : Sections s ℓ) (hadm : Admission s ℓ) (ho : (ℓ i).Allows o)
    (ha : s.answers i o a s') : Ownership s' (called ℓ i o a) := by
  cases o with
  | mkstemp => exact h.mkstemp_call ho ha
  | insert identifier entry =>
    obtain ⟨-, -, rfl⟩ := ha
    exact h.insert_call hs ho
  | pop identifier => exact h.pop_call hs ho ha
  | clear => exact h.clear_call hs ho ha
  | putNowait operation => exact h.put_call hs hadm ho ha
  | get =>
    obtain ⟨hrole, hjob, -⟩ := ho
    obtain rfl := hs.role_of_worker hrole
    obtain ⟨⟨oracle, rfl⟩, -, rfl⟩ := ha
    refine h.take_call hadm (fun _ _ => by rw [hjob]; rfl) (by rw [called_self]; rfl)
      (fun j => ⟨called_frame Standing.upload rfl j, called_frame Standing.removed rfl j,
        called_frame Standing.claim rfl j⟩) ?_
    exact h.cleared_call (fun hnil => hnil) fun h => h
  | getNowait =>
    obtain ⟨hrole, -, hphase, hjob⟩ := ho
    obtain rfl := hs.role_of_worker hrole
    obtain ⟨⟨oracle, rfl⟩, -, rfl⟩ := ha
    refine h.take_call hadm ?_ (by rw [called_self]; rfl)
      (fun j => ⟨called_frame Standing.upload rfl j, called_frame Standing.removed rfl j,
        called_frame Standing.claim rfl j⟩) ?_
    · intro operation hmem
      rcases hjob with hjob | ⟨first, hjob⟩
      · rw [hjob]
        rfl
      · rw [hadm.queue_of_taken hjob] at hmem
        cases hmem
    · rw [called_self]
      change (ℓ worker).phase.drain s.queue.head? = .cleared → _
      cases s.queue.head? <;> simp [hphase]
  | setClaimed identifier claimed =>
    obtain ⟨-, -, rfl⟩ := ha
    exact h.setClaimed_call hs ho
  | unlink path =>
    obtain ⟨-, -, rfl⟩ := ha
    exact h.unlink_call hs ho
  | update u now =>
    obtain ⟨-, -, rfl⟩ := ha
    exact h.apart rfl rfl rfl rfl rfl rfl operation_update fun h => h
  | closeAdmission =>
    obtain ⟨-, -, rfl⟩ := ha
    refine h.apart rfl rfl rfl rfl rfl rfl rfl ?_
    change (ℓ i).phase.close = .cleared → _
    cases (ℓ i).phase <;> simp
  | startServer =>
    obtain ⟨-, -, rfl⟩ := ha
    refine h.apart rfl rfl rfl rfl rfl rfl rfl ?_
    change (ℓ i).phase.start a = .cleared → _
    cases (a : Except Exn Unit) <;> simp
  | _ =>
    obtain ⟨-, -, rfl⟩ := ha
    exact h.apart rfl rfl rfl rfl rfl rfl rfl fun h => h

theorem start (h : Ownership s ℓ) (hs : Sections s ℓ) (hidle : ℓ i = .idle) (task : Task) :
    Ownership s (Function.update ℓ i (.born task)) := by
  have hworker : Function.update ℓ i (.born task) worker = ℓ worker :=
    Function.update_of_ne (Ne.symm (hs.ne_worker hidle)) _ _
  have hunsent : Unsent (Function.update ℓ i (.born task)) ↔ Unsent ℓ :=
    forall_congr' fun j => by rw [Sections.started_frame Standing.claim hidle rfl]
  refine ⟨h.custody.congr (fun _ => Iff.rfl) (owns_congr
    (Sections.started_frame Standing.upload hidle rfl)
    (Sections.started_frame Standing.removed hidle rfl) (fun path => ?_) rfl (by rw [hworker])), ?_⟩
  · simp only [Owns, hunsent]
  · rw [hworker]
    exact h.cleared

theorem stop (h : Ownership s ℓ) : Ownership { s with stopping := true } ℓ :=
  ⟨h.custody, h.cleared⟩

theorem initial : Ownership .initial boarding := by
  have hnone (w : Owner) (path : Path) : ¬Owns .initial boarding w path := by
    intro hw
    cases w with
    | upload j =>
      simp only [Owns, boarding_frame Standing.upload rfl rfl] at hw
      cases hw
    | removed j =>
      simp only [Owns, boarding_frame Standing.removed rfl rfl] at hw
      cases hw
    | registry => cases hw.1
    | queue =>
      obtain ⟨_, hmem, -⟩ := hw
      cases hmem
    | job =>
      obtain ⟨_, hjob, -⟩ := hw
      rw [boarding_worker] at hjob
      cases hjob
  exact ⟨.empty (fun _ hp => by cases hp) hnone, fun _ => rfl⟩

/-! ## What can be trusted -/

theorem entriesTrusted (hs : Sections s ℓ) : (ℓ i).EntriesTrusted s.entries where
  single := hs.single
  seen view hv := (hs.entries i view hv).2
  claimed c hc := (hs.claim i c hc).2.1

/-- What the registry owns the thread does not. -/
theorem upload_ne (h : Ownership s ℓ) {path : Path} (hregistry : Owns s ℓ .registry path) :
    (ℓ i).upload ≠ some path := by
  intro hupload
  cases h.custody.unique .registry (.upload i) path hregistry hupload

theorem popTrusted (h : Ownership s ℓ) (hs : Sections s ℓ) (identifier : String) :
    (ℓ i).PopTrusted identifier (s.entries.lookup identifier) where
  seen view hv := by rw [(hs.entries i view hv).2]
  claimed c hc := by
    rintro rfl
    simp [(hs.claim i c hc).2.1]
  other entry hlookup hun := by
    have hentries := hs.entries_eq_of_mem (Entries.mem_of_lookup hlookup)
    refine h.upload_ne ⟨?_, unsent_of_unclaimed (unclaimed_of_entry hs hentries hun)⟩
    simp [hentries, Entries.paths]

theorem clearTrusted (h : Ownership s ℓ) (hs : Sections s ℓ) (ho : (ℓ i).MayClear) :
    (ℓ i).ClearTrusted s.entries where
  single := hs.single
  other _ hpath := h.upload_ne ⟨hpath, unsent_of_unclaimed (unclaimed_of_clear hs ho)⟩

end Ownership
end Cul868Flasher
