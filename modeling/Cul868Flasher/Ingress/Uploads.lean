import Cul868Flasher.Ingress.Provenance

/-!
# The upload files over whole runs

A removed entry's file is deleted before the section ends that removed the entry,
and after the last clearing of the registry nothing is removed any more. So no
file is left when the worker and the uploads have come to their ends.
-/

namespace Cul868Flasher
open Python Effects

variable {i j : ℕ} {s s' : Site} {ℓ : ℕ → Standing} {o : App.Op} {a : App.Ans o}
  {fuel : ℕ} {settings : Settings} {t u v : List (Act App Task Signal)} {c : System App Exn Site}

/-! ## Removed entries -/

structure Removal (ℓ : ℕ → Standing) : Prop where
  /-- Files of removed entries are deleted under the registry's lock, in the
  submission or in the final cleanup. -/
  within : ∀ i, (ℓ i).removed ≠ [] →
    .registry ∈ (ℓ i).held ∨ (ℓ i).admitted = true ∨ (ℓ i).phase = .cleared
  cleared : (ℓ worker).phase = .cleared → ∀ i, i ≠ worker → (ℓ i).removed = []

namespace Removal

theorem within_call (h : Removal ℓ) (hs : Sections s ℓ) (ho : (ℓ i).Allows o)
    (ha : s.answers i o a s') (j : ℕ) (hj : (called ℓ i o a j).removed ≠ []) :
    .registry ∈ (called ℓ i o a j).held ∨ (called ℓ i o a j).admitted = true ∨
      (called ℓ i o a j).phase = .cleared := by
  obtain ⟨⟨oracle, ha⟩, -, -⟩ := ha
  revert hj
  refine forall_called (P := fun _ ℓ => ℓ.removed ≠ [] → .registry ∈ ℓ.held ∨ ℓ.admitted = true ∨
    ℓ.phase = .cleared) ?_ (fun j _ => h.within j) j
  cases o with
  | acquire lock =>
    intro hne
    exact (h.within i hne).imp_left (List.mem_cons_of_mem _)
  | release lock =>
    intro hne
    have hremoved : (ℓ i).removed ≠ [] := hne
    cases lock with
    | submission => exact absurd ho.2.2.2 hremoved
    | registry => exact .inr (ho.2.resolve_left hremoved)
    | controller =>
      exact (h.within i hremoved).imp_left fun hmem => (List.mem_erase_of_ne (by simp)).mpr hmem
    | flash =>
      exact (h.within i hremoved).imp_left fun hmem => (List.mem_erase_of_ne (by simp)).mpr hmem
  | accepting =>
    -- admission that was found open is found open again
    intro hne
    rcases h.within i hne with hmem | hadm | hphase
    · exact .inl hmem
    · refine .inr (.inl ?_)
      change a = true
      rw [ha]
      exact (hs.admitted i hadm).2
    · exact .inr (.inr hphase)
  | closeAdmission =>
    intro hne
    refine (h.within i hne).imp_right (Or.imp_right fun hphase => ?_)
    change (ℓ i).phase.close = .cleared
    rw [hphase]
    rfl
  | getNowait =>
    intro hne
    refine (h.within i hne).imp_right (Or.imp_right fun hphase => ?_)
    rw [ho.2.2.1] at hphase
    cases hphase
  | startServer =>
    intro hne
    refine (h.within i hne).imp_right (Or.imp_right fun hphase => ?_)
    rw [ho.2] at hphase
    cases hphase
  | pop identifier => exact fun _ => .inl ho.1
  | clear => exact fun _ => .inl ho.1
  | unlink path =>
    intro hne
    refine h.within i fun hnil => hne ?_
    simp [hnil]
  | _ => exact h.within i

/-- What is allowed to a request once the registry has been cleared for good. -/
theorem not_pop (hs : Sections s ℓ) (hw : Ownership s ℓ) (hphase : (ℓ worker).phase = .cleared)
    {identifier : String} : ¬(ℓ i).MayPop identifier := by
  have hempty := hw.cleared hphase
  rintro ⟨-, ⟨c, hc, -⟩ | ⟨-, v, entry, hv, hlookup, -⟩⟩
  · have hone := (hs.claim i c hc).2.1
    rw [hempty] at hone
    cases hone
  · have hone := hs.entries_eq_of_lookup hv hlookup
    rw [hempty] at hone
    cases hone

theorem not_clear (hs : Sections s ℓ) (hphase : (ℓ worker).phase.isClosed = true)
    (hi : i ≠ worker) :
    ¬(ℓ i).MayClear := by
  rintro ⟨-, ⟨hadm, -⟩ | ⟨hrole, -⟩⟩
  · have hopen := (hs.admitted i hadm).2
    rw [hs.closed hphase] at hopen
    cases hopen
  · exact hi (hs.role_of_worker hrole)

theorem cleared_call (h : Removal ℓ) (hs : Sections s ℓ) (hw : Ownership s ℓ) (ho : (ℓ i).Allows o)
    (hphase : (called ℓ i o a worker).phase = .cleared) (j : ℕ) (hj : j ≠ worker) :
    (called ℓ i o a j).removed = [] := by
  by_cases hwas : (ℓ worker).phase = .cleared
  · refine forall_called (P := fun j ℓ => j ≠ worker → ℓ.removed = []) ?_
      (fun j _ => h.cleared hwas j) j hj
    intro hi
    have hnil := h.cleared hwas i hi
    cases o with
    | pop identifier => exact absurd ho (not_pop hs hw hwas)
    | clear => exact absurd ho (not_clear hs (by rw [hwas]; rfl) hi)
    | unlink path => simp [hnil]
    | _ => exact hnil
  · -- the worker has just cleared the registry, under its lock
    have hi : i = worker := by
      by_contra hne
      rw [called_ne (Ne.symm hne)] at hphase
      exact hwas hphase
    subst hi
    rw [called_self] at hphase
    rw [called_ne hj]
    have hdrained : (ℓ worker).phase = .drained ∧ .registry ∈ (ℓ worker).held := by
      cases o with
      | clear =>
        change (ℓ worker).phase.clear = .cleared at hphase
        refine ⟨?_, ho.1⟩
        cases hp : (ℓ worker).phase <;> simp [hp] at hphase hwas ⊢
      | closeAdmission =>
        change (ℓ worker).phase.close = .cleared at hphase
        cases hp : (ℓ worker).phase <;> simp [hp] at hphase hwas
      | getNowait =>
        change (ℓ worker).phase.drain a = .cleared at hphase
        rw [ho.2.2.1] at hphase
        cases (a : Option FlashOperation) <;> simp at hphase
      | startServer =>
        change (ℓ worker).phase.start a = .cleared at hphase
        rw [ho.2] at hphase
        cases (a : Except Exn Unit) <;> simp at hphase
      | _ => exact absurd hphase hwas
    by_contra hne
    rcases h.within j hne with hmem | hadm | hbooting
    · exact hj (hs.exclusive hmem hdrained.2)
    · have hopen := (hs.admitted j hadm).2
      rw [hs.closed (by rw [hdrained.1]; rfl)] at hopen
      cases hopen
    · rw [(hs.request j hj).1] at hbooting
      cases hbooting

theorem call (h : Removal ℓ) (hs : Sections s ℓ) (hw : Ownership s ℓ) (ho : (ℓ i).Allows o)
    (ha : s.answers i o a s') : Removal (called ℓ i o a) where
  within := h.within_call hs ho ha
  cleared := h.cleared_call hs hw ho

theorem start (h : Removal ℓ) (hs : Sections s ℓ) (hidle : ℓ i = .idle) (task : Task) :
    Removal (Function.update ℓ i (.born task)) where
  within := by
    intro j
    rw [Sections.started_frame Standing.removed hidle rfl,
      Sections.started_frame Standing.held hidle rfl,
      Sections.started_frame Standing.admitted hidle rfl,
      Sections.started_frame Standing.phase hidle rfl]
    exact h.within j
  cleared := by
    rw [Function.update_of_ne (Ne.symm (hs.ne_worker hidle))]
    intro hphase j
    rw [Sections.started_frame Standing.removed hidle rfl]
    exact h.cleared hphase j

theorem initial : Removal boarding where
  within := by
    intro i hne
    rw [boarding_frame Standing.removed rfl rfl] at hne
    exact absurd rfl hne
  cleared := by
    intro hphase
    rw [boarding_worker] at hphase
    cases hphase

end Removal

theorem removal_kept (fuel : ℕ) (settings : Settings) :
    Described.Kept discipline .idle Rested (fun _ s ℓ => Orderly s ℓ ∧ Removal ℓ)
      (addon fuel settings) Standing.born :=
  (orderly_kept fuel settings).extend
    (fun _ _ _ _ _ _ _ hk h ho _ ha => h.call hk.sections hk.ownership ho ha)
    (fun _ _ _ _ task hk h hidle _ => h.start hk.sections hidle task)
    (fun _ _ _ _ _ _ h _ => h)

theorem reached_removal (h : Reached fuel settings t c) : Removal (standings t) :=
  (reached_described (removal_kept fuel settings) ⟨.initial, .initial⟩ h).holds.2

/-! ## The owners -/

/-- The owner is still there: the request or the worker goes on, and a thread
with files to delete is in the section that has removed their entries. -/
def Owner.Live (t : List (Act App Task Signal)) (c : System App Exn Site) : Owner → Prop
  | .upload i => ¬Over c i ∧ ∃ contentLength, .start i (.validateUpload contentLength) ∈ t
  | .removed i => ¬Over c i ∧
      (.registry ∈ (standings t i).held ∨ .submission ∈ (standings t i).held ∨ i = worker)
  | .registry => True
  | .queue => True
  | .job => ¬Over c worker

/-- The operations that are queued, and the one the worker has and has not
disposed of. -/
def undisposed (s : Site) (t : List (Act App Task Signal)) : List FlashOperation :=
  s.queue ++ (standings t worker).job.operation.toList

theorem live_of_owns (h : Reached fuel settings t c) {w : Owner} {path : Path}
    (hw : Owns c.store (standings t) w path) : w.Live t c := by
  have horder := reached_orderly h
  have hfrom := reached_provenance h
  cases w with
  | upload i =>
    obtain ⟨contentLength, hrole⟩ := hfrom.uploading i path hw
    refine ⟨fun hover => ?_, contentLength, hfrom.started i _ hrole⟩
    have hupload : (standings t i).upload = some path := hw
    rw [(hover.rested h).upload] at hupload
    cases hupload
  | removed i =>
    have hne : (standings t i).removed ≠ [] := List.ne_nil_of_mem hw
    refine ⟨fun hover => hne (hover.rested h).removed, ?_⟩
    rcases (reached_removal h).within i hne with hmem | hadm | hphase
    · exact .inl hmem
    · exact .inr (.inl (horder.sections.admitted i hadm).1)
    · refine .inr (.inr ?_)
      by_contra hi
      rw [(horder.sections.request i hi).1] at hphase
      cases hphase
  | registry => trivial
  | queue => trivial
  | job =>
    obtain ⟨operation, hjob, -⟩ := hw
    intro hover
    rw [(hover.rested h).job] at hjob
    cases hjob

theorem owns_of_undisposed {operation : FlashOperation} (h : operation ∈ undisposed s t) :
    (operation ∈ s.queue ∧ Owns s (standings t) .queue operation.image.path) ∨
      ((standings t worker).job.operation = some operation ∧
        Owns s (standings t) .job operation.image.path) := by
  rcases List.mem_append.mp h with hmem | hmem
  · exact .inl ⟨hmem, operation, hmem, rfl⟩
  · have hjob := Option.mem_toList.mp hmem
    exact .inr ⟨hjob, operation, hjob, rfl⟩

/-- A file whose operation is queued or with the worker is deleted by the worker,
when the operation is over. -/
theorem unlink_undisposed {path : Path} {answer : App.Ans (.unlink path)} {c₁ : System App Exn Site}
    {operation : FlashOperation}
    (h : Reached fuel settings (u ++ .call i ⟨.unlink path, answer⟩ :: v) c)
    (h₁ : Reached fuel settings u c₁) (hoperation : operation ∈ undisposed c₁.store u)
    (hpath : operation.image.path = path) :
    i = worker ∧ (standings u worker).job = .finished operation := by
  obtain ⟨-, -, -, hallow, -⟩ := reached_allows h
  have horder := reached_orderly h₁
  have hunique := horder.ownership.custody.unique
  have hheld := owns_of_undisposed hoperation
  rw [hpath] at hheld
  rcases hallow with hupload | hremoved | ⟨finished, hjob, hfile⟩
  · rcases hheld with ⟨-, hw⟩ | ⟨-, hw⟩
    · cases hunique _ (.upload i) path hw hupload
    · cases hunique _ (.upload i) path hw hupload
  · rcases hheld with ⟨-, hw⟩ | ⟨-, hw⟩
    · cases hunique _ (.removed i) path hw hremoved
    · cases hunique _ (.removed i) path hw hremoved
  · obtain rfl := horder.sections.worker_of_job (i := i) (by simp [hjob])
    have hown : Owns c₁.store (standings u) .job path := ⟨finished, by rw [hjob]; rfl, hfile⟩
    rcases hheld with ⟨-, hw⟩ | ⟨hsome, -⟩
    · cases hunique _ _ path hw hown
    · rw [hjob] at hsome
      cases hsome
      exact ⟨rfl, hjob⟩

/-- Nothing is left of what the threads that are over have stored. -/
theorem files_of_over (h : Reached fuel settings t c) (hworker : Over c worker)
    (huploads : ∀ i contentLength, .start i (.validateUpload contentLength) ∈ t → Over c i) :
    c.store.files = [] := by
  have horder := reached_orderly h
  have hrested := hworker.rested h
  rcases hrested.phase with hbooting | hcleared
  · exact (horder.sections.unserved (horder.sections.booting hbooting)).2.2.1
  refine List.eq_nil_iff_forall_not_mem.mpr fun path hpath => ?_
  obtain ⟨w, hw⟩ := horder.ownership.custody.covered path hpath
  have hlive := live_of_owns h hw
  cases w with
  | upload i =>
    obtain ⟨hover, contentLength, hstart⟩ := hlive
    exact hover (huploads i contentLength hstart)
  | removed i =>
    have hnil : (standings t i).removed = [] := by
      by_cases hi : i = worker
      · rw [hi]
        exact hrested.removed
      · exact (reached_removal h).cleared hcleared i hi
    have hmem : path ∈ (standings t i).removed := hw
    rw [hnil] at hmem
    cases hmem
  | registry =>
    have hmem : path ∈ c.store.entries.paths := hw.1
    rw [horder.ownership.cleared hcleared] at hmem
    cases hmem
  | queue =>
    obtain ⟨operation, hmem, -⟩ := hw
    rw [horder.admission.drained (by rw [hcleared]; rfl)] at hmem
    cases hmem
  | job => exact hlive hworker

structure UploadsOwned (fuel : ℕ) (settings : Settings) (t : List (Act App Task Signal))
    (c : System App Exn Site) : Prop where
  owned : ∀ path ∈ c.store.files, ∃ w : Owner, Owns c.store (standings t) w path ∧ w.Live t c
  kept : ∀ operation ∈ undisposed c.store t, operation.image.path ∈ c.store.files
  disposed : ∀ u i path answer v c₁ operation, t = u ++ .call i ⟨.unlink path, answer⟩ :: v →
    Reached fuel settings u c₁ → operation ∈ undisposed c₁.store u → operation.image.path = path →
    i = worker ∧ (standings u worker).job = .finished operation
  single : c.store.entries.length ≤ 1
  cleaned : Over c worker →
    (∀ i contentLength, .start i (.validateUpload contentLength) ∈ t → Over c i) →
    c.store.files = []

/-- In every interleaving an upload file has an owner that is still there, the
file of an operation stays until the operation is over, and none is left. -/
theorem uploads_owned (h : Reached fuel settings t c) : UploadsOwned fuel settings t c := by
  have horder := reached_orderly h
  constructor
  · intro path hpath
    obtain ⟨w, hw⟩ := horder.ownership.custody.covered path hpath
    exact ⟨w, hw, live_of_owns h hw⟩
  · intro operation hoperation
    rcases owns_of_undisposed hoperation with ⟨-, hw⟩ | ⟨-, hw⟩
    · exact horder.ownership.custody.lives _ _ hw
    · exact horder.ownership.custody.lives _ _ hw
  · rintro u i path answer v c₁ operation rfl h₁ hoperation hpath
    exact unlink_undisposed h h₁ hoperation hpath
  · exact horder.sections.single
  · exact files_of_over h

theorem uploads_owned_submission : ∃ t c, Reached 2 PlannedRun.qemuSettings t c ∧
    c.store.files ≠ [] ∧ UploadsOwned 2 PlannedRun.qemuSettings t c := by
  obtain ⟨t, c, hreach, -, -, hfiles⟩ := submission_reached
  exact ⟨t, c, hreach, hfiles, uploads_owned hreach⟩

end Cul868Flasher
