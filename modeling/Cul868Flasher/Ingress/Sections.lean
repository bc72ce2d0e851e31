import Cul868Flasher.Ingress.Conduct.Worker

/-!
# What the standings say of the locks and the registry

A lock is held by the thread that says so and by no other; what a thread has
read under a lock stays true until it gives the lock back; an entry that is
claimed is the only one there is, and admission stays open around it.
-/

namespace Cul868Flasher
open Python Effects

variable {i j : ℕ} {s s' : Site} {ℓ : ℕ → Standing} {o : App.Op} {a : App.Ans o}

/-- The standings after a call of thread `i`. -/
def called (ℓ : ℕ → Standing) (i : ℕ) (o : App.Op) (a : App.Ans o) : ℕ → Standing :=
  Function.update ℓ i ((ℓ i).after o a)

theorem called_self : called ℓ i o a i = (ℓ i).after o a := by simp [called]

theorem called_ne (h : j ≠ i) : called ℓ i o a j = ℓ j := by simp [called, h]

/-- A part of the standing that the call leaves alone is left alone for all. -/
theorem called_frame {β : Type} (f : Standing → β) (h : f ((ℓ i).after o a) = f (ℓ i)) (j : ℕ) :
    f (called ℓ i o a j) = f (ℓ j) := by
  by_cases hij : j = i
  · subst hij
    rw [called_self, h]
  · rw [called_ne hij]

/-- What holds of the caller and of the other threads holds of all. -/
theorem forall_called {P : ℕ → Standing → Prop} (hself : P i ((ℓ i).after o a))
    (hother : ∀ j, j ≠ i → P j (ℓ j)) (j : ℕ) : P j (called ℓ i o a j) := by
  by_cases hij : j = i
  · subst hij
    rwa [called_self]
  · rw [called_ne hij]
    exact hother j hij

structure Sections (s : Site) (ℓ : ℕ → Standing) : Prop where
  held : ∀ i lock, lock ∈ (ℓ i).held ↔ s.locks lock = some i
  nodup : ∀ i, (ℓ i).held.Nodup
  role : ∀ i, (ℓ i).role = .worker ↔ i = worker
  fields : ∀ i c, (ℓ i).fields = some c → .controller ∈ (ℓ i).held ∧ s.controller = c
  entries : ∀ i v, (ℓ i).entries = some v → .registry ∈ (ℓ i).held ∧ s.entries = v
  admitted : ∀ i, (ℓ i).admitted = true → .submission ∈ (ℓ i).held ∧ s.accepting = true
  claim : ∀ i c, (ℓ i).claim = some c → (ℓ i).admitted = true ∧
    s.entries = [(c.identifier, c.entry)] ∧ c.entry.claimed = true
  single : s.entries.length ≤ 1
  request : ∀ i, i ≠ worker → (ℓ i).phase = .booting ∧ (ℓ i).job = .none
  closed : (ℓ worker).phase.isClosed = true → s.accepting = false
  booting : (ℓ worker).phase = .booting → s.serving = false
  unserved : s.serving = false → s.queue = [] ∧ s.entries = [] ∧ s.files = [] ∧
    ∀ i task, (ℓ i).role ≠ .request task

namespace Sections

/-- No lock is held twice. -/
theorem exclusive (h : Sections s ℓ) {lock : Lock} (hi : lock ∈ (ℓ i).held)
    (hj : lock ∈ (ℓ j).held) : i = j := by
  have := ((h.held i lock).mp hi).symm.trans ((h.held j lock).mp hj)
  simpa using this

theorem role_of_worker (h : Sections s ℓ) (hi : (ℓ i).role = .worker) : i = worker :=
  (h.role i).mp hi

theorem held_call (h : Sections s ℓ) (ho : (ℓ i).Allows o) (ha : s.answers i o a s') (j : ℕ)
    (lock : Lock) : lock ∈ (called ℓ i o a j).held ↔ s'.locks lock = some j := by
  obtain ⟨-, hpermit, rfl⟩ := ha
  cases o with
  | acquire l =>
    have hfree : s.locks l = none := by simpa [Site.permits] using hpermit
    refine forall_called (P := fun j ℓ => lock ∈ ℓ.held ↔ _ = some j) ?_ (fun j hj => ?_) j
    · by_cases hl : lock = l
      · subst hl
        simp [Site.next]
      · simpa [Site.next, hl] using h.held i lock
    · by_cases hl : lock = l
      · subst hl
        simpa [Site.next, Ne.symm hj, hfree] using h.held j lock
      · simpa [Site.next, hl] using h.held j lock
  | release l =>
    have hmem : l ∈ (ℓ i).held := ho.1
    refine forall_called (P := fun j ℓ => lock ∈ ℓ.held ↔ _ = some j) ?_ (fun j hj => ?_) j
    · by_cases hl : lock = l
      · subst hl
        simp [Site.next, (h.nodup i).mem_erase_iff]
      · simpa [Site.next, hl, (h.nodup i).mem_erase_iff] using h.held i lock
    · by_cases hl : lock = l
      · subst hl
        have : lock ∉ (ℓ j).held := fun hj' => hj (h.exclusive hj' hmem)
        simpa [Site.next] using this
      · simpa [Site.next, hl] using h.held j lock
  | _ =>
    rw [called_frame Standing.held rfl]
    exact h.held j lock

theorem nodup_call (h : Sections s ℓ) (ha : s.answers i o a s') (j : ℕ) :
    (called ℓ i o a j).held.Nodup := by
  obtain ⟨-, hpermit, rfl⟩ := ha
  cases o with
  | acquire l =>
    have hfree : s.locks l = none := by simpa [Site.permits] using hpermit
    refine forall_called (P := fun _ ℓ => ℓ.held.Nodup) ?_ (fun j _ => h.nodup j) j
    refine List.nodup_cons.mpr ⟨fun hmem => ?_, h.nodup i⟩
    simp [(h.held i l).mp hmem] at hfree
  | release l =>
    refine forall_called (P := fun _ ℓ => ℓ.held.Nodup) ?_ (fun j _ => h.nodup j) j
    exact (h.nodup i).erase l
  | _ =>
    rw [called_frame Standing.held rfl]
    exact h.nodup j

theorem role_call (h : Sections s ℓ) (j : ℕ) : (called ℓ i o a j).role = .worker ↔ j = worker := by
  rw [called_frame Standing.role (by cases o <;> rfl)]
  exact h.role j

/-- What was read of the controller is true while its lock is held. -/
theorem fields_call (h : Sections s ℓ) (ho : (ℓ i).Allows o) (ha : s.answers i o a s') (j : ℕ)
    (c : Controller) (hc : (called ℓ i o a j).fields = some c) :
    .controller ∈ (called ℓ i o a j).held ∧ s'.controller = c := by
  obtain ⟨⟨oracle, ha⟩, -, rfl⟩ := ha
  revert hc
  cases o with
  | acquire l =>
    refine forall_called (P := fun j ℓ => ℓ.fields = some c → _ ∈ ℓ.held ∧ _) ?_
      (fun j _ => h.fields j c) j
    intro hc
    exact (h.fields i c hc).imp_left (List.mem_cons_of_mem _)
  | release l =>
    refine forall_called (P := fun j ℓ => ℓ.fields = some c → _ ∈ ℓ.held ∧ _) ?_
      (fun j _ => h.fields j c) j
    intro hc
    by_cases hl : l = .controller
    · simp [hl] at hc
    · have := h.fields i c (by simpa [hl] using hc)
      refine ⟨?_, this.2⟩
      simpa [(h.nodup i).mem_erase_iff, Ne.symm hl] using this.1
  | controller =>
    refine forall_called (P := fun j ℓ => ℓ.fields = some c → _ ∈ ℓ.held ∧ _) ?_
      (fun j _ => h.fields j c) j
    intro hc
    obtain rfl : a = c := by simpa using hc
    exact ⟨ho, ha.symm⟩
  | update u now =>
    refine forall_called (P := fun j ℓ => ℓ.fields = some c → _ ∈ ℓ.held ∧ _) ?_
      (fun j hj hc => ?_) j
    · intro hc
      obtain ⟨c₀, hc₀, rfl⟩ : ∃ c₀, (ℓ i).fields = some c₀ ∧ c₀.update now u = c := by
        simpa using hc
      obtain ⟨hmem, rfl⟩ := h.fields i c₀ hc₀
      exact ⟨hmem, rfl⟩
    · exact absurd (h.exclusive (h.fields j c hc).1 ho.1) hj
  | _ =>
    rw [called_frame Standing.fields rfl, called_frame Standing.held rfl]
    exact h.fields j c

/-- Entries change under the registry's lock only. -/
theorem entries_locked (ho : (ℓ i).Allows o) (hne : (s.next i o a).entries ≠ s.entries) :
    .registry ∈ (ℓ i).held := by
  cases o with
  | pop identifier => exact ho.1
  | clear => exact ho.1
  | insert identifier entry => exact ho.locked
  | setClaimed identifier claimed =>
    cases claimed with
    | true => exact ho.locked
    | false => exact ho.1
  | _ => exact absurd rfl hne

/-- What was read of the registry is true while its lock is held. -/
theorem entries_call (h : Sections s ℓ) (ho : (ℓ i).Allows o) (ha : s.answers i o a s') (j : ℕ)
    (v : Entries) (hv : (called ℓ i o a j).entries = some v) :
    .registry ∈ (called ℓ i o a j).held ∧ s'.entries = v := by
  obtain ⟨⟨oracle, ha⟩, -, rfl⟩ := ha
  have hlocked := entries_locked (s := s) (a := a) ho
  revert hv
  refine forall_called (P := fun j ℓ => ℓ.entries = some v → _ ∈ ℓ.held ∧ _) ?_
    (fun j hj hv => ?_) j
  · cases o with
    | acquire l =>
      intro hv
      exact (h.entries i v hv).imp_left (List.mem_cons_of_mem _)
    | release l =>
      intro hv
      by_cases hl : l = .registry
      · simp [hl] at hv
      · have := h.entries i v (by simpa [hl] using hv)
        refine ⟨?_, this.2⟩
        simpa [(h.nodup i).mem_erase_iff, Ne.symm hl] using this.1
    | entries =>
      intro hv
      obtain rfl : a = v := by simpa using hv
      exact ⟨ho, ha.symm⟩
    | pop identifier =>
      intro hv
      obtain ⟨v₀, hv₀, rfl⟩ : ∃ v₀, (ℓ i).entries = some v₀ ∧ Entries.erase v₀ identifier = v := by
        simpa using hv
      obtain ⟨hmem, rfl⟩ := h.entries i v₀ hv₀
      exact ⟨hmem, rfl⟩
    | clear =>
      intro hv
      obtain rfl : [] = v := by simpa using hv
      exact ⟨ho.1, rfl⟩
    | insert identifier entry =>
      intro hv
      obtain ⟨v₀, hv₀, rfl⟩ :
          ∃ v₀, (ℓ i).entries = some v₀ ∧ Entries.set v₀ identifier entry = v := by
        simpa using hv
      obtain ⟨hmem, rfl⟩ := h.entries i v₀ hv₀
      exact ⟨hmem, rfl⟩
    | setClaimed identifier claimed =>
      intro hv
      obtain ⟨v₀, hv₀, rfl⟩ :
          ∃ v₀, (ℓ i).entries = some v₀ ∧ Entries.setClaimed v₀ identifier claimed = v := by
        simpa using hv
      obtain ⟨hmem, rfl⟩ := h.entries i v₀ hv₀
      exact ⟨hmem, rfl⟩
    | _ => exact h.entries i v
  · obtain ⟨hmem, rfl⟩ := h.entries j v hv
    refine ⟨hmem, ?_⟩
    by_contra hne
    exact hj (h.exclusive hmem (hlocked hne))

/-- Admission stays open while a thread that found it open holds the lock. -/
theorem admitted_call (h : Sections s ℓ) (ho : (ℓ i).Allows o) (ha : s.answers i o a s') (j : ℕ)
    (hj : (called ℓ i o a j).admitted = true) :
    .submission ∈ (called ℓ i o a j).held ∧ s'.accepting = true := by
  obtain ⟨⟨oracle, ha⟩, -, rfl⟩ := ha
  revert hj
  cases o with
  | acquire l =>
    refine forall_called (P := fun j ℓ => ℓ.admitted = true → _ ∈ ℓ.held ∧ _) ?_
      (fun j _ => h.admitted j) j
    intro hadm
    exact (h.admitted i hadm).imp_left (List.mem_cons_of_mem _)
  | release l =>
    refine forall_called (P := fun j ℓ => ℓ.admitted = true → _ ∈ ℓ.held ∧ _) ?_
      (fun j _ => h.admitted j) j
    intro hadm
    by_cases hl : l = .submission
    · simp [hl] at hadm
    · have := h.admitted i (by simpa [hl] using hadm)
      refine ⟨?_, this.2⟩
      simpa [(h.nodup i).mem_erase_iff, Ne.symm hl] using this.1
  | accepting =>
    refine forall_called (P := fun j ℓ => ℓ.admitted = true → _ ∈ ℓ.held ∧ _) ?_
      (fun j _ => h.admitted j) j
    intro hadm
    obtain rfl : a = true := by simpa using hadm
    exact ⟨ho.1, ha.symm⟩
  | closeAdmission =>
    refine forall_called (P := fun j ℓ => ℓ.admitted = true → _ ∈ ℓ.held ∧ _) ?_
      (fun j hj hadm => ?_) j
    · intro hadm
      simp [ho.2.2.2] at hadm
    · exact absurd (h.exclusive (h.admitted j hadm).1 ho.1) hj
  | _ =>
    rw [called_frame Standing.admitted rfl, called_frame Standing.held rfl]
    exact h.admitted j

/-- Two threads that found admission open are one. -/
theorem admitted_exclusive (h : Sections s ℓ) (hi : (ℓ i).admitted = true)
    (hj : (ℓ j).admitted = true) : i = j :=
  h.exclusive (h.admitted i hi).1 (h.admitted j hj).1

/-- An entry that is there is the only one. -/
theorem entries_eq_of_mem (h : Sections s ℓ) {item : String × StagedArtifact}
    (hmem : item ∈ s.entries) : s.entries = [item] := by
  obtain ⟨l₁, l₂, hsplit⟩ := List.append_of_mem hmem
  have hone := h.single
  rw [hsplit, List.length_append, List.length_cons] at hone
  obtain rfl : l₁ = [] := List.length_eq_zero_iff.mp (by omega)
  obtain rfl : l₂ = [] := List.length_eq_zero_iff.mp (by omega)
  exact hsplit

/-- The registry as its reader knows it: the single entry that was looked up. -/
theorem entries_eq_of_lookup (h : Sections s ℓ) {v : Entries} {identifier : String}
    {entry : StagedArtifact} (hv : (ℓ i).entries = some v)
    (hlookup : v.lookup identifier = some entry) : s.entries = [(identifier, entry)] := by
  obtain ⟨-, rfl⟩ := h.entries i v hv
  exact h.entries_eq_of_mem (Entries.mem_of_lookup hlookup)

/-- Nobody else's call ends a claim or touches its entry. -/
theorem claim_other (h : Sections s ℓ) (ho : (ℓ i).Allows o) {c : Claim} (hij : j ≠ i)
    (hc : (ℓ j).claim = some c) : (s.next i o a).entries = s.entries := by
  obtain ⟨hadm, hentries, hclaimed⟩ := h.claim j c hc
  have hnot (hi : (ℓ i).admitted = true) : False := hij (h.admitted_exclusive hadm hi)
  cases o with
  | pop identifier =>
    obtain ⟨-, ⟨c', hc', -⟩ | ⟨-, v, entry, hv, hlookup, hun, -⟩⟩ := ho
    · exact (hnot (h.claim i c' hc').1).elim
    · have := hentries.symm.trans (h.entries_eq_of_lookup hv hlookup)
      simp only [List.cons.injEq, Prod.mk.injEq, and_true] at this
      simp [← this.2, hclaimed] at hun
  | clear =>
    obtain ⟨-, ⟨hadm', -⟩ | ⟨hrole, hphase⟩⟩ := ho
    · exact (hnot hadm').elim
    · obtain rfl := h.role_of_worker hrole
      have hopen := (h.admitted j hadm).2
      simp [h.closed (by simp [hphase, Phase.isClosed])] at hopen
  | insert identifier entry => exact (hnot ho.admitted).elim
  | setClaimed identifier claimed =>
    cases claimed with
    | true => exact (hnot ho.admitted).elim
    | false =>
      obtain ⟨-, c', hc', -⟩ := ho
      exact (hnot (h.claim i c' hc').1).elim
  | _ => rfl

theorem claim_call (h : Sections s ℓ) (ho : (ℓ i).Allows o) (ha : s.answers i o a s') (j : ℕ)
    (c : Claim) (hc : (called ℓ i o a j).claim = some c) :
    (called ℓ i o a j).admitted = true ∧ s'.entries = [(c.identifier, c.entry)] ∧
      c.entry.claimed = true := by
  obtain ⟨-, -, rfl⟩ := ha
  have hother : ∀ k, k ≠ i → (ℓ k).claim = some c → (s.next i o a).entries = s.entries :=
    fun k hk hc => h.claim_other ho hk hc
  revert hc
  refine forall_called (P := fun j ℓ => ℓ.claim = some c → ℓ.admitted = true ∧ _)
    ?_ (fun j hij hc => ?_) j
  · cases o with
    | release l =>
      intro hc
      have hl : l ≠ .submission := by
        rintro rfl
        simp [ho.2.1] at hc
      simpa [hl, Site.next] using h.claim i c hc
    | accepting =>
      intro hc
      simp [ho.2.1] at hc
    | putNowait operation =>
      intro hc
      by_cases ha : a = true
      · obtain ⟨c₀, hc₀, rfl⟩ :
            ∃ c₀, (ℓ i).claim = some c₀ ∧ { c₀ with sent := true } = c := by
          simpa [ha] using hc
        exact h.claim i c₀ hc₀
      · exact h.claim i c (by simpa [ha] using hc)
    | pop identifier =>
      intro hc
      obtain ⟨hc₀, hne⟩ : (ℓ i).claim = some c ∧ c.identifier ≠ identifier := by
        simpa [Option.filter_eq_some_iff] using hc
      obtain ⟨-, ⟨c', hc', hid, -⟩ | ⟨hnone, -⟩⟩ := ho
      · rw [hc₀] at hc'
        cases hc'
        exact (hne hid).elim
      · simp [hnone] at hc₀
    | clear =>
      intro hc
      have hc₀ : (ℓ i).claim = some c := hc
      obtain ⟨-, ⟨-, hnone, -⟩ | ⟨hrole, hphase⟩⟩ := ho
      · simp [hnone] at hc₀
      · obtain rfl := h.role_of_worker hrole
        have hopen := (h.admitted worker (h.claim worker c hc₀).1).2
        simp [h.closed (by simp [hphase, Phase.isClosed])] at hopen
    | insert identifier entry =>
      intro hc
      have hempty := (h.entries i [] ho.empty).2
      have hone := (h.claim i c hc).2.1
      simp [hempty] at hone
    | setClaimed identifier claimed =>
      cases claimed with
      | true =>
        intro hc
        obtain ⟨-, hadm, -, -, v, entry, now, hv, hlookup, -⟩ := ho
        obtain rfl : (⟨identifier, { entry with claimed := true }, (ℓ i).clock, false⟩ : Claim) =
          c := by
          simpa [hv, hlookup] using hc
        refine ⟨hadm, ?_, rfl⟩
        simp [Site.next, h.entries_eq_of_lookup hv hlookup, Entries.setClaimed]
      | false =>
        intro hc
        simp at hc
    | _ => exact h.claim i c
  · rw [hother j hij hc]
    exact h.claim j c hc

theorem single_call (h : Sections s ℓ) (ho : (ℓ i).Allows o) (ha : s.answers i o a s') :
    s'.entries.length ≤ 1 := by
  obtain ⟨-, -, rfl⟩ := ha
  cases o with
  | pop identifier => exact (List.length_filter_le _ _).trans h.single
  | clear => exact Nat.zero_le 1
  | insert identifier entry =>
    have hempty := (h.entries i [] ho.empty).2
    simp [Site.next, hempty, Entries.set]
  | setClaimed identifier claimed => simpa [Site.next, Entries.setClaimed] using h.single
  | _ => exact h.single

/-! ## The phases -/

/-- A request has no job, and its phase stays what it is. -/
theorem request_call (h : Sections s ℓ) (ho : (ℓ i).Allows o) (j : ℕ) (hj : j ≠ worker) :
    (called ℓ i o a j).phase = .booting ∧ (called ℓ i o a j).job = .none := by
  revert hj
  refine forall_called (P := fun j ℓ => j ≠ worker → ℓ.phase = .booting ∧ ℓ.job = .none) ?_
    (fun j _ => h.request j) j
  intro hi
  obtain ⟨hphase, hjob⟩ := h.request i hi
  have hrole (hr : (ℓ i).role = .worker) : False := hi (h.role_of_worker hr)
  cases o with
  | closeAdmission => exact (hrole ho.2.1).elim
  | get => exact (hrole ho.1).elim
  | getNowait => exact (hrole ho.1).elim
  | startServer => exact (hrole ho.1).elim
  | clear => simp [hphase, hjob]
  | update u now => simp [hphase, hjob]
  | unlink path => simp [hphase, hjob]
  | _ => exact ⟨hphase, hjob⟩

theorem closed_call (h : Sections s ℓ) (ho : (ℓ i).Allows o) (ha : s.answers i o a s')
    (hc : (called ℓ i o a worker).phase.isClosed = true) : s'.accepting = false := by
  obtain ⟨-, -, rfl⟩ := ha
  revert hc
  refine forall_called (P := fun j ℓ => j = worker → ℓ.phase.isClosed = true → _ = false) ?_ ?_
    worker rfl
  · rintro rfl
    cases o with
    | closeAdmission => exact fun _ => rfl
    | getNowait =>
      intro hc
      refine h.closed ?_
      simp [ho.2.2.1, Phase.isClosed]
    | clear =>
      intro hc
      refine h.closed ?_
      revert hc
      change ((ℓ worker).phase.clear).isClosed = true → _
      cases (ℓ worker).phase <;> simp [Phase.isClosed]
    | startServer =>
      intro hc
      cases a <;> simp [ho.2, Phase.isClosed] at hc
    | _ => exact h.closed
  · rintro j hij rfl hc
    have := h.closed hc
    cases o with
    | closeAdmission => rfl
    | _ => exact this

theorem booting_call (h : Sections s ℓ) (ho : (ℓ i).Allows o) (ha : s.answers i o a s')
    (hb : (called ℓ i o a worker).phase = .booting) : s'.serving = false := by
  obtain ⟨-, -, rfl⟩ := ha
  revert hb
  refine forall_called (P := fun j ℓ => j = worker → ℓ.phase = .booting → _ = false) ?_ ?_
    worker rfl
  · rintro rfl
    cases o with
    | closeAdmission =>
      intro hb
      have hne := ho.2.2.1
      change (ℓ worker).phase.close = .booting at hb
      cases hp : (ℓ worker).phase <;> simp [hp] at hb hne
    | getNowait =>
      intro hb
      have hp := ho.2.2.1
      cases (a : Option FlashOperation) <;> simp [hp] at hb
    | clear =>
      intro hb
      refine h.booting ?_
      change (ℓ worker).phase.clear = .booting at hb
      cases hp : (ℓ worker).phase <;> simp [hp] at hb ⊢
    | startServer =>
      intro hb
      cases (a : Except Exn Unit) with
      | ok u => simp at hb
      | error e => exact h.booting ho.2
    | _ => exact h.booting
  · rintro j hij rfl hb
    cases o with
    | startServer => exact (hij (h.role_of_worker ho.1).symm).elim
    | _ => exact h.booting hb

theorem unserved_call (h : Sections s ℓ) (ho : (ℓ i).Allows o) (ha : s.answers i o a s')
    (hserving : s'.serving = false) : s'.queue = [] ∧ s'.entries = [] ∧ s'.files = [] ∧
      ∀ j task, (called ℓ i o a j).role ≠ .request task := by
  obtain ⟨-, -, rfl⟩ := ha
  have hwas : s.serving = false := by
    cases o with
    | startServer => exact (Bool.or_eq_false_iff.mp hserving).2
    | _ => exact hserving
  obtain ⟨hqueue, hentries, hfiles, hroles⟩ := h.unserved hwas
  have hroles' : ∀ j task, (called ℓ i o a j).role ≠ .request task := by
    intro j
    rw [called_frame Standing.role (by cases o <;> rfl)]
    exact hroles j
  cases o with
  | putNowait operation =>
    obtain ⟨_, hrole, -⟩ := ho.consents
    exact (hroles i _ hrole).elim
  | insert identifier entry =>
    obtain ⟨_, hrole⟩ := ho.role
    exact (hroles i _ hrole).elim
  | mkstemp =>
    obtain ⟨-, _, hrole⟩ := ho
    exact (hroles i _ hrole).elim
  | get => exact ⟨by simp [Site.next, hqueue], hentries, hfiles, hroles'⟩
  | getNowait => exact ⟨by simp [Site.next, hqueue], hentries, hfiles, hroles'⟩
  | pop identifier =>
    exact ⟨hqueue, by simp [Site.next, hentries, Entries.erase], hfiles, hroles'⟩
  | clear => exact ⟨hqueue, rfl, hfiles, hroles'⟩
  | setClaimed identifier claimed =>
    exact ⟨hqueue, by simp [Site.next, hentries, Entries.setClaimed], hfiles, hroles'⟩
  | unlink path => exact ⟨hqueue, hentries, by simp [Site.next, hfiles], hroles'⟩
  | _ => exact ⟨hqueue, hentries, hfiles, hroles'⟩

/-! ## Steps -/

theorem call (h : Sections s ℓ) (ho : (ℓ i).Allows o) (ha : s.answers i o a s') :
    Sections s' (called ℓ i o a) where
  held := h.held_call ho ha
  nodup := h.nodup_call ha
  role := h.role_call
  fields := h.fields_call ho ha
  entries := h.entries_call ho ha
  admitted := h.admitted_call ho ha
  claim := h.claim_call ho ha
  single := h.single_call ho ha
  request := h.request_call ho
  closed := h.closed_call ho ha
  booting := h.booting_call ho ha
  unserved := h.unserved_call ho ha

/-- A thread that is started stands as an idle one does, but for its role. -/
theorem started_frame {β : Type} (f : Standing → β) {task : Task} (hidle : ℓ i = .idle)
    (h : f (.born task) = f .idle) (j : ℕ) :
    f (Function.update ℓ i (.born task) j) = f (ℓ j) := by
  by_cases hij : j = i
  · subst hij
    rw [Function.update_self, hidle, h]
  · rw [Function.update_of_ne hij]

theorem ne_worker (h : Sections s ℓ) (hidle : ℓ i = .idle) : i ≠ worker := by
  intro hi
  have := (h.role i).mpr hi
  rw [hidle] at this
  cases this

theorem start (h : Sections s ℓ) (hidle : ℓ i = .idle) (hserving : s.serving = true) (task : Task) :
    Sections s (Function.update ℓ i (.born task)) := by
  have hi := h.ne_worker hidle
  have hworker : Function.update ℓ i (.born task) worker = ℓ worker :=
    Function.update_of_ne (Ne.symm hi) _ _
  constructor
  · intro j lock
    rw [started_frame Standing.held hidle rfl]
    exact h.held j lock
  · intro j
    rw [started_frame Standing.held hidle rfl]
    exact h.nodup j
  · intro j
    by_cases hij : j = i
    · subst hij
      simp [hi, Standing.born, Standing.rest]
    · rw [Function.update_of_ne hij]
      exact h.role j
  · intro j c
    rw [started_frame Standing.fields hidle rfl, started_frame Standing.held hidle rfl]
    exact h.fields j c
  · intro j v
    rw [started_frame Standing.entries hidle rfl, started_frame Standing.held hidle rfl]
    exact h.entries j v
  · intro j
    rw [started_frame Standing.admitted hidle rfl, started_frame Standing.held hidle rfl]
    exact h.admitted j
  · intro j c
    rw [started_frame Standing.claim hidle rfl, started_frame Standing.admitted hidle rfl]
    exact h.claim j c
  · exact h.single
  · intro j
    rw [started_frame Standing.phase hidle rfl, started_frame Standing.job hidle rfl]
    exact h.request j
  · rw [hworker]
    exact h.closed
  · rw [hworker]
    exact h.booting
  · intro hnot
    simp [hserving] at hnot

/-- A signal does not concern the sections. -/
theorem stop (h : Sections s ℓ) : Sections { s with stopping := true } ℓ where
  held := h.held
  nodup := h.nodup
  role := h.role
  fields := h.fields
  entries := h.entries
  admitted := h.admitted
  claim := h.claim
  single := h.single
  request := h.request
  closed := h.closed
  booting := h.booting
  unserved := h.unserved

end Sections

/-- The worker before its server is started, and nobody else. -/
def boarding (i : ℕ) : Standing := if i = worker then working .none .booting else .idle

@[simp] theorem boarding_worker : boarding worker = working .none .booting := if_pos rfl

/-- What nobody has who has not begun. -/
theorem boarding_frame {β : Type} (f : Standing → β) {b : β}
    (hworker : f (working .none .booting) = b)
    (hidle : f .idle = b) (i : ℕ) : f (boarding i) = b := by
  unfold boarding
  split_ifs
  · exact hworker
  · exact hidle

theorem Sections.initial : Sections .initial boarding where
  held i lock := by
    rw [boarding_frame (b := []) Standing.held rfl rfl]
    simp [Site.initial]
  nodup i := by
    rw [boarding_frame Standing.held rfl rfl]
    exact List.nodup_nil
  role i := by
    unfold boarding
    split_ifs with hi
    · simp [hi, working, Standing.rest]
    · simp [hi, Standing.idle, Standing.rest]
  fields i c h := by
    rw [boarding_frame Standing.fields rfl rfl] at h
    cases h
  entries i v h := by
    rw [boarding_frame Standing.entries rfl rfl] at h
    cases h
  admitted i h := by
    rw [boarding_frame Standing.admitted rfl rfl] at h
    cases h
  claim i c h := by
    rw [boarding_frame Standing.claim rfl rfl] at h
    cases h
  single := Nat.zero_le 1
  request i _ :=
    ⟨boarding_frame Standing.phase rfl rfl i, boarding_frame Standing.job rfl rfl i⟩
  closed h := by simp [working, Standing.rest, Phase.isClosed] at h
  booting _ := rfl
  unserved _ := by
    refine ⟨rfl, rfl, rfl, fun i task => ?_⟩
    unfold boarding
    split_ifs
    · simp [working, Standing.rest]
    · simp [Standing.idle, Standing.rest]

end Cul868Flasher
