import Cul868Flasher.Ingress.Refusal

/-!
# What a failed request leaves behind

Nothing of its own: the steps of a `flash` or `validate_upload` that raises change
neither the snapshot nor the queue, its claim is undone and its upload deleted.
What is claimed after the failure is claimed by another request.
-/

namespace Cul868Flasher
open Python Effects

variable {i j : ℕ} {s s' : Site} {ℓ : ℕ → Standing} {o : App.Op} {a : App.Ans o}
  {fuel : ℕ} {settings : Settings} {t u v : List (Act App Task Signal)} {c : System App Exn Site}
  {task : Task} {e : Exn} {m : Act App Task Signal}

/-! ## Claimed entries -/

/-- Whatever is claimed in the registry is some thread's claim. -/
def Claimants (s : Site) (ℓ : ℕ → Standing) : Prop :=
  ∀ item ∈ s.entries, item.2.claimed = true → ∃ j c, (ℓ j).claim = some c

namespace Claimants

/-- A call that claims nothing and ends no claim. -/
theorem apart (h : Claimants s ℓ) (hentries : s'.entries = s.entries)
    (hclaim : ((ℓ i).after o a).claim.isSome = (ℓ i).claim.isSome) :
    Claimants s' (called ℓ i o a) := by
  intro item hitem hclaimed
  rw [hentries] at hitem
  obtain ⟨j, c, hj⟩ := h item hitem hclaimed
  have hframe := called_frame (fun ℓ => ℓ.claim.isSome) hclaim j
  simp only [hj, Option.isSome_some] at hframe
  exact ⟨j, Option.isSome_iff_exists.mp hframe⟩

theorem call (h : Claimants s ℓ) (hs : Sections s ℓ) (ho : (ℓ i).Allows o)
    (ha : s.answers i o a s') :
    Claimants s' (called ℓ i o a) := by
  obtain ⟨-, -, rfl⟩ := ha
  cases o with
  | insert identifier entry =>
    intro item hitem hclaimed
    have hempty := (hs.entries i [] ho.empty).2
    obtain rfl : item = (identifier, entry) := by
      simpa [Site.next, hempty, Entries.set] using hitem
    rw [ho.unclaimed] at hclaimed
    cases hclaimed
  | clear => exact fun item hitem _ => by cases hitem
  | pop identifier =>
    intro item hitem
    change item ∈ s.entries.erase identifier at hitem
    rw [Provenance.erase_eq_nil hs ho] at hitem
    cases hitem
  | setClaimed identifier claimed =>
    cases claimed with
    | true =>
      intro item _ _
      obtain ⟨-, -, -, -, v, entry, now, hv, hlookup, -⟩ := ho
      refine ⟨i, ⟨identifier, { entry with claimed := true }, (ℓ i).clock, false⟩, ?_⟩
      rw [called_self]
      simp [hv, hlookup]
    | false =>
      intro item hitem hclaimed
      obtain ⟨-, c, hc, rfl, -⟩ := ho
      obtain ⟨-, hentries, -⟩ := hs.claim i c hc
      obtain rfl : item = (c.identifier, { c.entry with claimed := false }) := by
        simpa [Site.next, hentries, Entries.setClaimed] using hitem
      cases hclaimed
  | putNowait operation =>
    refine h.apart rfl ?_
    change (if a then (ℓ i).claim.map fun c => { c with sent := true } else (ℓ i).claim).isSome = _
    split_ifs <;> simp
  | _ => exact h.apart rfl rfl

theorem start (h : Claimants s ℓ) (hidle : ℓ i = .idle) (task : Task) :
    Claimants s (Function.update ℓ i (.born task)) := by
  intro item hitem hclaimed
  obtain ⟨j, c, hj⟩ := h item hitem hclaimed
  exact ⟨j, c, by rwa [Sections.started_frame Standing.claim hidle rfl]⟩

end Claimants

theorem claimants_kept (fuel : ℕ) (settings : Settings) :
    Described.Kept discipline .idle Rested (fun _ s ℓ => Orderly s ℓ ∧ Claimants s ℓ)
      (addon fuel settings) Standing.born :=
  (orderly_kept fuel settings).extend
    (fun _ _ _ _ _ _ _ hk h ho _ ha => h.call hk.sections ho ha)
    (fun _ _ _ _ task _ h hidle _ => h.start hidle task)
    (by
      rintro _ _ _ n _ - h hmove
      cases n with
      | requestStop =>
        obtain rfl := hmove
        exact h)

theorem reached_claimants (h : Reached fuel settings t c) : Claimants c.store (standings t) :=
  (reached_described (claimants_kept fuel settings)
    ⟨.initial, fun _ hitem _ => by cases hitem⟩ h).holds.2

/-- An entry is claimed while the flash of it is in its submission. -/
theorem claimed_by (h : Reached fuel settings t c) {item : String × StagedArtifact}
    (hitem : item ∈ c.store.entries) (hclaimed : item.2.claimed = true) :
    ∃ j confirmUnpairedRecovery, ¬Over c j ∧ c.store.locks .submission = some j ∧
      .start j (.flash (.str item.1) (.bool true) confirmUnpairedRecovery) ∈ t ∧
      ClaimedAs t j item.1 item.2 := by
  have horder := (reached_orderly h).sections
  obtain ⟨j, claim, hj⟩ := reached_claimants h item hitem hclaimed
  obtain ⟨hadm, hentries, -⟩ := horder.claim j claim hj
  obtain rfl : item = (claim.identifier, claim.entry) := by
    rw [hentries] at hitem
    exact List.mem_singleton.mp hitem
  have hclaim := (reached_provenance h).claims j claim hj
  obtain ⟨u, w, now, rfl, -⟩ := hclaim
  obtain ⟨c₁, -, hreach, hmay, -⟩ := reached_allows h
  obtain ⟨cur, hrole⟩ := hmay.role
  refine ⟨j, cur, fun hover => ?_, (horder.held j _).mp (horder.admitted j hadm).1,
    List.mem_append_left _ ((reached_provenance hreach).started j _ hrole),
    (reached_provenance h).claims j claim hj⟩
  rw [(hover.rested h).claim] at hj
  cases hj

/-! ## The calls of one thread -/

/-- What a thread has and no longer has was given up by one of its calls. -/
theorem reached_lost {P : Standing → Prop} (h : Reached fuel settings (u ++ v) c) (hidle : ¬P .idle)
    (hhas : P (standings u i)) (hlost : ¬P (standings (u ++ v) i)) :
    ∃ v₁ o a v₂, v = v₁ ++ .call i ⟨o, a⟩ :: v₂ ∧ P (standings (u ++ v₁) i) ∧
      (standings (u ++ v₁) i).Allows o ∧ ¬P ((standings (u ++ v₁) i).after o a) := by
  induction v using List.reverseRecOn generalizing c with
  | nil => exact absurd (by simpa using hhas) hlost
  | append_singleton w m ih =>
    rw [← List.append_assoc] at h hlost
    obtain ⟨c₁, c₂, hreach, hstep⟩ := h.split
    by_cases hkept : P (standings (u ++ w) i)
    · -- the last step is the one
      cases m with
      | move n => exact absurd (by rwa [standings_move]) hlost
      | start j task =>
        rw [standings_start] at hlost
        by_cases hj : j = i
        · subst hj
          have hd := reached_described (orderly_kept fuel settings) .initial hreach
          rw [hd.unstarted j hstep.start_inv.1] at hkept
          exact absurd hkept hidle
        · rw [Function.update_of_ne (Ne.symm hj)] at hlost
          exact absurd hkept hlost
      | call j e =>
        rw [standings_call] at hlost
        by_cases hj : j = i
        · subst hj
          rw [called_self] at hlost
          obtain ⟨-, -, -, hallow, -⟩ := reached_allows (v := []) h
          exact ⟨w, e.op, e.ans, [], rfl, hkept, hallow, hlost⟩
        · rw [called_ne (Ne.symm hj)] at hlost
          exact absurd hkept hlost
    · obtain ⟨v₁, o, a, v₂, rfl, hbefore, hallow, hafter⟩ := ih hreach hkept
      exact ⟨v₁, o, a, v₂ ++ [m], by simp, hbefore, hallow, hafter⟩

/-- The calls of a request that has failed have submitted and staged nothing. -/
theorem spares_of_raised (h : Reached fuel settings t c) (hstart : .start i task ∈ t)
    (htask : task.Mutates) (hraised : c.threads i = some (.raise e)) :
    ∀ event, .call i event ∈ t → spares event.op event.ans = true := by
  intro event hevent
  have hrun := h.run_of_start hstart hraised (.raised e)
  rw [List.append_nil] at hrun
  exact (htask.careful fuel settings).run hrun event (mem_callsOf.mpr hevent)

/-- Without a submission no claim is sent. -/
theorem unsent_of_spares (hspares : ∀ event, .call i event ∈ t → spares event.op event.ans = true)
    (claim : Claim) (hclaim : (standings t i).claim = some claim) : claim.sent = false := by
  revert claim hspares
  refine standings_induction (P := fun t ℓ =>
    (∀ event : Event App, .call i event ∈ t → spares event.op event.ans = true) →
      ∀ claim : Claim, ℓ.claim = some claim → claim.sent = false) ?_ ?_ ?_
    fun t m hold hspares => hold fun event hmem => hspares event (List.mem_append_left _ hmem)
  · intro _ claim hclaim
    rw [boarding_frame Standing.claim rfl rfl] at hclaim
    cases hclaim
  · intro t o a hold hspares claim hclaim
    replace hold := hold fun event hmem => hspares event (List.mem_append_left _ hmem)
    have hspare := hspares ⟨o, a⟩ (by simp)
    cases o with
    | putNowait operation =>
      have hput : a = false := by simpa [spares] using hspare
      subst hput
      exact hold claim hclaim
    | setClaimed identifier claimed =>
      cases claimed with
      | true =>
        simp only [Standing.after, Standing.afterCall, Standing.claimEntry, if_true,
          Option.map_eq_some_iff] at hclaim
        obtain ⟨entry, -, rfl⟩ := hclaim
        rfl
      | false => cases hclaim
    | pop identifier =>
      have hfilter : (standings t i).claim.filter (fun c => c.identifier ≠ identifier) =
          some claim := hclaim
      exact hold claim (Option.filter_eq_some_iff.mp hfilter).1
    | _ => exact hold claim hclaim
  · intro t task _ claim hclaim
    cases hclaim

/-! ## What is undone -/

/-- What a call has given the thread of a failed request, another of its calls has
ended. -/
theorem ended {P : Standing → Prop} (h : Reached fuel settings (u ++ .call i ⟨o, a⟩ :: v) c)
    (hover : Over c i) (hspares : ∀ event, .call i event ∈ u ++ .call i ⟨o, a⟩ :: v →
      spares event.op event.ans = true)
    (hidle : ¬P .idle) (hhas : P ((standings u i).after o a)) (hrest : ∀ ℓ, Rested ℓ → ¬P ℓ) :
    ∃ w o' a', .call i ⟨o', a'⟩ ∈ v ∧ P (standings w i) ∧ (standings w i).Allows o' ∧
      ¬P ((standings w i).after o' a') ∧ spares o' a' = true ∧
      ∀ claim, (standings w i).claim = some claim → claim.sent = false := by
  have hrested := hover.rested h
  rw [List.append_cons] at h hspares hrested
  have hhas' : P (standings (u ++ [.call i ⟨o, a⟩]) i) := by rwa [standings_call, called_self]
  obtain ⟨v₁, o', a', v₂, rfl, hbefore, hallow, hafter⟩ :=
    reached_lost h hidle hhas' (hrest _ hrested)
  refine ⟨_, o', a', by simp, hbefore, hallow, hafter, hspares ⟨o', a'⟩ (by simp), ?_⟩
  intro claim hclaim
  refine unsent_of_spares (fun event hmem => hspares event ?_) claim hclaim
  rw [← List.append_assoc]
  exact List.mem_append_left _ hmem

/-- The claim of a failed request is released by it. -/
theorem claim_released {identifier : String}
    (h : Reached fuel settings (u ++ .call i ⟨.setClaimed identifier true, ()⟩ :: v) c)
    (hover : Over c i) (hspares : ∀ event,
      .call i event ∈ u ++ .call i ⟨.setClaimed identifier true, ()⟩ :: v →
        spares event.op event.ans = true) :
    .call i ⟨.setClaimed identifier false, ()⟩ ∈ v := by
  obtain ⟨c₁, -, hreach, hmay, -⟩ := reached_allows h
  obtain ⟨-, -, -, -, view, entry, now, hview, hlookup, -⟩ := hmay
  obtain ⟨w, o, a, hmem, ⟨claim, hclaim, hid⟩, hallow, hlost, hspare, hunsent⟩ :=
    ended h hover hspares (P := fun ℓ => ∃ c, ℓ.claim = some c ∧ c.identifier = identifier)
      (by rintro ⟨c, hc, -⟩; cases hc)
      ⟨⟨identifier, { entry with claimed := true }, (standings u i).clock, false⟩,
        by simp [hview, hlookup], rfl⟩
      (by
        rintro ℓ hrest ⟨c, hc, -⟩
        rw [hrest.claim] at hc
        cases hc)
  cases o with
  | setClaimed identifier' claimed =>
    cases claimed with
    | true =>
      have hnone := hallow.single
      rw [hclaim] at hnone
      cases hnone
    | false =>
      obtain ⟨-, claim', hclaim', rfl, -⟩ := hallow
      rw [hclaim] at hclaim'
      cases hclaim'
      rwa [← hid]
  | pop identifier' =>
    obtain ⟨-, ⟨claim', hclaim', -, hsent⟩ | ⟨hnone, -⟩⟩ := hallow
    · rw [hunsent claim' hclaim'] at hsent
      cases hsent
    · rw [hclaim] at hnone
      cases hnone
  | putNowait operation =>
    have hput : a = false := by simpa [spares] using hspare
    subst hput
    exact absurd ⟨claim, hclaim, hid⟩ hlost
  | _ => exact absurd ⟨claim, hclaim, hid⟩ hlost

/-- The upload of a failed request is deleted by it. -/
theorem upload_deleted {path : Path}
    (h : Reached fuel settings (u ++ .call i ⟨.mkstemp, (.ok path : Except Exn Path)⟩ :: v) c)
    (hover : Over c i) (hspares : ∀ event,
      .call i event ∈ u ++ .call i ⟨.mkstemp, (.ok path : Except Exn Path)⟩ :: v →
        spares event.op event.ans = true) :
    .call i ⟨.unlink path, ()⟩ ∈ v := by
  obtain ⟨w, o, a, hmem, hupload, hallow, hlost, hspare, -⟩ :=
    ended h hover hspares (P := fun ℓ => ℓ.upload = some path) (by rintro ⟨⟩)
      (by simp [resultOf])
      (by
        intro ℓ hrest hupload
        rw [hrest.upload] at hupload
        cases hupload)
  cases o with
  | mkstemp =>
    have hnone := hallow.1
    rw [hupload] at hnone
    cases hnone
  | insert identifier entry => cases hspare
  | unlink path' =>
    by_cases hpath : path = path'
    · rwa [hpath]
    · refine absurd ?_ hlost
      simpa [hupload] using hpath
  | _ => exact absurd hupload hlost

/-! ## The steps of a failed request -/

/-- What a step of thread `i` may do to the registry between `u` and `v`: nothing,
the removal of an entry that has expired, a claim that it releases later, or the
release of its claim. -/
inductive Harmless (i : ℕ) (u v : List (Act App Task Signal)) : Entries → Entries → Prop where
  | same (entries : Entries) : Harmless i u v entries entries
  | expired {identifier : String} {entry : StagedArtifact} {now : ℚ} :
      entry.claimed = false → (standings u i).clock = some now → entry.expiresAt ≤ now →
      Harmless i u v [(identifier, entry)] []
  | claimed {identifier : String} {entry : StagedArtifact} :
      entry.claimed = false → .call i ⟨.setClaimed identifier false, ()⟩ ∈ v →
      Harmless i u v [(identifier, entry)] [(identifier, { entry with claimed := true })]
  | released {identifier : String} {entry : StagedArtifact} :
      ClaimedAs u i identifier entry →
      Harmless i u v [(identifier, entry)] [(identifier, { entry with claimed := false })]

theorem step_harmless (h : Reached fuel settings (u ++ .call i ⟨o, a⟩ :: v) c) (hover : Over c i)
    (hspares : ∀ event, .call i event ∈ u ++ .call i ⟨o, a⟩ :: v → spares event.op event.ans = true)
    (hi : i ≠ worker) {c₁ : System App Exn Site} (h₁ : Reached fuel settings u c₁)
    (ha : c₁.store.answers i o a s') :
    s'.controller = c₁.store.controller ∧ s'.queue = c₁.store.queue ∧
      Harmless i u v c₁.store.entries s'.entries := by
  obtain ⟨-, -, hreach, hallow, -⟩ := reached_allows h
  have hs := (reached_orderly h₁).sections
  have hspare := hspares ⟨o, a⟩ (by simp)
  obtain ⟨-, -, rfl⟩ := ha
  cases o with
  | update u' now => cases hspare
  | clear => cases hspare
  | insert identifier entry => cases hspare
  | get => exact absurd (hs.role_of_worker hallow.1) hi
  | getNowait => exact absurd (hs.role_of_worker hallow.1) hi
  | putNowait operation =>
    have hput : a = false := by simpa [spares] using hspare
    subst hput
    exact ⟨rfl, by simp [Site.next], .same _⟩
  | pop identifier =>
    refine ⟨rfl, rfl, ?_⟩
    obtain ⟨-, hcase⟩ := hallow
    obtain ⟨claim, hclaim, -, hsent⟩ |
      ⟨-, view, entry, hview, hlookup, hun, now, hclock, hexpired⟩ := hcase
    · have hunsent := unsent_of_spares
        (fun event hmem => hspares event (List.mem_append_left _ hmem)) claim hclaim
      rw [hunsent] at hsent
      cases hsent
    · have hentries := hs.entries_eq_of_lookup hview hlookup
      have herased : c₁.store.entries.erase identifier = [] := by simp [hentries, Entries.erase]
      simp only [Site.next, herased]
      rw [hentries]
      exact .expired hun hclock hexpired
  | setClaimed identifier claimed =>
    refine ⟨rfl, rfl, ?_⟩
    cases claimed with
    | true =>
      obtain ⟨-, -, -, -, view, entry, now, hview, hlookup, hun, -⟩ := hallow
      have hentries := hs.entries_eq_of_lookup hview hlookup
      simp only [Site.next, hentries, Entries.setClaimed, List.map_cons, List.map_nil, if_true]
      exact .claimed hun (claim_released h hover hspares)
    | false =>
      obtain ⟨-, claim, hclaim, rfl, -⟩ := hallow
      have hentries := (hs.claim i claim hclaim).2.1
      simp only [Site.next, hentries, Entries.setClaimed, List.map_cons, List.map_nil, if_true]
      exact .released ((reached_provenance h₁).claims i claim hclaim)
  | _ => exact ⟨rfl, rfl, .same _⟩

end Cul868Flasher
