import Cul868Flasher.Ingress.Conduct.Controller

/-!
# The registry's methods keep the discipline

The registry holds one entry at most, so each method looks at an empty registry
or at a single entry.
-/

namespace Cul868Flasher
open Python Effects

variable {α β : Type} {ℓ : Standing} {Q : α → Standing → Prop} {E : Exn → Standing → Prop}

namespace ArtifactRegistry

/-- Nothing is left over from a section under the registry's lock. -/
structure Off (ℓ : Standing) : Prop where
  entries : ℓ.entries = none
  clock : ℓ.clock = none
  removed : ℓ.removed = []
  token : ℓ.token = none
  job : ℓ.job = .none

/-- What a section leaves behind once the lock is given back. -/
theorem Off.released (h : Off ℓ) {ℓ' : Standing} (entries : Option Entries) (clock : Option ℚ)
    (claim : Option Claim) (upload : Option Path) (removed : List Path) (phase : Phase)
    (hℓ : ℓ' = { ℓ with
      held := .registry :: ℓ.held, entries, clock, claim, upload, removed, phase })
    (hmay : removed = [] ∨ ℓ.admitted = true ∨ phase = .cleared) :
    (.registry ∈ ℓ'.held ∧ ℓ'.MayRelease .registry) ∧
      ℓ'.after (.release .registry) () = { ℓ with claim, upload, removed, phase } := by
  obtain ⟨he, hc, _, _, _⟩ := h
  subst hℓ
  refine ⟨⟨by simp, hmay⟩, ?_⟩
  simp [← he, ← hc]

/-- Every unclaimed entry was found unexpired at the clock reading. -/
def Unexpired (entries : Entries) (clock : Option ℚ) : Prop :=
  ∀ item ∈ entries, item.2.claimed = false → ∃ now, clock = some now ∧ now < item.2.expiresAt

theorem conduct_isExpired (hlock : .registry ∈ ℓ.held) (entry : StagedArtifact) :
    Follows discipline
      (fun expired ℓ' => ∃ clock, ℓ' = { ℓ with clock } ∧
        (expired = true → entry.claimed = false ∧ ∃ now, clock = some now ∧ entry.expiresAt ≤ now) ∧
        (expired = false → entry.claimed = false →
          ∃ now, clock = some now ∧ now < entry.expiresAt))
      (fun _ _ => False) (isExpired entry) ℓ := by
  unfold isExpired
  cases hc : entry.claimed with
  | true => exact Follows.ret ⟨ℓ.clock, rfl, by simp, by simp⟩
  | false =>
    refine conduct_call hlock fun (now : ℚ) _ => Follows.ret ⟨some now, by simp, ?_, ?_⟩
    · intro hexpired
      exact ⟨rfl, now, rfl, by simpa using hexpired⟩
    · intro hexpired _
      exact ⟨now, rfl, by simpa using hexpired⟩

/-- The expired entry of the registry is taken out and its file deleted. -/
theorem conduct_removeOne (hlock : .registry ∈ ℓ.held) (hclaim : ℓ.claim = none)
    (hremoved : ℓ.removed = []) (hjob : ℓ.job = .none) {identifier : String}
    {entry : StagedArtifact} (hentries : ℓ.entries = some [(identifier, entry)])
    (hunclaimed : entry.claimed = false)
    (hexpired : ∃ now, ℓ.clock = some now ∧ entry.expiresAt ≤ now) :
    Follows discipline (fun _ ℓ' => ℓ' = { ℓ with entries := some [] }) (fun _ _ => False)
      (removeAll [identifier]) ℓ := by
  have hpop : ℓ.MayPop identifier :=
    ⟨hlock, .inr ⟨hclaim, _, entry, hentries, by simp, hunclaimed, hexpired⟩⟩
  refine conduct_call hpop fun (popped : Option StagedArtifact) hpopped => ?_
  obtain rfl : popped = some entry := by simpa using hpopped.seen _ hentries
  have hother : ℓ.upload ≠ some entry.image.path := hpopped.other entry rfl hunclaimed
  refine conduct_call ?_ fun _ _ => Follows.ret ?_
  · simp [hunclaimed]
  · simp [hunclaimed, hremoved, hjob, hentries, hclaim, hother, Entries.erase]

theorem conduct_removeExpired (hlock : .registry ∈ ℓ.held) (hclaim : ℓ.claim = none)
    (hremoved : ℓ.removed = []) (hjob : ℓ.job = .none) :
    Follows discipline
      (fun _ ℓ' => ∃ entries clock, ℓ' = { ℓ with entries := some entries, clock } ∧
        Unexpired entries clock)
      (fun _ _ => False) removeExpiredLocked ℓ := by
  refine conduct_call hlock fun (entries : Entries) hentries => ?_
  match entries, hentries.single with
  | [], _ => exact Follows.ret ⟨[], ℓ.clock, by simp, by simp [Unexpired]⟩
  | [(identifier, entry)], _ =>
    refine Follows.bind (R := fun expired ℓ' => ∃ clock,
      ℓ' = { ℓ with entries := some [(identifier, entry)], clock } ∧
        ((expired = [identifier] ∧ entry.claimed = false ∧
            ∃ now, clock = some now ∧ entry.expiresAt ≤ now) ∨
          expired = [] ∧ (entry.claimed = false →
            ∃ now, clock = some now ∧ now < entry.expiresAt))) ?_ ?_
    · refine (conduct_isExpired (by simpa using hlock) entry).bind ?_
      rintro expired _ ⟨clock, rfl, hyes, hno⟩
      refine Follows.ret ⟨clock, by simp, ?_⟩
      cases expired with
      | true => exact .inl ⟨rfl, hyes rfl⟩
      | false => exact .inr ⟨rfl, hno rfl⟩
    · rintro _ _ ⟨clock, rfl, ⟨rfl, hunclaimed, hexpired⟩ | ⟨rfl, hfresh⟩⟩
      · refine (conduct_removeOne (ℓ := { ℓ with entries := some [(identifier, entry)], clock })
          hlock hclaim hremoved hjob rfl hunclaimed hexpired).conseq ?_ fun _ _ h => h
        rintro _ _ rfl
        exact ⟨[], clock, rfl, by simp [Unexpired]⟩
      · refine Follows.ret ⟨_, clock, rfl, ?_⟩
        intro item hitem
        obtain rfl : item = (identifier, entry) := by simpa using hitem
        exact hfresh

theorem conduct_expire (h : Off ℓ) (hclaim : ℓ.claim = none) :
    Follows discipline (fun _ ℓ' => ℓ' = ℓ) (fun _ _ => False) expire ℓ := by
  refine conduct_withLock ((conduct_removeExpired (by simp) (by simpa using hclaim)
    (by simpa using h.removed) (by simpa using h.job)).conseq ?_ fun _ _ h => h.elim)
  rintro _ _ ⟨entries, clock, rfl, _⟩
  have hend := h.released (some entries) clock ℓ.claim ℓ.upload ℓ.removed ℓ.phase rfl
    (.inl h.removed)
  exact ⟨hend.1, hend.2⟩

/-! ## Staging -/

/-- Deleting the files of a cleared registry. -/
theorem conduct_unlinkAll {paths : List Path} (hone : paths.length ≤ 1)
    (hremoved : ℓ.removed = paths) (hupload : ∀ path ∈ paths, ℓ.upload ≠ some path)
    (hjob : ℓ.job = .none) :
    Follows discipline (fun _ ℓ' => ℓ' = { ℓ with removed := [] }) (fun _ _ => False)
      (unlinkAll paths) ℓ := by
  match paths, hone with
  | [], _ =>
    refine Follows.ret ?_
    rw [← hremoved]
  | [path], _ =>
    refine conduct_call (.inr (.inl (by simp [hremoved]))) fun _ _ => Follows.ret ?_
    simp [hremoved, hjob, hupload path (by simp)]

/-- A validated upload whose thread is about to stage it. -/
structure Stages (ℓ : Standing) (image : HexImage) : Prop where
  admitted : ℓ.admitted = true
  single : ℓ.claim = none
  own : ℓ.upload = some image.path
  role : ∃ contentLength, ℓ.role = .request (.validateUpload contentLength)
  phase : ℓ.phase = .booting

/-- The section of `stage`: the entry takes the file over, and the thread is left
with the files of the entries it replaced. -/
theorem conduct_stageLocked {image : HexImage} {preflight : FlashPreflight} (h : Off ℓ)
    (hs : Stages ℓ image) :
    Follows discipline
      (fun staged ℓ' => staged.2.length ≤ 1 ∧
        ℓ' = { ℓ with upload := none, removed := staged.2 })
      (fun _ ℓ' => ℓ' = ℓ) (withLock .registry (stageLocked image preflight)) ℓ := by
  refine conduct_withLock ?_
  refine Follows.bind ((conduct_removeExpired (by simp) (by simpa using hs.single)
    (by simpa using h.removed) (by simpa using h.job)).conseq (fun _ _ h => h)
      fun _ _ h => h.elim) ?_
  rintro _ _ ⟨entries, clock, rfl, _⟩
  refine conduct_call (by simp) fun (again : Entries) hagain => ?_
  obtain rfl : again = entries := hagain.seen entries rfl
  split_ifs with hclaimed
  · have hend := h.released (some again) clock ℓ.claim ℓ.upload ℓ.removed ℓ.phase rfl
      (.inl h.removed)
    exact Follows.raise ⟨hend.1, hend.2⟩
  have hclear : Standing.MayClear { ℓ with
      held := .registry :: ℓ.held, entries := some again, clock } :=
    ⟨by simp, .inl ⟨hs.admitted, hs.single, again, rfl, fun item hitem => by
      simpa using fun hc => hclaimed (List.any_eq_true.mpr ⟨item, hitem, hc⟩)⟩⟩
  refine conduct_call hclear fun (replaced : Entries) hreplaced => ?_
  refine conduct_call ⟨hs.admitted, h.token⟩ fun (identifier : String) _ => ?_
  refine conduct_call (by simp) fun (now : ℚ) _ => ?_
  refine conduct_call ?_ fun _ _ => ?_
  · exact {
      locked := by simp
      admitted := hs.admitted
      empty := rfl
      fresh := rfl
      own := hs.own
      unclaimed := rfl
      expires := ⟨now, rfl, rfl⟩
      role := hs.role }
  · refine Follows.ret (And.imp_right (fun hend => ⟨?_, hend⟩) (h.released
      (some (Entries.set [] identifier
        ⟨image, preflight, now + stagedArtifactTtlSeconds, false⟩)) (some now) ℓ.claim none
      replaced.paths ℓ.phase ?_ (.inr (.inl hs.admitted))))
    · simpa [Entries.paths] using hreplaced.single
    · simp [h.removed, h.token, hs.phase]

theorem conduct_stage (image : HexImage) (preflight : FlashPreflight) (h : Off ℓ)
    (hs : Stages ℓ image) :
    Follows discipline (fun _ ℓ' => ℓ' = { ℓ with upload := none }) (fun _ ℓ' => ℓ' = ℓ)
      (stage image preflight) ℓ := by
  refine Follows.bind (conduct_stageLocked h hs) ?_
  rintro ⟨identifier, replaced⟩ _ ⟨hone, rfl⟩
  refine Follows.bind ((conduct_unlinkAll (ℓ := { ℓ with upload := none, removed := replaced })
    hone rfl (by simp) h.job).conseq (fun _ _ h => h) fun _ _ h => h.elim) ?_
  rintro _ _ rfl
  exact Follows.ret (by rw [← h.removed])

/-! ## Claims -/

theorem conduct_claimLocked {identifier : String} (h : Off ℓ) (hadmitted : ℓ.admitted = true)
    (hclaim : ℓ.claim = none) (hrole : ∃ confirmUnpairedRecovery,
      ℓ.role = .request (.flash (.str identifier) (.bool true) confirmUnpairedRecovery)) :
    Follows discipline
      (fun entry ℓ' => entry.claimed = true ∧
        ∃ readAt, ℓ' = { ℓ with claim := some ⟨identifier, entry, readAt, false⟩ })
      (fun _ ℓ' => ℓ' = ℓ) (withLock .registry (claimLocked identifier)) ℓ := by
  refine conduct_withLock ?_
  refine Follows.bind ((conduct_removeExpired (by simp) (by simpa using hclaim)
    (by simpa using h.removed) (by simpa using h.job)).conseq (fun _ _ h => h)
      fun _ _ h => h.elim) ?_
  rintro _ _ ⟨entries, clock, rfl, hfresh⟩
  refine conduct_call (by simp) fun (again : Entries) hagain => ?_
  obtain rfl : again = entries := hagain.seen entries rfl
  have hkeep := h.released (some again) clock ℓ.claim ℓ.upload ℓ.removed ℓ.phase rfl
    (.inl h.removed)
  cases hlookup : again.lookup identifier with
  | none => exact Follows.raise ⟨hkeep.1, hkeep.2⟩
  | some entry =>
    dsimp only
    split_ifs with hc
    · exact Follows.raise ⟨hkeep.1, hkeep.2⟩
    · have hunclaimed : entry.claimed = false := by simpa using hc
      obtain ⟨now, hnow, hlt⟩ := hfresh _ (Entries.mem_of_lookup hlookup) hunclaimed
      have hmay : Standing.MayClaim { ℓ with
          held := .registry :: ℓ.held, entries := some again, clock } identifier :=
        ⟨by simp, hadmitted, hclaim, hrole, again, entry, now, rfl, hlookup, hunclaimed, hnow, hlt⟩
      refine conduct_call hmay fun _ _ => Follows.ret
        (And.imp_right (fun hend => ⟨rfl, clock, hend⟩) (h.released
          (some (again.setClaimed identifier true)) clock
          (some ⟨identifier, { entry with claimed := true }, clock, false⟩) ℓ.upload ℓ.removed
          ℓ.phase ?_ (.inl h.removed)))
      simp [hlookup]

theorem conduct_claim {identifier : String} (h : Off ℓ) (hadmitted : ℓ.admitted = true)
    (hclaim : ℓ.claim = none) (hrole : ∃ confirmUnpairedRecovery,
      ℓ.role = .request (.flash (.str identifier) (.bool true) confirmUnpairedRecovery)) :
    Follows discipline
      (fun entry ℓ' => entry.claimed = true ∧
        ∃ readAt, ℓ' = { ℓ with claim := some ⟨identifier, entry, readAt, false⟩ })
      (fun _ ℓ' => ℓ' = ℓ) (claim (.str identifier)) ℓ := by
  unfold claim
  dsimp only
  split_ifs with hlength
  · exact conduct_claimLocked h hadmitted hclaim hrole
  · exact Follows.raise rfl

theorem conduct_releaseClaim {c : Claim} (h : Off ℓ) (hclaim : ℓ.claim = some c)
    (hunsent : c.sent = false) :
    Follows discipline (fun _ ℓ' => ℓ' = { ℓ with claim := none }) (fun _ _ => False)
      (releaseClaim c.identifier) ℓ := by
  refine conduct_withLock ?_
  refine conduct_call (by simp) fun (entries : Entries) hentries => ?_
  obtain rfl := hentries.claimed c (by simpa using hclaim)
  simp only [List.lookup_cons_self]
  refine Follows.perform ⟨by simp, c, by simpa using hclaim, rfl, hunsent⟩ fun _ _ => ?_
  have hend := h.released (some (Entries.setClaimed [(c.identifier, c.entry)] c.identifier false))
    ℓ.clock none ℓ.upload ℓ.removed ℓ.phase rfl (.inl h.removed)
  exact ⟨hend.1, hend.2⟩

theorem conduct_consume {c : Claim} (h : Off ℓ) (hclaim : ℓ.claim = some c)
    (hsent : c.sent = true) (hclaimed : c.entry.claimed = true) :
    Follows discipline (fun _ ℓ' => ℓ' = { ℓ with claim := none }) (fun _ _ => False)
      (consume c.identifier) ℓ := by
  refine conduct_withLock ?_
  have hpop : Standing.MayPop (ℓ.after (.acquire .registry) ()) c.identifier :=
    ⟨by simp, .inl ⟨c, hclaim, rfl, hsent⟩⟩
  refine conduct_call hpop fun (popped : Option StagedArtifact) hpopped => Follows.ret ?_
  obtain rfl : popped = some c.entry := hpopped.claimed c hclaim rfl
  refine h.released none ℓ.clock none ℓ.upload ℓ.removed ℓ.phase ?_ (.inl h.removed)
  simp [hclaim, hclaimed, h.entries]

/-! ## The end -/

theorem conduct_close (h : Off ℓ) (hrole : ℓ.role = .worker) (hphase : ℓ.phase = .drained)
    (hupload : ℓ.upload = none) :
    Follows discipline (fun _ ℓ' => ℓ' = { ℓ with phase := .cleared }) (fun _ _ => False)
      close ℓ := by
  refine Follows.bind (R := fun paths ℓ' => paths.length ≤ 1 ∧
    ℓ' = { ℓ with removed := paths, phase := .cleared }) (conduct_withLock ?_) ?_
  · refine conduct_call ⟨by simp, .inr ⟨hrole, hphase⟩⟩ fun (entries : Entries) hentries =>
      Follows.ret ?_
    refine And.imp_right (fun hend => ⟨?_, hend⟩) (h.released (some []) ℓ.clock ℓ.claim ℓ.upload
      entries.paths .cleared ?_ (.inr (.inr rfl)))
    · simpa [Entries.paths] using hentries.single
    · simp [hphase, h.removed]
  · rintro paths _ ⟨hone, rfl⟩
    refine (conduct_unlinkAll (ℓ := { ℓ with removed := paths, phase := .cleared })
      hone rfl (by simp [hupload]) h.job).conseq ?_ fun _ _ h => h
    rintro _ _ rfl
    simp [← h.removed]

end ArtifactRegistry
end Cul868Flasher
