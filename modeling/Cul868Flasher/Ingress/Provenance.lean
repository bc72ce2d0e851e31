import Cul868Flasher.Ingress.Interleaving

/-!
# Where an operation comes from

The history of an entry: the upload that staged it, and the claim on it. As long
as an entry or a claim is there, nothing has been put in its place since.
-/

namespace Cul868Flasher
open Python Effects

variable {i j : ℕ} {s s' : Site} {ℓ : ℕ → Standing} {o : App.Op} {a : App.Ans o}
  {fuel : ℕ} {settings : Settings} {t u v : List (Act App Task Signal)} {c : System App Exn Site}

/-! ## What a history shows -/

/-- What the calls of a history show, in their order. -/
def shown {β : Type} (f : (o : App.Op) → App.Ans o → List β) (t : List (Act App Task Signal)) :
    List β :=
  t.flatMap fun
    | .call _ e => f e.op e.ans
    | .start _ _ => []
    | .move _ => []

section Shown
variable {β : Type} (f : (o : App.Op) → App.Ans o → List β)

@[simp] theorem shown_nil : shown f [] = [] := rfl

@[simp] theorem shown_call (t : List (Act App Task Signal)) (i : ℕ) (o : App.Op) (a : App.Ans o) :
    shown f (t ++ [.call i ⟨o, a⟩]) = shown f t ++ f o a := by
  simp [shown]

@[simp] theorem shown_start (t : List (Act App Task Signal)) (i : ℕ) (task : Task) :
    shown f (t ++ [.start i task]) = shown f t := by
  simp [shown]

@[simp] theorem shown_move (t : List (Act App Task Signal)) (n : Signal) :
    shown f (t ++ [.move n]) = shown f t := by
  simp [shown]

end Shown

/-- The identifiers under which uploads were staged. -/
def stagedBy : (o : App.Op) → App.Ans o → List String
  | .insert identifier _, _ => [identifier]
  | _, _ => []

/-- The operations that were put in the queue. -/
def submittedBy : (o : App.Op) → App.Ans o → List FlashOperation
  | .putNowait operation, put => if put then [operation] else []
  | _, _ => []

abbrev staged (t : List (Act App Task Signal)) : List String := shown stagedBy t

abbrev submitted (t : List (Act App Task Signal)) : List FlashOperation := shown submittedBy t

/-- The calls that take entries out of the registry or put one in. -/
def replaces : App.Op → Bool
  | .insert _ _ => true
  | .clear => true
  | .pop _ => true
  | _ => false

/-- No entry has come or gone. -/
def Untouched (t : List (Act App Task Signal)) : Prop :=
  ∀ i e, .call i e ∈ t → replaces e.op = false

theorem Untouched.nil : Untouched [] := fun _ _ h => by cases h

theorem Untouched.call (h : Untouched t) (i : ℕ) (a : App.Ans o) (ho : replaces o = false) :
    Untouched (t ++ [.call i ⟨o, a⟩]) := by
  intro j e hmem
  rcases List.mem_append.mp hmem with hmem | hmem
  · exact h j e hmem
  · cases List.mem_singleton.mp hmem
    exact ho

theorem Untouched.other (h : Untouched t) {m : Act App Task Signal} (hm : ∀ i e, m ≠ .call i e) :
    Untouched (t ++ [m]) := by
  intro j e hmem
  rcases List.mem_append.mp hmem with hmem | hmem
  · exact h j e hmem
  · exact absurd (List.mem_singleton.mp hmem).symm (hm j e)

/-- The entry was staged under the identifier, and the registry has been left
alone since but for claims. -/
def StagedAs (t : List (Act App Task Signal)) (identifier : String)
    (entry : StagedArtifact) : Prop :=
  ∃ u j upload w, t = u ++ .call j ⟨.insert identifier upload, ()⟩ :: w ∧
    upload.image = entry.image ∧ upload.preflight = entry.preflight ∧
    upload.expiresAt = entry.expiresAt ∧ Untouched w

/-- The thread claimed the entry while it was unexpired, and the registry has
been left alone since but for claims. -/
def ClaimedAs (t : List (Act App Task Signal)) (i : ℕ) (identifier : String)
    (entry : StagedArtifact) : Prop :=
  ∃ u w now, t = u ++ .call i ⟨.setClaimed identifier true, ()⟩ :: w ∧
    (standings u i).clock = some now ∧ now < entry.expiresAt ∧ StagedAs u identifier entry ∧
    Untouched w

section Steps
variable {identifier : String} {entry : StagedArtifact}

theorem StagedAs.call (h : StagedAs t identifier entry) (i : ℕ) (a : App.Ans o)
    (ho : replaces o = false) : StagedAs (t ++ [.call i ⟨o, a⟩]) identifier entry := by
  obtain ⟨u, j, upload, w, rfl, himage, hpreflight, hexpires, hw⟩ := h
  exact ⟨u, j, upload, w ++ [.call i ⟨o, a⟩], by simp, himage, hpreflight, hexpires,
    hw.call i a ho⟩

theorem StagedAs.other (h : StagedAs t identifier entry) {m : Act App Task Signal}
    (hm : ∀ i e, m ≠ .call i e) : StagedAs (t ++ [m]) identifier entry := by
  obtain ⟨u, j, upload, w, rfl, himage, hpreflight, hexpires, hw⟩ := h
  exact ⟨u, j, upload, w ++ [m], by simp, himage, hpreflight, hexpires, hw.other hm⟩

theorem StagedAs.congr {entry' : StagedArtifact} (h : StagedAs t identifier entry)
    (himage : entry'.image = entry.image) (hpreflight : entry'.preflight = entry.preflight)
    (hexpires : entry'.expiresAt = entry.expiresAt) : StagedAs t identifier entry' := by
  obtain ⟨u, j, upload, w, rfl, himage', hpreflight', hexpires', hw⟩ := h
  exact ⟨u, j, upload, w, rfl, himage'.trans himage.symm, hpreflight'.trans hpreflight.symm,
    hexpires'.trans hexpires.symm, hw⟩

theorem StagedAs.mem_staged (h : StagedAs t identifier entry) : identifier ∈ staged t := by
  obtain ⟨u, j, upload, w, rfl, -⟩ := h
  simp [shown, stagedBy]

theorem ClaimedAs.call (h : ClaimedAs t j identifier entry) (i : ℕ) (a : App.Ans o)
    (ho : replaces o = false) : ClaimedAs (t ++ [.call i ⟨o, a⟩]) j identifier entry := by
  obtain ⟨u, w, now, rfl, hclock, hnow, hstaged, hw⟩ := h
  exact ⟨u, w ++ [.call i ⟨o, a⟩], now, by simp, hclock, hnow, hstaged, hw.call i a ho⟩

theorem ClaimedAs.other (h : ClaimedAs t j identifier entry) {m : Act App Task Signal}
    (hm : ∀ i e, m ≠ .call i e) : ClaimedAs (t ++ [m]) j identifier entry := by
  obtain ⟨u, w, now, rfl, hclock, hnow, hstaged, hw⟩ := h
  exact ⟨u, w ++ [m], now, by simp, hclock, hnow, hstaged, hw.other hm⟩

end Steps

/-! ## The invariant -/

structure Provenance (t : List (Act App Task Signal)) (s : Site) (ℓ : ℕ → Standing) : Prop where
  described : ℓ = standings t
  started : ∀ i task, (ℓ i).role = .request task → .start i task ∈ t
  uploading : ∀ i path, (ℓ i).upload = some path →
    ∃ contentLength, (ℓ i).role = .request (.validateUpload contentLength)
  issued : ∀ identifier ∈ staged t, identifier ∈ s.issued
  token : ∀ i identifier, (ℓ i).token = some identifier →
    (ℓ i).admitted = true ∧ identifier ∈ s.issued ∧ identifier ∉ staged t
  fresh : (staged t).Nodup
  entries : ∀ item ∈ s.entries, StagedAs t item.1 item.2
  claims : ∀ i c, (ℓ i).claim = some c → ClaimedAs t i c.identifier c.entry
  submitted : ∀ operation ∈ submitted t, operation.artifactId ∈ staged t ∧
    ∀ item ∈ s.entries, item.1 = operation.artifactId → ¬Unsent ℓ
  once : ((Cul868Flasher.submitted t).map FlashOperation.artifactId).Nodup

namespace Provenance

theorem started_call (h : Provenance t s ℓ) (j : ℕ) (task : Task)
    (hj : (called ℓ i o a j).role = .request task) :
    .start j task ∈ t ++ [Act.call i ⟨o, a⟩] := by
  rw [called_frame Standing.role (by cases o <;> rfl)] at hj
  exact List.mem_append_left _ (h.started j task hj)

theorem uploading_call (h : Provenance t s ℓ) (ho : (ℓ i).Allows o) (j : ℕ) (path : Path)
    (hj : (called ℓ i o a j).upload = some path) :
    ∃ contentLength, (called ℓ i o a j).role = .request (.validateUpload contentLength) := by
  rw [called_frame Standing.role (by cases o <;> rfl)]
  revert hj
  refine forall_called (P := fun j ℓ' => ℓ'.upload = some path →
    ∃ contentLength, (ℓ j).role = .request (.validateUpload contentLength)) ?_
    (fun j _ => h.uploading j path) j
  cases o with
  | mkstemp => exact fun _ => ho.2
  | insert identifier entry => exact fun _ => ho.role
  | unlink path' =>
    intro hupload
    change (if (ℓ i).upload = some path' then none else (ℓ i).upload) = some path at hupload
    split_ifs at hupload
    exact h.uploading i path hupload
  | _ => exact h.uploading i path

/-- A token is drawn and used up by a thread that is alone in the submission. -/
theorem token_call (h : Provenance t s ℓ) (hs : Sections s ℓ) (ho : (ℓ i).Allows o)
    (ha : s.answers i o a s') (j : ℕ) (identifier : String)
    (hj : (called ℓ i o a j).token = some identifier) :
    (called ℓ i o a j).admitted = true ∧ identifier ∈ s'.issued ∧
      identifier ∉ staged (t ++ [.call i ⟨o, a⟩]) := by
  obtain ⟨-, hpermit, rfl⟩ := ha
  revert hj
  rw [staged, shown_call]
  cases o with
  | tokenUrlsafe =>
    have hnew : a ∉ s.issued := by simpa [Site.permits] using hpermit
    refine forall_called (P := fun j ℓ => ℓ.token = some identifier → ℓ.admitted = true ∧ _) ?_ ?_ j
    · rintro ⟨⟩
      exact ⟨ho.1, List.mem_cons_self, by simpa [stagedBy] using fun hmem => hnew (h.issued _ hmem)⟩
    · intro j _ hj
      obtain ⟨hadm, hissued, hstaged⟩ := h.token j identifier hj
      exact ⟨hadm, List.mem_cons_of_mem _ hissued, by simpa [stagedBy] using hstaged⟩
  | insert identifier' entry =>
    refine forall_called (P := fun j ℓ => ℓ.token = some identifier → ℓ.admitted = true ∧ _) ?_ ?_ j
    · rintro ⟨⟩
    · intro j hne hj
      exact absurd (hs.admitted_exclusive (h.token j identifier hj).1 ho.admitted) hne
  | release lock =>
    refine forall_called (P := fun j ℓ => ℓ.token = some identifier → ℓ.admitted = true ∧ _) ?_
      (fun j _ hj => by simpa [stagedBy, Site.next] using h.token j identifier hj) j
    intro hj
    have hne : lock ≠ .submission := by
      rintro rfl
      have htoken : (ℓ i).token = some identifier := hj
      rw [ho.2.2.1] at htoken
      cases htoken
    simpa [stagedBy, hne, Site.next] using h.token i identifier hj
  | accepting =>
    refine forall_called (P := fun j ℓ => ℓ.token = some identifier → ℓ.admitted = true ∧ _) ?_
      (fun j _ hj => by simpa [stagedBy, Site.next] using h.token j identifier hj) j
    intro hj
    have htoken : (ℓ i).token = some identifier := hj
    rw [ho.2.2] at htoken
    cases htoken
  | _ =>
    rw [called_frame Standing.token rfl, called_frame Standing.admitted rfl]
    simpa [stagedBy, Site.next] using h.token j identifier

theorem issued_call (h : Provenance t s ℓ) (ho : (ℓ i).Allows o) (ha : s.answers i o a s')
    (identifier : String) (hmem : identifier ∈ staged (t ++ [.call i ⟨o, a⟩])) :
    identifier ∈ s'.issued := by
  obtain ⟨-, -, rfl⟩ := ha
  rw [staged, shown_call] at hmem
  cases o with
  | insert identifier' entry =>
    rcases List.mem_append.mp hmem with hmem | hmem
    · exact h.issued identifier hmem
    · obtain rfl := List.mem_singleton.mp hmem
      exact (h.token i identifier ho.fresh).2.1
  | tokenUrlsafe =>
    exact List.mem_cons_of_mem _ (h.issued identifier (by simpa [stagedBy] using hmem))
  | _ => exact h.issued identifier (by simpa [stagedBy] using hmem)

theorem fresh_call (h : Provenance t s ℓ) (ho : (ℓ i).Allows o) :
    (staged (t ++ [.call i ⟨o, a⟩])).Nodup := by
  rw [staged, shown_call]
  cases o with
  | insert identifier entry =>
    have hnew := h.fresh.concat (h.token i identifier ho.fresh).2.2
    rwa [List.concat_eq_append] at hnew
  | _ => simpa [stagedBy] using h.fresh

/-- A pop empties the registry. -/
theorem erase_eq_nil (hs : Sections s ℓ) {identifier : String} (ho : (ℓ i).MayPop identifier) :
    s.entries.erase identifier = [] := by
  obtain ⟨-, ⟨c, hc, rfl, -⟩ | ⟨-, v, entry, hv, hlookup, -⟩⟩ := ho
  · simp [(hs.claim i c hc).2.1, Entries.erase]
  · simp [hs.entries_eq_of_lookup hv hlookup, Entries.erase]

theorem entries_call (h : Provenance t s ℓ) (hs : Sections s ℓ) (ho : (ℓ i).Allows o)
    (ha : s.answers i o a s') (item : String × StagedArtifact) (hitem : item ∈ s'.entries) :
    StagedAs (t ++ [.call i ⟨o, a⟩]) item.1 item.2 := by
  obtain ⟨-, -, rfl⟩ := ha
  cases o with
  | insert identifier entry =>
    have hempty := (hs.entries i [] ho.empty).2
    obtain rfl : item = (identifier, entry) := by
      simpa [Site.next, hempty, Entries.set] using hitem
    exact ⟨t, i, entry, [], rfl, rfl, rfl, rfl, .nil⟩
  | clear => cases hitem
  | pop identifier =>
    change item ∈ s.entries.erase identifier at hitem
    rw [erase_eq_nil hs ho] at hitem
    cases hitem
  | setClaimed identifier claimed =>
    obtain ⟨old, hold, rfl⟩ := List.mem_map.mp hitem
    have hstaged := (h.entries old hold).call i a (o := .setClaimed identifier claimed) rfl
    split_ifs
    · exact hstaged.congr rfl rfl rfl
    · exact hstaged
  | _ => exact (h.entries item hitem).call i a rfl

/-- A claim survives only the calls that leave the entries where they are. -/
theorem replaces_of_claim (hs : Sections s ℓ) (ho : (ℓ i).Allows o) {c : Claim}
    (hj : (called ℓ i o a j).claim = some c) : replaces o = false := by
  revert hj
  cases o with
  | insert identifier entry =>
    refine forall_called (P := fun _ ℓ => ℓ.claim = some c → _) ?_ ?_ j
    · intro hc
      have hone := (hs.claim i c hc).2.1
      rw [(hs.entries i [] ho.empty).2] at hone
      cases hone
    · intro j hne hc
      exact absurd (hs.admitted_exclusive (hs.claim j c hc).1 ho.admitted) hne
  | clear =>
    have hnone := Ownership.unclaimed_of_clear hs ho
    refine forall_called (P := fun _ ℓ => ℓ.claim = some c → _) ?_ ?_ j
    · intro hc
      have hclaim : (ℓ i).claim = some c := hc
      rw [hnone] at hclaim
      cases hclaim
    · intro j _ hc
      rw [hnone] at hc
      cases hc
  | pop identifier =>
    refine forall_called (P := fun _ ℓ => ℓ.claim = some c → _) ?_ ?_ j
    · intro hc
      obtain ⟨hclaim, hne⟩ : (ℓ i).claim = some c ∧ c.identifier ≠ identifier := by
        simpa [Option.filter_eq_some_iff] using hc
      obtain ⟨-, ⟨c', hc', hid, -⟩ | ⟨hnone, -⟩⟩ := ho
      · rw [hclaim] at hc'
        cases hc'
        exact absurd hid hne
      · rw [hnone] at hclaim
        cases hclaim
    · intro j hne hc
      obtain ⟨hadm, hentries, hclaimed⟩ := hs.claim j c hc
      obtain ⟨-, ⟨c', hc', -⟩ | ⟨-, v, entry, hv, hlookup, hun, -⟩⟩ := ho
      · exact absurd (hs.admitted_exclusive hadm (hs.claim i c' hc').1) hne
      · have hone := Ownership.unclaimed_of_entry hs (hs.entries_eq_of_lookup hv hlookup) hun j
        rw [hc] at hone
        cases hone
  | _ => exact fun _ => rfl

theorem claims_call (h : Provenance t s ℓ) (hs : Sections s ℓ) (ho : (ℓ i).Allows o) (j : ℕ)
    (c : Claim) (hj : (called ℓ i o a j).claim = some c) :
    ClaimedAs (t ++ [.call i ⟨o, a⟩]) j c.identifier c.entry := by
  have hkeep := replaces_of_claim hs ho hj
  have hold (j : ℕ) (c₀ : Claim) (hc₀ : (ℓ j).claim = some c₀) :
      ClaimedAs (t ++ [.call i ⟨o, a⟩]) j c₀.identifier c₀.entry :=
    (h.claims j c₀ hc₀).call i a hkeep
  revert hj
  refine forall_called (P := fun j ℓ => ℓ.claim = some c → ClaimedAs _ j _ _) ?_
    (fun j _ hc => hold j c hc) j
  cases o with
  | setClaimed identifier claimed =>
    cases claimed with
    | true =>
      intro hc
      obtain ⟨-, hadm, -, -, v, entry, now, hv, hlookup, -, hclock, hnow⟩ := ho
      obtain rfl : (⟨identifier, { entry with claimed := true }, (ℓ i).clock, false⟩ : Claim) =
        c := by
        simpa [hv, hlookup] using hc
      have hentries := hs.entries_eq_of_lookup hv hlookup
      have hstaged := h.entries (identifier, entry) (by simp [hentries])
      refine ⟨t, [], now, rfl, ?_, hnow, hstaged.congr rfl rfl rfl, .nil⟩
      rw [← h.described]
      exact hclock
    | false =>
      intro hc
      cases hc
  | putNowait operation =>
    intro hc
    by_cases hput : a = true
    · obtain ⟨c₀, hc₀, rfl⟩ : ∃ c₀, (ℓ i).claim = some c₀ ∧ { c₀ with sent := true } = c := by
        simpa [hput] using hc
      exact hold i c₀ hc₀
    · exact hold i c (by simpa [hput] using hc)
  | insert identifier entry => cases hkeep
  | clear => cases hkeep
  | pop identifier => cases hkeep
  | _ => exact hold i c

/-- What is submitted is in the registry under a claim that has not been used. -/
theorem submits (hs : Sections s ℓ) {operation : FlashOperation} (ho : (ℓ i).MayPut operation) :
    Unsent ℓ ∧ ∃ c, (ℓ i).claim = some c ∧ operation.artifactId = c.identifier ∧
      s.entries = [(c.identifier, c.entry)] := by
  obtain ⟨c, hc, hunsent, hid, -⟩ := ho.claimed
  exact ⟨(Ownership.unsent_iff hs hc).mpr hunsent, c, hc, hid, (hs.claim i c hc).2.1⟩

/-- An identifier under which something is submitted has not been used before. -/
theorem submits_new (h : Provenance t s ℓ) (hs : Sections s ℓ) {operation : FlashOperation}
    (ho : (ℓ i).MayPut operation) (before : FlashOperation)
    (hbefore : before ∈ Cul868Flasher.submitted t) : before.artifactId ≠ operation.artifactId := by
  obtain ⟨hunsent, c, -, hid, hentries⟩ := submits hs ho
  intro heq
  exact (h.submitted before hbefore).2 (c.identifier, c.entry) (by simp [hentries])
    (by rw [heq, hid]) hunsent

theorem submitted_call (h : Provenance t s ℓ) (hs : Sections s ℓ) (ho : (ℓ i).Allows o)
    (ha : s.answers i o a s') (operation : FlashOperation)
    (hmem : operation ∈ Cul868Flasher.submitted (t ++ [.call i ⟨o, a⟩])) :
    operation.artifactId ∈ staged (t ++ [.call i ⟨o, a⟩]) ∧
      ∀ item ∈ s'.entries, item.1 = operation.artifactId → ¬Unsent (called ℓ i o a) := by
  obtain ⟨-, -, rfl⟩ := ha
  rw [Cul868Flasher.submitted, shown_call] at hmem
  rw [staged, shown_call]
  cases o with
  | putNowait new =>
    obtain ⟨hunsent, c, hc, hid, hentries⟩ := submits hs ho
    rcases List.mem_append.mp hmem with hmem | hmem
    · obtain ⟨hstaged, hused⟩ := h.submitted operation hmem
      exact ⟨by simpa [stagedBy] using hstaged, fun item hitem heq =>
        absurd hunsent (hused item hitem heq)⟩
    · simp only [submittedBy] at hmem
      split_ifs at hmem with hput
      · obtain rfl := List.mem_singleton.mp hmem
        have hstaged := (h.entries (c.identifier, c.entry) (by simp [hentries])).mem_staged
        refine ⟨by simpa [stagedBy, hid] using hstaged, fun _ _ _ hall => ?_⟩
        have := hall i { c with sent := true } (by simp [called_self, hput, hc])
        cases this
      · cases hmem
  | insert identifier entry =>
    obtain ⟨hstaged, -⟩ := h.submitted operation (by simpa [submittedBy] using hmem)
    have hempty := (hs.entries i [] ho.empty).2
    refine ⟨List.mem_append_left _ hstaged, fun item hitem heq => ?_⟩
    obtain rfl : item = (identifier, entry) := by
      simpa [Site.next, hempty, Entries.set] using hitem
    obtain rfl : identifier = operation.artifactId := heq
    exact absurd hstaged (h.token i _ ho.fresh).2.2
  | clear =>
    obtain ⟨hstaged, -⟩ := h.submitted operation (by simpa [submittedBy] using hmem)
    exact ⟨List.mem_append_left _ hstaged, fun item hitem => by cases hitem⟩
  | pop identifier =>
    obtain ⟨hstaged, -⟩ := h.submitted operation (by simpa [submittedBy] using hmem)
    refine ⟨List.mem_append_left _ hstaged, fun item hitem => ?_⟩
    change item ∈ s.entries.erase identifier at hitem
    rw [erase_eq_nil hs ho] at hitem
    cases hitem
  | setClaimed identifier claimed =>
    obtain ⟨hstaged, hused⟩ := h.submitted operation (by simpa [submittedBy] using hmem)
    have hunsent := Ownership.unsent_of_setClaimed hs ho
    refine ⟨List.mem_append_left _ hstaged, fun item hitem heq => ?_⟩
    obtain ⟨old, hold, rfl⟩ := List.mem_map.mp hitem
    refine absurd hunsent (hused old hold ?_)
    rw [← heq]
    split_ifs <;> rfl
  | _ =>
    obtain ⟨hstaged, hused⟩ := h.submitted operation (by simpa [submittedBy] using hmem)
    refine ⟨List.mem_append_left _ hstaged, fun item hitem heq hall => ?_⟩
    exact hused item hitem heq ((Ownership.unsent_call rfl).mp hall)

theorem once_call (h : Provenance t s ℓ) (hs : Sections s ℓ) (ho : (ℓ i).Allows o) :
    ((Cul868Flasher.submitted (t ++ [.call i ⟨o, a⟩])).map FlashOperation.artifactId).Nodup := by
  rw [Cul868Flasher.submitted, shown_call, List.map_append]
  cases o with
  | putNowait operation =>
    refine List.Nodup.append h.once ?_ ?_
    · simp only [submittedBy]
      split_ifs <;> simp
    · intro identifier hbefore hnew
      obtain ⟨before, hmem, rfl⟩ := List.mem_map.mp hbefore
      simp only [submittedBy] at hnew
      split_ifs at hnew
      · exact h.submits_new hs ho before hmem (by simpa using hnew)
      · cases hnew
  | _ => simpa [submittedBy] using h.once

theorem call (h : Provenance t s ℓ) (hs : Sections s ℓ) (ho : (ℓ i).Allows o)
    (ha : s.answers i o a s') : Provenance (t ++ [.call i ⟨o, a⟩]) s' (called ℓ i o a) where
  described := by rw [h.described, standings_call]
  started := h.started_call
  uploading := h.uploading_call ho
  issued := h.issued_call ho ha
  token := h.token_call hs ho ha
  fresh := h.fresh_call ho
  entries := h.entries_call hs ho ha
  claims := h.claims_call hs ho
  submitted := h.submitted_call hs ho ha
  once := h.once_call hs ho

theorem start (h : Provenance t s ℓ) (hidle : ℓ i = .idle) (task : Task) :
    Provenance (t ++ [.start i task]) s (Function.update ℓ i (.born task)) where
  described := by rw [h.described, standings_start]
  started := by
    intro j task' hj
    by_cases hij : j = i
    · subst hij
      rw [Function.update_self] at hj
      cases hj
      simp
    · rw [Function.update_of_ne hij] at hj
      exact List.mem_append_left _ (h.started j task' hj)
  uploading := by
    intro j path hj
    by_cases hij : j = i
    · subst hij
      rw [Function.update_self] at hj
      cases hj
    · rw [Function.update_of_ne hij] at hj ⊢
      exact h.uploading j path hj
  issued := by simpa using h.issued
  token := by
    intro j identifier hj
    rw [Sections.started_frame Standing.token hidle rfl] at hj
    rw [Sections.started_frame Standing.admitted hidle rfl]
    simpa using h.token j identifier hj
  fresh := by simpa using h.fresh
  entries item hitem := (h.entries item hitem).other (by simp)
  claims := by
    intro j c hj
    rw [Sections.started_frame Standing.claim hidle rfl] at hj
    exact (h.claims j c hj).other (by simp)
  submitted := by
    have hunsent : Unsent (Function.update ℓ i (.born task)) ↔ Unsent ℓ :=
      forall_congr' fun j => by rw [Sections.started_frame Standing.claim hidle rfl]
    simpa [hunsent] using h.submitted
  once := by simpa using h.once

theorem move (h : Provenance t s ℓ) (n : Signal) :
    Provenance (t ++ [.move n]) { s with stopping := true } ℓ where
  described := by rw [h.described, standings_move]
  started j task hj := List.mem_append_left _ (h.started j task hj)
  uploading := h.uploading
  issued := by simpa using h.issued
  token := by simpa using h.token
  fresh := by simpa using h.fresh
  entries item hitem := (h.entries item hitem).other (by simp)
  claims j c hj := (h.claims j c hj).other (by simp)
  submitted := by simpa using h.submitted
  once := by simpa using h.once

theorem initial : Provenance [] .initial boarding where
  described := rfl
  started := by
    intro i task hi
    unfold boarding at hi
    split_ifs at hi <;> cases hi
  uploading := by
    intro i path hi
    rw [boarding_frame Standing.upload rfl rfl] at hi
    cases hi
  issued _ h := by cases h
  token := by
    intro i identifier hi
    rw [boarding_frame Standing.token rfl rfl] at hi
    cases hi
  fresh := List.nodup_nil
  entries _ h := by cases h
  claims := by
    intro i c hi
    rw [boarding_frame Standing.claim rfl rfl] at hi
    cases hi
  submitted _ h := by cases h
  once := List.nodup_nil

end Provenance

theorem provenance_kept (fuel : ℕ) (settings : Settings) :
    Described.Kept discipline .idle Rested (fun t s ℓ => Orderly s ℓ ∧ Provenance t s ℓ)
      (addon fuel settings) Standing.born :=
  (orderly_kept fuel settings).extend
    (fun _ _ _ _ _ _ _ hk h ho _ ha => h.call hk.sections ho ha)
    (fun _ _ _ _ task _ h hidle _ => h.start hidle task)
    (by
      rintro _ _ _ n _ - h hmove
      cases n with
      | requestStop =>
        obtain rfl := hmove
        exact h.move .requestStop)

theorem reached_provenance (h : Reached fuel settings t c) :
    Provenance t c.store (standings t) :=
  (reached_described (provenance_kept fuel settings) ⟨.initial, .initial⟩ h).holds.2

/-! ## Consent -/

/-- The operation that thread `i` is about to put in the queue after `u`: its
request confirmed it, and what it carries was staged by one upload, under the
identifier that the request named, claimed within the quarter of an hour and not
replaced since. -/
structure Consented (u : List (Act App Task Signal)) (i : ℕ) (operation : FlashOperation) :
    Prop where
  confirmed : ∃ confirmUnpairedRecovery,
    .start i (.flash (.str operation.artifactId) (.bool true) confirmUnpairedRecovery) ∈ u ∧
      (operation.manualRecovery.isSome → confirmUnpairedRecovery = .bool true)
  bound : ∃ before between after j upload contentLength stagedAt claimedAt,
    u = before ++ .call j ⟨.insert operation.artifactId upload, ()⟩ :: between ++
      .call i ⟨.setClaimed operation.artifactId true, ()⟩ :: after ∧
    .start j (.validateUpload contentLength) ∈ before ∧
    upload.image = operation.image ∧
    upload.preflight.manualRecovery = operation.manualRecovery ∧
    (standings before j).upload = some operation.image.path ∧
    (standings before j).clock = some stagedAt ∧
    (standings (before ++ .call j ⟨.insert operation.artifactId upload, ()⟩ :: between) i).clock =
      some claimedAt ∧
    claimedAt < stagedAt + 15 * 60 ∧ Untouched between ∧ Untouched after

theorem consented_of_put {operation : FlashOperation} {put : Bool}
    (h : Reached fuel settings (u ++ .call i ⟨.putNowait operation, put⟩ :: v) c) :
    Consented u i operation := by
  obtain ⟨c₁, -, hreach, hput, -⟩ := reached_allows h
  have hfrom := reached_provenance hreach
  obtain ⟨claim, hclaim, -, hid, himage, hrecovery⟩ := hput.claimed
  obtain ⟨cur, hrole, hconsent⟩ := hput.consents
  refine ⟨⟨cur, hfrom.started i _ hrole, hconsent⟩, ?_⟩
  obtain ⟨w, after, claimedAt, rfl, hclock, hnow, hstaged, hafter⟩ := hfrom.claims i claim hclaim
  obtain ⟨before, j, upload, between, rfl, himage', hpreflight, hexpires, hbetween⟩ := hstaged
  rw [← hid] at hreach hclock ⊢
  have hinsert :
      Reached fuel settings (before ++ .call j ⟨.insert operation.artifactId upload, ()⟩ ::
      (between ++ .call i ⟨.setClaimed operation.artifactId true, ()⟩ :: after)) c₁ := by
    simpa using hreach
  obtain ⟨c₂, -, hreach₂, hmay, -⟩ := reached_allows hinsert
  obtain ⟨contentLength, hrole₂⟩ := hmay.role
  obtain ⟨stagedAt, hstagedAt, hage⟩ := hmay.expires
  refine ⟨before, between, after, j, upload, contentLength, stagedAt, claimedAt, rfl,
    (reached_provenance hreach₂).started j _ hrole₂, himage'.trans himage.symm, ?_, ?_, hstagedAt,
    hclock, ?_, hbetween, hafter⟩
  · rw [hrecovery, hpreflight]
  · rw [himage, ← himage']
    exact hmay.own
  · rwa [← hexpires, hage] at hnow

structure ConsentBound (t : List (Act App Task Signal)) : Prop where
  consented : ∀ u i operation put v, t = u ++ .call i ⟨.putNowait operation, put⟩ :: v →
    Consented u i operation
  staged : (staged t).Nodup
  once : ((submitted t).map FlashOperation.artifactId).Nodup

/-- Every operation is bound to one upload and to the consents of its request, and
no staged upload is flashed twice. -/
theorem consent_bound (h : Reached fuel settings t c) : ConsentBound t := by
  have hfrom := reached_provenance h
  constructor
  · rintro u i operation put v rfl
    exact consented_of_put h
  · exact hfrom.fresh
  · exact hfrom.once

/-- One CUL, and an upload that comes in one piece. -/
def sampleScript : AppScript where
  world := Script.answer { usb := fun _ => .ofDevices [cul "1-1" "ttyACM0" none] [] }
  read _ := .ok sampleSource

/-- An upload, and the request to flash it. -/
def submission : List Turn :=
  [.run worker 1, .start 1 (.validateUpload 26), .run 1 100,
    .start 2 (.flash (.str "0123456789abcdef") (.bool true) .null), .run 2 100]

theorem submission_reached : ∃ t c, Reached 2 PlannedRun.qemuSettings t c ∧ submitted t ≠ [] ∧
    c.store.queue ≠ [] ∧ c.store.files ≠ [] := by
  have hplay : (play 2 PlannedRun.qemuSettings (sampleScript.answer 0) submission
      ([], boot 2 PlannedRun.qemuSettings)).any fun x =>
        decide (submitted x.1 ≠ [] ∧ x.2.store.queue ≠ [] ∧ x.2.store.files ≠ []) := by
    decide +kernel
  obtain ⟨⟨t, c⟩, hx, hsubmitted⟩ := (Option.any_eq_true _ _).mp hplay
  exact ⟨t, c, play_reached .nil hx, of_decide_eq_true hsubmitted⟩

theorem consent_bound_submission :
    ∃ t c, Reached 2 PlannedRun.qemuSettings t c ∧ submitted t ≠ [] ∧ ConsentBound t := by
  obtain ⟨t, c, hreach, hsubmitted, -⟩ := submission_reached
  exact ⟨t, c, hreach, hsubmitted, consent_bound hreach⟩

end Cul868Flasher
