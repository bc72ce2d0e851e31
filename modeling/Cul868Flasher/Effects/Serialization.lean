import Cul868Flasher.Effects.LockOrder

/-!
# Sections one after the other

A history under any schedule, as seen through one lock. The calls that count and
that the owners of the lock have made, in the order of the history, are whole
sections one after the other and then the one under way. Each thread answers for
its own sections.
-/

namespace Effects
open Prog

variable {I : Interface} {ε S L τ ν α : Type} [DecidableEq L] {K : Locking I L}

/-- A lock, the calls that count under it, and what its sections are. -/
structure Sectioning (K : Locking I L) where
  lock : L
  counts : I.Op → Bool
  /-- What a section may have made so far. -/
  underway : Trace I → Prop
  whole : Trace I → Prop

namespace Sectioning
variable (Z : Sectioning K)

/-- The description of a thread is what it has made since it took the lock. -/
def Allows (s : Option (Trace I)) (o : I.Op) : Prop :=
  match K.step o with
  | some (.acquire _) => True
  | some (.release lock) => lock = Z.lock → ∃ w, s = some w ∧ Z.whole w
  | none => Z.counts o = true → ∀ w, s = some w → ∀ a, Z.underway (w ++ [⟨o, a⟩])

def after (s : Option (Trace I)) (o : I.Op) (a : I.Ans o) : Option (Trace I) :=
  match K.step o with
  | some (.acquire lock) => if lock = Z.lock then some [] else s
  | some (.release lock) => if lock = Z.lock then none else s
  | none => if Z.counts o then s.map (· ++ [⟨o, a⟩]) else s

def discipline : Discipline I (Option (Trace I)) where
  allows := Z.Allows
  trusts _ _ _ := True
  after := Z.after

/-! ## One thread -/

/-- The call is none of the section's. -/
structure Aside (s : Option (Trace I)) (o : I.Op) : Prop where
  acquires : K.step o ≠ some (.acquire Z.lock)
  releases : K.step o ≠ some (.release Z.lock)
  uncounted : Z.counts o = true → s = none

variable {Z} {s : Option (Trace I)} {o : I.Op}

omit [DecidableEq L] in
theorem Aside.allows (h : Z.Aside s o) : Z.Allows s o := by
  unfold Allows
  split
  · trivial
  · rename_i lock hstep
    rintro rfl
    exact absurd hstep h.releases
  · intro hcounts w hw
    rw [h.uncounted hcounts] at hw
    cases hw

theorem Aside.after_eq (h : Z.Aside s o) (a : I.Ans o) : Z.after s o a = s := by
  unfold after
  split
  · rename_i lock hstep
    refine if_neg ?_
    rintro rfl
    exact h.acquires hstep
  · rename_i lock hstep
    refine if_neg ?_
    rintro rfl
    exact h.releases hstep
  · split_ifs with hcounts
    · rw [h.uncounted hcounts]
      rfl
    · rfl

theorem preserves_of_emits {p : Prog I ε α} (hp : Emits (Z.Aside s) p) :
    Preserves Z.discipline s p :=
  Follows.frame hp (fun _ ho => ho.allows) fun _ a ho => ho.after_eq a

/-- The end of a section, as a return or as an exception. -/
def Ended (Z : Sectioning K) (s : Option (Trace I)) : Prop := ∃ w, s = some w ∧ Z.whole w

/-- A block that makes a whole section between the acquisition and the release. -/
theorem preserves_section {acquire : I.Op} {block : Prog I ε α}
    {release : Except ε α → Prog I ε Unit}
    (hacquire : K.step acquire = some (.acquire Z.lock))
    (hb : Follows Z.discipline (fun _ => Z.Ended) (fun _ => Z.Ended) block (some []))
    (hrelease : ∀ x s, Z.Ended s →
      Follows Z.discipline (fun _ s' => s' = none) (fun _ s' => s' = none) (release x) s) :
    Preserves Z.discipline none (Prog.perform acquire >>= fun _ => block.ensuring release) := by
  refine Follows.step ?_ fun _ _ => ?_
  · change Z.Allows none acquire
    rw [Allows, hacquire]
    trivial
  · change Follows Z.discipline _ _ _ (Z.after none acquire _)
    rw [after, hacquire]
    dsimp only
    rw [if_pos rfl]
    exact hb.ensuring (fun _ _ h => hrelease _ _ h) fun _ _ h => hrelease _ _ h

theorem follows_release {release : I.Op} (hrelease : K.step release = some (.release Z.lock))
    (hs : Z.Ended s) :
    Follows Z.discipline (fun _ s' => s' = none) (fun _ s' => s' = none)
      (Prog.perform release : Prog I ε (I.Ans release)) s := by
  refine .perform ?_ fun _ _ => ?_
  · change Z.Allows s release
    rw [Allows, hrelease]
    exact fun _ => hs
  · change Z.after s release _ = none
    rw [after, hrelease]
    exact if_pos rfl

/-! ## The machine -/

variable (Z) in
/-- The owner of the lock and the sections under it, the last one first, after one
more step. -/
def noted (x : Option ℕ × List (Trace I)) : Act I τ ν → Option ℕ × List (Trace I)
  | .call i e =>
    match K.step e.op with
    | some (.acquire lock) => if lock = Z.lock then (some i, [] :: x.2) else x
    | some (.release lock) => if lock = Z.lock then (none, x.2) else x
    | none =>
      if x.1 = some i ∧ Z.counts e.op = true then (x.1, x.2.modifyHead (· ++ [e])) else x
  | .start _ _ => x
  | .move _ => x

variable (Z) in
def notes (t : List (Act I τ ν)) : Option ℕ × List (Trace I) := t.foldl Z.noted (none, [])

theorem notes_snoc (t : List (Act I τ ν)) (m : Act I τ ν) :
    Z.notes (t ++ [m]) = Z.noted (Z.notes t) m := by
  rw [notes, List.foldl_append]
  rfl

/-- The owner of the lock is in the last section, nobody else is in any, and the
sections before it are whole. -/
structure Serialized (Z : Sectioning K) (t : List (Act I τ ν)) (own : Option ℕ)
    (ℓ : ℕ → Option (Trace I)) : Prop where
  inside : ∀ i, (ℓ i).isSome = true ↔ own = some i
  noted : ∃ past : List (Trace I), (∀ w ∈ past, Z.whole w) ∧
    Z.notes t = (own, (own.bind ℓ).toList ++ past)
  underway : ∀ i w, ℓ i = some w → Z.underway w

variable {M : Machine I ε S τ ν} {owner : S → L → Option ℕ} {t : List (Act I τ ν)}
  {own : Option ℕ} {ℓ : ℕ → Option (Trace I)} {i : ℕ}

namespace Serialized

theorem acquire (h : Z.Serialized t own ℓ) (hfree : own = none) (hnil : Z.underway [])
    {e : Event I} (hstep : K.step e.op = some (.acquire Z.lock)) :
    Z.Serialized (t ++ [.call i e]) (some i) (Function.update ℓ i (some [])) where
  inside j := by
    by_cases hj : j = i
    · subst hj
      simp
    · rw [Function.update_of_ne hj, h.inside, hfree]
      simp [Ne.symm hj]
  noted := by
    obtain ⟨past, hwhole, hnotes⟩ := h.noted
    refine ⟨past, hwhole, ?_⟩
    rw [notes_snoc, hnotes, hfree]
    simp [Sectioning.noted, hstep]
  underway j w hw := by
    by_cases hj : j = i
    · subst hj
      rw [Function.update_self] at hw
      cases hw
      exact hnil
    · rw [Function.update_of_ne hj] at hw
      exact h.underway j w hw

theorem release (h : Z.Serialized t own ℓ) {w : Trace I} (hw : ℓ i = some w) (hwhole : Z.whole w)
    {e : Event I} (hstep : K.step e.op = some (.release Z.lock)) :
    Z.Serialized (t ++ [.call i e]) none (Function.update ℓ i none) where
  inside j := by
    by_cases hj : j = i
    · subst hj
      simp
    · have howner : own = some i := (h.inside i).mp (by rw [hw]; rfl)
      rw [Function.update_of_ne hj, h.inside, howner]
      simp [Ne.symm hj]
  noted := by
    obtain ⟨past, hpast, hnotes⟩ := h.noted
    have howner : own = some i := (h.inside i).mp (by rw [hw]; rfl)
    refine ⟨w :: past, ?_, ?_⟩
    · intro w' hw'
      rcases List.mem_cons.mp hw' with rfl | hw'
      · exact hwhole
      · exact hpast w' hw'
    · rw [notes_snoc, hnotes, howner]
      simp [Sectioning.noted, hstep, hw]
  underway j w hw := by
    by_cases hj : j = i
    · subst hj
      rw [Function.update_self] at hw
      cases hw
    · rw [Function.update_of_ne hj] at hw
      exact h.underway j w hw

/-- A step that is noted nowhere. -/
theorem same (h : Z.Serialized t own ℓ) {m : Act I τ ν} (hm : Z.noted (Z.notes t) m = Z.notes t) :
    Z.Serialized (t ++ [m]) own ℓ where
  inside := h.inside
  noted := by
    rw [notes_snoc, hm]
    exact h.noted
  underway := h.underway

/-- A call that counts, of the thread in the section. -/
theorem made (h : Z.Serialized t own ℓ) {w : Trace I} (hw : ℓ i = some w) {e : Event I}
    (hstep : K.step e.op = none) (hcounts : Z.counts e.op = true) (hnext : Z.underway (w ++ [e])) :
    Z.Serialized (t ++ [.call i e]) own (Function.update ℓ i (some (w ++ [e]))) where
  inside j := by
    by_cases hj : j = i
    · subst hj
      rw [Function.update_self, ← h.inside, hw]
      simp
    · rw [Function.update_of_ne hj, h.inside]
  noted := by
    obtain ⟨past, hpast, hnotes⟩ := h.noted
    have howner : own = some i := (h.inside i).mp (by rw [hw]; rfl)
    refine ⟨past, hpast, ?_⟩
    rw [notes_snoc, hnotes, howner]
    simp [Sectioning.noted, hstep, hcounts, hw]
  underway j w' hw' := by
    by_cases hj : j = i
    · subst hj
      rw [Function.update_self] at hw'
      cases hw'
      exact hnext
    · rw [Function.update_of_ne hj] at hw'
      exact h.underway j w' hw'

theorem call (hM : K.Grants M owner) (hnil : Z.underway []) {s s' : S} {o : I.Op} {a : I.Ans o}
    (h : Z.Serialized t (owner s Z.lock) ℓ) (ho : Z.Allows (ℓ i) o) (ha : M.answers i s o a s') :
    Z.Serialized (t ++ [.call i ⟨o, a⟩]) (owner s' Z.lock)
      (Function.update ℓ i (Z.after (ℓ i) o a)) := by
  have hunchanged : Function.update ℓ i (ℓ i) = ℓ := Function.update_eq_self i ℓ
  unfold Allows at ho
  unfold after
  split at ho
  · rename_i lock hstep
    obtain ⟨hfree, howner⟩ := hM.acquired ha hstep
    rw [howner]
    by_cases hlock : lock = Z.lock
    · subst hlock
      rw [Function.update_self, if_pos rfl]
      exact h.acquire hfree hnil hstep
    · rw [Function.update_of_ne (Ne.symm hlock), if_neg hlock, hunchanged]
      exact h.same (by simp [Sectioning.noted, hstep, hlock])
  · rename_i lock hstep
    rw [hM.released ha hstep]
    by_cases hlock : lock = Z.lock
    · subst hlock
      obtain ⟨w, hw, hwhole⟩ := ho rfl
      rw [Function.update_self, if_pos rfl]
      exact h.release hw hwhole hstep
    · rw [Function.update_of_ne (Ne.symm hlock), if_neg hlock, hunchanged]
      exact h.same (by simp [Sectioning.noted, hstep, hlock])
  · rename_i hstep
    rw [hM.other ha hstep]
    obtain ⟨past, hpast, hnotes⟩ := h.noted
    split_ifs with hcounts
    · cases hw : ℓ i with
      | none =>
        have hnot : owner s Z.lock ≠ some i := by
          intro howner
          have hsome := (h.inside i).mpr howner
          rw [hw] at hsome
          cases hsome
        rw [hw] at hunchanged
        change Z.Serialized _ _ (Function.update ℓ i none)
        rw [hunchanged]
        exact h.same (by rw [hnotes]; simp [Sectioning.noted, hstep, hnot])
      | some w => exact h.made hw hstep hcounts (ho hcounts w hw a)
    · rw [hunchanged]
      exact h.same (by simp [Sectioning.noted, hstep, hcounts])

end Serialized

theorem serialized_kept (hM : K.Grants M owner) (hnil : Z.underway [])
    (hprogram : ∀ task, Preserves Z.discipline none (M.program task)) :
    Described.Kept Z.discipline none (· = none) (fun t s ℓ => Z.Serialized t (owner s Z.lock) ℓ) M
      fun _ => none where
  call _ _ _ _ _ _ _ h ho ha := ⟨trivial, h.call hM hnil ho ha⟩
  start t s ℓ i task h hidle _ := by
    rw [← hidle, Function.update_eq_self]
    exact h.same rfl
  program := hprogram
  move t s ℓ n s' h hm := by
    rw [hM.moved hm]
    exact h.same rfl

/-- Under every schedule, the sections are whole, except that the one of the owner
of the lock is under way. -/
theorem serialized {c₀ c : System I ε S} (hM : K.Grants M owner) (hnil : Z.underway [])
    (hprogram : ∀ task, Preserves Z.discipline none (M.program task))
    (hfree : owner c₀.store Z.lock = none)
    (hthreads : ∀ i p, c₀.threads i = some p → Preserves Z.discipline none p)
    (h : M.Reaches c₀ t c) :
    (Z.notes t).1 = owner c.store Z.lock ∧
      ((∀ w ∈ (Z.notes t).2, Z.whole w) ∨
        owner c.store Z.lock ≠ none ∧ ∃ last past, (Z.notes t).2 = last :: past ∧
          Z.underway last ∧ ∀ w ∈ past, Z.whole w) := by
  have hinitial : Z.Serialized ([] : List (Act I τ ν)) (owner c₀.store Z.lock) fun _ => none := by
    rw [hfree]
    refine ⟨fun i => by simp, ⟨[], by simp, rfl⟩, fun i w hw => ?_⟩
    cases hw
  have hholds := (Described.reaches (serialized_kept hM hnil hprogram)
    ⟨hinitial, hthreads, fun _ _ => rfl⟩ h).holds
  obtain ⟨past, hpast, hnotes⟩ := hholds.noted
  rw [hnotes]
  refine ⟨rfl, ?_⟩
  cases howner : owner c.store Z.lock with
  | none => exact .inl hpast
  | some i =>
    obtain ⟨w, hw⟩ := Option.isSome_iff_exists.mp ((hholds.inside i).mpr howner)
    refine .inr ⟨by simp, w, past, ?_, hholds.underway i w hw, hpast⟩
    rw [Option.bind_some, hw]
    rfl

/-- Whoever owns the lock has a section of its own. -/
theorem noted_ne {x : Option ℕ × List (Trace I)} (hx : x.1 ≠ none → x.2 ≠ []) (m : Act I τ ν) :
    (Z.noted x m).1 ≠ none → (Z.noted x m).2 ≠ [] := by
  cases m with
  | call i e =>
    simp only [Sectioning.noted]
    split
    · split_ifs
      · simp
      · exact hx
    · split_ifs
      · simp
      · exact hx
    · split_ifs
      · simpa using hx
      · exact hx
  | start i task => exact hx
  | move n => exact hx

theorem notes_ne (t : List (Act I τ ν)) : (Z.notes t).1 ≠ none → (Z.notes t).2 ≠ [] := by
  induction t using List.reverseRecOn with
  | nil => exact fun h => absurd rfl h
  | append_singleton t m ih =>
    rw [notes_snoc]
    exact noted_ne ih m

/-- All calls of a history. -/
def allCalls (t : List (Act I τ ν)) : Trace I := t.filterMap fun
  | .call _ e => some e
  | _ => none

theorem noted_guarded {x : Option ℕ × List (Trace I)} {e : Event I} (hstep : K.step e.op = none)
    (hcounts : Z.counts e.op = true) (hx : x.1 = some i) (hne : x.2 ≠ []) :
    (Z.noted x (.call i e : Act I τ ν)).2.reverse.flatten = x.2.reverse.flatten ++ [e] := by
  obtain ⟨own, w, past⟩ := x
  · exact absurd rfl hne
  · obtain rfl : own = some i := hx
    simp [Sectioning.noted, hstep, hcounts]

theorem noted_filter {guarded : Event I → Bool} {e : Event I} (he : guarded e = false)
    (x : Option ℕ × List (Trace I)) :
    (Z.noted x (.call i e : Act I τ ν)).2.reverse.flatten.filter guarded =
      x.2.reverse.flatten.filter guarded := by
  simp only [Sectioning.noted]
  split
  · split_ifs <;> simp
  · split_ifs <;> rfl
  · split_ifs
    · obtain ⟨own, w, past⟩ := x
      · rfl
      · simp [he]
    · rfl

/-- A call that wants the lock is made by its owner: none is missed. -/
theorem guarded_noted {c₀ c : System I ε S} {held : ℕ → List L} (hM : K.Grants M owner)
    (hnests : ∀ task, K.Nests [] (M.program task)) (hheld : K.Holding owner c₀ held)
    (hnotes : ∀ {t c}, M.Reaches c₀ t c → (Z.notes t).1 = owner c.store Z.lock)
    {guarded : Event I → Bool} (hguarded : ∀ e, guarded e = true →
      K.step e.op = none ∧ K.guard e.op = some Z.lock ∧ Z.counts e.op = true)
    (h : M.Reaches c₀ t c) :
    (Z.notes t).2.reverse.flatten.filter guarded = (allCalls t).filter guarded := by
  induction h with
  | nil => rfl
  | @snoc t c₁ c₂ m hr hs ih =>
    rw [notes_snoc, allCalls, List.filterMap_append, List.filter_append]
    cases m with
    | call i e =>
      cases he : guarded e with
      | true =>
        obtain ⟨hstep, hguard, hcounts⟩ := hguarded e he
        have howner := (hheld.reaches hM hnests hr).guarded hs hstep hguard
        have hx : (Z.notes t).1 = some i := (hnotes hr).trans howner
        rw [noted_guarded hstep hcounts hx (notes_ne t (by rw [hx]; simp)), List.filter_append, ih]
        simp [allCalls, he]
      | false =>
        rw [noted_filter he, ih]
        simp [allCalls, he]
    | start i task =>
      change (Z.notes t).2.reverse.flatten.filter guarded = _
      rw [ih]
      simp [allCalls]
    | move n =>
      change (Z.notes t).2.reverse.flatten.filter guarded = _
      rw [ih]
      simp [allCalls]

end Sectioning
end Effects
