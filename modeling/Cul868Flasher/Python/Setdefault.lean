import Mathlib.Data.List.Sort

/-!
# Values of a dictionary that is filled by `setdefault`

The first value under a key stays, and the values come out in the order in which
their keys came in. Which values survive depends on that order as soon as two of
them share a key, and on nothing else.
-/

namespace Python

variable {α κ : Type} [DecidableEq κ]

/-- `values.setdefault(key(a), a)`. -/
def setdefault (key : α → κ) (seen : List α) (a : α) : List α :=
  if seen.any fun b => key b = key a then seen else seen ++ [a]

/-- The values after all of `l`. -/
def setdefaults (key : α → κ) (l : List α) : List α := l.foldl (setdefault key) []

variable (key : α → κ) {l l' : List α} {a b : α}

theorem setdefault_extends (seen : List α) (a : α) : seen <+: setdefault key seen a := by
  unfold setdefault
  split_ifs
  · exact List.prefix_rfl
  · exact List.prefix_append _ _

theorem mem_of_mem_setdefault {seen : List α} (h : b ∈ setdefault key seen a) :
    b ∈ seen ∨ b = a := by
  unfold setdefault at h
  split_ifs at h
  · exact .inl h
  · simpa using h

/-- Afterwards the key is there. -/
theorem exists_mem_setdefault (seen : List α) (a : α) :
    ∃ b ∈ setdefault key seen a, key b = key a := by
  unfold setdefault
  split_ifs with h
  · simpa using h
  · exact ⟨a, by simp, rfl⟩

theorem pairwise_setdefault {seen : List α} (h : seen.Pairwise fun a b => key a ≠ key b) :
    (setdefault key seen a).Pairwise fun a b => key a ≠ key b := by
  unfold setdefault
  split_ifs with hany
  · exact h
  · rw [List.pairwise_append]
    refine ⟨h, List.pairwise_singleton _ _, fun b hb c hc => ?_⟩
    obtain rfl := List.mem_singleton.mp hc
    simpa using fun hkey => hany (List.any_eq_true.mpr ⟨b, hb, by simpa using hkey⟩)

theorem foldl_setdefault_extends (l seen : List α) : seen <+: l.foldl (setdefault key) seen := by
  induction l generalizing seen with
  | nil => exact List.prefix_rfl
  | cons a l ih => exact (setdefault_extends key seen a).trans (ih _)

theorem mem_of_mem_setdefaults (h : a ∈ setdefaults key l) : a ∈ l := by
  have hfold : ∀ seen, a ∈ l.foldl (setdefault key) seen → a ∈ seen ∨ a ∈ l := by
    clear h
    induction l with
    | nil => exact fun seen h => .inl h
    | cons c l ih =>
      intro seen h
      rcases ih _ h with h | h
      · rcases mem_of_mem_setdefault key h with h | rfl
        · exact .inl h
        · exact .inr List.mem_cons_self
      · exact .inr (List.mem_cons_of_mem _ h)
  rcases hfold [] h with h | h
  · exact absurd h List.not_mem_nil
  · exact h

/-- Every key that comes up is kept. -/
theorem exists_mem_setdefaults (h : a ∈ l) : ∃ b ∈ setdefaults key l, key b = key a := by
  have hfold : ∀ seen, ∃ b ∈ l.foldl (setdefault key) seen, key b = key a := by
    induction l with
    | nil => exact absurd h List.not_mem_nil
    | cons c l ih =>
      intro seen
      rcases List.mem_cons.mp h with rfl | h
      · obtain ⟨b, hb, hkey⟩ := exists_mem_setdefault key seen a
        exact ⟨b, (foldl_setdefault_extends key l _).subset hb, hkey⟩
      · exact ih h _
  exact hfold []

/-- No key is kept twice. -/
theorem pairwise_setdefaults (l : List α) :
    (setdefaults key l).Pairwise fun a b => key a ≠ key b := by
  have hfold : ∀ seen : List α, (seen.Pairwise fun a b => key a ≠ key b) →
      (l.foldl (setdefault key) seen).Pairwise fun a b => key a ≠ key b := by
    induction l with
    | nil => exact fun seen h => h
    | cons c l ih => exact fun seen h => ih _ (pairwise_setdefault key h)
  exact hfold [] List.Pairwise.nil

theorem setdefaults_injOn (ha : a ∈ setdefaults key l) (hb : b ∈ setdefaults key l)
    (h : key a = key b) : a = b := by
  have hnodup : ((setdefaults key l).map key).Nodup :=
    List.pairwise_map.mpr (pairwise_setdefaults key l)
  exact List.inj_on_of_nodup_map hnodup ha hb h

theorem nodup_setdefaults (l : List α) : (setdefaults key l).Nodup :=
  (pairwise_setdefaults key l).imp fun h hab => h (congrArg key hab)

/-- Of the values under one key the first is kept. -/
theorem head_mem_setdefaults (a : α) (l : List α) : a ∈ setdefaults key (a :: l) :=
  (foldl_setdefault_extends key l _).subset (by simp [setdefault])

/-- Where each key has one value, the order does not matter. -/
theorem setdefaults_perm (h : l.Perm l') (hkey : ∀ a ∈ l, ∀ b ∈ l, key a = key b → a = b) :
    (setdefaults key l).Perm (setdefaults key l') := by
  have hmem : ∀ {m m' : List α}, m.Perm m' → (∀ a ∈ m, ∀ b ∈ m, key a = key b → a = b) →
      ∀ a ∈ setdefaults key m, a ∈ setdefaults key m' := by
    intro m m' hm hkey a ha
    have ha' := mem_of_mem_setdefaults key ha
    obtain ⟨b, hb, hab⟩ := exists_mem_setdefaults key (hm.subset ha')
    rwa [← hkey b (hm.symm.subset (mem_of_mem_setdefaults key hb)) a ha' hab]
  refine (List.perm_ext_iff_of_nodup (nodup_setdefaults key l) (nodup_setdefaults key l')).mpr
    fun a => ?_
  refine ⟨hmem h hkey a, hmem h.symm (fun a ha b hb => ?_) a⟩
  exact hkey a (h.symm.subset ha) b (h.symm.subset hb)

end Python
