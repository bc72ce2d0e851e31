import Cul868Flasher.Python.Text
import Mathlib.Data.List.DropRight

/-!
# Cutting stripped text

`strip` commutes with the search for a character that is no blank: cutting at
the character and stripping gives the same text, stripped before or not.
-/

namespace Python

/-- What comes behind the first `c`. -/
def behind (c : Char) (cs : List Char) : List Char := (cs.dropWhile (· ≠ c)).drop 1

theorem strip_eq (cs : List Char) : strip cs = (cs.dropWhile isSpace).rdropWhile isSpace := rfl

/-- Blanks around a text are all that `strip` takes away. -/
theorem strip_split (cs : List Char) : ∃ u v, cs = u ++ strip cs ++ v ∧
    (∀ x ∈ u, isSpace x = true) ∧ ∀ x ∈ v, isSpace x = true := by
  refine ⟨cs.takeWhile isSpace, (cs.dropWhile isSpace).rtakeWhile isSpace, ?_,
    fun x hx => List.mem_takeWhile_imp hx, fun x hx => List.mem_rtakeWhile_imp hx⟩
  rw [strip_eq, List.append_assoc, List.rdropWhile_append_rtakeWhile,
    List.takeWhile_append_dropWhile]

theorem rdropWhile_append_blank (cs : List Char) {v : List Char} (h : ∀ x ∈ v, isSpace x = true) :
    (cs ++ v).rdropWhile isSpace = cs.rdropWhile isSpace := by
  rw [List.rdropWhile, List.rdropWhile, List.reverse_append,
    List.dropWhile_append_of_pos fun x hx => h x (List.mem_reverse.mp hx)]

theorem strip_pad {u v : List Char} (cs : List Char) (hu : ∀ x ∈ u, isSpace x = true)
    (hv : ∀ x ∈ v, isSpace x = true) : strip (u ++ cs ++ v) = strip cs := by
  rw [strip_eq, List.append_assoc, List.dropWhile_append_of_pos hu, List.dropWhile_append]
  split_ifs with hall
  · have hblank : cs.dropWhile isSpace = [] := List.isEmpty_iff.mp hall
    rw [strip_eq, hblank, List.rdropWhile_nil, List.rdropWhile_eq_nil_iff]
    exact fun x hx => hv x ((List.dropWhile_sublist _).subset hx)
  · rw [rdropWhile_append_blank _ hv, strip_eq]

/-- A text between characters that are no blanks is left alone. -/
theorem strip_self {c : Char} {cs : List Char} (hc : isSpace c = false)
    (hlast : ∀ x, (c :: cs).getLast? = some x → isSpace x = false) : strip (c :: cs) = c :: cs := by
  rw [strip_eq, List.dropWhile_cons_of_neg (by simp [hc]), List.rdropWhile_eq_self_iff]
  intro hne
  rw [hlast _ (List.getLast?_eq_some_getLast hne)]
  simp

theorem strip_last {c : Char} {cs : List Char} (h : (strip cs).getLast? = some c) :
    isSpace c = false := by
  have hne : strip cs ≠ [] := by
    intro hnil
    rw [hnil] at h
    cases h
  rw [List.getLast?_eq_some_getLast hne, Option.some.injEq] at h
  rw [← h]
  exact Bool.not_eq_true _ ▸ List.rdropWhile_last_not isSpace (cs.dropWhile isSpace) hne

section
variable {c : Char} (hc : isSpace c = false)
include hc

theorem ne_blank {u : List Char} (hu : ∀ x ∈ u, isSpace x = true) : c ∉ u := by
  intro hmem
  rw [hu c hmem] at hc
  cases hc

theorem mem_strip (cs : List Char) : c ∈ strip cs ↔ c ∈ cs := by
  obtain ⟨u, v, hsplit, hu, hv⟩ := strip_split cs
  have hiff : c ∈ u ++ strip cs ++ v ↔ c ∈ strip cs := by
    simp [ne_blank hc hu, ne_blank hc hv]
  rw [← hsplit] at hiff
  exact hiff.symm

theorem strip_takeWhile (cs : List Char) :
    strip ((strip cs).takeWhile (· ≠ c)) = strip (cs.takeWhile (· ≠ c)) := by
  obtain ⟨u, v, hsplit, hu, hv⟩ := strip_split cs
  have hother {w : List Char} (hw : ∀ x ∈ w, isSpace x = true) :
      ∀ x ∈ w, decide (x ≠ c) = true := by
    intro x hx
    exact decide_eq_true fun heq => ne_blank hc hw (heq ▸ hx)
  have hcut : cs.takeWhile (· ≠ c) = u ++ (strip cs ++ v).takeWhile (· ≠ c) := by
    conv_lhs => rw [hsplit, List.append_assoc]
    rw [List.takeWhile_append_of_pos (hother hu)]
  rw [hcut, List.takeWhile_append]
  split_ifs
  · have hall : (strip cs).takeWhile (· ≠ c) = strip cs :=
      (List.takeWhile_prefix _).eq_of_length ‹_›
    rw [hall, ← List.append_assoc]
    exact (strip_pad _ hu fun x hx => hv x ((List.takeWhile_sublist _).subset hx)).symm
  · rw [← List.append_nil (u ++ _)]
    exact (strip_pad _ hu (by simp)).symm

theorem strip_behind (cs : List Char) : strip (behind c (strip cs)) = strip (behind c cs) := by
  obtain ⟨u, v, hsplit, hu, hv⟩ := strip_split cs
  have hother {w : List Char} (hw : ∀ x ∈ w, isSpace x = true) :
      ∀ x ∈ w, decide (x ≠ c) = true := by
    intro x hx
    exact decide_eq_true fun heq => ne_blank hc hw (heq ▸ hx)
  have hcut : cs.dropWhile (· ≠ c) = (strip cs ++ v).dropWhile (· ≠ c) := by
    conv_lhs => rw [hsplit, List.append_assoc]
    rw [List.dropWhile_append_of_pos (hother hu)]
  rw [behind, behind, hcut, List.dropWhile_append]
  split_ifs with hnone
  · rw [List.isEmpty_iff.mp hnone, List.dropWhile_eq_nil_iff.mpr (hother hv)]
  · cases hrest : (strip cs).dropWhile (· ≠ c) with
    | nil => exact absurd (by rw [hrest]; rfl) hnone
    | cons x rest =>
      rw [List.cons_append, List.drop_succ_cons, List.drop_zero, List.drop_succ_cons,
        List.drop_zero]
      exact (strip_pad (u := []) rest (by simp) hv).symm

end

theorem behind_append {c : Char} {front : List Char} (h : c ∉ front) (rest : List Char) :
    behind c (front ++ c :: rest) = rest := by
  rw [behind, List.dropWhile_append_of_pos, List.dropWhile_cons_of_neg (by simp),
    List.drop_succ_cons,
    List.drop_zero]
  intro x hx
  exact decide_eq_true fun heq => h (heq ▸ hx)

theorem not_mem_takeWhile (c : Char) (cs : List Char) : c ∉ cs.takeWhile (· ≠ c) := by
  intro h
  have himp : decide (c ≠ c) = true := List.mem_takeWhile_imp (p := fun x => decide (x ≠ c)) h
  simp at himp

theorem takeWhile_of_not_mem {c : Char} {cs : List Char} (h : c ∉ cs) :
    cs.takeWhile (· ≠ c) = cs := by
  refine List.takeWhile_eq_self_iff.mpr fun x hx => ?_
  have hne : x ≠ c := by
    rintro rfl
    exact h hx
  simpa using hne

theorem takeWhile_append_ended {c : Char} (cs : List Char) (rest : List Char) :
    (cs ++ c :: rest).takeWhile (· ≠ c) = cs.takeWhile (· ≠ c) := by
  rw [List.takeWhile_append]
  split_ifs with hall
  · rw [List.takeWhile_cons_of_neg (by simp), List.append_nil]
    exact ((List.takeWhile_prefix _).eq_of_length hall).symm
  · rfl

end Python
