import Mathlib.Data.List.Infix

/-!
# What an excerpt of a text shows

A part of a text that has no separator in it occurs in a cut-off concatenation
only on one side of the separator.
-/

namespace Python

variable {α : Type} {w a b : List α} {c : α}

theorem infix_append_cons (hc : c ∉ w) : w <:+: a ++ c :: b ↔ w <:+: a ∨ w <:+: b := by
  constructor
  · rintro ⟨x, y, h⟩
    rcases List.append_eq_append_iff.mp h with ⟨z, rfl, -⟩ | ⟨z, hx, hb⟩
    · exact .inl ⟨x, z, rfl⟩
    · cases z with
      | nil => exact .inl ⟨x, [], by simpa using hx⟩
      | cons d z =>
        obtain ⟨rfl, rfl⟩ : c = d ∧ b = z ++ y := by simpa using hb
        rcases List.append_eq_append_iff.mp hx with ⟨u, rfl, hw⟩ | ⟨u, rfl, hz⟩
        · exact absurd (by simp [hw]) hc
        · cases u with
          | nil =>
            obtain rfl : c :: z = w := by simpa using hz
            exact absurd List.mem_cons_self hc
          | cons d u =>
            obtain ⟨-, rfl⟩ : c = d ∧ z = u ++ w := by simpa using hz
            exact .inr ⟨u, y, rfl⟩
  · rintro (h | h)
    · exact h.trans (List.prefix_append _ _).isInfix
    · exact h.trans ((List.suffix_cons _ _).trans (List.suffix_append _ _)).isInfix

theorem infix_take_append_cons (hc : c ∉ w) (hw : w ≠ []) (n : ℕ) :
    w <:+: (a ++ c :: b).take n ↔ w <:+: a.take n ∨ w <:+: b.take (n - a.length - 1) := by
  rcases Nat.lt_or_ge a.length n with hlt | hle
  · obtain ⟨k, rfl⟩ : ∃ k, n = a.length + (k + 1) := ⟨n - a.length - 1, by omega⟩
    have hroom : a.length + (k + 1) - a.length - 1 = k := by omega
    rw [hroom, List.take_length_add_append, List.take_succ_cons, infix_append_cons hc,
      List.take_of_length_le (Nat.le_add_right _ _)]
  · have hroom : n - a.length - 1 = 0 := by omega
    rw [List.take_append_of_le_length hle, hroom, List.take_zero, List.infix_nil]
    simp [hw]

/-- A text that begins with the only `c` can only occur there. -/
theorem infix_cons_of_first (ha : c ∉ a) (hb : c ∉ b) : c :: w <:+: a ++ c :: b ↔ w <+: b := by
  constructor
  · rintro ⟨x, y, h⟩
    have hsplit : x ++ c :: (w ++ y) = a ++ c :: b := by simpa using h
    rcases List.append_eq_append_iff.mp hsplit with ⟨z, rfl, hz⟩ | ⟨z, rfl, hz⟩
    · cases z with
      | nil => exact ⟨y, by simpa using hz⟩
      | cons d z =>
        obtain ⟨rfl, -⟩ : c = d ∧ w ++ y = z ++ c :: b := by simpa using hz
        exact absurd (by simp) ha
    · cases z with
      | nil => exact ⟨y, by simpa using hz.symm⟩
      | cons d z =>
        obtain ⟨-, rfl⟩ : c = d ∧ b = z ++ c :: (w ++ y) := by simpa using hz
        exact absurd (by simp) hb
  · rintro ⟨y, rfl⟩
    exact ⟨a, y, by simp⟩

end Python
