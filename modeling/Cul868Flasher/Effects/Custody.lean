import Mathlib.Tactic.Cases

/-!
# Things that always have one owner

What lives has an owner, what is owned lives, and nothing has two owners. A step
creates a thing, hands over all that one owner has, or disposes of one thing.
-/

namespace Effects

variable {Ω P : Type} {live live' : P → Prop} {owns owns' : Ω → P → Prop}

structure Custody (live : P → Prop) (owns : Ω → P → Prop) : Prop where
  covered : ∀ p, live p → ∃ w, owns w p
  lives : ∀ w p, owns w p → live p
  unique : ∀ w w' p, owns w p → owns w' p → w = w'

namespace Custody

theorem empty (hlive : ∀ p, ¬live p) (howns : ∀ w p, ¬owns w p) : Custody live owns where
  covered p hp := absurd hp (hlive p)
  lives w p hw := absurd hw (howns w p)
  unique w _ p hw _ := absurd hw (howns w p)

theorem congr (h : Custody live owns) (hlive : ∀ p, live' p ↔ live p)
    (howns : ∀ w p, owns' w p ↔ owns w p) : Custody live' owns' where
  covered p hp := by
    obtain ⟨w, hw⟩ := h.covered p ((hlive p).mp hp)
    exact ⟨w, (howns w p).mpr hw⟩
  lives w p hw := (hlive p).mpr (h.lives w p ((howns w p).mp hw))
  unique w w' p hw hw' := h.unique w w' p ((howns w p).mp hw) ((howns w' p).mp hw')

/-- A new thing gets an owner. -/
theorem create (h : Custody live owns) (w₀ : Ω) {p₀ : P} (hfresh : ¬live p₀)
    (hlive : ∀ p, live' p ↔ p = p₀ ∨ live p)
    (howns : ∀ w p, owns' w p ↔ w = w₀ ∧ p = p₀ ∨ owns w p) : Custody live' owns' where
  covered p hp := by
    rcases (hlive p).mp hp with rfl | hp
    · exact ⟨w₀, (howns w₀ p).mpr (.inl ⟨rfl, rfl⟩)⟩
    · obtain ⟨w, hw⟩ := h.covered p hp
      exact ⟨w, (howns w p).mpr (.inr hw)⟩
  lives w p hw := by
    rcases (howns w p).mp hw with ⟨-, rfl⟩ | hw
    · exact (hlive p).mpr (.inl rfl)
    · exact (hlive p).mpr (.inr (h.lives w p hw))
  unique w w' p hw hw' := by
    rcases (howns w p).mp hw with ⟨rfl, rfl⟩ | hw
    · rcases (howns w' p).mp hw' with ⟨rfl, -⟩ | hw'
      · rfl
      · exact absurd (h.lives w' p hw') hfresh
    · rcases (howns w' p).mp hw' with ⟨rfl, rfl⟩ | hw'
      · exact absurd (h.lives w p hw) hfresh
      · exact h.unique w w' p hw hw'

/-- All that `w₀` has goes to `w₁`. -/
theorem transfer (h : Custody live owns) (w₀ w₁ : Ω)
    (howns : ∀ w p, owns' w p ↔ w ≠ w₀ ∧ owns w p ∨ w = w₁ ∧ owns w₀ p) : Custody live owns' where
  covered p hp := by
    obtain ⟨w, hw⟩ := h.covered p hp
    by_cases hw₀ : w = w₀
    · exact ⟨w₁, (howns w₁ p).mpr (.inr ⟨rfl, hw₀ ▸ hw⟩)⟩
    · exact ⟨w, (howns w p).mpr (.inl ⟨hw₀, hw⟩)⟩
  lives w p hw := by
    rcases (howns w p).mp hw with ⟨-, hw⟩ | ⟨-, hw⟩
    · exact h.lives w p hw
    · exact h.lives w₀ p hw
  unique w w' p hw hw' := by
    rcases (howns w p).mp hw with ⟨hne, hw⟩ | ⟨rfl, hw⟩
    · rcases (howns w' p).mp hw' with ⟨-, hw'⟩ | ⟨-, hw'⟩
      · exact h.unique w w' p hw hw'
      · exact absurd (h.unique w w₀ p hw hw') hne
    · rcases (howns w' p).mp hw' with ⟨hne, hw'⟩ | ⟨rfl, -⟩
      · exact absurd (h.unique w' w₀ p hw' hw) hne
      · rfl

/-- The owner of `p₀` disposes of it. -/
theorem dispose (h : Custody live owns) {w₀ : Ω} {p₀ : P} (hw₀ : owns w₀ p₀)
    (hgone : ¬owns' w₀ p₀) (hlive : ∀ p, live' p ↔ live p ∧ p ≠ p₀)
    (hsub : ∀ w p, owns' w p → owns w p) (hkeep : ∀ w p, owns w p → p ≠ p₀ → owns' w p) :
    Custody live' owns' where
  covered p hp := by
    obtain ⟨hlive, hne⟩ := (hlive p).mp hp
    obtain ⟨w, hw⟩ := h.covered p hlive
    exact ⟨w, hkeep w p hw hne⟩
  lives w p hw := by
    refine (hlive p).mpr ⟨h.lives w p (hsub w p hw), ?_⟩
    rintro rfl
    rw [h.unique w w₀ p (hsub w p hw) hw₀] at hw
    exact hgone hw
  unique w w' p hw hw' := h.unique w w' p (hsub w p hw) (hsub w' p hw')

end Custody
end Effects
