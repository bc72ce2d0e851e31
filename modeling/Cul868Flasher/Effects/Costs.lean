import Cul868Flasher.Effects.Discipline
import Mathlib.Algebra.BigOperators.Intervals
import Mathlib.Algebra.Order.BigOperators.Group.Finset

/-!
# What a run costs

Calls have prices. The bounds of the parts of a program add up to a bound of the
whole; the bound of a loop is read off a meter, which the description of the loop
carries along.
-/

namespace Effects
open Prog

variable {I : Interface} {ε ε' δ σ α β Λ M : Type} {D : Discipline I Λ}

section Prices
variable [AddCommMonoid M] {price : I.Op → M} {t u : Trace I} {e : Event I}

def cost (price : I.Op → M) (t : Trace I) : M := (t.map fun e => price e.op).sum

@[simp] theorem cost_nil : cost price ([] : Trace I) = 0 := rfl

@[simp] theorem cost_cons : cost price (e :: t) = price e.op + cost price t := by simp [cost]

@[simp] theorem cost_append : cost price (t ++ u) = cost price t + cost price u := by simp [cost]

theorem cost_eq_zero (h : ∀ e ∈ t, price e.op = 0) : cost price t = 0 := by
  induction t with
  | nil => rfl
  | cons e t ih =>
    rw [cost_cons, h e (by simp), ih fun e' he' => h e' (List.mem_cons_of_mem e he'), zero_add]

end Prices

variable [AddCommMonoid M] [PartialOrder M]

/-- No run of `p` with trusted answers costs more than `b`, be it cut or not. -/
def Costs (D : Discipline I Λ) (price : I.Op → M) (b : M) (p : Prog I ε α) : Prop :=
  ∀ ℓ t r, Run p t r → D.Trusted ℓ t → cost price t ≤ b

namespace Costs
variable {price : I.Op → M} {b c : M}

theorem mono {p : Prog I ε α} (hp : Costs D price b p) (hb : b ≤ c) : Costs D price c p :=
  fun ℓ t r h ht => (hp ℓ t r h ht).trans hb

/-- Calls without a price are free. -/
theorem free {A : I.Op → Prop} {p : Prog I ε α} (hp : Emits A p) (hA : ∀ o, A o → price o = 0) :
    Costs D price 0 p := fun _ _ _ h _ => (cost_eq_zero fun e he => hA e.op (hp.run h e he)).le

theorem pure (a : α) (hb : 0 ≤ b) : Costs D price b (Pure.pure a : Prog I ε α) := by
  intro ℓ t r h _
  obtain ⟨rfl, -⟩ := Run.pure_iff.mp h
  exact hb

theorem raise (e : ε) (hb : 0 ≤ b) : Costs D price b (.raise e : Prog I ε α) := by
  intro ℓ t r h _
  obtain ⟨rfl, -⟩ := Run.raise_iff.mp h
  exact hb

theorem ofExcept (x : Except ε α) (hb : 0 ≤ b) :
    Costs D price b (Prog.ofExcept x : Prog I ε α) := by
  cases x with
  | ok a => exact pure a hb
  | error e => exact raise e hb

theorem perform {o : I.Op} (hb : 0 ≤ b) (ho : price o ≤ b) :
    Costs D price b (Prog.perform o : Prog I ε (I.Ans o)) := by
  intro ℓ t r h _
  obtain ⟨rfl, -⟩ | ⟨a, rfl, -⟩ := Run.perform_iff.mp h
  · exact hb
  · simpa using ho

theorem attempt {p : Prog I ε α} (hp : Costs D price b p) :
    Costs D price b (p.attempt : Prog I ε' (Except ε α)) := by
  intro ℓ t r h ht
  obtain ⟨a, -, h₁⟩ | ⟨e, -, h₁⟩ | ⟨-, h₁⟩ := Run.attempt_inv h
  · exact hp ℓ t _ h₁ ht
  · exact hp ℓ t _ h₁ ht
  · exact hp ℓ t _ h₁ ht

theorem raisingWith {p : Prog I ε α} (hp : Costs D price b p) (s : σ) :
    Costs D price b (p.raisingWith s) := by
  intro ℓ t r h ht
  obtain ⟨a, -, h₁⟩ | ⟨e, -, h₁⟩ | ⟨-, h₁⟩ := Run.raisingWith_inv h
  · exact hp ℓ t _ h₁ ht
  · exact hp ℓ t _ h₁ ht
  · exact hp ℓ t _ h₁ ht

variable [IsOrderedAddMonoid M]

theorem bind {p : Prog I ε α} {f : α → Prog I ε β} (hp : Costs D price b p) (hb' : 0 ≤ c)
    (hf : ∀ a, Costs D price c (f a)) : Costs D price (b + c) (p >>= f) := by
  intro ℓ t r h ht
  obtain ⟨a, t₁, t₂, rfl, h₁, h₂⟩ | ⟨e, -, h₁⟩ | ⟨-, h₁⟩ := Run.bind_inv h
  · obtain ⟨ht₁, ht₂⟩ := Discipline.trusted_append.mp ht
    rw [cost_append]
    exact add_le_add (hp ℓ t₁ _ h₁ ht₁) (hf a _ t₂ r h₂ ht₂)
  · exact le_add_of_le_of_nonneg (hp ℓ t _ h₁ ht) hb'
  · exact le_add_of_le_of_nonneg (hp ℓ t _ h₁ ht) hb'

/-- A sequence whose first part is free. -/
theorem after {p : Prog I ε α} {f : α → Prog I ε β} (hp : Costs D price 0 p) (hb : 0 ≤ b)
    (hf : ∀ a, Costs D price b (f a)) : Costs D price b (p >>= f) :=
  (hp.bind hb hf).mono (zero_add b).le

/-- A sequence whose second part is free. -/
theorem before {p : Prog I ε α} {f : α → Prog I ε β} (hp : Costs D price b p)
    (hf : ∀ a, Costs D price 0 (f a)) : Costs D price b (p >>= f) :=
  (hp.bind le_rfl hf).mono (add_zero b).le

theorem catching {p : Prog I ε α} (hp : Costs D price b p) (c : ε → Bool) :
    Costs D price b (p.catching c) := by
  refine hp.attempt.before fun x => ?_
  cases x with
  | ok a => exact pure _ le_rfl
  | error e =>
    dsimp only
    split_ifs
    · exact pure _ le_rfl
    · exact raise e le_rfl

/-- Every attempt may cost `b`, and the pause after attempt `k` may cost `c k`. -/
theorem retry {pause : ℕ → Prog I ε Unit} {body : σ → Prog I ε (Except δ α × σ)} {c : ℕ → M}
    (hc : ∀ k, 0 ≤ c k) (hb : 0 ≤ b) (hpause : ∀ k, Costs D price (c k) (pause k))
    (hbody : ∀ s, Costs D price b (body s)) (n k : ℕ) (s : σ) :
    Costs D price ((n + 1) • b + ∑ i ∈ Finset.range n, c (k + i))
      (Prog.retry pause body n k s) := by
  induction n generalizing k s with
  | zero =>
    rw [Finset.range_zero, Finset.sum_empty, add_zero, zero_add, one_nsmul]
    exact hbody s
  | succ n ih =>
    have hrest : 0 ≤ (n + 1) • b + ∑ i ∈ Finset.range n, c (k + 1 + i) :=
      add_nonneg (nsmul_nonneg hb _) (Finset.sum_nonneg fun i _ => hc _)
    have hagain (s' : σ) := (hpause k).bind hrest fun _ => ih (k + 1) s'
    refine ((hbody s).bind (add_nonneg (hc k) hrest) fun x => ?_).mono (le_of_eq ?_)
    · obtain ⟨d | a, s'⟩ := x
      · exact hagain s'
      · exact pure _ (add_nonneg (hc k) hrest)
    · have hshift : ∀ i, c (k + 1 + i) = c (k + (i + 1)) := fun i => congrArg c (by omega)
      rw [Finset.sum_range_succ', succ_nsmul b (n + 1), Nat.add_zero]
      simp only [hshift]
      ac_rfl

end Costs

/-! ## Meters -/

/-- A meter beside the description adds up the prices and never passes the cap. -/
def Discipline.metered (D : Discipline I Λ) (price : I.Op → M) (cap : M) :
    Discipline I (Λ × M) where
  allows ℓ o := D.allows ℓ.1 o ∧ ℓ.2 + price o ≤ cap
  trusts ℓ o a := D.trusts ℓ.1 o a
  after ℓ o a := (D.after ℓ.1 o a, ℓ.2 + price o)

section Metered
variable {price : I.Op → M} {cap : M} {ℓ : Λ} {x : M} {t : Trace I}

theorem Discipline.trusted_metered :
    (D.metered price cap).Trusted (ℓ, x) t ↔ D.Trusted ℓ t := by
  induction t generalizing ℓ x with
  | nil => exact Iff.rfl
  | cons e t ih => exact and_congr Iff.rfl ih

theorem Discipline.over_metered :
    (D.metered price cap).over (ℓ, x) t = (D.over ℓ t, x + cost price t) := by
  induction t generalizing ℓ x with
  | nil => simp
  | cons e t ih =>
    rw [over_cons, cost_cons, ← add_assoc]
    exact ih

/-- What the meter shows is what the run costs. -/
theorem Costs.of_follows {p : Prog I ε α} {Q : α → Λ × M → Prop} {E : ε → Λ × M → Prop}
    (hcap : 0 ≤ cap) (hp : ∀ ℓ, Follows (D.metered price cap) Q E p (ℓ, 0)) :
    Costs D price cap p := by
  intro ℓ t r h ht
  obtain ⟨hallows, -⟩ := (hp ℓ).run h (Discipline.trusted_metered.mpr ht)
  rcases List.eq_nil_or_concat t with rfl | ⟨u, e, rfl⟩
  · exact hcap
  · obtain ⟨-, hle⟩ := hallows u e [] (by simp)
    rw [Discipline.over_metered] at hle
    simpa using hle

end Metered
end Effects
