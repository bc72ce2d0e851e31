import Cul868Flasher.Effects.Program

/-!
# Runs next to an environment

An environment has a state of its own, on which its answers depend, and takes
steps between the calls of a program. A timeline shows the calls and these
steps in their order; a run meets an environment if its calls are those of a
timeline.
-/

namespace Effects

structure Environment (I : Interface) (ν S : Type) where
  answers : S → Event I → S → Prop
  steps : S → ν → S → Prop

inductive Moment (I : Interface) (ν : Type) where
  | call (e : Event I)
  | env (n : ν)

variable {I : Interface} {ν S : Type}

/-- What the program has seen. -/
def calls : List (Moment I ν) → Trace I
  | [] => []
  | .call e :: ms => e :: calls ms
  | .env _ :: ms => calls ms

theorem calls_append (ms ns : List (Moment I ν)) : calls (ms ++ ns) = calls ms ++ calls ns := by
  induction ms with
  | nil => rfl
  | cons m ms ih =>
    cases m with
    | call e => simp [calls, ih]
    | env n => simpa [calls] using ih

theorem mem_calls {ms : List (Moment I ν)} {e : Event I} : e ∈ calls ms ↔ .call e ∈ ms := by
  induction ms with
  | nil => simp [calls]
  | cons m ms ih =>
    cases m with
    | call e' => simp [calls, ih]
    | env n => simp [calls, ih]

/-- A part of the calls is a part of the timeline. -/
theorem calls_eq_append {ms : List (Moment I ν)} {t₁ t₂ : Trace I} (h : calls ms = t₁ ++ t₂) :
    ∃ ns₁ ns₂, ms = ns₁ ++ ns₂ ∧ calls ns₁ = t₁ ∧ calls ns₂ = t₂ := by
  induction ms generalizing t₁ with
  | nil =>
    obtain ⟨rfl, rfl⟩ := List.append_eq_nil_iff.mp h.symm
    exact ⟨[], [], rfl, rfl, rfl⟩
  | cons m ms ih =>
    cases m with
    | env n =>
      obtain ⟨ns₁, ns₂, rfl, h₁, h₂⟩ := ih h
      exact ⟨.env n :: ns₁, ns₂, rfl, h₁, h₂⟩
    | call e =>
      cases t₁ with
      | nil => exact ⟨[], .call e :: ms, rfl, rfl, h⟩
      | cons e' t₁ =>
        obtain ⟨rfl, htail⟩ := List.cons.inj h
        obtain ⟨ns₁, ns₂, rfl, h₁, h₂⟩ := ih htail
        exact ⟨.call e :: ns₁, ns₂, rfl, by rw [calls, h₁], h₂⟩

theorem calls_eq_cons {ms : List (Moment I ν)} {e : Event I} {t : Trace I}
    (h : calls ms = e :: t) :
    ∃ ns₁ ns₂, ms = ns₁ ++ .call e :: ns₂ ∧ calls ns₁ = [] ∧ calls ns₂ = t := by
  induction ms with
  | nil => cases h
  | cons m ms ih =>
    cases m with
    | env n =>
      obtain ⟨ns₁, ns₂, rfl, h₁, h₂⟩ := ih h
      exact ⟨.env n :: ns₁, ns₂, rfl, h₁, h₂⟩
    | call e' =>
      obtain ⟨rfl, htail⟩ := List.cons.inj h
      exact ⟨[], ms, rfl, rfl, htail⟩

inductive Timeline (E : Environment I ν S) : S → List (Moment I ν) → S → Prop where
  | nil (s : S) : Timeline E s [] s
  | call {s s' s'' : S} {e : Event I} {ms : List (Moment I ν)} :
      E.answers s e s' → Timeline E s' ms s'' → Timeline E s (.call e :: ms) s''
  | env {s s' s'' : S} {n : ν} {ms : List (Moment I ν)} :
      E.steps s n s' → Timeline E s' ms s'' → Timeline E s (.env n :: ms) s''

namespace Timeline
variable {E : Environment I ν S}

theorem append_inv {s s' : S} {ms ns : List (Moment I ν)} (h : Timeline E s (ms ++ ns) s') :
    ∃ s₁, Timeline E s ms s₁ ∧ Timeline E s₁ ns s' := by
  induction ms generalizing s with
  | nil => exact ⟨s, .nil s, h⟩
  | cons m ms ih =>
    cases h with
    | call ha h =>
      obtain ⟨s₁, h₁, h₂⟩ := ih h
      exact ⟨s₁, .call ha h₁, h₂⟩
    | env hn h =>
      obtain ⟨s₁, h₁, h₂⟩ := ih h
      exact ⟨s₁, .env hn h₁, h₂⟩

theorem append {s s₁ s' : S} {ms ns : List (Moment I ν)} (h : Timeline E s ms s₁)
    (h' : Timeline E s₁ ns s') : Timeline E s (ms ++ ns) s' := by
  induction h with
  | nil => exact h'
  | call ha _ ih => exact .call ha (ih h')
  | env hn _ ih => exact .env hn (ih h')

/-- What the moments of a timeline keep holds at its end. -/
theorem invariant {K : S → Prop} {M : Moment I ν → Prop}
    (hcall : ∀ s e s', M (.call e) → E.answers s e s' → K s → K s')
    (henv : ∀ s n s', M (.env n) → E.steps s n s' → K s → K s')
    {s s' : S} {ms : List (Moment I ν)} (h : Timeline E s ms s') (hM : ∀ m ∈ ms, M m) (hs : K s) :
    K s' := by
  induction h with
  | nil => exact hs
  | call ha _ ih =>
    exact ih (fun m hm => hM m (List.mem_cons_of_mem _ hm))
      (hcall _ _ _ (hM _ List.mem_cons_self) ha hs)
  | env hn _ ih =>
    exact ih (fun m hm => hM m (List.mem_cons_of_mem _ hm))
      (henv _ _ _ (hM _ List.mem_cons_self) hn hs)

end Timeline
end Effects
