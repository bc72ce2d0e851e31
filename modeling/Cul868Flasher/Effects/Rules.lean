import Cul868Flasher.Effects.Program

/-!
# Rules for the calls of a program and for its loops

`Emits A p` bounds the operations a program can call at all, read off its
syntax. The loop and retry rules reduce a fact about every run of an iteration
to facts about one pass of its body.
-/

namespace Effects
open Prog

variable {I : Interface} {ε ε' δ σ α β : Type}

def Emits (A : I.Op → Prop) : Prog I ε α → Prop
  | .ret _ => True
  | .raise _ => True
  | .call o k => A o ∧ ∀ a, Emits A (k a)
  | .halt => True

namespace Emits
variable {A B : I.Op → Prop}

theorem pure (a : α) : Emits A (Pure.pure a : Prog I ε α) := trivial

theorem raise (e : ε) : Emits A (.raise e : Prog I ε α) := trivial

theorem perform {o : I.Op} (h : A o) : Emits A (perform o : Prog I ε (I.Ans o)) :=
  ⟨h, fun _ => trivial⟩

theorem bind {p : Prog I ε α} {f : α → Prog I ε β} (hp : Emits A p)
    (hf : ∀ a, Emits A (f a)) : Emits A (p >>= f) := by
  change Emits A (p.bind f)
  induction p with
  | ret a => exact hf a
  | raise e => trivial
  | call o k ih => exact ⟨hp.1, fun a => ih a (hp.2 a)⟩
  | halt => trivial

theorem attempt {p : Prog I ε α} (hp : Emits A p) :
    Emits A (p.attempt : Prog I ε' (Except ε α)) := by
  induction p with
  | ret a => trivial
  | raise e => trivial
  | call o k ih => exact ⟨hp.1, fun a => ih a (hp.2 a)⟩
  | halt => trivial

theorem catching {p : Prog I ε α} (hp : Emits A p) (c : ε → Bool) :
    Emits A (p.catching c) := by
  refine hp.attempt.bind fun r => ?_
  cases r with
  | ok a => trivial
  | error e =>
    dsimp only
    split_ifs <;> trivial

theorem loop {body : σ → Prog I ε (σ ⊕ α)} (h : ∀ s, Emits A (body s)) (n : ℕ) (s : σ) :
    Emits A (Prog.loop body n s) := by
  induction n generalizing s with
  | zero => trivial
  | succ n ih =>
    refine (h s).bind fun r => ?_
    cases r with
    | inl s' => exact ih s'
    | inr a => trivial

theorem retry {pause : ℕ → Prog I ε Unit} {body : σ → Prog I ε (Except δ α × σ)}
    (hp : ∀ k, Emits A (pause k)) (hb : ∀ s, Emits A (body s)) (n k : ℕ) (s : σ) :
    Emits A (Prog.retry pause body n k s) := by
  induction n generalizing k s with
  | zero => exact hb s
  | succ n ih =>
    refine (hb s).bind fun r => ?_
    obtain ⟨r | a, s'⟩ := r
    · exact (hp k).bind fun _ => ih (k+1) s'
    · trivial

theorem mono {p : Prog I ε α} (h : ∀ o, A o → B o) (hp : Emits A p) : Emits B p := by
  induction p with
  | ret a => trivial
  | raise e => trivial
  | call o k ih => exact ⟨h o hp.1, fun a => ih a (hp.2 a)⟩
  | halt => trivial

theorem run {p : Prog I ε α} (hp : Emits A p) {t : Trace I} {r : Outcome ε α}
    (h : Run p t r) : ∀ e ∈ t, A e.op := by
  induction h with
  | returned a => simp
  | raised e => simp
  | cut p => simp
  | call a _ ih =>
    intro e he
    obtain rfl | he := List.mem_cons.mp he
    · exact hp.1
    · exact ih (hp.2 a) e he

end Emits

/-- `C` bounds the exceptions a program can raise, read off its syntax. -/
def Raises (C : ε → Prop) : Prog I ε α → Prop
  | .ret _ => True
  | .raise e => C e
  | .call _ k => ∀ a, Raises C (k a)
  | .halt => True

namespace Raises
variable {C C' : ε → Prop}

theorem pure (a : α) : Raises C (Pure.pure a : Prog I ε α) := trivial

theorem perform (o : I.Op) : Raises C (perform o : Prog I ε (I.Ans o)) := fun _ => trivial

theorem ofExcept {x : Except ε α} (h : ∀ e, x = .error e → C e) :
    Raises C (Prog.ofExcept x : Prog I ε α) := by
  cases x with
  | ok a => trivial
  | error e => exact h e rfl

theorem bind {p : Prog I ε α} {f : α → Prog I ε β} (hp : Raises C p)
    (hf : ∀ a, Raises C (f a)) : Raises C (p >>= f) := by
  change Raises C (p.bind f)
  induction p with
  | ret a => exact hf a
  | raise e => exact hp
  | call o k ih => exact fun a => ih a (hp a)
  | halt => trivial

theorem attempt (p : Prog I ε α) {C' : ε' → Prop} :
    Raises C' (p.attempt : Prog I ε' (Except ε α)) := by
  induction p with
  | ret a => trivial
  | raise e => trivial
  | call o k ih => exact fun a => ih a
  | halt => trivial

theorem catching {p : Prog I ε α} {c : ε → Bool} (hp : Raises C p)
    (h : ∀ e, C e → c e = false → C' e) : Raises C' (p.catching c) := by
  induction p with
  | ret a => trivial
  | raise e =>
    cases hc : c e with
    | true =>
      change Raises C' (if c e = true then _ else _)
      rw [if_pos hc]
      trivial
    | false =>
      change Raises C' (if c e = true then _ else _)
      rw [if_neg (by simp [hc])]
      exact h e hp hc
  | call o k ih => exact fun a => ih a (hp a)
  | halt => trivial

theorem loop {body : σ → Prog I ε (σ ⊕ α)} (h : ∀ s, Raises C (body s)) (n : ℕ) (s : σ) :
    Raises C (Prog.loop body n s) := by
  induction n generalizing s with
  | zero => trivial
  | succ n ih =>
    refine (h s).bind fun r => ?_
    cases r with
    | inl s' => exact ih s'
    | inr a => trivial

theorem run {p : Prog I ε α} (hp : Raises C p) {t : Trace I} {e : ε}
    (h : Run p t (.raised e)) : C e := by
  induction p generalizing t with
  | ret a => cases h
  | raise e' =>
    cases h
    exact hp
  | call o k ih =>
    cases h with
    | call a h => exact ih a (hp a) h
  | halt => cases h

end Raises

/-- A program that no answers can drive into a used-up budget. -/
def Total : Prog I ε α → Prop
  | .ret _ => True
  | .raise _ => True
  | .call _ k => ∀ a, Total (k a)
  | .halt => False

namespace Total

theorem pure (a : α) : Total (Pure.pure a : Prog I ε α) := trivial

theorem perform (o : I.Op) : Total (perform o : Prog I ε (I.Ans o)) := fun _ => trivial

theorem ofExcept (x : Except ε α) : Total (Prog.ofExcept x : Prog I ε α) := by
  cases x <;> trivial

/-- The second part of a sequence has to be total only where the first can return. -/
theorem bind {p : Prog I ε α} {f : α → Prog I ε β} (hp : Total p)
    (hf : ∀ t a, Run p t (.returned a) → Total (f a)) : Total (p >>= f) := by
  change Total (p.bind f)
  induction p with
  | ret a => exact hf [] a (.returned a)
  | raise e => trivial
  | call o k ih => exact fun a => ih a (hp a) fun t b h => hf _ b (.call a h)
  | halt => exact hp

theorem attempt {p : Prog I ε α} (hp : Total p) :
    Total (p.attempt : Prog I ε' (Except ε α)) := by
  induction p with
  | ret a => trivial
  | raise e => trivial
  | call o k ih => exact fun a => ih a (hp a)
  | halt => exact hp

theorem andThen {p : Prog I ε α} {f : α → Prog I ε β} (hp : Total p) (hf : ∀ a, Total (f a)) :
    Total (p >>= f) :=
  hp.bind fun _ a _ => hf a

theorem catching {p : Prog I ε α} (hp : Total p) (c : ε → Bool) : Total (p.catching c) := by
  refine hp.attempt.andThen fun x => ?_
  cases x with
  | ok a => trivial
  | error e =>
    dsimp only
    split_ifs <;> trivial

theorem retry {pause : ℕ → Prog I ε Unit} {body : σ → Prog I ε (Except δ α × σ)}
    (hp : ∀ k, Total (pause k)) (hb : ∀ s, Total (body s)) (n k : ℕ) (s : σ) :
    Total (Prog.retry pause body n k s) := by
  induction n generalizing k s with
  | zero => exact hb s
  | succ n ih =>
    refine (hb s).andThen fun x => ?_
    obtain ⟨d | a, s'⟩ := x
    · exact (hp k).andThen fun _ => ih (k+1) s'
    · trivial

/-- An iteration whose every pass goes down a measure ends within a larger budget. -/
theorem loop {body : σ → Prog I ε (σ ⊕ α)} (measure : σ → ℕ) (hb : ∀ s, Total (body s))
    (hdown : ∀ s t s', Run (body s) t (.returned (.inl s')) → measure s' < measure s)
    {n : ℕ} {s : σ} (hs : measure s < n) : Total (Prog.loop body n s) := by
  induction n generalizing s with
  | zero => exact absurd hs (Nat.not_lt_zero _)
  | succ n ih =>
    refine (hb s).bind fun t x hx => ?_
    cases x with
    | inl s' => exact ih (Nat.lt_of_lt_of_le (hdown s t s' hx) (Nat.le_of_lt_succ hs))
    | inr a => trivial

theorem exec {p : Prog I ε α} (hp : Total p) (w : ℕ → (o : I.Op) → I.Ans o) (n : ℕ) :
    (p.exec w n).2 ≠ .cut := by
  induction p generalizing n with
  | ret a => simp [Prog.exec]
  | raise e => simp [Prog.exec]
  | call o k ih => exact ih _ (hp _) _
  | halt => exact hp.elim

end Total

namespace Run

/-- The result of an iteration was found by one pass of its body, from some
state and after some earlier passes. -/
theorem loop_returned {body : σ → Prog I ε (σ ⊕ α)} {n : ℕ} {s : σ} {t : Trace I} {a : α}
    (h : Run (Prog.loop body n s) t (.returned a)) :
    ∃ s' t₁ t₂, t = t₁ ++ t₂ ∧ Run (body s') t₂ (.returned (.inr a)) := by
  induction n generalizing s t with
  | zero => cases (halt_iff.mp h).2
  | succ n ih =>
    obtain ⟨x, t₁, t₂, rfl, h₁, h₂⟩ := bind_returned.mp h
    cases x with
    | inl s' =>
      obtain ⟨s'', u₁, u₂, rfl, hu⟩ := ih h₂
      exact ⟨s'', t₁ ++ u₁, u₂, by simp, hu⟩
    | inr b =>
      obtain ⟨rfl, rfl⟩ := pure_returned.mp h₂
      exact ⟨s, [], t₁, by simp, h₁⟩

end Run
end Effects
