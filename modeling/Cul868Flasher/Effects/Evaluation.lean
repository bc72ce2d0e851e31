import Cul868Flasher.Effects.Rules

/-!
# Programs in an environment that stands still

When every operation is answered the same way each time, a program has one
outcome, which can be computed part by part.
-/

namespace Effects

variable {I : Interface} {ε ε' α β : Type} (w : (o : I.Op) → I.Ans o)

namespace Outcome

def bind : Outcome ε α → (α → Outcome ε β) → Outcome ε β
  | .returned a, f => f a
  | .raised e, _ => .raised e
  | .cut, _ => .cut

def ofExcept : Except ε α → Outcome ε α
  | .ok a => .returned a
  | .error e => .raised e

@[simp] theorem returned_bind (a : α) (f : α → Outcome ε β) :
    (returned a : Outcome ε α).bind f = f a := rfl

@[simp] theorem raised_bind (e : ε) (f : α → Outcome ε β) :
    (raised e : Outcome ε α).bind f = .raised e := rfl

theorem ofExcept_ne_cut (x : Except ε α) : ofExcept x ≠ .cut := by
  cases x with
  | ok a => simp [ofExcept]
  | error e => simp [ofExcept]

end Outcome

namespace Prog

def eval : Prog I ε α → Outcome ε α
  | .ret a => .returned a
  | .raise e => .raised e
  | .call o k => (k (w o)).eval
  | .halt => .cut

@[simp] theorem eval_pure (a : α) : (pure a : Prog I ε α).eval w = .returned a := rfl

@[simp] theorem eval_ret (a : α) : (.ret a : Prog I ε α).eval w = .returned a := rfl

@[simp] theorem eval_raise (e : ε) : (.raise e : Prog I ε α).eval w = .raised e := rfl

@[simp] theorem eval_perform (o : I.Op) :
    (perform o : Prog I ε (I.Ans o)).eval w = .returned (w o) := rfl

@[simp] theorem eval_ofExcept (x : Except ε α) :
    (ofExcept x : Prog I ε α).eval w = .ofExcept x := by
  cases x with
  | ok a => rfl
  | error e => rfl

@[simp] theorem eval_bind (p : Prog I ε α) (f : α → Prog I ε β) :
    (p >>= f).eval w = (p.eval w).bind fun a => (f a).eval w := by
  change (p.bind f).eval w = _
  induction p with
  | ret a => rfl
  | raise e => rfl
  | call o k ih => exact ih (w o)
  | halt => rfl

theorem eval_attempt (p : Prog I ε α) :
    (p.attempt : Prog I ε' (Except ε α)).eval w = match p.eval w with
      | .returned a => .returned (.ok a)
      | .raised e => .returned (.error e)
      | .cut => .cut := by
  induction p with
  | ret a => rfl
  | raise e => rfl
  | call o k ih => exact ih (w o)
  | halt => rfl

theorem eval_catching (p : Prog I ε α) (c : ε → Bool) :
    (p.catching c).eval w = match p.eval w with
      | .returned a => .returned (.ok a)
      | .raised e => if c e then .returned (.error e) else .raised e
      | .cut => .cut := by
  simp only [catching, eval_bind, eval_attempt]
  cases p.eval w with
  | returned a => rfl
  | raised e => cases h : c e <;> simp [h]
  | cut => rfl

theorem eval_bind_ne_cut {p : Prog I ε α} {f : α → Prog I ε β} (hp : p.eval w ≠ .cut)
    (hf : ∀ a, p.eval w = .returned a → (f a).eval w ≠ .cut) : (p >>= f).eval w ≠ .cut := by
  rw [eval_bind]
  cases h : p.eval w with
  | returned a => exact hf a h
  | raised e => simp
  | cut => exact absurd h hp

theorem eval_catching_ne_cut {p : Prog I ε α} {c : ε → Bool} (hp : p.eval w ≠ .cut) :
    (p.catching c).eval w ≠ .cut := by
  rw [eval_catching]
  cases h : p.eval w with
  | returned a => simp
  | raised e => cases hc : c e <;> simp [hc]
  | cut => exact absurd h hp

theorem eval_catching_raised {p : Prog I ε α} {c : ε → Bool} {e : ε}
    (h : (p.catching c).eval w = .raised e) : c e = false := by
  rw [eval_catching] at h
  cases hp : p.eval w with
  | returned a => simp [hp] at h
  | raised e' =>
    rw [hp] at h
    cases hc : c e' with
    | true => simp [hc] at h
    | false =>
      obtain rfl : e' = e := by simpa [hc] using h
      exact hc
  | cut => simp [hp] at h

/-- Environments that answer all calls of a program alike are alike to it. -/
theorem eval_congr {w w' : (o : I.Op) → I.Ans o} {A : I.Op → Prop} {p : Prog I ε α}
    (hp : Emits A p) (h : ∀ o, A o → w o = w' o) : p.eval w = p.eval w' := by
  induction p with
  | ret a => rfl
  | raise e => rfl
  | call o k ih =>
    change (k (w o)).eval w = (k (w' o)).eval w'
    rw [h o hp.1]
    exact ih (w' o) (hp.2 (w' o))
  | halt => rfl

/-- Every run in the environment ends with the computed outcome, unless it is cut. -/
theorem eval_eq_of_run {p : Prog I ε α} {t : Trace I} {r : Outcome ε α} (h : Run p t r)
    (ht : ∀ e ∈ t, e.ans = w e.op) (hr : r ≠ .cut) : p.eval w = r := by
  induction h with
  | returned a => rfl
  | raised e => rfl
  | cut p => exact absurd rfl hr
  | @call o k _ _ a _ ih =>
    obtain rfl : a = w o := ht ⟨o, a⟩ List.mem_cons_self
    exact ih (fun e he => ht e (List.mem_cons_of_mem _ he)) hr

/-- The run in the environment ends with the computed outcome. -/
theorem exec_eval (p : Prog I ε α) (n : ℕ) : (p.exec (fun _ => w) n).2 = p.eval w := by
  induction p generalizing n with
  | ret a => rfl
  | raise e => rfl
  | call o k ih => exact ih (w o) (n+1)
  | halt => rfl

/-- The answers of a scripted run are those of the script. -/
theorem exec_answers {w : ℕ → (o : I.Op) → I.Ans o} {p : Prog I ε α} {n : ℕ} {e : Event I}
    (h : e ∈ (p.exec w n).1) : ∃ m, e.ans = w m e.op := by
  induction p generalizing n with
  | ret a => cases h
  | raise e' => cases h
  | call o k ih =>
    rcases List.mem_cons.mp h with rfl | h
    · exact ⟨n, rfl⟩
    · exact ih _ h
  | halt => cases h

end Prog
end Effects
