import Cul868Flasher.Effects.Threads
import Cul868Flasher.Effects.Triples

/-!
# A thread on its own

What a program does while no other thread takes a step: its calls follow each
other on the store, so it takes the store from one value to another as a
sequential program does. Each such run is a part of a history.
-/

namespace Effects
open Prog

variable {I : Interface} {ε ε' δ S τ ν α β : Type}

/-- Run by thread `i` from `s`, `p` may end with `x` and leave `s'`. -/
inductive Alone (M : Machine I ε S τ ν) (i : ℕ) : Prog I δ α → S → Except δ α → S → Prop where
  | ret (a : α) (s : S) : Alone M i (.ret a) s (.ok a) s
  | raise (e : δ) (s : S) : Alone M i (.raise e) s (.error e) s
  | call {o : I.Op} {k : I.Ans o → Prog I δ α} {a : I.Ans o} {s s₁ s' : S} {x : Except δ α} :
      M.answers i s o a s₁ → Alone M i (k a) s₁ x s' → Alone M i (.call o k) s x s'

namespace Alone
variable {M : Machine I ε S τ ν} {i : ℕ} {s s₁ s' : S}

theorem perform {o : I.Op} {a : I.Ans o} (h : M.answers i s o a s') :
    Alone M i (Prog.perform o : Prog I δ (I.Ans o)) s (.ok a) s' :=
  .call h (.ret a s')

theorem bind {p : Prog I δ α} {f : α → Prog I δ β} {a : α} {x : Except δ β}
    (hp : Alone M i p s (.ok a) s₁) (hf : Alone M i (f a) s₁ x s') :
    Alone M i (p >>= f) s x s' := by
  change Alone M i (p.bind f) s x s'
  generalize hok : Except.ok a = y at hp
  induction hp with
  | ret b s =>
    cases hok
    exact hf
  | raise e s => cases hok
  | call ha _ ih => exact .call ha (ih hf hok)

/-- A call at the head of a sequence. -/
theorem step {o : I.Op} {a : I.Ans o} {f : I.Ans o → Prog I δ β} {x : Except δ β}
    (ho : M.answers i s o a s₁) (hf : Alone M i (f a) s₁ x s') :
    Alone M i (Prog.perform o >>= f) s x s' :=
  .call ho hf

theorem attempt {p : Prog I δ α} {x : Except δ α} (hp : Alone M i p s x s') :
    Alone M i (p.attempt : Prog I ε' (Except δ α)) s (.ok x) s' := by
  induction hp with
  | ret a s => exact .ret _ s
  | raise e s => exact .ret _ s
  | call ha _ ih => exact .call ha ih

theorem ofExcept (x : Except δ α) (s : S) : Alone M i (Prog.ofExcept x : Prog I δ α) s x s := by
  cases x with
  | ok a => exact .ret a s
  | error e => exact .raise e s

theorem ensuring {p : Prog I δ α} {release : Except δ α → Prog I δ Unit} {x : Except δ α}
    (hp : Alone M i p s x s₁) (hr : Alone M i (release x) s₁ (.ok ()) s') :
    Alone M i (p.ensuring release) s x s' :=
  hp.attempt.bind (hr.bind (.ofExcept x s'))

/-- The run of a thread extends the history by its calls. -/
theorem reaches {c₀ : System I ε S} {t : List (Act I τ ν)} {threads : ℕ → Option (Prog I ε Unit)}
    {p : Prog I ε Unit} {x : Except ε Unit} (hp : Alone M i p s x s')
    (h : M.Reaches c₀ t ⟨s, threads⟩) (hi : threads i = some p) :
    ∃ w : Trace I, M.Reaches c₀ (t ++ w.map (.call i))
      ⟨s', Function.update threads i (some (.ofExcept x))⟩ := by
  induction hp generalizing t threads with
  | ret a s =>
    refine ⟨[], ?_⟩
    rw [List.map_nil, List.append_nil, Prog.ofExcept, ← hi, Function.update_eq_self]
    exact h
  | raise e s =>
    refine ⟨[], ?_⟩
    rw [List.map_nil, List.append_nil, Prog.ofExcept, ← hi, Function.update_eq_self]
    exact h
  | @call o k a s s₁ s' x ha _ ih =>
    obtain ⟨w, hw⟩ := ih (h.snoc (.call hi ha)) (Function.update_self i _ _)
    refine ⟨⟨o, a⟩ :: w, ?_⟩
    rw [Function.update_idem, List.append_assoc] at hw
    exact hw

end Alone
end Effects
