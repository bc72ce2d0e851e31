import Mathlib.Data.List.Basic
import Mathlib.Tactic.Cases

/-!
# Effectful programs and their runs

A program calls operations of an interface, whose answers are not its own to
choose, and may raise. A run is a list of answered calls together with the way
the program left it. Every program can be cut before its next call, so the runs
of a program contain every prefix of every run: a fact proved of all runs holds
at each moment of an execution, a crash included.
-/

namespace Effects

structure Interface where
  Op : Type
  Ans : Op → Type

structure Event (I : Interface) where
  op : I.Op
  ans : I.Ans op

abbrev Trace (I : Interface) := List (Event I)

/-- `halt` stands for a loop whose iteration budget is used up. It has no run
but the cut one, so a budget only ever shortens the runs that are seen. -/
inductive Prog (I : Interface) (ε α : Type) where
  | ret (a : α)
  | raise (e : ε)
  | call (o : I.Op) (k : I.Ans o → Prog I ε α)
  | halt

inductive Outcome (ε α : Type) where
  | returned (a : α)
  | raised (e : ε)
  | cut

variable {I : Interface} {ε ε' δ σ α β : Type}

namespace Outcome

def result : Outcome ε α → Option α
  | .returned a => some a
  | .raised _ => none
  | .cut => none

def exception : Outcome ε α → Option ε
  | .returned _ => none
  | .raised e => some e
  | .cut => none

theorem result_eq_some {r : Outcome ε α} {a : α} : r.result = some a ↔ r = .returned a := by
  cases r with
  | returned b => simp [result]
  | raised e => simp [result]
  | cut => simp [result]

theorem exception_eq_some {r : Outcome ε α} {e : ε} : r.exception = some e ↔ r = .raised e := by
  cases r with
  | returned b => simp [exception]
  | raised e' => simp [exception]
  | cut => simp [exception]

end Outcome

namespace Prog

def bind : Prog I ε α → (α → Prog I ε β) → Prog I ε β
  | .ret a, f => f a
  | .raise e, _ => .raise e
  | .call o k, f => .call o (fun a => (k a).bind f)
  | .halt, _ => .halt

instance : Monad (Prog I ε) where
  pure := .ret
  bind := bind

def perform (o : I.Op) : Prog I ε (I.Ans o) := .call o .ret

/-- A Python `try`: the exception becomes a value for the handler to look at. -/
def attempt : Prog I ε α → Prog I ε' (Except ε α)
  | .ret a => .ret (.ok a)
  | .raise e => .ret (.error e)
  | .call o k => .call o (fun a => (k a).attempt)
  | .halt => .halt

def ofExcept : Except ε α → Prog I ε α
  | .ok a => .ret a
  | .error e => .raise e

/-- A Python `except` clause for some of the exceptions; the others go on. -/
def catching (p : Prog I ε α) (c : ε → Bool) : Prog I ε (Except ε α) :=
  p.attempt >>= fun
    | .ok a => .ret (.ok a)
    | .error e => if c e then .ret (.error e) else .raise e

/-- Iterate a body until it yields a result, at most `n` times. -/
def loop (body : σ → Prog I ε (σ ⊕ α)) : ℕ → σ → Prog I ε α
  | 0, _ => .halt
  | n+1, s => body s >>= fun
    | .inl s' => loop body n s'
    | .inr a => .ret a

/-- `n` more attempts after a failed one, each preceded by `pause`, which is
told the number `k` of the attempt that failed. The last failure is returned. -/
def retry (pause : ℕ → Prog I ε Unit) (body : σ → Prog I ε (Except δ α × σ)) :
    ℕ → ℕ → σ → Prog I ε (Except δ α × σ)
  | 0, _, s => body s
  | n+1, k, s => body s >>= fun
    | (.ok a, s') => .ret (.ok a, s')
    | (.error _, s') => pause k >>= fun _ => retry pause body n (k+1) s'

/-- Answer the calls of a program from a script, which sees the number of the call. -/
def exec (w : ℕ → (o : I.Op) → I.Ans o) : Prog I ε α → ℕ → Trace I × Outcome ε α
  | .ret a, _ => ([], .returned a)
  | .raise e, _ => ([], .raised e)
  | .call o k, n =>
    let rest := (k (w n o)).exec w (n+1)
    (⟨o, w n o⟩ :: rest.1, rest.2)
  | .halt, _ => ([], .cut)

end Prog

inductive Run : Prog I ε α → Trace I → Outcome ε α → Prop where
  | returned (a : α) : Run (.ret a) [] (.returned a)
  | raised (e : ε) : Run (.raise e) [] (.raised e)
  | cut (p : Prog I ε α) : Run p [] .cut
  | call {o : I.Op} {k : I.Ans o → Prog I ε α} {t : Trace I} {r : Outcome ε α}
      (a : I.Ans o) : Run (k a) t r → Run (.call o k) (⟨o, a⟩ :: t) r

namespace Run
open Prog

theorem of_exec (w : ℕ → (o : I.Op) → I.Ans o) (p : Prog I ε α) (n : ℕ) :
    Run p (p.exec w n).1 (p.exec w n).2 := by
  induction p generalizing n with
  | ret a => exact .returned a
  | raise e => exact .raised e
  | call o k ih => exact .call _ (ih _ _)
  | halt => exact .cut _

/-- Whatever a run has done so far is a run that was cut there. -/
theorem take {p : Prog I ε α} {t₁ t₂ : Trace I} {r : Outcome ε α}
    (h : Run p (t₁ ++ t₂) r) : Run p t₁ .cut := by
  induction t₁ generalizing p with
  | nil => exact .cut p
  | cons e t₁ ih =>
    cases h with
    | call a h => exact .call a (ih h)

theorem toCut {p : Prog I ε α} {t : Trace I} {r : Outcome ε α} (h : Run p t r) :
    Run p t .cut :=
  (show Run p (t ++ []) r by simpa using h).take

theorem pure_iff {a : α} {t : Trace I} {r : Outcome ε α} :
    Run (pure a : Prog I ε α) t r ↔ t = [] ∧ (r = .returned a ∨ r = .cut) := by
  constructor
  · intro h
    cases h with
    | returned => exact ⟨rfl, .inl rfl⟩
    | cut => exact ⟨rfl, .inr rfl⟩
  · rintro ⟨rfl, rfl | rfl⟩
    · exact .returned a
    · exact .cut _

theorem ret_iff {a : α} {t : Trace I} {r : Outcome ε α} :
    Run (.ret a : Prog I ε α) t r ↔ t = [] ∧ (r = .returned a ∨ r = .cut) := pure_iff

theorem raise_iff {e : ε} {t : Trace I} {r : Outcome ε α} :
    Run (.raise e : Prog I ε α) t r ↔ t = [] ∧ (r = .raised e ∨ r = .cut) := by
  constructor
  · intro h
    cases h with
    | raised => exact ⟨rfl, .inl rfl⟩
    | cut => exact ⟨rfl, .inr rfl⟩
  · rintro ⟨rfl, rfl | rfl⟩
    · exact .raised e
    · exact .cut _

theorem halt_iff {t : Trace I} {r : Outcome ε α} :
    Run (.halt : Prog I ε α) t r ↔ t = [] ∧ r = .cut := by
  constructor
  · intro h
    cases h with
    | cut => exact ⟨rfl, rfl⟩
  · rintro ⟨rfl, rfl⟩
    exact .cut _

theorem call_iff {o : I.Op} {k : I.Ans o → Prog I ε α} {t : Trace I} {r : Outcome ε α} :
    Run (.call o k) t r ↔
      (t = [] ∧ r = .cut) ∨ ∃ a t', t = ⟨o, a⟩ :: t' ∧ Run (k a) t' r := by
  constructor
  · intro h
    cases h with
    | cut => exact .inl ⟨rfl, rfl⟩
    | call a h => exact .inr ⟨a, _, rfl, h⟩
  · rintro (⟨rfl, rfl⟩ | ⟨a, t', rfl, h⟩)
    · exact .cut _
    · exact .call a h

theorem call_inv {o : I.Op} {k : I.Ans o → Prog I ε α} {t : Trace I} {r : Outcome ε α}
    (h : Run (.call o k) t r) (hr : r ≠ .cut) : ∃ a t', t = ⟨o, a⟩ :: t' ∧ Run (k a) t' r :=
  (call_iff.mp h).resolve_left fun hcut => hr hcut.2

theorem perform_iff {o : I.Op} {t : Trace I} {r : Outcome ε (I.Ans o)} :
    Run (perform o : Prog I ε (I.Ans o)) t r ↔
      (t = [] ∧ r = .cut) ∨ ∃ a, t = [⟨o, a⟩] ∧ (r = .returned a ∨ r = .cut) := by
  simp only [perform, call_iff, ret_iff]
  constructor
  · rintro (h | ⟨a, t', rfl, rfl, h⟩)
    · exact .inl h
    · exact .inr ⟨a, rfl, h⟩
  · rintro (h | ⟨a, rfl, h⟩)
    · exact .inl h
    · exact .inr ⟨a, [], rfl, rfl, h⟩

/-- What a sequence can do: its first part finishes and the second takes over,
or its first part is left by an exception, or the whole is cut in the first. -/
theorem bind_inv {p : Prog I ε α} {f : α → Prog I ε β} {t : Trace I} {r : Outcome ε β}
    (h : Run (p >>= f) t r) :
    (∃ a t₁ t₂, t = t₁ ++ t₂ ∧ Run p t₁ (.returned a) ∧ Run (f a) t₂ r) ∨
    (∃ e, r = .raised e ∧ Run p t (.raised e)) ∨ (r = .cut ∧ Run p t .cut) := by
  change Run (p.bind f) t r at h
  induction p generalizing t with
  | ret a => exact .inl ⟨a, [], t, rfl, .returned a, h⟩
  | raise e =>
    obtain ⟨rfl, rfl | rfl⟩ := raise_iff.mp h
    · exact .inr (.inl ⟨e, rfl, .raised e⟩)
    · exact .inr (.inr ⟨rfl, .cut _⟩)
  | call o k ih =>
    obtain ⟨rfl, rfl⟩ | ⟨a, t', rfl, hk⟩ := call_iff.mp h
    · exact .inr (.inr ⟨rfl, .cut _⟩)
    · obtain ⟨b, t₁, t₂, rfl, h₁, h₂⟩ | ⟨e, rfl, h₁⟩ | ⟨rfl, h₁⟩ := ih a hk
      · exact .inl ⟨b, ⟨o, a⟩ :: t₁, t₂, rfl, .call a h₁, h₂⟩
      · exact .inr (.inl ⟨e, rfl, .call a h₁⟩)
      · exact .inr (.inr ⟨rfl, .call a h₁⟩)
  | halt =>
    obtain ⟨rfl, rfl⟩ := halt_iff.mp h
    exact .inr (.inr ⟨rfl, .cut _⟩)

theorem bind {p : Prog I ε α} {f : α → Prog I ε β} {t₁ t₂ : Trace I} {a : α}
    {r : Outcome ε β} (h₁ : Run p t₁ (.returned a)) (h₂ : Run (f a) t₂ r) :
    Run (p >>= f) (t₁ ++ t₂) r := by
  change Run (p.bind f) _ r
  induction p generalizing t₁ with
  | ret b =>
    cases h₁
    exact h₂
  | raise e => cases h₁
  | call o k ih =>
    cases h₁ with
    | call b h => exact .call b (ih b h)
  | halt => cases h₁

theorem bind_raised {p : Prog I ε α} {f : α → Prog I ε β} {t : Trace I} {e : ε}
    (h : Run p t (.raised e)) : Run (p >>= f) t (.raised e) := by
  change Run (p.bind f) t _
  induction p generalizing t with
  | ret b => cases h
  | raise e' =>
    cases h
    exact .raised e
  | call o k ih =>
    cases h with
    | call b h => exact .call b (ih b h)
  | halt => cases h

/-- Programs make no choice of their own: once the first part of a sequence has
run, the rest of the run belongs to the second. -/
theorem bind_resume {p : Prog I ε α} {f : α → Prog I ε β} {t₁ t₂ : Trace I} {a : α}
    {r : Outcome ε β} (h₁ : Run p t₁ (.returned a)) (h : Run (p >>= f) (t₁ ++ t₂) r) :
    Run (f a) t₂ r := by
  change Run (p.bind f) _ r at h
  induction p generalizing t₁ with
  | ret b =>
    cases h₁
    exact h
  | raise e => cases h₁
  | call o k ih =>
    cases h₁ with
    | call b h₁ =>
      cases h with
      | call _ h => exact ih b h₁ h
  | halt => cases h₁

/-- Two runs with the same steps end alike, unless one of them is cut. -/
theorem outcome_unique {p : Prog I ε α} {t : Trace I} {r r' : Outcome ε α} (h : Run p t r)
    (h' : Run p t r') (hr : r ≠ .cut) (hr' : r' ≠ .cut) : r = r' := by
  induction h with
  | returned a =>
    cases h' with
    | returned => rfl
    | cut => exact absurd rfl hr'
  | raised e =>
    cases h' with
    | raised => rfl
    | cut => exact absurd rfl hr'
  | cut p => exact absurd rfl hr
  | call a _ ih =>
    cases h' with
    | call _ h' => exact ih h' hr

/-- A run that has returned does not go on. -/
theorem returned_unique {p : Prog I ε α} {t₁ t₂ u₁ u₂ : Trace I} {a b : α}
    (h : Run p t₁ (.returned a)) (h' : Run p t₂ (.returned b)) (ht : t₁ ++ u₁ = t₂ ++ u₂) :
    a = b := by
  induction p generalizing t₁ t₂ with
  | ret c =>
    cases h
    cases h'
    rfl
  | raise e => cases h
  | call o k ih =>
    cases h with
    | call x h =>
      cases h' with
      | call y h' =>
        obtain ⟨hevent, htail⟩ := List.cons.inj ht
        cases hevent
        exact ih x h h' htail
  | halt => cases h

theorem attempt_inv {p : Prog I ε α} {t : Trace I} {r : Outcome ε' (Except ε α)}
    (h : Run (p.attempt : Prog I ε' (Except ε α)) t r) :
    (∃ a, r = .returned (.ok a) ∧ Run p t (.returned a)) ∨
    (∃ e, r = .returned (.error e) ∧ Run p t (.raised e)) ∨ (r = .cut ∧ Run p t .cut) := by
  induction p generalizing t with
  | ret a =>
    obtain ⟨rfl, rfl | rfl⟩ := ret_iff.mp h
    · exact .inl ⟨a, rfl, .returned a⟩
    · exact .inr (.inr ⟨rfl, .cut _⟩)
  | raise e =>
    obtain ⟨rfl, rfl | rfl⟩ := ret_iff.mp h
    · exact .inr (.inl ⟨e, rfl, .raised e⟩)
    · exact .inr (.inr ⟨rfl, .cut _⟩)
  | call o k ih =>
    obtain ⟨rfl, rfl⟩ | ⟨a, t', rfl, hk⟩ := call_iff.mp h
    · exact .inr (.inr ⟨rfl, .cut _⟩)
    · obtain ⟨b, rfl, h₁⟩ | ⟨e, rfl, h₁⟩ | ⟨rfl, h₁⟩ := ih a hk
      · exact .inl ⟨b, rfl, .call a h₁⟩
      · exact .inr (.inl ⟨e, rfl, .call a h₁⟩)
      · exact .inr (.inr ⟨rfl, .call a h₁⟩)
  | halt =>
    obtain ⟨rfl, rfl⟩ := halt_iff.mp h
    exact .inr (.inr ⟨rfl, .cut _⟩)

theorem attempt_returned {p : Prog I ε α} {t : Trace I} {a : α}
    (h : Run p t (.returned a)) :
    Run (p.attempt : Prog I ε' (Except ε α)) t (.returned (.ok a)) := by
  induction p generalizing t with
  | ret b =>
    cases h
    exact .returned _
  | raise e => cases h
  | call o k ih =>
    cases h with
    | call b h => exact .call b (ih b h)
  | halt => cases h

theorem attempt_raised {p : Prog I ε α} {t : Trace I} {e : ε}
    (h : Run p t (.raised e)) :
    Run (p.attempt : Prog I ε' (Except ε α)) t (.returned (.error e)) := by
  induction p generalizing t with
  | ret b => cases h
  | raise e' =>
    cases h
    exact .returned _
  | call o k ih =>
    cases h with
    | call b h => exact .call b (ih b h)
  | halt => cases h

theorem pure_returned {a b : α} {t : Trace I} :
    Run (pure a : Prog I ε α) t (.returned b) ↔ t = [] ∧ b = a := by
  simp [pure_iff]

theorem raise_returned {e : ε} {b : α} {t : Trace I} :
    ¬ Run (.raise e : Prog I ε α) t (.returned b) := by
  simp [raise_iff]

theorem perform_returned {o : I.Op} {a : I.Ans o} {t : Trace I} :
    Run (perform o : Prog I ε (I.Ans o)) t (.returned a) ↔ t = [⟨o, a⟩] := by
  simp only [perform_iff, reduceCtorEq, and_false, false_or, Outcome.returned.injEq, or_false]
  constructor
  · rintro ⟨_, rfl, rfl⟩
    rfl
  · rintro rfl
    exact ⟨a, rfl, rfl⟩

theorem perform_raised {o : I.Op} {e : ε} {t : Trace I} :
    ¬ Run (perform o : Prog I ε (I.Ans o)) t (.raised e) := by
  simp [perform_iff]

theorem bind_returned {p : Prog I ε α} {f : α → Prog I ε β} {t : Trace I} {b : β} :
    Run (p >>= f) t (.returned b) ↔
      ∃ a t₁ t₂, t = t₁ ++ t₂ ∧ Run p t₁ (.returned a) ∧ Run (f a) t₂ (.returned b) := by
  constructor
  · intro h
    obtain h | ⟨_, h, _⟩ | ⟨h, _⟩ := bind_inv h
    · exact h
    · cases h
    · cases h
  · rintro ⟨a, t₁, t₂, rfl, h₁, h₂⟩
    exact h₁.bind h₂

theorem attempt_returned_iff {p : Prog I ε α} {t : Trace I} {x : Except ε α} :
    Run (p.attempt : Prog I ε' (Except ε α)) t (.returned x) ↔
      (∃ a, x = .ok a ∧ Run p t (.returned a)) ∨ ∃ e, x = .error e ∧ Run p t (.raised e) := by
  constructor
  · intro h
    obtain ⟨a, hx, ha⟩ | ⟨e, hx, he⟩ | ⟨hx, _⟩ := attempt_inv h
    · cases hx
      exact .inl ⟨a, rfl, ha⟩
    · cases hx
      exact .inr ⟨e, rfl, he⟩
    · cases hx
  · rintro (⟨a, rfl, h⟩ | ⟨e, rfl, h⟩)
    · exact attempt_returned h
    · exact attempt_raised h

theorem attempt_raised_not {p : Prog I ε α} {t : Trace I} {e : ε'} :
    ¬ Run (p.attempt : Prog I ε' (Except ε α)) t (.raised e) := by
  intro h
  obtain ⟨_, h, _⟩ | ⟨_, h, _⟩ | ⟨h, _⟩ := attempt_inv h <;> cases h

theorem catching_of_returned {p : Prog I ε α} {c : ε → Bool} {t : Trace I} {a : α}
    (h : Run p t (.returned a)) : Run (p.catching c) t (.returned (.ok a)) := by
  rw [← List.append_nil t]
  exact (attempt_returned h).bind (.returned _)

theorem catching_inv {p : Prog I ε α} {c : ε → Bool} {t : Trace I}
    {r : Outcome ε (Except ε α)} (h : Run (p.catching c) t r) :
    (∃ a, r = .returned (.ok a) ∧ Run p t (.returned a)) ∨
    (∃ e, c e = true ∧ r = .returned (.error e) ∧ Run p t (.raised e)) ∨
    (∃ e, c e = false ∧ r = .raised e ∧ Run p t (.raised e)) ∨
    (r = .cut ∧ Run p t .cut) := by
  obtain ⟨x, t₁, t₂, rfl, h₁, h₂⟩ | ⟨e, rfl, h₁⟩ | ⟨rfl, h₁⟩ := bind_inv h
  · obtain ⟨a, rfl, ha⟩ | ⟨e, rfl, he⟩ := attempt_returned_iff.mp h₁
    · obtain ⟨rfl, rfl | rfl⟩ := ret_iff.mp h₂
      · exact .inl ⟨a, rfl, by simpa using ha⟩
      · exact .inr (.inr (.inr ⟨rfl, by simpa using ha.toCut⟩))
    · cases hc : c e with
      | true =>
        simp only [hc, if_true] at h₂
        obtain ⟨rfl, rfl | rfl⟩ := ret_iff.mp h₂
        · exact .inr (.inl ⟨e, hc, rfl, by simpa using he⟩)
        · exact .inr (.inr (.inr ⟨rfl, by simpa using he.toCut⟩))
      | false =>
        simp only [hc, Bool.false_eq_true, if_false] at h₂
        obtain ⟨rfl, rfl | rfl⟩ := raise_iff.mp h₂
        · exact .inr (.inr (.inl ⟨e, hc, rfl, by simpa using he⟩))
        · exact .inr (.inr (.inr ⟨rfl, by simpa using he.toCut⟩))
  · exact absurd h₁ attempt_raised_not
  · obtain ⟨_, h, _⟩ | ⟨_, h, _⟩ | ⟨_, h⟩ := attempt_inv h₁
    · cases h
    · cases h
    · exact .inr (.inr (.inr ⟨rfl, h⟩))

theorem catching_returned {p : Prog I ε α} {c : ε → Bool} {t : Trace I} {x : Except ε α}
    (h : Run (p.catching c) t (.returned x)) :
    (∃ a, x = .ok a ∧ Run p t (.returned a)) ∨
      ∃ e, c e = true ∧ x = .error e ∧ Run p t (.raised e) := by
  obtain ⟨a, hx, ha⟩ | ⟨e, hc, hx, he⟩ | ⟨_, _, hx, _⟩ | ⟨hx, _⟩ := catching_inv h
  · cases hx
    exact .inl ⟨a, rfl, ha⟩
  · cases hx
    exact .inr ⟨e, hc, rfl, he⟩
  · cases hx
  · cases hx

end Run
end Effects
