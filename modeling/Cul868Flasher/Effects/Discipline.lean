import Cul868Flasher.Effects.Threads
import Cul868Flasher.Effects.Triples

/-!
# Threads that keep a discipline

Each thread carries a description, which its own calls change. A discipline says
which calls a description allows, which answers it may trust, and how the answer
changes it. `Follows` is the Hoare logic of one thread on its own; what the
descriptions of all threads say of the store is an invariant of the machine as
soon as every allowed call keeps it and gives a trusted answer.
-/

namespace Effects
open Prog

structure Discipline (I : Interface) (Λ : Type) where
  allows : Λ → I.Op → Prop
  trusts : Λ → (o : I.Op) → I.Ans o → Prop
  after : Λ → (o : I.Op) → I.Ans o → Λ

variable {I J : Interface} {ε ε' δ S τ ν α β σ Λ : Type}

/-- The description after a history of calls. -/
def Discipline.over (D : Discipline I Λ) (ℓ : Λ) (t : Trace I) : Λ :=
  t.foldl (fun ℓ e => D.after ℓ e.op e.ans) ℓ

/-- Every answer of the history is one the discipline trusts. -/
def Discipline.Trusted (D : Discipline I Λ) : Λ → Trace I → Prop
  | _, [] => True
  | ℓ, e :: t => D.trusts ℓ e.op e.ans ∧ D.Trusted (D.after ℓ e.op e.ans) t

@[simp] theorem Discipline.over_nil (D : Discipline I Λ) (ℓ : Λ) : D.over ℓ [] = ℓ := rfl

@[simp] theorem Discipline.over_cons (D : Discipline I Λ) (ℓ : Λ) (e : Event I) (t : Trace I) :
    D.over ℓ (e :: t) = D.over (D.after ℓ e.op e.ans) t := rfl

theorem Discipline.over_append (D : Discipline I Λ) (ℓ : Λ) (t u : Trace I) :
    D.over ℓ (t ++ u) = D.over (D.over ℓ t) u := by
  simp [Discipline.over]

theorem Discipline.trusted_append {D : Discipline I Λ} {ℓ : Λ} {t u : Trace I} :
    D.Trusted ℓ (t ++ u) ↔ D.Trusted ℓ t ∧ D.Trusted (D.over ℓ t) u := by
  induction t generalizing ℓ with
  | nil => simp [Discipline.Trusted]
  | cons e t ih => simp only [List.cons_append, Discipline.Trusted, ih, and_assoc, over_cons]

theorem Discipline.trusted_of_mem {D : Discipline I Λ} {t : Trace I}
    (h : ∀ e ∈ t, ∀ ℓ, D.trusts ℓ e.op e.ans) (ℓ : Λ) : D.Trusted ℓ t := by
  induction t generalizing ℓ with
  | nil => trivial
  | cons e t ih =>
    exact ⟨h e (by simp) ℓ, ih (fun e' he' => h e' (List.mem_cons_of_mem e he')) _⟩

theorem Discipline.trusted_of (D : Discipline I Λ) (hD : ∀ ℓ o a, D.trusts ℓ o a) (ℓ : Λ)
    (t : Trace I) : D.Trusted ℓ t :=
  trusted_of_mem (fun e _ ℓ => hD ℓ e.op e.ans) ℓ

/-- From the description `ℓ`, `p` makes allowed calls only; it returns with `Q`
and raises with `E`. -/
def Follows (D : Discipline I Λ) (Q : α → Λ → Prop) (E : ε → Λ → Prop) : Prog I ε α → Λ → Prop
  | .ret a, ℓ => Q a ℓ
  | .raise e, ℓ => E e ℓ
  | .call o k, ℓ => D.allows ℓ o ∧ ∀ a, D.trusts ℓ o a → Follows D Q E (k a) (D.after ℓ o a)
  | .halt, _ => True

namespace Follows
variable {D : Discipline I Λ} {Q Q' : α → Λ → Prop} {E E' : ε → Λ → Prop} {ℓ : Λ}

theorem ret {a : α} (h : Q a ℓ) : Follows D Q E (.ret a) ℓ := h

theorem pure {a : α} (h : Q a ℓ) : Follows D Q E (Pure.pure a : Prog I ε α) ℓ := h

theorem raise {e : ε} (h : E e ℓ) : Follows D Q E (.raise e : Prog I ε α) ℓ := h

theorem conseq {p : Prog I ε α} (hp : Follows D Q' E' p ℓ) (hQ : ∀ a ℓ, Q' a ℓ → Q a ℓ)
    (hE : ∀ e ℓ, E' e ℓ → E e ℓ) : Follows D Q E p ℓ := by
  induction p generalizing ℓ with
  | ret a => exact hQ a ℓ hp
  | raise e => exact hE e ℓ hp
  | call o k ih => exact ⟨hp.1, fun a ha => ih a (hp.2 a ha)⟩
  | halt => trivial

theorem perform {o : I.Op} {Q : I.Ans o → Λ → Prop} (ho : D.allows ℓ o)
    (hQ : ∀ a, D.trusts ℓ o a → Q a (D.after ℓ o a)) :
    Follows D Q E (Prog.perform o : Prog I ε (I.Ans o)) ℓ :=
  ⟨ho, hQ⟩

theorem bind {p : Prog I ε α} {f : α → Prog I ε β} {R : α → Λ → Prop} {Q : β → Λ → Prop}
    (hp : Follows D R E p ℓ) (hf : ∀ a ℓ, R a ℓ → Follows D Q E (f a) ℓ) :
    Follows D Q E (p >>= f) ℓ := by
  change Follows D Q E (p.bind f) ℓ
  induction p generalizing ℓ with
  | ret a => exact hf a ℓ hp
  | raise e => exact hp
  | call o k ih => exact ⟨hp.1, fun a ha => ih a (hp.2 a ha)⟩
  | halt => trivial

/-- Calls that are allowed and change nothing can be passed over. -/
theorem frame {A : I.Op → Prop} {p : Prog I ε α} (hp : Emits A p)
    (hallows : ∀ o, A o → D.allows ℓ o)
    (hafter : ∀ o a, A o → D.after ℓ o a = ℓ) :
    Follows D (fun _ ℓ' => ℓ' = ℓ) (fun _ ℓ' => ℓ' = ℓ) p ℓ := by
  induction p with
  | ret a => exact rfl
  | raise e => exact rfl
  | call o k ih =>
    refine ⟨hallows o hp.1, fun a _ => ?_⟩
    rw [hafter o a hp.1]
    exact ih a (hp.2 a)
  | halt => trivial

/-- Calls that are allowed wherever `K` holds and keep it. -/
theorem keeping {A : I.Op → Prop} {K : Λ → Prop} {p : Prog I ε α} (hp : Emits A p)
    (hA : ∀ ℓ o, A o → K ℓ → D.allows ℓ o ∧ ∀ a, K (D.after ℓ o a)) (hℓ : K ℓ) :
    Follows D (fun _ => K) (fun _ => K) p ℓ := by
  induction p generalizing ℓ with
  | ret a => exact hℓ
  | raise e => exact hℓ
  | call o k ih =>
    obtain ⟨hallow, hkeep⟩ := hA ℓ o hp.1 hℓ
    exact ⟨hallow, fun a _ => ih a (hp.2 a) (hkeep a)⟩
  | halt => trivial

/-- Where every call is allowed, only the exceptions are left to bound. -/
theorem of_raises {p : Prog I ε α} {C : ε → Prop} (hall : ∀ ℓ o, D.allows ℓ o) (hp : Raises C p) :
    Follows D (fun _ _ => True) (fun e _ => C e) p ℓ := by
  induction p generalizing ℓ with
  | ret a => trivial
  | raise e => exact hp
  | call o k ih => exact ⟨hall ℓ o, fun a _ => ih a (hp a)⟩
  | halt => trivial

/-- A call at the head of a sequence. -/
theorem step {o : I.Op} {f : I.Ans o → Prog I ε β} {Q : β → Λ → Prop} (ho : D.allows ℓ o)
    (hf : ∀ a, D.trusts ℓ o a → Follows D Q E (f a) (D.after ℓ o a)) :
    Follows D Q E (Prog.perform o >>= f) ℓ :=
  ⟨ho, hf⟩

theorem attempt {p : Prog I ε α} {E' : ε' → Λ → Prop} (hp : Follows D Q E p ℓ) :
    Follows D (fun x ℓ => (∀ a, x = .ok a → Q a ℓ) ∧ ∀ e, x = .error e → E e ℓ) E'
      (p.attempt : Prog I ε' (Except ε α)) ℓ := by
  induction p generalizing ℓ with
  | ret a =>
    refine ⟨?_, fun _ he => by cases he⟩
    rintro _ ⟨⟩
    exact hp
  | raise e =>
    refine ⟨fun _ ha => (by cases ha), ?_⟩
    rintro _ ⟨⟩
    exact hp
  | call o k ih => exact ⟨hp.1, fun a ha => ih a (hp.2 a ha)⟩
  | halt => trivial

/-- A `try` whose two outcomes are looked at. -/
theorem attempt_bind {p : Prog I ε α} {f : Except ε α → Prog I ε' β} {R : α → Λ → Prop}
    {F : ε → Λ → Prop} {Q : β → Λ → Prop} {E : ε' → Λ → Prop} (hp : Follows D R F p ℓ)
    (hok : ∀ a ℓ, R a ℓ → Follows D Q E (f (.ok a)) ℓ)
    (herr : ∀ e ℓ, F e ℓ → Follows D Q E (f (.error e)) ℓ) :
    Follows D Q E (p.attempt >>= f) ℓ := by
  refine hp.attempt.bind fun x ℓ hx => ?_
  cases x with
  | ok a => exact hok a ℓ (hx.1 a rfl)
  | error e => exact herr e ℓ (hx.2 e rfl)

theorem catching {p : Prog I ε α} {c : ε → Bool} {R : α → Λ → Prop} {F : ε → Λ → Prop}
    {Q : Except ε α → Λ → Prop} (hp : Follows D R F p ℓ) (hok : ∀ a ℓ, R a ℓ → Q (.ok a) ℓ)
    (herr : ∀ e ℓ, c e = true → F e ℓ → Q (.error e) ℓ)
    (hother : ∀ e ℓ, c e = false → F e ℓ → E e ℓ) : Follows D Q E (p.catching c) ℓ := by
  refine attempt_bind hp (fun a ℓ ha => ret (hok a ℓ ha)) fun e ℓ he => ?_
  dsimp only
  split_ifs with hc
  · exact ret (herr e ℓ hc he)
  · exact raise (hother e ℓ (by simpa using hc) he)

theorem catching_bind {p : Prog I ε α} {c : ε → Bool} {f : Except ε α → Prog I ε β}
    {R : α → Λ → Prop} {F : ε → Λ → Prop} {Q : β → Λ → Prop} (hp : Follows D R F p ℓ)
    (hok : ∀ a ℓ, R a ℓ → Follows D Q E (f (.ok a)) ℓ)
    (herr : ∀ e ℓ, c e = true → F e ℓ → Follows D Q E (f (.error e)) ℓ)
    (hother : ∀ e ℓ, c e = false → F e ℓ → E e ℓ) :
    Follows D Q E (p.catching c >>= f) ℓ :=
  bind (R := fun x ℓ => Follows D Q E (f x) ℓ) (catching hp hok herr hother) fun _ _ h => h

theorem ofExcept {x : Except ε α} (hok : ∀ a, x = .ok a → Q a ℓ)
    (herr : ∀ e, x = .error e → E e ℓ) :
    Follows D Q E (Prog.ofExcept x : Prog I ε α) ℓ := by
  cases x with
  | ok a => exact hok a rfl
  | error e => exact herr e rfl

theorem ensuring {p : Prog I ε α} {release : Except ε α → Prog I ε Unit} {R : α → Λ → Prop}
    {F : ε → Λ → Prop} (hp : Follows D R F p ℓ)
    (hok : ∀ a ℓ, R a ℓ → Follows D (fun _ => Q a) E (release (.ok a)) ℓ)
    (herr : ∀ e ℓ, F e ℓ → Follows D (fun _ => E e) E (release (.error e)) ℓ) :
    Follows D Q E (p.ensuring release) ℓ := by
  refine attempt_bind hp (fun a ℓ ha => ?_) fun e ℓ he => ?_
  · exact (hok a ℓ ha).bind fun _ ℓ h => ret h
  · exact (herr e ℓ he).bind fun _ ℓ h => raise h

theorem loop {body : σ → Prog I ε (σ ⊕ α)} {K : σ → Λ → Prop}
    (hb : ∀ s ℓ, K s ℓ → Follows D
      (fun x ℓ => (∀ s', x = .inl s' → K s' ℓ) ∧ ∀ a, x = .inr a → Q a ℓ) E (body s) ℓ)
    (n : ℕ) {s : σ} (h : K s ℓ) : Follows D Q E (Prog.loop body n s) ℓ := by
  induction n generalizing s ℓ with
  | zero => trivial
  | succ n ih =>
    refine (hb s ℓ h).bind fun x ℓ hx => ?_
    cases x with
    | inl s' => exact ih (hx.1 s' rfl)
    | inr a => exact ret (hx.2 a rfl)

theorem raisingWith {p : Prog I ε α} {s : σ} {E : ε × σ → Λ → Prop}
    (hp : Follows D Q (fun e => E (e, s)) p ℓ) : Follows D Q E (p.raisingWith s) ℓ := by
  induction p generalizing ℓ with
  | ret a => exact hp
  | raise e => exact hp
  | call o k ih => exact ⟨hp.1, fun a ha => ih a (hp.2 a ha)⟩
  | halt => trivial

theorem retry {pause : ℕ → Prog I ε Unit} {body : σ → Prog I ε (Except δ α × σ)}
    {K : σ → Λ → Prop} {Q : Except δ α × σ → Λ → Prop}
    (hp : ∀ k s ℓ, K s ℓ → Follows D (fun _ => K s) E (pause k) ℓ)
    (hb : ∀ s ℓ, K s ℓ → Follows D (fun x ℓ => Q x ℓ ∧ ∀ d, x.1 = .error d → K x.2 ℓ) E (body s) ℓ)
    (n k : ℕ) {s : σ} (h : K s ℓ) : Follows D Q E (Prog.retry pause body n k s) ℓ := by
  induction n generalizing k s ℓ with
  | zero => exact (hb s ℓ h).conseq (fun _ _ hx => hx.1) fun _ _ he => he
  | succ n ih =>
    refine (hb s ℓ h).bind fun x ℓ hx => ?_
    obtain ⟨d | a, s'⟩ := x
    · exact (hp k s' ℓ (hx.2 d rfl)).bind fun _ ℓ h => ih (k+1) h
    · exact ret hx.1

/-- A run whose answers can be trusted makes allowed calls only, and ends as the
program does. -/
theorem run {p : Prog I ε α} {t : Trace I} {r : Outcome ε α} (hp : Follows D Q E p ℓ)
    (h : Run p t r) (ht : D.Trusted ℓ t) :
    (∀ u e v, t = u ++ e :: v → D.allows (D.over ℓ u) e.op) ∧
      (∀ a, r = .returned a → Q a (D.over ℓ t)) ∧ ∀ e, r = .raised e → E e (D.over ℓ t) := by
  induction h generalizing ℓ with
  | returned a =>
    refine ⟨by simp, ?_, by simp⟩
    rintro _ ⟨⟩
    exact hp
  | raised e =>
    refine ⟨by simp, by simp, ?_⟩
    rintro _ ⟨⟩
    exact hp
  | cut p => exact ⟨by simp, by simp, by simp⟩
  | @call o k t r a _ ih =>
    obtain ⟨hallow, hret, hraise⟩ := ih (hp.2 a ht.1) ht.2
    refine ⟨fun u e v hsplit => ?_, hret, hraise⟩
    cases u with
    | nil =>
      obtain ⟨rfl, -⟩ : ⟨o, a⟩ = e ∧ t = v := by simpa using hsplit
      exact hp.1
    | cons e' u =>
      obtain ⟨rfl, rfl⟩ : ⟨o, a⟩ = e' ∧ t = u ++ e :: v := by simpa using hsplit
      exact hallow u e v rfl

end Follows

/-- From the description `ℓ`, no trusted answers drive the program into a used-up
budget. -/
def Ends (D : Discipline I Λ) : Prog I ε α → Λ → Prop
  | .ret _, _ => True
  | .raise _, _ => True
  | .call o k, ℓ => ∀ a, D.trusts ℓ o a → Ends D (k a) (D.after ℓ o a)
  | .halt, _ => False

namespace Ends
variable {D : Discipline I Λ} {R : α → Λ → Prop} {F : ε → Λ → Prop} {ℓ : Λ}

theorem pure (a : α) : Ends D (Pure.pure a : Prog I ε α) ℓ := trivial

theorem perform (o : I.Op) : Ends D (Prog.perform o : Prog I ε (I.Ans o)) ℓ := fun _ _ => trivial

theorem ofExcept (x : Except ε α) : Ends D (Prog.ofExcept x : Prog I ε α) ℓ := by
  cases x <;> trivial

theorem bind {p : Prog I ε α} {f : α → Prog I ε β} (hp : Ends D p ℓ) (hR : Follows D R F p ℓ)
    (hf : ∀ a ℓ, R a ℓ → Ends D (f a) ℓ) : Ends D (p >>= f) ℓ := by
  change Ends D (p.bind f) ℓ
  induction p generalizing ℓ with
  | ret a => exact hf a ℓ hR
  | raise e => trivial
  | call o k ih => exact fun a ha => ih a (hp a ha) (hR.2 a ha)
  | halt => exact hp

theorem attempt {p : Prog I ε α} (hp : Ends D p ℓ) :
    Ends D (p.attempt : Prog I ε' (Except ε α)) ℓ := by
  induction p generalizing ℓ with
  | ret a => trivial
  | raise e => trivial
  | call o k ih => exact fun a ha => ih a (hp a ha)
  | halt => exact hp

theorem of_total {p : Prog I ε α} (hp : Total p) : Ends D p ℓ := by
  induction p generalizing ℓ with
  | ret a => trivial
  | raise e => trivial
  | call o k ih => exact fun a _ => ih a (hp a)
  | halt => exact hp

theorem raisingWith {p : Prog I ε α} (hp : Ends D p ℓ) (s : σ) : Ends D (p.raisingWith s) ℓ := by
  induction p generalizing ℓ with
  | ret a => trivial
  | raise e => trivial
  | call o k ih => exact fun a ha => ih a (hp a ha)
  | halt => exact hp

/-- A sequence whose second part ends from every description. -/
theorem andThen {p : Prog I ε α} {f : α → Prog I ε β} (hp : Ends D p ℓ)
    (hf : ∀ a ℓ, Ends D (f a) ℓ) : Ends D (p >>= f) ℓ := by
  change Ends D (p.bind f) ℓ
  induction p generalizing ℓ with
  | ret a => exact hf a ℓ
  | raise e => trivial
  | call o k ih => exact fun a ha => ih a (hp a ha)
  | halt => exact hp

theorem catching {p : Prog I ε α} (hp : Ends D p ℓ) (c : ε → Bool) : Ends D (p.catching c) ℓ := by
  refine hp.attempt.andThen fun x ℓ => ?_
  cases x with
  | ok a => trivial
  | error e =>
    dsimp only
    split_ifs <;> trivial

theorem retry {pause : ℕ → Prog I ε Unit} {body : σ → Prog I ε (Except δ α × σ)}
    (hp : ∀ k ℓ, Ends D (pause k) ℓ) (hb : ∀ s ℓ, Ends D (body s) ℓ) (n k : ℕ) (s : σ) (ℓ : Λ) :
    Ends D (Prog.retry pause body n k s) ℓ := by
  induction n generalizing k s ℓ with
  | zero => exact hb s ℓ
  | succ n ih =>
    refine (hb s ℓ).andThen fun x ℓ => ?_
    obtain ⟨d | a, s'⟩ := x
    · exact (hp k ℓ).andThen fun _ ℓ => ih (k+1) s' ℓ
    · trivial

/-- An iteration ends within a budget of more passes than it has left to make. -/
theorem loop {body : σ → Prog I ε (σ ⊕ α)} {K : ℕ → σ → Λ → Prop}
    (hb : ∀ n s ℓ, K n s ℓ → Ends D (body s) ℓ ∧ Follows D
      (fun x ℓ' => ∀ s', x = .inl s' → ∃ m, m < n ∧ K m s' ℓ') F (body s) ℓ)
    {n m : ℕ} {s : σ} (hn : m < n) (h : K m s ℓ) : Ends D (Prog.loop body n s) ℓ := by
  induction n generalizing m s ℓ with
  | zero => exact absurd hn (Nat.not_lt_zero _)
  | succ n ih =>
    obtain ⟨hends, hfollows⟩ := hb m s ℓ h
    refine hends.bind hfollows fun x ℓ' hx => ?_
    cases x with
    | inl s' =>
      obtain ⟨m', hlt, hK⟩ := hx s' rfl
      exact ih (Nat.lt_of_lt_of_le hlt (Nat.le_of_lt_succ hn)) hK
    | inr a => trivial

theorem exec {p : Prog I ε α} (hp : Ends D p ℓ) {w : ℕ → (o : I.Op) → I.Ans o} {n : ℕ}
    (ht : D.Trusted ℓ (p.exec w n).1) : (p.exec w n).2 ≠ .cut := by
  induction p generalizing ℓ n with
  | ret a => simp [Prog.exec]
  | raise e => simp [Prog.exec]
  | call o k ih => exact ih _ (hp _ ht.1) ht.2
  | halt => exact hp.elim

end Ends

theorem Emits.all (p : Prog J ε α) : Emits (fun _ => True) p := by
  induction p with
  | ret a => trivial
  | raise e => trivial
  | call o k ih => exact ⟨trivial, ih⟩
  | halt => trivial

theorem Emits.handle {A : J.Op → Prop} {B : I.Op → Prop} {h : (o : J.Op) → Prog I ε (J.Ans o)}
    {p : Prog J ε α} (hh : ∀ o, A o → Emits B (h o)) (hp : Emits A p) : Emits B (p.handle h) := by
  induction p with
  | ret a => trivial
  | raise e => trivial
  | call o k ih => exact (hh o hp.1).bind fun a => ih a (hp.2 a)
  | halt => trivial

/-- Handlers that keep a property of the description keep it over the whole
program, whose result is that of one of its own runs. -/
theorem Follows.handle {D : Discipline I Λ} {A : J.Op → Prop} {h : (o : J.Op) → Prog I ε (J.Ans o)}
    {K : Λ → Prop} (hh : ∀ o ℓ, A o → K ℓ → Follows D (fun _ => K) (fun _ _ => False) (h o) ℓ)
    {p : Prog J ε α} (hp : Emits A p) {ℓ : Λ} (hℓ : K ℓ) :
    Follows D (fun a ℓ => K ℓ ∧ ∃ t, Run p t (.returned a)) (fun _ => K) (p.handle h) ℓ := by
  induction p generalizing ℓ with
  | ret a => exact ⟨hℓ, [], .returned a⟩
  | raise e => exact hℓ
  | call o k ih =>
    refine ((hh o ℓ hp.1 hℓ).conseq (fun _ _ h => h) fun _ _ h => h.elim).bind fun a ℓ ha => ?_
    refine (ih a (hp.2 a) ha).conseq ?_ fun _ _ h => h
    rintro b ℓ ⟨hb, t, ht⟩
    exact ⟨hb, _, .call a ht⟩
  | halt => trivial

/-- A run with handlers comes from a run of the program, and shows those of its steps
that each handler shows of its own. -/
theorem Run.handle_returned {h : (o : J.Op) → Prog I ε (J.Ans o)}
    {seen : Event I → Option (Event J)}
    {shows : Event J → Bool}
    (hh : ∀ o t a, Run (h o) t (.returned a) → t.filterMap seen = [⟨o, a⟩].filter shows)
    {p : Prog J ε α} {t : Trace I} {b : α} (hr : Run (p.handle h) t (.returned b)) :
    ∃ w, Run p w (.returned b) ∧ t.filterMap seen = w.filter shows := by
  induction p generalizing t with
  | ret a =>
    cases hr
    exact ⟨[], .returned _, rfl⟩
  | raise e => cases hr
  | call o k ih =>
    obtain ⟨a, t₁, t₂, rfl, h₁, h₂⟩ := Run.bind_returned.mp hr
    obtain ⟨w, hw, hseen⟩ := ih a h₂
    refine ⟨⟨o, a⟩ :: w, .call a hw, ?_⟩
    rw [List.filterMap_append, hh o t₁ a h₁, hseen, ← List.filter_append, List.singleton_append]
  | halt => cases hr

/-! ## Programs that leave their description as it was -/

/-- However it ends, `p` leaves the description it started with. -/
abbrev Preserves (D : Discipline I Λ) (ℓ : Λ) (p : Prog I ε α) : Prop :=
  Follows D (fun _ ℓ' => ℓ' = ℓ) (fun _ ℓ' => ℓ' = ℓ) p ℓ

namespace Preserves
variable {D : Discipline I Λ} {ℓ : Λ}

theorem ret (a : α) : Preserves D ℓ (.ret a : Prog I ε α) := rfl

theorem raise (e : ε) : Preserves D ℓ (.raise e : Prog I ε α) := rfl

theorem ofExcept (x : Except ε α) : Preserves D ℓ (.ofExcept x : Prog I ε α) := by
  cases x <;> rfl

theorem bind {p : Prog I ε α} {f : α → Prog I ε β} (hp : Preserves D ℓ p)
    (hf : ∀ a, Preserves D ℓ (f a)) : Preserves D ℓ (p >>= f) := by
  refine Follows.bind hp ?_
  rintro a _ rfl
  exact hf a

theorem attempt {p : Prog I ε α} (hp : Preserves D ℓ p) :
    Preserves D ℓ (p.attempt : Prog I ε' (Except ε α)) := by
  refine (Follows.attempt hp).conseq (fun x l h => ?_) fun _ l (h : l = ℓ) => h
  cases x with
  | ok a => exact h.1 a rfl
  | error e => exact h.2 e rfl

theorem catching {p : Prog I ε α} (hp : Preserves D ℓ p) (c : ε → Bool) :
    Preserves D ℓ (p.catching c) := by
  refine hp.attempt.bind fun x => ?_
  cases x with
  | ok a => rfl
  | error e =>
    dsimp only
    split_ifs <;> rfl

theorem ensuring {p : Prog I ε α} {release : Except ε α → Prog I ε Unit} (hp : Preserves D ℓ p)
    (hr : ∀ x, Preserves D ℓ (release x)) : Preserves D ℓ (p.ensuring release) :=
  hp.attempt.bind fun x => (hr x).bind fun _ => ofExcept x

theorem loop {body : σ → Prog I ε (σ ⊕ α)} (hb : ∀ s, Preserves D ℓ (body s)) (n : ℕ) (s : σ) :
    Preserves D ℓ (Prog.loop body n s) := by
  induction n generalizing s with
  | zero => trivial
  | succ n ih =>
    refine (hb s).bind fun x => ?_
    cases x with
    | inl s' => exact ih s'
    | inr a => rfl

theorem handle {A : J.Op → Prop} {h : (o : J.Op) → Prog I ε (J.Ans o)} {p : Prog J ε α}
    (hp : Emits A p) (hh : ∀ o, A o → Preserves D ℓ (h o)) : Preserves D ℓ (p.handle h) := by
  induction p with
  | ret a => rfl
  | raise e => rfl
  | call o k ih => exact (hh o hp.1).bind fun a => ih a (hp.2 a)
  | halt => trivial

end Preserves

/-! ## Two disciplines at once -/

def Discipline.both {Λ' : Type} (D : Discipline I Λ) (D' : Discipline I Λ') :
    Discipline I (Λ × Λ') where
  allows ℓ o := D.allows ℓ.1 o ∧ D'.allows ℓ.2 o
  trusts ℓ o a := D.trusts ℓ.1 o a ∧ D'.trusts ℓ.2 o a
  after ℓ o a := (D.after ℓ.1 o a, D'.after ℓ.2 o a)

theorem Follows.both {Λ' : Type} {D : Discipline I Λ} {D' : Discipline I Λ'} {Q : α → Λ → Prop}
    {E : ε → Λ → Prop} {Q' : α → Λ' → Prop} {E' : ε → Λ' → Prop} {p : Prog I ε α} {ℓ : Λ} {ℓ' : Λ'}
    (h : Follows D Q E p ℓ) (h' : Follows D' Q' E' p ℓ') :
    Follows (D.both D') (fun a x => Q a x.1 ∧ Q' a x.2) (fun e x => E e x.1 ∧ E' e x.2) p
      (ℓ, ℓ') := by
  induction p generalizing ℓ ℓ' with
  | ret a => exact ⟨h, h'⟩
  | raise e => exact ⟨h, h'⟩
  | call o k ih => exact ⟨⟨h.1, h'.1⟩, fun a ha => ih a (h.2 a ha.1) (h'.2 a ha.2)⟩
  | halt => trivial

/-! ## The machine -/

/-- The descriptions after one more step of the machine. -/
def Discipline.moved (D : Discipline I Λ) (born : τ → Λ) (ℓ : ℕ → Λ) : Act I τ ν → ℕ → Λ
  | .call i e => Function.update ℓ i (D.after (ℓ i) e.op e.ans)
  | .start i task => Function.update ℓ i (born task)
  | .move _ => ℓ

/-- The descriptions after a history. -/
def Discipline.described (D : Discipline I Λ) (born : τ → Λ) (ℓ : ℕ → Λ)
    (t : List (Act I τ ν)) : ℕ → Λ :=
  t.foldl (D.moved born) ℓ

@[simp] theorem Discipline.described_nil (D : Discipline I Λ) (born : τ → Λ) (ℓ : ℕ → Λ) :
    D.described born ℓ ([] : List (Act I τ ν)) = ℓ := rfl

theorem Discipline.described_snoc (D : Discipline I Λ) (born : τ → Λ) (ℓ : ℕ → Λ)
    (t : List (Act I τ ν)) (m : Act I τ ν) :
    D.described born ℓ (t ++ [m]) = D.moved born (D.described born ℓ t) m := by
  simp [Discipline.described]

/-- `ℓ` describes the threads of `c`: the descriptions and the store meet the
invariant `K`, and each thread follows its description to an end with `Q`. -/
structure Described (D : Discipline I Λ) (idle : Λ) (Q : Λ → Prop)
    (K : List (Act I τ ν) → S → (ℕ → Λ) → Prop) (t : List (Act I τ ν)) (c : System I ε S)
    (ℓ : ℕ → Λ) : Prop where
  holds : K t c.store ℓ
  follows : ∀ i p, c.threads i = some p → Follows D (fun _ => Q) (fun _ => Q) p (ℓ i)
  unstarted : ∀ i, c.threads i = none → ℓ i = idle

namespace Described
variable {D : Discipline I Λ} {idle : Λ} {Q : Λ → Prop}
  {K : List (Act I τ ν) → S → (ℕ → Λ) → Prop} {M : Machine I ε S τ ν}
  {t : List (Act I τ ν)} {c c' c₀ : System I ε S} {m : Act I τ ν} {ℓ : ℕ → Λ}

theorem allows (h : Described D idle Q K t c ℓ) {i : ℕ} {o : I.Op} {k : I.Ans o → Prog I ε Unit}
    (hi : c.threads i = some (.call o k)) : D.allows (ℓ i) o :=
  (h.follows i _ hi).1

/-- What a single step has to keep. -/
structure Kept (D : Discipline I Λ) (idle : Λ) (Q : Λ → Prop)
    (K : List (Act I τ ν) → S → (ℕ → Λ) → Prop) (M : Machine I ε S τ ν) (born : τ → Λ) : Prop where
  call : ∀ t s ℓ i o a s', K t s ℓ → D.allows (ℓ i) o → M.answers i s o a s' →
    D.trusts (ℓ i) o a ∧
      K (t ++ [.call i ⟨o, a⟩]) s' (Function.update ℓ i (D.after (ℓ i) o a))
  start : ∀ t s ℓ i task, K t s ℓ → ℓ i = idle → M.starts s task →
    K (t ++ [.start i task]) s (Function.update ℓ i (born task))
  program : ∀ task, Follows D (fun _ => Q) (fun _ => Q) (M.program task) (born task)
  move : ∀ t s ℓ n s', K t s ℓ → M.moves s n s' → K (t ++ [.move n]) s' ℓ

variable {born : τ → Λ}

theorem step (hK : Kept D idle Q K M born) (h : Described D idle Q K t c ℓ) (hs : M.Step c m c') :
    Described D idle Q K (t ++ [m]) c' (D.moved born ℓ m) := by
  cases hs with
  | @call i o k a s hi ha =>
    obtain ⟨hallow, hk⟩ := h.follows i _ hi
    obtain ⟨htrust, hkept⟩ := hK.call t c.store ℓ i o a s h.holds hallow ha
    refine ⟨hkept, fun j p hj => ?_, fun j hj => ?_⟩
    · by_cases hij : j = i
      · subst hij
        obtain rfl : k a = p := by simpa using hj
        simpa [Discipline.moved] using hk a htrust
      · simp only [Discipline.moved, Function.update_of_ne hij] at hj ⊢
        exact h.follows j p hj
    · have hij : j ≠ i := by
        rintro rfl
        simp at hj
      simp only [Discipline.moved, Function.update_of_ne hij] at hj ⊢
      exact h.unstarted j hj
  | @start i task hi hstart =>
    have hkept := hK.start t c.store ℓ i task h.holds (h.unstarted i hi) hstart
    refine ⟨hkept, fun j p hj => ?_, fun j hj => ?_⟩
    · by_cases hij : j = i
      · subst hij
        obtain rfl : M.program task = p := by simpa using hj
        simpa [Discipline.moved] using hK.program task
      · simp only [Discipline.moved, Function.update_of_ne hij] at hj ⊢
        exact h.follows j p hj
    · have hij : j ≠ i := by
        rintro rfl
        simp at hj
      simp only [Discipline.moved, Function.update_of_ne hij] at hj ⊢
      exact h.unstarted j hj
  | move hm => exact ⟨hK.move t c.store ℓ _ _ h.holds hm, h.follows, h.unstarted⟩

/-- Every system that can be reached is described. -/
theorem reaches (hK : Kept D idle Q K M born) {ℓ₀ : ℕ → Λ} (h₀ : Described D idle Q K [] c₀ ℓ₀)
    (h : M.Reaches c₀ t c) : Described D idle Q K t c (D.described born ℓ₀ t) := by
  induction h with
  | nil => exact h₀
  | snoc _ hs ih =>
    rw [Discipline.described_snoc]
    exact ih.step hK hs

/-- An invariant that is kept because another one is. -/
theorem Kept.extend {T : List (Act I τ ν) → S → (ℕ → Λ) → Prop} (hK : Kept D idle Q K M born)
    (hcall : ∀ t s ℓ i o a s', K t s ℓ → T t s ℓ → D.allows (ℓ i) o → D.trusts (ℓ i) o a →
      M.answers i s o a s' →
      T (t ++ [.call i ⟨o, a⟩]) s' (Function.update ℓ i (D.after (ℓ i) o a)))
    (hstart : ∀ t s ℓ i task, K t s ℓ → T t s ℓ → ℓ i = idle → M.starts s task →
      T (t ++ [.start i task]) s (Function.update ℓ i (born task)))
    (hmove : ∀ t s ℓ n s', K t s ℓ → T t s ℓ → M.moves s n s' → T (t ++ [.move n]) s' ℓ) :
    Kept D idle Q (fun t s ℓ => K t s ℓ ∧ T t s ℓ) M born where
  call := by
    rintro t s ℓ i o a s' ⟨hk, ht⟩ ho ha
    obtain ⟨htrust, hkept⟩ := hK.call t s ℓ i o a s' hk ho ha
    exact ⟨htrust, hkept, hcall t s ℓ i o a s' hk ht ho htrust ha⟩
  start := by
    rintro t s ℓ i task ⟨hk, ht⟩ hidle hs
    exact ⟨hK.start t s ℓ i task hk hidle hs, hstart t s ℓ i task hk ht hidle hs⟩
  program := hK.program
  move := by
    rintro t s ℓ n s' ⟨hk, ht⟩ hm
    exact ⟨hK.move t s ℓ n s' hk hm, hmove t s ℓ n s' hk ht hm⟩

end Described
end Effects
