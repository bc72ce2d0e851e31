import Cul868Flasher.Effects.Discipline
import Cul868Flasher.Effects.Evaluation

/-!
# Lower levels

The calls of a program are answered by programs of a lower interface, which keep
a state of their own. A run below is a run of the program whose calls have been
replaced by runs of their implementations, and a discipline that every
implementation follows is followed by the whole.
-/

namespace Effects
open Prog

variable {I J : Interface} {ε α σ Λ Λ' : Type}

/-- Below, the way the program ends is a value next to the last state. -/
def Prog.lower (h : (o : J.Op) → σ → Prog I Empty (J.Ans o × σ)) :
    Prog J ε α → σ → Prog I Empty (Except ε α × σ)
  | .ret a, s => .ret (.ok a, s)
  | .raise e, s => .ret (.error e, s)
  | .call o k, s => (h o s).bind fun x => (k x.1).lower h x.2
  | .halt, _ => .halt

theorem Prog.bind_assoc {β γ : Type} (p : Prog I ε α) (f : α → Prog I ε β) (g : β → Prog I ε γ) :
    p >>= f >>= g = p >>= fun a => f a >>= g := by
  change (p.bind f).bind g = p.bind fun a => (f a).bind g
  induction p with
  | ret a => rfl
  | raise e => rfl
  | call o k ih => exact congrArg (Prog.call o) (funext ih)
  | halt => rfl

variable {h : (o : J.Op) → σ → Prog I Empty (J.Ans o × σ)} {p : Prog J ε α} {s : σ}

/-- The steps below implement the calls one after the other. -/
inductive Realizes (h : (o : J.Op) → σ → Prog I Empty (J.Ans o × σ)) :
    σ → Trace J → Trace I → σ → Prop where
  | nil (s : σ) : Realizes h s [] [] s
  | cons {o : J.Op} {a : J.Ans o} {s₁ s₂ s₃ : σ} {t : Trace J} {u v : Trace I} :
      Run (h o s₁) u (.returned (a, s₂)) → Realizes h s₂ t v s₃ →
      Realizes h s₁ (⟨o, a⟩ :: t) (u ++ v) s₃

theorem Realizes.append_inv {s₁ s₃ : σ} {t t' : Trace J} {u : Trace I}
    (hr : Realizes h s₁ (t ++ t') u s₃) :
    ∃ v w s₂, u = v ++ w ∧ Realizes h s₁ t v s₂ ∧ Realizes h s₂ t' w s₃ := by
  induction t generalizing s₁ u with
  | nil => exact ⟨[], u, s₁, rfl, .nil s₁, hr⟩
  | cons e t ih =>
    cases hr with
    | cons hfirst hrest =>
      obtain ⟨v, w, s₂, rfl, ht, ht'⟩ := ih hrest
      exact ⟨_, w, s₂, (List.append_assoc ..).symm, .cons hfirst ht, ht'⟩

/-- A cut run below has come to an end with the calls `t`, or is in the middle of
the implementation of one more call. -/
inductive Underway (h : (o : J.Op) → σ → Prog I Empty (J.Ans o × σ)) (p : Prog J ε α) (s : σ)
    (t : Trace J) (u : Trace I) : Prop where
  | between {s' : σ} : Realizes h s t u s' → Underway h p s t u
  | inside {s' : σ} {o : J.Op} {v w : Trace I} : u = v ++ w → Realizes h s t v s' →
      Run (h o s') w .cut → (∀ a, Run p (t ++ [⟨o, a⟩]) .cut) → Underway h p s t u

namespace Run

/-- A run below is a run of the program: it ends as the program does, or both are cut. -/
theorem of_lower {u : Trace I} {r : Outcome Empty (Except ε α × σ)} (hr : Run (p.lower h s) u r) :
    (∃ t x s', r = .returned (x, s') ∧ Run p t (.ofExcept x) ∧ Realizes h s t u s') ∨
      r = .cut ∧ ∃ t, Run p t .cut ∧ Underway h p s t u := by
  induction p generalizing s u with
  | ret a =>
    obtain ⟨rfl, rfl | rfl⟩ := ret_iff.mp hr
    · exact .inl ⟨[], .ok a, s, rfl, .returned a, .nil s⟩
    · exact .inr ⟨rfl, [], .cut _, .between (.nil s)⟩
  | raise e =>
    obtain ⟨rfl, rfl | rfl⟩ := ret_iff.mp hr
    · exact .inl ⟨[], .error e, s, rfl, .raised e, .nil s⟩
    · exact .inr ⟨rfl, [], .cut _, .between (.nil s)⟩
  | call o k ih =>
    rcases bind_inv hr with ⟨⟨a, s₂⟩, v, w, rfl, hv, hw⟩ | ⟨e, -⟩ | ⟨rfl, hv⟩
    · rcases ih a hw with ⟨t, x, s', rfl, ht, hreal⟩ | ⟨rfl, t, ht, hunder⟩
      · exact .inl ⟨⟨o, a⟩ :: t, x, s', rfl, .call a ht, .cons hv hreal⟩
      · refine .inr ⟨rfl, ⟨o, a⟩ :: t, .call a ht, ?_⟩
        cases hunder with
        | between hreal => exact .between (.cons hv hreal)
        | inside hsplit hreal hcut hnext =>
          refine .inside ?_ (.cons hv hreal) hcut fun b => .call a (hnext b)
          rw [hsplit, List.append_assoc]
    · exact e.elim
    · exact .inr ⟨rfl, [], .cut _, .inside rfl (.nil s) hv fun a => .call a (.cut _)⟩
  | halt =>
    obtain ⟨rfl, rfl⟩ := halt_iff.mp hr
    exact .inr ⟨rfl, [], .cut _, .between (.nil s)⟩

end Run

variable {D : Discipline J Λ} {D' : Discipline I Λ'} {Q : α → Λ → Prop} {E : ε → Λ → Prop}

/-- Where every implementation keeps the relation between the descriptions above and
below, a program that follows its discipline above follows the one below. -/
theorem Follows.lower {R : Λ → σ → Λ' → Prop}
    (hh : ∀ o ℓ s ℓ', D.allows ℓ o → R ℓ s ℓ' → Follows D'
      (fun x ℓ' => D.trusts ℓ o x.1 ∧ R (D.after ℓ o x.1) x.2 ℓ') (fun e _ => e.elim) (h o s) ℓ')
    {ℓ : Λ} {ℓ' : Λ'} (hp : Follows D Q E p ℓ) (hR : R ℓ s ℓ') :
    Follows D' (fun x ℓ' => ∃ ℓ, R ℓ x.2 ℓ' ∧ (∀ a, x.1 = .ok a → Q a ℓ) ∧
      ∀ e, x.1 = .error e → E e ℓ) (fun e _ => e.elim) (p.lower h s) ℓ' := by
  induction p generalizing s ℓ ℓ' with
  | ret a =>
    refine ⟨ℓ, hR, ?_, fun _ he => by cases he⟩
    rintro _ ⟨⟩
    exact hp
  | raise e =>
    refine ⟨ℓ, hR, fun _ ha => (by cases ha), ?_⟩
    rintro _ ⟨⟩
    exact hp
  | call o k ih => exact (hh o ℓ s ℓ' hp.1 hR).bind fun x ℓ₁ hx => ih x.1 (hp.2 x.1 hx.1) hx.2
  | halt => trivial

/-! ## Levels with states -/

variable {S S' : Type}

/-- The calls of a history are made one after the other, each with an answer that the
state at the time permits. -/
inductive Performs (A : S → (o : I.Op) → I.Ans o → S → Prop) : S → Trace I → S → Prop where
  | nil (s : S) : Performs A s [] s
  | cons {s₁ s₂ s₃ : S} {o : I.Op} {a : I.Ans o} {t : Trace I} :
      A s₁ o a s₂ → Performs A s₂ t s₃ → Performs A s₁ (⟨o, a⟩ :: t) s₃

namespace Performs
variable {A : S → (o : I.Op) → I.Ans o → S → Prop} {t u : Trace I} {s₁ s₂ s₃ : S}

theorem append_inv (h : Performs A s₁ (t ++ u) s₃) :
    ∃ s₂, Performs A s₁ t s₂ ∧ Performs A s₂ u s₃ := by
  induction t generalizing s₁ with
  | nil => exact ⟨s₁, .nil s₁, h⟩
  | cons e t ih =>
    cases h with
    | cons ha h =>
      obtain ⟨s₂, ht, hu⟩ := ih h
      exact ⟨s₂, .cons ha ht, hu⟩

end Performs

/-! ## A state as the description -/

/-- Answers that a state permits, each with the state it leaves. -/
structure Medium (I : Interface) (S : Type) where
  permits : S → (o : I.Op) → I.Ans o → Prop
  next : S → (o : I.Op) → I.Ans o → S

namespace Medium
variable (B : Medium I S) (K : S → Prop)

def Answers (s : S) (o : I.Op) (a : I.Ans o) (s' : S) : Prop := B.permits s o a ∧ s' = B.next s o a

/-- Programs that keep `K` with every single call. -/
def discipline : Discipline I S where
  allows s o := ∀ a, B.permits s o a → K (B.next s o a)
  trusts := B.permits
  after := B.next

variable {B K} {s s' : S} {t : Trace I}

theorem trusted_of_performs (h : Performs B.Answers s t s') :
    (B.discipline K).Trusted s t ∧ (B.discipline K).over s t = s' := by
  induction h with
  | nil s => exact ⟨trivial, rfl⟩
  | cons ha _ ih =>
    obtain ⟨hpermits, rfl⟩ := ha
    exact ⟨⟨hpermits, ih.1⟩, ih.2⟩

/-- Wherever the run ends, `K` holds of the state. -/
theorem run {ε : Type} {Q : α → S → Prop} {E : ε → S → Prop} {p : Prog I ε α} {r : Outcome ε α}
    (hp : Follows (B.discipline K) Q E p s) (hs : K s) (hr : Run p t r)
    (ht : Performs B.Answers s t s') :
    K s' ∧ (∀ a, r = .returned a → Q a s') ∧ ∀ e, r = .raised e → E e s' := by
  obtain ⟨htrusted, rfl⟩ := trusted_of_performs (K := K) ht
  obtain ⟨hallows, hreturned, hraised⟩ := hp.run hr htrusted
  refine ⟨?_, hreturned, hraised⟩
  rcases List.eq_nil_or_concat' t with rfl | ⟨u, e, rfl⟩
  · exact hs
  · obtain ⟨s₁, hu, he⟩ := ht.append_inv
    cases he with
    | cons ha hnil =>
      cases hnil
      obtain ⟨hpermits, hnext⟩ := ha
      have hallow := hallows u _ [] rfl
      rw [(trusted_of_performs hu).2] at hallow
      rw [hnext]
      exact hallow _ hpermits

/-- A run in which every call is answered from its number and the state. -/
def exec (B : Medium I S) (w : ℕ → S → (o : I.Op) → I.Ans o) :
    Prog I ε α → ℕ → S → Trace I × Outcome ε α × S
  | .ret a, _, s => ([], .returned a, s)
  | .raise e, _, s => ([], .raised e, s)
  | .call o k, n, s =>
    let rest := B.exec w (k (w n s o)) (n+1) (B.next s o (w n s o))
    (⟨o, w n s o⟩ :: rest.1, rest.2)
  | .halt, _, s => ([], .cut, s)

variable {w : ℕ → S → (o : I.Op) → I.Ans o}

theorem exec_run (w : ℕ → S → (o : I.Op) → I.Ans o) (p : Prog I ε α) (n : ℕ) (s : S) :
    Run p (B.exec w p n s).1 (B.exec w p n s).2.1 := by
  induction p generalizing n s with
  | ret a => exact .returned a
  | raise e => exact .raised e
  | call o k ih => exact .call _ (ih _ _ _)
  | halt => exact .cut _

theorem exec_performs (hw : ∀ n s o, B.permits s o (w n s o)) (p : Prog I ε α) (n : ℕ) (s : S) :
    Performs B.Answers s (B.exec w p n s).1 (B.exec w p n s).2.2 := by
  induction p generalizing n s with
  | ret a => exact .nil s
  | raise e => exact .nil s
  | call o k ih => exact .cons ⟨hw n s o, rfl⟩ (ih _ _ _)
  | halt => exact .nil s

end Medium

/-- The description is the state, and every trusted answer may be given. -/
def Discipline.medium (D : Discipline I Λ) : Medium I Λ := ⟨D.trusts, D.after⟩

theorem Discipline.exec_trusted {D : Discipline I Λ} {w : ℕ → Λ → (o : I.Op) → I.Ans o}
    (hw : ∀ n ℓ o, D.trusts ℓ o (w n ℓ o)) (p : Prog I ε α) (n : ℕ) (ℓ : Λ) :
    D.Trusted ℓ (D.medium.exec w p n ℓ).1 ∧
      D.over ℓ (D.medium.exec w p n ℓ).1 = (D.medium.exec w p n ℓ).2.2 := by
  induction p generalizing n ℓ with
  | ret a => exact ⟨trivial, rfl⟩
  | raise e => exact ⟨trivial, rfl⟩
  | call o k ih =>
    obtain ⟨htrusted, hover⟩ := ih (w n ℓ o) (n+1) (D.after ℓ o (w n ℓ o))
    exact ⟨⟨hw n ℓ o, htrusted⟩, hover⟩
  | halt => exact ⟨trivial, rfl⟩

end Effects
