import Cul868Flasher.Effects.Rules
import Mathlib.Data.List.Induction

/-!
# Triples over the history of calls

A condition speaks about all calls made so far. `Triple J P p Q E` says that
whatever `p` does after a history with `P`, the invariant `J` holds at every
moment, `Q` when it returns and `E` when it raises. The outcome of a run that
is cut is not constrained, so `J` is what a crash leaves behind.
-/

namespace Effects
open Prog

variable {I : Interface} {ε ε' δ σ α β : Type}

def Triple (J P : Trace I → Prop) (p : Prog I ε α) (Q : α → Trace I → Prop)
    (E : ε → Trace I → Prop) : Prop :=
  ∀ h t r, J h → P h → Run p t r → J (h ++ t) ∧
    (∀ a, r = .returned a → Q a (h ++ t)) ∧ (∀ e, r = .raised e → E e (h ++ t))

namespace Triple
variable {J P P' : Trace I → Prop} {Q Q' : α → Trace I → Prop} {E E' : ε → Trace I → Prop}

theorem invariant {p : Prog I ε α} (hp : Triple J P p Q E) {h t : Trace I} {r : Outcome ε α}
    (hj : J h) (hh : P h) (hr : Run p t r) : J (h ++ t) :=
  (hp h t r hj hh hr).1

theorem returned {p : Prog I ε α} (hp : Triple J P p Q E) {h t : Trace I} {a : α}
    (hj : J h) (hh : P h) (hr : Run p t (.returned a)) : Q a (h ++ t) :=
  (hp h t _ hj hh hr).2.1 a rfl

theorem raised {p : Prog I ε α} (hp : Triple J P p Q E) {h t : Trace I} {e : ε}
    (hj : J h) (hh : P h) (hr : Run p t (.raised e)) : E e (h ++ t) :=
  (hp h t _ hj hh hr).2.2 e rfl

theorem conseq {p : Prog I ε α} (hp : Triple J P' p Q' E') (hP : ∀ h, J h → P h → P' h)
    (hQ : ∀ a h, J h → Q' a h → Q a h) (hE : ∀ e h, J h → E' e h → E e h) :
    Triple J P p Q E := by
  intro h t r hj hh hr
  obtain ⟨hinv, hret, hraise⟩ := hp h t r hj (hP h hj hh) hr
  exact ⟨hinv, fun a ha => hQ a _ hinv (hret a ha), fun e he => hE e _ hinv (hraise e he)⟩

theorem pre {p : Prog I ε α} (hp : Triple J P' p Q E) (hP : ∀ h, J h → P h → P' h) :
    Triple J P p Q E :=
  hp.conseq hP (fun _ _ _ h => h) (fun _ _ _ h => h)

theorem post {p : Prog I ε α} (hp : Triple J P p Q' E) (hQ : ∀ a h, J h → Q' a h → Q a h) :
    Triple J P p Q E :=
  hp.conseq (fun _ _ h => h) hQ (fun _ _ _ h => h)

theorem exc {p : Prog I ε α} (hp : Triple J P p Q E') (hE : ∀ e h, J h → E' e h → E e h) :
    Triple J P p Q E :=
  hp.conseq (fun _ _ h => h) (fun _ _ _ h => h) hE

theorem and {J' : Trace I → Prop} {p : Prog I ε α} (hp : Triple J P p Q E)
    (hp' : Triple J' P' p Q' E') :
    Triple (fun h => J h ∧ J' h) (fun h => P h ∧ P' h) p (fun a h => Q a h ∧ Q' a h)
      (fun e h => E e h ∧ E' e h) := by
  intro h t r hj hh hr
  obtain ⟨hinv, hret, hraise⟩ := hp h t r hj.1 hh.1 hr
  obtain ⟨hinv', hret', hraise'⟩ := hp' h t r hj.2 hh.2 hr
  exact ⟨⟨hinv, hinv'⟩, fun a ha => ⟨hret a ha, hret' a ha⟩,
    fun e he => ⟨hraise e he, hraise' e he⟩⟩

/-- A part of the precondition that does not speak of the history. -/
theorem fact {φ : Prop} {p : Prog I ε α} (hp : φ → Triple J P p Q E) :
    Triple J (fun h => φ ∧ P h) p Q E :=
  fun h t r hj hh hr => hp hh.1 h t r hj hh.2 hr

theorem ex {ι : Type} {P : ι → Trace I → Prop} {p : Prog I ε α}
    (hp : ∀ i, Triple J (P i) p Q E) : Triple J (fun h => ∃ i, P i h) p Q E := by
  rintro h t r hj ⟨i, hi⟩ hr
  exact hp i h t r hj hi hr

theorem or {p : Prog I ε α} (hp : Triple J P p Q E) (hp' : Triple J P' p Q E) :
    Triple J (fun h => P h ∨ P' h) p Q E := by
  rintro h t r hj (hh | hh) hr
  · exact hp h t r hj hh hr
  · exact hp' h t r hj hh hr

theorem ret {a : α} (hQ : ∀ h, J h → P h → Q a h) : Triple J P (.ret a : Prog I ε α) Q E := by
  intro h t r hj hh hr
  obtain ⟨rfl, rfl | rfl⟩ := Run.ret_iff.mp hr
  · simpa using ⟨hj, hQ h hj hh⟩
  · simpa using hj

theorem pure {a : α} (hQ : ∀ h, J h → P h → Q a h) :
    Triple J P (Pure.pure a : Prog I ε α) Q E :=
  ret hQ

theorem raise {e : ε} (hE : ∀ h, J h → P h → E e h) :
    Triple J P (.raise e : Prog I ε α) Q E := by
  intro h t r hj hh hr
  obtain ⟨rfl, rfl | rfl⟩ := Run.raise_iff.mp hr
  · simpa using ⟨hj, hE h hj hh⟩
  · simpa using hj

theorem halt : Triple J P (.halt : Prog I ε α) Q E := by
  intro h t r hj _ hr
  obtain ⟨rfl, rfl⟩ := Run.halt_iff.mp hr
  simpa using hj

theorem ofExcept {x : Except ε α} (hQ : ∀ a h, x = .ok a → J h → P h → Q a h)
    (hE : ∀ e h, x = .error e → J h → P h → E e h) :
    Triple J P (Prog.ofExcept x : Prog I ε α) Q E := by
  cases x with
  | ok a => exact ret fun h => hQ a h rfl
  | error e => exact raise fun h => hE e h rfl

theorem perform {o : I.Op} {Q : I.Ans o → Trace I → Prop}
    (hQ : ∀ a h, J h → P h → J (h ++ [⟨o, a⟩]) ∧ Q a (h ++ [⟨o, a⟩])) :
    Triple J P (Prog.perform o : Prog I ε (I.Ans o)) Q E := by
  intro h t r hj hh hr
  obtain ⟨rfl, rfl⟩ | ⟨a, rfl, rfl | rfl⟩ := Run.perform_iff.mp hr
  · simpa using hj
  · simpa using hQ a h hj hh
  · simpa using (hQ a h hj hh).1

theorem bind {p : Prog I ε α} {f : α → Prog I ε β} {R : α → Trace I → Prop}
    {Q : β → Trace I → Prop} (hp : Triple J P p R E) (hf : ∀ a, Triple J (R a) (f a) Q E) :
    Triple J P (p >>= f) Q E := by
  intro h t r hj hh hr
  obtain ⟨a, t₁, t₂, rfl, h₁, h₂⟩ | ⟨e, rfl, h₁⟩ | ⟨rfl, h₁⟩ := Run.bind_inv hr
  · rw [← List.append_assoc]
    exact hf a (h ++ t₁) t₂ r (hp.invariant hj hh h₁) (hp.returned hj hh h₁) h₂
  · refine ⟨hp.invariant hj hh h₁, by simp, ?_⟩
    intro e' he
    cases he
    exact hp.raised hj hh h₁
  · exact ⟨hp.invariant hj hh h₁, by simp, by simp⟩

theorem attempt {p : Prog I ε α} {E' : ε' → Trace I → Prop} (hp : Triple J P p Q E) :
    Triple J P (p.attempt : Prog I ε' (Except ε α))
      (fun x h => (∀ a, x = .ok a → Q a h) ∧ ∀ e, x = .error e → E e h) E' := by
  intro h t r hj hh hr
  obtain ⟨a, rfl, ha⟩ | ⟨e, rfl, he⟩ | ⟨rfl, h₁⟩ := Run.attempt_inv hr
  · simpa using ⟨hp.invariant hj hh ha, hp.returned hj hh ha⟩
  · simpa using ⟨hp.invariant hj hh he, hp.raised hj hh he⟩
  · simpa using hp.invariant hj hh h₁

theorem catching {p : Prog I ε α} {c : ε → Bool} (hp : Triple J P p Q E) :
    Triple J P (p.catching c)
      (fun x h => (∀ a, x = .ok a → Q a h) ∧ ∀ e, x = .error e → c e = true ∧ E e h)
      (fun e h => c e = false ∧ E e h) := by
  intro h t r hj hh hr
  obtain ⟨a, rfl, ha⟩ | ⟨e, hc, rfl, he⟩ | ⟨e, hc, rfl, he⟩ | ⟨rfl, h₁⟩ := Run.catching_inv hr
  · simpa using ⟨hp.invariant hj hh ha, hp.returned hj hh ha⟩
  · simpa using ⟨hp.invariant hj hh he, hc, hp.raised hj hh he⟩
  · simpa using ⟨hp.invariant hj hh he, hc, hp.raised hj hh he⟩
  · simpa using hp.invariant hj hh h₁

/-- Calls that matter to no condition can be passed over. -/
theorem frame {A : I.Op → Prop} {p : Prog I ε α} (hp : Emits A p)
    (hJ : ∀ h e, A e.op → P h → J h → J (h ++ [e])) (hP : ∀ h e, A e.op → P h → P (h ++ [e])) :
    Triple J P p (fun _ => P) (fun _ => P) := by
  intro h t r hj hh hr
  have hall : ∀ e ∈ t, A e.op := hp.run hr
  clear hr hp
  induction t generalizing h with
  | nil => simpa using ⟨hj, fun _ _ => hh, fun _ _ => hh⟩
  | cons e t ih =>
    have he := hall e (by simp)
    have := ih (h ++ [e]) (hJ h e he hh hj) (hP h e he hh) fun x hx => hall x (by simp [hx])
    simpa using this

/-- What the run itself tells can be added to what the condition tells. -/
theorem record {p : Prog I ε α} (hp : Triple J P p Q E) :
    Triple J P p
      (fun a h => Q a h ∧ ∃ h₀ t, h = h₀ ++ t ∧ P h₀ ∧ Run p t (.returned a))
      (fun e h => E e h ∧ ∃ h₀ t, h = h₀ ++ t ∧ P h₀ ∧ Run p t (.raised e)) := by
  intro h t r hj hh hr
  obtain ⟨hinv, hret, hraise⟩ := hp h t r hj hh hr
  refine ⟨hinv, ?_, ?_⟩
  · rintro a rfl
    exact ⟨hret a rfl, h, t, rfl, hh, hr⟩
  · rintro e rfl
    exact ⟨hraise e rfl, h, t, rfl, hh, hr⟩

theorem loop {body : σ → Prog I ε (σ ⊕ α)} {S : σ → Trace I → Prop}
    (hb : ∀ s, Triple J (S s) (body s)
      (fun x h => (∀ s', x = .inl s' → S s' h) ∧ ∀ a, x = .inr a → Q a h) E)
    (n : ℕ) (s : σ) : Triple J (S s) (Prog.loop body n s) Q E := by
  induction n generalizing s with
  | zero => exact halt
  | succ n ih =>
    refine (hb s).bind fun x => ?_
    cases x with
    | inl s' => exact (ih s').pre fun h _ hx => hx.1 s' rfl
    | inr a => exact ret fun h _ hx => hx.2 a rfl

theorem retry {pause : ℕ → Prog I ε Unit} {body : σ → Prog I ε (Except δ α × σ)}
    {S F : σ → Trace I → Prop} {Q : Except δ α × σ → Trace I → Prop}
    (hb : ∀ s, Triple J (S s) (body s)
      (fun x h => Q x h ∧ ∀ d, x.1 = .error d → F x.2 h) E)
    (hp : ∀ k s, Triple J (F s) (pause k) (fun _ => S s) E)
    (n k : ℕ) (s : σ) : Triple J (S s) (Prog.retry pause body n k s) Q E := by
  induction n generalizing k s with
  | zero => exact (hb s).post fun _ _ _ hx => hx.1
  | succ n ih =>
    refine (hb s).bind fun x => ?_
    obtain ⟨d | a, s'⟩ := x
    · refine Triple.bind (R := fun _ => S s') ?_ fun _ => ih (k+1) s'
      exact (hp k s').pre fun h _ hx => hx.2 d rfl
    · exact ret fun h _ hx => hx.1

end Triple

/-! ## Guards -/

/-- Every step of the history was made when its guard held. -/
def Guarded (G : Trace I → Event I → Prop) (h : Trace I) : Prop :=
  ∀ u e v, h = u ++ e :: v → G u e

namespace Guarded
variable {G : Trace I → Event I → Prop}

theorem nil : Guarded G [] := by
  intro u e v h
  simp at h

theorem of_append {h t : Trace I} (hg : Guarded G (h ++ t)) : Guarded G h := by
  rintro u e v rfl
  exact hg u e (v ++ t) (by simp)

theorem snoc {h : Trace I} {e : Event I} (hg : Guarded G h) (he : G h e) :
    Guarded G (h ++ [e]) := by
  intro u x v hsplit
  rcases List.eq_nil_or_concat v with rfl | ⟨w, y, rfl⟩
  · obtain ⟨rfl, hx⟩ := List.append_inj' hsplit rfl
    obtain rfl : e = x := by simpa using hx
    exact he
  · rw [List.concat_eq_append, ← List.cons_append, ← List.append_assoc] at hsplit
    exact hg u x w (List.append_inj' hsplit rfl).1

/-- A call that is guarded against its repetition is made at most once. -/
theorem filter_length_le_one {P : Event I → Prop} [DecidablePred P] {t : Trace I}
    (hg : Guarded G t) (hG : ∀ u e, G u e → P e → ∀ x ∈ u, ¬ P x) :
    (t.filter fun e => decide (P e)).length ≤ 1 := by
  induction t using List.reverseRecOn with
  | nil => simp
  | append_singleton t e ih =>
    rw [List.filter_append, List.length_append]
    by_cases he : P e
    · have hnone : t.filter (fun x => decide (P x)) = [] := by
        refine List.filter_eq_nil_iff.mpr fun x hx => ?_
        simpa using hG t e (hg t e [] rfl) he x hx
      rw [hnone]
      simp [he]
    · simpa [he] using ih hg.of_append

/-- Calls without a guard keep a guarded history guarded. -/
theorem frame {A : I.Op → Prop} {p : Prog I ε α} {P : Trace I → Prop} (hp : Emits A p)
    (hG : ∀ h e, A e.op → G h e) (hP : ∀ h e, A e.op → P h → P (h ++ [e])) :
    Triple (Guarded G) P p (fun _ => P) (fun _ => P) :=
  Triple.frame hp (fun h e he _ hg => hg.snoc (hG h e he)) hP

/-- Calls whose guard follows from what they keep. -/
theorem frame_of {A : I.Op → Prop} {p : Prog I ε α} {P : Trace I → Prop} (hp : Emits A p)
    (hG : ∀ h e, A e.op → P h → G h e) (hP : ∀ h e, A e.op → P h → P (h ++ [e])) :
    Triple (Guarded G) P p (fun _ => P) (fun _ => P) :=
  Triple.frame hp (fun h e he hh hg => hg.snoc (hG h e he hh)) hP

end Guarded

/-! ## State that outlives an exception -/

namespace Prog

/-- Exceptions of a program that does not touch the state `s` carry it along. -/
def raisingWith (s : σ) : Prog I ε α → Prog I (ε × σ) α
  | .ret a => .ret a
  | .raise e => .raise (e, s)
  | .call o k => .call o (fun a => (k a).raisingWith s)
  | .halt => .halt

/-- A Python `finally`, whose own exception replaces that of the block. -/
def ensuring (p : Prog I ε α) (release : Except ε α → Prog I ε Unit) : Prog I ε α :=
  p.attempt >>= fun x => release x >>= fun _ => ofExcept x

end Prog

theorem Run.raisingWith_inv {s : σ} {p : Prog I ε α} {t : Trace I} {r : Outcome (ε × σ) α}
    (h : Run (p.raisingWith s) t r) :
    (∃ a, r = .returned a ∧ Run p t (.returned a)) ∨
    (∃ e, r = .raised (e, s) ∧ Run p t (.raised e)) ∨ (r = .cut ∧ Run p t .cut) := by
  induction p generalizing t with
  | ret a =>
    obtain ⟨rfl, rfl | rfl⟩ := ret_iff.mp h
    · exact .inl ⟨a, rfl, .returned a⟩
    · exact .inr (.inr ⟨rfl, .cut _⟩)
  | raise e =>
    obtain ⟨rfl, rfl | rfl⟩ := raise_iff.mp h
    · exact .inr (.inl ⟨e, rfl, .raised e⟩)
    · exact .inr (.inr ⟨rfl, .cut _⟩)
  | call o k ih =>
    obtain ⟨rfl, rfl⟩ | ⟨a, t', rfl, hk⟩ := call_iff.mp h
    · exact .inr (.inr ⟨rfl, .cut _⟩)
    · obtain ⟨b, rfl, h₁⟩ | ⟨e, rfl, h₁⟩ | ⟨rfl, h₁⟩ := ih a hk
      · exact .inl ⟨b, rfl, .call a h₁⟩
      · exact .inr (.inl ⟨e, rfl, .call a h₁⟩)
      · exact .inr (.inr ⟨rfl, .call a h₁⟩)
  | halt =>
    obtain ⟨rfl, rfl⟩ := halt_iff.mp h
    exact .inr (.inr ⟨rfl, .cut _⟩)

theorem Run.raisingWith_returned {s : σ} {p : Prog I ε α} {t : Trace I} {a : α} :
    Run (p.raisingWith s) t (.returned a) ↔ Run p t (.returned a) := by
  constructor
  · intro h
    obtain ⟨b, hb, h⟩ | ⟨e, he, _⟩ | ⟨hc, _⟩ := raisingWith_inv h
    · cases hb
      exact h
    · cases he
    · cases hc
  · intro h
    induction p generalizing t with
    | ret b =>
      cases h
      exact .returned _
    | raise e => cases h
    | call o k ih =>
      cases h with
      | call b h => exact .call b (ih b h)
    | halt => cases h

theorem Emits.raisingWith {A : I.Op → Prop} {p : Prog I ε α} (hp : Emits A p) (s : σ) :
    Emits A (p.raisingWith s) := by
  induction p with
  | ret a => trivial
  | raise e => trivial
  | call o k ih => exact ⟨hp.1, fun a => ih a (hp.2 a)⟩
  | halt => trivial

theorem Emits.ofExcept {A : I.Op → Prop} (x : Except ε α) :
    Emits A (Prog.ofExcept x : Prog I ε α) := by
  cases x <;> trivial

theorem Emits.ofExcept_bind {A : I.Op → Prop} {x : Except ε α} {f : α → Prog I ε β}
    (h : ∀ a, x = .ok a → Emits A (f a)) : Emits A (Prog.ofExcept x >>= f) := by
  cases x with
  | ok a => exact h a rfl
  | error e => trivial

theorem Emits.ensuring {A : I.Op → Prop} {p : Prog I ε α} {release : Except ε α → Prog I ε Unit}
    (hp : Emits A p) (hr : ∀ x, Emits A (release x)) : Emits A (p.ensuring release) :=
  hp.attempt.bind fun x => (hr x).bind fun _ => .ofExcept x

theorem Total.raisingWith {p : Prog I ε α} (hp : Total p) (s : σ) : Total (p.raisingWith s) := by
  induction p with
  | ret a => trivial
  | raise e => trivial
  | call o k ih => exact fun a => ih a (hp a)
  | halt => exact hp

theorem Raises.ensuring {C : ε → Prop} {p : Prog I ε α} {release : Except ε α → Prog I ε Unit}
    (hp : Raises C p) (hr : ∀ x, Raises C (release x)) : Raises C (p.ensuring release) := by
  change Raises C (p.attempt.bind _)
  induction p with
  | ret a => exact (hr _).bind fun _ => .pure _
  | raise e => exact (hr _).bind fun _ => hp
  | call o k ih => exact fun a => ih a (hp a)
  | halt => trivial

theorem Total.ensuring {p : Prog I ε α} {release : Except ε α → Prog I ε Unit} (hp : Total p)
    (hr : ∀ x, Total (release x)) : Total (p.ensuring release) :=
  hp.attempt.andThen fun x => (hr x).andThen fun _ => .ofExcept x

namespace Triple
variable {J P : Trace I → Prop} {Q : α → Trace I → Prop}

theorem raisingWith {p : Prog I ε α} {s : σ} {E : ε × σ → Trace I → Prop}
    (hp : Triple J P p Q fun e => E (e, s)) : Triple J P (p.raisingWith s) Q E := by
  intro h t r hj hh hr
  obtain ⟨a, rfl, ha⟩ | ⟨e, rfl, he⟩ | ⟨rfl, h₁⟩ := Run.raisingWith_inv hr
  · simpa using ⟨hp.invariant hj hh ha, hp.returned hj hh ha⟩
  · refine ⟨hp.invariant hj hh he, by simp, ?_⟩
    rintro _ ⟨⟩
    exact hp.raised hj hh he
  · simpa using hp.invariant hj hh h₁

theorem ensuring {p : Prog I ε α} {release : Except ε α → Prog I ε Unit}
    {R : α → Trace I → Prop} {E F : ε → Trace I → Prop} (hp : Triple J P p R F)
    (hok : ∀ a, Triple J (R a) (release (.ok a)) (fun _ => Q a) E)
    (herr : ∀ e, Triple J (F e) (release (.error e)) (fun _ => E e) E) :
    Triple J P (p.ensuring release) Q E := by
  refine hp.attempt.bind fun x => ?_
  cases x with
  | ok a =>
    refine ((hok a).pre fun h _ hx => hx.1 a rfl).bind fun _ => ?_
    exact ret fun h _ hq => hq
  | error e =>
    refine ((herr e).pre fun h _ hx => hx.2 e rfl).bind fun _ => ?_
    exact raise fun h _ he => he

end Triple
end Effects
