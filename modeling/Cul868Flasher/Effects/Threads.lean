import Cul868Flasher.Effects.Program
import Mathlib.Logic.Function.Basic

/-!
# Threads over a shared store

Programs run side by side on one store. A step answers one call of one thread,
starts a thread, or is a move of the surroundings; the history lists the steps
in the order in which they were taken, so an interleaving is a history that can
be reached.
-/

namespace Effects
open Prog

/-- `answers i s o a s'`: called by thread `i` in the store `s`, the operation `o`
may answer `a` and leave `s'`. -/
structure Machine (I : Interface) (ε S τ ν : Type) where
  answers : ℕ → S → (o : I.Op) → I.Ans o → S → Prop
  starts : S → τ → Prop
  program : τ → Prog I ε Unit
  moves : S → ν → S → Prop

inductive Act (I : Interface) (τ ν : Type) where
  | call (i : ℕ) (e : Event I)
  | start (i : ℕ) (task : τ)
  | move (n : ν)

structure System (I : Interface) (ε S : Type) where
  store : S
  threads : ℕ → Option (Prog I ε Unit)

variable {I J : Interface} {ε S τ ν α β σ Λ : Type}

/-- Answer the calls of a program by programs of another interface. -/
def Prog.handle (h : (o : J.Op) → Prog I ε (J.Ans o)) : Prog J ε α → Prog I ε α
  | .ret a => .ret a
  | .raise e => .raise e
  | .call o k => (h o).bind fun a => (k a).handle h
  | .halt => .halt

namespace Machine

inductive Step (M : Machine I ε S τ ν) : System I ε S → Act I τ ν → System I ε S → Prop where
  | call {c : System I ε S} {i : ℕ} {o : I.Op} {k : I.Ans o → Prog I ε Unit} {a : I.Ans o} {s : S} :
      c.threads i = some (.call o k) → M.answers i c.store o a s →
      Step M c (.call i ⟨o, a⟩) ⟨s, Function.update c.threads i (some (k a))⟩
  | start {c : System I ε S} {i : ℕ} {task : τ} :
      c.threads i = none → M.starts c.store task →
      Step M c (.start i task) ⟨c.store, Function.update c.threads i (some (M.program task))⟩
  | move {c : System I ε S} {n : ν} {s : S} :
      M.moves c.store n s → Step M c (.move n) ⟨s, c.threads⟩

inductive Reaches (M : Machine I ε S τ ν) (c₀ : System I ε S) :
    List (Act I τ ν) → System I ε S → Prop where
  | nil : Reaches M c₀ [] c₀
  | snoc {t : List (Act I τ ν)} {c c' : System I ε S} {m : Act I τ ν} :
      Reaches M c₀ t c → Step M c m c' → Reaches M c₀ (t ++ [m]) c'

end Machine

/-! ## What a history shows of one thread -/

/-- The calls of thread `i`. -/
def callsOf (i : ℕ) (t : List (Act I τ ν)) : Trace I :=
  t.filterMap fun
    | .call j e => if j = i then some e else none
    | .start _ _ => none
    | .move _ => none

@[simp] theorem callsOf_nil (i : ℕ) : callsOf i ([] : List (Act I τ ν)) = [] := rfl

@[simp] theorem callsOf_call (i : ℕ) (t : List (Act I τ ν)) (e : Event I) :
    callsOf i (t ++ [.call i e]) = callsOf i t ++ [e] := by
  simp [callsOf]

theorem callsOf_call_ne {i j : ℕ} (h : j ≠ i) (t : List (Act I τ ν)) (e : Event I) :
    callsOf i (t ++ [.call j e]) = callsOf i t := by
  simp [callsOf, h]

@[simp] theorem callsOf_start (i j : ℕ) (t : List (Act I τ ν)) (task : τ) :
    callsOf i (t ++ [.start j task]) = callsOf i t := by
  simp [callsOf]

@[simp] theorem callsOf_move (i : ℕ) (t : List (Act I τ ν)) (n : ν) :
    callsOf i (t ++ [.move n]) = callsOf i t := by
  simp [callsOf]

theorem mem_callsOf {i : ℕ} {t : List (Act I τ ν)} {e : Event I} :
    e ∈ callsOf i t ↔ .call i e ∈ t := by
  simp only [callsOf, List.mem_filterMap]
  constructor
  · rintro ⟨m, hm, he⟩
    cases m with
    | call j e' =>
      dsimp only at he
      split_ifs at he with hj
      cases he
      rwa [← hj]
    | start j task => cases he
    | move n => cases he
  · intro h
    exact ⟨_, h, if_pos rfl⟩

namespace Machine
variable {M : Machine I ε S τ ν} {c₀ c c' : System I ε S} {t u v : List (Act I τ ν)}

/-- A history passes through a system at each of its steps. -/
theorem Reaches.split {m : Act I τ ν} (h : Reaches M c₀ (u ++ m :: v) c) :
    ∃ c₁ c₂, Reaches M c₀ u c₁ ∧ Step M c₁ m c₂ := by
  generalize ht : u ++ m :: v = t at h
  induction h generalizing v with
  | nil => simp at ht
  | snoc hr hs ih =>
    rcases List.eq_nil_or_concat v with rfl | ⟨w, m', rfl⟩
    · obtain ⟨rfl, hm⟩ := List.append_inj' ht rfl
      cases hm
      exact ⟨_, _, hr, hs⟩
    · rw [List.concat_eq_append, ← List.cons_append, ← List.append_assoc] at ht
      exact ih (List.append_inj' ht rfl).1

/-- A history that goes on from another one. -/
theorem Reaches.append_inv (h : Reaches M c₀ (u ++ v) c) :
    ∃ c₁, Reaches M c₀ u c₁ ∧ Reaches M c₁ v c := by
  generalize ht : u ++ v = t at h
  induction h generalizing v with
  | nil =>
    obtain ⟨rfl, rfl⟩ := List.append_eq_nil_iff.mp ht
    exact ⟨_, .nil, .nil⟩
  | snoc hr hs ih =>
    rcases List.eq_nil_or_concat v with rfl | ⟨w, m, rfl⟩
    · rw [List.append_nil] at ht
      subst ht
      exact ⟨_, .snoc hr hs, .nil⟩
    · rw [List.concat_eq_append, ← List.append_assoc] at ht
      obtain ⟨hw, hm⟩ := List.append_inj' ht rfl
      cases hm
      obtain ⟨c₁, hu, hv⟩ := ih hw
      refine ⟨c₁, hu, ?_⟩
      rw [List.concat_eq_append]
      exact hv.snoc hs

theorem Reaches.nil_inv (h : Reaches M c₀ [] c) : c = c₀ := by
  generalize ht : [] = t at h
  cases h with
  | nil => rfl
  | snoc => simp at ht

theorem Reaches.cons_inv {m : Act I τ ν} (h : Reaches M c₀ (m :: v) c) :
    ∃ c₁, Step M c₀ m c₁ ∧ Reaches M c₁ v c := by
  obtain ⟨c₁, hm, hv⟩ := append_inv (u := [m]) h
  refine ⟨c₁, ?_, hv⟩
  generalize ht : [m] = t at hm
  cases hm with
  | nil => cases ht
  | snoc hr hs =>
    have happend : [] ++ [m] = _ ++ [_] := ht
    obtain ⟨rfl, hm'⟩ := List.append_inj' happend rfl
    cases hm'
    rwa [hr.nil_inv] at hs

theorem Step.call_inv {i : ℕ} {e : Event I} (h : Step M c (.call i e) c') :
    ∃ k, c.threads i = some (.call e.op k) ∧ M.answers i c.store e.op e.ans c'.store := by
  cases h with
  | call hi ha => exact ⟨_, hi, ha⟩

/-- Answers and moves that leave no choice of the store leave none of the system. -/
theorem Step.unique
    (hanswers : ∀ i s o a s₁ s₂, M.answers i s o a s₁ → M.answers i s o a s₂ → s₁ = s₂)
    (hmoves : ∀ s n s₁ s₂, M.moves s n s₁ → M.moves s n s₂ → s₁ = s₂) {c₁ c₂ : System I ε S}
    {m : Act I τ ν} (h₁ : Step M c m c₁) (h₂ : Step M c m c₂) : c₁ = c₂ := by
  cases h₁ with
  | call hi ha =>
    cases h₂ with
    | call hi' ha' =>
      rw [hi] at hi'
      cases hi'
      rw [hanswers _ _ _ _ _ _ ha ha']
  | start hi hs =>
    cases h₂ with
    | start => rfl
  | move hm =>
    cases h₂ with
    | move hm' => rw [hmoves _ _ _ _ hm hm']

theorem Reaches.unique
    (hanswers : ∀ i s o a s₁ s₂, M.answers i s o a s₁ → M.answers i s o a s₂ → s₁ = s₂)
    (hmoves : ∀ s n s₁ s₂, M.moves s n s₁ → M.moves s n s₂ → s₁ = s₂) {c₁ c₂ : System I ε S}
    (h₁ : Reaches M c₀ t c₁) (h₂ : Reaches M c₀ t c₂) : c₁ = c₂ := by
  induction h₁ generalizing c₂ with
  | nil =>
    generalize ht : [] = t at h₂
    cases h₂ with
    | nil => rfl
    | snoc => simp at ht
  | @snoc t c c' m hr hs ih =>
    generalize ht : t ++ [m] = t' at h₂
    cases h₂ with
    | nil => simp at ht
    | snoc hr' hs' =>
      obtain ⟨rfl, hm⟩ := List.append_inj' ht rfl
      cases hm
      obtain rfl := ih hr'
      exact hs.unique hanswers hmoves hs'

/-- A thread that has not been started has called nothing. -/
theorem Reaches.calls_unstarted (h : Reaches M c₀ t c) {i : ℕ} (hi : c.threads i = none) :
    callsOf i t = [] := by
  induction h with
  | nil => rfl
  | snoc hr hs ih =>
    cases hs with
    | @call j o k a s hj ha =>
      by_cases hij : i = j
      · subst hij
        simp at hi
      · rw [callsOf_call_ne (Ne.symm hij)]
        exact ih (by simpa [Function.update_of_ne hij] using hi)
    | @start j task hj _ =>
      by_cases hij : i = j
      · subst hij
        simp at hi
      · rw [callsOf_start]
        exact ih (by simpa [Function.update_of_ne hij] using hi)
    | move _ =>
      rw [callsOf_move]
      exact ih hi

/-- What a started thread has called, and what it may still do, is a run of its
program. -/
theorem Reaches.run (h : Reaches M c₀ t c) {i : ℕ} {p : Prog I ε Unit} (h₀ : c₀.threads i = none)
    (hp : c.threads i = some p) :
    ∃ task, .start i task ∈ t ∧
      ∀ w r, Run p w r → Run (M.program task) (callsOf i t ++ w) r := by
  induction h generalizing p with
  | nil => simp [h₀] at hp
  | @snoc t c c' m hr hs ih =>
    cases hs with
    | @call j o k a s hj ha =>
      by_cases hij : i = j
      · subst hij
        obtain rfl : k a = p := by simpa using hp
        obtain ⟨task, hmem, hrun⟩ := ih hj
        refine ⟨task, by simp [hmem], fun w r hw => ?_⟩
        rw [callsOf_call, List.append_assoc]
        exact hrun _ _ (.call a hw)
      · obtain ⟨task, hmem, hrun⟩ := ih (by simpa [Function.update_of_ne hij] using hp)
        refine ⟨task, by simp [hmem], fun w r hw => ?_⟩
        rw [callsOf_call_ne (Ne.symm hij)]
        exact hrun w r hw
    | @start j task hj _ =>
      by_cases hij : i = j
      · subst hij
        obtain rfl : M.program task = p := by simpa using hp
        refine ⟨task, by simp, fun w r hw => ?_⟩
        rw [callsOf_start, hr.calls_unstarted hj]
        exact hw
      · obtain ⟨task', hmem, hrun⟩ := ih (by simpa [Function.update_of_ne hij] using hp)
        refine ⟨task', by simp [hmem], fun w r hw => ?_⟩
        rw [callsOf_start]
        exact hrun w r hw
    | move _ =>
      obtain ⟨task, hmem, hrun⟩ := ih hp
      refine ⟨task, by simp [hmem], fun w r hw => ?_⟩
      rw [callsOf_move]
      exact hrun w r hw

/-- Threads are not taken back. -/
theorem Reaches.unstarted (h : Reaches M c₀ t c) {i : ℕ} (hi : c.threads i = none) :
    c₀.threads i = none := by
  induction h with
  | nil => exact hi
  | snoc _ hs ih =>
    refine ih ?_
    cases hs with
    | @call j o k a s hj ha =>
      by_cases hij : i = j
      · subst hij
        simp at hi
      · simpa [Function.update_of_ne hij] using hi
    | @start j task hj _ =>
      by_cases hij : i = j
      · subst hij
        exact hj
      · simpa [Function.update_of_ne hij] using hi
    | move _ => exact hi

theorem Step.start_inv {i : ℕ} {task : τ} (h : Step M c (.start i task) c') :
    c.threads i = none ∧ c'.threads i ≠ none := by
  cases h with
  | start hi _ => exact ⟨hi, by simp⟩

theorem Reaches.started (h : Reaches M c₀ t c) {i : ℕ} {task : τ} (hmem : .start i task ∈ t) :
    c.threads i ≠ none := by
  induction h with
  | nil => cases hmem
  | @snoc t c c' m hr hs ih =>
    rcases List.mem_append.mp hmem with hmem | hmem
    · exact fun hi => ih hmem ((Reaches.snoc .nil hs).unstarted hi)
    · obtain rfl := List.mem_singleton.mp hmem
      exact hs.start_inv.2

/-- A thread is started once. -/
theorem Reaches.start_unique (h : Reaches M c₀ t c) {i : ℕ} {task task' : τ}
    (hmem : .start i task ∈ t) (hmem' : .start i task' ∈ t) : task = task' := by
  induction h with
  | nil => cases hmem
  | @snoc t c c' m hr hs ih =>
    rcases List.mem_append.mp hmem with hold | hnew
    · rcases List.mem_append.mp hmem' with hold' | hnew'
      · exact ih hold hold'
      · obtain rfl := List.mem_singleton.mp hnew'
        exact absurd hs.start_inv.1 (hr.started hold)
    · obtain rfl := List.mem_singleton.mp hnew
      rcases List.mem_append.mp hmem' with hold' | hnew'
      · exact absurd hs.start_inv.1 (hr.started hold')
      · cases List.mem_singleton.mp hnew'
        rfl

/-- What a thread has called so far, and how it ended, is a run of its task. -/
theorem Reaches.run_of_start (h : Reaches M c₀ t c) {i : ℕ} {task : τ} {p : Prog I ε Unit}
    (hmem : .start i task ∈ t) (hp : c.threads i = some p) {w : Trace I} {r : Outcome ε Unit}
    (hr : Run p w r) : Run (M.program task) (callsOf i t ++ w) r := by
  obtain ⟨u, v, rfl⟩ := List.append_of_mem hmem
  obtain ⟨c₁, c₂, hreach, hstep⟩ := h.split
  have h₀ := hreach.unstarted hstep.start_inv.1
  obtain ⟨task', hmem', hrun⟩ := h.run h₀ hp
  obtain rfl := h.start_unique hmem hmem'
  exact hrun w r hr

end Machine
end Effects
