import Cul868Flasher.Effects.Discipline
import Mathlib.Logic.Relation

/-!
# Locks that are taken in an order

A locking says which calls take a lock and give one back, which lock a call
wants to be made under, and a rank of the locks. Threads that take locks in the
order of their ranks and give them back in the opposite order never wait for
each other in a circle, and the calls that want one lock are made by one thread
at a time.
-/

namespace Effects
open Prog Relation

variable {I : Interface} {ε S L τ ν α : Type}

inductive LockStep (L : Type) where
  | acquire (lock : L)
  | release (lock : L)

structure Locking (I : Interface) (L : Type) where
  step : I.Op → Option (LockStep L)
  rank : L → ℕ
  guard : I.Op → Option L

namespace Locking
variable (K : Locking I L)

/-- The locks a thread holds are listed with the last one first. -/
def Allows (held : List L) (o : I.Op) : Prop :=
  match K.step o with
  | some (.acquire lock) => ∀ l ∈ held, K.rank l < K.rank lock
  | some (.release lock) => held.head? = some lock
  | none => ∀ lock, K.guard o = some lock → lock ∈ held

def after (held : List L) (o : I.Op) : List L :=
  match K.step o with
  | some (.acquire lock) => lock :: held
  | some (.release _) => held.tail
  | none => held

def discipline : Discipline I (List L) where
  allows := K.Allows
  trusts _ _ _ := True
  after held o _ := K.after held o

/-- However it ends, `p` holds at its end the locks it started with. -/
abbrev Nests (held : List L) (p : Prog I ε α) : Prop := Preserves K.discipline held p

/-- A call that takes and gives back nothing. -/
def Quiet (held : List L) (o : I.Op) : Prop :=
  K.step o = none ∧ ∀ lock, K.guard o = some lock → lock ∈ held

namespace Nests
variable {K : Locking I L} {held : List L}

theorem perform {o : I.Op} (h : K.Quiet held o) :
    K.Nests held (Prog.perform o : Prog I ε (I.Ans o)) := by
  constructor
  · change K.Allows held o
    rw [Allows, h.1]
    exact h.2
  · intro a _
    change K.after held o = held
    rw [after, h.1]

/-- A program of quiet calls. -/
theorem of_emits {p : Prog I ε α} (hp : Emits (K.Quiet held) p) : K.Nests held p := by
  induction p with
  | ret a => rfl
  | raise e => rfl
  | call o k ih =>
    refine ⟨?_, fun a _ => ?_⟩
    · change K.Allows held o
      rw [Allows, hp.1.1]
      exact hp.1.2
    · change Follows K.discipline _ _ (k a) (K.after held o)
      rw [after, hp.1.1]
      exact ih a (hp.2 a)
  | halt => trivial

/-- The lock taken last is given back. -/
theorem releases {lock : L} {o : I.Op} (h : K.step o = some (.release lock)) :
    Follows K.discipline (fun _ l => l = held) (fun _ l => l = held)
      (Prog.perform o : Prog I ε (I.Ans o)) (lock :: held) := by
  constructor
  · change K.Allows (lock :: held) o
    rw [Allows, h]
    rfl
  · intro a _
    change K.after (lock :: held) o = held
    rw [after, h]
    rfl

/-- A block between the acquisition and the release of a lock. -/
theorem section_ {lock : L} {acquire : I.Op} {block : Prog I ε α}
    {release : Except ε α → Prog I ε Unit} (hacquire : K.step acquire = some (.acquire lock))
    (hrank : ∀ l ∈ held, K.rank l < K.rank lock) (hb : K.Nests (lock :: held) block)
    (hrelease : ∀ x, Follows K.discipline (fun _ l => l = held) (fun _ l => l = held) (release x)
      (lock :: held)) :
    K.Nests held (Prog.perform acquire >>= fun _ => block.ensuring release) := by
  refine Follows.step ?_ fun _ _ => ?_
  · change K.Allows held acquire
    rwa [Allows, hacquire]
  change Follows K.discipline _ _ _ (K.after held acquire)
  rw [after, hacquire]
  refine Follows.ensuring hb ?_ ?_
  · rintro a _ rfl
    exact hrelease _
  · rintro e _ rfl
    exact hrelease _

end Nests

/-! ## The machine -/

variable {K : Locking I L} {M : Machine I ε S τ ν} {owner : S → L → Option ℕ}
  {c c' : System I ε S} {t v : List (Act I τ ν)} {held : ℕ → List L} {i j : ℕ} {lock : L}

/-- A lock is in the list of the thread that owns it and in no other. -/
structure Ordered (K : Locking I L) (owner : L → Option ℕ) (held : ℕ → List L) : Prop where
  owns : ∀ i lock, lock ∈ held i ↔ owner lock = some i
  sorted : ∀ i, (held i).Pairwise fun l l' => K.rank l' < K.rank l

theorem Ordered.initial : Ordered K (fun _ => none) fun _ => [] where
  owns i lock := by simp
  sorted i := .nil

/-- The threads of `c` hold the locks in `held`, as the store has it, and nest their
sections. -/
structure Holding (K : Locking I L) (owner : S → L → Option ℕ) (c : System I ε S)
    (held : ℕ → List L) : Prop where
  ordered : Ordered K (owner c.store) held
  follows : ∀ i p, c.threads i = some p →
    Follows K.discipline (fun _ l => l = []) (fun _ l => l = []) p (held i)
  unstarted : ∀ i, c.threads i = none → held i = []

theorem Holding.allows (h : Holding K owner c held) {o : I.Op} {k : I.Ans o → Prog I ε Unit}
    (hi : c.threads i = some (.call o k)) : K.Allows (held i) o :=
  (h.follows i _ hi).1

/-- The next step of the thread can be taken. A used-up budget stands for a loop
that goes on. -/
def Ready (M : Machine I ε S τ ν) (c : System I ε S) (i : ℕ) : Prop :=
  c.threads i = some .halt ∨
    ∃ o k a s, c.threads i = some (.call o k) ∧ M.answers i c.store o a s

/-- A thread that holds a lock has a next call, or its budget is used up. -/
theorem Holding.busy (h : Holding K owner c held) (howner : owner c.store lock = some i) :
    c.threads i = some .halt ∨ ∃ o k, c.threads i = some (.call o k) := by
  have hmem : lock ∈ held i := (h.ordered.owns i lock).mpr howner
  cases hi : c.threads i with
  | none =>
    rw [h.unstarted i hi] at hmem
    cases hmem
  | some p =>
    cases p with
    | ret a =>
      rw [show held i = [] from h.follows i _ hi] at hmem
      cases hmem
    | raise e =>
      rw [show held i = [] from h.follows i _ hi] at hmem
      cases hmem
    | call o k => exact .inr ⟨o, k, rfl⟩
    | halt => exact .inl rfl

/-- A call that wants a lock is made by the thread that owns it. -/
theorem Holding.guarded (h : Holding K owner c held) {e : Event I} (hs : M.Step c (.call i e) c')
    (hstep : K.step e.op = none) (hguard : K.guard e.op = some lock) :
    owner c.store lock = some i := by
  obtain ⟨k, hi, -⟩ := hs.call_inv
  have hallow : K.Allows (held i) e.op := h.allows hi
  rw [Allows, hstep] at hallow
  exact (h.ordered.owns i lock).mp (hallow lock hguard)

/-! ## What the store grants -/

variable [DecidableEq L]

/-- The store knows which thread holds a lock, gives a lock to one thread only,
and answers every other call. -/
structure Grants (K : Locking I L) (M : Machine I ε S τ ν) (owner : S → L → Option ℕ) : Prop where
  acquired : ∀ {i s o a s' lock}, M.answers i s o a s' → K.step o = some (.acquire lock) →
    owner s lock = none ∧ owner s' = Function.update (owner s) lock (some i)
  released : ∀ {i s o a s' lock}, M.answers i s o a s' → K.step o = some (.release lock) →
    owner s' = Function.update (owner s) lock none
  other : ∀ {i s o a s'}, M.answers i s o a s' → K.step o = none → owner s' = owner s
  moved : ∀ {s n s'}, M.moves s n s' → owner s' = owner s
  granted : ∀ i {s o lock}, K.step o = some (.acquire lock) → owner s lock = none →
    ∃ a s', M.answers i s o a s'
  answered : ∀ i s {o}, (∀ lock, K.step o ≠ some (.acquire lock)) → ∃ a s', M.answers i s o a s'

namespace Ordered
variable {own : L → Option ℕ}

theorem acquire (h : Ordered K own held) (hfree : own lock = none)
    (hrank : ∀ l ∈ held i, K.rank l < K.rank lock) :
    Ordered K (Function.update own lock (some i)) (Function.update held i (lock :: held i)) where
  owns j l := by
    by_cases hl : l = lock
    · subst hl
      by_cases hj : j = i
      · subst hj
        simp
      · have hnot : l ∉ held j := by rw [h.owns, hfree]; simp
        simp [Function.update_of_ne hj, hnot, Ne.symm hj]
    · by_cases hj : j = i
      · subst hj
        simpa [Function.update_of_ne hl, hl] using h.owns j l
      · simpa [Function.update_of_ne hl, Function.update_of_ne hj] using h.owns j l
  sorted j := by
    by_cases hj : j = i
    · subst hj
      simpa using ⟨hrank, h.sorted j⟩
    · simpa [Function.update_of_ne hj] using h.sorted j

theorem release (h : Ordered K own held) (hhead : (held i).head? = some lock) :
    Ordered K (Function.update own lock none) (Function.update held i (held i).tail) := by
  obtain ⟨rest, hrest⟩ : ∃ rest, held i = lock :: rest := List.head?_eq_some_iff.mp hhead
  have hsorted := h.sorted i
  rw [hrest, List.pairwise_cons] at hsorted
  have hnot : lock ∉ rest := fun hmem => absurd (hsorted.1 lock hmem) (Nat.lt_irrefl _)
  constructor
  · intro j l
    have howns := h.owns j l
    by_cases hj : j = i
    · subst hj
      rw [hrest, List.mem_cons] at howns
      by_cases hl : l = lock
      · subst hl
        simp [hrest, hnot]
      · simpa [hrest, Function.update_of_ne hl, hl] using howns
    · by_cases hl : l = lock
      · subst hl
        have howner : own l = some i := (h.owns i l).mp (by simp [hrest])
        have hother : l ∉ held j := by rw [howns, howner]; simpa using Ne.symm hj
        simp [Function.update_of_ne hj, hother]
      · simpa [Function.update_of_ne hj, Function.update_of_ne hl] using howns
  · intro j
    by_cases hj : j = i
    · subst hj
      simpa [hrest] using hsorted.2
    · simpa [Function.update_of_ne hj] using h.sorted j

end Ordered

theorem Ordered.kept (hM : Grants K M owner)
    (hprogram : ∀ task, K.Nests [] (M.program task)) :
    Described.Kept K.discipline [] (· = []) (fun _ s held => Ordered K (owner s) held) M
      fun _ => [] where
  call t s held i o a s' h ho ha := by
    refine ⟨trivial, ?_⟩
    change Ordered K (owner s') (Function.update held i (K.after (held i) o))
    replace ho : K.Allows (held i) o := ho
    rw [Allows] at ho
    rw [after]
    split at ho
    · rename_i lock hstep
      obtain ⟨hfree, howner⟩ := hM.acquired ha hstep
      rw [howner]
      exact h.acquire hfree ho
    · rename_i lock hstep
      rw [hM.released ha hstep]
      exact h.release ho
    · rename_i hstep
      rw [hM.other ha hstep, Function.update_eq_self]
      exact h
  start t s held i task h hidle _ := by
    rw [← hidle, Function.update_eq_self]
    exact h
  program task := hprogram task
  move t s held n s' h hm := by
    rw [hM.moved hm]
    exact h

/-- The locks the threads hold after a history. -/
def heldAfter (K : Locking I L) (held : ℕ → List L) (t : List (Act I τ ν)) : ℕ → List L :=
  K.discipline.described (fun _ => []) held t

theorem Holding.reaches (hM : Grants K M owner) (hprogram : ∀ task, K.Nests [] (M.program task))
    (h : Holding K owner c held) (ht : M.Reaches c t c') :
    Holding K owner c' (K.heldAfter held t) := by
  have hd := Described.reaches (Ordered.kept hM hprogram) ⟨h.ordered, h.follows, h.unstarted⟩ ht
  exact ⟨hd.holds, hd.follows, hd.unstarted⟩

/-- A call of thread `i` that takes, or gives back, the lock. -/
def Acquires (K : Locking I L) (lock : L) (i : ℕ) (m : Act I τ ν) : Prop :=
  ∃ e, m = .call i e ∧ K.step e.op = some (.acquire lock)

def Releases (K : Locking I L) (lock : L) (i : ℕ) (m : Act I τ ν) : Prop :=
  ∃ e, m = .call i e ∧ K.step e.op = some (.release lock)

/-- A step gives a lock to nobody but the thread that acquires it, and takes it
from nobody but the thread that releases it. -/
theorem Holding.owner_step (hM : Grants K M owner) {m : Act I τ ν}
    (h : Holding K owner c held) (hs : M.Step c m c') (lock : L) :
    owner c'.store lock = owner c.store lock ∨
      (∃ i, Acquires K lock i m ∧ owner c.store lock = none ∧ owner c'.store lock = some i) ∨
      ∃ i, Releases K lock i m ∧ owner c.store lock = some i ∧ owner c'.store lock = none := by
  cases hs with
  | @call i o k a s hi ha =>
    have hallow : K.Allows (held i) o := h.allows hi
    rw [Allows] at hallow
    split at hallow
    · rename_i l hstep
      obtain ⟨hfree, howner⟩ := hM.acquired ha hstep
      by_cases hl : lock = l
      · subst hl
        exact .inr (.inl ⟨i, ⟨_, rfl, hstep⟩, hfree, by simp [howner]⟩)
      · exact .inl (by simp [howner, hl])
    · rename_i l hstep
      have howner := hM.released ha hstep
      by_cases hl : lock = l
      · subst hl
        have hmem : lock ∈ held i := List.mem_of_mem_head? hallow
        exact .inr (.inr ⟨i, ⟨_, rfl, hstep⟩, (h.ordered.owns i lock).mp hmem, by simp [howner]⟩)
      · exact .inl (by simp [howner, hl])
    · rename_i hstep
      exact .inl (by rw [hM.other ha hstep])
  | start => exact .inl rfl
  | move hm => exact .inl (by rw [hM.moved hm])

/-- A lock that has left the hands of its holder was given back, and whoever holds
it after that took it since. -/
theorem Holding.handed_over (hM : Grants K M owner)
    (hprogram : ∀ task, K.Nests [] (M.program task)) (h : Holding K owner c held)
    (hv : M.Reaches c v c') (hi : owner c.store lock = some i) :
    owner c'.store lock = some i ∨
      ∃ v₁ m v₂, v = v₁ ++ m :: v₂ ∧ Releases K lock i m ∧
        ∀ j, owner c'.store lock = some j → ∃ m' ∈ v₂, Acquires K lock j m' := by
  induction hv with
  | nil => exact .inl hi
  | @snoc v c₁ c₂ m hr hs ih =>
    have hmid := h.reaches hM hprogram hr
    rcases hmid.owner_step hM hs lock with hsame | ⟨j, hacquires, hfree, howner⟩ |
        ⟨j, hreleases, howner, hfree⟩
    · rcases ih with hheld | ⟨v₁, m₁, v₂, rfl, hreleases, htaken⟩
      · exact .inl (hsame.trans hheld)
      · refine .inr ⟨v₁, m₁, v₂ ++ [m], by simp, hreleases, fun j hj => ?_⟩
        obtain ⟨m', hm', hacquires⟩ := htaken j (hsame.symm.trans hj)
        exact ⟨m', List.mem_append_left _ hm', hacquires⟩
    · rcases ih with hheld | ⟨v₁, m₁, v₂, rfl, hreleases, -⟩
      · rw [hfree] at hheld
        cases hheld
      · refine .inr ⟨v₁, m₁, v₂ ++ [m], by simp, hreleases, fun j' hj' => ?_⟩
        rw [howner] at hj'
        cases hj'
        exact ⟨m, by simp, hacquires⟩
    · rcases ih with hheld | ⟨v₁, m₁, v₂, rfl, hfirst, -⟩
      · rw [howner] at hheld
        cases hheld
        refine .inr ⟨v, m, [], rfl, hreleases, fun j' hj' => ?_⟩
        rw [hfree] at hj'
        cases hj'
      · refine .inr ⟨v₁, m₁, v₂ ++ [m], by simp, hfirst, fun j' hj' => ?_⟩
        rw [hfree] at hj'
        cases hj'

end Locking
end Effects
