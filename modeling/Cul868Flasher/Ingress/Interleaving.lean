import Cul868Flasher.Ingress.Ownership

/-!
# Every interleaving

The standings of the threads are what their calls so far have made of them. With
the shared state they are consistent in every system that can be reached, and a
thread that has come to its end owes nothing.
-/

namespace Cul868Flasher
open Python Effects

variable {i j : ℕ} {s s' : Site} {ℓ : ℕ → Standing} {o : App.Op} {a : App.Ans o}
  {fuel : ℕ} {settings : Settings} {t u v : List (Act App Task Signal)} {c : System App Exn Site}

structure Orderly (s : Site) (ℓ : ℕ → Standing) : Prop where
  sections : Sections s ℓ
  admission : Admission s ℓ
  ownership : Ownership s ℓ

namespace Orderly

/-- Every answer is one that the caller can trust. -/
theorem trusts (h : Orderly s ℓ) (ho : (ℓ i).Allows o) (ha : s.answers i o a s') :
    (ℓ i).Trusts o a := by
  cases o with
  | controller =>
    obtain ⟨⟨oracle, rfl⟩, -, -⟩ := ha
    exact h.admission.fieldsTrusted h.sections ho
  | putNowait operation => exact (h.admission.put_call h.sections ho ha).1
  | getNowait =>
    obtain rfl := h.sections.role_of_worker ho.1
    obtain ⟨⟨oracle, rfl⟩, -, -⟩ := ha
    intro operation hjob
    change s.queue.head? = none
    rw [h.admission.queue_of_taken hjob]
    rfl
  | entries =>
    obtain ⟨⟨oracle, rfl⟩, -, -⟩ := ha
    exact Ownership.entriesTrusted h.sections
  | pop identifier =>
    obtain ⟨⟨oracle, rfl⟩, -, -⟩ := ha
    exact h.ownership.popTrusted h.sections identifier
  | clear =>
    obtain ⟨⟨oracle, rfl⟩, -, -⟩ := ha
    exact h.ownership.clearTrusted h.sections ho
  | _ => trivial

theorem call (h : Orderly s ℓ) (ho : (ℓ i).Allows o) (ha : s.answers i o a s') :
    Orderly s' (called ℓ i o a) where
  sections := h.sections.call ho ha
  admission := h.admission.call h.sections ho ha
  ownership := h.ownership.call h.sections h.admission ho ha

theorem start (h : Orderly s ℓ) (hidle : ℓ i = .idle) (hserving : s.serving = true) (task : Task) :
    Orderly s (Function.update ℓ i (.born task)) where
  sections := h.sections.start hidle hserving task
  admission := h.admission.start h.sections hidle task
  ownership := h.ownership.start h.sections hidle task

theorem stop (h : Orderly s ℓ) : Orderly { s with stopping := true } ℓ where
  sections := h.sections.stop
  admission := h.admission.stop
  ownership := h.ownership.stop

theorem initial : Orderly .initial boarding where
  sections := .initial
  admission := .initial
  ownership := .initial

end Orderly

/-- A thread at its end: a request, or the worker before it began to serve or
after its cleanup. -/
structure Rested (ℓ : Standing) : Prop where
  held : ℓ.held = []
  upload : ℓ.upload = none
  removed : ℓ.removed = []
  claim : ℓ.claim = none
  unmarked : ℓ.unmarked = none
  job : ℓ.job = .none
  phase : ℓ.phase = .booting ∨ ℓ.phase = .cleared

theorem Rested.rest (role : Role) {phase : Phase} (h : phase = .booting ∨ phase = .cleared) :
    Rested (.rest role none .none phase) :=
  ⟨rfl, rfl, rfl, rfl, rfl, rfl, h⟩

/-- The standings after a history. -/
def standings (t : List (Act App Task Signal)) : ℕ → Standing :=
  discipline.described Standing.born boarding t

@[simp] theorem standings_nil : standings [] = boarding := rfl

theorem standings_call (t : List (Act App Task Signal)) (i : ℕ) (o : App.Op) (a : App.Ans o) :
    standings (t ++ [.call i ⟨o, a⟩]) = called (standings t) i o a :=
  Discipline.described_snoc _ _ _ _ _

theorem standings_start (t : List (Act App Task Signal)) (i : ℕ) (task : Task) :
    standings (t ++ [.start i task]) = Function.update (standings t) i (.born task) :=
  Discipline.described_snoc _ _ _ _ _

theorem standings_move (t : List (Act App Task Signal)) (n : Signal) :
    standings (t ++ [.move n]) = standings t :=
  Discipline.described_snoc _ _ _ _ _

/-- What the standing of one thread shows, by induction on the history: the steps of
the others leave it alone. -/
theorem standings_induction {P : List (Act App Task Signal) → Standing → Prop}
    (hboot : P [] (boarding i))
    (hcall : ∀ t o a, P t (standings t i) → P (t ++ [.call i ⟨o, a⟩]) ((standings t i).after o a))
    (hstart : ∀ t task, P (t ++ [.start i task]) (.born task))
    (hother : ∀ t m, P t (standings t i) → P (t ++ [m]) (standings t i)) :
    P t (standings t i) := by
  induction t using List.reverseRecOn with
  | nil => exact hboot
  | append_singleton t m ih =>
    cases m with
    | call j e =>
      rw [standings_call]
      by_cases hj : i = j
      · subst hj
        rw [called_self]
        exact hcall t e.op e.ans ih
      · rw [called_ne hj]
        exact hother t _ ih
    | start j task =>
      rw [standings_start]
      by_cases hj : i = j
      · subst hj
        rw [Function.update_self]
        exact hstart t task
      · rw [Function.update_of_ne hj]
        exact hother t _ ih
    | move n =>
      rw [standings_move]
      exact hother t _ ih

/-- A step of any thread, of a signal or of the server keeps the order. -/
theorem orderly_kept (fuel : ℕ) (settings : Settings) :
    Described.Kept discipline .idle Rested (fun _ => Orderly) (addon fuel settings)
      Standing.born where
  call _ _ _ _ _ _ _ h ho ha := ⟨h.trusts ho ha, h.call ho ha⟩
  start _ _ _ _ task h hidle hserving := h.start hidle hserving task
  program task := by
    refine (Task.conduct_program task).conseq ?_ ?_
    · rintro _ _ rfl
      exact .rest _ (.inl rfl)
    · rintro _ _ rfl
      exact .rest _ (.inl rfl)
  move := by
    rintro _ _ _ n _ h hmove
    cases n with
    | requestStop =>
      obtain rfl := hmove
      exact h.stop

theorem boot_described (fuel : ℕ) (settings : Settings)
    {K : List (Act App Task Signal) → Site → (ℕ → Standing) → Prop}
    (hK : K [] .initial boarding) :
    Described discipline .idle Rested K [] (boot fuel settings) boarding where
  holds := hK
  follows := by
    intro i p hp
    by_cases hi : i = worker
    · subst hi
      obtain rfl : Main.run fuel settings = p := by simpa [boot] using hp
      rw [boarding_worker]
      refine Main.conduct_run.conseq ?_ ?_
      · rintro _ _ rfl
        exact .rest _ (.inr rfl)
      · rintro _ _ (rfl | rfl)
        · exact .rest _ (.inl rfl)
        · exact .rest _ (.inr rfl)
    · simp [boot, hi] at hp
  unstarted := by
    intro i hi
    have hne : i ≠ worker := by
      rintro rfl
      simp [boot] at hi
    simp [boarding, hne]

/-- An invariant of the machine holds in every system that can be reached. -/
theorem reached_described {K : List (Act App Task Signal) → Site → (ℕ → Standing) → Prop}
    (hK : Described.Kept discipline .idle Rested K (addon fuel settings) Standing.born)
    (h₀ : K [] .initial boarding) (h : Reached fuel settings t c) :
    Described discipline .idle Rested K t c (standings t) :=
  Described.reaches hK (boot_described fuel settings h₀) h

theorem reached_orderly (h : Reached fuel settings t c) : Orderly c.store (standings t) :=
  (reached_described (orderly_kept fuel settings) .initial h).holds

/-- What a thread calls is allowed at that point of the history. -/
theorem reached_allows (h : Reached fuel settings (u ++ .call i ⟨o, a⟩ :: v) c) :
    ∃ c₁ s', Reached fuel settings u c₁ ∧ (standings u i).Allows o ∧
      c₁.store.answers i o a s' := by
  obtain ⟨c₁, c₂, hreach, hstep⟩ := h.split
  obtain ⟨k, hk, ha⟩ := hstep.call_inv
  exact ⟨c₁, c₂.store, hreach,
    (reached_described (orderly_kept fuel settings) .initial hreach).allows hk, ha⟩

/-- The thread has returned, or an exception has left it. -/
def Over (c : System App Exn Site) (i : ℕ) : Prop :=
  c.threads i = some (.ret ()) ∨ ∃ e, c.threads i = some (.raise e)

theorem Over.rested (hover : Over c i) (h : Reached fuel settings t c) :
    Rested (standings t i) := by
  have hd := reached_described (orderly_kept fuel settings) .initial h
  rcases hover with hi | ⟨e, hi⟩
  · exact hd.follows i _ hi
  · exact hd.follows i _ hi

/-! ## Schedules -/

/-- Up to `n` calls of thread `i`, answered by the script where the shared state
leaves a choice. -/
def advance (oracle : Site.Oracle) (i : ℕ) :
    ℕ → AppProgram Unit → Site → Option (Trace App × AppProgram Unit × Site)
  | n+1, .call o k, s =>
    if s.permits o (s.answer oracle o) then
      (advance oracle i n (k (s.answer oracle o)) (s.next i o (s.answer oracle o))).map fun x =>
        (⟨o, s.answer oracle o⟩ :: x.1, x.2)
    else none
  | _, p, s => some ([], p, s)

/-- What is done next: a thread runs, a thread is started, or a signal comes. -/
inductive Turn where
  | run (i n : ℕ)
  | start (i : ℕ) (task : Task)
  | stop

/-- The history of a schedule and the system it leads to. -/
def play (fuel : ℕ) (settings : Settings) (oracle : Site.Oracle) :
    List Turn → List (Act App Task Signal) × System App Exn Site →
      Option (List (Act App Task Signal) × System App Exn Site)
  | [], x => some x
  | .run i n :: turns, (t, c) =>
    match c.threads i with
    | none => none
    | some p => (advance oracle i n p c.store).bind fun x =>
      play fuel settings oracle turns (t ++ x.1.map (.call i),
        ⟨x.2.2, Function.update c.threads i (some x.2.1)⟩)
  | .start i task :: turns, (t, c) =>
    if (c.threads i).isNone && c.store.serving then
      play fuel settings oracle turns (t ++ [.start i task],
        ⟨c.store, Function.update c.threads i (some (task.program fuel settings))⟩)
    else none
  | .stop :: turns, (t, c) =>
    play fuel settings oracle turns (t ++ [.move .requestStop],
      ⟨{ c.store with stopping := true }, c.threads⟩)

theorem advance_reached {oracle : Site.Oracle} {n : ℕ} {p p' : AppProgram Unit} {calls : Trace App}
    (h : Reached fuel settings t c) (hi : c.threads i = some p)
    (hp : advance oracle i n p c.store = some (calls, p', s')) :
    Reached fuel settings (t ++ calls.map (.call i))
      ⟨s', Function.update c.threads i (some p')⟩ := by
  induction n generalizing t c p calls with
  | zero =>
    obtain ⟨rfl, rfl, rfl⟩ : [] = calls ∧ p = p' ∧ c.store = s' := by
      cases p <;> simpa [advance] using hp
    rw [List.map_nil, List.append_nil, ← hi, Function.update_eq_self]
    exact h
  | succ n ih =>
    cases p with
    | call o k =>
      rw [advance] at hp
      split_ifs at hp with hpermit
      obtain ⟨x, hx, heq⟩ := Option.map_eq_some_iff.mp hp
      obtain ⟨rest, p₁, s₁⟩ := x
      cases heq
      have hstep := h.snoc (.call hi ⟨⟨oracle, rfl⟩, hpermit, rfl⟩)
      have hrest := ih hstep (Function.update_self i _ _) hx
      rw [Function.update_idem] at hrest
      simpa using hrest
    | _ =>
      cases hp
      rw [List.map_nil, List.append_nil, ← hi, Function.update_eq_self]
      exact h

theorem play_reached {oracle : Site.Oracle} {turns : List Turn}
    {x y : List (Act App Task Signal) × System App Exn Site} (h : Reached fuel settings x.1 x.2)
    (hplay : play fuel settings oracle turns x = some y) : Reached fuel settings y.1 y.2 := by
  induction turns generalizing x with
  | nil =>
    cases hplay
    exact h
  | cons turn turns ih =>
    obtain ⟨t, c⟩ := x
    cases turn with
    | run i n =>
      rw [play] at hplay
      split at hplay
      · cases hplay
      · rename_i p hp
        obtain ⟨⟨calls, p', s'⟩, hadvance, hplay⟩ := Option.bind_eq_some_iff.mp hplay
        exact ih (advance_reached h hp hadvance) hplay
    | start i task =>
      rw [play] at hplay
      split_ifs at hplay with hstart
      obtain ⟨hnone, hserving⟩ := (Bool.and_eq_true _ _).mp hstart
      exact ih (h.snoc (.start (Option.isNone_iff_eq_none.mp hnone) hserving)) hplay
    | stop => exact ih (h.snoc (.move rfl)) hplay

/-- What has happened stays in the history. -/
theorem play_mem {oracle : Site.Oracle} {turns : List Turn} {m : Act App Task Signal}
    {x y : List (Act App Task Signal) × System App Exn Site}
    (hplay : play fuel settings oracle turns x = some y) (hm : m ∈ x.1) : m ∈ y.1 := by
  induction turns generalizing x with
  | nil =>
    cases hplay
    exact hm
  | cons turn turns ih =>
    obtain ⟨t, c⟩ := x
    cases turn with
    | run i n =>
      rw [play] at hplay
      split at hplay
      · cases hplay
      · obtain ⟨calls, -, hplay⟩ := Option.bind_eq_some_iff.mp hplay
        exact ih hplay (List.mem_append_left _ hm)
    | start i task =>
      rw [play] at hplay
      split_ifs at hplay
      exact ih hplay (List.mem_append_left _ hm)
    | stop => exact ih hplay (List.mem_append_left _ hm)

theorem play_started {oracle : Site.Oracle} {turns : List Turn} {task : Task}
    {x y : List (Act App Task Signal) × System App Exn Site}
    (hplay : play fuel settings oracle turns x = some y) (hm : .start i task ∈ turns) :
    .start i task ∈ y.1 := by
  induction turns generalizing x with
  | nil => cases hm
  | cons turn turns ih =>
    obtain ⟨t, c⟩ := x
    cases turn with
    | run j n =>
      rw [play] at hplay
      split at hplay
      · cases hplay
      · obtain ⟨calls, -, hplay⟩ := Option.bind_eq_some_iff.mp hplay
        exact ih hplay (by simpa using hm)
    | start j task' =>
      rw [play] at hplay
      split_ifs at hplay
      rcases List.mem_cons.mp hm with hhead | htail
      · cases hhead
        exact play_mem hplay (by simp)
      · exact ih hplay htail
    | stop => exact ih hplay (by simpa using hm)

end Cul868Flasher
