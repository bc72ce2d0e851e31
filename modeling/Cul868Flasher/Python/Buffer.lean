import Mathlib.Data.List.Induction

/-!
# The lines of a growing buffer

A buffer is cut at the elements that end a line. All its lines but the last are
closed; the last is still open and grows with the buffer. Every closed line has
been the open line of an earlier buffer.
-/

namespace Python.Buffer

variable {α : Type} (isEnd : α → Bool)

def step (s : List (List α) × List α) (c : α) : List (List α) × List α :=
  if isEnd c then (s.1 ++ [s.2], []) else (s.1, s.2 ++ [c])

def state (p : List α) : List (List α) × List α := p.foldl (step isEnd) ([], [])

/-- The lines that have been ended. -/
def closed (p : List α) : List (List α) := (state isEnd p).1

/-- What has come since the last end of a line. -/
def openLine (p : List α) : List α := (state isEnd p).2

theorem foldl_step (p : List α) (s : List (List α) × List α) :
    (p.foldl (step isEnd) s).1 ++ [(p.foldl (step isEnd) s).2] =
      s.1 ++ (p.splitOnP isEnd).modifyHead (s.2 ++ ·) := by
  induction p generalizing s with
  | nil => simp [List.splitOnP_nil]
  | cons c p ih =>
    rw [List.foldl_cons, ih, step, List.splitOnP_cons_eq_if_modifyHead]
    by_cases hc : isEnd c = true
    · rw [if_pos hc, if_pos hc]
      obtain ⟨l, ls, hl⟩ := List.exists_cons_of_ne_nil (List.splitOnP_ne_nil isEnd p)
      simp [hl]
    · rw [if_neg hc, if_neg hc]
      obtain ⟨l, ls, hl⟩ := List.exists_cons_of_ne_nil (List.splitOnP_ne_nil isEnd p)
      simp [hl]

theorem splitOnP_eq (p : List α) : p.splitOnP isEnd = closed isEnd p ++ [openLine isEnd p] := by
  have h := foldl_step isEnd p ([], [])
  obtain ⟨l, ls, hl⟩ := List.exists_cons_of_ne_nil (List.splitOnP_ne_nil isEnd p)
  rw [closed, openLine, state, h, hl]
  simp

@[simp] theorem openLine_nil : openLine isEnd [] = [] := rfl

theorem openLine_snoc (p : List α) (c : α) :
    openLine isEnd (p ++ [c]) = if isEnd c then [] else openLine isEnd p ++ [c] := by
  rw [openLine, state, List.foldl_append, List.foldl_cons, List.foldl_nil, step]
  split_ifs <;> rfl

theorem closed_snoc (p : List α) (c : α) : closed isEnd (p ++ [c]) =
    if isEnd c then closed isEnd p ++ [openLine isEnd p] else closed isEnd p := by
  rw [closed, state, List.foldl_append, List.foldl_cons, List.foldl_nil, step]
  split_ifs <;> rfl

variable {isEnd}

theorem closed_append (p q : List α) : closed isEnd p <+: closed isEnd (p ++ q) := by
  induction q using List.reverseRecOn with
  | nil => simp
  | append_singleton q c ih =>
    rw [← List.append_assoc, closed_snoc]
    split_ifs
    · exact ih.trans (List.prefix_append _ _)
    · exact ih

theorem mem_closed {p l : List α} (h : l ∈ closed isEnd p) :
    ∃ q c rest, p = q ++ c :: rest ∧ isEnd c = true ∧ openLine isEnd q = l := by
  induction p using List.reverseRecOn with
  | nil => cases h
  | append_singleton p c ih =>
    have hearlier (hl : l ∈ closed isEnd p) : ∃ q c' rest, p ++ [c] = q ++ c' :: rest ∧
        isEnd c' = true ∧ openLine isEnd q = l := by
      obtain ⟨q, c', rest, rfl, hc', hq⟩ := ih hl
      exact ⟨q, c', rest ++ [c], by simp, hc', hq⟩
    rw [closed_snoc] at h
    split_ifs at h with hc
    · rcases List.mem_append.mp h with h | h
      · exact hearlier h
      · exact ⟨p, c, [], rfl, hc, (List.mem_singleton.mp h).symm⟩
    · exact hearlier h

theorem openLine_open (p : List α) : ∀ c ∈ openLine isEnd p, isEnd c = false := by
  induction p using List.reverseRecOn with
  | nil => simp
  | append_singleton p c ih =>
    rw [openLine_snoc]
    split_ifs with hc
    · simp
    · intro x hx
      rcases List.mem_append.mp hx with hx | hx
      · exact ih x hx
      · rw [List.mem_singleton.mp hx]
        simpa using hc

theorem mem_splitOnP_open {p l : List α} (h : l ∈ p.splitOnP isEnd) : ∀ c ∈ l, isEnd c = false := by
  rw [splitOnP_eq, List.mem_append, List.mem_singleton] at h
  rcases h with hclosed | rfl
  · obtain ⟨q, _, _, -, -, rfl⟩ := mem_closed hclosed
    exact openLine_open q
  · exact openLine_open p

/-- The open line is what is left of the buffer after an end of a line, or all of it. -/
theorem openLine_split (isEnd : α → Bool) (p : List α) : ∃ front, p = front ++ openLine isEnd p ∧
    (front = [] ∨ ∃ q c, front = q ++ [c] ∧ isEnd c = true) := by
  induction p using List.reverseRecOn with
  | nil => exact ⟨[], rfl, .inl rfl⟩
  | append_singleton p c ih =>
    rw [openLine_snoc]
    split_ifs with hc
    · exact ⟨p ++ [c], by simp, .inr ⟨p, c, rfl, hc⟩⟩
    · obtain ⟨front, hp, hfront⟩ := ih
      exact ⟨front, by rw [← List.append_assoc, ← hp], hfront⟩

theorem openLine_append {p line : List α} (h : ∀ c ∈ line, isEnd c = false) :
    openLine isEnd (p ++ line) = openLine isEnd p ++ line := by
  induction line using List.reverseRecOn with
  | nil => simp
  | append_singleton line c ih =>
    rw [← List.append_assoc, openLine_snoc, ih fun x hx => h x (List.mem_append_left _ hx),
      if_neg (by simp [h c (by simp)]), List.append_assoc]

theorem closed_append_open {p line : List α} (h : ∀ c ∈ line, isEnd c = false) :
    closed isEnd (p ++ line) = closed isEnd p := by
  induction line using List.reverseRecOn with
  | nil => simp
  | append_singleton line c ih =>
    rw [← List.append_assoc, closed_snoc, if_neg (by simp [h c (by simp)]),
      ih fun x hx => h x (List.mem_append_left _ hx)]

theorem openLine_of_split {front line : List α}
    (hfront : front = [] ∨ ∃ q c, front = q ++ [c] ∧ isEnd c = true)
    (hline : ∀ c ∈ line, isEnd c = false) : openLine isEnd (front ++ line) = line := by
  rw [openLine_append hline]
  rcases hfront with rfl | ⟨q, c, rfl, hc⟩
  · rfl
  · rw [openLine_snoc, if_pos hc, List.nil_append]

/-! ## The first line that matches -/

variable (isEnd) (accepts : List α → Bool)

/-- No line has matched so far, the open one included. -/
def Unmatched (p : List α) : Prop := ∀ q, q <+: p → accepts (openLine isEnd q) = false

/-- The open line matches, and no line has matched before. -/
structure FirstMatch (p : List α) : Prop where
  matched : accepts (openLine isEnd p) = true
  first : ∀ q, q <+: p → q ≠ p → accepts (openLine isEnd q) = false

variable {isEnd accepts}

theorem FirstMatch.unique {p q s : List α} (hp : FirstMatch isEnd accepts p)
    (hq : FirstMatch isEnd accepts q) (hps : p <+: s) (hqs : q <+: s) : p = q := by
  by_contra hne
  rcases List.prefix_or_prefix_of_prefix hps hqs with h | h
  · have := hq.first p h hne
    rw [hp.matched] at this
    cases this
  · have := hp.first q h (Ne.symm hne)
    rw [hq.matched] at this
    cases this

/-- A buffer in which no line has matched, or the moment of the first match. -/
theorem unmatched_or_firstMatch (isEnd : α → Bool) (accepts : List α → Bool) (p : List α) :
    Unmatched isEnd accepts p ∨
    ∃ q, q <+: p ∧ FirstMatch isEnd accepts q := by
  induction p using List.reverseRecOn with
  | nil =>
    cases h : accepts (openLine isEnd []) with
    | true =>
      refine .inr ⟨[], List.prefix_rfl, h, fun q hq hne => ?_⟩
      exact absurd (List.prefix_nil.mp hq) hne
    | false =>
      refine .inl fun q hq => ?_
      rw [List.prefix_nil.mp hq]
      exact h
  | append_singleton p c ih =>
    rcases ih with hp | ⟨q, hq, hfirst⟩
    · have hproper : ∀ q, q <+: p ++ [c] → q ≠ p ++ [c] → accepts (openLine isEnd q) = false := by
        intro q hq hne
        exact hp q ((List.prefix_concat_iff.mp hq).resolve_left hne)
      cases h : accepts (openLine isEnd (p ++ [c])) with
      | true => exact .inr ⟨p ++ [c], List.prefix_rfl, h, hproper⟩
      | false =>
        refine .inl fun q hq => ?_
        by_cases hne : q = p ++ [c]
        · rw [hne]
          exact h
        · exact hproper q hq hne
    · exact .inr ⟨q, hq.trans (List.prefix_append _ _), hfirst⟩

/-- No closed line of a buffer matches that has not matched while it was open. -/
theorem find_closed {p : List α}
    (h : ∀ q, q <+: p → q ≠ p → accepts (openLine isEnd q) = false) :
    (closed isEnd p).find? accepts = none := by
  refine List.find?_eq_none.mpr fun l hl => ?_
  obtain ⟨q, c, rest, rfl, -, rfl⟩ := mem_closed hl
  rw [h q (List.prefix_append _ _) (by simp)]
  simp

theorem find_unmatched {p : List α} (h : Unmatched isEnd accepts p) :
    (p.splitOnP isEnd).find? accepts = none := by
  rw [splitOnP_eq, List.find?_append, find_closed fun q hq _ => h q hq, Option.none_or,
    List.find?_singleton, h p List.prefix_rfl]
  rfl

theorem find_firstMatch {p : List α} (h : FirstMatch isEnd accepts p) :
    (p.splitOnP isEnd).find? accepts = some (openLine isEnd p) := by
  rw [splitOnP_eq, List.find?_append, find_closed h.first, Option.none_or, List.find?_singleton,
    h.matched]
  rfl

/-- The first match stays the first once its line has been ended. -/
theorem find_after {p more : List α} {c : α} (h : FirstMatch isEnd accepts p)
    (hc : isEnd c = true) :
    ((p ++ c :: more).splitOnP isEnd).find? accepts = some (openLine isEnd p) := by
  have hprefix : closed isEnd p ++ [openLine isEnd p] <+: closed isEnd (p ++ c :: more) := by
    have hclosed : closed isEnd (p ++ [c]) <+: closed isEnd (p ++ [c] ++ more) :=
      closed_append (p ++ [c]) more
    rw [closed_snoc, if_pos hc, List.append_assoc, List.singleton_append] at hclosed
    exact hclosed
  obtain ⟨rest, hrest⟩ := hprefix
  rw [splitOnP_eq, ← hrest, List.find?_append, List.find?_append, List.find?_append,
    find_closed h.first, Option.none_or, List.find?_singleton, h.matched]
  rfl

end Python.Buffer
