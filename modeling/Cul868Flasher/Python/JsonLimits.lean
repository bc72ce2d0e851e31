import Cul868Flasher.Python.JsonText

/-!
# The limits of a JSON reader

`json.loads` gives up on a text before it is known to be well formed: at an
integer with more digits than `int` converts, and at a value nested deeper than
the interpreter recurses. Within the limits it reads what `loads` reads.
-/

namespace Python
namespace Json

inductive LoadsError where
  /-- `JSONDecodeError`. -/
  | malformed
  /-- The `ValueError` of `int`. -/
  | tooManyDigits
  /-- `RecursionError`. -/
  | tooDeep
  deriving DecidableEq

def orMalformed {α : Type} : Option α → Except LoadsError α
  | some a => .ok a
  | none => .error .malformed

/-- The digits of the integer that starts here. -/
def literalDigits : List Char → ℕ
  | '-' :: cs => ((scanInteger cs).map fun p => p.1.length).getD 0
  | cs => ((scanInteger cs).map fun p => p.1.length).getD 0

def isInt : Json → Bool
  | .int _ => true
  | _ => false

/-- Only an integer is given to `int`, and only the part before its end. -/
def scalarWithin (digits : ℕ) (cs : List Char) : Except LoadsError (Json × List Char) := do
  let (value, rest) ← orMalformed (scanScalar cs)
  if isInt value && digits < literalDigits cs then .error .tooManyDigits
  else return (value, rest)

mutual

/-- One value; `depth` more levels may be entered. -/
def valueWithin (digits fuel depth : ℕ) (cs : List Char) : Except LoadsError (Json × List Char) :=
  match fuel with
  | 0 => .error .malformed
  | n+1 =>
    match cs with
    | '"' :: cs => do
      let (us, rest) ← orMalformed (scanString cs)
      return (.str (stringOfUnits us), rest)
    | '{' :: cs =>
      match depth with
      | 0 => .error .tooDeep
      | d+1 =>
        match skipSpace cs with
        | '}' :: rest => .ok (.obj [], rest)
        | cs => do
          let (fields, rest) ← fieldsWithin digits n d [] cs
          return (.obj fields, rest)
    | '[' :: cs =>
      match depth with
      | 0 => .error .tooDeep
      | d+1 =>
        match skipSpace cs with
        | ']' :: rest => .ok (.arr [], rest)
        | cs => do
          let (items, rest) ← itemsWithin digits n d cs
          return (.arr items, rest)
    | cs => scalarWithin digits cs

def fieldsWithin (digits fuel depth : ℕ) (fields : List (String × Json)) (cs : List Char) :
    Except LoadsError (List (String × Json) × List Char) :=
  match fuel with
  | 0 => .error .malformed
  | n+1 =>
    match cs with
    | '"' :: cs => do
      let (us, cs) ← orMalformed (scanString cs)
      match skipSpace cs with
      | ':' :: cs => do
        let (value, cs) ← valueWithin digits n depth (skipSpace cs)
        let fields := setField fields (stringOfUnits us) value
        match skipSpace cs with
        | '}' :: rest => .ok (fields, rest)
        | ',' :: cs => fieldsWithin digits n depth fields (skipSpace cs)
        | _ => .error .malformed
      | _ => .error .malformed
    | _ => .error .malformed

def itemsWithin (digits fuel depth : ℕ) (cs : List Char) :
    Except LoadsError (List Json × List Char) :=
  match fuel with
  | 0 => .error .malformed
  | n+1 => do
    let (item, cs) ← valueWithin digits n depth cs
    match skipSpace cs with
    | ']' :: rest => .ok ([item], rest)
    | ',' :: cs => do
      let (items, rest) ← itemsWithin digits n depth (skipSpace cs)
      return (item :: items, rest)
    | _ => .error .malformed

end

/-- `json.loads(text)` under the limits of the interpreter. -/
def loadsWithin (digits depth : ℕ) (text : List Char) : Except LoadsError Json := do
  let (value, rest) ← valueWithin digits (text.length + 1) depth (skipSpace text)
  if skipSpace rest = [] then return value else .error .malformed

/-! ## Within the limits -/

/-- Unless it stops at a limit, the bounded reader does what the other one does. -/
def Agrees {α : Type} (x : Except LoadsError α) (y : Option α) : Prop :=
  (∀ a, x = .ok a → y = some a) ∧ (x = .error .malformed → y = none)

namespace Agrees
variable {α β : Type}

theorem ok (a : α) : Agrees (.ok a) (some a) :=
  ⟨fun _ h => (by cases h; rfl), fun h => (by cases h)⟩

theorem malformed : Agrees (.error .malformed : Except LoadsError α) none :=
  ⟨fun _ h => (by cases h), fun _ => rfl⟩

theorem limit {e : LoadsError} (he : e ≠ .malformed) (y : Option α) : Agrees (.error e) y :=
  ⟨fun _ h => (by cases h), fun h => (by cases h; exact absurd rfl he)⟩

theorem orMalformed (y : Option α) : Agrees (orMalformed y) y := by
  cases y with
  | none => exact malformed
  | some a => exact ok a

theorem bind {x : Except LoadsError α} {y : Option α} {f : α → Except LoadsError β}
    {g : α → Option β} (hxy : Agrees x y) (hfg : ∀ a, Agrees (f a) (g a)) :
    Agrees (x >>= f) (y >>= g) := by
  cases x with
  | ok a =>
    rw [hxy.1 a rfl]
    exact hfg a
  | error e =>
    by_cases he : e = .malformed
    · subst he
      rw [hxy.2 rfl]
      exact malformed
    · exact limit he _

end Agrees

theorem scalarWithin_agrees (digits : ℕ) (cs : List Char) :
    Agrees (scalarWithin digits cs) (scanScalar cs) := by
  have hbind : scanScalar cs = scanScalar cs >>= some := by simp
  rw [hbind]
  refine (Agrees.orMalformed _).bind fun p => ?_
  dsimp only
  split_ifs
  · exact .limit (by decide) _
  · exact .ok p

section Step
variable {digits n : ℕ}

theorem scanValue_brace (n : ℕ) (cs : List Char) : scanValue (n+1) ('{' :: cs) =
    match skipSpace cs with
    | '}' :: rest => some (.obj [], rest)
    | cs => do
      let (fields, rest) ← scanFields n [] cs
      return (.obj fields, rest) := by
  unfold scanValue
  rfl

theorem scanValue_bracket (n : ℕ) (cs : List Char) : scanValue (n+1) ('[' :: cs) =
    match skipSpace cs with
    | ']' :: rest => some (.arr [], rest)
    | cs => do
      let (items, rest) ← scanItems n cs
      return (.arr items, rest) := by
  unfold scanValue
  rfl

theorem valueWithin_agrees
    (hfields : ∀ depth fields cs,
      Agrees (fieldsWithin digits n depth fields cs) (scanFields n fields cs))
    (hitems : ∀ depth cs, Agrees (itemsWithin digits n depth cs) (scanItems n cs))
    (depth : ℕ) (cs : List Char) :
    Agrees (valueWithin digits (n+1) depth cs) (scanValue (n+1) cs) := by
  unfold valueWithin
  split
  · rw [scanValue]
    exact (Agrees.orMalformed _).bind fun p => .ok _
  · rw [scanValue_brace]
    cases depth with
    | zero => exact .limit (by decide) _
    | succ d =>
      dsimp only
      split
      · exact .ok _
      · exact (hfields d _ _).bind fun p => .ok _
  · rw [scanValue_bracket]
    cases depth with
    | zero => exact .limit (by decide) _
    | succ d =>
      dsimp only
      split
      · exact .ok _
      · exact (hitems d _).bind fun p => .ok _
  · rename_i hquote hbrace hbracket
    rw [scanValue]
    · exact scalarWithin_agrees digits _
    · exact hquote
    · exact hbrace
    · exact hbracket

/-! Both readers look at the same character next. -/

section Next
variable {α : Type} {f f' : List Char → Except LoadsError α} {g g' : List Char → Option α}

theorem agrees_colon (h : ∀ cs, Agrees (f cs) (g cs)) (cs : List Char) :
    Agrees
      (match cs with
        | ':' :: cs => f cs
        | _ => .error .malformed)
      (match cs with
        | ':' :: cs => g cs
        | _ => none) := by
  split
  · exact h _
  · exact .malformed

theorem agrees_brace (h : ∀ cs, Agrees (f cs) (g cs)) (h' : ∀ cs, Agrees (f' cs) (g' cs))
    (cs : List Char) :
    Agrees
      (match cs with
        | '}' :: rest => f rest
        | ',' :: cs => f' cs
        | _ => .error .malformed)
      (match cs with
        | '}' :: rest => g rest
        | ',' :: cs => g' cs
        | _ => none) := by
  split
  · exact h _
  · exact h' _
  · exact .malformed

theorem agrees_bracket (h : ∀ cs, Agrees (f cs) (g cs)) (h' : ∀ cs, Agrees (f' cs) (g' cs))
    (cs : List Char) :
    Agrees
      (match cs with
        | ']' :: rest => f rest
        | ',' :: cs => f' cs
        | _ => .error .malformed)
      (match cs with
        | ']' :: rest => g rest
        | ',' :: cs => g' cs
        | _ => none) := by
  split
  · exact h _
  · exact h' _
  · exact .malformed

end Next

theorem fieldsWithin_agrees {depth : ℕ}
    (hvalue : ∀ cs, Agrees (valueWithin digits n depth cs) (scanValue n cs))
    (hfields : ∀ fields cs, Agrees (fieldsWithin digits n depth fields cs) (scanFields n fields cs))
    (fields : List (String × Json)) (cs : List Char) :
    Agrees (fieldsWithin digits (n+1) depth fields cs) (scanFields (n+1) fields cs) := by
  unfold fieldsWithin
  split
  · rw [scanFields]
    refine (Agrees.orMalformed _).bind fun p => ?_
    exact agrees_colon (fun cs => (hvalue _).bind fun q => agrees_brace (fun _ => .ok _)
      (fun cs => hfields _ _) _) _
  · rename_i hquote
    rw [scanFields]
    · exact .malformed
    · exact hquote

theorem itemsWithin_agrees {depth : ℕ}
    (hvalue : ∀ cs, Agrees (valueWithin digits n depth cs) (scanValue n cs))
    (hitems : ∀ cs, Agrees (itemsWithin digits n depth cs) (scanItems n cs)) (cs : List Char) :
    Agrees (itemsWithin digits (n+1) depth cs) (scanItems (n+1) cs) := by
  unfold itemsWithin
  rw [scanItems]
  exact (hvalue _).bind fun p => agrees_bracket (fun _ => .ok _)
    (fun cs => (hitems _).bind fun q => .ok _) _

end Step

theorem within_agrees (digits fuel depth : ℕ) :
    (∀ cs, Agrees (valueWithin digits fuel depth cs) (scanValue fuel cs)) ∧
      (∀ fields cs, Agrees (fieldsWithin digits fuel depth fields cs) (scanFields fuel fields cs)) ∧
      ∀ cs, Agrees (itemsWithin digits fuel depth cs) (scanItems fuel cs) := by
  induction fuel generalizing depth with
  | zero => exact ⟨fun _ => .malformed, fun _ _ => .malformed, fun _ => .malformed⟩
  | succ n ih =>
    obtain ⟨hvalue, hfields, hitems⟩ := ih depth
    exact ⟨valueWithin_agrees (fun d => (ih d).2.1) (fun d => (ih d).2.2) depth,
      fieldsWithin_agrees hvalue hfields, itemsWithin_agrees hvalue hitems⟩

/-- What is read within the limits is what `loads` reads; what is refused there
as no JSON, `loads` refuses. -/
theorem loadsWithin_agrees (digits depth : ℕ) (text : List Char) :
    Agrees (loadsWithin digits depth text) (loads text) := by
  have hloads : loads text = (scanValue (text.length + 1) (skipSpace text) >>= fun p =>
      if skipSpace p.2 = [] then some p.1 else none) := by
    unfold loads
    cases scanValue (text.length + 1) (skipSpace text) <;> rfl
  rw [hloads]
  refine ((within_agrees digits _ depth).1 _).bind fun p => ?_
  dsimp only
  split_ifs
  · exact .ok _
  · exact .malformed

/-! ## Documents that have been written -/

theorem literalDigits_digit {d : Char} (hd : d.isDigit = true) (cs : List Char) :
    literalDigits (d :: cs) = ((scanInteger (d :: cs)).map fun p => p.1.length).getD 0 := by
  rw [literalDigits]
  rintro _ heq
  rw [(List.cons.inj heq).1] at hd
  exact absurd hd (by decide)

theorem literalDigits_int (n : ℤ) {c : Char} (hc : c.isDigit = false) (rest : List Char) :
    literalDigits ((toString n).toList ++ c :: rest) ≤ (toString n).toList.length := by
  cases n with
  | ofNat n =>
    have hscan := scanInteger_toDigits n hc rest
    obtain ⟨d, ds, hds, hd⟩ := toDigits_cons n
    rw [toString_ofNat]
    rw [hds, List.cons_append] at hscan ⊢
    rw [literalDigits_digit hd, hscan]
    simp
  | negSucc n =>
    rw [toString_negSucc, List.cons_append, literalDigits, scanInteger_toDigits (n+1) hc rest]
    simp

/-- A value without parts is read at any depth. -/
theorem valueWithin_dumps {digits : ℕ} {value : Json} (h : IsScalar value)
    (hdigits : (dumpsScalar value).length ≤ digits) (n depth : ℕ) {c : Char} (hc : EndsValue c)
    (rest : List Char) : valueWithin digits (n+1) depth (dumpsScalar value ++ c :: rest) =
      .ok (value, c :: rest) := by
  cases value with
  | null => rfl
  | bool b => cases b <;> rfl
  | int k =>
    have hdigit : c.isDigit = false := by
      rcases hc with rfl | rfl <;> rfl
    have hscan := scanScalar_int k hc rest
    have hfew : ¬ digits < literalDigits ((toString k).toList ++ c :: rest) :=
      Nat.not_lt.mpr (Nat.le_trans (literalDigits_int k hdigit rest) hdigits)
    obtain ⟨d, ds, hds, hd⟩ := toString_int_head k
    change valueWithin digits (n+1) depth ((toString k).toList ++ c :: rest) = _
    rw [hds, List.cons_append] at hscan hfew ⊢
    unfold valueWithin
    split
    · rename_i heq
      rw [(List.cons.inj heq).1] at hd
      exact absurd hd (by decide)
    · rename_i heq
      rw [(List.cons.inj heq).1] at hd
      exact absurd hd (by decide)
    · rename_i heq
      rw [(List.cons.inj heq).1] at hd
      exact absurd hd (by decide)
    · rw [scalarWithin, hscan]
      simp [orMalformed, hfew, bind, Except.bind, pure, Except.pure]
  | str s =>
    change valueWithin digits (n+1) depth
      ('"' :: (s.toList.flatMap escapeChar ++ ['"']) ++ c :: rest) = _
    rw [List.cons_append, List.append_assoc, List.singleton_append, valueWithin, scanString_dumps]
    simp [orMalformed, stringOfUnits_units, bind, Except.bind, pure, Except.pure]
  | float digits => exact h.elim
  | arr items => exact h.elim
  | obj fields => exact h.elim

theorem fieldsWithin_field {digits : ℕ} {field : String × Json} {seen : List (String × Json)}
    (hscalar : IsScalar field.2) (hdigits : (dumpsScalar field.2).length ≤ digits)
    (hfresh : field.1 ∉ seen.map Prod.fst) (n depth : ℕ) {c : Char} (hc : EndsValue c)
    (rest : List Char) : fieldsWithin digits (n+2) depth seen (fieldText field ++ c :: rest) =
      if c = '}' then .ok (seen ++ [field], rest)
      else fieldsWithin digits (n+1) depth (seen ++ [field]) (skipSpace rest) := by
  obtain ⟨key, value⟩ := field
  obtain ⟨d, ds, hds, hspace⟩ := dumpsScalar_head hscalar
  have hvalue := valueWithin_dumps hscalar hdigits n depth hc rest
  have htext : fieldText (key, value) ++ c :: rest =
      '"' :: (key.toList.flatMap escapeChar ++ '"' :: ':' :: (dumpsScalar value ++ c :: rest)) := by
    simp [fieldText, dumpsString]
  rw [htext, fieldsWithin, scanString_dumps]
  dsimp only at hds hvalue
  rw [hds, List.cons_append] at hvalue ⊢
  simp only [orMalformed, bind, Except.bind, skipSpace_cons (c := ':') rfl, skipSpace_cons hspace,
    hvalue, stringOfUnits_units, setField_fresh hfresh]
  rcases hc with rfl | rfl <;> rfl

theorem fields_head (field : String × Json) (fields : List (String × Json)) :
    ∃ cs, [','].intercalate ((field :: fields).map fieldText) = '"' :: cs := by
  cases fields with
  | nil => exact ⟨_, by rw [List.map_singleton, List.intercalate_singleton]; rfl⟩
  | cons next fields =>
    exact ⟨_, by rw [List.map_cons, List.map_cons, List.intercalate_cons_cons]; rfl⟩

theorem skipSpace_fields (field : String × Json) (fields : List (String × Json)) (cs : List Char) :
    skipSpace ([','].intercalate ((field :: fields).map fieldText) ++ cs) =
      [','].intercalate ((field :: fields).map fieldText) ++ cs := by
  obtain ⟨ds, hds⟩ := fields_head field fields
  rw [hds]
  exact skipSpace_cons rfl _

theorem fieldsWithin_dumps {digits : ℕ} {field : String × Json} {fields : List (String × Json)}
    (hscalar : ∀ f ∈ field :: fields, IsScalar f.2)
    (hdigits : ∀ f ∈ field :: fields, (dumpsScalar f.2).length ≤ digits)
    (seen : List (String × Json)) (hkeys : ((seen ++ field :: fields).map Prod.fst).Nodup) {n : ℕ}
    (hn : fields.length + 2 ≤ n) (depth : ℕ) (rest : List Char) :
    fieldsWithin digits n depth seen
      ([','].intercalate ((field :: fields).map fieldText) ++ '}' :: rest) =
        .ok (seen ++ field :: fields, rest) := by
  have hfresh : field.1 ∉ seen.map Prod.fst := by
    rw [List.map_append, List.nodup_append] at hkeys
    intro hmem
    exact hkeys.2.2 _ hmem _ (by simp) rfl
  induction fields generalizing field seen n with
  | nil =>
    obtain ⟨m, rfl⟩ : ∃ m, n = m + 2 := ⟨n - 2, by omega⟩
    rw [List.map_singleton, List.intercalate_singleton,
      fieldsWithin_field (hscalar _ List.mem_cons_self)
        (hdigits _ List.mem_cons_self) hfresh m depth
        (.inr rfl), if_pos rfl]
  | cons next fields ih =>
    obtain ⟨m, rfl⟩ : ∃ m, n = m + 2 := ⟨n - 2, by omega⟩
    have hnext : ((seen ++ [field]) ++ next :: fields) = seen ++ field :: next :: fields := by simp
    rw [List.map_cons, List.map_cons, List.intercalate_cons_cons, List.append_assoc,
      List.append_assoc, List.singleton_append,
      fieldsWithin_field (hscalar _ List.mem_cons_self)
        (hdigits _ List.mem_cons_self) hfresh m depth
        (.inl rfl), if_neg (by decide), ← List.map_cons, skipSpace_fields, ← hnext]
    refine ih (fun f hf => hscalar f (List.mem_cons_of_mem _ hf))
      (fun f hf => hdigits f (List.mem_cons_of_mem _ hf)) _ (by rwa [hnext])
      (by simp only [List.length_cons] at hn; omega) ?_
    rw [← hnext, List.map_append, List.nodup_append] at hkeys
    intro hmem
    exact hkeys.2.2 _ hmem _ (by simp) rfl

/-- A flat document is within every limit on the depth. -/
theorem loadsWithin_dumpsFields {digits : ℕ} {fields : List (String × Json)}
    (hscalar : ∀ f ∈ fields, IsScalar f.2) (hkeys : (fields.map Prod.fst).Nodup)
    (hdigits : ∀ f ∈ fields, (dumpsScalar f.2).length ≤ digits) (depth : ℕ) :
    loadsWithin digits (depth+1) (dumpsFields fields) = .ok (.obj fields) := by
  cases fields with
  | nil => rfl
  | cons field fields =>
    have htext : dumpsFields (field :: fields) =
        '{' :: ([','].intercalate ((field :: fields).map fieldText) ++ ['}']) := rfl
    have hlength := length_fields_le field fields
    have hwithin := fieldsWithin_dumps hscalar hdigits [] hkeys
      (n := (dumpsFields (field :: fields)).length) (by
        rw [htext]
        simp only [List.length_cons, List.length_append, List.length_nil]
        omega) depth []
    have hspace := skipSpace_fields field fields ['}']
    obtain ⟨cs, hcs⟩ := fields_head field fields
    rw [hcs, List.cons_append] at hwithin hspace
    have hskip : skipSpace (dumpsFields (field :: fields)) = '{' :: '"' :: (cs ++ ['}']) := by
      rw [htext, hcs]
      exact skipSpace_cons rfl _
    have hvalue : valueWithin digits ((dumpsFields (field :: fields)).length + 1) (depth+1)
        ('{' :: '"' :: (cs ++ ['}'])) = .ok (.obj (field :: fields), []) := by
      rw [valueWithin, hspace]
      change (do let p ← fieldsWithin _ _ _ _ ('"' :: (cs ++ ['}'])); pure (Json.obj p.1, p.2)) = _
      rw [hwithin]
      rfl
    rw [loadsWithin, hskip, hvalue]
    rfl

end Json
end Python
