import Cul868Flasher.Python.Json
import Cul868Flasher.Python.Text
import Mathlib.Data.List.Nodup

/-!
# Reading JSON text

`loads` is `json.loads` on the characters of a text. A string is read as UTF-16
units, since its escapes name units, and a pair of surrogates joins to one
character. What `dumpsFields` writes, `loads` reads back.
-/

namespace Python
namespace Json

/-! ## Strings -/

def isHighSurrogate (u : ℕ) : Bool := 0xd800 ≤ u && u ≤ 0xdbff
def isLowSurrogate (u : ℕ) : Bool := 0xdc00 ≤ u && u ≤ 0xdfff

/-- A surrogate on its own has no character here; it reads as one outside ASCII. -/
def charOfUnit (u : ℕ) : Char :=
  if isHighSurrogate u || isLowSurrogate u then '\ufffd' else Char.ofNat u

def joinUnits : List ℕ → List Char
  | [] => []
  | [u] => [charOfUnit u]
  | u :: v :: us =>
    if isHighSurrogate u && isLowSurrogate v then
      Char.ofNat (0x10000 + (u - 0xd800) * 1024 + (v - 0xdc00)) :: joinUnits us
    else charOfUnit u :: joinUnits (v :: us)

def unitOfHex (a b c d : Char) : Option ℕ := do
  let a ← hexDigit a
  let b ← hexDigit b
  let c ← hexDigit c
  let d ← hexDigit d
  return 4096 * a + 256 * b + 16 * c + d

/-- The character an escape of one letter stands for. -/
def unitOfEscape (c : Char) : Option ℕ :=
  if c = '"' ∨ c = '\\' ∨ c = '/' then some c.toNat
  else if c = 'b' then some 8
  else if c = 'f' then some 12
  else if c = 'n' then some 10
  else if c = 'r' then some 13
  else if c = 't' then some 9
  else none

/-- The units up to the closing quote, and the text behind it. -/
def scanString : List Char → Option (List ℕ × List Char)
  | [] => none
  | '"' :: rest => some ([], rest)
  | '\\' :: 'u' :: a :: b :: c :: d :: rest => do
    let u ← unitOfHex a b c d
    let (us, rest) ← scanString rest
    return (u :: us, rest)
  | '\\' :: c :: rest => do
    let u ← unitOfEscape c
    let (us, rest) ← scanString rest
    return (u :: us, rest)
  | c :: rest =>
    if c.toNat < 32 then none
    else do
      let (us, rest) ← scanString rest
      return (c.toNat :: us, rest)

def stringOfUnits (us : List ℕ) : String := String.ofList (joinUnits us)

/-! ## Numbers -/

def digitsAndRest (cs : List Char) : List Char × List Char :=
  (cs.takeWhile Char.isDigit, cs.dropWhile Char.isDigit)

/-- The digits of an integer: one zero, or digits that do not start with one. -/
def scanInteger : List Char → Option (List Char × List Char)
  | '0' :: rest => some (['0'], rest)
  | cs =>
    let (digits, rest) := digitsAndRest cs
    if digits = [] then none else some (digits, rest)

def scanFraction : List Char → List Char × List Char
  | '.' :: cs =>
    let (digits, rest) := digitsAndRest cs
    if digits = [] then ([], '.' :: cs) else ('.' :: digits, rest)
  | cs => ([], cs)

def scanSign : List Char → List Char × List Char
  | '+' :: cs => (['+'], cs)
  | '-' :: cs => (['-'], cs)
  | cs => ([], cs)

def scanExponent : List Char → List Char × List Char
  | c :: cs =>
    if c = 'e' ∨ c = 'E' then
      let (sign, cs') := scanSign cs
      let (digits, rest) := digitsAndRest cs'
      if digits = [] then ([], c :: cs) else (c :: sign ++ digits, rest)
    else ([], c :: cs)
  | [] => ([], [])

/-- A number without its sign. -/
def scanUnsigned (negative : Bool) (cs : List Char) : Option (Json × List Char) := do
  let (digits, cs) ← scanInteger cs
  let (fraction, cs) := scanFraction cs
  let (exponent, rest) := scanExponent cs
  let n : ℤ := decimal digits
  if fraction = [] ∧ exponent = [] then return (.int (if negative then -n else n), rest)
  else
    let sign := if negative then ['-'] else []
    return (.float (String.ofList (sign ++ digits ++ fraction ++ exponent)), rest)

/-! ## Values -/

def isJsonSpace (c : Char) : Bool := c = ' ' || c = '\t' || c = '\n' || c = '\r'

def skipSpace (cs : List Char) : List Char := cs.dropWhile isJsonSpace

/-- `pairs[key] = value`: the last value of a key counts. -/
def setField (fields : List (String × Json)) (key : String) (value : Json) : List (String × Json) :=
  if fields.any fun field => field.1 = key then
    fields.map fun field => if field.1 = key then (key, value) else field
  else fields ++ [(key, value)]

/-- A value that has no parts: a name or a number. -/
def scanScalar : List Char → Option (Json × List Char)
  | 'n' :: 'u' :: 'l' :: 'l' :: rest => some (.null, rest)
  | 't' :: 'r' :: 'u' :: 'e' :: rest => some (.bool true, rest)
  | 'f' :: 'a' :: 'l' :: 's' :: 'e' :: rest => some (.bool false, rest)
  | 'N' :: 'a' :: 'N' :: rest => some (.float "NaN", rest)
  | 'I' :: 'n' :: 'f' :: 'i' :: 'n' :: 'i' :: 't' :: 'y' :: rest => some (.float "Infinity", rest)
  | '-' :: 'I' :: 'n' :: 'f' :: 'i' :: 'n' :: 'i' :: 't' :: 'y' :: rest =>
    some (.float "-Infinity", rest)
  | '-' :: cs => scanUnsigned true cs
  | cs => scanUnsigned false cs

mutual

/-- One value; `fuel` bounds the number of values that are read. -/
def scanValue (fuel : ℕ) (cs : List Char) : Option (Json × List Char) :=
  match fuel with
  | 0 => none
  | n+1 =>
    match cs with
    | '"' :: cs => do
      let (us, rest) ← scanString cs
      return (.str (stringOfUnits us), rest)
    | '{' :: cs =>
      match skipSpace cs with
      | '}' :: rest => some (.obj [], rest)
      | cs => do
        let (fields, rest) ← scanFields n [] cs
        return (.obj fields, rest)
    | '[' :: cs =>
      match skipSpace cs with
      | ']' :: rest => some (.arr [], rest)
      | cs => do
        let (items, rest) ← scanItems n cs
        return (.arr items, rest)
    | cs => scanScalar cs

def scanFields (fuel : ℕ) (fields : List (String × Json)) (cs : List Char) :
    Option (List (String × Json) × List Char) :=
  match fuel with
  | 0 => none
  | n+1 =>
    match cs with
    | '"' :: cs => do
      let (us, cs) ← scanString cs
      match skipSpace cs with
      | ':' :: cs => do
        let (value, cs) ← scanValue n (skipSpace cs)
        let fields := setField fields (stringOfUnits us) value
        match skipSpace cs with
        | '}' :: rest => some (fields, rest)
        | ',' :: cs => scanFields n fields (skipSpace cs)
        | _ => none
      | _ => none
    | _ => none

def scanItems (fuel : ℕ) (cs : List Char) : Option (List Json × List Char) :=
  match fuel with
  | 0 => none
  | n+1 => do
    let (item, cs) ← scanValue n cs
    match skipSpace cs with
    | ']' :: rest => some ([item], rest)
    | ',' :: cs => do
      let (items, rest) ← scanItems n (skipSpace cs)
      return (item :: items, rest)
    | _ => none

end

/-- `json.loads(text)`; `none` is its `JSONDecodeError`. -/
def loads (text : List Char) : Option Json :=
  match scanValue (text.length + 1) (skipSpace text) with
  | some (value, rest) => if skipSpace rest = [] then some value else none
  | none => none

/-! ## Strings that have been written -/

theorem hexDigit_hexDigitChar {n : ℕ} (h : n < 16) : hexDigit (hexDigitChar n) = some n := by
  have hall : ∀ m < 16, hexDigit (hexDigitChar m) = some m := by decide
  exact hall n h

theorem unitOfHex_escape {n : ℕ} (h : n < 65536) :
    unitOfHex (hexDigitChar (n / 4096 % 16)) (hexDigitChar (n / 256 % 16))
      (hexDigitChar (n / 16 % 16)) (hexDigitChar (n % 16)) = some n := by
  have hmod (m : ℕ) : m % 16 < 16 := Nat.mod_lt m (by decide)
  simp only [unitOfHex, hexDigit_hexDigitChar (hmod _), bind, Option.bind, pure]
  congr 1
  omega

theorem scanString_escapeUnit {n : ℕ} (h : n < 65536) (rest : List Char) :
    scanString (escapeUnit n ++ rest) = (scanString rest).map fun p => (n :: p.1, p.2) := by
  simp only [escapeUnit, List.cons_append, List.nil_append, scanString, unitOfHex_escape h]
  cases scanString rest <;> rfl

theorem scanString_escape {c : Char} {u : ℕ} (hc : c ≠ 'u') (h : unitOfEscape c = some u)
    (rest : List Char) :
    scanString ('\\' :: c :: rest) = (scanString rest).map fun p => (u :: p.1, p.2) := by
  rw [scanString]
  · simp only [h]
    cases scanString rest <;> rfl
  · rintro a b c' d rest' rfl
    exact absurd rfl hc

theorem scanString_plain {c : Char} (hquote : c ≠ '"') (hslash : c ≠ '\\') (h : 32 ≤ c.toNat)
    (rest : List Char) :
    scanString (c :: rest) = (scanString rest).map fun p => (c.toNat :: p.1, p.2) := by
  rw [scanString]
  · rw [if_neg (by omega)]
    cases scanString rest <;> rfl
  · exact hquote
  · rintro _ _ _ _ _ rfl
    exact absurd rfl hslash
  · rintro _ _ rfl
    exact absurd rfl hslash

/-- The UTF-16 units of a character. -/
def unitsOfChar (c : Char) : List ℕ :=
  if c.toNat < 65536 then [c.toNat]
  else [55296 + (c.toNat - 65536) / 1024, 56320 + (c.toNat - 65536) % 1024]

theorem toNat_lt (c : Char) : c.toNat < 1114112 := by
  rcases c.valid with h | ⟨-, h⟩
  · change c.toNat < 55296 at h
    omega
  · exact h

theorem scanString_escapeChar (c : Char) (rest : List Char) :
    scanString (escapeChar c ++ rest) =
      (scanString rest).map fun p => (unitsOfChar c ++ p.1, p.2) := by
  have hlt := toNat_lt c
  unfold escapeChar
  split_ifs with h₁ h₂ h₃ h₄ h₅ h₆ h₇ h₈ h₉
  · subst h₁
    exact scanString_escape (by decide) rfl rest
  · subst h₂
    exact scanString_escape (by decide) rfl rest
  · subst h₃
    exact scanString_escape (by decide) rfl rest
  · subst h₄
    exact scanString_escape (by decide) rfl rest
  · subst h₅
    exact scanString_escape (by decide) rfl rest
  · rw [unitsOfChar, if_pos (by omega), h₆]
    exact scanString_escape (by decide) rfl rest
  · rw [unitsOfChar, if_pos (by omega), h₇]
    exact scanString_escape (by decide) rfl rest
  · rw [unitsOfChar, if_pos (by omega)]
    exact scanString_plain h₁ h₂ h₈.1 rest
  · rw [unitsOfChar, if_pos h₉]
    exact scanString_escapeUnit h₉ rest
  · rw [unitsOfChar, if_neg h₉, List.append_assoc, scanString_escapeUnit (by omega),
      scanString_escapeUnit (by omega), Option.map_map]
    rfl

theorem scanString_dumps (cs rest : List Char) :
    scanString (cs.flatMap escapeChar ++ '"' :: rest) = some (cs.flatMap unitsOfChar, rest) := by
  induction cs with
  | nil => rfl
  | cons c cs ih =>
    rw [List.flatMap_cons, List.flatMap_cons, List.append_assoc, scanString_escapeChar, ih]
    rfl

/-- A character is no surrogate. -/
theorem toNat_surrogate (c : Char) : c.toNat < 55296 ∨ 57343 < c.toNat := by
  rcases c.valid with h | ⟨h, -⟩
  · exact .inl h
  · exact .inr h

theorem isHighSurrogate_toNat (c : Char) : isHighSurrogate c.toNat = false := by
  rcases toNat_surrogate c with h | h
  · simp only [isHighSurrogate, Bool.and_eq_false_iff, decide_eq_false_iff_not]
    omega
  · simp only [isHighSurrogate, Bool.and_eq_false_iff, decide_eq_false_iff_not]
    omega

theorem isLowSurrogate_toNat (c : Char) : isLowSurrogate c.toNat = false := by
  rcases toNat_surrogate c with h | h
  · simp only [isLowSurrogate, Bool.and_eq_false_iff, decide_eq_false_iff_not]
    omega
  · simp only [isLowSurrogate, Bool.and_eq_false_iff, decide_eq_false_iff_not]
    omega

theorem charOfUnit_toNat (c : Char) : charOfUnit c.toNat = c := by
  rw [charOfUnit, isHighSurrogate_toNat, isLowSurrogate_toNat, if_neg (by simp), Char.ofNat_toNat]

theorem joinUnits_cons (c : Char) (us : List ℕ) :
    joinUnits (unitsOfChar c ++ us) = c :: joinUnits us := by
  have hlt := toNat_lt c
  unfold unitsOfChar
  split_ifs with h
  · cases us with
    | nil => simp [joinUnits, charOfUnit_toNat]
    | cons v us =>
      simp only [List.singleton_append, joinUnits, isHighSurrogate_toNat, Bool.false_and,
        Bool.false_eq_true, if_false, charOfUnit_toNat]
  · have hhigh : isHighSurrogate (55296 + (c.toNat - 65536) / 1024) = true := by
      simp only [isHighSurrogate, Bool.and_eq_true, decide_eq_true_eq]
      omega
    have hlow : isLowSurrogate (56320 + (c.toNat - 65536) % 1024) = true := by
      simp only [isLowSurrogate, Bool.and_eq_true, decide_eq_true_eq]
      omega
    have hsum : 0x10000 + (55296 + (c.toNat - 65536) / 1024 - 0xd800) * 1024 +
        (56320 + (c.toNat - 65536) % 1024 - 0xdc00) = c.toNat := by
      omega
    simp only [List.cons_append, List.nil_append, joinUnits, hhigh, hlow, Bool.and_self, if_true]
    rw [hsum, Char.ofNat_toNat]

theorem stringOfUnits_units (s : String) : stringOfUnits (s.toList.flatMap unitsOfChar) = s := by
  have hjoin (cs : List Char) : joinUnits (cs.flatMap unitsOfChar) = cs := by
    induction cs with
    | nil => rfl
    | cons c cs ih => rw [List.flatMap_cons, joinUnits_cons, ih]
  rw [stringOfUnits, hjoin, String.ofList_toList]

/-! ## Numbers that have been written -/

theorem isDigit_of_mem {n : ℕ} {c : Char} (h : c ∈ Nat.toDigits 10 n) : c.isDigit = true :=
  Nat.isDigit_of_mem_toDigits (by decide) (by decide) h

theorem toDigits_head {n : ℕ} (h : 0 < n) : ∃ d ds, Nat.toDigits 10 n = d :: ds ∧ d ≠ '0' := by
  induction n using Nat.strongRecOn with
  | ind n ih =>
    rw [Nat.toDigits_eq_if (by decide)]
    split_ifs with hlt
    · refine ⟨n.digitChar, [], rfl, ?_⟩
      have hall : ∀ m < 10, 0 < m → m.digitChar ≠ '0' := by decide
      exact hall n hlt h
    · obtain ⟨d, ds, hds, hd⟩ := ih (n / 10) (by omega) (by omega)
      exact ⟨d, ds ++ [(n % 10).digitChar], by rw [hds]; rfl, hd⟩

theorem digitsAndRest_toDigits (n : ℕ) {c : Char} (hc : c.isDigit = false) (rest : List Char) :
    digitsAndRest (Nat.toDigits 10 n ++ c :: rest) = (Nat.toDigits 10 n, c :: rest) := by
  rw [digitsAndRest, List.takeWhile_append_of_pos fun d hd => isDigit_of_mem hd,
    List.dropWhile_append_of_pos fun d hd => isDigit_of_mem hd,
      List.takeWhile_cons_of_neg (by simp [hc]),
    List.dropWhile_cons_of_neg (by simp [hc]), List.append_nil]

theorem scanInteger_toDigits (n : ℕ) {c : Char} (hc : c.isDigit = false) (rest : List Char) :
    scanInteger (Nat.toDigits 10 n ++ c :: rest) = some (Nat.toDigits 10 n, c :: rest) := by
  rcases Nat.eq_zero_or_pos n with rfl | hn
  · rfl
  · obtain ⟨d, ds, hds, hd⟩ := toDigits_head hn
    have hspan := digitsAndRest_toDigits n hc rest
    rw [hds] at hspan ⊢
    rw [List.cons_append] at hspan ⊢
    rw [scanInteger, hspan]
    · simp
    · rintro _ heq
      exact hd (List.cons.inj heq).1

theorem decimal_toDigits (n : ℕ) : decimal (Nat.toDigits 10 n) = n := by
  have h := Nat.ofDigitChars_ten_toDigits (n := n)
  rwa [Nat.ofDigitChars_eq_foldl] at h

/-- What may stand behind a value inside an object. -/
def EndsValue (c : Char) : Prop := c = ',' ∨ c = '}'

theorem scanUnsigned_toDigits (n : ℕ) {c : Char} (hc : EndsValue c) (rest : List Char)
    (negative : Bool) : scanUnsigned negative (Nat.toDigits 10 n ++ c :: rest) =
      some (.int (if negative then -n else n), c :: rest) := by
  have hdigit : c.isDigit = false := by
    rcases hc with rfl | rfl <;> rfl
  have hfraction : scanFraction (c :: rest) = ([], c :: rest) := by
    rcases hc with rfl | rfl <;> rfl
  have hexponent : scanExponent (c :: rest) = ([], c :: rest) := by
    rcases hc with rfl | rfl <;> rfl
  simp only [scanUnsigned, scanInteger_toDigits n hdigit rest, bind, Option.bind, pure, hfraction,
    hexponent, and_self, if_true, decimal_toDigits]

theorem scanScalar_digit {d : Char} (hd : d.isDigit = true) (cs : List Char) :
    scanScalar (d :: cs) = scanUnsigned false (d :: cs) := by
  rw [scanScalar]
  all_goals
    rintro _ heq
    rw [(List.cons.inj heq).1] at hd
    exact absurd hd (by decide)

theorem toString_ofNat (n : ℕ) : (toString (Int.ofNat n)).toList = Nat.toDigits 10 n :=
  Nat.toList_repr

theorem toString_negSucc (n : ℕ) :
    (toString (Int.negSucc n)).toList = '-' :: Nat.toDigits 10 (n+1) := by
  change ("-" ++ Nat.repr (n+1)).toList = _
  rw [String.toList_append, Nat.toList_repr]
  rfl

theorem toDigits_cons (n : ℕ) : ∃ d ds, Nat.toDigits 10 n = d :: ds ∧ d.isDigit = true := by
  obtain ⟨d, ds, hds⟩ := List.exists_cons_of_ne_nil (Nat.toDigits_ne_nil (n := n) (b := 10))
  exact ⟨d, ds, hds, isDigit_of_mem (n := n) (by simp [hds])⟩

/-- The text of an integer starts with a digit or its sign. -/
theorem toString_int_head (n : ℤ) :
    ∃ d ds, (toString n).toList = d :: ds ∧ (d.isDigit = true ∨ d = '-') := by
  cases n with
  | ofNat n =>
    obtain ⟨d, ds, hds, hd⟩ := toDigits_cons n
    exact ⟨d, ds, by rw [toString_ofNat, hds], .inl hd⟩
  | negSucc n => exact ⟨'-', _, toString_negSucc n, .inr rfl⟩

theorem scanScalar_int (n : ℤ) {c : Char} (hc : EndsValue c) (rest : List Char) :
    scanScalar ((toString n).toList ++ c :: rest) = some (.int n, c :: rest) := by
  cases n with
  | ofNat n =>
    have hscan := scanUnsigned_toDigits n hc rest false
    obtain ⟨d, ds, hds, hd⟩ := toDigits_cons n
    rw [toString_ofNat]
    rw [hds, List.cons_append] at hscan ⊢
    rw [scanScalar_digit hd, hscan]
    rfl
  | negSucc n =>
    have hscan := scanUnsigned_toDigits (n+1) hc rest true
    obtain ⟨d, ds, hds, hd⟩ := toDigits_cons (n+1)
    rw [toString_negSucc, List.cons_append]
    rw [hds, List.cons_append] at hscan ⊢
    rw [scanScalar, hscan]
    · rfl
    · rintro _ heq
      rw [(List.cons.inj heq).1] at hd
      exact absurd hd (by decide)

/-! ## Objects that have been written -/

/-- The values that a flat document holds. -/
def IsScalar : Json → Prop
  | .null | .bool _ | .int _ | .str _ => True
  | .float _ | .arr _ | .obj _ => False

theorem skipSpace_cons {c : Char} (hc : isJsonSpace c = false) (cs : List Char) :
    skipSpace (c :: cs) = c :: cs :=
  List.dropWhile_cons_of_neg (by simp [hc])

theorem dumpsScalar_head {value : Json} (h : IsScalar value) :
    ∃ c cs, dumpsScalar value = c :: cs ∧ isJsonSpace c = false := by
  cases value with
  | null => exact ⟨'n', ['u', 'l', 'l'], rfl, rfl⟩
  | bool b =>
    cases b with
    | true => exact ⟨'t', ['r', 'u', 'e'], rfl, rfl⟩
    | false => exact ⟨'f', ['a', 'l', 's', 'e'], rfl, rfl⟩
  | int n =>
    obtain ⟨d, ds, hds, hd⟩ := toString_int_head n
    refine ⟨d, ds, hds, ?_⟩
    by_contra hspace
    simp only [Bool.not_eq_false, isJsonSpace, Bool.or_eq_true, decide_eq_true_eq] at hspace
    rcases hspace with ((rfl | rfl) | rfl) | rfl <;> exact absurd hd (by decide)
  | str s => exact ⟨'"', _, rfl, rfl⟩
  | float digits => exact h.elim
  | arr items => exact h.elim
  | obj fields => exact h.elim

theorem scanValue_scalar {d : Char} (hquote : d ≠ '"') (hobject : d ≠ '{') (harray : d ≠ '[')
    (n : ℕ) (cs : List Char) : scanValue (n+1) (d :: cs) = scanScalar (d :: cs) := by
  rw [scanValue]
  · rintro _ heq
    exact hquote (List.cons.inj heq).1
  · rintro _ heq
    exact hobject (List.cons.inj heq).1
  · rintro _ heq
    exact harray (List.cons.inj heq).1

theorem scanValue_dumps {value : Json} (h : IsScalar value) (n : ℕ) {c : Char}
    (hc : EndsValue c) (rest : List Char) :
    scanValue (n+1) (dumpsScalar value ++ c :: rest) = some (value, c :: rest) := by
  cases value with
  | null => rfl
  | bool b => cases b <;> rfl
  | int k =>
    have hscan := scanScalar_int k hc rest
    obtain ⟨d, ds, hds, hd⟩ := toString_int_head k
    change scanValue (n+1) ((toString k).toList ++ c :: rest) = _
    rw [hds, List.cons_append] at hscan ⊢
    rw [scanValue_scalar, hscan]
    all_goals
      rintro rfl
      exact absurd hd (by decide)
  | str s =>
    change scanValue (n+1) ('"' :: (s.toList.flatMap escapeChar ++ ['"']) ++ c :: rest) = _
    rw [List.cons_append, List.append_assoc, List.singleton_append, scanValue, scanString_dumps]
    simp [stringOfUnits_units]
  | float digits => exact h.elim
  | arr items => exact h.elim
  | obj fields => exact h.elim

def fieldText (field : String × Json) : List Char :=
  dumpsString field.1 ++ ':' :: dumpsScalar field.2

theorem setField_fresh {fields : List (String × Json)} {key : String} {value : Json}
    (h : key ∉ fields.map Prod.fst) : setField fields key value = fields ++ [(key, value)] := by
  have hany : (fields.any fun field => field.1 = key) = false := by
    refine List.any_eq_false.mpr fun field hfield hkey => h ?_
    exact List.mem_map.mpr ⟨field, hfield, by simpa using hkey⟩
  rw [setField, hany, if_neg (by simp)]

/-- One field and the character behind it. -/
theorem scanFields_field {field : String × Json} {seen : List (String × Json)}
    (hscalar : IsScalar field.2) (hfresh : field.1 ∉ seen.map Prod.fst) (n : ℕ) {c : Char}
    (hc : EndsValue c) (rest : List Char) :
    scanFields (n+2) seen (fieldText field ++ c :: rest) =
      if c = '}' then some (seen ++ [field], rest)
      else scanFields (n+1) (seen ++ [field]) (skipSpace rest) := by
  obtain ⟨key, value⟩ := field
  obtain ⟨d, ds, hds, hspace⟩ := dumpsScalar_head hscalar
  have hscan := scanValue_dumps hscalar n hc rest
  have htext : fieldText (key, value) ++ c :: rest =
      '"' :: (key.toList.flatMap escapeChar ++ '"' :: ':' :: (dumpsScalar value ++ c :: rest)) := by
    simp [fieldText, dumpsString]
  rw [htext, scanFields, scanString_dumps]
  dsimp only at hds hscan
  rw [hds, List.cons_append] at hscan ⊢
  simp only [Option.bind_eq_bind, Option.bind_some, skipSpace_cons (c := ':') rfl,
    skipSpace_cons hspace, hscan, stringOfUnits_units, setField_fresh hfresh]
  rcases hc with rfl | rfl <;> rfl

theorem fieldText_head (field : String × Json) (cs : List Char) :
    skipSpace (fieldText field ++ cs) = fieldText field ++ cs :=
  skipSpace_cons (c := '"') rfl _

/-- The fields come back in their order, behind those already read. -/
theorem scanFields_dumps {field : String × Json} {fields : List (String × Json)}
    (hscalar : ∀ f ∈ field :: fields, IsScalar f.2) (seen : List (String × Json))
    (hkeys : ((seen ++ field :: fields).map Prod.fst).Nodup) {n : ℕ}
    (hn : fields.length + 2 ≤ n) (rest : List Char) :
    scanFields n seen ([','].intercalate ((field :: fields).map fieldText) ++ '}' :: rest) =
      some (seen ++ field :: fields, rest) := by
  have hfresh : field.1 ∉ seen.map Prod.fst := by
    rw [List.map_append, List.nodup_append] at hkeys
    intro hmem
    exact hkeys.2.2 _ hmem _ (by simp) rfl
  induction fields generalizing field seen n with
  | nil =>
    obtain ⟨m, rfl⟩ : ∃ m, n = m + 2 := ⟨n - 2, by omega⟩
    rw [List.map_singleton, List.intercalate_singleton,
      scanFields_field (hscalar _ List.mem_cons_self) hfresh m (.inr rfl), if_pos rfl]
  | cons next fields ih =>
    obtain ⟨m, rfl⟩ : ∃ m, n = m + 2 := ⟨n - 2, by omega⟩
    have hnext : ((seen ++ [field]) ++ next :: fields) = seen ++ field :: next :: fields := by simp
    rw [List.map_cons, List.map_cons, List.intercalate_cons_cons, List.append_assoc,
      List.append_assoc, List.singleton_append,
      scanFields_field (hscalar _ List.mem_cons_self) hfresh m (.inl rfl), if_neg (by decide),
      ← List.map_cons, ← hnext]
    have hspace : skipSpace ([','].intercalate ((next :: fields).map fieldText) ++ '}' :: rest) =
        [','].intercalate ((next :: fields).map fieldText) ++ '}' :: rest := by
      cases fields with
      | nil =>
        rw [List.map_singleton, List.intercalate_singleton]
        exact fieldText_head next _
      | cons other fields =>
        rw [List.map_cons, List.map_cons, List.intercalate_cons_cons, List.append_assoc,
          List.append_assoc]
        exact fieldText_head next _
    rw [hspace]
    refine ih (fun f hf => hscalar f (List.mem_cons_of_mem _ hf)) _ (by rwa [hnext])
      (by simp only [List.length_cons] at hn; omega) ?_
    rw [← hnext, List.map_append, List.nodup_append] at hkeys
    intro hmem
    exact hkeys.2.2 _ hmem _ (by simp) rfl

theorem length_fields_le (field : String × Json) (fields : List (String × Json)) :
    fields.length + 1 ≤ ([','].intercalate ((field :: fields).map fieldText)).length := by
  induction fields generalizing field with
  | nil => simp [fieldText, dumpsString]
  | cons next fields ih =>
    have hrest := ih next
    rw [List.map_cons, List.map_cons, List.intercalate_cons_cons, ← List.map_cons,
      List.length_append, List.length_append]
    simp only [List.length_cons, List.length_nil] at *
    omega

/-- What has been written as a flat document is read back as that document. -/
theorem loads_dumpsFields {fields : List (String × Json)} (hscalar : ∀ f ∈ fields, IsScalar f.2)
    (hkeys : (fields.map Prod.fst).Nodup) : loads (dumpsFields fields) = some (.obj fields) := by
  cases fields with
  | nil => rfl
  | cons field fields =>
    have htext : dumpsFields (field :: fields) =
        '{' :: ([','].intercalate ((field :: fields).map fieldText) ++ ['}']) := rfl
    have hlength := length_fields_le field fields
    have hscan := scanFields_dumps hscalar [] hkeys
      (n := (dumpsFields (field :: fields)).length) (by
        rw [htext]
        simp only [List.length_cons, List.length_append, List.length_nil]
        omega) []
    obtain ⟨cs, hcs⟩ : ∃ cs, [','].intercalate ((field :: fields).map fieldText) ++ ['}'] =
        '"' :: cs := by
      cases fields with
      | nil => exact ⟨_, by rw [List.map_singleton, List.intercalate_singleton]; rfl⟩
      | cons next fields =>
        exact ⟨_, by rw [List.map_cons, List.map_cons, List.intercalate_cons_cons]; rfl⟩
    rw [hcs] at hscan htext
    have hskip : skipSpace (dumpsFields (field :: fields)) = '{' :: '"' :: cs := by
      rw [htext]
      exact skipSpace_cons rfl _
    have hvalue : scanValue ((dumpsFields (field :: fields)).length + 1) ('{' :: '"' :: cs) =
        some (.obj (field :: fields), []) := by
      rw [scanValue, skipSpace_cons (c := '"') rfl]
      change (do let p ← scanFields _ [] ('"' :: cs); pure (Json.obj p.1, p.2)) = _
      rw [hscan]
      rfl
    rw [loads, hskip, hvalue]
    rfl

end Json
end Python
