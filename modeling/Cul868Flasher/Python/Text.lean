import Mathlib.Data.List.Basic
import Mathlib.Tactic.SplitIfs

/-!
# Text and byte primitives of the Python standard library

Strings are read as character lists. `splitlines` and `fromHex` follow
`str.splitlines` and `bytes.fromhex`, which both accept more than one spelling:
eleven line boundaries for the first, and blanks in front of every byte for the
second. The grammars below describe exactly what each of them reads.
-/

namespace Python

/-- The boundaries of `str.splitlines`, other than the pair CR LF. -/
def isLineBreak (c : Char) : Bool :=
  c = '\n' || c = '\r' || c = '\x0b' || c = '\x0c' || c = '\x1c' || c = '\x1d' ||
    c = '\x1e' || c = '\u0085' || c = '\u2028' || c = '\u2029'

/-- C `isspace` in the form `bytes.fromhex` uses it. -/
def isBlank (c : Char) : Bool :=
  c = ' ' || c = '\t' || c = '\n' || c = '\x0b' || c = '\x0c' || c = '\r'

def splitLinesFrom (line : List Char) : List Char → List (List Char)
  | [] => if line = [] then [] else [line.reverse]
  | '\r' :: '\n' :: cs => line.reverse :: splitLinesFrom [] cs
  | c :: cs =>
    if isLineBreak c then line.reverse :: splitLinesFrom [] cs
    else splitLinesFrom (c :: line) cs

def splitlines (cs : List Char) : List (List Char) := splitLinesFrom [] cs

def hexDigit (c : Char) : Option ℕ :=
  if '0' ≤ c ∧ c ≤ '9' then some (c.toNat - '0'.toNat)
  else if 'a' ≤ c ∧ c ≤ 'f' then some (c.toNat - 'a'.toNat + 10)
  else if 'A' ≤ c ∧ c ≤ 'F' then some (c.toNat - 'A'.toNat + 10)
  else none

/-- `bytes.fromhex`; `none` is its `ValueError`. -/
def fromHex : List Char → Option (List UInt8)
  | [] => some []
  | [c] => if isBlank c then some [] else none
  | c :: d :: cs =>
    if isBlank c then fromHex (d :: cs)
    else do
      let h ← hexDigit c
      let l ← hexDigit d
      let bs ← fromHex cs
      return UInt8.ofNat (16*h+l) :: bs

/-- `bytes.decode("ascii")`; `none` is its `UnicodeDecodeError`. -/
def decodeAscii (bs : List UInt8) : Option (List Char) :=
  if bs.all (fun b => b < 128) then some (bs.map (fun b => Char.ofNat b.toNat)) else none

/-- `str.isspace`. -/
def isSpace (c : Char) : Bool :=
  (9 ≤ c.toNat && c.toNat ≤ 13) || (28 ≤ c.toNat && c.toNat ≤ 32) || c = '\u0085' || c = '\u00a0' ||
    c = '\u1680' || (0x2000 ≤ c.toNat && c.toNat ≤ 0x200a) || c = '\u2028' || c = '\u2029' ||
    c = '\u202f' || c = '\u205f' || c = '\u3000'

/-- `str.strip()`. -/
def strip (cs : List Char) : List Char :=
  ((cs.dropWhile isSpace).reverse.dropWhile isSpace).reverse

/-- `int()` of a text of decimal digits. -/
def decimal (digits : List Char) : ℕ := digits.foldl (fun n c => 10 * n + (c.toNat - '0'.toNat)) 0

/-- `str.isascii` and no control character. -/
def isPrintable (c : Char) : Bool := 32 ≤ c.toNat && c.toNat ≤ 126

/-- Text cut into lines at separators of a chosen kind. The last line may be
left open; an empty text has no line. -/
inductive Lines (sep : List Char → Prop) : List Char → List (List Char) → Prop where
  | nil : Lines sep [] []
  | last {l : List Char} : l ≠ [] → Lines sep l [l]
  | cons (l s : List Char) {rest : List Char} {ls : List (List Char)} :
      sep s → Lines sep rest ls → Lines sep (l ++ s ++ rest) (l :: ls)

/-- Pairs of hexadecimal digits, one pair a byte. -/
inductive HexPairs : List Char → List UInt8 → Prop where
  | nil : HexPairs [] []
  | byte {c d : Char} {h l : ℕ} {cs : List Char} {bs : List UInt8} :
      hexDigit c = some h → hexDigit d = some l → HexPairs cs bs →
      HexPairs (c :: d :: cs) (UInt8.ofNat (16*h+l) :: bs)

/-- Pairs of hexadecimal digits with blanks anywhere except inside a pair. -/
inductive BlankedHexPairs : List Char → List UInt8 → Prop where
  | nil : BlankedHexPairs [] []
  | blank {c : Char} {cs : List Char} {bs : List UInt8} :
      isBlank c = true → BlankedHexPairs cs bs → BlankedHexPairs (c :: cs) bs
  | byte {c d : Char} {h l : ℕ} {cs : List Char} {bs : List UInt8} :
      hexDigit c = some h → hexDigit d = some l → BlankedHexPairs cs bs →
      BlankedHexPairs (c :: d :: cs) (UInt8.ofNat (16*h+l) :: bs)

theorem hexDigit_not_blank {c : Char} {h : ℕ} (hc : hexDigit c = some h) :
    isBlank c = false := by
  by_contra hb
  simp only [isBlank, Bool.or_eq_true, decide_eq_true_eq, Bool.not_eq_false] at hb
  rcases hb with ((((rfl | rfl) | rfl) | rfl) | rfl) | rfl <;> simp [hexDigit] at hc

theorem hexDigit_not_break {c : Char} {h : ℕ} (hc : hexDigit c = some h) :
    isLineBreak c = false := by
  by_contra hb
  simp only [isLineBreak, Bool.or_eq_true, decide_eq_true_eq, Bool.not_eq_false] at hb
  rcases hb with ((((((((rfl | rfl) | rfl) | rfl) | rfl) | rfl) | rfl) | rfl) | rfl) | rfl <;>
    simp [hexDigit] at hc

theorem fromHex_blank {c : Char} (cs : List Char) (hc : isBlank c = true) :
    fromHex (c :: cs) = fromHex cs := by
  cases cs with
  | nil => simp [fromHex, hc]
  | cons d cs => simp [fromHex, hc]

theorem fromHex_sound {cs : List Char} {bs : List UInt8} (h : fromHex cs = some bs) :
    BlankedHexPairs cs bs := by
  induction cs using fromHex.induct generalizing bs with
  | case1 =>
    cases h
    exact .nil
  | case2 c hc =>
    simp only [fromHex, hc, if_true, Option.some.injEq] at h
    subst h
    exact .blank hc .nil
  | case3 c hc => simp [fromHex, hc] at h
  | case4 c d cs hc ih =>
    rw [fromHex_blank _ hc] at h
    exact .blank hc (ih h)
  | case5 c d cs hc ih =>
    simp only [fromHex, hc, if_false, Option.bind_eq_bind, Option.bind_eq_some_iff,
      Bool.false_eq_true] at h
    obtain ⟨_, hx, _, hy, _, hcs, hb⟩ := h
    cases hb
    exact .byte hx hy (ih hcs)

theorem fromHex_complete {cs : List Char} {bs : List UInt8} (h : BlankedHexPairs cs bs) :
    fromHex cs = some bs := by
  induction h with
  | nil => rfl
  | blank hb _ ih => rw [fromHex_blank _ hb, ih]
  | byte hc hd _ ih => simp [fromHex, hexDigit_not_blank hc, hc, hd, ih]

/-- `bytes.fromhex` reads digit pairs with blanks between them, and nothing else. -/
theorem fromHex_iff {cs : List Char} {bs : List UInt8} :
    fromHex cs = some bs ↔ BlankedHexPairs cs bs :=
  ⟨fromHex_sound, fromHex_complete⟩

theorem HexPairs.blanked {cs : List Char} {bs : List UInt8} (h : HexPairs cs bs) :
    BlankedHexPairs cs bs := by
  induction h with
  | nil => exact .nil
  | byte hc hd _ ih => exact .byte hc hd ih

theorem HexPairs.length {cs : List Char} {bs : List UInt8} (h : HexPairs cs bs) :
    cs.length = 2 * bs.length := by
  induction h with
  | nil => rfl
  | byte _ _ _ ih =>
    simp only [List.length_cons]
    omega

theorem HexPairs.digit {cs : List Char} {bs : List UInt8} (h : HexPairs cs bs) :
    ∀ c ∈ cs, ∃ n, hexDigit c = some n := by
  induction h with
  | nil => simp
  | byte hc hd _ ih => simpa using ⟨⟨_, hc⟩, ⟨_, hd⟩, ih⟩

/-- Blanked digit pairs in which no blank occurs are plain digit pairs. -/
theorem BlankedHexPairs.plain {cs : List Char} {bs : List UInt8} (h : BlankedHexPairs cs bs)
    (hb : ∀ c ∈ cs, isBlank c = false) : HexPairs cs bs := by
  induction h with
  | nil => exact .nil
  | @blank c _ _ hc _ _ =>
    have := hb c (by simp)
    simp [hc] at this
  | byte hc hd _ ih => exact .byte hc hd (ih fun x hx => hb x (by simp [hx]))

/-- The separators of `str.splitlines`. -/
def IsBreak (s : List Char) : Prop := s = ['\r', '\n'] ∨ ∃ c, isLineBreak c = true ∧ s = [c]

theorem splitLinesFrom_break (line : List Char) {c : Char} {cs : List Char}
    (hc : isLineBreak c = true) (hcs : c = '\r' → cs.head? ≠ some '\n') :
    splitLinesFrom line (c :: cs) = line.reverse :: splitlines cs := by
  rw [splitLinesFrom.eq_3, if_pos hc, splitlines]
  rintro rest rfl rfl
  exact hcs rfl rfl

theorem splitLinesFrom_other (line : List Char) {c : Char} (cs : List Char)
    (hc : isLineBreak c = false) :
    splitLinesFrom line (c :: cs) = splitLinesFrom (c :: line) cs := by
  have hr : c ≠ '\r' := by
    rintro rfl
    simp [isLineBreak] at hc
  cases cs with
  | nil => simp [splitLinesFrom, hc]
  | cons d cs => simp [splitLinesFrom, hc, hr]

theorem splitLinesFrom_append (line l cs : List Char) (hl : ∀ c ∈ l, isLineBreak c = false) :
    splitLinesFrom line (l ++ cs) = splitLinesFrom (l.reverse ++ line) cs := by
  induction l generalizing line with
  | nil => rfl
  | cons c l ih =>
    rw [List.cons_append, splitLinesFrom_other _ _ (hl c (by simp)),
      ih _ fun x hx => hl x (by simp [hx])]
    simp

theorem splitLinesFrom_lines (line cs : List Char) (hl : ∀ c ∈ line, isLineBreak c = false) :
    Lines IsBreak (line.reverse ++ cs) (splitLinesFrom line cs) ∧
      ∀ l ∈ splitLinesFrom line cs, ∀ c ∈ l, isLineBreak c = false := by
  induction line, cs using splitLinesFrom.induct with
  | case1 => simpa [splitLinesFrom] using Lines.nil
  | case2 line hne =>
    simp only [splitLinesFrom, hne, if_false, List.append_nil]
    exact ⟨.last (by simpa using hne), by simpa using hl⟩
  | case3 line cs ih =>
    obtain ⟨hr, hb⟩ := ih (by simp)
    simp only [splitLinesFrom]
    refine ⟨by simpa using Lines.cons line.reverse ['\r', '\n'] (.inl rfl) hr, ?_⟩
    simpa using ⟨by simpa using hl, hb⟩
  | case4 line c cs hcr hc ih =>
    obtain ⟨hr, hb⟩ := ih (by simp)
    have hs : splitLinesFrom line (c :: cs) = line.reverse :: splitLinesFrom [] cs :=
      splitLinesFrom_break line hc fun h hd => by
        cases cs with
        | nil => simp at hd
        | cons d cs => exact hcr cs h (by simpa using hd)
    rw [hs]
    refine ⟨by simpa using Lines.cons line.reverse [c] (.inr ⟨c, hc, rfl⟩) hr, ?_⟩
    simpa using ⟨by simpa using hl, hb⟩
  | case5 line c cs hcr hc ih =>
    rw [splitLinesFrom_other line cs (by simpa using hc)]
    simpa using ih (by simpa using ⟨by simpa using hc, hl⟩)

/-- The lines of `str.splitlines` are a cut of the text at its boundaries, and
no boundary is left inside a line. -/
theorem splitlines_lines (cs : List Char) : Lines IsBreak cs (splitlines cs) ∧
    ∀ l ∈ splitlines cs, ∀ c ∈ l, isLineBreak c = false := by
  simpa [splitlines] using splitLinesFrom_lines [] cs (by simp)

theorem Lines.head?_of_cons {sep : List Char → Prop} {cs l : List Char} {ls : List (List Char)}
    (h : Lines sep cs (l :: ls)) (hl : l ≠ []) : cs.head? = l.head? := by
  cases h with
  | last => rfl
  | cons l s hs hr => simp [List.head?_append, List.head?_eq_some_head hl]

/-- A cut into non-empty lines without boundaries inside is the one
`str.splitlines` makes. -/
theorem splitlines_unique {cs : List Char} {ls : List (List Char)} (h : Lines IsBreak cs ls)
    (hls : ∀ l ∈ ls, l ≠ [] ∧ ∀ c ∈ l, isLineBreak c = false) : splitlines cs = ls := by
  induction h with
  | nil => rfl
  | @last l hne =>
    have := splitLinesFrom_append [] l [] (hls l (by simp)).2
    simp only [List.append_nil] at this
    simp [splitlines, this, splitLinesFrom, hne]
  | @cons l s rest ls hs hrest ih =>
    have hl := hls l (by simp)
    have hn : rest.head? ≠ some '\n' := by
      intro hc
      cases hrest' : ls with
      | nil =>
        subst hrest'
        cases hrest
        simp at hc
      | cons l' ls' =>
        subst hrest'
        have hl' := hls l' (by simp)
        rw [hrest.head?_of_cons hl'.1] at hc
        have := hl'.2 '\n' (List.mem_of_head? hc)
        simp [isLineBreak] at this
    rw [splitlines, List.append_assoc, splitLinesFrom_append [] l _ hl.2, List.append_nil]
    rw [← ih fun l' hl' => hls l' (by simp [hl'])]
    rcases hs with rfl | ⟨c, hc, rfl⟩
    · simp [splitLinesFrom, splitlines]
    · rw [List.singleton_append, splitLinesFrom_break _ hc fun _ => hn, List.reverse_reverse]

theorem Lines.chars {sep : List Char → Prop} {cs : List Char} {ls : List (List Char)}
    (h : Lines sep cs ls) : ∀ l ∈ ls, ∀ c ∈ l, c ∈ cs := by
  induction h with
  | nil => simp
  | last => simp
  | cons l s _ _ ih =>
    intro l' hl' c hc
    rcases List.mem_cons.mp hl' with rfl | hl'
    · simp [hc]
    · simp [ih l' hl' c hc]

theorem Lines.mem_or_sep {sep : List Char → Prop} {cs : List Char} {ls : List (List Char)}
    (h : Lines sep cs ls) : ∀ c ∈ cs, (∃ l ∈ ls, c ∈ l) ∨ ∃ s, sep s ∧ c ∈ s := by
  induction h with
  | nil => simp
  | @last l _ => exact fun c hc => .inl ⟨l, by simp, hc⟩
  | cons l s hs _ ih =>
    intro c hc
    rcases List.mem_append.mp hc with hc | hc
    · rcases List.mem_append.mp hc with hc | hc
      · exact .inl ⟨l, by simp, hc⟩
      · exact .inr ⟨s, hs, hc⟩
    · rcases ih c hc with ⟨l', hl', hc⟩ | hsep
      · exact .inl ⟨l', by simp [hl'], hc⟩
      · exact .inr hsep

theorem decodeAscii_iff {bs : List UInt8} {text : List Char} :
    decodeAscii bs = some text ↔
      (∀ b ∈ bs, b.toNat < 128) ∧ text = bs.map (fun b => Char.ofNat b.toNat) := by
  simp [decodeAscii, UInt8.lt_iff_toNat_lt, eq_comm (a := text)]

theorem toNat_ofByte {n : ℕ} (h : n < 128) : (Char.ofNat n).toNat = n := by
  have hall : ∀ i : Fin 128, (Char.ofNat i.val).toNat = i.val := by decide
  exact hall ⟨n, h⟩

theorem decodeAscii_ascii {bs : List UInt8} {text : List Char}
    (h : decodeAscii bs = some text) : ∀ c ∈ text, c.toNat < 128 := by
  obtain ⟨hb, rfl⟩ := decodeAscii_iff.mp h
  intro c hc
  obtain ⟨b, hm, rfl⟩ := List.mem_map.mp hc
  rw [toNat_ofByte (hb b hm)]
  exact hb b hm

theorem Lines.mono {sep sep' : List Char → Prop} (hs : ∀ s, sep s → sep' s) {cs : List Char}
    {ls : List (List Char)} (h : Lines sep cs ls) : Lines sep' cs ls := by
  induction h with
  | nil => exact .nil
  | last hne => exact .last hne
  | cons l s hsep _ ih => exact .cons l s (hs s hsep) ih

end Python
