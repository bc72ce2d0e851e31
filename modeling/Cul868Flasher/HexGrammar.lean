import Cul868Flasher.Hexfile
import Mathlib.Data.List.Forall2
import Mathlib.Algebra.Order.BigOperators.Group.List
import Mathlib.Algebra.Order.Group.Nat

/-!
# The language of the HEX admission

`StrictHex` is the Intel HEX format: unspaced digit pairs on lines ended by LF,
CR or CRLF, and records that describe one image. `LenientHex` relaxes the two
spellings, not the records, and is exactly what `parseHex` accepts.
-/

namespace Cul868Flasher.HexFile
open Python

def Checked (r : Record) : Prop := r.length = byteCount r + 5 ∧ byteSum r % 256 = 0

def IsData (r : Record) : Prop := recordType r = 0x00 ∧ 0 < byteCount r
def IsEof (r : Record) : Prop := recordType r = 0x01 ∧ byteCount r = 0 ∧ address r = 0
def IsUpper (r : Record) : Prop := recordType r = 0x04 ∧ byteCount r = 2 ∧ address r = 0

/-- The address ranges of the data records, as start and length, in file order
and under the extended linear address `upper` of the moment. -/
def ranges : ℕ → List Record → List (ℕ × ℕ)
  | _, [] => []
  | upper, r :: rs =>
    if recordType r = 0x00 then (upper * 65536 + address r, byteCount r) :: ranges upper rs
    else if recordType r = 0x04 then ranges (payloadAddress r) rs
    else ranges upper rs

def InRange (o : ℕ) (p : ℕ × ℕ) : Prop := p.1 ≤ o ∧ o < p.1 + p.2

instance (o : ℕ) (p : ℕ × ℕ) : Decidable (InRange o p) := inferInstanceAs (Decidable (_ ∧ _))

def Apart (p q : ℕ × ℕ) : Prop := ∀ o, InRange o p → ¬ InRange o q

/-- Records that describe one application image and nothing else. -/
structure ImageRecords (rs : List Record) : Prop where
  checked : ∀ r ∈ rs, Checked r
  shape : ∃ body eof, rs = body ++ [eof] ∧ IsEof eof ∧ ∀ r ∈ body, IsData r ∨ IsUpper r
  below : ∀ p ∈ ranges 0 rs, p.1 + p.2 ≤ applicationFlashBytes
  apart : (ranges 0 rs).Pairwise Apart
  reset : ∃ p ∈ ranges 0 rs, InRange 0 p

def StrictLine (line : List Char) (r : Record) : Prop :=
  ∃ digits, line = ':' :: digits ∧ digits.length = 2 * (byteCount r + 5) ∧ HexPairs digits r

def LenientLine (line : List Char) (r : Record) : Prop :=
  ∃ encoded, line = ':' :: encoded ∧ 10 ≤ encoded.length ∧ encoded.length % 2 = 0 ∧
    BlankedHexPairs encoded r

def StrictBreak (s : List Char) : Prop := s = ['\n'] ∨ s = ['\r'] ∨ s = ['\r', '\n']

def StrictHex (source : List UInt8) : Prop :=
  ∃ text lines records, decodeAscii source = some text ∧ Lines StrictBreak text lines ∧
    List.Forall₂ StrictLine lines records ∧ ImageRecords records

def LenientHex (source : List UInt8) : Prop :=
  ∃ text lines records, decodeAscii source = some text ∧ Lines IsBreak text lines ∧
    (∀ l ∈ lines, ∀ c ∈ l, isLineBreak c = false) ∧
    List.Forall₂ LenientLine lines records ∧ ImageRecords records

/-- The bytes no Intel HEX file has but a lenient one may: blank and tab inside
a line, and the five extra line boundaries. -/
def isFiller (b : UInt8) : Bool :=
  b = 0x20 || b = 0x09 || b = 0x0b || b = 0x0c || b = 0x1c || b = 0x1d || b = 0x1e

def hasFiller (source : List UInt8) : Bool := source.any isFiller

/-! ## One line -/

theorem parseRecord_iff {line : List Char} (n : ℕ) (hascii : ∀ c ∈ line, c.toNat < 128)
    {r : Record} : parseRecord line n = .ok r ↔ LenientLine line r ∧ Checked r := by
  constructor
  · intro h
    unfold parseRecord at h
    split at h
    · rename_i encoded
      split_ifs at h with h₁ h₂
      split at h
      · cases h
      · cases h
      · rename_i b bs hb
        split_ifs at h with h₃ h₄
        cases h
        have hl : 10 ≤ encoded.length ∧ encoded.length % 2 = 0 := by omega
        exact ⟨⟨encoded, rfl, hl.1, hl.2, fromHex_sound hb⟩, not_not.mp h₃, not_not.mp h₄⟩
    · cases h
  · rintro ⟨⟨encoded, rfl, hl, he, hp⟩, hc⟩
    have ha : (':' :: encoded).all (fun c => c.toNat < 128) = true := by
      simpa [List.all_eq_true] using hascii
    have hlen : ¬ (encoded.length < 10 ∨ encoded.length % 2 ≠ 0) := by omega
    obtain ⟨b, bs, rfl⟩ : ∃ b bs, r = b :: bs := by
      cases r with
      | nil => simp [Checked] at hc
      | cons b bs => exact ⟨b, bs, rfl⟩
    simp only [parseRecord, ha, hlen, fromHex_complete hp, Bool.not_true, Bool.false_eq_true,
      if_false]
    rw [if_neg (not_not.mpr hc.1), if_neg (not_not.mpr hc.2)]

/-! ## One record -/

theorem inRange_succ (o start k : ℕ) :
    InRange o (start, k+1) ↔ o = start ∨ InRange o (start+1, k) := by
  simp only [InRange]
  omega

theorem occupy_iff (n start k : ℕ) (occupied occupied' : ℕ → Bool) :
    occupy n start k occupied = .ok occupied' ↔
      (∀ o, InRange o (start, k) → occupied o = false) ∧
      ∀ o, occupied' o = true ↔ InRange o (start, k) ∨ occupied o = true := by
  induction k generalizing start occupied with
  | zero =>
    have hno : ∀ o, ¬ InRange o (start, 0) := fun o h => by
      simp only [InRange] at h
      omega
    simp only [occupy, Except.ok.injEq, hno, false_imp_iff, implies_true, false_or, true_and]
    constructor
    · rintro rfl o
      rfl
    · intro h
      funext o
      exact Bool.eq_iff_iff.mpr (h o).symm
  | succ k ih =>
    simp only [inRange_succ, occupy]
    cases hs : occupied start with
    | true =>
      simp only [if_true, reduceCtorEq, false_iff, not_and]
      intro h
      simpa [hs] using h start (.inl rfl)
    | false =>
      simp only [Bool.false_eq_true, if_false, ih]
      constructor
      · rintro ⟨hfree, hocc⟩
        refine ⟨?_, fun o => ?_⟩
        · rintro o (rfl | ho)
          · exact hs
          · simpa using (by simpa using hfree o ho : ¬ o = start ∧ occupied o = false).2
        · rw [hocc o]
          simp only [Bool.or_eq_true, decide_eq_true_eq]
          tauto
      · rintro ⟨hfree, hocc⟩
        refine ⟨fun o ho => ?_, fun o => ?_⟩
        · have hne : o ≠ start := by
            simp only [InRange] at ho
            omega
          simpa [hne] using hfree o (.inr ho)
        · rw [hocc o]
          simp only [Bool.or_eq_true, decide_eq_true_eq]
          tauto

def lower (lowest : Option ℕ) (p : ℕ × ℕ) : Option ℕ :=
  some (match lowest with
    | none => p.1
    | some lowest => min lowest p.1)

def higher (highest : ℤ) (p : ℕ × ℕ) : ℤ := max highest (p.1 + p.2 - 1 : ℕ)

/-- What the loop body does with a record it lets pass. -/
def Scan.after (s : Scan) (r : Record) : Scan :=
  if recordType r = 0x00 then
    let start := s.upperAddress * 65536 + address r
    { s with
      occupied := fun o => decide (InRange o (start, byteCount r)) || s.occupied o
      dataBytes := s.dataBytes + byteCount r
      lowestAddress := lower s.lowestAddress (start, byteCount r)
      highestAddress := higher s.highestAddress (start, byteCount r)
      recordCount := s.recordCount + 1 }
  else if recordType r = 0x01 then { s with sawEof := true, recordCount := s.recordCount + 1 }
  else { s with upperAddress := payloadAddress r, recordCount := s.recordCount + 1 }

/-- The records the loop body lets pass. -/
def Scan.Admits (s : Scan) (r : Record) : Prop :=
  s.sawEof = false ∧ Checked r ∧ (IsEof r ∨ IsUpper r ∨
    IsData r ∧ s.upperAddress * 65536 + address r + byteCount r ≤ applicationFlashBytes ∧
      ∀ o, InRange o (s.upperAddress * 65536 + address r, byteCount r) → s.occupied o = false)

theorem dataRecord_iff (n : ℕ) (s s' : Scan) (r : Record) (ht : recordType r = 0x00) :
    dataRecord n { s with recordCount := s.recordCount + 1 } r = .ok s' ↔
      (0 < byteCount r ∧
        s.upperAddress * 65536 + address r + byteCount r ≤ applicationFlashBytes ∧
        ∀ o, InRange o (s.upperAddress * 65536 + address r, byteCount r) →
          s.occupied o = false) ∧ s' = s.after r := by
  unfold dataRecord
  by_cases h₀ : byteCount r = 0
  · simp [h₀]
  by_cases h₁ : applicationFlashBytes < s.upperAddress * 65536 + address r + byteCount r
  · simp only [h₀, h₁, if_true, if_false, reduceCtorEq, false_iff, not_and]
    intro h
    omega
  simp only [h₀, h₁, if_false, bind, Except.bind, pure, Except.pure]
  have hpos : 0 < byteCount r := by omega
  have hle : s.upperAddress * 65536 + address r + byteCount r ≤ applicationFlashBytes := by omega
  simp only [hpos, hle, true_and]
  cases ho : occupy n (s.upperAddress * 65536 + address r) (byteCount r) s.occupied with
  | error e =>
    simp only [reduceCtorEq, false_iff, not_and]
    intro hfree
    have := (occupy_iff n (s.upperAddress * 65536 + address r) (byteCount r) s.occupied
      (fun o => decide (InRange o (s.upperAddress * 65536 + address r, byteCount r)) ||
        s.occupied o)).mpr ⟨hfree, fun o => by simp⟩
    simp [ho] at this
  | ok occupied' =>
    obtain ⟨hfree, hocc⟩ := (occupy_iff _ _ _ _ _).mp ho
    have hocc' : occupied' = fun o =>
        decide (InRange o (s.upperAddress * 65536 + address r, byteCount r)) || s.occupied o := by
      funext o
      exact Bool.eq_iff_iff.mpr (by simpa using hocc o)
    simp only [Except.ok.injEq, Scan.after, ht, if_true, hocc', lower, higher, eq_comm (a := s')]
    exact ⟨fun h => ⟨hfree, h⟩, fun h => h.2⟩

/-- One pass of the loop over the lines, for a line of ASCII text. -/
theorem scanLine_iff (n : ℕ) (s s' : Scan) (line : List Char)
    (hascii : ∀ c ∈ line, c.toNat < 128) :
    scanLine n s line = .ok s' ↔
      ∃ r, LenientLine line r ∧ s.Admits r ∧ s' = s.after r := by
  unfold scanLine
  cases he : s.sawEof with
  | true => simp [Scan.Admits, he]
  | false =>
    simp only [Bool.false_eq_true, if_false, bind, Except.bind]
    cases hp : parseRecord line n with
    | error e =>
      simp only [reduceCtorEq, false_iff, not_exists, not_and]
      intro r hl ha
      simp [(parseRecord_iff n hascii).mpr ⟨hl, ha.2.1⟩] at hp
    | ok r =>
      obtain ⟨hl, hc⟩ := (parseRecord_iff n hascii).mp hp
      have huniq : ∀ r', LenientLine line r' ∧ s.Admits r' ∧ s' = s.after r' ↔
          r' = r ∧ s.Admits r ∧ s' = s.after r := by
        intro r'
        constructor
        · rintro ⟨hl', ha', hs'⟩
          have h := (parseRecord_iff n hascii).mpr ⟨hl', ha'.2.1⟩
          rw [hp] at h
          cases h
          exact ⟨rfl, ha', hs'⟩
        · rintro ⟨rfl, ha', hs'⟩
          exact ⟨hl, ha', hs'⟩
      rw [exists_congr huniq, exists_eq_left]
      simp only [Scan.Admits, he, hc, true_and, IsData, IsEof, IsUpper]
      by_cases h₀ : recordType r = 0x00
      · have hd := dataRecord_iff n s s' r h₀
        rw [he] at hd
        rw [if_pos h₀, hd]
        simp [h₀]
      by_cases h₁ : recordType r = 0x01
      · rw [if_neg h₀, if_pos h₁]
        by_cases h : byteCount r = 0 ∧ address r = 0
        · simp [h, h₁, Scan.after, eq_comm (a := s')]
        · rw [if_pos (by omega)]
          simp [h, h₁]
      by_cases h₄ : recordType r = 0x04
      · rw [if_neg h₀, if_neg h₁, if_pos h₄]
        by_cases h : byteCount r = 2 ∧ address r = 0
        · simp [h, h₄, Scan.after, he, eq_comm (a := s')]
        · rw [if_pos (by omega)]
          simp [h, h₄]
      · simp [h₀, h₁, h₄]

/-! ## The whole file -/

def Scan.AdmitsAll : Scan → List Record → Prop
  | _, [] => True
  | s, r :: rs => s.Admits r ∧ (s.after r).AdmitsAll rs

theorem scanLines_iff (n : ℕ) (s s' : Scan) (lines : List (List Char))
    (hascii : ∀ l ∈ lines, ∀ c ∈ l, c.toNat < 128) :
    scanLines n s lines = .ok s' ↔
      ∃ rs, List.Forall₂ LenientLine lines rs ∧ s.AdmitsAll rs ∧ s' = rs.foldl Scan.after s := by
  induction lines generalizing n s with
  | nil => simp [scanLines, Scan.AdmitsAll, List.forall₂_nil_left_iff, eq_comm (a := s')]
  | cons line lines ih =>
    have hline := fun t => scanLine_iff n s t line (hascii line (by simp))
    have hrest := fun t => ih (n+1) t fun l hl => hascii l (by simp [hl])
    constructor
    · intro h
      simp only [scanLines, bind, Except.bind] at h
      cases hs : scanLine n s line with
      | error e => simp [hs] at h
      | ok t =>
        simp only [hs] at h
        obtain ⟨r, hl, ha, rfl⟩ := (hline t).mp hs
        obtain ⟨rs, hls, has, rfl⟩ := (hrest _).mp h
        exact ⟨r :: rs, .cons hl hls, ⟨ha, has⟩, rfl⟩
    · rintro ⟨rs, hls, has, rfl⟩
      cases hls with
      | @cons _ r _ rs hl hls =>
        have hs := (hline (s.after r)).mpr ⟨r, hl, has.1, rfl⟩
        simp only [scanLines, bind, Except.bind, hs]
        exact (hrest _).mpr ⟨rs, hls, has.2, rfl⟩

theorem admitsAll_of_sawEof {s : Scan} (hs : s.sawEof = true) (rs : List Record) :
    s.AdmitsAll rs ↔ rs = [] := by
  cases rs with
  | nil => simp [Scan.AdmitsAll]
  | cons r rs => simp [Scan.AdmitsAll, Scan.Admits, hs]

theorem IsData.after {s : Scan} {r : Record} (h : IsData r) :
    (s.after r).upperAddress = s.upperAddress ∧ (s.after r).sawEof = s.sawEof ∧
    ∀ o, (s.after r).occupied o = true ↔
      InRange o (s.upperAddress * 65536 + address r, byteCount r) ∨ s.occupied o = true := by
  simp [Scan.after, h.1]

theorem IsUpper.after {s : Scan} {r : Record} (h : IsUpper r) :
    (s.after r).upperAddress = payloadAddress r ∧ (s.after r).sawEof = s.sawEof ∧
    (s.after r).occupied = s.occupied := by
  simp [Scan.after, h.1]

theorem IsEof.after {s : Scan} {r : Record} (h : IsEof r) : (s.after r).sawEof = true := by
  simp [Scan.after, h.1]

/-- A free piece of memory, cut into ranges that are kept apart. -/
def FreeRanges (s : Scan) (ps : List (ℕ × ℕ)) : Prop :=
  (∀ p ∈ ps, p.1 + p.2 ≤ applicationFlashBytes ∧ ∀ o, InRange o p → s.occupied o = false) ∧
    ps.Pairwise Apart

theorem freeRanges_cons {s s' : Scan} {p : ℕ × ℕ} {ps : List (ℕ × ℕ)}
    (hocc : ∀ o, s'.occupied o = true ↔ InRange o p ∨ s.occupied o = true) :
    FreeRanges s (p :: ps) ↔
      (p.1 + p.2 ≤ applicationFlashBytes ∧ ∀ o, InRange o p → s.occupied o = false) ∧
      FreeRanges s' ps := by
  have hfree : ∀ o, s'.occupied o = false ↔ ¬ InRange o p ∧ s.occupied o = false := by
    intro o
    rw [← Bool.not_eq_true, hocc o]
    simp
  simp only [FreeRanges, List.forall_mem_cons, List.pairwise_cons, hfree, Apart]
  constructor
  · rintro ⟨⟨hp, hps⟩, hap, hpair⟩
    exact ⟨hp,
      fun q hq => ⟨(hps q hq).1, fun o ho => ⟨fun h => hap q hq o h ho, (hps q hq).2 o ho⟩⟩,
      hpair⟩
  · rintro ⟨hp, hps, hpair⟩
    exact ⟨⟨hp, fun q hq => ⟨(hps q hq).1, fun o ho => ((hps q hq).2 o ho).2⟩⟩,
      fun q hq o h ho => ((hps q hq).2 o ho).1 h, hpair⟩

def Shape (rs : List Record) : Prop :=
  ∃ body eof, rs = body ++ [eof] ∧ IsEof eof ∧ ∀ r ∈ body, IsData r ∨ IsUpper r

theorem shape_cons {r : Record} {rs : List Record} :
    Shape (r :: rs) ↔ IsEof r ∧ rs = [] ∨ (IsData r ∨ IsUpper r) ∧ Shape rs := by
  constructor
  · rintro ⟨body, eof, h, heof, hbody⟩
    cases body with
    | nil =>
      simp only [List.nil_append, List.cons.injEq] at h
      exact .inl ⟨h.1 ▸ heof, h.2⟩
    | cons b body =>
      simp only [List.cons_append, List.cons.injEq] at h
      obtain ⟨rfl, rfl⟩ := h
      exact .inr ⟨hbody r (by simp), body, eof, rfl, heof, fun x hx => hbody x (by simp [hx])⟩
  · rintro (⟨h, rfl⟩ | ⟨h, body, eof, rfl, heof, hbody⟩)
    · exact ⟨[], r, rfl, h, by simp⟩
    · exact ⟨r :: body, eof, rfl, heof, by simpa using ⟨h, hbody⟩⟩

/-- The loop over the lines reads to an end-of-file record exactly the record
sequences of the declarative format. -/
theorem admitsAll_iff {s : Scan} (hs : s.sawEof = false) (rs : List Record) :
    s.AdmitsAll rs ∧ (rs.foldl Scan.after s).sawEof = true ↔
      (∀ r ∈ rs, Checked r) ∧ Shape rs ∧ FreeRanges s (ranges s.upperAddress rs) := by
  induction rs generalizing s with
  | nil => simp [hs, Shape]
  | cons r rs ih =>
    simp only [Scan.AdmitsAll, List.foldl_cons, List.forall_mem_cons, shape_cons, and_assoc]
    by_cases he : IsEof r
    · have ht : ¬ IsData r ∧ ¬ IsUpper r := by simp [IsData, IsUpper, he.1]
      have hr : ranges s.upperAddress [r] = [] := by simp [ranges, he.1]
      simp only [Scan.Admits, hs, he, ht.1, ht.2, admitsAll_of_sawEof he.after, true_and, and_true,
        false_and, or_false]
      constructor
      · rintro ⟨hc, rfl, _⟩
        exact ⟨hc, by simp, rfl, by simp [hr, FreeRanges]⟩
      · rintro ⟨hc, _, rfl, _⟩
        exact ⟨hc, rfl, he.after⟩
    by_cases hd : IsData r
    · have hr : ranges s.upperAddress (r :: rs) =
          (s.upperAddress * 65536 + address r, byteCount r) :: ranges s.upperAddress rs := by
        simp [ranges, hd.1]
      have hu : ¬ IsUpper r := by simp [IsUpper, hd.1]
      obtain ⟨hup, hsaw, hocc⟩ := hd.after (s := s)
      rw [ih (hsaw.trans hs), hr, freeRanges_cons hocc, hup]
      simp only [Scan.Admits, hs, he, hd, hu, true_and, false_or, or_false, false_and]
      tauto
    by_cases hu : IsUpper r
    · have hr : ranges s.upperAddress (r :: rs) = ranges (payloadAddress r) rs := by
        simp [ranges, hu.1]
      obtain ⟨hup, hsaw, hocc⟩ := hu.after (s := s)
      have hfree : ∀ ps, FreeRanges (s.after r) ps ↔ FreeRanges s ps := by
        intro ps
        simp only [FreeRanges, hocc]
      rw [ih (hsaw.trans hs), hr, hfree, hup]
      simp only [Scan.Admits, hs, he, hd, hu, true_and, false_or, true_or, and_true, or_true,
        false_and]
    · simp [Scan.Admits, he, hd, hu]

/-- What the loop has collected, in terms of the ranges it has read. -/
theorem foldl_after {rs : List Record} (h : ∀ r ∈ rs, IsData r ∨ IsUpper r ∨ IsEof r) (s : Scan) :
    (∀ o, (rs.foldl Scan.after s).occupied o = true ↔
      (∃ p ∈ ranges s.upperAddress rs, InRange o p) ∨ s.occupied o = true) ∧
    (rs.foldl Scan.after s).dataBytes =
      s.dataBytes + ((ranges s.upperAddress rs).map Prod.snd).sum ∧
    (rs.foldl Scan.after s).lowestAddress =
      (ranges s.upperAddress rs).foldl lower s.lowestAddress ∧
    (rs.foldl Scan.after s).highestAddress =
      (ranges s.upperAddress rs).foldl higher s.highestAddress ∧
    (rs.foldl Scan.after s).recordCount = s.recordCount + rs.length := by
  induction rs generalizing s with
  | nil => simp [ranges]
  | cons r rs ih =>
    obtain ⟨hocc, hdata, hlow, hhigh, hcount⟩ := ih (fun x hx => h x (by simp [hx])) (s.after r)
    simp only [List.foldl_cons, hdata, hlow, hhigh, hcount, List.length_cons]
    rcases h r (by simp) with hr | hr | hr
    · obtain ⟨hup, -, hocc'⟩ := hr.after (s := s)
      simp only [hocc, hup, hocc', ranges, hr.1, if_true, List.exists_mem_cons_iff, List.map_cons,
        List.sum_cons, List.foldl_cons]
      refine ⟨fun o => by rw [or_left_comm, or_assoc], ?_, ?_, ?_, ?_⟩ <;>
        simp [Scan.after, hr.1] <;> omega
    · obtain ⟨hup, -, hocc'⟩ := hr.after (s := s)
      simp only [hocc, hup, hocc', ranges, hr.1]
      refine ⟨fun o => by simp, ?_⟩
      simp only [Scan.after, hr.1]
      simp
      omega
    · have hup : (s.after r).upperAddress = s.upperAddress := by simp [Scan.after, hr.1]
      have hocc' : (s.after r).occupied = s.occupied := by simp [Scan.after, hr.1]
      simp only [hocc, hup, hocc', ranges, hr.1]
      refine ⟨fun o => by simp, ?_⟩
      simp only [Scan.after, hr.1]
      simp
      omega

theorem foldl_lower_some {ps : List (ℕ × ℕ)} (hps : ps ≠ []) (l : Option ℕ) :
    ∃ l', ps.foldl lower l = some l' := by
  induction ps generalizing l with
  | nil => exact absurd rfl hps
  | cons p ps ih =>
    by_cases h : ps = []
    · subst h
      exact ⟨_, rfl⟩
    · exact ih h _

theorem le_foldl_higher (ps : List (ℕ × ℕ)) (h : ℤ) :
    h ≤ ps.foldl higher h ∧ ∀ p ∈ ps, 0 ≤ ps.foldl higher h := by
  induction ps generalizing h with
  | nil => simp
  | cons p ps ih =>
    have hle := (ih (higher h p)).1
    have hmax : h ≤ higher h p ∧ 0 ≤ higher h p := by
      simp only [higher]
      omega
    simp only [List.foldl_cons]
    exact ⟨by omega, fun _ _ => by omega⟩

theorem Shape.kinds {rs : List Record} (h : Shape rs) :
    ∀ r ∈ rs, IsData r ∨ IsUpper r ∨ IsEof r := by
  obtain ⟨body, eof, rfl, heof, hbody⟩ := h
  intro r hr
  rcases List.mem_append.mp hr with hr | hr
  · rcases hbody r hr with h | h
    · exact .inl h
    · exact .inr (.inl h)
  · rw [List.mem_singleton.mp hr]
    exact .inr (.inr heof)

theorem imageRecords_iff (rs : List Record) :
    ImageRecords rs ↔ (∀ r ∈ rs, Checked r) ∧ Shape rs ∧ FreeRanges Scan.initial (ranges 0 rs) ∧
      ∃ p ∈ ranges 0 rs, InRange 0 p := by
  simp only [FreeRanges, Scan.initial, implies_true, and_true]
  constructor
  · rintro ⟨hc, hs, hb, ha, hr⟩
    exact ⟨hc, hs, ⟨hb, ha⟩, hr⟩
  · rintro ⟨hc, hs, ⟨hb, ha⟩, hr⟩
    exact ⟨hc, hs, hb, ha, hr⟩

/-- The closing checks of the parser, after its loop has seen these records. -/
theorem parseHex_scanned {source : List UInt8} {path : Path} {text : List Char} {s : Scan}
    (ht : decodeAscii source = some text) (hl : splitlines text ≠ [])
    (hs : scanLines 1 Scan.initial (splitlines text) = .ok s) :
    (∃ image, parseHex source path = .ok image) ↔
      s.sawEof = true ∧ s.occupied 0 = true ∧ s.dataBytes ≠ 0 ∧ 0 ≤ s.highestAddress ∧
        ∃ lowest, s.lowestAddress = some lowest := by
  simp only [parseHex, ht, hl, if_false, hs, bind, Except.bind]
  cases he : s.sawEof <;> cases hlow : s.lowestAddress <;> cases ho : s.occupied 0 <;>
    simp [pure, Except.pure]
  · split_ifs <;> simp
  · split_ifs with h
    · simp
      omega
    · simp
      omega

theorem lenientLines_ne_nil {lines : List (List Char)} {rs : List Record}
    (h : List.Forall₂ LenientLine lines rs) : ∀ l ∈ lines, l ≠ [] := by
  induction h with
  | nil => simp
  | cons hl _ ih =>
    obtain ⟨_, rfl, _⟩ := hl
    simpa using ih

/-- `parseHex` accepts the lenient spellings of an image, and nothing else. -/
theorem parseHex_accepts_iff (source : List UInt8) (path : Path) :
    (∃ image, parseHex source path = .ok image) ↔ LenientHex source := by
  cases ht : decodeAscii source with
  | none => simp [parseHex, LenientHex, ht]
  | some text =>
    have hascii := decodeAscii_ascii ht
    obtain ⟨hlines, hbreak⟩ := splitlines_lines text
    have hchars : ∀ l ∈ splitlines text, ∀ c ∈ l, c.toNat < 128 :=
      fun l hl c hc => hascii c (hlines.chars l hl c hc)
    constructor
    · intro h
      by_cases hl : splitlines text = []
      · simp [parseHex, ht, hl] at h
      cases hs : scanLines 1 Scan.initial (splitlines text) with
      | error e => simp [parseHex, ht, hl, hs, bind, Except.bind] at h
      | ok s =>
        obtain ⟨heof, hocc, -⟩ := (parseHex_scanned ht hl hs).mp h
        obtain ⟨rs, hrs, hadm, rfl⟩ := (scanLines_iff 1 _ _ _ hchars).mp hs
        obtain ⟨hc, hshape, hfree⟩ := (admitsAll_iff rfl rs).mp ⟨hadm, heof⟩
        have hreset := ((foldl_after hshape.kinds Scan.initial).1 0).mp hocc
        refine ⟨text, _, rs, ht, hlines, hbreak, hrs, (imageRecords_iff rs).mpr
          ⟨hc, hshape, hfree, ?_⟩⟩
        simpa [Scan.initial] using hreset
    · rintro ⟨text', lines, rs, ht', hlines', hbreak', hrs, himage⟩
      obtain rfl : text = text' := Option.some.inj (ht.symm.trans ht')
      have hne : ∀ l ∈ lines, l ≠ [] ∧ ∀ c ∈ l, isLineBreak c = false := fun l hl => by
        exact ⟨lenientLines_ne_nil hrs l hl, hbreak' l hl⟩
      have hsplit := splitlines_unique hlines' hne
      obtain ⟨hc, hshape, hfree, hreset⟩ := (imageRecords_iff rs).mp himage
      obtain ⟨hadm, heof⟩ := (admitsAll_iff (s := Scan.initial) rfl rs).mpr ⟨hc, hshape, hfree⟩
      have hs := (scanLines_iff 1 Scan.initial _ _ hchars).mpr ⟨rs, hsplit ▸ hrs, hadm, rfl⟩
      have hl : splitlines text ≠ [] := by
        rw [hsplit]
        rintro rfl
        cases hrs
        obtain ⟨body, eof, h, -⟩ := hshape
        simp at h
      obtain ⟨hocc, hdata, hlow, hhigh, -⟩ := foldl_after hshape.kinds Scan.initial
      obtain ⟨p, hp, h0⟩ := hreset
      have hsum : p.2 ≤ ((ranges 0 rs).map Prod.snd).sum :=
        List.single_le_sum (by simp) _ (List.mem_map_of_mem hp)
      have hpos : 0 < p.2 := by
        simp only [InRange] at h0
        omega
      rw [parseHex_scanned ht hl hs, hocc, hdata, hlow, hhigh]
      exact ⟨heof, .inl ⟨p, hp, h0⟩, by simp only [Scan.initial]; omega,
        (le_foldl_higher _ _).2 p hp, foldl_lower_some (List.ne_nil_of_mem hp) _⟩

/-! ## Lenient spellings -/

def fillerChar (c : Char) : Bool := isFiller (UInt8.ofNat c.toNat)

theorem hasFiller_eq_false {source : List UInt8} {text : List Char}
    (ht : decodeAscii source = some text) :
    hasFiller source = false ↔ ∀ c ∈ text, fillerChar c = false := by
  obtain ⟨hb, rfl⟩ := decodeAscii_iff.mp ht
  have hbyte : ∀ b ∈ source, fillerChar (Char.ofNat b.toNat) = isFiller b := by
    intro b hm
    rw [fillerChar, toNat_ofByte (hb b hm), UInt8.ofNat_toNat]
  rw [hasFiller, List.any_eq_false]
  constructor
  · intro h c hc
    obtain ⟨b, hm, rfl⟩ := List.mem_map.mp hc
    rw [hbyte b hm]
    simpa using h b hm
  · intro h b hm
    rw [← hbyte b hm, h _ (List.mem_map_of_mem hm)]
    simp

theorem blank_of_not_filler {c : Char} (hc : fillerChar c = false) (hb : isBlank c = true) :
    c = '\n' ∨ c = '\r' := by
  simp only [isBlank, Bool.or_eq_true, decide_eq_true_eq] at hb
  rcases hb with ((((rfl | rfl) | rfl) | rfl) | rfl) | rfl
  · exact absurd hc (by decide)
  · exact absurd hc (by decide)
  · exact .inl rfl
  · exact absurd hc (by decide)
  · exact absurd hc (by decide)
  · exact .inr rfl

theorem break_of_not_filler {c : Char} (hc : fillerChar c = false) (ha : c.toNat < 128)
    (hb : isLineBreak c = true) : c = '\n' ∨ c = '\r' := by
  simp only [isLineBreak, Bool.or_eq_true, decide_eq_true_eq] at hb
  rcases hb with ((((((((rfl | rfl) | h) | h) | h) | h) | h) | h) | h) | h
  · exact .inl rfl
  · exact .inr rfl
  all_goals
    subst h
    first
      | exact absurd hc (by decide)
      | exact absurd ha (by decide)

theorem not_filler_of_hexDigit {c : Char} {h : ℕ} (ha : c.toNat < 128)
    (hc : hexDigit c = some h) : fillerChar c = false := by
  have hall : ∀ i : Fin 128, fillerChar (Char.ofNat i.val) = true →
      isBlank (Char.ofNat i.val) = true ∨ isLineBreak (Char.ofNat i.val) = true := by
    decide +kernel
  have hfiller := hall ⟨c.toNat, ha⟩
  simp only [Char.ofNat_toNat, hexDigit_not_blank hc, hexDigit_not_break hc] at hfiller
  simpa using hfiller

theorem strictLine_iff {line : List Char} {r : Record} (hc : Checked r)
    (ha : ∀ c ∈ line, c.toNat < 128) :
    StrictLine line r ↔ LenientLine line r ∧
      ∀ c ∈ line, isLineBreak c = false ∧ fillerChar c = false := by
  constructor
  · rintro ⟨digits, rfl, hlen, hp⟩
    have hdigits : ∀ c ∈ digits, isLineBreak c = false ∧ fillerChar c = false := by
      intro c hm
      obtain ⟨h, hd⟩ := hp.digit c hm
      exact ⟨hexDigit_not_break hd, not_filler_of_hexDigit (ha c (by simp [hm])) hd⟩
    refine ⟨⟨digits, rfl, by omega, by omega, hp.blanked⟩, ?_⟩
    simpa using ⟨by decide, hdigits⟩
  · rintro ⟨⟨encoded, rfl, -, -, hp⟩, hf⟩
    have hplain := hp.plain fun c hm => by
      obtain ⟨hbreak, hfiller⟩ := hf c (by simp [hm])
      by_contra hb
      rcases blank_of_not_filler hfiller (by simpa using hb) with rfl | rfl
      · exact absurd hbreak (by decide)
      · exact absurd hbreak (by decide)
    exact ⟨encoded, rfl, by rw [hplain.length, hc.1], hplain⟩

theorem strictLines_iff {lines : List (List Char)} {rs : List Record}
    (hc : ∀ r ∈ rs, Checked r) (ha : ∀ l ∈ lines, ∀ c ∈ l, c.toNat < 128) :
    List.Forall₂ StrictLine lines rs ↔ List.Forall₂ LenientLine lines rs ∧
      ∀ l ∈ lines, ∀ c ∈ l, isLineBreak c = false ∧ fillerChar c = false := by
  induction lines generalizing rs with
  | nil => simp
  | cons line lines ih =>
    cases rs with
    | nil => simp
    | cons r rs =>
      have hline := strictLine_iff (hc r (by simp)) (ha line (by simp))
      have hrest := @ih rs (fun x hx => hc x (by simp [hx])) fun l hl => ha l (by simp [hl])
      rw [List.forall₂_cons, List.forall₂_cons, hline, hrest, List.forall_mem_cons]
      tauto

/-- Over ASCII text without filler the boundaries of `str.splitlines` are LF, CR
and CRLF. -/
theorem lines_strictBreak_iff {text : List Char} {lines : List (List Char)}
    (ha : ∀ c ∈ text, c.toNat < 128) :
    Lines StrictBreak text lines ∧
        (∀ l ∈ lines, ∀ c ∈ l, isLineBreak c = false ∧ fillerChar c = false) ↔
      Lines IsBreak text lines ∧ (∀ l ∈ lines, ∀ c ∈ l, isLineBreak c = false) ∧
        ∀ c ∈ text, fillerChar c = false := by
  constructor
  · rintro ⟨h, hl⟩
    refine ⟨h.mono ?_, fun l hm c hc => (hl l hm c hc).1, ?_⟩
    · rintro s (rfl | rfl | rfl)
      · exact .inr ⟨_, by decide, rfl⟩
      · exact .inr ⟨_, by decide, rfl⟩
      · exact .inl rfl
    · intro c hc
      rcases h.mem_or_sep c hc with ⟨l, hm, hcl⟩ | ⟨s, hs, hcs⟩
      · exact (hl l hm c hcl).2
      · have : c = '\n' ∨ c = '\r' := by
          rcases hs with rfl | rfl | rfl
          · exact .inl (by simpa using hcs)
          · exact .inr (by simpa using hcs)
          · exact (by simpa using hcs : c = '\r' ∨ c = '\n').symm
        rcases this with rfl | rfl
        · decide
        · decide
  · rintro ⟨h, hl, hf⟩
    refine ⟨?_, fun l hm c hc => ⟨hl l hm c hc, hf c (h.chars l hm c hc)⟩⟩
    clear hl
    induction h with
    | nil => exact .nil
    | last hne => exact .last hne
    | cons l s hs hrest ih =>
      refine .cons l s ?_ (ih (fun c hc => ha c (by simp [hc])) fun c hc => hf c (by simp [hc]))
      rcases hs with rfl | ⟨c, hc, rfl⟩
      · exact .inr (.inr rfl)
      · rcases break_of_not_filler (hf c (by simp)) (ha c (by simp)) hc with rfl | rfl
        · exact .inl rfl
        · exact .inr (.inl rfl)

/-- Only the filler separates the two formats. -/
theorem strictHex_iff (source : List UInt8) :
    StrictHex source ↔ LenientHex source ∧ hasFiller source = false := by
  constructor
  · rintro ⟨text, lines, rs, ht, hlines, hrs, himage⟩
    have ha := decodeAscii_ascii ht
    have hal := fun l hl c hc => ha c (hlines.chars l hl c hc)
    obtain ⟨hlen, hchars⟩ := (strictLines_iff himage.checked hal).mp hrs
    obtain ⟨hbreaks, hno, hf⟩ := (lines_strictBreak_iff ha).mp ⟨hlines, hchars⟩
    exact ⟨⟨text, lines, rs, ht, hbreaks, hno, hlen, himage⟩, (hasFiller_eq_false ht).mpr hf⟩
  · rintro ⟨⟨text, lines, rs, ht, hlines, hno, hrs, himage⟩, hf⟩
    have ha := decodeAscii_ascii ht
    have hal := fun l hl c hc => ha c (hlines.chars l hl c hc)
    obtain ⟨hbreaks, hchars⟩ :=
      (lines_strictBreak_iff ha).mpr ⟨hlines, hno, (hasFiller_eq_false ht).mp hf⟩
    exact ⟨text, lines, rs, ht, hbreaks,
      (strictLines_iff himage.checked hal).mpr ⟨hrs, hchars⟩, himage⟩

/-- The admission accepts exactly the strict files as long as no filler hides
in a file that would be one without it. -/
theorem parseHex_strict_iff (source : List UInt8) (path : Path) :
    ((∃ image, parseHex source path = .ok image) ↔ StrictHex source) ↔
      (hasFiller source = false ∨ ¬ LenientHex source) := by
  rw [parseHex_accepts_iff, strictHex_iff]
  cases hasFiller source with
  | false => simp
  | true => simp

/-- An image with two blanks in its first line, which Intel HEX does not allow. -/
def spacedImage : List UInt8 := ":02000000 0000 FE\n:00000001FF\n".toUTF8.data.toList

theorem parseHex_accepts_spaced :
    ¬ ((∃ image, parseHex spacedImage (.ofString "/tmp/firmware.hex") = .ok image) ↔
      StrictHex spacedImage) := by
  intro h
  have hok : (parseHex spacedImage (.ofString "/tmp/firmware.hex")).isOk = true := by
    decide +kernel
  have hacc : ∃ image, parseHex spacedImage (.ofString "/tmp/firmware.hex") = .ok image := by
    cases hp : parseHex spacedImage (.ofString "/tmp/firmware.hex") with
    | ok image => exact ⟨image, rfl⟩
    | error e => simp [hp, Except.isOk, Except.toBool] at hok
  have hstrict := (strictHex_iff _).mp (h.mp hacc)
  exact absurd hstrict.2 (by decide +kernel)

end Cul868Flasher.HexFile
