import Cul868Flasher.HexGrammar
import Mathlib.Data.Finset.Card
import Mathlib.Data.Finset.Lattice.Fold
import Mathlib.Order.Interval.Finset.Nat

/-!
# What the HEX admission accepts and what it raises

An accepted image is determined by the cells its data records cover. The one way
to leave the parser other than with an image or a `HexFileError` is a record
whose text has no digit.
-/

namespace Cul868Flasher.HexFile
open Python

/-! ## Rejection -/

/-- A line of blanks behind the colon, as long as a record has to be. -/
def BlankLine (line : List Char) : Prop :=
  ∃ encoded, line = ':' :: encoded ∧ 10 ≤ encoded.length ∧ encoded.length % 2 = 0 ∧
    ∀ c ∈ encoded, isBlank c = true

theorem fromHex_eq_nil_iff {cs : List Char} :
    fromHex cs = some [] ↔ ∀ c ∈ cs, isBlank c = true := by
  rw [fromHex_iff]
  constructor
  · intro h
    generalize hbs : ([] : List UInt8) = bs at h
    induction h with
    | nil => simp
    | blank hc _ ih => simpa [hc] using ih hbs
    | byte => cases hbs
  · intro h
    induction cs with
    | nil => exact .nil
    | cons c cs ih => exact .blank (h c (by simp)) (ih fun x hx => h x (by simp [hx]))

theorem parseRecord_escapes (n : ℕ) {line : List Char} (hascii : ∀ c ∈ line, c.toNat < 128) :
    (∃ e, parseRecord line n = .error e ∧ e.isHexFileError = false) ↔ BlankLine line := by
  constructor
  · rintro ⟨e, h, he⟩
    unfold parseRecord at h
    split at h
    · rename_i encoded
      split_ifs at h with h₁ h₂
      · cases h
        simp at he
      · cases h
        simp at he
      · split at h
        · cases h
          simp at he
        · rename_i hnil
          exact ⟨encoded, rfl, by omega, by omega, fromHex_eq_nil_iff.mp hnil⟩
        · split_ifs at h
          · cases h
            simp at he
          · cases h
            simp at he
    · cases h
      simp at he
  · rintro ⟨encoded, rfl, hlength, heven, hblank⟩
    have ha : (':' :: encoded).all (fun c => c.toNat < 128) = true := by
      simpa [List.all_eq_true] using hascii
    have hlen : ¬ (encoded.length < 10 ∨ encoded.length % 2 ≠ 0) := by omega
    refine ⟨.indexError "index out of range", ?_, rfl⟩
    simp only [parseRecord, ha, hlen, fromHex_eq_nil_iff.mpr hblank, Bool.not_true,
      Bool.false_eq_true, if_false]

theorem occupy_error {n start k : ℕ} {occupied : ℕ → Bool} {e : Exn}
    (h : occupy n start k occupied = .error e) : e.isHexFileError = true := by
  induction k generalizing start occupied with
  | zero => cases h
  | succ k ih =>
    simp only [occupy] at h
    split_ifs at h
    · cases h
      rfl
    · exact ih h

theorem dataRecord_error {n : ℕ} {s : Scan} {r : Record} {e : Exn}
    (h : dataRecord n s r = .error e) : e.isHexFileError = true := by
  simp only [dataRecord] at h
  split_ifs at h
  · cases h
    rfl
  · cases h
    rfl
  · cases ho : occupy n (s.upperAddress * 65536 + address r) (byteCount r) s.occupied with
    | error e' =>
      simp only [ho, bind, Except.bind] at h
      cases h
      exact occupy_error ho
    | ok occupied => simp [ho, bind, Except.bind, pure, Except.pure] at h

/-- A line is left by another exception than `HexFileError` when it is read, and
at its record's first byte. -/
theorem scanLine_escapes (n : ℕ) (s : Scan) {line : List Char}
    (hascii : ∀ c ∈ line, c.toNat < 128) :
    (∃ e, scanLine n s line = .error e ∧ e.isHexFileError = false) ↔
      s.sawEof = false ∧ BlankLine line := by
  rw [← parseRecord_escapes n hascii]
  cases hs : s.sawEof with
  | true =>
    simp only [scanLine, hs, if_true, Except.error.injEq, Bool.true_eq_false, false_and, iff_false]
    rintro ⟨e, rfl, he⟩
    simp at he
  | false =>
    simp only [scanLine, hs, true_and, Bool.false_eq_true, if_false]
    cases hp : parseRecord line n with
    | error e => simp [bind, Except.bind]
    | ok r =>
      simp only [bind, Except.bind, reduceCtorEq, false_and, exists_false, iff_false]
      rintro ⟨e, h, he⟩
      split_ifs at h
      · simp [dataRecord_error h] at he
      all_goals
        cases h
        simp at he

theorem scanLines_escapes (n : ℕ) (s : Scan) {lines : List (List Char)}
    (hascii : ∀ l ∈ lines, ∀ c ∈ l, c.toNat < 128) :
    (∃ e, scanLines n s lines = .error e ∧ e.isHexFileError = false) ↔
      ∃ before line after s', lines = before ++ line :: after ∧
        scanLines n s before = .ok s' ∧ s'.sawEof = false ∧ BlankLine line := by
  induction lines generalizing n s with
  | nil => simp [scanLines]
  | cons line lines ih =>
    have hline := scanLine_escapes n s (hascii line (by simp))
    have hrest := fun t => ih (n+1) t fun l hl => hascii l (by simp [hl])
    constructor
    · rintro ⟨e, h, he⟩
      cases hs : scanLine n s line with
      | error e' =>
        simp only [scanLines, hs, bind, Except.bind] at h
        cases h
        obtain ⟨heof, hblank⟩ := hline.mp ⟨e, hs, he⟩
        exact ⟨[], line, lines, s, rfl, rfl, heof, hblank⟩
      | ok t =>
        simp only [scanLines, hs, bind, Except.bind] at h
        obtain ⟨before, l, after, s', rfl, hok, heof, hblank⟩ := (hrest t).mp ⟨e, h, he⟩
        refine ⟨line :: before, l, after, s', rfl, ?_, heof, hblank⟩
        simpa only [scanLines, hs, bind, Except.bind] using hok
    · rintro ⟨before, l, after, s', hlines, hok, heof, hblank⟩
      cases before with
      | nil =>
        obtain ⟨rfl, rfl⟩ : line = l ∧ lines = after := by simpa using hlines
        cases hok
        obtain ⟨e, hs, he⟩ := hline.mpr ⟨heof, hblank⟩
        exact ⟨e, by simp only [scanLines, hs, bind, Except.bind], he⟩
      | cons l' before =>
        obtain ⟨rfl, rfl⟩ : line = l' ∧ lines = before ++ l :: after := by simpa using hlines
        cases hs : scanLine n s line with
        | error e => simp [scanLines, hs, bind, Except.bind] at hok
        | ok t =>
          simp only [scanLines, hs, bind, Except.bind] at hok ⊢
          exact (hrest t).mpr ⟨before, l, after, s', rfl, hok, heof, hblank⟩

/-! ## The beginning of an image -/

/-- Records an image may begin with. -/
structure ImageStart (rs : List Record) : Prop where
  checked : ∀ r ∈ rs, Checked r
  body : ∀ r ∈ rs, IsData r ∨ IsUpper r
  below : ∀ p ∈ ranges 0 rs, p.1 + p.2 ≤ applicationFlashBytes
  apart : (ranges 0 rs).Pairwise Apart

theorem admitsAll_append {s : Scan} {rs rs' : List Record} :
    s.AdmitsAll (rs ++ rs') ↔ s.AdmitsAll rs ∧ (rs.foldl Scan.after s).AdmitsAll rs' := by
  induction rs generalizing s with
  | nil => simp [Scan.AdmitsAll]
  | cons r rs ih => simp [Scan.AdmitsAll, ih, and_assoc]

theorem ranges_append {upper : ℕ} {rs : List Record} {eof : Record} (h : IsEof eof) :
    ranges upper (rs ++ [eof]) = ranges upper rs := by
  induction rs generalizing upper with
  | nil => simp [ranges, h.1]
  | cons r rs ih =>
    simp only [List.cons_append, ranges]
    split_ifs
    · rw [ih]
    · exact ih
    · exact ih

theorem shape_append {rs : List Record} {eof : Record} (h : IsEof eof) :
    Shape (rs ++ [eof]) ↔ ∀ r ∈ rs, IsData r ∨ IsUpper r := by
  constructor
  · rintro ⟨body, eof', heq, -, hbody⟩
    obtain ⟨rfl, -⟩ := List.append_inj' heq rfl
    exact hbody
  · intro hbody
    exact ⟨rs, eof, rfl, h, hbody⟩

/-- The record at which every HEX file ends. -/
def eofRecord : Record := [0, 0, 0, 1, 255]

theorem isEof_eofRecord : IsEof eofRecord := ⟨by decide, by decide, by decide⟩
theorem checked_eofRecord : Checked eofRecord := ⟨by decide, by decide⟩

/-- The loop is before the end of the file when an end-of-file record could follow. -/
theorem imageStart_iff (rs : List Record) :
    Scan.initial.AdmitsAll rs ∧ (rs.foldl Scan.after Scan.initial).sawEof = false ↔
      ImageStart rs := by
  have hadmits : (rs.foldl Scan.after Scan.initial).AdmitsAll [eofRecord] ↔
      (rs.foldl Scan.after Scan.initial).sawEof = false := by
    simp [Scan.AdmitsAll, Scan.Admits, checked_eofRecord, isEof_eofRecord]
  have heof : ((rs ++ [eofRecord]).foldl Scan.after Scan.initial).sawEof = true := by
    rw [List.foldl_append]
    exact isEof_eofRecord.after
  have hall := admitsAll_iff (s := Scan.initial) rfl (rs ++ [eofRecord])
  rw [admitsAll_append, hadmits, shape_append isEof_eofRecord, ranges_append isEof_eofRecord,
    and_iff_left heof] at hall
  rw [hall]
  constructor
  · rintro ⟨hchecked, hbody, hbelow, hapart⟩
    exact ⟨fun r hr => hchecked r (by simp [hr]), hbody, fun p hp => (hbelow p hp).1, hapart⟩
  · intro h
    refine ⟨fun r hr => ?_, h.body, fun p hp => ⟨h.below p hp, fun _ _ => rfl⟩, h.apart⟩
    rcases List.mem_append.mp hr with hr | hr
    · exact h.checked r hr
    · rw [List.mem_singleton.mp hr]
      exact checked_eofRecord

/-- The file reaches a blank line before a line that is rejected, and before the
end-of-file record. -/
def ReachesBlankLine (source : List UInt8) : Prop :=
  ∃ text before line after records, decodeAscii source = some text ∧
    splitlines text = before ++ line :: after ∧ List.Forall₂ LenientLine before records ∧
    ImageStart records ∧ BlankLine line

/-- The parser returns an image or raises `HexFileError`, except on a file that
reaches a blank line. -/
theorem parseHex_raises_iff (source : List UInt8) (path : Path) :
    (∀ e, parseHex source path = .error e → e.isHexFileError = true) ↔
      ¬ ReachesBlankLine source := by
  rw [← not_iff_not, not_not]
  simp only [not_forall, Bool.not_eq_true, exists_prop]
  cases ht : decodeAscii source with
  | none =>
    simp only [parseHex, ht, Except.error.injEq, ReachesBlankLine, reduceCtorEq, false_and,
      exists_false, iff_false]
    rintro ⟨e, rfl, he⟩
    simp at he
  | some text =>
    have hascii : ∀ l ∈ splitlines text, ∀ c ∈ l, c.toNat < 128 :=
      fun l hl c hc => decodeAscii_ascii ht c ((splitlines_lines text).1.chars l hl c hc)
    have hescapes := scanLines_escapes 1 Scan.initial hascii
    have hparse : (∃ e, parseHex source path = .error e ∧ e.isHexFileError = false) ↔
        ∃ e, scanLines 1 Scan.initial (splitlines text) = .error e ∧ e.isHexFileError = false := by
      simp only [parseHex, ht]
      split_ifs with hempty
      · rw [hempty]
        constructor
        · rintro ⟨e, h, he⟩
          cases h
          simp at he
        · rintro ⟨e, h, -⟩
          cases h
      · cases hs : scanLines 1 Scan.initial (splitlines text) with
        | error e => simp [bind, Except.bind]
        | ok s =>
          simp only [bind, Except.bind, reduceCtorEq, false_and, exists_false, iff_false]
          rintro ⟨e, h, he⟩
          split at h
          · cases h
            simp at he
          · split at h
            · cases h
              simp at he
            · split_ifs at h
              all_goals cases h
              all_goals simp at he
    rw [hparse, hescapes]
    constructor
    · rintro ⟨before, line, after, s, hlines, hok, heof, hblank⟩
      have hbefore : ∀ l ∈ before, ∀ c ∈ l, c.toNat < 128 := fun l hl =>
        hascii l (by simp [hlines, hl])
      obtain ⟨records, hrecords, hadmits, rfl⟩ := (scanLines_iff 1 _ _ _ hbefore).mp hok
      exact ⟨text, before, line, after, records, ht, hlines, hrecords,
        (imageStart_iff records).mp ⟨hadmits, heof⟩, hblank⟩
    · rintro ⟨text', before, line, after, records, ht', hlines, hrecords, hstart, hblank⟩
      obtain rfl : text = text' := Option.some.inj (ht.symm.trans ht')
      have hbefore : ∀ l ∈ before, ∀ c ∈ l, c.toNat < 128 := fun l hl =>
        hascii l (by simp [hlines, hl])
      obtain ⟨hadmits, heof⟩ := (imageStart_iff records).mpr hstart
      exact ⟨before, line, after, _, hlines,
        (scanLines_iff 1 _ _ _ hbefore).mpr ⟨records, hrecords, hadmits, rfl⟩, heof, hblank⟩

/-- What the parser raises: its own exception, or the one of an empty record. -/
def ParserError (e : Exn) : Prop := e.isHexFileError = true ∨ e.cls = .indexError

theorem parseRecord_parserError {n : ℕ} {line : List Char} {e : Exn}
    (h : parseRecord line n = .error e) : ParserError e := by
  unfold parseRecord at h
  split at h
  · split_ifs at h
    · exact .inl (by cases h; rfl)
    · exact .inl (by cases h; rfl)
    · split at h
      · exact .inl (by cases h; rfl)
      · exact .inr (by cases h; rfl)
      · split_ifs at h
        · exact .inl (by cases h; rfl)
        · exact .inl (by cases h; rfl)
  · exact .inl (by cases h; rfl)

theorem scanLine_parserError {n : ℕ} {s : Scan} {line : List Char} {e : Exn}
    (h : scanLine n s line = .error e) : ParserError e := by
  unfold scanLine at h
  split_ifs at h
  · exact .inl (by cases h; rfl)
  · cases hp : parseRecord line n with
    | error e' =>
      simp only [hp, bind, Except.bind] at h
      cases h
      exact parseRecord_parserError hp
    | ok r =>
      simp only [hp, bind, Except.bind] at h
      split_ifs at h
      · exact .inl (dataRecord_error h)
      all_goals exact .inl (by cases h; rfl)

theorem scanLines_parserError {n : ℕ} {s : Scan} {lines : List (List Char)} {e : Exn}
    (h : scanLines n s lines = .error e) : ParserError e := by
  induction lines generalizing n s with
  | nil => cases h
  | cons line lines ih =>
    cases hs : scanLine n s line with
    | error e' =>
      simp only [scanLines, hs, bind, Except.bind] at h
      cases h
      exact scanLine_parserError hs
    | ok t =>
      simp only [scanLines, hs, bind, Except.bind] at h
      exact ih h

theorem parseHex_parserError {source : List UInt8} {path : Path} {e : Exn}
    (h : parseHex source path = .error e) : ParserError e := by
  unfold parseHex at h
  split at h
  · exact .inl (by cases h; rfl)
  · rename_i text _
    dsimp only at h
    split_ifs at h
    · exact .inl (by cases h; rfl)
    · cases hs : scanLines 1 Scan.initial (splitlines text) with
      | error e' =>
        simp only [hs, bind, Except.bind] at h
        cases h
        exact scanLines_parserError hs
      | ok t =>
        simp only [hs, bind, Except.bind] at h
        split at h
        · exact .inl (by cases h; rfl)
        · split at h
          · exact .inl (by cases h; rfl)
          · split_ifs at h
            all_goals cases h
            all_goals exact .inl rfl

/-- A colon and ten blanks. -/
def blankFile : List UInt8 := ":          \n".toUTF8.data.toList

theorem parseHex_blank_escapes :
    ¬ ∀ e, parseHex blankFile (.ofString "/tmp/firmware.hex") = .error e →
      e.isHexFileError = true := by
  intro h
  have he := h (.indexError "index out of range") (by decide +kernel)
  cases he

/-! ## The cells of an image -/

/-- The cells that address ranges cover. -/
def cells : List (ℕ × ℕ) → Finset ℕ
  | [] => ∅
  | p :: ps => Finset.Ico p.1 (p.1 + p.2) ∪ cells ps

theorem mem_cells {ps : List (ℕ × ℕ)} {o : ℕ} : o ∈ cells ps ↔ ∃ p ∈ ps, InRange o p := by
  induction ps with
  | nil => simp [cells]
  | cons p ps ih => simp [cells, ih, InRange]

theorem card_cells {ps : List (ℕ × ℕ)} (h : ps.Pairwise Apart) :
    (cells ps).card = (ps.map Prod.snd).sum := by
  induction ps with
  | nil => rfl
  | cons p ps ih =>
    obtain ⟨hp, hps⟩ := List.pairwise_cons.mp h
    have hdisjoint : Disjoint (Finset.Ico p.1 (p.1 + p.2)) (cells ps) := by
      rw [Finset.disjoint_left]
      intro o ho hmem
      obtain ⟨q, hq, hoq⟩ := mem_cells.mp hmem
      exact hp q hq o (Finset.mem_Ico.mp ho) hoq
    rw [cells, Finset.card_union_of_disjoint hdisjoint, ih hps, Nat.card_Ico]
    simp

theorem foldl_lower_le (ps : List (ℕ × ℕ)) (a : ℕ) :
    ∃ b, ps.foldl lower (some a) = some b ∧ b ≤ a ∧ ∀ p ∈ ps, b ≤ p.1 := by
  induction ps generalizing a with
  | nil => exact ⟨a, rfl, le_refl a, by simp⟩
  | cons p ps ih =>
    obtain ⟨b, hb, hle, hall⟩ := ih (min a p.1)
    refine ⟨b, hb, by omega, ?_⟩
    simp only [List.forall_mem_cons]
    exact ⟨by omega, hall⟩

/-- The lowest address is 0 as soon as a record starts there. -/
theorem foldl_lower_zero {ps : List (ℕ × ℕ)} {p : ℕ × ℕ} (hp : p ∈ ps) (h : p.1 = 0) :
    ps.foldl lower none = some 0 := by
  match ps with
  | q :: qs =>
    obtain ⟨b, hb, hle, hall⟩ := foldl_lower_le qs q.1
    rw [List.foldl_cons]
    refine hb.trans ?_
    rcases List.mem_cons.mp hp with rfl | hp
    · simp only [Option.some.injEq]
      omega
    · have := hall p hp
      simp only [Option.some.injEq]
      omega

theorem foldl_higher_mem {ps : List (ℕ × ℕ)} (hpos : ∀ p ∈ ps, 0 < p.2) (h : ℤ) :
    (ps.foldl higher h = h ∨ ∃ o ∈ cells ps, ps.foldl higher h = o) ∧ h ≤ ps.foldl higher h ∧
      ∀ o ∈ cells ps, (o : ℤ) ≤ ps.foldl higher h := by
  induction ps generalizing h with
  | nil => simp [cells]
  | cons p ps ih =>
    obtain ⟨hmem, hle, hall⟩ := ih (fun q hq => hpos q (by simp [hq])) (higher h p)
    have hp := hpos p (by simp)
    simp only [List.foldl_cons, cells, Finset.mem_union, Finset.mem_Ico]
    have hhigher : h ≤ higher h p ∧ ((p.1 + p.2 - 1 : ℕ) : ℤ) ≤ higher h p := by
      simp only [higher]
      omega
    refine ⟨?_, hhigher.1.trans hle, ?_⟩
    · rcases hmem with hmem | ⟨o, ho, hmem⟩
      · rw [hmem]
        rcases le_total h ((p.1 + p.2 - 1 : ℕ) : ℤ) with hmax | hmax
        · exact .inr ⟨p.1 + p.2 - 1, .inl (by omega), max_eq_right hmax⟩
        · exact .inl (max_eq_left hmax)
      · exact .inr ⟨o, .inr ho, hmem⟩
    · rintro o (ho | ho)
      · have : (o : ℤ) ≤ ((p.1 + p.2 - 1 : ℕ) : ℤ) := by omega
        exact this.trans (hhigher.2.trans hle)
      · exact hall o ho

theorem foldl_higher_greatest {ps : List (ℕ × ℕ)} (hpos : ∀ p ∈ ps, 0 < p.2) (h₀ : 0 ∈ cells ps) :
    ∃ h : ℕ, ps.foldl higher (-1) = h ∧ IsGreatest (cells ps : Set ℕ) h := by
  obtain ⟨hmem, -, hall⟩ := foldl_higher_mem hpos (-1)
  rcases hmem with hmem | ⟨h, hh, hmem⟩
  · have := hall 0 h₀
    omega
  · refine ⟨h, hmem, hh, fun o ho => ?_⟩
    have := hall o ho
    omega

/-! ## Acceptance -/

/-- The image that records describe. -/
def imageOf (source : List UInt8) (path : Path) (records : List Record) : HexImage where
  path := path
  size := source.length
  sha256 := Sha256.hexdigest source
  records := records.length
  dataBytes := ((ranges 0 records).map Prod.snd).sum
  lowestAddress := 0
  highestAddress := (ranges 0 records).foldl higher (-1)

/-- Every data record of an image is read under the upper address 0. -/
def dataRanges (records : List Record) : List (ℕ × ℕ) :=
  (records.filter (recordType · = 0)).map fun r => (address r, byteCount r)

theorem ranges_eq_dataRanges {upper : ℕ} {records : List Record}
    (hbelow : ∀ p ∈ ranges upper records, p.1 + p.2 ≤ applicationFlashBytes) :
    ranges upper records = dataRanges records := by
  induction records generalizing upper with
  | nil => rfl
  | cons r rs ih =>
    by_cases h₀ : recordType r = 0
    · simp only [ranges, h₀, if_true, List.forall_mem_cons] at hbelow
      have hupper : upper = 0 := by
        have := hbelow.1
        simp only [applicationFlashBytes] at this
        omega
      subst hupper
      simp [ranges, dataRanges, h₀, ih hbelow.2]
    · have hdrop : dataRanges (r :: rs) = dataRanges rs := by simp [dataRanges, h₀]
      rw [hdrop]
      simp only [ranges, h₀, if_false] at hbelow ⊢
      split_ifs at hbelow ⊢
      · exact ih hbelow
      · exact ih hbelow

/-- The records of an image are positive in size, and one of them starts at 0. -/
theorem ImageRecords.positive {rs : List Record} (h : ImageRecords rs) :
    ∀ p ∈ ranges 0 rs, 0 < p.2 := by
  have hkinds := Shape.kinds h.shape
  rw [ranges_eq_dataRanges h.below]
  intro p hp
  obtain ⟨r, hr, rfl⟩ := List.mem_map.mp hp
  obtain ⟨hmem, htype⟩ := List.mem_filter.mp hr
  have ht : recordType r = 0 := by simpa using htype
  rcases hkinds r hmem with hk | hk | hk
  · exact hk.2
  · exact absurd (ht.symm.trans hk.1) (by decide)
  · exact absurd (ht.symm.trans hk.1) (by decide)

/-- `parseHex` returns the image of the records it has read. -/
theorem parseHex_ok_iff {source : List UInt8} {path : Path} {image : HexImage} :
    parseHex source path = .ok image ↔
      ∃ text records, decodeAscii source = some text ∧
        List.Forall₂ LenientLine (splitlines text) records ∧ ImageRecords records ∧
        image = imageOf source path records := by
  cases ht : decodeAscii source with
  | none => simp [parseHex, ht]
  | some text =>
    have hascii : ∀ l ∈ splitlines text, ∀ c ∈ l, c.toNat < 128 :=
      fun l hl c hc => decodeAscii_ascii ht c ((splitlines_lines text).1.chars l hl c hc)
    have hof : ∀ records, List.Forall₂ LenientLine (splitlines text) records →
        ImageRecords records → parseHex source path = .ok (imageOf source path records) := by
      intro records hrecords himage
      obtain ⟨hc, hshape, hfree, hreset⟩ := (imageRecords_iff records).mp himage
      obtain ⟨hadm, heof⟩ := (admitsAll_iff (s := Scan.initial) rfl records).mpr ⟨hc, hshape, hfree⟩
      have hs := (scanLines_iff 1 Scan.initial _ _ hascii).mpr ⟨records, hrecords, hadm, rfl⟩
      obtain ⟨hocc, hdata, hlow, hhigh, hcount⟩ := foldl_after hshape.kinds Scan.initial
      obtain ⟨p, hp, h0⟩ := hreset
      have hne : splitlines text ≠ [] := by
        intro hnil
        rw [hnil] at hrecords
        cases hrecords
        simp [ranges] at hp
      have hlowest := foldl_lower_zero hp (by simp only [InRange] at h0; omega)
      have hsum : p.2 ≤ ((ranges 0 records).map Prod.snd).sum :=
        List.single_le_sum (by simp) _ (List.mem_map_of_mem hp)
      have hpos := himage.positive p hp
      have hnonneg := (le_foldl_higher (ranges 0 records) (-1)).2 p hp
      have hzero := (hocc 0).mpr (.inl ⟨p, hp, h0⟩)
      change _ = 0 + ((ranges 0 records).map Prod.snd).sum at hdata
      change _ = (ranges 0 records).foldl lower none at hlow
      change _ = (ranges 0 records).foldl higher (-1) at hhigh
      change _ = 0 + records.length at hcount
      rw [zero_add] at hdata hcount
      have hfilled : ¬ (((ranges 0 records).map Prod.snd).sum = 0 ∨
          (ranges 0 records).foldl higher (-1) < 0) := by omega
      simp only [parseHex, ht, hne, if_false, hs, bind, Except.bind, heof, Bool.not_true,
        Bool.false_eq_true, hlow, hlowest, hdata, hhigh, hfilled, hzero, hcount, pure, Except.pure,
        imageOf]
    constructor
    · intro h
      obtain ⟨text', lines, records, ht', hlines, hbreak, hrecords, himage⟩ :=
        (parseHex_accepts_iff source path).mp ⟨image, h⟩
      obtain rfl : text = text' := Option.some.inj (ht.symm.trans ht')
      have hsplit := splitlines_unique hlines fun l hl =>
        ⟨lenientLines_ne_nil hrecords l hl, hbreak l hl⟩
      rw [← hsplit] at hrecords
      have := (hof records hrecords himage).symm.trans h
      cases this
      exact ⟨text, records, rfl, hrecords, himage, rfl⟩
    · rintro ⟨text', records, ht', hrecords, himage, rfl⟩
      cases ht'
      exact hof records hrecords himage

/-- The lines of an accepted file, its records and its image. -/
structure SoundImage (lines : List (List Char)) (records : List Record) (image : HexImage) :
    Prop where
  read : List.Forall₂ (fun line r => ∀ n, parseRecord line n = .ok r) lines records
  /-- Whatever extended linear addresses came before. -/
  upper : ∀ before line after, lines = before ++ line :: after →
    ∃ s, scanLines 1 Scan.initial before = .ok s ∧
      ∀ r, parseRecord line (before.length + 1) = .ok r → recordType r = 0x00 →
        s.upperAddress = 0
  nonempty : ∀ p ∈ dataRanges records, 0 < p.2
  disjoint : (dataRanges records).Pairwise Apart
  below : ∀ p ∈ dataRanges records, p.1 + p.2 ≤ 0x7000
  dataBytes_union : image.dataBytes = (cells (dataRanges records)).card
  dataBytes_sum : image.dataBytes = ((dataRanges records).map Prod.snd).sum
  lowest : image.lowestAddress = 0 ∧ IsLeast (cells (dataRanges records) : Set ℕ) 0
  highest : ∃ h : ℕ, image.highestAddress = h ∧ IsGreatest (cells (dataRanges records) : Set ℕ) h
  bound : image.dataBytes ≤ image.highestAddress + 1 ∧ image.highestAddress + 1 ≤ 0x7000
  records_eq : image.records = lines.length
  eof : ∃ body eof, records = body ++ [eof] ∧ recordType eof = 0x01 ∧
    ∀ r ∈ body, recordType r ≠ 0x01

/-- A data record is let pass under the upper address 0 only. -/
theorem Scan.Admits.upper {s : Scan} {r : Record} (h : s.Admits r) (ht : recordType r = 0x00) :
    s.upperAddress = 0 := by
  obtain ⟨-, -, hk | hk | ⟨-, hbelow, -⟩⟩ := h
  · exact absurd (ht.symm.trans hk.1) (by decide)
  · exact absurd (ht.symm.trans hk.1) (by decide)
  · simp only [applicationFlashBytes] at hbelow
    omega

/-- What the loop knows before a line of an accepted file. -/
theorem upper_of_lines {lines : List (List Char)} {records : List Record}
    (hascii : ∀ l ∈ lines, ∀ c ∈ l, c.toNat < 128)
    (hrecords : List.Forall₂ LenientLine lines records) (hadm : Scan.initial.AdmitsAll records)
    {before after : List (List Char)} {line : List Char}
    (hlines : lines = before ++ line :: after) :
    ∃ s, scanLines 1 Scan.initial before = .ok s ∧
      ∀ r, parseRecord line (before.length + 1) = .ok r → recordType r = 0x00 →
        s.upperAddress = 0 := by
  subst hlines
  have htake := List.forall₂_take_append _ _ _ hrecords.flip
  have hdrop := List.forall₂_drop_append _ _ _ hrecords.flip
  rw [← List.take_append_drop before.length records, admitsAll_append] at hadm
  obtain ⟨r, rest, hl, -, heq⟩ := List.forall₂_cons_right_iff.mp hdrop
  rw [heq] at hadm
  refine ⟨_, (scanLines_iff 1 _ _ _ fun l hl => hascii l (by simp [hl])).mpr
    ⟨_, htake.flip, hadm.1, rfl⟩, fun r' hr' ht => ?_⟩
  have hchecked := hadm.2.1.2.1
  have hr := (parseRecord_iff (before.length + 1) (hascii line (by simp))).mpr ⟨hl, hchecked⟩
  cases hr.symm.trans hr'
  exact hadm.2.1.upper ht

/-- An accepted file describes a sound image, record by record. -/
theorem parseHex_sound {source : List UInt8} {path : Path} {image : HexImage}
    (h : parseHex source path = .ok image) :
    ∃ text records, decodeAscii source = some text ∧
      SoundImage (splitlines text) records image := by
  obtain ⟨text, records, ht, hrecords, himage, rfl⟩ := parseHex_ok_iff.mp h
  have hascii : ∀ l ∈ splitlines text, ∀ c ∈ l, c.toNat < 128 :=
    fun l hl c hc => decodeAscii_ascii ht c ((splitlines_lines text).1.chars l hl c hc)
  obtain ⟨hc, hshape, hfree, hreset⟩ := (imageRecords_iff records).mp himage
  obtain ⟨hadm, -⟩ := (admitsAll_iff (s := Scan.initial) rfl records).mpr ⟨hc, hshape, hfree⟩
  have hranges := ranges_eq_dataRanges himage.below
  have hpos := himage.positive
  have hbelow := himage.below
  have hapart := himage.apart
  have hzero : 0 ∈ cells (ranges 0 records) := mem_cells.mpr hreset
  obtain ⟨h, hhigh, hgreatest⟩ := foldl_higher_greatest hpos hzero
  rw [hranges] at hpos hbelow hapart hzero hhigh hgreatest
  have hcard := card_cells hapart
  have hlt : h < applicationFlashBytes := by
    obtain ⟨p, hp, hin⟩ := mem_cells.mp hgreatest.1
    have := hbelow p hp
    simp only [InRange] at hin
    omega
  have hsubset : (cells (dataRanges records)).card ≤ h + 1 := by
    have hle := Finset.card_le_card (s := cells (dataRanges records)) (t := Finset.range (h + 1))
      fun o ho => Finset.mem_range.mpr (Nat.lt_succ_of_le (hgreatest.2 ho))
    rwa [Finset.card_range] at hle
  refine ⟨text, records, ht, ?_⟩
  exact {
    read := by
      refine (List.forall₂_iff_get.mp hrecords).elim fun hlength hget => ?_
      refine List.forall₂_iff_get.mpr ⟨hlength, fun i hi hi' n => ?_⟩
      exact (parseRecord_iff n (hascii _ (List.get_mem _ _))).mpr
        ⟨hget i hi hi', himage.checked _ (List.get_mem _ _)⟩
    upper := fun _ _ _ hlines => upper_of_lines hascii hrecords hadm hlines
    nonempty := hpos
    disjoint := hapart
    below := hbelow
    dataBytes_union := by rw [hcard, ← hranges]; rfl
    dataBytes_sum := by rw [← hranges]; rfl
    lowest := ⟨rfl, hzero, fun _ _ => Nat.zero_le _⟩
    highest := ⟨h, by rw [← hhigh, ← hranges]; rfl, hgreatest⟩
    bound := by
      have hbytes :
          (imageOf source path records).dataBytes = (cells (dataRanges records)).card := by
        rw [hcard, ← hranges]
        rfl
      have htop : (imageOf source path records).highestAddress = h := by
        rw [← hhigh, ← hranges]
        rfl
      rw [hbytes, htop]
      simp only [applicationFlashBytes] at hlt
      omega
    records_eq := hrecords.length_eq.symm
    eof := by
      obtain ⟨body, eof, heq, heof, hbody⟩ := himage.shape
      refine ⟨body, eof, heq, heof.1, fun r hr ht => ?_⟩
      rcases hbody r hr with hk | hk
      · exact absurd (ht.symm.trans hk.1) (by decide)
      · exact absurd (ht.symm.trans hk.1) (by decide) }

/-- Four bytes at address 0 behind an extended linear address record. -/
def smallFile : List UInt8 :=
  ":020000040000FA\n:040000000C9400005C\n:00000001FF\n".toUTF8.data.toList

theorem parseHex_sound_small : ∃ image text records,
    parseHex smallFile (.ofString "/tmp/firmware.hex") = .ok image ∧
      decodeAscii smallFile = some text ∧ SoundImage (splitlines text) records image := by
  have hok : (parseHex smallFile (.ofString "/tmp/firmware.hex")).isOk = true := by
    decide +kernel
  cases hp : parseHex smallFile (.ofString "/tmp/firmware.hex") with
  | error e => simp [hp, Except.isOk, Except.toBool] at hok
  | ok image =>
    obtain ⟨text, records, ht, hsound⟩ := parseHex_sound hp
    exact ⟨image, text, records, rfl, ht, hsound⟩

end Cul868Flasher.HexFile
