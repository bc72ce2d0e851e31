import Cul868Flasher.Effects.Evaluation
import Cul868Flasher.Flasher.Plan
import Cul868Flasher.HexImages
import Mathlib.Data.Finset.Max

/-!
# Encoding a memory image

A memory image may be cut into runs and written record by record in any order.
The admission reads back the cells it covers, so neither the cut nor the order
shows in what it reports.
-/

namespace Cul868Flasher.HexFile
open Python Effects

/-- `bytes.hex().upper()`. -/
def upperHex (bs : List UInt8) : List Char :=
  bs.flatMap fun b =>
    [(Sha256.hexChar (b.toNat / 16)).toUpper, (Sha256.hexChar (b.toNat % 16)).toUpper]

/-- The bytes in front of the checksum. -/
def recordFields (address recordType : ℕ) (data : List UInt8) : List UInt8 :=
  UInt8.ofNat data.length :: UInt8.ofNat (address / 256) :: UInt8.ofNat (address % 256) ::
    UInt8.ofNat recordType :: data

/-- `-sum(fields) & 0xFF`. -/
def checksum (fields : List UInt8) : UInt8 := UInt8.ofNat ((256 - byteSum fields % 256) % 256)

def recordOf (address recordType : ℕ) (data : List UInt8) : Record :=
  recordFields address recordType data ++ [checksum (recordFields address recordType data)]

/-- Create one checksum-correct Intel HEX record. -/
def intelHexRecord (address recordType : ℕ) (data : List UInt8) : Except Exn (List Char) :=
  if 255 < data.length ∨ 65535 < address ∨ 255 < recordType then
    .error (.valueError "bytes must be in range(0, 256)")
  else .ok (':' :: upperHex (recordOf address recordType data))

def encodeRuns (runs : List (ℕ × List UInt8)) : Except Exn (List (List Char)) :=
  runs.mapM fun run => intelHexRecord run.1 0 run.2

/-- `str.encode()` of ASCII text. -/
def encodeAscii (text : List Char) : List UInt8 := text.map fun c => UInt8.ofNat c.toNat

def joinLines (lines : List (List Char)) : List Char := lines.flatMap (· ++ ['\n'])

/-- One record per line, and the end-of-file record. -/
def hexFile (runs : List (ℕ × List UInt8)) : Except Exn (List UInt8) := do
  let lines ← encodeRuns runs
  let eof ← intelHexRecord 0 1 []
  return encodeAscii (joinLines (lines ++ [eof]))

/-- A memory image cut into disjoint runs, in any order. -/
structure Segmentation (memory : ℕ → Option UInt8) (runs : List (ℕ × List UInt8)) : Prop where
  nonempty : ∀ run ∈ runs, run.2 ≠ []
  short : ∀ run ∈ runs, run.2.length ≤ 255
  covers : ∀ a b, memory a = some b ↔ ∃ run ∈ runs, ∃ i, run.1 + i = a ∧ run.2[i]? = some b
  disjoint : runs.Pairwise fun r q => Apart (r.1, r.2.length) (q.1, q.2.length)

/-! ## One record -/

theorem hexDigit_upper : ∀ n < 16, hexDigit (Sha256.hexChar n).toUpper = some n := by decide

theorem hexDigit_ascii {c : Char} {n : ℕ} (h : hexDigit c = some n) : c.toNat < 128 := by
  unfold hexDigit at h
  split_ifs at h with h₀ h₁ h₂
  · have : c.toNat ≤ '9'.toNat := h₀.2
    have : '9'.toNat < 128 := by decide
    omega
  · have : c.toNat ≤ 'f'.toNat := h₁.2
    have : 'f'.toNat < 128 := by decide
    omega
  · have : c.toNat ≤ 'F'.toNat := h₂.2
    have : 'F'.toNat < 128 := by decide
    omega

theorem hexPairs_upperHex (bs : List UInt8) : HexPairs (upperHex bs) bs := by
  induction bs with
  | nil => exact .nil
  | cons b bs ih =>
    have hb := b.toNat_lt
    have hpair := HexPairs.byte (hexDigit_upper (b.toNat / 16) (by omega))
      (hexDigit_upper (b.toNat % 16) (by omega)) ih
    rwa [Nat.div_add_mod, UInt8.ofNat_toNat] at hpair

theorem byteSum_append (bs cs : List UInt8) : byteSum (bs ++ cs) = byteSum bs + byteSum cs := by
  simp [byteSum]

theorem byteSum_checksum (fields : List UInt8) :
    byteSum (fields ++ [checksum fields]) % 256 = 0 := by
  have hsum : byteSum [checksum fields] = (256 - byteSum fields % 256) % 256 := by
    simp [byteSum, checksum]
  rw [byteSum_append, hsum]
  omega

/-- A record reads back as the address, the type and the number of bytes it was
made of. -/
structure Encodes (address' recordType' count : ℕ) (r : Record) : Prop where
  checked : Checked r
  byteCount : byteCount r = count
  address : address r = address'
  recordType : recordType r = recordType'

theorem encodes_recordOf {a t : ℕ} {data : List UInt8} (hlength : data.length ≤ 255)
    (ha : a ≤ 65535) (ht : t ≤ 255) : Encodes a t data.length (recordOf a t data) := by
  have hcount : byteCount (recordOf a t data) = data.length := by
    simp [byteCount, byteAt, recordOf, recordFields]
    omega
  refine ⟨⟨?_, byteSum_checksum _⟩, hcount, ?_, ?_⟩
  · rw [hcount]
    simp [recordOf, recordFields]
  · simp [address, byteAt, recordOf, recordFields]
    omega
  · simp [recordType, byteAt, recordOf, recordFields]
    omega

/-- What the parser needs to know of an encoded line. -/
structure EncodedLine (line : List Char) (r : Record) : Prop where
  lenient : LenientLine line r
  length : line.length = 2 * byteCount r + 11
  ascii : ∀ c ∈ line, c.toNat < 128
  unbroken : ∀ c ∈ line, isLineBreak c = false

theorem intelHexRecord_ok {a t : ℕ} {data : List UInt8} (hlength : data.length ≤ 255)
    (ha : a ≤ 65535) (ht : t ≤ 255) : ∃ line, intelHexRecord a t data = .ok line ∧
      EncodedLine line (recordOf a t data) := by
  have hpairs := hexPairs_upperHex (recordOf a t data)
  have hencodes := encodes_recordOf hlength ha ht
  have hlen : (upperHex (recordOf a t data)).length = 2 * byteCount (recordOf a t data) + 10 := by
    rw [hpairs.length, hencodes.checked.1]
    omega
  refine ⟨_, if_neg (by omega), ⟨_, rfl, by omega, by omega, hpairs.blanked⟩, ?_, ?_, ?_⟩
  · rw [List.length_cons, hlen]
  · simp only [List.forall_mem_cons]
    refine ⟨by decide, fun c hc => ?_⟩
    obtain ⟨n, hn⟩ := hpairs.digit c hc
    exact hexDigit_ascii hn
  · simp only [List.forall_mem_cons]
    refine ⟨by decide, fun c hc => ?_⟩
    obtain ⟨n, hn⟩ := hpairs.digit c hc
    exact hexDigit_not_break hn

/-! ## The file -/

theorem decodeAscii_encoded {text : List Char} (h : ∀ c ∈ text, c.toNat < 128) :
    decodeAscii (encodeAscii text) = some text := by
  have hbyte : ∀ c ∈ text, (UInt8.ofNat c.toNat).toNat = c.toNat := fun c hc => by
    have := h c hc
    simp
    omega
  rw [decodeAscii_iff]
  refine ⟨?_, ?_⟩
  · simp only [encodeAscii, List.mem_map]
    rintro _ ⟨c, hc, rfl⟩
    rw [hbyte c hc]
    exact h c hc
  · rw [encodeAscii, List.map_map]
    refine ((List.map_congr_left fun c hc => ?_).trans (List.map_id text)).symm
    rw [Function.comp_apply, hbyte c hc, Char.ofNat_toNat, id]

theorem lines_newline (lines : List (List Char)) :
    Lines IsBreak (joinLines lines) lines := by
  induction lines with
  | nil => exact .nil
  | cons line lines ih => exact .cons line ['\n'] (.inr ⟨_, by decide, rfl⟩) ih

theorem encodeRuns_ok {runs : List (ℕ × List UInt8)} (hshort : ∀ run ∈ runs, run.2.length ≤ 255)
    (haddress : ∀ run ∈ runs, run.1 ≤ 65535) :
    ∃ lines, encodeRuns runs = .ok lines ∧
      List.Forall₂ EncodedLine lines (runs.map fun run => recordOf run.1 0 run.2) := by
  induction runs with
  | nil => exact ⟨[], rfl, .nil⟩
  | cons run runs ih =>
    obtain ⟨lines, hlines, henc⟩ := ih (fun r hr => hshort r (by simp [hr]))
      fun r hr => haddress r (by simp [hr])
    obtain ⟨line, hline, hl⟩ := intelHexRecord_ok (t := 0) (hshort run (by simp))
      (haddress run (by simp)) (by omega)
    refine ⟨line :: lines, ?_, .cons hl henc⟩
    rw [encodeRuns] at hlines ⊢
    rw [List.mapM_cons, hline, hlines]
    rfl

/-- The records of a file of runs. -/
def recordsOf (runs : List (ℕ × List UInt8)) : List Record :=
  (runs.map fun run => recordOf run.1 0 run.2) ++ [recordOf 0 1 []]

theorem hexFile_ok {runs : List (ℕ × List UInt8)} (hshort : ∀ run ∈ runs, run.2.length ≤ 255)
    (haddress : ∀ run ∈ runs, run.1 ≤ 65535) :
    ∃ lines, hexFile runs = .ok (encodeAscii (joinLines lines)) ∧
      List.Forall₂ EncodedLine lines (recordsOf runs) := by
  obtain ⟨lines, hlines, henc⟩ := encodeRuns_ok hshort haddress
  obtain ⟨eof, heof, hl⟩ := intelHexRecord_ok (a := 0) (t := 1)
    (show ([] : List UInt8).length ≤ 255 by simp) (by omega) (by omega)
  refine ⟨lines ++ [eof], ?_, List.rel_append henc (.cons hl .nil)⟩
  simp [hexFile, hlines, heof, bind, Except.bind, pure, Except.pure]

section EncodedLines
variable {lines : List (List Char)} {records : List Record}

theorem length_joinLines (h : List.Forall₂ EncodedLine lines records) :
    (encodeAscii (joinLines lines)).length =
      12 * records.length + 2 * (records.map byteCount).sum := by
  rw [encodeAscii, List.length_map, joinLines]
  induction h with
  | nil => rfl
  | cons hl _ ih =>
    simp only [List.flatMap_cons, List.length_append, List.length_cons, List.length_nil, hl.length,
      ih, List.map_cons, List.sum_cons]
    omega

theorem encodedLine_of_mem (h : List.Forall₂ EncodedLine lines records) {l : List Char}
    (hl : l ∈ lines) : ∃ r, EncodedLine l r := by
  induction h with
  | nil => cases hl
  | cons henc _ ih =>
    rcases List.mem_cons.mp hl with rfl | hl
    · exact ⟨_, henc⟩
    · exact ih hl

theorem ascii_joinLines (h : List.Forall₂ EncodedLine lines records) :
    ∀ c ∈ joinLines lines, c.toNat < 128 := by
  intro c hc
  obtain ⟨l, hl, hc⟩ := List.mem_flatMap.mp hc
  obtain ⟨r, henc⟩ := encodedLine_of_mem h hl
  rcases List.mem_append.mp hc with hc | hc
  · exact henc.ascii c hc
  · rw [List.mem_singleton.mp hc]
    decide

/-- The parser cuts the file into the lines it was put together from. -/
theorem splitlines_joinLines (h : List.Forall₂ EncodedLine lines records) :
    splitlines (joinLines lines) = lines := by
  refine splitlines_unique (lines_newline lines) fun l hl => ?_
  obtain ⟨r, henc⟩ := encodedLine_of_mem h hl
  refine ⟨?_, henc.unbroken⟩
  rintro rfl
  have := henc.length
  simp at this

end EncodedLines

/-! ## The image -/

variable {memory : ℕ → Option UInt8} {runs : List (ℕ × List UInt8)}

/-- The address ranges of runs. -/
def runRanges (runs : List (ℕ × List UInt8)) : List (ℕ × ℕ) :=
  runs.map fun run => (run.1, run.2.length)

theorem Segmentation.mem_iff (h : Segmentation memory runs) {a : ℕ} :
    (memory a).isSome ↔ ∃ p ∈ runRanges runs, InRange a p := by
  constructor
  · intro ha
    obtain ⟨b, hb⟩ := Option.isSome_iff_exists.mp ha
    obtain ⟨run, hrun, i, rfl, hi⟩ := (h.covers a b).mp hb
    have hlt := (List.getElem?_eq_some_iff.mp hi).1
    refine ⟨_, List.mem_map_of_mem hrun, ?_⟩
    simp only [InRange]
    omega
  · rintro ⟨_, hp, hin⟩
    obtain ⟨run, hrun, rfl⟩ := List.mem_map.mp hp
    simp only [InRange] at hin
    have hlt : a - run.1 < run.2.length := by omega
    have hb := (h.covers a run.2[a - run.1]).mpr
      ⟨run, hrun, a - run.1, by omega, List.getElem?_eq_getElem hlt⟩
    simp [hb]

theorem Segmentation.positive (h : Segmentation memory runs) : ∀ p ∈ runRanges runs, 0 < p.2 := by
  intro p hp
  obtain ⟨run, hrun, rfl⟩ := List.mem_map.mp hp
  exact List.length_pos_iff.mpr (h.nonempty run hrun)

theorem Segmentation.apart (h : Segmentation memory runs) : (runRanges runs).Pairwise Apart :=
  List.pairwise_map.mpr h.disjoint

/-- Runs end below what the memory image stays below. -/
theorem Segmentation.below (h : Segmentation memory runs) {limit : ℕ}
    (hlimit : ∀ a, (memory a).isSome → a < limit) : ∀ p ∈ runRanges runs, p.1 + p.2 ≤ limit := by
  intro p hp
  have hpos := h.positive p hp
  have := hlimit (p.1 + p.2 - 1) (h.mem_iff.mpr ⟨p, hp, by simp only [InRange]; omega⟩)
  omega

/-- The addresses of a memory image below a limit. -/
def addresses (memory : ℕ → Option UInt8) : Finset ℕ :=
  (Finset.range applicationFlashBytes).filter fun a => (memory a).isSome

theorem Segmentation.cells (h : Segmentation memory runs)
    (hlimit : ∀ a, (memory a).isSome → a < applicationFlashBytes) :
    cells (runRanges runs) = addresses memory := by
  ext a
  rw [mem_cells, ← h.mem_iff, addresses, Finset.mem_filter, Finset.mem_range]
  exact ⟨fun ha => ⟨hlimit a ha, ha⟩, fun ha => ha.2⟩

theorem ranges_recordsOf (hshort : ∀ run ∈ runs, run.2.length ≤ 255)
    (haddress : ∀ run ∈ runs, run.1 ≤ 65535) : ranges 0 (recordsOf runs) = runRanges runs := by
  induction runs with
  | nil => decide
  | cons run runs ih =>
    have he := encodes_recordOf (t := 0) (hshort run (by simp)) (haddress run (by simp)) (by omega)
    have hrest := ih (fun r hr => hshort r (by simp [hr])) fun r hr => haddress r (by simp [hr])
    rw [recordsOf] at hrest ⊢
    rw [List.map_cons, List.cons_append, ranges, if_pos he.recordType, hrest, he.address,
      he.byteCount]
    simp [runRanges]

theorem byteCount_recordsOf (hshort : ∀ run ∈ runs, run.2.length ≤ 255)
    (haddress : ∀ run ∈ runs, run.1 ≤ 65535) :
    ((recordsOf runs).map byteCount).sum = ((runRanges runs).map Prod.snd).sum := by
  induction runs with
  | nil => decide
  | cons run runs ih =>
    have he := encodes_recordOf (t := 0) (hshort run (by simp)) (haddress run (by simp)) (by omega)
    have hrest := ih (fun r hr => hshort r (by simp [hr])) fun r hr => haddress r (by simp [hr])
    rw [recordsOf] at hrest ⊢
    rw [List.map_cons, List.cons_append, List.map_cons, List.sum_cons, hrest, he.byteCount]
    simp [runRanges]

theorem Segmentation.imageRecords (h : Segmentation memory runs) (h₀ : (memory 0).isSome)
    (hlimit : ∀ a, (memory a).isSome → a < applicationFlashBytes) :
    ImageRecords (recordsOf runs) := by
  have haddress : ∀ run ∈ runs, run.1 ≤ 65535 := fun run hrun => by
    have := h.below hlimit _ (List.mem_map_of_mem hrun)
    simp only [applicationFlashBytes] at this
    omega
  have hranges := ranges_recordsOf h.short haddress
  have heof := encodes_recordOf (a := 0) (t := 1)
    (show ([] : List UInt8).length ≤ 255 by simp) (by omega) (by omega)
  have hdata : ∀ run ∈ runs, Encodes run.1 0 run.2.length (recordOf run.1 0 run.2) :=
    fun run hrun => encodes_recordOf (h.short run hrun) (haddress run hrun) (by omega)
  refine ⟨?_, ?_, ?_, ?_, ?_⟩
  · simp only [recordsOf, List.mem_append, List.mem_map, List.mem_singleton]
    rintro r (⟨run, hrun, rfl⟩ | rfl)
    · exact (hdata run hrun).checked
    · exact heof.checked
  · refine ⟨_, _, rfl, ⟨heof.recordType, heof.byteCount, heof.address⟩, ?_⟩
    simp only [List.mem_map]
    rintro r ⟨run, hrun, rfl⟩
    refine .inl ⟨(hdata run hrun).recordType, ?_⟩
    rw [(hdata run hrun).byteCount]
    exact List.length_pos_iff.mpr (h.nonempty run hrun)
  · rw [hranges]
    exact h.below hlimit
  · rw [hranges]
    exact h.apart
  · rw [hranges]
    exact h.mem_iff.mp h₀

/-- How many runs there are, and how much they carry. -/
theorem Segmentation.count (h : Segmentation memory runs)
    (hlimit : ∀ a, (memory a).isSome → a < applicationFlashBytes) :
    ((runRanges runs).map Prod.snd).sum = (addresses memory).card ∧
      runs.length ≤ (addresses memory).card ∧ (addresses memory).card ≤ applicationFlashBytes := by
  have hsum : ((runRanges runs).map Prod.snd).sum = (addresses memory).card := by
    rw [← h.cells hlimit, card_cells h.apart]
  refine ⟨hsum, ?_, ?_⟩
  · have hle := List.length_le_sum_of_one_le ((runRanges runs).map Prod.snd) fun n hn => by
      obtain ⟨p, hp, rfl⟩ := List.mem_map.mp hn
      exact h.positive p hp
    rw [hsum] at hle
    simpa [runRanges] using hle
  · refine (Finset.card_filter_le _ _).trans ?_
    rw [Finset.card_range]

/-- What the admission reports of a memory image, however it is written. -/
structure AdmittedAs (memory : ℕ → Option UInt8) (runs : List (ℕ × List UInt8)) (path : Path)
    (highest : ℕ) (file : List UInt8) (image : HexImage) : Prop where
  written : hexFile runs = .ok file
  size : file.length ≤ maxHexFileBytes
  parsed : parseHex file path = .ok image
  /-- Through `parse_hex_file`, whatever else the environment answers. -/
  admitted : ∀ w : (o : World.Op) → World.Ans o, w (.statSize path) = some file.length →
    w (.readBytes path) = some file → (Flasher.parseHexFile path).eval w = .returned image
  dataBytes : image.dataBytes = (addresses memory).card
  lowest : image.lowestAddress = 0
  highest : image.highestAddress = highest
  records : image.records = runs.length + 1

theorem parseHexFile_run {path : Path} {file : List UInt8} {image : HexImage}
    (hparse : parseHex file path = .ok image) (hpos : 1 ≤ file.length)
    (hsize : file.length ≤ maxHexFileBytes) :
    Run (Flasher.parseHexFile path)
      [⟨.statSize path, some file.length⟩, ⟨.readBytes path, some file⟩] (.returned image) := by
  have hbounds : ¬ (file.length < 1 ∨ maxHexFileBytes < file.length) := by omega
  refine .call (I := World) (o := .statSize path) (some file.length : Option ℕ) ?_
  change Run (ite _ _ _) _ _
  rw [if_neg hbounds]
  refine .call (I := World) (o := .readBytes path) (some file : Option (List UInt8)) ?_
  change Run (ite _ _ _) _ _
  rw [if_neg (not_not.mpr rfl), hparse]
  exact .returned image

/-- Every cut of a memory image into runs, written in every order, is admitted,
and as the same image up to its text. -/
theorem segmentation_admitted (memory : ℕ → Option UInt8) (h₀ : (memory 0).isSome)
    (hbelow : ∀ a, (memory a).isSome → a < 0x7000) :
    ∃ highest, IsGreatest {a | (memory a).isSome} highest ∧
      ∀ runs, Segmentation memory runs → ∀ path, ∃ file image,
        AdmittedAs memory runs path highest file image := by
  obtain ⟨highest, hmem, hgreatest⟩ :
      ∃ highest, IsGreatest (addresses memory : Set ℕ) highest := by
    have hne : (addresses memory).Nonempty :=
      ⟨0, by simp [addresses, h₀, applicationFlashBytes]⟩
    exact ⟨_, Finset.isGreatest_max' _ hne⟩
  have hset : {a | (memory a).isSome} = (addresses memory : Set ℕ) := by
    ext a
    simp only [addresses, Finset.coe_filter, Finset.mem_range, Set.mem_ofPred_eq]
    exact ⟨fun ha => ⟨hbelow a ha, ha⟩, fun ha => ha.2⟩
  refine ⟨highest, by rw [hset]; exact ⟨hmem, hgreatest⟩, fun runs hruns path => ?_⟩
  have haddress : ∀ run ∈ runs, run.1 ≤ 65535 := fun run hrun => by
    have := hruns.below hbelow _ (List.mem_map_of_mem hrun)
    omega
  have himage := hruns.imageRecords h₀ hbelow
  have hranges := ranges_recordsOf hruns.short haddress
  have hcells := hruns.cells hbelow
  obtain ⟨hsum, hcount, hlimit⟩ := hruns.count hbelow
  obtain ⟨lines, hfile, henc⟩ := hexFile_ok hruns.short haddress
  have hparse : parseHex (encodeAscii (joinLines lines)) path =
      .ok (imageOf (encodeAscii (joinLines lines)) path (recordsOf runs)) := by
    refine parseHex_ok_iff.mpr
      ⟨_, _, decodeAscii_encoded (ascii_joinLines henc), ?_, himage, rfl⟩
    rw [splitlines_joinLines henc]
    exact henc.imp fun _ _ h => h.lenient
  have hlength : (encodeAscii (joinLines lines)).length =
      12 * (runs.length + 1) + 2 * (addresses memory).card := by
    rw [length_joinLines henc, ← hsum, byteCount_recordsOf hruns.short haddress]
    simp [recordsOf]
  have hsize : (encodeAscii (joinLines lines)).length ≤ maxHexFileBytes := by
    simp only [applicationFlashBytes] at hlimit
    rw [hlength]
    simp only [maxHexFileBytes]
    omega
  have hpositive := (himage.positive)
  rw [hranges] at hpositive
  obtain ⟨h, hhigh, hgreat⟩ := foldl_higher_greatest hpositive (by
    rw [hcells]
    simp [addresses, h₀, applicationFlashBytes])
  rw [hcells] at hgreat
  obtain rfl : h = highest := hgreat.unique ⟨hmem, hgreatest⟩
  refine ⟨_, _, hfile, hsize, hparse, fun w hstat hread => ?_, ?_, rfl, ?_, ?_⟩
  · refine Prog.eval_eq_of_run w (parseHexFile_run hparse (by omega) hsize) ?_ (by simp)
    simp only [List.forall_mem_cons]
    exact ⟨hstat.symm, hread.symm, by simp⟩
  · rw [← hsum, ← hranges]
    rfl
  · rw [← hhigh, ← hranges]
    rfl
  · simp [imageOf, recordsOf]

/-- Three bytes from address 0. -/
def smallMemory (a : ℕ) : Option UInt8 := [0x0c, 0x94, 0x00][a]?

theorem smallMemory_segmented : Segmentation smallMemory [(2, [0x00]), (0, [0x0c, 0x94])] where
  nonempty := by decide
  short := by decide
  covers := by
    intro a b
    simp only [smallMemory, List.mem_cons, List.not_mem_nil, or_false, exists_eq_or_imp,
      exists_eq_left]
    match a with
    | 0 => grind
    | 1 => grind
    | 2 => grind
    | a+3 => grind
  disjoint := by
    simp only [List.pairwise_cons, List.mem_singleton, forall_eq, Apart, InRange]
    grind

theorem smallMemory_admitted : ∃ highest file image,
    AdmittedAs smallMemory [(2, [0x00]), (0, [0x0c, 0x94])] (.ofString "/tmp/firmware.hex") highest
      file image := by
  have hbelow : ∀ a, (smallMemory a).isSome → a < 0x7000 := fun a ha => by
    simp [smallMemory] at ha
    omega
  obtain ⟨highest, -, hadmitted⟩ := segmentation_admitted smallMemory (by decide) hbelow
  exact ⟨highest, hadmitted _ smallMemory_segmented _⟩

end Cul868Flasher.HexFile
