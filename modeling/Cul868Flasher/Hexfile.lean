import Cul868Flasher.Errors
import Cul868Flasher.Python.Path
import Cul868Flasher.Python.Sha256
import Cul868Flasher.Python.Text
import Mathlib.Algebra.GroupWithZero.Nat
import Mathlib.Data.Int.Notation

/-!
# Admission of Intel HEX files

`parseHex` follows the source statement by statement: the length and parity
checks look at the text of a line, the later ones at its bytes.
-/

namespace Cul868Flasher
open Python

def maxHexFileBytes : ℕ := 512 * 1024
def applicationFlashBytes : ℕ := 0x7000

structure HexImage where
  path : Path
  size : ℕ
  sha256 : String
  records : ℕ
  dataBytes : ℕ
  lowestAddress : ℕ
  highestAddress : ℤ
  deriving DecidableEq

namespace HexFile

abbrev Record := List UInt8

def byteAt (record : Record) (i : ℕ) : ℕ := (record.getD i 0).toNat
def byteSum (record : Record) : ℕ := (record.map UInt8.toNat).sum
def byteCount (record : Record) : ℕ := byteAt record 0
def address (record : Record) : ℕ := byteAt record 1 * 256 + byteAt record 2
def recordType (record : Record) : ℕ := byteAt record 3
/-- The two bytes an extended linear address record carries. -/
def payloadAddress (record : Record) : ℕ := byteAt record 4 * 256 + byteAt record 5

/-- `record[0]` of an empty record is an `IndexError`, which is no `HexFileError`. -/
def parseRecord (line : List Char) (lineNumber : ℕ) : Except Exn Record :=
  match line with
  | ':' :: encoded =>
    if !line.all (fun c => c.toNat < 128) then
      .error (.hexFileError s!"line {lineNumber}: Intel HEX records must start with ':'")
    else if encoded.length < 10 ∨ encoded.length % 2 ≠ 0 then
      .error (.hexFileError s!"line {lineNumber}: Intel HEX record length is invalid")
    else match fromHex encoded with
      | none =>
        .error (.hexFileError s!"line {lineNumber}: Intel HEX record has non-hexadecimal data")
      | some [] => .error (.indexError "index out of range")
      | some record@(_ :: _) =>
        if record.length ≠ byteCount record + 5 then
          .error
            (.hexFileError s!"line {lineNumber}: Intel HEX byte count does not match the record")
        else if byteSum record % 256 ≠ 0 then
          .error (.hexFileError s!"line {lineNumber}: Intel HEX checksum is invalid")
        else .ok record
  | _ => .error (.hexFileError s!"line {lineNumber}: Intel HEX records must start with ':'")

/-- The variables of the loop over the lines. -/
structure Scan where
  occupied : ℕ → Bool
  upperAddress : ℕ
  dataBytes : ℕ
  lowestAddress : Option ℕ
  highestAddress : ℤ
  sawEof : Bool
  recordCount : ℕ

def Scan.initial : Scan := ⟨fun _ => false, 0, 0, none, -1, false, 0⟩

/-- The inner loop: mark `n` bytes from `start`, unless one is marked already. -/
def occupy (lineNumber : ℕ) (start : ℕ) : ℕ → (ℕ → Bool) → Except Exn (ℕ → Bool)
  | 0, occupied => .ok occupied
  | n+1, occupied =>
    if occupied start then
      .error (.hexFileError s!"line {lineNumber}: overlapping data records are not allowed")
    else occupy lineNumber (start+1) n (fun offset => offset = start || occupied offset)

def dataRecord (lineNumber : ℕ) (s : Scan) (record : Record) : Except Exn Scan :=
  if byteCount record = 0 then
    .error (.hexFileError s!"line {lineNumber}: empty data records are not supported")
  else
    let absoluteAddress := s.upperAddress * 65536 + address record
    let endAddress := absoluteAddress + byteCount record
    if applicationFlashBytes < endAddress then
      .error (.hexFileError (s!"line {lineNumber}: data targets the reserved CUL868 bootloader " ++
        "area or outside flash"))
    else do
      let occupied ← occupy lineNumber absoluteAddress (byteCount record) s.occupied
      return { s with
        occupied := occupied
        dataBytes := s.dataBytes + byteCount record
        lowestAddress := some (match s.lowestAddress with
          | none => absoluteAddress
          | some lowest => min lowest absoluteAddress)
        highestAddress := max s.highestAddress (endAddress - 1 : ℕ) }

/-- One pass of the loop over the lines. -/
def scanLine (lineNumber : ℕ) (s : Scan) (line : List Char) : Except Exn Scan :=
  if s.sawEof then
    .error (.hexFileError s!"line {lineNumber}: data appears after the end-of-file record")
  else do
    let record ← parseRecord line lineNumber
    let s := { s with recordCount := s.recordCount + 1 }
    if recordType record = 0x00 then dataRecord lineNumber s record
    else if recordType record = 0x01 then
      if byteCount record ≠ 0 ∨ address record ≠ 0 then
        .error (.hexFileError s!"line {lineNumber}: end-of-file record is malformed")
      else .ok { s with sawEof := true }
    else if recordType record = 0x04 then
      if byteCount record ≠ 2 ∨ address record ≠ 0 then
        .error (.hexFileError s!"line {lineNumber}: extended linear address record is malformed")
      else .ok { s with upperAddress := payloadAddress record }
    else
      .error (.hexFileError (s!"line {lineNumber}: unsupported Intel HEX record type 0x" ++
        String.ofList
          [Sha256.hexChar (recordType record / 16), Sha256.hexChar (recordType record % 16)]))

def scanLines : ℕ → Scan → List (List Char) → Except Exn Scan
  | _, s, [] => .ok s
  | lineNumber, s, line :: lines => do
    scanLines (lineNumber+1) (← scanLine lineNumber s line) lines

def parseHex (source : List UInt8) (path : Path) : Except Exn HexImage :=
  match decodeAscii source with
  | none => .error (.hexFileError "firmware must be an ASCII Intel HEX file")
  | some text =>
    let lines := splitlines text
    if lines = [] then .error (.hexFileError "firmware file is empty")
    else do
      let s ← scanLines 1 Scan.initial lines
      if !s.sawEof then .error (.hexFileError "firmware has no end-of-file record")
      else match s.lowestAddress with
        | none => .error (.hexFileError "firmware has no application data records")
        | some lowest =>
          if s.dataBytes = 0 ∨ s.highestAddress < 0 then
            .error (.hexFileError "firmware has no application data records")
          else if !s.occupied 0 then
            .error (.hexFileError "firmware must include the application reset vector at address 0")
          else return {
            path := path
            size := source.length
            sha256 := Sha256.hexdigest source
            records := s.recordCount
            dataBytes := s.dataBytes
            lowestAddress := lowest
            highestAddress := s.highestAddress }

end HexFile
end Cul868Flasher
