import Cul868Flasher.Effects.Timeline
import Cul868Flasher.Effects.Triples
import Cul868Flasher.Flasher.Led
import Cul868Flasher.Python.Buffer

/-!
# Commands of an open serial session

`Tty` is the terminal below a session: the clock, the two uses of `select`, and
single reads and writes. A command is written whole; its answer is searched for
in everything that has been read since.
-/

namespace Cul868Flasher
open Python Effects

inductive TtyOp where
  | monotonic
  | selectRead (timeout : ℚ)
  | read (maximum : ℕ)
  | selectWrite (timeout : ℚ)
  | write (data : List UInt8)

/-- The text is that of an `OSError`. Both uses of `select` stand outside every `try`. -/
def Tty : Interface where
  Op := TtyOp
  Ans
    | .monotonic => ℚ
    | .selectRead _ => Except Exn Bool
    | .read _ => Except String (List UInt8)
    | .selectWrite _ => Except Exn Bool
    | .write _ => Except String ℤ

abbrev TtyProgram (α : Type) := Prog Tty Exn α

namespace Serial

def monotonic : TtyProgram ℚ := Prog.perform (I := Tty) .monotonic

def selectRead (timeout : ℚ) : TtyProgram Bool := do
  let answer : Except Exn Bool ← Prog.perform (I := Tty) (.selectRead timeout)
  .ofExcept answer

def selectWrite (timeout : ℚ) : TtyProgram Bool := do
  let answer : Except Exn Bool ← Prog.perform (I := Tty) (.selectWrite timeout)
  .ofExcept answer

def read (maximum : ℕ) : TtyProgram (Except String (List UInt8)) :=
  Prog.perform (I := Tty) (.read maximum)

def write (data : List UInt8) : TtyProgram (Except String ℤ) :=
  Prog.perform (I := Tty) (.write data)

def culSerialError (message : String) : Exn := ⟨.other, message, []⟩

def readLimit : ℕ := 2 * 1024

def bytes (text : String) : List UInt8 := text.toList.map fun c => UInt8.ofNat c.toNat

/-! ## The commands and their answers -/

inductive Query where
  | version
  | uptime
  | mbus
  deriving DecidableEq

def versionPrefixes : List (List UInt8) := [bytes "V ", bytes "VTS "]

def mbusModes : List (List UInt8) := [bytes "SMODE", bytes "TMODE", bytes "CMODE", bytes "OFF"]

def hexDigits : List UInt8 := bytes "0123456789abcdefABCDEF"

namespace Query

def command : Query → List UInt8
  | .version => bytes "V\r\n"
  | .uptime => bytes "t\r\n"
  | .mbus => bytes "b\r\n"

def accepts : Query → List UInt8 → Bool
  | .version, value => versionPrefixes.any fun start => start.isPrefixOf value
  | .uptime, value => value.length = 8 && value.all hexDigits.contains
  | .mbus, value => mbusModes.contains value

def description : Query → String
  | .version => "V"
  | .uptime => "uptime"
  | .mbus => "M-Bus"

def notAscii (q : Query) : Exn := culSerialError s!"CUL {q.description} response is not ASCII"

def exceeded (q : Query) : Exn :=
  culSerialError s!"CUL {q.description} response exceeded the safe read limit"

def unanswered (q : Query) : Exn :=
  culSerialError s!"CUL did not answer the {q.description} command before the timeout"

end Query

/-! ## Writing the command -/

def writeStep (deadline : ℚ) (view : List UInt8) : TtyProgram (List UInt8 ⊕ Unit) := do
  if view = [] then return .inr ()
  else
    let now ← monotonic
    let writable ← selectWrite (max 0 (deadline - now))
    match writable with
    | false => .raise (culSerialError "CUL serial write timed out")
    | true =>
      let written ← write view
      match written with
      | .error err => .raise (culSerialError s!"CUL serial write failed: {err}")
      | .ok written =>
        if written ≤ 0 then .raise (culSerialError "CUL serial write made no progress")
        else return .inl (view.drop written.toNat)

variable (fuel : ℕ) (timeout : ℚ)

def writeAll (data : List UInt8) : TtyProgram Unit := do
  let start ← monotonic
  .loop (writeStep (start + timeout)) fuel data

/-! ## Reading the answer -/

def isLineEnd (b : UInt8) : Bool := b = 13 || b = 10

/-- `response.replace(b"\r", b"\n").split(b"\n")` -/
def bufferedLines (response : List UInt8) : List (List UInt8) :=
  (response.map fun b => if b = 13 then 10 else b).splitOn 10

/-- What a grown response comes to: an answer, an error, or more reading. -/
def examine (q : Query) (response : List UInt8) : Except Exn (List UInt8 ⊕ String) :=
  match (bufferedLines response).find? q.accepts with
  | some line =>
    match decodeAscii line with
    | some text => .ok (.inr (String.ofList text))
    | none => .error q.notAscii
  | none => if readLimit ≤ response.length then .error q.exceeded else .ok (.inl response)

def readStep (q : Query) (deadline : ℚ) (response : List UInt8) :
    TtyProgram (List UInt8 ⊕ String) := do
  let now ← monotonic
  if deadline ≤ now then .raise q.unanswered
  else
    let now ← monotonic
    let readable ← selectRead (max 0 (deadline - now))
    match readable with
    | false => .raise q.unanswered
    | true =>
      let chunk ← read (min 256 (readLimit - response.length))
      match chunk with
      | .error err => .raise (culSerialError s!"CUL serial read failed: {err}")
      | .ok chunk =>
        if chunk = [] then return .inl response
        else .ofExcept (examine q (response ++ chunk))

def readLine (q : Query) : TtyProgram String := do
  let start ← monotonic
  .loop (readStep q (start + timeout)) fuel []

def requestLine (q : Query) : TtyProgram String := do
  writeAll fuel timeout q.command
  readLine fuel timeout q

def version : TtyProgram String := do
  let response ← requestLine fuel timeout .version
  if !Flasher.contains response "CUL868" then
    .raise (culSerialError
      "selected USB device did not identify itself as CUL868 in response to V")
  else return response

/-- The ticks are read by `int(line, 16)`. -/
def uptimeTicks : TtyProgram ℕ := do
  let line ← requestLine fuel timeout .uptime
  return line.toList.foldl (fun n c => 16 * n + (hexDigit c).getD 0) 0

def mbusMode : TtyProgram String := requestLine fuel timeout .mbus

/-! ## Facts about lines and answers -/

theorem bufferedLines_eq (response : List UInt8) :
    bufferedLines response = response.splitOnP isLineEnd := by
  induction response with
  | nil => rfl
  | cons b response ih =>
    rw [bufferedLines] at ih
    rw [bufferedLines, List.map_cons, List.splitOn_cons_eq_if_modifyHead, ih,
      List.splitOnP_cons_eq_if_modifyHead]
    by_cases hb : b = 13
    · simp [hb, isLineEnd]
    · by_cases hb' : b = 10
      · simp [hb', isLineEnd]
      · simp [hb, hb', isLineEnd]

theorem decodeAscii_bytes {line : List UInt8} (h : ∀ b ∈ line, b < 128) :
    ∃ text, decodeAscii line = some text :=
  ⟨_, decodeAscii_iff.mpr ⟨fun b hb => UInt8.lt_iff_toNat_lt.mp (h b hb), rfl⟩⟩

theorem decodeAscii_injective {l l' : List UInt8} {text : List Char} (h : decodeAscii l = some text)
    (h' : decodeAscii l' = some text) : l = l' := by
  obtain ⟨hl, rfl⟩ := decodeAscii_iff.mp h
  obtain ⟨hl', heq⟩ := decodeAscii_iff.mp h'
  have hback {m : List UInt8} (hm : ∀ b ∈ m, b.toNat < 128) :
      (m.map fun b => Char.ofNat b.toNat).map (fun c => UInt8.ofNat c.toNat) = m := by
    rw [List.map_map]
    refine (List.map_congr_left fun b hb => ?_).trans (List.map_id m)
    simp [toNat_ofByte (hm b hb)]
  rw [← hback hl, ← hback hl', heq]

theorem Query.not_accepts_nil (q : Query) : q.accepts [] = false := by
  cases q <;> decide

/-- The version line matches as soon as its prefix is there. -/
theorem Query.version_minimal {line : List UInt8} {b : UInt8}
    (h : Query.version.accepts (line ++ [b]) = true) (hline : Query.version.accepts line = false) :
    line ++ [b] ∈ versionPrefixes := by
  obtain ⟨start, hstart, hprefix⟩ := List.any_eq_true.mp h
  rw [List.isPrefixOf_iff_prefix] at hprefix
  rcases List.prefix_concat_iff.mp hprefix with heq | hearlier
  · rw [← heq]
    exact hstart
  · have haccepts : Query.version.accepts line = true :=
      List.any_eq_true.mpr ⟨start, hstart, List.isPrefixOf_iff_prefix.mpr hearlier⟩
    rw [haccepts] at hline
    cases hline

/-- When a line that is being received comes to match, it is ASCII. -/
theorem Query.accepts_ascii {q : Query} {line : List UInt8} {b : UInt8}
    (h : q.accepts (line ++ [b]) = true) (hline : q.accepts line = false) :
    ∀ x ∈ line ++ [b], x < 128 := by
  have hascii {bytes : List UInt8} (h : bytes.all (· < 128) = true) : ∀ x ∈ bytes, x < 128 :=
    fun x hx => of_decide_eq_true (List.all_eq_true.mp h x hx)
  have hprefixes : ∀ start ∈ versionPrefixes, ∀ x ∈ start, x < 128 := fun start hstart =>
    hascii (List.all_eq_true.mp (show versionPrefixes.all (·.all (· < 128)) = true by decide) start
      hstart)
  have hdigits : ∀ x ∈ hexDigits, x < 128 := hascii (by decide)
  have hmodes : ∀ mode ∈ mbusModes, ∀ x ∈ mode, x < 128 := fun mode hmode =>
    hascii (List.all_eq_true.mp (show mbusModes.all (·.all (· < 128)) = true by decide) mode hmode)
  cases q with
  | version => exact hprefixes _ (version_minimal h hline)
  | uptime =>
    intro x hx
    have hall := (Bool.and_eq_true_iff.mp h).2
    exact hdigits x (List.contains_iff_mem.mp (List.all_eq_true.mp hall x hx))
  | mbus => exact hmodes _ (List.contains_iff_mem.mp h)

end Serial
end Cul868Flasher
