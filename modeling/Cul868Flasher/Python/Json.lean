import Mathlib.Data.Int.Notation
import Mathlib.Data.Nat.Notation

/-!
# JSON documents

The values `json.loads` builds. An object is a dictionary, so its keys are
looked up and never counted. `dumps` is `json.dumps` with `ensure_ascii` and
compact separators, for the flat documents that are written.
-/

namespace Python

inductive Json where
  | null
  | bool (b : Bool)
  | int (n : ℤ)
  | float (digits : String)
  | str (s : String)
  | arr (items : List Json)
  | obj (fields : List (String × Json))

namespace Json

/-- `document.get(key)`; a missing key reads as `None`, like `null`. -/
def get (fields : List (String × Json)) (key : String) : Json :=
  (fields.lookup key).getD .null

def hexDigitChar (n : ℕ) : Char := if n < 10 then Char.ofNat (48 + n) else Char.ofNat (87 + n)

def escapeUnit (n : ℕ) : List Char :=
  ['\\', 'u', hexDigitChar (n / 4096 % 16), hexDigitChar (n / 256 % 16), hexDigitChar (n / 16 % 16),
    hexDigitChar (n % 16)]

def escapeChar (c : Char) : List Char :=
  if c = '"' then ['\\', '"']
  else if c = '\\' then ['\\', '\\']
  else if c = '\n' then ['\\', 'n']
  else if c = '\r' then ['\\', 'r']
  else if c = '\t' then ['\\', 't']
  else if c.toNat = 12 then ['\\', 'f']
  else if c.toNat = 8 then ['\\', 'b']
  else if 32 ≤ c.toNat ∧ c.toNat ≤ 126 then [c]
  else if c.toNat < 65536 then escapeUnit c.toNat
  else escapeUnit (55296 + (c.toNat - 65536) / 1024) ++
    escapeUnit (56320 + (c.toNat - 65536) % 1024)

def dumpsString (s : String) : List Char := '"' :: s.toList.flatMap escapeChar ++ ['"']

/-- A value without parts. -/
def dumpsScalar : Json → List Char
  | .bool true => "true".toList
  | .bool false => "false".toList
  | .int n => (toString n).toList
  | .float digits => digits.toList
  | .str s => dumpsString s
  | _ => "null".toList

def dumpsFields (fields : List (String × Json)) : List Char :=
  '{' :: [','].intercalate (fields.map fun (key, value) =>
    dumpsString key ++ ':' :: dumpsScalar value) ++ ['}']

example : String.ofList (dumpsFields [("a", .str "x\"\n"), ("b", .null), ("c", .int (-7))]) =
    "\x7b\"a\":\"x\\\"\\n\",\"b\":null,\"c\":-7\x7d" := by decide +kernel

end Json
end Python
