import Cul868Flasher.Ingress.Api
import Cul868Flasher.Python.JsonLimits
import Cul868Flasher.Python.Url

/-!
# POST requests

`Handler.do_POST` for a request that has passed the proxy and header checks. It
reads the body, calls the API and maps four classes of exceptions to a response;
any other exception leaves it before a response is sent.
-/

namespace Cul868Flasher
open Python Effects

inductive HttpOp where
  | app (o : AppOp)
  /-- `_json`: a JSON response with this status. -/
  | respond (status : ℕ) (payload : List (String × Json))

abbrev Http : Interface where
  Op := HttpOp
  Ans
    | .app o => App.Ans o
    | .respond _ _ => Unit

abbrev HttpProgram (α : Type) := Prog Http Exn α

def httpCall (o : HttpOp) : HttpProgram (Http.Ans o) := Prog.perform (I := Http) o

/-- A method of the API, run by the thread of a handler. -/
def onApp (p : AppProgram α) : HttpProgram α := p.handle fun o => httpCall (.app o)

structure PostRequest where
  target : String
  /-- `headers.get_content_type()`. -/
  contentType : String
  contentLength : Option String
  /-- The header `X-Ingress-Path`, empty when there is none. -/
  ingressPath : String

/-! ## The body -/

def maxJsonBytes : ℕ := 8 * 1024

/-- `sys.int_info.default_max_str_digits`. -/
def maxStrDigits : ℕ := 4300

/-- `bytes.decode("utf-8")`; `none` is its `UnicodeDecodeError`. -/
def decodeUtf8 (bs : List UInt8) : Option (List Char) :=
  (String.fromUTF8? ⟨bs.toArray⟩).map String.toList

/-- `header.isascii() and header.isdecimal()`. -/
def isDecimalHeader (header : String) : Bool :=
  header.toList ≠ [] && header.toList.all Char.isDigit

/-- `int` of a text of decimal digits. -/
def intOfDigits (digits : List Char) : Except Exn ℕ :=
  if maxStrDigits < digits.length then .error (.valueError (
    s!"Exceeds the limit ({maxStrDigits} digits) for integer string conversion: value has " ++
      s!"{digits.length} digits; use sys.set_int_max_str_digits() to increase the limit"))
  else .ok (decimal digits)

namespace Handler

def contentLength (header : Option String) (maximum : ℕ) : Except Exn ℕ :=
  match header with
  | none => .error (.ingressError "request requires a valid Content-Length")
  | some header =>
    if !isDecimalHeader header then
      .error (.ingressError "request requires a valid Content-Length")
    else do
      let size ← intOfDigits header.toList
      if size < 1 ∨ maximum < size then
        .error (.ingressError s!"request body must be between 1 and {maximum} bytes")
      else return size

def recursionError : Exn := ⟨.other, "maximum recursion depth exceeded", []⟩

/-- The dictionary in a body; `depth` is how deep the interpreter recurses. -/
def jsonObject (depth : ℕ) (body : List UInt8) : Except Exn (List (String × Json)) :=
  let refused : Exn := .ingressError "request body must be a JSON object"
  match decodeUtf8 body with
  | none => .error refused
  | some text =>
    match Json.loadsWithin maxStrDigits depth text with
    | .ok (.obj fields) => .ok fields
    | .ok _ => .error refused
    | .error .malformed => .error refused
    | .error .tooManyDigits =>
      .error
        (.valueError s!"Exceeds the limit ({maxStrDigits} digits) for integer string conversion")
    | .error .tooDeep => .error recursionError

def jsonBody (depth : ℕ) (request : PostRequest) : HttpProgram (List (String × Json)) := do
  let size ← .ofExcept (contentLength request.contentLength maxJsonBytes)
  let answer : Except Exn (List UInt8) ← httpCall (.app (.read size))
  let body ← .ofExcept answer
  .ofExcept (jsonObject depth body)

/-! ## The path -/

def rstripSlashes (cs : List Char) : List Char := (cs.reverse.dropWhile (· = '/')).reverse

/-- `none` is the `ValueError` of `urlsplit`. -/
def relativePath (netlocAllowed : List Char → Bool) (request : PostRequest) :
    Option (List Char) := do
  let path ← urlPath netlocAllowed request.target.toList
  let ingressPath := rstripSlashes request.ingressPath.toList
  if ingressPath ≠ [] ∧ (path = ingressPath ∨ (ingressPath ++ ['/']).isPrefixOf path = true) then
    let rest := path.drop ingressPath.length
    return if rest = [] then ['/'] else rest
  else return path

/-- The branches of `do_POST`. -/
inductive Route where
  | validateUpload
  | flash
  | led
  | diagnostics
  | unknown
  deriving DecidableEq

def routeOf (path : List Char) : Route :=
  if path = "/api/validate-upload".toList then .validateUpload
  else if path = "/api/flash".toList then .flash
  else if path = "/api/led".toList then .led
  else if path = "/api/diagnostics".toList then .diagnostics
  else .unknown

def route (netlocAllowed : List Char → Bool) (request : PostRequest) : Except Exn Route :=
  match relativePath netlocAllowed request with
  | none => .error (.valueError "Invalid IPv6 URL")
  | some path => .ok (routeOf path)

/-! ## The responses -/

def optional (text : Option String) : Json :=
  match text with
  | none => .null
  | some text => .str text

def optionalInt (n : Option ℕ) : Json :=
  match n with
  | none => .null
  | some n => .int n

/-- `f"{n:04x}"`: the sign counts for the width. -/
def hex4 (n : ℤ) : List Char :=
  let digits := Nat.toDigits 16 n.natAbs
  if n < 0 then '-' :: (List.replicate (3 - digits.length) '0' ++ digits)
  else List.replicate (4 - digits.length) '0' ++ digits

def modeText : PlanMode → String
  | .application => "application"
  | .recovery => "recovery"
  | .manualRecovery => "manual-recovery"

/-- `preflight.as_dict()`. -/
def preflightDocument (preflight : FlashPreflight) : List (String × Json) :=
  [("mode", .str (modeText preflight.mode)),
    ("topology", .str preflight.topology),
    ("message", .str preflight.message),
    ("requires_unpaired_recovery_confirmation", .bool preflight.manualRecovery.isSome)]

def firmwareDocument (image : HexImage) : List (String × Json) :=
  [("sha256", .str image.sha256),
    ("file_bytes", .int image.size),
    ("application_bytes", .int image.dataBytes),
    ("address_range", .str (String.ofList
      ("0x".toList ++ hex4 image.lowestAddress ++ "-0x".toList ++ hex4 image.highestAddress)))]

def validationDocument (v : IngressApi.Validation) : List (String × Json) :=
  [("artifact_id", .str v.artifactId),
    ("firmware", .obj (firmwareDocument v.image)),
    ("preflight", .obj (preflightDocument v.preflight))]

def flashDocument (operationId : String) : List (String × Json) :=
  [("operation_id", .str operationId), ("state", .str "queued")]

def ledDocument (r : LedResult) : List (String × Json) :=
  [("mode", .str r.mode.text), ("version", .str r.version), ("message", .str r.message)]

def diagnosticsDocument (r : DiagnosticsResult) : List (String × Json) :=
  [("version", .str r.version),
    ("uptime_ticks", optionalInt r.telemetry.uptimeTicks),
    ("uptime_seconds", optionalInt r.uptimeSeconds),
    ("uptime_status_error", optional r.telemetry.uptimeStatusError),
    ("mbus_mode", optional r.telemetry.mbusMode),
    ("mbus_status_error", optional r.telemetry.mbusStatusError),
    ("message", .str "Read-only CUL diagnostics completed after V verification.")]

def json (status : ℕ) (payload : List (String × Json)) : HttpProgram Unit :=
  httpCall (.respond status payload)

def jsonError (status : ℕ) (message : String) : HttpProgram Unit :=
  json status [("error", .str (String.ofList (message.toList.take 512)))]

/-! ## `do_POST` -/

variable (netlocAllowed : List Char → Bool) (depth fuel : ℕ) (settings : Settings)

/-- The calls of the `try` block; `none` is the response to an unknown path. -/
def serve (request : PostRequest) : Route → HttpProgram (Option (List (String × Json)))
  | .validateUpload =>
    if request.contentType ≠ "application/octet-stream" then
      .raise (.ingressError "firmware upload must use application/octet-stream")
    else do
      let size ← .ofExcept (contentLength request.contentLength maxHexFileBytes)
      let validation ← onApp (IngressApi.validateUpload settings size)
      return some (validationDocument validation)
  | .flash => do
    let body ← jsonBody depth request
    let operationId ← onApp (IngressApi.flash (Json.get body "artifact_id")
      (Json.get body "confirm") (Json.get body "confirm_unpaired_recovery"))
    return some (flashDocument operationId)
  | .led => do
    let body ← jsonBody depth request
    let result ← onApp (IngressApi.setLed fuel settings (Json.get body "mode"))
    return some (ledDocument result)
  | .diagnostics => do
    let body ← jsonBody depth request
    if body ≠ [] then
      .raise (.ingressError "diagnostic request must be an empty JSON object")
    else do
      let result ← onApp (IngressApi.diagnostics fuel settings)
      return some (diagnosticsDocument result)
  | .unknown => return none

def isRefusal (e : Exn) : Bool :=
  e.cls = .ingressError || e.isHexFileError || e.isFlashError

/-- The `except` clauses. -/
def answer : Except Exn (Option (List (String × Json))) → HttpProgram Unit
  | .ok (some payload) => json 200 payload
  | .ok none => jsonError 404 "resource was not found"
  | .error err =>
    if err.cls = .operationBusyError then jsonError 409 err.message
    else if isRefusal err then jsonError 400 err.message
    else .raise err

def doPost (request : PostRequest) : HttpProgram Unit := do
  let outcome ← (do
    let branch ← Prog.ofExcept (route netlocAllowed request)
    serve depth fuel settings request branch).attempt
  answer outcome

end Handler
end Cul868Flasher
