import Cul868Flasher.Ingress.Http

/-!
# The Ingress page

The handlers of the page around a flash. A handler that awaits the server is cut
there: what it does with the response is an event of its own, and the responses
arrive in any order. Nothing ties a response to the selection it was asked for.
-/

namespace Cul868Flasher
open Python

namespace Script

/-- The values that count as true. A float that is zero prints as one of the two. -/
def truthy : Json → Bool
  | .null => false
  | .bool b => b
  | .int n => n ≠ 0
  | .float digits => digits ≠ "0.0" && digits ≠ "-0.0"
  | .str s => s ≠ ""
  | .arr _ => true
  | .obj _ => true

/-- `a || b`. -/
def orElse (a b : Json) : Json := if truthy a then a else b

/-- A property of a value that is not `null`. A missing one is falsy, like `null`. -/
def property (value : Json) (key : String) : Json :=
  match value with
  | .obj fields => Json.get fields key
  | _ => .null

/-- The parts a template literal joins. Every value is taken to have a text. -/
abbrev Text := List Json

/-- How a `fetch` ends; `document` is `none` when the body is no JSON text. -/
inductive Answer where
  | rejected (message : String)
  | response (ok : Bool) (document : Option Json)

/-- What `request` resolves to, or the message it throws. `nullError` is the text of
the error for reading a property of `null`. -/
def Answer.result (nullError : String → String) : Answer → Except Text Json
  | .rejected message => .error [.str message]
  | .response ok document =>
    let payload := document.getD
      (.obj [("error", .str "The add-on returned an invalid response.")])
    if ok then .ok payload
    else match payload with
      | .null => .error [.str (nullError "error")]
      | payload => .error [orElse (property payload "error") (.str "The request failed.")]

end Script

open Script

/-- The variables of the script and the elements that its handlers share. -/
structure Page (File : Type) where
  files : List File
  artifactId : Json
  requiresUnpairedRecovery : Bool
  validateDisabled : Bool
  validationHidden : Bool
  validation : Text
  preflight : Text
  confirmationHidden : Bool
  confirmationChecked : Bool
  unpairedRecoveryHidden : Bool
  unpairedRecoveryChecked : Bool
  flashDisabled : Bool
  operationError : Option Text

/-- The body of a request to `api/flash`. -/
structure FlashRequest where
  artifactId : Json
  confirm : Bool
  confirmUnpairedRecovery : Bool

namespace Page
variable {File : Type}

/-- The page as it is loaded. -/
def loaded : Page File where
  files := []
  artifactId := .null
  requiresUnpairedRecovery := false
  validateDisabled := true
  validationHidden := true
  validation := []
  preflight := []
  confirmationHidden := true
  confirmationChecked := false
  unpairedRecoveryHidden := true
  unpairedRecoveryChecked := false
  flashDisabled := true
  operationError := none

def updateFlashButton (p : Page File) : Page File :=
  { p with
    flashDisabled := !truthy p.artifactId || !p.confirmationChecked ||
      (p.requiresUnpairedRecovery && !p.unpairedRecoveryChecked) }

/-- The `change` handler of the file input. -/
def selected (files : List File) (p : Page File) : Page File :=
  { updateFlashButton { p with
      files := files
      artifactId := .null
      requiresUnpairedRecovery := false
      confirmationHidden := true
      confirmationChecked := false
      unpairedRecoveryChecked := false
      unpairedRecoveryHidden := true } with
    validationHidden := true
    validateDisabled := files.length ≠ 1 }

def confirmed (checked : Bool) (p : Page File) : Page File :=
  updateFlashButton { p with confirmationChecked := checked }

def unpairedRecoveryConfirmed (checked : Bool) (p : Page File) : Page File :=
  updateFlashButton { p with unpairedRecoveryChecked := checked }

def validatingText : Text := [.str "Validating Intel HEX structure and CUL USB target..."]

/-- The `click` handler of the validate button up to its request. -/
def validateClicked (p : Page File) : Page File × Option File :=
  match p.files.head? with
  | none => (p, none)
  | some file => ({ p with
      validateDisabled := true
      validationHidden := false
      validation := validatingText }, some file)

def firmware (payload : Json) : Json := orElse (property payload "firmware") (.obj [])

def target (payload : Json) : Json := orElse (property payload "preflight") (.obj [])

def isTrue : Json → Bool
  | .bool b => b
  | _ => false

def requiresConfirmation (payload : Json) : Bool :=
  isTrue (property (target payload) "requires_unpaired_recovery_confirmation")

/-- The SHA-256 is shown with the size of the application. -/
def validatedText (payload : Json) : Text :=
  [.str "Validated ", orElse (property (firmware payload) "application_bytes") (.int 0),
    .str " application bytes, SHA-256 ",
    orElse (property (firmware payload) "sha256") (.str "unknown"), .str "."]

/-- The `try` block, from its response on. -/
def accept (payload : Json) (p : Page File) : Page File :=
  updateFlashButton { p with
    artifactId := property payload "artifact_id"
    requiresUnpairedRecovery := requiresConfirmation payload
    unpairedRecoveryChecked := false
    unpairedRecoveryHidden := !requiresConfirmation payload
    validation := validatedText payload
    preflight := [orElse (property (target payload) "message")
      (.str "CUL target preflight completed.")]
    confirmationHidden := false }

/-- The `catch` block. -/
def reject (message : Text) (p : Page File) : Page File :=
  { updateFlashButton { p with
      artifactId := .null
      requiresUnpairedRecovery := false
      unpairedRecoveryChecked := false
      unpairedRecoveryHidden := true
      confirmationHidden := true } with
    validation := message }

/-- What the page reads in the response to a validation. -/
theorem validationDocument_read (v : IngressApi.Validation) :
    property (.obj (Handler.validationDocument v)) "artifact_id" = .str v.artifactId ∧
      requiresConfirmation
        (.obj (Handler.validationDocument v)) = v.preflight.manualRecovery.isSome ∧
      (v.image.sha256 ≠ "" → validatedText (.obj (Handler.validationDocument v)) =
        [.str "Validated ", .int v.image.dataBytes, .str " application bytes, SHA-256 ",
          .str v.image.sha256, .str "."]) := by
  refine ⟨rfl, rfl, fun hsha => ?_⟩
  have hbytes : orElse (.int v.image.dataBytes) (.int 0) = .int v.image.dataBytes := by
    by_cases h : v.image.dataBytes = 0
    · rw [h]
      rfl
    · simp [orElse, truthy, h]
  have hshown : orElse (.str v.image.sha256) (.str "unknown") = .str v.image.sha256 := by
    simp [orElse, truthy, hsha]
  change [_, orElse (.int v.image.dataBytes) (.int 0), _,
    orElse (.str v.image.sha256) (.str "unknown"), _] = _
  rw [hbytes, hshown]

variable (nullError : String → String)

/-- The rest of the `click` handler of the validate button. -/
def validationAnswered (answer : Answer) (p : Page File) : Page File :=
  { (match answer.result nullError with
      | .ok .null => reject [.str (nullError "artifact_id")] p
      | .ok payload => accept payload p
      | .error message => reject message p) with
    validateDisabled := false }

/-- The `click` handler of the flash button up to its request. -/
def flashClicked (p : Page File) : Page File × Option FlashRequest :=
  if !truthy p.artifactId || !p.confirmationChecked then (p, none)
  else ({ p with flashDisabled := true },
    some ⟨p.artifactId, true, p.requiresUnpairedRecovery⟩)

/-- The rest of the `click` handler of the flash button. -/
def flashAnswered (answer : Answer) (p : Page File) : Page File :=
  match answer.result nullError with
  | .ok _ => { p with
      artifactId := .null
      requiresUnpairedRecovery := false
      unpairedRecoveryChecked := false
      unpairedRecoveryHidden := true
      confirmationHidden := true
      validationHidden := true }
  | .error message => updateFlashButton { p with operationError := some message }

end Page

/-! ## Runs of the page -/

inductive PageEvent (File : Type) where
  | selected (files : List File)
  | confirmed (checked : Bool)
  | unpairedRecoveryConfirmed (checked : Bool)
  | validateClicked
  /-- The response to the `i`-th of the validations under way. -/
  | validationAnswered (i : ℕ) (answer : Answer)
  | flashClicked
  | flashAnswered (i : ℕ) (answer : Answer)

structure Browser (File : Type) where
  page : Page File
  /-- The files whose validation is under way. -/
  validating : List File
  flashing : List FlashRequest
  /-- The validations that have succeeded so far. -/
  validated : List (File × Json)

namespace Browser
variable {File : Type} (nullError : String → String)

def loaded : Browser File := ⟨.loaded, [], [], []⟩

/-- The next state. A disabled button is not clicked, and only a request that is
under way is answered. -/
def after (b : Browser File) : PageEvent File → Option (Browser File)
  | .selected files => some { b with page := b.page.selected files }
  | .confirmed checked => some { b with page := b.page.confirmed checked }
  | .unpairedRecoveryConfirmed checked =>
    some { b with page := b.page.unpairedRecoveryConfirmed checked }
  | .validateClicked =>
    if b.page.validateDisabled then none
    else some { b with
      page := b.page.validateClicked.1
      validating := b.validating ++ b.page.validateClicked.2.toList }
  | .validationAnswered i answer =>
    match b.validating[i]? with
    | none => none
    | some file => some { b with
        page := b.page.validationAnswered nullError answer
        validating := b.validating.eraseIdx i
        validated := match answer.result nullError with
          | .ok payload => b.validated ++ [(file, payload)]
          | .error _ => b.validated }
  | .flashClicked =>
    if b.page.flashDisabled then none
    else some { b with
      page := b.page.flashClicked.1
      flashing := b.flashing ++ b.page.flashClicked.2.toList }
  | .flashAnswered i answer =>
    if i < b.flashing.length then some { b with
      page := b.page.flashAnswered nullError answer
      flashing := b.flashing.eraseIdx i }
    else none

/-- The runs whose steps all meet `C`, by the state they end in. -/
inductive Run (C : Browser File → PageEvent File → Prop) : Browser File → Prop where
  | loaded : Run C .loaded
  | step {b b' : Browser File} {e : PageEvent File} (before : Run C b) (meets : C b e)
      (next : b.after nullError e = some b') : Run C b'

/-- The server has validated the selected file with this payload, and the page goes
by it: its artifact, its target and, when one is shown, its SHA-256. -/
def GoesBy (b : Browser File) (file : File) (payload : Json) : Prop :=
  (file, payload) ∈ b.validated ∧ b.page.files.head? = some file ∧
    b.page.artifactId = property payload "artifact_id" ∧
    b.page.requiresUnpairedRecovery = Page.requiresConfirmation payload ∧
    (b.page.validation = Page.validatedText payload ∨ b.page.validation = Page.validatingText)

/-- The flash button is only enabled for the selected file. -/
def FlashesSelection (b : Browser File) : Prop :=
  b.page.flashDisabled = false → ∃ file payload, b.GoesBy file payload

/-- A validation that yields an artifact is answered while its file is the selected
one, and a flash is accepted while its button is disabled. -/
def Timely (b : Browser File) : PageEvent File → Prop
  | .validationAnswered i answer => ∀ file payload, b.validating[i]? = some file →
      answer.result nullError = .ok payload → truthy (property payload "artifact_id") = true →
      b.page.files.head? = some file
  | .flashAnswered _ answer => ∀ payload, answer.result nullError = .ok payload →
      b.page.flashDisabled = true
  | _ => True

variable {nullError}

/-! ### What a step keeps -/

/-- An artifact is one of the selected file, and the flash button needs an artifact. -/
structure Bound (b : Browser File) : Prop where
  artifact : truthy b.page.artifactId = true → ∃ file payload, b.GoesBy file payload
  enabled : b.page.flashDisabled = false → truthy b.page.artifactId = true

variable {b b' : Browser File} {e : PageEvent File}

theorem updateFlashButton_enabled {p : Page File} (h : p.updateFlashButton.flashDisabled = false) :
    truthy p.artifactId = true := by
  simp only [Page.updateFlashButton, Bool.or_eq_false_iff, Bool.not_eq_false'] at h
  exact h.1.1

/-- Without an artifact the button has to stay disabled. -/
theorem Bound.of_null (hnull : b.page.artifactId = .null) (h : b.page.flashDisabled = true) :
    Bound b where
  artifact := by rw [hnull]; exact nofun
  enabled := by rw [h]; exact nofun

/-- A request for a validation leaves everything as it is but the notice. -/
theorem GoesBy.validateClicked {file : File} {payload : Json} (h : b.GoesBy file payload)
    (validating : List File) : GoesBy
      { b with page := b.page.validateClicked.1, validating := validating } file payload := by
  obtain ⟨hmem, hfile, hartifact, hrequires, -⟩ := h
  have hpage : b.page.validateClicked.1 = { b.page with
      validateDisabled := true
      validationHidden := false
      validation := Page.validatingText } := by
    rw [Page.validateClicked, hfile]
  refine ⟨hmem, ?_, ?_, ?_, .inr ?_⟩ <;> simp [hpage, hfile, hartifact, hrequires]

/-- The page as a response leaves it. -/
theorem validationAnswered_cases (answer : Answer) (p : Page File) :
    (∃ message, p.validationAnswered nullError answer =
      { p.reject message with validateDisabled := false }) ∨
    ∃ payload, answer.result nullError = .ok payload ∧
      p.validationAnswered nullError answer =
        { p.accept payload with validateDisabled := false } := by
  cases hresult : answer.result nullError with
  | error message => exact .inl ⟨message, by simp only [Page.validationAnswered, hresult]⟩
  | ok payload =>
    cases payload with
    | null => exact .inl ⟨[.str (nullError "artifact_id")], by
        simp only [Page.validationAnswered, hresult]⟩
    | _ => exact .inr ⟨_, rfl, by simp only [Page.validationAnswered, hresult]⟩

theorem Bound.after (hb : Bound b) (ht : Timely nullError b e)
    (hs : b.after nullError e = some b') : Bound b' := by
  cases e with
  | selected files =>
    cases hs
    exact .of_null rfl rfl
  | confirmed checked =>
    cases hs
    exact ⟨hb.artifact, updateFlashButton_enabled⟩
  | unpairedRecoveryConfirmed checked =>
    cases hs
    exact ⟨hb.artifact, updateFlashButton_enabled⟩
  | validateClicked =>
    simp only [Browser.after] at hs
    split at hs
    · cases hs
    · cases hs
      have hsame : b.page.validateClicked.1.artifactId = b.page.artifactId ∧
          b.page.validateClicked.1.flashDisabled = b.page.flashDisabled := by
        unfold Page.validateClicked
        split <;> exact ⟨rfl, rfl⟩
      refine ⟨fun h => ?_, fun h => ?_⟩
      · obtain ⟨file, payload, hgoes⟩ := hb.artifact (by rwa [hsame.1] at h)
        exact ⟨file, payload, hgoes.validateClicked _⟩
      · rw [hsame.1]
        exact hb.enabled (by rwa [hsame.2] at h)
  | validationAnswered i answer =>
    simp only [Browser.after] at hs
    split at hs
    · cases hs
    · rename_i file hfile
      cases hs
      rcases validationAnswered_cases answer b.page with
        ⟨message, hpage⟩ | ⟨payload, hresult, hpage⟩
      · exact .of_null (by rw [hpage]; rfl) (by rw [hpage]; rfl)
      · refine ⟨fun h => ⟨file, payload, ?_⟩, fun h => ?_⟩
        · rw [hpage] at h
          have hselected := ht file payload hfile hresult h
          refine ⟨?_, ?_, ?_, ?_, .inl ?_⟩
          · simp [hresult]
          · rw [hpage]
            exact hselected
          all_goals rw [hpage]; rfl
        · rw [hpage] at h ⊢
          exact updateFlashButton_enabled h
  | flashClicked =>
    simp only [Browser.after] at hs
    split at hs
    · cases hs
    · cases hs
      have hpage : b.page.flashClicked.1 = b.page ∨
          b.page.flashClicked.1 = { b.page with flashDisabled := true } := by
        unfold Page.flashClicked
        split
        · exact .inl rfl
        · exact .inr rfl
      rcases hpage with hpage | hpage
      · rw [hpage]
        exact ⟨hb.artifact, hb.enabled⟩
      · rw [hpage]
        exact ⟨hb.artifact, nofun⟩
  | flashAnswered i answer =>
    simp only [Browser.after] at hs
    split at hs
    · cases hs
      cases hresult : answer.result nullError with
      | ok payload =>
        have hdisabled := ht payload hresult
        exact .of_null (by simp only [Page.flashAnswered, hresult])
          (by simpa only [Page.flashAnswered, hresult] using hdisabled)
      | error message =>
        have hpage : b.page.flashAnswered nullError answer =
            Page.updateFlashButton { b.page with operationError := some message } := by
          simp only [Page.flashAnswered, hresult]
        rw [hpage]
        exact ⟨hb.artifact, updateFlashButton_enabled⟩
    · cases hs

theorem Run.bound (h : Run nullError (Timely nullError) b) : Bound b := by
  induction h with
  | loaded => exact .of_null rfl rfl
  | step _ ht hs ih => exact ih.after ht hs

/-- In every run whose responses are timely, the flash button is only ever enabled
for the selected file. -/
theorem flashesSelection_of_timely (h : Run nullError (Timely nullError) b) :
    b.FlashesSelection := fun henabled => h.bound.artifact (h.bound.enabled henabled)

/-- A click on the flash button then asks for the artifact of the selected file, with
the consent that its target needs. -/
theorem flashClicked_of_timely (h : Run nullError (Timely nullError) b)
    (henabled : b.page.flashDisabled = false) {request : FlashRequest}
    (hclick : b.page.flashClicked.2 = some request) :
    ∃ file payload, b.GoesBy file payload ∧
      request = ⟨property payload "artifact_id", true, Page.requiresConfirmation payload⟩ := by
  obtain ⟨file, payload, hgoes⟩ := h.bound.artifact (h.bound.enabled henabled)
  refine ⟨file, payload, hgoes, ?_⟩
  obtain ⟨-, -, hartifact, hrequires, -⟩ := hgoes
  unfold Page.flashClicked at hclick
  split at hclick
  · cases hclick
  · cases hclick
    rw [hartifact, hrequires]

/-- The hypothesis is met by a run that comes as far as the flash button. -/
theorem flashesSelection_of_timely_confirmed :
    ∃ b : Browser String, Run id (Timely id) b ∧ b.page.flashDisabled = false ∧
      b.FlashesSelection := by
  have h : Run id (Timely id) (Browser.loaded : Browser String) := .loaded
  replace h := h.step (e := .selected ["a.hex"]) trivial rfl
  replace h := h.step (e := .validateClicked) trivial rfl
  replace h := h.step (e := .validationAnswered 0 (.response true
    (some (.obj [("artifact_id", .str "t")])))) (by
      intro file payload hfile _ _
      exact hfile) rfl
  replace h := h.step (e := .confirmed true) trivial rfl
  exact ⟨_, h, rfl, flashesSelection_of_timely h⟩

/-- A late response is all it takes: with an artifact of its own it enables the flash
button as soon as the boxes are checked. -/
theorem late_response_enables {i : ℕ} {answer : Answer} {file : File} {payload : Json}
    (hfile : b.validating[i]? = some file) (hresult : answer.result nullError = .ok payload)
    (hartifact : truthy (property payload "artifact_id") = true)
    (hlate : b.page.files.head? ≠ some file)
    (hfresh : ∀ file' payload', (file', payload') ∈ b.validated →
      property payload' "artifact_id" ≠ property payload "artifact_id") :
    ∃ b₁ b₂ b₃, b.after nullError (.validationAnswered i answer) = some b₁ ∧
      b₁.after nullError (.confirmed true) = some b₂ ∧
      b₂.after nullError (.unpairedRecoveryConfirmed true) = some b₃ ∧ ¬b₃.FlashesSelection := by
  have hpage : b.page.validationAnswered nullError answer =
      { b.page.accept payload with validateDisabled := false } := by
    cases payload with
    | null => cases hartifact
    | _ => simp only [Page.validationAnswered, hresult]
  have hnext : b.after nullError (.validationAnswered i answer) = some { b with
      page := { b.page.accept payload with validateDisabled := false }
      validating := b.validating.eraseIdx i
      validated := b.validated ++ [(file, payload)] } := by
    simp only [Browser.after, hfile, hresult, hpage]
  refine ⟨_, _, _, hnext, rfl, rfl, fun h => ?_⟩
  obtain ⟨file', payload', hmem, hfile', hid, -⟩ := h (by
    change (!truthy (property payload "artifact_id") || !true ||
      (Page.requiresConfirmation payload && !true)) = false
    simp [hartifact])
  rcases List.mem_append.mp hmem with hmem | hmem
  · exact hfresh file' payload' hmem hid.symm
  · cases List.mem_singleton.mp hmem
    exact hlate hfile'

/-- A response for a file that is not selected any more enables the flash button. -/
theorem late_response_flashes :
    ¬ ∀ (nullError : String → String) (b : Browser String),
      Run nullError (fun _ _ => True) b → b.FlashesSelection := by
  intro hall
  have h : Run id (fun _ _ => True) (Browser.loaded : Browser String) := .loaded
  replace h := h.step (e := .selected ["a.hex"]) trivial rfl
  replace h := h.step (e := .validateClicked) trivial rfl
  replace h := h.step (e := .selected ["b.hex"]) trivial rfl
  replace h := h.step (e := .validationAnswered 0 (.response true
    (some (.obj [("artifact_id", .str "t")])))) trivial rfl
  replace h := h.step (e := .confirmed true) trivial rfl
  obtain ⟨file, payload, hmem, hfile, -⟩ := hall id _ h rfl
  change (file, payload) ∈ [("a.hex", _)] at hmem
  cases List.mem_singleton.mp hmem
  exact absurd (Option.some.inj hfile) (by decide)

end Browser
end Cul868Flasher
