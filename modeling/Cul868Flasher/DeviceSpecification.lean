import Cul868Flasher.Options
import Cul868Flasher.Python.Buffer
import Cul868Flasher.Python.Strip

/-!
# Device specifications of consumers

A wmbusmeters device string is cut at `;`, then at the first `=` and at the
first `:`, and what is left is compared with the configured path. The cuts are
harmless for the paths in which none of these characters occurs. A resolution that
raises anything but an `OSError` ends the comparison.
-/

namespace Cul868Flasher.SupervisorClient
open Python Effects

/-- `conf.device`, or the `device` at the root where `conf` is no object. -/
def deviceOption (fields : List (String × Json)) : Json :=
  match Json.get fields "conf" with
  | .obj configuration => Json.get configuration "device"
  | _ => Json.get fields "device"

/-- The device string of a wmbusmeters options document. -/
def deviceValue (options : Json) : Option String :=
  match options with
  | .obj fields =>
    match deviceOption fields with
    | .str value => some value
    | _ => none
  | _ => none

def serialPort (options : Json) : Option String :=
  match options with
  | .obj fields =>
    match Json.get fields "serial_port" with
    | .str value => some value
    | _ => none
  | _ => none

/-- The exception of the step that the client lets through. -/
def letThrough : Event World → Option Exn
  | ⟨.request _ _, .raised e⟩ => some e
  | ⟨.resolvePath _, .error e⟩ => if e.isOSError then none else some e
  | _ => none

/-- No step has raised an exception that the client lets through. -/
def Unbroken (t : Trace World) : Prop := ∀ x ∈ t, letThrough x = none

/-- `NAME=path:suffix`, where the name and the suffix may be absent. -/
def element (busAlias : Option (List Char)) (raw : List Char) (suffix : Option (List Char)) :
    List Char :=
  busAlias.elim [] (· ++ ['=']) ++ raw ++ suffix.elim [] (':' :: ·)

/-- Documents that name the path in such an element are found to use the device. -/
structure NeverMissed (raw : String) (path : Path) (busAlias suffix : Option (List Char)) :
    Prop where
  wmbusmeters : ∀ options value, deviceValue options = some value → value.length ≤ 4096 →
    element busAlias raw.toList suffix ∈ value.toList.splitOn ';' →
      ∀ t r, Run (wmbusmetersUsesDevice options path) t r → r ≠ .cut → r = .returned true
  max2mqtt : ∀ options, serialPort options = some raw →
    ∀ t r, Run (max2mqttUsesDevice options path) t r → r ≠ .cut → r = .returned true

/-- Such documents are found to use the device unless the resolution of a path, of an
element before, raises what is let through. -/
structure FoundUnbroken (raw : String) (path : Path) (busAlias suffix : Option (List Char)) :
    Prop where
  wmbusmeters : ∀ options value, deviceValue options = some value → value.length ≤ 4096 →
    element busAlias raw.toList suffix ∈ value.toList.splitOn ';' →
      ∀ t r, Run (wmbusmetersUsesDevice options path) t r → r ≠ .cut →
        (r = .returned true ↔ Unbroken t)
  max2mqtt : ∀ options, serialPort options = some raw →
    ∀ t r, Run (max2mqttUsesDevice options path) t r → r ≠ .cut → r = .returned true

/-- The text is the path in one of its spellings, or asks for any serial device. -/
def Spells (endpoint : List Char) (path : Path) : Prop :=
  (String.ofList endpoint).toLower = "auto" ∨ (String.ofList endpoint).toLower = "cul" ∨
    (endpoint ≠ [] ∧ endpoint.length ≤ 512 ∧ '\x00' ∉ endpoint ∧
      isDevicePath (String.ofList endpoint) = true ∧ Path.ofString (String.ofList endpoint) = path)

/-- The path is still there after the cuts. -/
def Survives (raw : List Char) (path : Path) (busAlias suffix : Option (List Char)) : Prop :=
  if busAlias = none ∧ '=' ∈ element none raw suffix then
    Spells (strip ((behind '=' (element none raw suffix)).takeWhile (· ≠ ':'))) path
  else ':' ∉ raw ∧ ∀ c, raw.getLast? = some c → isSpace c = false

/-! ## What the cuts leave -/

theorem specificationEndpoint_eq (specification : String) : specificationEndpoint specification =
    strip ((if '=' ∈ specification.toList then behind '=' specification.toList
      else specification.toList).takeWhile (· ≠ ':')) := by
  have hcolon : isSpace ':' = false := by decide
  have hequals : isSpace '=' = false := by decide
  simp only [specificationEndpoint, mem_strip hequals]
  split_ifs
  · change strip ((strip (behind '=' (strip specification.toList))).takeWhile _) = _
    rw [strip_behind hequals, strip_takeWhile hcolon]
  · exact strip_takeWhile hcolon _

theorem takeWhile_suffix (raw : List Char) (suffix : Option (List Char)) :
    (raw ++ suffix.elim [] (':' :: ·)).takeWhile (· ≠ ':') = raw.takeWhile (· ≠ ':') := by
  cases suffix with
  | none => rw [Option.elim_none, List.append_nil]
  | some rest => exact takeWhile_append_ended raw rest

theorem endpoint_element {raw : List Char} {busAlias : Option (List Char)}
    (suffix : Option (List Char)) (hbus : ∀ name ∈ busAlias, '=' ∉ name) :
    specificationEndpoint (String.ofList (element busAlias raw suffix)) =
      if busAlias = none ∧ '=' ∈ element none raw suffix then
        strip ((behind '=' (element none raw suffix)).takeWhile (· ≠ ':'))
      else strip (raw.takeWhile (· ≠ ':')) := by
  rw [specificationEndpoint_eq, String.toList_ofList]
  cases busAlias with
  | none =>
    simp only [true_and]
    split_ifs
    · rfl
    · rw [element, Option.elim_none, List.nil_append, takeWhile_suffix]
  | some name =>
    have hname : element (some name) raw suffix =
        name ++ '=' :: (raw ++ suffix.elim [] (':' :: ·)) := by
      simp [element]
    rw [hname, if_pos (by simp), behind_append (hbus name rfl), takeWhile_suffix, if_neg (by simp)]

/-! ## The path and its texts -/

section
variable {raw : String} {path : Path}

/-- A path that ends in blanks is not the path of the stripped text. -/
theorem ofString_blanks (cs : List Char) {v : List Char} (hv : v ≠ [])
    (hblank : ∀ x ∈ v, isSpace x = true) :
    Path.ofString (String.ofList cs) ≠ Path.ofString (String.ofList (cs ++ v)) := by
  intro heq
  have hopen : ∀ x ∈ v, (x == '/') = false := by
    intro x hx
    have hspace := hblank x hx
    by_contra hslash
    rw [Bool.not_eq_false, beq_iff_eq] at hslash
    rw [hslash] at hspace
    exact absurd hspace (by decide)
  have hdot : ∀ front, front ++ v ≠ ['.'] := by
    intro front hdot
    obtain ⟨x, hx⟩ := List.exists_mem_of_ne_nil v hv
    have hmem : x ∈ ['.'] := hdot ▸ List.mem_append_right front hx
    have hspace := hblank x hx
    rw [List.mem_singleton.mp hmem] at hspace
    exact absurd hspace (by decide)
  have htail := congrArg (fun p : Path => p.tail.length) heq
  have htails := congrArg (fun p : Path => p.tail.getLast?) heq
  have hsplit (l : List Char) : l.splitOn '/' = Buffer.closed (· == '/') l ++
      [Buffer.openLine (· == '/') l] := Buffer.splitOnP_eq (· == '/') l
  simp only [Path.ofString, String.toList_ofList, hsplit, Buffer.closed_append_open hopen,
    Buffer.openLine_append hopen, List.filter_append, List.map_append, List.length_append]
    at htail htails
  have hkept : [Buffer.openLine (· == '/') cs ++ v].filter (fun c => c ≠ [] ∧ c ≠ ['.']) =
      [Buffer.openLine (· == '/') cs ++ v] := by
    refine List.filter_cons_of_pos ?_
    simp [hv, hdot]
  rw [hkept] at htail htails
  -- The last component grows, or there is one more.
  by_cases hlast : Buffer.openLine (· == '/') cs ≠ [] ∧ Buffer.openLine (· == '/') cs ≠ ['.']
  · rw [List.filter_cons_of_pos (by simpa using hlast)] at htails
    simp only [List.filter_nil, List.map_cons, List.map_nil, List.getLast?_concat,
      Option.some.injEq, String.ofList_inj] at htails
    exact hv (List.self_eq_append_right.mp htails)
  · rw [List.filter_cons_of_neg (by simpa using hlast)] at htail
    simp at htail

theorem toLower_eq {cs : List Char} {text : String} (h : (String.ofList cs).toLower = text) :
    cs.map Char.toLower = text.toList := by
  rw [← h]
  change _ = ((String.ofList cs).map Char.toLower).toList
  rw [String.toList_map, String.toList_ofList]

theorem strip_slash (cs : List Char) : ∃ v, '/' :: cs = strip ('/' :: cs) ++ v ∧
    (∀ x ∈ v, isSpace x = true) ∧ ∃ rest, strip ('/' :: cs) = '/' :: rest := by
  obtain ⟨u, v, hsplit, hu, hv⟩ := strip_split ('/' :: cs)
  have hslash : isSpace '/' = false := by decide
  have hu' : u = [] := by
    cases u with
    | nil => rfl
    | cons x u =>
      have hx : '/' = x := (List.cons.inj hsplit).1
      exact absurd (hx ▸ List.mem_cons_self) (ne_blank hslash hu)
  rw [hu', List.nil_append] at hsplit
  refine ⟨v, hsplit, hv, ?_⟩
  cases hstrip : strip ('/' :: cs) with
  | nil =>
    rw [hstrip, List.nil_append] at hsplit
    exact absurd (hsplit ▸ List.mem_cons_self) (ne_blank hslash hv)
  | cons x rest =>
    rw [hstrip, List.cons_append] at hsplit
    exact ⟨rest, by rw [(List.cons.inj hsplit).1]⟩

/-- The cut at the first `:` and the stripping leave a path alone, or make another of it. -/
theorem spells_iff (h : DeviceText raw path) :
    Spells (strip (raw.toList.takeWhile (· ≠ ':'))) path ↔
      ':' ∉ raw.toList ∧ ∀ c, raw.toList.getLast? = some c → isSpace c = false := by
  obtain ⟨cs, hcs⟩ := h.slash
  constructor
  · intro hspells
    obtain ⟨v, hsplit, hv, hslash⟩ := strip_slash (cs.takeWhile (· ≠ ':'))
    have hlast : ∀ c, (strip ('/' :: cs.takeWhile (· ≠ ':'))).getLast? = some c →
        isSpace c = false := fun c => strip_last
    have hcut : raw.toList.takeWhile (· ≠ ':') = '/' :: cs.takeWhile (· ≠ ':') := by
      rw [hcs, List.takeWhile_cons_of_pos (by decide)]
    rw [hcut] at hspells
    generalize strip ('/' :: cs.takeWhile (· ≠ ':')) = endpoint at hspells hsplit hslash hlast
    have hpath : Path.ofString (String.ofList endpoint) = path := by
      obtain ⟨rest, rfl⟩ := hslash
      rcases hspells with hauto | hcul | ⟨-, -, -, -, hpath⟩
      · have hhead : '/'.toLower = 'a' := (List.cons.inj (toLower_eq hauto)).1
        exact absurd hhead (by decide)
      · have hhead : '/'.toLower = 'c' := (List.cons.inj (toLower_eq hcul)).1
        exact absurd hhead (by decide)
      · exact hpath
    have hcolon : ':' ∉ raw.toList := by
      intro hmem
      have hname := (Path.mem_tail (by decide) (by decide)).mpr hmem
      rw [h.ofString, ← hpath, Path.mem_tail (by decide) (by decide), String.toList_ofList] at hname
      have hprefix : ':' ∈ '/' :: cs.takeWhile (· ≠ ':') := by
        rw [hsplit]
        exact List.mem_append_left v hname
      rw [← hcut] at hprefix
      exact not_mem_takeWhile ':' _ hprefix
    refine ⟨hcolon, fun c hc => ?_⟩
    have hall : raw.toList = '/' :: cs.takeWhile (· ≠ ':') := by
      rw [← hcut, takeWhile_of_not_mem hcolon]
    by_cases hnil : v = []
    · rw [hnil, List.append_nil] at hsplit
      rw [hall, hsplit] at hc
      exact hlast c hc
    · have hother := ofString_blanks endpoint hnil hv
      rw [← hsplit, ← hall, String.ofList_toList, h.ofString] at hother
      exact absurd hpath hother
  · rintro ⟨hcolon, hlast⟩
    have hstrip : strip raw.toList = raw.toList := by
      rw [hcs]
      rw [hcs] at hlast
      exact strip_self (by decide) hlast
    rw [takeWhile_of_not_mem hcolon, hstrip]
    refine .inr (.inr ⟨by simp [hcs], h.length, h.no_nul, ?_, ?_⟩)
    · rw [String.ofList_toList]
      exact h.path.isDevicePath h.ofString
    · rw [String.ofList_toList]
      exact h.ofString

end

/-! ## What is let through -/

section
variable {C D : Exn → Prop} {α β : Type} {t u : Trace World}

/-- A step has raised an exception of these that the client lets through. -/
def Passed (C : Exn → Prop) (t : Trace World) : Prop := ∃ x ∈ t, ∃ e, letThrough x = some e ∧ C e

theorem passed_nil : ¬ Passed C [] := by simp [Passed]

theorem passed_append : Passed C (t ++ u) ↔ Passed C t ∨ Passed C u := by
  simp only [Passed, List.mem_append, or_and_right, exists_or]

theorem Unbroken.not_passed (h : Unbroken t) : ¬ Passed C t := by
  rintro ⟨x, hx, e, he, -⟩
  rw [h x hx] at he
  cases he

/-- The program raises an exception of `D` exactly when a step has let one of `C` through. -/
def Passes (C D : Exn → Prop) (p : Program α) : Prop :=
  ∀ t r, Run p t r → r ≠ .cut → (Passed C t ↔ ∃ e, r = .raised e ∧ D e)

abbrev PassesOn (C : Exn → Prop) (p : Program α) : Prop := Passes C C p

namespace Passes

theorem pure (a : α) : Passes C D (pure a : Program α) := by
  intro t r h hr
  obtain ⟨rfl, rfl | rfl⟩ := Run.pure_iff.mp h
  · simp [passed_nil]
  · exact absurd rfl hr

theorem raise {e : Exn} (he : ¬ D e) : Passes C D (.raise e : Program α) := by
  intro t r h hr
  obtain ⟨rfl, rfl | rfl⟩ := Run.raise_iff.mp h
  · simp [passed_nil, he]
  · exact absurd rfl hr

theorem ofExcept {x : Except Exn α} (h : ∀ e, x = .error e → ¬ D e) :
    Passes C D (.ofExcept x : Program α) := by
  cases x with
  | ok a => exact pure a
  | error e => exact raise (h e rfl)

theorem bind {p : Program α} {f : α → Program β} (hp : Passes C D p)
    (hf : ∀ a, Passes C D (f a)) : Passes C D (p >>= f) := by
  intro t r h hr
  obtain ⟨a, t₁, t₂, rfl, h₁, h₂⟩ | ⟨e, rfl, h₁⟩ | ⟨rfl, -⟩ := Run.bind_inv h
  · have hquiet : ¬ Passed C t₁ := by
      rw [hp t₁ _ h₁ nofun]
      rintro ⟨e, he, -⟩
      cases he
    rw [← hf a t₂ r h₂ hr, passed_append, or_iff_right hquiet]
  · simpa using hp t _ h₁ nofun
  · exact absurd rfl hr

/-- What is caught has not been let through. -/
theorem catching {p : Program α} {c : Exn → Bool} (hp : Passes C (fun e => c e = false ∧ D e) p) :
    Passes C D (p.catching c) := by
  intro t r h hr
  obtain ⟨a, rfl, hrun⟩ | ⟨e, hc, rfl, hrun⟩ | ⟨e, hc, rfl, hrun⟩ | ⟨rfl, -⟩ :=
    Run.catching_inv h
  · simpa using hp t _ hrun nofun
  · simpa [hc] using hp t _ hrun nofun
  · simpa [hc] using hp t _ hrun nofun
  · exact absurd rfl hr

end Passes

theorem resolvePath_passes (path : Path) :
    Passes C (fun e => e.isOSError = false ∧ C e) (resolvePath path) := by
  intro t r h hr
  obtain ⟨(answer : Except Exn Path), t', rfl, hrest⟩ := Run.call_inv h hr
  cases answer with
  | ok node =>
    obtain ⟨rfl, rfl | rfl⟩ := Run.ret_iff.mp hrest
    · simp [Passed, letThrough]
    · exact absurd rfl hr
  | error e =>
    obtain ⟨rfl, rfl | rfl⟩ := Run.raise_iff.mp hrest
    · cases hos : e.isOSError <;> simp [Passed, letThrough, hos]
    · exact absurd rfl hr

theorem resolvesTo_passesOn (candidate path : Path) : PassesOn C (resolvesTo candidate path) := by
  have hsame : Passes C (fun e => e.isOSError = false ∧ C e) (sameNode candidate path) :=
    (resolvePath_passes _).bind fun _ => (resolvePath_passes _).bind fun _ => .pure _
  refine hsame.catching.bind fun same => ?_
  cases same with
  | ok same => exact .pure _
  | error e => exact .pure _

theorem sameDevicePath_passesOn (candidate : String) (path : Path) :
    PassesOn C (sameDevicePath candidate path) := by
  unfold sameDevicePath
  split_ifs
  · exact .pure _
  · exact .pure _
  · exact .pure _
  · exact resolvesTo_passesOn _ _

theorem anySpecification_passesOn (path : Path) (specifications : List String) :
    PassesOn C (anySpecification path specifications) := by
  induction specifications with
  | nil => exact .pure _
  | cons specification rest ih =>
    refine Passes.bind ?_ fun used => ?_
    · unfold wmbusmetersDeviceSpecUsesDevice
      dsimp only
      split_ifs
      · exact .pure _
      · exact .pure _
      · exact sameDevicePath_passesOn _ _
    · split_ifs
      · exact .pure _
      · exact ih

theorem wmbusmetersUsesDevice_passesOn (options : Json) (path : Path) :
    PassesOn C (wmbusmetersUsesDevice options path) := by
  unfold wmbusmetersUsesDevice
  split
  · dsimp only
    split
    · split_ifs
      · exact .pure _
      · exact anySpecification_passesOn _ _
    · exact .pure _
  · exact .pure _

theorem max2mqttUsesDevice_passesOn (options : Json) (path : Path) :
    PassesOn C (max2mqttUsesDevice options path) := by
  unfold max2mqttUsesDevice
  split
  · split
    · exact sameDevicePath_passesOn _ _
    · exact .pure _
  · exact .pure _

end

/-! ## The comparisons -/

section
variable {path : Path} {t : Trace World} {r : Outcome Exn Bool}

/-- The file system need not have a node for the candidate. -/
theorem resolvesTo_silent (candidate : Path) :
    ∃ t, Run (resolvesTo candidate path) t (.returned false) ∧ Unbroken t := by
  refine ⟨_, .call (I := World) (o := .resolvePath candidate) (.error (.osError ""))
    (.returned false), ?_⟩
  simp [Unbroken, letThrough, Exn.osError, Exn.isOSError]

theorem pure_run {b : Bool} (h : Run (pure b : Program Bool) t r) (hr : r ≠ .cut) :
    r = .returned b := by
  obtain ⟨-, rfl | rfl⟩ := Run.pure_iff.mp h
  · rfl
  · exact absurd rfl hr

/-- A spelling of the path is recognised without a look at the file system. -/
theorem sameDevicePath_spelled {candidate : String} (hne : candidate ≠ "")
    (hlength : candidate.length ≤ 512) (hnul : '\x00' ∉ candidate.toList)
    (hdevice : isDevicePath candidate = true) (hpath : Path.ofString candidate = path) :
    sameDevicePath candidate path = pure true := by
  rw [sameDevicePath, if_neg (by simp [hne, hnul]; omega), if_neg (by simp [hdevice]), if_pos hpath]

theorem sameDevicePath_silent {candidate : String}
    (h : ¬ (candidate ≠ "" ∧ candidate.length ≤ 512 ∧ '\x00' ∉ candidate.toList ∧
      isDevicePath candidate = true ∧ Path.ofString candidate = path)) :
    ∃ t, Run (sameDevicePath candidate path) t (.returned false) ∧ Unbroken t := by
  rw [sameDevicePath]
  split_ifs with htext hdevice hpath
  · exact ⟨[], .returned false, by simp [Unbroken]⟩
  · exact ⟨[], .returned false, by simp [Unbroken]⟩
  · rw [not_or, not_or] at htext
    exact absurd ⟨htext.1, by omega, htext.2.2, by simpa using hdevice, hpath⟩ h
  · exact resolvesTo_silent _

/-- An element that spells the path is found to. -/
theorem specification_run {specification : String}
    (hspells : Spells (specificationEndpoint specification) path)
    (h : Run (wmbusmetersDeviceSpecUsesDevice specification path) t r) (hr : r ≠ .cut) :
    r = .returned true := by
  rw [wmbusmetersDeviceSpecUsesDevice] at h
  by_cases hempty : strip specification.toList = []
  · have hnil : specificationEndpoint specification = [] := by
      simp only [specificationEndpoint, hempty]
      rfl
    rw [hnil] at hspells
    obtain hauto | hcul | ⟨hne, -⟩ := hspells
    · exact absurd (toLower_eq hauto) (by decide)
    · exact absurd (toLower_eq hcul) (by decide)
    · exact absurd rfl hne
  · rw [if_neg hempty] at h
    dsimp only at h
    split_ifs at h with hmode
    · exact pure_run h hr
    · obtain hauto | hcul | ⟨hne, hlength, hnul, hdevice, hpath⟩ := hspells
      · exact absurd (by simp [hauto]) hmode
      · exact absurd (by simp [hcul]) hmode
      · rw [sameDevicePath_spelled (by simpa [← String.toList_inj] using hne)
          (by simpa [← String.length_toList] using hlength)
          (by simpa using hnul) hdevice hpath] at h
        exact pure_run h hr

theorem specification_silent {specification : String}
    (h : ¬ Spells (specificationEndpoint specification) path) :
    ∃ t, Run (wmbusmetersDeviceSpecUsesDevice specification path) t (.returned false) ∧
      Unbroken t := by
  rw [wmbusmetersDeviceSpecUsesDevice]
  rw [Spells, not_or, not_or] at h
  by_cases hempty : strip specification.toList = []
  · rw [if_pos hempty]
    exact ⟨[], .returned false, by simp [Unbroken]⟩
  · rw [if_neg hempty]
    dsimp only
    rw [if_neg (by simpa using ⟨h.1, h.2.1⟩)]
    refine sameDevicePath_silent fun ⟨hne, hlength, hnul, hdevice, hpath⟩ => h.2.2
      ⟨by simpa [← String.toList_inj] using hne, by simpa [← String.length_toList] using hlength,
        by simpa using hnul, hdevice, hpath⟩

theorem anySpecification_run {specifications : List String} {specification : String}
    (hmem : specification ∈ specifications)
    (hspells : Spells (specificationEndpoint specification) path)
    (h : Run (anySpecification path specifications) t r) (hr : r ≠ .cut) :
    r = .returned true ∨ ∃ e, r = .raised e := by
  induction specifications generalizing t with
  | nil => cases hmem
  | cons first rest ih =>
    obtain ⟨used, t₁, t₂, rfl, h₁, h₂⟩ | ⟨e, rfl, h₁⟩ | ⟨rfl, -⟩ := Run.bind_inv h
    · cases used with
      | true => exact .inl (pure_run h₂ hr)
      | false =>
        rcases List.mem_cons.mp hmem with rfl | hmem
        · cases specification_run hspells h₁ nofun
        · exact ih hmem h₂
    · exact .inr ⟨e, rfl⟩
    · exact absurd rfl hr

end

/-! ## Documents -/

theorem length_of_mem_splitOn {sep : Char} {cs piece : List Char} (h : piece ∈ cs.splitOn sep) :
    piece.length ≤ cs.length := by
  have hlength := Path.length_intercalate sep (List.splitOn_ne_nil sep cs)
  rw [List.intercalate_splitOn] at hlength
  obtain ⟨front, back, hsplit⟩ := List.append_of_mem h
  rw [hsplit, List.map_append, List.map_cons, List.sum_append, List.sum_cons] at hlength
  omega

theorem wmbusmetersUsesDevice_eq {options : Json} {value : String} {path : Path}
    (h : deviceValue options = some value) (hlength : value.length ≤ 4096) :
    wmbusmetersUsesDevice options path =
      anySpecification path ((value.toList.splitOn ';').map String.ofList) := by
  cases options with
  | obj fields =>
    change (match deviceOption fields with
      | .str value => if 4096 < value.length then pure false
        else anySpecification path ((value.toList.splitOn ';').map String.ofList)
      | _ => pure false) = _
    simp only [deviceValue] at h
    cases hvalue : deviceOption fields with
    | str text =>
      rw [hvalue] at h
      cases h
      exact if_neg (by omega)
    | _ =>
      rw [hvalue] at h
      cases h
  | _ => cases h

theorem max2mqttUsesDevice_eq {options : Json} {value : String} {path : Path}
    (h : serialPort options = some value) :
    max2mqttUsesDevice options path = sameDevicePath value path := by
  cases options with
  | obj fields =>
    simp only [serialPort] at h
    split at h
    · rename_i hvalue
      cases h
      rw [max2mqttUsesDevice, hvalue]
    · cases h
  | _ => cases h

section
variable {raw : String} {path : Path} {busAlias suffix : Option (List Char)}

theorem survives_iff (h : DeviceText raw path) (hbus : ∀ name ∈ busAlias, '=' ∉ name) :
    Survives raw.toList path busAlias suffix ↔
      Spells (specificationEndpoint (String.ofList (element busAlias raw.toList suffix))) path := by
  rw [endpoint_element suffix hbus, Survives]
  split_ifs
  · exact Iff.rfl
  · exact (spells_iff h).symm

/-- A form that can occur and does not survive the cuts is missed in some document. -/
theorem exists_missed (h : DeviceText raw path) (hbus : ∀ name ∈ busAlias, '=' ∉ name)
    (hsemicolon : ';' ∉ element busAlias raw.toList suffix)
    (hlength : (element busAlias raw.toList suffix).length ≤ 4096)
    (hlost : ¬ Survives raw.toList path busAlias suffix) :
    ∃ options value t, deviceValue options = some value ∧ value.length ≤ 4096 ∧
      element busAlias raw.toList suffix ∈ value.toList.splitOn ';' ∧
      Run (wmbusmetersUsesDevice options path) t (.returned false) ∧ Unbroken t := by
  rw [survives_iff h hbus] at hlost
  obtain ⟨t, ht, hunbroken⟩ := specification_silent hlost
  have hdocument : deviceValue (.obj [("conf", .obj [("device",
      .str (String.ofList (element busAlias raw.toList suffix)))])]) =
        some (String.ofList (element busAlias raw.toList suffix)) := rfl
  have hshort : (String.ofList (element busAlias raw.toList suffix)).length ≤ 4096 := by
    simpa [← String.length_toList] using hlength
  have hsingle : (element busAlias raw.toList suffix).splitOn ';' =
      [element busAlias raw.toList suffix] := by
    have hopen : ∀ c ∈ element busAlias raw.toList suffix, (c == ';') = false := by
      intro c hc
      rw [beq_eq_false_iff_ne]
      rintro rfl
      exact hsemicolon hc
    have hsplit := Buffer.splitOnP_eq (· == ';') ([] ++ element busAlias raw.toList suffix)
    rw [Buffer.closed_append_open hopen, Buffer.openLine_append hopen] at hsplit
    exact hsplit
  refine ⟨_, _, t ++ [], hdocument, hshort, ?_, ?_, by simpa using hunbroken⟩
  · rw [String.toList_ofList, hsingle]
    exact List.mem_singleton_self _
  · rw [wmbusmetersUsesDevice_eq hdocument hshort, String.toList_ofList, hsingle]
    exact Run.bind ht (.returned false)

theorem max2mqtt_spelled (h : DeviceText raw path) {options : Json}
    (hport : serialPort options = some raw) : max2mqttUsesDevice options path = pure true := by
  obtain ⟨cs, hcs⟩ := h.slash
  have hne : raw ≠ "" := by
    rintro rfl
    cases hcs
  rw [max2mqttUsesDevice_eq hport, sameDevicePath_spelled hne h.length h.no_nul
    (h.path.isDevicePath h.ofString) h.ofString]

/-- A path is found in an element of the given form, in every document and run in which
no resolution breaks off, if the form can occur and the path survives the cuts. -/
theorem never_missed_iff (hraw : devicePath (.str raw) = .ok path)
    (hbus : ∀ name ∈ busAlias, '=' ∉ name) :
    FoundUnbroken raw path busAlias suffix ↔
      (';' ∉ element busAlias raw.toList suffix →
        (element busAlias raw.toList suffix).length ≤ 4096 →
          Survives raw.toList path busAlias suffix) := by
  obtain ⟨text, htext, h⟩ := devicePath_ok hraw
  cases htext
  constructor
  · intro hfound hsemicolon hlength
    by_contra hlost
    obtain ⟨options, value, t, hvalue, hshort, hmem, hrun, hunbroken⟩ :=
      exists_missed h hbus hsemicolon hlength hlost
    cases (hfound.wmbusmeters options value hvalue hshort hmem t _ hrun nofun).mpr hunbroken
  · intro hsurvives
    constructor
    · intro options value hvalue hlength hmem t r hrun hr
      have hsemicolon := Path.not_mem_of_mem_splitOn hmem
      have hshort : (element busAlias raw.toList suffix).length ≤ 4096 := by
        have hle := length_of_mem_splitOn hmem
        rw [String.length_toList] at hle
        omega
      have hspells := (survives_iff h hbus).mp (hsurvives hsemicolon hshort)
      have hpasses := wmbusmetersUsesDevice_passesOn (C := fun _ => True) options path t r hrun hr
      rw [wmbusmetersUsesDevice_eq hvalue hlength] at hrun
      constructor
      · rintro rfl x hx
        by_contra hsome
        obtain ⟨e, he⟩ := Option.ne_none_iff_exists'.mp hsome
        obtain ⟨e', hraised, -⟩ := hpasses.mp ⟨x, hx, e, he, trivial⟩
        cases hraised
      · intro hunbroken
        rcases anySpecification_run (List.mem_map.mpr ⟨_, hmem, rfl⟩) hspells hrun hr with
          htrue | ⟨e, hraised⟩
        · exact htrue
        · exact absurd (hpasses.mpr ⟨e, hraised, trivial⟩) hunbroken.not_passed
    · intro options hport t r hrun hr
      rw [max2mqtt_spelled h hport] at hrun
      exact pure_run hrun hr

/-- A path without colons is found with its suffix. -/
theorem never_missed_acm : FoundUnbroken "/dev/ttyACM0" (.ofString "/dev/ttyACM0")
    (some "MAIN".toList) (some "cul:t1".toList) := by
  refine (never_missed_iff (by decide +kernel) (by decide)).mpr fun _ _ => ?_
  rw [Survives, if_neg (by simp)]
  refine ⟨by decide, fun c hc => ?_⟩
  obtain rfl : '0' = c := by simpa using hc
  decide

theorem missed_by_path : ¬ ∀ raw path busAlias suffix, devicePath (.str raw) = .ok path →
    (∀ name ∈ busAlias, '=' ∉ name) → NeverMissed raw path busAlias suffix := by
  intro hnever
  have hraw : devicePath (.str "/dev/serial/by-path/pci-0000:00:14.0-usb-0:1:1.0") =
      .ok (.ofString "/dev/serial/by-path/pci-0000:00:14.0-usb-0:1:1.0") := by decide +kernel
  obtain ⟨text, htext, h⟩ := devicePath_ok hraw
  cases htext
  have hlost : ¬ Survives "/dev/serial/by-path/pci-0000:00:14.0-usb-0:1:1.0".toList
      (.ofString "/dev/serial/by-path/pci-0000:00:14.0-usb-0:1:1.0") none none := by
    rw [Survives, if_neg (by decide)]
    exact fun hsurvives => absurd hsurvives.1 (by decide)
  obtain ⟨options, value, t, hvalue, hshort, hmem, hrun, -⟩ :=
    exists_missed h (by simp) (by decide) (by decide) hlost
  cases (hnever _ _ none none hraw (by simp)).wmbusmeters options value hvalue hshort hmem t _ hrun
    nofun

end

end Cul868Flasher.SupervisorClient
