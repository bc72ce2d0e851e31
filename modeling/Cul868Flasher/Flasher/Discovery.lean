import Cul868Flasher.DeviceSpecification
import Cul868Flasher.Effects.Evaluation
import Cul868Flasher.Flasher.Consumers

/-!
# Consumer discovery is exact

In an environment that answers every exchange with a fixed document, discovery
either fails or returns exactly the consumers that the add-on list and their
options show to be running on the device, whatever the order of the list. It fails
with a `SupervisorError` unless a step raises an exception that the client lets through.
-/

namespace Cul868Flasher
open Python Effects

namespace SupervisorClient
variable (w : (o : World.Op) → World.Ans o) (device : Path) (additional : List String)

/-! ## What the documents say -/

def EntryNamed (addon : Json) (slug : String) : Prop :=
  ∃ fields, addon = .obj fields ∧ Json.get fields "slug" = .str slug

/-- The list has an entry of this name that is started. -/
def ListedStarted (addons : List Json) (slug : String) : Prop :=
  ∃ fields, Json.obj fields ∈ addons ∧ Json.get fields "slug" = .str slug ∧ isStarted fields = true

/-- The options of the consumer that the Supervisor returns, when it is started. -/
def StartedWith (slug : String) (options : Json) : Prop :=
  ∃ fields data, responseFields .get s!"/addons/{slug}/info"
      (w (.request .get s!"/addons/{slug}/info")) = .ok fields ∧
    Json.get fields "data" = .obj data ∧ isStarted data = true ∧ options = Json.get data "options"

/-- The consumer is started, and its options name the device. -/
def InUse (usesDevice : Json → Path → Program Bool) (slug : String) : Prop :=
  ∃ options, StartedWith w slug options ∧ (usesDevice options device).eval w = .returned true

/-- The add-on list, as far as the Supervisor returns one. -/
def addonList : Except Exn (List Json) :=
  match responseFields .get "/addons" (w (.request .get "/addons")) with
  | .error e => .error e
  | .ok document =>
    match requireMapping (Json.get document "data") "add-on list" with
    | .error e => .error e
    | .ok data =>
      match Json.get data "addons" with
      | .arr addons => .ok addons
      | _ => .error (.supervisorError "Supervisor returned an invalid add-on list")

/-- The lists hold what a list of add-ons and their documents show. -/
structure Finds (addons : List Json) (found : Discovered) : Prop where
  optedIn : ∀ slug, slug ∈ found.optedIn ↔ slug ∈ additional ∧ ListedStarted addons slug
  wmbusmeters : ∀ slug, slug ∈ found.wmbusmeters ↔ (∃ addon ∈ addons, EntryNamed addon slug) ∧
    slug ∉ additional ∧ isWmbusmetersSlug slug = true ∧ InUse w device wmbusmetersUsesDevice slug
  max2mqtt : ∀ slug, slug ∈ found.max2mqtt ↔ (∃ addon ∈ addons, EntryNamed addon slug) ∧
    slug ∉ additional ∧ isMax2mqttSlug slug = true ∧ InUse w device max2mqttUsesDevice slug

/-! ## The options -/

section Options

theorem resolvePath_ne_cut (path : Path) : (resolvePath path).eval w ≠ .cut := by
  refine Prog.eval_bind_ne_cut w (fun h => by cases h) fun answer _ => ?_
  rw [Prog.eval_ofExcept]
  exact Outcome.ofExcept_ne_cut _

theorem resolvesTo_ne_cut (candidate selectedDevice : Path) :
    (resolvesTo candidate selectedDevice).eval w ≠ .cut := by
  refine Prog.eval_bind_ne_cut w (Prog.eval_catching_ne_cut w ?_) fun same _ => ?_
  · refine Prog.eval_bind_ne_cut w (resolvePath_ne_cut w _) fun left _ => ?_
    exact Prog.eval_bind_ne_cut w (resolvePath_ne_cut w _) fun right _ => by simp
  · cases same with
    | ok same => simp
    | error e => simp

theorem sameDevicePath_ne_cut (candidate : String) :
    (sameDevicePath candidate device).eval w ≠ .cut := by
  unfold sameDevicePath
  split_ifs
  · simp
  · simp
  · simp
  · exact resolvesTo_ne_cut w _ _

theorem wmbusmetersDeviceSpecUsesDevice_ne_cut (specification : String) :
    (wmbusmetersDeviceSpecUsesDevice specification device).eval w ≠ .cut := by
  unfold wmbusmetersDeviceSpecUsesDevice
  dsimp only
  split_ifs
  · simp
  · simp
  · exact sameDevicePath_ne_cut w device _

theorem anySpecification_ne_cut (specifications : List String) :
    (anySpecification device specifications).eval w ≠ .cut := by
  induction specifications with
  | nil => simp [anySpecification]
  | cons specification rest ih =>
    refine Prog.eval_bind_ne_cut w (wmbusmetersDeviceSpecUsesDevice_ne_cut w device specification)
      fun used _ => ?_
    split_ifs
    · simp
    · exact ih

theorem wmbusmetersUsesDevice_ne_cut (options : Json) :
    (wmbusmetersUsesDevice options device).eval w ≠ .cut := by
  unfold wmbusmetersUsesDevice
  split
  · dsimp only
    split
    · split_ifs
      · simp
      · exact anySpecification_ne_cut w device _
    · simp
  · simp

theorem max2mqttUsesDevice_ne_cut (options : Json) :
    (max2mqttUsesDevice options device).eval w ≠ .cut := by
  unfold max2mqttUsesDevice
  split
  · split
    · exact sameDevicePath_ne_cut w device _
    · simp
  · simp

end Options

/-! ## One consumer -/

section Slugs
variable {slug : String}

theorem addonPath_of_ne (h : slug ≠ "self") : addonPath slug = quoteSlug slug := if_neg h

theorem quoteSlug_of_accepted (h : isAddonSlug slug = true) : quoteSlug slug = .ok slug := if_pos h

theorem isWmbusmetersSlug_ne_self (h : isWmbusmetersSlug slug = true) : slug ≠ "self" := by
  rintro rfl
  exact absurd h (by decide +kernel)

theorem isMax2mqttSlug_ne_self (h : isMax2mqttSlug slug = true) : slug ≠ "self" := by
  rintro rfl
  exact absurd h (by decide +kernel)

theorem getLast?_of_hasSuffix {value suffix : String} {c : Char}
    (h : hasSuffix value suffix = true) (hc : suffix.toList.getLast? = some c) :
    value.toList.getLast? = some c := by
  obtain ⟨u, hu⟩ := List.isSuffixOf_iff_suffix.mp h
  rw [← hu, List.getLast?_append, hc]
  rfl

/-- The names of the two automatically recognized services end differently. -/
theorem not_isMax2mqttSlug (h : isWmbusmetersSlug slug = true) : isMax2mqttSlug slug = false := by
  have hmax : isMax2mqttSlug slug = true → slug.toLower.toList.getLast? = some 't' := by
    intro hmax
    simp only [isMax2mqttSlug, Bool.or_eq_true, decide_eq_true_eq] at hmax
    rcases hmax with heq | hsuffix
    · rw [heq]
      decide
    · exact getLast?_of_hasSuffix hsuffix (by decide)
  have hwmbus : slug.toLower.toList.getLast? ≠ some 't' := by
    simp only [isWmbusmetersSlug, Bool.or_eq_true, List.contains_iff_mem, List.mem_cons,
      List.not_mem_nil, or_false, List.any_cons, List.any_nil, Bool.or_false] at h
    rcases h with (heq | heq | heq) | hsuffix | hsuffix | hsuffix
    · rw [heq]
      decide
    · rw [heq]
      decide
    · rw [heq]
      decide
    · rw [getLast?_of_hasSuffix hsuffix (c := 's') (by decide)]
      decide
    · rw [getLast?_of_hasSuffix hsuffix (c := 'n') (by decide)]
      decide
    · rw [getLast?_of_hasSuffix hsuffix (c := 'e') (by decide)]
      decide
  cases hslug : isMax2mqttSlug slug with
  | false => rfl
  | true => exact absurd (hmax hslug) hwmbus

end Slugs

section Consumer
variable {w device} {slug : String} {usesDevice : Json → Path → Program Bool}

theorem request_eval (method : HttpMethod) (path : String) :
    (request method path).eval w =
      .ofExcept (responseFields method path (w (.request method path))) :=
  Prog.eval_ofExcept w _

theorem requireMapping_ok {value : Json} {label : String} {fields : List (String × Json)}
    (h : requireMapping value label = .ok fields) : value = .obj fields := by
  unfold requireMapping at h
  split at h
  · cases h
    rfl
  · cases h

theorem requireMapping_error {value : Json} {label : String} {e : Exn}
    (h : requireMapping value label = .error e) : e.isSupervisorError = true := by
  unfold requireMapping at h
  split at h
  · cases h
  · cases h
    rfl

/-- Every info document is read to an answer, or fails. -/
theorem startedOnDevice_eval (hself : slug ≠ "self")
    (hanswers : ∀ options, (usesDevice options device).eval w ≠ .cut) :
    (∃ e, (startedOnDevice slug (usesDevice · device)).eval w = .raised e) ∨
      ∃ used, (startedOnDevice slug (usesDevice · device)).eval w = .returned used ∧
        isAddonSlug slug = true ∧ (used = true ↔ InUse w device usesDevice slug) := by
  unfold startedOnDevice addonInfo
  simp only [Prog.eval_bind, Prog.eval_ofExcept, request_eval]
  rw [addonPath_of_ne hself]
  cases hslug : quoteSlug slug with
  | error e => exact .inl ⟨e, rfl⟩
  | ok path =>
    have haccepted : isAddonSlug slug = true := by
      by_contra hnot
      rw [quoteSlug, if_neg hnot] at hslug
      cases hslug
    obtain rfl := quoteSlug_ok hslug
    simp only [Outcome.ofExcept, Outcome.returned_bind]
    cases hfields : responseFields .get s!"/addons/{path}/info"
        (w (.request .get s!"/addons/{path}/info")) with
    | error e => exact .inl ⟨e, rfl⟩
    | ok fields =>
      simp only [Outcome.returned_bind]
      cases hdata : requireMapping (Json.get fields "data") s!"add-on {path}" with
      | error e => exact .inl ⟨e, rfl⟩
      | ok data =>
        replace hdata := requireMapping_ok hdata
        have hinfo (options : Json) : StartedWith w path options ↔
            isStarted data = true ∧ options = Json.get data "options" := by
          constructor
          · rintro ⟨fields', data', hfields', hdata', hstarted, rfl⟩
            obtain rfl : fields = fields' := Except.ok.inj (hfields.symm.trans hfields')
            obtain rfl : data = data' := by simpa using hdata.symm.trans hdata'
            exact ⟨hstarted, rfl⟩
          · rintro ⟨hstarted, rfl⟩
            exact ⟨fields, data, hfields, hdata, hstarted, rfl⟩
        have hin : InUse w device usesDevice path ↔ isStarted data = true ∧
            (usesDevice (Json.get data "options") device).eval w = .returned true := by
          constructor
          · rintro ⟨options, hoptions, huses⟩
            obtain ⟨hstarted, rfl⟩ := (hinfo options).mp hoptions
            exact ⟨hstarted, huses⟩
          · rintro ⟨hstarted, huses⟩
            exact ⟨_, (hinfo _).mpr ⟨hstarted, rfl⟩, huses⟩
        simp only [Outcome.returned_bind]
        split_ifs with hstarted
        · cases hused : (usesDevice (Json.get data "options") device).eval w with
          | cut => exact absurd hused (hanswers _)
          | raised e => exact .inl ⟨e, rfl⟩
          | returned used =>
            refine .inr ⟨used, rfl, haccepted, ?_⟩
            rw [hin, hused]
            simp [hstarted]
        · refine .inr ⟨false, rfl, haccepted, ?_⟩
          rw [hin]
          simp [hstarted]

end Consumer

/-! ## The list -/

section List
variable {w device additional}

def Discovered.append (found more : Discovered) : Discovered :=
  ⟨found.wmbusmeters ++ more.wmbusmeters, found.max2mqtt ++ more.max2mqtt,
    found.optedIn ++ more.optedIn⟩

/-- Every automatically recognized consumer can be stopped and started. -/
def Discovered.Controllable (found : Discovered) : Prop :=
  ∀ slug ∈ found.wmbusmeters ++ found.max2mqtt, isAddonSlug slug = true

theorem Finds.cons {addon : Json} {rest : List Json} {found more : Discovered}
    (h : Finds w device additional [addon] found) (h' : Finds w device additional rest more) :
    Finds w device additional (addon :: rest) (found.append more) := by
  have hnamed (slug : String) : (∃ a ∈ addon :: rest, EntryNamed a slug) ↔
      (∃ a ∈ [addon], EntryNamed a slug) ∨ ∃ a ∈ rest, EntryNamed a slug := by simp
  have hlisted (slug : String) : ListedStarted (addon :: rest) slug ↔
      ListedStarted [addon] slug ∨ ListedStarted rest slug := by
    simp only [ListedStarted, List.mem_cons, List.not_mem_nil, or_false, or_and_right, exists_or]
  refine ⟨fun slug => ?_, fun slug => ?_, fun slug => ?_⟩
  · rw [Discovered.append, List.mem_append, h.optedIn, h'.optedIn, hlisted, and_or_left]
  · rw [Discovered.append, List.mem_append, h.wmbusmeters, h'.wmbusmeters, hnamed, or_and_right]
  · rw [Discovered.append, List.mem_append, h.max2mqtt, h'.max2mqtt, hnamed, or_and_right]

/-- An entry without a name. -/
theorem finds_unnamed {addon : Json} (h : ∀ slug, ¬ EntryNamed addon slug) :
    Finds w device additional [addon] ⟨[], [], []⟩ := by
  have hlisted (slug : String) : ¬ ListedStarted [addon] slug := by
    rintro ⟨fields, hmem, hslug, -⟩
    exact h slug ⟨fields, (List.mem_singleton.mp hmem).symm, hslug⟩
  refine ⟨fun slug => ?_, fun slug => ?_, fun slug => ?_⟩ <;> simp [h, hlisted]

/-- An entry with a name contributes no other name. -/
theorem finds_named {fields : List (String × Json)} {slug : String} {found : Discovered}
    (hslug : Json.get fields "slug" = .str slug)
    (hopted : ∀ s, s ∈ found.optedIn ↔ s = slug ∧ slug ∈ additional ∧ isStarted fields = true)
    (hwmbus : ∀ s, s ∈ found.wmbusmeters ↔ s = slug ∧ slug ∉ additional ∧
      isWmbusmetersSlug slug = true ∧ InUse w device wmbusmetersUsesDevice slug)
    (hmax : ∀ s, s ∈ found.max2mqtt ↔ s = slug ∧ slug ∉ additional ∧
      isMax2mqttSlug slug = true ∧ InUse w device max2mqttUsesDevice slug) :
    Finds w device additional [.obj fields] found := by
  have hnamed (s : String) : (∃ addon ∈ [Json.obj fields], EntryNamed addon s) ↔ s = slug := by
    simp only [List.mem_singleton, exists_eq_left, EntryNamed, Json.obj.injEq]
    constructor
    · rintro ⟨_, rfl, hs⟩
      simpa using hs.symm.trans hslug
    · rintro rfl
      exact ⟨fields, rfl, hslug⟩
  have hlisted (s : String) :
      ListedStarted [.obj fields] s ↔ s = slug ∧ isStarted fields = true := by
    simp only [ListedStarted, List.mem_singleton, Json.obj.injEq]
    constructor
    · rintro ⟨_, rfl, hs, hstarted⟩
      exact ⟨by simpa using hs.symm.trans hslug, hstarted⟩
    · rintro ⟨rfl, hstarted⟩
      exact ⟨fields, rfl, hslug, hstarted⟩
  refine ⟨fun s => ?_, fun s => ?_, fun s => ?_⟩
  · rw [hopted, hlisted]
    constructor
    · rintro ⟨rfl, hmem, hstarted⟩
      exact ⟨hmem, rfl, hstarted⟩
    · rintro ⟨hmem, rfl, hstarted⟩
      exact ⟨rfl, hmem, hstarted⟩
  · rw [hwmbus, hnamed]
    exact and_congr_right fun hs => by rw [hs]
  · rw [hmax, hnamed]
    exact and_congr_right fun hs => by rw [hs]

@[simp] theorem append_empty (found : Discovered) : found.append ⟨[], [], []⟩ = found := by
  simp [Discovered.append]

theorem discoverAddon_named {fields : List (String × Json)} {slug : String}
    (hslug : Json.get fields "slug" = .str slug) :
    (∃ e, ∀ found, (discoverAddon device additional found (.obj fields)).eval w = .raised e) ∨
    ∃ more, (∀ found, (discoverAddon device additional found (.obj fields)).eval w =
        .returned (found.append more)) ∧
      Finds w device additional [.obj fields] more ∧ more.Controllable := by
  simp only [discoverAddon, hslug, List.contains_iff_mem]
  by_cases hadditional : slug ∈ additional
  · -- the operator's choice goes before the recognized names
    right
    by_cases hstarted : isStarted fields = true
    · refine ⟨⟨[], [], [slug]⟩, fun found => ?_, finds_named hslug (fun s => ?_) (fun s => ?_)
        fun s => ?_, by simp [Discovered.Controllable]⟩
      · simp [hadditional, hstarted, Discovered.append]
      all_goals simp [hadditional, hstarted]
    · refine ⟨⟨[], [], []⟩, fun found => ?_, finds_named hslug (fun s => ?_) (fun s => ?_)
        fun s => ?_, by simp [Discovered.Controllable]⟩
      · simp [hadditional, hstarted]
      all_goals simp [hadditional, hstarted]
  simp only [if_neg hadditional]
  by_cases hwmbus : isWmbusmetersSlug slug = true
  · have hmax := not_isMax2mqttSlug hwmbus
    simp only [if_pos hwmbus, Prog.eval_bind]
    obtain ⟨e, heval⟩ | ⟨used, heval, haccepted, hin⟩ := startedOnDevice_eval
      (isWmbusmetersSlug_ne_self hwmbus) (wmbusmetersUsesDevice_ne_cut w device)
    · exact .inl ⟨e, fun found => by rw [heval]; rfl⟩
    · right
      simp only [heval, Outcome.returned_bind]
      cases used with
      | true =>
        refine ⟨⟨[slug], [], []⟩, fun found => by simp [Discovered.append], finds_named hslug
          (fun s => ?_) (fun s => ?_) fun s => ?_, by simp [Discovered.Controllable, haccepted]⟩
        · simp [hadditional]
        · simp [hadditional, hwmbus, hin.mp rfl]
        · simp [hmax]
      | false =>
        have hnot : ¬ InUse w device wmbusmetersUsesDevice slug := fun h => by simpa using hin.mpr h
        refine ⟨⟨[], [], []⟩, fun found => by simp, finds_named hslug (fun s => ?_) (fun s => ?_)
          fun s => ?_, by simp [Discovered.Controllable]⟩
        · simp [hadditional]
        · simp [hnot]
        · simp [hmax]
  simp only [if_neg hwmbus]
  by_cases hmax : isMax2mqttSlug slug = true
  · simp only [if_pos hmax, Prog.eval_bind]
    obtain ⟨e, heval⟩ | ⟨used, heval, haccepted, hin⟩ := startedOnDevice_eval
      (isMax2mqttSlug_ne_self hmax) (max2mqttUsesDevice_ne_cut w device)
    · exact .inl ⟨e, fun found => by rw [heval]; rfl⟩
    · right
      simp only [heval, Outcome.returned_bind]
      cases used with
      | true =>
        refine ⟨⟨[], [slug], []⟩, fun found => by simp [Discovered.append], finds_named hslug
          (fun s => ?_) (fun s => ?_) fun s => ?_, by simp [Discovered.Controllable, haccepted]⟩
        · simp [hadditional]
        · simp [hwmbus]
        · simp [hadditional, hmax, hin.mp rfl]
      | false =>
        have hnot : ¬ InUse w device max2mqttUsesDevice slug := fun h => by simpa using hin.mpr h
        refine ⟨⟨[], [], []⟩, fun found => by simp, finds_named hslug (fun s => ?_) (fun s => ?_)
          fun s => ?_, by simp [Discovered.Controllable]⟩
        · simp [hadditional]
        · simp [hwmbus]
        · simp [hnot]
  · right
    refine ⟨⟨[], [], []⟩, fun found => by simp [hmax], finds_named hslug (fun s => ?_) (fun s => ?_)
      fun s => ?_, by simp [Discovered.Controllable]⟩
    · simp [hadditional]
    · simp [hwmbus]
    · simp [hmax]

variable (w device additional) in
/-- One entry: its info cannot be read, or it adds what it shows. -/
theorem discoverAddon_eval (addon : Json) :
    (∃ e, ∀ found, (discoverAddon device additional found addon).eval w = .raised e) ∨
    ∃ more, (∀ found, (discoverAddon device additional found addon).eval w =
        .returned (found.append more)) ∧
      Finds w device additional [addon] more ∧ more.Controllable := by
  by_cases hnamed : ∃ slug, EntryNamed addon slug
  · obtain ⟨slug, fields, rfl, hslug⟩ := hnamed
    exact discoverAddon_named hslug
  · refine .inr ⟨⟨[], [], []⟩, fun found => ?_, finds_unnamed fun slug h => hnamed ⟨slug, h⟩,
      by simp [Discovered.Controllable]⟩
    rw [append_empty]
    unfold discoverAddon
    split
    · rename_i fields
      split
      · rename_i slug hslug
        exact absurd ⟨slug, fields, rfl, hslug⟩ hnamed
      · rfl
    · rfl

variable (w device additional) in
theorem discoverAddons_eval (addons : List Json) :
    (∃ e, ∀ found, (discoverAddons device additional found addons).eval w = .raised e) ∨
    ∃ more, (∀ found, (discoverAddons device additional found addons).eval w =
        .returned (found.append more)) ∧
      Finds w device additional addons more ∧ more.Controllable := by
  induction addons with
  | nil =>
    refine .inr ⟨⟨[], [], []⟩, fun found => by simp [discoverAddons], ?_,
      by simp [Discovered.Controllable]⟩
    refine ⟨fun slug => ?_, fun slug => ?_, fun slug => ?_⟩ <;> simp [ListedStarted]
  | cons addon rest ih =>
    simp only [discoverAddons, Prog.eval_bind]
    obtain ⟨e, heval⟩ | ⟨more, heval, hfinds, hcontrol⟩ :=
      discoverAddon_eval w device additional addon
    · exact .inl ⟨e, fun found => by rw [heval]; rfl⟩
    simp only [heval, Outcome.returned_bind]
    obtain ⟨e, hrest⟩ | ⟨others, hrest, hfinds', hcontrol'⟩ := ih
    · exact .inl ⟨e, fun found => hrest _⟩
    · refine .inr ⟨more.append others, fun found => ?_, hfinds.cons hfinds', fun slug hslug => ?_⟩
      · rw [hrest]
        simp [Discovered.append]
      · simp only [Discovered.append, List.mem_append] at hslug
        have hcases : slug ∈ more.wmbusmeters ++ more.max2mqtt ∨
            slug ∈ others.wmbusmeters ++ others.max2mqtt := by
          simp only [List.mem_append]
          tauto
        exact hcases.elim (hcontrol slug) (hcontrol' slug)

/-- The list is read to its end exactly when every entry can be read. -/
theorem discoverAddons_returns_iff {addons : List Json} (found : Discovered) :
    (∃ all, (discoverAddons device additional found addons).eval w = .returned all) ↔
      ∀ addon ∈ addons, ∃ more, ∀ found,
        (discoverAddon device additional found addon).eval w = .returned (found.append more) := by
  induction addons generalizing found with
  | nil => simp [discoverAddons]
  | cons addon rest ih =>
    simp only [discoverAddons, Prog.eval_bind, List.forall_mem_cons]
    obtain ⟨e, heval⟩ | ⟨more, heval, -⟩ :=
      discoverAddon_eval w device additional addon
    · simp [heval]
    · rw [heval, Outcome.returned_bind, ih]
      exact ⟨fun h => ⟨⟨more, heval⟩, h⟩, fun h => h.2⟩

end List

/-! ## The other answers -/

section Frame

/-- Everything but the request for the add-on list. -/
def NotListing (o : World.Op) : Prop := o ≠ Op.request .get "/addons"

theorem uses_notListing {p : Program α} (h : Uses [.file] p) : Emits NotListing p :=
  Emits.mono (fun o ho heq => by subst heq; simp [Op.kind] at ho) h

theorem infoPath_ne (path : String) : s!"/addons/{path}/info" ≠ "/addons" := by
  intro h
  change "/addons/" ++ path ++ "/info" = "/addons" at h
  have hlength := congrArg String.length h
  simp only [String.length_append] at hlength
  have hprefix : "/addons/".length = 8 := by decide
  have hshort : "/addons".length = 7 := by decide
  omega

theorem startedOnDevice_notListing (slug : String) {usesDevice : Json → Program Bool}
    (h : ∀ options, Uses [.file] (usesDevice options)) :
    Emits NotListing (startedOnDevice slug usesDevice) := by
  refine Emits.bind ?_ fun info => ?_
  · refine (Emits.ofExcept _).bind fun path => ?_
    refine Emits.bind (Emits.bind (Emits.perform ?_) fun outcome => Emits.ofExcept _)
      fun document => Emits.ofExcept _
    intro heq
    exact infoPath_ne path (Op.request.inj heq).2
  · split_ifs
    · exact uses_notListing (h _)
    · trivial

theorem discoverAddons_notListing (device : Path) (additional : List String) (found : Discovered)
    (addons : List Json) : Emits NotListing (discoverAddons device additional found addons) := by
  induction addons generalizing found with
  | nil => trivial
  | cons addon rest ih =>
    refine Emits.bind ?_ fun found' => ih found'
    unfold discoverAddon
    split
    · split
      · split_ifs
        · trivial
        · trivial
        · exact (startedOnDevice_notListing _ fun _ => wmbusmetersUsesDevice_uses _ _).bind
            fun _ => .pure _
        · exact (startedOnDevice_notListing _ fun _ => max2mqttUsesDevice_uses _ _).bind
            fun _ => .pure _
        · trivial
      · trivial
    · trivial

end Frame

/-! ## The slugs of the operator -/

theorem mem_slugChars {c : Char} (h : isSlugChar c = true) :
    c ∈ "abcdefghijklmnopqrstuvwxyz0123456789_-".toList := by
  have hascii : ∀ n < 123, isSlugChar (Char.ofNat n) = true →
      Char.ofNat n ∈ "abcdefghijklmnopqrstuvwxyz0123456789_-".toList := by decide
  have hbound : c.toNat < 123 := by
    simp only [isSlugChar, Bool.or_eq_true, Bool.and_eq_true, decide_eq_true_eq] at h
    obtain ((⟨-, hhigh⟩ | ⟨-, hhigh⟩) | rfl) | rfl := h
    · exact Nat.lt_succ_of_le (show c.toNat ≤ 122 from hhigh)
    · exact Nat.lt_of_le_of_lt (show c.toNat ≤ 57 from hhigh) (by decide)
    · decide
    · decide
  have hc := hascii c.toNat hbound
  rw [Char.ofNat_toNat] at hc
  exact hc h

/-- Both copies of the slug grammar agree. -/
theorem isAddonSlug_of_addonSlug {value : Json} {slug : String} (h : addonSlug value = .ok slug) :
    isAddonSlug slug = true := by
  unfold addonSlug at h
  split at h
  · split_ifs at h with hinvalid
    cases h
    simp only [not_or, Bool.not_eq_false] at hinvalid
    obtain ⟨hne, hlength, hself, hchars⟩ := hinvalid
    have hpos : 1 ≤ slug.length := by
      rw [Nat.one_le_iff_ne_zero]
      exact fun hzero => hne (by simpa using hzero)
    have hall :
        slug.toList.all "abcdefghijklmnopqrstuvwxyz0123456789_-".toList.contains = true := by
      rw [List.all_eq_true] at hchars ⊢
      exact fun c hc => List.contains_iff_mem.mpr (mem_slugChars (hchars c hc))
    rw [isAddonSlug, hall]
    simp [hpos, hself, Nat.not_lt.mp hlength]
  · cases h

theorem isAddonSlug_of_additionalCulAddons {value : Json} {additional : List String}
    (h : additionalCulAddons value = .ok additional) :
    ∀ slug ∈ additional, isAddonSlug slug = true := by
  have hitems (items : List Json) (slugs : List String)
    (hslugs : items.mapM addonSlug = .ok slugs) :
      ∀ slug ∈ slugs, isAddonSlug slug = true := by
    induction items generalizing slugs with
    | nil =>
      cases hslugs
      simp
    | cons item rest ih =>
      rw [List.mapM_cons] at hslugs
      cases hitem : addonSlug item with
      | error e => simp [hitem, bind, Except.bind] at hslugs
      | ok first =>
        cases hrest : rest.mapM addonSlug with
        | error e => simp [hitem, hrest, bind, Except.bind] at hslugs
        | ok others =>
          obtain rfl : first :: others = slugs := by
            simpa [hitem, hrest, bind, Except.bind, pure, Except.pure] using hslugs
          rintro slug (_ | ⟨_, hslug⟩)
          · exact isAddonSlug_of_addonSlug hitem
          · exact ih others hrest slug hslug
  unfold additionalCulAddons at h
  split at h
  · cases h
    simp
  · rename_i items
    split_ifs at h
    cases hslugs : items.mapM addonSlug with
    | error e => simp [hslugs, bind, Except.bind] at h
    | ok slugs =>
      obtain rfl : sortedSet slugs = additional := by
        simpa [hslugs, bind, Except.bind, pure, Except.pure] using h
      exact fun slug hslug => hitems items slugs hslugs slug (mem_sortedSet.mp hslug)
  · cases h

/-! ## The result -/

/-- The tuples hold exactly the consumers that the documents show. -/
structure ExactPause (addons : List Json) (p : CulConsumerPause) : Prop where
  sorted : p.wmbusmetersAddons.SortedLT ∧ p.max2mqttAddons.SortedLT ∧ p.additionalAddons.SortedLT
  disjoint : p.wmbusmetersAddons.Disjoint p.max2mqttAddons ∧
    p.wmbusmetersAddons.Disjoint p.additionalAddons ∧ p.max2mqttAddons.Disjoint p.additionalAddons
  found : Finds w device additional addons
    ⟨p.wmbusmetersAddons, p.max2mqttAddons, p.additionalAddons⟩
  controlled : ∀ slug ∈ p.wmbusmetersAddons ++ p.max2mqttAddons ++ p.additionalAddons,
    stopAddon slug = (request .post s!"/addons/{slug}/stop" >>= fun _ => pure ()) ∧
    startAddon slug = (request .post s!"/addons/{slug}/start" >>= fun _ => pure ())

section Result
variable {w device additional}

theorem Finds.sorted {addons : List Json} {found : Discovered}
    (h : Finds w device additional addons found) : Finds w device additional addons
      ⟨sortedSet found.wmbusmeters, sortedSet found.max2mqtt, sortedSet found.optedIn⟩ := by
  refine ⟨fun slug => ?_, fun slug => ?_, fun slug => ?_⟩
  · rw [mem_sortedSet]
    exact h.optedIn slug
  · rw [mem_sortedSet]
    exact h.wmbusmeters slug
  · rw [mem_sortedSet]
    exact h.max2mqtt slug

theorem exactPause_of_finds {addons : List Json} {found : Discovered}
    (h : Finds w device additional addons found) (hcontrol : found.Controllable)
    (hadditional : ∀ slug ∈ additional, isAddonSlug slug = true) :
    ExactPause w device additional addons (.make (sortedSet found.wmbusmeters)
      (sortedSet found.max2mqtt) (sortedSet found.optedIn)) where
  sorted := ⟨sortedSet_sorted _, sortedSet_sorted _, sortedSet_sorted _⟩
  disjoint := by
    refine ⟨fun slug hwmbus hmax => ?_, fun slug hwmbus hopted => ?_, fun slug hmax hopted => ?_⟩
    · have hnot := not_isMax2mqttSlug ((h.sorted.wmbusmeters slug).mp hwmbus).2.2.1
      rw [((h.sorted.max2mqtt slug).mp hmax).2.2.1] at hnot
      cases hnot
    · exact ((h.sorted.wmbusmeters slug).mp hwmbus).2.1 ((h.sorted.optedIn slug).mp hopted).1
    · exact ((h.sorted.max2mqtt slug).mp hmax).2.1 ((h.sorted.optedIn slug).mp hopted).1
  found := h.sorted
  controlled := by
    intro slug hslug
    have haccepted : isAddonSlug slug = true := by
      rcases List.mem_append.mp hslug with hrecognized | hopted
      · refine hcontrol slug ?_
        rw [List.mem_append] at hrecognized ⊢
        exact hrecognized.imp mem_sortedSet.mp mem_sortedSet.mp
      · exact hadditional slug ((h.sorted.optedIn slug).mp hopted).1
    constructor
    · unfold stopAddon
      rw [quoteSlug_of_accepted haccepted]
      rfl
    · unfold startAddon
      rw [quoteSlug_of_accepted haccepted]
      rfl

theorem running_eval : (runningCulConsumersUsingDevice device additional).eval w =
    (Outcome.ofExcept (addonList w)).bind fun addons =>
      ((discoverAddons device (additional.filter isAddonSlug) ⟨[], [], []⟩ addons).eval w).bind
        fun found => .returned (.make (sortedSet found.wmbusmeters) (sortedSet found.max2mqtt)
          (sortedSet found.optedIn)) := by
  unfold runningCulConsumersUsingDevice addonList
  rw [Prog.eval_bind, request_eval]
  cases responseFields .get "/addons" (w (.request .get "/addons")) with
  | error e => rfl
  | ok document =>
    simp only [Outcome.ofExcept, Outcome.returned_bind]
    rw [Prog.eval_bind, Prog.eval_ofExcept]
    cases requireMapping (Json.get document "data") "add-on list" with
    | error e => rfl
    | ok data =>
      simp only [Outcome.ofExcept, Outcome.returned_bind]
      cases Json.get data "addons" with
      | arr addons => exact Prog.eval_bind w _ _
      | _ => rfl

theorem running_answers (hadditional : ∀ slug ∈ additional, isAddonSlug slug = true) :
    (∃ e, (runningCulConsumersUsingDevice device additional).eval w = .raised e) ∨
    ∃ addons p, addonList w = .ok addons ∧
      (runningCulConsumersUsingDevice device additional).eval w = .returned p ∧
      ExactPause w device additional addons p := by
  rw [running_eval, List.filter_eq_self.mpr hadditional]
  cases hlist : addonList w with
  | error e => exact .inl ⟨e, rfl⟩
  | ok addons =>
    simp only [Outcome.ofExcept, Outcome.returned_bind]
    obtain ⟨e, heval⟩ | ⟨more, heval, hfinds, hcontrol⟩ :=
      discoverAddons_eval w device additional addons
    · exact .inl ⟨e, by rw [heval]; rfl⟩
    · refine .inr ⟨addons, _, rfl, by rw [heval]; rfl, ?_⟩
      have happend : Discovered.append ⟨[], [], []⟩ more = more := rfl
      rw [happend]
      exact exactPause_of_finds hfinds hcontrol hadditional

/-- What two lists of the same entries show is the same. -/
theorem Finds.perm {addons others : List Json} {found : Discovered}
    (hfinds : Finds w device additional addons found) (h : addons.Perm others) :
    Finds w device additional others found := by
  have hnamed (slug : String) :
      (∃ a ∈ others, EntryNamed a slug) ↔ ∃ a ∈ addons, EntryNamed a slug := by
    simp only [h.mem_iff]
  have hlisted (slug : String) : ListedStarted others slug ↔ ListedStarted addons slug := by
    simp only [ListedStarted, h.mem_iff]
  refine ⟨fun slug => ?_, fun slug => ?_, fun slug => ?_⟩
  · rw [hlisted]
    exact hfinds.optedIn slug
  · rw [hnamed]
    exact hfinds.wmbusmeters slug
  · rw [hnamed]
    exact hfinds.max2mqtt slug

theorem Finds.unique {addons : List Json} {found others : Discovered}
    (h : Finds w device additional addons found) (h' : Finds w device additional addons others) :
    sortedSet found.wmbusmeters = sortedSet others.wmbusmeters ∧
      sortedSet found.max2mqtt = sortedSet others.max2mqtt ∧
      sortedSet found.optedIn = sortedSet others.optedIn :=
  ⟨sortedSet_congr fun slug => (h.wmbusmeters slug).trans (h'.wmbusmeters slug).symm,
    sortedSet_congr fun slug => (h.max2mqtt slug).trans (h'.max2mqtt slug).symm,
    sortedSet_congr fun slug => (h.optedIn slug).trans (h'.optedIn slug).symm⟩

theorem running_perm {w' : (o : World.Op) → World.Ans o} (hw : ∀ o, NotListing o → w' o = w o)
    {addons others : List Json} (hlist : addonList w = .ok addons)
    (hlist' : addonList w' = .ok others) (hperm : addons.Perm others) {p : CulConsumerPause}
    (h : (runningCulConsumersUsingDevice device additional).eval w = .returned p) :
    (runningCulConsumersUsingDevice device additional).eval w' = .returned p := by
  rw [running_eval, hlist] at h
  rw [running_eval, hlist']
  simp only [Outcome.ofExcept, Outcome.returned_bind] at h ⊢
  rw [Prog.eval_congr (discoverAddons_notListing device _ _ others) hw]
  obtain ⟨e, heval⟩ | ⟨more, heval, hfinds, -⟩ := discoverAddons_eval w device
    (additional.filter isAddonSlug) addons
  · simp [heval] at h
  have hreadable := (discoverAddons_returns_iff ⟨[], [], []⟩).mp ⟨_, heval _⟩
  obtain ⟨e, heval'⟩ | ⟨more', heval', hfinds', -⟩ := discoverAddons_eval w device
    (additional.filter isAddonSlug) others
  · obtain ⟨all, hall⟩ := (discoverAddons_returns_iff ⟨[], [], []⟩).mpr
      fun addon haddon => hreadable addon (hperm.mem_iff.mpr haddon)
    cases (heval' _).symm.trans hall
  · rw [heval']
    rw [heval] at h
    obtain ⟨hwmbus, hmax, hopted⟩ := (hfinds.perm hperm).unique hfinds'
    simpa [Discovered.append, hwmbus, hmax, hopted] using h

end Result

/-! ## Exceptions of another class -/

section Broken
variable {w device additional} {C : Exn → Prop}

theorem request_passesOn (hC : ∀ e, e.isSupervisorError = true → ¬ C e) (method : HttpMethod)
    (path : String) : PassesOn C (request method path) := by
  intro t r h hr
  obtain ⟨(outcome : HttpOutcome), t', rfl, hrest⟩ := Run.call_inv h hr
  by_cases hraised : ∃ e, outcome = .raised e
  · obtain ⟨e, rfl⟩ := hraised
    obtain ⟨rfl, rfl | rfl⟩ := Run.raise_iff.mp hrest
    · simp [Passed, letThrough]
    · exact absurd rfl hr
  · change Run (.ofExcept (responseFields method path outcome)) t' r at hrest
    have hquiet : letThrough ⟨.request method path, outcome⟩ = none := by
      cases outcome with
      | raised e => exact absurd ⟨e, rfl⟩ hraised
      | _ => rfl
    have hfields : PassesOn C (.ofExcept (responseFields method path outcome)) :=
      .ofExcept fun e he => hC e ((responseFields_error he).resolve_right fun h => hraised ⟨e, h⟩)
    rw [← hfields t' r hrest hr]
    simp [Passed, hquiet]

theorem addonInfo_passesOn (hC : ∀ e, e.isSupervisorError = true → ¬ C e) (slug : String) :
    PassesOn C (addonInfo slug) := by
  refine (Passes.ofExcept fun e he => hC e ?_).bind fun path => ?_
  · unfold addonPath at he
    split_ifs at he
    exact quoteSlug_error he
  · exact (request_passesOn hC _ _).bind fun document =>
      .ofExcept fun e he => hC e (requireMapping_error he)

theorem startedOnDevice_passesOn (hC : ∀ e, e.isSupervisorError = true → ¬ C e) (slug : String)
    {usesDevice : Json → Program Bool} (huses : ∀ options, PassesOn C (usesDevice options)) :
    PassesOn C (startedOnDevice slug usesDevice) := by
  refine (addonInfo_passesOn hC slug).bind fun info => ?_
  split_ifs
  · exact huses _
  · exact .pure _

theorem discoverAddon_passesOn (hC : ∀ e, e.isSupervisorError = true → ¬ C e) (found : Discovered)
    (addon : Json) : PassesOn C (discoverAddon device additional found addon) := by
  unfold discoverAddon
  split
  · split
    · split_ifs
      · exact .pure _
      · exact .pure _
      · exact (startedOnDevice_passesOn hC _ fun _ => wmbusmetersUsesDevice_passesOn _ _).bind
          fun _ => .pure _
      · exact (startedOnDevice_passesOn hC _ fun _ => max2mqttUsesDevice_passesOn _ _).bind
          fun _ => .pure _
      · exact .pure _
    · exact .pure _
  · exact .pure _

theorem discoverAddons_passesOn (hC : ∀ e, e.isSupervisorError = true → ¬ C e) (found : Discovered)
    (addons : List Json) : PassesOn C (discoverAddons device additional found addons) := by
  induction addons generalizing found with
  | nil => exact .pure _
  | cons addon rest ih => exact (discoverAddon_passesOn hC found addon).bind ih

theorem running_passesOn (hC : ∀ e, e.isSupervisorError = true → ¬ C e) :
    PassesOn C (runningCulConsumersUsingDevice device additional) := by
  refine (request_passesOn hC _ _).bind fun document =>
    (Passes.ofExcept fun e he => hC e (requireMapping_error he)).bind fun data => ?_
  split
  · exact (discoverAddons_passesOn hC _ _).bind fun _ => .pure _
  · exact .raise (hC _ rfl)

end Broken

/-- Discovery fails as its caller expects, or returns what the documents show. -/
def Discovers : Prop :=
  (∃ e, (runningCulConsumersUsingDevice device additional).eval w = .raised e ∧
    e.isSupervisorError = true) ∨
  ∃ addons p, addonList w = .ok addons ∧
    (runningCulConsumersUsingDevice device additional).eval w = .returned p ∧
    ExactPause w device additional addons p

/-- Whatever the client lets through in the run of the discovery is a `SupervisorError`. -/
def Expected : Prop :=
  ∀ t r, Run (runningCulConsumersUsingDevice device additional) t r → r ≠ .cut →
    (∀ x ∈ t, x.ans = w x.op) → ∀ x ∈ t, ∀ e, letThrough x = some e → e.isSupervisorError = true

section Result
variable {w device additional}

theorem discovers_iff (hadditional : ∀ slug ∈ additional, isAddonSlug slug = true) :
    Discovers w device additional ↔ Expected w device additional := by
  have hpasses : PassesOn (fun e => e.isSupervisorError = false)
      (runningCulConsumersUsingDevice device additional) :=
    running_passesOn (by simp)
  constructor
  · intro hdiscovers t r hrun hr hanswers x hx e he
    by_contra hother
    have heval := Prog.eval_eq_of_run w hrun hanswers hr
    obtain ⟨e', rfl, hclass⟩ := (hpasses t r hrun hr).mp ⟨x, hx, e, he, by simpa using hother⟩
    rcases hdiscovers with ⟨e'', hraised, hclass'⟩ | ⟨addons, p, -, hreturned, -⟩
    · cases heval.symm.trans hraised
      rw [hclass'] at hclass
      cases hclass
    · cases heval.symm.trans hreturned
  · intro hexpected
    rcases @running_answers w device _ hadditional with ⟨e, hraised⟩ | hreturned
    · refine .inl ⟨e, hraised, ?_⟩
      by_contra hother
      have hrun := Run.of_exec (fun _ => w) (runningCulConsumersUsingDevice device additional) 0
      rw [Prog.exec_eval, hraised] at hrun
      have hanswers : ∀ x ∈ ((runningCulConsumersUsingDevice device additional).exec
          (fun _ => w) 0).1, x.ans = w x.op := fun x hx => (Prog.exec_answers hx).choose_spec
      obtain ⟨x, hx, e', he', hclass⟩ :=
        (hpasses _ _ hrun nofun).mpr ⟨e, rfl, by simpa using hother⟩
      rw [hexpected _ _ hrun nofun hanswers x hx e' he'] at hclass
      cases hclass
    · exact .inr hreturned

end Result

/-- Discovery returns exactly the consumers that the documents show, whatever the
order of the list, and asks for nothing to be stopped. It fails with a `SupervisorError`
only, unless a step raises another exception that the client lets through. -/
theorem discovery_exact_iff {value : Json} (h : additionalCulAddons value = .ok additional) :
    (Discovers w device additional ↔ Expected w device additional) ∧
    additional.filter isAddonSlug = additional ∧
    (∀ t r, Run (runningCulConsumersUsingDevice device additional) t r →
      ∀ e ∈ t, e.op.kind ∈ [.get, .file]) ∧
    ∀ w' addons others, (∀ o, NotListing o → w' o = w o) → addonList w = .ok addons →
      addonList w' = .ok others → addons.Perm others → ∀ p,
        (runningCulConsumersUsingDevice device additional).eval w = .returned p ↔
          (runningCulConsumersUsingDevice device additional).eval w' = .returned p := by
  have hadditional := isAddonSlug_of_additionalCulAddons h
  refine ⟨discovers_iff hadditional, List.filter_eq_self.mpr hadditional, fun t r hrun => ?_,
    fun w' addons others hw hlist hlist' hperm p => ⟨fun hp => ?_, fun hp => ?_⟩⟩
  · exact (runningCulConsumersUsingDevice_uses device additional).run hrun
  · exact running_perm hw hlist hlist' hperm hp
  · exact running_perm (fun o ho => (hw o ho).symm) hlist' hlist hperm.symm hp

/-- A list with a malformed entry and a duplicate. -/
def fhemScript : Script where
  usb := fun _ => .ofDevices [] []
  addons := [.null, .obj [("slug", .str "a0d7b954_fhem"), ("state", .str "started")],
    .obj [("slug", .str "a0d7b954_fhem"), ("state", .str "started")]]

theorem discovery_exact_iff_fhem : ExactPause (fhemScript.answer 0) ⟨"/", ["dev", "ttyACM0"]⟩
    ["a0d7b954_fhem"] fhemScript.addons (.make [] [] ["a0d7b954_fhem"]) := by
  have heval : (runningCulConsumersUsingDevice ⟨"/", ["dev", "ttyACM0"]⟩ ["a0d7b954_fhem"]).eval
      (fhemScript.answer 0) = .returned (.make [] [] ["a0d7b954_fhem"]) := rfl
  have hlist : addonList (fhemScript.answer 0) = .ok fhemScript.addons := rfl
  have hexpected : Expected (fhemScript.answer 0) ⟨"/", ["dev", "ttyACM0"]⟩ ["a0d7b954_fhem"] := by
    intro t r hrun hr hanswers x hx e he
    have hget := (runningCulConsumersUsingDevice_uses _ _).run hrun x hx
    obtain ⟨o, answer⟩ := x
    obtain rfl : answer = fhemScript.answer 0 o := hanswers _ hx
    cases o with
    | request method path =>
      cases method with
      | get => cases he
      | post => simp [Op.kind] at hget
    | _ => cases he
  obtain ⟨hiff, -⟩ := discovery_exact_iff (fhemScript.answer 0) ⟨"/", ["dev", "ttyACM0"]⟩
    ["a0d7b954_fhem"]
    (show additionalCulAddons (.arr [.str "a0d7b954_fhem"]) = .ok ["a0d7b954_fhem"] by decide)
  obtain ⟨e, hraised, -⟩ | ⟨addons, p, haddons, hp, hexact⟩ := hiff.mpr hexpected
  · cases heval.symm.trans hraised
  · cases heval.symm.trans hp
    cases hlist.symm.trans haddons
    exact hexact

/-- A started add-on names a device whose name cannot be encoded: a surrogate on its
own reads as `\ufffd` here. -/
def surrogateAnswer : (o : World.Op) → World.Ans o
  | .request .get _ => HttpOutcome.response 0 (some (.obj [("result", .str "ok"),
      ("data", .obj [("addons", .arr [.obj [("slug", .str "core_wmbusmeters")]]),
        ("state", .str "started"),
        ("options", .obj [("conf", .obj [("device", .str "/dev/\ufffd")])])])]))
  | .resolvePath _ => .error (.valueError "surrogates not allowed")
  | o => fhemScript.answer 0 o

theorem discovery_breaks_off : ¬ ∀ w device value additional,
    additionalCulAddons value = .ok additional → Discovers w device additional := by
  intro h
  have heval : (runningCulConsumersUsingDevice ⟨"/", ["dev", "ttyACM0"]⟩ []).eval surrogateAnswer =
      .raised (.valueError "surrogates not allowed") :=
    Outcome.exception_eq_some.mp (by decide +kernel)
  obtain ⟨e, hraised, hclass⟩ | ⟨addons, p, -, hreturned, -⟩ :=
    h surrogateAnswer ⟨"/", ["dev", "ttyACM0"]⟩ (.arr []) [] (by decide)
  · cases heval.symm.trans hraised
    cases hclass
  · cases heval.symm.trans hreturned

end SupervisorClient
end Cul868Flasher
