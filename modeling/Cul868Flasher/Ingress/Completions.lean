import Cul868Flasher.Effects.Lowering
import Cul868Flasher.Flasher.Consumers
import Cul868Flasher.Ingress.Sequence
import Cul868Flasher.Python.Excerpt

/-!
# What the operator reads after a flash

The worker announces stopped apps whether there are any or not, and a status
message is cut off at 512 characters. A completion is reported faithfully
exactly when neither is seen.
-/

namespace Cul868Flasher
open Python Effects

/-! ## Collapsed whitespace -/

/-- `" ".join(value.split())`. -/
def collapse (value : List Char) : List Char := [' '].intercalate (words value)

theorem words_append (a b : List Char) : words (a ++ ' ' :: b) = words a ++ words b := by
  rw [words, List.splitOnP_append_cons _ _ (by decide), List.filter_append]
  rfl

theorem intercalate_append {l m : List (List Char)} (hl : l ≠ []) (hm : m ≠ []) :
    [' '].intercalate (l ++ m) = [' '].intercalate l ++ ' ' :: [' '].intercalate m := by
  induction l with
  | nil => exact absurd rfl hl
  | cons x l ih =>
    cases l with
    | nil => simp [List.intercalate_cons_of_ne_nil hm]
    | cons y l =>
      rw [List.cons_append, List.intercalate_cons_of_ne_nil (by simp), ih (by simp),
        List.intercalate_cons_cons]
      simp

theorem collapse_append {a b : List Char} (ha : words a ≠ []) (hb : words b ≠ []) :
    collapse (a ++ ' ' :: b) = collapse a ++ ' ' :: collapse b := by
  rw [collapse, words_append, intercalate_append ha hb]
  rfl

theorem words_of_unspaced {a : List Char} (h : ∀ c ∈ a, isSpace c = false) (hne : a ≠ []) :
    words a = [a] := by
  rw [words, List.splitOnP_eq_singleton h]
  simp [hne]

theorem collapse_of_unspaced {a : List Char} (h : ∀ c ∈ a, isSpace c = false) (hne : a ≠ []) :
    collapse a = a := by
  rw [collapse, words_of_unspaced h hne, List.intercalate_singleton]

theorem splitOnP_snoc (a : List Char) {c : Char} (hc : isSpace c = false) :
    ∃ chunks last, (a ++ [c]).splitOnP isSpace = chunks ++ [last ++ [c]] := by
  induction a with
  | nil => exact ⟨[], [], by simp [List.splitOnP_cons_eq_if_modifyHead, hc]⟩
  | cons x a ih =>
    obtain ⟨chunks, last, h⟩ := ih
    rw [List.cons_append, List.splitOnP_cons_eq_if_modifyHead, h]
    split_ifs
    · exact ⟨[] :: chunks, last, rfl⟩
    · cases chunks with
      | nil => exact ⟨[], x :: last, rfl⟩
      | cons chunk chunks => exact ⟨(x :: chunk) :: chunks, last, rfl⟩

/-- A last character that is no blank stays the last one. -/
theorem collapse_snoc (a : List Char) {c : Char} (hc : isSpace c = false) :
    words (a ++ [c]) ≠ [] ∧ ∃ b, collapse (a ++ [c]) = b ++ [c] := by
  obtain ⟨chunks, last, h⟩ := splitOnP_snoc a hc
  have hwords : words (a ++ [c]) = chunks.filter (fun word => !word.isEmpty) ++ [last ++ [c]] := by
    rw [words, h, List.filter_append]
    simp
  refine ⟨by simp [hwords], ?_⟩
  rw [collapse, hwords]
  generalize chunks.filter (fun word => !word.isEmpty) = front
  cases front with
  | nil => exact ⟨last, List.intercalate_singleton⟩
  | cons x front =>
    rw [intercalate_append (by simp) (by simp), List.intercalate_singleton]
    exact ⟨[' '].intercalate (x :: front) ++ ' ' :: last, by simp⟩

/-! ## The list of names -/

/-- Of a list separated by commas, what `room` characters show of this name. -/
def Shown (slug : List Char) : ℕ → List String → Prop
  | _, [] => False
  | room, listed :: rest =>
    slug <:+: listed.toList.take room ∨ Shown slug (room - listed.toList.length - 2) rest

def listing (slugs : List String) : List Char := [',', ' '].intercalate (slugs.map String.toList)

theorem listing_cons (slug other : String) (rest : List String) : listing (slug :: other :: rest) =
    slug.toList ++ ',' :: ' ' :: listing (other :: rest) := by
  simp [listing, List.intercalate_cons_cons]

theorem infix_listing {slug : List Char} (hne : slug ≠ []) (hcomma : ',' ∉ slug)
    (hblank : ' ' ∉ slug) (slugs : List String) (room : ℕ) :
    slug <:+: (listing slugs).take room ↔ Shown slug room slugs := by
  induction slugs generalizing room with
  | nil => simp [listing, Shown, hne]
  | cons listed rest ih =>
    cases rest with
    | nil => simp [listing, Shown]
    | cons other rest =>
      have hsplit := infix_take_append_cons (a := []) (b := listing (other :: rest)) hblank hne
        (room - listed.toList.length - 1)
      rw [List.nil_append, List.take_nil, List.infix_nil, List.length_nil] at hsplit
      rw [listing_cons, infix_take_append_cons hcomma hne, hsplit, Shown, ih]
      simp only [hne, false_or]
      exact Iff.rfl

theorem slug_chars {slug : String} (h : SupervisorClient.isAddonSlug slug = true) :
    slug.toList ≠ [] ∧ ∀ c ∈ slug.toList, isSpace c = false ∧ c ≠ ',' ∧ c ≠ 'C' := by
  simp only [SupervisorClient.isAddonSlug, Bool.and_eq_true, decide_eq_true_eq] at h
  obtain ⟨⟨⟨hpos, -⟩, -⟩, hchars⟩ := h
  refine ⟨?_, fun c hc => ?_⟩
  · intro hnil
    simp [String.toList_eq_nil_iff.mp hnil] at hpos
  · have hletters : "abcdefghijklmnopqrstuvwxyz0123456789_-".toList.all
        (fun c => decide (isSpace c = false ∧ c ≠ ',' ∧ c ≠ 'C')) = true := by decide
    exact of_decide_eq_true (List.all_eq_true.mp hletters c
      (List.contains_iff_mem.mp (List.all_eq_true.mp hchars c hc)))

theorem slug_blank {slug : String} (h : SupervisorClient.isAddonSlug slug = true) :
    ' ' ∉ slug.toList := by
  intro hmem
  exact absurd ((slug_chars h).2 ' ' hmem).1 (by decide)

theorem collapse_listing {slugs : List String} (hne : slugs ≠ [])
    (h : ∀ slug ∈ slugs, SupervisorClient.isAddonSlug slug = true) :
    words (listing slugs) ≠ [] ∧ collapse (listing slugs) = listing slugs := by
  induction slugs with
  | nil => exact absurd rfl hne
  | cons slug rest ih =>
    obtain ⟨hslug, hchars⟩ := slug_chars (h slug List.mem_cons_self)
    have hunspaced : ∀ c ∈ slug.toList, isSpace c = false := fun c hc => (hchars c hc).1
    cases rest with
    | nil =>
      have hone : listing [slug] = slug.toList := by simp [listing]
      rw [hone, words_of_unspaced hunspaced hslug, collapse_of_unspaced hunspaced hslug]
      simp
    | cons other rest =>
      obtain ⟨hwords, hcollapse⟩ := ih (by simp) fun s hs => h s (List.mem_cons_of_mem _ hs)
      have hcomma : ∀ c ∈ slug.toList ++ [','], isSpace c = false := by
        intro c hc
        rcases List.mem_append.mp hc with hc | hc
        · exact hunspaced c hc
        · rw [List.mem_singleton.mp hc]
          decide
      have hfirst := words_of_unspaced hcomma (by simp)
      have hsplit : listing (slug :: other :: rest) =
          (slug.toList ++ [',']) ++ ' ' :: listing (other :: rest) := by
        rw [listing_cons]
        simp
      rw [hsplit, words_append, collapse_append (by simp [hfirst]) hwords, hcollapse,
        collapse_of_unspaced hcomma (by simp), hfirst]
      simp

theorem not_mem_listing {slugs : List String}
    (h : ∀ slug ∈ slugs, SupervisorClient.isAddonSlug slug = true) : 'C' ∉ listing slugs := by
  induction slugs with
  | nil => simp [listing]
  | cons slug rest ih =>
    have hslug : 'C' ∉ slug.toList :=
      fun hmem => ((slug_chars (h slug List.mem_cons_self)).2 'C' hmem).2.2 rfl
    cases rest with
    | nil => simpa [listing] using hslug
    | cons other rest =>
      rw [listing_cons]
      simp [hslug, ih fun s hs => h s (List.mem_cons_of_mem _ hs)]

/-! ## The message of a completion -/

/-- The words by which the operator learns of stopped apps. -/
def remainStopped : List Char := "CUL apps remain stopped".toList

def review : List Char := "CUL apps remain stopped for a manual serial-path review:".toList

def Says (message : String) : Prop := remainStopped <:+: message.toList

/-- Stopped apps are announced exactly when there are any, and then all are named. -/
def Faithful (message : String) (stopped : List String) : Prop :=
  (Says message ↔ stopped ≠ []) ∧ (stopped ≠ [] → ∀ slug ∈ stopped, slug.toList <:+: message.toList)

/-- The message up to the announcement. -/
def headline (result : FlashResult) : String :=
  let installed := if result.installedVersion = "" then "version unavailable"
    else result.installedVersion
  s!"CUL868 firmware verified: {installed}" ++
    Main.migrationMessage result.manualSerialPathMigration

/-- The headline and the mark behind it, with their whitespace collapsed. -/
def opening (result : FlashResult) : List Char := collapse ((headline result).toList ++ [';'])

/-- The announcement ends before the limit, or the text before has its words. -/
def Announced (result : FlashResult) : Prop :=
  (opening result).length + 24 ≤ 512 ∨ remainStopped <:+: (opening result).take 512

/-- The name occurs before the list, or in the part of the list before the limit. -/
def Named (result : FlashResult) (slug : String) : Prop :=
  slug.toList <:+: (opening result).take 512 ∨
    slug.toList <:+: review.take (511 - (opening result).length) ∨
    Shown slug.toList (454 - (opening result).length) result.stoppedCulAddons

section Message
variable {result : FlashResult}

theorem words_review : words review ≠ [] ∧ collapse review = review := by decide +kernel

theorem collapse_announcement {stopped : List String}
    (h : ∀ slug ∈ stopped, SupervisorClient.isAddonSlug slug = true) :
    words (review ++ ' ' :: listing stopped) ≠ [] ∧
      collapse (review ++ ' ' :: listing stopped) =
        review ++ if stopped = [] then [] else ' ' :: listing stopped := by
  obtain ⟨hwords, hcollapse⟩ := words_review
  have hne : words (review ++ ' ' :: listing stopped) ≠ [] := by
    rw [words_append]
    exact List.append_ne_nil_of_left_ne_nil hwords _
  refine ⟨hne, ?_⟩
  by_cases hstopped : stopped = []
  · subst hstopped
    rw [if_pos rfl, List.append_nil, ← hcollapse, collapse, words_append]
    exact congrArg _ (List.append_nil _)
  · obtain ⟨hlisting, hkept⟩ := collapse_listing hstopped h
    rw [if_neg hstopped, collapse_append hwords hlisting, hcollapse, hkept]

theorem opening_ends (result : FlashResult) : ∃ front, opening result = front ++ [';'] :=
  (collapse_snoc _ (by decide)).2

theorem toList_retainedMessage (stopped : List String) :
    (Main.retainedMessage stopped).toList = [';'] ++ ' ' :: (review ++ ' ' :: listing stopped) := by
  have hphrase : "; CUL apps remain stopped for a manual serial-path review: ".toList =
      [';'] ++ ' ' :: (review ++ [' ']) := by decide +kernel
  have hnames : (", ".intercalate stopped).toList = listing stopped :=
    String.toList_intercalate
  calc (Main.retainedMessage stopped).toList
      = "; CUL apps remain stopped for a manual serial-path review: ".toList ++
          (", ".intercalate stopped).toList := String.toList_append
    _ = ([';'] ++ ' ' :: (review ++ [' '])) ++ listing stopped := congrArg₂ (· ++ ·) hphrase hnames
    _ = [';'] ++ ' ' :: (review ++ ' ' :: listing stopped) := by simp

/-- What the snapshot shows of a completion. -/
theorem safeMessage_completion
    (h : ∀ slug ∈ result.stoppedCulAddons, SupervisorClient.isAddonSlug slug = true) :
    (safeMessage (Main.completionMessage result)).toList =
      (opening result ++ ' ' :: (review ++ if result.stoppedCulAddons = [] then []
        else ' ' :: listing result.stoppedCulAddons)).take 512 := by
  obtain ⟨hwords, hcollapse⟩ := collapse_announcement h
  have hmessage : Main.completionMessage result =
      headline result ++ Main.retainedMessage result.stoppedCulAddons := rfl
  have hfull : collapse (Main.completionMessage result).toList =
      opening result ++ ' ' :: (review ++ if result.stoppedCulAddons = [] then []
        else ' ' :: listing result.stoppedCulAddons) := by
    have hopening := (collapse_snoc (headline result).toList (c := ';') (by decide)).1
    rw [hmessage, String.toList_append, toList_retainedMessage, ← List.append_assoc,
      collapse_append hopening hwords, hcollapse, opening]
  unfold safeMessage
  change (if (collapse (Main.completionMessage result).toList).isEmpty = true then _ else
    String.ofList ((collapse (Main.completionMessage result).toList).take 512)).toList = _
  rw [hfull, if_neg (by simp), String.toList_ofList]

theorem says_completion
    (h : ∀ slug ∈ result.stoppedCulAddons, SupervisorClient.isAddonSlug slug = true) :
    Says (safeMessage (Main.completionMessage result)) ↔ Announced result := by
  obtain ⟨front, hfront⟩ := opening_ends result
  have hmark : ';' ∉ remainStopped := by decide
  have hne : remainStopped ≠ [] := by decide
  have hbefore : remainStopped <:+: (opening result).take 512 ↔
      remainStopped <:+: front.take 512 := by
    rw [hfront, infix_take_append_cons hmark hne, List.take_nil, List.infix_nil]
    simp [hne]
  -- behind the mark the words can only begin at the `C`
  have hbehind (tail : List Char) (htail : 'C' ∉ tail) (room : ℕ) :
      remainStopped <:+: (' ' :: (review ++ tail)).take room ↔ 24 ≤ room := by
    have hword : remainStopped = 'C' :: "UL apps remain stopped".toList := by decide
    have hreview : review = 'C' :: ("UL apps remain stopped".toList ++
        " for a manual serial-path review:".toList) := by decide
    have hrest : 'C' ∉ "UL apps remain stopped".toList ++
        " for a manual serial-path review:".toList ++ tail := by
      rw [List.mem_append, not_or]
      exact ⟨by decide, htail⟩
    rcases Nat.lt_or_ge room 2 with hsmall | hroom
    · have hlength : remainStopped.length = 23 := by decide
      refine ⟨fun hin => ?_, fun hroom => by omega⟩
      have hle := hin.length_le
      rw [hlength, List.length_take] at hle
      omega
    · obtain ⟨k, rfl⟩ := Nat.exists_eq_add_of_le' hroom
      have hcut : 'C' ∉ ("UL apps remain stopped".toList ++
          " for a manual serial-path review:".toList ++ tail).take k :=
        fun hmem => hrest ((List.take_sublist _ _).subset hmem)
      have htake : (' ' :: (review ++ tail)).take (k + 2) = [' '] ++ 'C' ::
          ("UL apps remain stopped".toList ++ " for a manual serial-path review:".toList ++
            tail).take k := by
        rw [hreview]
        rfl
      have hlength : "UL apps remain stopped".toList.length = 22 := by decide
      rw [htake, hword, infix_cons_of_first (by decide) hcut, List.append_assoc]
      constructor
      · intro hprefix
        have hle := hprefix.length_le
        rw [hlength, List.length_take] at hle
        omega
      · intro hk
        rw [List.take_append, List.take_of_length_le (by omega)]
        exact List.prefix_append _ _
  have htail : 'C' ∉ if result.stoppedCulAddons = [] then []
      else ' ' :: listing result.stoppedCulAddons := by
    split_ifs
    · simp
    · simp [not_mem_listing h]
  have hsplit : opening result ++ ' ' :: (review ++ if result.stoppedCulAddons = [] then []
      else ' ' :: listing result.stoppedCulAddons) = front ++ ';' :: (' ' :: (review ++
        if result.stoppedCulAddons = [] then [] else ' ' :: listing result.stoppedCulAddons)) := by
    rw [hfront]
    simp
  have hlength : (opening result).length = front.length + 1 := by simp [hfront]
  rw [Says, safeMessage_completion h, hsplit, infix_take_append_cons hmark hne, hbehind _ htail,
    Announced, hbefore, hlength, or_comm]
  exact or_congr_left (by omega)

theorem names_completion {slug : String} (hslug : SupervisorClient.isAddonSlug slug = true)
    (h : ∀ slug ∈ result.stoppedCulAddons, SupervisorClient.isAddonSlug slug = true)
    (hstopped : result.stoppedCulAddons ≠ []) :
    slug.toList <:+: (safeMessage (Main.completionMessage result)).toList ↔ Named result slug := by
  have hne := (slug_chars hslug).1
  have hblank := slug_blank hslug
  have hcomma : ',' ∉ slug.toList := fun hmem => ((slug_chars hslug).2 ',' hmem).2.1 rfl
  have hreview : review.length = 56 := by decide
  have hroom : 512 - (opening result).length - 1 = 511 - (opening result).length := by omega
  have hlist : 511 - (opening result).length - 56 - 1 = 454 - (opening result).length := by omega
  rw [safeMessage_completion h, if_neg hstopped, infix_take_append_cons hblank hne, hroom,
    infix_take_append_cons hblank hne, hreview, hlist, infix_listing hne hcomma hblank, Named]

/-- When a completion is reported faithfully. -/
def Reported (result : FlashResult) : Prop :=
  (result.stoppedCulAddons = [] ∧ ¬ Announced result) ∨
    (result.stoppedCulAddons ≠ [] ∧ Announced result ∧
      ∀ slug ∈ result.stoppedCulAddons, Named result slug)

theorem faithful_iff
    (h : ∀ slug ∈ result.stoppedCulAddons, SupervisorClient.isAddonSlug slug = true) :
    Faithful (safeMessage (Main.completionMessage result)) result.stoppedCulAddons ↔
      Reported result := by
  rw [Faithful, says_completion h, Reported]
  by_cases hstopped : result.stoppedCulAddons = []
  · simp [hstopped]
  · have hnames : (∀ slug ∈ result.stoppedCulAddons,
        slug.toList <:+: (safeMessage (Main.completionMessage result)).toList) ↔
        ∀ slug ∈ result.stoppedCulAddons, Named result slug :=
      forall₂_congr fun slug hslug => names_completion (h slug hslug) h hstopped
    simp [hstopped, hnames]

end Message

/-! ## What the worker reports -/

section Worker
variable {fuel : ℕ} {settings : Settings} {a : Account}

/-- A flash that returns leaves only apps stopped that it could stop. -/
theorem flash_stopped {image : HexImage} {manualRecovery : Option ManualRecoveryTarget}
    {w : Trace World} {result : FlashResult}
    (h : Run (Flasher.flash fuel settings image manualRecovery) w (.returned result)) :
    ∀ slug ∈ result.stoppedCulAddons, SupervisorClient.isAddonSlug slug = true := by
  obtain ⟨⟨checked, plan⟩, t₁, t₂, rfl, -, h₂⟩ := Run.bind_returned.mp h
  obtain ⟨c, -, rfl⟩ := Flasher.transact_returned.mp h₂
  have haccepted := SupervisorClient.pauseConsumers_accepted c.pausing_run
  rcases PlannedRun.completion_consumers c with ⟨-, -, -, hnone⟩ | ⟨-, -, hall⟩
  · simp [hnone]
  · rw [hall]
    exact haccepted

theorem follows_watched {p : AppProgram α} {Q : α → Account → Prop}
    (hp : Follows accounting Q (fun _ _ => True) p a) :
    Follows accounting Q (fun _ _ => True) (Main.watched p) a :=
  Follows.attempt_bind hp (fun _ _ h => Follows.ret h)
    fun _ _ _ => Follows.step trivial fun _ _ => Follows.raise trivial

theorem follows_finishLocked (operationId : String) (u : Update) :
    Follows accounting (fun _ a' => ∃ (b : Account) (now : ℤ), a' = b.made u now) (fun _ _ => True)
      (withLock .controller (OperationController.finishLocked operationId u)) a := by
  refine OperationController.follows_withLock
    (Follows.bind ((OperationController.follows_requireCurrent operationId).conseq
      (fun _ _ h => h) fun _ _ _ => trivial) ?_)
  rintro _ _ ⟨rfl, -⟩
  refine (OperationController.follows_update u).conseq ?_ fun _ _ h => h
  rintro _ _ ⟨now, rfl⟩
  exact ⟨_, now, rfl⟩

/-- A block under a lock has run between the acquisition and the release. -/
theorem withLock_returned {lock : Lock} {block : AppProgram α} {t : Trace App} {b : α}
    (h : Run (withLock lock block) t (.returned b)) :
    ∃ x u y, t = ⟨.acquire lock, x⟩ :: (u ++ [⟨.release lock, y⟩]) ∧ Run block u (.returned b) := by
  obtain ⟨x, t₁, t₂, rfl, hacquire, h⟩ := Run.bind_returned.mp h
  obtain ⟨result, u, t₃, rfl, hblock, h⟩ := Run.bind_returned.mp h
  obtain ⟨y, t₄, t₅, rfl, hrelease, h⟩ := Run.bind_returned.mp h
  obtain ⟨a, rfl, hrun⟩ | ⟨e, rfl, -⟩ := Run.attempt_returned_iff.mp hblock
  · obtain ⟨rfl, rfl⟩ := Run.pure_returned.mp h
    rw [Run.perform_returned.mp hacquire, Run.perform_returned.mp hrelease]
    exact ⟨x, u, y, by simp, hrun⟩
  · exact absurd h Run.raise_returned

/-- Of the steps of the flash only the reports are not carried out as they are. -/
theorem shown_reporter (operationId : String) (o : World.Op) (t : Trace App) (a : World.Ans o)
    (h : Run (Main.reporter operationId o) t (.returned a)) :
    t.filterMap flasherStep = [(⟨o, a⟩ : Event World)].filter fun e =>
      decide (e.op.kind ≠ .report) := by
  have hcall : ∀ {o : World.Op} {a : World.Ans o}, o.kind ≠ .report →
      Run (call (.flasher o)) t (.returned a) → t.filterMap flasherStep =
        [(⟨o, a⟩ : Event World)].filter fun e => decide (e.op.kind ≠ .report) := by
    intro o a ho h
    rw [Run.perform_returned.mp h]
    simp [flasherStep, ho]
  cases o with
  | report percent message =>
    have haside := (Main.bystanding_report operationId percent message).attempt.run h
    rw [List.filterMap_eq_nil_iff.mpr fun e he => ?_]
    · rfl
    · obtain ⟨o, a⟩ := e
      cases o with
      | flasher o => exact absurd (haside _ he) (flasher_not_bystanding o)
      | _ => rfl
  | request method path => cases method <;> exact hcall (by simp [Op.kind]) h
  | _ => exact hcall (by simp [Op.kind]) h

/-- The result of the flash of a pass is that of a run of the flasher, which has taken
the steps that the pass shows. -/
theorem flashReported_returned {operation : FlashOperation} {t : Trace App} {result : FlashResult}
    (h : Run (Main.flashReported fuel settings operation) t (.returned result)) :
    ∃ w, Run (Flasher.flash fuel settings operation.image operation.manualRecovery) w
      (.returned result) ∧ t.filterMap flasherStep = ownSteps w := by
  obtain ⟨x, u, y, rfl, hblock⟩ := withLock_returned h
  obtain ⟨w, hw, hshown⟩ := Run.handle_returned (shown_reporter operation.operationId) hblock
  refine ⟨w, hw, ?_⟩
  rw [List.filterMap_cons_none rfl, List.filterMap_append, hshown]
  exact List.append_nil _

/-- A pass that has left a success behind has flashed, and completed with the result. -/
theorem flashAndReport_succeeded {operation : FlashOperation} {t : Trace App}
    (h : Run (Main.flashAndReport fuel settings operation) t (.returned ()))
    (ht : accounting.Trusted a t) (hstatus : (accounting.over a t).fields.status = .succeeded) :
    ∃ t₁ t₂ result, t = t₁ ++ t₂ ∧
      Run (Main.flashReported fuel settings operation) t₁ (.returned result) ∧
      (accounting.over a t).fields.message = safeMessage (Main.completionMessage result) := by
  obtain ⟨x, t₁, t₂, rfl, hflash, hfinish⟩ := Run.bind_returned.mp h
  have htrust := (Discipline.trusted_append.mp ht).2
  rw [Discipline.over_append] at hstatus ⊢
  obtain ⟨result, rfl, hrun⟩ | ⟨err, rfl, -⟩ := Run.attempt_returned_iff.mp hflash
  · obtain ⟨b, now, hmade⟩ := ((follows_watched (follows_finishLocked _ _)).run hfinish
      htrust).2.1 () rfl
    refine ⟨t₁, t₂, result, rfl, hrun, ?_⟩
    rw [hmade]
    exact Controller.update_succeeded_message _ _ _
  · obtain ⟨b, now, hmade⟩ := ((follows_watched (follows_finishLocked _ _)).run hfinish
      htrust).2.1 () rfl
    rw [hmade] at hstatus
    change (b.fields.failed now _).status = .succeeded at hstatus
    cases hstatus

/-- The snapshot after a success shows the message for the result of the flash that the
pass has made, and it is faithful exactly when `Reported` holds of that result. -/
theorem completion_faithful_iff (fuel : ℕ) (settings : Settings) :
    (∀ operation a t u c, Run (Main.flashAndReport fuel settings operation) t (.returned ()) →
      accounting.Trusted a t → Run OperationController.snapshot u (.returned c) →
      accounting.Trusted (accounting.over a t) u → c.status = .succeeded →
      ∃ t₁ t₂ w result, t = t₁ ++ t₂ ∧
        Run (Main.flashReported fuel settings operation) t₁ (.returned result) ∧
        Run (Flasher.flash fuel settings operation.image operation.manualRecovery) w
          (.returned result) ∧ t₁.filterMap flasherStep = ownSteps w ∧
        c.message = safeMessage (Main.completionMessage result) ∧
        (Faithful c.message result.stoppedCulAddons ↔ Reported result)) ∧
    ∀ image manualRecovery w result,
      Run (Flasher.flash fuel settings image manualRecovery) w (.returned result) →
      (Faithful (safeMessage (Main.completionMessage result)) result.stoppedCulAddons ↔
        Reported result) := by
  refine ⟨fun operation a t u c hrun htrust hsnapshot htrust' hstatus => ?_,
    fun image manualRecovery w result h => faithful_iff (flash_stopped h)⟩
  obtain ⟨rfl, -⟩ := (OperationController.follows_snapshot.run hsnapshot htrust').2.1 c rfl
  obtain ⟨t₁, t₂, result, rfl, hflash, hmessage⟩ := flashAndReport_succeeded hrun htrust hstatus
  obtain ⟨w, hw, hshown⟩ := flashReported_returned hflash
  refine ⟨t₁, t₂, w, result, rfl, hflash, hw, hshown, hmessage, ?_⟩
  rw [hmessage]
  exact faithful_iff (flash_stopped hw)

end Worker

/-- A flash that has stopped no app returns. -/
theorem flash_without_consumers : ∃ w result,
    Run (Flasher.flash 2 PlannedRun.qemuSettings sampleImage none) w (.returned result) ∧
      result.stoppedCulAddons = [] ∧ Announced result := by
  have hrun : ((Flasher.flash 2 PlannedRun.qemuSettings sampleImage none).exec
      PlannedRun.movedApplicationScript.answer 0).2.result.any fun result =>
        decide (result.stoppedCulAddons = [] ∧ (opening result).length + 24 ≤ 512) := by
    decide +kernel
  obtain ⟨result, hresult, hstopped⟩ := (Option.any_eq_true _ _).mp hrun
  have hreturned := Run.of_exec PlannedRun.movedApplicationScript.answer
    (Flasher.flash 2 PlannedRun.qemuSettings sampleImage none) 0
  rw [Outcome.result_eq_some.mp hresult] at hreturned
  obtain ⟨hnone, hroom⟩ := of_decide_eq_true hstopped
  exact ⟨_, result, hreturned, hnone, .inl hroom⟩

/-- Apps are said to remain stopped although there are none. -/
theorem completion_announces_none :
    ¬ ∀ fuel settings image manualRecovery w result,
      Run (Flasher.flash fuel settings image manualRecovery) w (.returned result) →
      Faithful (safeMessage (Main.completionMessage result)) result.stoppedCulAddons := by
  intro h
  obtain ⟨w, result, hrun, hnone, hannounced⟩ := flash_without_consumers
  have hsays := (says_completion (flash_stopped hrun)).mpr hannounced
  exact (h _ _ _ _ _ _ hrun).1.mp hsays hnone

/-! ## A pass whose success is read -/

def AppScript.accountAnswer (s : AppScript) (n : ℕ) (a : Account) : (o : App.Op) → App.Ans o
  | .controller => a.fields
  | o => s.answer n o

theorem accounting_exec (s : AppScript) (p : AppProgram α) (n : ℕ) (a : Account) :
    accounting.Trusted a (accounting.medium.exec s.accountAnswer p n a).1 ∧
      accounting.over a (accounting.medium.exec s.accountAnswer p n a).1 =
        (accounting.medium.exec s.accountAnswer p n a).2.2 :=
  accounting.exec_trusted (fun _ _ o => by cases o <;> trivial) p n a

theorem exec_returned (s : AppScript) (p : AppProgram α) (n : ℕ) (a : Account) {b : α}
    (h : (accounting.medium.exec s.accountAnswer p n a).2.1.result = some b) :
    ∃ t, Run p t (.returned b) ∧ accounting.Trusted a t ∧
      accounting.over a t = (accounting.medium.exec s.accountAnswer p n a).2.2 := by
  have hrun := accounting.medium.exec_run s.accountAnswer p n a
  rw [Outcome.result_eq_some.mp h] at hrun
  exact ⟨_, hrun, accounting_exec s p n a⟩

theorem exec_snapshot (s : AppScript) (a : Account) :
    ∃ u, Run OperationController.snapshot u (.returned a.fields) ∧ accounting.Trusted a u := by
  obtain ⟨u, hrun, htrust, -⟩ := exec_returned s OperationController.snapshot 0 a rfl
  exact ⟨u, hrun, htrust⟩

/-- An operation that has been claimed for its run. -/
def claimedOperation : FlashOperation :=
  ⟨"0123456789abcdef", "fedcba9876543210", sampleImage, none⟩

def claimedAccount : Account :=
  ((Account.start.draw "0123456789abcdef").made (.queued "0123456789abcdef") 0).made .running 0

/-- The CUL is in DFU mode between `B01` and the last DFU command. -/
def passScript : AppScript where
  world n := Script.answer { usb := fun n => .ofDevices [if n < 36 then cul "1-1" "ttyACM0" none
    else if n < 82 then dfuBootloader "1-1" none else cul "1-4" "ttyACM0" none] [] } n

/-- The flash of the pass, and the account it leaves. -/
def flashedPass : Trace App × Outcome Exn FlashResult × Account :=
  accounting.medium.exec passScript.accountAnswer
    (Main.flashReported 2 PlannedRun.qemuSettings claimedOperation) 0 claimedAccount

/-- The completion with its result. -/
def completedPass (result : FlashResult) : Trace App × Outcome Exn Unit × Account :=
  accounting.medium.exec passScript.accountAnswer
    (Main.watched (OperationController.complete claimedOperation.operationId
      (Main.completionMessage result))) 0 flashedPass.2.2

theorem flashedPass_completed : ∃ result, flashedPass.2.1.result = some result ∧
    (completedPass result).2.1.result = some () ∧
    (completedPass result).2.2.fields.status = .succeeded ∧ result.stoppedCulAddons = [] ∧
    Announced result := by
  have hpass : flashedPass.2.1.result.any fun result =>
      decide ((completedPass result).2.1.result = some ()) &&
        decide ((completedPass result).2.2.fields.status = .succeeded) &&
        decide (result.stoppedCulAddons = [] ∧ (opening result).length + 24 ≤ 512) := by
    decide +kernel
  obtain ⟨result, hresult, hpass⟩ := (Option.any_eq_true _ _).mp hpass
  simp only [Bool.and_eq_true, decide_eq_true_eq] at hpass
  obtain ⟨⟨hcompleted, hstatus⟩, hnone, hroom⟩ := hpass
  exact ⟨result, hresult, hcompleted, hstatus, hnone, .inl hroom⟩

theorem completion_faithful_iff_none : ∃ t u c t₁ t₂ result,
    Run (Main.flashAndReport 2 PlannedRun.qemuSettings claimedOperation) t (.returned ()) ∧
      Run OperationController.snapshot u (.returned c) ∧ c.status = .succeeded ∧ t = t₁ ++ t₂ ∧
      Run (Main.flashReported 2 PlannedRun.qemuSettings claimedOperation) t₁ (.returned result) ∧
      result.stoppedCulAddons = [] ∧ ¬ Faithful c.message result.stoppedCulAddons := by
  obtain ⟨result, hflashed, hcompleted, hstatus, hnone, hannounced⟩ := flashedPass_completed
  obtain ⟨t₁, hflash, htrust₁, hover₁⟩ := exec_returned passScript _ _ _ hflashed
  obtain ⟨t₂, hcomplete, htrust₂, hover₂⟩ := exec_returned passScript _ _ _ hcompleted
  have hrun : Run (Main.flashAndReport 2 PlannedRun.qemuSettings claimedOperation) (t₁ ++ t₂)
      (.returned ()) := hflash.attempt_returned.bind hcomplete
  have htrust : accounting.Trusted claimedAccount (t₁ ++ t₂) := by
    refine Discipline.trusted_append.mpr ⟨htrust₁, ?_⟩
    rw [hover₁]
    exact htrust₂
  have hover : accounting.over claimedAccount (t₁ ++ t₂) = (completedPass result).2.2 := by
    rw [Discipline.over_append, hover₁]
    exact hover₂
  obtain ⟨u, hsnapshot, htrusted⟩ := exec_snapshot passScript (completedPass result).2.2
  obtain ⟨t₁', t₂', w, result', ht, hflash', -, -, -, hfaithful⟩ :=
    (completion_faithful_iff 2 PlannedRun.qemuSettings).1 claimedOperation claimedAccount _ _ _ hrun
      htrust hsnapshot (by rw [hover]; exact htrusted) hstatus
  obtain rfl : result' = result := hflash'.returned_unique hflash ht.symm
  refine ⟨_, u, _, t₁', t₂', result', hrun, hsnapshot, hstatus, ht, hflash', hnone, fun h => ?_⟩
  rcases hfaithful.mp h with ⟨-, hnot⟩ | ⟨hne, -⟩
  · exact hnot hannounced
  · exact hne hnone

end Cul868Flasher
