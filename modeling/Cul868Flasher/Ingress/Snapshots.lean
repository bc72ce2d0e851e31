import Cul868Flasher.Effects.Discipline
import Cul868Flasher.Flasher.Runs
import Cul868Flasher.Ingress.Controller
import Mathlib.Logic.Relation

/-!
# The snapshots of the operation controller

The methods of the controller may be called in any order and with any argument.
Each call that returns has made at most one update, whose condition it checked;
the conditions are enough for the fields to stay consistent.
-/

namespace Cul868Flasher
open Python Effects

/-- A call of a method of `OperationController`. -/
inductive ControllerCall where
  | submit (artifactId : String) (image : HexImage) (manualRecovery : Option ManualRecoveryTarget)
  | get
  | drain
  | discardQueued (operationId : String)
  | claimForRun (operationId : String)
  | reportProgress (operationId : String) (percent : ℤ) (message : String)
  | complete (operationId message : String)
  | fail (operationId : String) (error : Exn)
  | snapshot

def ControllerCall.program (fuel : ℕ) : ControllerCall → AppProgram Unit
  | .submit artifactId image manualRecovery => do
    let _ ← OperationController.submit artifactId image manualRecovery
    return ()
  | .get => do
    let _ ← OperationController.get
    return ()
  | .drain => do
    let _ ← OperationController.drain fuel
    return ()
  | .discardQueued operationId => OperationController.discardQueued operationId
  | .claimForRun operationId => do
    let _ ← OperationController.claimForRun operationId
    return ()
  | .reportProgress operationId percent message =>
    OperationController.reportProgress operationId percent message
  | .complete operationId message => OperationController.complete operationId message
  | .fail operationId error => OperationController.fail operationId error
  | .snapshot => do
    let _ ← OperationController.snapshot
    return ()

namespace Update

def kind : Update → EventKind
  | .queued _ => .queued
  | .discarded _ => .discarded
  | .running => .running
  | .progress _ _ => .progress
  | .succeeded _ => .succeeded
  | .failed _ => .failed

def text : Update → String
  | .queued _ => "Firmware is queued for flashing."
  | .discarded message => message
  | .running => "Preparing the CUL868 flash operation."
  | .progress _ message => message
  | .succeeded message => message
  | .failed message => message

def event (u : Update) (now : ℤ) : OperationEvent := ⟨now, u.kind, u.text⟩

/-- The progress that an update leaves behind. -/
def progressAfter : Update → ℤ → ℤ
  | .queued _, _ => 0
  | .discarded _, _ => 0
  | .running, current => max current 1
  | .progress percent _, current => max current percent
  | .succeeded _, _ => 100
  | .failed _, current => current

def errorAfter : Update → Option String → Option String
  | .queued _, _ => none
  | .discarded _, _ => none
  | .running, error => error
  | .progress _ _, error => error
  | .succeeded _, _ => none
  | .failed message, _ => some message

/-- When the controller makes an update. -/
def Applies (c : Controller) : Update → Prop
  | .queued _ => c.status.busy = false
  | .discarded _ => c.status = .queued
  | .running => c.status = .queued
  | .progress percent _ => (0 ≤ percent ∧ percent ≤ 100) ∧ c.status = .running
  | .succeeded _ => c.operationId.isSome
  | .failed _ => c.operationId.isSome

end Update

/-- The last events of a history, as many as are kept. -/
def lastEvents (events : List OperationEvent) : List OperationEvent :=
  events.drop (events.length - maxEvents)

theorem length_lastEvents (events : List OperationEvent) :
    (lastEvents events).length = min events.length 32 := by
  simp only [lastEvents, List.length_drop, maxEvents]
  omega

theorem lastEvents_snoc (events : List OperationEvent) (e : OperationEvent) :
    lastEvents (lastEvents events ++ [e]) = lastEvents (events ++ [e]) := by
  have hkept : lastEvents events ++ [e] = (events ++ [e]).drop (events.length - maxEvents) :=
    (List.drop_append_of_le_length (by omega)).symm
  rw [hkept, lastEvents, lastEvents, List.drop_drop]
  congr 1
  simp only [List.length_drop, List.length_append, List.length_singleton, maxEvents]
  omega

theorem Controller.update_progress (c : Controller) (u : Update) (now : ℤ) :
    (c.update now u).progress = u.progressAfter c.progress := by
  cases u <;> rfl

theorem Controller.update_error (c : Controller) (u : Update) (now : ℤ) :
    (c.update now u).error = u.errorAfter c.error := by
  cases u <;> rfl

theorem Controller.update_events (c : Controller) (u : Update) (now : ℤ) :
    (c.update now u).events = lastEvents (c.events ++ [u.event now]) := by
  cases u <;> rfl

/-! ## Consistency -/

structure Controller.Consistent (c : Controller) : Prop where
  operationId : c.operationId = none ↔ c.status = .idle
  error : c.error.isSome ↔ c.status = .failed
  range : 0 ≤ c.progress ∧ c.progress ≤ 100
  unstarted : c.status = .idle ∨ c.status = .queued → c.progress = 0
  running : c.status = .running → 1 ≤ c.progress
  succeeded : c.status = .succeeded → c.progress = 100

theorem Controller.Consistent.initial : Controller.initial.Consistent where
  operationId := by decide
  error := by decide
  range := by decide
  unstarted := by decide
  running := by decide
  succeeded := by decide

theorem Controller.Consistent.update {c : Controller} (h : c.Consistent) {u : Update}
    (hu : u.Applies c) (now : ℤ) : (c.update now u).Consistent := by
  obtain ⟨hid, herror, hrange, hunstarted, hrunning, hsucceeded⟩ := h
  constructor
  · rw [Controller.update_operationId, Controller.update_status]
    cases u with
    | running => simp_all [Update.operationId, Update.status, Update.Applies]
    | progress percent message => simp_all [Update.operationId, Update.status, Update.Applies]
    | succeeded message =>
      obtain ⟨operationId, h⟩ := Option.isSome_iff_exists.mp hu
      simp [Update.operationId, Update.status, h]
    | failed message =>
      obtain ⟨operationId, h⟩ := Option.isSome_iff_exists.mp hu
      simp [Update.operationId, Update.status, h]
    | _ => simp [Update.operationId, Update.status]
  · rw [Controller.update_error, Controller.update_status]
    cases u with
    | running => simp_all [Update.errorAfter, Update.status, Update.Applies]
    | progress percent message => simp_all [Update.errorAfter, Update.status, Update.Applies]
    | _ => simp [Update.errorAfter, Update.status]
  · rw [Controller.update_progress]
    cases u with
    | running => simp only [Update.progressAfter]; omega
    | progress percent message =>
      obtain ⟨hpercent, -⟩ := hu
      simp only [Update.progressAfter]
      omega
    | failed message => exact hrange
    | _ => simp [Update.progressAfter]
  · rw [Controller.update_progress, Controller.update_status]
    cases u with
    | progress percent message =>
      obtain ⟨-, hstatus⟩ := hu
      simp [Update.status, hstatus]
    | _ => simp [Update.progressAfter, Update.status]
  · rw [Controller.update_progress, Controller.update_status]
    cases u with
    | running => simp [Update.progressAfter, Update.status]
    | progress percent message =>
      intro h
      have := hrunning h
      simp only [Update.progressAfter]
      omega
    | _ => simp [Update.status]
  · rw [Controller.update_progress, Controller.update_status]
    cases u with
    | progress percent message =>
      obtain ⟨-, hstatus⟩ := hu
      simp [Update.status, hstatus]
    | _ => simp [Update.progressAfter, Update.status]

/-! ## Calls -/

/-- The fields, every event so far and every token that was drawn, the last first. -/
structure Account where
  fields : Controller
  appended : List OperationEvent
  issued : List String

namespace Account

def start : Account := ⟨.initial, [], []⟩

def draw (a : Account) (token : String) : Account := { a with issued := token :: a.issued }

def made (a : Account) (u : Update) (now : ℤ) : Account :=
  { a with fields := a.fields.update now u, appended := a.appended ++ [u.event now] }

def after (a : Account) : (o : App.Op) → App.Ans o → Account
  | .update u now, _ => a.made u now
  | .tokenHex, token => a.draw token
  | _, _ => a

/-- A read of the fields answers what was last written. -/
def Reads (a : Account) : (o : App.Op) → App.Ans o → Prop
  | .controller, fields => fields = a.fields
  | _, _ => True

/-- What a call that returns may have done. -/
inductive Answered (a : Account) : Account → Prop where
  | same : Answered a a
  | drawn (token : String) : Answered a (a.draw token)
  | queued (token : String) (now : ℤ) : a.fields.status.busy = false →
      Answered a ((a.draw token).made (.queued token) now)
  | made (u : Update) (now : ℤ) : u.Applies a.fields → (∀ operationId, u ≠ .queued operationId) →
      Answered a (a.made u now)

/-- What a call that raises may have done. -/
def Refused (a a' : Account) : Prop := a' = a ∨ ∃ token, a' = a.draw token

end Account

@[simp] def accounting : Discipline App Account where
  allows _ _ := True
  trusts := Account.Reads
  after := Account.after

namespace OperationController

variable {α : Type} {a : Account} {Q : α → Account → Prop} {E : Exn → Account → Prop}

theorem follows_withLock {lock : Lock} {block : AppProgram α}
    (hb : Follows accounting Q E block a) : Follows accounting Q E (withLock lock block) a :=
  Follows.step trivial fun _ _ => Follows.ensuring hb
    (fun _ _ h => Follows.perform trivial fun _ _ => h)
    fun _ _ h => Follows.perform trivial fun _ _ => h

theorem follows_update (u : Update) :
    Follows accounting (fun _ a' => ∃ now, a' = a.made u now) E (update u) a :=
  Follows.step trivial fun now _ => Follows.perform trivial fun _ _ => ⟨Flasher.truncate now, rfl⟩

/-- A call that reads the fields first. -/
theorem follows_read {f : Controller → AppProgram α} (hf : Follows accounting Q E (f a.fields) a) :
    Follows accounting Q E (Prog.perform (I := App) .controller >>= f) a := by
  refine Follows.step trivial fun c hc => ?_
  obtain rfl : c = a.fields := hc
  exact hf

theorem follows_requireCurrent (operationId : String) :
    Follows accounting (fun _ a' => a' = a ∧ a.fields.operationId = some operationId)
      (fun _ => a.Refused) (requireCurrent operationId) a := by
  refine follows_read ?_
  split_ifs with h
  · exact Follows.raise (.inl rfl)
  · exact Follows.ret ⟨rfl, not_not.mp h⟩

/-- An update that can be made is one answer of the call. -/
theorem follows_made {u : Update} (hu : u.Applies a.fields)
    (hne : ∀ operationId, u ≠ .queued operationId) :
    Follows accounting (fun _ => a.Answered) (fun _ => a.Refused) (update u) a := by
  refine (follows_update u).conseq ?_ fun _ _ h => h
  rintro _ _ ⟨now, rfl⟩
  exact .made u now hu hne

theorem follows_enqueue (operation : FlashOperation) {token : String}
    (htoken : operation.operationId = token) :
    Follows accounting (fun _ => a.Answered) (fun _ => a.Refused) (enqueue operation)
      (a.draw token) := by
  have hdrawn : a.Refused (a.draw token) := .inr ⟨token, rfl⟩
  refine follows_read ?_
  split_ifs with hbusy
  · exact Follows.raise hdrawn
  refine Follows.step trivial fun (put : Bool) _ => ?_
  cases put with
  | false => exact Follows.raise hdrawn
  | true =>
    refine (follows_update _).conseq ?_ fun _ _ h => h
    rintro _ _ ⟨now, rfl⟩
    rw [htoken]
    exact .queued token now (by simpa [Account.draw] using hbusy)

theorem follows_submit (artifactId : String) (image : HexImage)
    (manualRecovery : Option ManualRecoveryTarget) :
    Follows accounting (fun _ => a.Answered) (fun _ => a.Refused)
      (submit artifactId image manualRecovery) a := by
  rw [submit]
  split_ifs
  · exact Follows.raise (.inl rfl)
  refine Follows.step trivial fun token _ => ?_
  refine Follows.bind (R := fun _ => a.Answered) ?_ fun _ _ h => Follows.ret h
  exact follows_withLock (follows_enqueue _ rfl)

theorem follows_drain (fuel : ℕ) :
    Follows accounting (fun _ => a.Answered) (fun _ => a.Refused) (drain fuel) a := by
  refine follows_withLock ?_
  refine Follows.bind (R := fun _ a' => a' = a)
    (Follows.loop (K := fun _ a' => a' = a) ?_ fuel rfl) ?_
  · rintro pending _ rfl
    refine Follows.step trivial fun (item : Option FlashOperation) _ => ?_
    cases item with
    | none => exact Follows.ret ⟨fun _ _ => rfl, fun _ _ => rfl⟩
    | some operation => exact Follows.ret ⟨fun _ _ => rfl, fun _ _ => rfl⟩
  rintro pending _ rfl
  refine follows_read ?_
  split_ifs with h
  · exact Follows.bind (follows_made h.2 (by simp)) fun _ _ h => Follows.ret h
  · exact Follows.ret .same

theorem follows_discardQueued (operationId : String) :
    Follows accounting (fun _ => a.Answered) (fun _ => a.Refused)
      (discardQueued operationId) a := by
  refine follows_withLock (Follows.bind (follows_requireCurrent operationId) ?_)
  rintro _ _ ⟨rfl, -⟩
  refine follows_read ?_
  split_ifs with h
  · exact Follows.raise (.inl rfl)
  · exact follows_made (not_not.mp h) (by simp)

theorem follows_claimForRun (operationId : String) :
    Follows accounting (fun _ => a.Answered) (fun _ => a.Refused) (claimForRun operationId) a := by
  refine follows_withLock (Follows.bind (follows_requireCurrent operationId) ?_)
  rintro _ _ ⟨rfl, -⟩
  refine follows_read ?_
  split_ifs with h
  · exact Follows.raise (.inl rfl)
  refine Follows.step trivial fun (stopping : Bool) _ => ?_
  cases stopping with
  | true => exact Follows.bind (follows_made (not_not.mp h) (by simp)) fun _ _ h => Follows.ret h
  | false => exact Follows.bind (follows_made (not_not.mp h) (by simp)) fun _ _ h => Follows.ret h

theorem follows_reportProgress (operationId : String) (percent : ℤ) (message : String) :
    Follows accounting (fun _ => a.Answered) (fun _ => a.Refused)
      (reportProgress operationId percent message) a := by
  rw [reportProgress]
  split_ifs with hpercent
  · exact Follows.raise (.inl rfl)
  refine follows_withLock (Follows.bind (follows_requireCurrent operationId) ?_)
  rintro _ _ ⟨rfl, -⟩
  refine follows_read ?_
  split_ifs with h
  · exact Follows.ret .same
  · exact follows_made ⟨by omega, not_not.mp h⟩ (by simp)

/-- `complete` and `fail` check no more than that the operation is current. -/
theorem follows_finish (operationId : String) {u : Update}
    (hu : ∀ c : Controller, c.operationId.isSome → u.Applies c)
    (hne : ∀ operationId, u ≠ .queued operationId) :
    Follows accounting (fun _ => a.Answered) (fun _ => a.Refused)
      (withLock .controller (finishLocked operationId u)) a := by
  refine follows_withLock (Follows.bind (follows_requireCurrent operationId) ?_)
  rintro _ _ ⟨rfl, hcurrent⟩
  exact follows_made (hu _ (by simp [hcurrent])) hne

theorem follows_snapshot :
    Follows accounting (fun c a' => c = a.fields ∧ a' = a) (fun _ _ => False) snapshot a :=
  follows_withLock (Follows.perform trivial fun _ h => ⟨h, rfl⟩)

end OperationController

/-- Whatever a call does to the controller, it has done one of these. -/
theorem ControllerCall.follows (fuel : ℕ) (c : ControllerCall) (a : Account) :
    Follows accounting (fun _ => a.Answered) (fun _ => a.Refused) (c.program fuel) a := by
  cases c with
  | submit artifactId image manualRecovery =>
    exact Follows.bind (OperationController.follows_submit _ _ _) fun _ _ h => Follows.ret h
  | get => exact Follows.step trivial fun _ _ => Follows.ret .same
  | drain => exact Follows.bind (OperationController.follows_drain fuel) fun _ _ h => Follows.ret h
  | discardQueued operationId => exact OperationController.follows_discardQueued operationId
  | claimForRun operationId =>
    exact Follows.bind (OperationController.follows_claimForRun _) fun _ _ h => Follows.ret h
  | reportProgress operationId percent message =>
    exact OperationController.follows_reportProgress _ _ _
  | complete operationId message =>
    exact OperationController.follows_finish operationId (fun _ h => h) (by simp)
  | fail operationId error =>
    exact OperationController.follows_finish operationId (fun _ h => h) (by simp)
  | snapshot =>
    refine Follows.bind (OperationController.follows_snapshot.conseq (fun _ _ h => h)
      fun _ _ h => h.elim) ?_
    rintro _ _ ⟨-, rfl⟩
    exact Follows.ret .same

/-! ## Sequences of calls -/

/-- One call, which returns or raises. -/
def Calls (fuel : ℕ) (a a' : Account) : Prop :=
  ∃ (c : ControllerCall) (t : Trace App) (r : Outcome Exn Unit), Run (c.program fuel) t r ∧
    r ≠ .cut ∧ accounting.Trusted a t ∧ a' = accounting.over a t

/-- Any sequence of calls. -/
def Reaches (fuel : ℕ) : Account → Account → Prop := Relation.ReflTransGen (Calls fuel)

/-- Calls that leave the operation the current one. -/
def Continues (fuel : ℕ) : Account → Account → Prop :=
  Relation.ReflTransGen fun a a' => Calls fuel a a' ∧ a'.fields.operationId = a.fields.operationId

structure Account.Sound (a : Account) : Prop where
  consistent : a.fields.Consistent
  events : a.fields.events = lastEvents a.appended
  known : ∀ operationId, a.fields.operationId = some operationId → operationId ∈ a.issued

theorem Account.Sound.start : Account.start.Sound where
  consistent := .initial
  events := rfl
  known := by
    intro operationId h
    cases h

theorem Account.Sound.made {a : Account} (h : a.Sound) {u : Update} (hu : u.Applies a.fields)
    (hknown : ∀ operationId, u = .queued operationId → operationId ∈ a.issued) (now : ℤ) :
    (a.made u now).Sound where
  consistent := h.consistent.update hu now
  events := by
    change (a.fields.update now u).events = lastEvents (a.appended ++ [u.event now])
    rw [Controller.update_events, h.events, lastEvents_snoc]
  known := by
    intro operationId hid
    change (a.fields.update now u).operationId = some operationId at hid
    rw [Controller.update_operationId] at hid
    change operationId ∈ a.issued
    cases u with
    | queued token =>
      obtain rfl : token = operationId := by simpa [Update.operationId] using hid
      exact hknown _ rfl
    | discarded message => cases hid
    | _ => exact h.known operationId hid

theorem Account.Sound.draw {a : Account} (h : a.Sound) (token : String) : (a.draw token).Sound where
  consistent := h.consistent
  events := h.events
  known := fun operationId hid => List.mem_cons_of_mem _ (h.known operationId hid)

theorem Account.Answered.sound {a a' : Account} (h : a.Answered a') (ha : a.Sound) : a'.Sound := by
  cases h with
  | same => exact ha
  | drawn token => exact ha.draw token
  | queued token now hbusy =>
    refine (ha.draw token).made (u := .queued token) hbusy ?_ now
    rintro _ ⟨⟩
    exact List.mem_cons_self
  | made u now hu hne => exact ha.made hu (fun operationId hu => absurd hu (hne operationId)) now

/-- An update that keeps the operation does not lower its progress. -/
theorem Update.Applies.progress_le {c : Controller} {u : Update} (h : u.Applies c)
    (hc : c.Consistent) (now : ℤ) (hne : ∀ operationId, u ≠ .queued operationId)
    (hid : (c.update now u).operationId = c.operationId) :
    c.progress ≤ (c.update now u).progress := by
  rw [Controller.update_progress]
  cases u with
  | queued operationId => exact absurd rfl (hne operationId)
  | discarded message =>
    rw [Controller.update_operationId] at hid
    have hidle := hc.operationId.mp hid.symm
    have hqueued : c.status = .queued := h
    rw [hidle] at hqueued
    cases hqueued
  | running => exact le_max_left _ _
  | progress percent message => exact le_max_left _ _
  | succeeded message => exact hc.range.2
  | failed message => exact le_refl _

theorem Account.Answered.progress_le {a a' : Account} (h : a.Answered a') (ha : a.Sound)
    (hid : a'.fields.operationId = a.fields.operationId) (hissued : a'.issued.Nodup) :
    a.fields.progress ≤ a'.fields.progress := by
  cases h with
  | same => exact le_refl _
  | drawn token => exact le_refl _
  | queued token now hbusy =>
    -- a fresh token is not the operation that is current
    have hmem := ha.known token hid.symm
    exact absurd hmem (List.nodup_cons.mp hissued).1
  | made u now hu hne => exact hu.progress_le ha.consistent now hne hid

theorem Account.Answered.issued {a a' : Account} (h : a.Answered a') : a.issued <:+ a'.issued := by
  cases h with
  | same => exact List.suffix_rfl
  | drawn token => exact List.suffix_cons _ _
  | queued token now _ => exact List.suffix_cons _ _
  | made u now _ _ => exact List.suffix_rfl

theorem Account.Refused.answered {a a' : Account} (h : a.Refused a') : a.Answered a' := by
  obtain rfl | ⟨token, rfl⟩ := h
  · exact .same
  · exact .drawn token

theorem Calls.answered {fuel : ℕ} {a a' : Account} (h : Calls fuel a a') : a.Answered a' := by
  obtain ⟨c, t, r, hrun, hcut, htrust, rfl⟩ := h
  obtain ⟨-, hret, hraise⟩ := (c.follows fuel a).run hrun htrust
  cases r with
  | returned u => exact hret u rfl
  | raised e => exact (hraise e rfl).answered
  | cut => exact absurd rfl hcut

theorem Reaches.sound {fuel : ℕ} {a a' : Account} (h : Reaches fuel a a') (ha : a.Sound) :
    a'.Sound := by
  induction h with
  | refl => exact ha
  | tail _ hcall ih => exact hcall.answered.sound ih

theorem Continues.reaches {fuel : ℕ} {a a' : Account} (h : Continues fuel a a') :
    Reaches fuel a a' :=
  Relation.ReflTransGen.mono (fun _ _ h => h.1) _ _ h

theorem Continues.progress_le {fuel : ℕ} {a a' : Account} (h : Continues fuel a a') (ha : a.Sound)
    (hissued : a'.issued.Nodup) : a.fields.progress ≤ a'.fields.progress := by
  induction h with
  | refl => exact le_refl _
  | @tail b c hsteps hcall ih =>
    have hb := Reaches.sound (Continues.reaches hsteps) ha
    have hlast := hcall.1.answered.progress_le hb hcall.2 hissued
    exact (ih (hcall.1.answered.issued.sublist.nodup hissued)).trans hlast

/-- What every snapshot satisfies, and what the next calls can do to it. -/
structure SnapshotFacts (fuel : ℕ) (a : Account) : Prop where
  snapshot : ∀ t c, Run OperationController.snapshot t (.returned c) → accounting.Trusted a t →
    c = a.fields
  consistent : a.fields.Consistent
  events : a.fields.events = a.appended.drop (a.appended.length - 32) ∧
    a.fields.events.length = min a.appended.length 32
  /-- As long as `token_hex` does not repeat itself. -/
  progress : ∀ a', Continues fuel a a' → a'.issued.Nodup → a.fields.progress ≤ a'.fields.progress
  raised : ∀ (c : ControllerCall) t e, Run (c.program fuel) t (.raised e) →
    accounting.Trusted a t → (accounting.over a t).fields = a.fields

theorem reaches_snapshotFacts {fuel : ℕ} {a : Account} (h : Reaches fuel .start a) :
    SnapshotFacts fuel a := by
  have ha := h.sound .start
  refine ⟨fun t c hrun htrust => ?_, ha.consistent, ⟨ha.events, ?_⟩,
    fun _ h hissued => h.progress_le ha hissued, fun c t e hrun htrust => ?_⟩
  · exact ((OperationController.follows_snapshot.run hrun htrust).2.1 c rfl).1
  · rw [ha.events, length_lastEvents]
  · obtain h | ⟨token, h⟩ := ((c.follows fuel a).run hrun htrust).2.2 e rfl
    · rw [h]
    · rw [h]
      rfl

/-- A flash is submitted. -/
def sampleSubmit : ControllerCall := .submit "0123456789abcdef" sampleImage none

def quietScript : AppScript where
  world := Script.answer { usb := fun _ => .ofDevices [] [] }

/-- What is known of the controller after that. -/
def sampleAccount : Account :=
  accounting.over .start ((sampleSubmit.program 1).exec quietScript.answer 0).1

theorem snapshotFacts_sample :
    sampleAccount.fields.status = .queued ∧ SnapshotFacts 1 sampleAccount := by
  refine ⟨by decide +kernel, reaches_snapshotFacts (Relation.ReflTransGen.single
    ⟨sampleSubmit, _, _, Run.of_exec quietScript.answer _ 0, ?_, ?_, rfl⟩)⟩
  · exact fun h => nomatch h
  · -- the fields are read once, before anything is written
    refine .intro trivial (.intro trivial (.intro rfl ?_))
    iterate 4 refine And.intro trivial ?_
    trivial

end Cul868Flasher
