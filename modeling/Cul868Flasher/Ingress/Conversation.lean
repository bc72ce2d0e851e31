import Cul868Flasher.Effects.Discipline
import Cul868Flasher.HexImages
import Cul868Flasher.Ingress.Http

/-!
# What a handler learns of its request

The description of a handler: the responses it has sent, the body it has read,
the registry as read under its lock, and what the flasher has found in the
uploaded file and in the state file. Steps on the file system and the socket
succeed.
-/

namespace Cul868Flasher
open Python Effects

def Entries.identifiers (entries : Entries) : List String := entries.map (·.1)

structure Conversation where
  responses : List ℕ
  body : Option (List UInt8)
  view : Option Entries
  size : Option ℕ
  /-- The uploaded file reaches a blank line. -/
  blank : Prop
  /-- The read of the state file has raised. -/
  unreadable : Prop

/-- The exceptions that `do_POST` maps to a response. -/
def isMapped (e : Exn) : Bool := e.cls = .operationBusyError || Handler.isRefusal e

@[simp] theorem isMapped_ingressError (message : String) :
    isMapped (.ingressError message) = true :=
  rfl

@[simp] theorem isMapped_hexFileError (message : String) :
    isMapped (.hexFileError message) = true :=
  rfl

@[simp] theorem isMapped_busyError (message : String) :
    isMapped (.operationBusyError message) = true := rfl

theorem isMapped_of_flashError {e : Exn} (h : e.isFlashError = true) : isMapped e = true := by
  simp [isMapped, Handler.isRefusal, h]

theorem isMapped_of_hexFileError {e : Exn} (h : e.isHexFileError = true) : isMapped e = true := by
  simp [isMapped, Handler.isRefusal, h]

namespace Conversation

def start : Conversation := ⟨[], none, none, none, False, False⟩

def afterFlasher (c : Conversation) : (o : World.Op) → World.Ans o → Conversation
  | .statSize _, size => { c with size := size }
  | .readBytes _, some source =>
    { c with blank := c.size = some source.length ∧ HexFile.ReachesBlankLine source }
  | .loadState, .raised _ => { c with unreadable := True }
  | _, _ => c

def afterApp (c : Conversation) : (o : AppOp) → App.Ans o → Conversation
  | .release .registry, _ => { c with view := none }
  | .entries, entries => { c with view := some entries }
  | .pop identifier, _ => { c with view := c.view.map fun v => v.erase identifier }
  | .clear, _ => { c with view := c.view.map fun _ => [] }
  | .insert identifier entry, _ => { c with view := c.view.map fun v => v.set identifier entry }
  | .setClaimed identifier claimed, _ =>
    { c with view := c.view.map fun v => v.setClaimed identifier claimed }
  | .read _, answer =>
    let answer : Except Exn (List UInt8) := answer
    { c with body := answer.toOption }
  | .flasher o, a => c.afterFlasher o a
  | _, _ => c

def afterHttp (c : Conversation) : (o : HttpOp) → Http.Ans o → Conversation
  | .app o, a => c.afterApp o a
  | .respond status _, _ => { c with responses := c.responses ++ [status] }

/-- The classes of the add-on are raised by the add-on only. -/
def TrustsFlasher : (o : World.Op) → World.Ans o → Prop
  | .loadState, read => ∀ e, read = .raised e → isMapped e = false
  | _, _ => True

/-- The registry is a dictionary, read and changed under its lock; files and
sockets do not fail. -/
def TrustsApp (c : Conversation) : (o : AppOp) → App.Ans o → Prop
  | .entries, entries => (Entries.identifiers entries).Nodup
  | .pop identifier, entry => ∀ v, c.view = some v → entry = v.lookup identifier
  | .mkdir, answer => ∃ a, answer = Except.ok a
  | .mkstemp, answer => ∃ path, answer = Except.ok path
  | .read _, answer => ∃ chunk, answer = Except.ok chunk
  | .file _ _, answer => ∃ a, answer = Except.ok a
  | .flasher o, a => TrustsFlasher o a
  | _, _ => True

def TrustsHttp (c : Conversation) : (o : HttpOp) → Http.Ans o → Prop
  | .app o, a => c.TrustsApp o a
  | .respond _ _, _ => True

end Conversation

@[simp] def inspecting : Discipline World Conversation where
  allows _ _ := True
  trusts _ := Conversation.TrustsFlasher
  after := Conversation.afterFlasher

@[simp] def conversing : Discipline App Conversation where
  allows _ _ := True
  trusts := Conversation.TrustsApp
  after := Conversation.afterApp

@[simp] def handling : Discipline Http Conversation where
  allows _ _ := True
  trusts := Conversation.TrustsHttp
  after := Conversation.afterHttp

variable {α β : Type} {c : Conversation} {Q : α → Conversation → Prop}
  {E : Exn → Conversation → Prop}

theorem follows_onFlasher {p : Program α} (hp : Follows inspecting Q E p c) :
    Follows conversing Q E (onFlasher p) c := by
  induction p generalizing c with
  | ret a => exact hp
  | raise e => exact hp
  | call o k ih => exact ⟨trivial, fun a ha => ih a (hp.2 a ha)⟩
  | halt => trivial

theorem follows_onApp {p : AppProgram α} (hp : Follows conversing Q E p c) :
    Follows handling Q E (onApp p) c := by
  induction p generalizing c with
  | ret a => exact hp
  | raise e => exact hp
  | call o k ih => exact ⟨trivial, fun a ha => ih a (hp.2 a ha)⟩
  | halt => trivial

theorem converse_withLock {lock : Lock} {block : AppProgram α} {Q' : α → Conversation → Prop}
    {E' : Exn → Conversation → Prop}
    (hQ : ∀ a c, Q' a c → Q a (c.afterApp (.release lock) ()))
    (hE : ∀ e c, E' e c → E e (c.afterApp (.release lock) ()))
    (hb : Follows conversing Q' E' block (c.afterApp (.acquire lock) ())) :
    Follows conversing Q E (withLock lock block) c :=
  Follows.step trivial fun _ _ => Follows.ensuring hb
    (fun a c h => Follows.perform trivial fun _ _ => hQ a c h)
    fun e c h => Follows.perform trivial fun _ _ => hE e c h

/-! ## Calls that leave the file and the state alone -/

namespace Conversation

/-- Nothing wrong with the request so far; `B` is what is known of its body. -/
structure Sound (B : Option (List UInt8) → Prop) (c : Conversation) : Prop where
  responses : c.responses = []
  body : B c.body
  blank : ¬ c.blank
  unreadable : ¬ c.unreadable

/-- The operations that keep it so. -/
def Apart (B : Option (List UInt8) → Prop) : AppOp → Prop
  | .read _ => ∀ body, B body
  | .flasher _ => False
  | _ => True

theorem Sound.call {B : Option (List UInt8) → Prop} (h : Sound B c) {o : AppOp} (ho : Apart B o)
    (a : App.Ans o) : Sound B (c.afterApp o a) := by
  obtain ⟨hresponses, hbody, hblank, hunreadable⟩ := h
  cases o with
  | read size => exact ⟨hresponses, ho _, hblank, hunreadable⟩
  | flasher o => exact ho.elim
  | release lock => cases lock <;> exact ⟨hresponses, hbody, hblank, hunreadable⟩
  | _ => exact ⟨hresponses, hbody, hblank, hunreadable⟩

end Conversation

/-- A program that finds nothing wrong with the request; `C` bounds its exceptions. -/
def Keeps (B : Option (List UInt8) → Prop) (C : Exn → Prop) (p : AppProgram α) : Prop :=
  ∀ c, c.Sound B →
    Follows conversing (fun _ => Conversation.Sound B) (fun e c => C e ∧ c.Sound B) p c

namespace Keeps
variable {B : Option (List UInt8) → Prop} {C : Exn → Prop}

theorem ret (a : α) : Keeps B C (.ret a) := fun _ h => Follows.ret h

theorem raise {e : Exn} (he : C e) : Keeps B C (.raise e : AppProgram α) :=
  fun _ h => Follows.raise ⟨he, h⟩

theorem call {o : AppOp} (ho : Conversation.Apart B o) : Keeps B C (call o) :=
  fun _ h => Follows.perform trivial fun a _ => h.call ho a

theorem bind {p : AppProgram α} {f : α → AppProgram β} (hp : Keeps B C p)
    (hf : ∀ a, Keeps B C (f a)) : Keeps B C (p >>= f) :=
  fun c h => (hp c h).bind fun a c h => hf a c h

/-- A call whose answer is needed to go on. -/
theorem callBind {o : AppOp} {f : App.Ans o → AppProgram β} (ho : Conversation.Apart B o)
    (hf : ∀ a, Keeps B C (f a)) : Keeps B C (Cul868Flasher.call o >>= f) :=
  (call ho).bind hf

theorem withLock {lock : Lock} {block : AppProgram α} (hb : Keeps B C block) :
    Keeps B C (withLock lock block) := fun _ h =>
  converse_withLock (fun _ _ h => h.call (o := .release lock) trivial ())
    (fun _ _ h => ⟨h.1, h.2.call (o := .release lock) trivial ()⟩)
    (hb _ (h.call (o := .acquire lock) trivial ()))

theorem attempt_bind {p : AppProgram α} {f : Except Exn α → AppProgram β} (hp : Keeps B C p)
    (hok : ∀ a, Keeps B C (f (.ok a))) (herr : ∀ e, C e → Keeps B C (f (.error e))) :
    Keeps B C (p.attempt >>= f) :=
  fun c h => Follows.attempt_bind (hp c h) (fun a c h => hok a c h) fun e c h => herr e h.1 c h.2

end Keeps

variable {B : Option (List UInt8) → Prop} {C : Exn → Prop}

/-! ## The registry -/

namespace ArtifactRegistry

theorem keeps_unlinkAll (paths : List Path) : Keeps B C (unlinkAll paths) := by
  induction paths with
  | nil => exact .ret ()
  | cons path paths ih => exact Keeps.callBind (o := .unlink path) trivial fun _ => ih

/-- The expired identifiers are some of those that were read, each of them once. -/
theorem follows_expiredOf {v : Option Entries} (entries : Entries)
    (hc : c.Sound B ∧ c.view = v) :
    Follows conversing
      (fun expired c => (c.Sound B ∧ c.view = v) ∧ expired.Sublist entries.identifiers)
      (fun _ _ => False) (expiredOf entries) c := by
  induction entries generalizing c with
  | nil => exact Follows.ret ⟨hc, List.nil_sublist _⟩
  | cons item entries ih =>
    refine Follows.bind (R := fun _ c => c.Sound B ∧ c.view = v) ?_ fun expired c hc => ?_
    · unfold isExpired
      split_ifs with hclaimed
      · exact Follows.ret hc
      · exact Follows.step trivial fun now _ => Follows.ret hc
    · refine (ih hc).bind fun identifiers c hrest => Follows.ret ⟨hrest.1, ?_⟩
      split_ifs
      · exact hrest.2.cons_cons _
      · exact hrest.2.cons _

theorem lookup_isSome {v : Entries} {identifier : String} (h : identifier ∈ v.identifiers) :
    ∃ entry, v.lookup identifier = some entry := by
  induction v with
  | nil => exact absurd h List.not_mem_nil
  | cons item v ih =>
    obtain ⟨key, entry⟩ := item
    by_cases hkey : identifier = key
    · exact ⟨entry, by simp [hkey]⟩
    · obtain ⟨entry', h'⟩ := ih (by simpa [Entries.identifiers, hkey] using h)
      exact ⟨entry', by rwa [List.lookup_cons, beq_false_of_ne hkey]⟩

/-- What was read as expired is still there when it is removed. -/
theorem follows_removeAll {expired : List String} {v : Entries}
    (hnodup : expired.Nodup) (hmem : ∀ identifier ∈ expired, identifier ∈ v.identifiers)
    (hc : c.Sound B ∧ c.view = some v) :
    Follows conversing (fun _ => Conversation.Sound B) (fun _ _ => False)
      (removeAll expired) c := by
  induction expired generalizing c v with
  | nil => exact Follows.ret hc.1
  | cons identifier expired ih =>
    obtain ⟨hnot, hrest⟩ := List.nodup_cons.mp hnodup
    refine Follows.step trivial fun (popped : Option StagedArtifact) hpopped => ?_
    obtain ⟨entry, hentry⟩ := lookup_isSome (hmem identifier List.mem_cons_self)
    obtain rfl : popped = some entry := (hpopped v hc.2).trans hentry
    have hpop := (hc.1.call (o := .pop identifier) trivial (some entry)).call
      (o := .unlink entry.image.path) trivial ()
    refine Follows.step trivial fun _ _ =>
      ih (v := v.erase identifier) hrest (fun other hother => ?_)
      ⟨hpop, ?_⟩
    · have hne : other ≠ identifier := fun h => hnot (h ▸ hother)
      have hin := hmem other (List.mem_cons_of_mem _ hother)
      simp only [Entries.identifiers, Entries.erase, List.mem_map, List.mem_filter] at hin ⊢
      obtain ⟨item, hitem, rfl⟩ := hin
      exact ⟨item, ⟨hitem, by simpa using hne⟩, rfl⟩
    · change Option.map _ c.view = _
      rw [hc.2]
      rfl

theorem keeps_removeExpiredLocked : Keeps B C removeExpiredLocked := by
  intro c hc
  refine Follows.step trivial fun (entries : Entries) hnodup => ?_
  have hread : (c.afterApp .entries entries).Sound B ∧
      (c.afterApp .entries entries).view = some entries := ⟨hc.call (o := .entries) trivial _, rfl⟩
  refine ((follows_expiredOf entries hread).conseq (fun _ _ h => h) fun _ _ h => h.elim).bind ?_
  rintro expired c ⟨hc, hsub⟩
  exact (follows_removeAll (hsub.nodup hnodup) (fun _ h => hsub.subset h) hc).conseq
    (fun _ _ h => h) fun _ _ h => h.elim

theorem keeps_stage (hC : ∀ message, C (.ingressError message)) (image : HexImage)
    (preflight : FlashPreflight) : Keeps B C (stage image preflight) := by
  refine Keeps.bind (Keeps.withLock (keeps_removeExpiredLocked.bind fun _ =>
    Keeps.callBind (o := .entries) trivial fun entries => ?_)) fun staged =>
      (keeps_unlinkAll _).bind fun _ => .ret _
  split_ifs
  · exact .raise (hC _)
  · exact Keeps.callBind (o := .clear) trivial fun _ =>
      Keeps.callBind (o := .tokenUrlsafe) trivial fun _ =>
        Keeps.callBind (o := .monotonic) trivial fun _ =>
          Keeps.callBind (o := .insert _ _) trivial fun _ => .ret _

theorem keeps_claimLocked (hC : ∀ message, C (.ingressError message))
    (identifier : String) : Keeps B C (claimLocked identifier) := by
  refine keeps_removeExpiredLocked.bind fun _ => (Keeps.call (o := .entries) trivial).bind
    fun (entries : Entries) => ?_
  cases entries.lookup identifier with
  | none => exact .raise (hC _)
  | some entry =>
    dsimp only
    split_ifs
    · exact .raise (hC _)
    · exact Keeps.callBind (o := .setClaimed _ _) trivial fun _ => .ret _

theorem keeps_releaseClaim (identifier : String) :
    Keeps B C (releaseClaim identifier) := by
  refine Keeps.withLock (Keeps.callBind (o := .entries) trivial fun (entries : Entries) => ?_)
  cases entries.lookup identifier with
  | none => exact .ret ()
  | some entry => exact Keeps.call (o := .setClaimed _ _) trivial

theorem keeps_consume (identifier : String) : Keeps B C (consume identifier) :=
  Keeps.withLock (Keeps.callBind (o := .pop _) trivial fun _ => .ret ())

end ArtifactRegistry

/-! ## The controller -/

namespace OperationController

theorem keeps_snapshot : Keeps B C snapshot :=
  Keeps.withLock (Keeps.call (o := .controller) trivial)

theorem keeps_update (u : Update) : Keeps B C (update u) :=
  Keeps.callBind (o := .time) trivial fun _ => Keeps.call (o := .update _ _) trivial

/-- A claimed artifact has an identifier that `submit` accepts. -/
theorem keeps_submit (hC : ∀ message, C (.operationBusyError message))
    {artifactId : String} (hid : ¬ (artifactId = "" ∨ 128 < artifactId.length)) (image : HexImage)
    (manualRecovery : Option ManualRecoveryTarget) :
    Keeps B C (submit artifactId image manualRecovery) := by
  unfold submit
  rw [if_neg hid]
  refine Keeps.callBind (o := .tokenHex) trivial fun operationId =>
    Keeps.bind (Keeps.withLock ?_) fun _ => .ret _
  refine Keeps.callBind (o := .controller) trivial fun (fields : Controller) => ?_
  split_ifs
  · exact .raise (hC _)
  refine Keeps.callBind (o := .putNowait _) trivial fun (put : Bool) => ?_
  split_ifs
  · exact .raise (hC _)
  · exact keeps_update _

end OperationController

/-! ## Requests -/

namespace IngressApi

theorem keeps_requireIdle (hC : ∀ message, C (.operationBusyError message)) :
    Keeps B C requireIdle := by
  refine OperationController.keeps_snapshot.bind fun fields => ?_
  split_ifs
  · exact .raise (hC _)
  · exact .ret ()

theorem keeps_requireAccepting (hC : ∀ message, C (.ingressError message)) :
    Keeps B C requireAcceptingMutationsLocked := by
  refine Keeps.callBind (o := .stopping) trivial fun (stopping : Bool) => ?_
  split_ifs
  · exact .raise (hC _)
  refine Keeps.callBind (o := .accepting) trivial fun (accepting : Bool) => ?_
  split_ifs
  · exact .raise (hC _)
  · exact .ret ()

end IngressApi
end Cul868Flasher
