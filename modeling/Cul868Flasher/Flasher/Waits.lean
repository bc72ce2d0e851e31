import Cul868Flasher.Flasher.Found
import Cul868Flasher.Flasher.Isolation
import Mathlib.Data.Rat.Floor

/-!
# The waits are bounded

A wait polls until its deadline, which it computes from its first reading of the
clock. Between two polls it pauses, so the clock brings each poll closer to the
deadline. A poll that meets a device with the wrong identity ends the wait.
-/

namespace Cul868Flasher
open Python Effects

variable {α β σ : Type}

def readingOf : (o : World.Op) → World.Ans o → Option ℚ
  | .monotonic, now => some now
  | _, _ => none

/-- The readings of the clock, in their order. -/
def readings (t : Trace World) : List ℚ := t.filterMap fun e => readingOf e.op e.ans

def isPoll (poll : UsbCall) : World.Op → Bool
  | .usb call => call = poll
  | _ => false

/-- How often a history polls. -/
def pollsOf (poll : UsbCall) (t : Trace World) : ℕ := t.countP fun e => isPoll poll e.op

/-- A wait that polls at most `most` times, that never asks to sleep for longer than
until `timeout + overrun` after its first reading, and that ends with the exception
of a poll that is refused. The clock never goes back, and a pause takes at least as
long as asked; nothing else is said about the answers. -/
structure BoundedWait (wait : ℕ → Program α) (poll : UsbCall) (timeout overrun : ℚ) (most : ℕ)
    (refusal : Trace World → Exn → Prop) : Prop where
  ends : ∀ fuel, most < fuel → ∀ w n now,
    SupervisorClient.clock.Trusted now ((wait fuel).exec w n).1 → ((wait fuel).exec w n).2 ≠ .cut
  polls : ∀ fuel t r now, Run (wait fuel) t r → SupervisorClient.clock.Trusted now t →
    pollsOf poll t ≤ most
  pauses : ∀ fuel t r now, Run (wait fuel) t r → SupervisorClient.clock.Trusted now t →
    ∀ u seconds a v, t = u ++ ⟨.sleep seconds, a⟩ :: v → 0 ≤ seconds ∧ ∃ start last,
      (readings u).head? = some start ∧ (readings u).getLast? = some last ∧
        last + seconds ≤ start + timeout + overrun
  refused : ∀ fuel t r now, Run (wait fuel) t r → SupervisorClient.clock.Trusted now t →
    ∀ u seen v e, t = u ++ seen ++ v → refusal seen e → v = [] ∧ (r = .raised e ∨ r = .cut)

/-! ## What a wait keeps track of -/

structure Wait where
  /-- The clock shows this at least. -/
  now : ℚ
  start : Option ℚ
  last : Option ℚ
  polls : ℕ
  /-- The application that the last lookup found. -/
  found : Option UsbTarget
  refused : Option Exn

structure WaitRules where
  poll : UsbCall
  timeout : ℚ
  overrun : ℚ
  most : ℕ
  found : UsbCall → Sysfs → Option UsbTarget
  /-- The exception a lookup must lead to, given the application found before. -/
  refusal : Option UsbTarget → UsbCall → Sysfs → Option Exn

namespace Wait

def begin (now : ℚ) : Wait := ⟨now, none, none, 0, none, none⟩

/-- If a lookup was refused, then with this exception. -/
def LeftWith (w : Wait) (e : Exn) : Prop := w.refused = none ∨ w.refused = some e

/-- The deadline and the last reading leave room for the pause. -/
def MayPause (w : Wait) (R : WaitRules) (seconds : ℚ) : Prop :=
  0 ≤ seconds ∧ ∃ start last, w.start = some start ∧ w.last = some last ∧
    last + seconds ≤ start + R.timeout + R.overrun

/-- The clock has just been read, and nothing was refused. -/
structure Shows (w : Wait) (start now : ℚ) (polls : ℕ) : Prop where
  unrefused : w.refused = none
  present : w.now = now
  started : w.start = some start
  read : w.last = some now
  polled : w.polls = polls

@[simp] def Allows (R : WaitRules) (w : Wait) : World.Op → Prop
  | .sleep seconds => w.refused = none ∧ w.MayPause R seconds
  | .usb call => w.refused = none ∧ (call = R.poll → w.polls < R.most)
  | _ => w.refused = none

@[simp] def after (R : WaitRules) (w : Wait) : (o : World.Op) → World.Ans o → Wait
  | .monotonic, now => { w with now := now, start := w.start.or (some now), last := some now }
  | .sleep seconds, _ => { w with now := w.now + seconds }
  | .usb call, fs =>
    { w with
      polls := w.polls + if call = R.poll then 1 else 0
      found := R.found call fs
      refused := R.refusal w.found call fs }
  | _, _ => w

variable {R : WaitRules} {w : Wait} {start now : ℚ} {n : ℕ}

/-- A reading after the first one. -/
theorem shows_read (hrefused : w.refused = none) (hstart : w.start = some start) (now : ℚ) :
    (w.after R .monotonic now).Shows start now w.polls :=
  ⟨hrefused, rfl, by simp [hstart], rfl, rfl⟩

/-- A lookup that is waited out. -/
theorem Shows.usb (R : WaitRules) {call : UsbCall} (fs : Sysfs) (h : w.Shows start now n)
    (hrefusal : R.refusal w.found call fs = none) (hcall : call ≠ R.poll) :
    (w.after R (.usb call) fs).Shows start now n :=
  ⟨hrefusal, h.present, h.started, h.read, by simp [h.polled, hcall]⟩

/-- A poll that is waited out. -/
theorem Shows.poll (R : WaitRules) (fs : Sysfs) (h : w.Shows start now n)
    (hrefusal : R.refusal w.found R.poll fs = none) :
    (w.after R (.usb R.poll) fs).Shows start now (n + 1) :=
  ⟨hrefusal, h.present, h.started, h.read, by simp [h.polled]⟩

end Wait

@[simp] def WaitRules.discipline (R : WaitRules) : Discipline World Wait where
  allows := Wait.Allows R
  trusts w o a := SupervisorClient.clock.trusts w.now o a
  after := Wait.after R

namespace WaitRules
variable {R : WaitRules}

theorem trusted_iff {w : Wait} {t : Trace World} :
    R.discipline.Trusted w t ↔ SupervisorClient.clock.Trusted w.now t := by
  induction t generalizing w with
  | nil => exact Iff.rfl
  | cons e t ih =>
    have hnow : (R.discipline.after w e.op e.ans).now =
        SupervisorClient.clock.after w.now e.op e.ans := by
      obtain ⟨o, a⟩ := e
      cases o <;> rfl
    exact and_congr Iff.rfl (by rw [ih, hnow])

theorem over_polls (w : Wait) (t : Trace World) :
    (R.discipline.over w t).polls = w.polls + pollsOf R.poll t := by
  induction t generalizing w with
  | nil => rfl
  | cons e t ih =>
    rw [Discipline.over_cons, ih, pollsOf, pollsOf, List.countP_cons]
    obtain ⟨o, a⟩ := e
    cases o with
    | usb call =>
      by_cases hcall : call = R.poll
      · simp only [discipline, Wait.after, isPoll, hcall, decide_true, if_true]
        omega
      · simp [isPoll, hcall]
    | _ => simp [isPoll]

theorem over_start (w : Wait) (t : Trace World) :
    (R.discipline.over w t).start = w.start.or (readings t).head? := by
  induction t generalizing w with
  | nil => simp [readings]
  | cons e t ih =>
    rw [Discipline.over_cons, ih]
    obtain ⟨o, a⟩ := e
    cases o with
    | monotonic =>
      change (w.start.or (some a)).or _ = w.start.or (some a)
      cases w.start <;> rfl
    | _ => rfl

theorem over_last (w : Wait) (t : Trace World) :
    (R.discipline.over w t).last = (readings t).getLast?.or w.last := by
  induction t generalizing w with
  | nil => simp [readings]
  | cons e t ih =>
    rw [Discipline.over_cons, ih]
    obtain ⟨o, a⟩ := e
    cases o with
    | monotonic =>
      have hcons : ∀ (now : ℚ) (l : List ℚ),
          l.getLast?.or (some now) = (now :: l).getLast?.or w.last := by
        intro now l
        rw [List.getLast?_cons]
        cases l.getLast? <;> rfl
      exact hcons a (readings t)
    | _ => rfl

/-- The last poll of a history was allowed. -/
theorem polls_le {w : Wait} {t : Trace World} (hw : w.polls = 0)
    (h : ∀ u e v, t = u ++ e :: v → R.discipline.allows (R.discipline.over w u) e.op) :
    pollsOf R.poll t ≤ R.most := by
  induction t using List.reverseRecOn with
  | nil => exact Nat.zero_le _
  | append_singleton t e ih =>
    have hbefore := ih fun u e' v ht => h u e' (v ++ [e]) (by simp [ht])
    have hallow := h t e [] rfl
    rw [pollsOf, List.countP_append, ← pollsOf]
    obtain ⟨o, a⟩ := e
    cases o with
    | usb call =>
      by_cases hcall : call = R.poll
      · have hlt := hallow.2 hcall
        rw [over_polls, hw] at hlt
        simp only [List.countP_cons, List.countP_nil, isPoll, hcall, decide_true, if_true]
        omega
      · simpa [isPoll, hcall] using hbefore
    | _ => exact hbefore

/-- A wait that follows its rules is bounded. -/
theorem bounded {wait : ℕ → Program α} {refusal : Trace World → Exn → Prop}
    (hends : ∀ fuel now, R.most < fuel → Ends R.discipline (wait fuel) (.begin now))
    (hfollows : ∀ fuel now, Follows R.discipline (fun _ w => w.refused = none)
      (fun e w => w.LeftWith e) (wait fuel) (.begin now))
    (hrefusal : ∀ w seen e, refusal seen e → (R.discipline.over w seen).refused = some e) :
    BoundedWait wait R.poll R.timeout R.overrun R.most refusal := by
  constructor
  · intro fuel hfuel w n now htrust
    exact (hends fuel now hfuel).exec (trusted_iff.mpr htrust)
  · intro fuel t r now hrun htrust
    obtain ⟨hallows, -, -⟩ := (hfollows fuel now).run hrun (trusted_iff.mpr htrust)
    exact polls_le rfl hallows
  · rintro fuel t r now hrun htrust u seconds a v rfl
    obtain ⟨hallows, -, -⟩ := (hfollows fuel now).run hrun (trusted_iff.mpr htrust)
    obtain ⟨-, hpos, start, last, hstart, hlast, hle⟩ := hallows u _ v rfl
    rw [over_start] at hstart
    rw [over_last] at hlast
    exact ⟨hpos, start, last, by simpa [Wait.begin] using hstart,
      by simpa [Wait.begin] using hlast, hle⟩
  · rintro fuel t r now hrun htrust u seen v e rfl hrefused
    obtain ⟨hallows, hret, hraise⟩ := (hfollows fuel now).run hrun (trusted_iff.mpr htrust)
    have hover : (R.discipline.over (.begin now) (u ++ seen)).refused = some e := by
      rw [Discipline.over_append]
      exact hrefusal _ _ _ hrefused
    have hnil : v = [] := by
      cases v with
      | nil => rfl
      | cons e' v =>
        have hallow := hallows (u ++ seen) e' v rfl
        have hnone : (R.discipline.over (.begin now) (u ++ seen)).refused = none := by
          obtain ⟨o, a⟩ := e'
          cases o with
          | sleep seconds => exact hallow.1
          | usb call => exact hallow.1
          | _ => exact hallow
        rw [hover] at hnone
        cases hnone
    subst hnil
    rw [List.append_nil] at hret hraise
    refine ⟨rfl, ?_⟩
    cases r with
    | cut => exact .inr rfl
    | returned a =>
      have hnone := hret a rfl
      rw [hover] at hnone
      cases hnone
    | raised e' =>
      rcases hraise e' rfl with hnone | hsome
      · rw [hover] at hnone
        cases hnone
      · rw [hover] at hsome
        cases hsome
        exact .inl rfl

/-- What a pass of a wait comes to: another poll, or the result. -/
def Pass (R : WaitRules) (Head : Wait → Prop) (Q : α → Wait → Prop) (w : Wait) :
    σ ⊕ α → Wait → Prop
  | .inl _, w' => Head w' ∧ w.polls < w'.polls ∧ w'.polls ≤ R.most
  | .inr a, w' => Q a w'

section Loop
variable {Head : Wait → Prop} {Q : α → Wait → Prop} {E : Exn → Wait → Prop}
  {body : σ → Program (σ ⊕ α)}

theorem loop_follows (hb : ∀ s w, Head w → Follows R.discipline (Pass R Head Q w) E (body s) w)
    (fuel : ℕ) {s : σ} {w : Wait} (hw : Head w) :
    Follows R.discipline Q E (.loop body fuel s) w := by
  refine Follows.loop (K := fun _ => Head) (fun s w hw => ?_) fuel hw
  refine (hb s w hw).conseq (fun x w' hx => ?_) fun _ _ h => h
  constructor
  · rintro s' rfl
    exact hx.1
  · rintro a rfl
    exact hx

/-- Every pass but the last uses up one of the polls. -/
theorem loop_ends (hb : ∀ s w, Head w → Follows R.discipline (Pass R Head Q w) E (body s) w)
    (htotal : ∀ s, Total (body s)) {fuel : ℕ} (hfuel : R.most < fuel) {s : σ} {w : Wait}
    (hw : Head w) : Ends R.discipline (.loop body fuel s) w := by
  refine Ends.loop (K := fun n _ w => Head w ∧ n = R.most - w.polls) (F := E) ?_
    (m := R.most - w.polls) (by omega) ⟨hw, rfl⟩
  rintro _ s w ⟨hw, rfl⟩
  refine ⟨Ends.of_total (htotal s), (hb s w hw).conseq (fun x w' hx => ?_) fun _ _ h => h⟩
  rintro s' rfl
  obtain ⟨hhead, hlt, hle⟩ := hx
  exact ⟨R.most - w'.polls, by omega, hhead, rfl⟩

end Loop

/-- A lookup, and what is kept of its answer. -/
theorem follows_lookup {call : UsbCall} {f : Sysfs → Except Exn α} {w : Wait}
    (hrefused : w.refused = none) (hpoll : call = R.poll → w.polls < R.most) :
    Follows R.discipline (fun a w' => ∃ fs : Sysfs, f fs = .ok a ∧ w' = w.after R (.usb call) fs)
      (fun e w' => ∃ fs : Sysfs, f fs = .error e ∧ w' = w.after R (.usb call) fs)
      (usb call >>= fun fs => .ofExcept (f fs) : Program α) w := by
  refine Follows.step ⟨hrefused, hpoll⟩ fun (fs : Sysfs) _ => ?_
  exact Follows.ofExcept (fun a ha => ⟨fs, ha, rfl⟩) fun e he => ⟨fs, he, rfl⟩

/-- A lookup whose `UsbTopologyError` is waited out. -/
theorem follows_catching {call : UsbCall} {f : Sysfs → Except Exn α} {w : Wait}
    {g : Except Exn α → Program β} {Q : β → Wait → Prop} {E : Exn → Wait → Prop}
    (hrefused : w.refused = none) (hpoll : call = R.poll → w.polls < R.most)
    (hok : ∀ (fs : Sysfs) a, f fs = .ok a →
      Follows R.discipline Q E (g (.ok a)) (w.after R (.usb call) fs))
    (herr : ∀ (fs : Sysfs) e, f fs = .error e →
      Follows R.discipline Q E (g (.error e)) (w.after R (.usb call) fs))
    (hother : ∀ (fs : Sysfs) e, f fs = .error e → E e (w.after R (.usb call) fs)) :
    Follows R.discipline Q E
      ((usb call >>= fun fs => .ofExcept (f fs) : Program α).catching Exn.isUsbTopologyError >>= g)
      w := by
  refine Follows.catching_bind (follows_lookup hrefused hpoll) ?_ ?_ ?_
  · rintro a _ ⟨fs, ha, rfl⟩
    exact hok fs a ha
  · rintro e _ - ⟨fs, he, rfl⟩
    exact herr fs e he
  · rintro e _ - ⟨fs, he, rfl⟩
    exact hother fs e he

/-- The pause at the end of a pass. -/
theorem follows_pause {w : Wait} {start now seconds : ℚ} {n : ℕ} {a : α} {Q : α → Wait → Prop}
    {E : Exn → Wait → Prop} (hw : w.Shows start now n) (hpos : 0 ≤ seconds)
    (hle : now + seconds ≤ start + R.timeout + R.overrun)
    (hQ : Q a { w with now := now + seconds }) :
    Follows R.discipline Q E (sleep seconds >>= fun _ => pure a : Program α) w := by
  refine Follows.step ⟨hw.unrefused, hpos, start, now, hw.started, hw.read, hle⟩ fun _ _ => ?_
  rw [← hw.present] at hQ
  exact .pure hQ

end WaitRules
end Cul868Flasher
