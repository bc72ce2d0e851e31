import Cul868Flasher.Effects.Costs
import Cul868Flasher.Flasher.Isolation

/-!
# How long a wait pauses

The flasher sleeps between its looks. A pass of a wait reads the clock before it
sleeps, so that on an honest clock the pauses of a wait never pass its deadline by
more than one pause, whatever the looks find and however long they take.
-/

namespace Cul868Flasher
open Python Effects

variable {α β ε σ : Type}

/-- The seconds that a call asks to sleep. -/
def sleepSeconds : World.Op → ℚ
  | .sleep seconds => seconds
  | _ => 0

def slept (t : Trace World) : ℚ := cost (I := World) sleepSeconds t

/-- On an honest clock, no run of `p` asks to sleep for more than `b` seconds. -/
abbrev Sleeps (b : ℚ) (p : Prog World ε α) : Prop := Costs SupervisorClient.clock sleepSeconds b p

theorem sleepSeconds_eq_zero {o : World.Op} (ho : o.kind ≠ .sleep) : sleepSeconds o = 0 := by
  cases o with
  | sleep seconds => exact absurd rfl ho
  | _ => rfl

theorem Uses.sleeps {ks : List OpKind} {p : Prog World ε α} (h : Uses ks p) (hks : .sleep ∉ ks) :
    Sleeps 0 p :=
  Costs.free h fun _ ho => sleepSeconds_eq_zero fun hsleep => hks (hsleep ▸ ho)

theorem sleeps_sleep {seconds : ℚ} (h : 0 ≤ seconds) :
    Sleeps seconds (sleep seconds : Prog World ε Unit) :=
  Costs.perform h le_rfl

/-! ## Waits -/

/-- The clock, with a meter for the pauses. -/
abbrev pausing (cap : ℚ) : Discipline World (ℚ × ℚ) :=
  SupervisorClient.clock.metered sleepSeconds cap

/-- The pauses since `start` outrun neither the clock nor the cap. -/
def InTime (start cap : ℚ) (w : ℚ × ℚ) : Prop := start + w.2 ≤ w.1 ∧ w.2 ≤ cap

/-- A part of a wait that started at `start`. -/
abbrev Pauses (start cap : ℚ) (p : Program α) (w : ℚ × ℚ) : Prop :=
  Follows (pausing cap) (fun _ w => InTime start cap w) (fun _ _ => True) p w

section Waits
variable {start cap : ℚ} {w : ℚ × ℚ}

theorem Pauses.reading {f : ℚ → Program α} (hw : InTime start cap w)
    (hf : ∀ now, InTime start cap (now, w.2) → Pauses start cap (f now) (now, w.2)) :
    Pauses start cap (monotonic >>= f) w := by
  refine Follows.step ⟨trivial, (add_zero w.2).le.trans hw.2⟩ fun (now : ℚ) hnow => ?_
  have hafter : (pausing cap).after w .monotonic now = (now, w.2) :=
    congrArg (Prod.mk now) (add_zero w.2)
  rw [hafter]
  exact hf now ⟨hw.1.trans hnow, hw.2⟩

/-- A part that neither reads the clock nor pauses. -/
theorem Pauses.awake (ks : List OpKind) {p : Program β} {f : β → Program α} (hp : Uses ks p)
    (hks : .clock ∉ ks ∧ .sleep ∉ ks) (hw : InTime start cap w)
    (hf : ∀ b, Pauses start cap (f b) w) : Pauses start cap (p >>= f) w := by
  obtain ⟨hclock, hsleep⟩ := hks
  have hfree : ∀ o : World.Op, o.kind ∈ ks → sleepSeconds o = 0 := fun o ho =>
    sleepSeconds_eq_zero fun h => hsleep (h ▸ ho)
  have hframe : Follows (pausing cap) (fun _ w' => w' = w) (fun _ w' => w' = w) p w := by
    refine Follows.frame hp (fun o ho => ⟨trivial, ?_⟩) fun o a ho => Prod.ext ?_ ?_
    · rw [hfree o ho, add_zero]
      exact hw.2
    · cases o with
      | monotonic => exact absurd ho hclock
      | sleep seconds => exact absurd ho hsleep
      | _ => rfl
    · change w.2 + sleepSeconds o = w.2
      rw [hfree o ho, add_zero]
  refine (hframe.conseq (fun _ _ h => h) fun _ _ _ => trivial).bind ?_
  rintro b _ rfl
  exact hf b

theorem Pauses.sleep {seconds : ℚ} (hw : InTime start cap w) (hcap : w.2 + seconds ≤ cap) :
    Pauses start cap (Cul868Flasher.sleep seconds : Program Unit) w := by
  refine Follows.perform ⟨trivial, hcap⟩ fun _ _ => ⟨?_, hcap⟩
  change start + (w.2 + seconds) ≤ w.1 + seconds
  rw [← add_assoc]
  exact add_le_add_left hw.1 seconds

/-- A loop that reads the clock before it starts, and no pass of which pauses past the
cap. -/
theorem sleeps_loop {step : ℚ → σ → Program (σ ⊕ α)} (fuel : ℕ) (s : σ) (hcap : 0 ≤ cap)
    (hstep : ∀ start s w, InTime start cap w → Pauses start cap (step start s) w) :
    Sleeps cap (monotonic >>= fun start => .loop (step start) fuel s) := by
  refine Costs.of_follows (Q := fun _ _ => True) (E := fun _ _ => True) hcap fun before => ?_
  refine Follows.step ⟨trivial, (add_zero (0 : ℚ)).le.trans hcap⟩ fun (start : ℚ) _ => ?_
  have hbegin : InTime start cap ((pausing cap).after (before, 0) .monotonic start) :=
    ⟨by simp [Discipline.metered, SupervisorClient.clock, sleepSeconds],
      by simpa [Discipline.metered, sleepSeconds] using hcap⟩
  refine Follows.loop (K := fun _ w => InTime start cap w) (fun s w hw => ?_) fuel hbegin
  exact (hstep start s w hw).conseq (fun x w' hw' => ⟨fun _ _ => hw', fun _ _ => trivial⟩)
    fun _ _ h => h

theorem sleeps_wait {step : ℚ → σ → Program (σ ⊕ α)} {rest : α → Program β} (fuel : ℕ) (s : σ)
    (hcap : 0 ≤ cap)
    (hstep : ∀ start s w, InTime start cap w → Pauses start cap (step start s) w)
    (hrest : ∀ a, Sleeps 0 (rest a)) :
    Sleeps cap (monotonic >>= fun start => .loop (step start) fuel s >>= rest) :=
  (sleeps_loop fuel s hcap hstep).before hrest

end Waits

theorem waitHint_sleeps (ks : List OpKind) {discovery : Program (List UsbTarget)}
    (h : Uses ks discovery) (hks : .sleep ∉ ks) {qemu : Bool} {topology label lastError : String}
    {f : String → Exn} :
    Sleeps 0 (Flasher.waitHint qemu discovery topology label lastError >>= fun lastError =>
      .raise (f lastError) : Program α) :=
  ((Flasher.waitHint_uses h _ _ _ _).sleeps hks).after le_rfl fun _ => .raise _ le_rfl

namespace Flasher
variable {topology : String} {expected : Option String} {qemu allow : Bool} {start seconds : ℚ}
  {w : ℚ × ℚ} (fuel : ℕ) (settings : Settings)

theorem waitForBootloaderStep_pauses (lastError : String) (hw : InTime start (seconds + 1 / 4) w) :
    Pauses start (seconds + 1 / 4)
      (waitForBootloaderStep topology expected (start + seconds) qemu allow lastError) w := by
  refine Pauses.reading hw fun now hnow => ?_
  split
  · rename_i hbefore
    have hpause (lastError : String) : Pauses start (seconds + 1 / 4)
        (sleep pollSeconds >>= fun _ => pure (.inl lastError) :
          Program (String ⊕ Except String UsbTarget)) (now, w.2) := by
      refine (Pauses.sleep hnow ?_).bind fun _ _ hw' => .pure hw'
      have := hnow.1
      simp only [pollSeconds]
      linarith
    refine Pauses.awake [.usb] ((bootloaderForTopology_uses (by decide) _).catching _)
      (by decide) hnow fun found => ?_
    split
    · exact hpause _
    · exact Pauses.awake [] (Emits.ofExcept _) (by decide) hnow fun _ => .pure hnow
    · split
      · refine Pauses.awake [.usb] (singleReenumeratedTarget_uses (bootloaderTargets_uses
          (by decide)) _ _ _) (by decide) hnow fun reenumerated => ?_
        cases reenumerated with
        | some bootloader => exact .pure hnow
        | none => exact hpause _
      · exact hpause _
  · exact .pure hnow

theorem waitForBootloader_sleeps (topology : String) (expected : Option String)
    (timeout : Option ℤ) (htimeout : 0 ≤ timeout.getD settings.bootTimeout) (qemu allow : Bool) :
    Sleeps ((timeout.getD settings.bootTimeout : ℤ) + 1 / 4)
      (waitForBootloader fuel settings topology expected timeout qemu allow) := by
  have hpos : (0 : ℚ) ≤ (timeout.getD settings.bootTimeout : ℤ) := by exact_mod_cast htimeout
  refine sleeps_wait fuel _ (by linarith)
    (fun start lastError w hw => waitForBootloaderStep_pauses lastError hw) fun found => ?_
  cases found with
  | ok bootloader => exact .pure _ le_rfl
  | error lastError =>
    exact waitHint_sleeps [.usb] (bootloaderTargets_uses (by decide)) (by decide)

theorem sleepUntil_pauses (hw : InTime start seconds w) :
    Pauses start seconds (sleepUntil (start + seconds)) w := by
  refine Pauses.reading hw fun now hnow => ?_
  split
  · refine Pauses.sleep hnow ?_
    have := hnow.1
    have := min_le_right versionRetrySeconds (start + seconds - now)
    dsimp only at *
    linarith
  · exact .pure hnow

theorem waitForApplicationVersionStep_pauses (baudrate : ℕ) (lastError : String)
    (hw : InTime start seconds w) :
    Pauses start seconds (waitForApplicationVersionStep topology expected (start + seconds) baudrate
      qemu allow lastError) w := by
  refine Pauses.reading hw fun now hnow => ?_
  split
  · have hpause (lastError : String) : Pauses start seconds
        (sleepUntil (start + seconds) >>= fun _ => pure (.inl lastError) :
          Program (String ⊕ Except String (UsbTarget × Path × String))) (now, w.2) :=
      (sleepUntil_pauses hnow).bind fun _ _ hw' => .pure hw'
    refine Pauses.awake [.usb] (findApplication_uses _ _ _ _) (by decide) hnow
      fun (target, lastError) => ?_
    cases target with
    | none => exact hpause _
    | some target =>
      refine Pauses.awake [.session] (readVersionOnce_uses (by decide) _ _).attempt
        (by decide) hnow fun version => ?_
      cases version with
      | ok version => exact .pure hnow
      | error err => exact hpause _
  · exact .pure hnow

theorem waitForApplicationVersion_sleeps (topology : String) (expected : Option String)
    {timeout : ℚ} (htimeout : 0 ≤ timeout) (baudrate : ℕ) (qemu allow : Bool) :
    Sleeps timeout
      (waitForApplicationVersion fuel topology expected timeout baudrate qemu allow) := by
  refine sleeps_wait fuel _ htimeout
    (fun start lastError w hw => waitForApplicationVersionStep_pauses baudrate lastError hw)
    fun found => ?_
  cases found with
  | ok verified => exact .pure _ le_rfl
  | error lastError =>
    exact waitHint_sleeps [.usb] (applicationTargets_uses (by decide)) (by decide)

theorem waitForSerialByIdAliasesStep_pauses (device : Path) (s : AliasWait)
    (hw : InTime start 15 w) :
    Pauses start 15 (waitForSerialByIdAliasesStep device (start + 15) s) w := by
  refine Pauses.awake [.usb] ((byIdPathsForTty_uses (by decide) _).catching _) (by decide) hw
    fun found => ?_
  split
  · exact .pure hw
  · refine Pauses.awake [.get] ((SupervisorClient.hardwareSerialByIdPathsForTty_uses _).catching _)
      (by decide) hw fun hardware => ?_
    split
    · exact .pure hw
    · refine Pauses.reading hw fun now hnow => ?_
      have hpause (next : AliasWait) : Pauses start 15
          (sleep (min 1 (start + 15 - now)) >>= fun _ => pure (.inl next) :
            Program (AliasWait ⊕ List Path)) (now, w.2) := by
        refine (Pauses.sleep hnow ?_).bind fun _ _ hw' => .pure hw'
        have := hnow.1
        have := min_le_right 1 (start + 15 - now)
        dsimp only at *
        linarith
      split_ifs
      · trivial
      · exact .pure hnow
      · exact Pauses.awake [.report] (reportOnly_uses _ _) (by decide) hnow fun _ => hpause _
      · exact hpause _

theorem waitForSerialByIdAliases_sleeps (device : Path) :
    Sleeps 15 (waitForSerialByIdAliases fuel device) :=
  sleeps_loop fuel _ (by norm_num) fun start s w hw =>
    waitForSerialByIdAliasesStep_pauses device s hw

end Flasher

namespace SupervisorClient
variable {start : ℚ} {w : ℚ × ℚ} (fuel : ℕ)

theorem waitForStateStep_pauses (slug expected lastState : String) (hw : InTime start (61 / 2) w) :
    Pauses start (61 / 2)
      (waitForStateStep slug expected (start + stateTimeoutSeconds) lastState) w := by
  refine Pauses.reading hw fun now hnow => ?_
  split
  · rename_i hbefore
    refine Pauses.awake [.get] (addonState_uses _) (by decide) hnow fun state => ?_
    split
    · exact .pure hnow
    · refine (Pauses.sleep hnow ?_).bind fun _ _ hw' => .pure hw'
      have := hnow.1
      simp only [stateTimeoutSeconds] at hbefore
      dsimp only at *
      linarith
  · trivial

theorem waitForState_sleeps (slug expected : String) :
    Sleeps (61 / 2) (waitForState fuel slug expected) :=
  sleeps_loop fuel _ (by norm_num) fun start s w hw =>
    waitForStateStep_pauses slug expected s hw

end SupervisorClient
end Cul868Flasher
