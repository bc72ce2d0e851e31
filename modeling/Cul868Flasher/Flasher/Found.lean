import Cul868Flasher.Flasher.Calls

/-!
# What a lookup that returned has seen

Each polling loop ends with the event that gave its result. The relations below
name that event; the theorems say that no other way out returns a target.
-/

namespace Cul868Flasher
open Python Effects

/-- The lookup `call`, answered by the tree `fs`. -/
abbrev usbEvent (call : UsbCall) (fs : Sysfs) : Event World := ⟨.usb call, fs⟩

namespace Flasher

/-- The serial check lets the target pass. -/
def SerialAccepted (expected : Option String) (target : UsbTarget) (allow : Bool) : Prop :=
  expected = none ∨ target.usbSerial = none ∨ target.usbSerial = expected ∨ allow = true

theorem requireExpectedUsbSerial_ok {target : UsbTarget} {expected : Option String}
    {label : String} {allow : Bool} :
    requireExpectedUsbSerial target expected label allow = .ok () ↔
      SerialAccepted expected target allow := by
  unfold requireExpectedUsbSerial SerialAccepted
  by_cases h₁ : expected = none
  · simp [h₁]
  by_cases h₂ : target.usbSerial = none
  · simp [h₂]
  by_cases h₃ : target.usbSerial = expected
  · simp [h₃]
  cases allow with
  | true => simp
  | false => simp [h₁, h₂, h₃]

/-- The event shows `target` as the bootloader on the path. -/
def FoundOnPath (topology : String) (e : Event World) (target : UsbTarget) : Prop :=
  ∃ fs, e = usbEvent (.bootloaderForTopology topology) fs ∧
    fs.bootloaderForTopology topology = .ok (some target)

/-- The event shows `target` as the only bootloader there is. -/
def FoundAlone (e : Event World) (target : UsbTarget) : Prop :=
  ∃ fs, e = usbEvent .bootloaderTargets fs ∧ fs.bootloaderTargets = .ok [target]

/-- The event that makes `waitForBootloader` return the target. -/
def FoundBy (topology : String) (expected : Option String) (qemu allow : Bool)
    (e : Event World) (target : UsbTarget) : Prop :=
  SerialAccepted expected target allow ∧
    (FoundOnPath topology e target ∨ qemu = true ∧ FoundAlone e target)

theorem FoundOnPath.valid {topology : String} {e : Event World} {target : UsbTarget}
    (h : FoundOnPath topology e target) : target.Valid ∧ target.topology = topology := by
  obtain ⟨fs, -, hfs⟩ := h
  obtain ⟨hv, ht, -⟩ := Sysfs.singleTarget_some hfs
  exact ⟨hv, ht⟩

theorem FoundBy.valid {topology : String} {expected : Option String} {qemu allow : Bool}
    {e : Event World} {target : UsbTarget} (h : FoundBy topology expected qemu allow e target) :
    target.Valid := by
  rcases h.2 with h | ⟨-, fs, -, hfs⟩
  · exact h.valid.1
  · exact (Sysfs.targetsWithIdentity_mem hfs target (by simp)).1

/-! ## Single steps -/

section
variable {J P : Trace World → Prop}

/-- A step that answers with a result or an exception. -/
theorem fallible_triple {o : Op} {f : World.Ans o → Except Exn α} {Q : α → Trace World → Prop}
    {E : Exn → Trace World → Prop}
    (hstep : ∀ h a, J h → P h → J (h ++ [⟨o, a⟩]) ∧ (∀ b, f a = .ok b → Q b (h ++ [⟨o, a⟩])) ∧
      ∀ e, f a = .error e → E e (h ++ [⟨o, a⟩])) :
    Triple J P (perform o >>= fun a => .ofExcept (f a)) Q E := by
  refine Triple.bind (R := fun a h => (∀ b, f a = .ok b → Q b h) ∧ ∀ e, f a = .error e → E e h)
    (Triple.perform fun a h hj hp => hstep h a hj hp) fun a => ?_
  exact .ofExcept (fun b h hb _ hx => hx.1 b hb) fun e h he _ hx => hx.2 e he

theorem save_triple {d : KnownDevice} {Q : Trace World → Prop} {E : Exn → Trace World → Prop}
    (hsaved : ∀ h file, DeviceStateStore.encode d = .ok file → J h → P h →
      J (h ++ [⟨.saveState file, SaveOutcome.saved⟩]) ∧
        Q (h ++ [⟨.saveState file, SaveOutcome.saved⟩]))
    (hfailed : ∀ h file replaced e, DeviceStateStore.encode d = .ok file → J h → P h →
      J (h ++ [⟨.saveState file, SaveOutcome.failed replaced e⟩]) ∧
        E e (h ++ [⟨.saveState file, SaveOutcome.failed replaced e⟩]))
    (herror : ∀ e h, DeviceStateStore.encode d = .error e → J h → P h → E e h) :
    Triple J P (DeviceStateStore.save d) (fun _ => Q) E := by
  refine Triple.bind (R := fun file h => P h ∧ DeviceStateStore.encode d = .ok file)
    (.ofExcept (fun file h hf _ hp => ⟨hp, hf⟩) herror) fun file => ?_
  refine Triple.bind (R := fun (outcome : SaveOutcome) h => (outcome = .saved → Q h) ∧
    ∀ replaced e, outcome = .failed replaced e → E e h) (Triple.perform ?_) fun outcome => ?_
  · intro outcome h hj hp
    cases (outcome : SaveOutcome) with
    | saved =>
      obtain ⟨hj, hq⟩ := hsaved h file hp.2 hj hp.1
      exact ⟨hj, fun _ => hq, (fun _ _ heq => by cases heq)⟩
    | failed replaced e =>
      obtain ⟨hj, he⟩ := hfailed h file replaced e hp.2 hj hp.1
      refine ⟨hj, (fun heq => by cases heq), fun _ _ heq => ?_⟩
      cases heq
      exact he
  · cases (outcome : SaveOutcome) with
    | saved => exact .pure fun h _ hq => hq.1 rfl
    | failed replaced e => exact .raise fun h _ he => he.2 replaced e rfl

end

/-! ## Runs that return -/

theorem ofExcept_returned {x : Except Exn α} {t : Trace World} {a : α} :
    Run (.ofExcept x : Program α) t (.returned a) ↔ t = [] ∧ x = .ok a := by
  cases x with
  | ok b =>
    rw [Except.ok.injEq, eq_comm (a := b)]
    exact Run.pure_returned
  | error e =>
    simp only [reduceCtorEq, and_false, iff_false]
    exact Run.raise_returned

/-- A step that may raise and has not. -/
theorem performed {o : Op} {f : World.Ans o → Except Exn α} {t : Trace World} {b : α}
    (h : Run (perform o >>= fun a => .ofExcept (f a) : Program α) t (.returned b)) :
    ∃ a, t = [⟨o, a⟩] ∧ f a = .ok b := by
  obtain ⟨a, t₁, t₂, rfl, h₁, h₂⟩ := Run.bind_returned.mp h
  rw [Run.perform_returned.mp h₁]
  obtain ⟨rfl, hf⟩ := ofExcept_returned.mp h₂
  exact ⟨a, rfl, hf⟩

theorem ofExcept_raised {x : Except Exn α} {t : Trace World} {e : Exn}
    (h : Run (.ofExcept x : Program α) t (.raised e)) : t = [] ∧ x = .error e := by
  cases x with
  | ok b =>
    obtain ⟨-, hr | hr⟩ := Run.ret_iff.mp h
    · cases hr
    · cases hr
  | error e' =>
    obtain ⟨ht, hr | hr⟩ := Run.raise_iff.mp h
    · cases hr
      exact ⟨ht, rfl⟩
    · cases hr

theorem performed_raised {o : Op} {f : World.Ans o → Except Exn α} {t : Trace World} {e : Exn}
    (h : Run (perform o >>= fun a => .ofExcept (f a) : Program α) t (.raised e)) :
    ∃ a, t = [⟨o, a⟩] ∧ f a = .error e := by
  rcases Run.bind_inv h with ⟨a, t₁, t₂, rfl, h₁, h₂⟩ | ⟨_, -, h₁⟩ | ⟨hc, -⟩
  · rw [Run.perform_returned.mp h₁]
    obtain ⟨rfl, hf⟩ := ofExcept_raised h₂
    exact ⟨a, rfl, hf⟩
  · exact absurd h₁ Run.perform_raised
  · cases hc

theorem usbLookup_returned {call : UsbCall} {f : Sysfs → Except Exn α} {t : Trace World} {a : α}
    (h : Run (usb call >>= fun fs => .ofExcept (f fs) : Program α) t (.returned a)) :
    ∃ fs, t = [usbEvent call fs] ∧ f fs = .ok a :=
  performed h

theorem singleReenumeratedTarget_returned {call : UsbCall} {f : Sysfs → Except Exn (List UsbTarget)}
    {expected : Option String} {label : String} {allow : Bool} {t : Trace World}
    {target : UsbTarget}
    (h : Run (singleReenumeratedTarget (usb call >>= fun fs => .ofExcept (f fs)) expected label
      allow) t (.returned (some target))) :
    ∃ fs, t = [usbEvent call fs] ∧ f fs = .ok [target] ∧ SerialAccepted expected target allow := by
  obtain ⟨found, t₁, t₂, rfl, h₁, h₂⟩ := Run.bind_returned.mp h
  obtain ⟨targets, rfl, hd⟩ | ⟨e, -, rfl, -⟩ := Run.catching_returned h₁
  · obtain ⟨fs, rfl, hf⟩ := usbLookup_returned hd
    split at h₂
    · rename_i heq
      cases heq
    · obtain ⟨-, hn⟩ := Run.pure_returned.mp h₂
      cases hn
    · rename_i found heq
      cases heq
      obtain ⟨_, u₁, u₂, rfl, hu₁, hu₂⟩ := Run.bind_returned.mp h₂
      obtain ⟨rfl, hserial⟩ := ofExcept_returned.mp hu₁
      obtain ⟨rfl, ht⟩ := Run.pure_returned.mp hu₂
      cases ht
      exact ⟨fs, by simp, hf, requireExpectedUsbSerial_ok.mp hserial⟩
    · exact absurd h₂ Run.raise_returned
  · exact absurd h₂ Run.raise_returned

theorem waitForBootloaderStep_returned {topology : String} {expected : Option String}
    {deadline : ℚ} {qemu allow : Bool} {lastError : String} {t : Trace World} {target : UsbTarget}
    (h : Run (waitForBootloaderStep topology expected deadline qemu allow lastError) t
      (.returned (.inr (.ok target)))) :
    ∃ u e, t = u ++ [e] ∧ FoundBy topology expected qemu allow e target := by
  obtain ⟨now, t₁, t₂, rfl, -, h⟩ := Run.bind_returned.mp h
  split at h
  · obtain ⟨found, t₃, t₄, rfl, h₃, h⟩ := Run.bind_returned.mp h
    obtain ⟨found, rfl, hd⟩ | ⟨err, -, rfl, -⟩ := Run.catching_returned h₃
    · obtain ⟨fs, rfl, hfs⟩ := usbLookup_returned hd
      cases found with
      | some found =>
        obtain ⟨_, u₁, u₂, rfl, hu₁, hu₂⟩ := Run.bind_returned.mp h
        obtain ⟨rfl, hserial⟩ := ofExcept_returned.mp hu₁
        obtain ⟨rfl, ht⟩ := Run.pure_returned.mp hu₂
        cases ht
        exact ⟨t₁, _, by simp, requireExpectedUsbSerial_ok.mp hserial, .inl ⟨fs, rfl, hfs⟩⟩
      | none =>
        dsimp only at h
        split at h
        · rename_i hq
          obtain ⟨reenumerated, u₁, u₂, rfl, hu₁, hu₂⟩ := Run.bind_returned.mp h
          cases reenumerated with
          | some found =>
            obtain ⟨rfl, ht⟩ := Run.pure_returned.mp hu₂
            cases ht
            obtain ⟨fs', rfl, hfs', hserial⟩ := singleReenumeratedTarget_returned hu₁
            exact ⟨t₁ ++ [usbEvent (.bootloaderForTopology topology) fs], _, by simp, hserial,
              .inr ⟨hq, fs', rfl, hfs'⟩⟩
          | none =>
            obtain ⟨_, _, _, rfl, -, h⟩ := Run.bind_returned.mp hu₂
            cases (Run.pure_returned.mp h).2
        · obtain ⟨_, _, _, rfl, -, h⟩ := Run.bind_returned.mp h
          cases (Run.pure_returned.mp h).2
    · obtain ⟨_, _, _, rfl, -, h⟩ := Run.bind_returned.mp h
      cases (Run.pure_returned.mp h).2
  · cases (Run.pure_returned.mp h).2

theorem waitForBootloader_returned {fuel : ℕ} {settings : Settings} {topology : String}
    {expected : Option String} {timeout : Option ℤ} {qemu allow : Bool} {t : Trace World}
    {target : UsbTarget}
    (h : Run (waitForBootloader fuel settings topology expected timeout qemu allow) t
      (.returned target)) :
    ∃ u e, t = u ++ [e] ∧ FoundBy topology expected qemu allow e target := by
  obtain ⟨start, t₁, t₂, rfl, -, h⟩ := Run.bind_returned.mp h
  obtain ⟨found, t₃, t₄, rfl, h₃, h₄⟩ := Run.bind_returned.mp h
  cases found with
  | ok found =>
    obtain ⟨rfl, rfl⟩ := Run.pure_returned.mp h₄
    obtain ⟨lastError, u₁, u₂, rfl, hstep⟩ := Run.loop_returned h₃
    obtain ⟨u, e, rfl, hfound⟩ := waitForBootloaderStep_returned hstep
    exact ⟨t₁ ++ (u₁ ++ u), e, by simp, hfound⟩
  | error lastError =>
    obtain ⟨_, _, _, rfl, -, h⟩ := Run.bind_returned.mp h₄
    exact absurd h Run.raise_returned

/-! ## Exceptions of a wait -/

/-- No exception of `dfu-programmer`. -/
def NoTransferError (e : Exn) : Prop := e.isDfuTransferError = false

theorem noTransferError_of_lookup {e : Exn} (h : Sysfs.LookupError e) : NoTransferError e := by
  simp only [NoTransferError, Exn.isDfuTransferError, decide_eq_false_iff_not]
  rcases h with h | h
  · simp [h]
  · simp [h]

theorem usbLookup_raises {call : UsbCall} {f : Sysfs → Except Exn α}
    (hf : ∀ fs e, f fs = .error e → Sysfs.LookupError e) :
    Raises NoTransferError (usb call >>= fun fs => .ofExcept (f fs) : Program α) :=
  (Raises.perform _).bind fun fs => .ofExcept fun e he => noTransferError_of_lookup (hf fs e he)

theorem bootloaderTargets_raises : Raises NoTransferError UsbTopology.bootloaderTargets :=
  usbLookup_raises fun _ _ => Sysfs.targetsWithIdentity_error

theorem requireExpectedUsbSerial_raises (target : UsbTarget) (expected : Option String)
    (label : String) (allow : Bool) :
    Raises NoTransferError
      (.ofExcept (requireExpectedUsbSerial target expected label allow) : Program Unit) := by
  refine .ofExcept fun e he => ?_
  unfold requireExpectedUsbSerial at he
  split at he
  · cases he
    rfl
  · cases he

theorem singleReenumeratedTarget_raises {discovery : Program (List UsbTarget)}
    (h : Raises NoTransferError discovery) (expected : Option String) (label : String)
    (allow : Bool) :
    Raises NoTransferError (singleReenumeratedTarget discovery expected label allow) := by
  refine (h.catching fun _ he _ => he).bind fun found => ?_
  split
  · rfl
  · trivial
  · exact (requireExpectedUsbSerial_raises _ _ _ _).bind fun _ => .pure _
  · rfl

theorem waitForBootloader_raises (fuel : ℕ) (settings : Settings) (topology : String)
    (expected : Option String) (timeout : Option ℤ) (qemu allow : Bool) :
    Raises NoTransferError
      (waitForBootloader fuel settings topology expected timeout qemu allow) := by
  have hsleep : ∀ x : String ⊕ Except String UsbTarget,
      Raises NoTransferError ((sleep pollSeconds : Program Unit) >>= fun _ => pure x) :=
    fun x => (Raises.perform _).bind fun _ => .pure _
  refine (Raises.perform _).bind fun start => (Raises.loop (fun lastError => ?_) _ _).bind
    fun found => ?_
  · refine (Raises.perform _).bind fun now => ?_
    split
    · have hlookup : Raises NoTransferError (UsbTopology.bootloaderForTopology topology) :=
        usbLookup_raises fun _ _ => Sysfs.singleTarget_error
      refine (hlookup.catching fun _ he _ => he).bind fun found => ?_
      split
      · exact hsleep _
      · exact (requireExpectedUsbSerial_raises _ _ _ _).bind fun _ => .pure _
      · split
        · refine (singleReenumeratedTarget_raises bootloaderTargets_raises _ _ _).bind
            fun reenumerated => ?_
          cases reenumerated with
          | some b => trivial
          | none => exact hsleep _
        · exact hsleep _
    · trivial
  · cases found with
    | ok b => trivial
    | error lastError =>
      refine Raises.bind ?_ fun _ => rfl
      unfold waitHint
      split
      · trivial
      · refine (bootloaderTargets_raises.catching fun _ he _ => he).bind fun found => ?_
        split
        · trivial
        · split <;> trivial
        · trivial

end Flasher
end Cul868Flasher
