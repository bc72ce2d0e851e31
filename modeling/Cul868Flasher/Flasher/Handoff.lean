import Cul868Flasher.Flasher.DfuOrder

/-!
# The handoff to the bootloader

`B01` is sent at most once, in a session that has just accepted `V`, and after
the handoff record has been saved. The triples say this of every attempt and
tell from the way an attempt ended whether the command may have been sent.
-/

namespace Cul868Flasher
open Python Effects

/-- The step that sends `B01`. -/
def IsCommand (e : Event World) : Prop := e.op.kind = .bootloaderCommand

def Avoids (ks : List OpKind) (h : Trace World) : Prop := ∀ e ∈ h, e.op.kind ∉ ks

theorem Avoids.snoc {ks : List OpKind} {h : Trace World} {e : Event World} (ha : Avoids ks h)
    (he : e.op.kind ∉ ks) : Avoids ks (h ++ [e]) := by
  intro x hx
  rcases List.mem_append.mp hx with hx | hx
  · exact ha x hx
  · rw [List.mem_singleton.mp hx]
    exact he

theorem Avoids.of_subset {ks ks' : List OpKind} {h : Trace World} (ha : Avoids ks h)
    (hks : ks' ⊆ ks) : Avoids ks' h :=
  fun e he hk => ha e he (hks hk)

/-- Steps that neither save a record nor send a command to the CUL. -/
def quietKinds : List OpKind :=
  [.clock, .sleep, .report, .usb, .file, .session, .query, .dfu, .get, .post]

def laterKinds : List OpKind :=
  [.save (some .observedBootloader), .save (some .verifiedApplication)]

/-- `B01` has not been sent and no bootloader has been bound. -/
abbrev Before : Trace World → Prop := Avoids (.bootloaderCommand :: laterKinds)

theorem quiet_avoids {ks : List OpKind} (hks : ∀ k ∈ quietKinds, k ∉ ks) {h : Trace World}
    {e : Event World} (he : e.op.kind ∈ quietKinds) (ha : Avoids ks h) : Avoids ks (h ++ [e]) :=
  ha.snoc (hks _ he)

theorem Before.quiet (h : Trace World) (e : Event World) (he : e.op.kind ∈ quietKinds)
    (hb : Before h) : Before (h ++ [e]) :=
  quiet_avoids (by decide) he hb

/-- The session steps of an attempt up to the command. -/
def requestSteps (device : Path) (baudrate : ℕ) (version : String) (now : ℚ) (file : StateFile) :
    Trace World :=
  [⟨.openSerial device baudrate, (.ok () : Except Exn Unit)⟩,
   ⟨.version, (.ok version : Except Exn String)⟩,
   ⟨.report 20 "Requesting the verified CUL868 application to enter USB DFU mode.",
     (.ok () : Except Exn Unit)⟩,
   ⟨.time, (now : ℚ)⟩, ⟨.saveState file, SaveOutcome.saved⟩]

namespace Flasher

/-- What holds when `B01` is sent after the history `h`: this attempt has resolved
the planned application, opened its port, read `V` and saved the handoff record. -/
def CommandAllowed (settings : Settings) (plan : FlashPlan) (h : Trace World) : Prop :=
  Before h ∧ ∃ application direct device version now file u t,
    plan.application = some application ∧
    h = u ++ t ++ requestSteps device settings.baudrate version now file ∧
    Run (configuredApplicationEndpoint settings (some application)) t
      (.returned (direct, device)) ∧
    DeviceStateStore.encode (handoffPending settings plan now) = .ok file

/-- What holds when a record is saved after the history `h`. -/
def SaveAllowed (settings : Settings) (plan : FlashPlan) (h : Trace World)
    (file : StateFile) : Prop :=
  (plan.mode = .application ∧ Before h ∧ ∃ u now, h = u ++ [⟨.time, (now : ℚ)⟩] ∧
    DeviceStateStore.encode (handoffPending settings plan now) = .ok file) ∨
  (Avoids laterKinds h ∧ (plan.mode = .application → ∃ e ∈ h, IsCommand e) ∧
    ∃ bootloader u e, h = u ++ [e] ∧ Selects settings plan e bootloader ∧
      DeviceStateStore.encode (observedBootloader settings bootloader bootloader.topology) =
        .ok file) ∨
  (file.binding = some .verifiedApplication ∧ Avoids [.save (some .verifiedApplication)] h ∧
    ∃ bound, ⟨.saveState bound, SaveOutcome.saved⟩ ∈ h ∧
      bound.binding = some .observedBootloader)

structure StepAllowed (settings : Settings) (plan : FlashPlan) (h : Trace World)
    (e : Event World) : Prop where
  command : IsCommand e → CommandAllowed settings plan h
  save : ∀ file outcome, e = ⟨.saveState file, outcome⟩ → SaveAllowed settings plan h file

section
variable {settings : Settings} {plan : FlashPlan}

theorem stepAllowed_quiet (h : Trace World) (e : Event World) (he : e.op.kind ∈ quietKinds) :
    StepAllowed settings plan h e where
  command hc := by
    rw [IsCommand] at hc
    rw [hc] at he
    exact absurd he (by decide)
  save file outcome heq := by
    rw [heq] at he
    change OpKind.save file.binding ∈ quietKinds at he
    simp [quietKinds] at he

theorem stepAllowed_save {h : Trace World} {file : StateFile} (outcome : SaveOutcome)
    (hs : SaveAllowed settings plan h file) :
    StepAllowed settings plan h ⟨.saveState file, outcome⟩ where
  command hc := by cases hc
  save file' outcome' heq := by
    cases heq
    exact hs

abbrev Steps (settings : Settings) (plan : FlashPlan) (P : Trace World → Prop)
    (p : Prog World ε α) (Q : α → Trace World → Prop) (E : ε → Trace World → Prop) : Prop :=
  Triple (Guarded (StepAllowed settings plan)) P p Q E

/-- Quiet programs keep every condition that quiet steps keep. -/
theorem quiet_steps {ks : List OpKind} {p : Prog World ε α} (hp : Uses ks p)
    (hks : ks ⊆ quietKinds) {P : Trace World → Prop}
    (hP : ∀ h e, e.op.kind ∈ quietKinds → P h → P (h ++ [e])) :
    Steps settings plan P p (fun _ => P) (fun _ => P) :=
  Guarded.frame (hp.of_subset hks) stepAllowed_quiet hP

/-! ## The steps of an attempt -/

/-- An attempt has resolved the endpoint and then made `steps`. -/
def Requesting (settings : Settings) (application direct : UsbTarget) (device : Path)
    (steps h : Trace World) : Prop :=
  Before h ∧ ∃ u t, h = u ++ t ++ steps ∧
    Run (configuredApplicationEndpoint settings (some application)) t (.returned (direct, device))

theorem Requesting.step {application direct : UsbTarget} {device : Path} {steps h : Trace World}
    (hr : Requesting settings application direct device steps h) (e : Event World)
    (he : e.op.kind ∉ OpKind.bootloaderCommand :: laterKinds) :
    Requesting settings application direct device (steps ++ [e]) (h ++ [e]) := by
  obtain ⟨hb, u, t, rfl, hrun⟩ := hr
  exact ⟨hb.snoc he, u, t, by simp, hrun⟩

/-- A quiet step of the attempt, whose failure leaves it before the command. -/
theorem requesting_step {o : Op} {f : World.Ans o → Except Exn α} (ho : o.kind ∈ quietKinds)
    {application direct : UsbTarget} {device : Path} {steps : Trace World} :
    Steps settings plan (Requesting settings application direct device steps)
      (perform o >>= fun a => .ofExcept (f a))
      (fun b h => ∃ a, f a = .ok b ∧
        Requesting settings application direct device (steps ++ [⟨o, a⟩]) h)
      fun _ => Before := by
  refine fallible_triple fun h a hj hr => ?_
  have hnot : o.kind ∉ OpKind.bootloaderCommand :: laterKinds := by
    intro hk
    have hdisjoint : ∀ k ∈ quietKinds, k ∉ OpKind.bootloaderCommand :: laterKinds := by decide
    exact hdisjoint _ ho hk
  refine ⟨hj.snoc (stepAllowed_quiet h _ ho), fun b hb => ⟨a, hb, hr.step _ hnot⟩, fun _ _ => ?_⟩
  exact hr.1.snoc hnot

theorem storeHandoffPending_steps (hmode : plan.mode = .application)
    {application direct : UsbTarget} {device : Path} {steps : Trace World} :
    Steps settings plan (Requesting settings application direct device steps)
      (storeHandoffPending settings plan)
      (fun _ h => ∃ now file,
        DeviceStateStore.encode (handoffPending settings plan now) = .ok file ∧
        Requesting settings application direct device
          (steps ++ [⟨.time, (now : ℚ)⟩, ⟨.saveState file, SaveOutcome.saved⟩]) h)
      fun _ => Before := by
  refine Triple.bind (R := fun now h =>
    Requesting settings application direct device (steps ++ [⟨.time, (now : ℚ)⟩]) h)
    (Triple.perform fun now h hj hr => ?_) fun now => ?_
  · exact ⟨hj.snoc (stepAllowed_quiet h _ (by simp [Op.kind, quietKinds])),
      hr.step _ (by simp [Op.kind, laterKinds])⟩
  have hallowed : ∀ h file,
      DeviceStateStore.encode (handoffPending settings plan now) = .ok file →
      Requesting settings application direct device (steps ++ [⟨.time, (now : ℚ)⟩]) h →
      SaveAllowed settings plan h file := by
    rintro h file hfile ⟨hb, u, t, rfl, -⟩
    exact .inl ⟨hmode, hb, u ++ t ++ steps, now, by simp, hfile⟩
  have hkind : ∀ file outcome,
      DeviceStateStore.encode (handoffPending settings plan now) = .ok file →
      (⟨.saveState file, outcome⟩ : Event World).op.kind ∉ OpKind.bootloaderCommand ::
        laterKinds := by
    intro file outcome hfile
    simp [Op.kind, laterKinds, binding_encode hfile, handoffPending]
  refine save_triple ?_ ?_ ?_
  · intro h file hfile hj hr
    refine ⟨hj.snoc (stepAllowed_save _ (hallowed h file hfile hr)), now, file, hfile, ?_⟩
    simpa using hr.step ⟨.saveState file, SaveOutcome.saved⟩ (hkind file _ hfile)
  · intro h file replaced e hfile hj hr
    exact ⟨hj.snoc (stepAllowed_save _ (hallowed h file hfile hr)),
      hr.1.snoc (hkind file _ hfile)⟩
  · exact fun _ _ _ _ hr => hr.1

/-! ## How an attempt ends -/

/-- The command and the closing of its session have succeeded. -/
def Handed (h : Trace World) : Prop :=
  ∃ u, h = u ++ [⟨.enterBootloader, (.ok () : Except Exn Unit)⟩,
    ⟨.closeSerial, (.ok () : Except Exn Unit)⟩] ∧ Before u

/-- The command or the closing of its session has failed. -/
def HandoffFailed (h : Trace World) : Prop :=
  ∃ u, ∃ a c : Except Exn Unit, h = u ++ [⟨.enterBootloader, a⟩, ⟨.closeSerial, c⟩] ∧ Before u ∧
    ¬ (a = .ok () ∧ c = .ok ())

/-- `B01` is the last step. -/
def Commanded (answer : Except Exn Unit) (h : Trace World) : Prop :=
  ∃ u, h = u ++ [⟨.enterBootloader, answer⟩] ∧ Before u

theorem command_steps {application direct : UsbTarget} {device : Path} {version : String}
    {now : ℚ} {file : StateFile} (happlication : plan.application = some application)
    (hfile : DeviceStateStore.encode (handoffPending settings plan now) = .ok file) :
    Steps settings plan (Requesting settings application direct device
        (requestSteps device settings.baudrate version now file))
      CulSerial.enterBootloader (fun _ => Commanded (.ok ()))
      fun e => Commanded (.error e) := by
  refine fallible_triple fun h a hj hr => ?_
  obtain ⟨hb, u, t, rfl, hrun⟩ := hr
  have hcommand : CommandAllowed settings plan
      (u ++ t ++ requestSteps device settings.baudrate version now file) :=
    ⟨hb, application, direct, device, version, now, file, u, t, happlication, rfl, hrun, hfile⟩
  refine ⟨hj.snoc ⟨fun _ => hcommand, fun file' outcome heq => by cases heq⟩, ?_, ?_⟩
  · rintro _ rfl
    exact ⟨_, rfl, hb⟩
  · rintro e rfl
    exact ⟨_, rfl, hb⟩

/-- Closing the session after the command. -/
theorem close_steps (answer : Except Exn Unit) :
    Steps settings plan (Commanded answer) CulSerial.close
      (fun _ h => answer = .ok () ∧ Handed h ∨ answer ≠ .ok () ∧ HandoffFailed h)
      fun _ => HandoffFailed := by
  refine fallible_triple fun h c hj hc => ?_
  obtain ⟨u, rfl, hb⟩ := hc
  refine ⟨hj.snoc (stepAllowed_quiet _ _ (by simp [Op.kind, quietKinds])), ?_, ?_⟩
  · rintro _ rfl
    by_cases ha : answer = .ok ()
    · subst ha
      exact .inl ⟨rfl, u, by simp, hb⟩
    · exact .inr ⟨ha, u, answer, .ok (), by simp, hb, fun h => ha h.1⟩
  · rintro e rfl
    refine ⟨u, answer, .error e, by simp, hb, fun h => ?_⟩
    cases h.2

/-- The exception tells by its flag whether the command may have been sent. -/
def AttemptFailed (pause : CulConsumerPause) (x : CulConsumerPause × Bool) (h : Trace World) :
    Prop :=
  x = (pause, false) ∧ Before h ∨ x = (pause.leaveStoppedAfterError, true) ∧ HandoffFailed h

theorem handoffAttempt_steps (hmode : plan.mode = .application) {application : UsbTarget}
    (happlication : plan.application = some application) (pause : CulConsumerPause) :
    Steps settings plan Before (handoffAttempt settings plan application pause)
      (fun x h => x.2.1 = pause.leaveStoppedAfterError ∧ Handed h)
      fun x => AttemptFailed pause x.2 := by
  have hearly : ∀ (e : Exn) h, Before h → AttemptFailed pause (pause, false) h :=
    fun _ _ hb => .inl ⟨rfl, hb⟩
  refine Triple.bind (R := fun x h => Requesting settings application x.1 x.2 [] h)
    (Triple.raisingWith ((quiet_steps (configuredApplicationEndpoint_uses settings _) (by decide)
      Before.quiet).record.conseq (fun _ _ h => h) ?_ fun e h _ hb => hearly e h hb.1))
    fun endpoint => ?_
  · rintro ⟨direct, device⟩ h - ⟨hb, u, t, rfl, -, hrun⟩
    exact ⟨hb, u, t, by simp, hrun⟩
  obtain ⟨direct, device⟩ := endpoint
  refine Triple.bind (R := fun _ h => Requesting settings application direct device
      [⟨.openSerial device settings.baudrate, (.ok () : Except Exn Unit)⟩] h)
    (Triple.raisingWith ((requesting_step (by simp [Op.kind, quietKinds])).conseq
      (fun _ _ h => h) ?_ fun e h _ hb => hearly e h hb)) fun _ => ?_
  · rintro _ h - ⟨_, rfl, hr⟩
    exact hr
  refine Triple.ensuring
    (R := fun x h => x.2 = (pause.leaveStoppedAfterError, true) ∧ Commanded (.ok ()) h)
    (F := fun x h => x.2 = (pause, false) ∧ Before h ∨
      x.2 = (pause.leaveStoppedAfterError, true) ∧ ∃ e, Commanded (.error e) h) ?_ ?_ ?_
  · refine Triple.bind (R := fun before h => Requesting settings application direct device
        ([⟨.openSerial device settings.baudrate, (.ok () : Except Exn Unit)⟩] ++
          [⟨.version, (.ok before : Except Exn String)⟩]) h)
      (Triple.raisingWith ((requesting_step (by decide)).conseq (fun _ _ h => h) ?_
        fun e h _ hb => .inl ⟨rfl, hb⟩)) fun before => ?_
    · rintro before h - ⟨_, rfl, hr⟩
      exact hr
    refine Triple.bind (R := fun _ h => Requesting settings application direct device
        ([⟨.openSerial device settings.baudrate, (.ok () : Except Exn Unit)⟩] ++
          [⟨.version, (.ok before : Except Exn String)⟩] ++ [⟨.report 20
            "Requesting the verified CUL868 application to enter USB DFU mode.",
            (.ok () : Except Exn Unit)⟩]) h)
      (Triple.raisingWith ((requesting_step (by decide)).conseq (fun _ _ h => h) ?_
        fun e h _ hb => .inl ⟨rfl, hb⟩)) fun _ => ?_
    · rintro _ h - ⟨_, rfl, hr⟩
      exact hr
    refine Triple.bind (Triple.raisingWith ((storeHandoffPending_steps hmode).exc
      fun e h _ hb => .inl ⟨rfl, hb⟩)) fun _ => ?_
    refine Triple.bind (R := fun _ => Commanded (.ok ())) ?_ fun _ =>
      .pure fun h _ hc => ⟨rfl, hc⟩
    refine Triple.raisingWith (.ex fun now => .ex fun file => .fact fun hfile => ?_)
    exact (command_steps happlication hfile).exc fun e h _ hc => .inr ⟨rfl, e, hc⟩
  · rintro ⟨before, pause', flag⟩
    refine .fact fun hstate => ?_
    obtain ⟨rfl, rfl⟩ := Prod.mk.inj hstate
    refine Triple.raisingWith ((close_steps (.ok ())).conseq (fun _ _ h => h) ?_
      fun e h _ hc => .inr ⟨rfl, hc⟩)
    rintro _ h - (⟨-, hc⟩ | ⟨hne, -⟩)
    · exact ⟨rfl, hc⟩
    · exact absurd rfl hne
  · rintro ⟨e, pause', flag⟩
    refine .or (.fact fun hstate => ?_) (.fact fun hstate => ?_)
    · obtain ⟨rfl, rfl⟩ := Prod.mk.inj hstate
      exact Triple.raisingWith ((quiet_steps (close_uses (by decide)) (List.Subset.refl _)
        Before.quiet).conseq (fun _ _ h => h) (fun _ h _ hb => .inl ⟨rfl, hb⟩)
        fun _ h _ hb => .inl ⟨rfl, hb⟩)
    · obtain ⟨rfl, rfl⟩ := Prod.mk.inj hstate
      refine Triple.raisingWith (.ex fun err => (close_steps (.error err)).conseq (fun _ _ h => h)
        ?_ fun _ h _ hc => .inr ⟨rfl, hc⟩)
      rintro _ h - (⟨heq, -⟩ | ⟨-, hc⟩)
      · cases heq
      · exact .inr ⟨rfl, hc⟩

/-- A pass either has handed over or may be repeated. -/
def PassEnded (pause : CulConsumerPause) (x : Except Exn String × CulConsumerPause)
    (h : Trace World) : Prop :=
  (∃ before, x = (.ok before, pause.leaveStoppedAfterError) ∧ Handed h) ∨
    ∃ e, x = (.error e, pause) ∧ Before h

/-- An exception after the command is a `FlashError` and leaves the consumers stopped. -/
def CommandRaised (pause : CulConsumerPause) (x : Exn × CulConsumerPause) (h : Trace World) :
    Prop :=
  x.1.isFlashError = true ∧ x.2 = pause.leaveStoppedAfterError ∧ HandoffFailed h

theorem handoffPass_steps (hmode : plan.mode = .application) {application : UsbTarget}
    (happlication : plan.application = some application) (pause : CulConsumerPause) :
    Steps settings plan Before (handoffPass settings plan application pause) (PassEnded pause)
      (CommandRaised pause) := by
  refine (handoffAttempt_steps hmode happlication pause).attempt.bind fun result => ?_
  rcases result with ⟨e, pause', flag⟩ | ⟨before, pause', flag⟩
  · have hfailed : Steps settings plan (AttemptFailed pause (pause', flag))
        (if flag then .raise (.flashError s!"could not complete the CUL bootloader handoff: {e}",
          pause') else pure (.error e, pause')) (PassEnded pause) (CommandRaised pause) := by
      refine .or (.fact fun hstate => ?_) (.fact fun hstate => ?_)
      · obtain ⟨rfl, rfl⟩ := Prod.mk.inj hstate
        exact .pure fun h _ hb => .inr ⟨e, rfl, hb⟩
      · obtain ⟨rfl, rfl⟩ := Prod.mk.inj hstate
        exact .raise fun h _ hf => ⟨rfl, rfl, hf⟩
    exact hfailed.pre fun h _ hx => hx.2 _ rfl
  · refine .pure fun h _ hx => .inl ⟨before, ?_, (hx.1 _ rfl).2⟩
    have hpause : pause' = pause.leaveStoppedAfterError := (hx.1 _ rfl).1
    rw [hpause]

/-- The whole handoff: at most one of its attempts gets as far as the command. -/
theorem enterBootloader_steps (hmode : plan.mode = .application) {application : UsbTarget}
    (happlication : plan.application = some application) (pause : CulConsumerPause) :
    Steps settings plan Before (enterBootloader settings plan pause)
      (fun x h => x.2 = pause.leaveStoppedAfterError ∧ Handed h)
      fun x h => x.2 = pause ∧ Before h ∨ CommandRaised pause x h := by
  unfold enterBootloader
  rw [happlication]
  refine Triple.bind (R := fun _ => Before) (Triple.raisingWith ((quiet_steps
    (reportOnly_uses _ _) (by decide) Before.quiet).exc fun e h _ hb => .inl ⟨rfl, hb⟩))
    fun _ => ?_
  have hretry : Steps settings plan (fun h => pause = pause ∧ Before h)
      (.retry (fun _ => sleep versionRetrySeconds) (handoffPass settings plan application)
        (versionReadAttempts - 1) 1 pause) (PassEnded pause) (CommandRaised pause) := by
    refine Triple.retry (S := fun pause' h => pause' = pause ∧ Before h)
      (F := fun pause' h => pause' = pause ∧ Before h) (fun pause' => .fact fun hpause => ?_)
      (fun _ pause' => .fact fun hpause => ?_) _ _ _
    · subst hpause
      refine (handoffPass_steps hmode happlication pause').post fun x h _ hx => ⟨hx, ?_⟩
      rintro d hd
      rcases hx with ⟨before, rfl, -⟩ | ⟨e, rfl, hb⟩
      · cases hd
      · exact ⟨rfl, hb⟩
    · have hkind : (Op.sleep versionRetrySeconds).kind ∈ quietKinds := by
        simp [Op.kind, quietKinds]
      exact .perform fun _ h hj hb =>
        ⟨hj.snoc (stepAllowed_quiet h _ hkind), hpause, Before.quiet h _ hkind hb⟩
  refine Triple.bind ((hretry.pre fun h _ hb => ⟨rfl, hb⟩).exc fun x h _ hx => .inr hx)
    fun x => ?_
  obtain ⟨result, pause'⟩ := x
  refine .or (.ex fun before => .fact fun hx => ?_) (.ex fun e => .fact fun hx => ?_)
  · cases hx
    exact .pure fun h _ hc => ⟨rfl, hc⟩
  · cases hx
    exact .raise fun h _ hb => .inl ⟨rfl, hb⟩

end
end Flasher
end Cul868Flasher
