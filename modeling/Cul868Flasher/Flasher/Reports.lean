import Cul868Flasher.Flasher.Calls

/-!
# The percentages of a flash

Whatever a flash meets, the percentages it reports are those of its own text,
all of them at most 100.
-/

namespace Cul868Flasher
open Python Effects

/-- A report, if it is one, of a percentage. -/
def Mild : Op → Prop
  | .report percent _ => percent ≤ 100
  | _ => True

abbrev Reports (p : Prog World ε α) : Prop := Emits (I := World) Mild p

/-- Programs that do not report at all. -/
theorem Uses.mild {ks : List OpKind} {p : Prog World ε α} (h : Uses ks p)
    (hks : .report ∉ ks) : Reports p := by
  refine Emits.mono (fun o ho => ?_) h
  cases o with
  | report percent message => exact absurd ho hks
  | _ => trivial

theorem report_mild {percent : ℕ} (h : percent ≤ 100) (message : String) :
    Reports (report percent message) :=
  Emits.bind (Emits.perform (show Mild _ from h)) fun answer => Emits.ofExcept answer

namespace Flasher
variable (fuel : ℕ) (settings : Settings)

theorem settleAfterUsbChange_mild (target : String) :
    Reports (settleAfterUsbChange settings target) := by
  unfold settleAfterUsbChange
  split
  · refine (report_mild ?_ _).bind fun _ => Emits.perform trivial
    split_ifs <;> omega
  · trivial

theorem reportMoved_mild {percent : ℕ} (h : percent ≤ 100)
    (oldTopology newTopology message : String) :
    Reports (reportMoved oldTopology newTopology percent message) := by
  unfold reportMoved
  split
  · exact report_mild h _
  · trivial

theorem save_mild (device : KnownDevice) : Reports (DeviceStateStore.save device) := by
  refine Emits.ofExcept_bind fun file _ => Emits.bind (Emits.perform trivial) fun outcome => ?_
  cases outcome with
  | saved => trivial
  | failed replaced e => trivial

theorem handoffAttempt_mild (plan : FlashPlan) (application : UsbTarget)
    (pause : CulConsumerPause) : Reports (handoffAttempt settings plan application pause) := by
  refine (((configuredApplicationEndpoint_uses settings _).mild (by decide)).raisingWith _).bind
    fun endpoint => ?_
  refine (((open_uses (List.mem_singleton_self _) _ _).mild (by decide)).raisingWith _).bind
    fun _ => Emits.ensuring ?_ ?_
  · refine (((version_uses (List.mem_singleton_self _)).mild (by decide)).raisingWith _).bind
      fun before => ?_
    refine ((report_mild (by omega) _).raisingWith _).bind fun _ => ?_
    have hstore : Reports (storeHandoffPending settings plan) :=
      Emits.bind (Emits.perform trivial) fun now => save_mild _
    refine (hstore.raisingWith _).bind fun _ => ?_
    have hcommand : Reports CulSerial.enterBootloader :=
      Emits.bind (Emits.perform trivial) fun answer => Emits.ofExcept answer
    exact (hcommand.raisingWith _).bind fun _ => .pure _
  · rintro (⟨_, s⟩ | ⟨_, s⟩)
    · exact ((close_uses (List.mem_singleton_self _)).mild (by decide)).raisingWith _
    · exact ((close_uses (List.mem_singleton_self _)).mild (by decide)).raisingWith _

theorem enterBootloader_mild (plan : FlashPlan) (pause : CulConsumerPause) :
    Reports (enterBootloader settings plan pause) := by
  unfold enterBootloader
  split
  · trivial
  · refine ((report_mild (by omega) _).raisingWith _).bind fun _ => ?_
    refine Emits.bind (Emits.retry (fun _ => Emits.perform trivial) (fun pause => ?_) _ _ _)
      fun x => ?_
    · refine ((handoffAttempt_mild settings _ _ _).attempt).bind fun result => ?_
      split
      · trivial
      · split_ifs <;> trivial
    · split
      split <;> trivial

theorem selectBootloader_mild (plan : FlashPlan) (pause : CulConsumerPause) :
    Reports (selectBootloader fuel settings plan pause) := by
  unfold selectBootloader
  split_ifs
  · split
    · trivial
    · refine (enterBootloader_mild settings plan pause).bind fun x => ?_
      refine ((settleAfterUsbChange_mild settings _).raisingWith _).bind fun _ => ?_
      exact (((waitForBootloader_uses fuel settings _ _ _ _ _).mild (by decide)).raisingWith
        _).bind fun _ => .pure _
  · refine ((report_mild (by omega) _).raisingWith _).bind fun _ => ?_
    exact (((waitForBootloader_uses fuel settings _ _ _ _ _).mild (by decide)).raisingWith
      _).bind fun _ => .pure _

theorem runDfu_mild (topology : String) (expected : Option String) (command : DfuCommand)
    (arguments : List String) :
    Reports (runDfu fuel settings topology expected command arguments) := by
  refine (Emits.perform trivial).bind fun available => ?_
  split
  · trivial
  · refine ((waitForBootloader_uses fuel settings _ _ _ _ _).mild (by decide)).bind
      fun bootloader => ?_
    exact (Emits.perform trivial).bind fun outcome => .ofExcept _

theorem startApplication_mild (topology : String) (expected : Option String) :
    Reports (startApplication fuel settings topology expected) := by
  refine ((runDfu_mild fuel settings _ _ _ _).catching _).bind fun started => ?_
  cases started with
  | ok _ => trivial
  | error err => exact (report_mild (by omega) _).bind fun _ => .pure _

theorem programBootloader_mild (plan : FlashPlan) (image : HexImage) (bootloader : UsbTarget) :
    Reports (programBootloader fuel settings plan image bootloader) := by
  refine (save_mild _).bind fun _ => ?_
  refine (reportMoved_mild (by omega) _ _ _).bind fun _ => ?_
  refine (report_mild (by omega) _).bind fun _ => (runDfu_mild fuel settings _ _ _ _).bind
    fun _ => ?_
  refine (report_mild (by omega) _).bind fun _ => (runDfu_mild fuel settings _ _ _ _).bind
    fun _ => ?_
  refine (report_mild (by omega) _).bind fun _ =>
    (startApplication_mild fuel settings _ _).bind fun startError => ?_
  exact (settleAfterUsbChange_mild settings _).bind fun _ => .pure _

theorem verifyApplication_mild (topology : String) (expected : Option String)
    (startError : Option Exn) :
    Reports (verifyApplication fuel settings topology expected startError) := by
  have hawait : Reports (awaitApplication fuel settings topology expected) := by
    refine (report_mild (by omega) _).bind fun _ => ?_
    refine ((waitForApplicationVersion_uses fuel _ _ _ _ _ _).mild (by decide)).bind
      fun found => ?_
    exact (reportMoved_mild (by omega) _ _ _).bind fun _ => .pure _
  refine (hawait.catching _).bind fun result => ?_
  split
  · trivial
  · split <;> trivial

theorem waitForSerialByIdAliases_mild (device : Path) :
    Reports (waitForSerialByIdAliases fuel device) := by
  refine (Emits.perform trivial).bind fun start => Emits.loop (fun s => ?_) _ _
  refine (((byIdPathsForTty_uses (List.mem_singleton_self _) _).mild (by decide)).catching _).bind
    fun found => ?_
  split
  · trivial
  · refine (((SupervisorClient.hardwareSerialByIdPathsForTty_uses _).mild
      (by decide)).catching _).bind fun hardware => ?_
    split
    · trivial
    · refine (Emits.perform trivial).bind fun now => ?_
      split_ifs
      · trivial
      · trivial
      · exact (report_mild (by omega) _).bind fun _ => (Emits.perform trivial).bind fun _ => .pure _
      · exact (Emits.perform trivial).bind fun _ => .pure _

theorem manualSerialByIdMigration_mild (previous device : Path) (pause : CulConsumerPause) :
    Reports (manualSerialByIdMigration fuel previous device pause) := by
  have hinspect : Reports (inspectAliases fuel device) := by
    refine ((waitForSerialByIdAliases_mild fuel device).catching _).bind fun aliases => ?_
    cases aliases <;> trivial
  unfold manualSerialByIdMigration
  split_ifs
  · trivial
  · refine (hinspect.raisingWith _).bind fun x => ?_
    split
    split
    · trivial
    · exact ((report_mild (by omega) _).raisingWith _).bind fun _ => .pure _

theorem flashPaused_mild (plan : FlashPlan) (image : HexImage) (pause : CulConsumerPause) :
    Reports (flashPaused fuel settings plan image pause) := by
  refine (selectBootloader_mild fuel settings plan pause).bind fun selected => ?_
  refine ((programBootloader_mild fuel settings plan image _).raisingWith _).bind
    fun startError => ?_
  refine ((verifyApplication_mild fuel settings _ _ startError).raisingWith _).bind
    fun verified => ?_
  refine ((save_mild _).raisingWith _).bind fun _ => ?_
  exact (manualSerialByIdMigration_mild fuel _ _ _).bind fun _ => .pure _

theorem flash_mild (image : HexImage) (manualRecovery : Option ManualRecoveryTarget) :
    Reports (flash fuel settings image manualRecovery) := by
  have hprepare : Reports (prepare settings image manualRecovery) := by
    refine ((revalidateImage_uses image).mild (by decide)).bind fun image => ?_
    refine (report_mild (by omega) _).bind fun _ => ?_
    exact ((plan_uses settings _ _).mild (by decide)).bind fun _ => .pure _
  refine hprepare.bind fun prepared => ?_
  refine Emits.bind ?_ fun _ => .pure _
  refine ((SupervisorClient.pauseConsumers_uses fuel _ _).mild (by decide)).bind fun paused => ?_
  refine (flashPaused_mild fuel settings _ _ _).attempt.bind fun result => ?_
  exact (SupervisorClient.resumeConsumers_uses fuel _ _).mild (by decide)

end Flasher
end Cul868Flasher
