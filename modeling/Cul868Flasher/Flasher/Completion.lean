import Cul868Flasher.Flasher.Phases
import Cul868Flasher.Flasher.Runs

/-!
# Flashes that return

A transaction returns exactly when each of its parts does, the verified record
is saved and every consumer that is to be restored has been. A completion lists
these parts with their steps.
-/

namespace Cul868Flasher
open Python Effects

structure Completion (fuel : ℕ) (settings : Settings) (image : HexImage) (plan : FlashPlan) where
  paused : CulConsumerPause × List String
  selected : Flasher.Selection × CulConsumerPause
  startError : Option Exn
  verified : UsbTarget × Path × String
  file : StateFile
  migrated : Option SerialPathMigration × CulConsumerPause
  pausing : Trace World
  selecting : Trace World
  programming : Trace World
  verifying : Trace World
  migrating : Trace World
  restoring : Trace World
  pausing_run : Run (SupervisorClient.pauseConsumers fuel settings.device
    settings.additionalCulAddons) pausing (.returned paused)
  selecting_run : Run (Flasher.selectBootloader fuel settings plan paused.1) selecting
    (.returned selected)
  programming_run : Run (Flasher.programBootloader fuel settings plan image selected.1.bootloader)
    programming (.returned startError)
  verifying_run : Run (Flasher.verifyApplication fuel settings selected.1.bootloader.topology
    selected.1.expectedApplicationSerial startError) verifying (.returned verified)
  file_encodes : DeviceStateStore.encode
    (Flasher.verifiedApplication settings verified.1 verified.2.2) = .ok file
  migrating_run : Run (Flasher.manualSerialByIdMigration fuel settings.device verified.2.1
    selected.2) migrating (.returned migrated)
  restoring_run : Run (SupervisorClient.restore fuel migrated.2.addonsToRestore) restoring
    (.returned [])

namespace Completion
variable {fuel : ℕ} {settings : Settings} {image : HexImage} {plan : FlashPlan}

/-- The steps up to the saving of the verified record. -/
def proof (c : Completion fuel settings image plan) : Trace World :=
  c.pausing ++ (c.selecting ++ (c.programming ++ c.verifying))

def trace (c : Completion fuel settings image plan) : Trace World :=
  c.proof ++ ⟨.saveState c.file, SaveOutcome.saved⟩ :: (c.migrating ++ c.restoring)

def flashed (c : Completion fuel settings image plan) : Flasher.Flashed :=
  ⟨c.selected.1.before, c.verified.2.2, c.verified.1, c.migrated.1⟩

def result (c : Completion fuel settings image plan) : FlashResult :=
  Flasher.flashResult settings image c.flashed c.migrated.2

@[simp] theorem result_installedVersion (c : Completion fuel settings image plan) :
    c.result.installedVersion = c.verified.2.2 := rfl

@[simp] theorem result_topology (c : Completion fuel settings image plan) :
    c.result.topology = c.verified.1.topology := rfl

end Completion

namespace Flasher
variable {fuel : ℕ} {settings : Settings} {image : HexImage} {plan : FlashPlan}

theorem save_returned {d : KnownDevice} {t : Trace World} :
    Run (DeviceStateStore.save d) t (.returned ()) ↔
      ∃ file, DeviceStateStore.encode d = .ok file ∧
        t = [⟨.saveState file, SaveOutcome.saved⟩] := by
  constructor
  · intro h
    obtain ⟨file, t₁, t₂, rfl, h₁, h₂⟩ := Run.bind_returned.mp h
    obtain ⟨rfl, hfile⟩ := ofExcept_returned.mp h₁
    obtain ⟨outcome, t₃, t₄, rfl, h₃, h₄⟩ := Run.bind_returned.mp h₂
    cases (outcome : SaveOutcome) with
    | saved =>
      obtain ⟨rfl, -⟩ := Run.pure_returned.mp h₄
      exact ⟨file, hfile, by rw [Run.perform_returned.mp h₃]; rfl⟩
    | failed replaced e => exact absurd h₄ Run.raise_returned
  · rintro ⟨file, hfile, rfl⟩
    refine Run.bind (ofExcept_returned.mpr ⟨rfl, hfile⟩) ?_
    have hsave : Run (perform (.saveState file) : Program SaveOutcome)
        [⟨.saveState file, SaveOutcome.saved⟩] (.returned .saved) :=
      Run.perform_returned.mpr rfl
    exact hsave.bind (.returned ())

theorem restored_returned {stopped : List String} {flashed flashed' : Flashed}
    {pause pause' : CulConsumerPause} {t : Trace World} :
    Run (SupervisorClient.resumeConsumers fuel stopped (.ok (flashed, pause))) t
        (.returned (flashed', pause')) ↔
      (flashed', pause') = (flashed, pause) ∧
        Run (SupervisorClient.restore fuel pause.addonsToRestore) t (.returned []) := by
  constructor
  · intro h
    obtain ⟨failures, t₁, t₂, rfl, h₁, h₂⟩ := Run.bind_returned.mp h
    split at h₂
    · exact absurd h₂ Run.raise_returned
    · rename_i hfailures
      obtain ⟨rfl, hpair⟩ := Run.pure_returned.mp h₂
      rw [not_not.mp hfailures] at h₁
      exact ⟨hpair, by simpa using h₁⟩
  · rintro ⟨hpair, h⟩
    cases hpair
    rw [← List.append_nil t]
    refine h.bind ?_
    rw [if_neg (by simp)]
    exact .returned _

/-- A transaction that returns is a completion, and conversely. -/
theorem transact_returned {t : Trace World} {result : FlashResult} :
    Run (transact fuel settings image plan) t (.returned result) ↔
      ∃ c : Completion fuel settings image plan, t = c.trace ∧ result = c.result := by
  constructor
  · intro h
    obtain ⟨⟨flashed, pause⟩, t₁, t₂, rfl, h₁, h₂⟩ := Run.bind_returned.mp h
    obtain ⟨rfl, rfl⟩ := Run.pure_returned.mp h₂
    obtain ⟨paused, t₃, t₄, rfl, h₃, h₄⟩ := Run.bind_returned.mp h₁
    obtain ⟨block, t₅, t₆, rfl, h₅, h₆⟩ := Run.bind_returned.mp h₄
    rcases Run.attempt_returned_iff.mp h₅ with ⟨⟨flashed', pause'⟩, rfl, hblock⟩ | ⟨e, rfl, -⟩
    · obtain ⟨hpair, hrestore⟩ := restored_returned.mp h₆
      cases hpair
      obtain ⟨selected, u₁, u₂, rfl, hu₁, hu₂⟩ := Run.bind_returned.mp hblock
      obtain ⟨startError, u₃, u₄, rfl, hu₃, hu₄⟩ := Run.bind_returned.mp hu₂
      obtain ⟨verified, u₅, u₆, rfl, hu₅, hu₆⟩ := Run.bind_returned.mp hu₄
      obtain ⟨_, u₇, u₈, rfl, hu₇, hu₈⟩ := Run.bind_returned.mp hu₆
      obtain ⟨file, hfile, rfl⟩ := save_returned.mp (Run.raisingWith_returned.mp hu₇)
      obtain ⟨migrated, u₉, u₁₀, rfl, hu₉, hu₁₀⟩ := Run.bind_returned.mp hu₈
      obtain ⟨rfl, hpair⟩ := Run.pure_returned.mp hu₁₀
      cases hpair
      refine ⟨⟨paused, selected, startError, verified, file, migrated, _, _, _, _, _, _, h₃, hu₁,
        Run.raisingWith_returned.mp hu₃, Run.raisingWith_returned.mp hu₅, hfile, hu₉, hrestore⟩,
        ?_, rfl⟩
      simp [Completion.trace, Completion.proof]
    · exact absurd h₆ (resumeConsumers_error fuel)
  · rintro ⟨c, rfl, rfl⟩
    have hsave := save_returned.mpr ⟨c.file, c.file_encodes, rfl⟩
    have hrecord : Run (recordApplication fuel settings c.selected.1.before c.verified.1
        c.verified.2.1 c.verified.2.2 c.selected.2)
        ([⟨.saveState c.file, SaveOutcome.saved⟩] ++ (c.migrating ++ []))
        (.returned (c.flashed, c.migrated.2)) :=
      (Run.raisingWith_returned.mpr hsave).bind (c.migrating_run.bind (.returned _))
    have hblock : Run (flashPaused fuel settings plan image c.paused.1)
        (c.selecting ++ (c.programming ++ (c.verifying ++
          ([⟨.saveState c.file, SaveOutcome.saved⟩] ++ (c.migrating ++ [])))))
        (.returned (c.flashed, c.migrated.2)) :=
      c.selecting_run.bind ((Run.raisingWith_returned.mpr c.programming_run).bind
        ((Run.raisingWith_returned.mpr c.verifying_run).bind hrecord))
    have hrestore : Run (SupervisorClient.resumeConsumers fuel c.paused.2
        (.ok (c.flashed, c.migrated.2))) c.restoring (.returned (c.flashed, c.migrated.2)) :=
      restored_returned.mpr ⟨rfl, c.restoring_run⟩
    have hpaused : Run (SupervisorClient.temporarilyStopCulConsumers fuel settings.device
        settings.additionalCulAddons (flashPaused fuel settings plan image)) (c.pausing ++
          (_ ++ c.restoring)) (.returned (c.flashed, c.migrated.2)) :=
      c.pausing_run.bind ((Run.attempt_returned hblock).bind hrestore)
    have hrun : Run (transact fuel settings image plan) (_ ++ []) (.returned c.result) :=
      hpaused.bind (.returned _)
    simpa [Completion.trace, Completion.proof] using hrun

end Flasher
end Cul868Flasher
