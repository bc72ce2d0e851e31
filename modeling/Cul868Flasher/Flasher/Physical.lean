import Cul868Flasher.Flasher.Runs
import Cul868Flasher.Flasher.Status
import Cul868Flasher.Python.Setdefault

/-!
# The lookups that count physical devices

An entry of the USB directory is an alias of the path it resolves to. The targets
with one identity are listed once for each such path; of the aliases of a path the
one that is enumerated first gives the target its name.
-/

namespace Cul868Flasher
open Python Effects

namespace Sysfs

/-- The tree, with its USB directory enumerated as `entries`. -/
def listing (fs : Sysfs) (entries : List String) : Sysfs := { fs with usbDevices := some entries }

/-- The entry shows the identity, and its topology and its numbers are well formed. -/
structure Describes (fs : Sysfs) (vendorId productId name : String) : Prop where
  vendor : (fs.readAttribute ((sysBusUsb.child name).child "idVendor")).map String.toLower =
    some vendorId
  product : (fs.readAttribute ((sysBusUsb.child name).child "idProduct")).map String.toLower =
    some productId
  topology : isTopology name = true
  busNumber : (fs.positiveInteger ((sysBusUsb.child name).child "busnum")).isSome
  deviceAddress : (fs.positiveInteger ((sysBusUsb.child name).child "devnum")).isSome

/-- The path an entry resolves to; its own, when it does not resolve. -/
def physical (fs : Sysfs) (name : String) : Path :=
  (fs.resolve (sysBusUsb.child name)).getD (sysBusUsb.child name)

/-- One target for each physical path with the identity, and no others, in order. -/
structure ExactOne (fs : Sysfs) (entries : List String) (vendorId productId : String)
    (targets : List UsbTarget) : Prop where
  only : ∀ t ∈ targets, t.topology ∈ entries ∧ fs.Describes vendorId productId t.topology ∧
    fs.targetFromPath (sysBusUsb.child t.topology) = .ok t
  once : ∀ name ∈ entries, fs.Describes vendorId productId name →
    ∃! t, t ∈ targets ∧ fs.physical t.topology = fs.physical name
  nodup : targets.Nodup
  sorted : targets.Pairwise fun a b => a.topology ≤ b.topology

/-- No two entries with the identity resolve to one path. -/
def Unaliased (fs : Sysfs) (entries : List String) (vendorId productId : String) : Prop :=
  ∀ a ∈ entries, ∀ b ∈ entries, fs.Describes vendorId productId a →
    fs.Describes vendorId productId b → fs.physical a = fs.physical b → a = b

/-! ## The targets of the entries -/

variable {fs : Sysfs} {entries order : List String} {vendorId productId name : String}
  {t : UsbTarget}

theorem describes_of_target (h : fs.targetFromPath (sysBusUsb.child name) = .ok t)
    (hmatch : matching vendorId productId t = true) : fs.Describes vendorId productId name := by
  simp only [matching, Bool.and_eq_true, decide_eq_true_eq] at hmatch
  simp only [targetFromPath] at h
  split at h
  · rename_i vendor product hvendor hproduct
    split_ifs at h with hid htopology
    split at h
    · rename_i bus address hbus haddress
      cases h
      exact {
        vendor := by simpa [hvendor] using hmatch.1
        product := by simpa [hproduct] using hmatch.2
        topology := by simpa using htopology
        busNumber := by simp [hbus]
        deviceAddress := by simp [haddress] }
    · cases h
  · cases h

theorem Describes.target (h : fs.Describes vendorId productId name)
    (hvendorId : isUsbId vendorId = true) (hproductId : isUsbId productId = true) :
    ∃ t, fs.targetFromPath (sysBusUsb.child name) = .ok t ∧
      matching vendorId productId t = true := by
  obtain ⟨vendor, hvendor, rfl⟩ := Option.map_eq_some_iff.mp h.vendor
  obtain ⟨product, hproduct, rfl⟩ := Option.map_eq_some_iff.mp h.product
  obtain ⟨bus, hbus⟩ := Option.isSome_iff_exists.mp h.busNumber
  obtain ⟨address, haddress⟩ := Option.isSome_iff_exists.mp h.deviceAddress
  have htarget : ∃ t, fs.targetFromPath (sysBusUsb.child name) = .ok t ∧
      t.vendorId = vendor.toLower ∧ t.productId = product.toLower := by
    simp [targetFromPath, hvendor, hproduct, hvendorId, hproductId, hbus, haddress, h.topology]
  obtain ⟨t, ht, hv, hp⟩ := htarget
  exact ⟨t, ht, by simp [matching, hv, hp]⟩

/-- The targets with an identity, in the order of the entries. -/
def wanted (fs : Sysfs) (vendorId productId : String) (entries : List String) : List UsbTarget :=
  (entries.filterMap fun name => (fs.targetFromPath (sysBusUsb.child name)).toOption).filter
    (matching vendorId productId)

theorem mem_wanted : t ∈ fs.wanted vendorId productId entries ↔
    t.topology ∈ entries ∧ fs.targetFromPath (sysBusUsb.child t.topology) = .ok t ∧
      matching vendorId productId t = true := by
  have hoption : ∀ name, (fs.targetFromPath (sysBusUsb.child name)).toOption = some t ↔
      fs.targetFromPath (sysBusUsb.child name) = .ok t := by
    intro name
    cases fs.targetFromPath (sysBusUsb.child name) <;> simp [Except.toOption]
  simp only [wanted, List.mem_filter, List.mem_filterMap, hoption]
  constructor
  · rintro ⟨⟨name, hname, ht⟩, hmatch⟩
    have htopology := (targetFromPath_path ht).2
    rw [Path.name_child] at htopology
    rw [htopology]
    exact ⟨hname, ht, hmatch⟩
  · rintro ⟨hname, ht, hmatch⟩
    exact ⟨⟨t.topology, hname, ht⟩, hmatch⟩

/-- A target of the directory is known by its name. -/
theorem wanted_ext {t' : UsbTarget} (ht : t ∈ fs.wanted vendorId productId entries)
    (ht' : t' ∈ fs.wanted vendorId productId order) (h : t.topology = t'.topology) : t = t' := by
  have hsame := (mem_wanted.mp ht).2.1
  rw [h, (mem_wanted.mp ht').2.1] at hsame
  exact (Except.ok.inj hsame).symm

theorem identity_wanted (ht : t ∈ fs.wanted vendorId productId entries) :
    fs.identity t = fs.physical t.topology := by
  rw [identity, (targetFromPath_path (mem_wanted.mp ht).2.1).1, physical]

/-- What the lookup returns for the enumerated entries. -/
def targets (fs : Sysfs) (vendorId productId : String) (entries : List String) : List UsbTarget :=
  (setdefaults fs.identity (fs.wanted vendorId productId entries)).insertionSort
    fun a b => a.topology ≤ b.topology

theorem targetsWithIdentity_listing : (fs.listing entries).targetsWithIdentity vendorId productId =
    .ok (fs.targets vendorId productId entries) := rfl

theorem mem_targets :
    t ∈ fs.targets vendorId productId entries ↔
      t ∈ setdefaults fs.identity (fs.wanted vendorId productId entries) :=
  List.mem_insertionSort _

theorem wanted_of_targets (h : t ∈ fs.targets vendorId productId entries) :
    t ∈ fs.wanted vendorId productId entries :=
  mem_of_mem_setdefaults _ (mem_targets.mp h)

theorem sorted_targets :
    (fs.targets vendorId productId entries).Pairwise fun a b => a.topology ≤ b.topology :=
  have : Std.Total fun a b : UsbTarget => a.topology ≤ b.topology :=
    ⟨fun _ _ => String.le_total _ _⟩
  have : IsTrans UsbTarget fun a b => a.topology ≤ b.topology := ⟨fun _ _ _ => String.le_trans⟩
  List.pairwise_insertionSort _ _

/-- Whatever the entries are and in whatever order they come. -/
theorem targets_exactOne (hvendorId : isUsbId vendorId = true)
    (hproductId : isUsbId productId = true) :
    fs.ExactOne entries vendorId productId (fs.targets vendorId productId entries) where
  only t ht := by
    obtain ⟨hentry, hpath, hmatch⟩ := mem_wanted.mp (wanted_of_targets ht)
    exact ⟨hentry, describes_of_target hpath hmatch, hpath⟩
  once name hname hdescribes := by
    obtain ⟨first, hfirst, hmatch⟩ := hdescribes.target hvendorId hproductId
    have htopology := (targetFromPath_path hfirst).2
    rw [Path.name_child] at htopology
    have hwanted : first ∈ fs.wanted vendorId productId entries :=
      mem_wanted.mpr ⟨by rwa [htopology], by rwa [htopology], hmatch⟩
    obtain ⟨t, ht, hidentity⟩ := exists_mem_setdefaults fs.identity hwanted
    have hphysical : fs.physical t.topology = fs.physical name := by
      rw [← identity_wanted (mem_of_mem_setdefaults _ ht), hidentity, identity_wanted hwanted,
        htopology]
    refine ⟨t, ⟨mem_targets.mpr ht, hphysical⟩, ?_⟩
    rintro t' ⟨ht', hphysical'⟩
    refine setdefaults_injOn fs.identity (mem_targets.mp ht') ht ?_
    rw [identity_wanted (wanted_of_targets ht'), hphysical', ← hphysical,
      identity_wanted (mem_of_mem_setdefaults _ ht)]
  nodup := (List.perm_insertionSort _ _).nodup_iff.mpr (nodup_setdefaults _ _)
  sorted := sorted_targets

/-! ## The order of enumeration -/

theorem wanted_perm (h : order.Perm entries) :
    (fs.wanted vendorId productId order).Perm (fs.wanted vendorId productId entries) :=
  (h.filterMap _).filter _

/-- Without aliases every order gives the same targets. -/
theorem targets_eq_of_unaliased (h : fs.Unaliased entries vendorId productId)
    (horder : order.Perm entries) :
    fs.targets vendorId productId order = fs.targets vendorId productId entries := by
  have hkey : ∀ a ∈ fs.wanted vendorId productId entries,
      ∀ b ∈ fs.wanted vendorId productId entries, fs.identity a = fs.identity b → a = b := by
    intro a ha b hb hidentity
    rw [identity_wanted ha, identity_wanted hb] at hidentity
    obtain ⟨hentry, hpath, hmatch⟩ := mem_wanted.mp ha
    obtain ⟨hentry', hpath', hmatch'⟩ := mem_wanted.mp hb
    exact wanted_ext ha hb (h _ hentry _ hentry' (describes_of_target hpath hmatch)
      (describes_of_target hpath' hmatch') hidentity)
  have hperm : (fs.targets vendorId productId entries).Perm (fs.targets vendorId productId order) :=
    ((List.perm_insertionSort _ _).trans
      (setdefaults_perm fs.identity (wanted_perm horder.symm) hkey)).trans
        (List.perm_insertionSort _ _).symm
  refine List.Perm.eq_of_pairwise (fun a b ha hb hab hba => ?_) sorted_targets sorted_targets
    hperm.symm
  exact wanted_ext (wanted_of_targets ha) (wanted_of_targets hb) (String.le_antisymm hab hba)

/-- Of the aliases of a path the first one is listed. -/
theorem first_mem_targets (ht : t ∈ fs.wanted vendorId productId [name]) :
    t ∈ fs.targets vendorId productId (name :: entries) := by
  have hfirst : fs.wanted vendorId productId (name :: entries) =
      t :: fs.wanted vendorId productId entries := by
    obtain ⟨hname, hpath, hmatch⟩ := mem_wanted.mp ht
    rw [List.mem_singleton] at hname
    rw [hname] at hpath
    simp [wanted, hpath, Except.toOption, hmatch]
  rw [mem_targets, hfirst]
  exact head_mem_setdefaults _ _ _

/-- Two aliases of a path, each enumerated first once, give two results. -/
theorem unaliased_of_targets_eq (hvendorId : isUsbId vendorId = true)
    (hproductId : isUsbId productId = true)
    (h : ∀ order : List String, order.Perm entries →
      fs.targets vendorId productId order = fs.targets vendorId productId entries) :
    fs.Unaliased entries vendorId productId := by
  intro a ha b hb hda hdb hphysical
  have hmem : ∀ name ∈ entries, fs.Describes vendorId productId name →
      ∃ t ∈ fs.targets vendorId productId entries, t.topology = name := by
    intro name hname hdescribes
    obtain ⟨t, hpath, hmatch⟩ := hdescribes.target hvendorId hproductId
    have htopology := (targetFromPath_path hpath).2
    rw [Path.name_child] at htopology
    rw [← h _ (List.perm_cons_erase hname).symm]
    exact ⟨t, first_mem_targets (mem_wanted.mpr ⟨by simp [htopology], by rwa [htopology], hmatch⟩),
      htopology⟩
  obtain ⟨t, ht, rfl⟩ := hmem a ha hda
  obtain ⟨t', ht', rfl⟩ := hmem b hb hdb
  refine congrArg UsbTarget.topology (setdefaults_injOn fs.identity (mem_targets.mp ht)
    (mem_targets.mp ht') ?_)
  rw [identity_wanted (wanted_of_targets ht), identity_wanted (wanted_of_targets ht'), hphysical]

end Sysfs

/-! ## The recovery target that is offered -/

namespace Flasher

/-- Every lookup sees the tree `fs`. -/
def seeing (other : (o : World.Op) → World.Ans o) (fs : Sysfs) : (o : World.Op) → World.Ans o
  | .usb _ => fs
  | o => other o

def offer (other : (o : World.Op) → World.Ans o) (fs : Sysfs) :
    Outcome Exn (Option ManualRecoveryTarget) :=
  singleUnpairedRecoveryTarget.eval (seeing other fs)

variable {other : (o : World.Op) → World.Ans o} {fs : Sysfs} {target : ManualRecoveryTarget}

theorem offer_of_targets {targets : List UsbTarget} (h : fs.bootloaderTargets = .ok targets) :
    offer other fs = .returned (some target) ↔
      ∃ t, targets = [t] ∧ target.topology = t.topology ∧ target.usbSerial = t.usbSerial := by
  have hlookup : UsbTopology.bootloaderTargets.eval (seeing other fs) =
      .ofExcept fs.bootloaderTargets := Prog.eval_ofExcept _ _
  rw [offer, singleUnpairedRecoveryTarget, Prog.eval_bind, eval_orFlashError hlookup, h]
  cases targets with
  | nil => simp [Except.mapError, Outcome.ofExcept]
  | cons t rest =>
    cases rest with
    | nil =>
      obtain ⟨hvalid, -⟩ := Sysfs.targetsWithIdentity_mem h t (by simp)
      have hmake : ManualRecoveryTarget.make t.topology t.usbSerial =
          .ok ⟨t.topology, t.usbSerial, hvalid.topology, hvalid.usbSerial⟩ := by
        rw [ManualRecoveryTarget.make, dif_pos hvalid.topology, dif_pos hvalid.usbSerial]
      simp only [Except.mapError, Outcome.ofExcept, Outcome.returned_bind, Prog.eval_bind,
        Prog.eval_ofExcept, hmake, Prog.eval_pure, Outcome.returned.injEq, Option.some.injEq]
      constructor
      · rintro rfl
        exact ⟨t, rfl, rfl, rfl⟩
      · rintro ⟨t', ht', htopology, hserial⟩
        obtain rfl : t = t' := by simpa using ht'
        cases target
        subst htopology hserial
        rfl
    | cons t' rest => simp [Except.mapError, Outcome.ofExcept]

end Flasher

/-- The directory is counted by physical devices, in whatever order it is read. -/
structure CountsDevices (fs : Sysfs) (entries : List String) : Prop where
  applications : ∀ order, order.Perm entries → ∃ targets,
    (fs.listing order).applicationTargets = .ok targets ∧
      fs.ExactOne order applicationVendorId applicationProductId targets
  bootloaders : ∀ order, order.Perm entries → ∃ targets,
    (fs.listing order).bootloaderTargets = .ok targets ∧
      fs.ExactOne order bootloaderVendorId bootloaderProductId targets
  sameApplications : ∀ order, order.Perm entries →
    (fs.listing order).applicationTargets = (fs.listing entries).applicationTargets
  sameBootloaders : ∀ order, order.Perm entries →
    (fs.listing order).bootloaderTargets = (fs.listing entries).bootloaderTargets
  offered : ∀ order other, order.Perm entries →
    ((∃ target, Flasher.offer other (fs.listing order) = .returned (some target)) ↔
      ∃! path, ∃ name ∈ entries, fs.Describes bootloaderVendorId bootloaderProductId name ∧
        fs.physical name = path)
  sameOffer : ∀ order order' other other' target target', order.Perm entries →
    order'.Perm entries → Flasher.offer other (fs.listing order) = .returned (some target) →
    Flasher.offer other' (fs.listing order') = .returned (some target') → target = target'

namespace Sysfs
variable {fs : Sysfs} {entries order : List String} {vendorId productId : String}
  {targets : List UsbTarget}

/-- A single target is listed when there is a single path. -/
theorem ExactOne.single_iff (h : fs.ExactOne order vendorId productId targets)
    (horder : order.Perm entries) :
    (∃ t, targets = [t]) ↔ ∃! path, ∃ name ∈ entries,
      fs.Describes vendorId productId name ∧ fs.physical name = path := by
  constructor
  · rintro ⟨t, rfl⟩
    obtain ⟨hentry, hdescribes, -⟩ := h.only t (by simp)
    refine ⟨fs.physical t.topology, ⟨_, horder.subset hentry, hdescribes, rfl⟩, ?_⟩
    rintro _ ⟨name, hname, hdescribes', rfl⟩
    obtain ⟨t', ⟨ht', hphysical⟩, -⟩ := h.once name (horder.symm.subset hname) hdescribes'
    rw [← hphysical, List.mem_singleton.mp ht']
  · rintro ⟨path, ⟨name, hname, hdescribes, rfl⟩, hunique⟩
    obtain ⟨t, ⟨ht, -⟩, hsame⟩ := h.once name (horder.symm.subset hname) hdescribes
    have hall : ∀ t' ∈ targets, t' = t := by
      intro t' ht'
      obtain ⟨hentry, hdescribes', -⟩ := h.only t' ht'
      exact hsame t' ⟨ht', hunique _ ⟨_, horder.subset hentry, hdescribes', rfl⟩⟩
    refine ⟨t, ?_⟩
    have hlength := h.nodup
    rw [List.eq_replicate_of_mem hall] at hlength ⊢
    have hle := List.nodup_replicate.mp hlength
    have hpos := List.length_pos_of_mem ht
    rw [show targets.length = 1 by omega, List.replicate_one]

end Sysfs

/-- The count is one of physical devices exactly when none of them has two names. -/
theorem countsDevices_iff (fs : Sysfs) (entries : List String) :
    CountsDevices fs entries ↔
      fs.Unaliased entries applicationVendorId applicationProductId ∧
        fs.Unaliased entries bootloaderVendorId bootloaderProductId := by
  have hvendor : isUsbId applicationVendorId = true := by decide
  have hproduct : isUsbId applicationProductId = true := by decide
  have hvendor' : isUsbId bootloaderVendorId = true := by decide
  have hproduct' : isUsbId bootloaderProductId = true := by decide
  constructor
  · intro h
    exact ⟨Sysfs.unaliased_of_targets_eq hvendor hproduct fun order horder =>
        Except.ok.inj (h.sameApplications order horder),
      Sysfs.unaliased_of_targets_eq hvendor' hproduct' fun order horder =>
        Except.ok.inj (h.sameBootloaders order horder)⟩
  · rintro ⟨happlications, hbootloaders⟩
    have hsame : ∀ order : List String, order.Perm entries →
        (fs.listing order).bootloaderTargets = (fs.listing entries).bootloaderTargets := by
      intro order horder
      have htargets := Sysfs.targets_eq_of_unaliased hbootloaders horder
      exact congrArg Except.ok htargets
    constructor
    · exact fun order _ => ⟨_, rfl, Sysfs.targets_exactOne hvendor hproduct⟩
    · exact fun order _ => ⟨_, rfl, Sysfs.targets_exactOne hvendor' hproduct'⟩
    · intro order horder
      have htargets := Sysfs.targets_eq_of_unaliased happlications horder
      exact congrArg Except.ok htargets
    · exact hsame
    · intro order other horder
      rw [← (Sysfs.targets_exactOne hvendor' hproduct').single_iff horder]
      constructor
      · rintro ⟨target, htarget⟩
        obtain ⟨t, ht, -⟩ := (Flasher.offer_of_targets rfl).mp htarget
        exact ⟨t, ht⟩
      · rintro ⟨t, ht⟩
        have hlisting : (fs.listing order).bootloaderTargets =
            .ok (fs.targets bootloaderVendorId bootloaderProductId order) := rfl
        obtain ⟨hvalid, -⟩ := Sysfs.targetsWithIdentity_mem hlisting t (by rw [ht]; simp)
        exact ⟨⟨t.topology, t.usbSerial, hvalid.topology, hvalid.usbSerial⟩,
          (Flasher.offer_of_targets rfl).mpr ⟨t, ht, rfl, rfl⟩⟩
    · intro order order' other other' target target' horder horder' htarget htarget'
      obtain ⟨t, ht, htopology, hserial⟩ := (Flasher.offer_of_targets rfl).mp htarget
      obtain ⟨t', ht', htopology', hserial'⟩ := (Flasher.offer_of_targets rfl).mp htarget'
      obtain rfl : t = t' := by
        have hboth := (hsame order horder).trans (hsame order' horder').symm
        simpa using ht.symm.trans ((Except.ok.inj hboth).trans ht')
      cases target
      cases target'
      simp_all

/-- One bootloader under two names. -/
def aliasedTree : Sysfs :=
  { Sysfs.ofDevices [dfuBootloader "1-1" none, dfuBootloader "1-2" none] [] with
    resolve := fun _ => some (.ofString "/sys/devices/usb1/1-1") }

theorem aliasedTree_not_counted : ¬ CountsDevices aliasedTree ["1-1", "1-2"] := by
  intro h
  have hsame := h.sameBootloaders ["1-2", "1-1"] (.swap _ _ _)
  have hsecond : ((aliasedTree.listing ["1-2", "1-1"]).bootloaderTargets.map
      (List.map UsbTarget.topology)).toOption = some ["1-2"] := by decide +kernel
  have hfirst : ((aliasedTree.listing ["1-1", "1-2"]).bootloaderTargets.map
      (List.map UsbTarget.topology)).toOption = some ["1-1"] := by decide +kernel
  rw [hsame, hfirst] at hsecond
  exact absurd hsecond (by decide)

end Cul868Flasher
