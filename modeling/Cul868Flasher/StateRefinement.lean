import Cul868Flasher.Flasher.Authorization
import Cul868Flasher.Flasher.Revalidation
import Cul868Flasher.Flasher.Verified
import Cul868Flasher.StateDisk

/-!
# The flasher on its own state file

An operation over the calls of the directory is an operation over the world: wherever
it is cut, the state file is that of the last record it has put in place, whole. A load
returns that record, or none when one of its own calls fails. After a power cut the file
is that of one of the records, or the one from before.
-/

namespace Cul868Flasher
open Python Effects

/-! ## The bytes of a record -/

theorem asciiBytes_eq {text : List Char} (h : ∀ c ∈ text, c.toNat < 128) :
    asciiBytes text = text.flatMap String.utf8EncodeChar := by
  induction text with
  | nil => rfl
  | cons c cs ih =>
    have hc := DeviceStateStore.utf8Size_eq_one (h c List.mem_cons_self)
    rw [List.flatMap_cons, String.utf8EncodeChar_eq_singleton hc,
      ← ih fun x hx => h x (List.mem_cons_of_mem _ hx)]
    rfl

theorem decodeUtf8_asciiBytes {text : List Char} (h : ∀ c ∈ text, c.toNat < 128) :
    decodeUtf8 (asciiBytes text) = some text := by
  have htext : (⟨(asciiBytes text).toArray⟩ : ByteArray) = (String.ofList text).toByteArray := by
    rw [asciiBytes_eq h]
    exact ByteArray.ext (by simp [String.ofList, List.utf8Encode])
  rw [decodeUtf8, htext, String.fromUTF8?, dif_pos (String.ofList text).isValidUTF8,
    Option.map_some]
  exact congrArg some String.toList_ofList

theorem length_fieldText_le {field : String × Json} {fields : List (String × Json)}
    (h : field ∈ fields) : (Json.fieldText field).length ≤
      ([','].intercalate (fields.map Json.fieldText)).length := by
  induction fields with
  | nil => cases h
  | cons next fields ih =>
    cases fields with
    | nil =>
      rw [List.mem_singleton.mp h, List.map_singleton, List.intercalate_singleton]
    | cons other fields =>
      rw [List.map_cons, List.map_cons, List.intercalate_cons_cons, ← List.map_cons,
        List.length_append, List.length_append]
      rcases List.mem_cons.mp h with rfl | h
      · omega
      · have := ih h
        omega

theorem length_dumpsScalar_le {field : String × Json} {fields : List (String × Json)}
    (h : field ∈ fields) :
    (Json.dumpsScalar field.2).length ≤ (Json.dumpsFields fields).length := by
  have hfield := length_fieldText_le h
  have htext : Json.dumpsFields fields =
      '{' :: [','].intercalate (fields.map Json.fieldText) ++ ['}'] := rfl
  rw [Json.fieldText, List.length_append, List.length_cons] at hfield
  rw [htext, List.length_append, List.length_cons]
  omega

namespace DeviceStateStore

theorem encode_fields {device : KnownDevice} {file : StateFile} (h : encode device = .ok file) :
    ∃ deadline, file = ⟨(Json.dumpsFields (fields device deadline)).length,
      some (.obj (fields device deadline))⟩ := by
  rw [encode_eq] at h
  cases hpayload : payload device with
  | error e =>
    rw [hpayload] at h
    cases h
  | ok text =>
    obtain ⟨deadline, rfl⟩ := payload_fields hpayload
    rw [hpayload] at h
    have hfile := Except.ok.inj h
    exact ⟨deadline, by rw [← hfile, ofText_fields]⟩

/-- The file of a record is read as that record. -/
theorem record_bytes {device : KnownDevice} {file : StateFile} (h : encode device = .ok file)
    (depth : ℕ) :
    (Content.whole file.bytes).record (depth+1) = some (decode (.file file)) := by
  obtain ⟨deadline, rfl⟩ := encode_fields h
  have hlength : (StateFile.bytes ⟨(Json.dumpsFields (fields device deadline)).length,
      some (.obj (fields device deadline))⟩).length =
        (Json.dumpsFields (fields device deadline)).length := List.length_map ..
  rw [Content.record, hlength, decode]
  by_cases hlarge : maxStateBytes < (Json.dumpsFields (fields device deadline)).length
  · rw [if_pos hlarge, if_pos hlarge]
  · have hdigits : ∀ f ∈ fields device deadline, (Json.dumpsScalar f.2).length ≤ maxStrDigits :=
      fun f hf => (length_dumpsScalar_le hf).trans (by
        rw [maxStateBytes] at hlarge
        rw [maxStrDigits]
        omega)
    have hread : StateRead.ofBytes (depth+1) (StateFile.bytes
        ⟨(Json.dumpsFields (fields device deadline)).length,
          some (.obj (fields device deadline))⟩) =
        .file ⟨(Json.dumpsFields (fields device deadline)).length,
          some (.obj (fields device deadline))⟩ := by
      rw [StateRead.ofBytes, hlength, StateFile.bytes,
        decodeUtf8_asciiBytes (dumpsFields_ascii (fields_scalar device deadline))]
      dsimp only
      rw [Json.loadsWithin_dumpsFields (fields_scalar device deadline) (fields_keys device deadline)
        hdigits depth]
    rw [if_neg hlarge, hread, decode]

end DeviceStateStore

/-! ## What the operations save -/

/-- Every save of an operation, with whatever outcome, is that of a record. -/
theorem OperationRun.saves_record {settings : Settings} {t u v : Trace World} {file : StateFile}
    {outcome : SaveOutcome} (h : OperationRun settings t)
    (ht : t = u ++ ⟨.saveState file, outcome⟩ :: v) :
    ∃ device, DeviceStateStore.encode device = .ok file := by
  have hserial (op : SerialOperation) (hop : op.Runs settings t) :
      ∃ device, DeviceStateStore.encode device = .ok file := by
    obtain ⟨_, _, _, -, hencode⟩ := (op.guarded hop u _ v ht).saved file outcome rfl
    exact ⟨_, hencode⟩
  cases h with
  | verify fuel r h => exact hserial .verify ⟨fuel, r, h⟩
  | setLed fuel mode r h => exact hserial (.setLed mode) ⟨fuel, r, h⟩
  | diagnostics fuel r h => exact hserial .diagnostics ⟨fuel, r, h⟩
  | flash fuel image manualRecovery r h =>
    have hsave : (⟨.saveState file, outcome⟩ : Event World).op.kind ∉ Flasher.planningKinds := by
      intro hmem
      change OpKind.save file.binding ∈ Flasher.planningKinds at hmem
      simp [Flasher.planningKinds] at hmem
    rcases PlannedRun.of_run h with hplanning | ⟨x, -, -, rfl⟩
    · exact absurd (hplanning _ (by simp [ht])) hsave
    · obtain ⟨w, -, hw⟩ := x.split_after ht hsave
      have hverified := (Flasher.transact_verifies x.fuel).invariant ⟨Guarded.nil, Guarded.nil⟩ rfl
        x.transact
      obtain ⟨-, -, _, now, -, hencode⟩ | ⟨-, -, _, _, _, -, -, hencode⟩ | ⟨hbinding, -⟩ :=
        (x.stepsAllowed w _ v hw).save file outcome rfl
      · exact ⟨_, hencode⟩
      · exact ⟨_, hencode⟩
      · obtain ⟨_, _, _, _, _, _, -, -, -, hencode⟩ :=
          hverified.2 w _ v hw file outcome rfl hbinding
        exact ⟨_, hencode⟩

/-! ## The directory and the history -/

/-- The steps of the world on the state file. -/
def Op.ofFile : Op → Bool
  | .loadState => true
  | .saveState _ => true
  | _ => false

def otherSteps (t : Trace World) : Trace World := t.filter fun e => !e.op.ofFile

/-- The steps of the world among those of the files. -/
def passedOn (u : Trace Files) : Trace World :=
  u.filterMap fun e => match e with
    | ⟨.world o, answer⟩ => some ⟨o, answer⟩
    | _ => none

/-- The directory holds what the history has left. A power cut may bring back an
earlier record of the history. -/
structure Disk.Tracks (depth : ℕ) (start : StateRead) (t : Trace World) (d : Disk) : Prop where
  file : d.file.record depth = some (DeviceStateStore.decode (stateAfter start t))
  shown : ∀ c ∈ d.shown, ∃ read ∈ start :: (replaced t).map StateRead.file,
    c.record depth = some (DeviceStateStore.decode read)

/-- A call of a load fails. -/
def loadFails : Event Files → Bool
  | ⟨.stat, size⟩ =>
    let size : Except String ℕ := size
    !size.isOk
  | ⟨.readBytes, bytes⟩ =>
    let bytes : Except String (List UInt8) := bytes
    !bytes.isOk
  | _ => false

/-- The calls `w` in `u` are those of the load after the steps `v`. -/
structure LoadAt (depth : ℕ) (v : Trace World) (u w : Trace Files) (read : StateRead) : Prop where
  place : ∃ u₁ u₂, u = u₁ ++ w ++ u₂ ∧ Realizes (DeviceStateStore.fileStep depth) () v u₁ ()
  run : Run (DeviceStateStore.readState depth : Prog Files Empty StateRead) w (.returned read)

/-- Every load among the steps `v` returns the record, or none because a call of its own
has failed. The history `t` is older. -/
def Loads (depth : ℕ) (start : StateRead) (t v : Trace World) (u : Trace Files) : Prop :=
  ∀ v₁ read v₂, v = v₁ ++ ⟨.loadState, read⟩ :: v₂ → ∃ w, LoadAt depth v₁ u w read ∧
    (DeviceStateStore.decode read = DeviceStateStore.decode (stateAfter start (t ++ v₁)) ∨
      read = .missing ∧ ∃ e ∈ w, loadFails e = true)

namespace Disk
open DeviceStateStore

variable {depth : ℕ} {start : StateRead} {t : Trace World} {d d' : Disk}

theorem stateAfter_snoc (start : StateRead) (t : Trace World) {e : Event World}
    (he : replaced [e] = []) : stateAfter start (t ++ [e]) = stateAfter start t := by
  rw [stateAfter, stateAfter, durable, durable, replaced_append, he, List.append_nil]

theorem Tracks.snoc (h : d.Tracks depth start t) {e : Event World} (hnone : replaced [e] = []) :
    d.Tracks depth start (t ++ [e]) where
  file := by rw [stateAfter_snoc start t hnone, h.file]
  shown := by rw [replaced_append, hnone, List.append_nil]; exact h.shown

theorem Tracks.unsaved (h : d.Tracks depth start t) (hd : Unsaved d d') :
    d'.Tracks depth start t where
  file := by rw [hd.file, h.file]
  shown := by rw [hd.shown]; exact h.shown

theorem Tracks.saved {device : KnownDevice} {file : StateFile} (h : d.Tracks (depth+1) start t)
    (hfile : encode device = .ok file) (hd : Saved file.bytes d d') {outcome : SaveOutcome}
    (houtcome : replaced [⟨.saveState file, outcome⟩] = [file]) :
    d'.Tracks (depth+1) start (t ++ [⟨.saveState file, outcome⟩]) where
  file := by
    rw [hd.file, record_bytes hfile depth, stateAfter, durable, replaced_append, houtcome,
      List.getLast?_append]
    rfl
  shown := by
    rw [hd.shown, replaced_append, houtcome]
    rintro c (_ | ⟨_, hc⟩)
    · exact ⟨.file file, by simp, record_bytes hfile depth⟩
    · obtain ⟨read, hread, hc⟩ := h.shown c hc
      refine ⟨read, ?_, hc⟩
      rw [List.map_append, ← List.cons_append]
      exact List.mem_append_left _ hread

theorem Tracks.power_cut (h : d.Tracks depth start t) (hd : d.PowerCut d') :
    ∃ read ∈ start :: (replaced t).map StateRead.file, d'.Tracks depth read [] := by
  obtain ⟨hmem, hshown⟩ := hd
  obtain ⟨read, hread, hrecord⟩ := h.shown _ hmem
  refine ⟨read, hread, hrecord, ?_⟩
  rw [hshown]
  rintro c hc
  exact ⟨read, by simp, by rw [List.mem_singleton.mp hc, hrecord]⟩

end Disk

/-! ## One step of the world -/

def FileOp.isWorld : FileOp → Bool
  | .world _ => true
  | _ => false

theorem passedOn_append (u v : Trace Files) : passedOn (u ++ v) = passedOn u ++ passedOn v :=
  List.filterMap_append ..

/-- A program that takes no step of the world. -/
abbrev OnFiles {ε α : Type} (p : Prog Files ε α) : Prop :=
  Emits (fun o => FileOp.isWorld o = false) p

theorem OnFiles.passedOn {ε α : Type} {p : Prog Files ε α} (h : OnFiles p) {u : Trace Files}
    {r : Outcome ε α} (hr : Run p u r) : passedOn u = [] := by
  refine List.filterMap_eq_nil_iff.mpr fun e he => ?_
  have hworld : FileOp.isWorld e.op = false := Emits.run h hr e he
  obtain ⟨o, a⟩ := e
  cases o with
  | world o => cases hworld
  | _ => rfl

namespace DeviceStateStore

theorem temporaryStep_onFiles (name : String) (step : TemporaryStep) :
    OnFiles (temporaryStep name step) := by
  refine Emits.bind (.perform ?_) fun _ => .ofExcept _
  rfl

theorem writeTemporary_onFiles (name : String) (payload : List UInt8) :
    OnFiles (writeTemporary name payload) := by
  refine (temporaryStep_onFiles name _).bind fun _ => ?_
  refine Emits.bind (Emits.ensuring ?_ fun _ => temporaryStep_onFiles name _) fun _ => ?_
  · refine (temporaryStep_onFiles name _).bind fun _ => ?_
    exact (temporaryStep_onFiles name _).bind fun _ => temporaryStep_onFiles name _
  · exact (temporaryStep_onFiles name _).bind fun _ => temporaryStep_onFiles name _

theorem saveOutcome_onFiles {ε : Type} (payload : List UInt8) :
    OnFiles (saveOutcome payload : Prog Files ε SaveOutcome) := by
  refine Emits.bind (.perform rfl) fun (made : Except String Unit) => ?_
  cases made with
  | error message => trivial
  | ok _ =>
    refine Emits.bind (.perform rfl) fun (named : Except String String) => ?_
    cases named with
    | error message => trivial
    | ok name =>
      refine (writeTemporary_onFiles name payload).attempt.bind fun _ => ?_
      exact (temporaryStep_onFiles name _).attempt.bind fun _ => .pure _

theorem readState_onFiles {ε : Type} (depth : ℕ) :
    OnFiles (readState depth : Prog Files ε StateRead) := by
  refine Emits.bind (.perform rfl) fun (size : Except String ℕ) => ?_
  cases size with
  | error message => trivial
  | ok size =>
    dsimp only
    split_ifs
    · trivial
    · refine Emits.bind (.perform rfl) fun (read : Except String (List UInt8)) => ?_
      cases read <;> trivial

theorem fileStep_onFiles {depth : ℕ} {o : Op} (ho : o.ofFile = true) :
    OnFiles (fileStep depth o ()) := by
  cases o with
  | loadState => exact (readState_onFiles depth).bind fun _ => .pure _
  | saveState file => exact (saveOutcome_onFiles file.bytes).bind fun _ => .pure _
  | _ => cases ho

variable {depth : ℕ} {start : StateRead} {t : Trace World} {d d' : Disk} {u : Trace Files}

theorem load_tracks {r : Outcome Empty (StateRead × Unit)}
    (h : Run (fileStep depth .loadState ()) u r) (hu : Performs directory.Answers d u d')
    (ht : d.Tracks depth start t) (read : StateRead) :
    d' = d ∧ d'.Tracks depth start (t ++ [⟨.loadState, read⟩]) := by
  have hread : Follows (directory.discipline fun d' => d' = d) (fun _ _ => True)
      (fun e _ => e.elim) (fileStep depth .loadState ()) d :=
    follows_readState.bind fun _ _ _ => .ret trivial
  obtain ⟨rfl, -, -⟩ := Medium.run hread rfl h hu
  exact ⟨rfl, ht.snoc rfl⟩

theorem ofBytes_ne_missing (depth : ℕ) (bytes : List UInt8) :
    StateRead.ofBytes depth bytes ≠ .missing := by
  intro h
  rw [StateRead.ofBytes] at h
  split at h
  · cases h
  · split at h <;> cases h

/-- Only a call that fails makes a load return none. -/
theorem readState_missing
    (h : Run (readState depth : Prog Files Empty StateRead) u (.returned .missing)) :
    ∃ e ∈ u, loadFails e = true := by
  obtain ⟨-, hcut⟩ | ⟨(size : Except String ℕ), v, rfl, hv⟩ := Run.call_iff.mp h
  · cases hcut
  cases size with
  | error message => exact ⟨_, List.mem_cons_self, rfl⟩
  | ok size =>
    change Run (ite _ _ _) v _ at hv
    split_ifs at hv
    · obtain ⟨-, hr | hr⟩ := Run.ret_iff.mp hv <;> cases hr
    · obtain ⟨-, hcut⟩ | ⟨(bytes : Except String (List UInt8)), w, rfl, hw⟩ := Run.call_iff.mp hv
      · cases hcut
      cases bytes with
      | error message => exact ⟨_, List.mem_cons_of_mem _ List.mem_cons_self, rfl⟩
      | ok bytes =>
        obtain ⟨-, hr | hr⟩ := Run.ret_iff.mp hw
        · exact absurd (Outcome.returned.inj hr).symm (ofBytes_ne_missing depth bytes)
        · cases hr

/-- What a load returns, from where it is made. -/
theorem load_returns {read : StateRead}
    (h : Run (readState depth : Prog Files Empty StateRead) u (.returned read))
    (hu : Performs directory.Answers d u d') (ht : d.Tracks depth start t) :
    decode read = decode (stateAfter start t) ∨
      read = .missing ∧ ∃ e ∈ u, loadFails e = true := by
  obtain ⟨-, hreturned, -⟩ := Medium.run (E := fun _ _ => True) follows_readState rfl h hu
  refine ((hreturned read rfl).2 _ ht.file).imp_right fun hmissing => ⟨hmissing, ?_⟩
  rw [hmissing] at h
  exact readState_missing h

theorem save_tracks {device : KnownDevice} {file : StateFile}
    {r : Outcome Empty (SaveOutcome × Unit)}
    {n : ℕ} (hfile : encode device = .ok file) (h : Run (fileStep n (.saveState file) ()) u r)
    (hu : Performs directory.Answers d u d') (ht : d.Tracks (depth+1) start t) :
    (∀ x, r = .returned x → d'.Tracks (depth+1) start (t ++ [⟨.saveState file, x.1⟩])) ∧
      (d'.Tracks (depth+1) start t ∨
        d'.Tracks (depth+1) start (t ++ [⟨.saveState file, SaveOutcome.saved⟩])) := by
  have hsave : Follows (directory.discipline (Disk.Saving file.bytes d))
      (fun x d' => Shows file.bytes d d' x.1) (fun e _ => e.elim)
      (fileStep n (.saveState file) ()) d :=
    follows_saveOutcome.bind fun outcome d' h => .ret h
  obtain ⟨hsaving, hreturned, -⟩ := Medium.run hsave (.inl ⟨rfl, rfl⟩) h hu
  refine ⟨fun x hx => ?_, hsaving.imp (fun hd => ht.unsaved hd) fun hd => ht.saved hfile hd rfl⟩
  have hshows := hreturned x hx
  obtain ⟨outcome, s⟩ := x
  have hunsaved (e : Exn) (hd : Disk.Unsaved d d') :
      d'.Tracks (depth+1) start (t ++ [⟨.saveState file, SaveOutcome.failed false e⟩]) :=
    (ht.unsaved hd).snoc rfl
  cases outcome with
  | saved => exact ht.saved hfile hshows rfl
  | failed replaced e =>
    cases replaced with
    | true => exact ht.saved hfile hshows rfl
    | false => exact hunsaved e hshows

theorem other_run {o : Op} (ho : o.ofFile = false) {r : Outcome Empty (World.Ans o × Unit)}
    (h : Run (fileStep depth o ()) u r) :
    (r = .cut ∧ u = []) ∨ ∃ a, u = [⟨.world o, a⟩] ∧ (r = .returned (a, ()) ∨ r = .cut) := by
  have hstep : fileStep depth o () = .call (.world o) fun a => .ret (a, ()) := by
    cases o <;> first | rfl | cases ho
  rw [hstep] at h
  rcases Run.call_iff.mp h with ⟨rfl, rfl⟩ | ⟨a, v, rfl, hv⟩
  · exact .inl ⟨rfl, rfl⟩
  · obtain ⟨rfl, hr⟩ := Run.ret_iff.mp hv
    exact .inr ⟨a, rfl, hr⟩

/-- What a step of the world does to the directory, and what it may have done when it
is cut. -/
theorem step_tracks {o : Op} {r : Outcome Empty (World.Ans o × Unit)}
    (hrecord : ∀ file, o = .saveState file → ∃ device, encode device = .ok file)
    (h : Run (fileStep (depth+1) o ()) u r) (hu : Performs directory.Answers d u d')
    (ht : d.Tracks (depth+1) start t) :
    (∀ x, r = .returned x → passedOn u = otherSteps [⟨o, x.1⟩] ∧
      d'.Tracks (depth+1) start (t ++ [⟨o, x.1⟩])) ∧
    ((passedOn u = [] ∧ d'.Tracks (depth+1) start t) ∨
      o ≠ .loadState ∧ ∃ a, passedOn u = otherSteps [⟨o, a⟩] ∧
        d'.Tracks (depth+1) start (t ++ [⟨o, a⟩])) := by
  cases ho : o.ofFile with
  | false =>
    have hother (a : World.Ans o) : passedOn [⟨.world o, a⟩] = otherSteps [⟨o, a⟩] := by
      simp [otherSteps, ho, Cul868Flasher.passedOn]
    have htracks (a : World.Ans o) (hd : d' = d) : d'.Tracks (depth+1) start (t ++ [⟨o, a⟩]) := by
      rw [hd]
      refine ht.snoc ?_
      cases o <;> first | rfl | cases ho
    have hload : o ≠ .loadState := by
      rintro rfl
      cases ho
    rcases other_run ho h with ⟨rfl, rfl⟩ | ⟨a, rfl, hr⟩
    · cases hu
      exact ⟨fun _ hx => (by cases hx), .inl ⟨rfl, ht⟩⟩
    · have hd : d' = d := by
        cases hu with
        | cons ha hnil =>
          cases hnil
          exact ha.2
      refine ⟨fun x hx => ?_, .inr ⟨hload, a, hother a, htracks a hd⟩⟩
      rcases hr with rfl | rfl
      · cases hx
        exact ⟨hother a, htracks a hd⟩
      · cases hx
  | true =>
    have hnone := (fileStep_onFiles ho).passedOn h
    cases o with
    | loadState =>
      refine ⟨fun x _ => ⟨hnone, (load_tracks h hu ht x.1).2⟩, .inl ⟨hnone, ?_⟩⟩
      rw [(load_tracks h hu ht .missing).1]
      exact ht
    | saveState file =>
      obtain ⟨device, hfile⟩ := hrecord file rfl
      obtain ⟨hreturned, hcut⟩ := save_tracks hfile h hu ht
      exact ⟨fun x hx => ⟨hnone, hreturned x hx⟩,
        hcut.imp (fun hd => ⟨hnone, hd⟩) fun hd => ⟨by simp, _, hnone, hd⟩⟩
    | _ => cases ho

theorem realizes_tracks {s s' : Unit} (h : Realizes (fileStep (depth+1)) s t u s')
    (hu : Performs directory.Answers d u d') {t₀ : Trace World}
    (hrecord : ∀ v file outcome w, t = v ++ ⟨.saveState file, outcome⟩ :: w →
      ∃ device, encode device = .ok file) (ht : d.Tracks (depth+1) start t₀) :
    passedOn u = otherSteps t ∧ d'.Tracks (depth+1) start (t₀ ++ t) := by
  induction h generalizing d t₀ with
  | nil s =>
    cases hu
    exact ⟨rfl, by rwa [List.append_nil]⟩
  | @cons o a s₁ s₂ s₃ t v w hrun _ ih =>
    obtain ⟨d₁, hfirst, hrest⟩ := hu.append_inv
    obtain ⟨hsteps, htracks⟩ := (step_tracks (fun file heq => by
      subst heq
      exact hrecord [] file a t rfl) hrun hfirst ht).1 _ rfl
    obtain ⟨hsteps', htracks'⟩ := ih hrest (fun v file outcome w heq =>
      hrecord (⟨o, a⟩ :: v) file outcome w (by rw [heq]; rfl)) htracks
    refine ⟨?_, by simpa using htracks'⟩
    rw [passedOn_append, hsteps, hsteps', otherSteps, otherSteps, ← List.filter_append]
    rfl

theorem loads_mono {v : Trace World} (h : Loads depth start t v u) (z : Trace Files) :
    Loads depth start t v (u ++ z) := by
  intro v₁ read v₂ hv
  obtain ⟨w, ⟨⟨u₁, u₂, rfl, hreal⟩, hrun⟩, hreturns⟩ := h v₁ read v₂ hv
  exact ⟨w, ⟨⟨u₁, u₂ ++ z, List.append_assoc .., hreal⟩, hrun⟩, hreturns⟩

theorem loads_snoc {v : Trace World} (h : Loads depth start t v u) {e : Event World}
    (he : e.op ≠ .loadState) : Loads depth start t (v ++ [e]) u := by
  intro v₁ read v₂ hv
  rcases List.eq_nil_or_concat' v₂ with rfl | ⟨v₂, x, rfl⟩
  · obtain ⟨-, hlast⟩ := List.append_inj' hv rfl
    rw [List.singleton_inj.mp hlast] at he
    exact absurd rfl he
  · have hv' : v ++ [e] = (v₁ ++ ⟨.loadState, read⟩ :: v₂) ++ [x] := by simpa using hv
    exact h v₁ read v₂ (List.append_inj' hv' rfl).1

theorem realizes_loads {v : Trace World} (h : Realizes (fileStep (depth+1)) () v u ())
    (hu : Performs directory.Answers d u d')
    (hrecord : ∀ v₁ file outcome v₂, v = v₁ ++ ⟨.saveState file, outcome⟩ :: v₂ →
      ∃ device, encode device = .ok file) (ht : d.Tracks (depth+1) start t) :
    Loads (depth+1) start t v u := by
  rintro v₁ read v₂ rfl
  obtain ⟨u₁, w, ⟨⟩, rfl, hbefore, hafter⟩ := h.append_inv
  cases hafter with
  | @cons _ _ _ s₂ _ _ w u₂ hload hrest =>
    obtain ⟨d₁, hu₁, hw⟩ := hu.append_inv
    obtain ⟨d₂, hw, -⟩ := hw.append_inv
    obtain ⟨-, htracks⟩ := realizes_tracks hbefore hu₁ (fun v file outcome z hv =>
      hrecord v file outcome _ (by rw [hv, List.append_assoc]; rfl)) ht
    have hread : Run (readState (depth+1) : Prog Files Empty StateRead) w (.returned read) := by
      obtain ⟨read', w₁, w₂, rfl, hrun, hret⟩ := Run.bind_returned.mp hload
      obtain ⟨rfl, hr | hr⟩ := Run.ret_iff.mp hret
      · obtain ⟨rfl, -⟩ := Prod.mk.inj (Outcome.returned.inj hr)
        rw [List.append_nil]
        exact hrun
      · cases hr
    exact ⟨w, ⟨⟨u₁, u₂, (List.append_assoc ..).symm, hbefore⟩, hread⟩,
      load_returns hread hw htracks⟩

/-- An operation over the calls of the directory, cut or not, is a run of the operation
over the world, with the same other steps; the directory is what its history says. -/
theorem stored_refines {α : Type} {p : Program α} {settings : Settings}
    (hp : ∀ t r, Run p t r → OperationRun settings t) {r : Outcome Empty (Except Exn α × Unit)}
    (h : Run (stored (depth+1) p) u r) (hu : Performs directory.Answers d u d')
    (ht : d.Tracks (depth+1) start t) :
    ∃ v, passedOn u = otherSteps v ∧ d'.Tracks (depth+1) start (t ++ v) ∧
      Loads (depth+1) start t v u ∧
      (∀ d'', d'.PowerCut d'' → ∃ read ∈ start :: (replaced (t ++ v)).map StateRead.file,
        d''.Tracks (depth+1) read []) ∧
      ((∃ x, r = .returned (x, ()) ∧ Run p v (.ofExcept x)) ∨ r = .cut ∧ Run p v .cut) := by
  suffices hmain : ∃ v, passedOn u = otherSteps v ∧ d'.Tracks (depth+1) start (t ++ v) ∧
      Loads (depth+1) start t v u ∧
      ((∃ x, r = .returned (x, ()) ∧ Run p v (.ofExcept x)) ∨ r = .cut ∧ Run p v .cut) by
    obtain ⟨v, hsteps, htracks, hloads, hrun⟩ := hmain
    exact ⟨v, hsteps, htracks, hloads, fun d'' hcut => htracks.power_cut hcut, hrun⟩
  have hrecord {v : Trace World} {q : Outcome Exn α} (hv : Run p v q) (w : Trace World)
      (file : StateFile) (outcome : SaveOutcome) (z : Trace World)
      (heq : v = w ++ ⟨.saveState file, outcome⟩ :: z) : ∃ device, encode device = .ok file :=
    (hp v q hv).saves_record heq
  rcases h.of_lower with ⟨v, x, ⟨⟩, rfl, hv, hreal⟩ | ⟨rfl, v, hv, hunder⟩
  · obtain ⟨hsteps, htracks⟩ := realizes_tracks hreal hu (hrecord hv) ht
    exact ⟨v, hsteps, htracks, realizes_loads hreal hu (hrecord hv) ht, .inl ⟨x, rfl, hv⟩⟩
  · cases hunder with
    | @between s' hreal =>
      obtain ⟨hsteps, htracks⟩ := realizes_tracks hreal hu (hrecord hv) ht
      exact ⟨v, hsteps, htracks, realizes_loads hreal hu (hrecord hv) ht, .inr ⟨rfl, hv⟩⟩
    | @inside s' o w z hsplit hreal hcut hnext =>
      subst hsplit
      obtain ⟨d₁, hfirst, hlast⟩ := hu.append_inv
      obtain ⟨hsteps, htracks⟩ := realizes_tracks hreal hfirst (hrecord hv) ht
      have hloads := loads_mono (realizes_loads hreal hfirst (hrecord hv) ht) z
      have hsaved : ∀ file, o = .saveState file → ∃ device, encode device = .ok file := by
        rintro file rfl
        exact hrecord (hnext SaveOutcome.saved) v file SaveOutcome.saved [] rfl
      -- The step that was under way may have had its effect already.
      rcases (step_tracks hsaved hcut hlast htracks).2 with ⟨hnone, hd⟩ | ⟨hload, a, hown, hd⟩
      · exact ⟨v, by rw [passedOn_append, hnone, List.append_nil, hsteps], hd, hloads,
          .inr ⟨rfl, hv⟩⟩
      · refine ⟨v ++ [⟨o, a⟩], ?_, by simpa using hd, loads_snoc hloads hload, .inr ⟨rfl, hnext a⟩⟩
        rw [passedOn_append, hown, hsteps, otherSteps, otherSteps, ← List.filter_append]
        rfl

end DeviceStateStore

/-! ## A run -/

namespace Disk

def empty : Disk := ⟨.absent, [.absent], fun _ => none⟩

theorem empty_tracks (depth : ℕ) : empty.Tracks depth .missing [] where
  file := rfl
  shown c hc := ⟨.missing, by simp, by rw [List.mem_singleton.mp hc]; rfl⟩

/-- Every call on the directory succeeds that can. -/
def answer (w : ℕ → (o : Op) → World.Ans o) (n : ℕ) (d : Disk) : (o : FileOp) → Files.Ans o
  | .world o => w n o
  | .mkdir => Except.ok ()
  | .mkstemp => match d.temporaries ".cul868-state-0" with
    | none => Except.ok ".cul868-state-0"
    | some _ => Except.error "File exists"
  | .temporary name .replace => match d.temporaries name with
    | some _ => Except.ok ()
    | none => Except.error "No such file or directory"
  | .temporary _ _ => Except.ok ()
  | .stat => match d.file with
    | .whole bytes => Except.ok bytes.length
    | _ => Except.error "No such file or directory"
  | .readBytes => match d.file with
    | .whole bytes => Except.ok bytes
    | _ => Except.error "No such file or directory"

theorem answer_permits (w : ℕ → (o : Op) → World.Ans o) (n : ℕ) (d : Disk) (o : FileOp) :
    directory.permits d o (answer w n d o) := by
  cases o with
  | mkstemp =>
    intro name hname
    cases hfree : d.temporaries ".cul868-state-0" with
    | none =>
      simp only [answer, hfree] at hname
      cases hname
      exact hfree
    | some f =>
      simp only [answer, hfree] at hname
      cases hname
  | temporary name step =>
    cases step with
    | replace =>
      intro hok
      cases hfile : d.temporaries name with
      | some f => rfl
      | none =>
        simp only [answer, hfile] at hok
        cases hok
    | _ => trivial
  | stat =>
    intro n hn
    cases hfile : d.file with
    | whole bytes =>
      simp only [answer, hfile] at hn
      cases hn
      exact .inr ⟨bytes, rfl, rfl⟩
    | absent =>
      simp only [answer, hfile] at hn
      cases hn
    | torn =>
      simp only [answer, hfile] at hn
      cases hn
  | readBytes =>
    intro read hread
    cases hfile : d.file with
    | whole bytes =>
      simp only [answer, hfile] at hread
      cases hread
      exact .inr rfl
    | absent =>
      simp only [answer, hfile] at hread
      cases hread
    | torn =>
      simp only [answer, hfile] at hread
      cases hread
  | _ => trivial

end Disk

/-- A flash whose device follows the commands, with the steps of the store counted. -/
def storedScript : Script where
  usb n := .ofDevices (if n < 25 then [cul "1-1" "ttyACM0" none]
    else if n < 60 then [dfuBootloader "1-1" none]
    else [cul "1-1" "ttyACM0" none]) []

theorem DeviceStateStore.stored_refines_flash :
    let run := directory.exec (Disk.answer storedScript.answer)
      (stored 4 (Flasher.flash 2 PlannedRun.qemuSettings sampleImage none)) 0 Disk.empty
    run.2.2.shown.length = 4 ∧ (run.1.filter loadFails).length = 1 ∧
      ∃ v, passedOn run.1 = otherSteps v ∧ run.2.2.Tracks 4 .missing v ∧
        Loads 4 .missing [] v run.1 := by
  intro run
  have hrun : Run (stored 4 (Flasher.flash 2 PlannedRun.qemuSettings sampleImage none)) run.1
      run.2.1 := directory.exec_run (Disk.answer storedScript.answer) _ 0 Disk.empty
  have hperforms : Performs directory.Answers Disk.empty run.1 run.2.2 :=
    Medium.exec_performs (fun n d o => Disk.answer_permits storedScript.answer n d o) _ 0 Disk.empty
  refine ⟨by decide +kernel, by decide +kernel, ?_⟩
  clear_value run
  have hflash : ∀ t r, Run (Flasher.flash 2 PlannedRun.qemuSettings sampleImage none) t r →
      OperationRun PlannedRun.qemuSettings t := fun _ r h => .flash 2 sampleImage none r h
  obtain ⟨v, hsteps, htracks, hloads, -⟩ :=
    stored_refines hflash hrun hperforms (Disk.empty_tracks 4)
  exact ⟨v, hsteps, htracks, hloads⟩

end Cul868Flasher
