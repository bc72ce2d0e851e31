import Cul868Flasher.Flasher.Authorization

/-!
# The endpoint of each serial session

The configured path is bound to a TTY before the serial device is used. The
three operations below bind it once and open every session on that TTY, so only
the first session follows the binding directly.
-/

namespace Cul868Flasher
open Python Effects

/-- The TTY of a step that opens a serial session. -/
def sessionDevice : Event World → Option Path
  | ⟨.openSerial device _, _⟩ => some device
  | _ => none

def sessions (t : Trace World) : List Path := t.filterMap sessionDevice

@[simp] theorem sessions_nil : sessions [] = [] := rfl

@[simp] theorem sessions_append (t u : Trace World) :
    sessions (t ++ u) = sessions t ++ sessions u :=
  List.filterMap_append ..

theorem sessionDevice_of_kind {e : Event World} (h : e.op.kind ≠ .session) :
    sessionDevice e = none := by
  obtain ⟨o, a⟩ := e
  cases o with
  | openSerial device baudrate => exact absurd rfl h
  | _ => rfl

theorem sessions_singleton {e : Event World} (h : sessionDevice e = none) : sessions [e] = [] := by
  simp [sessions, h]

theorem sessions_of_kind {t : Trace World} (h : ∀ e ∈ t, e.op.kind ≠ .session) :
    sessions t = [] :=
  List.filterMap_eq_nil_iff.mpr fun e he => sessionDevice_of_kind (h e he)

/-- A step that is answered by the CUL itself. -/
def isRequest (e : Event World) : Bool :=
  match e.op with
  | .version => true
  | .setLed _ => true
  | .uptimeTicks => true
  | .mbusMode => true
  | _ => false

namespace Flasher
variable (settings : Settings)

/-- `device` is the TTY of `application` in a lookup of `h`; `z` is what came after it. -/
def Resolved (application : UsbTarget) (device : Path) (P : Trace World → Prop)
    (h : Trace World) : Prop :=
  ∃ w s z, h = w ++ s ++ z ∧
    Run (configuredApplicationEndpoint settings none) s (.returned (application, device)) ∧ P z

/-- Every session follows a lookup of its TTY with no session between them, and
what is asked, commanded and recorded concerns the device of that lookup. -/
structure Revalidated (t : Trace World) : Prop where
  session : ∀ u e v device, t = u ++ e :: v → sessionDevice e = some device →
    ∃ application, Resolved settings application device (fun z => sessions z = []) u
  request : ∀ u e v, t = u ++ e :: v → isRequest e = true →
    ∃ application device, Resolved settings application device (fun z => sessions z = [device]) u
  record : ∀ u file outcome v, t = u ++ ⟨.saveState file, outcome⟩ :: v →
    ∃ application device version,
      Resolved settings application device (fun z => sessions z = [device] ∧
        ⟨.version, (.ok version : Except Exn String)⟩ ∈ z) u ∧
      DeviceStateStore.encode (verifiedApplication settings application version) = .ok file

/-! ## What every run keeps -/

/-- The lookup of the operation: the only one before its sessions, and all of them use its TTY. -/
def OnEndpoint (application : UsbTarget) (device : Path) (P : Trace World → Prop)
    (h : Trace World) : Prop :=
  ∃ w s z, h = w ++ s ++ z ∧
    Run (configuredApplicationEndpoint settings none) s (.returned (application, device)) ∧
    sessions (w ++ s) = [] ∧ (∀ d ∈ sessions z, d = device) ∧ P z

/-- Some step has gone in a way after which another session is opened. -/
def Caused (cause : Trace World → Event World → Prop) (h : Trace World) : Prop :=
  ∃ u e v, h = u ++ e :: v ∧ cause u e

def Opened (z : Trace World) : Prop := sessions z ≠ []

def VersionRead (version : String) (z : Trace World) : Prop :=
  Opened z ∧ ⟨.version, (.ok version : Except Exn String)⟩ ∈ z

/-- What holds when a step is made after the history `h`. -/
structure SessionAllowed (cause : Trace World → Event World → Prop) (h : Trace World)
    (e : Event World) : Prop where
  lookup : e.op.kind = .usb → sessions h = []
  opened : ∀ device, sessionDevice e = some device →
    (∃ application, OnEndpoint settings application device (fun _ => True) h) ∧
      (sessions h ≠ [] → Caused cause h)
  request : isRequest e = true →
    ∃ application device, OnEndpoint settings application device Opened h
  saved : ∀ file outcome, e = ⟨.saveState file, outcome⟩ → ∃ application device version,
    OnEndpoint settings application device (VersionRead version) h ∧
      DeviceStateStore.encode (verifiedApplication settings application version) = .ok file

variable {settings} {cause : Trace World → Event World → Prop}

theorem OnEndpoint.mono {application : UsbTarget} {device : Path} {P P' : Trace World → Prop}
    {h : Trace World} (hb : OnEndpoint settings application device P h) (hP : ∀ z, P z → P' z) :
    OnEndpoint settings application device P' h := by
  obtain ⟨w, s, z, rfl, hrun, hclear, hdevice, hz⟩ := hb
  exact ⟨w, s, z, rfl, hrun, hclear, hdevice, hP z hz⟩

theorem OnEndpoint.snoc {application : UsbTarget} {device : Path} {P P' : Trace World → Prop}
    {h : Trace World} {e : Event World} (hb : OnEndpoint settings application device P h)
    (he : ∀ d ∈ sessionDevice e, d = device) (hP : ∀ z, P z → P' (z ++ [e])) :
    OnEndpoint settings application device P' (h ++ [e]) := by
  obtain ⟨w, s, z, rfl, hrun, hclear, hdevice, hz⟩ := hb
  refine ⟨w, s, z ++ [e], by simp, hrun, hclear, ?_, hP z hz⟩
  intro d hd
  rw [sessions_append, List.mem_append] at hd
  rcases hd with hd | hd
  · exact hdevice d hd
  · obtain ⟨x, hx, hxd⟩ := List.mem_filterMap.mp hd
    rw [List.mem_singleton.mp hx] at hxd
    exact he d hxd

theorem Opened.snoc {z : Trace World} (e : Event World) (h : Opened z) : Opened (z ++ [e]) := by
  intro hnil
  rw [sessions_append, List.append_eq_nil_iff] at hnil
  exact h hnil.1

theorem VersionRead.snoc {version : String} {z : Trace World} (e : Event World)
    (h : VersionRead version z) : VersionRead version (z ++ [e]) :=
  ⟨h.1.snoc e, List.mem_append_left _ h.2⟩

theorem Caused.snoc {h : Trace World} (e : Event World) (hc : Caused cause h) :
    Caused cause (h ++ [e]) := by
  obtain ⟨u, x, v, rfl, hx⟩ := hc
  exact ⟨u, x, v ++ [e], by simp, hx⟩

/-- The lookup makes steps of its own, none of which opens a session. -/
theorem endpoint_steps {s : Trace World} {application : UsbTarget} {device : Path}
    (h : Run (configuredApplicationEndpoint settings none) s (.returned (application, device))) :
    sessions s = [] ∧ ∃ e s', s = e :: s' ∧ e.op.kind = .usb := by
  have huses := (configuredApplicationEndpoint_uses settings none).run h
  refine ⟨sessions_of_kind fun e he => ?_, ?_⟩
  · rw [List.mem_singleton.mp (huses e he)]
    decide
  · cases s with
    | nil =>
      change Run (.call _ _) [] _ at h
      obtain ⟨_, _, hnil, -⟩ := Run.call_inv h (by simp)
      cases hnil
    | cons e s' => exact ⟨e, s', rfl, List.mem_singleton.mp (huses e (by simp))⟩

theorem OnEndpoint.resolved {application : UsbTarget} {device : Path} {P : Trace World → Prop}
    {h : Trace World} (hb : OnEndpoint settings application device P h) :
    Resolved settings application device
      (fun z => sessions z = sessions h ∧ (∀ d ∈ sessions h, d = device) ∧ P z) h := by
  obtain ⟨w, s, z, rfl, hrun, hclear, hdevice, hz⟩ := hb
  have hsessions : sessions (w ++ s ++ z) = sessions z := by
    rw [sessions_append, hclear, List.nil_append]
  exact ⟨w, s, z, rfl, hrun, hsessions.symm, fun d hd => hdevice d (hsessions ▸ hd), hz⟩

theorem Resolved.mono {application : UsbTarget} {device : Path} {P P' : Trace World → Prop}
    {h : Trace World} (hr : Resolved settings application device P h) (hP : ∀ z, P z → P' z) :
    Resolved settings application device P' h := by
  obtain ⟨w, s, z, rfl, hrun, hz⟩ := hr
  exact ⟨w, s, z, rfl, hrun, hP z hz⟩

/-- The second session of a run comes when another has been opened. -/
theorem exists_second {t : Trace World} (h : 2 ≤ (sessions t).length) :
    ∃ u e v device, t = u ++ e :: v ∧ sessionDevice e = some device ∧ sessions u ≠ [] := by
  match hsessions : sessions t with
  | [] => simp [hsessions] at h
  | [_] => simp [hsessions] at h
  | first :: second :: rest =>
    obtain ⟨t₁, t₂, rfl, h₁, h₂⟩ :=
      List.filterMap_eq_append_iff.mp (show sessions t = [first] ++ second :: rest from hsessions)
    obtain ⟨u, e, v, rfl, -, he, -⟩ := List.filterMap_eq_cons_iff.mp h₂
    refine ⟨t₁ ++ u, e, v, second, by simp, he, ?_⟩
    rw [sessions_append, show sessions t₁ = [first] from h₁]
    exact List.cons_ne_nil _ _

theorem sessions_le {u v : Trace World} (h : (sessions (u ++ v)).length ≤ 1) {z : Trace World}
    (hz : sessions z = sessions u) (hopened : Opened z) {device : Path}
    (hdevice : ∀ d ∈ sessions u, d = device) : sessions z = [device] := by
  rw [sessions_append, List.length_append] at h
  rw [hz]
  cases hu : sessions u with
  | nil => exact absurd (hz.trans hu) hopened
  | cons d rest =>
    have hrest : rest = [] := List.length_eq_zero_iff.mp (by rw [hu, List.length_cons] at h; omega)
    rw [hrest, hdevice d (by simp [hu])]

/-- The runs that keep to the endpoint are those with at most one session. -/
theorem revalidated_iff {t : Trace World} (hg : Guarded (SessionAllowed settings cause) t) :
    Revalidated settings t ↔ (sessions t).length ≤ 1 := by
  constructor
  · intro hr
    by_contra hmany
    obtain ⟨u, e, v, device, rfl, he, hopened⟩ := exists_second (by omega : 2 ≤ (sessions t).length)
    obtain ⟨application, w, s, z, rfl, hrun, hz⟩ := hr.session u e v device rfl he
    obtain ⟨hs, x, s', rfl, hx⟩ := endpoint_steps hrun
    have hw := (hg w x (s' ++ z ++ e :: v) (by simp)).lookup hx
    rw [sessions_append, sessions_append, hw, hs, hz] at hopened
    exact hopened rfl
  · intro hone
    refine ⟨?_, ?_, ?_⟩
    · rintro u e v device rfl he
      obtain ⟨⟨application, hb⟩, -⟩ := (hg u e v rfl).opened device he
      have hnone : sessions u = [] := by
        rw [sessions_append, List.length_append, sessions, sessions,
          List.filterMap_cons_some he] at hone
        exact List.length_eq_zero_iff.mp (by rw [List.length_cons] at hone; rw [sessions]; omega)
      exact ⟨application, hb.resolved.mono fun z hz => hz.1.trans hnone⟩
    · rintro u e v rfl he
      obtain ⟨application, device, hb⟩ := (hg u e v rfl).request he
      exact ⟨application, device, hb.resolved.mono fun z hz => sessions_le hone hz.1 hz.2.2 hz.2.1⟩
    · rintro u file outcome v rfl
      obtain ⟨application, device, version, hb, hencode⟩ := (hg u _ v rfl).saved file outcome rfl
      refine ⟨application, device, version, hb.resolved.mono fun z hz => ⟨?_, hz.2.2.2⟩, hencode⟩
      exact sessions_le hone hz.1 hz.2.2.1 hz.2.1

/-! ## The steps of an operation -/

abbrev SessionSteps (settings : Settings) (cause : Trace World → Event World → Prop)
    (P : Trace World → Prop) (p : Prog World ε α) (Q : α → Trace World → Prop)
    (E : ε → Trace World → Prop) : Prop :=
  Triple (Guarded (SessionAllowed settings cause)) P p Q E

/-- The kinds of steps around the sessions. -/
def outsideKinds : List OpKind := [.clock, .sleep, .report, .file, .get, .post]

theorem isRequest_of_kind {e : Event World}
    (h : e.op.kind ∉ [.session, .ledCommand, .query]) : isRequest e = false := by
  obtain ⟨o, a⟩ := e
  cases o with
  | version => simp [Op.kind] at h
  | setLed mode => simp [Op.kind] at h
  | uptimeTicks => simp [Op.kind] at h
  | mbusMode => simp [Op.kind] at h
  | _ => rfl

theorem sessionAllowed_of_kind {h : Trace World} {e : Event World}
    (he : e.op.kind ∉ [.session, .ledCommand, .query]) (hsave : ∀ file, e.op ≠ .saveState file)
    (hlookup : e.op.kind = .usb → sessions h = []) : SessionAllowed settings cause h e where
  lookup := hlookup
  opened device hdevice := by
    rw [sessionDevice_of_kind fun hk => he (by simp [hk])] at hdevice
    cases hdevice
  request hr := by
    rw [isRequest_of_kind he] at hr
    cases hr
  saved file outcome heq := absurd (by rw [heq]) (hsave file)

theorem outside_steps {ks : List OpKind} {p : Prog World ε α} (hp : Uses ks p)
    (hks : ks ⊆ outsideKinds) {P : Trace World → Prop}
    (hP : ∀ h e, e.op.kind ∈ outsideKinds → P h → P (h ++ [e])) :
    SessionSteps settings cause P p (fun _ => P) (fun _ => P) := by
  refine Guarded.frame (hp.of_subset hks) (fun h e he => sessionAllowed_of_kind ?_ ?_ ?_) hP
  · intro hk
    have hdisjoint : ∀ k ∈ outsideKinds, k ∉ [OpKind.session, .ledCommand, .query] := by decide
    exact hdisjoint _ he hk
  · intro file hop
    rw [hop] at he
    simp [Op.kind, outsideKinds] at he
  · intro hk
    rw [hk] at he
    exact absurd he (by decide)

variable {K : Trace World → Prop} (hK : ∀ h e, e.op.kind ≠ .ledCommand → K h → K (h ++ [e]))

theorem sessions_snoc {h : Trace World} {e : Event World} (he : e.op.kind ≠ .session)
    (hh : sessions h = []) : sessions (h ++ [e]) = [] := by
  rw [sessions_append, hh, sessions_singleton (sessionDevice_of_kind he), List.nil_append]

include hK in
/-- The endpoint is bound before any session. -/
theorem endpoint_session :
    SessionSteps settings cause (fun h => sessions h = [] ∧ K h)
      (configuredApplicationEndpoint settings none)
      (fun x h => OnEndpoint settings x.1 x.2 (fun _ => True) h ∧ sessions h = [] ∧ K h)
      fun _ _ => True := by
  have hsteps : SessionSteps settings cause (fun h => sessions h = [] ∧ K h)
      (configuredApplicationEndpoint settings none) (fun _ h => sessions h = [] ∧ K h)
      (fun _ h => sessions h = [] ∧ K h) := by
    refine Guarded.frame_of (configuredApplicationEndpoint_uses settings none) ?_ ?_
    · intro h e he hh
      have hk := List.mem_singleton.mp he
      refine sessionAllowed_of_kind (by simp [hk]) (fun file hop => ?_) fun _ => hh.1
      rw [hop] at hk
      cases hk
    · intro h e he hh
      have hk := List.mem_singleton.mp he
      exact ⟨sessions_snoc (by simp [hk]) hh.1, hK h e (by simp [hk]) hh.2⟩
  refine hsteps.record.conseq (fun _ _ hh => hh) ?_ fun _ _ _ _ => trivial
  rintro ⟨application, device⟩ h - ⟨hh, h₀, s, rfl, hh₀, hrun⟩
  refine ⟨⟨h₀, s, [], by simp, hrun, ?_, by simp, trivial⟩, hh⟩
  rw [sessions_append, hh₀.1, (endpoint_steps hrun).1, List.nil_append]

/-- A save of the verified application, which the operation ends with. -/
theorem save_session {application : UsbTarget} {device : Path} {version : String} :
    SessionSteps settings cause (OnEndpoint settings application device (VersionRead version))
      (DeviceStateStore.save (verifiedApplication settings application version))
      (fun _ _ => True) fun _ _ => True := by
  have hallowed : ∀ h file outcome,
      OnEndpoint settings application device (VersionRead version) h →
      DeviceStateStore.encode (verifiedApplication settings application version) = .ok file →
      SessionAllowed settings cause h ⟨.saveState file, outcome⟩ := by
    intro h file outcome hh hencode
    refine ⟨(fun hk => by cases hk), (fun device hd => by cases hd), (fun hr => by cases hr), ?_⟩
    intro file' outcome' heq
    cases heq
    exact ⟨application, device, version, hh, hencode⟩
  refine save_triple ?_ ?_ ?_
  · exact fun h file hencode hj hh => ⟨hj.snoc (hallowed h file _ hh hencode), trivial⟩
  · exact fun h file _ _ hencode hj hh => ⟨hj.snoc (hallowed h file _ hh hencode), trivial⟩
  · exact fun _ _ _ _ _ => trivial

/-! ## Inside the sessions -/

/-- The exception that a step of a session is answered with. -/
def sessionError : Event World → Option Exn
  | ⟨.openSerial _ _, a⟩ => match (a : Except Exn Unit) with
    | .ok _ => none
    | .error e => some e
  | ⟨.version, a⟩ => match (a : Except Exn String) with
    | .ok _ => none
    | .error e => some e
  | ⟨.closeSerial, a⟩ => match (a : Except Exn Unit) with
    | .ok _ => none
    | .error e => some e
  | _ => none

section
variable {retried : Exn → Prop}
  (hcause : ∀ u e x, K u → sessionError e = some x → retried x → cause u e)
  {application : UsbTarget} {device : Path}

/-- An attempt has failed with `x`, and what has been bound is still bound. -/
def AttemptFailedWith (settings : Settings) (cause : Trace World → Event World → Prop)
    (K : Trace World → Prop) (retried : Exn → Prop) (application : UsbTarget) (device : Path)
    (x : Exn) (h : Trace World) : Prop :=
  OnEndpoint settings application device (fun _ => True) h ∧ K h ∧ (retried x → Caused cause h)

include hK hcause in
theorem failed_session {h : Trace World} {e : Event World} {x : Exn} {P : Trace World → Prop}
    (hon : OnEndpoint settings application device P h) (hk : K h)
    (he : ∀ d ∈ sessionDevice e, d = device) (hled : e.op.kind ≠ .ledCommand)
    (hx : sessionError e = some x) :
    AttemptFailedWith settings cause K retried application device x (h ++ [e]) :=
  ⟨hon.snoc he fun _ _ => trivial, hK h e hled hk,
    fun hretried => ⟨h, e, [], rfl, hcause h e x hk hx hretried⟩⟩

include hK hcause in
theorem open_session (baudrate : ℕ) {P : Trace World → Prop}
    (hP : ∀ z e, P z → P (z ++ [e])) :
    SessionSteps settings cause
      (fun h => OnEndpoint settings application device P h ∧ K h ∧
        (sessions h ≠ [] → Caused cause h))
      (CulSerial.open_ device baudrate)
      (fun _ h => OnEndpoint settings application device (fun z => Opened z ∧ P z) h ∧ K h)
      (AttemptFailedWith settings cause K retried application device) := by
  refine fallible_triple fun h a hj hh => ?_
  obtain ⟨hon, hk, hagain⟩ := hh
  have hdevice : ∀ d ∈ sessionDevice ⟨.openSerial device baudrate, a⟩, d = device :=
    fun d hd => (Option.some.inj hd).symm
  have hopened : ∀ z, Opened (z ++ [⟨.openSerial device baudrate, a⟩]) := by
    intro z hnil
    rw [sessions_append, List.append_eq_nil_iff] at hnil
    cases hnil.2
  refine ⟨hj.snoc ⟨(fun he => by cases he), ?_, (fun hr => by cases hr),
    fun _ _ heq => by cases heq⟩,
    ?_, ?_⟩
  · intro d hd
    obtain rfl : device = d := Option.some.inj hd
    exact ⟨⟨application, hon.mono fun _ _ => trivial⟩, hagain⟩
  · intro _ _
    exact ⟨hon.snoc hdevice fun z hz => ⟨hopened z, hP z _ hz⟩, hK h _ (by simp [Op.kind]) hk⟩
  · rintro x rfl
    exact failed_session hK hcause hon hk hdevice (by simp [Op.kind]) rfl

include hK hcause in
theorem version_session :
    SessionSteps settings cause (fun h => OnEndpoint settings application device Opened h ∧ K h)
      CulSerial.version
      (fun version h => OnEndpoint settings application device (VersionRead version) h ∧ K h)
      (AttemptFailedWith settings cause K retried application device) := by
  refine fallible_triple fun h a hj hh => ?_
  obtain ⟨hon, hk⟩ := hh
  have hdevice : ∀ d ∈ sessionDevice ⟨.version, a⟩, d = device := fun d hd => by cases hd
  refine ⟨hj.snoc ⟨(fun he => by cases he), (fun _ hd => by cases hd), fun _ =>
    ⟨application, device, hon⟩, fun _ _ heq => by cases heq⟩, ?_, ?_⟩
  · rintro version rfl
    exact ⟨hon.snoc hdevice fun z hz => ⟨hz.snoc _, by simp⟩, hK h _ (by simp [Op.kind]) hk⟩
  · rintro x rfl
    exact failed_session hK hcause hon hk hdevice (by simp [Op.kind]) rfl

theorem sessionAllowed_close (h : Trace World) (a : Except Exn Unit) :
    SessionAllowed settings cause h ⟨.closeSerial, a⟩ :=
  ⟨(fun he => by cases he), (fun _ hd => by cases hd), (fun hr => by cases hr),
    fun _ _ heq => by cases heq⟩

include hK hcause in
/-- Closing the session of an attempt that has not failed yet. -/
theorem close_session {P : Trace World → Prop} (hP : ∀ z e, P z → P (z ++ [e])) :
    SessionSteps settings cause (fun h => OnEndpoint settings application device P h ∧ K h)
      CulSerial.close (fun _ h => OnEndpoint settings application device P h ∧ K h)
      (AttemptFailedWith settings cause K retried application device) := by
  refine fallible_triple fun h a hj hh => ?_
  obtain ⟨hon, hk⟩ := hh
  have hdevice : ∀ d ∈ sessionDevice ⟨.closeSerial, a⟩, d = device := fun d hd => by cases hd
  refine ⟨hj.snoc (sessionAllowed_close h a), ?_, ?_⟩
  · intro _ _
    exact ⟨hon.snoc hdevice fun z hz => hP z _ hz, hK h _ (by simp [Op.kind]) hk⟩
  · rintro x rfl
    exact failed_session hK hcause hon hk hdevice (by simp [Op.kind]) rfl

include hK hcause in
/-- Closing the session of an attempt that has failed with `x`. -/
theorem closeFailed_session (x : Exn) :
    SessionSteps settings cause (AttemptFailedWith settings cause K retried application device x)
      CulSerial.close
      (fun _ => AttemptFailedWith settings cause K retried application device x)
      (AttemptFailedWith settings cause K retried application device) := by
  refine fallible_triple fun h a hj hh => ?_
  obtain ⟨hon, hk, hx⟩ := hh
  have hdevice : ∀ d ∈ sessionDevice ⟨.closeSerial, a⟩, d = device := fun d hd => by cases hd
  refine ⟨hj.snoc (sessionAllowed_close h a), ?_, ?_⟩
  · intro _ _
    exact ⟨hon.snoc hdevice fun _ _ => trivial, hK h _ (by simp [Op.kind]) hk,
      fun hr => (hx hr).snoc _⟩
  · rintro x' rfl
    exact failed_session hK hcause hon hk hdevice (by simp [Op.kind]) rfl

end

/-! ## The retries -/

/-- Another session may be opened on the endpoint. -/
def MayOpen (settings : Settings) (cause : Trace World → Event World → Prop)
    (K : Trace World → Prop) (application : UsbTarget) (device : Path) (h : Trace World) : Prop :=
  OnEndpoint settings application device (fun _ => True) h ∧ K h ∧
    (sessions h ≠ [] → Caused cause h)

include hK in
theorem sleep_session {seconds : ℚ} {application : UsbTarget} {device : Path} :
    SessionSteps settings cause (MayOpen settings cause K application device)
      (sleep seconds : Program Unit) (fun _ => MayOpen settings cause K application device)
      fun _ _ => True := by
  have huses : Uses [.sleep] (sleep seconds : Program Unit) :=
    perform_uses rfl (List.mem_singleton_self _)
  refine (outside_steps huses (by decide) fun h e he hh => ?_).exc fun _ _ _ _ => trivial
  obtain ⟨hon, hk, hagain⟩ := hh
  have hsession : e.op.kind ≠ .session := by
    intro hk
    rw [hk] at he
    exact absurd he (by decide)
  have hled : e.op.kind ≠ .ledCommand := by
    intro hk
    rw [hk] at he
    exact absurd he (by decide)
  have hnone : sessionDevice e = none := sessionDevice_of_kind hsession
  refine ⟨hon.snoc (by simp [hnone]) fun _ _ => trivial, hK h e hled hk, fun hopened => ?_⟩
  rw [sessions_append, sessions_singleton hnone, List.append_nil] at hopened
  exact (hagain hopened).snoc e

include hK in
theorem readVersion_session (hcause : ∀ u e x, K u → sessionError e = some x → cause u e)
    {application : UsbTarget} {device : Path} (baudrate : ℕ) :
    SessionSteps settings cause (MayOpen settings cause K application device)
      (readVersion device baudrate)
      (fun version h => OnEndpoint settings application device (VersionRead version) h ∧ K h)
      fun _ _ => True := by
  have hfault : ∀ u e x, K u → sessionError e = some x → True → cause u e :=
    fun u e x hk hx _ => hcause u e x hk hx
  have honce : SessionSteps settings cause (MayOpen settings cause K application device)
      (readVersionOnce device baudrate)
      (fun version h => OnEndpoint settings application device (VersionRead version) h ∧ K h)
      (AttemptFailedWith settings cause K (fun _ => True) application device) := by
    refine (open_session hK hfault baudrate (P := fun _ => True) fun _ _ _ => trivial).bind
      fun _ => ?_
    refine Triple.ensuring (((version_session hK hfault).pre fun h _ hh => ?_))
      (fun version => close_session hK hfault fun z e hz => hz.snoc e)
      fun x => closeFailed_session hK hfault x
    exact ⟨hh.1.mono fun z hz => hz.1, hh.2⟩
  refine Triple.bind (R := fun x h => ∀ version, x.1 = .ok version →
      OnEndpoint settings application device (VersionRead version) h ∧ K h)
    (Triple.retry (S := fun _ => MayOpen settings cause K application device)
      (F := fun _ => MayOpen settings cause K application device) (fun _ => ?_)
      (fun _ _ => sleep_session hK) _ _ ()) fun x => ?_
  · refine honce.attempt.bind fun result => .pure fun h _ hx => ⟨?_, ?_⟩
    · rintro version rfl
      exact hx.1 version rfl
    · rintro x rfl
      obtain ⟨hon, hk, hcaused⟩ := hx.2 x rfl
      exact ⟨hon, hk, fun _ => hcaused trivial⟩
  · obtain ⟨result, _⟩ := x
    cases result with
    | ok version => exact .pure fun h _ hx => hx version rfl
    | error e => exact .raise fun _ _ _ => trivial

theorem query_session {o : Op} (ho : o.kind = .query) {f : World.Ans o → Except Exn α}
    {application : UsbTarget} {device : Path} {P : Trace World → Prop}
    (hP : ∀ z e, P z → P (z ++ [e])) (hopened : ∀ z, P z → Opened z) :
    SessionSteps settings cause (OnEndpoint settings application device P)
      (perform o >>= fun a => .ofExcept (f a))
      (fun _ => OnEndpoint settings application device P)
      fun _ => OnEndpoint settings application device P := by
  refine fallible_triple fun h a hj hon => ?_
  have hnone : sessionDevice ⟨o, a⟩ = none :=
    sessionDevice_of_kind (by rw [show Op.kind (⟨o, a⟩ : Event World).op = .query from ho]; decide)
  have hnext : OnEndpoint settings application device P (h ++ [⟨o, a⟩]) :=
    hon.snoc (by simp [hnone]) fun z hz => hP z _ hz
  refine ⟨hj.snoc ⟨fun he => ?_, fun _ hd => ?_, fun _ => ⟨application, device,
    hon.mono hopened⟩, fun file _ heq => ?_⟩, fun _ _ => hnext, fun _ _ => hnext⟩
  · rw [show Op.kind (⟨o, a⟩ : Event World).op = .query from ho] at he
    cases he
  · rw [hnone] at hd
    cases hd
  · obtain rfl : o = .saveState file := congrArg Event.op heq
    cases ho

theorem optionalQuery_session {P : Trace World → Prop} {query : Program α}
    (h : SessionSteps settings cause P query (fun _ => P) fun _ => P) :
    SessionSteps settings cause P (optionalQuery query) (fun _ => P) fun _ _ => True := by
  refine h.attempt.bind fun result => ?_
  cases result with
  | ok a => exact .pure fun _ _ hx => hx.1 a rfl
  | error e => exact .pure fun _ _ hx => hx.2 e rfl

/-- The second session of `diagnostics`, after the version has been read. -/
theorem readTelemetry_session (hcause : ∀ u (version : String),
      cause u ⟨.version, (.ok version : Except Exn String)⟩)
    {application : UsbTarget} {device : Path} (baudrate : ℕ) {version : String} :
    SessionSteps settings cause (OnEndpoint settings application device (VersionRead version))
      (readTelemetry device baudrate)
      (fun _ => OnEndpoint settings application device (VersionRead version))
      fun _ _ => True := by
  have hread : ∀ h, OnEndpoint settings application device (VersionRead version) h →
      Caused cause h := by
    rintro h ⟨w, s, z, rfl, -, -, -, -, hmem⟩
    obtain ⟨z₁, z₂, rfl⟩ := List.append_of_mem hmem
    exact ⟨w ++ s ++ z₁, _, z₂, by simp, hcause _ version⟩
  have hsnoc : ∀ z e, VersionRead version z → VersionRead version (z ++ [e]) :=
    fun z e hz => hz.snoc e
  have hclose : SessionSteps settings cause
      (OnEndpoint settings application device (VersionRead version)) CulSerial.close
      (fun _ => OnEndpoint settings application device (VersionRead version))
      fun _ _ => True := by
    refine fallible_triple fun h a hj hon => ⟨hj.snoc (sessionAllowed_close h a), ?_, ?_⟩
    · exact fun _ _ => hon.snoc (fun d hd => by cases hd) fun z hz => hz.snoc _
    · exact fun _ _ => trivial
  refine Triple.bind (R := fun _ => OnEndpoint settings application device (VersionRead version))
    (fallible_triple fun h a hj hon => ?_) fun _ => ?_
  · refine ⟨hj.snoc ⟨(fun he => by cases he), fun d hd => ?_, (fun hr => by cases hr),
      fun _ _ heq => by cases heq⟩, ?_, fun _ _ => trivial⟩
    · obtain rfl : device = d := Option.some.inj hd
      exact ⟨⟨application, hon.mono fun _ _ => trivial⟩, fun _ => hread h hon⟩
    · exact fun _ _ => hon.snoc (fun d hd => (Option.some.inj hd).symm) fun z hz => hz.snoc _
  · refine Triple.ensuring (F := fun _ _ => True) ?_ (fun _ => hclose) fun _ => ?_
    · refine (optionalQuery_session (query_session rfl hsnoc fun z hz => hz.1)).bind fun _ => ?_
      refine (optionalQuery_session (query_session rfl hsnoc fun z hz => hz.1)).bind fun _ => ?_
      exact .pure fun _ _ hon => hon
    · exact fallible_triple fun h a hj _ => ⟨hj.snoc (sessionAllowed_close h a),
        fun _ _ => trivial, fun _ _ => trivial⟩

theorem noLed_snoc (h : Trace World) (e : Event World) (he : e.op.kind ≠ .ledCommand)
    (hn : NoLed h) : NoLed (h ++ [e]) :=
  hn.snoc he

/-- A flag that is not set says that the attempt may be repeated. -/
def LedAttemptFailed (settings : Settings) (cause : Trace World → Event World → Prop)
    (application : UsbTarget) (device : Path) (x : Exn × Bool) (h : Trace World) : Prop :=
  x.2 = false → AttemptFailedWith settings cause NoLed (fun e => e.isFlashError = false)
    application device x.1 h

section
variable (hcause : ∀ u e x, NoLed u → sessionError e = some x → x.isFlashError = false → cause u e)
  {application : UsbTarget} {device : Path}
include hcause

theorem setLedAttempt_session (baudrate : ℕ) (mode : LedMode) :
    SessionSteps settings cause (MayOpen settings cause NoLed application device)
      (setLedAttempt device baudrate mode)
      (fun x => OnEndpoint settings application device (VersionRead x.1))
      (LedAttemptFailed settings cause application device) := by
  refine Triple.bind (Triple.raisingWith ((open_session noLed_snoc hcause baudrate
    (P := fun _ => True) fun _ _ _ => trivial).exc fun _ _ _ hx _ => hx)) fun _ => ?_
  refine Triple.ensuring (R := fun x h => x.2 = true ∧
      OnEndpoint settings application device (VersionRead x.1) h)
    (F := LedAttemptFailed settings cause application device) ?_ (fun x => ?_) fun x => ?_
  · refine Triple.bind (Triple.raisingWith (((version_session noLed_snoc hcause).pre
      fun h _ hh => ⟨hh.1.mono fun z hz => hz.1, hh.2⟩).exc fun _ _ _ hx _ => hx)) fun version => ?_
    split
    · refine .raise fun h _ hh _ => ⟨hh.1.mono fun _ _ => trivial, hh.2, fun hflash => ?_⟩
      cases hflash
    · refine Triple.bind (R := fun _ => OnEndpoint settings application device
        (VersionRead version)) (Triple.raisingWith (fallible_triple fun h a hj hh => ?_)) fun _ =>
          .pure fun h _ hon => ⟨rfl, hon⟩
      have hnext : OnEndpoint settings application device (VersionRead version)
          (h ++ [⟨.setLed mode, a⟩]) :=
        hh.1.snoc (fun d hd => by cases hd) fun z hz => hz.snoc _
      refine ⟨hj.snoc ⟨(fun he => by cases he), (fun _ hd => by cases hd), fun _ =>
        ⟨application, device, hh.1.mono fun z hz => hz.1⟩, fun _ _ heq => by cases heq⟩,
        fun _ _ => hnext, fun _ _ hflag => by cases hflag⟩
  · refine Triple.fact fun hsent => Triple.raisingWith (fallible_triple fun h a hj hon => ?_)
    refine ⟨hj.snoc (sessionAllowed_close h a), fun _ _ => ?_, fun _ _ hflag => ?_⟩
    · exact hon.snoc (fun d hd => by cases hd) fun z hz => hz.snoc _
    · rw [hsent] at hflag
      cases hflag
  · obtain ⟨e, flag⟩ := x
    cases flag with
    | true =>
      refine Triple.raisingWith (fallible_triple fun h a hj _ => ?_)
      exact ⟨hj.snoc (sessionAllowed_close h a), (fun _ _ hflag => by cases hflag),
        fun _ _ hflag => by cases hflag⟩
    | false =>
      refine Triple.raisingWith ((closeFailed_session noLed_snoc hcause e).conseq
        (fun h _ hx => hx rfl) (fun _ _ _ hx _ => hx) fun _ _ _ hx _ => hx)

theorem setLedAfterVerification_session (baudrate : ℕ) (mode : LedMode) :
    SessionSteps settings cause (MayOpen settings cause NoLed application device)
      (setLedAfterVerification device baudrate mode)
      (fun version => OnEndpoint settings application device (VersionRead version))
      fun _ _ => True := by
  have hpass : SessionSteps settings cause (MayOpen settings cause NoLed application device)
      (setLedPass device baudrate mode)
      (fun x h => (∀ version, x = .ok version →
          OnEndpoint settings application device (VersionRead version) h) ∧
        ∀ e, x = .error e → MayOpen settings cause NoLed application device h)
      fun _ _ => True := by
    refine (setLedAttempt_session hcause baudrate mode).attempt.bind fun result => ?_
    rcases result with ⟨e, flag⟩ | ⟨version, flag⟩
    · dsimp only
      split
      · exact .raise fun _ _ _ => trivial
      · rename_i hflash
        split
        · exact .raise fun _ _ _ => trivial
        · rename_i hflag
          refine .pure fun h _ hx => ⟨(fun _ he => by cases he), fun _ _ => ?_⟩
          obtain ⟨hon, hn, hcaused⟩ := hx.2 _ rfl (by simpa using hflag)
          exact ⟨hon, hn, fun _ => hcaused (by simpa using hflash)⟩
    · refine .pure fun h _ hx => ⟨?_, fun _ he => by cases he⟩
      rintro _ ⟨⟩
      exact hx.1 _ rfl
  refine Triple.bind (R := fun x h => ∀ version, x.1 = .ok version →
      OnEndpoint settings application device (VersionRead version) h)
    (Triple.retry (S := fun _ => MayOpen settings cause NoLed application device)
      (F := fun _ => MayOpen settings cause NoLed application device)
      (fun _ => hpass.bind fun _ => .pure fun h _ hx => hx)
      (fun _ _ => sleep_session noLed_snoc) _ _ ()) fun x => ?_
  obtain ⟨result, _⟩ := x
  cases result with
  | ok version => exact .pure fun h _ hx => hx version rfl
  | error e => exact .raise fun _ _ _ => trivial

end

/-! ## The operations -/

include hK in
/-- The body that the three operations share, around a block that binds the
endpoint once more. -/
theorem exclusive_session (fuel : ℕ) {block : CulConsumerPause → Paused (α × CulConsumerPause)}
    (hblock : ∀ pause, SessionSteps settings cause (fun h => sessions h = [] ∧ K h) (block pause)
      (fun _ _ => True) fun _ _ => True) (f : α → β) :
    SessionSteps settings cause (fun h => sessions h = [] ∧ K h)
      (do
        let _ ← configuredApplicationEndpoint settings none
        let (result, _) ← SupervisorClient.temporarilyStopCulConsumers fuel settings.device
          settings.additionalCulAddons block
        return f result)
      (fun _ _ => True) fun _ _ => True := by
  have hclear : ∀ h e, e.op.kind ∈ outsideKinds → sessions h = [] ∧ K h →
      sessions (h ++ [e]) = [] ∧ K (h ++ [e]) := by
    intro h e he hh
    have hkinds : ∀ k ∈ outsideKinds, k ≠ .session ∧ k ≠ .ledCommand := by decide
    exact ⟨sessions_snoc (hkinds _ he).1 hh.1, hK h e (hkinds _ he).2 hh.2⟩
  refine Triple.bind (R := fun _ h => sessions h = [] ∧ K h)
    ((endpoint_session hK).post fun _ _ _ hx => hx.2) fun _ => ?_
  refine Triple.bind (R := fun _ _ => True) ?_ fun _ => .pure fun _ _ _ => trivial
  refine Triple.bind ((outside_steps (SupervisorClient.pauseConsumers_uses fuel _ _) (by decide)
    hclear).exc fun _ _ _ _ => trivial) fun paused => ?_
  refine Triple.bind (R := fun _ _ => True) ((hblock paused.1).attempt.post
    fun _ _ _ _ => trivial) fun result => ?_
  exact outside_steps (P := fun _ => True) (SupervisorClient.resumeConsumers_uses fuel _ _)
    (by decide) fun _ _ _ _ => trivial

/-- How the operations report their failures. -/
theorem raiseFlash_session {P : Trace World → Prop} {e : Exn} {message : String} :
    SessionSteps settings cause P
      (if e.isFlashError then .raise e else .raise (.flashError message) : Program α)
      (fun _ _ => True) fun _ _ => True := by
  split
  · exact .raise fun _ _ _ => trivial
  · exact .raise fun _ _ _ => trivial

/-- The endpoint that a block binds for itself, before any session. -/
theorem mayOpen_of_endpoint {application : UsbTarget} {device : Path} {h : Trace World}
    (hx : OnEndpoint settings application device (fun _ => True) h ∧ sessions h = [] ∧ K h) :
    MayOpen settings cause K application device h :=
  ⟨hx.1, hx.2.2, fun hopened => absurd hx.2.1 hopened⟩

theorem verify_session (fuel : ℕ)
    (hcause : ∀ u e x, sessionError e = some x → cause u e) :
    SessionSteps settings cause (fun h => sessions h = [] ∧ True)
      (verifyRunningApplication fuel settings) (fun _ _ => True) fun _ _ => True := by
  have hK : ∀ (h : Trace World) (e : Event World), e.op.kind ≠ .ledCommand → True → True :=
    fun _ _ _ _ => trivial
  have hblock : ∀ pause, SessionSteps settings cause (fun h => sessions h = [] ∧ True)
      (verifyPaused settings pause) (fun _ _ => True) fun _ _ => True := by
    intro pause
    refine Triple.bind (Triple.raisingWith (endpoint_session hK)) fun endpoint => ?_
    refine Triple.bind (Triple.raisingWith ((readVersion_session hK
      (fun u e x _ => hcause u e x) _).pre fun h _ hx => mayOpen_of_endpoint hx)) fun version => ?_
    exact Triple.bind (Triple.raisingWith (save_session.pre fun h _ hx => hx.1))
      fun _ => .pure fun _ _ _ => trivial
  refine Triple.bind (exclusive_session hK fuel hblock id).attempt fun result => ?_
  cases result with
  | ok version => exact .pure fun _ _ _ => trivial
  | error e => exact raiseFlash_session

theorem setLed_session (fuel : ℕ) (mode : LedMode)
    (hcause : ∀ u e x, NoLed u → sessionError e = some x → x.isFlashError = false → cause u e) :
    SessionSteps settings cause (fun h => sessions h = [] ∧ NoLed h)
      (setLed fuel settings mode) (fun _ _ => True) fun _ _ => True := by
  have hblock : ∀ pause, SessionSteps settings cause (fun h => sessions h = [] ∧ NoLed h)
      (setLedPaused settings mode pause) (fun _ _ => True) fun _ _ => True := by
    intro pause
    refine Triple.bind (Triple.raisingWith (endpoint_session noLed_snoc)) fun endpoint => ?_
    refine Triple.bind (R := fun version => OnEndpoint settings endpoint.1 endpoint.2
      (VersionRead version)) (Triple.raisingWith (Triple.bind
        (((setLedAfterVerification_session hcause _ mode).pre
          fun h _ hx => mayOpen_of_endpoint hx).catching.exc fun _ _ _ _ => trivial)
        fun result => ?_)) fun version => ?_
    · cases result with
      | ok version => exact .pure fun _ _ hx => hx.1 version rfl
      | error e => exact .raise fun _ _ _ => trivial
    · exact Triple.bind (Triple.raisingWith save_session) fun _ => .pure fun _ _ _ => trivial
  refine Triple.bind (exclusive_session noLed_snoc fuel hblock
    fun version => (⟨mode, version⟩ : LedResult)).attempt fun result => ?_
  cases result with
  | ok result => exact .pure fun _ _ _ => trivial
  | error e => exact raiseFlash_session

theorem diagnostics_session (fuel : ℕ)
    (hcause : ∀ u e x, sessionError e = some x → cause u e)
    (hread : ∀ u (version : String), cause u ⟨.version, (.ok version : Except Exn String)⟩) :
    SessionSteps settings cause (fun h => sessions h = [] ∧ True)
      (diagnostics fuel settings) (fun _ _ => True) fun _ _ => True := by
  have hK : ∀ (h : Trace World) (e : Event World), e.op.kind ≠ .ledCommand → True → True :=
    fun _ _ _ _ => trivial
  have hblock : ∀ pause, SessionSteps settings cause (fun h => sessions h = [] ∧ True)
      (diagnosticsPaused settings pause) (fun _ _ => True) fun _ _ => True := by
    intro pause
    refine Triple.bind (Triple.raisingWith (endpoint_session hK)) fun endpoint => ?_
    refine Triple.bind (R := fun version => OnEndpoint settings endpoint.1 endpoint.2
      (VersionRead version)) (Triple.raisingWith (Triple.bind
        (((readVersion_session hK (fun u e x _ => hcause u e x) _).pre
          fun h _ hx => mayOpen_of_endpoint hx).catching.exc fun _ _ _ _ => trivial)
        fun result => ?_)) fun version => ?_
    · cases result with
      | ok version => exact .pure fun _ _ hx => (hx.1 version rfl).1
      | error e => exact .raise fun _ _ _ => trivial
    · refine Triple.bind (Triple.raisingWith (readTelemetry_session hread _)) fun telemetry => ?_
      exact Triple.bind (Triple.raisingWith save_session) fun _ => .pure fun _ _ _ => trivial
  refine Triple.bind (exclusive_session hK fuel hblock id).attempt fun result => ?_
  cases result with
  | ok result => exact .pure fun _ _ _ => trivial
  | error e => exact raiseFlash_session

end Flasher

/-- The operations that read from the running application. -/
inductive SerialOperation where
  | verify
  | setLed (mode : LedMode)
  | diagnostics

namespace SerialOperation

def Runs (settings : Settings) (t : Trace World) : SerialOperation → Prop
  | .verify => ∃ fuel r, Run (Flasher.verifyRunningApplication fuel settings) t r
  | .setLed mode => ∃ fuel r, Run (Flasher.setLed fuel settings mode) t r
  | .diagnostics => ∃ fuel r, Run (Flasher.diagnostics fuel settings) t r

/-- The steps after which the operation opens another session: those that fail
for a reason that is retried, and the version that `diagnostics` asks for first. -/
def Reopens (h : Trace World) (e : Event World) : SerialOperation → Prop
  | .verify => ∃ x, Flasher.sessionError e = some x
  | .setLed _ => Flasher.NoLed h ∧ ∃ x, Flasher.sessionError e = some x ∧ x.isFlashError = false
  | .diagnostics => (∃ x, Flasher.sessionError e = some x) ∨
      ∃ version : String, e = ⟨.version, (.ok version : Except Exn String)⟩

theorem guarded (op : SerialOperation) {settings : Settings} {t : Trace World}
    (h : op.Runs settings t) :
    Guarded (Flasher.SessionAllowed settings fun u e => op.Reopens u e) t := by
  cases op with
  | verify =>
    obtain ⟨fuel, r, h⟩ := h
    have hcause : ∀ (u : Trace World) (e : Event World) (x : Exn),
        Flasher.sessionError e = some x → verify.Reopens u e := fun _ _ x hx => ⟨x, hx⟩
    simpa using (Flasher.verify_session fuel hcause).invariant Guarded.nil ⟨rfl, trivial⟩ h
  | setLed mode =>
    obtain ⟨fuel, r, h⟩ := h
    have hcause : ∀ (u : Trace World) (e : Event World) (x : Exn), Flasher.NoLed u →
        Flasher.sessionError e = some x → x.isFlashError = false → (setLed mode).Reopens u e :=
      fun _ _ x hn hx hflash => ⟨hn, x, hx, hflash⟩
    simpa using (Flasher.setLed_session fuel mode hcause).invariant Guarded.nil
      ⟨rfl, fun _ he => absurd he List.not_mem_nil⟩ h
  | diagnostics =>
    obtain ⟨fuel, r, h⟩ := h
    have hcause : ∀ (u : Trace World) (e : Event World) (x : Exn),
        Flasher.sessionError e = some x → diagnostics.Reopens u e := fun _ _ x hx => .inl ⟨x, hx⟩
    have hread : ∀ (u : Trace World) (version : String),
        diagnostics.Reopens u ⟨.version, (.ok version : Except Exn String)⟩ :=
      fun _ version => .inr ⟨version, rfl⟩
    simpa using (Flasher.diagnostics_session fuel hcause hread).invariant Guarded.nil
      ⟨rfl, trivial⟩ h

/-- A run keeps to the endpoint exactly when it opens one session at most, and
it does so while no step goes in a way after which another session is opened. -/
theorem revalidated_when (op : SerialOperation) (settings : Settings) {t : Trace World}
    (h : op.Runs settings t) :
    (Flasher.Revalidated settings t ↔ (sessions t).length ≤ 1) ∧
      ((∀ u e v, t = u ++ e :: v → ¬ op.Reopens u e) → Flasher.Revalidated settings t) := by
  have hg := op.guarded h
  refine ⟨Flasher.revalidated_iff hg, fun hnone => (Flasher.revalidated_iff hg).mpr ?_⟩
  by_contra hmany
  obtain ⟨u, e, v, device, rfl, he, hopened⟩ := Flasher.exists_second
    (by omega : 2 ≤ (sessions t).length)
  obtain ⟨u₁, x, u₂, rfl, hx⟩ := ((hg u e v rfl).opened device he).2 hopened
  exact hnone u₁ x (u₂ ++ e :: v) (by simp) hx

/-! ## Two runs of the verification -/

/-- The CUL answers `V` from the step `first` on. -/
def versionAnswer (first n : ℕ) : (o : Op) → World.Ans o
  | .usb _ => Sysfs.ofDevices [cul "1-1" "ttyACM0" none] []
  | .version =>
    if n < first then (.error (.osError "no valid V response") : Except Exn String)
    else (.ok "V 1.67 CUL868" : Except Exn String)
  | o => PlannedRun.recoveredScript.answer n o

def verifyTrace (first : ℕ) : Trace World :=
  ((Flasher.verifyRunningApplication 2 PlannedRun.qemuSettings).exec (I := World)
    (versionAnswer first) 0).1

theorem verifyTrace_runs (first : ℕ) :
    verify.Runs PlannedRun.qemuSettings (verifyTrace first) :=
  ⟨2, _, Run.of_exec (I := World) _ _ _⟩

/-- After a first `V` without an answer the TTY is opened again as it was resolved. -/
theorem retry_without_lookup :
    ¬ ∀ (op : SerialOperation) (settings : Settings) (t : Trace World),
      op.Runs settings t → Flasher.Revalidated settings t := by
  intro h
  have hruns := verifyTrace_runs 9
  have hone := (Flasher.revalidated_iff (verify.guarded hruns)).mp (h _ _ _ hruns)
  have htwo : (sessions (verifyTrace 9)).length = 2 := by decide +kernel
  omega

theorem revalidated_when_answered :
    Flasher.Revalidated PlannedRun.qemuSettings (verifyTrace 0) ∧
      (sessions (verifyTrace 0)).length = 1 := by
  have hone : (sessions (verifyTrace 0)).length = 1 := by decide +kernel
  exact ⟨(revalidated_when verify PlannedRun.qemuSettings (verifyTrace_runs 0)).1.mpr (by omega),
    hone⟩

end SerialOperation
end Cul868Flasher
