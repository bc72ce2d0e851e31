import Cul868Flasher.Serial
import Mathlib.Data.List.Infix

/-!
# Answers and the way they arrive

A CUL sends its bytes before the timeout, and the reads of a session cut them
into chunks. Whether the answer depends on the cut is decided by the moment at
which a line matches for the first time: whether that line was complete.
-/

namespace Cul868Flasher.Serial
open Python Effects

/-- One way of cutting a stream into reads. -/
structure Splits (stream : List UInt8) (chunks : List (List UInt8)) : Prop where
  flatten : chunks.flatten = stream
  nonempty : ∀ chunk ∈ chunks, chunk ≠ []
  bounded : ∀ chunk ∈ chunks, chunk.length ≤ 256

/-- A CUL whose chunks arrive before the deadline, and which is silent after them. -/
def culAnswers (deadline : ℚ) (chunks left : List (List UInt8)) : (o : TtyOp) → Tty.Ans o → Prop
  | .monotonic, now =>
    let now : ℚ := now
    (chunks ≠ [] → now < deadline) ∧ left = chunks
  | .selectRead _, answer =>
    let answer : Except Exn Bool := answer
    ∃ readable, answer = .ok readable ∧ (readable = true ↔ chunks ≠ []) ∧ left = chunks
  | .read maximum, answer =>
    let answer : Except String (List UInt8) := answer
    ∃ chunk, chunks = chunk :: left ∧ chunk.length ≤ maximum ∧ answer = .ok chunk
  | .selectWrite _, _ => False
  | .write _, _ => False

def cul (deadline : ℚ) : Environment Tty Empty (List (List UInt8)) where
  answers chunks e left := culAnswers deadline chunks left e.op e.ans
  steps _ n _ := n.elim

/-- The bytes that the reads of a run have delivered. -/
def received (t : Trace Tty) : List UInt8 :=
  t.flatMap fun
    | ⟨.read _, answer⟩ => (answer : Except String (List UInt8)).toOption.getD []
    | _ => []

/-- A whole run of `p` that has written the command of `q` and then read from a
CUL that sends `chunks`. -/
def Answered {α : Type} (timeout : ℚ) (fuel : ℕ) (q : Query) (p : TtyProgram α)
    (chunks : List (List UInt8)) (t : Trace Tty) (r : Outcome Exn α) : Prop :=
  Run p t r ∧ r ≠ .cut ∧ ∃ w start u left, t = w ++ ⟨.monotonic, (start : ℚ)⟩ :: u ∧
    Run (writeAll fuel timeout q.command) w (.returned ()) ∧
    Timeline (cul (start + timeout)) chunks (u.map .call) left

/-- A line of the stream, ended there, that lies in what has been delivered. -/
def CompleteLine (stream delivered : List UInt8) (line : String) : Prop :=
  ∃ front raw b post, decodeAscii raw = some line.toList ∧ stream = front ++ raw ++ b :: post ∧
    isLineEnd b = true ∧ (∀ x ∈ raw, isLineEnd x = false) ∧
    (front = [] ∨ ∃ q c, front = q ++ [c] ∧ isLineEnd c = true) ∧ front ++ raw <+: delivered

/-- The first complete line of the stream that matches. -/
def FirstLine (q : Query) (stream : List UInt8) (line : String) : Prop :=
  ∃ raw, (Buffer.closed isLineEnd stream).find? q.accepts = some raw ∧
    decodeAscii raw = some line.toList

/-- The answer to a command does not depend on the cut of the stream. -/
structure ChunkingIndependent (timeout : ℚ) (q : Query) (stream : List UInt8) : Prop where
  answers : ∀ fuel chunks, readLimit < fuel → Splits stream chunks →
    ∃ t r, Answered timeout fuel q (requestLine fuel timeout q) chunks t r
  outcome : ∀ fuel fuel' chunks chunks' t t' r r', Splits stream chunks → Splits stream chunks' →
    Answered timeout fuel q (requestLine fuel timeout q) chunks t r →
    Answered timeout fuel' q (requestLine fuel' timeout q) chunks' t' r' → r = r'
  complete : ∀ fuel chunks t line, Splits stream chunks →
    Answered timeout fuel q (requestLine fuel timeout q) chunks t (.returned line) →
    CompleteLine stream (received t) line
  version : q = .version → ∀ line, FirstLine q stream line → Flasher.contains line "CUL868" = true →
    ∀ fuel chunks, readLimit < fuel → Splits stream chunks →
      (∃ t, Answered timeout fuel q (version fuel timeout) chunks t (.returned line)) ∧
        ∀ t r, Answered timeout fuel q (version fuel timeout) chunks t r → r = .returned line

/-- When a line of the stream matches for the first time, it is complete. -/
def Settled (q : Query) (stream : List UInt8) : Prop :=
  ∀ p rest, stream = p ++ rest → Buffer.FirstMatch isLineEnd q.accepts p →
    ∃ b post, rest = b :: post ∧ isLineEnd b = true

/-! ## What the reads come to -/

/-- The answer found in the chunks, and the bytes that had been read by then. -/
def scan (q : Query) : List UInt8 → List (List UInt8) → Except Exn String × List UInt8
  | response, [] => (.error q.unanswered, response)
  | response, chunk :: chunks =>
    match examine q (response ++ chunk) with
    | .ok (.inl response) => scan q response chunks
    | .ok (.inr line) => (.ok line, response ++ chunk)
    | .error e => (.error e, response ++ chunk)

def outcomeOf {α : Type} : Except Exn α → Outcome Exn α
  | .ok a => .returned a
  | .error e => .raised e

theorem examine_inl {q : Query} {response grown : List UInt8}
    (h : examine q response = .ok (.inl grown)) :
    grown = response ∧ response.length < readLimit := by
  rw [examine] at h
  split at h
  · split at h <;> cases h
  · split_ifs at h with hlimit
    cases h
    exact ⟨rfl, by omega⟩

/-! ## One pass of the reading loop -/

section
variable {q : Query} {deadline : ℚ} {response : List UInt8} {chunks left : List (List UInt8)}
  {u : Trace Tty}

theorem received_append (t u : Trace Tty) : received (t ++ u) = received t ++ received u :=
  List.flatMap_append ..

theorem timeline_cons {e : Event Tty}
    (h : Timeline (cul deadline) chunks ((e :: u).map .call) left) :
    ∃ next, culAnswers deadline chunks next e.op e.ans ∧
      Timeline (cul deadline) next (u.map .call) left := by
  cases h with
  | call ha h => exact ⟨_, ha, h⟩

theorem timeline_append {t : Trace Tty}
    (h : Timeline (cul deadline) chunks ((t ++ u).map .call) left) :
    ∃ next, Timeline (cul deadline) chunks (t.map .call) next ∧
      Timeline (cul deadline) next (u.map .call) left := by
  rw [List.map_append] at h
  exact h.append_inv

/-- A pass takes one chunk and looks at what has come so far; without a chunk it gives up. -/
theorem readStep_run {x : Outcome Exn (List UInt8 ⊕ String)}
    (hrun : Run (readStep q deadline response) u x) (hx : x ≠ .cut)
    (htimeline : Timeline (cul deadline) chunks (u.map .call) left)
    (hne : ∀ chunk ∈ chunks, chunk ≠ []) :
    (chunks = [] ∧ x = .raised q.unanswered ∧ received u = []) ∨
      ∃ chunk, chunks = chunk :: left ∧ received u = chunk ∧
        x = outcomeOf (examine q (response ++ chunk)) := by
  have hend {e : Exn} {v : Trace Tty} (h : Run (.raise e : TtyProgram _) v x) :
      v = [] ∧ x = .raised e := by
    obtain ⟨rfl, rfl | rfl⟩ := Run.raise_iff.mp h
    · exact ⟨rfl, rfl⟩
    · exact absurd rfl hx
  obtain ⟨(now : ℚ), u₁, rfl, h₁⟩ := Run.call_inv hrun hx
  obtain ⟨_, ⟨hclock, rfl⟩, ht₁⟩ := timeline_cons htimeline
  change Run (if deadline ≤ now then _ else _) u₁ x at h₁
  split_ifs at h₁ with hlate
  · obtain ⟨rfl, rfl⟩ := hend h₁
    refine .inl ⟨?_, rfl, rfl⟩
    by_contra hchunks
    exact absurd (hclock hchunks) (not_lt.mpr hlate)
  obtain ⟨(now' : ℚ), u₂, rfl, h₂⟩ := Run.call_inv h₁ hx
  obtain ⟨_, ⟨-, rfl⟩, ht₂⟩ := timeline_cons ht₁
  obtain ⟨(answer : Except Exn Bool), u₃, rfl, h₃⟩ := Run.call_inv h₂ hx
  obtain ⟨_, ⟨readable, hanswer, hready, rfl⟩, ht₃⟩ := timeline_cons ht₂
  dsimp only at hanswer
  subst hanswer
  cases readable with
  | false =>
    obtain ⟨rfl, rfl⟩ := hend h₃
    exact .inl ⟨by simpa using hready, rfl, rfl⟩
  | true =>
    obtain ⟨answer, u₄, rfl, h₄⟩ := Run.call_inv h₃ hx
    obtain ⟨_, ⟨chunk, rfl, -, hanswer⟩, ht₄⟩ := timeline_cons ht₃
    dsimp only at hanswer
    subst hanswer
    change Run (if chunk = [] then _ else _) u₄ x at h₄
    rw [if_neg (hne chunk List.mem_cons_self)] at h₄
    have hu : u₄ = [] ∧ x = outcomeOf (examine q (response ++ chunk)) := by
      cases hexamine : examine q (response ++ chunk) with
      | error e =>
        rw [hexamine] at h₄
        exact hend h₄
      | ok grown =>
        rw [hexamine] at h₄
        obtain ⟨rfl, rfl | rfl⟩ := Run.ret_iff.mp h₄
        · exact ⟨rfl, rfl⟩
        · exact absurd rfl hx
    obtain ⟨rfl, rfl⟩ := hu
    cases ht₄
    exact .inr ⟨chunk, rfl, by simp [received, Except.toOption], rfl⟩

/-- The chunk of a pass can be read if it fits into one read. -/
theorem readStep_exists (q : Query) (deadline : ℚ) (left : List (List UInt8))
    (response : List UInt8) {chunk : List UInt8} (hne : chunk ≠ [])
    (hlength : chunk.length ≤ min 256 (readLimit - response.length)) :
    ∃ u, Run (readStep q deadline response) u (outcomeOf (examine q (response ++ chunk))) ∧
      Timeline (cul deadline) (chunk :: left) (u.map .call) left := by
  have hbefore : deadline - 1 < deadline := by linarith
  refine ⟨[⟨.monotonic, deadline - 1⟩, ⟨.monotonic, deadline - 1⟩,
    ⟨.selectRead (max 0 (deadline - (deadline - 1))), (.ok true : Except Exn Bool)⟩,
    ⟨.read (min 256 (readLimit - response.length)), (.ok chunk : Except String (List UInt8))⟩],
    ?_, ?_⟩
  · refine .call (I := Tty) (o := .monotonic) (deadline - 1) ?_
    change Run (if deadline ≤ deadline - 1 then _ else _) _ _
    rw [if_neg (not_le.mpr hbefore)]
    refine .call (I := Tty) (o := .monotonic) (deadline - 1) (.call (I := Tty)
      (o := .selectRead (max 0 (deadline - (deadline - 1)))) (.ok true) (.call (I := Tty)
        (o := .read (min 256 (readLimit - response.length))) (.ok chunk) ?_))
    change Run (if chunk = [] then _ else _) _ _
    rw [if_neg hne]
    cases examine q (response ++ chunk) with
    | error e => exact .raised e
    | ok grown => exact .returned grown
  · exact .call ⟨fun _ => hbefore, rfl⟩ (.call ⟨fun _ => hbefore, rfl⟩
      (.call ⟨true, rfl, by simp, rfl⟩ (.call ⟨chunk, rfl, hlength, rfl⟩ (.nil left))))

theorem readStep_silent (q : Query) (deadline : ℚ) (response : List UInt8) :
    ∃ u, Run (readStep q deadline response) u (.raised q.unanswered) ∧
      Timeline (cul deadline) [] (u.map .call) [] := by
  refine ⟨[⟨.monotonic, deadline⟩], .call _ ?_, .call ⟨by simp, rfl⟩ (.nil _)⟩
  change Run (if deadline ≤ deadline then _ else _) _ _
  rw [if_pos le_rfl]
  exact .raised _

/-! ## The whole loop -/

theorem readLoop_run {n : ℕ} {r : Outcome Exn String}
    (hrun : Run (Prog.loop (readStep q deadline) n response) u r) (hr : r ≠ .cut)
    (htimeline : Timeline (cul deadline) chunks (u.map .call) left)
    (hne : ∀ chunk ∈ chunks, chunk ≠ []) :
    r = outcomeOf (scan q response chunks).1 ∧
      response ++ received u = (scan q response chunks).2 := by
  induction n generalizing response chunks u with
  | zero => exact absurd (Run.halt_iff.mp hrun).2 hr
  | succ n ih =>
    obtain ⟨x, u₁, u₂, rfl, h₁, h₂⟩ | ⟨e, rfl, h₁⟩ | ⟨rfl, -⟩ := Run.bind_inv hrun
    · obtain ⟨next, ht₁, ht₂⟩ := timeline_append htimeline
      obtain ⟨-, hx, -⟩ | ⟨chunk, rfl, hreceived, hx⟩ := readStep_run h₁ (by simp) ht₁ hne
      · cases hx
      rw [scan]
      cases hexamine : examine q (response ++ chunk) with
      | error e =>
        rw [hexamine] at hx
        cases hx
      | ok grown =>
        rw [hexamine] at hx
        cases hx
        cases x with
        | inl grown =>
          obtain ⟨rfl, -⟩ := examine_inl hexamine
          have hrest := ih h₂ ht₂ fun c hc => hne c (List.mem_cons_of_mem _ hc)
          rw [received_append, hreceived, ← List.append_assoc]
          exact hrest
        | inr line =>
          obtain ⟨rfl, rfl | rfl⟩ := Run.ret_iff.mp h₂
          · exact ⟨rfl, by rw [List.append_nil, hreceived]⟩
          · exact absurd rfl hr
    · obtain ⟨rfl, hx, hreceived⟩ | ⟨chunk, rfl, hreceived, hx⟩ :=
        readStep_run h₁ (by simp) htimeline hne
      · cases hx
        exact ⟨rfl, by rw [hreceived, List.append_nil]; rfl⟩
      · rw [scan]
        cases hexamine : examine q (response ++ chunk) with
        | error e' =>
          rw [hexamine] at hx
          cases hx
          exact ⟨rfl, by rw [hreceived]⟩
        | ok grown =>
          rw [hexamine] at hx
          cases hx
    · exact absurd rfl hr

theorem readLoop_exists (q : Query) (deadline : ℚ) (response : List UInt8) {n : ℕ}
    (hne : ∀ chunk ∈ chunks, chunk ≠ [])
    (hbounded : ∀ chunk ∈ chunks, chunk.length ≤ 256)
    (hlimit : response.length + chunks.flatten.length ≤ readLimit) (hn : chunks.length < n) :
    ∃ u left, Run (Prog.loop (readStep q deadline) n response) u
        (outcomeOf (scan q response chunks).1) ∧
      Timeline (cul deadline) chunks (u.map .call) left := by
  induction chunks generalizing response n with
  | nil =>
    obtain ⟨m, rfl⟩ : ∃ m, n = m+1 := ⟨n-1, by simp at hn; omega⟩
    obtain ⟨u, hrun, htimeline⟩ := readStep_silent q deadline response
    exact ⟨u, [], Run.bind_raised hrun, htimeline⟩
  | cons chunk chunks ih =>
    obtain ⟨m, rfl⟩ : ∃ m, n = m+1 := ⟨n-1, by simp at hn; omega⟩
    rw [List.flatten_cons, List.length_append] at hlimit
    have hchunk := hbounded chunk List.mem_cons_self
    obtain ⟨u, hrun, htimeline⟩ := readStep_exists q deadline chunks response
      (hne chunk List.mem_cons_self)
      (le_min hchunk (by omega))
    rw [scan]
    cases hexamine : examine q (response ++ chunk) with
    | error e =>
      rw [hexamine] at hrun
      exact ⟨u, chunks, Run.bind_raised hrun, htimeline⟩
    | ok x =>
      rw [hexamine] at hrun
      cases x with
      | inr line =>
        exact ⟨u ++ [], chunks, Run.bind hrun (.returned line), by simpa using htimeline⟩
      | inl grown =>
        obtain ⟨rfl, -⟩ := examine_inl hexamine
        obtain ⟨v, left, hv, htv⟩ :=
          ih (response ++ chunk) (fun c hc => hne c (List.mem_cons_of_mem _ hc))
          (fun c hc => hbounded c (List.mem_cons_of_mem _ hc))
          (n := m) (by rw [List.length_append]; omega)
          (by simp at hn; omega)
        refine ⟨u ++ v, left, Run.bind hrun hv, ?_⟩
        rw [List.map_append]
        exact htimeline.append htv

end

/-! ## The first match in what has been read -/

section
variable {q : Query} {p stream response : List UInt8} {chunks : List (List UInt8)}

/-- At its first match a line has just grown. -/
theorem firstMatch_grown (h : Buffer.FirstMatch isLineEnd q.accepts p) :
    ∃ front b, p = front ++ [b] ∧
      Buffer.openLine isLineEnd p = Buffer.openLine isLineEnd front ++ [b] ∧
      q.accepts (Buffer.openLine isLineEnd front) = false := by
  rcases List.eq_nil_or_concat p with rfl | ⟨front, b, rfl⟩
  · have hmatched := h.matched
    rw [Buffer.openLine_nil, q.not_accepts_nil] at hmatched
    cases hmatched
  · rw [List.concat_eq_append] at h ⊢
    refine ⟨front, b, rfl, ?_, h.first front (List.prefix_append _ _) (by simp)⟩
    rw [Buffer.openLine_snoc, if_neg]
    intro hb
    have hmatched := h.matched
    rw [Buffer.openLine_snoc, if_pos hb, q.not_accepts_nil] at hmatched
    cases hmatched

theorem firstMatch_text (h : Buffer.FirstMatch isLineEnd q.accepts p) :
    ∃ text, decodeAscii (Buffer.openLine isLineEnd p) = some text := by
  obtain ⟨front, b, -, hopen, hfront⟩ := firstMatch_grown h
  have hmatched := h.matched
  rw [hopen] at hmatched ⊢
  exact decodeAscii_bytes (Query.accepts_ascii hmatched hfront)

theorem examine_unmatched (h : Buffer.Unmatched isLineEnd q.accepts response) : examine q response =
    if readLimit ≤ response.length then .error q.exceeded else .ok (.inl response) := by
  rw [examine, bufferedLines_eq, Buffer.find_unmatched h]

theorem examine_firstMatch {text : List Char} (h : Buffer.FirstMatch isLineEnd q.accepts p)
    (htext : decodeAscii (Buffer.openLine isLineEnd p) = some text)
    (hresponse : response = p ∨ ∃ b more, response = p ++ b :: more ∧ isLineEnd b = true) :
    examine q response = .ok (.inr (String.ofList text)) := by
  have hfind : (bufferedLines response).find? q.accepts = some (Buffer.openLine isLineEnd p) := by
    rw [bufferedLines_eq]
    rcases hresponse with rfl | ⟨b, more, rfl, hb⟩
    · exact Buffer.find_firstMatch h
    · exact Buffer.find_after h hb
  simp only [examine, hfind, htext]

/-- In a settled stream the answer is the line of the first match, whatever the cut. -/
theorem scan_settled (response : List UInt8) (hsettled : Settled q stream)
    (hlength : stream.length ≤ readLimit) (hne : ∀ chunk ∈ chunks, chunk ≠ [])
    (hstream : response ++ chunks.flatten = stream)
    (hresponse : Buffer.Unmatched isLineEnd q.accepts response)
    (hlimit : response.length < readLimit) :
    (∃ p text, Buffer.FirstMatch isLineEnd q.accepts p ∧ p <+: stream ∧
      decodeAscii (Buffer.openLine isLineEnd p) = some text ∧
      (scan q response chunks).1 = .ok (String.ofList text) ∧ p <+: (scan q response chunks).2) ∨
    (Buffer.Unmatched isLineEnd q.accepts stream ∧ (scan q response chunks).1 =
      .error (if stream.length < readLimit then q.unanswered else q.exceeded)) := by
  induction chunks generalizing response with
  | nil =>
    rw [List.flatten_nil, List.append_nil] at hstream
    subst hstream
    exact .inr ⟨hresponse, by rw [if_pos hlimit]; rfl⟩
  | cons chunk chunks ih =>
    rw [List.flatten_cons, ← List.append_assoc] at hstream
    have hrest : ∀ c ∈ chunks, c ≠ [] := fun c hc => hne c (List.mem_cons_of_mem _ hc)
    rw [scan]
    rcases Buffer.unmatched_or_firstMatch isLineEnd q.accepts
      (response ++ chunk) with hgrown | ⟨p, ⟨more, hmore⟩, hfirst⟩
    · rw [examine_unmatched hgrown]
      by_cases hfull : readLimit ≤ (response ++ chunk).length
      · -- A full buffer holds the whole stream.
        have hall : chunks.flatten = [] := by
          rw [← List.length_eq_zero_iff]
          have hlengths := congrArg List.length hstream
          rw [List.length_append] at hlengths
          omega
        rw [hall, List.append_nil] at hstream
        subst hstream
        rw [if_pos hfull, if_neg (by omega)]
        exact .inr ⟨hgrown, rfl⟩
      · rw [if_neg hfull]
        exact ih _ hrest hstream hgrown (by omega)
    · obtain ⟨text, htext⟩ := firstMatch_text hfirst
      have hprefix : p <+: response ++ chunk := ⟨more, hmore⟩
      have hp : stream = p ++ (more ++ chunks.flatten) := by
        rw [← hstream, ← hmore, List.append_assoc]
      obtain ⟨b, post, hpost, hb⟩ := hsettled p _ hp hfirst
      have hended : response ++ chunk = p ∨
          ∃ b more, response ++ chunk = p ++ b :: more ∧ isLineEnd b = true := by
        cases more with
        | nil => exact .inl (by rw [← hmore, List.append_nil])
        | cons c more =>
          obtain ⟨rfl, -⟩ := List.cons.inj hpost
          exact .inr ⟨c, more, hmore.symm, hb⟩
      rw [examine_firstMatch hfirst htext hended]
      exact .inl ⟨p, text, hfirst, ⟨_, hp.symm⟩, htext, rfl, hprefix⟩

/-- Byte by byte, a line is taken at the moment it matches. -/
theorem scan_bytes {text : List Char} {rest more : List UInt8}
    (h : Buffer.FirstMatch isLineEnd q.accepts p)
    (htext : decodeAscii (Buffer.openLine isLineEnd p) = some text) (hlength : p.length ≤ readLimit)
    (hp : response ++ rest = p) (hrest : rest ≠ []) :
    scan q response ((rest ++ more).map fun b => [b]) = (.ok (String.ofList text), p) := by
  induction rest generalizing response with
  | nil => exact absurd rfl hrest
  | cons b rest ih =>
    rw [List.cons_append, List.map_cons, scan]
    cases rest with
    | nil =>
      rw [hp, examine_firstMatch h htext (.inl rfl)]
    | cons c rest =>
      have hsplit : response ++ [b] ++ c :: rest = p := by simpa using hp
      have hunmatched : Buffer.Unmatched isLineEnd q.accepts (response ++ [b]) := by
        intro r hr
        refine h.first r (hr.trans ⟨_, hsplit⟩) ?_
        rintro rfl
        have hle := hr.length_le
        rw [← hsplit] at hle
        simp at hle
      have hshort : ¬ readLimit ≤ (response ++ [b]).length := by
        have hlengths := congrArg List.length hsplit
        simp only [List.length_append, List.length_cons] at hlengths ⊢
        omega
      rw [examine_unmatched hunmatched, if_neg hshort]
      exact ih hsplit (by simp)

end

/-! ## From the runs to the scan -/

section
variable {q : Query} {timeout : ℚ} {fuel : ℕ} {stream : List UInt8} {chunks : List (List UInt8)}
  {t : Trace Tty}

theorem emits_writeAll {A : TtyOp → Prop} (hclock : A .monotonic)
    (hselect : ∀ timeout, A (.selectWrite timeout)) (hwrite : ∀ data, A (.write data))
    (data : List UInt8) : Emits A (writeAll fuel timeout data) := by
  refine (Emits.perform hclock).bind fun start => Emits.loop (fun view => ?_) _ _
  rw [writeStep]
  split_ifs
  · exact .pure _
  · refine (Emits.perform hclock).bind fun now => Emits.bind
      ((Emits.perform (hselect _)).bind fun answer => .ofExcept answer) fun writable => ?_
    cases writable with
    | false => exact .raise _
    | true =>
      refine (Emits.perform (hwrite _)).bind fun written => ?_
      cases written with
      | error err => exact .raise _
      | ok written =>
        dsimp only
        split_ifs
        · exact .raise _
        · exact .pure _

theorem received_writeAll {data : List UInt8} {r : Outcome Exn Unit}
    (h : Run (writeAll fuel timeout data) t r) : received t = [] := by
  have hall := (emits_writeAll (A := fun o => ∀ maximum, o ≠ .read maximum) (by simp) (by simp)
    (by simp) data).run h
  refine List.flatMap_eq_nil_iff.mpr fun e he => ?_
  obtain ⟨o, a⟩ := e
  cases o with
  | read maximum => exact absurd rfl (hall _ he maximum)
  | _ => rfl

theorem writeAll_exists (timeout : ℚ) {data : List UInt8} (hdata : data ≠ []) (hfuel : 2 ≤ fuel) :
    ∃ w, Run (writeAll fuel timeout data) w (.returned ()) := by
  obtain ⟨n, rfl⟩ : ∃ n, fuel = n+2 := ⟨fuel-2, by omega⟩
  have hpass : ∃ w, Run (writeStep (0 + timeout) data) w (.returned (.inl [])) := by
    refine ⟨[⟨.monotonic, (0 : ℚ)⟩,
      ⟨.selectWrite (max 0 (0 + timeout - 0)), (.ok true : Except Exn Bool)⟩,
      ⟨.write data, (.ok data.length : Except String ℤ)⟩], ?_⟩
    rw [writeStep, if_neg hdata]
    refine .call (I := Tty) (o := .monotonic) (0 : ℚ) (.call (I := Tty)
      (o := .selectWrite (max 0 (0 + timeout - 0))) (.ok true) (.call (I := Tty) (o := .write data)
        (.ok data.length) ?_))
    have hpositive : ¬ (data.length : ℤ) ≤ 0 := by
      have hlength := List.length_pos_iff.mpr hdata
      omega
    change Run (if (data.length : ℤ) ≤ 0 then _ else _) _ _
    rw [if_neg hpositive, Int.toNat_natCast, List.drop_length]
    exact .returned _
  obtain ⟨w, hw⟩ := hpass
  have hdone : Run (writeStep (0 + timeout) []) [] (.returned (.inr ())) := by
    rw [writeStep, if_pos rfl]
    exact .returned _
  have hstop : Run (Prog.loop (writeStep (0 + timeout)) (n+1) []) ([] ++ []) (.returned ()) :=
    Run.bind hdone (.returned ())
  have hloop : Run (Prog.loop (writeStep (0 + timeout)) (n+2) data) (w ++ ([] ++ []))
      (.returned ()) :=
    Run.bind hw hstop
  exact ⟨_, .call (I := Tty) (o := .monotonic) (0 : ℚ) hloop⟩

theorem answered_scan {r : Outcome Exn String} (hne : ∀ chunk ∈ chunks, chunk ≠ [])
    (h : Answered timeout fuel q (requestLine fuel timeout q) chunks t r) :
    r = outcomeOf (scan q [] chunks).1 ∧ received t = (scan q [] chunks).2 := by
  obtain ⟨hrun, hr, w, start, u, left, rfl, hwrite, htimeline⟩ := h
  have hread := Run.bind_resume hwrite hrun
  cases hread with
  | call _ hread =>
    obtain ⟨hscan, hreceived⟩ := readLoop_run hread hr htimeline hne
    refine ⟨hscan, ?_⟩
    rw [received_append, received_writeAll hwrite]
    exact hreceived

theorem length_le_flatten (hne : ∀ chunk ∈ chunks, chunk ≠ []) :
    chunks.length ≤ chunks.flatten.length := by
  induction chunks with
  | nil => simp
  | cons chunk chunks ih =>
    have hrest := ih fun c hc => hne c (List.mem_cons_of_mem _ hc)
    have hchunk := List.length_pos_iff.mpr (hne chunk List.mem_cons_self)
    rw [List.flatten_cons, List.length_append, List.length_cons]
    omega

theorem answered_exists (timeout : ℚ) (hfuel : readLimit < fuel) (hsplits : Splits stream chunks)
    (hlength : stream.length ≤ readLimit) :
    ∃ t, Answered timeout fuel q (requestLine fuel timeout q) chunks t
      (outcomeOf (scan q [] chunks).1) := by
  have hcommand : q.command ≠ [] := by cases q <;> decide
  obtain ⟨w, hw⟩ := writeAll_exists timeout hcommand
    (show 2 ≤ fuel by rw [readLimit] at hfuel; omega)
  have hcount := length_le_flatten hsplits.nonempty
  rw [hsplits.flatten] at hcount
  obtain ⟨u, left, hu, htimeline⟩ :=
    readLoop_exists q (0 + timeout) [] (n := fuel) hsplits.nonempty hsplits.bounded
    (by rw [hsplits.flatten]; simpa using hlength) (by omega)
  refine ⟨w ++ ⟨.monotonic, (0 : ℚ)⟩ :: u,
    Run.bind hw (.call (I := Tty) (o := .monotonic) (0 : ℚ) hu),
    ?_, w, 0, u, left, rfl, hw, htimeline⟩
  cases (scan q [] chunks).1 <;> simp [outcomeOf]

/-! ## The two directions -/

theorem completeLine_of_firstMatch {p delivered : List UInt8} {text : List Char}
    (hsettled : Settled q stream) (hfirst : Buffer.FirstMatch isLineEnd q.accepts p)
    (hp : p <+: stream) (htext : decodeAscii (Buffer.openLine isLineEnd p) = some text)
    (hdelivered : p <+: delivered) : CompleteLine stream delivered (String.ofList text) := by
  obtain ⟨rest, hrest⟩ := hp
  obtain ⟨b, post, rfl, hb⟩ := hsettled p rest hrest.symm hfirst
  obtain ⟨front, hsplit, hfront⟩ := Buffer.openLine_split isLineEnd p
  refine ⟨front, Buffer.openLine isLineEnd p, b,
    post, by rw [String.toList_ofList]; exact htext, ?_,
    hb, Buffer.openLine_open p, hfront, ?_⟩
  · rw [← hsplit, hrest]
  · rw [← hsplit]
    exact hdelivered

/-- In a settled stream the first version line has no more than its prefix. -/
theorem settled_version {line : String} (hsettled : Settled .version stream)
    (hline : FirstLine .version stream line) : Flasher.contains line "CUL868" = false := by
  obtain ⟨raw, hfind, hraw⟩ := hline
  have haccepts := List.find?_some hfind
  obtain ⟨front, c, rest, rfl, hc, hfront⟩ := Buffer.mem_closed (List.mem_of_find?_eq_some hfind)
  have hmatched : ¬ Buffer.Unmatched isLineEnd Query.version.accepts (front ++ c :: rest) := by
    intro hnone
    have hrefused := hnone front (List.prefix_append _ _)
    rw [hfront, haccepts] at hrefused
    cases hrefused
  obtain ⟨p, ⟨more, hmore⟩, hfirst⟩ := (Buffer.unmatched_or_firstMatch isLineEnd
    Query.version.accepts (front ++ c :: rest)).resolve_left hmatched
  obtain ⟨b, post, rfl, hb⟩ := hsettled p more hmore.symm hfirst
  have hopen : raw = Buffer.openLine isLineEnd p := by
    have hprefix : Buffer.closed isLineEnd (p ++ [b]) <+:
        Buffer.closed isLineEnd (p ++ [b] ++ post) := Buffer.closed_append _ _
    rw [Buffer.closed_snoc, if_pos hb, List.append_assoc, List.singleton_append, hmore] at hprefix
    obtain ⟨later, hlater⟩ := hprefix
    rw [← hlater, List.find?_append, List.find?_append, Buffer.find_closed hfirst.first,
      Option.none_or, List.find?_singleton, hfirst.matched] at hfind
    exact (Option.some.inj hfind).symm
  obtain ⟨short, b', -, hgrown, hshort⟩ := firstMatch_grown hfirst
  have hminimal := hfirst.matched
  rw [hgrown] at hminimal
  have hprefix := Query.version_minimal hminimal hshort
  rw [← hgrown, ← hopen] at hprefix
  have hnone : ∀ start ∈ versionPrefixes, Flasher.contains
      (String.ofList (start.map fun b => Char.ofNat b.toNat)) "CUL868" = false := by decide
  have hrefused := hnone raw hprefix
  rwa [← (decodeAscii_iff.mp hraw).2, String.ofList_toList] at hrefused

theorem independent_of_settled (timeout : ℚ) (hlength : stream.length ≤ readLimit)
    (hsettled : Settled q stream) : ChunkingIndependent timeout q stream := by
  have hscan {chunks : List (List UInt8)} (hsplits : Splits stream chunks) :=
    scan_settled [] hsettled hlength hsplits.nonempty
      (by rw [List.nil_append, hsplits.flatten])
      (fun r hr => by rw [List.prefix_nil.mp hr, Buffer.openLine_nil, q.not_accepts_nil])
      (by decide)
  constructor
  · intro fuel chunks hfuel hsplits
    obtain ⟨t, ht⟩ := answered_exists timeout hfuel hsplits hlength
    exact ⟨t, _, ht⟩
  · intro fuel fuel' chunks chunks' t t' r r' hsplits hsplits' h h'
    rw [(answered_scan hsplits.nonempty h).1, (answered_scan hsplits'.nonempty h').1]
    obtain ⟨p, text, hp, hpre, htext, hanswer, -⟩ | ⟨hnone, hanswer⟩ := hscan hsplits
    · obtain ⟨p', text', hp', hpre', htext', hanswer', -⟩ | ⟨hnone, -⟩ := hscan hsplits'
      · obtain rfl := hp.unique hp' hpre hpre'
        rw [htext] at htext'
        rw [hanswer, hanswer', Option.some.inj htext']
      · have hrefused := hnone p hpre
        rw [hp.matched] at hrefused
        cases hrefused
    · obtain ⟨p', text', hp', hpre', -, -, -⟩ | ⟨-, hanswer'⟩ := hscan hsplits'
      · have hrefused := hnone p' hpre'
        rw [hp'.matched] at hrefused
        cases hrefused
      · rw [hanswer, hanswer']
  · intro fuel chunks t line hsplits h
    obtain ⟨hr, hreceived⟩ := answered_scan hsplits.nonempty h
    rw [hreceived]
    obtain ⟨p, text, hp, hpre, htext, hanswer, hdelivered⟩ | ⟨-, hanswer⟩ := hscan hsplits
    · rw [hanswer] at hr
      cases hr
      exact completeLine_of_firstMatch hsettled hp hpre htext hdelivered
    · rw [hanswer] at hr
      cases hr
  · rintro rfl line hline hcul
    rw [settled_version hsettled hline] at hcul
    cases hcul

theorem settled_of_independent (hlength : stream.length ≤ readLimit)
    (h : ChunkingIndependent timeout q stream) : Settled q stream := by
  intro p rest hp hfirst
  obtain ⟨text, htext⟩ := firstMatch_text hfirst
  have hne : p ≠ [] := by
    obtain ⟨front, b, rfl, -⟩ := firstMatch_grown hfirst
    simp
  have hsplits : Splits stream (stream.map fun b => [b]) :=
    ⟨by rw [← List.flatMap_def, List.flatMap_singleton'], by simp, by simp⟩
  obtain ⟨t, r, ht⟩ := h.answers _ _ (Nat.lt_succ_self readLimit) hsplits
  obtain ⟨hr, hreceived⟩ := answered_scan hsplits.nonempty ht
  have hplength : p.length ≤ readLimit := by
    have hlengths := congrArg List.length hp
    rw [List.length_append] at hlengths
    omega
  have hscan : scan q [] (stream.map fun b => [b]) = (.ok (String.ofList text), p) := by
    rw [hp]
    exact scan_bytes hfirst htext hplength rfl hne
  rw [hscan] at hr hreceived
  subst hr
  obtain ⟨front, raw, b, post, hraw, hstream, hb, hopen, hfront, hdelivered⟩ :=
    h.complete _ _ _ _ hsplits ht
  rw [hreceived] at hdelivered
  -- The line that is complete is the one that has matched.
  have hrawline : raw = Buffer.openLine isLineEnd p :=
    decodeAscii_injective hraw (by rw [String.toList_ofList]; exact htext)
  have hend : Buffer.openLine isLineEnd (front ++ raw) = raw :=
    Buffer.openLine_of_split hfront hopen
  have hwhole : front ++ raw = p := by
    by_contra hother
    have hrefused := hfirst.first _ hdelivered hother
    rw [hend, hrawline, hfirst.matched] at hrefused
    cases hrefused
  rw [hwhole, hp] at hstream
  exact ⟨b, post, List.append_cancel_left hstream, hb⟩

end

/-- The answer is independent of the cut exactly if the first line that comes to
match in the stream is complete at that moment. -/
theorem chunking_independent_iff (timeout : ℚ) (q : Query) {stream : List UInt8}
    (hlength : stream.length ≤ readLimit) :
    ChunkingIndependent timeout q stream ↔ Settled q stream :=
  ⟨settled_of_independent hlength, independent_of_settled timeout hlength⟩

theorem chunking_independent_mode : ChunkingIndependent 3 .mbus (bytes "TMODE\r\n") := by
  refine (chunking_independent_iff 3 .mbus (by decide)).mpr fun p rest hp hfirst => ?_
  have hall : ∀ n ≤ 7, Query.mbus.accepts (Buffer.openLine isLineEnd ((bytes "TMODE\r\n").take n)) =
      true → (bytes "TMODE\r\n").drop n = [13, 10] := by decide
  have hlength : p.length ≤ 7 := by
    have hlengths := congrArg List.length hp
    rw [List.length_append, show (bytes "TMODE\r\n").length = 7 by decide] at hlengths
    omega
  have hrest := hall p.length hlength
  rw [hp, List.take_left, List.drop_left] at hrest
  exact ⟨13, [10], hrest hfirst.matched, by decide⟩

/-- Two bytes of the answer are enough for the version line to match. -/
theorem version_depends_on_chunks :
    ¬ ∀ timeout q stream, stream.length ≤ readLimit → ChunkingIndependent timeout q stream := by
  intro h
  have hsettled := (chunking_independent_iff 3 .version (by decide)).mp
    (h 3 .version (bytes "V 1.67 CUL868\r\n") (by decide))
  have hinits : ∀ p ∈ (bytes "V ").inits, p ≠ bytes "V " →
      Query.version.accepts (Buffer.openLine isLineEnd p) = false := by decide
  have hfirst : Buffer.FirstMatch isLineEnd Query.version.accepts (bytes "V ") :=
    ⟨by decide, fun p hp => hinits p ((List.mem_inits _ _).mpr hp)⟩
  obtain ⟨b, post, hrest, hb⟩ := hsettled (bytes "V ") (bytes "1.67 CUL868\r\n") (by decide) hfirst
  rw [← (List.cons.inj hrest).1] at hb
  exact absurd hb (by decide)

end Cul868Flasher.Serial
