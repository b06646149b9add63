import RequestsNative.Transport.HeadIo
import RequestsNative.Transport.Httparse

/-!
# The write side of the stream

Accepted bytes wait in the stream until a later call sends them. What the peer has received followed by what
waits is the invariant of the write side: for a plain request it is everything accepted, and for a Python
request it is everything accepted with its head rewritten, as long as the head does not come in pieces that
the stream takes for heads of their own.
-/

namespace RequestsNative.Transport

open RequestsNative.Lib ResponseHeadState

/-! ### Draining -/

/-- Nothing waits that was sent. -/
def Tidy (io : ResponseHeadIo) : Prop :=
  io.outgoingOffset < io.outgoing.length ∨ (io.outgoing = [] ∧ io.outgoingOffset = 0)

/-- What the peer has or will have, if nothing more is accepted. -/
def ResponseHeadIo.promised (io : ResponseHeadIo) : Bytes := io.inner.received ++ io.unsent

theorem Tidy.unsent_nil {io : ResponseHeadIo} (h : Tidy io) (hunsent : io.unsent = []) :
    io.outgoing = [] ∧ io.outgoingOffset = 0 := by
  rcases h with hlt | hempty
  · rw [ResponseHeadIo.unsent, List.drop_eq_nil_iff] at hunsent
    omega
  · exact hempty

theorem unsent_of_outgoing_nil {io : ResponseHeadIo} (h : io.outgoing = []) : io.unsent = [] := by
  rw [ResponseHeadIo.unsent, h, List.drop_nil]

/-- What draining leaves alone. -/
structure Drains (io other : ResponseHeadIo) : Prop where
  tidy : Tidy other
  promised : other.promised = io.promised
  observation : other.observation = io.observation
  headComplete : other.outgoingHeadComplete = io.outgoingHeadComplete
  generation : other.generation = io.generation

theorem drains_done {io : ResponseHeadIo} (h : ¬io.outgoingOffset < io.outgoing.length) :
    Drains io { io with outgoing := [], outgoingOffset := 0 } := by
  refine ⟨.inr ⟨rfl, rfl⟩, ?_, rfl, rfl, rfl⟩
  have hunsent : io.unsent = [] := by
    rw [ResponseHeadIo.unsent, List.drop_eq_nil_iff]
    omega
  rw [ResponseHeadIo.promised, ResponseHeadIo.promised, hunsent]
  rfl

theorem promised_send (io : ResponseHeadIo) (written : Nat) :
    ResponseHeadIo.promised { io with
      inner := { io.inner with received := io.inner.received ++ io.unsent.take written }
      outgoingOffset := io.outgoingOffset + written } = io.promised := by
  simp only [ResponseHeadIo.promised, ResponseHeadIo.unsent, List.append_assoc]
  rw [← List.drop_drop, List.take_append_drop]

theorem pollDrainOutgoing_drains (script : List InnerWrite) (io : ResponseHeadIo) :
    Drains io (io.pollDrainOutgoing script).2.1 ∧
      ((io.pollDrainOutgoing script).1 = .ready (.ok ()) → (io.pollDrainOutgoing script).2.1.outgoing = []) := by
  induction script generalizing io with
  | nil =>
      unfold ResponseHeadIo.pollDrainOutgoing
      split
      · rename_i hlt
        exact ⟨⟨.inl hlt, rfl, rfl, rfl, rfl⟩, nofun⟩
      · rename_i hdone
        exact ⟨drains_done hdone, fun _ => rfl⟩
  | cons first rest ih =>
      unfold ResponseHeadIo.pollDrainOutgoing
      split
      · rename_i hlt
        cases first with
        | pending => exact ⟨⟨.inl hlt, rfl, rfl, rfl, rfl⟩, nofun⟩
        | error error => exact ⟨⟨.inl hlt, rfl, rfl, rfl, rfl⟩, nofun⟩
        | ready amount =>
            simp only
            split
            · exact ⟨⟨.inl hlt, rfl, rfl, rfl, rfl⟩, nofun⟩
            · have hsend := promised_send io (min amount io.unsent.length)
              obtain ⟨hdrains, hdone⟩ := ih { io with
                inner := { io.inner with
                  received := io.inner.received ++ io.unsent.take (min amount io.unsent.length) }
                outgoingOffset := io.outgoingOffset + min amount io.unsent.length }
              exact ⟨⟨hdrains.tidy, hdrains.promised.trans hsend, hdrains.observation, hdrains.headComplete,
                hdrains.generation⟩, hdone⟩
      · rename_i hdone
        exact ⟨drains_done hdone, fun _ => rfl⟩

theorem drainBeforeWrite_drains (script : List InnerWrite) {io : ResponseHeadIo} (h : Tidy io) :
    Drains io (io.drainBeforeWrite script).2.1 ∧
      ((io.drainBeforeWrite script).1 = .ready (.ok ()) → (io.drainBeforeWrite script).2.1.outgoing = []) := by
  unfold ResponseHeadIo.drainBeforeWrite
  split
  · exact pollDrainOutgoing_drains script io
  · rename_i hdone
    exact ⟨⟨h, rfl, rfl, rfl, rfl⟩, fun _ => (h.resolve_left hdone).1⟩

/-- A flush drains, and succeeds only if it drained everything. -/
theorem pollFlush_drains (io : ResponseHeadIo) (script : List InnerWrite) (flushed : Poll (Except IoError Unit)) :
    Drains io (io.pollFlush script flushed).2 ∧
      ((io.pollFlush script flushed).1 = .ready (.ok ()) → (io.pollFlush script flushed).2.outgoing = []) := by
  obtain ⟨hdrains, hdone⟩ := pollDrainOutgoing_drains script io
  unfold ResponseHeadIo.pollFlush
  generalize io.pollDrainOutgoing script = drained at hdrains hdone
  obtain ⟨result, io', rest⟩ := drained
  split <;> rename_i heq <;> cases heq
  · exact ⟨hdrains, fun _ => hdone rfl⟩
  · exact ⟨hdrains, hdone⟩

theorem pollFlush_empty {io : ResponseHeadIo} (h : io.outgoing = []) (script : List InnerWrite)
    (flushed : Poll (Except IoError Unit)) : (io.pollFlush script flushed).2.outgoing = [] := by
  unfold ResponseHeadIo.pollFlush
  rw [ResponseHeadIo.pollDrainOutgoing.eq_def, if_neg (by simp [h])]

/-! ### Writing -/

/-- The bytes of a write that were accepted. -/
def acceptedBytes : IoOp × IoAnswer → Bytes
  | (.write _ buffer, .write (.ready (.ok amount))) => buffer.take amount
  | _ => []

/-- What a write can do: nothing but drain, give the buffer to the socket, or take it. -/
inductive WriteOutcome (io : ResponseHeadIo) (buffer : Bytes) :
    Poll (Except IoError Nat) × ResponseHeadIo → Prop
  | refuses {result : Poll (Except IoError Nat)} {io' : ResponseHeadIo} : Drains io io' →
      (∀ amount, result ≠ .ready (.ok amount)) → WriteOutcome io buffer (result, io')
  | passes {amount : Nat} {drained : ResponseHeadIo} : Drains io drained → drained.outgoing = [] →
      drained.outgoingHeadComplete = true →
        WriteOutcome io buffer (.ready (.ok amount), { drained with
          inner := { drained.inner with received := drained.inner.received ++ buffer.take amount } })
  | takes {drained : ResponseHeadIo} : Drains io drained → drained.outgoing = [] →
      drained.outgoingHeadComplete = false →
        WriteOutcome io buffer (.ready (.ok buffer.length), drained.acceptBuffer buffer)

theorem pollWrite_outcome (io : ResponseHeadIo) (h : Tidy io.syncGeneration) (script : List InnerWrite) (buffer : Bytes) :
    WriteOutcome io.syncGeneration buffer (io.pollWrite script buffer) := by
  obtain ⟨hdrains, hdone⟩ := drainBeforeWrite_drains script h
  unfold ResponseHeadIo.pollWrite
  generalize io.syncGeneration.drainBeforeWrite script = drained at hdrains hdone
  obtain ⟨result, drained, rest⟩ := drained
  split <;> rename_i heq <;> cases heq
  · exact .refuses hdrains (fun _ h => by cases h)
  · exact .refuses hdrains (fun _ h => by cases h)
  · have hempty := hdone rfl
    split
    · rename_i hcomplete
      unfold Socket.pollWrite
      split
      · exact .refuses hdrains (fun _ h => by cases h)
      · exact .refuses hdrains (fun _ h => by cases h)
      · exact .refuses hdrains (fun _ h => by cases h)
      · exact .passes hdrains hempty hcomplete
    · rename_i hincomplete
      exact .takes hdrains hempty (by simpa using hincomplete)

/-- The end of a head. -/
def headEnd (bytes : Bytes) : Option Nat := position (text "\r\n\r\n") bytes

theorem rewrite_incomplete (state : ResponseHeadState) {bytes : Bytes} (h : headEnd bytes = none) :
    state.rewritePythonRequestHead bytes = bytes := by
  rw [headEnd] at h
  unfold rewritePythonRequestHead
  split
  · rfl
  · simp only [h]

/-- What taking a buffer does to a stream that holds nothing back. -/
structure Takes (io other : ResponseHeadIo) (buffer : Bytes) : Prop where
  tidy : Tidy other
  promised : other.promised = io.promised ++ io.observation.rewritePythonRequestHead buffer
  observation : other.observation = io.observation
  headComplete : other.outgoingHeadComplete = (io.outgoingHeadComplete || (headEnd buffer).isSome)
  generation : other.generation = io.generation

theorem acceptBuffer_takes {io : ResponseHeadIo} (hempty : io.outgoing = []) (htidy : Tidy io) (buffer : Bytes) :
    Takes io (io.acceptBuffer buffer) buffer := by
  have hoffset : io.outgoingOffset = 0 := (htidy.unsent_nil (unsent_of_outgoing_nil hempty)).2
  have hwait : ∀ held complete, Tidy { io with outgoing := held, outgoingHeadComplete := complete } := by
    intro held complete
    cases held with
    | nil => exact .inr ⟨rfl, hoffset⟩
    | cons b rest => exact .inl (by simp [hoffset])
  have hpromised : ∀ held complete,
      ResponseHeadIo.promised { io with outgoing := held, outgoingHeadComplete := complete } = io.promised ++ held := by
    intro held complete
    simp [ResponseHeadIo.promised, ResponseHeadIo.unsent, hempty, hoffset]
  unfold ResponseHeadIo.acceptBuffer
  simp only [hempty, List.nil_append]
  split
  · rename_i hsome
    exact ⟨hwait _ true, hpromised _ true, rfl, by simp [headEnd, hsome], rfl⟩
  · rename_i hnone
    have hincomplete : headEnd buffer = none := by simpa [headEnd] using hnone
    refine ⟨hwait buffer _, ?_, rfl, by simp [hincomplete], rfl⟩
    rw [rewrite_incomplete io.observation hincomplete]
    exact hpromised buffer _

/-- Bytes that go straight to the socket come after everything promised. -/
theorem promised_pass {io : ResponseHeadIo} (hempty : io.outgoing = []) (bytes : Bytes) :
    ResponseHeadIo.promised { io with inner := { io.inner with received := io.inner.received ++ bytes } } =
      io.promised ++ bytes := by
  simp [ResponseHeadIo.promised, ResponseHeadIo.unsent, hempty]

/-- A call has taken note of the request when it is done. -/
theorem syncGeneration_synced (io : ResponseHeadIo) :
    io.syncGeneration.observation.generation = io.syncGeneration.generation := by
  unfold ResponseHeadIo.syncGeneration
  split
  · rfl
  · rename_i hsame
    exact not_not.mp hsame

/-- A write that refuses accepts nothing. -/
theorem acceptedBytes_refused {script : List InnerWrite} {buffer : Bytes} {result : Poll (Except IoError Nat)}
    (h : ∀ amount, result ≠ .ready (.ok amount)) : acceptedBytes (.write script buffer, .write result) = [] := by
  unfold acceptedBytes
  split
  · rename_i heq
    obtain ⟨-, heq⟩ := Prod.mk.inj heq
    cases heq
    exact absurd rfl (h _)
  · rfl

/-! ### Reads and the write side -/

/-- Observing a response keeps the generation and sets no header names. -/
structure KeepsRequest (state other : ResponseHeadState) : Prop where
  generation : other.generation = state.generation
  names : state.pythonHeaderNames = none → other.pythonHeaderNames = none

theorem inspect_keeps (parser : HeadParser) (state : ResponseHeadState) :
    KeepsRequest state (inspectCompleteResponseHead parser state) := by
  unfold inspectCompleteResponseHead
  split <;> exact ⟨rfl, id⟩

theorem takeNormalized_keeps (state : ResponseHeadState) : KeepsRequest state (takeNormalizedPythonResponse state).2 := by
  unfold takeNormalizedPythonResponse
  split <;> exact ⟨rfl, id⟩

theorem takeNormalized_inspect_keeps (parser : HeadParser) (state : ResponseHeadState) (captured : Bytes) :
    KeepsRequest state
      (takeNormalizedPythonResponse (inspectCompleteResponseHead parser { state with captured })).2 := by
  have hinspect := inspect_keeps parser { state with captured }
  have htake := takeNormalized_keeps (inspectCompleteResponseHead parser { state with captured })
  exact ⟨htake.generation.trans hinspect.generation, fun h => htake.names (hinspect.names h)⟩

theorem observe_keeps (parser : HeadParser) (state : ResponseHeadState) (bytes : Bytes) :
    KeepsRequest state (state.observe parser bytes) := by
  unfold observe
  split
  · exact ⟨rfl, id⟩
  · have hinspect := inspect_keeps parser
      { state with captured := state.captured ++ bytes.take (maxResponseHeadBytes - state.captured.length) }
    exact ⟨hinspect.generation, hinspect.names⟩

theorem buffer_keeps (parser : HeadParser) (state : ResponseHeadState) (bytes : Bytes) :
    KeepsRequest state (state.bufferPythonResponseBytes parser bytes).2 := by
  unfold bufferPythonResponseBytes
  simp only
  split
  · exact ⟨rfl, fun _ => rfl⟩
  · exact takeNormalized_inspect_keeps parser state _

theorem completePython_keeps (parser : HeadParser) (state : ResponseHeadState) :
    KeepsRequest state (state.completePythonResponseOnEof parser).2 := by
  unfold completePythonResponseOnEof
  split
  · exact ⟨rfl, id⟩
  · simp only
    split
    · exact ⟨rfl, id⟩
    · exact takeNormalized_inspect_keeps parser state _

theorem completeOnEof_keeps (parser : HeadParser) (state : ResponseHeadState) :
    KeepsRequest state (state.completeOnEof parser).2 := by
  unfold completeOnEof
  split
  · exact ⟨rfl, id⟩
  · simp only
    split
    · exact ⟨rfl, id⟩
    · split
      · exact ⟨rfl, id⟩
      · split <;> exact ⟨rfl, id⟩

/-- What a read leaves alone. -/
structure KeepsWrites (io other : ResponseHeadIo) : Prop where
  received : other.inner.received = io.inner.received
  outgoing : other.outgoing = io.outgoing
  offset : other.outgoingOffset = io.outgoingOffset
  headComplete : other.outgoingHeadComplete = io.outgoingHeadComplete
  generation : other.generation = io.generation
  request : KeepsRequest io.observation other.observation

theorem Socket.pollRead_received (socket : Socket) (arrival : Arrival) (room : Nat) :
    (socket.pollRead arrival room).2.received = socket.received := by
  cases arrival <;> rfl

theorem pollReadHead_keepsWrites (parser : HeadParser) (io : ResponseHeadIo) (room : Nat) (arrival : Arrival) :
    KeepsWrites io (io.pollReadHead parser room arrival).2 := by
  have hreceived := Socket.pollRead_received io.inner arrival 8192
  unfold ResponseHeadIo.pollReadHead
  generalize io.inner.pollRead arrival 8192 = answer at hreceived
  obtain ⟨result, inner⟩ := answer
  split <;> rename_i heq <;> cases heq
  · exact ⟨hreceived, rfl, rfl, rfl, rfl, ⟨rfl, id⟩⟩
  · exact ⟨hreceived, rfl, rfl, rfl, rfl, ⟨rfl, id⟩⟩
  · split
    · simp only
      split <;> exact ⟨hreceived, rfl, rfl, rfl, rfl, completePython_keeps parser io.observation⟩
    · simp only
      split <;> exact ⟨hreceived, rfl, rfl, rfl, rfl, buffer_keeps parser io.observation _⟩

theorem pollRead_keepsWrites (parser : HeadParser) (io : ResponseHeadIo) (room : Nat) (arrival : Arrival) :
    KeepsWrites io.syncGeneration (io.pollRead parser room arrival).2 := by
  unfold ResponseHeadIo.pollRead
  generalize io.syncGeneration = io
  have hreceived := Socket.pollRead_received io.inner arrival room
  simp only
  split
  · exact ⟨rfl, rfl, rfl, rfl, rfl, ⟨rfl, id⟩⟩
  · split
    · exact pollReadHead_keepsWrites parser io room arrival
    · generalize io.inner.pollRead arrival room = answer at hreceived
      obtain ⟨result, inner⟩ := answer
      split <;> rename_i heq <;> cases heq
      · exact ⟨hreceived, rfl, rfl, rfl, rfl, ⟨rfl, id⟩⟩
      · exact ⟨hreceived, rfl, rfl, rfl, rfl, ⟨rfl, id⟩⟩
      · split
        · split <;> exact ⟨hreceived, rfl, rfl, rfl, rfl, completeOnEof_keeps parser io.observation⟩
        · exact ⟨hreceived, rfl, rfl, rfl, rfl, observe_keeps parser io.observation _⟩

/-! ### Plain requests, one after the other -/

/-- A stream and everything it has accepted. -/
structure WriteSystem where
  io : ResponseHeadIo
  accepted : Bytes

inductive ConnectionOp
  | begin
  | io (op : IoOp)

namespace WriteSystem

/-- A new request begins only when everything accepted was sent. -/
def step (parser : HeadParser) (s : WriteSystem) : ConnectionOp → Option (Option IoAnswer × WriteSystem)
  | .begin => if s.io.inner.received = s.accepted then some (none, { s with io := s.io.begin none }) else none
  | .io op =>
      let (answer, io) := ioStep parser s.io op
      some (some answer, ⟨io, s.accepted ++ acceptedBytes (op, answer)⟩)

def machine (parser : HeadParser) : Machine WriteSystem ConnectionOp (Option IoAnswer) := ⟨step parser⟩

def start (unread : Bytes) : WriteSystem := ⟨.new ⟨unread, []⟩ {}, []⟩

/-- Everything accepted was received or waits, and nothing waits that the next call would forget. -/
structure Inv (s : WriteSystem) : Prop where
  tidy : Tidy s.io
  promised : s.io.promised = s.accepted
  names : s.io.observation.pythonHeaderNames = none
  forgotten : s.io.observation.generation ≠ s.io.generation → s.io.outgoing = []

theorem inv_start (unread : Bytes) : (start unread).Inv := ⟨.inr ⟨rfl, rfl⟩, rfl, rfl, fun _ => rfl⟩

/-- Forgetting nothing, the stream is as before. -/
theorem Inv.sync {s : WriteSystem} (h : s.Inv) :
    Tidy s.io.syncGeneration ∧ s.io.syncGeneration.promised = s.accepted ∧
      s.io.syncGeneration.observation = s.io.observation ∧
      s.io.syncGeneration.generation = s.io.observation.generation := by
  unfold ResponseHeadIo.syncGeneration
  split
  · rename_i hstale
    refine ⟨.inr ⟨rfl, rfl⟩, ?_, rfl, rfl⟩
    rw [← h.promised, ResponseHeadIo.promised, ResponseHeadIo.promised, unsent_of_outgoing_nil (h.forgotten hstale)]
    rfl
  · rename_i hsame
    exact ⟨h.tidy, h.promised, rfl, (not_not.mp hsame).symm⟩

theorem Inv.write {s : WriteSystem} (h : s.Inv) (script : List InnerWrite) (buffer : Bytes) :
    Inv ⟨(s.io.pollWrite script buffer).2,
      s.accepted ++ acceptedBytes (.write script buffer, .write (s.io.pollWrite script buffer).1)⟩ := by
  obtain ⟨htidy, hpromised, hobservation, hgeneration⟩ := h.sync
  have houtcome := pollWrite_outcome s.io htidy script buffer
  generalize s.io.pollWrite script buffer = result at houtcome
  cases houtcome with
  | @refuses answer io' hdrains hrefused =>
      refine ⟨hdrains.tidy, ?_, ?_, ?_⟩
      · simp only [acceptedBytes_refused hrefused, List.append_nil]
        exact hdrains.promised.trans hpromised
      · rw [hdrains.observation, hobservation]
        exact h.names
      · rw [hdrains.observation, hdrains.generation, hobservation, hgeneration]
        exact fun hne => absurd rfl hne
  | @passes amount drained hdrains hempty _ =>
      refine ⟨hdrains.tidy, ?_, ?_, fun _ => hempty⟩
      · rw [promised_pass hempty, hdrains.promised, hpromised]
        rfl
      · simp only [hdrains.observation, hobservation]
        exact h.names
  | @takes drained hdrains hempty _ =>
      have hnames : drained.observation.pythonHeaderNames = none := by
        rw [hdrains.observation, hobservation]
        exact h.names
      have htakes := acceptBuffer_takes hempty hdrains.tidy buffer
      have hsame : drained.observation.rewritePythonRequestHead buffer = buffer := by
        simp [rewritePythonRequestHead, hnames]
      refine ⟨htakes.tidy, ?_, htakes.observation ▸ hnames, ?_⟩
      · simp only [acceptedBytes, List.take_length, htakes.promised, hsame, hdrains.promised, hpromised]
      · rw [htakes.observation, htakes.generation, hdrains.observation, hdrains.generation, hobservation, hgeneration]
        exact fun hne => absurd rfl hne

theorem Inv.flush {s : WriteSystem} (h : s.Inv) (script : List InnerWrite) (flushed : Poll (Except IoError Unit)) :
    Inv ⟨(s.io.pollFlush script flushed).2, s.accepted⟩ := by
  have hdrains := (pollFlush_drains s.io script flushed).1
  refine ⟨hdrains.tidy, hdrains.promised.trans h.promised, ?_, ?_⟩
  · rw [hdrains.observation]
    exact h.names
  · rw [hdrains.observation, hdrains.generation]
    exact fun hne => pollFlush_empty (h.forgotten hne) script flushed

theorem Inv.read {s : WriteSystem} (h : s.Inv) (parser : HeadParser) (room : Nat) (arrival : Arrival) :
    Inv ⟨(s.io.pollRead parser room arrival).2, s.accepted⟩ := by
  obtain ⟨htidy, hpromised, hobservation, hgeneration⟩ := h.sync
  have hkeeps := pollRead_keepsWrites parser s.io room arrival
  refine ⟨?_, ?_, hkeeps.request.names (by rw [hobservation]; exact h.names), ?_⟩
  · unfold Tidy at htidy ⊢
    rw [hkeeps.outgoing, hkeeps.offset]
    exact htidy
  · rw [← hpromised]
    simp only [ResponseHeadIo.promised, ResponseHeadIo.unsent, hkeeps.received, hkeeps.outgoing, hkeeps.offset]
  · rw [hkeeps.generation, hkeeps.request.generation, hgeneration, hobservation]
    exact fun hne => absurd rfl hne

theorem inv_step {parser : HeadParser} {s s' : WriteSystem} {op : ConnectionOp} {answer : Option IoAnswer}
    (h : s.Inv) (hstep : s.step parser op = some (answer, s')) : s'.Inv := by
  cases op with
  | begin =>
      simp only [step] at hstep
      split at hstep
      · rename_i hflushed
        obtain ⟨-, rfl⟩ := Prod.mk.inj (Option.some.inj hstep)
        have hunsent : s.io.unsent = [] := by
          have hpromised := h.promised
          rw [ResponseHeadIo.promised, ← hflushed] at hpromised
          exact List.append_right_eq_self.mp hpromised
        exact ⟨h.tidy, h.promised, rfl, fun _ => (h.tidy.unsent_nil hunsent).1⟩
      · cases hstep
  | io op =>
      obtain ⟨-, rfl⟩ := Prod.mk.inj (Option.some.inj hstep)
      cases op with
      | read room arrival => simpa [acceptedBytes] using h.read parser room arrival
      | write script buffer => exact h.write script buffer
      | flush script flushed => simpa [acceptedBytes] using h.flush script flushed
      | shutdown script closed =>
          simpa [acceptedBytes, ResponseHeadIo.pollShutdown] using h.flush script closed

theorem inv_run {parser : HeadParser} {unread : Bytes} {trace : List (ConnectionOp × Option IoAnswer)} {s : WriteSystem}
    (hrun : (machine parser).Run (start unread) trace s) : s.Inv :=
  hrun.invariant Inv (inv_start unread) fun _ _ _ _ h hstep => inv_step h hstep

/-- What the write side guarantees at every moment of a connection without Python header names. -/
structure Transparent (parser : HeadParser) (s : WriteSystem) : Prop where
  inOrder : s.io.inner.received <+: s.accepted
  /-- A flush that succeeds has sent everything. -/
  flushed : ∀ script flushed s', s.step parser (.io (.flush script flushed)) = some (some (.flush (.ready (.ok ()))), s') →
    s'.accepted = s.accepted ∧ s'.io.inner.received = s'.accepted
  /-- The assertion before the bytes of the last request are forgotten. -/
  nothingForgotten : s.io.observation.generation ≠ s.io.generation → s.io.outgoingOffset = s.io.outgoing.length

/-- The bytes accepted in a run. -/
def acceptedIn (trace : List (ConnectionOp × Option IoAnswer)) : Bytes :=
  trace.flatMap fun
    | (.io op, some answer) => acceptedBytes (op, answer)
    | _ => []

theorem accepted_run {parser : HeadParser} {unread : Bytes} {trace : List (ConnectionOp × Option IoAnswer)}
    {s : WriteSystem} (hrun : (machine parser).Run (start unread) trace s) : s.accepted = acceptedIn trace := by
  refine hrun.induction (fun trace s => s.accepted = acceptedIn trace) rfl ?_
  intro trace s op answer s' _ haccepted hstep
  cases op with
  | begin =>
      simp only [machine, step] at hstep
      split at hstep
      · obtain ⟨rfl, rfl⟩ := Prod.mk.inj (Option.some.inj hstep)
        simpa [acceptedIn] using haccepted
      · cases hstep
  | io op =>
      obtain ⟨rfl, rfl⟩ := Prod.mk.inj (Option.some.inj hstep)
      simp [acceptedIn, haccepted]

/-- Without Python header names the stream passes on what it accepted and nothing else. -/
theorem writes_transparent {parser : HeadParser} {unread : Bytes} {trace : List (ConnectionOp × Option IoAnswer)}
    {s : WriteSystem} (hrun : (machine parser).Run (start unread) trace s) :
    s.accepted = acceptedIn trace ∧ s.Transparent parser := by
  have hinv := inv_run hrun
  refine ⟨accepted_run hrun, ⟨_, hinv.promised⟩, ?_, ?_⟩
  · intro script flushed s' hstep
    obtain ⟨hanswer, rfl⟩ := Prod.mk.inj (Option.some.inj hstep)
    have hempty := (pollFlush_drains s.io script flushed).2 (by simpa [ioStep] using hanswer)
    have hpromised := (hinv.flush script flushed).promised
    rw [ResponseHeadIo.promised, unsent_of_outgoing_nil hempty, List.append_nil] at hpromised
    simpa [ioStep, acceptedBytes] using hpromised
  · intro hstale
    have hempty := hinv.forgotten hstale
    rw [(hinv.tidy.unsent_nil (unsent_of_outgoing_nil hempty)).2, hempty]
    rfl

/-- Two requests on one connection; the first is flushed in two calls. -/
private def twoRequests : List ConnectionOp :=
  [.begin, .io (.write [] (text "A\r\n\r\n")), .io (.flush [.ready 2, .pending] (.ready (.ok ()))),
    .io (.flush [.ready 9] (.ready (.ok ()))), .begin, .io (.write [] (text "B")),
    .io (.write [.ready 1] (text "C\r\n\r\n"))]

theorem writes_transparent_two_requests : ∃ trace s, (machine referenceParser).Run (start []) trace s ∧
    s.accepted = text "A\r\n\r\nBC\r\n\r\n" ∧ s.io.inner.received = text "A\r\n\r\nB" ∧
      s.accepted = acceptedIn trace ∧ s.Transparent referenceParser := by
  have hexec : ((machine referenceParser).exec (start []) twoRequests).map
      (fun run => (run.2.accepted, run.2.io.inner.received)) =
        some (text "A\r\n\r\nBC\r\n\r\n", text "A\r\n\r\nB") := by decide +kernel
  obtain ⟨⟨trace, s⟩, hsome, heq⟩ := Option.map_eq_some_iff.mp hexec
  have hrun := Machine.run_of_exec hsome
  exact ⟨trace, s, hrun, congrArg Prod.fst heq, congrArg Prod.snd heq, writes_transparent hrun⟩

end WriteSystem

end RequestsNative.Transport
