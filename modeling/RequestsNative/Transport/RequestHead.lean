import RequestsNative.Transport.HeadWrites

/-!
# A Python request through the stream

The stream looks for the end of the request head in what it holds at the moment, and sends what it holds
before it takes more. So a head that comes in one buffer, after at most a part of the request line, is
rewritten as a whole, and a head that is cut in its header lines is not.
-/

namespace RequestsNative.Transport

open RequestsNative.Lib ResponseHeadState

/-! ### The rewriting and what surrounds the head -/

theorem take_skip (skipped bytes : Bytes) (n : Nat) :
    (skipped ++ bytes).take (n + skipped.length) = skipped ++ bytes.take n := by
  rw [Nat.add_comm, List.take_length_add_append]

theorem drop_skip (skipped bytes : Bytes) (n : Nat) : (skipped ++ bytes).drop (n + skipped.length) = bytes.drop n := by
  rw [Nat.add_comm, List.drop_length_add_append]

theorem rewrite_append (state : ResponseHeadState) {bytes : Bytes} {i : Nat} (h : headEnd bytes = some i) (tail : Bytes) :
    state.rewritePythonRequestHead (bytes ++ tail) = state.rewritePythonRequestHead bytes ++ tail := by
  have hwhole : position (text "\r\n\r\n") (bytes ++ tail) = some i := position_append h tail
  have hbound : i + 4 ≤ bytes.length := position_bound h
  have htake : ∀ n, n ≤ i + 4 → (bytes ++ tail).take n = bytes.take n :=
    fun n hn => List.take_append_of_le_length (by omega)
  unfold rewritePythonRequestHead
  rw [headEnd] at h
  split
  · rfl
  · simp only [h, hwhole, htake i (by omega), htake (i + 2) (by omega)]
    split
    · rfl
    · rename_i firstLineEnd hfirst
      have hbefore := position_bound hfirst
      rw [List.length_take] at hbefore
      rw [htake firstLineEnd (by omega), List.drop_append_of_le_length (by omega)]
      simp only [List.append_assoc]

theorem rewrite_skip (state : ResponseHeadState) {skipped : Bytes} (h : Unbroken skipped) (bytes : Bytes) :
    state.rewritePythonRequestHead (skipped ++ bytes) = skipped ++ state.rewritePythonRequestHead bytes := by
  have hend : position (text "\r\n\r\n") (skipped ++ bytes) =
      (position (text "\r\n\r\n") bytes).map (· + skipped.length) := position_unbroken h bytes
  unfold rewritePythonRequestHead
  split
  · rfl
  · rw [hend]
    cases position (text "\r\n\r\n") bytes with
    | none => rfl
    | some i =>
        have hline : position (text "\r\n") (skipped ++ bytes.take i) =
            (position (text "\r\n") (bytes.take i)).map (· + skipped.length) := position_unbroken h _
        simp only [Option.map_some, take_skip, hline]
        cases position (text "\r\n") (bytes.take i) with
        | none => rfl
        | some firstLineEnd =>
            have hregion : ((skipped ++ bytes).take (i + skipped.length + 2)).drop (firstLineEnd + skipped.length + 2) =
                (bytes.take (i + 2)).drop (firstLineEnd + 2) := by
              rw [show i + skipped.length + 2 = i + 2 + skipped.length by omega, take_skip,
                show firstLineEnd + skipped.length + 2 = firstLineEnd + 2 + skipped.length by omega, drop_skip]
            have htail : (skipped ++ bytes).drop (i + skipped.length + 4) = bytes.drop (i + 4) := by
              rw [show i + skipped.length + 4 = i + 4 + skipped.length by omega, drop_skip]
            simp only [Option.map_some, take_skip, hregion, htail, List.append_assoc]

theorem headEnd_unbroken {bytes : Bytes} (h : Unbroken bytes) : headEnd bytes = none := by
  have hskip : headEnd (bytes ++ []) = none := position_unbroken h []
  rwa [List.append_nil] at hskip

theorem headEnd_skip {skipped : Bytes} (h : Unbroken skipped) (bytes : Bytes) :
    headEnd (skipped ++ bytes) = (headEnd bytes).map (· + skipped.length) := position_unbroken h bytes

theorem headEnd_append {bytes : Bytes} (h : headEnd bytes ≠ none) (tail : Bytes) : headEnd (bytes ++ tail) ≠ none := by
  obtain ⟨i, hi⟩ := Option.ne_none_iff_exists'.mp h
  have hwhole : headEnd (bytes ++ tail) = some i := position_append hi tail
  rw [hwhole]
  exact Option.some_ne_none i

/-- The request as the peer is to receive it: the head rewritten and the body as it is. -/
def sentFor (state : ResponseHeadState) (accepted : Bytes) : Bytes :=
  match headEnd accepted with
  | none => accepted
  | some i => state.rewritePythonRequestHead (accepted.take (i + 4)) ++ accepted.drop (i + 4)

theorem headEnd_take {bytes : Bytes} {i : Nat} (h : headEnd bytes = some i) : headEnd (bytes.take (i + 4)) = some i :=
  position_take h

theorem sentFor_eq (state : ResponseHeadState) (accepted : Bytes) :
    sentFor state accepted = state.rewritePythonRequestHead accepted := by
  unfold sentFor
  split
  · rename_i hnone
    exact (rewrite_incomplete state hnone).symm
  · rename_i i hsome
    rw [← rewrite_append state (headEnd_take hsome), List.take_append_drop]

/-! ### Calls that write a request -/

/-- Writes and flushes of one request. -/
def requestMachine (parser : HeadParser) : Machine ResponseHeadIo IoOp IoAnswer where
  step io
    | .read _ _ => none
    | op => some (ioStep parser io op)

/-- The bytes accepted in a run. -/
def writtenIn (trace : IoTrace) : Bytes := trace.flatMap acceptedBytes

/-- A buffer that comes before the end of the head has that end in it, or lies within the request line. A call that refuses
its buffer does not look at it. -/
def CutsWell (accepted : Bytes) : IoOp × IoAnswer → Prop
  | (.write _ buffer, .write (.ready (.ok _))) => headEnd accepted ≠ none ∨ headEnd buffer ≠ none ∨ Unbroken buffer
  | _ => True

instance (accepted : Bytes) : (entry : IoOp × IoAnswer) → Decidable (CutsWell accepted entry)
  | (.write _ buffer, .write (.ready (.ok _))) =>
      inferInstanceAs (Decidable (headEnd accepted ≠ none ∨ headEnd buffer ≠ none ∨ Unbroken buffer))
  | (.write _ _, .write (.ready (.error _))) | (.write _ _, .write .pending) | (.write _ _, .read _) | (.write _ _, .flush _)
  | (.read _ _, _) | (.flush _ _, _) | (.shutdown _ _, _) => inferInstanceAs (Decidable True)

/-- Every step of the trace meets the condition, given what was accepted before it. -/
def AllCutWell (accepted : Bytes) : IoTrace → Prop
  | [] => True
  | entry :: rest => CutsWell accepted entry ∧ AllCutWell (accepted ++ acceptedBytes entry) rest

instance AllCutWell.decidable : (accepted : Bytes) → (trace : IoTrace) → Decidable (AllCutWell accepted trace)
  | _, [] => .isTrue trivial
  | accepted, entry :: rest =>
      haveI := AllCutWell.decidable (accepted ++ acceptedBytes entry) rest
      inferInstanceAs (Decidable (CutsWell accepted entry ∧ AllCutWell (accepted ++ acceptedBytes entry) rest))

theorem AllCutWell.of_snoc {accepted : Bytes} {trace : IoTrace} {entry : IoOp × IoAnswer}
    (h : AllCutWell accepted (trace ++ [entry])) :
    AllCutWell accepted trace ∧ CutsWell (accepted ++ writtenIn trace) entry := by
  induction trace generalizing accepted with
  | nil =>
      rw [show writtenIn [] = [] from rfl, List.append_nil]
      exact ⟨trivial, h.1⟩
  | cons first rest ih =>
      obtain ⟨hrest, hlast⟩ := ih h.2
      rw [List.append_assoc] at hlast
      exact ⟨⟨h.1, hrest⟩, hlast⟩

/-- A stream at the start of a request: nothing waits, and the head of the last request is not taken for this one's. -/
structure RequestStart (io : ResponseHeadIo) : Prop where
  outgoing : io.outgoing = []
  offset : io.outgoingOffset = 0
  fresh : io.observation.generation ≠ io.generation ∨ io.outgoingHeadComplete = false

theorem requestStart_begin {io : ResponseHeadIo} (houtgoing : io.outgoing = []) (hoffset : io.outgoingOffset = 0)
    (hsynced : io.observation.generation = io.generation) (names : Option (List Bytes)) :
    RequestStart (io.begin names) := by
  refine ⟨houtgoing, hoffset, .inl ?_⟩
  show (io.observation.generation + 1) % 2 ^ 64 ≠ io.generation
  omega

/-- The flag says whether the accepted bytes hold a whole head; if not, they lie within the request line. -/
def Situated (accepted : Bytes) (headComplete : Bool) : Prop :=
  (headComplete = true ∧ headEnd accepted ≠ none) ∨ (headComplete = false ∧ Unbroken accepted)

/-- Received and waiting bytes are the request with its head rewritten. Until the first call after `begin` the
flag is still the last request's. -/
structure RequestInv (state : ResponseHeadState) (base accepted : Bytes) (io : ResponseHeadIo) : Prop where
  observation : io.observation = state
  tidy : Tidy io
  promised : io.promised = base ++ state.rewritePythonRequestHead accepted
  situated : (io.observation.generation ≠ io.generation ∧ accepted = [] ∧ io.outgoing = []) ∨
    (io.observation.generation = io.generation ∧ Situated accepted io.outgoingHeadComplete)

theorem rewrite_nil (state : ResponseHeadState) : state.rewritePythonRequestHead [] = [] :=
  rewrite_incomplete state rfl

theorem RequestStart.inv {io : ResponseHeadIo} (h : RequestStart io) :
    RequestInv io.observation io.inner.received [] io := by
  refine ⟨rfl, .inr ⟨h.outgoing, h.offset⟩, ?_, ?_⟩
  · rw [ResponseHeadIo.promised, unsent_of_outgoing_nil h.outgoing, rewrite_nil]
  · by_cases hstale : io.observation.generation = io.generation
    · exact .inr ⟨hstale, .inr ⟨h.fresh.resolve_left (not_not.mpr hstale), by decide⟩⟩
    · exact .inl ⟨hstale, rfl, h.outgoing⟩

section Steps

variable {state : ResponseHeadState} {base accepted : Bytes} {io : ResponseHeadIo}

/-- A call first takes note of the new request. -/
theorem RequestInv.sync (h : RequestInv state base accepted io) :
    RequestInv state base accepted io.syncGeneration ∧ Situated accepted io.syncGeneration.outgoingHeadComplete := by
  unfold ResponseHeadIo.syncGeneration
  split
  · rename_i hstale
    obtain ⟨-, rfl, hempty⟩ := h.situated.resolve_right fun hsame => hstale hsame.1
    have hunbroken : Situated [] false := .inr ⟨rfl, by decide⟩
    refine ⟨⟨h.observation, .inr ⟨rfl, rfl⟩, ?_, .inr ⟨rfl, hunbroken⟩⟩, hunbroken⟩
    rw [← h.promised, ResponseHeadIo.promised, ResponseHeadIo.promised, unsent_of_outgoing_nil hempty]
    rfl
  · rename_i hsame
    exact ⟨h, (h.situated.resolve_left fun hstale => hsame hstale.1).2⟩

/-- Draining keeps the invariant. -/
theorem RequestInv.drain {drained : ResponseHeadIo} (h : RequestInv state base accepted io)
    (hdrains : Drains io drained) (hempty : io.outgoing = [] → drained.outgoing = []) :
    RequestInv state base accepted drained := by
  refine ⟨hdrains.observation.trans h.observation, hdrains.tidy, hdrains.promised.trans h.promised, ?_⟩
  rw [hdrains.observation, hdrains.generation, hdrains.headComplete]
  exact h.situated.imp (fun hstale => ⟨hstale.1, hstale.2.1, hempty hstale.2.2⟩) id

theorem rewrite_body (h : headEnd accepted ≠ none) (buffer : Bytes) :
    state.rewritePythonRequestHead (accepted ++ buffer) = state.rewritePythonRequestHead accepted ++ buffer := by
  obtain ⟨i, hi⟩ := Option.ne_none_iff_exists'.mp h
  exact rewrite_append state hi buffer

/-- A buffer that meets the condition and is taken before the end of the head. -/
theorem Situated.take {buffer : Bytes} (h : Unbroken accepted) (hcut : headEnd buffer ≠ none ∨ Unbroken buffer) :
    Situated (accepted ++ buffer) (headEnd buffer).isSome := by
  rcases hcut with hend | hunbroken
  · left
    refine ⟨Option.isSome_iff_ne_none.mpr hend, ?_⟩
    rw [headEnd_skip h]
    simpa using hend
  · right
    rw [headEnd_unbroken hunbroken]
    exact ⟨rfl, h.append hunbroken⟩

theorem RequestInv.write (h : RequestInv state base accepted io) {script : List InnerWrite} {buffer : Bytes}
    (hcut : CutsWell accepted (.write script buffer, .write (io.pollWrite script buffer).1)) :
    RequestInv state base
      (accepted ++ acceptedBytes (.write script buffer, .write (io.pollWrite script buffer).1))
      (io.pollWrite script buffer).2 := by
  obtain ⟨hsynced, hsituated⟩ := h.sync
  have hgeneration := syncGeneration_synced io
  have houtcome := pollWrite_outcome io hsynced.tidy script buffer
  generalize io.pollWrite script buffer = result at houtcome hcut ⊢
  cases houtcome with
  | @refuses answer io' hdrains hrefused =>
      rw [acceptedBytes_refused hrefused, List.append_nil]
      refine ⟨hdrains.observation.trans hsynced.observation, hdrains.tidy,
        hdrains.promised.trans hsynced.promised, .inr ⟨?_, ?_⟩⟩
      · rw [hdrains.observation, hdrains.generation, hgeneration]
      · rw [hdrains.headComplete]
        exact hsituated
  | @passes amount drained hdrains hempty hcomplete =>
      have hend : headEnd accepted ≠ none := by
        rw [← hdrains.headComplete, hcomplete] at hsituated
        exact (hsituated.resolve_right fun h => Bool.false_ne_true h.1.symm).2
      refine ⟨hdrains.observation.trans hsynced.observation, hdrains.tidy, ?_, .inr ⟨?_, .inl ⟨hcomplete, ?_⟩⟩⟩
      · rw [promised_pass hempty, hdrains.promised, hsynced.promised, acceptedBytes, rewrite_body hend,
          List.append_assoc]
      · show drained.observation.generation = drained.generation
        rw [hdrains.observation, hdrains.generation, hgeneration]
      · exact headEnd_append hend _
  | @takes drained hdrains hempty hincomplete =>
      have hunbroken : Unbroken accepted := by
        rw [← hdrains.headComplete, hincomplete] at hsituated
        exact (hsituated.resolve_left fun h => Bool.false_ne_true h.1).2
      have htakes := acceptBuffer_takes hempty hdrains.tidy buffer
      have hobservation := hdrains.observation.trans hsynced.observation
      have htail := hcut.resolve_left (not_not.mpr (headEnd_unbroken hunbroken))
      simp only [acceptedBytes, List.take_length]
      refine ⟨htakes.observation.trans hobservation, htakes.tidy, ?_, .inr ⟨?_, ?_⟩⟩
      · rw [htakes.promised, hdrains.promised, hsynced.promised, hobservation, rewrite_skip state hunbroken,
          rewrite_incomplete state (headEnd_unbroken hunbroken), List.append_assoc]
      · rw [htakes.observation, htakes.generation, hdrains.observation, hdrains.generation, hgeneration]
      · rw [htakes.headComplete, hincomplete, Bool.false_or]
        exact Situated.take hunbroken htail

theorem RequestInv.flush (h : RequestInv state base accepted io) (script : List InnerWrite)
    (flushed : Poll (Except IoError Unit)) : RequestInv state base accepted (io.pollFlush script flushed).2 :=
  h.drain (pollFlush_drains io script flushed).1 fun hempty => pollFlush_empty hempty script flushed

end Steps

theorem requestInv_run {parser : HeadParser} {start io : ResponseHeadIo} {trace : IoTrace} (hstart : RequestStart start)
    (hrun : (requestMachine parser).Run start trace io) :
    AllCutWell [] trace → RequestInv start.observation start.inner.received (writtenIn trace) io := by
  refine hrun.induction
    (fun trace io => AllCutWell [] trace → RequestInv start.observation start.inner.received (writtenIn trace) io)
    (fun _ => hstart.inv) ?_
  intro trace io op answer io' _ ih hstep hcuts
  obtain ⟨hbefore, hcut⟩ := hcuts.of_snoc
  have hinv := ih hbefore
  have hwritten : writtenIn (trace ++ [(op, answer)]) = writtenIn trace ++ acceptedBytes (op, answer) := by
    simp [writtenIn]
  rw [hwritten]
  cases op with
  | read room arrival => cases hstep
  | write script buffer =>
      obtain ⟨rfl, rfl⟩ := Prod.mk.inj (Option.some.inj hstep)
      exact hinv.write hcut
  | flush script flushed =>
      obtain ⟨rfl, rfl⟩ := Prod.mk.inj (Option.some.inj hstep)
      simpa [acceptedBytes] using hinv.flush script flushed
  | shutdown script closed =>
      obtain ⟨rfl, rfl⟩ := Prod.mk.inj (Option.some.inj hstep)
      simpa [acceptedBytes, ResponseHeadIo.pollShutdown] using hinv.flush script closed

/-! ### The request as it arrives -/

/-- The peer receives the request with its head rewritten, in order, and after a flush all of it. -/
structure SendsRequest (state : ResponseHeadState) (base accepted : Bytes) (io : ResponseHeadIo) : Prop where
  inOrder : io.inner.received <+: base ++ sentFor state accepted
  flushed : ∀ script flushed, (io.pollFlush script flushed).1 = .ready (.ok ()) →
    (io.pollFlush script flushed).2.inner.received = base ++ sentFor state accepted

/-- If every buffer that is accepted meets the condition, the request is sent with only its head rewritten. -/
theorem request_sent_if_cut_well {parser : HeadParser} {start io : ResponseHeadIo} {trace : IoTrace}
    (hstart : RequestStart start) (hrun : (requestMachine parser).Run start trace io) (hcuts : AllCutWell [] trace) :
    SendsRequest start.observation start.inner.received (writtenIn trace) io := by
  have hinv := requestInv_run hstart hrun hcuts
  constructor
  · rw [sentFor_eq, ← hinv.promised]
    exact List.prefix_append _ _
  · intro script flushed hok
    have hpromised := (hinv.flush script flushed).promised
    have hempty := (pollFlush_drains io script flushed).2 hok
    rw [ResponseHeadIo.promised, unsent_of_outgoing_nil hempty, List.append_nil] at hpromised
    rw [sentFor_eq, hpromised]

/-- A Python request whose user set one header. -/
private def pythonStart : ResponseHeadIo := (ResponseHeadIo.new ⟨[], []⟩ {}).begin (some [text "X-Trace"])

/-- A request line in two buffers, the rest of the head with the front of the body, and a body with empty lines. -/
private def cutInRequestLine : List IoOp :=
  [.write [] (text "GET / "), .write [.ready 2, .ready 9] (text "HTTP/1.1\r\nx-trace: 1\r\nhost: a\r\n\r\nbo"),
    .flush [.ready 10, .pending] (.ready (.ok ())), .write [.ready 99, .ready 3] (text "dy\r\nx\r\n\r\n"),
    .write [.ready 99] (text "\nx\r\n\r\n")]

theorem request_sent_cut_in_request_line : ∃ trace io, (requestMachine referenceParser).Run pythonStart trace io ∧
    writtenIn trace = text "GET / HTTP/1.1\r\nx-trace: 1\r\nhost: a\r\n\r\nbody\r\nx\r\n\r\n" ∧
      io.inner.received = text "GET / HTTP/1.1\r\nHost: a\r\nX-Trace: 1\r\n\r\nbody\r\nx\r\n\r\n" ∧
        SendsRequest pythonStart.observation [] (writtenIn trace) io := by
  have hexec : ((requestMachine referenceParser).exec pythonStart cutInRequestLine).map
      (fun run => (writtenIn run.1, run.2.inner.received, decide (AllCutWell [] run.1))) =
        some (text "GET / HTTP/1.1\r\nx-trace: 1\r\nhost: a\r\n\r\nbody\r\nx\r\n\r\n",
          text "GET / HTTP/1.1\r\nHost: a\r\nX-Trace: 1\r\n\r\nbody\r\nx\r\n\r\n", true) := by decide +kernel
  obtain ⟨⟨trace, io⟩, hsome, heq⟩ := Option.map_eq_some_iff.mp hexec
  have hrun := Machine.run_of_exec hsome
  simp only [Prod.mk.injEq, decide_eq_true_eq] at heq
  have hstart : RequestStart pythonStart := requestStart_begin rfl rfl rfl _
  exact ⟨trace, io, hrun, heq.1, heq.2.1, request_sent_if_cut_well hstart hrun heq.2.2⟩

/-- A head cut between its header lines, with a body that follows it. -/
private def cutInHeaders : List IoOp :=
  [.write [] (text "GET / HTTP/1.1\r\nx-trace: 1\r\n"), .write [.ready 99] (text "host: a\r\naccept: b\r\n\r\n"),
    .flush [.ready 99] (.ready (.ok ()))]

/-- The second half of a head that is cut in its header lines is taken for a head of its own: the header that
comes first in it is taken for a request line, and `Host` is not moved. -/
theorem cut_in_headers_not_rewritten : ∃ trace io, RequestStart pythonStart ∧
    (requestMachine referenceParser).Run pythonStart trace io ∧
      (trace.getLast?.map Prod.snd = some (.flush (.ready (.ok ())))) ∧
        headEnd (writtenIn trace) ≠ none ∧ io.inner.received ≠ sentFor pythonStart.observation (writtenIn trace) := by
  have hexec : ((requestMachine referenceParser).exec pythonStart cutInHeaders).map
      (fun run => (run.1.getLast?.map Prod.snd, (headEnd (writtenIn run.1)).isSome,
        decide (run.2.inner.received = sentFor pythonStart.observation (writtenIn run.1)))) =
        some (some (.flush (.ready (.ok ()))), true, false) := by decide +kernel
  obtain ⟨⟨trace, io⟩, hsome, heq⟩ := Option.map_eq_some_iff.mp hexec
  simp only [Prod.mk.injEq, Option.isSome_iff_ne_none, decide_eq_false_iff_not] at heq
  exact ⟨trace, io, requestStart_begin rfl rfl rfl _, Machine.run_of_exec hsome, heq.1, heq.2.1, heq.2.2⟩

end RequestsNative.Transport
