import RequestsNative.Transport.HeadIo
import RequestsNative.Transport.Normalize

/-!
# Reading a Python response in pieces

However the socket cuts a response, the stream holds it back until its final head is complete and then hands
on the same bytes, unless a read goes past the limit of the buffer while the head is incomplete. `Holding` and
`Passing` are the two situations of a stream; a run starts in the first and a read may lead to the second.
-/

namespace RequestsNative.Transport

open RequestsNative.Lib ResponseHeadState

/-! ### The final head of a prefix -/

section Prefix

variable {parser : HeadParser} {stream : Bytes} {start : Nat} {parsed : ParsedResponseHead}

theorem parsedResponseHead_take (h : parsedResponseHead parser stream = some parsed) (n : Nat) :
    parsedResponseHead parser (stream.take n) = if parsed.consumed ≤ n then some parsed else none := by
  obtain ⟨⟨consumed, head⟩, hparse, rfl⟩ := Option.map_eq_some_iff.mp h
  simp only
  split
  · rename_i hn
    simp only [parsedResponseHead, HeadParser.parse_take hparse hn, Option.map_some]
  · rename_i hn
    simp only [parsedResponseHead, HeadParser.parse_take_none hparse (not_le.mp hn), Option.map_none]

theorem findFinalHead_ge {first : Nat} (h : findFinalHead parser stream first = some (start, parsed)) :
    first ≤ start := by
  fun_induction findFinalHead parser stream first with
  | case1 first hparse => cases h
  | case2 first found hparse hinterim ih => exact (Nat.le_add_right _ _).trans (ih h)
  | case3 first found hparse hfinal =>
      obtain ⟨rfl, rfl⟩ := Prod.mk.inj (Option.some.inj h)
      exact Nat.le_refl _

/-- A prefix has the final head of the whole, as soon as it holds all of it. -/
theorem findFinalHead_take {first : Nat} (h : findFinalHead parser stream first = some (start, parsed)) (n : Nat) :
    findFinalHead parser (stream.take n) first =
      if start + parsed.consumed ≤ n then some (start, parsed) else none := by
  fun_induction findFinalHead parser stream first with
  | case1 first hparse => cases h
  | case2 first found hparse hinterim ih =>
      have hge := findFinalHead_ge h
      have hfront : (stream.take n).drop first = (stream.drop first).take (n - first) := List.drop_take
      by_cases hn : found.consumed ≤ n - first
      · rw [findFinalHead, hfront]
        rw [parsedResponseHead_take hparse, if_pos hn]
        simp only [hinterim, if_true]
        exact ih h
      · rw [findFinalHead, hfront, parsedResponseHead_take hparse, if_neg hn, if_neg]
        omega
  | case3 first found hparse hfinal =>
      obtain ⟨rfl, rfl⟩ := Prod.mk.inj (Option.some.inj h)
      have hfront : (stream.take n).drop first = (stream.drop first).take (n - first) := List.drop_take
      obtain ⟨head, hcomplete, -⟩ := parsedResponseHead_parse hparse
      have hpos := parser.consumed_pos hcomplete
      rw [findFinalHead, hfront, parsedResponseHead_take hparse]
      by_cases hn : first + found.consumed ≤ n
      · rw [if_pos hn, if_pos (by omega)]
        simp only [hfinal, Bool.false_eq_true, if_false]
      · rw [if_neg hn, if_neg (by omega)]

theorem findFinalHead_bound (h : findFinalHead parser stream 0 = some (start, parsed)) :
    start + parsed.consumed ≤ stream.length ∧ 0 < parsed.consumed := by
  obtain ⟨head, hparse, -⟩ := parsedResponseHead_parse (findFinalHead_parse h).1
  have hpos := parser.consumed_pos hparse
  have hle := parser.consumed_le hparse
  rw [List.length_drop] at hle
  omega

end Prefix

/-! ### What is to come out -/

/-- The response with its final head normalised: what a read of the whole stream at once would hand on. -/
def normalizedResponse (parser : HeadParser) (stream : Bytes) : Option Bytes :=
  (findFinalHead parser stream 0).bind fun (start, parsed) =>
    (normalizedHead parsed.contentLengthNormalization parsed.rawHeaders (headBytes stream start parsed.consumed)).map
      fun head => stream.take start ++ head ++ stream.drop (start + parsed.consumed)

theorem headBytes_split (stream : Bytes) (start consumed : Nat) :
    stream.take start ++ headBytes stream start consumed ++ stream.drop (start + consumed) = stream := by
  rw [headBytes_eq, List.append_assoc, ← List.drop_drop, List.take_append_drop, List.take_append_drop]

section Expected

variable {parser : HeadParser} {stream expected : Bytes} {start : Nat} {parsed : ParsedResponseHead}

/-- A captured prefix that holds the final head gives the normalised response up to its end. -/
theorem takeNormalized_take (state : ResponseHeadState) (hfinal : findFinalHead parser stream 0 = some (start, parsed))
    (hexpected : normalizedResponse parser stream = some expected) {n : Nat}
    (hcaptured : state.captured = stream.take n) (hn : start + parsed.consumed ≤ n) :
    ∃ output observation,
      takeNormalizedPythonResponse (inspectCompleteResponseHead parser state) = (some output, observation) ∧
        output ++ stream.drop n = expected ∧ observation.active = false ∧
        observation.rawHeaders = parsed.rawHeaders := by
  have hfound : findFinalHead parser state.captured 0 = some (start, parsed) := by
    rw [hcaptured, findFinalHead_take hfinal, if_pos hn]
  have hhead : headBytes state.captured start parsed.consumed = headBytes stream start parsed.consumed := by
    rw [headBytes, headBytes, hcaptured, List.take_take, Nat.min_eq_left hn]
  have hbefore : state.captured.take start = stream.take start := by
    rw [hcaptured, List.take_take, Nat.min_eq_left (by omega)]
  have hafter : state.captured.drop (start + parsed.consumed) ++ stream.drop n = stream.drop (start + parsed.consumed) := by
    have hsplit : stream.drop n = (stream.drop (start + parsed.consumed)).drop (n - (start + parsed.consumed)) := by
      rw [List.drop_drop]
      congr 1
      omega
    rw [hcaptured, List.drop_take, hsplit, List.take_append_drop]
  obtain ⟨head, hnormal, heq⟩ : ∃ head,
      normalizedHead parsed.contentLengthNormalization parsed.rawHeaders (headBytes stream start parsed.consumed) =
        some head ∧ stream.take start ++ head ++ stream.drop (start + parsed.consumed) = expected := by
    simpa only [normalizedResponse, hfinal, Option.bind_some, Option.map_eq_some_iff] using hexpected
  have hobservation : (takeNormalizedPythonResponse (inspectCompleteResponseHead parser state)).2.active = false ∧
      (takeNormalizedPythonResponse (inspectCompleteResponseHead parser state)).2.rawHeaders = parsed.rawHeaders := by
    simp [inspectCompleteResponseHead, hfound, takeNormalizedPythonResponse]
  by_cases hnone : parsed.contentLengthNormalization = .none
  · refine ⟨state.captured, _, Prod.ext ?_ rfl, ?_, hobservation⟩
    · simp only [inspectCompleteResponseHead, hfound, takeNormalizedPythonResponse, Bool.false_eq_true, if_false, hnone]
    · rw [hnone, normalizedHead, Option.some.injEq] at hnormal
      rw [← heq, ← hnormal, hcaptured, List.take_append_drop]
      exact (headBytes_split stream start parsed.consumed).symm
  · refine ⟨stream.take start ++ head ++ state.captured.drop (start + parsed.consumed), _, Prod.ext ?_ rfl, ?_,
      hobservation⟩
    · rw [takeNormalized_inspect hfound hnone, hhead, hnormal, Option.map_some, hbefore]
    · rw [List.append_assoc, hafter, heq]

theorem takeNormalized_short {state : ResponseHeadState} (hfinal : findFinalHead parser stream 0 = some (start, parsed))
    (hactive : state.active = true) {n : Nat} (hcaptured : state.captured = stream.take n)
    (hn : n < start + parsed.consumed) :
    takeNormalizedPythonResponse (inspectCompleteResponseHead parser state) = (none, state) := by
  have hnone : findFinalHead parser state.captured 0 = none := by
    rw [hcaptured, findFinalHead_take hfinal, if_neg (not_le.mpr hn)]
  simp [inspectCompleteResponseHead, hnone, takeNormalizedPythonResponse, hactive]

end Expected

/-! ### The two situations of a stream -/

/-- The head is incomplete after `n` bytes and everything is held back. -/
structure Holding (stream : Bytes) (n : Nat) (io : ResponseHeadIo) : Prop where
  injected : io.injected = []
  active : io.observation.active = true
  names : io.observation.pythonHeaderNames.isSome = true
  rawHeaders : io.observation.rawHeaders = []
  captured : io.observation.captured = stream.take n
  unread : io.inner.unread = stream.drop n

/-- The head is complete, and what is not yet handed on is injected or unread. -/
structure Passing (expected : Bytes) (rawHeaders : List RawHeader) (handed : Bytes) (io : ResponseHeadIo) : Prop where
  inactive : io.observation.active = false
  headers : io.observation.rawHeaders = rawHeaders
  bytes : handed ++ (io.injected ++ io.inner.unread) = expected

/-- What the read side of a stream consists of. -/
structure SameReadSide (io other : ResponseHeadIo) : Prop where
  injected : other.injected = io.injected
  observation : other.observation = io.observation
  unread : other.inner.unread = io.inner.unread

theorem SameReadSide.trans {io other third : ResponseHeadIo} (h : SameReadSide io other)
    (h' : SameReadSide other third) : SameReadSide io third :=
  ⟨h'.injected.trans h.injected, h'.observation.trans h.observation, h'.unread.trans h.unread⟩

theorem SameReadSide.holding {io other : ResponseHeadIo} (h : SameReadSide io other) {stream : Bytes} {n : Nat}
    (hio : Holding stream n io) : Holding stream n other :=
  ⟨h.injected.trans hio.injected, by rw [h.observation]; exact hio.active, by rw [h.observation]; exact hio.names,
    by rw [h.observation]; exact hio.rawHeaders, by rw [h.observation]; exact hio.captured,
    h.unread.trans hio.unread⟩

theorem SameReadSide.passing {io other : ResponseHeadIo} (h : SameReadSide io other) {expected handed : Bytes}
    {rawHeaders : List RawHeader} (hio : Passing expected rawHeaders handed io) :
    Passing expected rawHeaders handed other :=
  ⟨by rw [h.observation]; exact hio.inactive, by rw [h.observation]; exact hio.headers,
    by rw [h.injected, h.unread]; exact hio.bytes⟩

theorem syncGeneration_readSide (io : ResponseHeadIo) : SameReadSide io io.syncGeneration := by
  unfold ResponseHeadIo.syncGeneration
  split <;> exact ⟨rfl, rfl, rfl⟩

theorem pollDrainOutgoing_readSide (script : List InnerWrite) (io : ResponseHeadIo) :
    SameReadSide io (io.pollDrainOutgoing script).2.1 := by
  induction script generalizing io with
  | nil =>
      unfold ResponseHeadIo.pollDrainOutgoing
      split <;> exact ⟨rfl, rfl, rfl⟩
  | cons first rest ih =>
      unfold ResponseHeadIo.pollDrainOutgoing
      split
      · cases first with
        | pending => exact ⟨rfl, rfl, rfl⟩
        | error error => exact ⟨rfl, rfl, rfl⟩
        | ready amount =>
            simp only
            split
            · exact ⟨rfl, rfl, rfl⟩
            · have hnext := ih { io with
                inner := { io.inner with
                  received := io.inner.received ++ io.unsent.take (min amount io.unsent.length) }
                outgoingOffset := io.outgoingOffset + min amount io.unsent.length }
              exact ⟨hnext.injected, hnext.observation, hnext.unread⟩
      · exact ⟨rfl, rfl, rfl⟩

theorem pollFlush_readSide (io : ResponseHeadIo) (script : List InnerWrite) (flushed : Poll (Except IoError Unit)) :
    SameReadSide io (io.pollFlush script flushed).2 := by
  have hdrain := pollDrainOutgoing_readSide script io
  unfold ResponseHeadIo.pollFlush
  generalize io.pollDrainOutgoing script = drained at hdrain
  obtain ⟨result, io', rest⟩ := drained
  split <;> rename_i heq <;> cases heq <;> exact hdrain

theorem pollWrite_readSide (io : ResponseHeadIo) (script : List InnerWrite) (buffer : Bytes) :
    SameReadSide io (io.pollWrite script buffer).2 := by
  have hsync := syncGeneration_readSide io
  have hdrain : SameReadSide io.syncGeneration (io.syncGeneration.drainBeforeWrite script).2.1 := by
    unfold ResponseHeadIo.drainBeforeWrite
    split
    · exact pollDrainOutgoing_readSide script io.syncGeneration
    · exact ⟨rfl, rfl, rfl⟩
  have hboth := hsync.trans hdrain
  unfold ResponseHeadIo.pollWrite
  generalize io.syncGeneration.drainBeforeWrite script = drained at hboth
  obtain ⟨result, io', rest⟩ := drained
  split
  · rename_i heq
    cases heq
    exact hboth
  · rename_i heq
    cases heq
    exact hboth
  · rename_i heq
    cases heq
    split
    · exact hboth.trans ⟨rfl, rfl, Socket.pollWrite_unread ..⟩
    · apply hboth.trans
      unfold ResponseHeadIo.acceptBuffer
      simp only
      split <;> exact ⟨rfl, rfl, rfl⟩

/-! ### One read -/

/-- The bytes an answer hands to the wire library. -/
def handedBytes : IoAnswer → Bytes
  | .read (.ready (.ok bytes)) => bytes
  | _ => []

/-- Everything handed to the wire library. -/
def handed (trace : IoTrace) : Bytes := trace.flatMap (handedBytes ·.2)

section Read

variable {parser : HeadParser} {stream expected : Bytes} {start n : Nat} {parsed : ParsedResponseHead} {io : ResponseHeadIo}

/-- How much one read of a held-back head takes from the socket. -/
def headReadSize (more : Nat) : Nat := min (more + 1) 8192

theorem Holding.take_read (hio : Holding stream n io) (more : Nat) :
    io.observation.captured ++ io.inner.unread.take (headReadSize more) = stream.take (n + headReadSize more) := by
  rw [hio.captured, hio.unread, ← List.take_add]

/-- What a read does while the head is held back. -/
def afterBuffering (io : ResponseHeadIo) (room more : Nat) (buffered : Option Bytes × ResponseHeadState) :
    Poll (Except IoError Bytes) × ResponseHeadIo :=
  let inner := { io.inner with unread := io.inner.unread.drop (headReadSize more) }
  match buffered with
  | (none, observation) => (.pending, { io with inner, observation })
  | (some injected, observation) =>
      (.ready (.ok (injected.take room)), { io with inner, observation, injected := injected.drop room })

theorem Holding.pollReadHead (hio : Holding stream n io) (hn : n < stream.length) (room more : Nat) :
    io.pollReadHead parser room (.ready more) = afterBuffering io room more
      (io.observation.bufferPythonResponseBytes parser (io.inner.unread.take (headReadSize more))) := by
  have hnonempty : io.inner.unread.take (headReadSize more) ≠ [] := by
    have hsize : 0 < headReadSize more := by
      unfold headReadSize
      omega
    rw [hio.unread, ne_eq, List.take_eq_nil_iff, not_or, List.drop_eq_nil_iff]
    exact ⟨by omega, by omega⟩
  unfold ResponseHeadIo.pollReadHead afterBuffering
  simp only [Socket.pollRead]
  rw [show min (more + 1) 8192 = headReadSize more from rfl, if_neg hnonempty]
  generalize io.observation.bufferPythonResponseBytes parser _ = buffered
  obtain ⟨injected, observation⟩ := buffered
  cases injected with
  | none => rfl
  | some injected => simp only [ResponseHeadIo.fillInjected, hio.injected, List.nil_append]

theorem Holding.pollRead (hio : Holding stream n io) (room : Nat) (arrival : Arrival) :
    io.pollRead parser room arrival = io.syncGeneration.pollReadHead parser room arrival := by
  have hio' := (syncGeneration_readSide io).holding hio
  have hbuffers : io.syncGeneration.observation.buffersPythonResponseHead = true := by
    simp [buffersPythonResponseHead, hio'.active, hio'.names]
  simp only [ResponseHeadIo.pollRead]
  rw [if_neg (by simp [hio'.injected]), if_pos hbuffers]

theorem Holding.length_read (hio : Holding stream n io) (hn : n < stream.length) (more : Nat) :
    maxResponseHeadBytes - io.observation.captured.length < (io.inner.unread.take (headReadSize more)).length ↔
      maxResponseHeadBytes < min stream.length (n + headReadSize more) ∧ 0 < headReadSize more := by
  rw [hio.captured, hio.unread, List.length_take, List.length_take, List.length_drop]
  omega

theorem Holding.overshoots (parser : HeadParser) (hio : Holding stream n io) (hn : n < stream.length) (room more : Nat)
    (hover : maxResponseHeadBytes < min stream.length (n + headReadSize more)) :
    ∃ bytes, (io.pollReadHead parser room (.ready more)).1 = .ready (.ok bytes) ∧
      bytes = (stream.take (n + headReadSize more)).take room ∧
      Passing stream [] bytes (io.pollReadHead parser room (.ready more)).2 := by
  have hsize : 0 < headReadSize more := by
    unfold headReadSize
    omega
  have hbuffer : io.observation.bufferPythonResponseBytes parser (io.inner.unread.take (headReadSize more)) =
      (some (stream.take (n + headReadSize more)),
        { io.observation with
          captured := []
          active := false
          pythonHeaderNames := none }) := by
    unfold bufferPythonResponseBytes
    simp only
    rw [if_pos ((hio.length_read hn more).mpr ⟨hover, hsize⟩), hio.take_read]
  rw [hio.pollReadHead hn, hbuffer]
  refine ⟨_, rfl, rfl, rfl, hio.rawHeaders, ?_⟩
  simp only [afterBuffering, hio.unread, List.drop_drop]
  rw [← List.append_assoc, List.take_append_drop, List.take_append_drop]

/-- Within the limit an incomplete head stays held back. -/
theorem Holding.continues (hfinal : findFinalHead parser stream 0 = some (start, parsed)) (hio : Holding stream n io)
    (hn : n < stream.length) (room more : Nat)
    (hlimit : min stream.length (n + headReadSize more) ≤ maxResponseHeadBytes)
    (hshort : n + headReadSize more < start + parsed.consumed) :
    (io.pollReadHead parser room (.ready more)).1 = .pending ∧
      Holding stream (n + headReadSize more) (io.pollReadHead parser room (.ready more)).2 := by
  have hbuffer : io.observation.bufferPythonResponseBytes parser (io.inner.unread.take (headReadSize more)) =
      (none, { io.observation with captured := stream.take (n + headReadSize more) }) := by
    unfold bufferPythonResponseBytes
    simp only
    rw [if_neg (fun hover => absurd ((hio.length_read hn more).mp hover).1 (by omega)), hio.take_read]
    exact takeNormalized_short hfinal hio.active rfl hshort
  rw [hio.pollReadHead hn, hbuffer]
  refine ⟨rfl, hio.injected, hio.active, hio.names, hio.rawHeaders, rfl, ?_⟩
  simp only [afterBuffering, hio.unread, List.drop_drop]

theorem Holding.completes (hfinal : findFinalHead parser stream 0 = some (start, parsed))
    (hexpected : normalizedResponse parser stream = some expected) (hio : Holding stream n io)
    (hn : n < stream.length) (room more : Nat)
    (hlimit : min stream.length (n + headReadSize more) ≤ maxResponseHeadBytes)
    (hlong : start + parsed.consumed ≤ n + headReadSize more) :
    ∃ bytes, (io.pollReadHead parser room (.ready more)).1 = .ready (.ok bytes) ∧
      Passing expected parsed.rawHeaders bytes (io.pollReadHead parser room (.ready more)).2 := by
  obtain ⟨output, observation, htake, houtput, hinactive, hheaders⟩ := takeNormalized_take
    { io.observation with captured := stream.take (n + headReadSize more) } hfinal hexpected rfl hlong
  have hbuffer : io.observation.bufferPythonResponseBytes parser (io.inner.unread.take (headReadSize more)) =
      (some output, observation) := by
    unfold bufferPythonResponseBytes
    simp only
    rw [if_neg (fun hover => absurd ((hio.length_read hn more).mp hover).1 (by omega)), hio.take_read]
    exact htake
  rw [hio.pollReadHead hn, hbuffer]
  refine ⟨_, rfl, hinactive, hheaders, ?_⟩
  simp only [afterBuffering, hio.unread, List.drop_drop]
  rw [← List.append_assoc, List.take_append_drop, houtput]

theorem Passing.pollRead {rawHeaders : List RawHeader} {done : Bytes} (hio : Passing expected rawHeaders done io)
    (room : Nat) (arrival : Arrival) :
    Passing expected rawHeaders (done ++ handedBytes (.read (io.pollRead parser room arrival).1))
      (io.pollRead parser room arrival).2 := by
  obtain ⟨hinactive, hheaders, hbytes⟩ := (syncGeneration_readSide io).passing hio
  unfold ResponseHeadIo.pollRead
  generalize io.syncGeneration = io at *
  simp only
  split
  · refine ⟨hinactive, hheaders, ?_⟩
    simp only [ResponseHeadIo.fillInjected, handedBytes]
    rw [List.append_assoc, ← List.append_assoc (io.injected.take room), List.take_append_drop, hbytes]
  · rename_i hempty
    rw [ne_eq, not_not] at hempty
    rw [hempty, List.nil_append] at hbytes
    rw [if_neg (by simp [buffersPythonResponseHead, hinactive])]
    cases arrival with
    | pending => exact ⟨hinactive, hheaders, by simpa [Socket.pollRead, handedBytes, hempty] using hbytes⟩
    | error error => exact ⟨hinactive, hheaders, by simpa [Socket.pollRead, handedBytes, hempty] using hbytes⟩
    | ready more =>
        simp only [Socket.pollRead]
        split
        · rename_i hnothing
          simp only [completeOnEof, hinactive, Bool.not_false, Bool.true_or, if_true]
          have hdrop := List.take_append_drop (min (more + 1) room) io.inner.unread
          rw [hnothing, List.nil_append] at hdrop
          exact ⟨hinactive, hheaders, by simpa [handedBytes, hempty, hdrop] using hbytes⟩
        · refine ⟨?_, ?_, ?_⟩
          · simp [observe, hinactive]
          · simpa [observe, hinactive] using hheaders
          · simp only [handedBytes, hempty, List.nil_append]
            rw [List.append_assoc, List.take_append_drop, hbytes]

theorem normalizedResponse_noHeaders (hfinal : findFinalHead parser stream 0 = some (start, parsed))
    (hheaders : parsed.rawHeaders = []) : normalizedResponse parser stream = some stream := by
  obtain ⟨head, -, -, hraw, hdecision⟩ := parsedResponseHead_parse (findFinalHead_parse hfinal).1
  have hnone : parsed.contentLengthNormalization = .none := by
    rw [hdecision, ← hraw, hheaders]
    rfl
  simp only [normalizedResponse, hfinal, Option.bind_some, hnone, normalizedHead, Option.map_some, headBytes_split]

/-- No read can go past the limit while the heads are incomplete, or it does no harm. -/
def Roomy (stream : Bytes) (start : Nat) (parsed : ParsedResponseHead) : Prop :=
  parsed.rawHeaders = [] ∨ min stream.length (start + parsed.consumed + 8191) ≤ maxResponseHeadBytes

/-- What one more read makes of a held-back head, when there is room. -/
theorem Holding.reads (hfinal : findFinalHead parser stream 0 = some (start, parsed))
    (hexpected : normalizedResponse parser stream = some expected) (hroomy : Roomy stream start parsed)
    (hio : Holding stream n io) (hn : n < start + parsed.consumed) (room : Nat) (arrival : Arrival) :
    (∃ m, m < start + parsed.consumed ∧ Holding stream m (io.pollRead parser room arrival).2 ∧
        handedBytes (.read (io.pollRead parser room arrival).1) = []) ∨
      Passing expected parsed.rawHeaders (handedBytes (.read (io.pollRead parser room arrival).1))
        (io.pollRead parser room arrival).2 := by
  have hio' := (syncGeneration_readSide io).holding hio
  rw [hio.pollRead]
  generalize io.syncGeneration = io at *
  have hlength := (findFinalHead_bound hfinal).1
  have hn' : n < stream.length := by omega
  cases arrival with
  | pending => exact .inl ⟨n, hn, ⟨hio'.1, hio'.2, hio'.3, hio'.4, hio'.5, hio'.6⟩, rfl⟩
  | error error => exact .inl ⟨n, hn, ⟨hio'.1, hio'.2, hio'.3, hio'.4, hio'.5, hio'.6⟩, rfl⟩
  | ready more =>
      by_cases hover : maxResponseHeadBytes < min stream.length (n + headReadSize more)
      · have hheaders : parsed.rawHeaders = [] := by
          rcases hroomy with hheaders | hroom
          · exact hheaders
          · have hsize : headReadSize more ≤ 8192 := Nat.min_le_right _ _
            omega
        obtain ⟨bytes, hanswer, -, hpassing⟩ := hio'.overshoots parser hn' room more hover
        have hsame : expected = stream := by
          rw [normalizedResponse_noHeaders hfinal hheaders] at hexpected
          exact (Option.some.inj hexpected).symm
        rw [hanswer, hsame, hheaders]
        exact .inr hpassing
      · have hlimit := not_lt.mp hover
        by_cases hshort : n + headReadSize more < start + parsed.consumed
        · obtain ⟨hanswer, hholding⟩ := hio'.continues hfinal hn' room more hlimit hshort
          exact .inl ⟨_, hshort, hholding, by rw [hanswer]; rfl⟩
        · obtain ⟨bytes, hanswer, hpassing⟩ :=
            hio'.completes hfinal hexpected hn' room more hlimit (not_lt.mp hshort)
          rw [hanswer]
          exact .inr hpassing

end Read

/-! ### Whole runs -/

section Run

variable {parser : HeadParser} {stream expected : Bytes} {start : Nat} {parsed : ParsedResponseHead}

theorem handed_snoc (trace : IoTrace) (op : IoOp) (answer : IoAnswer) :
    handed (trace ++ [(op, answer)]) = handed trace ++ handedBytes answer := by
  simp [handed]

/-- A stream is holding and has handed on nothing, or it is passing. -/
def ReadPhase (stream expected : Bytes) (start : Nat) (parsed : ParsedResponseHead) (trace : IoTrace)
    (io : ResponseHeadIo) : Prop :=
  (∃ n, n < start + parsed.consumed ∧ Holding stream n io ∧ handed trace = []) ∨
    Passing expected parsed.rawHeaders (handed trace) io

theorem ReadPhase.sameReadSide {trace : IoTrace} {io other : ResponseHeadIo} {op : IoOp} {answer : IoAnswer}
    (h : ReadPhase stream expected start parsed trace io) (hsame : SameReadSide io other)
    (hanswer : handedBytes answer = []) :
    ReadPhase stream expected start parsed (trace ++ [(op, answer)]) other := by
  unfold ReadPhase
  rw [handed_snoc, hanswer, List.append_nil]
  rcases h with ⟨n, hn, hholding, hnone⟩ | hpassing
  · exact .inl ⟨n, hn, hsame.holding hholding, hnone⟩
  · exact .inr (hsame.passing hpassing)

theorem readPhase_step (hfinal : findFinalHead parser stream 0 = some (start, parsed))
    (hexpected : normalizedResponse parser stream = some expected) (hroomy : Roomy stream start parsed)
    {trace : IoTrace} {io : ResponseHeadIo} (h : ReadPhase stream expected start parsed trace io) (op : IoOp) :
    ReadPhase stream expected start parsed (trace ++ [(op, (ioStep parser io op).1)]) (ioStep parser io op).2 := by
  cases op with
  | read room arrival =>
      unfold ReadPhase
      rw [handed_snoc]
      rcases h with ⟨n, hn, hholding, hnone⟩ | hpassing
      · rw [hnone, List.nil_append]
        exact hholding.reads hfinal hexpected hroomy hn room arrival
      · exact .inr (hpassing.pollRead room arrival)
  | write script buffer => exact h.sameReadSide (pollWrite_readSide io script buffer) rfl
  | flush script flushed => exact h.sameReadSide (pollFlush_readSide io script flushed) rfl
  | shutdown script closed => exact h.sameReadSide (pollFlush_readSide io script closed) rfl

theorem holding_begin {io : ResponseHeadIo} (hidle : io.injected = []) (names : List Bytes) :
    Holding io.inner.unread 0 (io.begin (some names)) :=
  ⟨hidle, rfl, rfl, rfl, rfl, rfl⟩

theorem readPhase_run {io : ResponseHeadIo} (hidle : io.injected = []) (names : List Bytes)
    (hfinal : findFinalHead parser io.inner.unread 0 = some (start, parsed))
    (hexpected : normalizedResponse parser io.inner.unread = some expected)
    (hroomy : Roomy io.inner.unread start parsed) {trace : IoTrace} {io' : ResponseHeadIo}
    (hrun : (ioMachine parser).Run (io.begin (some names)) trace io') :
    ReadPhase io.inner.unread expected start parsed trace io' := by
  refine hrun.induction (ReadPhase io.inner.unread expected start parsed) ?_ ?_
  · have hpos := (findFinalHead_bound hfinal).2
    exact .inl ⟨0, by omega, holding_begin hidle names, rfl⟩
  · intro trace io op answer next _ hphase hstep
    obtain ⟨rfl, rfl⟩ := Prod.mk.inj (Option.some.inj hstep)
    exact readPhase_step hfinal hexpected hroomy hphase op

/-- What a run of reads owes the wire library: the expected bytes in order, all of them when the stream has been
read out, and by then the headers of the final head. -/
structure Faithful (expected : Bytes) (rawHeaders : List RawHeader) (trace : IoTrace) (io : ResponseHeadIo) : Prop where
  inOrder : handed trace <+: expected
  complete : io.inner.unread = [] → io.injected = [] → handed trace = expected
  headers : handed trace ≠ [] ∨ io.inner.unread = [] → io.observation.rawHeaders = rawHeaders

theorem ReadPhase.faithful {io : ResponseHeadIo} {trace : IoTrace} (hlength : start + parsed.consumed ≤ stream.length)
    (h : ReadPhase stream expected start parsed trace io) : Faithful expected parsed.rawHeaders trace io := by
  rcases h with ⟨n, hn, hholding, hnone⟩ | hpassing
  · have hunread : io.inner.unread ≠ [] := by
      rw [hholding.unread, ne_eq, List.drop_eq_nil_iff]
      omega
    exact ⟨hnone ▸ List.nil_prefix, fun h => absurd h hunread, fun h => (h.elim (absurd hnone) (absurd · hunread))⟩
  · refine ⟨⟨_, hpassing.bytes⟩, ?_, fun _ => hpassing.headers⟩
    intro hunread hinjected
    have hbytes := hpassing.bytes
    rwa [hunread, hinjected, List.append_nil, List.append_nil] at hbytes

/-! ### A read past the limit -/

theorem holding_bytewise {io : ResponseHeadIo} (hidle : io.injected = []) (names : List Bytes)
    (hfinal : findFinalHead parser io.inner.unread 0 = some (start, parsed))
    (hfits : start + parsed.consumed ≤ maxResponseHeadBytes) {n : Nat} (hn : n < start + parsed.consumed) :
    ∃ trace io', (ioMachine parser).Run (io.begin (some names)) trace io' ∧ handed trace = [] ∧
      Holding io.inner.unread n io' := by
  have hlength := (findFinalHead_bound hfinal).1
  induction n with
  | zero => exact ⟨[], _, .nil, rfl, holding_begin hidle names⟩
  | succ n ih =>
      obtain ⟨trace, io', hrun, hnone, hholding⟩ := ih (by omega)
      have hone : headReadSize 0 = 1 := rfl
      obtain ⟨hanswer, hnext⟩ := ((syncGeneration_readSide io').holding hholding).continues hfinal (by omega) 0 0
        (by omega) (by omega)
      rw [← hholding.pollRead] at hanswer hnext
      refine ⟨_, _, .snoc hrun (show (ioMachine parser).step io' (.read 0 (.ready 0)) = some (_, _) from rfl), ?_, hnext⟩
      rw [handed_snoc, hnone, hanswer]
      rfl

theorem overshoot_run {io : ResponseHeadIo} (hidle : io.injected = []) (names : List Bytes)
    (hfinal : findFinalHead parser io.inner.unread 0 = some (start, parsed))
    (hfits : start + parsed.consumed ≤ maxResponseHeadBytes)
    (htight : maxResponseHeadBytes < min io.inner.unread.length (start + parsed.consumed + 8191)) :
    ∃ trace io', (ioMachine parser).Run (io.begin (some names)) trace io' ∧ handed trace ≠ [] ∧
      io'.observation.rawHeaders = [] := by
  obtain ⟨hlength, hpos⟩ := findFinalHead_bound hfinal
  obtain ⟨trace, io', hrun, hnone, hholding⟩ := holding_bytewise hidle names hfinal hfits
    (show start + parsed.consumed - 1 < start + parsed.consumed by omega)
  have hsize : headReadSize 8191 = 8192 := rfl
  obtain ⟨bytes, hanswer, hbytes, hpassing⟩ := ((syncGeneration_readSide io').holding hholding).overshoots parser
    (by omega) 1 8191 (by omega)
  rw [← hholding.pollRead] at hanswer hpassing
  refine ⟨_, _, .snoc hrun (show (ioMachine parser).step io' (.read 1 (.ready 8191)) = some (_, _) from rfl), ?_,
    hpassing.headers⟩
  rw [handed_snoc, hnone, hanswer, hbytes]
  simp only [handedBytes, List.nil_append, ne_eq, List.take_eq_nil_iff, not_or]
  refine ⟨by omega, by omega, ?_⟩
  rintro hempty
  rw [hempty] at hlength
  simp only [List.length_nil] at hlength
  omega

theorem normalizedResponse_isSome (hfinal : findFinalHead parser stream 0 = some (start, parsed)) :
    (∃ expected, normalizedResponse parser stream = some expected) ↔ parsed.contentLengthNormalization = .none ∨
      (position (text "\r\n") (headBytes stream start parsed.consumed)).isSome = true := by
  simp only [normalizedResponse, hfinal, Option.bind_some, Option.map_eq_some_iff]
  cases hkind : parsed.contentLengthNormalization with
  | none => simp [normalizedHead]
  | ignore => simp [normalizedHead, Option.isSome_iff_exists]
  | overflow => simp [normalizedHead, Option.isSome_iff_exists]

/-- Reads in pieces hand on the normalised response and record its headers, whatever the pieces, if and only if
the final head can be normalised and no read can go past the limit before the heads are complete. -/
theorem fragmentation_iff {io : ResponseHeadIo} (hidle : io.injected = []) (names : List Bytes)
    (hfinal : findFinalHead parser io.inner.unread 0 = some (start, parsed))
    (hfits : start + parsed.consumed ≤ maxResponseHeadBytes) :
    (∃ expected, normalizedResponse parser io.inner.unread = some expected ∧
        ∀ trace io', (ioMachine parser).Run (io.begin (some names)) trace io' →
          Faithful expected parsed.rawHeaders trace io') ↔
      (parsed.contentLengthNormalization = .none ∨
        (position (text "\r\n") (headBytes io.inner.unread start parsed.consumed)).isSome = true) ∧
      Roomy io.inner.unread start parsed := by
  rw [← normalizedResponse_isSome hfinal]
  constructor
  · rintro ⟨expected, hexpected, hall⟩
    refine ⟨⟨expected, hexpected⟩, ?_⟩
    by_contra hnot
    obtain ⟨hheaders, htight⟩ := not_or.mp hnot
    obtain ⟨trace, io', hrun, hhanded, hraw⟩ := overshoot_run hidle names hfinal hfits (not_le.mp htight)
    exact hheaders (((hall trace io' hrun).headers (.inl hhanded)).symm.trans hraw)
  · rintro ⟨⟨expected, hexpected⟩, hroomy⟩
    exact ⟨expected, hexpected, fun trace io' hrun =>
      (readPhase_run hidle names hfinal hexpected hroomy hrun).faithful (findFinalHead_bound hfinal).1⟩

end Run

private def continueIo : ResponseHeadIo :=
  .new ⟨text "HTTP/1.1 100 Continue\r\n\r\nHTTP/1.1 200 OK\r\nContent-Length: nope\r\n\r\nbody", []⟩ {}

private def continueHead : ParsedResponseHead := ⟨41, 200, .ignore, none, [(text "Content-Length", text "nope")]⟩

/-- An interim head, a final head that is normalised and some body, in any pieces. -/
theorem fragmentation_continue :
    findFinalHead referenceParser continueIo.inner.unread 0 = some (25, continueHead) ∧
      ∀ trace io', (ioMachine referenceParser).Run (continueIo.begin (some [])) trace io' →
        Faithful (text "HTTP/1.1 100 Continue\r\n\r\nHTTP/1.1 200 OK\r\n\r\nbody") continueHead.rawHeaders trace io' := by
  have hfinal : findFinalHead referenceParser continueIo.inner.unread 0 = some (25, continueHead) := by decide +kernel
  obtain ⟨expected, hexpected, hall⟩ := (fragmentation_iff rfl [] hfinal (by decide)).mpr
    ⟨.inr (by decide), .inr (by decide)⟩
  have hsame : normalizedResponse referenceParser continueIo.inner.unread =
      some (text "HTTP/1.1 100 Continue\r\n\r\nHTTP/1.1 200 OK\r\n\r\nbody") := by decide +kernel
  rw [hsame, Option.some.injEq] at hexpected
  rw [← hexpected] at hall
  exact ⟨hfinal, hall⟩

/-- A response with one header of `n` bytes. -/
private def longLayout (n : Nat) : Layout :=
  ⟨[], ⟨text "HTTP/1.1 200 OK", .crlf⟩, [⟨text "X" ++ text ": " ++ List.replicate n 97, .crlf⟩], .crlf⟩

private def longHead (n : Nat) : ResponseHead := ⟨1, 200, text "OK", [(text "X", List.replicate n 97)]⟩

private theorem longLayout_means (n : Nat) :
    (longLayout n).Means responseLines ⟨(longHead n).version, (longHead n).code, (longHead n).reason⟩
      (longHead n).headers := by
  have hbyte : ∀ b ∈ List.replicate n (97 : UInt8), b = 97 := fun b hb => List.eq_of_mem_replicate hb
  have htrim : trimBlanks (List.replicate n 97) = List.replicate n 97 := by
    rw [trimBlanks, List.dropWhile_replicate, if_neg (by decide), List.rdropWhile_eq_self_iff]
    intro hne
    rw [hbyte _ (List.getLast_mem hne)]
    decide
  have hheader : readHeaderLine (text "X" ++ text ": " ++ List.replicate n 97) = some (text "X", List.replicate n 97) :=
    readHeaderLine_canonical (by decide) (by decide +kernel) (fun b hb => by rw [hbyte b hb]; decide) htrim
  exact ⟨rfl, .cons hheader .nil, Nat.le_add_left 1 99⟩

private theorem longLayout_length (n : Nat) : (longLayout n).bytes.length = n + 24 := by
  simp only [longLayout, Layout.bytes, renderEnds, renderLines, Line.bytes, List.flatMap_nil, List.flatMap_cons,
    List.length_append, List.length_replicate, List.length_nil]
  rw [show (text "HTTP/1.1 200 OK").length = 15 from rfl, show (text "X").length = 1 from rfl,
    show (text ": ").length = 2 from rfl, show (LineEnd.bytes .crlf).length = 2 from rfl]
  omega

private def longIo (n : Nat) : ResponseHeadIo := .new ⟨(longLayout n).bytes ++ text "b", []⟩ {}

private theorem longIo_final (n : Nat) : ∃ parsed,
    findFinalHead referenceParser (longIo n).inner.unread 0 = some (0, parsed) ∧ parsed.consumed = n + 24 ∧
      parsed.rawHeaders = (longHead n).headers := by
  have hparse : referenceParser.parse (longIo n).inner.unread = some (n + 24, longHead n) := by
    rw [← longLayout_length]
    exact readResponseHead_bytes (longLayout_means n) (text "b")
  obtain ⟨parsed, hparsed, hconsumed, hstatus, hheaders⟩ : ∃ parsed,
      parsedResponseHead referenceParser (longIo n).inner.unread = some parsed ∧ parsed.consumed = n + 24 ∧
        parsed.status = 200 ∧ parsed.rawHeaders = (longHead n).headers := by
    rw [parsedResponseHead, hparse]
    exact ⟨_, rfl, rfl, rfl, rfl⟩
  refine ⟨parsed, ?_, hconsumed, hheaders⟩
  rw [findFinalHead, List.drop_zero, hparsed]
  simp only [hstatus]
  rfl

private theorem longIo_loses_headers (n : Nat) (hn : n + 24 = maxResponseHeadBytes) : ∃ parsed,
    findFinalHead referenceParser (longIo n).inner.unread 0 = some (0, parsed) ∧
      0 + parsed.consumed ≤ maxResponseHeadBytes ∧
      ∃ trace io', (ioMachine referenceParser).Run ((longIo n).begin (some [])) trace io' ∧ handed trace ≠ [] ∧
        io'.observation.rawHeaders ≠ parsed.rawHeaders := by
  obtain ⟨parsed, hfinal, hconsumed, hheaders⟩ := longIo_final n
  have hlength : (longIo n).inner.unread.length = n + 24 + 1 := by
    rw [← longLayout_length]
    exact List.length_append
  obtain ⟨trace, io', hrun, hhanded, hraw⟩ := overshoot_run rfl [] hfinal (by omega) (by omega)
  refine ⟨parsed, hfinal, by omega, trace, io', hrun, hhanded, ?_⟩
  rw [hraw, hheaders]
  exact (List.cons_ne_nil _ _).symm

/-- A head of exactly as many bytes as the limit allows, and one byte of body: a read can end after the limit, and
then the recorded headers are not those of the head. -/
theorem long_head_loses_headers : ∃ parsed,
    findFinalHead referenceParser (longIo 417768).inner.unread 0 = some (0, parsed) ∧
      0 + parsed.consumed ≤ maxResponseHeadBytes ∧
      ∃ trace io', (ioMachine referenceParser).Run ((longIo 417768).begin (some [])) trace io' ∧ handed trace ≠ [] ∧
        io'.observation.rawHeaders ≠ parsed.rawHeaders :=
  longIo_loses_headers 417768 rfl

end RequestsNative.Transport
