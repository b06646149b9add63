import RequestsNative.Lib.Machine
import RequestsNative.Transport.HeadReads

/-!
# What an observation sees

`ResponseHeadObservation` over whole exchanges, for both kinds of session. A native session is observed while its bytes go
by: what is seen does not depend on how they are cut. A Python session is held back until its final head is complete, and
what the parser rejects is not told from what is incomplete. At the end of the stream the two kinds complete a truncated
head in ways of their own.
-/

namespace RequestsNative.Transport

open RequestsNative.Lib ResponseHeadState

/-! ### The scan for the final head -/

section Scan

variable {parser : HeadParser} {captured : Bytes} {start : Nat} {parsed : ParsedResponseHead}

theorem parsedResponseHead_append (h : parsedResponseHead parser captured = some parsed) (more : Bytes) :
    parsedResponseHead parser (captured ++ more) = some parsed := by
  obtain ⟨⟨consumed, head⟩, hparse, rfl⟩ := Option.map_eq_some_iff.mp h
  rw [parsedResponseHead, HeadParser.parse_append hparse, Option.map_some]

theorem parsedResponseHead_nil (parser : HeadParser) : parsedResponseHead parser [] = none := by
  cases hparsed : parsedResponseHead parser [] with
  | none => rfl
  | some parsed =>
      obtain ⟨head, hparse, -⟩ := parsedResponseHead_parse hparsed
      have hpos := parser.consumed_pos hparse
      have hle := parser.consumed_le hparse
      rw [List.length_nil] at hle
      omega

theorem findFinalHead_nil (parser : HeadParser) : findFinalHead parser [] 0 = none := by
  unfold findFinalHead
  split
  · rfl
  · next parsed hparsed => exact absurd ((parsedResponseHead_nil parser).symm.trans hparsed) (Option.some_ne_none parsed).symm

theorem findFinalHead_append {first : Nat} (h : findFinalHead parser captured first = some (start, parsed)) (more : Bytes) :
    findFinalHead parser (captured ++ more) first = some (start, parsed) := by
  have hdrop {first : Nat} {found : ParsedResponseHead} (hparse : parsedResponseHead parser (captured.drop first) = some found) :
      parsedResponseHead parser ((captured ++ more).drop first) = some found := by
    have hlength : first ≤ captured.length := by
      by_contra hlong
      rw [List.drop_eq_nil_of_le (by omega), parsedResponseHead_nil] at hparse
      cases hparse
    rw [List.drop_append_of_le_length hlength]
    exact parsedResponseHead_append hparse more
  fun_induction findFinalHead parser captured first with
  | case1 first hparse => cases h
  | case2 first found hparse hinterim ih =>
      rw [findFinalHead, hdrop hparse]
      simp only [hinterim, if_true]
      exact ih h
  | case3 first found hparse hfinal =>
      rw [findFinalHead, hdrop hparse]
      simp only [hfinal, Bool.false_eq_true, if_false]
      exact h

theorem inspect_none {state : ResponseHeadState} (h : findFinalHead parser state.captured 0 = none) :
    inspectCompleteResponseHead parser state = state := by
  rw [inspectCompleteResponseHead, h]

theorem inspect_some {state : ResponseHeadState} (h : findFinalHead parser state.captured 0 = some (start, parsed)) :
    inspectCompleteResponseHead parser state =
      { state with
        finalHeadStart := start
        finalHeadConsumed := parsed.consumed
        contentLengthNormalization := parsed.contentLengthNormalization
        conflictingContentLength := parsed.conflictingContentLength
        rawHeaders := parsed.rawHeaders
        active := false } := by
  rw [inspectCompleteResponseHead, h]

end Scan

/-! ### Native observation -/

/-- The reads of a native session, observed one after the other. -/
def observeAll (parser : HeadParser) (state : ResponseHeadState) (reads : List Bytes) : ResponseHeadState :=
  reads.foldl (observe parser) state

/-- What is kept of a stream: no more than the limit is ever looked at. -/
def seen (stream : Bytes) : Bytes := stream.take maxResponseHeadBytes

/-- What an observation says of the stream that went by. -/
def Observed (parser : HeadParser) (stream : Bytes) (state : ResponseHeadState) : Prop :=
  match findFinalHead parser (seen stream) 0 with
  | none => state.active = true ∧ state.captured = seen stream ∧ state.rawHeaders = [] ∧
      state.conflictingContentLength = none
  | some (_, parsed) => state.active = false ∧ state.rawHeaders = parsed.rawHeaders ∧
      state.conflictingContentLength = parsed.conflictingContentLength

section Native

variable {parser : HeadParser} {stream : Bytes} {state : ResponseHeadState}

theorem seen_append (stream bytes : Bytes) :
    seen stream ++ bytes.take (maxResponseHeadBytes - (seen stream).length) = seen (stream ++ bytes) := by
  have hsame : maxResponseHeadBytes - min maxResponseHeadBytes stream.length = maxResponseHeadBytes - stream.length := by
    omega
  rw [seen, seen, List.take_append, List.length_take, hsame]

theorem observed_begin (state : ResponseHeadState) (names : Option (List Bytes)) :
    Observed parser [] (state.begin names) := by
  have hnone : findFinalHead parser (seen []) 0 = none := findFinalHead_nil parser
  rw [Observed, hnone]
  exact ⟨rfl, rfl, rfl, rfl⟩

theorem observe_active (h : state.active = true) (bytes : Bytes) : observe parser state bytes =
    inspectCompleteResponseHead parser
      { state with captured := state.captured ++ bytes.take (maxResponseHeadBytes - state.captured.length) } := by
  rw [observe, h]
  rfl

theorem observe_inactive (h : state.active = false) (bytes : Bytes) : observe parser state bytes = state := by
  rw [observe, h]
  rfl

theorem Observed.observe (h : Observed parser stream state) (bytes : Bytes) :
    Observed parser (stream ++ bytes) (state.observe parser bytes) := by
  unfold Observed at h
  split at h
  · obtain ⟨hactive, hcaptured, hheaders, hconflicting⟩ := h
    rw [observe_active hactive, hcaptured, seen_append, Observed]
    split
    · next hnone =>
        rw [inspect_none hnone]
        exact ⟨hactive, rfl, hheaders, hconflicting⟩
    · next hsome =>
        rw [inspect_some hsome]
        exact ⟨rfl, rfl, rfl⟩
  · next start parsed hfinal =>
      rw [observe_inactive h.1, Observed, ← seen_append, findFinalHead_append hfinal]
      exact h

theorem observeAll_inactive (h : state.active = false) (reads : List Bytes) : observeAll parser state reads = state := by
  induction reads with
  | nil => rfl
  | cons bytes rest ih =>
      rw [observeAll, List.foldl_cons, observe_inactive h]
      exact ih

theorem observed_all (state : ResponseHeadState) (names : Option (List Bytes)) (reads : List Bytes) :
    Observed parser reads.flatten (observeAll parser (state.begin names) reads) := by
  induction reads using List.reverseRecOn with
  | nil => exact observed_begin state names
  | append_singleton reads bytes ih =>
      rw [observeAll, List.foldl_append, List.flatten_append, List.flatten_singleton]
      exact ih.observe bytes

end Native

/-- Two ways to cut a stream end in the same observation, and an observation that has ended does not change. -/
theorem observe_fragmentation (parser : HeadParser) (state : ResponseHeadState) (names : Option (List Bytes))
    {first second : List Bytes} (h : first.flatten = second.flatten) :
    ((observeAll parser (state.begin names) first).rawHeaders = (observeAll parser (state.begin names) second).rawHeaders ∧
      (observeAll parser (state.begin names) first).conflictingContentLength =
        (observeAll parser (state.begin names) second).conflictingContentLength ∧
      (observeAll parser (state.begin names) first).active = (observeAll parser (state.begin names) second).active) ∧
    ((observeAll parser (state.begin names) first).active = false →
      ∀ later, observeAll parser (state.begin names) (first ++ later) = observeAll parser (state.begin names) first) := by
  constructor
  · have hfirst : Observed parser first.flatten (observeAll parser (state.begin names) first) := observed_all state names first
    have hsecond : Observed parser second.flatten (observeAll parser (state.begin names) second) :=
      observed_all state names second
    rw [h] at hfirst
    unfold Observed at hfirst hsecond
    split at hfirst
    · next hnone =>
        simp only [hnone] at hsecond
        exact ⟨hfirst.2.2.1.trans hsecond.2.2.1.symm, hfirst.2.2.2.trans hsecond.2.2.2.symm, hfirst.1.trans hsecond.1.symm⟩
    · next hsome =>
        simp only [hsome] at hsecond
        exact ⟨hfirst.2.1.trans hsecond.2.1.symm, hfirst.2.2.trans hsecond.2.2.symm, hfirst.1.trans hsecond.1.symm⟩
  · intro hinactive later
    have happend : observeAll parser (state.begin names) (first ++ later) =
        observeAll parser (observeAll parser (state.begin names) first) later := List.foldl_append
    rw [happend, observeAll_inactive hinactive]

/-- A response in one read, or cut in the middle of a line end behind an interim head. -/
theorem observe_fragmentation_interim :
    (observeAll referenceParser (({} : ResponseHeadState).begin none)
      [text "HTTP/1.1 100 Continue\r\n\r\nHTTP/1.1 200 OK\r\nServer: a\r\n\r\n"]).rawHeaders =
    (observeAll referenceParser (({} : ResponseHeadState).begin none)
      [text "HTTP/1.1 100 Continue\r\n\r", text "\nHTTP/1.1 200 OK\r\nSer", text "ver: a\r\n\r\n"]).rawHeaders :=
  (observe_fragmentation referenceParser {} none (by decide)).1.1

/-! ### Runs of an observation -/

inductive ObservationOp
  | begin (pythonHeaderNames : Option (List Bytes))
  | observe (bytes : Bytes)
  | bufferPythonResponseBytes (bytes : Bytes)
  | completeOnEof
  | completePythonResponseOnEof
  | takeRawHeaders
  deriving DecidableEq, Repr

inductive ObservationAnswer
  | done
  | bytes (handed : Option Bytes)
  | headers (rawHeaders : List RawHeader)
  deriving DecidableEq, Repr

def observationStep (parser : HeadParser) (state : ResponseHeadState) : ObservationOp → ObservationAnswer × ResponseHeadState
  | .begin names => (.done, state.begin names)
  | .observe bytes => (.done, state.observe parser bytes)
  | .bufferPythonResponseBytes bytes =>
      (.bytes (state.bufferPythonResponseBytes parser bytes).1, (state.bufferPythonResponseBytes parser bytes).2)
  | .completeOnEof => (.bytes (state.completeOnEof parser).1, (state.completeOnEof parser).2)
  | .completePythonResponseOnEof =>
      (.bytes (state.completePythonResponseOnEof parser).1, (state.completePythonResponseOnEof parser).2)
  | .takeRawHeaders => (.headers state.takeRawHeaders.1, state.takeRawHeaders.2)

def observationMachine (parser : HeadParser) : Machine ResponseHeadState ObservationOp ObservationAnswer :=
  ⟨fun state op => some (observationStep parser state op)⟩

/-- An active observation has not seen a final head. -/
def Waiting (parser : HeadParser) (state : ResponseHeadState) : Prop :=
  state.active = true → findFinalHead parser state.captured 0 = none

section Runs

variable {parser : HeadParser} {state : ResponseHeadState}

theorem waiting_inspect (parser : HeadParser) (state : ResponseHeadState) :
    Waiting parser (inspectCompleteResponseHead parser state) := by
  cases hfinal : findFinalHead parser state.captured 0 with
  | none =>
      rw [inspect_none hfinal]
      exact fun _ => hfinal
  | some found =>
      rw [inspect_some hfinal]
      exact nofun

theorem takeNormalized_active (h : state.active = true) : takeNormalizedPythonResponse state = (none, state) := by
  rw [takeNormalizedPythonResponse, if_pos h]

theorem takeNormalized_inactive (h : state.active = false) :
    (takeNormalizedPythonResponse state).2 = { state with captured := [] } := by
  rw [takeNormalizedPythonResponse, if_neg (by rw [h]; exact Bool.false_ne_true)]

theorem waiting_take (h : Waiting parser state) : Waiting parser (takeNormalizedPythonResponse state).2 := by
  cases hactive : state.active with
  | true => rwa [takeNormalized_active hactive]
  | false =>
      rw [takeNormalized_inactive hactive]
      intro hactive'
      exact absurd (hactive.symm.trans hactive') Bool.false_ne_true

theorem waiting_step (h : Waiting parser state) (op : ObservationOp) :
    Waiting parser (observationStep parser state op).2 := by
  cases op with
  | begin names => exact fun _ => findFinalHead_nil parser
  | observe bytes =>
      cases hactive : state.active with
      | true =>
          rw [observationStep, observe_active hactive]
          exact waiting_inspect parser _
      | false => rwa [observationStep, observe_inactive hactive]
  | bufferPythonResponseBytes bytes =>
      simp only [observationStep, ResponseHeadState.bufferPythonResponseBytes]
      split
      · exact fun h => by cases h
      · exact waiting_take (waiting_inspect parser _)
  | completeOnEof =>
      simp only [observationStep, ResponseHeadState.completeOnEof]
      repeat' split
      all_goals first | exact h | exact fun h => by cases h
  | completePythonResponseOnEof =>
      simp only [observationStep, ResponseHeadState.completePythonResponseOnEof]
      split
      · exact h
      · split
        · exact h
        · exact waiting_take (waiting_inspect parser _)
  | takeRawHeaders => exact fun _ => findFinalHead_nil parser

theorem waiting_run {trace : List (ObservationOp × ObservationAnswer)} (hrun : (observationMachine parser).Run {} trace state) :
    Waiting parser state := by
  refine hrun.invariant (Waiting parser) (fun hactive => absurd hactive Bool.false_ne_true) ?_
  intro s op answer s' hs hstep
  have hsame : (observationStep parser s op).2 = s' := congrArg Prod.snd (Option.some.inj hstep)
  rw [← hsame]
  exact waiting_step hs op

end Runs

/-! ### Rejected heads -/

/-- The definite errors of a parser, apart from heads that are incomplete. -/
structure HeadErrors (parser : HeadParser) where
  rejects : Bytes → Bool
  not_complete : ∀ {s}, rejects s = true → parser.parse s = none

/-- What is parsed last: the bytes behind the complete interim heads. -/
def behindInterim (parser : HeadParser) (captured : Bytes) (start : Nat) : Bytes :=
  match _h : parsedResponseHead parser (captured.drop start) with
  | none => captured.drop start
  | some parsed =>
      if isInterim parsed.status then behindInterim parser captured (start + parsed.consumed) else captured.drop start
termination_by captured.length - start
decreasing_by
  obtain ⟨head, hparse, -⟩ := parsedResponseHead_parse _h
  have hpos := parser.consumed_pos hparse
  have hle := parser.consumed_le hparse
  rw [List.length_drop] at hle
  omega

/-- The state after reads of a Python session that were all held back. -/
def heldBack (parser : HeadParser) (state : ResponseHeadState) : List Bytes → Option ResponseHeadState
  | [] => some state
  | bytes :: rest =>
      if state.buffersPythonResponseHead then
        match state.bufferPythonResponseBytes parser bytes with
        | (none, next) => heldBack parser next rest
        | (some _, _) => none
      else none

section Rejected

variable {parser : HeadParser} {state : ResponseHeadState}

theorem findFinalHead_rejected {captured : Bytes} {start : Nat}
    (h : parser.parse (behindInterim parser captured start) = none) : findFinalHead parser captured start = none := by
  fun_induction findFinalHead parser captured start with
  | case1 start hparse => rfl
  | case2 start found hparse hinterim ih =>
      rw [behindInterim, hparse] at h
      simp only [hinterim, if_true] at h
      exact ih h
  | case3 start found hparse hfinal =>
      rw [behindInterim, hparse] at h
      simp only [hfinal, Bool.false_eq_true, if_false] at h
      obtain ⟨head, hcomplete, -⟩ := parsedResponseHead_parse hparse
      exact absurd (h.symm.trans hcomplete) (Option.some_ne_none _).symm

theorem buffer_incomplete (hactive : state.active = true) {bytes : Bytes}
    (hfits : state.captured.length + bytes.length ≤ maxResponseHeadBytes)
    (hnone : findFinalHead parser (state.captured ++ bytes) 0 = none) :
    state.bufferPythonResponseBytes parser bytes = (none, { state with captured := state.captured ++ bytes }) := by
  have hroom : ¬maxResponseHeadBytes - state.captured.length < bytes.length := by omega
  rw [bufferPythonResponseBytes]
  simp only [if_neg hroom]
  rw [inspect_none hnone, takeNormalized_active]
  exact hactive

theorem buffer_overshoots (parser : HeadParser) {bytes : Bytes} (hlong : maxResponseHeadBytes < state.captured.length + bytes.length)
    (hwithin : state.captured.length ≤ maxResponseHeadBytes) :
    (state.bufferPythonResponseBytes parser bytes).1 = some (state.captured ++ bytes) := by
  rw [bufferPythonResponseBytes]
  simp only [if_pos (show maxResponseHeadBytes - state.captured.length < bytes.length by omega)]

theorem buffer_completes {bytes : Bytes} {found : Nat × ParsedResponseHead}
    (hfits : state.captured.length + bytes.length ≤ maxResponseHeadBytes)
    (hfinal : findFinalHead parser (state.captured ++ bytes) 0 = some found) :
    (state.bufferPythonResponseBytes parser bytes).2.active = false := by
  have hroom : ¬maxResponseHeadBytes - state.captured.length < bytes.length := by omega
  rw [bufferPythonResponseBytes]
  simp only [if_neg hroom]
  rw [inspect_some hfinal, takeNormalized_inactive rfl]

theorem heldBack_inactive (hinactive : state.active = false) {reads : List Bytes} {held : ResponseHeadState}
    (h : heldBack parser state reads = some held) : held.active = false := by
  cases reads with
  | nil =>
      obtain rfl := Option.some.inj h
      exact hinactive
  | cons bytes rest =>
      rw [heldBack, buffersPythonResponseHead, hinactive] at h
      cases h

/-- A session that still holds back its head has captured all it received. -/
theorem heldBack_captured {reads : List Bytes} {held : ResponseHeadState} (h : heldBack parser state reads = some held)
    (hbuffers : held.buffersPythonResponseHead = true) (hwithin : state.captured.length ≤ maxResponseHeadBytes) :
    held.captured = state.captured ++ reads.flatten ∧ held.captured.length ≤ maxResponseHeadBytes := by
  induction reads generalizing state with
  | nil =>
      obtain rfl := Option.some.inj h
      exact ⟨(List.append_nil _).symm, hwithin⟩
  | cons bytes rest ih =>
      rw [heldBack] at h
      split at h
      · next hstate =>
          have hactive : state.active = true := (Bool.and_eq_true_iff.mp hstate).1
          by_cases hlong : maxResponseHeadBytes < state.captured.length + bytes.length
          · have hsome := buffer_overshoots parser hlong hwithin
            split at h
            · next hnone =>
                rw [hnone] at hsome
                cases hsome
            · cases h
          · have hfits := Nat.le_of_not_lt hlong
            cases hfinal : findFinalHead parser (state.captured ++ bytes) 0 with
            | none =>
                rw [buffer_incomplete hactive hfits hfinal] at h
                have hnext := ih h (by simpa using hfits)
                rw [hnext.1, List.flatten_cons, List.append_assoc]
                exact ⟨rfl, by simpa [hnext.1] using hnext.2⟩
            | some found =>
                -- The final head is complete, so nothing is held back any more.
                have hinactive := buffer_completes hfits hfinal
                split at h
                · next hnext =>
                    rw [hnext] at hinactive
                    rw [buffersPythonResponseHead, heldBack_inactive hinactive h] at hbuffers
                    cases hbuffers
                · cases h
      · cases h

end Rejected

/-- A rejected head is handed on exactly if the read goes past the limit. -/
theorem rejected_handed_iff {parser : HeadParser} (errors : HeadErrors parser) (state : ResponseHeadState) (names : List Bytes)
    {reads : List Bytes} {held : ResponseHeadState} (hheld : heldBack parser (state.begin (some names)) reads = some held)
    (hbuffers : held.buffersPythonResponseHead = true) {bytes : Bytes}
    (hrejected : errors.rejects (behindInterim parser (reads.flatten ++ bytes) 0) = true) :
    (held.bufferPythonResponseBytes parser bytes).1.isSome = true ↔ maxResponseHeadBytes < (reads.flatten ++ bytes).length := by
  obtain ⟨hcaptured, hwithin⟩ := heldBack_captured hheld hbuffers (Nat.zero_le _)
  have hactive : held.active = true := (Bool.and_eq_true_iff.mp hbuffers).1
  have hreceived : held.captured = reads.flatten := hcaptured
  rw [← hreceived] at hrejected ⊢
  rw [List.length_append]
  by_cases hlong : maxResponseHeadBytes < held.captured.length + bytes.length
  · rw [buffer_overshoots parser hlong hwithin]
    exact iff_of_true rfl hlong
  · have hnone := findFinalHead_rejected (errors.not_complete hrejected)
    rw [buffer_incomplete hactive (Nat.le_of_not_lt hlong) hnone]
    exact iff_of_false Bool.false_ne_true hlong

theorem readStatusLine_start {line : Bytes} {found : StatusLine} (h : readStatusLine line = some found) :
    ∃ rest, line = 72 :: rest := by
  unfold readStatusLine at h
  split at h
  · exact ⟨_, rfl⟩
  · cases h

theorem readResponseHead_start {b : UInt8} (hb : b ≠ 72 ∧ b ≠ 13 ∧ b ≠ 10) (rest : Bytes) :
    readResponseHead (b :: rest) = none := by
  cases hread : readResponseHead (b :: rest) with
  | none => rfl
  | some found =>
      obtain ⟨layout, tail, hlayout, -, hmeans⟩ := readResponseHead_layout hread
      have hfirst : (Layout.bytes layout ++ tail).head? = some b := by
        rw [← hlayout]
        rfl
      obtain ⟨blanks, status, headers, last⟩ := layout
      cases blanks with
      | nil =>
          obtain ⟨line, hline⟩ := readStatusLine_start hmeans.statusText
          rw [Layout.bytes, Line.bytes, hline] at hfirst
          exact absurd (Option.some.inj hfirst).symm hb.1
      | cons blank others =>
          cases blank with
          | crlf => exact absurd (Option.some.inj hfirst).symm hb.2.1
          | lf => exact absurd (Option.some.inj hfirst).symm hb.2.2

/-- Texts that start with no head, which `httparse` rejects at their first byte. -/
def startErrors : HeadErrors referenceParser where
  rejects s := s.head?.any fun b => b != 72 && b != 13 && b != 10
  not_complete {s} h := by
    cases s with
    | nil => cases h
    | cons b rest => exact readResponseHead_start (by simpa [and_assoc] using h) rest

/-- A text that is no response is held back like one that is incomplete. -/
theorem rejected_handed_text :
    ((({} : ResponseHeadState).begin (some [])).bufferPythonResponseBytes referenceParser (text "SSH-2.0\r\n")).1.isSome = true ↔
      maxResponseHeadBytes < (text "SSH-2.0\r\n").length := by
  have hheld : heldBack referenceParser (({} : ResponseHeadState).begin (some [])) [] =
      some (({} : ResponseHeadState).begin (some [])) := rfl
  exact rejected_handed_iff startErrors {} [] hheld rfl (by decide +kernel)

/-- A native session passes on at once what a Python session waits with. -/
theorem rejected_withheld :
    (∀ later : Bytes, referenceParser.parse (text "SSH-2.0\r\n" ++ later) = none) ∧
    startErrors.rejects (text "SSH-2.0\r\n") = true ∧
    ((({} : ResponseHeadState).begin (some [])).bufferPythonResponseBytes referenceParser (text "SSH-2.0\r\n")).1 = none ∧
    ((ResponseHeadIo.new ⟨text "SSH-2.0\r\n", []⟩ (({} : ResponseHeadState).begin (some []))).pollRead referenceParser 8192
      (.ready 8191)).1 = .pending ∧
    ((ResponseHeadIo.new ⟨text "SSH-2.0\r\n", []⟩ (({} : ResponseHeadState).begin none)).pollRead referenceParser 8192
      (.ready 8191)).1 = .ready (.ok (text "SSH-2.0\r\n")) := by
  refine ⟨fun later => ?_, by decide +kernel, by decide +kernel, by decide +kernel, by decide +kernel⟩
  have hstart : text "SSH-2.0\r\n" = 83 :: text "SH-2.0\r\n" := by decide
  have hparse : referenceParser.parse (text "SSH-2.0\r\n" ++ later) = readResponseHead (text "SSH-2.0\r\n" ++ later) := rfl
  rw [hparse, hstart, List.cons_append]
  exact readResponseHead_start (by decide) _

/-! ### The end of the stream -/

/-- Both ways to complete a head at the end of the stream agree: they complete the same heads, with the same headers and
message, and leave the captured bytes alone where they complete none. -/
structure EofAgrees (parser : HeadParser) (state : ResponseHeadState) : Prop where
  completed : (state.completeOnEof parser).1.isSome = true ↔ (state.completePythonResponseOnEof parser).1.isSome = true
  reported : (state.completeOnEof parser).1.isSome = true →
    (state.completeOnEof parser).2.rawHeaders = (state.completePythonResponseOnEof parser).2.rawHeaders ∧
    (state.completeOnEof parser).2.conflictingContentLength =
      (state.completePythonResponseOnEof parser).2.conflictingContentLength
  refused : (state.completeOnEof parser).1 = none → (state.completeOnEof parser).2.captured = state.captured
  refusedPython : (state.completePythonResponseOnEof parser).1 = none →
    (state.completePythonResponseOnEof parser).2.captured = state.captured

/-- A head ends with an empty line. -/
def EndsInLf (parser : HeadParser) : Prop := ∀ {s consumed head}, parser.parse s = some (consumed, head) →
  (s.take consumed).getLast? = some 10

section Eof

variable {parser : HeadParser} {state : ResponseHeadState}

theorem missingEnd_cases (captured : Bytes) : missingEnd captured = [13, 10] ∨ missingEnd captured = [13, 10, 13, 10] := by
  unfold missingEnd
  split
  · exact .inl (by decide)
  · exact .inr (by decide)

theorem complete_empty (parser : HeadParser) (h : state.captured = []) :
    state.completeOnEof parser = (none, state) ∧ state.completePythonResponseOnEof parser = (none, state) := by
  rw [completeOnEof, completePythonResponseOnEof, h]
  simp

variable (hactive : state.active = true) (hne : state.captured ≠ [])
  (hfits : state.captured.length + (missingEnd state.captured).length ≤ maxResponseHeadBytes)
include hactive hne hfits

theorem completeOnEof_some {parsed : ParsedResponseHead}
    (hparsed : parsedResponseHead parser (state.captured ++ missingEnd state.captured) = some parsed)
    (hfinal : isInterim parsed.status = false) :
    state.completeOnEof parser = (some (missingEnd state.captured),
      { state with
        conflictingContentLength := parsed.conflictingContentLength
        rawHeaders := parsed.rawHeaders
        active := false }) := by
  simp [completeOnEof, hactive, hne, hparsed, hfinal, Nat.not_lt.mpr hfits]

theorem completeOnEof_none (h : ¬∃ parsed,
    parsedResponseHead parser (state.captured ++ missingEnd state.captured) = some parsed ∧ isInterim parsed.status = false) :
    state.completeOnEof parser = (none, state) := by
  cases hparsed : parsedResponseHead parser (state.captured ++ missingEnd state.captured) with
  | none => simp [completeOnEof, hactive, hne, hparsed, Nat.not_lt.mpr hfits]
  | some parsed =>
      have hinterim : isInterim parsed.status = true := by
        by_contra hfinal
        exact h ⟨parsed, hparsed, eq_false_of_ne_true hfinal⟩
      simp [completeOnEof, hactive, hne, hparsed, hinterim, Nat.not_lt.mpr hfits]

theorem completePython_eq (parser : HeadParser) : state.completePythonResponseOnEof parser =
    takeNormalizedPythonResponse
      (inspectCompleteResponseHead parser { state with captured := state.captured ++ missingEnd state.captured }) := by
  simp [completePythonResponseOnEof, hactive, hne, Nat.not_lt.mpr hfits]

theorem completePython_captured (parser : HeadParser) :
    (state.completePythonResponseOnEof parser).2.captured ≠ state.captured := by
  have hlonger : state.captured ++ missingEnd state.captured ≠ state.captured := by
    intro heq
    have hnil := List.append_right_eq_self.mp heq
    obtain hend | hend := missingEnd_cases state.captured <;> exact absurd (hnil.symm.trans hend) (by decide)
  rw [completePython_eq hactive hne hfits parser]
  cases hfinal : findFinalHead parser (state.captured ++ missingEnd state.captured) 0 with
  | none =>
      rw [inspect_none hfinal, takeNormalized_active]
      · exact hlonger
      · exact hactive
  | some found =>
      rw [inspect_some hfinal, takeNormalized_inactive rfl]
      exact Ne.symm hne

end Eof

theorem completed_crlf {parser : HeadParser} (hends : EndsInLf parser) {captured : Bytes} {consumed : Nat} {head : ResponseHead}
    (hparse : parser.parse (captured ++ missingEnd captured) = some (consumed, head)) (hlong : captured.length < consumed) :
    (position (text "\r\n") ((captured ++ missingEnd captured).take consumed)).isSome = true := by
  obtain ⟨more, rfl⟩ : ∃ more, consumed = captured.length + (more + 1) := ⟨consumed - captured.length - 1, by omega⟩
  have hlast := hends hparse
  rw [List.take_length_add_append] at hlast ⊢
  have hcrlf : text "\r\n" = [13, 10] := by decide
  obtain ⟨later, hlater⟩ : ∃ later, (missingEnd captured).take (more + 1) = [13, 10] ++ later := by
    cases more with
    | zero =>
        have hfirst : (missingEnd captured).take 1 = [13] := by
          obtain hend | hend := missingEnd_cases captured <;> rw [hend] <;> rfl
        rw [hfirst, List.getLast?_append] at hlast
        cases hlast
    | succ more =>
        obtain hend | hend := missingEnd_cases captured <;> rw [hend]
        · exact ⟨[], by simp⟩
        · exact ⟨[13, 10].take more, by simp⟩
  rw [hlater, hcrlf]
  exact position_isSome (by simp) captured later

theorem findFinalHead_front {parser : HeadParser} {captured : Bytes} {parsed : ParsedResponseHead}
    (hparsed : parsedResponseHead parser captured = some parsed) (hfinal : isInterim parsed.status = false) :
    findFinalHead parser captured 0 = some (0, parsed) := by
  rw [findFinalHead, List.drop_zero, hparsed]
  simp only [hfinal, Bool.false_eq_true, if_false]

theorem completePython_isSome {parser : HeadParser} (hends : EndsInLf parser) {state : ResponseHeadState}
    (hwaiting : findFinalHead parser state.captured 0 = none) {parsed : ParsedResponseHead}
    (hparsed : parsedResponseHead parser (state.captured ++ missingEnd state.captured) = some parsed)
    (hfinal : isInterim parsed.status = false) :
    (takeNormalizedPythonResponse (inspectCompleteResponseHead parser
      { state with captured := state.captured ++ missingEnd state.captured })).1.isSome = true := by
  have hfront := findFinalHead_front hparsed hfinal
  by_cases hnormal : parsed.contentLengthNormalization = .none
  · rw [inspect_some hfront, takeNormalizedPythonResponse, hnormal]
    rfl
  · obtain ⟨head, hparse, -⟩ := parsedResponseHead_parse hparsed
    have hlong : state.captured.length < parsed.consumed := by
      -- Otherwise the head was complete without the missing bytes.
      by_contra hshort
      have htake := findFinalHead_take hfront state.captured.length
      rw [List.take_left, hwaiting, if_pos (by omega)] at htake
      cases htake
    obtain ⟨found, hfound⟩ := Option.isSome_iff_exists.mp (completed_crlf hends hparse hlong)
    rw [takeNormalized_inspect hfront hnormal, Option.isSome_map, headBytes, Nat.zero_add, List.drop_zero]
    cases hkind : parsed.contentLengthNormalization with
    | none => exact absurd hkind hnormal
    | ignore => simp [normalizedHead, hfound]
    | overflow => simp [normalizedHead, hfound]

/-- The two ways to complete a head agree exactly if nothing was captured, or a head that is not an interim one stands at the
front of the completed bytes. -/
theorem eofAgrees_iff {parser : HeadParser} (hends : EndsInLf parser) {state : ResponseHeadState}
    {trace : List (ObservationOp × ObservationAnswer)} (hrun : (observationMachine parser).Run {} trace state)
    (hactive : state.active = true)
    (hfits : state.captured.length + (missingEnd state.captured).length ≤ maxResponseHeadBytes) :
    EofAgrees parser state ↔ state.captured = [] ∨ ∃ parsed,
      parsedResponseHead parser (state.captured ++ missingEnd state.captured) = some parsed ∧ isInterim parsed.status = false := by
  by_cases hempty : state.captured = []
  · obtain ⟨hnative, hpython⟩ := complete_empty parser hempty
    refine iff_of_true ?_ (.inl hempty)
    constructor <;> simp [hnative, hpython]
  · rw [or_iff_right hempty]
    constructor
    · intro hagrees
      by_contra hnone
      have hnative := completeOnEof_none hactive hempty hfits hnone
      have hpython : (state.completePythonResponseOnEof parser).1 = none := by
        rw [← Option.not_isSome_iff_eq_none, ← hagrees.completed, hnative]
        exact Bool.false_ne_true
      exact completePython_captured hactive hempty hfits parser (hagrees.refusedPython hpython)
    · rintro ⟨parsed, hparsed, hfinal⟩
      have hnative := completeOnEof_some hactive hempty hfits hparsed hfinal
      have hsome := completePython_isSome hends (waiting_run hrun hactive) hparsed hfinal
      have hpython := completePython_eq hactive hempty hfits parser
      rw [← hpython] at hsome
      constructor
      · rw [hnative]
        exact iff_of_true rfl hsome
      · intro _
        rw [hnative, hpython, inspect_some (findFinalHead_front hparsed hfinal), takeNormalized_inactive rfl]
        exact ⟨rfl, rfl⟩
      · intro hnone
        rw [hnative] at hnone
        cases hnone
      · intro hnone
        rw [hnone] at hsome
        cases hsome

theorem referenceParser_endsInLf : EndsInLf referenceParser := by
  intro s consumed head hparse
  obtain ⟨layout, rest, rfl, rfl, -⟩ := readResponseHead_layout hparse
  have hlast : layout.last.bytes.getLast? = some 10 := by cases layout.last <;> rfl
  rw [List.take_left, Layout.bytes, ← List.append_assoc, ← List.append_assoc, List.getLast?_append, hlast]
  rfl

/-- An exchange whose stream ends behind these bytes. -/
def cutOff (stream : Bytes) : ResponseHeadState := (({} : ResponseHeadState).begin none).observe referenceParser stream

theorem cutOff_run (stream : Bytes) :
    (observationMachine referenceParser).Run {} [(.begin none, .done), (.observe stream, .done)] (cutOff stream) := by
  have hbegin : (observationMachine referenceParser).step {} (.begin none) =
      some (.done, ({} : ResponseHeadState).begin none) := rfl
  have hobserve : (observationMachine referenceParser).step (({} : ResponseHeadState).begin none) (.observe stream) =
      some (.done, cutOff stream) := rfl
  exact .cons hbegin (.cons hobserve .nil)

/-- A head without its last line. -/
theorem eofAgrees_truncated :
    EofAgrees referenceParser (cutOff (text "HTTP/1.1 200 OK\r\nTransfer-Encoding: chunked\r\n")) := by
  refine (eofAgrees_iff referenceParser_endsInLf (cutOff_run _) (by decide +kernel) (by decide +kernel)).mpr (.inr ?_)
  exact ⟨⟨47, 200, .none, none, [(text "Transfer-Encoding", text "chunked")]⟩, by decide +kernel, rfl⟩

/-- Behind an interim head only a Python session completes the final one, and a head that no session completes is left with
two more line ends in it. -/
theorem eof_interim_differs :
    (cutOff (text "HTTP/1.1 100 Continue\r\n\r\nHTTP/1.1 200 OK\r\nServer: a\r\n")).active = true ∧
    ((cutOff (text "HTTP/1.1 100 Continue\r\n\r\nHTTP/1.1 200 OK\r\nServer: a\r\n")).completeOnEof referenceParser).1 = none ∧
    ((cutOff (text "HTTP/1.1 100 Continue\r\n\r\nHTTP/1.1 200 OK\r\nServer: a\r\n")).completePythonResponseOnEof
      referenceParser).1 = some (text "HTTP/1.1 100 Continue\r\n\r\nHTTP/1.1 200 OK\r\nServer: a\r\n\r\n") ∧
    (cutOff (text "HTTP/1.1 ok")).active = true ∧
    ((cutOff (text "HTTP/1.1 ok")).completePythonResponseOnEof referenceParser).1 = none ∧
    ((cutOff (text "HTTP/1.1 ok")).completePythonResponseOnEof referenceParser).2.captured =
      text "HTTP/1.1 ok\r\n\r\n" ∧
    ¬EofAgrees referenceParser (cutOff (text "HTTP/1.1 100 Continue\r\n\r\nHTTP/1.1 200 OK\r\nServer: a\r\n")) := by
  refine ⟨by decide +kernel, by decide +kernel, by decide +kernel, by decide +kernel, by decide +kernel, by decide +kernel, ?_⟩
  intro hagrees
  exact absurd hagrees.completed (by decide +kernel)

end RequestsNative.Transport
