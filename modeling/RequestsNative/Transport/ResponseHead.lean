import RequestsNative.Ascii
import RequestsNative.Lib.KeyedBags
import RequestsNative.Lib.Lines

/-!
# The response-head observer

`transport/mod.rs`: the state that captures a response head while it arrives, reads its headers with the
third-party parser, and for a Python session rewrites what the wire library would refuse. The parser is a
parameter, `HeadParser`, with the three facts about it the observer relies on. The mutex of the observer
only ever serves one task at a time, so its methods are functions on the state.
-/

namespace RequestsNative.Transport

open RequestsNative.Lib

/-- A header as it stands in the head: name and value. -/
abbrev RawHeader := Bytes × Bytes

/-- `httparse::Response` after a complete parse. -/
structure ResponseHead where
  version : Nat
  code : Nat
  reason : Bytes
  headers : List RawHeader
  deriving DecidableEq, Repr

/-- A parser that reads a response head off the front of a byte string, if there is one. Partial input and
malformed input both give `none`, since the observer treats them alike. -/
structure HeadParser where
  parse : Bytes → Option (Nat × ResponseHead)
  consumed_pos : ∀ {s consumed head}, parse s = some (consumed, head) → 0 < consumed
  consumed_le : ∀ {s consumed head}, parse s = some (consumed, head) → consumed ≤ s.length
  /-- What completes on a prefix completes identically on every extension, and on the head alone. -/
  parse_stable : ∀ {s consumed head}, parse s = some (consumed, head) →
    ∀ t, parse (s.take consumed ++ t) = some (consumed, head)

namespace HeadParser

variable {parser : HeadParser} {s : Bytes} {consumed : Nat} {head : ResponseHead}

theorem parse_append (h : parser.parse s = some (consumed, head)) (t : Bytes) :
    parser.parse (s ++ t) = some (consumed, head) := by
  have hstable := parser.parse_stable h (s.drop consumed ++ t)
  rwa [← List.append_assoc, List.take_append_drop] at hstable

theorem parse_take (h : parser.parse s = some (consumed, head)) {n : Nat} (hn : consumed ≤ n) :
    parser.parse (s.take n) = some (consumed, head) := by
  have hstable := parser.parse_stable h ((s.take n).drop consumed)
  rwa [show s.take consumed = (s.take n).take consumed by rw [List.take_take, Nat.min_eq_left hn],
    List.take_append_drop] at hstable

/-- Nothing completes before the end of the head. -/
theorem parse_take_none (h : parser.parse s = some (consumed, head)) {n : Nat} (hn : n < consumed) :
    parser.parse (s.take n) = none := by
  cases hparse : parser.parse (s.take n) with
  | none => rfl
  | some found =>
      obtain ⟨other, head'⟩ := found
      have hle := parser.consumed_le hparse
      have hsame := parser.parse_append hparse (s.drop n)
      rw [List.take_append_drop, h, Option.some.injEq, Prod.mk.injEq] at hsame
      rw [List.length_take] at hle
      omega

end HeadParser

def maxResponseHeadBytes : Nat := 8192 + 4096 * 100

inductive ContentLengthNormalization
  | none | ignore | overflow
  deriving DecidableEq, Repr

structure ParsedResponseHead where
  consumed : Nat
  status : Nat
  contentLengthNormalization : ContentLengthNormalization
  conflictingContentLength : Option Bytes
  rawHeaders : List RawHeader
  deriving DecidableEq, Repr

/-- The two headers the observer reads. -/
def isContentLength (name : Bytes) : Bool := eqIgnoreAsciiCase name (text "content-length")

def isTransferEncoding (name : Bytes) : Bool := eqIgnoreAsciiCase name (text "transfer-encoding")

/-- One value of a comma-separated `Content-Length`: no length at all, or its digits without leading zeroes. -/
def contentLengthToken (token : Bytes) : Option Bytes :=
  let token := trimAscii token
  if token = [] ∨ token.all isAsciiDigit = false then none else some (trimLeadingAsciiZeroes token)

def contentLengthTokens (headers : List RawHeader) : List (Option Bytes) :=
  (headers.filter (isContentLength ·.1)).flatMap fun header => (header.2.splitOn 44).map contentLengthToken

def isChunked (headers : List RawHeader) : Bool :=
  (headers.filter fun header => !isContentLength header.1 && isTransferEncoding header.1).any fun header =>
    (header.2.splitOn 44).any fun coding => eqIgnoreAsciiCase (trimAscii coding) (text "chunked")

/-- The classification `parsed_response_head` makes of the `Content-Length` headers. -/
def contentLengthDecision (headers : List RawHeader) : ContentLengthNormalization × Option Bytes :=
  let tokens := contentLengthTokens headers
  let contentLengths := tokens.filterMap id
  let invalidContentLength := tokens.any (·.isNone)
  let overflowingContentLength := contentLengths.any fun canonical => (parseU64 canonical).isNone
  let chunked := isChunked headers
  let conflicting := !invalidContentLength && !chunked &&
    (contentLengths.head?.any fun first => contentLengths.any (· != first))
  let conflictingContentLength :=
    if conflicting then
      some (text "Content-Length contained multiple unmatching values (" ++
        List.intercalate (text ", ") ((headers.filter (isContentLength ·.1)).map fun header => fromUtf8Lossy header.2) ++
        text ")")
    else none
  let contentLengthNormalization : ContentLengthNormalization :=
    if invalidContentLength then .ignore
    else if overflowingContentLength && !conflicting then if chunked then .ignore else .overflow
    else .none
  (contentLengthNormalization, conflictingContentLength)

def parsedResponseHead (parser : HeadParser) (bytes : Bytes) : Option ParsedResponseHead :=
  (parser.parse bytes).map fun (consumed, head) =>
    { consumed
      status := head.code
      contentLengthNormalization := (contentLengthDecision head.headers).1
      conflictingContentLength := (contentLengthDecision head.headers).2
      rawHeaders := head.headers }

theorem parsedResponseHead_parse {parser : HeadParser} {bytes : Bytes} {parsed : ParsedResponseHead}
    (h : parsedResponseHead parser bytes = some parsed) :
    ∃ head, parser.parse bytes = some (parsed.consumed, head) ∧ parsed.status = head.code ∧
      parsed.rawHeaders = head.headers ∧
      parsed.contentLengthNormalization = (contentLengthDecision head.headers).1 := by
  obtain ⟨⟨consumed, head⟩, hparse, rfl⟩ := Option.map_eq_some_iff.mp h
  exact ⟨head, hparse, rfl, rfl, rfl⟩

/-- An informational response other than a switch of protocols is not the final one. -/
def isInterim (status : Nat) : Bool := 100 ≤ status && status < 200 && status != 101

structure ResponseHeadState where
  generation : Nat := 0
  active : Bool := false
  captured : Bytes := []
  finalHeadStart : Nat := 0
  finalHeadConsumed : Nat := 0
  contentLengthNormalization : ContentLengthNormalization := .none
  conflictingContentLength : Option Bytes := none
  rawHeaders : List RawHeader := []
  pythonHeaderNames : Option (KeyMap Bytes Bytes) := none

/-- The spelling of each name under its lower-case form; a later name replaces an earlier one. -/
def headerSpellings (names : List Bytes) : KeyMap Bytes Bytes :=
  names.foldl (fun spellings name => spellings.insert (toAsciiLowercase name) name) ∅

namespace ResponseHeadState

def begin (state : ResponseHeadState) (pythonHeaderNames : Option (List Bytes)) : ResponseHeadState :=
  { generation := (state.generation + 1) % 2 ^ 64
    active := true
    pythonHeaderNames := pythonHeaderNames.map headerSpellings }

/-- The loop of `inspect_complete_response_head`: the first complete head that is not an interim one. -/
def findFinalHead (parser : HeadParser) (captured : Bytes) (start : Nat) : Option (Nat × ParsedResponseHead) :=
  match _h : parsedResponseHead parser (captured.drop start) with
  | none => none
  | some parsed =>
      if isInterim parsed.status then findFinalHead parser captured (start + parsed.consumed)
      else some (start, parsed)
termination_by captured.length - start
decreasing_by
  obtain ⟨head, hparse, -⟩ := parsedResponseHead_parse _h
  have hpos := parser.consumed_pos hparse
  have hle := parser.consumed_le hparse
  rw [List.length_drop] at hle
  omega

def inspectCompleteResponseHead (parser : HeadParser) (state : ResponseHeadState) : ResponseHeadState :=
  match findFinalHead parser state.captured 0 with
  | none => state
  | some (start, parsed) =>
      { state with
        finalHeadStart := start
        finalHeadConsumed := parsed.consumed
        contentLengthNormalization := parsed.contentLengthNormalization
        conflictingContentLength := parsed.conflictingContentLength
        rawHeaders := parsed.rawHeaders
        active := false }

def headerLine (name value : Bytes) : Bytes := name ++ text ": " ++ value ++ text "\r\n"

/-- The loop over the raw headers of `take_normalized_python_response`. -/
def normalizedHeaderLines (normalization : ContentLengthNormalization) : Bool → List RawHeader → Bytes
  | _, [] => []
  | wroteOverflow, (name, value) :: rest =>
      if isContentLength name then
        if normalization = .overflow ∧ wroteOverflow = false then
          -- a length the wire library still accepts, so that the body stays incomplete
          text "Content-Length: 9223372036854775807\r\n" ++ normalizedHeaderLines normalization true rest
        else normalizedHeaderLines normalization wroteOverflow rest
      else headerLine name value ++ normalizedHeaderLines normalization wroteOverflow rest

/-- The final head as it is handed on, if it has to be rewritten: its first line as it stands up to the first
CR LF, and the headers written anew. -/
def normalizedHead (normalization : ContentLengthNormalization) (rawHeaders : List RawHeader) (finalHead : Bytes) :
    Option Bytes :=
  match normalization with
  | .none => some finalHead
  | normalization =>
      (position (text "\r\n") finalHead).map fun firstLineEnd =>
        finalHead.take (firstLineEnd + 2) ++ normalizedHeaderLines normalization false rawHeaders ++ text "\r\n"

/-- The captured bytes are taken first, so `none` from the rewriting loses them. -/
def takeNormalizedPythonResponse (state : ResponseHeadState) : Option Bytes × ResponseHeadState :=
  if state.active then (none, state)
  else
    let captured := state.captured
    let start := state.finalHeadStart
    let finish := start + state.finalHeadConsumed
    let finalHead := (captured.take finish).drop start
    let normalized :=
      match state.contentLengthNormalization with
      | .none => some captured
      | normalization =>
          (normalizedHead normalization state.rawHeaders finalHead).map fun head =>
            captured.take start ++ head ++ captured.drop finish
    (normalized, { state with captured := [] })

def observe (parser : HeadParser) (state : ResponseHeadState) (bytes : Bytes) : ResponseHeadState :=
  if !state.active then state
  else
    let remaining := maxResponseHeadBytes - state.captured.length
    inspectCompleteResponseHead parser { state with captured := state.captured ++ bytes.take remaining }

def buffersPythonResponseHead (state : ResponseHeadState) : Bool :=
  state.active && state.pythonHeaderNames.isSome

/-- A read that goes past the limit passes everything on as it came. -/
def bufferPythonResponseBytes (parser : HeadParser) (state : ResponseHeadState) (bytes : Bytes) :
    Option Bytes × ResponseHeadState :=
  let remaining := maxResponseHeadBytes - state.captured.length
  if remaining < bytes.length then
    (some (state.captured ++ bytes), { state with captured := [], active := false, pythonHeaderNames := none })
  else
    takeNormalizedPythonResponse
      (inspectCompleteResponseHead parser { state with captured := state.captured ++ bytes })

/-- What is missing at the end of the stream to end a head. -/
def missingEnd (captured : Bytes) : Bytes :=
  if text "\r\n" <:+ captured then text "\r\n" else text "\r\n\r\n"

def completePythonResponseOnEof (parser : HeadParser) (state : ResponseHeadState) :
    Option Bytes × ResponseHeadState :=
  if !state.active || state.captured.isEmpty then (none, state)
  else
    let suffix := missingEnd state.captured
    if maxResponseHeadBytes < state.captured.length + suffix.length then (none, state)
    else
      takeNormalizedPythonResponse
        (inspectCompleteResponseHead parser { state with captured := state.captured ++ suffix })

def completeOnEof (parser : HeadParser) (state : ResponseHeadState) : Option Bytes × ResponseHeadState :=
  if !state.active || state.captured.isEmpty then (none, state)
  else
    let suffix := missingEnd state.captured
    if maxResponseHeadBytes < state.captured.length + suffix.length then (none, state)
    else
      match parsedResponseHead parser (state.captured ++ suffix) with
      | none => (none, state)
      | some parsed =>
          if isInterim parsed.status then (none, state)
          else
            (some suffix,
              { state with
                conflictingContentLength := parsed.conflictingContentLength
                rawHeaders := parsed.rawHeaders
                active := false })

def takeRawHeaders (state : ResponseHeadState) : List RawHeader × ResponseHeadState :=
  (state.rawHeaders, { state with captured := [], pythonHeaderNames := none, rawHeaders := [] })

end ResponseHeadState

end RequestsNative.Transport
