import RequestsNative.Lib.Machine
import RequestsNative.Transport.ResponseHead

/-!
# The stream under the wire library

`transport/mod.rs`: `ResponseHeadIo`, which stands between the socket and the wire library. It holds back the
head of a Python response until it is complete, and the head of a request until it is written, to rewrite
both. What the socket does is a parameter of each call: one arrival for a read, a script of answers for the
writes. `received` is everything the peer got and `unread` everything it will still send.
-/

namespace RequestsNative.Transport

open RequestsNative.Lib

/-! ### Rewriting a request head -/

/-- `python_default_header_spelling`: the first letter of each part is a capital. -/
def pythonDefaultHeaderSpelling (lower : Bytes) : Bytes :=
  List.intercalate [45] ((lower.splitOn 45).map fun part => part.modifyHead asciiUpper)

/-- One header line in the spelling that was asked for, and whether it is a `Host` line that was not. -/
def respellHeaderLine (names : KeyMap Bytes Bytes) (line : Bytes) : Bool × Bytes :=
  match position [58] line with
  | none => (false, line)
  | some colon =>
      let lower := toAsciiLowercase (fromUtf8Lossy (line.take colon))
      let host := lower == text "host" && (names.lookup (text "host")).isNone
      let spelling := (names.lookup lower).getD (pythonDefaultHeaderSpelling lower)
      (host, if spelling.length = colon then spelling ++ line.drop colon else line)

/-- The loop over the header lines; `rest` ends with the CR LF of the last of them. -/
def respellHeaderLines (names : KeyMap Bytes Bytes) (rest : Bytes) : List (Bool × Bytes) :=
  if rest.length ≤ 2 then []
  else
    match position (text "\r\n") rest with
    | none => []
    | some relativeEnd =>
        respellHeaderLine names (rest.take relativeEnd) :: respellHeaderLines names (rest.drop (relativeEnd + 2))
termination_by rest.length
decreasing_by
  rw [List.length_drop]
  omega

def writeLines (lines : List Bytes) : Bytes := lines.flatMap (· ++ text "\r\n")

namespace ResponseHeadState

/-- The request head that ends at the first empty line, in Python's spelling and with `Host` first. -/
def rewritePythonRequestHead (state : ResponseHeadState) (bytes : Bytes) : Bytes :=
  match state.pythonHeaderNames with
  | none => bytes
  | some names =>
      match position (text "\r\n\r\n") bytes with
      | none => bytes
      | some headEnd =>
          match position (text "\r\n") (bytes.take headEnd) with
          | none => bytes
          | some firstLineEnd =>
              let requestLine := bytes.take firstLineEnd
              let tail := bytes.drop (headEnd + 4)
              let headers := respellHeaderLines names ((bytes.take (headEnd + 2)).drop (firstLineEnd + 2))
              requestLine ++ text "\r\n" ++ writeLines ((headers.filter (·.1)).map (·.2)) ++
                writeLines ((headers.filter (!·.1)).map (·.2)) ++ text "\r\n" ++ tail

end ResponseHeadState

/-! ### The socket -/

inductive IoError
  | writeZero
  | inner (code : Nat)
  deriving DecidableEq, Repr

structure Socket where
  unread : Bytes
  received : Bytes
  deriving DecidableEq, Repr

/-- What a read of the socket finds: at most `more + 1` bytes. An end of stream is a read of nothing. -/
inductive Arrival
  | ready (more : Nat) | error (error : IoError) | pending
  deriving DecidableEq, Repr

/-- What one write to the socket does: at most `amount` bytes are taken. -/
inductive InnerWrite
  | ready (amount : Nat) | error (error : IoError) | pending
  deriving DecidableEq, Repr

namespace Socket

def pollRead (socket : Socket) (arrival : Arrival) (room : Nat) : Poll (Except IoError Bytes) × Socket :=
  match arrival with
  | .pending => (.pending, socket)
  | .error error => (.ready (.error error), socket)
  | .ready more =>
      let amount := min (more + 1) room
      (.ready (.ok (socket.unread.take amount)), { socket with unread := socket.unread.drop amount })

/-- The script holds the answers to the writes of one call; when it runs out the socket is not ready. -/
def pollWrite (socket : Socket) (script : List InnerWrite) (buffer : Bytes) :
    Poll (Except IoError Nat) × Socket × List InnerWrite :=
  match script with
  | [] => (.pending, socket, [])
  | .pending :: rest => (.pending, socket, rest)
  | .error error :: rest => (.ready (.error error), socket, rest)
  | .ready amount :: rest =>
      let written := min amount buffer.length
      (.ready (.ok written), { socket with received := socket.received ++ buffer.take written }, rest)

theorem pollWrite_unread (socket : Socket) (script : List InnerWrite) (buffer : Bytes) :
    (socket.pollWrite script buffer).2.1.unread = socket.unread := by
  unfold pollWrite
  split <;> rfl

end Socket

structure ResponseHeadIo where
  inner : Socket
  observation : ResponseHeadState
  injected : Bytes
  outgoing : Bytes
  outgoingOffset : Nat
  outgoingHeadComplete : Bool
  generation : Nat

namespace ResponseHeadIo

def new (inner : Socket) (observation : ResponseHeadState) : ResponseHeadIo :=
  ⟨inner, observation, [], [], 0, false, 0⟩

/-- The bytes that fit in the caller's buffer. -/
def fillInjected (io : ResponseHeadIo) (room : Nat) : Bytes × ResponseHeadIo :=
  (io.injected.take room, { io with injected := io.injected.drop room })

/-- Accepted bytes the socket has not taken. -/
def unsent (io : ResponseHeadIo) : Bytes := io.outgoing.drop io.outgoingOffset

/-- What both reads and writes do first: a new request starts with nothing held back. The code asserts that
nothing is. -/
def syncGeneration (io : ResponseHeadIo) : ResponseHeadIo :=
  if io.observation.generation ≠ io.generation then
    { io with
      outgoing := []
      outgoingOffset := 0
      outgoingHeadComplete := false
      generation := io.observation.generation }
  else io

/-- `poll_drain_outgoing`; each write takes one answer of the script. -/
def pollDrainOutgoing (io : ResponseHeadIo) : List InnerWrite →
    Poll (Except IoError Unit) × ResponseHeadIo × List InnerWrite
  | script =>
      if io.outgoingOffset < io.outgoing.length then
        match script with
        | [] => (.pending, io, [])
        | .pending :: rest => (.pending, io, rest)
        | .error error :: rest => (.ready (.error error), io, rest)
        | .ready amount :: rest =>
            let written := min amount io.unsent.length
            if written = 0 then (.ready (.error .writeZero), io, rest)
            else
              pollDrainOutgoing
                { io with
                  inner := { io.inner with received := io.inner.received ++ io.unsent.take written }
                  outgoingOffset := io.outgoingOffset + written } rest
      else (.ready (.ok ()), { io with outgoing := [], outgoingOffset := 0 }, script)

/-- Accepted bytes are sent before more are accepted. -/
def drainBeforeWrite (io : ResponseHeadIo) (script : List InnerWrite) :
    Poll (Except IoError Unit) × ResponseHeadIo × List InnerWrite :=
  if io.outgoingOffset < io.outgoing.length then io.pollDrainOutgoing script else (.ready (.ok ()), io, script)

/-- A buffer is held back until an empty line stands in what is held, and rewritten then. -/
def acceptBuffer (io : ResponseHeadIo) (buffer : Bytes) : ResponseHeadIo :=
  let outgoing := io.outgoing ++ buffer
  if (position (text "\r\n\r\n") outgoing).isSome then
    { io with
      outgoing := io.observation.rewritePythonRequestHead outgoing
      outgoingHeadComplete := true }
  else { io with outgoing }

def pollWrite (io : ResponseHeadIo) (script : List InnerWrite) (buffer : Bytes) :
    Poll (Except IoError Nat) × ResponseHeadIo :=
  match io.syncGeneration.drainBeforeWrite script with
  | (.pending, io, _) => (.pending, io)
  | (.ready (.error error), io, _) => (.ready (.error error), io)
  | (.ready (.ok ()), io, script) =>
      if io.outgoingHeadComplete then
        ((io.inner.pollWrite script buffer).1, { io with inner := (io.inner.pollWrite script buffer).2.1 })
      else (.ready (.ok buffer.length), io.acceptBuffer buffer)

/-- `poll_flush` and `poll_shutdown`: both drain and then ask the socket, which answers `flushed`. -/
def pollFlush (io : ResponseHeadIo) (script : List InnerWrite) (flushed : Poll (Except IoError Unit)) :
    Poll (Except IoError Unit) × ResponseHeadIo :=
  match io.pollDrainOutgoing script with
  | (.ready (.ok ()), io, _) => (flushed, io)
  | (result, io, _) => (result, io)

def pollShutdown (io : ResponseHeadIo) (script : List InnerWrite) (closed : Poll (Except IoError Unit)) :
    Poll (Except IoError Unit) × ResponseHeadIo :=
  io.pollFlush script closed

/-- The read of a head that is held back. -/
def pollReadHead (parser : HeadParser) (io : ResponseHeadIo) (room : Nat) (arrival : Arrival) :
    Poll (Except IoError Bytes) × ResponseHeadIo :=
  match io.inner.pollRead arrival 8192 with
  | (.pending, inner) => (.pending, { io with inner })
  | (.ready (.error error), inner) => (.ready (.error error), { io with inner })
  | (.ready (.ok incoming), inner) =>
      if incoming = [] then
        let (injected, observation) := io.observation.completePythonResponseOnEof parser
        let io := { io with inner, observation }
        match injected with
        | none => (.ready (.ok []), io)
        | some injected =>
            let (bytes, io) := { io with injected := io.injected ++ injected }.fillInjected room
            (.ready (.ok bytes), io)
      else
        let (injected, observation) := io.observation.bufferPythonResponseBytes parser incoming
        let io := { io with inner, observation }
        match injected with
        | none => (.pending, io)
        | some injected =>
            let (bytes, io) := { io with injected := io.injected ++ injected }.fillInjected room
            (.ready (.ok bytes), io)

/-- `poll_read` with `room` bytes left in the caller's buffer; the result is what is put there. -/
def pollRead (parser : HeadParser) (io : ResponseHeadIo) (room : Nat) (arrival : Arrival) :
    Poll (Except IoError Bytes) × ResponseHeadIo :=
  let io := io.syncGeneration
  if io.injected ≠ [] then
    let (bytes, io) := io.fillInjected room
    (.ready (.ok bytes), io)
  else if io.observation.buffersPythonResponseHead then io.pollReadHead parser room arrival
  else
    match io.inner.pollRead arrival room with
    | (.pending, inner) => (.pending, { io with inner })
    | (.ready (.error error), inner) => (.ready (.error error), { io with inner })
    | (.ready (.ok read), inner) =>
        if read = [] then
          let (injected, observation) := io.observation.completeOnEof parser
          let io := { io with inner, observation }
          match injected with
          | none => (.ready (.ok []), io)
          | some injected =>
              let (bytes, io) := { io with injected := io.injected ++ injected }.fillInjected room
              (.ready (.ok bytes), io)
        else (.ready (.ok read), { io with inner, observation := io.observation.observe parser read })

/-- `ResponseHeadObservation::begin`, on the observation the stream shares with its connection. -/
def begin (io : ResponseHeadIo) (pythonHeaderNames : Option (List Bytes)) : ResponseHeadIo :=
  { io with observation := io.observation.begin pythonHeaderNames }

end ResponseHeadIo

/-! ### The calls of one exchange -/

inductive IoOp
  | read (room : Nat) (arrival : Arrival)
  | write (script : List InnerWrite) (buffer : Bytes)
  | flush (script : List InnerWrite) (flushed : Poll (Except IoError Unit))
  | shutdown (script : List InnerWrite) (closed : Poll (Except IoError Unit))
  deriving DecidableEq, Repr

inductive IoAnswer
  | read (result : Poll (Except IoError Bytes))
  | write (result : Poll (Except IoError Nat))
  | flush (result : Poll (Except IoError Unit))
  deriving DecidableEq, Repr

def ioStep (parser : HeadParser) (io : ResponseHeadIo) : IoOp → IoAnswer × ResponseHeadIo
  | .read room arrival => ((.read (io.pollRead parser room arrival).1), (io.pollRead parser room arrival).2)
  | .write script buffer => ((.write (io.pollWrite script buffer).1), (io.pollWrite script buffer).2)
  | .flush script flushed => ((.flush (io.pollFlush script flushed).1), (io.pollFlush script flushed).2)
  | .shutdown script closed => ((.flush (io.pollShutdown script closed).1), (io.pollShutdown script closed).2)

abbrev IoTrace := List (IoOp × IoAnswer)

def ioMachine (parser : HeadParser) : Machine ResponseHeadIo IoOp IoAnswer := ⟨fun io op => some (ioStep parser io op)⟩

end RequestsNative.Transport
