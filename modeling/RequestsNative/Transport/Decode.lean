import RequestsNative.Base

/-!
# Decoding a body

`transport/decode.rs`: the body of a response with a content encoding. A reader takes the frames of the wire and
shows their bytes to a decoder, which belongs to another crate: it is any program that looks at the bytes the reader
has, consumes some of them, and ends with bytes, an error or neither. The body polls the decoder, keeps an error that
came with bytes for the next call, and looks at what the wire says before it believes the decoder.

The wire stands beside the body, not in it, so that one can still say how it ended when the body is gone. A call that
does not return (`none`) has failed an assertion.
-/

namespace RequestsNative.Transport.Decode

/-! ### The wire -/

/-- `hyper::body::Frame`. -/
inductive Frame
  | data (bytes : Bytes)
  | trailers
  deriving DecidableEq, Repr

/-- The frames of a body as they become ready. -/
structure Incoming where
  script : List (Poll Frame)
  /-- The text of the error the body ends with; without one it ends cleanly. -/
  ending : Option Bytes := none
  /-- The end has been polled. -/
  ended : Bool := false
  deriving DecidableEq, Repr

namespace Incoming

/-- `hyper::body::Body::poll_frame` when there is no frame left. -/
def pollEnd (wire : Incoming) : Option (Except Bytes Frame) × Incoming :=
  match wire.ending, wire.ended with
  | some error, false => (some (.error error), { wire with script := [], ended := true })
  | _, _ => (none, { wire with script := [], ended := true })

end Incoming

/-- The bytes of the frames to come. -/
def scriptBytes (script : List (Poll Frame)) : Nat :=
  (script.map fun | .ready (.data bytes) => bytes.length | _ => 0).sum

/-! ### The reader -/

/-- `std::io::ErrorKind`, as far as it is told apart. -/
inductive IoErrorKind
  | unexpectedEof | other | another
  deriving DecidableEq, Repr

structure IoError where
  kind : IoErrorKind
  message : Bytes
  deriving DecidableEq, Repr

structure IncomingReader where
  buffered : Bytes := []
  bufferedOffset : Nat := 0
  replay : Bytes := []
  replayOffset : Nat := 0
  tentative : Bytes := []
  recordTentative : Bool := false
  transportError : Option Error := none
  cleanEof : Bool := false
  chunked : Bool
  inputLimit : Option Nat := none
  wireProgress : Bool := false
  deriving DecidableEq, Repr

/-- The bytes from `offset` on, no more than the limit. -/
def slice (bytes : Bytes) (offset : Nat) (limit : Option Nat) : Bytes :=
  match limit with
  | none => bytes.drop offset
  | some limit => (bytes.drop offset).take limit

namespace IncomingReader

def new (chunked : Bool) : IncomingReader := { chunked }

def limitInputUntilOutput (reader : IncomingReader) (limit : Nat) : IncomingReader := { reader with inputLimit := some limit }

def removeInputLimit (reader : IncomingReader) : IncomingReader := { reader with inputLimit := none }

def startTentativeRecording (reader : IncomingReader) : IncomingReader := { reader with recordTentative := true }

def stopTentativeRecording (reader : IncomingReader) : IncomingReader :=
  { reader with recordTentative := false, tentative := [] }

def installTentativeReplay (reader : IncomingReader) : IncomingReader :=
  { reader with recordTentative := false, replay := reader.tentative, tentative := [], replayOffset := 0 }

def takeTransportError (reader : IncomingReader) : Option Error × IncomingReader :=
  (reader.transportError, { reader with transportError := none })

/-- What `poll_fill_buf` can show without the wire. -/
def shown (reader : IncomingReader) : Option Bytes :=
  if reader.replayOffset < reader.replay.length then some (slice reader.replay reader.replayOffset reader.inputLimit)
  else if reader.bufferedOffset < reader.buffered.length then
    some (slice reader.buffered reader.bufferedOffset reader.inputLimit)
  else if reader.transportError.isSome || reader.cleanEof then some []
  else none

/-- What one polled frame leaves in the reader. -/
def takeFrame (reader : IncomingReader) : Option (Except Bytes Frame) → IncomingReader
  | some (.ok (.data bytes)) =>
      if bytes = [] then reader else { reader with wireProgress := true, buffered := bytes, bufferedOffset := 0 }
  | some (.ok .trailers) => reader
  | some (.error error) =>
      { reader with transportError := some (if reader.chunked then .chunkedEncoding error else .responseBody error) }
  | none => { reader with cleanEof := true }

/-- The loop of `poll_fill_buf`, over the frames that are left. -/
def fillFrom : List (Poll Frame) → Incoming → IncomingReader → Poll (Except IoError Bytes) × Incoming × IncomingReader
  | script, wire, reader =>
      match reader.shown with
      | some available => (.ready (.ok available), { wire with script }, reader)
      | none =>
          match script with
          | .pending :: script => (.pending, { wire with script }, reader)
          | .ready frame :: script => fillFrom script wire (reader.takeFrame (some (.ok frame)))
          | [] =>
              let (frame, wire) := wire.pollEnd
              let reader := reader.takeFrame frame
              (.ready (.ok (reader.shown.getD [])), wire, reader)

/-- `AsyncBufRead::poll_fill_buf`. -/
def pollFillBuf (wire : Incoming) (reader : IncomingReader) : Poll (Except IoError Bytes) × Incoming × IncomingReader :=
  fillFrom wire.script wire reader

/-- `AsyncBufRead::consume`, which asserts that there is so much. -/
def consume (reader : IncomingReader) (amount : Nat) : Option IncomingReader :=
  if reader.replayOffset < reader.replay.length then
    if amount ≤ reader.replay.length - reader.replayOffset then
      some { reader with
        tentative := if reader.recordTentative then
          reader.tentative ++ (reader.replay.drop reader.replayOffset).take amount else reader.tentative
        replayOffset := reader.replayOffset + amount }
    else none
  else if amount ≤ reader.buffered.length - reader.bufferedOffset then
    some { reader with
      tentative := if reader.recordTentative then
        reader.tentative ++ (reader.buffered.drop reader.bufferedOffset).take amount else reader.tentative
      bufferedOffset := reader.bufferedOffset + amount }
  else none

def adapterFailed : Error := .responseBody (text "response body adapter failed")

/-- The loop of `poll_drain`. -/
def drainFrom : Nat → Incoming → IncomingReader → Option (Poll (Except Error Unit) × Incoming × IncomingReader)
  | fuel, wire, reader =>
      match reader.takeTransportError with
      | (some error, reader) => some (.ready (.error error), wire, reader)
      | (none, reader) =>
          match reader.pollFillBuf wire with
          | (.pending, wire, reader) => some (.pending, wire, reader)
          | (.ready (.error _), wire, reader) => some (.ready (.error adapterFailed), wire, reader)
          | (.ready (.ok []), wire, reader) =>
              match reader.takeTransportError with
              | (some error, reader) => some (.ready (.error error), wire, reader)
              | (none, reader) => some (.ready (.ok ()), wire, reader)
          | (.ready (.ok available), wire, reader) =>
              match fuel with
              | 0 => none
              | fuel + 1 => do drainFrom fuel wire (← reader.consume available.length)

/-- The bytes a reader holds. -/
def held (reader : IncomingReader) : Nat :=
  (reader.replay.length - reader.replayOffset) + (reader.buffered.length - reader.bufferedOffset)

def pollDrain (wire : Incoming) (reader : IncomingReader) :
    Option (Poll (Except Error Unit) × Incoming × IncomingReader) :=
  drainFrom (reader.held + scriptBytes wire.script) wire reader

def pollRejectTrailing (wire : Incoming) (reader : IncomingReader) : Poll (Except Error Unit) × Incoming × IncomingReader :=
  match reader.takeTransportError with
  | (some error, reader) => (.ready (.error error), wire, reader)
  | (none, reader) =>
      match reader.pollFillBuf wire with
      | (.pending, wire, reader) => (.pending, wire, reader)
      | (.ready (.error _), wire, reader) => (.ready (.error adapterFailed), wire, reader)
      | (.ready (.ok available), wire, reader) =>
          if available ≠ [] then (.ready (.error .contentDecoding), wire, reader)
          else
            match reader.takeTransportError with
            | (some error, reader) => (.ready (.error error), wire, reader)
            | (none, reader) => (.ready (.ok ()), wire, reader)

end IncomingReader

/-! ### Decoders -/

inductive DecoderKind
  | gzip | zlib | deflate | brotli | zstandard
  deriving DecidableEq, Repr

/-- One `poll_read` of a decoder: it looks at the input and consumes some, and in the end has put bytes in the output
and returned. -/
inductive DecoderCall (D : Type)
  | fillBuf (next : Poll (Except IoError Bytes) → DecoderCall D)
  | consume (amount : Nat) (next : DecoderCall D)
  | done (result : Poll (Option IoError)) (filled : Bytes) (decoder : D)

namespace DecoderCall

variable {D : Type}

def run : DecoderCall D → Incoming → IncomingReader → Option (Poll (Option IoError) × Bytes × D × Incoming × IncomingReader)
  | .fillBuf next, wire, reader =>
      match reader.pollFillBuf wire with
      | (available, wire, reader) => run (next available) wire reader
  | .consume amount next, wire, reader => (reader.consume amount).bind fun reader => run next wire reader
  | .done result filled decoder, wire, reader => some (result, filled, decoder, wire, reader)

end DecoderCall

/-- The decoders of `async_compression`, in any states. -/
structure Codec (D : Type) where
  new : DecoderKind → D
  pollRead : D → Nat → DecoderCall D

structure DecoderRead where
  bytes : Bytes
  error : Option IoError
  deriving DecidableEq, Repr

def decodeChunkSize : Nat := 8 * 1024

def initialDecodeOutputLimit : Nat := 16

def brotliInitialInputLimit : Nat := 1

section Body

variable {D : Type} (codec : Codec D)

/-- An output buffer does not take more than its size. -/
def pollDecoder (decoder : D) (wire : Incoming) (reader : IncomingReader) (outputSeen : Bool) :
    Option (Poll DecoderRead × D × Incoming × IncomingReader) := do
  let outputLimit := if outputSeen then decodeChunkSize else initialDecodeOutputLimit
  match ← (codec.pollRead decoder outputLimit).run wire reader with
  | (.pending, _, decoder, wire, reader) => return (.pending, decoder, wire, reader)
  | (.ready error, filled, decoder, wire, reader) =>
      if filled.length ≤ outputLimit then return (.ready ⟨filled, error⟩, decoder, wire, reader) else none

def isAcceptedTruncation (error : IoError) (reader : IncomingReader) : Bool :=
  error.kind = .unexpectedEof && reader.cleanEof && reader.transportError.isNone

def isFlateIncomplete (error : IoError) : Bool :=
  error.kind = .unexpectedEof || (error.kind = .other && error.message = text "unexpected BufError")

def isAcceptedFlateTruncation (error : IoError) (reader : IncomingReader) : Bool :=
  reader.cleanEof && reader.transportError.isNone && isFlateIncomplete error

/-! ### The body -/

inductive ContentEncoding
  | gzip | deflate | brotli | zstandard
  deriving DecidableEq, Repr

inductive DecoderState (D : Type)
  | gzip (decoder : D) (reader : IncomingReader)
  | zlib (decoder : D) (reader : IncomingReader)
  | deflate (decoder : D) (reader : IncomingReader)
  | brotli (decoder : D) (reader : IncomingReader)
  | zstandard (decoder : D) (reader : IncomingReader)
  | drain (reader : IncomingReader)
  | rejectTrailing (reader : IncomingReader)

def DecoderState.readerMut {D : Type} : DecoderState D → IncomingReader
  | .gzip _ reader | .zlib _ reader | .deflate _ reader | .brotli _ reader | .zstandard _ reader => reader
  | .drain reader | .rejectTrailing reader => reader

structure DecodedBody (D : Type) where
  state : Option (DecoderState D)
  zlibOutput : Bool := false
  outputSeen : Bool := false
  pendingDecoderError : Option IoError := none

namespace DecodedBody

def new (encoding : ContentEncoding) (chunked : Bool) : DecodedBody D :=
  let reader := IncomingReader.new chunked
  match encoding with
  | .gzip => { state := some (.gzip (codec.new .gzip) reader) }
  | .deflate => { state := some (.zlib (codec.new .zlib) reader.startTentativeRecording) }
  | .brotli => { state := some (.brotli (codec.new .brotli) (reader.limitInputUntilOutput brotliInitialInputLimit)) }
  | .zstandard => { state := some (.zstandard (codec.new .zstandard) reader) }

/-- What one call answers, with the wire and the body after it. -/
abbrev Polled (D : Type) := Poll (Option (Except Error Bytes)) × Incoming × DecodedBody D

/-- The body is over. -/
def finish (body : DecodedBody D) (wire : Incoming) (item : Option (Except Error Bytes)) : Option (Polled D) :=
  some (.ready item, wire, { body with state := none })

/-- The state `Drain`. -/
def pollDrain (body : DecodedBody D) (wire : Incoming) (reader : IncomingReader) : Option (Polled D) := do
  match ← reader.pollDrain wire with
  | (.pending, wire, reader) => return (.pending, wire, { body with state := some (.drain reader) })
  | (.ready (.ok ()), wire, _) => body.finish wire none
  | (.ready (.error error), wire, _) => body.finish wire (some (.error error))

/-- The state `RejectTrailing`. -/
def pollRejectTrailing (body : DecodedBody D) (wire : Incoming) (reader : IncomingReader) : Option (Polled D) :=
  match reader.pollRejectTrailing wire with
  | (.pending, wire, reader) => some (.pending, wire, { body with state := some (.rejectTrailing reader) })
  | (.ready (.ok ()), wire, _) => body.finish wire none
  | (.ready (.error error), wire, _) => body.finish wire (some (.error error))

/-- The decoder failed: the wire may have failed before it, and the end of the wire may excuse it. -/
def decoderFailed (accepts : IoError → IncomingReader → Bool) (error : IoError) (body : DecodedBody D) (wire : Incoming)
    (reader : IncomingReader) : Option (Polled D) :=
  match reader.takeTransportError with
  | (some error, _) => body.finish wire (some (.error error))
  | (none, reader) =>
      if accepts error reader then body.pollDrain wire reader else body.finish wire (some (.error .contentDecoding))

/-- The decoder stopped: what follows on the wire is not looked at. -/
def decoderStopped (body : DecodedBody D) (wire : Incoming) (reader : IncomingReader) : Option (Polled D) :=
  match reader.takeTransportError with
  | (some error, _) => body.finish wire (some (.error error))
  | (none, reader) => body.pollDrain wire reader

/-- The branches of `Gzip`, `Zstandard` and `Deflate`. -/
def pollMember (accepts : IoError → IncomingReader → Bool) (variant : D → IncomingReader → DecoderState D)
    (body : DecodedBody D) (wire : Incoming) (decoder : D) (reader : IncomingReader) : Option (Polled D) :=
  match body.pendingDecoderError with
  | some error => decoderFailed accepts error { body with pendingDecoderError := none } wire reader
  | none =>
      match reader.takeTransportError with
      | (some error, _) => body.finish wire (some (.error error))
      | (none, reader) => do
          match ← pollDecoder codec decoder wire reader body.outputSeen with
          | (.pending, decoder, wire, reader) => return (.pending, wire, { body with state := some (variant decoder reader) })
          | (.ready ⟨bytes, error⟩, decoder, wire, reader) =>
              if bytes ≠ [] then
                return (.ready (some (.ok bytes)), wire, { body with
                  outputSeen := true, pendingDecoderError := error, state := some (variant decoder reader) })
              else
                match error with
                | some error => decoderFailed accepts error body wire reader
                | none => decoderStopped body wire reader

def pollGzip : DecodedBody D → Incoming → D → IncomingReader → Option (Polled D) := pollMember codec isAcceptedTruncation .gzip

def pollZstandard : DecodedBody D → Incoming → D → IncomingReader → Option (Polled D) :=
  pollMember codec isAcceptedTruncation .zstandard

def pollDeflate : DecodedBody D → Incoming → D → IncomingReader → Option (Polled D) :=
  pollMember codec isAcceptedFlateTruncation .deflate

/-- The branch of `Brotli`: the first output lifts the limit on the input, and nothing may follow the end. -/
def pollBrotli (body : DecodedBody D) (wire : Incoming) (decoder : D) (reader : IncomingReader) : Option (Polled D) :=
  match body.pendingDecoderError with
  | some error => decoderFailed isAcceptedTruncation error { body with pendingDecoderError := none } wire reader
  | none =>
      match reader.takeTransportError with
      | (some error, _) => body.finish wire (some (.error error))
      | (none, reader) => do
          match ← pollDecoder codec decoder wire reader body.outputSeen with
          | (.pending, decoder, wire, reader) => return (.pending, wire, { body with state := some (.brotli decoder reader) })
          | (.ready ⟨bytes, error⟩, decoder, wire, reader) =>
              if bytes ≠ [] then
                return (.ready (some (.ok bytes)), wire, { body with
                  outputSeen := true, pendingDecoderError := error,
                  state := some (.brotli decoder reader.removeInputLimit) })
              else
                match error with
                | some error => decoderFailed isAcceptedTruncation error body wire reader
                | none => body.pollRejectTrailing wire reader

/-- The branch of `Zlib`: without any output an error means that the data may be raw, and it is read again. -/
def pollZlib (body : DecodedBody D) (wire : Incoming) (decoder : D) (reader : IncomingReader) : Option (Polled D) :=
  match body.pendingDecoderError with
  | some error =>
      decoderFailed isAcceptedFlateTruncation error { body with pendingDecoderError := none } wire
        reader.stopTentativeRecording
  | none =>
      match reader.takeTransportError with
      | (some error, _) => body.finish wire (some (.error error))
      | (none, reader) => do
          match ← pollDecoder codec decoder wire reader body.outputSeen with
          | (.pending, decoder, wire, reader) => return (.pending, wire, { body with state := some (.zlib decoder reader) })
          | (.ready ⟨bytes, error⟩, decoder, wire, reader) =>
              if bytes ≠ [] then
                return (.ready (some (.ok bytes)), wire, { body with
                  zlibOutput := true, outputSeen := true, pendingDecoderError := error,
                  state := some (.zlib decoder reader.stopTentativeRecording) })
              else
                match error with
                | none => decoderStopped body wire reader.stopTentativeRecording
                | some error =>
                    match reader.takeTransportError with
                    | (some error, _) => body.finish wire (some (.error error))
                    | (none, reader) =>
                        if isAcceptedFlateTruncation error reader then body.pollDrain wire reader.stopTentativeRecording
                        else if !body.zlibOutput then
                          pollDeflate codec body wire (codec.new .deflate) reader.installTentativeReplay
                        else body.finish wire (some (.error .contentDecoding))

def pollNext (body : DecodedBody D) (wire : Incoming) : Option (Polled D) :=
  match body.state with
  | none => some (.ready none, wire, body)
  | some (.gzip decoder reader) => pollGzip codec body wire decoder reader
  | some (.zlib decoder reader) => pollZlib codec body wire decoder reader
  | some (.deflate decoder reader) => pollDeflate codec body wire decoder reader
  | some (.brotli decoder reader) => pollBrotli codec body wire decoder reader
  | some (.zstandard decoder reader) => pollZstandard codec body wire decoder reader
  | some (.drain reader) => body.pollDrain wire reader
  | some (.rejectTrailing reader) => body.pollRejectTrailing wire reader

end DecodedBody

end Body

end RequestsNative.Transport.Decode
