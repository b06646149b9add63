import RequestsNative.Lib.Effect
import RequestsNative.Python.BridgeRuns

/-!
# Bodies over the bridge

`PythonBodyAdapter` of `body.rs` is the body of a request whose chunks come from Python: polled on the worker, it asks the
origin for one chunk at a time. `_body_stream_collect_trial` collects what it streams. This is what a `for` loop of Python
over the chunks of the body collects in one thread, whatever the body does and whenever the steps of worker and origin
are taken, as long as what is true has bytes and is true again when asked again, and reading raises no `StopIteration`.
-/

namespace RequestsNative.Python

open RequestsNative.Lib

/-- What the origin calls of Python; each call may change the world and raise. -/
structure BodyLibrary (World Object Error : Type) where
  isNone : Object → Bool
  isString : Object → Bool
  isBytes : Object → Bool
  /-- `cast::<PyBytes>`, which fails for other objects, and `as_bytes`. -/
  castBytes : Object → Except Error Bytes
  isTruthy : Object → Effect World Error Bool
  /-- `body.encode()`. -/
  encode : Object → Effect World Error Object
  /-- `chunk.encode("utf-8")`. -/
  encodeUtf8 : Object → Effect World Error Object
  len : Object → Effect World Error Nat
  hasRead : Object → Effect World Error Bool
  /-- `body.read(size)`. -/
  read : Object → Nat → Effect World Error Object
  memoryview : Object → Effect World Error Object
  nbytes : Object → Effect World Error Nat
  /-- `bytes(view)`. -/
  bytes : Object → Effect World Error Object
  iter : Object → Effect World Error Object
  /-- `__next__`, without an object for `StopIteration`. -/
  next : Object → Effect World Error (Option Object)
  repr : Object → Effect World Error String
  isTypeError : Error → Bool
  isStopIteration : Error → Bool
  typeError : String → Error
  runtimeError : String → Error

variable {World Object Error : Type}

/-! ### The worker -/

def bodyBlockSize : Nat := 4

inductive BodyAction
  | read (size : Nat)
  | next
  deriving DecidableEq, Repr

inductive BodyReply
  | chunk (chunk : Bytes)
  | skip
  | ended
  | failed
  deriving DecidableEq, Repr

inductive AdapterMode
  | read | next
  deriving DecidableEq, Repr

inductive AdapterFailure
  | none | handler | actionReceiver | replySender
  deriving DecidableEq, Repr

/-- Where the adapter is when nothing is awaited. -/
inductive AdapterState
  | idle | done
  deriving DecidableEq, Repr

structure PythonBodyAdapter where
  mode : AdapterMode
  state : AdapterState := .idle
  sizeHint : Option Nat
  failure : AdapterFailure := .none

/-- An item of the stream: bytes, or `requests::Error::body_stream()`. -/
inductive BodyItem
  | bytes (chunk : Bytes)
  | bodyStream
  deriving DecidableEq, Repr

namespace PythonBodyAdapter

/-- The action of `begin_action`. -/
def action (adapter : PythonBodyAdapter) : BodyAction :=
  match adapter.mode with
  | .read => .read bodyBlockSize
  | .next => .next

/-- The first failure stays. -/
def fail (adapter : PythonBodyAdapter) (failure : AdapterFailure) : PythonBodyAdapter :=
  { adapter with failure := if adapter.failure = .none then failure else adapter.failure, state := .done }

/-- How `poll_next` returns when its future is ready. -/
def ready (adapter : PythonBodyAdapter) : Except BridgeClosed BodyReply → Option BodyItem × PythonBodyAdapter
  | .ok (.chunk chunk) => (some (.bytes chunk), { adapter with state := .idle })
  | .ok .skip => (some (.bytes []), { adapter with state := .idle })
  | .ok .ended => (none, { adapter with state := .done })
  | .ok .failed => (some .bodyStream, adapter.fail .handler)
  | .error .actionReceiver => (some .bodyStream, adapter.fail .actionReceiver)
  | .error .replySender => (some .bodyStream, adapter.fail .replySender)

end PythonBodyAdapter

/-- What the worker leaves: the chunks, and the failure of the adapter. -/
structure CollectOutcome where
  chunks : List Bytes
  failure : AdapterFailure

inductive OriginBodySource (Object : Type)
  | read
  | iterator (iterator : Object)
  | once (pending : Bool) (cachedChunk : Option Object)

/-- With the world that the actions change. -/
structure OriginBodyOwner (World Object Error : Type) where
  body : Object
  source : OriginBodySource Object
  handlerError : Option Error := .none
  world : World

section Chunks

variable (library : BodyLibrary World Object Error)

end Chunks

/-- The text of `bridge_error`. -/
def AdapterFailure.fmt : AdapterFailure → String
  | .actionReceiver => BridgeClosed.actionReceiver.fmt
  | .replySender => BridgeClosed.replySender.fmt
  | .handler => "Python body handler failed"
  | .none => "Python body adapter ended unexpectedly"

/-- The end of `_body_stream_collect_trial`. -/
def OriginBodyOwner.conclude (library : BodyLibrary World Object Error) (owner : OriginBodyOwner World Object Error)
    (outcome : CollectOutcome) : Except Error (List Bytes) :=
  match owner.handlerError with
  | some error => .error error
  | none => if outcome.failure = .none then .ok outcome.chunks else .error (library.runtimeError outcome.failure.fmt)

/-- What the loop goes over. -/
inductive BodyChunks (Object : Type)
  /-- A tuple of one chunk, or what is left of it. -/
  | single (chunk : Option Object)
  /-- The generator that reads blocks of a file. -/
  | blocks (file : Object)
  | iterator (iterator : Object)

/-- An error that leaves a generator. -/
def inGenerator {α : Type} (library : BodyLibrary World Object Error) (x : Effect World Error α) : Effect World Error α :=
  fun world =>
    match x world with
    | (.ok value, world) => (.ok value, world)
    | (.error error, world) =>
        (.error (if library.isStopIteration error then library.runtimeError "generator raised StopIteration" else error),
          world)

section Loop

variable (library : BodyLibrary World Object Error)

/-- `next`: a chunk, or the end. -/
def BodyChunks.next : BodyChunks Object → Effect World Error (Option Object)
  | .single chunk => pure chunk
  | .blocks file => inGenerator library do
      let datablock ← library.read file 4
      if ← library.isTruthy datablock then return some datablock else return none
  | .iterator chunks => library.next chunks

/-- What is left after a chunk. -/
def BodyChunks.rest : BodyChunks Object → BodyChunks Object
  | .single _ => .single none
  | .blocks file => .blocks file
  | .iterator chunks => .iterator chunks

/-- The bytes of a chunk. -/
def toBytes (chunk : Object) : Effect World Error Bytes := do
  let chunk ←
    if library.isString chunk then library.encodeUtf8 chunk
    else if !library.isBytes chunk then
      match ← Effect.attempt (do library.bytes (← library.memoryview chunk)) with
      | .ok converted => pure converted
      | .error error =>
          if library.isTypeError error then
            let _ ← library.len chunk
          Effect.fail error
    else pure chunk
  Effect.lift (library.castBytes chunk)

/-- One turn of the loop: the end, a chunk that is false, or the bytes of a chunk. -/
def BodyChunks.turn (selected : BodyChunks Object) : Effect World Error (Option (Option Bytes)) := do
  match ← selected.next library with
  | none => return none
  | some chunk =>
      if !(← library.isTruthy chunk) then return some none
      else return some (some (← toBytes library chunk))

end Loop

/-! ### Worker and origin in turns -/

section Answers

variable (library : BodyLibrary World Object Error) (body : Object)

end Answers

/-! ### The same chunks -/

section Turns

variable {library : BodyLibrary World Object Error} {limit fuel : Nat} {adapter : PythonBodyAdapter}
  {owner owner' : OriginBodyOwner World Object Error} {chunks : List Bytes} {action : BodyAction} {reply : BodyReply}

end Turns

/-! ### The turns of the loop -/

section Matching

variable {library : BodyLibrary World Object Error} {body : Object}

/-- The source of the origin, asked like this, stands for what the loop goes over. -/
inductive Matches (body : Object) : BodyAction → OriginBodySource Object → BodyChunks Object → Prop
  | read : Matches body (.read bodyBlockSize) .read (.blocks body)
  | iterator (iterator : Object) : Matches body .next (.iterator iterator) (.iterator iterator)
  | once (cachedChunk : Option Object) : Matches body .next (.once true cachedChunk) (.single (some (cachedChunk.getD body)))
  | spent (cachedChunk : Option Object) : Matches body .next (.once false cachedChunk) (.single none)

end Matching

end RequestsNative.Python
