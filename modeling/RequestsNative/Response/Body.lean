import RequestsNative.Transport.Lease

/-!
# The response body

`response.rs`: the disposition state machine and the body stream that owns an exchange's lease. One
call of `poll_next` asks the world several things in order: a deadline, the source, the session gate, the
clock, a deadline again, and the driver task. `PollEnv` holds the answers, so the model is a function
and a run over all answers is a run over all schedules.
-/

namespace RequestsNative.Response

open RequestsNative.Transport

inductive ResponseEvent
  | partialBody | cleanEof | close | drop | readError | decodeError | protocolError | cancel
  | actionDisconnect | replyDisconnect | pythonExact
  deriving DecidableEq, Repr

inductive ResponseDisposition
  | opened | partialBody | reusable | closeDirty | pythonExact
  deriving DecidableEq, Repr

inductive ResponseDecision
  | reusable | closeDirty
  deriving DecidableEq, Repr

structure ResponseDispositionState where
  state : ResponseDisposition := .opened
  decision : Option ResponseDecision := none
  decisionCount : Nat := 0
  nativeLease : Bool := true
  deriving DecidableEq, Repr

namespace ResponseDispositionState

def decide (disposition : ResponseDispositionState) (decision : ResponseDecision) : ResponseDispositionState :=
  { disposition with
    decision := some decision
    decisionCount := disposition.decisionCount + 1
    state := match decision with
      | .reusable => .reusable
      | .closeDirty => .closeDirty }

/-- A decided disposition takes no further event. -/
def apply (disposition : ResponseDispositionState) (event : ResponseEvent) : ResponseDispositionState :=
  match disposition.state with
  | .reusable | .closeDirty | .pythonExact => disposition
  | .opened | .partialBody =>
      match event with
      | .pythonExact =>
          if disposition.state = .opened then
            { disposition with state := .pythonExact, nativeLease := false }
          else disposition.decide .closeDirty
      | .partialBody => { disposition with state := .partialBody }
      | .cleanEof => disposition.decide .reusable
      | .close | .drop | .readError | .decodeError | .protocolError | .cancel | .actionDisconnect
      | .replyDisconnect => disposition.decide .closeDirty

/-- Neither decided nor handed to Python. -/
def Undecided (disposition : ResponseDispositionState) : Prop :=
  disposition.state = .opened ∨ disposition.state = .partialBody

theorem Undecided.partialBody {disposition : ResponseDispositionState} (h : disposition.Undecided) :
    (disposition.apply .partialBody).Undecided := by
  rcases h with h | h <;> simp [apply, Undecided, h]

/-- Ending an undecided body by anything but a clean end decides against reuse. -/
theorem Undecided.reusable_iff {disposition : ResponseDispositionState} (h : disposition.Undecided)
    {event : ResponseEvent} (hnotPartial : event ≠ .partialBody) (hpython : event ≠ .pythonExact) :
    (disposition.apply event).decision = some .reusable ↔ event = .cleanEof := by
  rcases h with h | h <;> cases event <;> simp_all [apply, decide]

end ResponseDispositionState

/-- `Instant::checked_add`, in nanoseconds; the seconds are an `i64`. -/
def instantAdd (now timeout : Nat) : Option Nat :=
  if now + timeout < 2 ^ 63 * 10 ^ 9 then some (now + timeout) else none

inductive DeadlineSource
  | read | total
  deriving DecidableEq, Repr

def selectDeadlineSource : Option Nat → Option Nat → Option DeadlineSource
  | some read, some total => if read ≤ total then some .read else some .total
  | some _, none => some .read
  | none, some _ => some .total
  | none, none => none

/-- A received amount below the declared one. -/
structure ResponseRemainderWaitEntered where
  declared : Nat
  received : Nat
  deriving DecidableEq, Repr

def ResponseRemainderWaitEntered.checked (declared received : Nat) : Option ResponseRemainderWaitEntered :=
  if received < declared then some ⟨declared, received⟩ else none

inductive ResponseBodySource
  | incoming | decoded
  deriving DecidableEq, Repr

/-- One `poll_frame` of the wire body. -/
inductive FramePoll
  | data (bytes : Bytes) | trailers | error (message : Bytes) | ended | pending
  deriving DecidableEq, Repr

/-- The result of a stream of byte chunks: `none` is its end. -/
abbrev Item := Option (Except Error Bytes)

/-- The world's answers during one call. `frames` are the polls of the wire body, `decoded` the one poll
of a decoding body with its wire progress; the body's kind says which is asked. -/
structure PollEnv where
  firstTimer : Bool
  frames : List FramePoll
  decoded : Poll Item × Bool
  remainderGate : Bool
  now : Nat
  secondTimer : Bool
  task : Poll DriverResult
  world : World

structure ResponseBody (Key : Type) where
  source : Option ResponseBodySource
  driver : Option (TransportLease Key)
  readTimeout : Option Nat
  readDeadline : Option Nat
  totalTimeout : Option Nat
  totalDeadline : Option Nat
  chunked : Bool
  expectedContentLength : Option Nat
  declaredCompletionLength : Option Nat
  encodedCompletion : Bool
  receivedBodyBytes : Nat
  remainderWait : Option ResponseRemainderWaitEntered
  terminal : Bool
  disposition : ResponseDispositionState

namespace ResponseBody

variable {Key : Type}

/-- What a call hands out: leases for the pool, beside its own result. -/
abbrev Settled (Key : Type) := List (TransportLease.Settlement Key)

def beginTerminal (body : ResponseBody Key) (event : ResponseEvent) :
    Option (TransportLease Key) × ResponseBody Key :=
  if body.terminal then (none, body)
  else
    (body.driver,
      { body with
        terminal := true
        source := none
        readDeadline := none
        totalDeadline := none
        disposition := body.disposition.apply event
        driver := none })

def finishNow (world : World) (body : ResponseBody Key) (event : ResponseEvent) :
    Settled Key × ResponseBody Key :=
  let incompleteBody := event ≠ .cleanEof ∧ (body.expectedContentLength.any fun declared =>
    (ResponseRemainderWaitEntered.checked declared body.receivedBodyBytes).isSome) = true
  match body.beginTerminal event with
  | (none, body) => ([], body)
  | (some driver, body) =>
      if incompleteBody then (driver.finishIncompleteBodyNow world, body)
      else (driver.finishNow world (body.disposition.decision = some .reusable), body)

def finishDeclaredLength (world : World) (body : ResponseBody Key) (allowEncodedCompletion : Bool) :
    Settled Key × ResponseBody Key :=
  if !body.terminal && (!body.encodedCompletion || allowEncodedCompletion) &&
      body.declaredCompletionLength.any (fun declared => body.receivedBodyBytes == declared) then
    { body with remainderWait := none }.finishNow world .cleanEof
  else ([], body)

/-- The loop of `poll_source` over a wire body: trailers are skipped. -/
def pollFrames (body : ResponseBody Key) : List FramePoll → Poll Item
  | [] => .pending
  | .data bytes :: _ => .ready (some (.ok bytes))
  | .trailers :: rest => body.pollFrames rest
  | .error message :: _ =>
      if body.chunked then .ready (some (.error (Error.chunkedEncoding message)))
      else
        let incompleteBody := body.expectedContentLength.bind fun expected =>
          let remaining := expected - body.receivedBodyBytes
          if remaining ≠ 0 then some (body.receivedBodyBytes, remaining) else none
        .ready (some (.error (Error.responseBodyHyper message incompleteBody)))
  | .ended :: _ => .ready none
  | .pending :: _ => .pending

/-- The item and whether the wire made progress while the item is pending. -/
def pollSource (env : PollEnv) (body : ResponseBody Key) : Poll Item × Bool :=
  match body.source with
  | some .incoming => (body.pollFrames env.frames, false)
  | some .decoded =>
      match env.decoded with
      | (.pending, wireProgress) => (.pending, wireProgress)
      | (result, _) => (result, false)
  | none => (.ready (some (.error (Error.responseBody (text "response body was already consumed")))), false)

/-- `fired` is the poll of the deadline that comes first. -/
def pollTimeout (body : ResponseBody Key) (fired : Bool) : Option Error :=
  match selectDeadlineSource body.readDeadline body.totalDeadline with
  | none => none
  | some .read => if fired then some (Error.readTimeout (body.readTimeout.getD 0)) else none
  | some .total => if fired then some (Error.responseBodyTotalTimeout (body.totalTimeout.getD 0)) else none

def finishError (world : World) (body : ResponseBody Key) (event : ResponseEvent) (error : Error) :
    Poll Item × Settled Key × ResponseBody Key :=
  let (settled, body) := body.finishNow world event
  (.ready (some (.error error)), settled, body)

def remaining (body : ResponseBody Key) : Option ResponseRemainderWaitEntered :=
  body.expectedContentLength.bind fun declared =>
    ResponseRemainderWaitEntered.checked declared body.receivedBodyBytes

/-- Start the read timeout unless it is running. -/
def armReadDeadline (now : Nat) (body : ResponseBody Key) : ResponseBody Key :=
  match body.readDeadline, body.readTimeout with
  | none, some timeout => { body with readDeadline := instantAdd now timeout }
  | _, _ => body

/-- The part of `poll_next` after a pending source whose session gate is open. -/
def pollDriver (env : PollEnv) (body : ResponseBody Key) : Poll Item × Settled Key × ResponseBody Key :=
  let body := body.armReadDeadline env.now
  match body.pollTimeout env.secondTimer with
  | some error => body.finishError env.world .readError error
  | none =>
      match body.driver with
      | none => (.pending, [], body)
      | some driver =>
          let (result, driver) := driver.pollResult env.task
          let body := { body with driver := some driver }
          match result with
          | .ready (.error error) => body.finishError env.world .readError error
          | .ready (.ok ()) => (.pending, [], body)
          | .pending => (.pending, [], body)

def pollNext (env : PollEnv) (body : ResponseBody Key) : Poll Item × Settled Key × ResponseBody Key :=
  if body.terminal then (.ready none, [], body)
  else
    match body.pollTimeout env.firstTimer with
    | some error => body.finishError env.world .readError error
    | none =>
        match body.pollSource env with
        | (.ready (some (.ok bytes)), _) =>
            let body := { body with receivedBodyBytes := saturatingAdd body.receivedBodyBytes bytes.length }
            let body := { body with
              remainderWait := body.remaining
              readDeadline := none
              disposition := body.disposition.apply .partialBody }
            (.ready (some (.ok bytes)), [], body)
        | (.ready (some (.error error)), _) =>
            let event : ResponseEvent :=
              if error.kind = .chunkedEncoding then .protocolError
              else if error.kind = .contentDecoding then .decodeError
              else .readError
            body.finishError env.world event error
        | (.ready none, _) =>
            let (settled, body) := { body with remainderWait := none }.finishNow env.world .cleanEof
            (.ready none, settled, body)
        | (.pending, wireProgress) =>
            let body := { body with
              remainderWait := body.remaining
              readDeadline := if wireProgress then none else body.readDeadline }
            match body.driver with
            | none => body.pollDriver env
            | some driver =>
                let (gate, activeExchange) := driver.activeExchange.pollResponseRemainder env.remainderGate
                let body := { body with driver := some { driver with activeExchange } }
                match gate with
                | .pending => (.pending, [], body)
                | .ready () => body.pollDriver env

/-- `close` consumes the body; `awaited` as in `abortAndWait`. -/
def close (world : World) (awaited : Option DriverResult) (body : ResponseBody Key) :
    Option (Except Error Unit) × Settled Key :=
  match body.beginTerminal .close with
  | (none, body) => (some (.ok ()), (body.finishNow world .drop).1)
  | (some driver, body) =>
      let (answer, settled) := driver.abortAndWait world awaited
      (answer, settled ++ (body.finishNow world .drop).1)

/-- `Drop`. -/
def drop (world : World) (body : ResponseBody Key) : Settled Key := (body.finishNow world .drop).1

end ResponseBody

end RequestsNative.Response
