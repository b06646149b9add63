import RequestsNative.Blocking.Submission

/-!
# The pump of the origin thread

`runtime.rs`, `drive_owned_with_reply_disposition_and_signal_checker`: while a submission runs on a worker, the thread
that submitted it executes the actions the worker asks for, on an owner that must not leave the thread. A signal ends
the loop; if the worker does not stop in time, the owner goes into the quarantine of the thread until the worker has
ended. The loop, the worker, the thread that waits for a cancelled submission and the quarantine take their steps in any
order. What the loop asks of Python (whether a signal has come, whether it is still on its thread, what an action does)
and the clock are inputs.
-/

namespace RequestsNative.Python

open RequestsNative.Lib
open RequestsNative.Blocking

/-! ### Actions -/

/-- `bridge.rs`, `ActionRequest`; the number names the channel for the reply. -/
structure ActionRequest (A : Type) where
  action : A
  reply : Nat
  deriving DecidableEq, Repr

inductive SessionCancellationPhase
  | cancelBeforePoll | cancelQueuedBeforeDequeue | cancelReplyObserved | cancelTerminalAfterTimeout
  | cancelPermanentlyNonterminal
  deriving DecidableEq, Repr

inductive ActionReplyDisposition (R : Type)
  | reply (value : R)
  | withhold (phase : SessionCancellationPhase)

/-- How `ensure_affinity` fails. -/
inductive AffinityError
  | movedOffThread | movedInterpreter | raised
  deriving DecidableEq, Repr

inductive PumpError
  | affinity (error : AffinityError)
  | task (error : BlockingTaskError)
  | signal
  deriving DecidableEq, Repr

/-! ### The quarantine -/

/-- Whose owner an entry of the quarantine holds: that of this loop, or that of another loop of the thread. -/
inductive OriginOwner (O : Type)
  | ours (owner : O)
  | another

/-- An entry leaves the quarantine together with its owner, so it always has one. -/
structure QuarantinedOrigin (O : Type) where
  token : Nat
  terminal : Bool
  phase : SessionCancellationPhase
  owner : OriginOwner O

structure OriginQuarantineRetentionAudit where
  phase : SessionCancellationPhase
  observedPhase : SessionCancellationPhase
  terminal : Bool

def OriginQuarantineRetentionAudit.canReap (audit : OriginQuarantineRetentionAudit) : Bool :=
  audit.terminal && audit.phase != .cancelPermanentlyNonterminal && audit.observedPhase != .cancelPermanentlyNonterminal

namespace QuarantinedOrigin

variable {O : Type}

def retentionAudit (entry : QuarantinedOrigin O) : OriginQuarantineRetentionAudit :=
  { phase := if entry.terminal then .cancelTerminalAfterTimeout else .cancelPermanentlyNonterminal
    observedPhase := entry.phase
    terminal := entry.terminal }

def canReap (entry : QuarantinedOrigin O) : Bool := entry.retentionAudit.canReap

def isOurs (entry : QuarantinedOrigin O) : Bool :=
  match entry.owner with
  | .ours _ => true
  | .another => false

end QuarantinedOrigin

/-- The first entry with the token, taken out if it can be reaped. -/
def removeReapable {O : Type} (token : Nat) :
    List (QuarantinedOrigin O) → Option (QuarantinedOrigin O × List (QuarantinedOrigin O))
  | [] => none
  | entry :: rest =>
      if entry.token = token then if entry.canReap then some (entry, rest) else none
      else (removeReapable token rest).map fun (found, rest) => (found, entry :: rest)

/-! ### The parties -/

/-- Where the loop stands. -/
inductive LoopPoint (A R : Type)
  /-- Before the first `ensure_affinity`. -/
  | entering
  /-- Before `check_signals`. -/
  | checking
  /-- Before `submission.try_wait`. -/
  | polling
  /-- In `actions.recv_timeout`. -/
  | receiving
  /-- With a request, before `ensure_affinity`. -/
  | received (request : ActionRequest A)
  | executing (request : ActionRequest A)
  /-- Before `reply.send`. -/
  | replying (reply : Nat) (value : R)
  /-- No sender is left: in `submission.wait_ready_timeout`. -/
  | disconnected
  /-- A signal has come: before `submission.cancel`. -/
  | cancelling
  /-- In the bounded wait of `cancel_with_bounded_wait`. -/
  | cancelled

/-- The loop with its local variables. -/
structure Loop (T A R O : Type) where
  point : LoopPoint A R := .entering
  submission : BlockingSubmission T
  owner : O
  cancellationPhase : SessionCancellationPhase := .cancelBeforePoll
  withheldReplies : List Nat := []

/-- The thread that waits for a cancelled submission. -/
inductive Waiter (T : Type)
  | absent
  | waiting (submission : BlockingSubmission T)
  /-- Before the entry is marked as terminal. -/
  | waited
  | done

inductive PumpEvent (T A R O : Type)
  | enqueued (request : ActionRequest A)
  | started (request : ActionRequest A)
  | withheld (reply : Nat)
  | replied (reply : Nat) (value : R)
  | signalled
  | returned (output : T) (owner : O)
  | ownerDropped (owner : O)
  | ownerHandedOut (owner : O)
  | ownerForgotten (owner : O)
  | raised (error : PumpError)

structure Pump (T A R O : Type) where
  task : Blocking.Task T := {}
  abortRequested : Bool := false
  actions : Channel (ActionRequest A) := {}
  /-- How many requests have been made. -/
  requests : Nat := 0
  /-- The loop, until it returns. -/
  loop : Option (Loop T A R O)
  waiter : Waiter T := .absent
  quarantine : List (QuarantinedOrigin O) := []
  nextToken : Nat := 1
  lastToken : Option Nat := none

inductive PumpOp (T A R O : Type)
  | worker (op : WorkerOp T)
  /-- `ActionSender::enqueue`. -/
  | enqueue (action : A)
  /-- The last `ActionSender` is dropped. -/
  | dropSenders
  /-- `ensure_affinity`, with its error if it fails. -/
  | ensureAffinity (error : Option AffinityError)
  | checkSignals (signal : Bool)
  | tryWait
  | recvTimeout
  /-- An action is executed, on the owner it leaves. -/
  | execute (disposition : ActionReplyDisposition R) (owner : O)
  | sendReply
  | waitReadyTimeout
  | cancel
  /-- One turn of the bounded wait, with whether the deadline has passed. -/
  | cancelWait (expired : Bool)
  /-- The waiter's `submission.wait` returns. -/
  | waiterWait
  /-- The waiter marks the entry as terminal. -/
  | waiterStore
  | reapOriginQuarantine
  | reapOriginQuarantineToken (token : Nat)
  /-- `take_origin_quarantine_owner`, with whether the type asked for is that of the owner. -/
  | takeOriginQuarantineOwner (token : Nat) (typed : Bool)
  /-- The thread ends, and its quarantine with it. -/
  | exitThread
  /-- Another loop of the thread puts its owner into the quarantine. -/
  | retainOther (phase : SessionCancellationPhase) (terminal : Bool)
  /-- The worker of another loop has ended. -/
  | terminateOther (token : Nat)
  /-- Another thread takes a token. -/
  | skipToken

/-- The points of the loop at which a step of it is taken. -/
def PumpOp.runsAt {T A R O : Type} : PumpOp T A R O → LoopPoint A R → Bool
  | .ensureAffinity _, .entering | .ensureAffinity _, .received _ | .checkSignals _, .checking | .tryWait, .polling
  | .recvTimeout, .receiving | .execute _ _, .executing _ | .sendReply, .replying _ _ | .waitReadyTimeout, .disconnected
  | .cancel, .cancelling | .cancelWait _, .cancelled => true
  | _, _ => false

namespace Pump

variable {T A R O : Type}

/-- A submission and an owner are handed to the loop. -/
def drive (processId : Nat) (owner : O) : Pump T A R O := { loop := some { submission := { processId }, owner } }

/-- The loop is gone, with everything it holds but the owner. -/
def leave (s : Pump T A R O) (current : Nat) (loop : Loop T A R O) : Pump T A R O :=
  { s with
    task := { s.task with channel := s.task.channel.dropReceiver }
    abortRequested := s.abortRequested || loop.submission.finishDrop current
    actions := s.actions.dropReceiver
    loop := none }

/-- The loop returns with an error and drops the owner. -/
def fail (s : Pump T A R O) (current : Nat) (loop : Loop T A R O) (error : PumpError) :
    List (PumpEvent T A R O) × Pump T A R O :=
  ([.ownerDropped loop.owner, .raised error], s.leave current loop)

/-- `Drop for QuarantinedOrigin`: an entry that is not terminal forgets what it holds. -/
def dropEntry (s : Pump T A R O) (entry : QuarantinedOrigin O) : List (PumpEvent T A R O) × Pump T A R O :=
  match entry.owner with
  | .another => ([], s)
  | .ours owner =>
      if entry.terminal then ([.ownerDropped owner], { s with actions := s.actions.dropReceiver })
      else ([.ownerForgotten owner], s)

def dropEntries (s : Pump T A R O) : List (QuarantinedOrigin O) → List (PumpEvent T A R O) × Pump T A R O
  | [] => ([], s)
  | entry :: rest =>
      let (events, s) := s.dropEntry entry
      let (later, s) := dropEntries s rest
      (events ++ later, s)

def reapOriginQuarantine (s : Pump T A R O) : List (PumpEvent T A R O) × Pump T A R O :=
  let (reaped, quarantine) := s.quarantine.partition QuarantinedOrigin.canReap
  { s with quarantine }.dropEntries reaped

def clearLastToken (s : Pump T A R O) (token : Nat) : Pump T A R O :=
  if s.lastToken = some token then { s with lastToken := none } else s

def reapOriginQuarantineToken (s : Pump T A R O) (token : Nat) : List (PumpEvent T A R O) × Pump T A R O :=
  match removeReapable token s.quarantine with
  | none => ([], s)
  | some (entry, quarantine) =>
      let (events, s) := { s with quarantine }.dropEntry entry
      (events, s.clearLastToken token)

/-- An owner of another type than the one asked for is dropped. -/
def takeOriginQuarantineOwner (s : Pump T A R O) (token : Nat) (typed : Bool) :
    List (PumpEvent T A R O) × Pump T A R O :=
  match removeReapable token s.quarantine with
  | none => ([], s)
  | some (entry, quarantine) =>
      match entry.owner with
      | .another => ([], { s with quarantine }.clearLastToken token)
      | .ours owner =>
          ([if typed then .ownerHandedOut owner else .ownerDropped owner],
            { s with quarantine, actions := s.actions.dropReceiver }.clearLastToken token)

def takeToken (s : Pump T A R O) : Nat × Pump T A R O := (s.nextToken, { s with nextToken := (s.nextToken + 1) % 2 ^ 64 })

/-- `retain_origin_after_cancellation`: without a submission the entry is terminal at once. -/
def retainOriginAfterCancellation (s : Pump T A R O) (submission : Option (BlockingSubmission T)) (loop : Loop T A R O) :
    Pump T A R O :=
  let (token, s) := s.takeToken
  let entry := ⟨token, submission.isNone, loop.cancellationPhase, .ours loop.owner⟩
  { s with
    quarantine := s.quarantine ++ [entry]
    lastToken := some token
    waiter := match submission with
      | some submission => .waiting submission
      | none => s.waiter
    loop := none }

variable (current : Nat)

/-- One step of the loop, in the process `current`. -/
def loopStep (s : Pump T A R O) (loop : Loop T A R O) : PumpOp T A R O → Option (List (PumpEvent T A R O) × Pump T A R O)
  | .ensureAffinity error =>
      match loop.point, error with
      | .entering, none =>
          let (events, s) := s.reapOriginQuarantine
          some (events, { s with loop := some { loop with point := .checking } })
      | .received request, none =>
          some ([.started request], { s with loop := some { loop with point := .executing request } })
      | .entering, some error | .received _, some error => some (s.fail current loop (.affinity error))
      | _, _ => none
  | .checkSignals signal =>
      match loop.point with
      | .checking =>
          if signal then some ([.signalled], { s with loop := some { loop with point := .cancelling } })
          else some ([], { s with loop := some { loop with point := .polling } })
      | _ => none
  | .tryWait =>
      match loop.point with
      | .polling =>
          let (result, submission, channel) := loop.submission.tryWait s.task.channel current
          let loop := { loop with submission }
          let s := { s with task := { s.task with channel } }
          match result with
          | .ok (some output) => some ([.returned output loop.owner], s.leave current loop)
          | .ok none =>
              some ([], { s with
                loop := some { loop with point := .receiving, cancellationPhase := .cancelQueuedBeforeDequeue } })
          | .error error => some (s.fail current loop (.task error))
      | _ => none
  | .recvTimeout =>
      match loop.point with
      | .receiving =>
          match s.actions.receive with
          | (.value request, actions) =>
              some ([], { s with actions, loop := some { loop with point := .received request } })
          | (.empty, actions) => some ([], { s with actions, loop := some { loop with point := .checking } })
          | (.disconnected, actions) => some ([], { s with actions, loop := some { loop with point := .disconnected } })
      | _ => none
  | .execute disposition owner =>
      match loop.point, disposition with
      | .executing request, .reply value =>
          some ([], { s with loop := some { loop with owner, point := .replying request.reply value } })
      | .executing request, .withhold phase =>
          some ([.withheld request.reply], { s with loop := some { loop with
            owner, point := .checking, cancellationPhase := phase
            withheldReplies := loop.withheldReplies ++ [request.reply] } })
      | _, _ => none
  | .sendReply =>
      match loop.point with
      | .replying reply value =>
          some ([.replied reply value],
            { s with loop := some { loop with point := .checking, cancellationPhase := .cancelReplyObserved } })
      | _ => none
  | .waitReadyTimeout =>
      match loop.point with
      | .disconnected =>
          let (_, submission, channel) := loop.submission.waitReadyTimeout s.task.channel current
          some ([], { s with
            task := { s.task with channel }, loop := some { loop with submission, point := .checking } })
      | _ => none
  | .cancel =>
      match loop.point with
      | .cancelling =>
          let (result, submission, abort) := loop.submission.cancel current
          let loop := { loop with submission }
          let s := { s with abortRequested := s.abortRequested || abort }
          match result with
          | .ok () => some ([], { s with loop := some { loop with point := .cancelled } })
          | .error error => some (s.fail current loop (.task error))
      | _ => none
  | .cancelWait expired =>
      match loop.point with
      | .cancelled =>
          let (result, submission, channel) := loop.submission.tryWait s.task.channel current
          let loop := { loop with submission }
          let s := { s with task := { s.task with channel } }
          match result with
          | .ok none =>
              if expired then some ([.raised .signal], s.retainOriginAfterCancellation (some submission) loop)
              else some ([], { s with loop := some loop })
          | .ok (some _) | .error _ =>
              some ([.raised .signal],
                { s with
                  task := { s.task with channel := s.task.channel.dropReceiver }
                  abortRequested := s.abortRequested || submission.finishDrop current
                }.retainOriginAfterCancellation none loop)
      | _ => none
  | _ => none

def step (s : Pump T A R O) : PumpOp T A R O → Option (List (PumpEvent T A R O) × Pump T A R O)
  | .worker op => (s.task.step op).map fun (_, task) => ([], { s with task })
  | .enqueue action =>
      if !s.actions.live then none
      else if s.actions.heard then
        let request := ⟨action, s.requests⟩
        some ([.enqueued request], { s with actions := s.actions.send request, requests := s.requests + 1 })
      else some ([], { s with requests := s.requests + 1 })
  | .dropSenders => some ([], { s with actions := s.actions.dropSender })
  | .waiterWait =>
      match s.waiter with
      | .waiting submission => (submission.wait s.task.channel current).map fun _ =>
          ([], { s with
            task := { s.task with channel := s.task.channel.dropReceiver }
            abortRequested := s.abortRequested || submission.finishDrop current
            waiter := .waited })
      | _ => none
  | .waiterStore =>
      match s.waiter with
      | .waited => some ([], { s with
          waiter := .done
          quarantine := s.quarantine.map fun entry => if entry.isOurs then { entry with terminal := true } else entry })
      | _ => none
  | .reapOriginQuarantine => some s.reapOriginQuarantine
  | .reapOriginQuarantineToken token => some (s.reapOriginQuarantineToken token)
  | .takeOriginQuarantineOwner token typed => some (s.takeOriginQuarantineOwner token typed)
  | .exitThread =>
      if s.loop.isSome then none else some ({ s with quarantine := [], lastToken := none }.dropEntries s.quarantine)
  | .retainOther phase terminal =>
      let (token, s) := s.takeToken
      some ([], { s with
        quarantine := s.quarantine ++ [⟨token, terminal, phase, .another⟩]
        lastToken := some token })
  | .terminateOther token =>
      some ([], { s with quarantine := s.quarantine.map fun entry =>
        if !entry.isOurs && entry.token == token then { entry with terminal := true } else entry })
  | .skipToken => some ([], s.takeToken.2)
  | op => s.loop.bind fun loop => s.loopStep current loop op

def machine : Machine (Pump T A R O) (PumpOp T A R O) (List (PumpEvent T A R O)) where
  step := step current

/-- The loop takes a step only at its own points. -/
theorem runsAt_of_loopStep {current : Nat} {s : Pump T A R O} {loop : Loop T A R O} {op : PumpOp T A R O}
    {result : List (PumpEvent T A R O) × Pump T A R O} (hstep : s.loopStep current loop op = some result) :
    op.runsAt loop.point = true := by
  cases op with
  | worker | enqueue | dropSenders | waiterWait | waiterStore | reapOriginQuarantine | reapOriginQuarantineToken
  | takeOriginQuarantineOwner | exitThread | retainOther | terminateOther | skipToken => cases hstep
  | ensureAffinity | checkSignals | tryWait | recvTimeout | execute | sendReply | waitReadyTimeout | cancel | cancelWait =>
      simp only [loopStep] at hstep
      (repeat' split at hstep) <;> cases hstep <;> simp only [PumpOp.runsAt, *]

end Pump

end RequestsNative.Python
