import RequestsNative.Lib.Channel
import RequestsNative.Lib.Machine
import RequestsNative.Base

/-!
# Submissions to the runtime

`blocking.rs`, `BlockingSubmission`: a future runs on a worker of the runtime, and its output comes back over a
channel with one value. The caller may look whether it is there without taking it, take it, wait for it, and cancel.
The system is the submission, its worker and the channel between them: worker and caller take their steps in any order.
-/

namespace RequestsNative.Blocking

open RequestsNative.Lib

variable {T : Type}

/-- `BlockingTaskError`. -/
inductive BlockingTaskError
  | cancelled | workerStopped | alreadyCompleted
  | staleProcess (recorded current : Nat)
  deriving DecidableEq, Repr

/-- The caller's side. The receiver it holds is that of the channel. -/
structure BlockingSubmission (T : Type) where
  processId : Nat
  receiver : Bool := true
  ready : Option T := none
  abort : Bool := true
  cancelled : Bool := false
  deriving DecidableEq, Repr

namespace BlockingSubmission

def validateProcess (submission : BlockingSubmission T) (current : Nat) : Except BlockingTaskError Unit :=
  if current = submission.processId then .ok () else .error (.staleProcess submission.processId current)

def stoppedError (submission : BlockingSubmission T) : BlockingTaskError :=
  if submission.cancelled then .cancelled else .workerStopped

/-- `wait_ready_timeout`, from the moment at which the channel answers the wait; an empty channel is a timeout. -/
def waitReadyTimeout (submission : BlockingSubmission T) (channel : Channel T) (current : Nat) :
    Except BlockingTaskError Bool × BlockingSubmission T × Channel T :=
  match submission.validateProcess current with
  | .error error => (.error error, submission, channel)
  | .ok () =>
      if submission.ready.isSome then (.ok true, submission, channel)
      else if !submission.receiver then (.error .alreadyCompleted, submission, channel)
      else
        match channel.receive with
        | (.value output, channel) => (.ok true, { submission with ready := some output }, channel)
        | (.empty, channel) => (.ok false, submission, channel)
        | (.disconnected, channel) => (.error submission.stoppedError, submission, channel)

/-- `try_wait_for_process`. -/
def tryWait (submission : BlockingSubmission T) (channel : Channel T) (current : Nat) :
    Except BlockingTaskError (Option T) × BlockingSubmission T × Channel T :=
  match submission.validateProcess current with
  | .error error => (.error error, submission, channel)
  | .ok () =>
      match submission.ready with
      | some output => (.ok (some output), { submission with ready := none, receiver := false }, channel.dropReceiver)
      | none =>
          if !submission.receiver then (.error .alreadyCompleted, submission, channel)
          else
            match channel.receive with
            | (.value output, channel) => (.ok (some output), { submission with receiver := false }, channel.dropReceiver)
            | (.empty, channel) => (.ok none, submission, channel)
            | (.disconnected, channel) =>
                (.error submission.stoppedError, { submission with receiver := false }, channel.dropReceiver)

/-- `wait_for_process`, which takes the submission; `none` says that it still waits. -/
def wait (submission : BlockingSubmission T) (channel : Channel T) (current : Nat) :
    Option (Except BlockingTaskError T) :=
  match submission.validateProcess current with
  | .error error => some (.error error)
  | .ok () =>
      match submission.ready with
      | some output => some (.ok output)
      | none =>
          if !submission.receiver then some (.error .alreadyCompleted)
          else
            match channel.receive.1 with
            | .value output => some (.ok output)
            | .empty => none
            | .disconnected => some (.error submission.stoppedError)

/-- `cancel_for_process`, with whether the task is told to abort. -/
def cancel (submission : BlockingSubmission T) (current : Nat) :
    Except BlockingTaskError Unit × BlockingSubmission T × Bool :=
  match submission.validateProcess current with
  | .error error => (.error error, submission, false)
  | .ok () =>
      if !submission.receiver then (.error .alreadyCompleted, submission, false)
      else (.ok (), { submission with cancelled := true }, submission.abort)

/-- `finish_drop_for_process`: whether the task is told to abort. -/
def finishDrop (submission : BlockingSubmission T) (current : Nat) : Bool :=
  submission.abort && decide (current = submission.processId)

end BlockingSubmission

/-- A task of the runtime. It ends when its future has completed, or has been dropped by a panic or an abort; the
sender is dropped after that. -/
inductive Worker (T : Type)
  | running
  | completed (output : T)
  | sent
  | stopped
  | gone
  deriving DecidableEq, Repr

/-- The future is over. -/
def Worker.ended : Worker T → Bool
  | .running => false
  | _ => true

inductive WorkerOp (T : Type)
  /-- The future completes. -/
  | complete (output : T)
  /-- The task sends the output. -/
  | send
  /-- The future panics, or is aborted. -/
  | stop
  /-- The task drops its sender. -/
  | dropSender

/-- The task with the channel it sends on. -/
structure Task (T : Type) where
  worker : Worker T := .running
  channel : Channel T := {}
  deriving DecidableEq, Repr

/-- A step of the task, with the output if it has been sent: a channel without a receiver refuses it. -/
def Task.step (task : Task T) : WorkerOp T → Option (Option T × Task T)
  | .complete output =>
      match task.worker with
      | .running => some (none, { task with worker := .completed output })
      | _ => none
  | .send =>
      match task.worker with
      | .completed output =>
          some (if task.channel.heard then some output else none,
            { worker := .sent, channel := task.channel.send output })
      | _ => none
  | .stop =>
      match task.worker with
      | .running => some (none, { task with worker := .stopped })
      | _ => none
  | .dropSender =>
      match task.worker with
      | .sent | .stopped => some (none, { worker := .gone, channel := task.channel.dropSender })
      | _ => none

/-! ### The system -/

inductive CallerOp
  | waitReadyTimeout | tryWait | cancel | wait | drop
  deriving DecidableEq, Repr

inductive SubmissionOp (T : Type)
  | worker (op : WorkerOp T)
  | caller (op : CallerOp)

inductive SubmissionAnswer (T : Type)
  | worked (sent : Option T)
  | ready (result : Except BlockingTaskError Bool)
  | polled (result : Except BlockingTaskError (Option T))
  | cancelled (result : Except BlockingTaskError Unit)
  | waited (result : Except BlockingTaskError T)
  | dropped

structure SubmissionSystem (T : Type) where
  task : Task T := {}
  /-- The task has been told to abort. -/
  abortRequested : Bool := false
  /-- The submission, until it is dropped or taken by a `wait`. -/
  submission : Option (BlockingSubmission T)

namespace SubmissionSystem

/-- `submit_for_process`, in the driver's own process. -/
def submit (processId : Nat) : SubmissionSystem T := { submission := some { processId } }

/-- The submission is gone, and the receiver with it. -/
def dropSubmission (s : SubmissionSystem T) (current : Nat) (submission : BlockingSubmission T) : SubmissionSystem T :=
  { task := { s.task with channel := s.task.channel.dropReceiver }
    abortRequested := s.abortRequested || submission.finishDrop current
    submission := none }

/-- A call in the process `current`. -/
def call (s : SubmissionSystem T) (current : Nat) (submission : BlockingSubmission T) :
    CallerOp → Option (SubmissionAnswer T × SubmissionSystem T)
  | .waitReadyTimeout =>
      let (result, submission, channel) := submission.waitReadyTimeout s.task.channel current
      some (.ready result, { s with submission := some submission, task := { s.task with channel } })
  | .tryWait =>
      let (result, submission, channel) := submission.tryWait s.task.channel current
      some (.polled result, { s with submission := some submission, task := { s.task with channel } })
  | .cancel =>
      let (result, submission, abort) := submission.cancel current
      some (.cancelled result, { s with submission := some submission, abortRequested := s.abortRequested || abort })
  | .wait =>
      (submission.wait s.task.channel current).map fun result => (.waited result, s.dropSubmission current submission)
  | .drop => some (.dropped, s.dropSubmission current submission)

def step (current : Nat) (s : SubmissionSystem T) : SubmissionOp T → Option (SubmissionAnswer T × SubmissionSystem T)
  | .worker op => (s.task.step op).map fun (sent, task) => (.worked sent, { s with task })
  | .caller op => s.submission.bind fun submission => s.call current submission op

def machine (current : Nat) : Machine (SubmissionSystem T) (SubmissionOp T) (SubmissionAnswer T) where
  step := step current

end SubmissionSystem

end RequestsNative.Blocking
