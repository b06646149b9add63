import RequestsNative.Lib.Coroutine
import RequestsNative.Python.PumpSafety

/-!
# The bridge between a worker and its origin

`bridge.rs`, with the pump of `runtime.rs`: a future on a worker that must not touch Python asks the origin thread for
actions, one `request` at a time, and goes on with the replies. Here the future is a given program, and the pump executes
its actions by a given function on the owner, so the steps of `Pump` that were inputs become those of the two.
-/

namespace RequestsNative.Python

open RequestsNative.Lib
open RequestsNative.Blocking

/-- `BridgeClosed`. -/
inductive BridgeClosed
  | actionReceiver | replySender
  deriving DecidableEq, Repr

def BridgeClosed.fmt : BridgeClosed → String
  | .actionReceiver => "Python action receiver closed"
  | .replySender => "Python action reply sender closed"

/-- What a future does when it is polled. -/
abbrev FutureTurn (W T A R : Type) : Type := Turn W A (Except BridgeClosed R) T

/-- Where the future stands. -/
inductive FuturePoint (W R : Type)
  | ready (w : W)
  /-- In `receive_reply.await`. -/
  | awaiting (reply : Nat) (resume : Except BridgeClosed R → W)
  /-- Completed, or dropped by a panic or an abort. -/
  | ended

structure Bridge (W T A R O : Type) where
  pump : Pump T A R O
  future : FuturePoint W R

inductive BridgeOp (T A R O : Type)
  /-- The worker polls the future up to its next await. -/
  | poll
  /-- The future finds the sender of its reply gone. -/
  | replyClosed
  /-- The loop executes the action it has received. -/
  | execute
  /-- A step that is neither the future's nor the action's. -/
  | party (op : PumpOp T A R O)

/-- The step belongs to the future or to an action. -/
def PumpOp.isProgram {T A R O : Type} : PumpOp T A R O → Bool
  | .worker (.complete _) | .enqueue _ | .execute _ _ => true
  | _ => false

/-- What the loop has in its hands. -/
inductive Hands (A R : Type)
  | empty
  | asked (request : ActionRequest A)
  | answer (reply : Nat) (value : R)

def LoopPoint.hands {A R : Type} : LoopPoint A R → Hands A R
  | .received request | .executing request => .asked request
  | .replying reply value => .answer reply value
  | _ => .empty

def Hands.holds {A R : Type} (hands : Hands A R) (reply : Nat) : Bool :=
  match hands with
  | .empty => false
  | .asked request => request.reply == reply
  | .answer other _ => other == reply

/-- The sender of the reply still exists. -/
def Pump.holdsReply {T A R O : Type} (s : Pump T A R O) (reply : Nat) : Bool :=
  s.actions.queue.any (·.reply == reply) ||
    s.loop.any fun loop => loop.point.hands.holds reply || loop.withheldReplies.contains reply

/-- The value that was sent to the reply, if the step sent it. -/
def repliedTo {T A R O : Type} (reply : Nat) (events : List (PumpEvent T A R O)) : Option R :=
  events.findSome? fun
    | .replied other value => if other = reply then some value else none
    | _ => none

namespace FuturePoint

variable {W T A R O : Type}

def isOver : FuturePoint W R → Bool
  | .ended => true
  | _ => false

/-- A future that waits goes on with its reply. -/
def hear (future : FuturePoint W R) (events : List (PumpEvent T A R O)) : FuturePoint W R :=
  match future with
  | .awaiting reply resume =>
      match repliedTo reply events with
      | some value => .ready (resume (.ok value))
      | none => future
  | _ => future

/-- The future after a step of another party. -/
def after (future : FuturePoint W R) (op : PumpOp T A R O) (events : List (PumpEvent T A R O)) : FuturePoint W R :=
  match op with
  | .worker .stop => .ended
  | _ => future.hear events

theorem after_cases (future : FuturePoint W R) (op : PumpOp T A R O) (events : List (PumpEvent T A R O)) :
    future.after op events = .ended ∨ future.after op events = future.hear events := by
  unfold after
  split
  · exact .inl rfl
  · exact .inr rfl

end FuturePoint

namespace Bridge

variable {W T A R O : Type} (current : Nat) (turn : W → FutureTurn W T A R)
  (execute : A → O → ActionReplyDisposition R × O)

/-- `run_with_owned_actions` has submitted the future. -/
def start (processId : Nat) (w : W) (owner : O) : Bridge W T A R O := ⟨.drive processId owner, .ready w⟩

/-- `ActionSender::enqueue`: without a receiver the future goes on with the error at once. -/
def enqueue (b : Bridge W T A R O) (action : A) (resume : Except BridgeClosed R → W) :
    Option (List (PumpEvent T A R O) × Bridge W T A R O) :=
  (b.pump.step current (.enqueue action)).map fun (events, pump) =>
    (events, ⟨pump, if b.pump.actions.heard then .awaiting b.pump.requests resume
      else .ready (resume (.error .actionReceiver))⟩)

def step (b : Bridge W T A R O) : BridgeOp T A R O → Option (List (PumpEvent T A R O) × Bridge W T A R O)
  | .poll =>
      match b.future with
      | .ready w =>
          match turn w with
          | .complete output =>
              (b.pump.step current (.worker (.complete output))).map fun (events, pump) => (events, ⟨pump, .ended⟩)
          | .ask action resume => b.enqueue current action resume
      | _ => none
  | .replyClosed =>
      match b.future with
      | .awaiting reply resume =>
          if b.pump.holdsReply reply then none else some ([], { b with future := .ready (resume (.error .replySender)) })
      | _ => none
  | .execute =>
      b.pump.loop.bind fun loop =>
        match loop.point with
        | .executing request =>
            let (disposition, owner) := execute request.action loop.owner
            (b.pump.step current (.execute disposition owner)).map fun (events, pump) => (events, { b with pump })
        | _ => none
  | .party op =>
      match op with
      | .dropSenders =>
          -- the only sender belongs to the future
          if b.future.isOver then (b.pump.step current op).map fun (events, pump) => (events, { b with pump }) else none
      | op =>
          if op.isProgram then none
          else (b.pump.step current op).map fun (events, pump) => (events, ⟨pump, b.future.after op events⟩)

def machine : Machine (Bridge W T A R O) (BridgeOp T A R O) (List (PumpEvent T A R O)) where
  step := step current turn execute

end Bridge

/-- The origin thread serves the future: it executes the action and sends the reply. -/
def serveAction {A R O : Type} (execute : A → O → ActionReplyDisposition R × O) (action : A) (owner : O) :
    Option (Except BridgeClosed R × O) :=
  match execute action owner with
  | (.reply value, owner) => some (.ok value, owner)
  | (.withhold _, _) => none

end RequestsNative.Python
