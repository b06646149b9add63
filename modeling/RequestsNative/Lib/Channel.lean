import Mathlib.Data.List.Basic

/-!
# Channels

A queue between any number of senders and one receiver. Sending fails when the receiver is gone; receiving finds a
value, an empty queue, or an empty queue that no one can fill any more.
-/

namespace RequestsNative.Lib

structure Channel (α : Type*) where
  queue : List α := []
  /-- A sender is left. -/
  live : Bool := true
  /-- The receiver is left. -/
  heard : Bool := true
  deriving DecidableEq, Repr

inductive Received (α : Type*)
  | value (a : α)
  | empty
  | disconnected
  deriving DecidableEq, Repr

namespace Channel

variable {α : Type*}

def send (channel : Channel α) (a : α) : Channel α :=
  if channel.heard then { channel with queue := channel.queue ++ [a] } else channel

def dropSender (channel : Channel α) : Channel α := { channel with live := false }

/-- What is still in the queue goes with the receiver. -/
def dropReceiver (channel : Channel α) : Channel α := { channel with queue := [], heard := false }

def receive (channel : Channel α) : Received α × Channel α :=
  match channel.queue with
  | a :: queue => (.value a, { channel with queue })
  | [] => (if channel.live then .empty else .disconnected, channel)

end Channel

end RequestsNative.Lib
