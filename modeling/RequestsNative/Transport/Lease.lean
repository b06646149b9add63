import RequestsNative.Transport.Pool

/-!
# The lease of one exchange

`transport/mod.rs`: the driver of a connection, and `TransportLease`, which owns a pooled lease for the
time of one response and gives it back to the pool once. Giving back is the call of `Pool::release`;
here the functions return the completed lease they pass to that call, as a list, so that "exactly once"
is a statement about its length. `TransportLease` frees itself in two places, in `release` and in its
`Drop`, and both run for a lease that is finished by hand: the list is what both passed on.
-/

namespace RequestsNative.Transport

/-- `TcpStream::peek` on the raw handle. -/
inductive Peek
  | read (amount : Nat) | wouldBlock | interrupted | failed
  deriving DecidableEq, Repr

/-- What the socket and the driver task answer at one moment. -/
structure World where
  senderClosed : Bool
  taskFinished : Bool
  peek : Peek
  deriving DecidableEq, Repr

/-- The handle of the driver task and the raw shutdown handle, while they are held. -/
structure ConnectionDriver where
  task : Bool
  shutdown : Bool
  deriving DecidableEq, Repr

namespace ConnectionDriver

def isReusable (driver : ConnectionDriver) (world : World) : Bool := driver.task && !world.taskFinished

def peerIsOpen (driver : ConnectionDriver) (world : World) : Bool :=
  driver.shutdown &&
    match world.peek with
    | .read 0 => false
    | .read _ => true
    | .wouldBlock | .interrupted => true
    | .failed => false

/-- `finish` and `shutdown_now` both drop the two handles. -/
def release (_ : ConnectionDriver) : ConnectionDriver := ⟨false, false⟩

end ConnectionDriver

/-- `IdleConnection` with its network parts, named by `id`. -/
structure NetworkConnection where
  id : Nat
  driver : ConnectionDriver
  deriving DecidableEq, Repr

namespace NetworkConnection

def isLive (world : World) (connection : NetworkConnection) : Bool :=
  !world.senderClosed && connection.driver.isReusable world

def peerIsOpen (world : World) (connection : NetworkConnection) : Bool := connection.driver.peerIsOpen world

end NetworkConnection

inductive ResponseRemainderGate
  | uninitialized | waiting | completed
  deriving DecidableEq, Repr

/-- `sessionRuntime` says whether a session harness is attached. -/
structure ActiveExchangeGuard where
  sessionRuntime : Bool
  released : Bool
  responseRemainderGate : ResponseRemainderGate
  deriving DecidableEq, Repr

namespace ActiveExchangeGuard

def release (guard : ActiveExchangeGuard) : ActiveExchangeGuard := { guard with released := true }

/-- `waitReady` is the answer of the harness's wait future, if it is polled. -/
def pollResponseRemainder (guard : ActiveExchangeGuard) (waitReady : Bool) : Poll Unit × ActiveExchangeGuard :=
  if !guard.sessionRuntime then (.ready (), guard)
  else
    match guard.responseRemainderGate with
    | .completed => (.ready (), guard)
    | .uninitialized | .waiting =>
        if waitReady then (.ready (), { guard with responseRemainderGate := .completed })
        else (.pending, { guard with responseRemainderGate := .waiting })

end ActiveExchangeGuard

/-- What polling or awaiting the driver task gives. -/
inductive DriverResult
  | ok
  | failed (error : Error)
  | joinError (cancelled : Bool) (message : Bytes)
  deriving DecidableEq, Repr

structure TransportLease (Key : Type) where
  lease : Option (ConnectionLease Key NetworkConnection)
  activeExchange : ActiveExchangeGuard
  deriving DecidableEq, Repr

namespace TransportLease

variable {Key : Type}

/-- What the lease passes to `Pool::release`. -/
abbrev Settlement (Key : Type) := ConnectionLease Key NetworkConnection

def new (lease : ConnectionLease Key NetworkConnection) (sessionRuntime : Bool) : TransportLease Key :=
  ⟨some lease, ⟨sessionRuntime, false, .uninitialized⟩⟩

def mapDriver (f : ConnectionDriver → ConnectionDriver) (transport : TransportLease Key) : TransportLease Key :=
  { transport with
    lease := transport.lease.map fun lease =>
      { lease with connection := lease.connection.map fun c => { c with driver := f c.driver } } }

/-- Whether the driver task is still held by the lease. -/
def holdsTask (transport : TransportLease Key) : Bool :=
  (transport.lease.bind (·.connection)).any (·.driver.task)

/-- A finished task is never polled again: `finish` drops its handle. -/
def pollResult (transport : TransportLease Key) (task : Poll DriverResult) :
    Poll (Except Error Unit) × TransportLease Key :=
  if !transport.holdsTask then (.pending, transport)
  else
    match task with
    | .pending => (.pending, transport)
    | .ready result =>
        let answer : Except Error Unit :=
          match result with
          | .ok => .ok ()
          | .failed error => .error error
          | .joinError _ message => .error (Error.connection message)
        (.ready answer, transport.mapDriver ConnectionDriver.release)

/-- The clean path needs a live connection whose peer has not closed, whatever the caller asked for. -/
def release (world : World) (transport : TransportLease Key) (reusable : Bool) (cause : DirtyLeaseCause) :
    List (Settlement Key) × TransportLease Key :=
  match transport.lease with
  | none => ([], transport)
  | some lease =>
      let reusable := reusable && lease.isLive (NetworkConnection.isLive world) &&
        lease.connection.any (NetworkConnection.peerIsOpen world)
      let lease := if reusable then lease.complete .cleanEof else lease.completeDirty cause
      ([lease], ⟨none, transport.activeExchange.release⟩)

/-- `Drop`. -/
def drop (transport : TransportLease Key) : List (Settlement Key) :=
  match (transport.mapDriver ConnectionDriver.release).lease with
  | none => []
  | some lease => [lease.completeDirty .cancellation]

def finishNow (world : World) (transport : TransportLease Key) (reusable : Bool) : List (Settlement Key) :=
  let transport := if reusable then transport else transport.mapDriver ConnectionDriver.release
  let (settled, transport) := transport.release world reusable .cancellation
  settled ++ transport.drop

def finishIncompleteBodyNow (world : World) (transport : TransportLease Key) : List (Settlement Key) :=
  let transport := transport.mapDriver ConnectionDriver.release
  let (settled, transport) := transport.release world false .incompleteBody
  settled ++ transport.drop

/-- `none` is a future that is dropped while the aborted task is still being awaited. -/
def abortAndWait (world : World) (transport : TransportLease Key) (awaited : Option DriverResult) :
    Option (Except Error Unit) × List (Settlement Key) :=
  let held := transport.holdsTask
  let transport := transport.mapDriver ConnectionDriver.release
  let result : Option (Except Error Unit) :=
    if !held then some (.ok ())
    else
      awaited.map fun result =>
        match result with
        | .ok => .ok ()
        | .failed error => .error error
        | .joinError true _ => .ok ()
        | .joinError false message => .error (Error.connection message)
  match result with
  | none => (none, transport.drop)
  | some answer =>
      let (settled, transport) := transport.release world false .cancellation
      (some answer, settled ++ transport.drop)

/-! ### Settling once -/

/-- The lease owns a connection and nothing has been decided about it. -/
def Owned (transport : TransportLease Key) : Prop :=
  ∃ lease, transport.lease = some lease ∧ lease.terminal = .active ∧ lease.dirtyIdentity = none

/-- One settlement, and a dirty one. -/
def SettlesDirty (settled : List (Settlement Key)) : Prop :=
  ∃ lease, settled = [lease] ∧ lease.terminal = .dirty ∧ lease.dirtyIdentity.isSome = true

theorem Owned.new (key : Key) (generation : Nat) (connection : NetworkConnection) (sessionRuntime : Bool) :
    (new (.new key generation connection) sessionRuntime).Owned :=
  ⟨_, rfl, rfl, rfl⟩

theorem Owned.mapDriver {transport : TransportLease Key} (h : transport.Owned)
    (f : ConnectionDriver → ConnectionDriver) : (transport.mapDriver f).Owned := by
  obtain ⟨lease, hlease, hactive, hidentity⟩ := h
  refine ⟨{ lease with connection := lease.connection.map fun c => { c with driver := f c.driver } }, ?_,
    hactive, hidentity⟩
  simp only [TransportLease.mapDriver, hlease, Option.map_some]

theorem Owned.pollResult {transport : TransportLease Key} (h : transport.Owned) (task : Poll DriverResult) :
    (transport.pollResult task).2.Owned := by
  unfold TransportLease.pollResult
  split
  · exact h
  · split
    · exact h
    · exact h.mapDriver _

theorem Owned.release_drop {transport : TransportLease Key} (h : transport.Owned) (world : World)
    (reusable : Bool) (cause : DirtyLeaseCause) :
    ∃ lease, (transport.release world reusable cause).1 ++ (transport.release world reusable cause).2.drop = [lease] ∧
      ((lease.Clean ∧ reusable = true) ∨ (lease.terminal = .dirty ∧ lease.dirtyIdentity.isSome = true)) := by
  obtain ⟨lease, hlease, hactive, hidentity⟩ := h
  unfold TransportLease.release
  rw [hlease]
  simp only [TransportLease.drop, TransportLease.mapDriver, Option.map_none, List.append_nil]
  refine ⟨_, rfl, ?_⟩
  split
  · rename_i hreusable
    simp only [Bool.and_eq_true] at hreusable
    exact .inl ⟨ConnectionLease.complete_active hactive hidentity, hreusable.1.1⟩
  · obtain ⟨hdirty, hcause⟩ := ConnectionLease.completeDirty_active hactive cause
    exact .inr ⟨hdirty, by rw [hcause]; rfl⟩

theorem Owned.release_false {transport : TransportLease Key} (h : transport.Owned) (world : World)
    (cause : DirtyLeaseCause) :
    SettlesDirty ((transport.release world false cause).1 ++ (transport.release world false cause).2.drop) := by
  obtain ⟨lease, hsettled, hcase⟩ := h.release_drop world false cause
  refine ⟨lease, hsettled, ?_⟩
  rcases hcase with ⟨-, hfalse⟩ | hdirty
  · cases hfalse
  · exact hdirty

theorem Owned.drop {transport : TransportLease Key} (h : transport.Owned) : SettlesDirty transport.drop := by
  obtain ⟨lease, hlease, hactive, -⟩ := h.mapDriver ConnectionDriver.release
  unfold TransportLease.drop
  rw [hlease]
  obtain ⟨hdirty, hcause⟩ := ConnectionLease.completeDirty_active hactive .cancellation
  exact ⟨_, rfl, hdirty, by rw [hcause]; rfl⟩

/-- Finishing by hand settles once, and cleanly only if it was asked to. -/
theorem Owned.finishNow {transport : TransportLease Key} (h : transport.Owned) (world : World) (reusable : Bool) :
    ∃ lease, transport.finishNow world reusable = [lease] ∧
      ((lease.Clean ∧ reusable = true) ∨ (lease.terminal = .dirty ∧ lease.dirtyIdentity.isSome = true)) := by
  unfold TransportLease.finishNow
  cases reusable with
  | true => exact h.release_drop world true .cancellation
  | false => exact (h.mapDriver _).release_drop world false .cancellation

theorem Owned.finishIncompleteBodyNow {transport : TransportLease Key} (h : transport.Owned) (world : World) :
    SettlesDirty (transport.finishIncompleteBodyNow world) :=
  (h.mapDriver _).release_false world .incompleteBody

theorem Owned.abortAndWait {transport : TransportLease Key} (h : transport.Owned) (world : World)
    (awaited : Option DriverResult) : SettlesDirty (transport.abortAndWait world awaited).2 := by
  simp only [TransportLease.abortAndWait]
  split
  · exact (h.mapDriver _).drop
  · exact (h.mapDriver _).release_false world .cancellation

end TransportLease

end RequestsNative.Transport
