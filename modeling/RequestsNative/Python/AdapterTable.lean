import RequestsNative.Python.PoolCache

/-!
# The table of the adapters

`adapters.rs`, `ADAPTER_POOLS`: the pools of each `HTTPAdapter` are kept in a table of the process, under the address of
the adapter. An address may come back with another adapter once the first is gone, so an entry has a weak reference to its
adapter and a number for its lifecycle, and every call that leaves the lock looks at both when it comes back. The calls of
all threads take their sections in any order, and adapters come and go between them. What a call asks of Python is an
input: whether a manager is as it was, and which manager an adapter shows.
-/

namespace RequestsNative.Python

open RequestsNative.Lib

/-- The object, and its address. -/
structure HTTPAdapter where
  object : Nat
  identity : Nat
  deriving DecidableEq, Repr

/-- What `adapter_pool` reads of `NativeSendInput` for the table. -/
structure PoolInput where
  selectedProxy : Option Bytes
  poolKey : Bytes
  poolConnections : Nat
  deriving DecidableEq, Repr

/-- An `AdapterPool`, with the call it was made in. -/
structure AdapterPool where
  serial : Nat
  adapter : HTTPAdapter
  selectedProxy : Option Bytes
  poolKey : Bytes
  lifecycleEpoch : Nat
  deriving DecidableEq, Repr

/-- `weakref.ref(adapter, callback)`. -/
structure WeakAdapter where
  reference : Nat
  adapter : HTTPAdapter
  deriving DecidableEq, Repr

structure SideEntry where
  lifecycleEpoch : Nat
  admissionRevision : Nat := 0
  proofRevision : Nat := 0
  weakAdapter : WeakAdapter
  manager : Nat
  directPools : PoolRealm AdapterPool := {}
  proxyPools : KeyMap Bytes (PoolRealm AdapterPool) := ∅

def PoolRealm.contents {Pool : Type} (realm : PoolRealm Pool) : List Pool := KeyMap.items (fun pool => [pool]) realm.pools

namespace SideEntry

/-- A realm that is not there has no pools. -/
def realm (entry : SideEntry) : Option Bytes → PoolRealm AdapterPool
  | none => entry.directPools
  | some proxy => (entry.proxyPools.lookup proxy).getD {}

def setRealm (entry : SideEntry) (selectedProxy : Option Bytes) (realm : PoolRealm AdapterPool) : SideEntry :=
  match selectedProxy with
  | none => { entry with directPools := realm }
  | some proxy => { entry with proxyPools := entry.proxyPools.insert proxy realm }

/-- `clear_realms` clears these. -/
def pools (entry : SideEntry) : List AdapterPool :=
  entry.directPools.contents ++ KeyMap.items PoolRealm.contents entry.proxyPools

/-- `realm_pool_count`. -/
def realmPoolCount (entry : SideEntry) : Nat := entry.pools.length

end SideEntry

/-- What `reap_adapter_pools` copies of an entry. -/
structure ReapCandidate where
  identity : Nat
  lifecycleEpoch : Nat
  weakAdapter : WeakAdapter
  deriving DecidableEq, Repr

/-- What `_adapter_close_trial` copies of an entry. -/
structure ClosingView where
  lifecycleEpoch : Nat
  admissionRevision : Nat
  proofRevision : Nat
  manager : Nat
  deriving DecidableEq, Repr

/-- A call between two of its sections. -/
inductive TableCall
  | registering (adapter : HTTPAdapter)
  /-- `reap_adapter_pools`, with the references it has still to ask and the entries it has found dead. -/
  | reaping (candidates : List ReapCandidate) (dead : List (Nat × Nat))
  | admitting (adapter : HTTPAdapter) (input : PoolInput) (lifecycleEpoch manager : Nat) (hasPool : Bool)
  /-- `_adapter_close_trial`, with the attempts it has left and what it has seen in this one. -/
  | closing (adapter : HTTPAdapter) (attempts : Nat) (seen : Option ClosingView)
  /-- `record_visible_direct_manager`, with the attempts it has left and the revision it has seen in this one. -/
  | recording (adapter : HTTPAdapter) (lifecycleEpoch manager attempts : Nat) (seen : Option Nat)
  deriving DecidableEq, Repr

/-- The adapter that a call keeps alive. -/
def TableCall.holds : TableCall → Option HTTPAdapter
  | .registering adapter | .admitting adapter .. | .closing adapter .. | .recording adapter .. => some adapter
  | .reaping .. => none

/-- `MANAGER_PROOF_ATTEMPTS`. -/
def managerProofAttempts : Nat := 8

structure AdapterTable where
  entries : KeyMap Nat SideEntry := ∅
  /-- `NEXT_ADAPTER_LIFECYCLE_EPOCH`. -/
  nextEpoch : Nat := 1
  /-- `ADAPTER_PID` is that of the process. -/
  ensured : Bool := false
  poisoned : Bool := false
  alive : List HTTPAdapter := []
  /-- How many adapters, weak references and pools there have been. -/
  adapters : Nat := 0
  references : Nat := 0
  pools : Nat := 0
  calls : List (Option TableCall) := []
  /-- The pools that some thread has taken out of the table and has not cleared yet. -/
  clearing : List AdapterPool := []

inductive TableOp
  | create (identity : Nat)
  /-- The last reference to an adapter is dropped. -/
  | free (adapter : HTTPAdapter)
  /-- The process forks: this is the child, without the other threads. -/
  | fork
  /-- `_adapter_register_trial`, up to its second section; `pristine` is what its checks of the managers say. -/
  | register (adapter : HTTPAdapter) (pristine : Bool)
  | registerInsert (id manager : Nat)
  /-- `_adapter_reference_trial`. -/
  | reference (adapter : HTTPAdapter)
  /-- `_adapter_drop_trial`. -/
  | drop (identity : Nat)
  /-- `_adapter_drop_reference_trial`. -/
  | dropReference (identity reference : Nat)
  /-- `reap_adapter_pools` copies the table. -/
  | reap
  /-- It asks the next of the references. -/
  | reapAsk (id : Nat)
  | reapRemove (id : Nat)
  /-- `adapter_pool`, up to its second section; `manager` is the one the adapter shows. -/
  | pool (adapter : HTTPAdapter) (input : PoolInput) (manager : Nat)
  | poolAdmit (id : Nat)
  /-- `record_visible_direct_manager`, behind an admission in the lifecycle. -/
  | record (adapter : HTTPAdapter) (lifecycleEpoch manager : Nat)
  | recordLook (id : Nat)
  /-- `stable` says whether the pools of the manager have stayed the same while they were looked at. -/
  | recordStore (id : Nat) (stable : Bool)
  /-- `_adapter_close_trial`. -/
  | close (adapter : HTTPAdapter)
  | closeLook (id : Nat)
  | closeTake (id : Nat) (stable : Bool)
  /-- A thread clears a pool it has taken out. -/
  | clear (pool : AdapterPool)
  deriving DecidableEq, Repr

/-- The call that a later section belongs to. -/
def TableOp.call? : TableOp → Option Nat
  | .registerInsert id _ | .reapRemove id | .poolAdmit id | .closeLook id | .closeTake id _ | .recordLook id
  | .recordStore id _ => some id
  | _ => none

inductive TableAnswer
  | created (adapter : HTTPAdapter)
  | freed
  /-- The pools that were in the hands of the other threads. -/
  | forked (lost : List AdapterPool)
  | registered (admitted : Bool)
  | referenced (reference : Option Nat)
  | dropped (count : Nat)
  | reaped
  /-- `stored` says that the pool is new in the table. -/
  | selected (adapter : HTTPAdapter) (input : PoolInput) (pool : AdapterPool) (stored : Bool)
  | notAdmitted (message : String)
  | recorded (visible : Bool)
  | closed (adapter : HTTPAdapter) (count : Nat)
  /-- `adapter pool state changed while closing`. -/
  | notClosed
  | cleared (pool : AdapterPool)
  /-- The call goes on. -/
  | pending
  | panicked (panic : Panic)
  /-- `adapter pool table lock poisoned`. -/
  | refused
  deriving DecidableEq, Repr

namespace AdapterTable

/-- The pools in the table. -/
def stored (s : AdapterTable) : List AdapterPool := KeyMap.items SideEntry.pools s.entries

def call? (s : AdapterTable) (id : Nat) : Option TableCall := s.calls[id]?.join

/-- The call stops in front of its next section. -/
def wait (s : AdapterTable) (call : TableCall) : TableAnswer × AdapterTable :=
  (.pending, { s with calls := s.calls ++ [some call] })

def setCall (s : AdapterTable) (id : Nat) (call : Option TableCall) : AdapterTable :=
  { s with calls := s.calls.set id call }

/-- `ensure_adapter_process`. -/
def ensureAdapterProcess (s : AdapterTable) : AdapterTable :=
  if s.ensured || s.poisoned then s
  else { s with entries := ∅, nextEpoch := 1, ensured := true, clearing := s.clearing ++ s.stored }

/-- `next_adapter_lifecycle_epoch`. -/
def takeEpoch (s : AdapterTable) : AdapterTable := { s with nextEpoch := (s.nextEpoch + 1) % 2 ^ 64 }

/-- The entry goes, and its pools are to be cleared. -/
def remove (s : AdapterTable) (identity : Nat) (entry : SideEntry) : AdapterTable :=
  { s with entries := s.entries.erase identity, clearing := s.clearing ++ entry.pools }

def register (s : AdapterTable) (adapter : HTTPAdapter) (pristine : Bool) : TableAnswer × AdapterTable :=
  -- the adapter lives, so a reference gives it exactly if it is one to it
  if (s.entries.lookup adapter.identity).any (·.weakAdapter.adapter = adapter) then (.registered pristine, s)
  else if pristine then s.wait (.registering adapter)
  else (.registered false, s)

def registerInsert (s : AdapterTable) (adapter : HTTPAdapter) (manager : Nat) : TableAnswer × AdapterTable :=
  let entry : SideEntry := { lifecycleEpoch := s.nextEpoch, weakAdapter := ⟨s.references, adapter⟩, manager }
  let previous := (s.entries.lookup adapter.identity).elim [] SideEntry.pools
  (.registered true,
    { s.takeEpoch with
      entries := s.entries.insert adapter.identity entry, references := s.references + 1, clearing := s.clearing ++ previous })

def reference (s : AdapterTable) (adapter : HTTPAdapter) : Option Nat :=
  (s.entries.lookup adapter.identity).bind fun entry =>
    if entry.weakAdapter.adapter = adapter then some entry.weakAdapter.reference else none

def drop (s : AdapterTable) (identity : Nat) : TableAnswer × AdapterTable :=
  match s.entries.lookup identity with
  | none => (.dropped 0, s)
  | some entry => (.dropped entry.realmPoolCount, s.remove identity entry)

def dropReference (s : AdapterTable) (identity reference : Nat) : TableAnswer × AdapterTable :=
  match s.entries.lookup identity with
  | none => (.dropped 0, s)
  | some entry =>
      if entry.weakAdapter.reference = reference then (.dropped entry.realmPoolCount, s.remove identity entry)
      else (.dropped 0, s)

def reapCandidates (s : AdapterTable) : List ReapCandidate :=
  s.entries.entries.map fun entry => ⟨entry.1, entry.2.lifecycleEpoch, entry.2.weakAdapter⟩

/-- What `reap_adapter_pools` does with one of the dead. -/
def removeDead (s : AdapterTable) (dead : Nat × Nat) : AdapterTable :=
  match s.entries.lookup dead.1 with
  | none => s
  | some entry => if entry.lifecycleEpoch = dead.2 then s.remove dead.1 entry else s

def pool (s : AdapterTable) (adapter : HTTPAdapter) (input : PoolInput) (manager : Nat) : TableAnswer × AdapterTable :=
  match s.entries.lookup adapter.identity with
  | none => (.notAdmitted "adapter was not registered at initialization", s)
  | some entry =>
      let hasPool := ((entry.realm input.selectedProxy).pools.lookup input.poolKey).isSome
      if entry.weakAdapter.adapter ≠ adapter ∨ entry.manager ≠ manager then
        (.notAdmitted "visible pool manager identity changed", s)
      else s.wait (.admitting adapter input entry.lifecycleEpoch entry.manager hasPool)

def poolAdmit (s : AdapterTable) (adapter : HTTPAdapter) (input : PoolInput) (lifecycleEpoch manager : Nat)
    (hasPool : Bool) : TableAnswer × AdapterTable :=
  let made : AdapterPool := ⟨s.pools, adapter, input.selectedProxy, input.poolKey, lifecycleEpoch⟩
  let s := if hasPool then s else { s with pools := s.pools + 1 }
  match s.entries.lookup adapter.identity with
  | none => (.notAdmitted "adapter pool state disappeared during admission", s)
  | some entry =>
      if entry.lifecycleEpoch ≠ lifecycleEpoch ∨ entry.manager ≠ manager then
        (.notAdmitted "adapter pool state changed during admission", s)
      else
        let realm := entry.realm input.selectedProxy
        match realm.select input.poolKey input.poolConnections (if hasPool then none else some made) with
        | .error panic => (.panicked panic, { s with poisoned := true })
        | .ok (pool, evicted, realm') =>
            let entry := { entry.setRealm input.selectedProxy realm' with
              admissionRevision := (entry.admissionRevision + 1) % 2 ^ 64 }
            let stored := (realm.pools.lookup input.poolKey).isNone && decide (0 < input.poolConnections)
            (.selected adapter input pool stored,
              { s with entries := s.entries.insert adapter.identity entry, clearing := s.clearing ++ evicted })

/-- Another attempt, if one is left; the call that has none left returns. -/
def retry (s : AdapterTable) (id attempts : Nat) (call : Nat → TableCall) (answer : TableAnswer) :
    TableAnswer × AdapterTable :=
  match attempts with
  | 0 | 1 => (answer, s)
  | attempts + 1 => (.pending, s.setCall id (some (call attempts)))

def closeLook (s : AdapterTable) (id : Nat) (adapter : HTTPAdapter) (attempts : Nat) : TableAnswer × AdapterTable :=
  match s.entries.lookup adapter.identity with
  | none => (.closed adapter 0, s)
  | some entry =>
      let seen := ⟨entry.lifecycleEpoch, entry.admissionRevision, entry.proofRevision, entry.manager⟩
      (.pending, s.setCall id (some (.closing adapter attempts (some seen))))

def closeTake (s : AdapterTable) (id : Nat) (adapter : HTTPAdapter) (attempts : Nat) (seen : ClosingView) (stable : Bool) :
    TableAnswer × AdapterTable :=
  if !stable then (.notClosed, s)
  else
    match s.entries.lookup adapter.identity with
    | none => (.closed adapter 0, s)
    | some entry =>
        if entry.lifecycleEpoch ≠ seen.lifecycleEpoch then (.notClosed, s)
        else if entry.admissionRevision ≠ seen.admissionRevision then (.notClosed, s)
        else if entry.proofRevision ≠ seen.proofRevision then s.retry id attempts (.closing adapter · none) .notClosed
        else if entry.manager ≠ seen.manager then (.notClosed, s)
        else
          let closed := { entry with
            lifecycleEpoch := s.nextEpoch, proofRevision := (entry.proofRevision + 1) % 2 ^ 64
            directPools := {}, proxyPools := ∅ }
          (.closed adapter entry.realmPoolCount,
            { s.takeEpoch with
              entries := s.entries.insert adapter.identity closed, clearing := s.clearing ++ entry.pools })

def recordLook (s : AdapterTable) (id : Nat) (adapter : HTTPAdapter) (lifecycleEpoch manager attempts : Nat) :
    TableAnswer × AdapterTable :=
  match s.entries.lookup adapter.identity with
  | none => (.recorded false, s)
  | some entry =>
      if entry.lifecycleEpoch ≠ lifecycleEpoch ∨ entry.manager ≠ manager then (.recorded false, s)
      else (.pending, s.setCall id (some (.recording adapter lifecycleEpoch manager attempts (some entry.proofRevision))))

def recordStore (s : AdapterTable) (id : Nat) (adapter : HTTPAdapter) (lifecycleEpoch manager attempts proofRevision : Nat)
    (stable : Bool) : TableAnswer × AdapterTable :=
  if !stable then (.recorded false, s)
  else
    match s.entries.lookup adapter.identity with
    | none => (.recorded false, s)
    | some entry =>
        if entry.lifecycleEpoch ≠ lifecycleEpoch ∨ entry.manager ≠ manager then (.recorded false, s)
        else if entry.proofRevision ≠ proofRevision then
          s.retry id attempts (.recording adapter lifecycleEpoch manager · none) (.recorded false)
        else
          let entry := { entry with proofRevision := (entry.proofRevision + 1) % 2 ^ 64 }
          (.recorded true, { s with entries := s.entries.insert adapter.identity entry })

/-- A call takes its first section, if its adapter is there to be passed. -/
def begin (s : AdapterTable) : TableOp → Option (TableAnswer × AdapterTable)
  | .register adapter pristine => if adapter ∈ s.alive then some (s.register adapter pristine) else none
  | .reference adapter => if adapter ∈ s.alive then some (.referenced (s.reference adapter), s) else none
  | .drop identity => some (s.drop identity)
  | .dropReference identity reference => some (s.dropReference identity reference)
  | .reap => some (s.wait (.reaping s.reapCandidates []))
  | .pool adapter input manager => if adapter ∈ s.alive then some (s.pool adapter input manager) else none
  | .close adapter => if adapter ∈ s.alive then some (s.wait (.closing adapter managerProofAttempts none)) else none
  | _ => none

/-- A call takes a later section; `s` is the table without it. -/
def resume (s : AdapterTable) (id : Nat) : TableCall → TableOp → Option (TableAnswer × AdapterTable)
  | .registering adapter, .registerInsert _ manager => some (s.registerInsert adapter manager)
  | .reaping [] dead, .reapRemove _ => some (.reaped, dead.foldl removeDead s)
  | .admitting adapter input lifecycleEpoch manager hasPool, .poolAdmit _ =>
      some (s.poolAdmit adapter input lifecycleEpoch manager hasPool)
  | .closing adapter attempts none, .closeLook _ => some (s.closeLook id adapter attempts)
  | .closing adapter attempts (some seen), .closeTake _ stable => some (s.closeTake id adapter attempts seen stable)
  | .recording adapter lifecycleEpoch manager attempts none, .recordLook _ =>
      some (s.recordLook id adapter lifecycleEpoch manager attempts)
  | .recording adapter lifecycleEpoch manager attempts (some seen), .recordStore _ stable =>
      some (s.recordStore id adapter lifecycleEpoch manager attempts seen stable)
  | _, _ => none

/-- A section that takes the lock, of a table that lies behind it. -/
def locked (s : AdapterTable) (result : Option (TableAnswer × AdapterTable)) : Option (TableAnswer × AdapterTable) :=
  result.map fun next => if s.poisoned then (.refused, s) else next

/-- The next section of the call that the operation belongs to, or the first of a new one. -/
def takeSection (s : AdapterTable) (op : TableOp) : Option (TableAnswer × AdapterTable) :=
  match op.call? with
  | some id => (s.call? id).bind fun call =>
      let s := s.setCall id none
      s.locked (s.resume id call op)
  | none =>
      let s := s.ensureAdapterProcess
      s.locked (s.begin op)

def step (s : AdapterTable) : TableOp → Option (TableAnswer × AdapterTable)
  | .create identity =>
      if s.alive.any (·.identity = identity) then none
      else
        let adapter := ⟨s.adapters, identity⟩
        some (.created adapter, { s with alive := s.alive ++ [adapter], adapters := s.adapters + 1 })
  | .free adapter =>
      if adapter ∈ s.alive ∧ s.calls.all fun call => call.bind TableCall.holds != some adapter then
        some (.freed, { s with alive := s.alive.erase adapter })
      else none
  | .fork => some (.forked s.clearing, { s with ensured := false, calls := [], clearing := [] })
  | .clear pool => if pool ∈ s.clearing then some (.cleared pool, { s with clearing := s.clearing.erase pool }) else none
  | .reapAsk id =>
      match s.call? id with
      | some (.reaping (candidate :: candidates) dead) =>
          let dead :=
            if candidate.weakAdapter.adapter ∈ s.alive then dead
            else dead ++ [(candidate.identity, candidate.lifecycleEpoch)]
          some (.pending, s.setCall id (some (.reaping candidates dead)))
      | _ => none
  | .record adapter lifecycleEpoch manager =>
      if s.ensured ∧ adapter ∈ s.alive then
        some (s.wait (.recording adapter lifecycleEpoch manager managerProofAttempts none))
      else none
  | op => s.takeSection op

def machine : Machine AdapterTable TableOp TableAnswer where
  step := step

end AdapterTable

end RequestsNative.Python
