import RequestsNative.Base
import RequestsNative.Lib.KeyedBags

/-!
# The connection pool

`transport/pool.rs`: leases, their completion, and the pool's three operations. The pool compares
keys and stores connections, and looks into neither, so both are type parameters here; `PoolKey` is
the key the transport uses. Whether a connection is still live is read off the socket at the moment of the
call, so `live` is an argument of the operations that ask for it.

The session identities of a lease are an observation seam of the test harness. No decision of the
pool reads them and they are left out.
-/

namespace RequestsNative.Transport

open RequestsNative.Lib

inductive LeaseTerminal
  | active | cleanEof | dirty
  deriving DecidableEq, Repr

inductive DirtyLeaseCause
  | cancellation | incompleteBody | upload
  deriving DecidableEq, Repr

structure DirtyLeaseIdentity where
  generation : Nat
  cause : DirtyLeaseCause
  deriving DecidableEq, Repr

structure ConnectionLease (Key Conn : Type) where
  key : Key
  generation : Nat
  terminal : LeaseTerminal
  dirtyIdentity : Option DirtyLeaseIdentity
  connection : Option Conn
  deriving DecidableEq, Repr

variable {Key Conn : Type}

namespace ConnectionLease

def new (key : Key) (generation : Nat) (connection : Conn) : ConnectionLease Key Conn :=
  ⟨key, generation, .active, none, some connection⟩

/-- `is_live`: a lease whose connection was taken is not live. -/
def isLive (live : Conn → Bool) (lease : ConnectionLease Key Conn) : Bool := lease.connection.any live

/-- The first completion wins; completing with `active` does nothing. -/
def complete (lease : ConnectionLease Key Conn) (terminal : LeaseTerminal) : ConnectionLease Key Conn :=
  if lease.terminal = .active ∧ terminal ≠ .active then
    { lease with
      terminal
      dirtyIdentity :=
        if terminal = .dirty then some ⟨lease.generation, .cancellation⟩ else lease.dirtyIdentity }
  else lease

/-- The three causes wrap the identity in a newtype each and unwrap it again, so one value serves. -/
def completeDirty (lease : ConnectionLease Key Conn) (cause : DirtyLeaseCause) :
    ConnectionLease Key Conn :=
  let identity : DirtyLeaseIdentity := ⟨lease.generation, cause⟩
  if lease.terminal = .active then
    { lease with terminal := .dirty, dirtyIdentity := some identity }
  else lease

/-- The terminal state that lets a lease back into the pool. -/
def Clean (lease : ConnectionLease Key Conn) : Prop :=
  lease.terminal = .cleanEof ∧ lease.dirtyIdentity = none

/-- What completion leaves alone. -/
def SameConnection (lease other : ConnectionLease Key Conn) : Prop :=
  other.key = lease.key ∧ other.generation = lease.generation ∧ other.connection = lease.connection

theorem complete_sameConnection (lease : ConnectionLease Key Conn) (terminal : LeaseTerminal) :
    SameConnection lease (lease.complete terminal) := by
  unfold complete
  split <;> exact ⟨rfl, rfl, rfl⟩

theorem completeDirty_sameConnection (lease : ConnectionLease Key Conn) (cause : DirtyLeaseCause) :
    SameConnection lease (lease.completeDirty cause) := by
  simp only [completeDirty]
  split <;> exact ⟨rfl, rfl, rfl⟩

theorem complete_active {lease : ConnectionLease Key Conn} (hactive : lease.terminal = .active)
    (hidentity : lease.dirtyIdentity = none) : (lease.complete .cleanEof).Clean := by
  simp [complete, Clean, hactive, hidentity]

theorem completeDirty_active {lease : ConnectionLease Key Conn} (hactive : lease.terminal = .active)
    (cause : DirtyLeaseCause) :
    (lease.completeDirty cause).terminal = .dirty ∧
      (lease.completeDirty cause).dirtyIdentity = some ⟨lease.generation, cause⟩ := by
  simp [completeDirty, hactive]

end ConnectionLease

structure PoolGeneration (Conn : Type) where
  number : Nat
  idle : List Conn
  deriving DecidableEq, Repr

structure Pool (Key Conn : Type) where
  maxIdlePerKey : Nat
  generationNumber : Nat
  generations : KeyMap Key (PoolGeneration Conn)

namespace Pool

def new (maxIdlePerKey : Nat) : Pool Key Conn := ⟨maxIdlePerKey, 0, ∅⟩

/-- Every idle connection of the pool. -/
def idleConnections (pool : Pool Key Conn) : List Conn := pool.generations.items PoolGeneration.idle

variable [DecidableEq Key]

/-- The idle connections of one key. -/
def idleAt (pool : Pool Key Conn) (key : Key) : List Conn :=
  pool.generations.itemsAt PoolGeneration.idle key

/-- Write one key's generation. -/
def setGeneration (pool : Pool Key Conn) (key : Key) (generation : PoolGeneration Conn) : Pool Key Conn :=
  { pool with generations := pool.generations.insert key generation }

/-- Pop the connection that was pushed last, under a lease of the current generation. -/
def acquire (pool : Pool Key Conn) (key : Key) : Option (ConnectionLease Key Conn) × Pool Key Conn :=
  match pool.generations.lookup key with
  | none => (none, pool)
  | some generation =>
      match generation.idle.getLast? with
      | none => (none, pool)
      | some connection =>
          (some (.new key pool.generationNumber connection),
            pool.setGeneration key { generation with idle := generation.idle.dropLast })

/-- `some lease` hands the lease back to the caller, who closes its connection. -/
def release (live : Conn → Bool) (pool : Pool Key Conn) (lease : ConnectionLease Key Conn) :
    Except Panic (Option (ConnectionLease Key Conn) × Pool Key Conn) :=
  if ¬(lease.terminal = .cleanEof ∧ lease.dirtyIdentity.isNone = true ∧
      lease.generation = pool.generationNumber ∧ lease.isLive live = true) then
    .ok (some lease, pool)
  else
    -- `entry(..).or_insert_with(..)` opens the key's generation even when the lease is then rejected
    let generation := (pool.generations.lookup lease.key).getD ⟨pool.generationNumber, []⟩
    if generation.number ≠ pool.generationNumber ∨ pool.maxIdlePerKey ≤ generation.idle.length then
      .ok (some lease, pool.setGeneration lease.key generation)
    else
      match lease.connection with
      | none => .error ⟨"reusable lease connection"⟩
      | some connection =>
          .ok (none,
            pool.setGeneration lease.key { generation with idle := generation.idle ++ [connection] })

omit [DecidableEq Key] in
/-- Start a new generation under every key and hand out what was idle. -/
def clear (pool : Pool Key Conn) : Except Panic (List Conn × Pool Key Conn) :=
  match checkedAdd pool.generationNumber 1 with
  | none => .error ⟨"pool generation overflow"⟩
  | some number =>
      .ok (pool.generations.entries.foldl (fun evicted entry => evicted ++ entry.2.idle) [],
        { pool with
          generationNumber := number
          generations := pool.generations.mapValues fun _ => ⟨number, []⟩ })

/-! ### What one operation can do -/

theorem acquire_cases {pool pool' : Pool Key Conn} {key : Key} {lease : Option (ConnectionLease Key Conn)}
    (h : pool.acquire key = (lease, pool')) :
    (lease = none ∧ pool' = pool) ∨
      ∃ generation rest connection, pool.generations.lookup key = some generation ∧
        generation.idle = rest ++ [connection] ∧
        lease = some (.new key pool.generationNumber connection) ∧
        pool' = pool.setGeneration key { generation with idle := rest } := by
  unfold acquire at h
  split at h
  · obtain ⟨rfl, rfl⟩ := Prod.mk.inj h
    exact .inl ⟨rfl, rfl⟩
  · rename_i generation hlookup
    split at h
    · obtain ⟨rfl, rfl⟩ := Prod.mk.inj h
      exact .inl ⟨rfl, rfl⟩
    · rename_i connection hlast
      obtain ⟨rfl, rfl⟩ := Prod.mk.inj h
      refine .inr ⟨generation, generation.idle.dropLast, connection, hlookup, ?_, rfl, rfl⟩
      exact (List.dropLast_append_getLast? connection hlast).symm

theorem release_cases {live : Conn → Bool} {pool pool' : Pool Key Conn}
    {lease : ConnectionLease Key Conn} {rejected : Option (ConnectionLease Key Conn)}
    (h : pool.release live lease = .ok (rejected, pool')) :
    (rejected = some lease ∧ pool' = pool) ∨
      (lease.Clean ∧ lease.generation = pool.generationNumber ∧
        ∃ generation, (pool.generations.lookup lease.key).getD ⟨pool.generationNumber, []⟩ = generation ∧
          ((rejected = some lease ∧ pool' = pool.setGeneration lease.key generation) ∨
            (generation.number = pool.generationNumber ∧ generation.idle.length < pool.maxIdlePerKey ∧
              ∃ connection, lease.connection = some connection ∧ rejected = none ∧
                pool' = pool.setGeneration lease.key
                  { generation with idle := generation.idle ++ [connection] }))) := by
  unfold release at h
  split at h
  · obtain ⟨rfl, rfl⟩ := Prod.mk.inj (Except.ok.inj h)
    exact .inl ⟨rfl, rfl⟩
  · rename_i hreusable
    rw [not_not] at hreusable
    obtain ⟨hterminal, hidentity, hgeneration, -⟩ := hreusable
    refine .inr ⟨⟨hterminal, Option.isNone_iff_eq_none.mp hidentity⟩, hgeneration, _, rfl, ?_⟩
    simp only at h
    split at h
    · obtain ⟨rfl, rfl⟩ := Prod.mk.inj (Except.ok.inj h)
      exact .inl ⟨rfl, rfl⟩
    · rename_i hroom
      rw [not_or, not_not, not_le] at hroom
      split at h
      · cases h
      · rename_i connection hconnection
        obtain ⟨rfl, rfl⟩ := Prod.mk.inj (Except.ok.inj h)
        exact .inr ⟨hroom.1, hroom.2, connection, hconnection, rfl, rfl⟩

/-- The `expect` in `release` is unreachable: a lease without a connection is not live. -/
theorem release_ne_panic (live : Conn → Bool) (pool : Pool Key Conn) (lease : ConnectionLease Key Conn) :
    ∃ answer, pool.release live lease = .ok answer := by
  unfold release
  split
  · exact ⟨_, rfl⟩
  · rename_i hreusable
    rw [not_not] at hreusable
    obtain ⟨-, -, -, hlive⟩ := hreusable
    simp only
    split
    · exact ⟨_, rfl⟩
    · cases hconnection : lease.connection with
      | none => simp [ConnectionLease.isLive, hconnection] at hlive
      | some connection => exact ⟨_, rfl⟩

omit [DecidableEq Key] in
theorem clear_cases {pool pool' : Pool Key Conn} {evicted : List Conn}
    (h : pool.clear = .ok (evicted, pool')) :
    evicted = pool.idleConnections ∧
      pool' = { pool with
        generationNumber := pool.generationNumber + 1
        generations := pool.generations.mapValues fun _ => ⟨pool.generationNumber + 1, []⟩ } := by
  unfold clear checkedAdd at h
  split at h
  · cases h
  · rename_i number hnumber
    obtain ⟨rfl, rfl⟩ := Prod.mk.inj (Except.ok.inj h)
    have hsucc : number = pool.generationNumber + 1 := by
      split at hnumber
      · exact (Option.some.inj hnumber).symm
      · cases hnumber
    subst hsucc
    refine ⟨?_, rfl⟩
    rw [idleConnections, KeyMap.items]
    exact (List.flatMap_eq_foldl ..).symm

/-! ### Reading a written generation -/

theorem lookup_setGeneration (pool : Pool Key Conn) (key other : Key) (generation : PoolGeneration Conn) :
    (pool.setGeneration key generation).generations.lookup other =
      if other = key then some generation else pool.generations.lookup other := by
  unfold setGeneration
  by_cases h : other = key
  · subst h
    simp
  · simp [AList.lookup_insert_ne h, h]

theorem idleAt_setGeneration (pool : Pool Key Conn) (key other : Key) (generation : PoolGeneration Conn) :
    (pool.setGeneration key generation).idleAt other =
      if other = key then generation.idle else pool.idleAt other := by
  unfold idleAt KeyMap.itemsAt
  rw [lookup_setGeneration]
  split <;> rfl

theorem idleAt_of_lookup {pool : Pool Key Conn} {key : Key} {generation : PoolGeneration Conn}
    (h : pool.generations.lookup key = some generation) : pool.idleAt key = generation.idle := by
  simp [idleAt, KeyMap.itemsAt, h]

/-- The generation `release` works on holds what the key holds. -/
theorem idle_getD (pool : Pool Key Conn) (key : Key) :
    ((pool.generations.lookup key).getD ⟨pool.generationNumber, []⟩).idle = pool.idleAt key := by
  unfold idleAt KeyMap.itemsAt
  cases pool.generations.lookup key <;> rfl

/-- Rewriting one key's generation trades its idle connections and moves no other. -/
theorem idleConnections_setGeneration_perm (pool : Pool Key Conn) (key : Key)
    (generation : PoolGeneration Conn) :
    (pool.idleAt key ++ (pool.setGeneration key generation).idleConnections).Perm
      (generation.idle ++ pool.idleConnections) :=
  KeyMap.items_insert_perm PoolGeneration.idle pool.generations key generation

theorem mem_idleConnections {pool : Pool Key Conn} {connection : Conn} :
    connection ∈ pool.idleConnections ↔ ∃ key, connection ∈ pool.idleAt key :=
  ⟨KeyMap.exists_itemsAt, fun ⟨key, hmem⟩ => KeyMap.itemsAt_subset _ _ key hmem⟩

end Pool

end RequestsNative.Transport
