import Mathlib.Data.List.Perm.Basic
import RequestsNative.Lib.Machine
import RequestsNative.Transport.Pool

/-!
# Every run of the connection pool

The pool with everything that holds a connection outside of it: the outstanding leases, the
connections handed back to a caller for closing, and the generation numbers that
`connect_connection` has read and may still put on a fresh lease. One input is one critical section
of the pool's lock, so a run is an arbitrary interleaving of the callers.

Three fields only record the past. `created` lists every connection that was ever opened, `grants`
every lease that was handed out with the generation number at that moment, and `returned` every lease
as it was when it was released. The invariant ties these to the present: a connection that can come
back into the pool was never granted under another key nor before the last `clear`.
-/

namespace RequestsNative.Transport

open RequestsNative.Lib

/-- A lease was handed out when the pool was at generation `epoch`. -/
structure LeaseGrant (Key Conn : Type) where
  key : Key
  connection : Conn
  epoch : Nat
  deriving DecidableEq, Repr

structure PoolSystem (Key Conn : Type) where
  pool : Pool Key Conn
  observed : List Nat
  leases : List (ConnectionLease Key Conn)
  closed : List Conn
  created : List Conn
  grants : List (LeaseGrant Key Conn)
  returned : List (ConnectionLease Key Conn)

/-- Leases are named by their position among the outstanding ones. -/
inductive PoolOp (Key Conn : Type)
  | acquire (key : Key)
  | readGeneration (key : Key)
  | connect (key : Key) (generation : Nat) (connection : Conn)
  | complete (position : Nat) (terminal : LeaseTerminal)
  | completeDirty (position : Nat) (cause : DirtyLeaseCause)
  | release (position : Nat) (live : Conn → Bool)
  | clear

inductive PoolAnswer (Key Conn : Type)
  | done
  | lease (lease : Option (ConnectionLease Key Conn))
  | generation (number : Nat)
  | evicted (connections : List Conn)
  deriving DecidableEq, Repr

namespace PoolSystem

variable {Key Conn : Type}

def init (maxIdlePerKey : Nat) : PoolSystem Key Conn := ⟨.new maxIdlePerKey, [], [], [], [], [], []⟩

/-- The connections under leases. -/
def leasedConnections (leases : List (ConnectionLease Key Conn)) : List Conn :=
  leases.filterMap (·.connection)

variable [DecidableEq Key] [DecidableEq Conn]

def step (s : PoolSystem Key Conn) : PoolOp Key Conn → Option (PoolAnswer Key Conn × PoolSystem Key Conn)
  | .acquire key =>
      match s.pool.acquire key with
      | (none, pool) => some (.lease none, { s with pool })
      | (some lease, pool) =>
          some (.lease (some lease),
            { s with
              pool
              leases := s.leases ++ [lease]
              grants := s.grants ++ (lease.connection.map (⟨lease.key, ·, s.pool.generationNumber⟩)).toList })
  | .readGeneration _ =>
      some (.generation s.pool.generationNumber, { s with observed := s.pool.generationNumber :: s.observed })
  | .connect key generation connection =>
      -- the number was read before the handshake; any number of clears may lie in between
      if generation ∈ s.observed ∧ connection ∉ s.created then
        some (.done,
          { s with
            leases := s.leases ++ [.new key generation connection]
            created := connection :: s.created
            grants := s.grants ++ [⟨key, connection, s.pool.generationNumber⟩] })
      else none
  | .complete position terminal =>
      (s.leases[position]?).map fun lease =>
        (.done, { s with leases := s.leases.set position (lease.complete terminal) })
  | .completeDirty position cause =>
      (s.leases[position]?).map fun lease =>
        (.done, { s with leases := s.leases.set position (lease.completeDirty cause) })
  | .release position live =>
      match s.leases[position]? with
      | none => none
      | some lease =>
          match s.pool.release live lease with
          | .error _ => none
          | .ok (rejected, pool) =>
              some (.lease rejected,
                { s with
                  pool
                  leases := s.leases.eraseIdx position
                  closed := (rejected.bind (·.connection)).toList ++ s.closed
                  returned := lease :: s.returned })
  | .clear =>
      match s.pool.clear with
      | .error _ => none
      | .ok (evicted, pool) => some (.evicted evicted, { s with pool, closed := evicted ++ s.closed })

end PoolSystem

variable {Key Conn : Type} [DecidableEq Key] [DecidableEq Conn]

/-- The pool among its callers. -/
def poolMachine : Machine (PoolSystem Key Conn) (PoolOp Key Conn) (PoolAnswer Key Conn) := ⟨PoolSystem.step⟩

namespace PoolSystem

/-- Every return and every grant of `connection` was for `key`, clean, and of the present generation. -/
structure ReturnedClean (s : PoolSystem Key Conn) (key : Key) (connection : Conn) : Prop where
  wasReturned : ∃ past ∈ s.returned, past.connection = some connection
  returnedClean : ∀ past ∈ s.returned, past.connection = some connection →
    past.key = key ∧ past.Clean ∧ past.generation = s.pool.generationNumber
  grantedHere : ∀ grant ∈ s.grants, grant.connection = connection →
    grant.key = key ∧ grant.epoch = s.pool.generationNumber

/-- What ties an outstanding lease to the past of its connection. -/
structure LeaseHistory (s : PoolSystem Key Conn) (lease : ConnectionLease Key Conn) (connection : Conn) :
    Prop where
  returnedClean : ∀ past ∈ s.returned, past.connection = some connection →
    past.key = lease.key ∧ past.Clean ∧ past.generation = lease.generation
  grantedSince : ∀ grant ∈ s.grants, grant.connection = connection →
    grant.key = lease.key ∧ lease.generation ≤ grant.epoch

structure Inv (maxIdlePerKey : Nat) (s : PoolSystem Key Conn) : Prop where
  limit : s.pool.maxIdlePerKey = maxIdlePerKey
  once : s.created.Nodup
  custody : s.created.Perm (s.pool.idleConnections ++ (leasedConnections s.leases ++ s.closed))
  generations : ∀ key generation, s.pool.generations.lookup key = some generation →
    generation.idle.length ≤ maxIdlePerKey ∧ generation.number = s.pool.generationNumber
  observed : ∀ number ∈ s.observed, number ≤ s.pool.generationNumber
  granted : ∀ grant ∈ s.grants, grant.connection ∈ s.created ∧ grant.epoch ≤ s.pool.generationNumber
  returned : ∀ past ∈ s.returned, ∀ connection, past.connection = some connection → connection ∈ s.created
  leased : ∀ lease ∈ s.leases, lease.generation ≤ s.pool.generationNumber ∧
    ∃ connection, lease.connection = some connection ∧ s.LeaseHistory lease connection
  idle : ∀ key, ∀ connection ∈ s.pool.idleAt key, s.ReturnedClean key connection

omit [DecidableEq Conn] in
theorem inv_init (maxIdlePerKey : Nat) : (init maxIdlePerKey : PoolSystem Key Conn).Inv maxIdlePerKey where
  limit := rfl
  once := List.nodup_nil
  custody := List.Perm.refl _
  generations := by simp [init, Pool.new]
  observed := by simp [init]
  granted := by simp [init]
  returned := by simp [init]
  leased := by simp [init]
  idle := by simp [init, Pool.new, Pool.idleAt, KeyMap.itemsAt]

/-! ### Connections in different places are different -/

section Places

variable {maxIdlePerKey : Nat} {s : PoolSystem Key Conn} (hinv : s.Inv maxIdlePerKey)
include hinv

omit [DecidableEq Conn] in
theorem Inv.places_nodup : (s.pool.idleConnections ++ (leasedConnections s.leases ++ s.closed)).Nodup :=
  hinv.custody.nodup_iff.mp hinv.once

omit [DecidableEq Conn] in
theorem Inv.idle_created {key : Key} {connection : Conn} (hmem : connection ∈ s.pool.idleAt key) :
    connection ∈ s.created :=
  hinv.custody.mem_iff.mpr (List.mem_append_left _ (Pool.mem_idleConnections.mpr ⟨key, hmem⟩))

omit [DecidableEq Conn] in
theorem Inv.leased_created {lease : ConnectionLease Key Conn} {connection : Conn} (hlease : lease ∈ s.leases)
    (hconnection : lease.connection = some connection) : connection ∈ s.created := by
  refine hinv.custody.mem_iff.mpr (List.mem_append_right _ (List.mem_append_left _ ?_))
  exact List.mem_filterMap.mpr ⟨lease, hlease, hconnection⟩

omit [DecidableEq Conn] in
theorem Inv.idle_ne_leased {key : Key} {idle leased : Conn} (hidle : idle ∈ s.pool.idleAt key)
    {lease : ConnectionLease Key Conn} (hlease : lease ∈ s.leases) (hleased : lease.connection = some leased) :
    idle ≠ leased := by
  have hdisjoint := (List.nodup_append.mp hinv.places_nodup).2.2
  refine hdisjoint idle (Pool.mem_idleConnections.mpr ⟨key, hidle⟩) leased (List.mem_append_left _ ?_)
  exact List.mem_filterMap.mpr ⟨lease, hlease, hleased⟩

end Places

/-! ### What a new grant or a new return leaves alone -/

omit [DecidableEq Key] [DecidableEq Conn] in
theorem ReturnedClean.frame {s s' : PoolSystem Key Conn} {key : Key} {connection : Conn}
    (h : s.ReturnedClean key connection) (hnumber : s'.pool.generationNumber = s.pool.generationNumber)
    (hreturned : ∀ past, past.connection = some connection → (past ∈ s'.returned ↔ past ∈ s.returned))
    (hgrants : ∀ grant, grant.connection = connection → (grant ∈ s'.grants → grant ∈ s.grants)) :
    s'.ReturnedClean key connection where
  wasReturned := by
    obtain ⟨past, hmem, hconnection⟩ := h.wasReturned
    exact ⟨past, (hreturned past hconnection).mpr hmem, hconnection⟩
  returnedClean past hmem hconnection := by
    rw [hnumber]
    exact h.returnedClean past ((hreturned past hconnection).mp hmem) hconnection
  grantedHere grant hmem hconnection := by
    rw [hnumber]
    exact h.grantedHere grant (hgrants grant hconnection hmem) hconnection

omit [DecidableEq Key] [DecidableEq Conn] in
theorem LeaseHistory.frame {s s' : PoolSystem Key Conn} {lease : ConnectionLease Key Conn} {connection : Conn}
    (h : s.LeaseHistory lease connection)
    (hreturned : ∀ past, past.connection = some connection → (past ∈ s'.returned → past ∈ s.returned))
    (hgrants : ∀ grant, grant.connection = connection → (grant ∈ s'.grants → grant ∈ s.grants)) :
    s'.LeaseHistory lease connection where
  returnedClean past hmem hconnection :=
    h.returnedClean past (hreturned past hconnection hmem) hconnection
  grantedSince grant hmem hconnection :=
    h.grantedSince grant (hgrants grant hconnection hmem) hconnection

/-! ### The connections under leases -/

omit [DecidableEq Key] [DecidableEq Conn] in
theorem leasedConnections_append (leases : List (ConnectionLease Key Conn)) {lease : ConnectionLease Key Conn}
    {connection : Conn} (hconnection : lease.connection = some connection) :
    leasedConnections (leases ++ [lease]) = leasedConnections leases ++ [connection] := by
  simp [leasedConnections, hconnection]

omit [DecidableEq Key] [DecidableEq Conn] in
theorem leasedConnections_eraseIdx {leases : List (ConnectionLease Key Conn)} {position : Nat}
    {lease : ConnectionLease Key Conn} {connection : Conn} (hlease : leases[position]? = some lease)
    (hconnection : lease.connection = some connection) :
    (leasedConnections leases).Perm (connection :: leasedConnections (leases.eraseIdx position)) := by
  obtain ⟨hlt, hget⟩ := List.getElem?_eq_some_iff.mp hlease
  have hperm := (List.getElem_cons_eraseIdx_perm hlt).symm.filterMap (·.connection)
  rw [hget, List.filterMap_cons_some hconnection] at hperm
  exact hperm

omit [DecidableEq Key] [DecidableEq Conn] in
theorem leasedConnections_set {leases : List (ConnectionLease Key Conn)} {position : Nat}
    {lease other : ConnectionLease Key Conn} (hlease : leases[position]? = some lease)
    (hsame : other.connection = lease.connection) :
    leasedConnections (leases.set position other) = leasedConnections leases := by
  induction leases generalizing position with
  | nil => rfl
  | cons head tail ih =>
      cases position with
      | zero =>
          obtain rfl := Option.some.inj hlease
          simp only [leasedConnections, List.set_cons_zero, List.filterMap_cons, hsame]
      | succ position =>
          have htail := ih hlease
          simp only [leasedConnections] at htail
          simp only [leasedConnections, List.set_cons_succ, List.filterMap_cons, htail]

/-! ### One operation keeps the invariant -/

section Step

variable {maxIdlePerKey : Nat} {s : PoolSystem Key Conn}

omit [DecidableEq Key] [DecidableEq Conn] in
theorem mem_grants_of_ne {grants : List (LeaseGrant Key Conn)} {grant added : LeaseGrant Key Conn}
    (hne : grant.connection ≠ added.connection) (hin : grant ∈ grants ++ [added]) : grant ∈ grants := by
  rcases List.mem_append.mp hin with hin | hin
  · exact hin
  · rw [List.mem_singleton] at hin
    subst hin
    exact absurd rfl hne

omit [DecidableEq Conn] in
theorem Inv.generations_set (hinv : s.Inv maxIdlePerKey) {key : Key} {generation : PoolGeneration Conn}
    (hbound : generation.idle.length ≤ maxIdlePerKey ∧ generation.number = s.pool.generationNumber) (other : Key)
    (found : PoolGeneration Conn) (hfound : (s.pool.setGeneration key generation).generations.lookup other = some found) :
    found.idle.length ≤ maxIdlePerKey ∧ found.number = s.pool.generationNumber := by
  rw [Pool.lookup_setGeneration] at hfound
  split at hfound
  · obtain rfl := Option.some.inj hfound
    exact hbound
  · exact hinv.generations other found hfound

omit [DecidableEq Conn] in
theorem Inv.acquire (hinv : s.Inv maxIdlePerKey) {key : Key} {generation : PoolGeneration Conn}
    {rest : List Conn} {connection : Conn} (hlookup : s.pool.generations.lookup key = some generation)
    (hidle : generation.idle = rest ++ [connection]) :
    ({ s with
        pool := s.pool.setGeneration key { generation with idle := rest }
        leases := s.leases ++ [.new key s.pool.generationNumber connection]
        grants := s.grants ++ [⟨key, connection, s.pool.generationNumber⟩] } : PoolSystem Key Conn).Inv
      maxIdlePerKey := by
  have hat : s.pool.idleAt key = rest ++ [connection] := (Pool.idleAt_of_lookup hlookup).trans hidle
  have hmem : connection ∈ s.pool.idleAt key := by simp [hat]
  -- the popped connection leaves the idle lists
  have hpop : (connection :: (s.pool.setGeneration key { generation with idle := rest }).idleConnections).Perm
      s.pool.idleConnections := by
    have hperm := Pool.idleConnections_setGeneration_perm s.pool key { generation with idle := rest }
    rw [hat, List.append_assoc] at hperm
    exact (List.perm_append_left_iff rest).mp hperm
  have hfresh := hpop.nodup_iff.mpr (List.nodup_append.mp hinv.places_nodup).1
  have hclean := hinv.idle key connection hmem
  have hother : ∀ (grant : LeaseGrant Key Conn) (other : Conn), grant.connection = other → other ≠ connection →
      grant ∈ s.grants ++ [⟨key, connection, s.pool.generationNumber⟩] → grant ∈ s.grants :=
    fun _ _ hgrant hne => mem_grants_of_ne (hgrant ▸ hne)
  refine ⟨hinv.limit, hinv.once, ?_, ?_, hinv.observed, ?_, hinv.returned, ?_, ?_⟩
  · refine hinv.custody.trans ?_
    rw [leasedConnections_append s.leases rfl]
    refine (List.Perm.append_right _ hpop.symm).trans ?_
    rw [List.cons_append]
    refine List.perm_middle.symm.trans (List.Perm.append_left _ ?_)
    rw [List.append_assoc]
    exact List.perm_middle.symm
  · obtain ⟨hlen, hnumber⟩ := hinv.generations key generation hlookup
    rw [hidle, List.length_append] at hlen
    exact hinv.generations_set ⟨by simp only; omega, hnumber⟩
  · intro grant hin
    rcases List.mem_append.mp hin with hin | hin
    · exact hinv.granted grant hin
    · rw [List.mem_singleton] at hin
      subst hin
      exact ⟨hinv.idle_created hmem, le_refl _⟩
  · intro lease hin
    rcases List.mem_append.mp hin with hin | hin
    · obtain ⟨hle, leased, hleased, hhistory⟩ := hinv.leased lease hin
      have hne := (hinv.idle_ne_leased hmem hin hleased).symm
      exact ⟨hle, leased, hleased, hhistory.frame (fun _ _ h => h) fun grant h => hother grant leased h hne⟩
    · rw [List.mem_singleton] at hin
      subst hin
      refine ⟨le_refl _, connection, rfl, hclean.returnedClean, fun grant hgrant hconnection => ?_⟩
      rcases List.mem_append.mp hgrant with hgrant | hgrant
      · obtain ⟨hkey, hepoch⟩ := hclean.grantedHere grant hgrant hconnection
        exact ⟨hkey, Nat.le_of_eq hepoch.symm⟩
      · rw [List.mem_singleton] at hgrant
        subst hgrant
        exact ⟨rfl, le_refl _⟩
  · intro other idle hin
    have hne : idle ≠ connection := by
      rintro rfl
      exact (List.nodup_cons.mp hfresh).1 (Pool.mem_idleConnections.mpr ⟨other, hin⟩)
    have hbefore : idle ∈ s.pool.idleAt other := by
      rw [Pool.idleAt_setGeneration] at hin
      split at hin
      · rename_i heq
        rw [heq, hat]
        exact List.mem_append_left _ hin
      · exact hin
    exact (hinv.idle other idle hbefore).frame rfl (fun _ _ => Iff.rfl)
      fun grant h => hother grant idle h hne

omit [DecidableEq Conn] in
theorem Inv.readGeneration (hinv : s.Inv maxIdlePerKey) :
    ({ s with observed := s.pool.generationNumber :: s.observed } : PoolSystem Key Conn).Inv maxIdlePerKey := by
  refine { hinv with observed := fun number hmem => ?_, leased := ?_, idle := ?_ }
  · rcases List.mem_cons.mp hmem with rfl | hmem
    · exact le_refl _
    · exact hinv.observed number hmem
  · intro lease hlease
    obtain ⟨hle, connection, hconnection, hhistory⟩ := hinv.leased lease hlease
    exact ⟨hle, connection, hconnection, hhistory.frame (fun _ _ h => h) fun _ _ h => h⟩
  · intro key connection hmem
    exact (hinv.idle key connection hmem).frame rfl (fun _ _ => Iff.rfl) fun _ _ h => h

omit [DecidableEq Conn] in
theorem Inv.connect (hinv : s.Inv maxIdlePerKey) {key : Key} {generation : Nat} {connection : Conn}
    (hread : generation ∈ s.observed) (hfresh : connection ∉ s.created) :
    ({ s with
        leases := s.leases ++ [.new key generation connection]
        created := connection :: s.created
        grants := s.grants ++ [⟨key, connection, s.pool.generationNumber⟩] } : PoolSystem Key Conn).Inv
      maxIdlePerKey := by
  have hother : ∀ (grant : LeaseGrant Key Conn) (other : Conn), grant.connection = other → other ∈ s.created →
      grant ∈ s.grants ++ [⟨key, connection, s.pool.generationNumber⟩] → grant ∈ s.grants := by
    rintro grant other rfl hcreated
    refine mem_grants_of_ne ?_
    rintro rfl
    exact hfresh hcreated
  refine ⟨hinv.limit, List.nodup_cons.mpr ⟨hfresh, hinv.once⟩, ?_, hinv.generations, hinv.observed, ?_, ?_,
    ?_, ?_⟩
  · rw [leasedConnections_append s.leases rfl]
    refine (hinv.custody.cons connection).trans ?_
    refine List.perm_middle.symm.trans (List.Perm.append_left _ ?_)
    rw [List.append_assoc]
    exact List.perm_middle.symm
  · intro grant hin
    rcases List.mem_append.mp hin with hin | hin
    · exact ⟨List.mem_cons_of_mem _ (hinv.granted grant hin).1, (hinv.granted grant hin).2⟩
    · rw [List.mem_singleton] at hin
      subst hin
      exact ⟨List.mem_cons_self, le_refl _⟩
  · intro past hpast other hother
    exact List.mem_cons_of_mem _ (hinv.returned past hpast other hother)
  · intro lease hin
    rcases List.mem_append.mp hin with hin | hin
    · obtain ⟨hle, leased, hleased, hhistory⟩ := hinv.leased lease hin
      have hcreated := hinv.leased_created hin hleased
      exact ⟨hle, leased, hleased, hhistory.frame (fun _ _ h => h) fun grant h => hother grant leased h hcreated⟩
    · rw [List.mem_singleton] at hin
      subst hin
      refine ⟨hinv.observed generation hread, connection, rfl, fun past hpast hconnection => ?_,
        fun grant hgrant hconnection => ?_⟩
      · exact absurd (hinv.returned past hpast connection hconnection) hfresh
      · rcases List.mem_append.mp hgrant with hgrant | hgrant
        · exact absurd (hconnection ▸ (hinv.granted grant hgrant).1) hfresh
        · rw [List.mem_singleton] at hgrant
          subst hgrant
          exact ⟨rfl, hinv.observed generation hread⟩
  · intro other idle hin
    exact (hinv.idle other idle hin).frame rfl (fun _ _ => Iff.rfl)
      fun grant h => hother grant idle h (hinv.idle_created hin)

omit [DecidableEq Conn] in
theorem Inv.setLease (hinv : s.Inv maxIdlePerKey) {position : Nat} {lease other : ConnectionLease Key Conn}
    (hlease : s.leases[position]? = some lease) (hsame : lease.SameConnection other) :
    ({ s with leases := s.leases.set position other } : PoolSystem Key Conn).Inv maxIdlePerKey := by
  obtain ⟨hkey, hgeneration, hconnection⟩ := hsame
  refine { hinv with custody := ?_, leased := ?_, idle := ?_ }
  · rw [leasedConnections_set hlease hconnection]
    exact hinv.custody
  · intro found hin
    rcases List.mem_or_eq_of_mem_set hin with hin | rfl
    · obtain ⟨hle, connection, hfound, hhistory⟩ := hinv.leased found hin
      exact ⟨hle, connection, hfound, hhistory.frame (fun _ _ h => h) fun _ _ h => h⟩
    · obtain ⟨hle, connection, hfound, hhistory⟩ := hinv.leased lease (List.mem_of_getElem? hlease)
      refine ⟨hgeneration ▸ hle, connection, hconnection.trans hfound, ?_, ?_⟩
      · intro past hpast hin
        rw [hkey, hgeneration]
        exact hhistory.returnedClean past hpast hin
      · intro grant hgrant hin
        rw [hkey, hgeneration]
        exact hhistory.grantedSince grant hgrant hin
  · intro key connection hmem
    exact (hinv.idle key connection hmem).frame rfl (fun _ _ => Iff.rfl) fun _ _ h => h

/-! A release takes the lease off the outstanding ones and adds it to the past, whatever becomes of its
connection; `Inv.afterRelease` is that part, and leaves open what the pool and the caller end up with. -/

omit [DecidableEq Conn] in
theorem Inv.afterRelease (hinv : s.Inv maxIdlePerKey) {position : Nat} {lease : ConnectionLease Key Conn}
    (hlease : s.leases[position]? = some lease) {connection : Conn}
    (hconnection : lease.connection = some connection) {pool : Pool Key Conn} {closed : List Conn}
    (hlimit : pool.maxIdlePerKey = s.pool.maxIdlePerKey)
    (hnumber : pool.generationNumber = s.pool.generationNumber)
    (hplaces : (pool.idleConnections ++ closed).Perm (connection :: (s.pool.idleConnections ++ s.closed)))
    (hgenerations : ∀ key generation, pool.generations.lookup key = some generation →
      generation.idle.length ≤ maxIdlePerKey ∧ generation.number = s.pool.generationNumber)
    (hidle : ∀ key, ∀ idle ∈ pool.idleAt key, idle ∈ s.pool.idleAt key ∨
      (idle = connection ∧ key = lease.key ∧ lease.Clean ∧ lease.generation = s.pool.generationNumber)) :
    ({ s with
        pool
        leases := s.leases.eraseIdx position
        closed
        returned := lease :: s.returned } : PoolSystem Key Conn).Inv maxIdlePerKey := by
  have hmem := List.mem_of_getElem? hlease
  obtain ⟨-, found, hfound, hhistory⟩ := hinv.leased lease hmem
  obtain rfl : found = connection := Option.some.inj (hfound.symm.trans hconnection)
  have hleased := leasedConnections_eraseIdx hlease hconnection
  have hother : ∀ (past : ConnectionLease Key Conn) (other : Conn), past.connection = some other →
      other ≠ found → past ∈ lease :: s.returned → past ∈ s.returned := by
    intro past other hpast hne hin
    rcases List.mem_cons.mp hin with rfl | hin
    · exact absurd (Option.some.inj (hpast.symm.trans hconnection)) hne
    · exact hin
  refine ⟨hlimit.trans hinv.limit, hinv.once, ?_, ?_, ?_, ?_, ?_, ?_, ?_⟩
  · refine hinv.custody.trans ?_
    refine ((hleased.append_right _).append_left _).trans ?_
    rw [List.cons_append]
    refine List.perm_middle.trans ?_
    refine ((List.perm_append_comm_assoc _ _ _).cons found).trans ?_
    refine List.perm_middle.symm.trans ?_
    refine (hplaces.symm.append_left _).trans ?_
    exact List.perm_append_comm_assoc _ _ _
  · simpa only [hnumber] using hgenerations
  · simpa only [hnumber] using hinv.observed
  · simpa only [hnumber] using hinv.granted
  · intro past hpast other hpastConnection
    rcases List.mem_cons.mp hpast with rfl | hpast
    · exact hinv.leased_created hmem hpastConnection
    · exact hinv.returned past hpast other hpastConnection
  · intro kept hkept
    obtain ⟨hle, keptConnection, hkeptConnection, hkeptHistory⟩ :=
      hinv.leased kept (List.mem_of_mem_eraseIdx hkept)
    have hne : keptConnection ≠ found := by
      rintro rfl
      have hnodup := (List.nodup_append.mp (List.nodup_append.mp hinv.places_nodup).2.1).1
      refine (List.nodup_cons.mp (hleased.nodup_iff.mp hnodup)).1 ?_
      exact List.mem_filterMap.mpr ⟨kept, hkept, hkeptConnection⟩
    refine ⟨hnumber ▸ hle, keptConnection, hkeptConnection, hkeptHistory.frame ?_ fun _ _ h => h⟩
    exact fun past h => hother past keptConnection h hne
  · intro key idle hin
    rcases hidle key idle hin with hold | ⟨rfl, rfl, hclean, hgeneration⟩
    · have hne := hinv.idle_ne_leased hold hmem hconnection
      refine (hinv.idle key idle hold).frame hnumber (fun past h => ⟨hother past idle h hne, ?_⟩) fun _ _ h => h
      exact fun hpast => List.mem_cons_of_mem _ hpast
    · refine ⟨⟨lease, List.mem_cons_self, hconnection⟩, fun past hpast hpastConnection => ?_,
        fun grant hgrant hgrantConnection => ?_⟩
      · rw [hnumber]
        rcases List.mem_cons.mp hpast with rfl | hpast
        · exact ⟨rfl, hclean, hgeneration⟩
        · rw [← hgeneration]
          exact hhistory.returnedClean past hpast hpastConnection
      · -- the lease is of this generation, so no clear lies between its grant and now
        obtain ⟨hkey, hsince⟩ := hhistory.grantedSince grant hgrant hgrantConnection
        have hbefore := (hinv.granted grant hgrant).2
        rw [hnumber]
        exact ⟨hkey, by omega⟩

omit [DecidableEq Conn] in
theorem Inv.release (hinv : s.Inv maxIdlePerKey) {position : Nat} {lease : ConnectionLease Key Conn}
    (hlease : s.leases[position]? = some lease) {live : Conn → Bool}
    {rejected : Option (ConnectionLease Key Conn)} {pool : Pool Key Conn}
    (hrelease : s.pool.release live lease = .ok (rejected, pool)) :
    ({ s with
        pool
        leases := s.leases.eraseIdx position
        closed := (rejected.bind (·.connection)).toList ++ s.closed
        returned := lease :: s.returned } : PoolSystem Key Conn).Inv maxIdlePerKey := by
  obtain ⟨-, connection, hconnection, -⟩ := hinv.leased lease (List.mem_of_getElem? hlease)
  rcases Pool.release_cases hrelease with ⟨rfl, rfl⟩ | ⟨hclean, hgeneration, generation, hentry, hcase⟩
  · refine hinv.afterRelease hlease hconnection rfl rfl ?_ hinv.generations fun _ _ h => .inl h
    simp only [Option.bind_some, hconnection, Option.toList_some, List.singleton_append]
    exact List.perm_middle
  · have hat : generation.idle = s.pool.idleAt lease.key := hentry ▸ Pool.idle_getD s.pool lease.key
    have hbound : generation.idle.length ≤ maxIdlePerKey ∧ generation.number = s.pool.generationNumber := by
      cases hlookup : s.pool.generations.lookup lease.key with
      | none =>
          rw [hlookup, Option.getD_none] at hentry
          subst hentry
          exact ⟨Nat.zero_le _, rfl⟩
      | some found =>
          rw [hlookup, Option.getD_some] at hentry
          subst hentry
          exact hinv.generations lease.key found hlookup
    rcases hcase with ⟨rfl, rfl⟩ | ⟨hnumber, hroom, pushed, hpushed, rfl, rfl⟩
    · refine hinv.afterRelease hlease hconnection rfl rfl ?_ ?_ ?_
      · have hperm := Pool.idleConnections_setGeneration_perm s.pool lease.key generation
        rw [hat] at hperm
        have hsame := (List.perm_append_left_iff _).mp hperm
        simp only [Option.bind_some, hconnection, Option.toList_some, List.singleton_append]
        exact (hsame.append_right _).trans List.perm_middle
      · exact hinv.generations_set hbound
      · intro key idle hin
        rw [Pool.idleAt_setGeneration] at hin
        split at hin
        · rename_i heq
          exact .inl (heq ▸ hat ▸ hin)
        · exact .inl hin
    · obtain rfl : pushed = connection := Option.some.inj (hpushed.symm.trans hconnection)
      refine hinv.afterRelease hlease hconnection rfl rfl ?_ ?_ ?_
      · have hperm := Pool.idleConnections_setGeneration_perm s.pool lease.key
          { generation with idle := generation.idle ++ [pushed] }
        rw [← hat, List.append_assoc] at hperm
        have hmore := (List.perm_append_left_iff _).mp hperm
        exact hmore.append_right _
      · have hlimit := hinv.limit
        refine hinv.generations_set ⟨?_, hnumber⟩
        simp only [List.length_append, List.length_singleton]
        omega
      · intro key idle hin
        rw [Pool.idleAt_setGeneration] at hin
        split at hin
        · rename_i heq
          rcases List.mem_append.mp hin with hin | hin
          · exact .inl (heq ▸ hat ▸ hin)
          · exact .inr ⟨List.mem_singleton.mp hin, heq, hclean, hgeneration⟩
        · exact .inl hin

omit [DecidableEq Conn] in
theorem Inv.clear (hinv : s.Inv maxIdlePerKey) {evicted : List Conn} {pool : Pool Key Conn}
    (hclear : s.pool.clear = .ok (evicted, pool)) :
    ({ s with pool, closed := evicted ++ s.closed } : PoolSystem Key Conn).Inv maxIdlePerKey := by
  obtain ⟨rfl, rfl⟩ := Pool.clear_cases hclear
  have hnone : ∀ map : KeyMap Key (PoolGeneration Conn), ∀ number,
      (map.mapValues fun _ => ⟨number, []⟩).items PoolGeneration.idle = [] := by
    intro map number
    rw [KeyMap.items_mapValues]
    exact List.flatMap_eq_nil_iff.mpr fun _ _ => rfl
  refine ⟨hinv.limit, hinv.once, ?_, ?_, ?_, ?_, hinv.returned, ?_, ?_⟩
  · refine hinv.custody.trans ?_
    simp only [Pool.idleConnections, hnone, List.nil_append]
    exact List.perm_append_comm_assoc _ _ _
  · intro key generation hlookup
    simp only [KeyMap.lookup_mapValues, Option.map_eq_some_iff] at hlookup
    obtain ⟨-, -, rfl⟩ := hlookup
    exact ⟨Nat.zero_le _, rfl⟩
  · exact fun number hmem => Nat.le_succ_of_le (hinv.observed number hmem)
  · exact fun grant hmem => ⟨(hinv.granted grant hmem).1, Nat.le_succ_of_le (hinv.granted grant hmem).2⟩
  · intro lease hlease
    obtain ⟨hle, connection, hconnection, hhistory⟩ := hinv.leased lease hlease
    exact ⟨Nat.le_succ_of_le hle, connection, hconnection, hhistory.frame (fun _ _ h => h) fun _ _ h => h⟩
  · intro key connection hmem
    have hall := Pool.mem_idleConnections.mpr ⟨key, hmem⟩
    simp only [Pool.idleConnections, hnone, List.not_mem_nil] at hall

end Step

theorem inv_step {maxIdlePerKey : Nat} {s s' : PoolSystem Key Conn} {op : PoolOp Key Conn}
    {answer : PoolAnswer Key Conn} (hinv : s.Inv maxIdlePerKey) (hstep : s.step op = some (answer, s')) :
    s'.Inv maxIdlePerKey := by
  cases op with
  | acquire key =>
      simp only [step] at hstep
      split at hstep <;> rename_i hacquire <;> obtain ⟨rfl, rfl⟩ := Prod.mk.inj (Option.some.inj hstep)
      · rcases Pool.acquire_cases hacquire with ⟨-, rfl⟩ | ⟨_, _, _, _, _, hsome, _⟩
        · exact hinv
        · cases hsome
      · rcases Pool.acquire_cases hacquire with ⟨hnone, -⟩ | ⟨generation, rest, connection, hlookup, hidle, hsome, rfl⟩
        · cases hnone
        · obtain rfl := Option.some.inj hsome
          exact hinv.acquire hlookup hidle
  | readGeneration key =>
      obtain ⟨rfl, rfl⟩ := Prod.mk.inj (Option.some.inj hstep)
      exact hinv.readGeneration
  | connect key generation connection =>
      simp only [step] at hstep
      split at hstep
      · rename_i hguard
        obtain ⟨rfl, rfl⟩ := Prod.mk.inj (Option.some.inj hstep)
        exact hinv.connect hguard.1 hguard.2
      · cases hstep
  | complete position terminal =>
      obtain ⟨lease, hlease, heq⟩ := Option.map_eq_some_iff.mp hstep
      obtain ⟨rfl, rfl⟩ := Prod.mk.inj heq
      exact hinv.setLease hlease (lease.complete_sameConnection terminal)
  | completeDirty position cause =>
      obtain ⟨lease, hlease, heq⟩ := Option.map_eq_some_iff.mp hstep
      obtain ⟨rfl, rfl⟩ := Prod.mk.inj heq
      exact hinv.setLease hlease (lease.completeDirty_sameConnection cause)
  | release position live =>
      simp only [step] at hstep
      split at hstep
      · cases hstep
      · rename_i lease hlease
        split at hstep
        · cases hstep
        · rename_i rejected pool hrelease
          obtain ⟨rfl, rfl⟩ := Prod.mk.inj (Option.some.inj hstep)
          exact hinv.release hlease hrelease
  | clear =>
      simp only [step] at hstep
      split at hstep
      · cases hstep
      · rename_i evicted pool hclear
        obtain ⟨rfl, rfl⟩ := Prod.mk.inj (Option.some.inj hstep)
        exact hinv.clear hclear

theorem inv_run {maxIdlePerKey : Nat} {trace : List (PoolOp Key Conn × PoolAnswer Key Conn)}
    {s : PoolSystem Key Conn} (hrun : poolMachine.Run (init maxIdlePerKey) trace s) : s.Inv maxIdlePerKey :=
  hrun.invariant (fun s => s.Inv maxIdlePerKey) (inv_init maxIdlePerKey)
    fun _ _ _ _ hinv hstep => inv_step hinv hstep

/-- The guarantees of the pool, as one property of a state and of what its operations would answer. -/
structure Safe (maxIdlePerKey : Nat) (s : PoolSystem Key Conn) : Prop where
  /-- Every connection ever opened is idle, leased or handed back, in one place only. -/
  exactlyOnePlace : s.created.Nodup ∧
    s.created.Perm (s.pool.idleConnections ++ (leasedConnections s.leases ++ s.closed))
  /-- Idle lists keep to the limit and every stored generation is the present one. -/
  bounded : ∀ key generation, s.pool.generations.lookup key = some generation →
    generation.idle.length ≤ maxIdlePerKey ∧ generation.number = s.pool.generationNumber
  idleClean : ∀ key, ∀ connection ∈ s.pool.idleAt key, s.ReturnedClean key connection
  /-- What `acquire` yields is of the asked key and was returned clean under it since the last clear. -/
  acquireClean : ∀ key lease pool, s.pool.acquire key = (some lease, pool) →
    lease.key = key ∧ lease.generation = s.pool.generationNumber ∧
      ∃ connection, lease.connection = some connection ∧ s.ReturnedClean key connection
  /-- `clear` hands out the idle connections, all of them and nothing else. -/
  clearEvicts : ∀ evicted pool, s.pool.clear = .ok (evicted, pool) →
    evicted.Perm s.pool.idleConnections ∧ pool.idleConnections = []
  releaseTotal : ∀ lease live, ∃ answer, s.pool.release live lease = .ok answer

/-- The pool is safe after every interleaving of its callers. -/
theorem pool_safe {maxIdlePerKey : Nat} {trace : List (PoolOp Key Conn × PoolAnswer Key Conn)}
    {s : PoolSystem Key Conn} (hrun : poolMachine.Run (init maxIdlePerKey) trace s) : s.Safe maxIdlePerKey := by
  have hinv := inv_run hrun
  refine ⟨⟨hinv.once, hinv.custody⟩, hinv.generations, hinv.idle, ?_, ?_, ?_⟩
  · intro key lease pool hacquire
    rcases Pool.acquire_cases hacquire with ⟨hnone, -⟩ | ⟨generation, rest, connection, hlookup, hidle, hsome, -⟩
    · cases hnone
    · obtain rfl := Option.some.inj hsome
      refine ⟨rfl, rfl, connection, rfl, hinv.idle key connection ?_⟩
      rw [Pool.idleAt_of_lookup hlookup, hidle]
      exact List.mem_append_right _ List.mem_cons_self
  · intro evicted pool hclear
    obtain ⟨rfl, rfl⟩ := Pool.clear_cases hclear
    refine ⟨List.Perm.refl _, ?_⟩
    rw [Pool.idleConnections, KeyMap.items_mapValues]
    exact List.flatMap_eq_nil_iff.mpr fun _ _ => rfl
  · exact fun lease live => Pool.release_ne_panic live s.pool lease

/-- Two connections are opened, one under a number read before a `clear`, and both come back clean. -/
private def clearBetween : List (PoolOp Nat Nat) :=
  [.readGeneration 5, .clear, .readGeneration 5, .connect 5 0 70, .connect 5 1 71, .complete 0 .cleanEof,
    .complete 1 .cleanEof, .release 0 fun _ => true, .release 0 fun _ => true]

/-- Only the one opened under the present generation is kept. -/
theorem pool_safe_clear_between : ∃ trace s, poolMachine.Run (init 1 : PoolSystem Nat Nat) trace s ∧
    s.pool.idleAt 5 = [71] ∧ s.closed = [70] ∧ s.Safe 1 := by
  have hrun := Machine.run_of_exec (rfl : poolMachine.exec (init 1) clearBetween = some _)
  exact ⟨_, _, hrun, by decide, by decide, pool_safe hrun⟩

end PoolSystem

end RequestsNative.Transport
