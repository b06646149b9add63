import RequestsNative.Base
import RequestsNative.Lib.KeyedBags
import RequestsNative.Lib.Lru
import RequestsNative.Lib.Machine

/-!
# The pools of an adapter

`adapters.rs`: `adapter_pool` finds or makes the connection pool of a request. It looks for the pool under the lock of the
registry, makes one without the lock if there is none, and takes the lock again to use what it finds then. A realm has its
pools and a queue of their keys; both sections of an admission run while others are between theirs. The adapter stays
registered, and its epoch and its manager do not change.
-/

namespace RequestsNative.Python

open RequestsNative.Lib

variable {Pool : Type}

structure PoolRealm (Pool : Type) where
  pools : KeyMap Bytes Pool := ∅
  order : List Bytes := []

namespace PoolRealm

/-- The loop that evicts from the front of the queue: the rest of the queue, the pools that stay and those that go. -/
def evict (poolConnections : Nat) : List Bytes → KeyMap Bytes Pool → List Bytes × KeyMap Bytes Pool × List Pool
  | [], pools => ([], pools, [])
  | evictedKey :: order, pools =>
      if poolConnections ≤ pools.keys.length ∧ 0 < poolConnections then
        let (order', pools', evicted) := evict poolConnections order (pools.erase evictedKey)
        (order', pools', (pools.lookup evictedKey).toList ++ evicted)
      else (evictedKey :: order, pools, [])

/-- The second section of `adapter_pool`: the pool it selects, the pools it evicts and the realm it leaves. -/
def select (realm : PoolRealm Pool) (poolKey : Bytes) (poolConnections : Nat) (candidate : Option Pool) :
    Except Panic (Pool × List Pool × PoolRealm Pool) := do
  let (pool, evicted, realm) ←
    match realm.pools.lookup poolKey with
    | some pool => .ok (pool, [], realm)
    | none =>
        match candidate with
        | none => .error ⟨"missing adapter pool candidate"⟩
        | some pool =>
            let (order, pools, evicted) := evict poolConnections realm.order realm.pools
            .ok (pool, evicted, ⟨if 0 < poolConnections then pools.insert poolKey pool else pools, order⟩)
  let order := realm.order.filter (· ≠ poolKey)
  return (pool, evicted, { realm with order := if 0 < poolConnections then order ++ [poolKey] else order })

end PoolRealm

/-- An admission between its two sections. -/
structure Admission (Pool : Type) where
  poolKey : Bytes
  poolConnections : Nat
  /-- The pool that was made because none was found. -/
  candidate : Option Pool
  deriving DecidableEq, Repr

/-- One realm, its admissions between their sections, and whether a section panicked, which poisons the lock. -/
structure PoolCache (Pool : Type) where
  realm : PoolRealm Pool := {}
  admissions : List (Option (Admission Pool)) := []
  poisoned : Bool := false

inductive PoolCacheOp (Pool : Type)
  /-- The first section, and the pool it makes if it finds none. -/
  | look (poolKey : Bytes) (poolConnections : Nat) (made : Pool)
  /-- The second section of an admission. -/
  | select (id : Nat)
  deriving DecidableEq, Repr

inductive PoolCacheAnswer (Pool : Type)
  | looked (hasPool : Bool)
  | admitted (poolKey : Bytes) (poolConnections : Nat) (pool : Pool) (evicted : List Pool)
  | panicked (panic : Panic)
  /-- `adapter pool table lock poisoned`. -/
  | refused
  deriving DecidableEq, Repr

namespace PoolCache

def step (cache : PoolCache Pool) : PoolCacheOp Pool → Option (PoolCacheAnswer Pool × PoolCache Pool)
  | .look poolKey poolConnections made =>
      if cache.poisoned then some (.refused, cache)
      else
        let hasPool := (cache.realm.pools.lookup poolKey).isSome
        let candidate := if hasPool then none else some made
        some (.looked hasPool, { cache with admissions := cache.admissions ++ [some ⟨poolKey, poolConnections, candidate⟩] })
  | .select id =>
      match cache.admissions[id]? with
      | none | some none => none
      | some (some admission) =>
          let cache := { cache with admissions := cache.admissions.set id none }
          if cache.poisoned then some (.refused, cache)
          else
            match cache.realm.select admission.poolKey admission.poolConnections admission.candidate with
            | .error panic => some (.panicked panic, { cache with poisoned := true })
            | .ok (pool, evicted, realm) =>
                some (.admitted admission.poolKey admission.poolConnections pool evicted, { cache with realm })

end PoolCache

def poolCacheMachine (Pool : Type) : Machine (PoolCache Pool) (PoolCacheOp Pool) (PoolCacheAnswer Pool) := ⟨PoolCache.step⟩

abbrev PoolCacheTrace (Pool : Type) := List (PoolCacheOp Pool × PoolCacheAnswer Pool)

/-! ### The cache it should be -/

/-- What the admissions so far leave in a cache that keeps the most recent. -/
def lruOf (trace : PoolCacheTrace Pool) : List Bytes :=
  trace.foldl (fun cache entry =>
    match entry.2 with
    | .admitted poolKey poolConnections _ _ => Lru.store poolConnections cache poolKey
    | _ => cache) []

/-- All keys ever stored, from the least to the most recently admitted. -/
def recencyOf (trace : PoolCacheTrace Pool) : List Bytes :=
  trace.foldl (fun keys entry =>
    match entry.2 with
    | .admitted poolKey poolConnections _ _ => if poolConnections = 0 then keys else Lru.touch keys poolKey
    | _ => keys) []

/-- The realm is such a cache, and no admission panicked. -/
structure LruCache (trace : PoolCacheTrace Pool) (cache : PoolCache Pool) : Prop where
  /-- An admission with limit zero stores nothing, and any other drops the least recent keys beyond its limit. -/
  refines : cache.realm.order = lruOf trace
  exact : ∀ key, key ∈ cache.realm.pools ↔ key ∈ cache.realm.order
  distinct : cache.realm.order.Nodup
  recent : cache.realm.order <:+ recencyOf trace
  bounded : ∀ before op poolKey poolConnections pool evicted,
    trace = before ++ [(op, .admitted poolKey poolConnections pool evicted)] → 0 < poolConnections →
      cache.realm.pools.keys.length ≤ max poolConnections 1
  noPanic : ∀ entry ∈ trace, ∀ panic, entry.2 ≠ .panicked panic

/-- The second section finds a pool: its own if there was none in the first section either, or one that is there and stays within
the limit. -/
def KeepsLru (cache : PoolCache Pool) : PoolCacheOp Pool → Prop
  | .look .. => True
  | .select id => ∀ admission ∈ cache.admissions[id]?.join,
      if (cache.realm.pools.lookup admission.poolKey).isSome then
        0 < admission.poolConnections ∧ cache.realm.pools.keys.length ≤ admission.poolConnections
      else admission.candidate.isSome

instance (cache : PoolCache Pool) : DecidablePred (KeepsLru cache)
  | .look .. => isTrue trivial
  | .select id => inferInstanceAs (Decidable (∀ admission ∈ cache.admissions[id]?.join,
      if (cache.realm.pools.lookup admission.poolKey).isSome then
        0 < admission.poolConnections ∧ cache.realm.pools.keys.length ≤ admission.poolConnections
      else admission.candidate.isSome))

/-! ### The second section -/

/-- The queue lists the keys of the pools, each once. -/
structure Consistent (pools : KeyMap Bytes Pool) (order : List Bytes) : Prop where
  distinct : order.Nodup
  exact : ∀ key, key ∈ pools ↔ key ∈ order

theorem Consistent.length {pools : KeyMap Bytes Pool} {order : List Bytes} (h : Consistent pools order) :
    pools.keys.length = order.length :=
  ((List.perm_ext_iff_of_nodup pools.keys_nodup h.distinct).mpr fun key => (AList.mem_keys).symm.trans (h.exact key)).length_eq

theorem Consistent.erase {pools : KeyMap Bytes Pool} {key : Bytes} {order : List Bytes} (h : Consistent pools (key :: order)) :
    Consistent (pools.erase key) order := by
  obtain ⟨hfirst, hrest⟩ := List.nodup_cons.mp h.distinct
  refine ⟨hrest, fun other => ?_⟩
  rw [AList.mem_erase, h.exact other, List.mem_cons]
  constructor
  · rintro ⟨hne, rfl | hmem⟩
    · exact absurd rfl hne
    · exact hmem
  · intro hmem
    refine ⟨?_, .inr hmem⟩
    rintro rfl
    exact hfirst hmem

namespace PoolRealm

variable {realm : PoolRealm Pool} {poolKey : Bytes} {limit : Nat}

theorem evict_spec {pools : KeyMap Bytes Pool} {order : List Bytes} (h : Consistent pools order) (hlimit : 0 < limit) :
    (evict limit order pools).1 = order.rtake (limit - 1) ∧
      Consistent (evict limit order pools).2.1 (evict limit order pools).1 := by
  induction order generalizing pools with
  | nil => exact ⟨List.rtake_nil _ |>.symm, h⟩
  | cons key order ih =>
      have hlength := h.length
      rw [List.length_cons] at hlength
      unfold evict
      by_cases hfull : limit ≤ pools.keys.length
      · obtain ⟨horder, hconsistent⟩ := ih h.erase
        rw [if_pos ⟨hfull, hlimit⟩]
        refine ⟨?_, hconsistent⟩
        rw [horder, List.rtake, List.rtake, List.length_cons,
          show order.length + 1 - (limit - 1) = order.length - (limit - 1) + 1 by omega, List.drop_succ_cons]
      · rw [if_neg (not_and_of_not_left _ hfull)]
        refine ⟨(Lru.rtake_of_length_le ?_).symm, h⟩
        rw [List.length_cons]
        omega

theorem evict_zero (order : List Bytes) (pools : KeyMap Bytes Pool) : evict 0 order pools = (order, pools, []) := by
  cases order with
  | nil => rfl
  | cons key order => rw [evict, if_neg (by omega)]

theorem select_hit {pool : Pool} (h : realm.pools.lookup poolKey = some pool) (candidate : Option Pool) :
    realm.select poolKey limit candidate =
      .ok (pool, [], { realm with order := if 0 < limit then Lru.touch realm.order poolKey else realm.order.filter (· ≠ poolKey) }) := by
  simp only [select, h]
  rfl

theorem select_panics (h : realm.pools.lookup poolKey = none) :
    realm.select poolKey limit none = .error ⟨"missing adapter pool candidate"⟩ := by
  simp only [select, h]
  rfl

theorem select_miss (hconsistent : Consistent realm.pools realm.order) (h : realm.pools.lookup poolKey = none) (pool : Pool) :
    ∃ evicted realm', realm.select poolKey limit (some pool) = .ok (pool, evicted, realm') ∧
      realm'.order = Lru.store limit realm.order poolKey ∧ Consistent realm'.pools realm'.order := by
  have hnew : poolKey ∉ realm.order := by
    rw [← hconsistent.exact, ← AList.lookup_isSome, h]
    exact Bool.false_ne_true
  rcases Nat.eq_zero_or_pos limit with rfl | hlimit
  · refine ⟨[], realm, ?_, rfl, hconsistent⟩
    simp only [select, h, evict_zero, Nat.lt_irrefl, if_false]
    change Except.ok (pool, [], PoolRealm.mk realm.pools (realm.order.filter (· ≠ poolKey))) = _
    rw [Lru.filter_of_notMem hnew]
  · obtain ⟨horder, hstays⟩ := evict_spec hconsistent hlimit
    have hnew' : poolKey ∉ (evict limit realm.order realm.pools).1 := by
      rw [horder]
      exact fun hmem => hnew ((Lru.rtake_suffix _ _).mem hmem)
    refine ⟨(evict limit realm.order realm.pools).2.2, ⟨(evict limit realm.order realm.pools).2.1.insert poolKey pool,
      (evict limit realm.order realm.pools).1 ++ [poolKey]⟩, ?_, ?_, ?_, fun key => ?_⟩
    · simp only [select, h, if_pos hlimit]
      change Except.ok (pool, _, PoolRealm.mk _ ((evict limit realm.order realm.pools).1.filter (· ≠ poolKey) ++ [poolKey])) = _
      rw [Lru.filter_of_notMem hnew']
    · obtain ⟨room, rfl⟩ : ∃ room, limit = room + 1 := ⟨limit - 1, by omega⟩
      rw [Lru.store, if_neg (Nat.succ_ne_zero room), Lru.touch_of_notMem hnew, List.rtake_concat_succ, horder, Nat.add_sub_cancel]
    · rw [← Lru.touch_of_notMem hnew']
      exact Lru.nodup_touch hstays.distinct
    · rw [AList.mem_insert, hstays.exact key, List.mem_append, List.mem_singleton]
      exact Or.comm

end PoolRealm

/-! ### Whole runs -/

section Runs

variable {trace : PoolCacheTrace Pool} {cache next : PoolCache Pool} {op : PoolCacheOp Pool} {answer : PoolCacheAnswer Pool}

theorem lruOf_snoc (trace : PoolCacheTrace Pool) (op : PoolCacheOp Pool) (answer : PoolCacheAnswer Pool) :
    lruOf (trace ++ [(op, answer)]) =
      match answer with
      | .admitted poolKey poolConnections _ _ => Lru.store poolConnections (lruOf trace) poolKey
      | _ => lruOf trace := by
  rw [lruOf, List.foldl_append]
  rfl

theorem recencyOf_snoc (trace : PoolCacheTrace Pool) (op : PoolCacheOp Pool) (answer : PoolCacheAnswer Pool) :
    recencyOf (trace ++ [(op, answer)]) =
      match answer with
      | .admitted poolKey poolConnections _ _ =>
          if poolConnections = 0 then recencyOf trace else Lru.touch (recencyOf trace) poolKey
      | _ => recencyOf trace := by
  rw [recencyOf, List.foldl_append]
  rfl

theorem lruOf_suffix (trace : PoolCacheTrace Pool) : lruOf trace <:+ recencyOf trace := by
  induction trace using List.reverseRecOn with
  | nil => exact List.suffix_rfl
  | append_singleton trace entry ih =>
      rw [lruOf_snoc, recencyOf_snoc]
      split
      · rename_i poolKey poolConnections _ _ _
        split
        · rename_i hzero
          rw [Lru.store, if_pos hzero]
          exact ih
        · rename_i hlimit
          exact Lru.store_suffix ih (Nat.pos_of_ne_zero hlimit)
      · exact ih

theorem lruCache_iff : LruCache trace cache ↔ cache.realm.order = lruOf trace ∧
    Consistent cache.realm.pools cache.realm.order ∧ ∀ entry ∈ trace, ∀ panic, entry.2 ≠ .panicked panic := by
  constructor
  · exact fun h => ⟨h.refines, ⟨h.distinct, h.exact⟩, h.noPanic⟩
  · rintro ⟨hrefines, hconsistent, hquiet⟩
    refine ⟨hrefines, hconsistent.exact, hconsistent.distinct, hrefines ▸ lruOf_suffix trace, ?_, hquiet⟩
    rintro before op poolKey poolConnections pool evicted rfl hlimit
    rw [hconsistent.length, hrefines, lruOf_snoc]
    exact (Lru.length_store_le hlimit).trans (Nat.le_max_left _ _)

/-- What a section does while the lock is sound. -/
inductive Section (cache : PoolCache Pool) : PoolCacheOp Pool → PoolCacheAnswer Pool → PoolCache Pool → Prop
  | look {poolKey : Bytes} {poolConnections : Nat} {made : Pool} {hasPool : Bool} {next : PoolCache Pool} :
      next.realm = cache.realm → next.poisoned = false →
        Section cache (.look poolKey poolConnections made) (.looked hasPool) next
  | panics {id : Nat} {admission : Admission Pool} {panic : Panic} {next : PoolCache Pool} :
      cache.admissions[id]? = some (some admission) →
      cache.realm.select admission.poolKey admission.poolConnections admission.candidate = .error panic →
        Section cache (.select id) (.panicked panic) next
  | admits {id : Nat} {admission : Admission Pool} {pool : Pool} {evicted : List Pool} {next : PoolCache Pool} :
      cache.admissions[id]? = some (some admission) →
      cache.realm.select admission.poolKey admission.poolConnections admission.candidate = .ok (pool, evicted, next.realm) →
        next.poisoned = false →
          Section cache (.select id) (.admitted admission.poolKey admission.poolConnections pool evicted) next

theorem section_of_step (hsound : cache.poisoned = false) (hstep : cache.step op = some (answer, next)) :
    Section cache op answer next := by
  cases op with
  | look poolKey poolConnections made =>
      simp only [PoolCache.step, hsound, Bool.false_eq_true, if_false, Option.some.injEq, Prod.mk.injEq] at hstep
      obtain ⟨rfl, rfl⟩ := hstep
      exact .look rfl rfl
  | select id =>
      simp only [PoolCache.step, hsound, Bool.false_eq_true, if_false] at hstep
      split at hstep
      · cases hstep
      · cases hstep
      · rename_i admission hadmission
        split at hstep
        · rename_i panic hpanic
          obtain ⟨rfl, rfl⟩ := Prod.mk.inj (Option.some.inj hstep)
          exact .panics hadmission hpanic
        · rename_i pool evicted realm hselect
          obtain ⟨rfl, rfl⟩ := Prod.mk.inj (Option.some.inj hstep)
          exact .admits hadmission hselect rfl

/-- A poisoned lock is the trace of a panic. -/
def PoisonedByPanic (trace : PoolCacheTrace Pool) (cache : PoolCache Pool) : Prop :=
  cache.poisoned = true → ∃ entry ∈ trace, ∃ panic, entry.2 = .panicked panic

theorem poisonedByPanic_run (hrun : (poolCacheMachine Pool).Run {} trace cache) : PoisonedByPanic trace cache := by
  refine hrun.induction PoisonedByPanic (fun hpoisoned => by cases hpoisoned) ?_
  intro trace cache op answer next _ h hstep hpoisoned
  cases hsound : cache.poisoned with
  | true =>
      obtain ⟨entry, hentry, hpanic⟩ := h hsound
      exact ⟨entry, List.mem_append_left _ hentry, hpanic⟩
  | false =>
      cases section_of_step hsound hstep with
      | look _ hstill => cases hstill.symm.trans hpoisoned
      | panics _ _ => exact ⟨_, List.mem_append_right _ (List.mem_singleton_self _), _, rfl⟩
      | admits _ _ hstill => cases hstill.symm.trans hpoisoned

theorem noPanic_snoc (hquiet : ∀ entry ∈ trace, ∀ panic, entry.2 ≠ .panicked panic) (hanswer : ∀ panic, answer ≠ .panicked panic) :
    ∀ entry ∈ trace ++ [(op, answer)], ∀ panic, entry.2 ≠ .panicked panic := by
  intro entry hentry
  rcases List.mem_append.mp hentry with hbefore | hlast
  · exact hquiet entry hbefore
  · rw [List.mem_singleton.mp hlast]
    exact hanswer

theorem hit_iff {poolKey : Bytes} {limit : Nat} {order : List Bytes} (hdistinct : order.Nodup) (hkey : poolKey ∈ order) :
    (if 0 < limit then Lru.touch order poolKey else order.filter (· ≠ poolKey)) = Lru.store limit order poolKey ↔
      0 < limit ∧ order.length ≤ limit := by
  rcases Nat.eq_zero_or_pos limit with rfl | hlimit
  · refine iff_of_false (fun heq => ?_) (by simp)
    rw [if_neg (Nat.lt_irrefl 0), Lru.store, if_pos rfl] at heq
    rw [← heq] at hkey
    simp at hkey
  · rw [if_pos hlimit, Lru.store, if_neg (Nat.ne_of_gt hlimit), and_iff_right hlimit, ← Lru.length_touch hdistinct hkey]
    constructor
    · intro heq
      have hlength := congrArg List.length heq
      rw [Lru.length_rtake] at hlength
      omega
    · exact fun hfits => (Lru.rtake_of_length_le hfits).symm

theorem keepsLru_select_iff {id : Nat} {admission : Admission Pool} (h : cache.admissions[id]? = some (some admission)) :
    KeepsLru cache (.select id) ↔
      if (cache.realm.pools.lookup admission.poolKey).isSome then
        0 < admission.poolConnections ∧ cache.realm.pools.keys.length ≤ admission.poolConnections
      else admission.candidate.isSome := by
  simp only [KeepsLru, h, Option.join_some, Option.mem_some_iff, forall_eq']

theorem select_error_iff {realm : PoolRealm Pool} (hconsistent : Consistent realm.pools realm.order) (admission : Admission Pool) :
    (∃ panic, realm.select admission.poolKey admission.poolConnections admission.candidate = .error panic) ↔
      realm.pools.lookup admission.poolKey = none ∧ admission.candidate = none := by
  cases hlookup : realm.pools.lookup admission.poolKey with
  | some pool =>
      refine iff_of_false ?_ (by simp)
      rw [PoolRealm.select_hit hlookup]
      simp
  | none =>
      cases hcandidate : admission.candidate with
      | none => exact iff_of_true ⟨_, PoolRealm.select_panics hlookup⟩ ⟨rfl, rfl⟩
      | some pool =>
          obtain ⟨evicted, realm', hselect, -⟩ := PoolRealm.select_miss hconsistent hlookup pool
          refine iff_of_false ?_ (by simp)
          rw [hselect]
          simp

theorem lruCache_hit_iff {realm after : PoolRealm Pool} (hconsistent : Consistent realm.pools realm.order) {poolKey : Bytes}
    {limit : Nat} {candidate : Option Pool} {pool found : Pool} {evicted : List Pool} (hlookup : realm.pools.lookup poolKey = some found)
    (hselect : realm.select poolKey limit candidate = .ok (pool, evicted, after)) :
    after.order = Lru.store limit realm.order poolKey ∧ Consistent after.pools after.order ↔
      0 < limit ∧ realm.pools.keys.length ≤ limit := by
  rw [PoolRealm.select_hit hlookup] at hselect
  obtain ⟨-, -, rfl⟩ := by simpa only [Except.ok.injEq, Prod.mk.injEq] using hselect
  have hkey : poolKey ∈ realm.order := by
    rw [← hconsistent.exact, ← AList.lookup_isSome, hlookup]
    rfl
  rw [hconsistent.length, ← hit_iff hconsistent.distinct hkey]
  refine and_iff_left_of_imp fun horder => ?_
  have hlimit := ((hit_iff hconsistent.distinct hkey).1 horder).1
  rw [if_pos hlimit]
  refine ⟨Lru.nodup_touch hconsistent.distinct, fun key => ?_⟩
  rw [Lru.mem_touch, ← hconsistent.exact]
  refine ⟨.inl, fun hmem => hmem.elim (fun hbefore => hbefore) fun hsame => ?_⟩
  rw [hsame]
  exact (hconsistent.exact _).2 hkey

theorem lruCache_miss {realm after : PoolRealm Pool} (hconsistent : Consistent realm.pools realm.order) {poolKey : Bytes}
    {limit : Nat} {candidate : Option Pool} {pool : Pool} {evicted : List Pool} (hlookup : realm.pools.lookup poolKey = none)
    (hselect : realm.select poolKey limit candidate = .ok (pool, evicted, after)) :
    candidate.isSome = true ∧ after.order = Lru.store limit realm.order poolKey ∧ Consistent after.pools after.order := by
  cases candidate with
  | none =>
      rw [PoolRealm.select_panics hlookup] at hselect
      cases hselect
  | some made =>
      obtain ⟨evicted', realm', hmiss, horder, hconsistent'⟩ := PoolRealm.select_miss hconsistent hlookup made
      rw [hmiss] at hselect
      obtain ⟨-, -, rfl⟩ := by simpa only [Except.ok.injEq, Prod.mk.injEq] using hselect
      exact ⟨rfl, horder, hconsistent'⟩

theorem lruCache_step_iff (hpoisoned : PoisonedByPanic trace cache) (h : LruCache trace cache)
    (hstep : cache.step op = some (answer, next)) : LruCache (trace ++ [(op, answer)]) next ↔ KeepsLru cache op := by
  have hsound : cache.poisoned = false := by
    by_contra hnot
    obtain ⟨entry, hentry, panic, hpanic⟩ := hpoisoned (by simpa using hnot)
    exact h.noPanic entry hentry panic hpanic
  obtain ⟨hrefines, hconsistent, hquiet⟩ := lruCache_iff.1 h
  have hquiet' : (∀ panic, answer ≠ .panicked panic) → ∀ entry ∈ trace ++ [(op, answer)], ∀ panic, entry.2 ≠ .panicked panic :=
    noPanic_snoc hquiet
  cases section_of_step hsound hstep with
  | look hrealm _ =>
      refine iff_of_true (lruCache_iff.2 ⟨?_, ?_, hquiet' (by simp)⟩) trivial
      · rw [hrealm, hrefines, lruOf_snoc]
      · rw [hrealm]
        exact hconsistent
  | panics hadmission hpanic =>
      rename_i id admission panic
      obtain ⟨hlookup, hcandidate⟩ := (select_error_iff hconsistent admission).1 ⟨panic, hpanic⟩
      rw [keepsLru_select_iff hadmission, hlookup, hcandidate]
      refine iff_of_false (fun hafter => ?_) (by simp)
      exact hafter.noPanic _ (List.mem_append_right _ (List.mem_singleton_self _)) panic rfl
  | admits hadmission hselect hstill =>
      have hafter := iff_true_intro (hquiet' (by simp))
      rw [keepsLru_select_iff hadmission, lruCache_iff, lruOf_snoc, ← hrefines, hafter, and_true]
      cases hlookup : cache.realm.pools.lookup _ with
      | some found => exact lruCache_hit_iff hconsistent hlookup hselect
      | none =>
          obtain ⟨hcandidate, hkept⟩ := lruCache_miss hconsistent hlookup hselect
          exact iff_of_true hkept hcandidate

/-- The pools of the adapter are a cache in every state of a run exactly if all its sections meet the condition. -/
theorem pool_cache_lru_iff (hrun : (poolCacheMachine Pool).Run {} trace cache) :
    (∀ before after mid, trace = before ++ after → (poolCacheMachine Pool).Run {} before mid → LruCache before mid) ↔
      (poolCacheMachine Pool).RunWhere KeepsLru {} trace cache := by
  refine hrun.throughout_iff (I := PoisonedByPanic) ?_ (fun _ _ => poisonedByPanic_run) ?_
  · exact lruCache_iff.2 ⟨rfl, ⟨List.nodup_nil, fun key => by simp⟩, by simp⟩
  · intro trace cache op answer next hpoisoned h hstep
    exact lruCache_step_iff hpoisoned h hstep

end Runs

private def keyA : Bytes := [65]

private def keyB : Bytes := [66]

/-- Room for one pool: the second key takes the place of the first, and a second admission of it finds its pool. -/
theorem pool_cache_lru_two_keys : ∃ trace cache, (poolCacheMachine Nat).Run {} trace cache ∧ cache.realm.order = [keyB] ∧
    ∀ before after mid, trace = before ++ after → (poolCacheMachine Nat).Run {} before mid → LruCache before mid := by
  have hexec : ∃ cache, (poolCacheMachine Nat).exec {} [.look keyA 1 0, .select 0, .look keyB 1 1, .look keyB 1 2, .select 1, .select 2] =
      some ([(.look keyA 1 0, .looked false), (.select 0, .admitted keyA 1 0 []), (.look keyB 1 1, .looked false),
        (.look keyB 1 2, .looked false), (.select 1, .admitted keyB 1 1 [0]), (.select 2, .admitted keyB 1 1 [])], cache) ∧
      cache.realm.order = [keyB] := ⟨_, rfl, rfl⟩
  obtain ⟨cache, hexec, horder⟩ := hexec
  have hkeeps := Machine.runWhere_of_exec (P := KeepsLru) hexec (by decide)
  exact ⟨_, cache, hkeeps.run, horder, (pool_cache_lru_iff hkeeps.run).2 hkeeps⟩

/-- An admission finds its pool in the first section, another key takes the place of the pool, and the second section panics. -/
theorem pool_cache_panics : ∃ trace cache, (poolCacheMachine Nat).Run {} trace cache ∧
    (.select 1, .panicked ⟨"missing adapter pool candidate"⟩) ∈ trace ∧ ¬ LruCache trace cache := by
  have hexec : ∃ cache, (poolCacheMachine Nat).exec {} [.look keyA 1 0, .select 0, .look keyA 1 1, .look keyB 1 2, .select 2, .select 1] =
      some ([(.look keyA 1 0, .looked false), (.select 0, .admitted keyA 1 0 []), (.look keyA 1 1, .looked true),
        (.look keyB 1 2, .looked false), (.select 2, .admitted keyB 1 2 [0]),
        (.select 1, .panicked ⟨"missing adapter pool candidate"⟩)], cache) := ⟨_, rfl⟩
  obtain ⟨cache, hexec⟩ := hexec
  refine ⟨_, cache, Machine.run_of_exec hexec, by decide, fun hlru => ?_⟩
  exact hlru.noPanic (.select 1, .panicked ⟨"missing adapter pool candidate"⟩) (by decide) _ rfl

end RequestsNative.Python
