import RequestsNative.Python.AdapterTable

/-!
# What one section of a call does to the table

Every section of a call is described in one way: the entries it leaves are those it found, with fewer pools or one more, or
begin a new lifecycle; and the pools that are gone from the table are to be cleared.
-/

namespace RequestsNative.Python

open RequestsNative.Lib

/-! ### Realms -/

namespace PoolRealm

variable {Pool : Type} {realm realm' : PoolRealm Pool} {limit : Nat} {poolKey : Bytes} {candidate : Option Pool} {pool : Pool}
  {evicted : List Pool}

theorem evict_perm (limit : Nat) (order : List Bytes) (pools : KeyMap Bytes Pool) :
    ((evict limit order pools).2.2 ++ KeyMap.items (fun pool => [pool]) (evict limit order pools).2.1).Perm
      (KeyMap.items (fun pool => [pool]) pools) := by
  induction order generalizing pools with
  | nil => exact List.Perm.refl _
  | cons key order ih =>
      unfold evict
      split
      · have hrest := ih (pools.erase key)
        simp only [List.append_assoc]
        refine (List.Perm.append_left _ hrest).trans ?_
        cases hlookup : pools.lookup key with
        | some pool => exact KeyMap.items_erase_perm (fun pool => [pool]) hlookup
        | none =>
            have hsame : pools.erase key = pools :=
              AList.ext (List.kerase_of_notMem_keys (AList.lookup_eq_none.mp hlookup))
            rw [hsame]
            exact List.Perm.refl _
      · exact List.Perm.refl _

theorem evict_lookup {order : List Bytes} {pools : KeyMap Bytes Pool} {key : Bytes}
    (h : (evict limit order pools).2.1.lookup key = some pool) : pools.lookup key = some pool := by
  induction order generalizing pools with
  | nil => exact h
  | cons first order ih =>
      unfold evict at h
      split at h
      · have herased := ih h
        by_cases hkey : key = first
        · rw [hkey, AList.lookup_erase] at herased
          cases herased
        · rwa [AList.lookup_erase_ne hkey] at herased
      · exact h

/-- The pool that is selected was there, or is the candidate. -/
theorem select_ok (h : realm.select poolKey limit candidate = .ok (pool, evicted, realm')) :
    (realm.pools.lookup poolKey = some pool ∧ evicted = [] ∧ realm'.pools = realm.pools) ∨
    (realm.pools.lookup poolKey = none ∧ candidate = some pool ∧
      (∀ key found, realm'.pools.lookup key = some found →
        realm.pools.lookup key = some found ∨ key = poolKey ∧ found = pool) ∧
      (evicted ++ realm'.contents).Perm ((if 0 < limit then [pool] else []) ++ realm.contents)) := by
  cases hlookup : realm.pools.lookup poolKey with
  | some found =>
      rw [select_hit hlookup] at h
      obtain ⟨rfl, rfl, rfl⟩ := by simpa only [Except.ok.injEq, Prod.mk.injEq] using h
      exact .inl ⟨rfl, rfl, rfl⟩
  | none =>
      cases candidate with
      | none =>
          rw [select_panics hlookup] at h
          cases h
      | some made =>
          obtain ⟨rfl, rfl, hpools⟩ : made = pool ∧ (evict limit realm.order realm.pools).2.2 = evicted ∧
              realm'.pools = if 0 < limit then (evict limit realm.order realm.pools).2.1.insert poolKey made
                else (evict limit realm.order realm.pools).2.1 := by
            simp only [select, hlookup] at h
            obtain ⟨rfl, rfl, rfl⟩ := Prod.mk.inj (Except.ok.inj h)
            exact ⟨rfl, rfl, rfl⟩
          have hevicted := evict_perm limit realm.order realm.pools
          refine .inr ⟨rfl, rfl, ?_, ?_⟩
          · intro key found hfound
            rw [hpools] at hfound
            split at hfound
            · by_cases hkey : key = poolKey
              · rw [hkey, AList.lookup_insert] at hfound
                exact .inr ⟨hkey, (Option.some.inj hfound).symm⟩
              · rw [AList.lookup_insert_ne hkey] at hfound
                exact .inl (evict_lookup hfound)
            · exact .inl (evict_lookup hfound)
          · unfold contents
            rw [hpools]
            split
            · have hnone : (evict limit realm.order realm.pools).2.1.lookup poolKey = none := by
                cases hgone : (evict limit realm.order realm.pools).2.1.lookup poolKey with
                | none => rfl
                | some other =>
                    rw [evict_lookup hgone] at hlookup
                    cases hlookup
              have hinsert := KeyMap.items_insert_perm (fun pool => [pool]) (evict limit realm.order realm.pools).2.1 poolKey made
              rw [KeyMap.itemsAt, hnone, Option.elim_none, List.nil_append] at hinsert
              refine (List.Perm.append_left _ hinsert).trans ?_
              refine (List.perm_append_comm_assoc _ _ _).trans ?_
              exact List.Perm.append_left _ hevicted
            · exact hevicted

end PoolRealm

/-! ### Entries -/

namespace SideEntry

variable {entry : SideEntry} {realm : PoolRealm AdapterPool} {selectedProxy : Option Bytes}

/-- The entry has this pool, for requests with this proxy and key. -/
def Has (entry : SideEntry) (selectedProxy : Option Bytes) (poolKey : Bytes) (pool : AdapterPool) : Prop :=
  (entry.realm selectedProxy).pools.lookup poolKey = some pool

theorem realm_setRealm (other : Option Bytes) :
    (entry.setRealm selectedProxy realm).realm other = if other = selectedProxy then realm else entry.realm other := by
  cases selectedProxy with
  | none => cases other <;> rfl
  | some proxy =>
      cases other with
      | none => rfl
      | some other =>
          change ((entry.proxyPools.insert proxy realm).lookup other).getD {} = _
          by_cases hproxy : other = proxy
          · rw [hproxy, AList.lookup_insert, if_pos rfl]
            rfl
          · rw [AList.lookup_insert_ne hproxy, if_neg fun heq => hproxy (Option.some.inj heq)]
            rfl

theorem pools_setRealm (entry : SideEntry) (selectedProxy : Option Bytes) (realm : PoolRealm AdapterPool) :
    ((entry.realm selectedProxy).contents ++ (entry.setRealm selectedProxy realm).pools).Perm
      (realm.contents ++ entry.pools) := by
  cases selectedProxy with
  | none => exact List.perm_append_comm_assoc _ _ _
  | some proxy =>
      have hinsert := KeyMap.items_insert_perm PoolRealm.contents entry.proxyPools proxy realm
      have hat : (entry.realm (some proxy)).contents = KeyMap.itemsAt PoolRealm.contents entry.proxyPools proxy := by
        change ((entry.proxyPools.lookup proxy).getD {}).contents = (entry.proxyPools.lookup proxy).elim [] PoolRealm.contents
        cases entry.proxyPools.lookup proxy <;> rfl
      rw [hat]
      change (_ ++ (entry.directPools.contents ++ KeyMap.items PoolRealm.contents (entry.proxyPools.insert proxy realm))).Perm
        (realm.contents ++ (entry.directPools.contents ++ KeyMap.items PoolRealm.contents entry.proxyPools))
      refine (List.perm_append_comm_assoc _ _ _).trans ((List.Perm.append_left _ hinsert).trans ?_)
      exact List.perm_append_comm_assoc _ _ _

theorem Has.mem_pools {poolKey : Bytes} {pool : AdapterPool} (h : entry.Has selectedProxy poolKey pool) :
    pool ∈ entry.pools := by
  have hcontents (realm : PoolRealm AdapterPool) (hpool : realm.pools.lookup poolKey = some pool) : pool ∈ realm.contents :=
    KeyMap.itemsAt_subset _ realm.pools poolKey (by rw [KeyMap.itemsAt, hpool]; exact List.mem_singleton_self pool)
  cases selectedProxy with
  | none => exact List.mem_append_left _ (hcontents _ h)
  | some proxy =>
      refine List.mem_append_right _ (KeyMap.itemsAt_subset PoolRealm.contents entry.proxyPools proxy ?_)
      change ((entry.proxyPools.lookup proxy).getD {}).pools.lookup poolKey = some pool at h
      rw [KeyMap.itemsAt]
      cases hrealm : entry.proxyPools.lookup proxy with
      | none =>
          rw [hrealm] at h
          cases h
      | some realm =>
          rw [hrealm] at h
          exact hcontents realm h

theorem contents_lookup {Pool : Type} {realm : PoolRealm Pool} {pool : Pool} (h : pool ∈ realm.contents) :
    ∃ poolKey, realm.pools.lookup poolKey = some pool := by
  obtain ⟨poolKey, hat⟩ := KeyMap.exists_itemsAt h
  refine ⟨poolKey, ?_⟩
  unfold KeyMap.itemsAt at hat
  cases hlookup : realm.pools.lookup poolKey with
  | none =>
      rw [hlookup] at hat
      cases hat
  | some found =>
      rw [hlookup] at hat
      rw [List.mem_singleton.mp hat]

theorem has_of_mem {pool : AdapterPool} (h : pool ∈ entry.pools) :
    ∃ selectedProxy poolKey, entry.Has selectedProxy poolKey pool := by
  obtain hdirect | hproxy := List.mem_append.mp h
  · obtain ⟨poolKey, hlookup⟩ := contents_lookup hdirect
    exact ⟨none, poolKey, hlookup⟩
  · obtain ⟨proxy, hat⟩ := KeyMap.exists_itemsAt hproxy
    unfold KeyMap.itemsAt at hat
    cases hrealm : entry.proxyPools.lookup proxy with
    | none =>
        rw [hrealm] at hat
        cases hat
    | some realm =>
        rw [hrealm] at hat
        obtain ⟨poolKey, hlookup⟩ := contents_lookup hat
        refine ⟨some proxy, poolKey, ?_⟩
        change ((entry.proxyPools.lookup proxy).getD {}).pools.lookup poolKey = some pool
        rw [hrealm]
        exact hlookup

end SideEntry

/-! ### Sections -/

/-- The pool was made by this adapter, in this lifecycle, for such requests. -/
structure AdapterPool.MadeFor (pool : AdapterPool) (adapter : HTTPAdapter) (selectedProxy : Option Bytes) (poolKey : Bytes)
    (lifecycleEpoch : Nat) : Prop where
  adapter : pool.adapter = adapter
  selectedProxy : pool.selectedProxy = selectedProxy
  poolKey : pool.poolKey = poolKey
  lifecycleEpoch : pool.lifecycleEpoch = lifecycleEpoch

/-- An entry goes on with its lifecycle. -/
structure Continues (entry entry' : SideEntry) : Prop where
  lifecycleEpoch : entry'.lifecycleEpoch = entry.lifecycleEpoch
  weakAdapter : entry'.weakAdapter = entry.weakAdapter
  has : ∀ selectedProxy poolKey pool, entry'.Has selectedProxy poolKey pool → entry.Has selectedProxy poolKey pool ∨
    pool.MadeFor entry.weakAdapter.adapter selectedProxy poolKey entry.lifecycleEpoch

/-- An entry begins a lifecycle. -/
structure Begins (s s' : AdapterTable) (identity : Nat) (entry' : SideEntry) : Prop where
  since : s.nextEpoch ≤ entry'.lifecycleEpoch
  before : entry'.lifecycleEpoch < s'.nextEpoch
  keyed : entry'.weakAdapter.adapter.identity = identity
  object : entry'.weakAdapter.adapter.object < s.adapters
  empty : entry'.pools = []

/-- The pools that are new in the table. -/
def TableAnswer.storedPools : TableAnswer → List AdapterPool
  | .selected _ _ pool true => [pool]
  | _ => []

def TableAnswer.clearedPools : TableAnswer → List AdapterPool
  | .cleared pool => [pool]
  | _ => []

def TableAnswer.lostPools : TableAnswer → List AdapterPool
  | .forked lost => lost
  | _ => []

/-- The answer says nothing about pools. -/
def TableAnswer.isPlain : TableAnswer → Bool
  | .selected .. | .cleared _ | .forked _ | .closed .. => false
  | _ => true

theorem TableAnswer.storedPools_of_plain {answer : TableAnswer} (h : answer.isPlain = true) : answer.storedPools = [] := by
  cases answer <;> first | rfl | cases h

theorem TableAnswer.kept_of_plain {answer : TableAnswer} (h : answer.isPlain = true) :
    answer.clearedPools = [] ∧ answer.lostPools = [] := by
  cases answer <;> first | exact ⟨rfl, rfl⟩ | cases h

namespace AdapterTable

/-- The lifecycle of the address is, or was, that of the adapter. -/
structure Lineage (s : AdapterTable) (identity lifecycleEpoch : Nat) (adapter : HTTPAdapter) : Prop where
  before : lifecycleEpoch < s.nextEpoch
  weak : ∀ entry, s.entries.lookup identity = some entry → entry.lifecycleEpoch = lifecycleEpoch →
    entry.weakAdapter.adapter = adapter
  object : adapter.object < s.adapters

/-- What a call has seen was so. -/
def CallHolds (s : AdapterTable) : TableCall → Prop
  | .registering adapter | .closing adapter .. => adapter.object < s.adapters
  | .admitting adapter _ lifecycleEpoch .. => s.Lineage adapter.identity lifecycleEpoch adapter
  | .reaping candidates dead =>
      (∀ candidate ∈ candidates,
        s.Lineage candidate.identity candidate.lifecycleEpoch candidate.weakAdapter.adapter) ∧
      ∀ identity lifecycleEpoch, (identity, lifecycleEpoch) ∈ dead →
        ∃ adapter, s.Lineage identity lifecycleEpoch adapter ∧ adapter ∉ s.alive
  | .recording .. => True

/-- What is in order in an entry. -/
structure EntryHolds (s : AdapterTable) (identity : Nat) (entry : SideEntry) : Prop where
  keyed : entry.weakAdapter.adapter.identity = identity
  before : entry.lifecycleEpoch < s.nextEpoch
  object : entry.weakAdapter.adapter.object < s.adapters
  made : ∀ selectedProxy poolKey pool, entry.Has selectedProxy poolKey pool →
    pool.MadeFor entry.weakAdapter.adapter selectedProxy poolKey entry.lifecycleEpoch

/-- What one section does, with its answer. -/
structure Section (s : AdapterTable) (answer : TableAnswer) (s' : AdapterTable) : Prop where
  nextEpoch : s.nextEpoch ≤ s'.nextEpoch
  entries : ∀ identity entry', s'.entries.lookup identity = some entry' →
    (∃ entry, s.entries.lookup identity = some entry ∧ Continues entry entry') ∨ Begins s s' identity entry'
  conserved : ∃ left, s'.clearing = s.clearing ++ left ∧ (left ++ s'.stored).Perm (answer.storedPools ++ s.stored)
  pools : s.pools ≤ s'.pools ∧ ∀ pool ∈ answer.storedPools, s.pools ≤ pool.serial ∧ pool.serial < s'.pools
  kept : answer.clearedPools = [] ∧ answer.lostPools = []
  alive : s'.alive = s.alive
  adapters : s'.adapters = s.adapters
  ensured : s'.ensured = s.ensured
  calls : ∀ call, some call ∈ s'.calls → some call ∈ s.calls ∨ s.CallHolds call
  selected : ∀ adapter input pool stored, answer = .selected adapter input pool stored →
    (∃ lifecycleEpoch, pool.MadeFor adapter input.selectedProxy input.poolKey lifecycleEpoch) ∧
      (pool ∈ s.stored ∨ s.pools ≤ pool.serial ∧ pool.serial < s'.pools)
  closed : ∀ adapter count, answer = .closed adapter count →
    ∀ entry, s'.entries.lookup adapter.identity = some entry → entry.pools = []

variable {s s' : AdapterTable} {answer : TableAnswer} {identity : Nat} {entry entry' : SideEntry}

/-- A section that leaves the entries alone. -/
theorem Section.still {calls : List (Option TableCall)} {pools : Nat} {poisoned : Bool} (hanswer : answer.isPlain = true)
    (hcalls : ∀ call, some call ∈ calls → some call ∈ s.calls ∨ s.CallHolds call) (hpools : s.pools ≤ pools) :
    Section s answer { s with calls, pools, poisoned } where
  nextEpoch := Nat.le_refl _
  entries _ entry' hentry := .inl ⟨entry', hentry, rfl, rfl, fun _ _ _ => .inl⟩
  conserved := ⟨[], (List.append_nil _).symm, by rw [TableAnswer.storedPools_of_plain hanswer]; exact List.Perm.refl _⟩
  pools := ⟨hpools, by rw [TableAnswer.storedPools_of_plain hanswer]; exact fun _ h => by cases h⟩
  kept := TableAnswer.kept_of_plain hanswer
  alive := rfl
  adapters := rfl
  ensured := rfl
  calls := hcalls
  selected _ _ _ _ heq := by rw [heq] at hanswer; cases hanswer
  closed _ _ heq := by rw [heq] at hanswer; cases hanswer

/-- Entries have gone from the table, with their pools. -/
structure Shrinks (s s' : AdapterTable) : Prop where
  state : ∃ entries left, s' = { s with entries, clearing := s.clearing ++ left } ∧ (left ++ s'.stored).Perm s.stored
  entries : ∀ identity entry, s'.entries.lookup identity = some entry → s.entries.lookup identity = some entry

theorem Shrinks.refl (s : AdapterTable) : Shrinks s s :=
  ⟨⟨s.entries, [], by rw [List.append_nil], List.Perm.refl _⟩, fun _ _ => id⟩

theorem Shrinks.trans {s₁ : AdapterTable} (h : Shrinks s s₁) (h' : Shrinks s₁ s') : Shrinks s s' := by
  obtain ⟨⟨entries₁, left₁, rfl, hperm₁⟩, hentries₁⟩ := h
  obtain ⟨⟨entries₂, left₂, rfl, hperm₂⟩, hentries₂⟩ := h'
  refine ⟨⟨entries₂, left₁ ++ left₂, by rw [List.append_assoc], ?_⟩, fun identity entry hentry =>
    hentries₁ identity entry (hentries₂ identity entry hentry)⟩
  rw [List.append_assoc]
  exact (List.Perm.append_left _ hperm₂).trans hperm₁

theorem shrinks_remove (h : s.entries.lookup identity = some entry) : Shrinks s (s.remove identity entry) := by
  refine ⟨⟨_, entry.pools, rfl, KeyMap.items_erase_perm SideEntry.pools h⟩, fun other found hfound => ?_⟩
  change (s.entries.erase identity).lookup other = some found at hfound
  by_cases hother : other = identity
  · rw [hother, AList.lookup_erase] at hfound
    cases hfound
  · rwa [AList.lookup_erase_ne hother] at hfound

theorem shrinks_removeDead (s : AdapterTable) (dead : Nat × Nat) : Shrinks s (s.removeDead dead) := by
  unfold removeDead
  split
  · exact .refl s
  · rename_i entry hentry
    split
    · exact shrinks_remove hentry
    · exact .refl s

theorem shrinks_foldl (s : AdapterTable) (dead : List (Nat × Nat)) : Shrinks s (dead.foldl removeDead s) := by
  induction dead generalizing s with
  | nil => exact .refl s
  | cons first dead ih => exact (shrinks_removeDead s first).trans (ih _)

theorem Section.shrinks (h : Shrinks s s') (hanswer : answer.isPlain = true) : Section s answer s' := by
  obtain ⟨⟨entries, left, rfl, hperm⟩, hentries⟩ := h
  have hstored := TableAnswer.storedPools_of_plain hanswer
  exact {
    nextEpoch := Nat.le_refl _
    entries := fun identity entry' hentry => .inl ⟨entry', hentries identity entry' hentry, rfl, rfl, fun _ _ _ => .inl⟩
    conserved := ⟨left, rfl, by rw [hstored]; exact hperm⟩
    pools := ⟨Nat.le_refl _, by rw [hstored]; exact fun _ h => by cases h⟩
    kept := TableAnswer.kept_of_plain hanswer
    alive := rfl
    adapters := rfl
    ensured := rfl
    calls := fun _ hcall => .inl hcall
    selected := fun _ _ _ _ heq => by rw [heq] at hanswer; cases hanswer
    closed := fun _ _ heq => by rw [heq] at hanswer; cases hanswer }

theorem stored_insert (h : s.entries.lookup identity = some entry) (entry' : SideEntry) :
    (entry.pools ++ KeyMap.items SideEntry.pools (s.entries.insert identity entry')).Perm (entry'.pools ++ s.stored) := by
  have hinsert := KeyMap.items_insert_perm SideEntry.pools s.entries identity entry'
  rwa [KeyMap.itemsAt, h] at hinsert

theorem lookup_insert_cases {entries : KeyMap Nat SideEntry} {other : Nat} {found : SideEntry}
    (h : (entries.insert identity entry').lookup other = some found) :
    other = identity ∧ found = entry' ∨ entries.lookup other = some found := by
  by_cases hother : other = identity
  · rw [hother, AList.lookup_insert] at h
    exact .inl ⟨hother, (Option.some.inj h).symm⟩
  · rw [AList.lookup_insert_ne hother] at h
    exact .inr h

/-! ### The functions -/

theorem calls_append {calls : List (Option TableCall)} {call other : TableCall} (h : some call ∈ calls ++ [some other]) :
    some call ∈ calls ∨ call = other := by
  obtain hbefore | hlast := List.mem_append.mp h
  · exact .inl hbefore
  · exact .inr (Option.some.inj (List.mem_singleton.mp hlast))

theorem section_wait {call : TableCall} (h : s.CallHolds call) : Section s (s.wait call).1 (s.wait call).2 := by
  refine .still rfl (fun other hother => ?_) (Nat.le_refl _)
  obtain hbefore | rfl := calls_append hother
  · exact .inl hbefore
  · exact .inr h

theorem section_setCall {id : Nat} {call : TableCall} (h : s.CallHolds call) (hanswer : answer.isPlain = true) :
    Section s answer (s.setCall id (some call)) := by
  refine .still hanswer (fun other hother => ?_) (Nat.le_refl _)
  obtain hbefore | hnew := List.mem_or_eq_of_mem_set hother
  · exact .inl hbefore
  · exact .inr (Option.some.inj hnew ▸ h)

theorem section_same (hanswer : answer.isPlain = true) : Section s answer s := .shrinks (.refl s) hanswer

theorem section_register {adapter : HTTPAdapter} (hobject : adapter.object < s.adapters) (pristine : Bool) :
    Section s (s.register adapter pristine).1 (s.register adapter pristine).2 := by
  unfold register
  split
  · exact section_same rfl
  · split
    · exact section_wait hobject
    · exact section_same rfl

theorem section_drop (s : AdapterTable) (identity : Nat) : Section s (s.drop identity).1 (s.drop identity).2 := by
  unfold drop
  split
  · exact section_same rfl
  · rename_i entry hentry
    exact .shrinks (shrinks_remove hentry) rfl

theorem section_dropReference (s : AdapterTable) (identity reference : Nat) :
    Section s (s.dropReference identity reference).1 (s.dropReference identity reference).2 := by
  unfold dropReference
  split
  · exact section_same rfl
  · rename_i entry hentry
    split
    · exact .shrinks (shrinks_remove hentry) rfl
    · exact section_same rfl

theorem lineage_of_entry (h : s.EntryHolds identity entry) (hentry : s.entries.lookup identity = some entry) :
    s.Lineage identity entry.lifecycleEpoch entry.weakAdapter.adapter :=
  ⟨h.before, fun _ hother _ => Option.some.inj (hother.symm.trans hentry) ▸ rfl, h.object⟩

theorem section_pool (h : ∀ identity entry, s.entries.lookup identity = some entry → s.EntryHolds identity entry)
    (adapter : HTTPAdapter) (input : PoolInput) (manager : Nat) :
    Section s (s.pool adapter input manager).1 (s.pool adapter input manager).2 := by
  unfold pool
  split
  · exact section_same rfl
  · rename_i entry hentry
    simp only
    split
    · exact section_same rfl
    · rename_i hsame
      obtain ⟨hadapter, -⟩ := not_or.mp hsame
      refine section_wait ?_
      have hlineage := lineage_of_entry (h _ entry hentry) hentry
      rwa [not_not.mp hadapter] at hlineage

theorem section_reap (h : ∀ identity entry, s.entries.lookup identity = some entry → s.EntryHolds identity entry) :
    Section s (s.wait (.reaping s.reapCandidates [])).1 (s.wait (.reaping s.reapCandidates [])).2 := by
  refine section_wait ⟨fun candidate hcandidate => ?_, fun _ _ hdead => by cases hdead⟩
  obtain ⟨⟨identity, entry⟩, hentry, rfl⟩ := List.mem_map.mp hcandidate
  have hlookup : s.entries.lookup identity = some entry := AList.mem_lookup_iff.mpr hentry
  exact lineage_of_entry (h identity entry hlookup) hlookup

theorem takeEpoch_next (hroom : s.nextEpoch + 1 < 2 ^ 64) : s.takeEpoch.nextEpoch = s.nextEpoch + 1 :=
  Nat.mod_eq_of_lt hroom

/-- A new lifecycle takes the place of what was there. -/
theorem Section.renews {left : List AdapterPool} {references : Nat} (hroom : s.nextEpoch + 1 < 2 ^ 64)
    (hanswer : answer.isPlain = true ∨ ∃ adapter count, answer = .closed adapter count ∧ adapter.identity = identity)
    (hepoch : entry'.lifecycleEpoch = s.nextEpoch)
    (hkeyed : entry'.weakAdapter.adapter.identity = identity) (hobject : entry'.weakAdapter.adapter.object < s.adapters)
    (hempty : entry'.pools = []) (hleft : left = KeyMap.itemsAt SideEntry.pools s.entries identity) :
    Section s answer { s.takeEpoch with
      entries := s.entries.insert identity entry', references, clearing := s.clearing ++ left } := by
  have hnext := takeEpoch_next hroom
  obtain ⟨hstored, hkept, hselected⟩ : answer.storedPools = [] ∧
      (answer.clearedPools = [] ∧ answer.lostPools = []) ∧
      ∀ adapter input pool stored, answer ≠ .selected adapter input pool stored := by
    obtain hplain | ⟨adapter, count, rfl, -⟩ := hanswer
    · exact ⟨TableAnswer.storedPools_of_plain hplain, TableAnswer.kept_of_plain hplain,
        fun _ _ _ _ heq => by rw [heq] at hplain; cases hplain⟩
    · exact ⟨rfl, ⟨rfl, rfl⟩, fun _ _ _ _ heq => by cases heq⟩
  exact {
    nextEpoch := by change s.nextEpoch ≤ s.takeEpoch.nextEpoch; omega
    entries := fun other found hfound => by
      obtain ⟨rfl, rfl⟩ | hold := lookup_insert_cases hfound
      · refine .inr ⟨Nat.le_of_eq hepoch.symm, ?_, hkeyed, hobject, hempty⟩
        change found.lifecycleEpoch < s.takeEpoch.nextEpoch
        omega
      · exact .inl ⟨found, hold, rfl, rfl, fun _ _ _ => .inl⟩
    conserved := by
      refine ⟨left, rfl, ?_⟩
      have hinsert := KeyMap.items_insert_perm SideEntry.pools s.entries identity entry'
      rw [hstored, hleft]
      rwa [hempty] at hinsert
    pools := ⟨Nat.le_refl _, by rw [hstored]; exact fun _ h => by cases h⟩
    kept := hkept
    alive := rfl
    adapters := rfl
    ensured := rfl
    calls := fun _ hcall => .inl hcall
    selected := fun _ _ _ _ heq => absurd heq (hselected _ _ _ _)
    closed := fun adapter count heq found hfound => by
      obtain hplain | ⟨other, _, hclosed, hidentity⟩ := hanswer
      · rw [heq] at hplain
        cases hplain
      · obtain ⟨rfl, -⟩ := TableAnswer.closed.inj (heq.symm.trans hclosed)
        change (s.entries.insert identity entry').lookup adapter.identity = some found at hfound
        rw [hidentity, AList.lookup_insert] at hfound
        rw [← Option.some.inj hfound, hempty] }

theorem section_closed_none {adapter : HTTPAdapter} (h : s.entries.lookup adapter.identity = none) :
    Section s (.closed adapter 0) s := by
  have hsame : Section s .freed s := section_same rfl
  exact {
    nextEpoch := hsame.nextEpoch, entries := hsame.entries, conserved := hsame.conserved, pools := hsame.pools
    kept := ⟨rfl, rfl⟩, alive := rfl, adapters := rfl, ensured := rfl, calls := hsame.calls
    selected := fun _ _ _ _ heq => by cases heq
    closed := fun other count heq entry hentry => by
      obtain ⟨rfl, -⟩ := TableAnswer.closed.inj heq
      rw [h] at hentry
      cases hentry }

theorem section_registerInsert {adapter : HTTPAdapter} (hroom : s.nextEpoch + 1 < 2 ^ 64)
    (hobject : adapter.object < s.adapters) (manager : Nat) :
    Section s (s.registerInsert adapter manager).1 (s.registerInsert adapter manager).2 :=
  .renews hroom (.inl rfl) rfl rfl hobject rfl rfl

theorem section_retry {id attempts : Nat} {call : Nat → TableCall} (hcall : ∀ left, s.CallHolds (call left))
    (hanswer : answer.isPlain = true) :
    Section s (s.retry id attempts call answer).1 (s.retry id attempts call answer).2 := by
  unfold retry
  split
  · exact section_same hanswer
  · exact section_same hanswer
  · exact section_setCall (hcall _) rfl

theorem section_closeLook {adapter : HTTPAdapter} (hobject : adapter.object < s.adapters) (id attempts : Nat) :
    Section s (s.closeLook id adapter attempts).1 (s.closeLook id adapter attempts).2 := by
  unfold closeLook
  split
  · exact section_closed_none ‹_›
  · exact section_setCall hobject rfl

theorem section_closeTake (hroom : s.nextEpoch + 1 < 2 ^ 64)
    (h : ∀ identity entry, s.entries.lookup identity = some entry → s.EntryHolds identity entry) {adapter : HTTPAdapter}
    (hobject : adapter.object < s.adapters) (id attempts : Nat) (seen : ClosingView) (stable : Bool) :
    Section s (s.closeTake id adapter attempts seen stable).1 (s.closeTake id adapter attempts seen stable).2 := by
  unfold closeTake
  split
  · exact section_same rfl
  · split
    · exact section_closed_none ‹_›
    · rename_i entry hentry
      have hholds := h _ entry hentry
      (repeat' split)
      · exact section_same rfl
      · exact section_same rfl
      · exact section_retry (fun _ => hobject) rfl
      · exact section_same rfl
      · exact .renews hroom (.inr ⟨adapter, _, rfl, rfl⟩) rfl hholds.keyed hholds.object rfl
          (by rw [KeyMap.itemsAt, hentry]; rfl)

theorem section_recordLook (id : Nat) (adapter : HTTPAdapter) (lifecycleEpoch manager attempts : Nat) :
    Section s (s.recordLook id adapter lifecycleEpoch manager attempts).1
      (s.recordLook id adapter lifecycleEpoch manager attempts).2 := by
  unfold recordLook
  split
  · exact section_same rfl
  · split
    · exact section_same rfl
    · exact section_setCall trivial rfl

/-- An entry goes on in its place; the pools that are gone from it are to be cleared. -/
theorem Section.continues {left : List AdapterPool} {pools : Nat} (hentry : s.entries.lookup identity = some entry)
    (hcontinues : Continues entry entry') (hperm : (left ++ entry'.pools).Perm (answer.storedPools ++ entry.pools))
    (hpools : s.pools ≤ pools ∧ ∀ pool ∈ answer.storedPools, s.pools ≤ pool.serial ∧ pool.serial < pools)
    (hkept : answer.clearedPools = [] ∧ answer.lostPools = [])
    (hclosed : ∀ adapter count, answer ≠ .closed adapter count)
    (hselected : ∀ adapter input pool stored, answer = .selected adapter input pool stored →
      (∃ lifecycleEpoch, pool.MadeFor adapter input.selectedProxy input.poolKey lifecycleEpoch) ∧
        (pool ∈ s.stored ∨ s.pools ≤ pool.serial ∧ pool.serial < pools)) :
    Section s answer { s with
      entries := s.entries.insert identity entry', clearing := s.clearing ++ left, pools } where
  nextEpoch := Nat.le_refl _
  entries other found hfound := by
    obtain ⟨rfl, rfl⟩ | hold := lookup_insert_cases hfound
    · exact .inl ⟨entry, hentry, hcontinues⟩
    · exact .inl ⟨found, hold, rfl, rfl, fun _ _ _ => .inl⟩
  conserved := by
    refine ⟨left, rfl, List.perm_iff_count.mpr fun pool => ?_⟩
    have hinsert := (stored_insert hentry entry').count_eq pool
    have hentries := hperm.count_eq pool
    rw [List.count_append, List.count_append] at hinsert hentries ⊢
    change _ + List.count pool (KeyMap.items SideEntry.pools (s.entries.insert identity entry')) = _
    omega
  pools := hpools
  kept := hkept
  alive := rfl
  adapters := rfl
  ensured := rfl
  calls _ hcall := .inl hcall
  selected := hselected
  closed _ _ heq := absurd heq (hclosed _ _)

theorem section_recordStore (id : Nat) (adapter : HTTPAdapter) (lifecycleEpoch manager attempts proofRevision : Nat)
    (stable : Bool) :
    Section s (s.recordStore id adapter lifecycleEpoch manager attempts proofRevision stable).1
      (s.recordStore id adapter lifecycleEpoch manager attempts proofRevision stable).2 := by
  unfold recordStore
  split
  · exact section_same rfl
  · split
    · exact section_same rfl
    · rename_i entry hentry
      (repeat' split)
      · exact section_same rfl
      · exact section_retry (fun _ => trivial) rfl
      · have hsection : Section s (.recorded true) { s with
            entries := s.entries.insert adapter.identity { entry with proofRevision := (entry.proofRevision + 1) % 2 ^ 64 }
            clearing := s.clearing ++ [], pools := s.pools } :=
          .continues hentry ⟨rfl, rfl, fun _ _ _ => .inl⟩ (List.Perm.refl _) ⟨Nat.le_refl _, fun _ h => by cases h⟩
            ⟨rfl, rfl⟩ (fun _ _ heq => by cases heq) fun _ _ _ _ heq => by cases heq
        rwa [List.append_nil] at hsection

theorem mem_stored (hentry : s.entries.lookup identity = some entry) {selectedProxy : Option Bytes} {poolKey : Bytes}
    {pool : AdapterPool} (h : entry.Has selectedProxy poolKey pool) : pool ∈ s.stored := by
  refine KeyMap.itemsAt_subset SideEntry.pools s.entries identity ?_
  rw [KeyMap.itemsAt, hentry]
  exact h.mem_pools

/-- The realm of an admission takes its place in the entry. -/
theorem section_select {adapter : HTTPAdapter} {input : PoolInput} {candidate : Option AdapterPool} {pools revision : Nat}
    {pool : AdapterPool} {evicted : List AdapterPool} {realm' : PoolRealm AdapterPool}
    (hentry : s.entries.lookup adapter.identity = some entry) (hholds : s.EntryHolds adapter.identity entry)
    (hadapter : entry.weakAdapter.adapter = adapter) (hpools : s.pools ≤ pools)
    (hcandidate : ∀ made, candidate = some made →
      made.MadeFor adapter input.selectedProxy input.poolKey entry.lifecycleEpoch ∧ s.pools ≤ made.serial ∧
        made.serial < pools)
    (hselect : (entry.realm input.selectedProxy).select input.poolKey input.poolConnections candidate =
      .ok (pool, evicted, realm')) :
    Section s (.selected adapter input pool
        (((entry.realm input.selectedProxy).pools.lookup input.poolKey).isNone && decide (0 < input.poolConnections)))
      { s with
        entries := s.entries.insert adapter.identity
          { entry.setRealm input.selectedProxy realm' with admissionRevision := revision }
        clearing := s.clearing ++ evicted, pools } := by
  have hset := SideEntry.pools_setRealm entry input.selectedProxy realm'
  have hhas (other : Option Bytes) (key : Bytes) (found : AdapterPool)
      (hfound : (entry.setRealm input.selectedProxy realm').Has other key found) :
      entry.Has other key found ∨ other = input.selectedProxy ∧ realm'.pools.lookup key = some found := by
    rw [SideEntry.Has, SideEntry.realm_setRealm] at hfound
    split at hfound
    · exact .inr ⟨‹_›, hfound⟩
    · exact .inl hfound
  obtain ⟨hlookup, rfl, hsame⟩ | ⟨hlookup, hmade, hfrom, hperm⟩ := PoolRealm.select_ok hselect
  · -- the pool was there
    rw [hlookup, Option.isNone_some, Bool.false_and]
    refine .continues hentry ⟨by cases input.selectedProxy <;> rfl, by cases input.selectedProxy <;> rfl, ?_⟩ ?_
      ⟨hpools, fun _ hpool => by cases hpool⟩ ⟨rfl, rfl⟩ (fun _ _ heq => by cases heq) ?_
    · intro other key found hfound
      obtain hold | ⟨rfl, hnew⟩ := hhas other key found hfound
      · exact .inl hold
      · rw [hsame] at hnew
        exact .inl hnew
    · have hcontents : realm'.contents = (entry.realm input.selectedProxy).contents := by
        rw [PoolRealm.contents, hsame, PoolRealm.contents]
      rw [hcontents] at hset
      exact (List.perm_append_left_iff _).mp hset
    · rintro _ _ _ _ ⟨⟩
      exact ⟨⟨_, hadapter ▸ hholds.made _ _ _ hlookup⟩, .inl (mem_stored hentry hlookup)⟩
  · -- the pool is the candidate
    obtain ⟨hfor, hsince, hbefore⟩ := hcandidate pool hmade
    have hstored : (TableAnswer.selected adapter input pool (true && decide (0 < input.poolConnections))).storedPools =
        if 0 < input.poolConnections then [pool] else [] := by
      split <;> rename_i hlimit <;> simp [TableAnswer.storedPools, hlimit]
    rw [hlookup, Option.isNone_none]
    refine .continues hentry ⟨by cases input.selectedProxy <;> rfl, by cases input.selectedProxy <;> rfl, ?_⟩ ?_
      ⟨hpools, ?_⟩ ⟨rfl, rfl⟩ (fun _ _ heq => by cases heq) ?_
    · intro other key found hfound
      obtain hold | ⟨rfl, hnew⟩ := hhas other key found hfound
      · exact .inl hold
      · obtain hold | ⟨rfl, rfl⟩ := hfrom key found hnew
        · exact .inl hold
        · exact .inr (hadapter.symm ▸ hfor)
    · rw [hstored]
      refine List.perm_iff_count.mpr fun other => ?_
      have hmoved := hset.count_eq other
      have hleft := hperm.count_eq other
      rw [List.count_append, List.count_append] at hmoved hleft ⊢
      change _ + List.count other (entry.setRealm input.selectedProxy realm').pools = _
      omega
    · rw [hstored]
      intro stored hmem
      split at hmem
      · rw [List.mem_singleton.mp hmem]
        exact ⟨hsince, hbefore⟩
      · cases hmem
    · rintro _ _ _ _ ⟨⟩
      exact ⟨⟨_, hfor⟩, .inr ⟨hsince, hbefore⟩⟩

/-- A pool that is made takes the next number. -/
theorem numbered_eq (s : AdapterTable) (hasPool : Bool) : (if hasPool then s else { s with pools := s.pools + 1 }) =
    { s with pools := if hasPool then s.pools else s.pools + 1 } := by
  cases hasPool <;> rfl

/-- An admission selects a pool of its own adapter, for its own requests. -/
theorem section_poolAdmit (h : ∀ identity entry, s.entries.lookup identity = some entry → s.EntryHolds identity entry)
    {adapter : HTTPAdapter} {input : PoolInput} {lifecycleEpoch manager : Nat} {hasPool : Bool}
    (hlineage : s.Lineage adapter.identity lifecycleEpoch adapter) :
    Section s (s.poolAdmit adapter input lifecycleEpoch manager hasPool).1
      (s.poolAdmit adapter input lifecycleEpoch manager hasPool).2 := by
  have hmade (made : AdapterPool) (hmade : (if hasPool then none
      else some ⟨s.pools, adapter, input.selectedProxy, input.poolKey, lifecycleEpoch⟩) = some made) :
      made.MadeFor adapter input.selectedProxy input.poolKey lifecycleEpoch ∧ s.pools ≤ made.serial ∧
        made.serial < s.pools + 1 ∧ hasPool = false := by
    cases hasPool with
    | true => cases hmade
    | false =>
        obtain rfl := Option.some.inj hmade
        exact ⟨⟨rfl, rfl, rfl, rfl⟩, Nat.le_refl _, Nat.lt_succ_self _, rfl⟩
  have hpools : s.pools ≤ if hasPool then s.pools else s.pools + 1 := by
    split <;> omega
  unfold poolAdmit
  simp only [numbered_eq]
  split
  · exact .still rfl (fun _ hcall => .inl hcall) hpools
  · rename_i entry hentry
    split
    · exact .still rfl (fun _ hcall => .inl hcall) hpools
    · rename_i hsame
      obtain ⟨hepoch, -⟩ := not_or.mp hsame
      have hadapter := hlineage.weak entry hentry (not_not.mp hepoch)
      split
      · exact .still rfl (fun _ hcall => .inl hcall) hpools
      · rename_i pool evicted realm' hselect
        refine section_select hentry (h _ entry hentry) hadapter hpools ?_ hselect
        intro made hsome
        obtain ⟨hfor, hsince, hbefore, hnew⟩ := hmade made hsome
        rw [not_not.mp hepoch]
        exact ⟨hfor, hsince, by rw [hnew]; exact hbefore⟩

/-! ### Any section -/

/-- What is in order between two sections. -/
structure TableHolds (s : AdapterTable) : Prop where
  entries : ∀ identity entry, s.entries.lookup identity = some entry → s.EntryHolds identity entry
  calls : ∀ call, some call ∈ s.calls → s.CallHolds call
  alive : ∀ adapter ∈ s.alive, adapter.object < s.adapters
  idle : s.ensured = false → s.calls = []

/-- A call begins with an adapter that is alive. -/
theorem of_alive {adapter : HTTPAdapter} {next result : TableAnswer × AdapterTable}
    (h : (if adapter ∈ s.alive then some next else none) = some result) : adapter ∈ s.alive ∧ next = result := by
  split at h
  · exact ⟨‹_›, Option.some.inj h⟩
  · cases h

theorem section_of_begin (h : s.TableHolds) {op : TableOp} {result : TableAnswer × AdapterTable}
    (hbegin : s.begin op = some result) : Section s result.1 result.2 := by
  cases op with
  | register adapter pristine =>
      obtain ⟨halive, rfl⟩ := of_alive hbegin
      exact section_register (h.alive adapter halive) pristine
  | reference adapter =>
      obtain ⟨-, rfl⟩ := of_alive hbegin
      exact section_same rfl
  | drop identity =>
      obtain rfl := Option.some.inj hbegin
      exact section_drop s identity
  | dropReference identity reference =>
      obtain rfl := Option.some.inj hbegin
      exact section_dropReference s identity reference
  | reap =>
      obtain rfl := Option.some.inj hbegin
      exact section_reap h.entries
  | pool adapter input manager =>
      obtain ⟨-, rfl⟩ := of_alive hbegin
      exact section_pool h.entries adapter input manager
  | close adapter =>
      obtain ⟨halive, rfl⟩ := of_alive hbegin
      have hholds : s.CallHolds (.closing adapter managerProofAttempts none) := h.alive adapter halive
      exact section_wait hholds
  | create | free | fork | registerInsert | reapAsk | reapRemove | poolAdmit | record | recordLook | recordStore | closeLook
  | closeTake | clear => cases hbegin

theorem section_of_resume (h : s.TableHolds) (hroom : s.nextEpoch + 1 < 2 ^ 64) {id : Nat} {call : TableCall} {op : TableOp}
    (hcall : s.CallHolds call) {result : TableAnswer × AdapterTable} (hresume : s.resume id call op = some result) :
    Section s result.1 result.2 := by
  unfold resume at hresume
  split at hresume
  · obtain rfl := Option.some.inj hresume
    exact section_registerInsert hroom hcall _
  · obtain rfl := Option.some.inj hresume
    exact .shrinks (shrinks_foldl s _) rfl
  · obtain rfl := Option.some.inj hresume
    exact section_poolAdmit h.entries hcall
  · obtain rfl := Option.some.inj hresume
    exact section_closeLook hcall id _
  · obtain rfl := Option.some.inj hresume
    exact section_closeTake hroom h.entries hcall id _ _ _
  · obtain rfl := Option.some.inj hresume
    exact section_recordLook id _ _ _ _
  · obtain rfl := Option.some.inj hresume
    exact section_recordStore id _ _ _ _ _ _
  · cases hresume

end AdapterTable

end RequestsNative.Python
