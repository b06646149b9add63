import RequestsNative.Python.AdapterTableSteps

/-!
# What an adapter gets from the table

Addresses come back and calls of all threads are between their sections, but a number for a lifecycle is not given twice
before the counter wraps. So a call that finds the number it has seen finds the entry of its own adapter, an adapter gets
only pools made for it, and each pool that leaves the table is cleared once.
-/

namespace RequestsNative.Python

open RequestsNative.Lib

namespace AdapterTable

variable {s s' : AdapterTable} {op : TableOp} {answer : TableAnswer}

/-! ### What stays in order -/

/-- The table goes on: its entries too, or they begin new lifecycles; and what is gone stays gone. -/
structure Grows (s s' : AdapterTable) : Prop where
  nextEpoch : s.nextEpoch ≤ s'.nextEpoch
  entries : ∀ identity entry', s'.entries.lookup identity = some entry' →
    (∃ entry, s.entries.lookup identity = some entry ∧ Continues entry entry') ∨ Begins s s' identity entry'
  adapters : s.adapters ≤ s'.adapters
  alive : ∀ adapter ∈ s'.alive, adapter.object < s.adapters → adapter ∈ s.alive

theorem Section.grows (h : Section s answer s') : Grows s s' :=
  ⟨h.nextEpoch, h.entries, Nat.le_of_eq h.adapters.symm, fun _ hadapter _ => h.alive ▸ hadapter⟩

theorem Grows.of_same (hentries : s'.entries = s.entries) (hnext : s'.nextEpoch = s.nextEpoch)
    (hadapters : s.adapters ≤ s'.adapters) (halive : ∀ adapter ∈ s'.alive, adapter.object < s.adapters → adapter ∈ s.alive) :
    Grows s s' :=
  ⟨Nat.le_of_eq hnext.symm, fun _ entry' hentry => .inl ⟨entry', hentries ▸ hentry, rfl, rfl, fun _ _ _ => .inl⟩,
    hadapters, halive⟩

theorem Grows.lineage (hgrows : Grows s s') {identity lifecycleEpoch : Nat} {adapter : HTTPAdapter}
    (h : s.Lineage identity lifecycleEpoch adapter) : s'.Lineage identity lifecycleEpoch adapter := by
  refine ⟨Nat.lt_of_lt_of_le h.before hgrows.nextEpoch, fun entry' hentry' hepoch => ?_,
    Nat.lt_of_lt_of_le h.object hgrows.adapters⟩
  obtain ⟨entry, hentry, hcontinues⟩ | hbegins := hgrows.entries identity entry' hentry'
  · rw [hcontinues.weakAdapter]
    exact h.weak entry hentry (hcontinues.lifecycleEpoch.symm.trans hepoch)
  · -- a new lifecycle has a later number
    have hbefore := h.before
    have hsince := hbegins.since
    omega

theorem Grows.callHolds (hgrows : Grows s s') {call : TableCall} (h : s.CallHolds call) : s'.CallHolds call := by
  cases call with
  | registering adapter | closing adapter attempts seen =>
      have hobject : adapter.object < s.adapters := h
      exact Nat.lt_of_lt_of_le hobject hgrows.adapters
  | admitting adapter input lifecycleEpoch manager hasPool => exact hgrows.lineage h
  | recording => trivial
  | reaping candidates dead =>
      refine ⟨fun candidate hcandidate => hgrows.lineage (h.1 candidate hcandidate), fun identity lifecycleEpoch hdead => ?_⟩
      obtain ⟨adapter, hlineage, hgone⟩ := h.2 identity lifecycleEpoch hdead
      exact ⟨adapter, hgrows.lineage hlineage, fun halive => hgone (hgrows.alive adapter halive hlineage.object)⟩

theorem Grows.entryHolds (hgrows : Grows s s')
    (h : ∀ identity entry, s.entries.lookup identity = some entry → s.EntryHolds identity entry) :
    ∀ identity entry', s'.entries.lookup identity = some entry' → s'.EntryHolds identity entry' := by
  intro identity entry' hentry'
  obtain ⟨entry, hentry, hcontinues⟩ | hbegins := hgrows.entries identity entry' hentry'
  · have hholds := h identity entry hentry
    refine ⟨?_, ?_, ?_, fun selectedProxy poolKey pool hpool => ?_⟩
    · rw [hcontinues.weakAdapter]
      exact hholds.keyed
    · rw [hcontinues.lifecycleEpoch]
      exact Nat.lt_of_lt_of_le hholds.before hgrows.nextEpoch
    · rw [hcontinues.weakAdapter]
      exact Nat.lt_of_lt_of_le hholds.object hgrows.adapters
    · rw [hcontinues.weakAdapter, hcontinues.lifecycleEpoch]
      obtain hold | hmade := hcontinues.has selectedProxy poolKey pool hpool
      · exact hholds.made selectedProxy poolKey pool hold
      · exact hmade
  · refine ⟨hbegins.keyed, hbegins.before, Nat.lt_of_lt_of_le hbegins.object hgrows.adapters, fun _ _ pool hpool => ?_⟩
    have hmem := hpool.mem_pools
    rw [hbegins.empty] at hmem
    cases hmem

theorem TableHolds.grow (h : s.TableHolds) (hgrows : Grows s s')
    (hcalls : ∀ call, some call ∈ s'.calls → some call ∈ s.calls ∨ s.CallHolds call)
    (halive : ∀ adapter ∈ s'.alive, adapter.object < s'.adapters) (hidle : s'.ensured = false → s'.calls = []) :
    s'.TableHolds where
  entries := hgrows.entryHolds h.entries
  calls call hcall := hgrows.callHolds ((hcalls call hcall).elim (h.calls call) id)
  alive := halive
  idle := hidle

theorem TableHolds.kept (h : s.TableHolds) (hensured : s.ensured = true) (hsection : Section s answer s') :
    s'.TableHolds := by
  refine h.grow hsection.grows hsection.calls ?_ fun hidle => ?_
  · rw [hsection.alive, hsection.adapters]
    exact h.alive
  · rw [hsection.ensured, hensured] at hidle
    cases hidle

theorem TableHolds.calls_change (h : s.TableHolds) {calls : List (Option TableCall)}
    (hcalls : ∀ call, some call ∈ calls → some call ∈ s.calls ∨ s.CallHolds call) (hidle : s.ensured = false → calls = []) :
    TableHolds { s with calls } :=
  h.grow (.of_same rfl rfl (Nat.le_refl _) fun _ hadapter _ => hadapter) hcalls h.alive hidle

/-- A call leaves the others. -/
theorem TableHolds.without (h : s.TableHolds) (id : Nat) : (s.setCall id none).TableHolds := by
  refine h.calls_change (fun call hcall => ?_) fun hidle => by rw [h.idle hidle, List.set_nil]
  obtain hold | hnew := List.mem_or_eq_of_mem_set hcall
  · exact .inl hold
  · cases hnew

theorem TableHolds.ensure (h : s.TableHolds) : s.ensureAdapterProcess.TableHolds := by
  unfold ensureAdapterProcess
  split
  · exact h
  · rename_i hnew
    rw [Bool.or_eq_true, not_or] at hnew
    have hcalls := h.idle (eq_false_of_ne_true hnew.1)
    refine ⟨fun identity entry hentry => ?_, fun call hcall => ?_, h.alive, fun hidle => by cases hidle⟩
    · rw [AList.lookup_empty] at hentry
      cases hentry
    · change some call ∈ s.calls at hcall
      rw [hcalls] at hcall
      cases hcall

/-! ### Any step -/

/-- The table as a call finds it behind the lock. -/
structure Entered (s s₁ : AdapterTable) : Prop where
  holds : s₁.TableHolds
  ensured : s₁.poisoned = false → s₁.ensured = true
  pools : s₁.pools = s.pools
  conserved : ∃ left, s₁.clearing = s.clearing ++ left ∧ (left ++ s₁.stored).Perm s.stored
  room : s.nextEpoch + 1 < 2 ^ 64 → s₁.nextEpoch + 1 < 2 ^ 64

theorem entered_ensure (h : s.TableHolds) : Entered s s.ensureAdapterProcess := by
  refine ⟨h.ensure, ?_, ?_, ?_, ?_⟩
  all_goals unfold ensureAdapterProcess
  · intro hsound
    split at hsound
    · rename_i hready
      rw [if_pos hready]
      rw [hsound, Bool.or_false] at hready
      exact hready
    · rename_i hnew
      rw [if_neg hnew]
  · split <;> rfl
  · split
    · exact ⟨[], (List.append_nil _).symm, List.Perm.refl _⟩
    · exact ⟨s.stored, rfl, (List.append_nil s.stored).symm ▸ List.Perm.refl _⟩
  · split
    · exact fun hroom => hroom
    · exact fun _ => show 1 + 1 < 2 ^ 64 by decide

theorem entered_without (h : s.TableHolds) {id : Nat} {call : TableCall} (hcall : s.call? id = some call) :
    Entered s (s.setCall id none) ∧ (s.setCall id none).CallHolds call := by
  have hmem : some call ∈ s.calls := List.mem_of_getElem? (Option.join_eq_some_iff.mp hcall)
  have hensured : s.ensured = true := by
    refine eq_true_of_ne_false fun hidle => ?_
    rw [h.idle hidle] at hmem
    cases hmem
  refine ⟨⟨h.without id, fun _ => hensured, rfl, ⟨[], (List.append_nil _).symm, List.Perm.refl _⟩, fun hroom => hroom⟩, ?_⟩
  have hgrows : Grows s (s.setCall id none) := .of_same rfl rfl (Nat.le_refl _) fun _ hadapter _ => hadapter
  exact hgrows.callHolds (h.calls call hmem)

/-- What any step does to the pools. -/
structure StepHolds (s : AdapterTable) (answer : TableAnswer) (s' : AdapterTable) : Prop where
  holds : s'.TableHolds
  conserved : (s'.stored ++ s'.clearing ++ (answer.clearedPools ++ answer.lostPools)).Perm
    (answer.storedPools ++ (s.stored ++ s.clearing))
  pools : s.pools ≤ s'.pools ∧ ∀ pool ∈ answer.storedPools, s.pools ≤ pool.serial ∧ pool.serial < s'.pools
  /-- What is not in the table does not come back. -/
  stored : ∀ pool ∈ s'.stored, pool ∈ s.stored ∨ s.pools ≤ pool.serial
  selected : ∀ adapter input pool stored, answer = .selected adapter input pool stored →
    (∃ lifecycleEpoch, pool.MadeFor adapter input.selectedProxy input.poolKey lifecycleEpoch) ∧
      (pool ∈ s.stored ∨ s.pools ≤ pool.serial ∧ pool.serial < s'.pools)
  closed : ∀ adapter count, answer = .closed adapter count → ∀ pool ∈ s'.stored, pool.adapter ≠ adapter

theorem TableHolds.entry_of_stored (h : s.TableHolds) {pool : AdapterPool} (hpool : pool ∈ s.stored) :
    ∃ entry, s.entries.lookup pool.adapter.identity = some entry ∧ pool ∈ entry.pools := by
  obtain ⟨identity, hat⟩ := KeyMap.exists_itemsAt hpool
  unfold KeyMap.itemsAt at hat
  cases hentry : s.entries.lookup identity with
  | none =>
      rw [hentry] at hat
      cases hat
  | some entry =>
      rw [hentry] at hat
      obtain ⟨selectedProxy, poolKey, hhas⟩ := SideEntry.has_of_mem hat
      have hholds := h.entries identity entry hentry
      rw [(hholds.made selectedProxy poolKey pool hhas).adapter, hholds.keyed]
      exact ⟨entry, hentry, hat⟩

/-- A section behind the lock. -/
theorem StepHolds.locked {s₁ : AdapterTable} (hentered : Entered s s₁)
    (h : answer = .refused ∧ s' = s₁ ∨ Section s₁ answer s' ∧ s₁.ensured = true) : StepHolds s answer s' := by
  obtain ⟨hholds, -, hpools, ⟨left₁, hclearing₁, hperm₁⟩, -⟩ := hentered
  have hstored (pool : AdapterPool) (hpool : pool ∈ s₁.stored) : pool ∈ s.stored :=
    hperm₁.subset (List.mem_append_right _ hpool)
  obtain ⟨rfl, rfl⟩ | ⟨hsection, hensured⟩ := h
  · refine ⟨hholds, ?_, ⟨Nat.le_of_eq hpools.symm, fun _ hpool => by cases hpool⟩, fun pool hpool => .inl (hstored pool hpool),
      (fun _ _ _ _ heq => by cases heq), fun _ _ heq => by cases heq⟩
    refine List.perm_iff_count.mpr fun pool => ?_
    have hcount := hperm₁.count_eq pool
    simp only [hclearing₁, List.count_append, TableAnswer.clearedPools, TableAnswer.lostPools, TableAnswer.storedPools,
      List.count_nil] at hcount ⊢
    omega
  · obtain ⟨left₂, hclearing₂, hperm₂⟩ := hsection.conserved
    refine ⟨hholds.kept hensured hsection, ?_, ?_, fun pool hpool => ?_, fun adapter input pool flag heq => ?_,
      fun adapter count heq pool hpool hadapter => ?_⟩
    · refine List.perm_iff_count.mpr fun pool => ?_
      have hcount₁ := hperm₁.count_eq pool
      have hcount₂ := hperm₂.count_eq pool
      simp only [hclearing₂, hclearing₁, hsection.kept.1, hsection.kept.2, List.count_append, List.count_nil]
        at hcount₁ hcount₂ ⊢
      omega
    · rw [← hpools]
      exact hsection.pools
    · obtain hnew | hold := List.mem_append.mp (hperm₂.subset (List.mem_append_right _ hpool))
      · exact .inr (hpools ▸ (hsection.pools.2 pool hnew).1)
      · exact .inl (hstored pool hold)
    · obtain ⟨hmade, hpool⟩ := hsection.selected adapter input pool flag heq
      rw [hpools] at hpool
      exact ⟨hmade, hpool.imp_left (hstored pool)⟩
    · obtain ⟨entry, hentry, hmem⟩ := (hholds.kept hensured hsection).entry_of_stored hpool
      rw [hsection.closed adapter count heq entry (hadapter ▸ hentry)] at hmem
      cases hmem

theorem StepHolds.aside (hholds : s'.TableHolds) (hanswer : answer.isPlain = true) (hentries : s'.entries = s.entries)
    (hclearing : s'.clearing = s.clearing) (hpools : s'.pools = s.pools) : StepHolds s answer s' := by
  have hstored : s'.stored = s.stored := congrArg (KeyMap.items SideEntry.pools) hentries
  have hnone := TableAnswer.storedPools_of_plain hanswer
  refine ⟨hholds, ?_, ⟨Nat.le_of_eq hpools.symm, fun _ hpool => by rw [hnone] at hpool; cases hpool⟩,
    fun pool hpool => .inl (hstored ▸ hpool), (fun _ _ _ _ heq => by rw [heq] at hanswer; cases hanswer),
    fun _ _ heq => by rw [heq] at hanswer; cases hanswer⟩
  rw [hstored, hclearing, hnone, (TableAnswer.kept_of_plain hanswer).1, (TableAnswer.kept_of_plain hanswer).2,
    List.append_nil, List.append_nil]
  exact List.Perm.refl _

theorem stepHolds_takeSection (h : s.TableHolds) (hroom : s.nextEpoch + 1 < 2 ^ 64)
    (hstep : s.takeSection op = some (answer, s')) : StepHolds s answer s' := by
  unfold takeSection at hstep
  split at hstep
  · rename_i id hid
    obtain ⟨call, hcall, hlocked⟩ := Option.bind_eq_some_iff.mp hstep
    obtain ⟨hentered, hholds⟩ := entered_without h hcall
    obtain ⟨result, hresume, hresult⟩ := Option.map_eq_some_iff.mp hlocked
    refine .locked hentered ?_
    split at hresult
    · obtain ⟨rfl, rfl⟩ := Prod.mk.inj hresult
      exact .inl ⟨rfl, rfl⟩
    · rename_i hsound
      subst hresult
      exact .inr ⟨section_of_resume hentered.holds (hentered.room hroom) hholds hresume,
        hentered.ensured (eq_false_of_ne_true hsound)⟩
  · obtain ⟨result, hbegin, hresult⟩ := Option.map_eq_some_iff.mp hstep
    have hentered := entered_ensure h
    refine .locked hentered ?_
    split at hresult
    · obtain ⟨rfl, rfl⟩ := Prod.mk.inj hresult
      exact .inl ⟨rfl, rfl⟩
    · rename_i hsound
      subst hresult
      exact .inr ⟨section_of_begin hentered.holds hbegin, hentered.ensured (eq_false_of_ne_true hsound)⟩

theorem stepHolds (h : s.TableHolds) (hroom : s.nextEpoch + 1 < 2 ^ 64) (hstep : s.step op = some (answer, s')) :
    StepHolds s answer s' := by
  cases op with
  | create identity =>
      unfold step at hstep
      simp only at hstep
      split at hstep
      · cases hstep
      · obtain ⟨rfl, rfl⟩ := Prod.mk.inj (Option.some.inj hstep)
        refine .aside (h.grow (.of_same rfl rfl (Nat.le_succ _) fun adapter hadapter hobject => ?_) (fun _ => .inl) ?_ h.idle)
          rfl rfl rfl rfl
        · obtain hold | hnew := List.mem_append.mp hadapter
          · exact hold
          · rw [List.mem_singleton.mp hnew] at hobject
            exact absurd hobject (Nat.lt_irrefl _)
        · intro adapter hadapter
          obtain hold | hnew := List.mem_append.mp hadapter
          · exact Nat.lt_succ_of_lt (h.alive adapter hold)
          · rw [List.mem_singleton.mp hnew]
            exact Nat.lt_succ_self _
  | free adapter =>
      unfold step at hstep
      simp only at hstep
      split at hstep
      · obtain ⟨rfl, rfl⟩ := Prod.mk.inj (Option.some.inj hstep)
        have hfewer (other : HTTPAdapter) (hother : other ∈ s.alive.erase adapter) : other ∈ s.alive :=
          List.mem_of_mem_erase hother
        exact .aside (h.grow (.of_same rfl rfl (Nat.le_refl _) fun other hother _ => hfewer other hother) (fun _ => .inl)
          (fun other hother => h.alive other (hfewer other hother)) h.idle) rfl rfl rfl rfl
      · cases hstep
  | fork =>
      obtain ⟨rfl, rfl⟩ := Prod.mk.inj (Option.some.inj hstep)
      refine ⟨h.grow (.of_same rfl rfl (Nat.le_refl _) fun _ hadapter _ => hadapter) (fun _ hcall => by cases hcall) h.alive
          fun _ => rfl, ?_, ⟨Nat.le_refl _, fun _ hpool => by cases hpool⟩, fun pool hpool => .inl hpool,
          (fun _ _ _ _ heq => by cases heq), fun _ _ heq => by cases heq⟩
      change ((s.stored ++ []) ++ ([] ++ s.clearing)).Perm ([] ++ (s.stored ++ s.clearing))
      rw [List.append_nil, List.nil_append, List.nil_append]
  | clear pool =>
      unfold step at hstep
      simp only at hstep
      split at hstep
      · rename_i hpool
        obtain ⟨rfl, rfl⟩ := Prod.mk.inj (Option.some.inj hstep)
        refine ⟨h.grow (.of_same rfl rfl (Nat.le_refl _) fun _ hadapter _ => hadapter) (fun _ => .inl) h.alive h.idle, ?_,
          ⟨Nat.le_refl _, fun _ hpool => by cases hpool⟩, fun pool hpool => .inl hpool, (fun _ _ _ _ heq => by cases heq),
          fun _ _ heq => by cases heq⟩
        refine List.perm_iff_count.mpr fun other => ?_
        have hcount := (List.perm_cons_erase hpool).count_eq other
        change List.count other ((s.stored ++ s.clearing.erase pool) ++ ([pool] ++ [])) =
          List.count other ([] ++ (s.stored ++ s.clearing))
        simp only [List.count_append, List.count_cons, List.count_nil] at hcount ⊢
        omega
      · cases hstep
  | reapAsk id =>
      unfold step at hstep
      simp only at hstep
      split at hstep
      · rename_i candidate candidates dead hcall
        obtain ⟨rfl, rfl⟩ := Prod.mk.inj (Option.some.inj hstep)
        have hmem : some (.reaping (candidate :: candidates) dead) ∈ s.calls :=
          List.mem_of_getElem? (Option.join_eq_some_iff.mp hcall)
        obtain ⟨hcandidates, hdead⟩ := h.calls _ hmem
        refine .aside (h.calls_change (fun call hnew => ?_) fun hidle => by rw [h.idle hidle, List.set_nil]) rfl rfl rfl rfl
        obtain hold | hsame := List.mem_or_eq_of_mem_set hnew
        · exact .inl hold
        · obtain rfl := Option.some.inj hsame
          refine .inr ⟨fun other hother => hcandidates other (List.mem_cons_of_mem _ hother), fun identity epoch hfound => ?_⟩
          split at hfound
          · exact hdead identity epoch hfound
          · rename_i hgone
            obtain hbefore | hlast := List.mem_append.mp hfound
            · exact hdead identity epoch hbefore
            · obtain ⟨rfl, rfl⟩ := Prod.mk.inj (List.mem_singleton.mp hlast)
              exact ⟨_, hcandidates candidate List.mem_cons_self, hgone⟩
      · cases hstep
  | record adapter lifecycleEpoch manager =>
      unfold step at hstep
      simp only at hstep
      split at hstep
      · rename_i hready
        obtain ⟨rfl, rfl⟩ := Prod.mk.inj (Option.some.inj hstep)
        refine .aside (h.calls_change (fun call hnew => ?_) fun hidle => ?_) rfl rfl rfl rfl
        · obtain hold | rfl := calls_append hnew
          · exact .inl hold
          · exact .inr trivial
        · rw [hready.1] at hidle
          cases hidle
      · cases hstep
  | register | registerInsert | reference | drop | dropReference | reap | reapRemove | pool | poolAdmit | recordLook | recordStore
  | close | closeLook | closeTake =>
      unfold step at hstep
      exact stepHolds_takeSection h hroom hstep

end AdapterTable

/-! ### Whole runs -/

abbrev TableTrace := List (TableOp × TableAnswer)

def storedIn (trace : TableTrace) : List AdapterPool := trace.flatMap (·.2.storedPools)

def clearedIn (trace : TableTrace) : List AdapterPool := trace.flatMap (·.2.clearedPools)

/-- The pools that were being cleared by another thread when the process forked. -/
def lostIn (trace : TableTrace) : List AdapterPool := trace.flatMap (·.2.lostPools)

def selectedIn (trace : TableTrace) : List AdapterPool :=
  trace.filterMap fun
    | (_, .selected _ _ pool _) => some pool
    | _ => none

/-- The counter of the lifecycles has not reached its end. -/
def Unwrapped (s : AdapterTable) (_ : TableOp) : Prop := s.nextEpoch + 1 < 2 ^ 64

instance (s : AdapterTable) (op : TableOp) : Decidable (Unwrapped s op) :=
  inferInstanceAs (Decidable (s.nextEpoch + 1 < 2 ^ 64))

/-- An adapter gets a pool that was made for it and for such requests, and that has not been cleared. -/
def OwnPool (before : TableTrace) (step : TableOp × TableAnswer) : Prop :=
  ∀ adapter input pool stored, step.2 = .selected adapter input pool stored →
    pool.adapter = adapter ∧ pool.selectedProxy = input.selectedProxy ∧ pool.poolKey = input.poolKey ∧
      pool ∉ clearedIn before ∧ pool ∉ lostIn before

/-- No pool comes back that an adapter has had before it was closed. -/
def RetiredByClose (before : TableTrace) (step : TableOp × TableAnswer) : Prop :=
  ∀ adapter input pool stored, step.2 = .selected adapter input pool stored →
    ∀ earlier op count later, before = earlier ++ (op, .closed adapter count) :: later → pool ∉ selectedIn earlier

namespace AdapterTable

structure RunHolds (trace : TableTrace) (s : AdapterTable) : Prop where
  table : s.TableHolds
  conserved : (s.stored ++ s.clearing ++ (clearedIn trace ++ lostIn trace)).Perm (storedIn trace)
  distinct : ((storedIn trace).map AdapterPool.serial).Nodup
  below : ∀ pool, pool ∈ storedIn trace ∨ pool ∈ selectedIn trace → pool.serial < s.pools
  owned : Throughout OwnPool trace
  gone : ∀ earlier op adapter count later, trace = earlier ++ (op, .closed adapter count) :: later →
    ∀ pool ∈ selectedIn earlier, pool.adapter = adapter → pool ∉ s.stored
  retired : Throughout RetiredByClose trace

variable {s s' : AdapterTable} {op : TableOp} {answer : TableAnswer} {trace : TableTrace}

theorem RunHolds.start : RunHolds [] {} where
  table := ⟨(fun _ _ hentry => by cases hentry), (fun _ hcall => by cases hcall), (fun _ hadapter => by cases hadapter),
    fun _ => rfl⟩
  conserved := List.Perm.refl _
  distinct := List.nodup_nil
  below _ h := by obtain h | h := h <;> cases h
  owned := .nil
  gone earlier _ _ _ _ heq := by cases earlier <;> cases heq
  retired := .nil

theorem RunHolds.not_gone (h : RunHolds trace s) {pool : AdapterPool} (hpool : pool ∈ s.stored ∨ s.pools ≤ pool.serial) :
    pool ∉ clearedIn trace ∧ pool ∉ lostIn trace := by
  have hnodup : (s.stored ++ s.clearing ++ (clearedIn trace ++ lostIn trace)).Nodup :=
    h.conserved.nodup_iff.mpr (List.Nodup.of_map _ h.distinct)
  have hfar : pool ∉ clearedIn trace ++ lostIn trace := by
    intro hgone
    obtain hstored | hnew := hpool
    · exact (List.nodup_append.mp hnodup).2.2 pool (List.mem_append_left _ hstored) pool hgone rfl
    · have hbelow := h.below pool (.inl (h.conserved.subset (List.mem_append_right _ hgone)))
      omega
  exact ⟨fun hmem => hfar (List.mem_append_left _ hmem), fun hmem => hfar (List.mem_append_right _ hmem)⟩

theorem storedPools_cases (answer : TableAnswer) : answer.storedPools = [] ∨ ∃ pool, answer.storedPools = [pool] := by
  cases answer with
  | selected adapter input pool stored =>
      cases stored with
      | true => exact .inr ⟨pool, rfl⟩
      | false => exact .inl rfl
  | _ => exact .inl rfl

theorem selectedIn_append (trace later : TableTrace) : selectedIn (trace ++ later) = selectedIn trace ++ selectedIn later :=
  List.filterMap_append

theorem selectedIn_last {pool : AdapterPool} (h : pool ∈ selectedIn [(op, answer)]) :
    ∃ adapter input stored, answer = .selected adapter input pool stored := by
  cases answer with
  | selected adapter input found stored =>
      obtain rfl := List.mem_singleton.mp h
      exact ⟨adapter, input, stored, rfl⟩
  | _ => cases h

theorem RunHolds.step (h : RunHolds trace s) (hstep : StepHolds s answer s') : RunHolds (trace ++ [(op, answer)]) s' := by
  have hstored : storedIn (trace ++ [(op, answer)]) = storedIn trace ++ answer.storedPools := by simp [storedIn]
  have hcleared : clearedIn (trace ++ [(op, answer)]) = clearedIn trace ++ answer.clearedPools := by simp [clearedIn]
  have hlost : lostIn (trace ++ [(op, answer)]) = lostIn trace ++ answer.lostPools := by simp [lostIn]
  have holder (pool : AdapterPool) (hpool : pool ∈ s.stored) : pool.serial < s.pools :=
    h.below pool (.inl (h.conserved.subset (List.mem_append_left _ (List.mem_append_left _ hpool))))
  refine ⟨hstep.holds, ?_, ?_, ?_, Throughout.snoc_iff.mpr ⟨h.owned, ?_⟩, ?_, Throughout.snoc_iff.mpr ⟨h.retired, ?_⟩⟩
  · refine List.perm_iff_count.mpr fun pool => ?_
    have hbefore := h.conserved.count_eq pool
    have hnow := hstep.conserved.count_eq pool
    simp only [hstored, hcleared, hlost, List.count_append] at hbefore hnow ⊢
    omega
  · rw [hstored, List.map_append]
    obtain hnone | ⟨pool, hone⟩ := storedPools_cases answer
    · rw [hnone, List.map_nil, List.append_nil]
      exact h.distinct
    · have hsince := (hstep.pools.2 pool (hone ▸ List.mem_singleton_self pool)).1
      rw [hone, List.map_singleton]
      refine List.nodup_append.mpr ⟨h.distinct, List.nodup_singleton _, fun serial hserial other hother => ?_⟩
      obtain ⟨old, hold, rfl⟩ := List.mem_map.mp hserial
      have hbelow := h.below old (.inl hold)
      rw [List.mem_singleton.mp hother]
      omega
  · have hmono := hstep.pools.1
    rintro pool (hpool | hpool)
    · rw [hstored] at hpool
      obtain hold | hnew := List.mem_append.mp hpool
      · exact Nat.lt_of_lt_of_le (h.below pool (.inl hold)) hmono
      · exact (hstep.pools.2 pool hnew).2
    · rw [selectedIn_append] at hpool
      obtain hold | hnew := List.mem_append.mp hpool
      · exact Nat.lt_of_lt_of_le (h.below pool (.inr hold)) hmono
      · obtain ⟨adapter, input, stored, hanswer⟩ := selectedIn_last hnew
        obtain hin | ⟨-, hbefore⟩ := (hstep.selected adapter input pool stored hanswer).2
        · exact Nat.lt_of_lt_of_le (holder pool hin) hmono
        · exact hbefore
  · intro adapter input pool stored hanswer
    obtain ⟨⟨lifecycleEpoch, hmade⟩, hpool⟩ := hstep.selected adapter input pool stored hanswer
    exact ⟨hmade.adapter, hmade.selectedProxy, hmade.poolKey, h.not_gone (hpool.imp_right And.left)⟩
  · intro earlier closing adapter count later heq pool hpool hadapter hin
    obtain rfl | ⟨between, last, rfl⟩ := List.eq_nil_or_concat later
    · obtain ⟨rfl, hlast⟩ := List.append_inj' heq rfl
      obtain ⟨-, rfl⟩ := Prod.mk.inj (List.singleton_inj.mp hlast)
      exact hstep.closed adapter count rfl pool hin hadapter
    · rw [List.concat_eq_append, ← List.cons_append, ← List.append_assoc] at heq
      obtain ⟨htrace, -⟩ := List.append_inj' heq rfl
      have hselected : pool ∈ selectedIn trace := by
        rw [htrace, selectedIn_append]
        exact List.mem_append_left _ hpool
      obtain hold | hnew := hstep.stored pool hin
      · exact h.gone earlier closing adapter count between htrace pool hpool hadapter hold
      · have hbelow := h.below pool (.inr hselected)
        omega
  · intro adapter input pool stored hanswer earlier closing count later htrace hpool
    obtain ⟨⟨lifecycleEpoch, hmade⟩, hin⟩ := hstep.selected adapter input pool stored hanswer
    have hgone := h.gone earlier closing adapter count later htrace pool hpool hmade.adapter
    have hselected : pool ∈ selectedIn trace := by
      rw [htrace, selectedIn_append]
      exact List.mem_append_left _ hpool
    have hbelow := h.below pool (.inr hselected)
    obtain hstill | ⟨hnew, -⟩ := hin
    · exact hgone hstill
    · omega

theorem runHolds (hrun : machine.RunWhere Unwrapped {} trace s) : RunHolds trace s := by
  induction hrun with
  | nil => exact .start
  | snoc _ hroom hone ih => exact ih.step (stepHolds ih.table hroom hone)

end AdapterTable

open AdapterTable

private def firstAtSeven : HTTPAdapter := ⟨0, 7⟩

private def secondAtSeven : HTTPAdapter := ⟨1, 7⟩

private def directInput : PoolInput := ⟨none, [1], 2⟩

private def firstPool : AdapterPool := ⟨0, firstAtSeven, none, [1], 1⟩

private def secondPool : AdapterPool := ⟨1, secondAtSeven, none, [1], 3⟩

/-- An adapter is closed and freed, and another takes its address. -/
private def addressTrace : TableTrace :=
  [(.create 7, .created firstAtSeven), (.register firstAtSeven true, .pending), (.registerInsert 0 3, .registered true),
    (.pool firstAtSeven directInput 3, .pending), (.poolAdmit 1, .selected firstAtSeven directInput firstPool true),
    (.close firstAtSeven, .pending), (.closeLook 2, .pending), (.closeTake 2 true, .closed firstAtSeven 1),
    (.clear firstPool, .cleared firstPool), (.free firstAtSeven, .freed), (.create 7, .created secondAtSeven),
    (.register secondAtSeven true, .pending), (.registerInsert 3 4, .registered true),
    (.pool secondAtSeven directInput 4, .pending), (.poolAdmit 4, .selected secondAtSeven directInput secondPool true)]

private theorem address_run : ∃ s, machine.RunWhere Unwrapped {} addressTrace s := by
  have hexec : ∃ s, machine.exec {} (addressTrace.map Prod.fst) = some (addressTrace, s) := ⟨_, rfl⟩
  obtain ⟨s, hexec⟩ := hexec
  exact ⟨s, Machine.runWhere_of_exec (P := Unwrapped) hexec (by decide)⟩

/-- An adapter gets only its own pools, and none that has been cleared, whichever adapters have had its address before. -/
theorem adapter_gets_own_pools {trace : TableTrace} {s : AdapterTable} (hrun : machine.RunWhere Unwrapped {} trace s) :
    Throughout OwnPool trace := (runHolds hrun).owned

theorem second_at_seven_gets_own_pool : (.poolAdmit 4, .selected secondAtSeven directInput secondPool true) ∈ addressTrace ∧
    Throughout OwnPool addressTrace := by
  obtain ⟨s, hrun⟩ := address_run
  exact ⟨by decide, adapter_gets_own_pools hrun⟩

/-- Each pool that was stored is in the table, about to be cleared, cleared, or lost by a fork: one of these, and once. -/
theorem adapter_pools_conserved {trace : TableTrace} {s : AdapterTable} (hrun : machine.RunWhere Unwrapped {} trace s) :
    (s.stored ++ s.clearing ++ (clearedIn trace ++ lostIn trace)).Perm (storedIn trace) ∧ (storedIn trace).Nodup :=
  ⟨(runHolds hrun).conserved, List.Nodup.of_map _ (runHolds hrun).distinct⟩

theorem pools_at_seven_conserved : storedIn addressTrace = [firstPool, secondPool] ∧ ∃ s : AdapterTable,
    (s.stored ++ s.clearing ++ (clearedIn addressTrace ++ lostIn addressTrace)).Perm (storedIn addressTrace) ∧
      (storedIn addressTrace).Nodup := by
  obtain ⟨s, hrun⟩ := address_run
  exact ⟨rfl, s, adapter_pools_conserved hrun⟩

/-- What an adapter has had before it was closed it does not get again. -/
theorem adapter_close_retires {trace : TableTrace} {s : AdapterTable} (hrun : machine.RunWhere Unwrapped {} trace s) :
    Throughout RetiredByClose trace := (runHolds hrun).retired

theorem close_at_seven_retires : (.closeTake 2 true, .closed firstAtSeven 1) ∈ addressTrace ∧
    Throughout RetiredByClose addressTrace := by
  obtain ⟨s, hrun⟩ := address_run
  exact ⟨by decide, adapter_close_retires hrun⟩

end RequestsNative.Python
