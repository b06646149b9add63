import RequestsNative.Python.AdapterTableRuns

/-!
# What stays registered

A call keeps its adapter alive, and two adapters that are alive have two addresses. So no call of another adapter and no
reaping takes the entry of an adapter that is alive: only dropping it by its address or its reference does, or a fork.
-/

namespace RequestsNative.Python

open RequestsNative.Lib

namespace AdapterTable

variable {s s' : AdapterTable} {op : TableOp} {answer : TableAnswer} {trace : TableTrace}

/-! ### Calls and adapters -/

/-- The calls are those there were, or hold what their owner holds. -/
def CallsOf (s s' : AdapterTable) (owner : Option HTTPAdapter) : Prop :=
  s'.alive = s.alive ∧ ∀ call, some call ∈ s'.calls → some call ∈ s.calls ∨ ∀ held, call.holds = some held → owner = some held

theorem callsOf_same (owner : Option HTTPAdapter) : CallsOf s s owner := ⟨rfl, fun _ => .inl⟩

theorem callsOf_setCall {id : Nat} (call : TableCall) : CallsOf s (s.setCall id (some call)) call.holds := by
  refine ⟨rfl, fun other hother => ?_⟩
  obtain hold | hnew := List.mem_or_eq_of_mem_set hother
  · exact .inl hold
  · obtain rfl := Option.some.inj hnew
    exact .inr fun _ hheld => hheld

theorem callsOf_wait (call : TableCall) : CallsOf s (s.wait call).2 call.holds := by
  refine ⟨rfl, fun other hother => ?_⟩
  obtain hold | rfl := calls_append hother
  · exact .inl hold
  · exact .inr fun _ hheld => hheld

theorem callsOf_retry {id attempts : Nat} {call : Nat → TableCall} {owner : Option HTTPAdapter}
    (h : ∀ left, (call left).holds = owner) : CallsOf s (s.retry id attempts call answer).2 owner := by
  unfold retry
  split
  · exact callsOf_same owner
  · exact callsOf_same owner
  · exact h _ ▸ callsOf_setCall _

theorem callsOf_poolAdmit (adapter : HTTPAdapter) (input : PoolInput) (lifecycleEpoch manager : Nat) (hasPool : Bool)
    (owner : Option HTTPAdapter) : CallsOf s (s.poolAdmit adapter input lifecycleEpoch manager hasPool).2 owner := by
  cases hasPool with
  | true | false =>
      unfold poolAdmit
      simp only [Bool.false_eq_true, if_true, if_false]
      (repeat' split) <;> exact ⟨rfl, fun _ => .inl⟩

/-- A later section of a call holds what the call holds. -/
theorem callsOf_resume {id : Nat} {call : TableCall} {result : TableAnswer × AdapterTable}
    (h : s.resume id call op = some result) : CallsOf s result.2 call.holds := by
  unfold resume at h
  split at h
  · obtain rfl := Option.some.inj h
    exact ⟨rfl, fun _ => .inl⟩
  · obtain rfl := Option.some.inj h
    obtain ⟨⟨entries, left, heq, -⟩, -⟩ := shrinks_foldl s ‹_›
    rw [heq]
    exact ⟨rfl, fun _ => .inl⟩
  · obtain rfl := Option.some.inj h
    exact callsOf_poolAdmit _ _ _ _ _ _
  · obtain rfl := Option.some.inj h
    unfold closeLook
    split
    · exact callsOf_same _
    · exact callsOf_setCall (.closing _ _ _)
  · obtain rfl := Option.some.inj h
    unfold closeTake
    (repeat' split)
    · exact callsOf_same _
    · exact callsOf_same _
    · exact callsOf_same _
    · exact callsOf_same _
    · exact callsOf_retry fun _ => rfl
    · exact callsOf_same _
    · exact ⟨rfl, fun _ => .inl⟩
  · obtain rfl := Option.some.inj h
    unfold recordLook
    (repeat' split)
    · exact callsOf_same _
    · exact callsOf_same _
    · exact callsOf_setCall (.recording _ _ _ _ _)
  · obtain rfl := Option.some.inj h
    unfold recordStore
    (repeat' split)
    · exact callsOf_same _
    · exact callsOf_same _
    · exact callsOf_same _
    · exact callsOf_retry fun _ => rfl
    · exact ⟨rfl, fun _ => .inl⟩
  · cases h

/-- The first section of a call holds an adapter that is alive, if any. -/
theorem callsOf_begin {result : TableAnswer × AdapterTable} (h : s.begin op = some result) :
    ∃ owner, CallsOf s result.2 owner ∧ ∀ held, owner = some held → held ∈ s.alive := by
  have hof {adapter : HTTPAdapter} (halive : adapter ∈ s.alive) (held : HTTPAdapter) (hheld : some adapter = some held) :
      held ∈ s.alive := Option.some.inj hheld ▸ halive
  have hnone (held : HTTPAdapter) (hheld : none = some held) : held ∈ s.alive := by cases hheld
  cases op with
  | register adapter pristine =>
      obtain ⟨halive, rfl⟩ := of_alive h
      refine ⟨some adapter, ?_, hof halive⟩
      unfold register
      (repeat' split)
      · exact callsOf_same _
      · exact callsOf_wait (.registering adapter)
      · exact callsOf_same _
  | reference adapter =>
      obtain ⟨-, rfl⟩ := of_alive h
      exact ⟨none, callsOf_same _, hnone⟩
  | drop identity =>
      obtain rfl := Option.some.inj h
      refine ⟨none, ?_, hnone⟩
      unfold drop
      split <;> exact ⟨rfl, fun _ => .inl⟩
  | dropReference identity reference =>
      obtain rfl := Option.some.inj h
      refine ⟨none, ?_, hnone⟩
      unfold dropReference
      (repeat' split) <;> exact ⟨rfl, fun _ => .inl⟩
  | reap =>
      obtain rfl := Option.some.inj h
      exact ⟨none, callsOf_wait (.reaping _ _), hnone⟩
  | pool adapter input manager =>
      obtain ⟨halive, rfl⟩ := of_alive h
      refine ⟨some adapter, ?_, hof halive⟩
      unfold pool
      simp only
      (repeat' split)
      · exact callsOf_same _
      · exact callsOf_same _
      · exact callsOf_wait (.admitting adapter _ _ _ _)
  | close adapter =>
      obtain ⟨halive, rfl⟩ := of_alive h
      exact ⟨some adapter, callsOf_wait (.closing adapter _ _), hof halive⟩
  | create | free | fork | registerInsert | reapAsk | reapRemove | poolAdmit | record | recordLook | recordStore | closeLook
  | closeTake | clear => cases h

/-- Every call holds an adapter that is alive, and two that are alive have two addresses. -/
structure LiveHolds (s : AdapterTable) : Prop where
  held : ∀ call, some call ∈ s.calls → ∀ adapter, call.holds = some adapter → adapter ∈ s.alive
  apart : ∀ adapter ∈ s.alive, ∀ other ∈ s.alive, adapter.identity = other.identity → adapter = other

theorem LiveHolds.of_calls (h : s.LiveHolds) {owner : Option HTTPAdapter} (hcalls : CallsOf s s' owner)
    (howner : ∀ held, owner = some held → held ∈ s.alive) : s'.LiveHolds := by
  refine ⟨fun call hcall adapter hholds => ?_, hcalls.1 ▸ h.apart⟩
  rw [hcalls.1]
  obtain hold | hnew := hcalls.2 call hcall
  · exact h.held call hold adapter hholds
  · exact howner adapter (hnew adapter hholds)

theorem LiveHolds.of_none (h : s.LiveHolds) (hcalls : CallsOf s s' none) : s'.LiveHolds :=
  h.of_calls hcalls fun _ hheld => by cases hheld

theorem mem_calls {id : Nat} {call : TableCall} (h : s.call? id = some call) : some call ∈ s.calls :=
  List.mem_of_getElem? (Option.join_eq_some_iff.mp h)

theorem callsOf_without (id : Nat) : CallsOf s (s.setCall id none) none := by
  refine ⟨rfl, fun call hcall => ?_⟩
  obtain hold | hnew := List.mem_or_eq_of_mem_set hcall
  · exact .inl hold
  · cases hnew

theorem callsOf_ensure (s : AdapterTable) : CallsOf s s.ensureAdapterProcess none := by
  unfold ensureAdapterProcess
  split <;> exact ⟨rfl, fun _ => .inl⟩

theorem CallsOf.after {between : AdapterTable} {owner : Option HTTPAdapter} (hfirst : CallsOf s between none)
    (hnext : CallsOf between s' owner) : CallsOf s s' owner := by
  refine ⟨hnext.1.trans hfirst.1, fun call hcall => ?_⟩
  obtain hbetween | hnew := hnext.2 call hcall
  · obtain hold | hfree := hfirst.2 call hbetween
    · exact .inl hold
    · exact .inr fun held hheld => by cases hfree held hheld
  · exact .inr hnew

theorem callsOf_takeSection (h : s.LiveHolds) (hstep : s.takeSection op = some (answer, s')) :
    ∃ owner, CallsOf s s' owner ∧ ∀ held, owner = some held → held ∈ s.alive := by
  have hnone (held : HTTPAdapter) (hheld : none = some held) : held ∈ s.alive := by cases hheld
  unfold takeSection at hstep
  split at hstep
  · rename_i id hid
    obtain ⟨call, hcall, hlocked⟩ := Option.bind_eq_some_iff.mp hstep
    obtain ⟨result, hresume, hresult⟩ := Option.map_eq_some_iff.mp hlocked
    have hwithout : CallsOf s (s.setCall id none) none := callsOf_without id
    split at hresult
    · obtain ⟨-, rfl⟩ := Prod.mk.inj hresult
      exact ⟨none, hwithout, hnone⟩
    · subst hresult
      exact ⟨call.holds, hwithout.after (callsOf_resume hresume), h.held call (mem_calls hcall)⟩
  · obtain ⟨result, hbegin, hresult⟩ := Option.map_eq_some_iff.mp hstep
    have hensure := callsOf_ensure s
    split at hresult
    · obtain ⟨-, rfl⟩ := Prod.mk.inj hresult
      exact ⟨none, hensure, hnone⟩
    · subst hresult
      obtain ⟨owner, hcalls, howner⟩ := callsOf_begin hbegin
      exact ⟨owner, hensure.after hcalls, hensure.1 ▸ howner⟩

theorem liveHolds_step (h : s.LiveHolds) (hstep : s.step op = some (answer, s')) : s'.LiveHolds := by
  cases op with
  | create identity =>
      unfold step at hstep
      simp only at hstep
      split at hstep
      · cases hstep
      · rename_i hfree
        obtain ⟨-, rfl⟩ := Prod.mk.inj (Option.some.inj hstep)
        have hnew (adapter : HTTPAdapter) (hadapter : adapter ∈ s.alive) : adapter.identity ≠ identity := by
          intro hsame
          exact hfree (List.any_eq_true.mpr ⟨adapter, hadapter, decide_eq_true hsame⟩)
        refine ⟨fun call hcall adapter hholds => List.mem_append_left _ (h.held call hcall adapter hholds), ?_⟩
        intro adapter hadapter other hother hsame
        obtain hadapter | hadapter := List.mem_append.mp hadapter <;> obtain hother | hother := List.mem_append.mp hother
        · exact h.apart adapter hadapter other hother hsame
        · rw [List.mem_singleton.mp hother] at hsame
          exact absurd hsame (hnew adapter hadapter)
        · rw [List.mem_singleton.mp hadapter] at hsame
          exact absurd hsame.symm (hnew other hother)
        · rw [List.mem_singleton.mp hadapter, List.mem_singleton.mp hother]
  | free adapter =>
      unfold step at hstep
      simp only at hstep
      split at hstep
      · rename_i hfree
        obtain ⟨-, rfl⟩ := Prod.mk.inj (Option.some.inj hstep)
        refine ⟨fun call hcall other hholds => ?_, fun other hother another hanother =>
          h.apart other (List.mem_of_mem_erase hother) another (List.mem_of_mem_erase hanother)⟩
        have hne : other ≠ adapter := by
          rintro rfl
          have hbusy := List.all_eq_true.mp hfree.2 (some call) hcall
          rw [Option.bind_some, hholds, bne_self_eq_false] at hbusy
          cases hbusy
        exact (List.mem_erase_of_ne hne).mpr (h.held call hcall other hholds)
      · cases hstep
  | fork =>
      obtain ⟨-, rfl⟩ := Prod.mk.inj (Option.some.inj hstep)
      exact ⟨(fun _ hcall => by cases hcall), h.apart⟩
  | clear pool =>
      unfold step at hstep
      simp only at hstep
      split at hstep
      · obtain ⟨-, rfl⟩ := Prod.mk.inj (Option.some.inj hstep)
        exact ⟨h.held, h.apart⟩
      · cases hstep
  | reapAsk id =>
      unfold step at hstep
      simp only at hstep
      split at hstep
      · obtain ⟨-, rfl⟩ := Prod.mk.inj (Option.some.inj hstep)
        exact h.of_none (callsOf_setCall (.reaping _ _))
      · cases hstep
  | record adapter lifecycleEpoch manager =>
      unfold step at hstep
      simp only at hstep
      split at hstep
      · rename_i hready
        obtain ⟨-, rfl⟩ := Prod.mk.inj (Option.some.inj hstep)
        exact h.of_calls (callsOf_wait (.recording adapter _ _ _ _)) fun held hheld => Option.some.inj hheld ▸ hready.2
      · cases hstep
  | register | registerInsert | reference | drop | dropReference | reap | reapRemove | pool | poolAdmit | recordLook | recordStore
  | close | closeLook | closeTake =>
      unfold step at hstep
      obtain ⟨owner, hcalls, howner⟩ := callsOf_takeSection h hstep
      exact h.of_calls hcalls howner

/-! ### Registration -/

/-- The entry under the address of the adapter is its own. -/
def Registered (s : AdapterTable) (adapter : HTTPAdapter) : Prop :=
  ∃ entry, s.entries.lookup adapter.identity = some entry ∧ entry.weakAdapter.adapter = adapter

theorem Registered.of_same {adapter : HTTPAdapter} (h : s.Registered adapter) (hentries : s'.entries = s.entries) :
    s'.Registered adapter := by
  rw [Registered, hentries]
  exact h

theorem Registered.insert {adapter : HTTPAdapter} (h : s.Registered adapter) {identity : Nat} {entry : SideEntry}
    (hentries : s'.entries = s.entries.insert identity entry)
    (hsame : adapter.identity = identity → entry.weakAdapter.adapter = adapter) : s'.Registered adapter := by
  obtain ⟨old, hold, hadapter⟩ := h
  by_cases hidentity : adapter.identity = identity
  · exact ⟨entry, by rw [hentries, hidentity, AList.lookup_insert], hsame hidentity⟩
  · exact ⟨old, by rw [hentries, AList.lookup_insert_ne hidentity, hold], hadapter⟩

/-- An entry takes the place of one with the same weak reference. -/
theorem Registered.replace {adapter : HTTPAdapter} (h : s.Registered adapter) {identity : Nat} {old entry : SideEntry}
    (hold : s.entries.lookup identity = some old) (hweak : entry.weakAdapter = old.weakAdapter)
    (hentries : s'.entries = s.entries.insert identity entry) : s'.Registered adapter := by
  refine h.insert hentries fun hidentity => ?_
  obtain ⟨found, hfound, hadapter⟩ := h
  rw [hidentity, hold] at hfound
  rw [hweak, Option.some.inj hfound, hadapter]

theorem Registered.remove {adapter : HTTPAdapter} (h : s.Registered adapter) {identity : Nat} (entry : SideEntry)
    (hidentity : adapter.identity ≠ identity) : (s.remove identity entry).Registered adapter := by
  obtain ⟨old, hold, hadapter⟩ := h
  exact ⟨old, (AList.lookup_erase_ne hidentity).trans hold, hadapter⟩

theorem registered_foldl {adapter : HTTPAdapter} (dead : List (Nat × Nat))
    (h : ∃ entry, s.entries.lookup adapter.identity = some entry ∧ entry.weakAdapter.adapter = adapter ∧
      (adapter.identity, entry.lifecycleEpoch) ∉ dead) : (dead.foldl removeDead s).Registered adapter := by
  induction dead generalizing s with
  | nil =>
      obtain ⟨entry, hentry, hadapter, -⟩ := h
      exact ⟨entry, hentry, hadapter⟩
  | cons first dead ih =>
      obtain ⟨entry, hentry, hadapter, hdead⟩ := h
      obtain ⟨hfirst, hrest⟩ := not_or.mp (mt List.mem_cons.mpr hdead)
      refine ih ⟨entry, ?_, hadapter, hrest⟩
      unfold removeDead
      split
      · exact hentry
      · rename_i found hfound
        split
        · rename_i hepoch
          refine (AList.lookup_erase_ne fun hidentity => hfirst ?_).trans hentry
          rw [← hidentity, hentry] at hfound
          rw [Option.some.inj hfound, hepoch, hidentity]
        · exact hentry

theorem Registered.retry {adapter : HTTPAdapter} (h : s.Registered adapter) {id attempts : Nat} {call : Nat → TableCall} :
    (s.retry id attempts call answer).2.Registered adapter := by
  unfold AdapterTable.retry
  split <;> exact h

theorem Registered.poolAdmit {adapter : HTTPAdapter} (h : s.Registered adapter) (other : HTTPAdapter) (input : PoolInput)
    (lifecycleEpoch manager : Nat) (hasPool : Bool) :
    (s.poolAdmit other input lifecycleEpoch manager hasPool).2.Registered adapter := by
  unfold AdapterTable.poolAdmit
  simp only [numbered_eq]
  split
  · exact h
  · rename_i entry hentry
    split
    · exact h
    · split
      · exact h
      · refine h.replace hentry ?_ rfl
        cases input.selectedProxy <;> rfl

/-- A later section of a call leaves the entry of an adapter that is alive. -/
theorem Registered.resume {adapter : HTTPAdapter} (h : s.Registered adapter) (halive : adapter ∈ s.alive) (hlive : s.LiveHolds)
    {id : Nat} {call : TableCall} (hcall : s.CallHolds call) (hheld : ∀ held, call.holds = some held → held ∈ s.alive)
    {result : TableAnswer × AdapterTable} (hresume : s.resume id call op = some result) : result.2.Registered adapter := by
  unfold AdapterTable.resume at hresume
  split at hresume
  · -- another adapter at this address would be alive too
    rename_i other _ _
    obtain rfl := Option.some.inj hresume
    exact h.insert rfl fun hidentity => (hlive.apart adapter halive other (hheld other rfl) hidentity).symm
  · -- the dead are not alive
    obtain rfl := Option.some.inj hresume
    obtain ⟨entry, hentry, hadapter⟩ := h
    refine registered_foldl _ ⟨entry, hentry, hadapter, fun hdead => ?_⟩
    obtain ⟨other, hlineage, hgone⟩ := hcall.2 _ _ hdead
    rw [← hlineage.weak entry hentry rfl, hadapter] at hgone
    exact hgone halive
  · obtain rfl := Option.some.inj hresume
    exact h.poolAdmit _ _ _ _ _
  · obtain rfl := Option.some.inj hresume
    unfold closeLook
    split <;> exact h
  · obtain rfl := Option.some.inj hresume
    unfold closeTake
    split
    · exact h
    · split
      · exact h
      · rename_i entry hentry
        (repeat' split)
        · exact h
        · exact h
        · exact h.retry
        · exact h
        · refine h.replace hentry ?_ rfl
          rfl
  · obtain rfl := Option.some.inj hresume
    unfold recordLook
    (repeat' split) <;> exact h
  · obtain rfl := Option.some.inj hresume
    unfold recordStore
    split
    · exact h
    · split
      · exact h
      · rename_i entry hentry
        (repeat' split)
        · exact h
        · exact h.retry
        · refine h.replace hentry ?_ rfl
          rfl
  · cases hresume

/-- The input neither ends the process or the adapter nor drops its entry. -/
def Spares (adapter : HTTPAdapter) (s : AdapterTable) (op : TableOp) : Prop :=
  Unwrapped s op ∧ op ≠ .fork ∧ op ≠ .free adapter ∧ op ≠ .drop adapter.identity ∧
    (s.entries.lookup adapter.identity).all fun entry =>
      decide (op ≠ .dropReference adapter.identity entry.weakAdapter.reference)

instance (adapter : HTTPAdapter) (s : AdapterTable) (op : TableOp) : Decidable (Spares adapter s op) := by
  unfold Spares
  infer_instance

/-- The first section of a call leaves the entry, unless it drops it. -/
theorem Registered.begin {adapter : HTTPAdapter} (h : s.Registered adapter) (hspares : s.Spares adapter op)
    {result : TableAnswer × AdapterTable} (hbegin : s.begin op = some result) : result.2.Registered adapter := by
  obtain ⟨-, -, -, hdrop, hreference⟩ := hspares
  cases op with
  | register other pristine =>
      obtain ⟨-, rfl⟩ := of_alive hbegin
      unfold register
      (repeat' split) <;> exact h
  | reference other =>
      obtain ⟨-, rfl⟩ := of_alive hbegin
      exact h
  | drop identity =>
      obtain rfl := Option.some.inj hbegin
      have hidentity : adapter.identity ≠ identity := fun heq => hdrop (congrArg TableOp.drop heq.symm)
      unfold AdapterTable.drop
      split
      · exact h
      · exact h.remove _ hidentity
  | dropReference identity reference =>
      obtain rfl := Option.some.inj hbegin
      unfold AdapterTable.dropReference
      split
      · exact h
      · rename_i entry hentry
        split
        · rename_i hsame
          refine h.remove _ fun hidentity => ?_
          rw [hidentity, hentry, Option.all_some, decide_eq_true_eq, hsame] at hreference
          exact hreference rfl
        · exact h
  | reap =>
      obtain rfl := Option.some.inj hbegin
      exact h
  | pool other input manager =>
      obtain ⟨-, rfl⟩ := of_alive hbegin
      unfold pool
      simp only
      (repeat' split) <;> exact h
  | close other =>
      obtain ⟨-, rfl⟩ := of_alive hbegin
      exact h
  | create | free | fork | registerInsert | reapAsk | reapRemove | poolAdmit | record | recordLook | recordStore | closeLook
  | closeTake | clear => cases hbegin

/-- What is in order for an adapter that is registered. -/
structure StaysRegistered (s : AdapterTable) (adapter : HTTPAdapter) : Prop where
  table : s.TableHolds
  live : s.LiveHolds
  alive : adapter ∈ s.alive
  ensured : s.ensured = true
  registered : s.Registered adapter

theorem ensureAdapterProcess_ensured (h : s.ensured = true) : s.ensureAdapterProcess = s := if_pos (by rw [h, Bool.true_or])

theorem Registered.takeSection {adapter : HTTPAdapter} (h : s.StaysRegistered adapter) (hspares : s.Spares adapter op)
    (hstep : s.takeSection op = some (answer, s')) : s'.Registered adapter := by
  unfold AdapterTable.takeSection at hstep
  split at hstep
  · rename_i id hid
    obtain ⟨call, hcall, hlocked⟩ := Option.bind_eq_some_iff.mp hstep
    obtain ⟨result, hresume, hresult⟩ := Option.map_eq_some_iff.mp hlocked
    have hsame : (s.setCall id none).Registered adapter := h.registered
    split at hresult
    · obtain ⟨-, rfl⟩ := Prod.mk.inj hresult
      exact hsame
    · subst hresult
      exact hsame.resume h.alive (h.live.of_none (callsOf_without id)) (entered_without h.table hcall).2
        (h.live.held call (mem_calls hcall)) hresume
  · obtain ⟨result, hbegin, hresult⟩ := Option.map_eq_some_iff.mp hstep
    rw [ensureAdapterProcess_ensured h.ensured] at hbegin hresult
    split at hresult
    · obtain ⟨-, rfl⟩ := Prod.mk.inj hresult
      exact h.registered
    · subst hresult
      exact h.registered.begin hspares hbegin

theorem ensured_takeSection (h : s.TableHolds) (hensured : s.ensured = true) (hroom : s.nextEpoch + 1 < 2 ^ 64)
    (hstep : s.takeSection op = some (answer, s')) : s'.ensured = true := by
  unfold AdapterTable.takeSection at hstep
  split at hstep
  · rename_i id hid
    obtain ⟨call, hcall, hlocked⟩ := Option.bind_eq_some_iff.mp hstep
    obtain ⟨result, hresume, hresult⟩ := Option.map_eq_some_iff.mp hlocked
    obtain ⟨hentered, hholds⟩ := entered_without h hcall
    split at hresult
    · obtain ⟨-, rfl⟩ := Prod.mk.inj hresult
      exact hensured
    · subst hresult
      exact (section_of_resume hentered.holds (hentered.room hroom) hholds hresume).ensured.trans hensured
  · obtain ⟨result, hbegin, hresult⟩ := Option.map_eq_some_iff.mp hstep
    rw [ensureAdapterProcess_ensured hensured] at hbegin hresult
    split at hresult
    · obtain ⟨-, rfl⟩ := Prod.mk.inj hresult
      exact hensured
    · subst hresult
      exact (section_of_begin h hbegin).ensured.trans hensured

theorem StaysRegistered.step {adapter : HTTPAdapter} (h : s.StaysRegistered adapter) (hspares : s.Spares adapter op)
    (hstep : s.step op = some (answer, s')) : s'.StaysRegistered adapter := by
  have htable := (stepHolds h.table hspares.1 hstep).holds
  have hlive := liveHolds_step h.live hstep
  cases op with
  | create identity =>
      unfold AdapterTable.step at hstep
      simp only at hstep
      split at hstep
      · cases hstep
      · obtain ⟨-, rfl⟩ := Prod.mk.inj (Option.some.inj hstep)
        exact ⟨htable, hlive, List.mem_append_left _ h.alive, h.ensured, h.registered⟩
  | free other =>
      unfold AdapterTable.step at hstep
      simp only at hstep
      split at hstep
      · obtain ⟨-, rfl⟩ := Prod.mk.inj (Option.some.inj hstep)
        have hother : adapter ≠ other := fun heq => hspares.2.2.1 (congrArg TableOp.free heq.symm)
        exact ⟨htable, hlive, (List.mem_erase_of_ne hother).mpr h.alive, h.ensured, h.registered⟩
      · cases hstep
  | fork => exact absurd rfl hspares.2.1
  | clear pool =>
      unfold AdapterTable.step at hstep
      simp only at hstep
      split at hstep
      · obtain ⟨-, rfl⟩ := Prod.mk.inj (Option.some.inj hstep)
        exact ⟨htable, hlive, h.alive, h.ensured, h.registered⟩
      · cases hstep
  | reapAsk id =>
      unfold AdapterTable.step at hstep
      simp only at hstep
      split at hstep
      · obtain ⟨-, rfl⟩ := Prod.mk.inj (Option.some.inj hstep)
        exact ⟨htable, hlive, h.alive, h.ensured, h.registered⟩
      · cases hstep
  | record other lifecycleEpoch manager =>
      unfold AdapterTable.step at hstep
      simp only at hstep
      split at hstep
      · obtain ⟨-, rfl⟩ := Prod.mk.inj (Option.some.inj hstep)
        exact ⟨htable, hlive, h.alive, h.ensured, h.registered⟩
      · cases hstep
  | register | registerInsert | reference | drop | dropReference | reap | reapRemove | pool | poolAdmit | recordLook | recordStore
  | close | closeLook | closeTake =>
      unfold AdapterTable.step at hstep
      obtain ⟨owner, hcalls, -⟩ := callsOf_takeSection h.live hstep
      exact ⟨htable, hlive, hcalls.1 ▸ h.alive, ensured_takeSection h.table h.ensured hspares.1 hstep, .takeSection h hspares hstep⟩

theorem liveHolds_run (hrun : machine.Run {} trace s) : s.LiveHolds :=
  hrun.invariant LiveHolds ⟨(fun _ hcall => by cases hcall), fun _ hadapter => by cases hadapter⟩
    fun _ _ _ _ h hstep => liveHolds_step h hstep

end AdapterTable

open AdapterTable

/-- An adapter that is alive stays registered, whatever the other calls, the reaping and the adapters at other addresses do,
until its entry is dropped by its address or by its reference. -/
theorem registration_survives {trace later : TableTrace} {s t : AdapterTable} {adapter : HTTPAdapter}
    (hrun : machine.RunWhere Unwrapped {} trace s) (halive : adapter ∈ s.alive) (hensured : s.ensured = true)
    (hregistered : s.Registered adapter) (hlater : machine.RunWhere (Spares adapter) s later t) : t.Registered adapter := by
  have hstays : t.StaysRegistered adapter := by
    induction hlater with
    | nil => exact ⟨(runHolds hrun).table, liveHolds_run hrun.run, halive, hensured, hregistered⟩
    | snoc _ hspares hstep ih => exact ih.step hspares hstep
  exact hstays.registered

private def alone : HTTPAdapter := ⟨0, 7⟩

private def neighbour : HTTPAdapter := ⟨1, 8⟩

private def aloneOps : List TableOp := [.create 7, .register alone true, .registerInsert 0 3]

private def neighbourOps : List TableOp :=
  [.create 8, .register neighbour true, .registerInsert 1 4, .free neighbour, .reap, .reapAsk 2, .reapAsk 2, .reapRemove 2]

/-- Its neighbour is freed and reaped. -/
theorem alone_stays_registered : ∃ trace later, ∃ s t : AdapterTable, machine.RunWhere Unwrapped {} trace s ∧
    machine.RunWhere (Spares alone) s later t ∧ (.reapRemove 2, .reaped) ∈ later ∧ t.entries.keys = [7] ∧
    t.Registered alone := by
  have hexec : ∃ s trace, ∃ t later, machine.exec {} aloneOps = some (trace, s) ∧ alone ∈ s.alive ∧ s.ensured = true ∧
      s.Registered alone ∧ machine.exec s neighbourOps = some (later, t) ∧ machine.meets (Spares alone) s neighbourOps = true ∧
      (.reapRemove 2, .reaped) ∈ later ∧ t.entries.keys = [7] :=
    ⟨_, _, _, _, rfl, by decide, rfl, ⟨_, rfl, rfl⟩, rfl, by decide, by decide, rfl⟩
  obtain ⟨s, trace, t, later, hfirst, halive, hensured, hregistered, hlater, hmeets, hreaped, hkeys⟩ := hexec
  have hrun := Machine.runWhere_of_exec (P := Unwrapped) hfirst (by decide)
  have hspares := Machine.runWhere_of_exec (P := Spares alone) hlater hmeets
  exact ⟨trace, later, s, t, hrun, hspares, hreaped, hkeys, registration_survives hrun halive hensured hregistered hspares⟩

end RequestsNative.Python
