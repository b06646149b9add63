import Mathlib.Data.List.Basic
import Mathlib.Data.List.Induction
import Mathlib.Data.List.Nodup

/-!
# Maps in the order of insertion

A map that is walked in the order in which its keys came in. Inserting a key that is there puts the new value in the place
of the old one. A map made by insertions therefore has its keys in the order they were first written, each with the value that
was written last.
-/

namespace RequestsNative.Lib

structure IndexMap (κ ν : Type*) where
  entries : List (κ × ν)
  nodup : (entries.map Prod.fst).Nodup

namespace IndexMap

variable {κ ν : Type*}

def empty : IndexMap κ ν := ⟨[], List.nodup_nil⟩

variable [DecidableEq κ]

/-- Write a value under a key, in the place of the old one or at the end. -/
def write (entries : List (κ × ν)) (key : κ) (value : ν) : List (κ × ν) :=
  if key ∈ entries.map Prod.fst then entries.map fun entry => if entry.1 = key then (key, value) else entry
  else entries ++ [(key, value)]

/-- Replacing a value keeps the key. -/
theorem fst_replaced (entry : κ × ν) (key : κ) (value : ν) : (if entry.1 = key then (key, value) else entry).1 = entry.1 := by
  split
  · rename_i hkey
    exact hkey.symm
  · rfl

theorem map_fst_write (entries : List (κ × ν)) (key : κ) (value : ν) :
    (write entries key value).map Prod.fst =
      if key ∈ entries.map Prod.fst then entries.map Prod.fst else entries.map Prod.fst ++ [key] := by
  unfold write
  split
  · rw [List.map_map]
    exact List.map_congr_left fun entry _ => fst_replaced entry key value
  · rw [List.map_append]
    rfl

def insert (map : IndexMap κ ν) (key : κ) (value : ν) : IndexMap κ ν where
  entries := write map.entries key value
  nodup := by
    rw [map_fst_write]
    split
    · exact map.nodup
    · rename_i hnew
      exact map.nodup.append (List.nodup_singleton key) (List.disjoint_singleton.mpr hnew)

/-- The writes, one after the other. -/
def insertAll (map : IndexMap κ ν) (writes : List (κ × ν)) : IndexMap κ ν :=
  writes.foldl (fun map item => map.insert item.1 item.2) map

/-- The place of the first write of a key. -/
def firstWrite (writes : List (κ × ν)) (key : κ) : Nat := writes.findIdx fun item => item.1 = key

/-- The entries are the last writes of the keys, in the order of the first ones. -/
structure LastWrites (writes entries : List (κ × ν)) : Prop where
  keys : ∀ key, key ∈ entries.map Prod.fst ↔ key ∈ writes.map Prod.fst
  ordered : entries.Pairwise fun a b => firstWrite writes a.1 < firstWrite writes b.1
  last : ∀ entry ∈ entries, ∃ before after, writes = before ++ entry :: after ∧ entry.1 ∉ after.map Prod.fst

theorem firstWrite_lt_iff {writes : List (κ × ν)} {key : κ} :
    firstWrite writes key < writes.length ↔ key ∈ writes.map Prod.fst := by
  rw [firstWrite, List.findIdx_lt_length, List.mem_map]
  simp only [decide_eq_true_eq]

theorem le_firstWrite {writes : List (κ × ν)} {key : κ} (h : key ∉ writes.map Prod.fst) (more : List (κ × ν)) :
    writes.length ≤ firstWrite (writes ++ more) key := by
  rw [← firstWrite_lt_iff, firstWrite] at h
  rw [firstWrite, List.findIdx_append, if_neg h]
  exact Nat.le_add_left _ _

theorem firstWrite_append {writes : List (κ × ν)} {key : κ} (h : key ∈ writes.map Prod.fst) (more : List (κ × ν)) :
    firstWrite (writes ++ more) key = firstWrite writes key := by
  rw [← firstWrite_lt_iff, firstWrite] at h
  rw [firstWrite, List.findIdx_append, if_pos h]
  rfl

omit [DecidableEq κ] in
theorem keep_last {writes : List (κ × ν)} {entry item : κ × ν} (hne : entry.1 ≠ item.1)
    (h : ∃ before after, writes = before ++ entry :: after ∧ entry.1 ∉ after.map Prod.fst) :
    ∃ before after, writes ++ [item] = before ++ entry :: after ∧ entry.1 ∉ after.map Prod.fst := by
  obtain ⟨before, after, rfl, hlast⟩ := h
  refine ⟨before, after ++ [item], by rw [List.append_assoc, List.cons_append], ?_⟩
  rw [List.map_append, List.mem_append, not_or]
  exact ⟨hlast, fun hmem => hne (List.mem_singleton.mp hmem)⟩

theorem LastWrites.mem {writes entries : List (κ × ν)} (h : LastWrites writes entries) {entry : κ × ν} (hentry : entry ∈ entries) :
    entry.1 ∈ writes.map Prod.fst := (h.keys _).1 (List.mem_map_of_mem hentry)

theorem keys_write {writes entries : List (κ × ν)} (hkeys : ∀ key, key ∈ entries.map Prod.fst ↔ key ∈ writes.map Prod.fst)
    (key : κ) (value : ν) (other : κ) :
    other ∈ (write entries key value).map Prod.fst ↔ other ∈ (writes ++ [(key, value)]).map Prod.fst := by
  rw [map_fst_write, List.map_append, List.mem_append, ← hkeys other]
  split
  · rename_i hthere
    refine ⟨.inl, fun hmem => hmem.elim (fun hbefore => hbefore) fun hnew => ?_⟩
    rwa [List.mem_singleton.mp hnew]
  · exact List.mem_append

/-- A key that is there keeps its place, and a new one goes behind the others. -/
theorem LastWrites.ordered_write {writes entries : List (κ × ν)} (h : LastWrites writes entries) (key : κ) (value : ν) :
    (IndexMap.write entries key value).Pairwise fun a b =>
      firstWrite (writes ++ [(key, value)]) a.1 < firstWrite (writes ++ [(key, value)]) b.1 := by
  have hordered : entries.Pairwise fun a b =>
      firstWrite (writes ++ [(key, value)]) a.1 < firstWrite (writes ++ [(key, value)]) b.1 := by
    refine h.ordered.imp_of_mem fun {a b} ha hb hlt => ?_
    rw [firstWrite_append (h.mem ha), firstWrite_append (h.mem hb)]
    exact hlt
  unfold IndexMap.write
  split
  · refine List.pairwise_map.mpr (hordered.imp fun {a b} hlt => ?_)
    rw [fst_replaced, fst_replaced]
    exact hlt
  · rename_i hnew
    refine List.pairwise_append.mpr ⟨hordered, List.pairwise_singleton _ _, fun a ha b hb => ?_⟩
    rw [List.mem_singleton.mp hb, firstWrite_append (h.mem ha)]
    have hafter := le_firstWrite (fun hmem => hnew ((h.keys key).2 hmem)) [(key, value)]
    exact Nat.lt_of_lt_of_le (firstWrite_lt_iff.mpr (h.mem ha)) hafter

/-- The new value was written last, and the values of the other keys are as they were. -/
theorem last_write {writes entries : List (κ × ν)}
    (hlast : ∀ entry ∈ entries, ∃ before after, writes = before ++ entry :: after ∧ entry.1 ∉ after.map Prod.fst)
    (key : κ) (value : ν) {entry : κ × ν} (hentry : entry ∈ write entries key value) :
    ∃ before after, writes ++ [(key, value)] = before ++ entry :: after ∧ entry.1 ∉ after.map Prod.fst := by
  have hnewLast : ∃ before after, writes ++ [(key, value)] = before ++ (key, value) :: after ∧ key ∉ after.map Prod.fst :=
    ⟨writes, [], rfl, List.not_mem_nil⟩
  unfold write at hentry
  split at hentry
  · obtain ⟨old, hmem, rfl⟩ := List.mem_map.mp hentry
    split
    · exact hnewLast
    · rename_i hne
      exact keep_last hne (hlast old hmem)
  · rename_i hnew
    rcases List.mem_append.mp hentry with hmem | hmem
    · refine keep_last (fun hkey => hnew ?_) (hlast entry hmem)
      exact List.mem_map.mpr ⟨entry, hmem, hkey⟩
    · rw [List.mem_singleton.mp hmem]
      exact hnewLast

/-- One more write. -/
theorem LastWrites.write {writes entries : List (κ × ν)} (h : LastWrites writes entries) (key : κ) (value : ν) :
    LastWrites (writes ++ [(key, value)]) (IndexMap.write entries key value) :=
  ⟨keys_write h.keys key value, h.ordered_write key value, fun _ => last_write h.last key value⟩

/-- All writes. -/
theorem lastWrites_insertAll (writes : List (κ × ν)) : LastWrites writes (insertAll empty writes).entries := by
  induction writes using List.reverseRecOn with
  | nil => exact ⟨fun key => Iff.rfl, List.Pairwise.nil, fun entry hentry => absurd hentry List.not_mem_nil⟩
  | append_singleton writes item ih =>
      rw [insertAll, List.foldl_append]
      exact ih.write item.1 item.2

/-- Writing the entries of a map makes the map. -/
theorem insertAll_self {entries : List (κ × ν)} (hnodup : (entries.map Prod.fst).Nodup) :
    (insertAll empty entries).entries = entries := by
  induction entries using List.reverseRecOn with
  | nil => rfl
  | append_singleton entries item ih =>
      rw [List.map_append, List.map_singleton, List.nodup_append] at hnodup
      have hnew : item.1 ∉ entries.map Prod.fst := fun hmem => hnodup.2.2 item.1 hmem item.1 List.mem_cons_self rfl
      rw [insertAll, List.foldl_append, ← insertAll]
      change IndexMap.write (insertAll empty entries).entries item.1 item.2 = _
      rw [ih hnodup.1, IndexMap.write, if_neg hnew]

theorem lastWrites_self (map : IndexMap κ ν) : LastWrites map.entries map.entries := by
  have hwrites := lastWrites_insertAll map.entries
  rwa [insertAll_self map.nodup] at hwrites

end IndexMap

end RequestsNative.Lib
