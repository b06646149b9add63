import RequestsNative.Lib.IndexMap

/-!
# Maps in the order of a rank

A map in the order of insertion can be kept in descending order of a rank of its keys: a key is written, and then every key of lower
rank is taken out and written again, behind the others. Keys of the same rank stay in the order in which they were first written,
and all keys have the value that was written last.
-/

namespace RequestsNative.Lib.IndexMap

variable {κ ν : Type*} [DecidableEq κ]

/-! ### Moving keys -/

/-- Take a key out, with its value. -/
def pop (map : IndexMap κ ν) (key : κ) : Option (ν × IndexMap κ ν) :=
  (map.entries.find? fun entry => entry.1 = key).map fun entry =>
    (entry.2, ⟨map.entries.filter fun other => other.1 ≠ key, map.nodup.sublist (List.filter_sublist.map _)⟩)

/-- Take a key out and write it again. -/
def moveToEnd (map : IndexMap κ ν) (key : κ) : Option (IndexMap κ ν) :=
  (map.pop key).map fun popped => popped.2.insert key popped.1

theorem moveToEnd_eq {map : IndexMap κ ν} {front back : List (κ × ν)} {entry : κ × ν} (h : map.entries = front ++ entry :: back) :
    ∃ moved, map.moveToEnd entry.1 = some moved ∧ moved.entries = front ++ back ++ [entry] := by
  have hnodup := map.nodup
  rw [h, List.map_append, List.map_cons, List.nodup_middle, List.nodup_cons, List.mem_append, not_or] at hnodup
  obtain ⟨⟨hfront, hback⟩, -⟩ := hnodup
  have hne : ∀ {other : κ × ν} {others : List (κ × ν)}, entry.1 ∉ others.map Prod.fst → other ∈ others → other.1 ≠ entry.1 :=
    fun hnew hother heq => hnew (List.mem_map.mpr ⟨_, hother, heq⟩)
  have hfind : map.entries.find? (fun other => other.1 = entry.1) = some entry := by
    rw [h, List.find?_append, List.find?_eq_none.mpr fun other hother => by simpa using hne hfront hother]
    simp
  have hothers : map.entries.filter (fun other => other.1 ≠ entry.1) = front ++ back := by
    rw [h, List.filter_append, List.filter_cons_of_neg (by simp), List.filter_eq_self.mpr, List.filter_eq_self.mpr]
    · exact fun other hother => decide_eq_true (hne hback hother)
    · exact fun other hother => decide_eq_true (hne hfront hother)
  refine ⟨_, by rw [moveToEnd, pop, hfind]; rfl, ?_⟩
  have hnew : entry.1 ∉ (front ++ back).map Prod.fst := by
    rw [List.map_append, List.mem_append, not_or]
    exact ⟨hfront, hback⟩
  simp only [insert, hothers]
  rw [write, if_neg hnew]

/-- The keys with a property, moved one after the other. -/
theorem moveAll (p : κ → Bool) (map : IndexMap κ ν) : ∃ moved,
    ((map.entries.map Prod.fst).filter p).foldlM moveToEnd map = some moved ∧
      moved.entries = map.entries.filter (fun entry => !p entry.1) ++ map.entries.filter (fun entry => p entry.1) := by
  -- What was passed stays in front, and what was moved is at the end.
  suffices hrest : ∀ (rest kept last : List (κ × ν)) (map : IndexMap κ ν), map.entries = kept ++ rest ++ last → ∃ moved,
      ((rest.map Prod.fst).filter p).foldlM moveToEnd map = some moved ∧
        moved.entries = kept ++ rest.filter (fun entry => !p entry.1) ++ (last ++ rest.filter fun entry => p entry.1) by
    obtain ⟨moved, hmoved, hentries⟩ := hrest map.entries [] [] map (by simp)
    exact ⟨moved, hmoved, by simpa using hentries⟩
  intro rest
  induction rest with
  | nil =>
      intro kept last map hmap
      exact ⟨map, rfl, by simpa using hmap⟩
  | cons entry rest ih =>
      intro kept last map hmap
      cases hp : p entry.1 with
      | true =>
          have hsplit : map.entries = kept ++ entry :: (rest ++ last) := by
            rw [hmap, List.append_assoc, List.cons_append]
          obtain ⟨next, hnext, hentries⟩ := moveToEnd_eq hsplit
          obtain ⟨moved, hmoved, hall⟩ := ih kept (last ++ [entry]) next (by simp [hentries])
          refine ⟨moved, ?_, ?_⟩
          · rw [List.map_cons, List.filter_cons_of_pos hp, List.foldlM_cons, hnext]
            exact hmoved
          · simp [hall, hp]
      | false =>
          obtain ⟨moved, hmoved, hall⟩ := ih (kept ++ [entry]) last map (by simp [hmap])
          refine ⟨moved, ?_, ?_⟩
          · rw [List.map_cons, List.filter_cons_of_neg (by simp [hp])]
            exact hmoved
          · simp [hall, hp]

/-! ### Ranks -/

section Rank

variable (rank : κ → Nat)

/-- The entries are the last writes of the keys, by descending rank and then in the order of the first writes. -/
structure RankedWrites (writes entries : List (κ × ν)) : Prop where
  keys : ∀ key, key ∈ entries.map Prod.fst ↔ key ∈ writes.map Prod.fst
  ordered : entries.Pairwise fun a b =>
    rank b.1 < rank a.1 ∨ rank a.1 = rank b.1 ∧ firstWrite writes a.1 < firstWrite writes b.1
  last : ∀ entry ∈ entries, ∃ before after, writes = before ++ entry :: after ∧ entry.1 ∉ after.map Prod.fst

variable {rank}

theorem RankedWrites.sorted {writes entries : List (κ × ν)} (h : RankedWrites rank writes entries) :
    entries.Pairwise fun a b => rank b.1 ≤ rank a.1 :=
  h.ordered.imp fun {_ _} hab => hab.elim Nat.le_of_lt fun heq => Nat.le_of_eq heq.1.symm

/-- A map in order is the one its entries write. -/
theorem rankedWrites_self {map : IndexMap κ ν} (hsorted : map.entries.Pairwise fun a b => rank b.1 ≤ rank a.1) :
    RankedWrites rank map.entries map.entries := by
  have hwrites := lastWrites_self map
  refine ⟨hwrites.keys, ?_, hwrites.last⟩
  refine (hsorted.and hwrites.ordered).imp fun {a b} hab => ?_
  obtain hlt | heq := Nat.lt_or_eq_of_le hab.1
  · exact .inl hlt
  · exact .inr ⟨heq.symm, hab.2⟩

/-- A key that is there keeps its place. A new one goes to the end, where only keys of lower rank are in front of it that must
not be. -/
theorem RankedWrites.ordered_write {writes entries : List (κ × ν)} (h : RankedWrites rank writes entries) (key : κ) (value : ν) :
    (IndexMap.write entries key value).Pairwise fun a b => (b.1 = key ∧ rank a.1 < rank key) ∨ rank b.1 < rank a.1 ∨
      rank a.1 = rank b.1 ∧ firstWrite (writes ++ [(key, value)]) a.1 < firstWrite (writes ++ [(key, value)]) b.1 := by
  have hmem : ∀ {entry : κ × ν}, entry ∈ entries → entry.1 ∈ writes.map Prod.fst :=
    fun hentry => (h.keys _).1 (List.mem_map_of_mem hentry)
  have hbefore : entries.Pairwise fun a b => (b.1 = key ∧ rank a.1 < rank key) ∨ rank b.1 < rank a.1 ∨
      rank a.1 = rank b.1 ∧ firstWrite (writes ++ [(key, value)]) a.1 < firstWrite (writes ++ [(key, value)]) b.1 := by
    refine h.ordered.imp_of_mem fun {a b} ha hb hab => .inr ?_
    rwa [firstWrite_append (hmem ha), firstWrite_append (hmem hb)]
  unfold IndexMap.write
  split
  · refine List.pairwise_map.mpr (hbefore.imp fun {a b} hab => ?_)
    rw [fst_replaced, fst_replaced]
    exact hab
  · rename_i hnew
    refine List.pairwise_append.mpr ⟨hbefore, List.pairwise_singleton _ _, fun a ha b hb => ?_⟩
    obtain rfl := List.mem_singleton.mp hb
    obtain hlt | heq | hgt := Nat.lt_trichotomy (rank a.1) (rank key)
    · exact .inl ⟨rfl, hlt⟩
    · have hafter := le_firstWrite (fun hmem => hnew ((h.keys key).2 hmem)) [(key, value)]
      rw [firstWrite_append (hmem ha)]
      exact .inr (.inr ⟨heq, Nat.lt_of_lt_of_le (firstWrite_lt_iff.mpr (hmem ha)) hafter⟩)
    · exact .inr (.inl hgt)

/-- One more write, and the keys of lower rank moved behind the others. -/
theorem RankedWrites.write {writes entries : List (κ × ν)} (h : RankedWrites rank writes entries) (key : κ) (value : ν) :
    RankedWrites rank (writes ++ [(key, value)])
      ((IndexMap.write entries key value).filter (fun entry => !decide (rank entry.1 < rank key)) ++
        (IndexMap.write entries key value).filter fun entry => decide (rank entry.1 < rank key)) := by
  have hordered := h.ordered_write key value
  have hkeys := keys_write h.keys key value
  have hlast : ∀ entry ∈ IndexMap.write entries key value, _ := fun entry hentry => last_write h.last key value hentry
  generalize IndexMap.write entries key value = written at hordered hkeys hlast
  have hperm := List.perm_append_comm.trans
    (List.filter_append_perm (fun entry : κ × ν => decide (rank entry.1 < rank key)) written)
  refine ⟨fun other => ?_, List.pairwise_append.mpr ⟨?_, ?_, ?_⟩, fun entry hentry => hlast entry (hperm.mem_iff.mp hentry)⟩
  · rw [(hperm.map Prod.fst).mem_iff]
    exact hkeys other
  · refine (hordered.filter _).imp_of_mem fun {a b} ha _ hab => hab.resolve_left fun hlow => ?_
    have hkept := (List.mem_filter.mp ha).2
    simp [hlow.2] at hkept
  · refine (hordered.filter _).imp_of_mem fun {a b} _ hb hab => hab.resolve_left fun hlow => ?_
    have hmoved := (List.mem_filter.mp hb).2
    simp [hlow.1] at hmoved
  · intro a ha b hb
    have hkept := (List.mem_filter.mp ha).2
    have hmoved := (List.mem_filter.mp hb).2
    simp only [Bool.not_eq_true', decide_eq_false_iff_not, decide_eq_true_eq] at hkept hmoved
    exact .inl (by omega)

end Rank

end RequestsNative.Lib.IndexMap
