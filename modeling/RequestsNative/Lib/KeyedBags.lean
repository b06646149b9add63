import Mathlib.Data.List.AList

/-!
# Finite maps whose values hold items

A hash map from keys to values, each value holding a list of items: the association list of Mathlib,
which carries the uniqueness of its keys. `items` is everything the map holds. The order in which a
hash map is walked is not part of its meaning, so every statement about `items` is up to permutation.
-/

namespace RequestsNative.Lib

variable {Key Value Item : Type} [DecidableEq Key]

/-- A finite map. -/
abbrev KeyMap (Key Value : Type) := AList fun _ : Key => Value

namespace KeyMap

/-- Everything the values of the map hold. -/
def items (contents : Value → List Item) (map : KeyMap Key Value) : List Item :=
  map.entries.flatMap fun entry => contents entry.2

/-- What the map holds under one key. -/
def itemsAt (contents : Value → List Item) (map : KeyMap Key Value) (key : Key) : List Item :=
  (map.lookup key).elim [] contents

/-- Update every value in place, as a walk over `values_mut` does. -/
def mapValues (f : Value → Value) (map : KeyMap Key Value) : KeyMap Key Value where
  entries := map.entries.map fun entry => ⟨entry.1, f entry.2⟩
  nodupKeys := by
    have hkeys := map.nodupKeys
    rw [List.NodupKeys, List.keys] at hkeys ⊢
    simpa only [List.map_map, Function.comp_def] using hkeys

theorem lookup_mapValues (f : Value → Value) (map : KeyMap Key Value) (key : Key) :
    (map.mapValues f).lookup key = (map.lookup key).map f := by
  obtain ⟨entries, hnodup⟩ := map
  simp only [mapValues, AList.lookup]
  clear hnodup
  induction entries with
  | nil => rfl
  | cons entry rest ih =>
      obtain ⟨k, v⟩ := entry
      by_cases hk : k = key
      · subst hk
        simp only [List.map_cons, List.dlookup_cons_eq, Option.map_some]
      · simp only [List.map_cons]
        rw [List.dlookup_cons_ne _ _ (Ne.symm hk), List.dlookup_cons_ne _ _ (Ne.symm hk), ih]

omit [DecidableEq Key] in
theorem items_mapValues (contents : Value → List Item) (f : Value → Value) (map : KeyMap Key Value) :
    items contents (map.mapValues f) = items (fun v => contents (f v)) map := by
  simp only [items, mapValues, List.flatMap_map]

theorem lookup_some_mem {map : KeyMap Key Value} {key : Key} {value : Value}
    (hlookup : map.lookup key = some value) : (⟨key, value⟩ : Sigma fun _ : Key => Value) ∈ map.entries :=
  AList.mem_lookup_iff.mp hlookup

theorem itemsAt_subset (contents : Value → List Item) (map : KeyMap Key Value) (key : Key) :
    itemsAt contents map key ⊆ items contents map := by
  intro item hitem
  unfold itemsAt at hitem
  cases hlookup : map.lookup key with
  | none => simp [hlookup] at hitem
  | some value =>
      rw [hlookup] at hitem
      exact List.mem_flatMap.mpr ⟨⟨key, value⟩, lookup_some_mem hlookup, hitem⟩

theorem exists_itemsAt {contents : Value → List Item} {map : KeyMap Key Value} {item : Item}
    (hitem : item ∈ items contents map) : ∃ key, item ∈ itemsAt contents map key := by
  obtain ⟨⟨key, value⟩, hentry, hmem⟩ := List.mem_flatMap.mp hitem
  have hlookup : map.lookup key = some value := AList.mem_lookup_iff.mpr hentry
  exact ⟨key, by rw [itemsAt, hlookup]; exact hmem⟩

/-- Writing one key trades what it held for what the new value holds and moves nothing else. -/
theorem items_insert_perm (contents : Value → List Item) (map : KeyMap Key Value) (key : Key)
    (value : Value) :
    (itemsAt contents map key ++ items contents (map.insert key value)).Perm
      (contents value ++ items contents map) := by
  have hinsert : items contents (map.insert key value)
      = contents value ++ (map.entries.kerase key).flatMap fun entry => contents entry.2 := by
    simp only [items, AList.entries_insert, List.flatMap_cons]
  rw [hinsert]
  cases hlookup : map.lookup key with
  | none =>
      have hnot : key ∉ map.entries.keys := AList.lookup_eq_none.mp hlookup
      simp only [itemsAt, hlookup, Option.elim_none, List.nil_append]
      rw [List.kerase_of_notMem_keys hnot]
      exact List.Perm.refl _
  | some old =>
      have hmem : key ∈ map.entries.keys := List.mem_keys_of_mem (lookup_some_mem hlookup)
      obtain ⟨found, front, back, hfront, hentries, herase⟩ := List.exists_of_kerase hmem
      have hold : found = old := by
        have hfound : (⟨key, found⟩ : Sigma fun _ : Key => Value) ∈ map.entries := by
          rw [hentries]
          simp
        have hsome : map.lookup key = some found := AList.mem_lookup_iff.mpr hfound
        rw [hlookup] at hsome
        exact (Option.some.inj hsome).symm
      subst hold
      rw [herase]
      simp only [itemsAt, hlookup, Option.elim_some, items, hentries, List.flatMap_append,
        List.flatMap_cons]
      refine (List.perm_append_comm_assoc _ _ _).trans (List.Perm.append_left _ ?_)
      exact List.perm_append_comm_assoc _ _ _

theorem entries_perm {map : KeyMap Key Value} {key : Key} {value : Value} (hlookup : map.lookup key = some value) :
    map.entries.Perm (⟨key, value⟩ :: (map.erase key).entries) := by
  obtain ⟨found, front, back, -, hentries, herase⟩ := List.exists_of_kerase (List.mem_keys_of_mem (lookup_some_mem hlookup))
  have hfound : map.lookup key = some found := by
    refine AList.mem_lookup_iff.mpr ?_
    rw [hentries]
    simp
  obtain rfl := Option.some.inj (hfound.symm.trans hlookup)
  change map.entries.Perm (_ :: map.entries.kerase key)
  rw [herase, hentries]
  exact List.perm_middle

/-- What is erased goes with what it held, and nothing else goes. -/
theorem items_erase_perm (contents : Value → List Item) {map : KeyMap Key Value} {key : Key} {value : Value}
    (hlookup : map.lookup key = some value) :
    (contents value ++ items contents (map.erase key)).Perm (items contents map) :=
  ((entries_perm hlookup).flatMap_right (fun entry : Sigma fun _ : Key => Value => contents entry.2)).symm

end KeyMap

end RequestsNative.Lib
