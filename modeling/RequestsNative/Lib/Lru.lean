import Mathlib.Data.List.DropRight
import Mathlib.Data.List.Nodup

/-!
# Caches that keep what was used last

The keys of a cache, from the least to the most recently admitted. Admitting a key moves it to the end and drops keys from the
front until the limit is met; with a limit of zero nothing is admitted. The cache is then always the end of the list of all
keys ever admitted.
-/

namespace RequestsNative.Lib.Lru

variable {κ : Type*}

theorem rtake_suffix (l : List κ) (n : Nat) : l.rtake n <:+ l := List.drop_suffix _ _

theorem length_rtake (l : List κ) (n : Nat) : (l.rtake n).length = min n l.length := by
  rw [List.rtake, List.length_drop]
  omega

theorem rtake_of_length_le {l : List κ} {n : Nat} (h : l.length ≤ n) : l.rtake n = l := by
  rw [List.rtake, Nat.sub_eq_zero_of_le h, List.drop_zero]

variable [DecidableEq κ]

/-- Move a key to the end, or put it there. -/
def touch (cache : List κ) (key : κ) : List κ := cache.filter (· ≠ key) ++ [key]

def store (limit : Nat) (cache : List κ) (key : κ) : List κ := if limit = 0 then cache else (touch cache key).rtake limit

variable {cache all : List κ} {key : κ} {limit : Nat}

theorem filter_of_notMem (h : key ∉ cache) : cache.filter (· ≠ key) = cache := by
  refine List.filter_eq_self.mpr fun other hother => ?_
  rw [decide_eq_true_eq]
  rintro rfl
  exact h hother

theorem touch_of_notMem (h : key ∉ cache) : touch cache key = cache ++ [key] := by rw [touch, filter_of_notMem h]

theorem mem_touch {other : κ} : other ∈ touch cache key ↔ other ∈ cache ∨ other = key := by
  rw [touch, List.mem_append, List.mem_filter, List.mem_singleton]
  by_cases hsame : other = key <;> simp [hsame]

theorem nodup_touch (h : cache.Nodup) : (touch cache key).Nodup := by
  refine List.Nodup.append (h.filter _) (List.nodup_singleton key) ?_
  intro other hother hkey
  rw [List.mem_singleton] at hkey
  simp [hkey] at hother

theorem length_touch (h : cache.Nodup) (hkey : key ∈ cache) : (touch cache key).length = cache.length := by
  have hfilter : (cache.filter (· ≠ key)).length = cache.length - 1 := by
    have herase : cache.filter (· ≠ key) = cache.erase key := by
      rw [h.erase_eq_filter]
      exact List.filter_congr fun other _ => by rw [bne, Bool.beq_eq_decide_eq, decide_not]
    rw [herase]
    exact List.length_erase_of_mem hkey
  have hpos := List.length_pos_of_mem hkey
  rw [touch, List.length_append, List.length_singleton, hfilter]
  omega

theorem length_store_le (hlimit : 0 < limit) : (store limit cache key).length ≤ limit := by
  rw [store, if_neg (Nat.ne_of_gt hlimit), length_rtake]
  exact Nat.min_le_left _ _

theorem touch_suffix (h : cache <:+ all) : touch cache key <:+ touch all key := by
  obtain ⟨front, rfl⟩ := h
  refine ⟨front.filter (· ≠ key), ?_⟩
  rw [touch, touch, List.filter_append, List.append_assoc]

theorem store_suffix (h : cache <:+ all) (hlimit : 0 < limit) : store limit cache key <:+ touch all key := by
  rw [store, if_neg (Nat.ne_of_gt hlimit)]
  exact (rtake_suffix _ _).trans (touch_suffix h)

end RequestsNative.Lib.Lru
