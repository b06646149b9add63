import Mathlib.Data.List.AList

/-!
# Tallies

A table that counts the holders of each key, and has no entry for a key without holders. Holders come and go one at a
time; the table says at any time how many there are.
-/

namespace RequestsNative.Lib

abbrev Tally (κ : Type) := AList fun _ : κ => Nat

namespace Tally

variable {κ : Type} [DecidableEq κ]

def get (tally : Tally κ) (key : κ) : Nat := (tally.lookup key).getD 0

def increment (tally : Tally κ) (key : κ) : Tally κ := tally.insert key (tally.get key + 1)

def decrement (tally : Tally κ) (key : κ) : Tally κ :=
  if tally.get key - 1 = 0 then tally.erase key else tally.insert key (tally.get key - 1)

/-- The table counts the holders. -/
def Counts (tally : Tally κ) (holders : List κ) : Prop :=
  ∀ key, tally.lookup key = if holders.count key = 0 then none else some (holders.count key)

variable {tally : Tally κ} {holders : List κ}

theorem Counts.nil : Counts (∅ : Tally κ) [] := fun _ => rfl

theorem Counts.get (h : Counts tally holders) (key : κ) : tally.get key = holders.count key := by
  unfold Tally.get
  rw [h key]
  split
  · exact Eq.symm ‹_›
  · rfl

theorem Counts.lookup (h : Counts tally holders) {key : κ} (hkey : key ∈ holders) :
    tally.lookup key = some (holders.count key) := by
  rw [h key, if_neg]
  exact Nat.ne_of_gt (List.count_pos_iff.mpr hkey)

theorem Counts.increment (h : Counts tally holders) (key : κ) : Counts (tally.increment key) (key :: holders) := by
  intro other
  rw [Tally.increment, h.get]
  by_cases hother : other = key
  · subst hother
    rw [AList.lookup_insert, List.count_cons_self, if_neg (Nat.succ_ne_zero _)]
  · rw [AList.lookup_insert_ne hother, h other, List.count_cons_of_ne (Ne.symm hother)]

theorem Counts.decrement (h : Counts tally holders) (key : κ) : Counts (tally.decrement key) (holders.erase key) := by
  intro other
  unfold Tally.decrement
  rw [h.get]
  by_cases hother : other = key
  · subst hother
    rw [List.count_erase_self]
    split
    · exact AList.lookup_erase _ _
    · exact AList.lookup_insert _
  · have hcount : (holders.erase key).count other = holders.count other := List.count_erase_of_ne hother
    rw [hcount, ← h other]
    split
    · exact AList.lookup_erase_ne hother
    · exact AList.lookup_insert_ne hother

theorem Counts.perm (h : Counts tally holders) {holders' : List κ} (hperm : holders.Perm holders') :
    Counts tally holders' := by
  intro key
  rw [← hperm.count_eq key]
  exact h key

theorem Counts.keys_eq_nil_iff (h : Counts tally holders) : tally.keys = [] ↔ holders = [] := by
  rw [List.eq_nil_iff_forall_not_mem, List.eq_nil_iff_forall_not_mem]
  refine forall_congr' fun key => not_congr ?_
  rw [← AList.mem_keys, ← AList.lookup_isSome, h key]
  split
  · exact iff_of_false Bool.false_ne_true (List.count_eq_zero.mp ‹_›)
  · exact iff_of_true rfl (List.count_pos_iff.mp (Nat.pos_of_ne_zero ‹_›))

end Tally

end RequestsNative.Lib
