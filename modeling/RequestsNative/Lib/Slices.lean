import Mathlib.Data.List.Basic

/-!
# Reading a list in slices

A reader asks for some elements, or for all of them, again and again. It gets the elements in order, as many as it asked
for as long as there are so many.
-/

namespace RequestsNative.Lib

variable {α : Type*}

/-- One read of a list, and what it leaves. -/
def slice (whole : List α) (amount : Option Nat) : List α × List α :=
  match amount with
  | none => (whole, [])
  | some n => (whole.take n, whole.drop n)

/-- The slices a list is read in. -/
def slices : List α → List (Option Nat) → List (List α)
  | _, [] => []
  | whole, amount :: rest => (slice whole amount).1 :: slices (slice whole amount).2 rest

theorem slice_append (whole : List α) (amount : Option Nat) :
    (slice whole amount).1 ++ (slice whole amount).2 = whole := by
  cases amount with
  | none => exact List.append_nil whole
  | some n => exact List.take_append_drop n whole

/-- What is read in slices is exact: in order, as much as was asked for, and to the end. -/
structure ReadExactly (whole : List α) (amounts : List (Option Nat)) (results : List (List α)) : Prop where
  inOrder : results.flatten <+: whole
  each : ∀ before amount after, amounts = before ++ amount :: after →
    ∃ first result later, results = first ++ result :: later ∧ first.length = before.length ∧
      (amount ≠ some 0 → result = [] → first.flatten = whole) ∧
      (∀ n, amount = some n → result.length ≤ n ∧ (result.length < n → (first ++ [result]).flatten = whole)) ∧
      ((first ++ [result]).flatten = whole → ∀ other ∈ later, other = [])

theorem slices_nil (amounts : List (Option Nat)) : ∀ result ∈ slices ([] : List α) amounts, result = [] := by
  induction amounts with
  | nil => exact nofun
  | cons amount rest ih =>
      have hslice : slice ([] : List α) amount = ([], []) := by
        cases amount with
        | none => rfl
        | some n => rw [slice, List.take_nil, List.drop_nil]
      rw [slices, hslice, List.forall_mem_cons]
      exact ⟨rfl, ih⟩

theorem slices_isPrefix (whole : List α) (amounts : List (Option Nat)) : (slices whole amounts).flatten <+: whole := by
  induction amounts generalizing whole with
  | nil => exact List.nil_prefix
  | cons amount rest ih =>
      have htotal := slice_append whole amount
      rw [slices, List.flatten_cons]
      conv_rhs => rw [← htotal]
      exact List.prefix_append_right_inj _ |>.mpr (ih _)

theorem slices_append (whole : List α) (before after : List (Option Nat)) :
    ∃ left, (slices whole before).flatten ++ left = whole ∧
      slices whole (before ++ after) = slices whole before ++ slices left after := by
  induction before generalizing whole with
  | nil => exact ⟨whole, rfl, rfl⟩
  | cons amount rest ih =>
      obtain ⟨left, htotal, heq⟩ := ih (slice whole amount).2
      refine ⟨left, ?_, ?_⟩
      · rw [slices, List.flatten_cons, List.append_assoc, htotal, slice_append]
      · rw [List.cons_append, slices, heq, slices, List.cons_append]

theorem length_slices (whole : List α) (amounts : List (Option Nat)) : (slices whole amounts).length = amounts.length := by
  induction amounts generalizing whole with
  | nil => rfl
  | cons amount rest ih => rw [slices, List.length_cons, List.length_cons, ih]

theorem slices_readExactly (whole : List α) (amounts : List (Option Nat)) :
    ReadExactly whole amounts (slices whole amounts) := by
  refine ⟨slices_isPrefix whole amounts, ?_⟩
  rintro before amount after rfl
  obtain ⟨left, htotal, heq⟩ := slices_append whole before (amount :: after)
  rw [slices] at heq
  refine ⟨slices whole before, (slice left amount).1, slices (slice left amount).2 after, heq, length_slices _ _, ?_, ?_, ?_⟩
  · intro hamount hresult
    -- A read that is not for nothing gets nothing only from the empty list.
    have hleft : left = [] := by
      cases amount with
      | none => exact hresult
      | some n =>
          obtain hn | hleft := List.take_eq_nil_iff.mp hresult
          · exact absurd (congrArg some hn) hamount
          · exact hleft
    rw [hleft, List.append_nil] at htotal
    exact htotal
  · rintro n rfl
    refine ⟨List.length_take_le n left, fun hshort => ?_⟩
    have hall : left.take n = left := by
      rw [slice, List.length_take] at hshort
      apply List.take_of_length_le
      omega
    rw [slice, hall, List.flatten_append, List.flatten_singleton]
    exact htotal
  · intro hend
    rw [List.flatten_append, List.flatten_singleton] at hend
    have hnothing : (slice left amount).2 = [] := by
      have hlength := congrArg List.length (hend.trans htotal.symm)
      have hslice := congrArg List.length (slice_append left amount)
      rw [List.length_append, List.length_append] at hlength
      rw [List.length_append] at hslice
      exact List.length_eq_zero_iff.mp (by omega)
    rw [hnothing]
    exact slices_nil after

end RequestsNative.Lib
