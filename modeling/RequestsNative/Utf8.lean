import Mathlib.Tactic.IntervalCases
import RequestsNative.Ascii

/-!
# Lossy decoding

`String::from_utf8_lossy` leaves a valid text as it is and puts U+FFFD in the place of every broken sequence. A broken
sequence has one, two or three bytes and U+FFFD has three, so the decoded text may be as long as the bytes and yet
another text. Letters of ASCII are characters of their own wherever they stand: decoding does not look at their case.
-/

namespace RequestsNative

/-! ### ASCII case -/

theorem asciiLower_idem (b : UInt8) : asciiLower (asciiLower b) = asciiLower b := by
  grind [asciiLower]

theorem toAsciiLowercase_idem (bytes : Bytes) : toAsciiLowercase (toAsciiLowercase bytes) = toAsciiLowercase bytes := by
  rw [toAsciiLowercase, toAsciiLowercase, List.map_map]
  exact List.map_congr_left fun b _ => asciiLower_idem b

@[simp] theorem toAsciiLowercase_length (bytes : Bytes) : (toAsciiLowercase bytes).length = bytes.length := List.length_map _

theorem toAsciiLowercase_append (a b : Bytes) : toAsciiLowercase (a ++ b) = toAsciiLowercase a ++ toAsciiLowercase b :=
  List.map_append

theorem eqIgnoreAsciiCase_iff {a b : Bytes} : eqIgnoreAsciiCase a b = true ↔ toAsciiLowercase a = toAsciiLowercase b :=
  beq_iff_eq

/-- Only ASCII has case. -/
theorem asciiLower_wide (b : UInt8) : (128 ≤ b → asciiLower b = b) ∧ (128 ≤ asciiLower b → asciiLower b = b) := by
  grind [asciiLower]

theorem isContinuation_asciiLower (b : UInt8) : isContinuation (asciiLower b) = isContinuation b := by
  grind [asciiLower, isContinuation]

theorem utf8Width_asciiLower (b : UInt8) : utf8Width (asciiLower b) = utf8Width b := by
  obtain hsame | ⟨⟨-, hupper⟩, -, hlower⟩ := asciiLower_cases b
  · rw [hsame]
  · have hascii : b < 0x80 := UInt8.lt_of_le_of_lt hupper (by decide)
    have hascii' : asciiLower b < 0x80 := UInt8.lt_of_le_of_lt hlower (by decide)
    rw [utf8Width, utf8Width, if_pos hascii, if_pos hascii']

theorem asciiLower_eq_wide {b wide : UInt8} (hwide : 128 ≤ wide) : asciiLower b = wide ↔ b = wide := by
  constructor
  · rintro rfl
    exact ((asciiLower_wide b).2 hwide).symm
  · rintro rfl
    exact (asciiLower_wide b).1 hwide

theorem asciiLower_range {b low high : UInt8} (hlow : 128 ≤ low) :
    (decide (low ≤ asciiLower b) && decide (asciiLower b ≤ high)) = (decide (low ≤ b) && decide (b ≤ high)) := by
  by_cases hwide : 128 ≤ b
  · rw [(asciiLower_wide b).1 hwide]
  · have hnarrow : ¬128 ≤ asciiLower b := by
      intro hwide'
      rw [(asciiLower_wide b).2 hwide'] at hwide'
      exact hwide hwide'
    rw [decide_eq_false fun h => hwide (UInt8.le_trans hlow h), decide_eq_false fun h => hnarrow (UInt8.le_trans hlow h)]
    rfl

theorem utf8Second_asciiLower (first second : UInt8) :
    utf8Second (asciiLower first) (asciiLower second) = utf8Second first second := by
  have hconst : ∀ wide : UInt8, 128 ≤ wide → (asciiLower first == wide) = (first == wide) := by
    intro wide hwide
    rw [Bool.eq_iff_iff, beq_iff_eq, beq_iff_eq]
    exact asciiLower_eq_wide hwide
  rw [utf8Second, hconst 0xE0 (by decide), hconst 0xED (by decide), hconst 0xF0 (by decide), hconst 0xF4 (by decide),
    asciiLower_range (by decide), asciiLower_range (by decide), asciiLower_range (by decide), asciiLower_range (by decide),
    isContinuation_asciiLower]
  rfl

theorem utf8Width_le (b : UInt8) : utf8Width b ≤ 4 := by
  grind [utf8Width]

theorem utf8Chunk_toAsciiLowercase (bytes : Bytes) : utf8Chunk (toAsciiLowercase bytes) = utf8Chunk bytes := by
  cases bytes with
  | nil => rfl
  | cons first rest =>
      have hwidth := utf8Width_le first
      simp only [toAsciiLowercase, List.map_cons, utf8Chunk.eq_def, utf8Width_asciiLower]
      generalize utf8Width first = width at hwidth
      rcases rest with _ | ⟨b, _ | ⟨c, _ | ⟨d, rest⟩⟩⟩ <;> interval_cases width <;>
        simp only [List.map_cons, List.map_nil, utf8Second_asciiLower, isContinuation_asciiLower]

theorem utf8Chunk_pos {bytes : Bytes} (h : bytes ≠ []) : 1 ≤ (utf8Chunk bytes).2 := by
  obtain ⟨first, rest, rfl⟩ := List.exists_cons_of_ne_nil h
  unfold utf8Chunk
  grind

/-! ### Decoding -/

theorem fromUtf8LossyWith_succ (fuel : Nat) {bytes : Bytes} (h : bytes ≠ []) :
    fromUtf8LossyWith (fuel + 1) bytes =
      (if (utf8Chunk bytes).1 then bytes.take (utf8Chunk bytes).2 else [0xEF, 0xBF, 0xBD]) ++
        fromUtf8LossyWith fuel (bytes.drop (utf8Chunk bytes).2) := by
  rw [fromUtf8LossyWith, if_neg h]

theorem fromUtf8LossyWith_toAsciiLowercase (fuel : Nat) (bytes : Bytes) :
    fromUtf8LossyWith fuel (toAsciiLowercase bytes) = toAsciiLowercase (fromUtf8LossyWith fuel bytes) := by
  induction fuel generalizing bytes with
  | zero => rfl
  | succ fuel ih =>
      by_cases hempty : bytes = []
      · subst hempty
        rfl
      have hlower : toAsciiLowercase bytes ≠ [] := by simpa [toAsciiLowercase] using hempty
      have hdrop : (toAsciiLowercase bytes).drop (utf8Chunk bytes).2 =
          toAsciiLowercase (bytes.drop (utf8Chunk bytes).2) := List.map_drop.symm
      rw [fromUtf8LossyWith_succ fuel hempty, fromUtf8LossyWith_succ fuel hlower, utf8Chunk_toAsciiLowercase, hdrop, ih,
        toAsciiLowercase_append]
      congr 1
      split
      · exact List.map_take.symm
      · rfl

theorem fromUtf8Lossy_toAsciiLowercase (bytes : Bytes) :
    fromUtf8Lossy (toAsciiLowercase bytes) = toAsciiLowercase (fromUtf8Lossy bytes) := by
  rw [fromUtf8Lossy, fromUtf8Lossy, toAsciiLowercase_length, fromUtf8LossyWith_toAsciiLowercase]

theorem fromUtf8LossyWith_valid {fuel : Nat} {bytes : Bytes} (h : isUtf8With fuel bytes = true) :
    fromUtf8LossyWith fuel bytes = bytes := by
  induction fuel generalizing bytes with
  | zero => exact (List.isEmpty_iff.mp h).symm
  | succ fuel ih =>
      by_cases hempty : bytes = []
      · subst hempty
        rfl
      rw [isUtf8With, List.isEmpty_eq_false_iff.mpr hempty, Bool.false_or, Bool.and_eq_true] at h
      rw [fromUtf8LossyWith_succ fuel hempty, if_pos h.1, ih h.2, List.take_append_drop]

/-- A valid text is decoded to itself. -/
theorem fromUtf8Lossy_valid {bytes : Bytes} (h : isUtf8 bytes = true) : fromUtf8Lossy bytes = bytes :=
  fromUtf8LossyWith_valid h

theorem utf8Chunk_replacement {bytes rest : Bytes} (h : toAsciiLowercase bytes = 0xEF :: 0xBF :: 0xBD :: rest) :
    (utf8Chunk bytes).1 = true := by
  rw [← utf8Chunk_toAsciiLowercase, h]
  cases rest <;> rfl

theorem fromUtf8LossyWith_case {fuel : Nat} {bytes : Bytes}
    (h : toAsciiLowercase (fromUtf8LossyWith fuel bytes) = toAsciiLowercase bytes) : fromUtf8LossyWith fuel bytes = bytes := by
  induction fuel generalizing bytes with
  | zero => exact (List.map_eq_nil_iff.mp h.symm).symm
  | succ fuel ih =>
      by_cases hempty : bytes = []
      · subst hempty
        rfl
      rw [fromUtf8LossyWith_succ fuel hempty] at h ⊢
      split
      · rename_i hvalid
        rw [if_pos hvalid, toAsciiLowercase_append] at h
        conv_rhs at h => rw [← List.take_append_drop (utf8Chunk bytes).2 bytes, toAsciiLowercase_append]
        rw [ih (List.append_cancel_left h), List.take_append_drop]
      · rename_i hbroken
        rw [if_neg hbroken, toAsciiLowercase_append] at h
        exact absurd (utf8Chunk_replacement h.symm) hbroken

theorem fromUtf8Lossy_case {bytes : Bytes} (h : toAsciiLowercase (fromUtf8Lossy bytes) = toAsciiLowercase bytes) :
    fromUtf8Lossy bytes = bytes := fromUtf8LossyWith_case h

theorem fromUtf8LossyWith_ascii {fuel : Nat} {bytes : Bytes} (hfuel : bytes.length ≤ fuel)
    (h : ∀ b ∈ fromUtf8LossyWith fuel bytes, b < 128) : fromUtf8LossyWith fuel bytes = bytes := by
  induction fuel generalizing bytes with
  | zero => exact (List.length_eq_zero_iff.mp (Nat.le_zero.mp hfuel)).symm
  | succ fuel ih =>
      by_cases hempty : bytes = []
      · subst hempty
        rfl
      rw [fromUtf8LossyWith_succ fuel hempty] at h ⊢
      split
      · rename_i hvalid
        rw [if_pos hvalid] at h
        have hpos := utf8Chunk_pos hempty
        have hshorter : (bytes.drop (utf8Chunk bytes).2).length ≤ fuel := by
          rw [List.length_drop]
          omega
        rw [ih hshorter fun b hb => h b (List.mem_append_right _ hb), List.take_append_drop]
      · rename_i hbroken
        rw [if_neg hbroken] at h
        exact absurd (h 0xEF (by simp)) (by decide)

theorem fromUtf8Lossy_ascii {bytes : Bytes} (h : ∀ b ∈ fromUtf8Lossy bytes, b < 128) : fromUtf8Lossy bytes = bytes :=
  fromUtf8LossyWith_ascii (Nat.le_refl _) h

end RequestsNative
