import RequestsNative.Lib.Lines

/-!
# Lines between CR LF

A text cut at every CR LF. A bare CR or LF does not end a line here, so a line may hold one, also as its first or last
byte; what it cannot hold is a CR LF (`Whole`). Joining whole lines and cutting the text again gives the lines back,
and the first empty line of a text is its first CR LF CR LF.
-/

namespace RequestsNative.Lib

/-- No CR LF inside. -/
def Whole (line : List UInt8) : Prop := position [13, 10] line = none

instance (line : List UInt8) : Decidable (Whole line) := inferInstanceAs (Decidable (position [13, 10] line = none))

/-- The lines of a text, which CR LF separates. -/
def splitCrlf : List UInt8 → List (List UInt8)
  | [] => [[]]
  | 13 :: 10 :: rest => [] :: splitCrlf rest
  | b :: rest => (splitCrlf rest).modifyHead (b :: ·)

/-- Each line with its line end. -/
def endLines (lines : List (List UInt8)) : List UInt8 := lines.flatMap (· ++ [13, 10])

@[simp] theorem endLines_nil : endLines [] = [] := rfl

@[simp] theorem endLines_cons (line : List UInt8) (lines : List (List UInt8)) :
    endLines (line :: lines) = line ++ 13 :: 10 :: endLines lines := by
  rw [endLines, List.flatMap_cons, List.append_assoc]
  rfl

theorem endLines_append (first second : List (List UInt8)) : endLines (first ++ second) = endLines first ++ endLines second :=
  List.flatMap_append

/-- Lines end in a line end. -/
theorem endLines_ends {lines : List (List UInt8)} (h : lines ≠ []) : ∃ s, endLines lines = s ++ [13, 10] := by
  obtain ⟨front, last, rfl⟩ := List.eq_nil_or_concat lines |>.resolve_left h
  refine ⟨endLines front ++ last, ?_⟩
  rw [List.concat_eq_append, endLines_append, endLines_cons, endLines_nil, List.append_assoc]

/-- The pattern stands where it was found. -/
theorem position_split {α : Type} [DecidableEq α] {pattern s : List α} {i : Nat} (h : position pattern s = some i) :
    s = s.take i ++ (pattern ++ s.drop (i + pattern.length)) := by
  induction s generalizing i with
  | nil => cases h
  | cons a rest ih =>
      rw [position] at h
      split at h
      · rename_i hfront
        cases h
        obtain ⟨after, hafter⟩ := hfront
        rw [List.take_zero, List.nil_append, Nat.zero_add, ← hafter, List.drop_left]
      · obtain ⟨j, hj, rfl⟩ := Option.map_eq_some_iff.mp h
        rw [List.take_succ_cons, show j + 1 + pattern.length = j + pattern.length + 1 by omega, List.drop_succ_cons,
          List.cons_append, ← ih hj]

/-! ### Whole lines -/

theorem Whole.tail {b : UInt8} {line : List UInt8} (h : Whole (b :: line)) : Whole line := by
  rw [Whole, position] at h
  split at h
  · cases h
  · exact Option.map_eq_none_iff.mp h

/-- A whole line does not begin with CR LF. -/
theorem Whole.not_crlf {line rest : List UInt8} (h : Whole line) : line ≠ 13 :: 10 :: rest := by
  rintro rfl
  rw [Whole, position, if_pos ⟨rest, rfl⟩] at h
  cases h

theorem whole_cons {b : UInt8} {line : List UInt8} (h : Whole line) (hfirst : ∀ rest, b :: line ≠ 13 :: 10 :: rest) :
    Whole (b :: line) := by
  rw [Whole, position, if_neg, show position [13, 10] line = none from h]
  · rfl
  · rintro ⟨rest, heq⟩
    exact hfirst rest heq.symm

/-- The CR LF behind a whole line is the first one, also if the line ends in CR. -/
theorem not_crlf_append {b : UInt8} {line : List UInt8} (h : Whole (b :: line)) (rest : List UInt8) :
    ¬[13, 10] <+: b :: (line ++ 13 :: 10 :: rest) := by
  rintro ⟨after, heq⟩
  obtain ⟨rfl, htail⟩ := List.cons.inj heq
  cases line with
  | nil => exact absurd (List.cons.inj htail).1 (by decide)
  | cons c line =>
      obtain ⟨rfl, -⟩ := List.cons.inj htail
      exact h.not_crlf rfl

theorem position_whole {line : List UInt8} (h : Whole line) (rest : List UInt8) :
    position [13, 10] (line ++ 13 :: 10 :: rest) = some line.length := by
  induction line with
  | nil => rw [List.nil_append, position, if_pos ⟨rest, rfl⟩, List.length_nil]
  | cons b line ih =>
      rw [List.cons_append, position, if_neg (not_crlf_append h rest), ih h.tail]
      rfl

/-- The first empty line is the next one, or it is found behind the next one. -/
theorem position_emptyLine {line : List UInt8} (h : Whole line) (rest : List UInt8) :
    position [13, 10, 13, 10] (line ++ 13 :: 10 :: rest) =
      if [13, 10] <+: rest then some line.length
      else (position [13, 10, 13, 10] rest).map (· + (line.length + 2)) := by
  induction line with
  | nil =>
      have hlf : position [13, 10, 13, 10] (10 :: rest) = (position [13, 10, 13, 10] rest).map (· + 1) := by
        rw [position, if_neg]
        rintro ⟨after, heq⟩
        exact absurd (List.cons.inj heq).1 (by decide)
      rw [List.nil_append, position, hlf, List.length_nil, Option.map_map]
      by_cases hempty : [13, 10] <+: rest
      · obtain ⟨after, rfl⟩ := hempty
        rw [if_pos ⟨after, rfl⟩, if_pos ⟨after, rfl⟩]
      · rw [if_neg hempty, if_neg]
        · rfl
        · rintro ⟨after, heq⟩
          exact hempty ⟨after, (List.cons.inj (List.cons.inj heq).2).2⟩
  | cons b line ih =>
      rw [List.cons_append, position, if_neg, ih h.tail]
      · split
        · rfl
        · rw [Option.map_map, List.length_cons]
          rfl
      · rintro ⟨after, heq⟩
        exact not_crlf_append h rest ⟨13 :: 10 :: after, heq⟩

/-! ### Cutting and joining -/

theorem splitCrlf_ne_nil (s : List UInt8) : splitCrlf s ≠ [] := by
  fun_induction splitCrlf s with
  | case1 => exact List.cons_ne_nil _ _
  | case2 rest => exact List.cons_ne_nil _ _
  | case3 b rest _ ih =>
      obtain ⟨line, lines, heq⟩ := List.exists_cons_of_ne_nil ih
      rw [heq, List.modifyHead_cons]
      exact List.cons_ne_nil _ _

/-- The text is its lines, each with a line end but the last. -/
theorem endLines_splitCrlf (s : List UInt8) : endLines (splitCrlf s) = s ++ [13, 10] := by
  fun_induction splitCrlf s with
  | case1 => rfl
  | case2 rest ih =>
      rw [endLines_cons, ih]
      rfl
  | case3 b rest _ ih =>
      obtain ⟨line, lines, heq⟩ := List.exists_cons_of_ne_nil (splitCrlf_ne_nil rest)
      rw [heq, endLines_cons] at ih
      rw [heq, List.modifyHead_cons, endLines_cons, List.cons_append, ih]
      rfl

theorem splitCrlf_whole (s : List UInt8) : ∀ line ∈ splitCrlf s, Whole line := by
  fun_induction splitCrlf s with
  | case1 =>
      intro line hline
      obtain rfl := List.mem_singleton.mp hline
      rfl
  | case2 rest ih =>
      intro line hline
      rcases List.mem_cons.mp hline with rfl | hline
      · rfl
      · exact ih line hline
  | case3 b rest hfirst ih =>
      obtain ⟨first, lines, heq⟩ := List.exists_cons_of_ne_nil (splitCrlf_ne_nil rest)
      have hjoined := endLines_splitCrlf rest
      rw [heq] at ih hjoined
      rw [heq, List.modifyHead_cons]
      intro line hline
      rcases List.mem_cons.mp hline with rfl | hline
      · refine whole_cons (ih first List.mem_cons_self) ?_
        rintro after hcrlf
        obtain ⟨rfl, rfl⟩ := List.cons.inj hcrlf
        rw [endLines_cons, List.cons_append] at hjoined
        cases rest with
        | nil => exact absurd (List.cons.inj hjoined).1 (by decide)
        | cons c rest =>
            obtain ⟨rfl, -⟩ := List.cons.inj hjoined
            exact hfirst rest rfl rfl
      · exact ih line (List.mem_cons_of_mem _ hline)

theorem endLines_injective {lines lines' : List (List UInt8)} (h : ∀ line ∈ lines, Whole line)
    (h' : ∀ line ∈ lines', Whole line) (heq : endLines lines = endLines lines') : lines = lines' := by
  induction lines generalizing lines' with
  | nil =>
      cases lines' with
      | nil => rfl
      | cons line rest => simp at heq
  | cons line lines ih =>
      cases lines' with
      | nil => simp at heq
      | cons line' rest =>
          rw [endLines_cons, endLines_cons] at heq
          have hlength : line.length = line'.length := by
            have hfound := position_whole (h line List.mem_cons_self) (endLines lines)
            rw [heq, position_whole (h' line' List.mem_cons_self)] at hfound
            exact (Option.some.inj hfound).symm
          obtain ⟨rfl, htail⟩ := List.append_inj heq hlength
          have hrest : endLines lines = endLines rest := (List.cons.inj (List.cons.inj htail).2).2
          rw [ih (fun other hmem => h other (List.mem_cons_of_mem _ hmem))
            (fun other hmem => h' other (List.mem_cons_of_mem _ hmem)) hrest]

/-- Whole lines are the lines of their text. -/
theorem splitCrlf_endLines {lines : List (List UInt8)} (h : ∀ line ∈ lines, Whole line) {s : List UInt8}
    (hs : endLines lines = s ++ [13, 10]) : splitCrlf s = lines :=
  endLines_injective (splitCrlf_whole s) h ((endLines_splitCrlf s).trans hs.symm)

end RequestsNative.Lib
