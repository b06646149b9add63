import Mathlib.Data.List.Basic

/-!
# Lines with two line ends

Byte strings made of lines that end in CR LF or in a bare LF, and the search for a pattern of bytes.
A line whose text holds neither CR nor LF is `Plain`; rendering such a line and reading it back is the
identity, whichever line end it has.
-/

namespace RequestsNative.Lib

/-! ### The first occurrence of a pattern -/

/-- The position of the first occurrence of a non-empty pattern. -/
def position {α : Type} [DecidableEq α] (pattern : List α) : List α → Option Nat
  | [] => none
  | a :: rest => if pattern <+: a :: rest then some 0 else (position pattern rest).map (· + 1)

section Position

variable {α : Type} [DecidableEq α] {pattern s : List α} {i : Nat}

theorem position_bound (h : position pattern s = some i) : i + pattern.length ≤ s.length := by
  induction s generalizing i with
  | nil => cases h
  | cons a rest ih =>
      unfold position at h
      split at h
      · rename_i hfront
        cases h
        simpa using hfront.length_le
      · obtain ⟨j, hj, rfl⟩ := Option.map_eq_some_iff.mp h
        have hrest := ih hj
        rw [List.length_cons]
        omega

/-- What is found stays found when the list goes on. -/
theorem position_append (h : position pattern s = some i) (t : List α) : position pattern (s ++ t) = some i := by
  induction s generalizing i with
  | nil => cases h
  | cons a rest ih =>
      rw [List.cons_append]
      unfold position at h ⊢
      split at h
      · rename_i hfront
        rw [if_pos (by rw [← List.cons_append]; exact hfront.trans (List.prefix_append _ _))]
        exact h
      · rename_i hnot
        obtain ⟨j, hj, rfl⟩ := Option.map_eq_some_iff.mp h
        have hbound := position_bound hj
        rw [if_neg, ih hj]
        · rfl
        · intro hfront
          refine hnot (List.prefix_of_prefix_length_le hfront (List.prefix_append (a :: rest) t) ?_)
          rw [List.length_cons]
          omega

/-- What is found is found in the list up to its end. -/
theorem position_take {a : α} (h : position (a :: pattern) s = some i) :
    position (a :: pattern) (s.take (i + (pattern.length + 1))) = some i := by
  induction s generalizing i with
  | nil => cases h
  | cons b rest ih =>
      unfold position at h
      split at h
      · rename_i hfront
        cases h
        have htaken : a :: pattern <+: (b :: rest).take (pattern.length + 1) := by
          exact List.prefix_take_iff.mpr ⟨hfront, by simp⟩
        rw [Nat.zero_add, List.take_succ_cons] at *
        rw [position, if_pos htaken]
      · rename_i hnot
        obtain ⟨j, hj, rfl⟩ := Option.map_eq_some_iff.mp h
        rw [show j + 1 + (pattern.length + 1) = j + (pattern.length + 1) + 1 by omega, List.take_succ_cons,
          position, if_neg, ih hj]
        · rfl
        · intro hfront
          rw [← List.take_succ_cons] at hfront
          exact hnot (hfront.trans (List.take_prefix _ _))

/-- A pattern that stands somewhere is found. -/
theorem position_isSome (hne : pattern ≠ []) (front rest : List α) :
    (position pattern (front ++ (pattern ++ rest))).isSome = true := by
  induction front with
  | nil =>
      obtain ⟨a, tail, rfl⟩ := List.exists_cons_of_ne_nil hne
      rw [List.nil_append, List.cons_append, position, if_pos ⟨rest, rfl⟩]
      rfl
  | cons a front ih =>
      rw [List.cons_append, position]
      split
      · rfl
      · rw [Option.isSome_map, ih]

/-- Elements that cannot begin the pattern are skipped. -/
theorem position_skip {a : α} {skipped : List α} (h : ∀ x ∈ skipped, x ≠ a) (s : List α) :
    position (a :: pattern) (skipped ++ s) = (position (a :: pattern) s).map (· + skipped.length) := by
  induction skipped with
  | nil => simp
  | cons x skipped ih =>
      have hx := h x List.mem_cons_self
      rw [List.cons_append, position, ih fun y hy => h y (List.mem_cons_of_mem _ hy), if_neg]
      · cases position (a :: pattern) s with
        | none => rfl
        | some i => simp only [Option.map_some, List.length_cons, Nat.add_assoc]
      · rintro ⟨_, heq⟩
        exact hx (List.cons.inj heq).1.symm

end Position

/-! ### Line ends and lines -/

inductive LineEnd
  | crlf | lf
  deriving DecidableEq, Repr

def LineEnd.bytes : LineEnd → List UInt8
  | .crlf => [13, 10]
  | .lf => [10]

structure Line where
  text : List UInt8
  lineEnd : LineEnd
  deriving DecidableEq, Repr

def Line.bytes (line : Line) : List UInt8 := line.text ++ line.lineEnd.bytes

/-- The bytes of a list of lines. -/
def renderLines (lines : List Line) : List UInt8 := lines.flatMap Line.bytes

/-- No line end inside. -/
def Plain (text : List UInt8) : Prop := ∀ b ∈ text, b ≠ 13 ∧ b ≠ 10

instance (text : List UInt8) : Decidable (Plain text) :=
  inferInstanceAs (Decidable (∀ b ∈ text, b ≠ 13 ∧ b ≠ 10))

/-- The first line and what follows it. -/
def lineAt : List UInt8 → Option (Line × List UInt8)
  | [] => none
  | 10 :: rest => some (⟨[], .lf⟩, rest)
  | 13 :: 10 :: rest => some (⟨[], .crlf⟩, rest)
  | b :: rest => (lineAt rest).map fun r => (⟨b :: r.1.text, r.1.lineEnd⟩, r.2)

theorem lineAt_cons {b : UInt8} (hcr : b ≠ 13) (hlf : b ≠ 10) (rest : List UInt8) :
    lineAt (b :: rest) = (lineAt rest).map fun r => (⟨b :: r.1.text, r.1.lineEnd⟩, r.2) := by
  rw [lineAt]
  · exact hlf
  · exact fun _ h => absurd h hcr

theorem lineAt_bytes {line : Line} (h : Plain line.text) (rest : List UInt8) :
    lineAt (line.bytes ++ rest) = some (line, rest) := by
  obtain ⟨text, lineEnd⟩ := line
  induction text with
  | nil => cases lineEnd <;> rfl
  | cons b text ih =>
      have hb := h b List.mem_cons_self
      have htail := ih fun c hc => h c (List.mem_cons_of_mem _ hc)
      simp only [Line.bytes, List.cons_append] at htail ⊢
      rw [lineAt_cons hb.1 hb.2, htail]
      rfl

theorem lineAt_split {s rest : List UInt8} {line : Line} (h : lineAt s = some (line, rest)) :
    s = line.bytes ++ rest := by
  fun_induction lineAt s generalizing line with
  | case1 => cases h
  | case2 tail => cases h; rfl
  | case3 tail => cases h; rfl
  | case4 b tail _ _ ih =>
      obtain ⟨⟨inner, left⟩, hinner, heq⟩ := Option.map_eq_some_iff.mp h
      obtain ⟨rfl, rfl⟩ := Prod.mk.inj heq
      rw [ih hinner]
      rfl

/-! ### Blank lines -/

def renderEnds (ends : List LineEnd) : List UInt8 := ends.flatMap LineEnd.bytes

/-- Skip leading blank lines. -/
def skipBlanks : List UInt8 → List UInt8
  | 10 :: rest => skipBlanks rest
  | 13 :: 10 :: rest => skipBlanks rest
  | s => s

theorem skipBlanks_ends (ends : List LineEnd) (s : List UInt8) : skipBlanks (renderEnds ends ++ s) = skipBlanks s := by
  induction ends with
  | nil => rfl
  | cons lineEnd ends ih =>
      cases lineEnd <;> simpa [renderEnds, LineEnd.bytes, skipBlanks] using ih

theorem skipBlanks_text {text : List UInt8} (hplain : Plain text) (htext : text ≠ []) (s : List UInt8) :
    skipBlanks (text ++ s) = text ++ s := by
  obtain ⟨b, rest, rfl⟩ := List.exists_cons_of_ne_nil htext
  have hb := hplain b List.mem_cons_self
  rw [List.cons_append, skipBlanks]
  · exact fun _ h => hb.2 (List.cons.inj h).1
  · exact fun _ h => hb.1 (List.cons.inj h).1

theorem skipBlanks_split (s : List UInt8) : ∃ ends, s = renderEnds ends ++ skipBlanks s := by
  fun_induction skipBlanks s with
  | case1 rest ih =>
      obtain ⟨ends, hends⟩ := ih
      refine ⟨.lf :: ends, ?_⟩
      conv_lhs => rw [hends]
      rfl
  | case2 rest ih =>
      obtain ⟨ends, hends⟩ := ih
      refine ⟨.crlf :: ends, ?_⟩
      conv_lhs => rw [hends]
      rfl
  | case3 s _ _ => exact ⟨[], rfl⟩

/-! ### Where the first CR LF stands -/

theorem position_crlf {text : List UInt8} (h : ∀ b ∈ text, b ≠ 13) (rest : List UInt8) :
    position [13, 10] (text ++ 13 :: 10 :: rest) = some text.length := by
  rw [position_skip h]
  simp [position]

/-- No CR LF stands in the bytes, and none begins at their end. -/
def Unbroken (s : List UInt8) : Prop := position [13, 10] s = none ∧ s.getLast? ≠ some 13

instance (s : List UInt8) : Decidable (Unbroken s) :=
  inferInstanceAs (Decidable (position [13, 10] s = none ∧ s.getLast? ≠ some 13))

theorem Unbroken.tail {b : UInt8} {s : List UInt8} (h : Unbroken (b :: s)) : Unbroken s := by
  obtain ⟨hnone, hlast⟩ := h
  constructor
  · unfold position at hnone
    split at hnone
    · cases hnone
    · exact Option.map_eq_none_iff.mp hnone
  · cases s with
    | nil => simp
    | cons c rest => rwa [List.getLast?_cons_cons] at hlast

/-- A pattern that begins with CR LF does not begin in unbroken bytes. -/
theorem position_unbroken {pattern skipped : List UInt8} (h : Unbroken skipped) (s : List UInt8) :
    position (13 :: 10 :: pattern) (skipped ++ s) = (position (13 :: 10 :: pattern) s).map (· + skipped.length) := by
  induction skipped with
  | nil => simp
  | cons b skipped ih =>
      rw [List.cons_append, position, ih h.tail, if_neg]
      · cases position (13 :: 10 :: pattern) s with
        | none => rfl
        | some i => simp only [Option.map_some, List.length_cons, Nat.add_assoc]
      · rintro ⟨after, heq⟩
        obtain ⟨rfl, hrest⟩ := List.cons.inj heq
        cases skipped with
        | nil => exact h.2 rfl
        | cons c rest =>
            obtain ⟨rfl, -⟩ := List.cons.inj hrest
            have hfound := h.1
            rw [position, if_pos ⟨rest, rfl⟩] at hfound
            cases hfound

theorem Unbroken.append {s t : List UInt8} (hs : Unbroken s) (ht : Unbroken t) : Unbroken (s ++ t) := by
  constructor
  · rw [position_unbroken hs, ht.1]
    rfl
  · rw [List.getLast?_append]
    have hlast := ht.2
    cases h : t.getLast? with
    | none => exact hs.2
    | some b => rwa [h] at hlast

theorem position_crlf_none {text : List UInt8} (h : ∀ b ∈ text, b ≠ 13) : position [13, 10] text = none := by
  have hskip : position [13, 10] (text ++ []) = none := position_skip h []
  rwa [List.append_nil] at hskip

end RequestsNative.Lib
