import Mathlib.Data.List.Basic
import Mathlib.Data.List.Forall2

/-!
# Percent-encoding

A text with percent escapes spells characters: a byte other than the percent sign stands for itself, and a percent sign and two
hexadecimal digits for the byte with that number. `Spells` says that a text is one way to write some characters. There are such
characters exactly if every percent sign is followed by two digits, and then `characters` finds them.
-/

namespace RequestsNative.Lib.Percent

/-- The value of a hexadecimal digit, of either case. -/
def digit (b : UInt8) : Option UInt8 :=
  if 48 ≤ b ∧ b ≤ 57 then some (b - 48)
  else if 65 ≤ b ∧ b ≤ 70 then some (b - 55)
  else if 97 ≤ b ∧ b ≤ 102 then some (b - 87)
  else none

/-- The value of a letter as its place in the alphabet. -/
theorem digit_eq (b : UInt8) : digit b =
    if 48 ≤ b && b ≤ 57 then some (b - 48)
    else if 97 ≤ b && b ≤ 102 then some (b - 97 + 10)
    else if 65 ≤ b && b ≤ 70 then some (b - 65 + 10)
    else none := by
  have hlower : b - 97 + 10 = b - 87 := by grind
  have hupper : b - 65 + 10 = b - 55 := by grind
  grind [digit]

theorem digit_range {b value : UInt8} : digit b = some value → 48 ≤ b ∧ b ≤ 102 ∧ value < 16 := by
  grind [digit]

/-- A byte, and whether it is written as an escape. -/
structure Character where
  byte : UInt8
  escaped : Bool
  deriving DecidableEq, Repr

inductive Spells : List UInt8 → List Character → Prop
  | nil : Spells [] []
  | plain {b : UInt8} {rest : List UInt8} {later : List Character} (hne : b ≠ 37) :
      Spells rest later → Spells (b :: rest) (⟨b, false⟩ :: later)
  | escape {high low h l : UInt8} {rest : List UInt8} {later : List Character} (hhigh : digit high = some h)
      (hlow : digit low = some l) : Spells rest later → Spells (37 :: high :: low :: rest) (⟨h * 16 + l, true⟩ :: later)

/-- A percent sign that starts no escape is read as itself. -/
def characters : List UInt8 → List Character
  | [] => []
  | 37 :: high :: low :: rest =>
      match digit high, digit low with
      | some h, some l => ⟨h * 16 + l, true⟩ :: characters rest
      | _, _ => ⟨37, false⟩ :: characters (high :: low :: rest)
  | b :: rest => ⟨b, false⟩ :: characters rest

/-- The bytes a text spells. -/
def decode (text : List UInt8) : List UInt8 := (characters text).map Character.byte

/-- Every percent sign is followed by two hexadecimal digits. -/
def Complete (text : List UInt8) : Prop :=
  ∀ before after, text = before ++ 37 :: after →
    ∃ high low rest, after = high :: low :: rest ∧ (digit high).isSome = true ∧ (digit low).isSome = true

/-- The text is a percent-encoding of the bytes. -/
def Encodes (text bytes : List UInt8) : Prop := ∃ later, Spells text later ∧ later.map Character.byte = bytes

@[simp] theorem characters_nil : characters [] = [] := rfl

theorem characters_plain {b : UInt8} (hne : b ≠ 37) (rest : List UInt8) :
    characters (b :: rest) = ⟨b, false⟩ :: characters rest := by
  rw [characters.eq_def]
  split
  · rename_i heq
    cases heq
  · rename_i heq
    exact absurd (List.cons.inj heq).1 hne
  · rename_i heq
    obtain ⟨rfl, rfl⟩ := List.cons.inj heq
    rfl

theorem characters_escape {high low h l : UInt8} (hhigh : digit high = some h) (hlow : digit low = some l) (rest : List UInt8) :
    characters (37 :: high :: low :: rest) = ⟨h * 16 + l, true⟩ :: characters rest := by
  rw [characters, hhigh, hlow]

/-- A text spells at most one list of characters. -/
theorem Spells.characters_eq {text : List UInt8} {later : List Character} (h : Spells text later) : characters text = later := by
  induction h with
  | nil => rfl
  | plain hne _ ih => rw [characters_plain hne, ih]
  | escape hhigh hlow _ ih => rw [characters_escape hhigh hlow, ih]

theorem Spells.decode_eq {text : List UInt8} {later : List Character} (h : Spells text later) :
    decode text = later.map Character.byte := by
  rw [decode, h.characters_eq]

theorem Encodes.decode_eq {text bytes : List UInt8} (h : Encodes text bytes) : decode text = bytes := by
  obtain ⟨later, hspells, rfl⟩ := h
  exact hspells.decode_eq

theorem Spells.append {front rest : List UInt8} {first later : List Character} (hfront : Spells front first)
    (hrest : Spells rest later) : Spells (front ++ rest) (first ++ later) := by
  induction hfront with
  | nil => exact hrest
  | plain hne _ ih => exact .plain hne ih
  | escape hhigh hlow _ ih => exact .escape hhigh hlow ih

theorem Encodes.append {front rest first later : List UInt8} (hfront : Encodes front first) (hrest : Encodes rest later) :
    Encodes (front ++ rest) (first ++ later) := by
  obtain ⟨_, hfirst, rfl⟩ := hfront
  obtain ⟨_, hlater, rfl⟩ := hrest
  exact ⟨_, hfirst.append hlater, List.map_append⟩

/-- A text written byte by byte. -/
theorem Encodes.flatMap {write : UInt8 → List UInt8} {bytes : List UInt8} (h : ∀ b ∈ bytes, Encodes (write b) [b]) :
    Encodes (bytes.flatMap write) bytes := by
  induction bytes with
  | nil => exact ⟨[], .nil, rfl⟩
  | cons b bytes ih =>
      rw [List.flatMap_cons]
      exact (h b List.mem_cons_self).append (ih fun other hother => h other (List.mem_cons_of_mem _ hother))

/-- What is no escape stands in the text itself. -/
theorem Spells.plain_mem {text : List UInt8} {later : List Character} (h : Spells text later) {c : Character} (hc : c ∈ later)
    (hplain : c.escaped = false) : c.byte ≠ 37 ∧ c.byte ∈ text := by
  induction h with
  | nil => cases hc
  | plain hne _ ih =>
      obtain rfl | hc := List.mem_cons.mp hc
      · exact ⟨hne, List.mem_cons_self⟩
      · exact ⟨(ih hc).1, List.mem_cons_of_mem _ (ih hc).2⟩
  | escape _ _ _ ih =>
      obtain rfl | hc := List.mem_cons.mp hc
      · cases hplain
      · refine ⟨(ih hc).1, ?_⟩
        simp only [List.mem_cons, (ih hc).2, or_true]

/-! ### Complete texts -/

theorem Complete.tail {b : UInt8} {rest : List UInt8} (h : Complete (b :: rest)) : Complete rest := by
  intro before after heq
  exact h (b :: before) after (by rw [heq, List.cons_append])

theorem Complete.head {rest : List UInt8} (h : Complete (37 :: rest)) :
    ∃ high low h l later, rest = high :: low :: later ∧ digit high = some h ∧ digit low = some l := by
  obtain ⟨high, low, later, rfl, hhigh, hlow⟩ := h [] rest rfl
  obtain ⟨h, hh⟩ := Option.isSome_iff_exists.mp hhigh
  obtain ⟨l, hl⟩ := Option.isSome_iff_exists.mp hlow
  exact ⟨high, low, h, l, later, rfl, hh, hl⟩

theorem Complete.spells (text : List UInt8) (h : Complete text) : Spells text (characters text) := by
  match text, h with
  | [], _ => exact .nil
  | b :: rest, h =>
      by_cases hne : b ≠ 37
      · rw [characters_plain hne]
        exact .plain hne (Complete.spells rest h.tail)
      · obtain rfl : b = 37 := not_not.mp hne
        obtain ⟨high, low, _, _, later, rfl, hhigh, hlow⟩ := h.head
        rw [characters_escape hhigh hlow]
        exact .escape hhigh hlow (Complete.spells later h.tail.tail.tail)
termination_by text.length

theorem Spells.complete {text : List UInt8} {later : List Character} (h : Spells text later) : Complete text := by
  induction h with
  | nil => exact fun before after heq => absurd heq (by simp)
  | @plain b rest later hne _ ih =>
      rintro (_ | ⟨c, before⟩) after heq
      · exact absurd (List.cons.inj heq).1 hne
      · exact ih before after (List.cons.inj heq).2
  | @escape high low h l rest later hhigh hlow _ ih =>
      -- The digits are no percent signs, so the next one is behind them.
      have hdigit : ∀ {b value}, digit b = some value → b ≠ 37 := by
        rintro b value hvalue rfl
        exact absurd (digit_range hvalue).1 (by decide)
      rintro (_ | ⟨a, _ | ⟨b, _ | ⟨c, before⟩⟩⟩) after heq
      · refine ⟨high, low, rest, (List.cons.inj heq).2.symm, ?_, ?_⟩
        · rw [hhigh, Option.isSome_some]
        · rw [hlow, Option.isSome_some]
      · exact absurd (List.cons.inj (List.cons.inj heq).2).1 (hdigit hhigh)
      · exact absurd (List.cons.inj (List.cons.inj (List.cons.inj heq).2).2).1 (hdigit hlow)
      · exact ih before after (List.cons.inj (List.cons.inj (List.cons.inj heq).2).2).2

/-! ### Forms -/

/-- A plus sign of a form stands for a space. -/
def plusToSpace (b : UInt8) : UInt8 := if b = 43 then 32 else b

/-- The bytes a name or a value of a form spells. -/
def decodeForm (text : List UInt8) : List UInt8 := decode (text.map plusToSpace)

/-- A part of a form, split at its first `=`. -/
def parsePair (part : List UInt8) : List UInt8 × List UInt8 :=
  (decodeForm (part.takeWhile (· != 61)), decodeForm ((part.dropWhile (· != 61)).drop 1))

/-- The pairs of a form, split at `&`. -/
def parseForm (form : List UInt8) : List (List UInt8 × List UInt8) := (form.splitOn 38).map parsePair

theorem parsePair_append {name : List UInt8} (hname : 61 ∉ name) (value : List UInt8) :
    parsePair (name ++ 61 :: value) = (decodeForm name, decodeForm value) := by
  have hplain : ∀ b ∈ name, (b != 61) = true := by
    intro b hb
    rw [bne_iff_ne]
    rintro rfl
    exact hname hb
  rw [parsePair, List.takeWhile_append_of_pos hplain, List.dropWhile_append_of_pos hplain]
  simp

end RequestsNative.Lib.Percent
