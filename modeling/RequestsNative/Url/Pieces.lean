import RequestsNative.Url.Quoting

/-!
# The pieces of a text with percent escapes

`unquote_unreserved` reads a text as bytes, escapes and percent signs that start no escape. Requoting a text that was
requoted already changes nothing unless the first pass made an escape: it does so where a percent sign that started none
is followed, once the escapes behind it are decoded, by two letters or digits. `unspliced` says of a text that every
escape made in this way is one the second pass leaves alone, and `requoted_stable_iff` is that this is exact.
-/

namespace RequestsNative.Url

/-! ### Pieces -/

/-- Whether a percent sign before this text starts an escape. -/
def opensEscape : Bytes → Bool
  | high :: low :: _ => isAsciiAlphanumeric high && isAsciiAlphanumeric low
  | _ => false

theorem opensEscape_eq_true {rest : Bytes} : opensEscape rest = true ↔ ∃ high low tail, rest = high :: low :: tail ∧
    isAsciiAlphanumeric high = true ∧ isAsciiAlphanumeric low = true := by
  match rest with
  | [] | [_] => simp [opensEscape]
  | high :: low :: tail => simp [opensEscape]

inductive Piece
  | byte (b : UInt8)
  | escape (high low : UInt8)
  | percent
  deriving DecidableEq, Repr

def pieces : Bytes → List Piece
  | [] => []
  | b :: rest =>
      if b ≠ 37 then .byte b :: pieces rest
      else
        match rest with
        | high :: low :: tail =>
            if isAsciiAlphanumeric high && isAsciiAlphanumeric low then .escape high low :: pieces tail
            else .percent :: pieces (high :: low :: tail)
        | rest => .percent :: pieces rest

theorem pieces_byte {b : UInt8} (hne : b ≠ 37) (rest : Bytes) : pieces (b :: rest) = .byte b :: pieces rest := by
  match rest with
  | [] | [_] | _ :: _ :: _ => simp [pieces, hne]

theorem pieces_escape {high low : UInt8} (hopens : isAsciiAlphanumeric high = true ∧ isAsciiAlphanumeric low = true)
    (rest : Bytes) : pieces (37 :: high :: low :: rest) = .escape high low :: pieces rest := by
  simp [pieces, hopens]

theorem pieces_percent {rest : Bytes} (hlone : opensEscape rest = false) :
    pieces (37 :: rest) = .percent :: pieces rest := by
  match rest, hlone with
  | [], _ | [_], _ => simp [pieces]
  | high :: low :: tail, hlone =>
      rw [opensEscape] at hlone
      rw [pieces, if_neg (by simp)]
      simp only [hlone, Bool.false_eq_true, if_false]

/-- Induction over the pieces of a text. -/
@[elab_as_elim]
theorem byPieces {motive : Bytes → Prop} (nil : motive [])
    (byte : ∀ b rest, b ≠ 37 → motive rest → motive (b :: rest))
    (escape : ∀ high low rest, isAsciiAlphanumeric high = true ∧ isAsciiAlphanumeric low = true →
      motive rest → motive (37 :: high :: low :: rest))
    (percent : ∀ rest, opensEscape rest = false → motive rest → motive (37 :: rest)) (value : Bytes) : motive value := by
  match value with
  | [] => exact nil
  | b :: rest =>
      by_cases hne : b ≠ 37
      · exact byte b rest hne (byPieces nil byte escape percent rest)
      · obtain rfl : b = 37 := not_not.mp hne
        by_cases hlone : opensEscape rest = false
        · exact percent rest hlone (byPieces nil byte escape percent rest)
        · obtain ⟨high, low, tail, rfl, hopens⟩ := opensEscape_eq_true.mp (Bool.not_eq_false _ ▸ hlone)
          exact escape high low tail hopens (byPieces nil byte escape percent tail)
termination_by value.length

/-! ### Bytes -/

theorem alphanumeric_plain {b : UInt8} : isAsciiAlphanumeric b = true →
    b ≠ 37 ∧ isUnreserved b = true ∧ isAsciiAlphanumeric (asciiUpper b) = true := by
  grind [isAsciiAlphanumeric, isAsciiDigit, isUnreserved, asciiUpper]

theorem unreserved_plain {b : UInt8} : isUnreserved b = true → b ≠ 37 ∧ pushByte b = [b] := by
  grind [isAsciiAlphanumeric, isAsciiDigit, isUnreserved, pushByte]

/-- A byte above the ASCII range is written as two of them. -/
theorem pushByte_high {b : UInt8} (h : ¬b < 128) :
    ∃ lead trail, pushByte b = [lead, trail] ∧ ¬lead < 128 ∧ ¬trail < 128 := by
  refine ⟨_, _, if_neg h, ?_, ?_⟩
  · rw [UInt8.lt_iff_toNat_lt, UInt8.toNat_or, Nat.not_lt]
    exact Nat.le_trans (by decide) Nat.left_le_or
  · rw [UInt8.lt_iff_toNat_lt, UInt8.toNat_or, Nat.not_lt]
    exact Nat.left_le_or

theorem high_plain {b : UInt8} : ¬b < 128 → b ≠ 37 ∧ isAsciiAlphanumeric b = false := by
  grind [isAsciiAlphanumeric, isAsciiDigit]

theorem pushByte_plain {b : UInt8} (hne : b ≠ 37) :
    37 ∉ pushByte b ∧ (pushByte b).head?.any isAsciiAlphanumeric = isAsciiAlphanumeric b := by
  by_cases hascii : b < 128
  · rw [pushByte, if_pos hascii]
    simpa using Ne.symm hne
  · obtain ⟨lead, trail, hpush, hlead, htrail⟩ := pushByte_high hascii
    rw [hpush]
    simp [Ne.symm (high_plain hlead).1, Ne.symm (high_plain htrail).1, (high_plain hlead).2, (high_plain hascii).2]

theorem hexValue_upper (b : UInt8) : hexValue (asciiUpper b) = hexValue b ∧ (hexValue b).isSome = isAsciiHexdigit b ∧
    asciiUpper (asciiUpper b) = asciiUpper b ∧ (isAsciiHexdigit b = true → isAsciiAlphanumeric b = true) := by
  grind [isAsciiAlphanumeric, isAsciiDigit, isAsciiHexdigit, asciiUpper, hexValue]

/-! ### Normalising and unquoting, piece by piece -/

theorem unquoteUnreserved_byte {b : UInt8} (hne : b ≠ 37) (rest : Bytes) :
    unquoteUnreserved (b :: rest) = (unquoteUnreserved rest).map (pushByte b ++ ·) := by
  match rest with
  | [] | [_] | _ :: _ :: _ => simp [unquoteUnreserved, hne]

theorem unquoteUnreserved_percent {rest : Bytes} (hlone : opensEscape rest = false) :
    unquoteUnreserved (37 :: rest) = (unquoteUnreserved rest).map (37 :: ·) := by
  match rest, hlone with
  | [], _ | [_], _ => simp [unquoteUnreserved]
  | high :: low :: tail, hlone =>
      rw [opensEscape] at hlone
      rw [unquoteUnreserved, if_neg (by simp)]
      simp only [hlone, Bool.false_eq_true, if_false]

/-- What unquoting makes of an escape. -/
def unquoteEscape (high low : UInt8) : Option Bytes :=
  (hexPair high low).map fun value => if isUnreserved value then [value] else [37, high, low]

theorem unquoteUnreserved_escape {high low : UInt8}
    (hopens : isAsciiAlphanumeric high = true ∧ isAsciiAlphanumeric low = true) (rest : Bytes) :
    unquoteUnreserved (37 :: high :: low :: rest) =
      (unquoteEscape high low).bind fun written => (unquoteUnreserved rest).map (written ++ ·) := by
  rw [unquoteUnreserved, if_neg (by simp), unquoteEscape]
  simp only [hopens, Bool.and_self, if_true]
  cases hpair : hexPair high low with
  | none => rfl
  | some value =>
      by_cases hvalue : isUnreserved value = true
      · simp [hvalue, (unreserved_plain hvalue).2]
      · simp [hvalue]

/-- What a text is unquoted to, piece by piece. -/
inductive Unquotes : Bytes → Bytes → Prop
  | nil : Unquotes [] []
  | byte {b : UInt8} {rest later : Bytes} (hne : b ≠ 37) : Unquotes rest later → Unquotes (b :: rest) (pushByte b ++ later)
  | decoded {high low value : UInt8} {rest later : Bytes}
      (hopens : isAsciiAlphanumeric high = true ∧ isAsciiAlphanumeric low = true) (hpair : hexPair high low = some value)
      (hvalue : isUnreserved value = true) : Unquotes rest later → Unquotes (37 :: high :: low :: rest) (value :: later)
  | kept {high low value : UInt8} {rest later : Bytes}
      (hopens : isAsciiAlphanumeric high = true ∧ isAsciiAlphanumeric low = true) (hpair : hexPair high low = some value)
      (hvalue : isUnreserved value = false) :
      Unquotes rest later → Unquotes (37 :: high :: low :: rest) (37 :: high :: low :: later)
  | percent {rest later : Bytes} (hlone : opensEscape rest = false) : Unquotes rest later → Unquotes (37 :: rest) (37 :: later)

theorem unquotes_of_some {value written : Bytes} (h : unquoteUnreserved value = some written) : Unquotes value written := by
  induction value using byPieces generalizing written with
  | nil =>
      obtain rfl := Option.some.inj h
      exact .nil
  | byte b rest hne ih =>
      rw [unquoteUnreserved_byte hne, Option.map_eq_some_iff] at h
      obtain ⟨later, hlater, rfl⟩ := h
      exact .byte hne (ih hlater)
  | escape high low rest hopens ih =>
      rw [unquoteUnreserved_escape hopens, Option.bind_eq_some_iff] at h
      obtain ⟨decoded, hdecoded, h⟩ := h
      obtain ⟨later, hlater, rfl⟩ := Option.map_eq_some_iff.mp h
      obtain ⟨value, hpair, rfl⟩ := Option.map_eq_some_iff.mp hdecoded
      cases hvalue : isUnreserved value with
      | true => exact .decoded hopens hpair hvalue (ih hlater)
      | false => exact .kept hopens hpair hvalue (ih hlater)
  | percent rest hlone ih =>
      rw [unquoteUnreserved_percent hlone, Option.map_eq_some_iff] at h
      obtain ⟨later, hlater, rfl⟩ := h
      exact .percent hlone (ih hlater)

/-- Bytes without a percent sign are written one by one. -/
theorem unquoteUnreserved_append {plain : Bytes} (hplain : 37 ∉ plain) (rest : Bytes) :
    unquoteUnreserved (plain ++ rest) = (unquoteUnreserved rest).map (plain.flatMap pushByte ++ ·) := by
  induction plain with
  | nil => simp
  | cons b plain ih =>
      rw [List.mem_cons, not_or] at hplain
      rw [List.cons_append, unquoteUnreserved_byte (Ne.symm hplain.1), ih hplain.2, Option.map_map]
      congr 1
      funext written
      simp

theorem normalize_byte {b : UInt8} (hne : b ≠ 37) (rest : Bytes) :
    normalizePercentEscapeHex (b :: rest) = pushByte b ++ normalizePercentEscapeHex rest := by
  match rest with
  | [] | [_] | _ :: _ :: _ => simp [normalizePercentEscapeHex, hne]

theorem normalize_percent {rest : Bytes} (hlone : opensEscape rest = false) :
    normalizePercentEscapeHex (37 :: rest) = 37 :: normalizePercentEscapeHex rest := by
  match rest, hlone with
  | [], _ | [_], _ => simp [normalizePercentEscapeHex, pushByte]
  | high :: low :: tail, hlone =>
      rw [opensEscape] at hlone
      have hnot : ¬(isAsciiHexdigit high = true ∧ isAsciiHexdigit low = true) := by
        intro hhex
        simp [(hexValue_upper high).2.2.2 hhex.1, (hexValue_upper low).2.2.2 hhex.2] at hlone
      rw [normalizePercentEscapeHex, if_neg (fun h => hnot h.2)]
      rfl

/-- The digits of an escape after normalising; two letters that spell no byte are left alone. -/
def upperEscape (high low : UInt8) : UInt8 × UInt8 :=
  if isAsciiHexdigit high && isAsciiHexdigit low then (asciiUpper high, asciiUpper low) else (high, low)

theorem normalize_escape {high low : UInt8}
    (hopens : isAsciiAlphanumeric high = true ∧ isAsciiAlphanumeric low = true) (rest : Bytes) :
    normalizePercentEscapeHex (37 :: high :: low :: rest) =
      37 :: (upperEscape high low).1 :: (upperEscape high low).2 :: normalizePercentEscapeHex rest := by
  rw [normalizePercentEscapeHex, upperEscape]
  by_cases hhex : isAsciiHexdigit high = true ∧ isAsciiHexdigit low = true
  · simp [hhex]
  · have hhigh := alphanumeric_plain hopens.1
    have hlow := alphanumeric_plain hopens.2
    rw [if_neg (fun h => hhex h.2), if_neg (by simpa using hhex), normalize_byte hhigh.1, normalize_byte hlow.1,
      (unreserved_plain hhigh.2.1).2, (unreserved_plain hlow.2.1).2]
    rfl

theorem normalize_head (value : Bytes) :
    (normalizePercentEscapeHex value).head?.any isAsciiAlphanumeric = value.head?.any isAsciiAlphanumeric := by
  induction value using byPieces with
  | nil => rfl
  | byte b rest hne _ =>
      obtain ⟨first, others, hpush⟩ : ∃ first others, pushByte b = first :: others := by
        unfold pushByte
        split <;> exact ⟨_, _, rfl⟩
      have hhead := (pushByte_plain hne).2
      rw [normalize_byte hne, hpush]
      simpa [hpush] using hhead
  | escape high low rest hopens _ =>
      rw [normalize_escape hopens]
      rfl
  | percent rest hlone _ =>
      rw [normalize_percent hlone]
      rfl

theorem opensEscape_cons (b : UInt8) (rest : Bytes) :
    opensEscape (b :: rest) = (isAsciiAlphanumeric b && rest.head?.any isAsciiAlphanumeric) := by
  match rest with
  | [] => simp [opensEscape]
  | _ :: _ => simp [opensEscape]

theorem opensEscape_normalize (value : Bytes) : opensEscape (normalizePercentEscapeHex value) = opensEscape value := by
  match value with
  | [] => rfl
  | b :: rest =>
      by_cases halnum : isAsciiAlphanumeric b = true
      · have hplain := alphanumeric_plain halnum
        rw [normalize_byte hplain.1, (unreserved_plain hplain.2.1).2, List.singleton_append, opensEscape_cons,
          opensEscape_cons, normalize_head]
      · have hhead := normalize_head (b :: rest)
        rw [opensEscape_cons, eq_false_of_ne_true halnum]
        cases hnorm : normalizePercentEscapeHex (b :: rest) with
        | nil => rfl
        | cons first others =>
            have hfirst : isAsciiAlphanumeric first = false := by simpa [hnorm, halnum] using hhead
            rw [opensEscape_cons, hfirst]
            rfl

/-! ### What a text is requoted to -/

/-- The text of a URL as it is requoted: behind a host it is normalised first, in a socket URL it is not. -/
def normalized (normalizes : Bool) (value : Bytes) : Bytes :=
  if normalizes then normalizePercentEscapeHex value else value

def unquoted (normalizes : Bool) (value : Bytes) : Option Bytes := unquoteUnreserved (normalized normalizes value)

@[simp] theorem unquoted_nil (normalizes : Bool) : unquoted normalizes [] = some [] := by
  cases normalizes <;> rfl

/-- What a byte that is no percent sign is written as. -/
def spell (normalizes : Bool) (b : UInt8) : Bytes := if normalizes then (pushByte b).flatMap pushByte else pushByte b

/-- It is written without a percent sign, and starts with a letter or digit only if it is one. -/
theorem spell_plain (normalizes : Bool) {b : UInt8} (hne : b ≠ 37) : 37 ∉ spell normalizes b ∧
    (b < 128 → spell normalizes b = [b]) ∧ spell normalizes b ≠ [] ∧
    (spell normalizes b).head?.any isAsciiAlphanumeric = isAsciiAlphanumeric b := by
  by_cases hascii : b < 128
  · have hpush : pushByte b = [b] := if_pos hascii
    have hspell : spell normalizes b = [b] := by cases normalizes <;> simp [spell, hpush]
    rw [hspell]
    simpa using Ne.symm hne
  · obtain ⟨lead, trail, hpush, hlead, htrail⟩ := pushByte_high hascii
    cases normalizes with
    | false =>
        rw [spell, if_neg Bool.false_ne_true]
        obtain ⟨hpercent, hhead⟩ := pushByte_plain hne
        exact ⟨hpercent, fun h => absurd h hascii, by simp [hpush], hhead⟩
    | true =>
        obtain ⟨hfirst, hhead⟩ := pushByte_plain (high_plain hlead).1
        obtain ⟨hsecond, -⟩ := pushByte_plain (high_plain htrail).1
        obtain ⟨lead', trail', hpush', -⟩ := pushByte_high hlead
        have hspell : spell true b = pushByte lead ++ pushByte trail := by simp [spell, hpush]
        rw [hspell]
        refine ⟨by simp [hfirst, hsecond], fun h => absurd h hascii, by simp [hpush'], ?_⟩
        rw [List.head?_append_of_ne_nil _ (by simp [hpush']), hhead, (high_plain hlead).2, (high_plain hascii).2]

theorem unquoted_byte (normalizes : Bool) {b : UInt8} (hne : b ≠ 37) (rest : Bytes) :
    unquoted normalizes (b :: rest) = (unquoted normalizes rest).map (spell normalizes b ++ ·) := by
  cases normalizes with
  | false => exact unquoteUnreserved_byte hne rest
  | true =>
      rw [unquoted, normalized, if_pos rfl, normalize_byte hne, unquoteUnreserved_append (pushByte_plain hne).1]
      rfl

/-- What an escape is requoted to. -/
def requoteEscape (normalizes : Bool) (high low : UInt8) : Option Bytes :=
  if normalizes then unquoteEscape (upperEscape high low).1 (upperEscape high low).2 else unquoteEscape high low

theorem unquoted_escape (normalizes : Bool) {high low : UInt8}
    (hopens : isAsciiAlphanumeric high = true ∧ isAsciiAlphanumeric low = true) (rest : Bytes) :
    unquoted normalizes (37 :: high :: low :: rest) =
      (requoteEscape normalizes high low).bind fun written => (unquoted normalizes rest).map (written ++ ·) := by
  cases normalizes with
  | false => exact unquoteUnreserved_escape hopens rest
  | true =>
      have hupper : isAsciiAlphanumeric (upperEscape high low).1 = true ∧
          isAsciiAlphanumeric (upperEscape high low).2 = true := by
        unfold upperEscape
        split
        · exact ⟨(alphanumeric_plain hopens.1).2.2, (alphanumeric_plain hopens.2).2.2⟩
        · exact hopens
      rw [unquoted, normalized, if_pos rfl, normalize_escape hopens, unquoteUnreserved_escape hupper]
      rfl

theorem unquoted_percent (normalizes : Bool) {rest : Bytes} (hlone : opensEscape rest = false) :
    unquoted normalizes (37 :: rest) = (unquoted normalizes rest).map (37 :: ·) := by
  cases normalizes with
  | false => exact unquoteUnreserved_percent hlone
  | true =>
      rw [unquoted, normalized, if_pos rfl, normalize_percent hlone,
        unquoteUnreserved_percent ((opensEscape_normalize rest).trans hlone)]
      rfl

/-! ### Texts that requoting leaves alone -/

/-- Whether requoting leaves an escape alone: it stands for a reserved byte, in upper case where case is normalised. -/
def escapeStays (normalizes : Bool) (high low : UInt8) : Bool :=
  match hexPair high low with
  | none => false
  | some value => !isUnreserved value && (!normalizes || (asciiUpper high == high && asciiUpper low == low))

/-- Every escape of the text is one that requoting leaves alone. -/
def stable (normalizes : Bool) (value : Bytes) : Bool :=
  (pieces value).all fun
    | .escape high low => escapeStays normalizes high low
    | _ => true

theorem stable_byte (normalizes : Bool) {b : UInt8} (hne : b ≠ 37) (rest : Bytes) :
    stable normalizes (b :: rest) = stable normalizes rest := by
  simp [stable, pieces_byte hne]

theorem stable_escape (normalizes : Bool) {high low : UInt8}
    (hopens : isAsciiAlphanumeric high = true ∧ isAsciiAlphanumeric low = true) (rest : Bytes) :
    stable normalizes (37 :: high :: low :: rest) = (escapeStays normalizes high low && stable normalizes rest) := by
  simp [stable, pieces_escape hopens]

theorem stable_percent (normalizes : Bool) {rest : Bytes} (hlone : opensEscape rest = false) :
    stable normalizes (37 :: rest) = stable normalizes rest := by
  simp [stable, pieces_percent hlone]

theorem hexPair_eq_some {high low value : UInt8} (h : hexPair high low = some value) :
    isAsciiHexdigit high = true ∧ isAsciiHexdigit low = true := by
  rw [← (hexValue_upper high).2.1, ← (hexValue_upper low).2.1]
  cases hhigh : hexValue high <;> cases hlow : hexValue low <;> simp [hexPair, hhigh, hlow] at h ⊢

/-- The digits an escape keeps. -/
def keptDigits (normalizes : Bool) (high low : UInt8) : UInt8 × UInt8 :=
  if normalizes then upperEscape high low else (high, low)

/-- An escape is decoded, fails the whole text, or comes out as one that stays. -/
theorem requoteEscape_cases (normalizes : Bool) (high low : UInt8)
    (hopens : isAsciiAlphanumeric high = true ∧ isAsciiAlphanumeric low = true) :
    (hexPair high low = none ∧ requoteEscape normalizes high low = none) ∨
    (∃ value, hexPair high low = some value ∧ isUnreserved value = true ∧
      requoteEscape normalizes high low = some [value]) ∨
    (∃ value high' low', hexPair high low = some value ∧ isUnreserved value = false ∧
      requoteEscape normalizes high low = some [37, high', low'] ∧
      (isAsciiAlphanumeric high' = true ∧ isAsciiAlphanumeric low' = true) ∧
      escapeStays normalizes high' low' = true ∧
      (escapeStays normalizes high low = true ↔ high' = high ∧ low' = low)) := by
  have hsame : hexPair (upperEscape high low).1 (upperEscape high low).2 = hexPair high low := by
    unfold upperEscape hexPair
    split
    · rw [(hexValue_upper high).1, (hexValue_upper low).1]
    · rfl
  cases hpair : hexPair high low with
  | none => exact .inl ⟨rfl, by cases normalizes <;> simp [requoteEscape, unquoteEscape, hsame, hpair]⟩
  | some value =>
      by_cases hvalue : isUnreserved value = true
      · refine .inr (.inl ⟨value, rfl, hvalue, ?_⟩)
        cases normalizes <;> simp [requoteEscape, unquoteEscape, hsame, hpair, hvalue]
      · refine .inr (.inr ⟨value, (keptDigits normalizes high low).1, (keptDigits normalizes high low).2, rfl,
          eq_false_of_ne_true hvalue, ?_⟩)
        have hhex := hexPair_eq_some hpair
        cases normalizes with
        | false => simp [requoteEscape, unquoteEscape, keptDigits, escapeStays, hpair, hvalue, hopens]
        | true =>
            have hupper : upperEscape high low = (asciiUpper high, asciiUpper low) := by simp [upperEscape, hhex]
            rw [hupper] at hsame
            simp [requoteEscape, unquoteEscape, keptDigits, escapeStays, hupper, hsame, hpair, hvalue,
              alphanumeric_plain hopens.1, alphanumeric_plain hopens.2, hexValue_upper]

/-- Whether `requote_uri` writes a byte as it is once the escapes are read. -/
def isKept (b : UInt8) : Bool := isUnreserved b || safeWithPercent.contains b

/-- The bytes that are kept, in ranges. -/
theorem isKept_iff (b : UInt8) : isKept b = true ↔ b = 33 ∨ (35 ≤ b ∧ b ≤ 59) ∨ b = 61 ∨ (63 ≤ b ∧ b ≤ 91) ∨ b = 93 ∨
    b = 95 ∨ (97 ≤ b ∧ b ≤ 122) ∨ b = 126 := by
  have hsafe : safeWithPercent = [33, 35, 36, 37, 38, 39, 40, 41, 42, 43, 44, 47, 58, 59, 61, 63, 64, 91, 93, 126] := by
    decide
  rw [isKept, hsafe]
  simp only [isUnreserved, isAsciiAlphanumeric, isAsciiDigit, List.contains_cons, List.contains_nil, Bool.or_eq_true,
    Bool.and_eq_true, beq_iff_eq, decide_eq_true_eq, ← UInt8.toNat_inj, UInt8.le_iff_toNat_le, UInt8.reduceToNat,
    Bool.false_eq_true, or_false]
  omega

theorem isKept_graphic {b : UInt8} (h : isKept b = true) : 33 ≤ b ∧ b ≤ 126 := by
  rw [isKept_iff] at h
  grind

theorem isKept_ascii {b : UInt8} (h : isKept b = true) : b < 128 := by
  grind [isKept_graphic h]

/-- A text of bytes that are written as they are is requoted to itself exactly when its escapes stay. -/
theorem unquoted_eq_self_iff (normalizes : Bool) {value : Bytes} (hkept : ∀ b ∈ value, isKept b = true) :
    unquoted normalizes value = some value ↔ stable normalizes value = true := by
  induction value using byPieces with
  | nil => simp [stable, pieces]
  | byte b rest hne ih =>
      have hrest := ih fun c hc => hkept c (List.mem_cons_of_mem _ hc)
      have hspell := (spell_plain normalizes hne).2.1 (isKept_ascii (hkept b List.mem_cons_self))
      rw [unquoted_byte normalizes hne, hspell, stable_byte normalizes hne, ← hrest]
      simp
  | escape high low rest hopens ih =>
      have hrest := ih fun c hc => hkept c (by simp [hc])
      rw [unquoted_escape normalizes hopens, stable_escape normalizes hopens, Bool.and_eq_true, ← hrest]
      obtain ⟨hpair, hnone⟩ | ⟨value, hpair, hvalue, hsome⟩ | ⟨value, high', low', -, -, hsome, -, -, hstays⟩ :=
        requoteEscape_cases normalizes high low hopens
      · simp [hnone, escapeStays, hpair]
      · have hne := (unreserved_plain hvalue).1
        simp [hsome, escapeStays, hpair, hvalue, hne]
      · rw [hsome, hstays]
        simp
        tauto
  | percent rest hlone ih =>
      have hrest := ih fun c hc => hkept c (List.mem_cons_of_mem _ hc)
      rw [unquoted_percent normalizes hlone, stable_percent normalizes hlone, ← hrest]
      simp

/-! ### Texts that were requoted -/

/-- The last step of `requote_uri`. -/
def quoted (value : Bytes) : Bytes := quoteBytes value safeWithPercent false

theorem quoted_cons (b : UInt8) (rest : Bytes) : quoted (b :: rest) = quoteByte safeWithPercent false b ++ quoted rest := by
  simp [quoted, quoteBytes]

theorem quoted_append (front rest : Bytes) : quoted (front ++ rest) = quoted front ++ quoted rest := by
  simp [quoted, quoteBytes]

theorem quoteByte_kept {b : UInt8} (h : isKept b = true) : quoteByte safeWithPercent false b = [b] := by
  rw [quoteByte, if_pos (by simpa [isKept] using h)]

theorem unreserved_kept {b : UInt8} (h : isUnreserved b = true) : isKept b = true := by
  rw [isKept, h, Bool.true_or]

theorem percent_kept : isKept 37 = true := by
  decide

/-- An escape is written as it is. -/
theorem quoted_escape {high low : UInt8} (hopens : isAsciiAlphanumeric high = true ∧ isAsciiAlphanumeric low = true)
    (rest : Bytes) : quoted (37 :: high :: low :: rest) = 37 :: high :: low :: quoted rest := by
  rw [quoted_cons, quoted_cons, quoted_cons, quoteByte_kept percent_kept,
    quoteByte_kept (unreserved_kept (alphanumeric_plain hopens.1).2.1),
    quoteByte_kept (unreserved_kept (alphanumeric_plain hopens.2).2.1)]
  rfl

theorem nibbles_lt (b : UInt8) : b >>> 4 < 16 ∧ b &&& 0x0F < 16 := by
  have hlt := b.toNat_lt
  constructor
  · rw [UInt8.lt_iff_toNat_lt, UInt8.toNat_shiftRight]
    simp only [UInt8.reduceToNat, Nat.reduceMod, Nat.shiftRight_eq_div_pow, Nat.reducePow]
    omega
  · rw [UInt8.lt_iff_toNat_lt, UInt8.toNat_and]
    exact Nat.lt_succ_of_le Nat.and_le_right

theorem nibbles_eq (b : UInt8) : (b >>> 4) * 16 + (b &&& 0x0F) = b := by
  have hlt := b.toNat_lt
  have hlow : b.toNat &&& 15 = b.toNat % 16 := Nat.and_two_pow_sub_one_eq_mod b.toNat 4
  rw [← UInt8.toNat_inj]
  simp [Nat.shiftRight_eq_div_pow, hlow]
  omega

theorem hexDigit_plain {n : UInt8} (h : n < 16) : isAsciiAlphanumeric (hexDigit n) = true ∧
    hexValue (hexDigit n) = some n ∧ asciiUpper (hexDigit n) = hexDigit n := by
  have hall : ∀ k < 16, isAsciiAlphanumeric (hexDigit (UInt8.ofNat k)) = true ∧
      hexValue (hexDigit (UInt8.ofNat k)) = some (UInt8.ofNat k) ∧
      asciiUpper (hexDigit (UInt8.ofNat k)) = hexDigit (UInt8.ofNat k) := by decide
  have hn := hall n.toNat (UInt8.lt_iff_toNat_lt.mp h)
  rwa [UInt8.ofNat_toNat] at hn

/-- A byte that is not kept becomes an escape that stays. -/
theorem quoteByte_escape (normalizes : Bool) {b : UInt8} : isKept b = false →
    quoteByte safeWithPercent false b = [37, hexDigit (b >>> 4), hexDigit (b &&& 0x0F)] ∧
    (isAsciiAlphanumeric (hexDigit (b >>> 4)) = true ∧ isAsciiAlphanumeric (hexDigit (b &&& 0x0F)) = true) ∧
    escapeStays normalizes (hexDigit (b >>> 4)) (hexDigit (b &&& 0x0F)) = true := by
  intro hkept
  obtain ⟨hunreserved, -⟩ := Bool.or_eq_false_iff.mp hkept
  obtain ⟨hhigh, hlow⟩ := nibbles_lt b
  obtain ⟨hopens, hvalue, hupper⟩ := hexDigit_plain hhigh
  obtain ⟨hopens', hvalue', hupper'⟩ := hexDigit_plain hlow
  have hpair : hexPair (hexDigit (b >>> 4)) (hexDigit (b &&& 0x0F)) = some b := by
    simp [hexPair, hvalue, hvalue', nibbles_eq]
  refine ⟨?_, ⟨hopens, hopens'⟩, ?_⟩
  · rw [quoteByte, show (isUnreserved b || safeWithPercent.contains b) = false from hkept]
    rfl
  · simp [escapeStays, hpair, hunreserved, hupper, hupper']

theorem quoteByte_plain (b : UInt8) : (∀ c ∈ quoteByte safeWithPercent false b, isKept c = true) ∧
    (quoteByte safeWithPercent false b).head?.any isAsciiAlphanumeric = isAsciiAlphanumeric b ∧
    quoteByte safeWithPercent false b ≠ [] := by
  by_cases hkept : isKept b = true
  · rw [quoteByte_kept hkept]
    simp [hkept]
  · obtain ⟨hquoted, hopens, -⟩ := quoteByte_escape true (eq_false_of_ne_true hkept)
    have hletter : isAsciiAlphanumeric b = false := by
      refine eq_false_of_ne_true fun halnum => hkept ?_
      simp [isKept, (alphanumeric_plain halnum).2.1]
    rw [hquoted]
    simp [isKept, (alphanumeric_plain hopens.1).2.1, (alphanumeric_plain hopens.2).2.1, hletter]
    decide

theorem quoted_kept (value : Bytes) : ∀ b ∈ quoted value, isKept b = true := by
  intro b hb
  obtain ⟨c, -, hc⟩ := List.mem_flatMap.mp hb
  exact (quoteByte_plain c).1 b hc

theorem quoted_head (value : Bytes) :
    (quoted value).head?.any isAsciiAlphanumeric = value.head?.any isAsciiAlphanumeric := by
  cases value with
  | nil => rfl
  | cons b rest =>
      obtain ⟨-, hhead, hne⟩ := quoteByte_plain b
      rw [quoted_cons, List.head?_append_of_ne_nil _ hne, hhead]
      rfl

theorem quoted_eq_self {value : Bytes} (hkept : ∀ b ∈ value, isKept b = true) : quoted value = value := by
  induction value with
  | nil => rfl
  | cons b rest ih =>
      rw [quoted_cons, quoteByte_kept (hkept b List.mem_cons_self), ih fun c hc => hkept c (List.mem_cons_of_mem _ hc)]
      rfl

/-- Quoting a byte that is no percent sign adds only an escape that stays. -/
theorem stable_quoteByte (normalizes : Bool) {b : UInt8} (hne : b ≠ 37) (rest : Bytes) :
    stable normalizes (quoteByte safeWithPercent false b ++ rest) = stable normalizes rest := by
  by_cases hkept : isKept b = true
  · rw [quoteByte_kept hkept, List.singleton_append, stable_byte normalizes hne]
  · obtain ⟨hquoted, hopens, hstays⟩ := quoteByte_escape normalizes (eq_false_of_ne_true hkept)
    rw [hquoted, List.cons_append, List.cons_append, List.singleton_append, stable_escape normalizes hopens, hstays,
      Bool.true_and]

theorem stable_quoted (normalizes : Bool) {plain : Bytes} (hplain : 37 ∉ plain) (rest : Bytes) :
    stable normalizes (quoted plain ++ rest) = stable normalizes rest := by
  induction plain with
  | nil => rfl
  | cons b plain ih =>
      rw [List.mem_cons, not_or] at hplain
      rw [quoted_cons, List.append_assoc, stable_quoteByte normalizes (Ne.symm hplain.1), ih hplain.2]

/-- The letter or digit a piece is requoted to. -/
def Piece.letter : Piece → Option UInt8
  | .byte b => if isAsciiAlphanumeric b then some b else none
  | .escape high low => (hexPair high low).filter isAsciiAlphanumeric
  | .percent => none

/-- The letters or digits that come to stand behind a percent sign before these pieces. -/
def splice : List Piece → Option (UInt8 × UInt8)
  | first :: second :: _ => do return (← first.letter, ← second.letter)
  | _ => none

/-- Every escape that requoting makes out of a percent sign that started none is one it leaves alone. -/
def unspliced (normalizes : Bool) : List Piece → Bool
  | [] => true
  | .percent :: rest =>
      (splice rest).all (fun digits => escapeStays normalizes digits.1 digits.2) && unspliced normalizes rest
  | _ :: rest => unspliced normalizes rest

/-- The two letters or digits a text starts with. -/
def leads : Bytes → Option (UInt8 × UInt8)
  | first :: second :: _ => if isAsciiAlphanumeric first && isAsciiAlphanumeric second then some (first, second) else none
  | _ => none

theorem stable_percent_leads (normalizes : Bool) (rest : Bytes) : stable normalizes (37 :: rest) =
    ((leads rest).all (fun digits => escapeStays normalizes digits.1 digits.2) && stable normalizes rest) := by
  by_cases hopens : opensEscape rest = true
  · obtain ⟨high, low, tail, rfl, hdigits⟩ := opensEscape_eq_true.mp hopens
    rw [stable_escape normalizes hdigits, stable_byte normalizes (alphanumeric_plain hdigits.1).1,
      stable_byte normalizes (alphanumeric_plain hdigits.2).1]
    simp [leads, hdigits]
  · have hlone := eq_false_of_ne_true hopens
    have hleads : leads rest = none := by
      match rest, hlone with
      | [], _ | [_], _ => rfl
      | first :: second :: _, hlone =>
          rw [opensEscape] at hlone
          simp [leads, hlone]
    rw [stable_percent normalizes hlone, hleads]
    rfl

/-- The front of a requoted text: its first piece's letter or digit, or something that is none. -/
theorem quoted_front (normalizes : Bool) {value written : Bytes} (h : unquoted normalizes value = some written) :
    (∃ piece first rest remaining, pieces value = piece :: pieces rest ∧ piece.letter = some first ∧
      isAsciiAlphanumeric first = true ∧ unquoted normalizes rest = some remaining ∧
      quoted written = first :: quoted remaining) ∨
    ((pieces value).head?.bind Piece.letter = none ∧ (quoted written).head?.any isAsciiAlphanumeric = false) := by
  induction value using byPieces with
  | nil =>
      obtain rfl : [] = written := by simpa using h
      exact .inr ⟨rfl, rfl⟩
  | byte b rest hne _ =>
      rw [unquoted_byte normalizes hne, Option.map_eq_some_iff] at h
      obtain ⟨remaining, hrest, rfl⟩ := h
      obtain ⟨-, hascii, hsome, hhead⟩ := spell_plain normalizes hne
      rw [pieces_byte hne]
      by_cases halnum : isAsciiAlphanumeric b = true
      · have hkept : isKept b = true := by simp [isKept, (alphanumeric_plain halnum).2.1]
        refine .inl ⟨.byte b, b, rest, remaining, rfl, by simp [Piece.letter, halnum], halnum, hrest, ?_⟩
        rw [hascii (isKept_ascii hkept), List.singleton_append, quoted_cons, quoteByte_kept hkept]
        rfl
      · refine .inr ⟨by simp [Piece.letter, halnum], ?_⟩
        rw [quoted_head, List.head?_append_of_ne_nil _ hsome, hhead]
        exact eq_false_of_ne_true halnum
  | escape high low rest hopens _ =>
      rw [unquoted_escape normalizes hopens] at h
      rw [pieces_escape hopens]
      obtain ⟨-, hnone⟩ | ⟨value, hpair, hvalue, hsome⟩ | ⟨value, high', low', hpair, hvalue, hsome, -⟩ :=
        requoteEscape_cases normalizes high low hopens
      · simp [hnone] at h
      · simp only [hsome, Option.bind_some, Option.map_eq_some_iff] at h
        obtain ⟨remaining, hrest, rfl⟩ := h
        have hkept : isKept value = true := by simp [isKept, hvalue]
        have hquoted : quoted ([value] ++ remaining) = value :: quoted remaining := by
          rw [List.singleton_append, quoted_cons, quoteByte_kept hkept, List.singleton_append]
        rw [hquoted]
        by_cases halnum : isAsciiAlphanumeric value = true
        · exact .inl ⟨.escape high low, value, rest, remaining, rfl, by simp [Piece.letter, hpair, halnum], halnum, hrest, rfl⟩
        · exact .inr ⟨by simp [Piece.letter, hpair, halnum], by simpa using halnum⟩
      · simp only [hsome, Option.bind_some, Option.map_eq_some_iff] at h
        obtain ⟨remaining, -, rfl⟩ := h
        have halnum : ¬isAsciiAlphanumeric value = true := fun halnum => by
          simp [(alphanumeric_plain halnum).2.1] at hvalue
        refine .inr ⟨by simp [Piece.letter, hpair, halnum], ?_⟩
        rw [quoted_head]
        rfl
  | percent rest hlone _ =>
      rw [unquoted_percent normalizes hlone, Option.map_eq_some_iff] at h
      obtain ⟨remaining, -, rfl⟩ := h
      rw [pieces_percent hlone]
      refine .inr ⟨rfl, ?_⟩
      rw [quoted_head]
      rfl

/-- What comes to stand behind a percent sign is what the pieces say. -/
theorem leads_quoted (normalizes : Bool) {value written : Bytes} (h : unquoted normalizes value = some written) :
    leads (quoted written) = splice (pieces value) := by
  obtain ⟨piece, first, rest, remaining, hpieces, hletter, halnum, hrest, hquoted⟩ | ⟨hnone, hhead⟩ :=
    quoted_front normalizes h
  · rw [hpieces, hquoted]
    obtain ⟨piece', second, rest', remaining', hpieces', hletter', halnum', -, hquoted'⟩ | ⟨hnone', hhead'⟩ :=
      quoted_front normalizes hrest
    · rw [hpieces', hquoted']
      simp [leads, splice, hletter, hletter', halnum, halnum']
    · have hleads : leads (first :: quoted remaining) = none := by
        cases hremaining : quoted remaining with
        | nil => rfl
        | cons second others =>
            have hsecond : isAsciiAlphanumeric second = false := by simpa [hremaining] using hhead'
            simp [leads, hsecond]
      rw [hleads]
      cases hpieces' : pieces rest with
      | nil => rfl
      | cons piece' others =>
          have hletter' : piece'.letter = none := by simpa [hpieces'] using hnone'
          simp [splice, hletter']
  · have hleads : leads (quoted written) = none := by
      match hwritten : quoted written with
      | [] | [_] => rfl
      | first :: _ :: _ =>
          have hfirst : isAsciiAlphanumeric first = false := by simpa [hwritten] using hhead
          simp [leads, hfirst]
    rw [hleads]
    match hpieces : pieces value with
    | [] | [_] => rfl
    | piece :: _ :: _ =>
        have hletter : piece.letter = none := by simpa [hpieces] using hnone
        simp [splice, hletter]

/-- The escapes of a requoted text all stay exactly when no other escape was made. -/
theorem stable_requoted (normalizes : Bool) {value written : Bytes} (h : unquoted normalizes value = some written) :
    stable normalizes (quoted written) = unspliced normalizes (pieces value) := by
  induction value using byPieces generalizing written with
  | nil =>
      obtain rfl : [] = written := by simpa using h
      rfl
  | byte b rest hne ih =>
      rw [unquoted_byte normalizes hne, Option.map_eq_some_iff] at h
      obtain ⟨remaining, hrest, rfl⟩ := h
      rw [quoted_append, stable_quoted normalizes (spell_plain normalizes hne).1, ih hrest, pieces_byte hne, unspliced]
      exact nofun
  | escape high low rest hopens ih =>
      rw [unquoted_escape normalizes hopens] at h
      rw [pieces_escape hopens, unspliced]
      obtain ⟨-, hnone⟩ | ⟨value, -, hvalue, hsome⟩ | ⟨value, high', low', -, -, hsome, hopens', hstays, -⟩ :=
        requoteEscape_cases normalizes high low hopens
      · simp [hnone] at h
      · simp only [hsome, Option.bind_some, Option.map_eq_some_iff] at h
        obtain ⟨remaining, hrest, rfl⟩ := h
        have hplain : 37 ∉ [value] := by simpa using (unreserved_plain hvalue).1.symm
        rw [quoted_append, stable_quoted normalizes hplain, ih hrest]
      · simp only [hsome, Option.bind_some, Option.map_eq_some_iff] at h
        obtain ⟨remaining, hrest, rfl⟩ := h
        rw [List.cons_append, List.cons_append, List.singleton_append, quoted_escape hopens',
          stable_escape normalizes hopens', hstays, ih hrest, Bool.true_and]
      · exact nofun
  | percent rest hlone ih =>
      rw [unquoted_percent normalizes hlone, Option.map_eq_some_iff] at h
      obtain ⟨remaining, hrest, rfl⟩ := h
      rw [quoted_cons, quoteByte_kept (by decide), List.singleton_append, stable_percent_leads normalizes,
        leads_quoted normalizes hrest, ih hrest, pieces_percent hlone, unspliced]

/-- A requoted text is requoted to itself exactly when the first pass made no escape that the second one changes. -/
theorem requoted_stable_iff (normalizes : Bool) {value written : Bytes} (h : unquoted normalizes value = some written) :
    unquoted normalizes (quoted written) = some (quoted written) ↔ unspliced normalizes (pieces value) = true := by
  rw [unquoted_eq_self_iff normalizes (quoted_kept written), stable_requoted normalizes h]

end RequestsNative.Url
