import RequestsNative.Base
import Mathlib.Data.List.Induction

/-!
# Byte texts

The functions of the standard library on bytes and strings that the transport calls, on lists of bytes.
-/

namespace RequestsNative

def isAsciiDigit (b : UInt8) : Bool := 48 ≤ b && b ≤ 57

/-- `u8::is_ascii_whitespace`: space, tab, line feed, form feed and carriage return. -/
def isAsciiWhitespace (b : UInt8) : Bool := b == 32 || b == 9 || b == 10 || b == 12 || b == 13

def asciiLower (b : UInt8) : UInt8 := if 65 ≤ b && b ≤ 90 then b + 32 else b

def asciiUpper (b : UInt8) : UInt8 := if 97 ≤ b && b ≤ 122 then b - 32 else b

def toAsciiLowercase (bytes : Bytes) : Bytes := bytes.map asciiLower

def eqIgnoreAsciiCase (a b : Bytes) : Bool := toAsciiLowercase a == toAsciiLowercase b

/-- `transport/mod.rs`, `trim_ascii`. -/
def trimAscii (bytes : Bytes) : Bytes :=
  ((bytes.dropWhile isAsciiWhitespace).reverse.dropWhile isAsciiWhitespace).reverse

/-- `transport/mod.rs`, `trim_leading_ascii_zeroes`: a text of zeroes keeps its last one. -/
def trimLeadingAsciiZeroes (bytes : Bytes) : Bytes :=
  let firstNonzero := (bytes.findIdx? (· != 48)).getD (bytes.length - 1)
  bytes.drop firstNonzero

/-- Lowering keeps a byte or makes one letter of another. -/
theorem asciiLower_cases (b : UInt8) : asciiLower b = b ∨ (65 ≤ b ∧ b ≤ 90) ∧ 97 ≤ asciiLower b ∧ asciiLower b ≤ 122 := by
  grind [asciiLower]

/-- A byte without a case is lowered from itself alone. -/
theorem asciiLower_eq_iff {b c : UInt8} (hlower : asciiLower c = c) (hupper : asciiUpper c = c) : asciiLower b = c ↔ b = c := by
  constructor
  · rintro rfl
    rw [asciiLower] at hupper ⊢
    split at hupper
    next hletter => grind [asciiUpper]
    next hplain => rw [if_neg hplain]
  · rintro rfl
    exact hlower

theorem not_mem_toAsciiLowercase {c : UInt8} (hlower : asciiLower c = c) (hupper : asciiUpper c = c) {value : Bytes}
    (h : c ∉ value) : c ∉ toAsciiLowercase value := by
  intro hmem
  obtain ⟨b, hb, heq⟩ := List.mem_map.mp hmem
  exact h ((asciiLower_eq_iff hlower hupper).mp heq ▸ hb)

/-- The number a text of digits spells. -/
def digitsValue (digits : Bytes) : Nat := digits.foldl (fun n b => n * 10 + (b.toNat - 48)) 0

theorem digit_byte {n : Nat} {c : Char} (h : c ∈ Nat.toDigits 10 n) :
    isAsciiDigit (UInt8.ofNat c.toNat) = true ∧ (UInt8.ofNat c.toNat).toNat = c.toNat := by
  have hdigit : c.isDigit = true := Nat.isDigit_of_mem_toDigits (by decide) (by decide) h
  obtain ⟨hlow, hhigh⟩ : 48 ≤ c.toNat ∧ c.toNat ≤ 57 := Char.isDigit_iff_toNat.mp hdigit
  have hsame : (UInt8.ofNat c.toNat).toNat = c.toNat := by
    rw [UInt8.toNat_ofNat']
    omega
  refine ⟨?_, hsame⟩
  simp only [isAsciiDigit, Bool.and_eq_true, decide_eq_true_eq, UInt8.le_iff_toNat_le, hsame]
  exact ⟨hlow, hhigh⟩

theorem decimal_digits (n : Nat) : (decimal n).all isAsciiDigit = true := by
  rw [decimal, List.all_map, List.all_eq_true]
  exact fun c hc => (digit_byte hc).1

theorem decimal_ne_nil (n : Nat) : decimal n ≠ [] := by
  simp [decimal, Nat.toDigits_ne_nil]

theorem digitsValue_decimal (n : Nat) : digitsValue (decimal n) = n := by
  have hvalue : Nat.ofDigitChars 10 (Nat.toDigits 10 n) 0 = n := Nat.ofDigitChars_ten_toDigits
  conv_rhs => rw [← hvalue]
  rw [digitsValue, decimal, List.foldl_map, Nat.ofDigitChars_eq_foldl]
  apply List.foldl_ext
  intro value c hc
  rw [(digit_byte hc).2, Nat.mul_comm]
  rfl

theorem digitsValue_snoc (digits : Bytes) (b : UInt8) :
    digitsValue (digits ++ [b]) = digitsValue digits * 10 + (b.toNat - 48) := by
  simp [digitsValue]

theorem digit_toNat {b : UInt8} (h : isAsciiDigit b = true) : 48 ≤ b.toNat ∧ b.toNat ≤ 57 := by
  simpa [isAsciiDigit, UInt8.le_iff_toNat_le] using h

theorem decimal_digit {b : UInt8} (h : isAsciiDigit b = true) : decimal (b.toNat - 48) = [b] := by
  obtain ⟨hlow, hhigh⟩ := digit_toNat h
  have hlt : b.toNat - 48 < 10 := by omega
  rw [decimal, Nat.toDigits_of_lt_base hlt, List.map_singleton, Nat.toNat_digitChar_of_lt_ten hlt,
    show 48 + (b.toNat - 48) = b.toNat by omega, UInt8.ofNat_toNat]

/-- Digits without a leading zero are the numeral of the number they spell. -/
theorem decimal_digitsValue {digits : Bytes} (hne : digits ≠ []) (hall : digits.all isAsciiDigit = true)
    (hzero : digits.head? = some 48 → digits.length = 1) : decimal (digitsValue digits) = digits := by
  induction digits using List.reverseRecOn with
  | nil => exact absurd rfl hne
  | append_singleton digits b ih =>
      rw [List.all_append, Bool.and_eq_true] at hall
      have hdigit : isAsciiDigit b = true := by simpa using hall.2
      rw [digitsValue_snoc]
      by_cases hempty : digits = []
      · subst hempty
        rw [show digitsValue [] = 0 from rfl, Nat.zero_mul, Nat.zero_add, decimal_digit hdigit]
        rfl
      · have hhead : digits.head? ≠ some 48 := by
          intro hhead
          have hlength := hzero (by rw [List.head?_append_of_ne_nil _ hempty, hhead])
          rw [List.length_append, List.length_singleton] at hlength
          exact hempty (List.length_eq_zero_iff.mp (by omega))
        have hfront := ih hempty hall.1 fun h => absurd h hhead
        have hpos : 0 < digitsValue digits := by
          by_contra hnot
          rw [show digitsValue digits = 0 by omega] at hfront
          rw [← hfront] at hhead
          exact hhead (by decide)
        have hlt : b.toNat - 48 < 10 := by
          have hrange := digit_toNat hdigit
          omega
        have hsplit : decimal (digitsValue digits * 10 + (b.toNat - 48)) =
            decimal (digitsValue digits) ++ decimal (b.toNat - 48) := by
          rw [decimal, Nat.mul_comm, ← Nat.toDigits_append_toDigits (by decide) hpos hlt, List.map_append]
          rfl
        rw [hsplit, hfront, decimal_digit hdigit]

/-- `str::parse::<u64>` on a text without a sign. -/
def parseU64 (digits : Bytes) : Option Nat :=
  if digits ≠ [] ∧ digits.all isAsciiDigit = true ∧ digitsValue digits ≤ u64Max then some (digitsValue digits)
  else none

/-- `str::parse::<u16>`, which takes one plus sign. -/
def parseU16 (value : Bytes) : Option Nat :=
  let digits := if value.head? = some 43 then value.tail else value
  if digits ≠ [] ∧ digits.all isAsciiDigit = true ∧ digitsValue digits < 2 ^ 16 then some (digitsValue digits) else none

/-! ### `String::from_utf8` and `from_utf8_lossy` -/

def isContinuation (b : UInt8) : Bool := 128 ≤ b && b ≤ 191

/-- Whether `second` may follow the first byte of a character of three or four bytes. -/
def utf8Second (first second : UInt8) : Bool :=
  if first == 0xE0 then 0xA0 ≤ second && second ≤ 0xBF
  else if first == 0xED then 0x80 ≤ second && second ≤ 0x9F
  else if first == 0xF0 then 0x90 ≤ second && second ≤ 0xBF
  else if first == 0xF4 then 0x80 ≤ second && second ≤ 0x8F
  else isContinuation second

def utf8Width (first : UInt8) : Nat :=
  if first < 0x80 then 1
  else if 0xC2 ≤ first && first ≤ 0xDF then 2
  else if 0xE0 ≤ first && first ≤ 0xEF then 3
  else if 0xF0 ≤ first && first ≤ 0xF4 then 4
  else 0

/-- The length of the first character, or of the broken sequence that stands in its place. -/
def utf8Chunk : Bytes → Bool × Nat
  | [] => (true, 0)
  | first :: rest =>
      match utf8Width first, rest with
      | 1, _ => (true, 1)
      | 2, b :: _ => if isContinuation b then (true, 2) else (false, 1)
      | 3, [b] => if utf8Second first b then (false, 2) else (false, 1)
      | 3, b :: c :: _ =>
          if utf8Second first b then if isContinuation c then (true, 3) else (false, 2) else (false, 1)
      | 4, [b] => if utf8Second first b then (false, 2) else (false, 1)
      | 4, [b, c] =>
          if utf8Second first b then if isContinuation c then (false, 3) else (false, 2) else (false, 1)
      | 4, b :: c :: d :: _ =>
          if utf8Second first b then
            if isContinuation c then if isContinuation d then (true, 4) else (false, 3) else (false, 2)
          else (false, 1)
      | _, _ => (false, 1)

/-- Each broken sequence becomes U+FFFD. `fuel` bounds the number of characters. -/
def fromUtf8LossyWith : Nat → Bytes → Bytes
  | 0, _ => []
  | fuel + 1, bytes =>
      if bytes = [] then []
      else
        let (valid, length) := utf8Chunk bytes
        (if valid then bytes.take length else [0xEF, 0xBF, 0xBD]) ++ fromUtf8LossyWith fuel (bytes.drop length)

def fromUtf8Lossy (bytes : Bytes) : Bytes := fromUtf8LossyWith bytes.length bytes

def isUtf8With : Nat → Bytes → Bool
  | 0, bytes => bytes.isEmpty
  | fuel + 1, bytes => bytes.isEmpty || ((utf8Chunk bytes).1 && isUtf8With fuel (bytes.drop (utf8Chunk bytes).2))

/-- Whether `String::from_utf8` takes the bytes. -/
def isUtf8 (bytes : Bytes) : Bool := isUtf8With bytes.length bytes

example : fromUtf8Lossy (text "é" ++ [0xC3, 65, 0xE2, 0x82] ++ text "€") =
    text "é" ++ [0xEF, 0xBF, 0xBD, 65, 0xEF, 0xBF, 0xBD] ++ text "€" := by decide

end RequestsNative
