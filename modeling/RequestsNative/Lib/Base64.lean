import Mathlib.Data.List.Basic

/-!
# Base 64

The standard alphabet of RFC 4648, decoded: four characters are four numbers of six bits, which are three bytes. The last four
may end in padding and stand for fewer bytes, with the bits left over zero. A text is decoded to some bytes if its characters have
the six bits of these, however they were cut out.
-/

namespace RequestsNative.Lib.Base64

/-- The number of a character of the standard alphabet. -/
def value (c : UInt8) : Option Nat :=
  if 65 ≤ c ∧ c ≤ 90 then some (c.toNat - 65)
  else if 97 ≤ c ∧ c ≤ 122 then some (c.toNat - 97 + 26)
  else if 48 ≤ c ∧ c ≤ 57 then some (c.toNat - 48 + 52)
  else if c = 43 then some 62
  else if c = 47 then some 63
  else none

/-- The character of the padding. -/
def pad : UInt8 := 61

/-- The three bytes of four numbers of six bits. -/
def join (a b c d : Nat) : List UInt8 := [.ofNat (a * 4 + b / 16), .ofNat (b % 16 * 16 + c / 4), .ofNat (c % 4 * 64 + d)]

def decode : List UInt8 → Option (List UInt8)
  | [] => some []
  | a :: b :: c :: d :: rest => do
      let a ← value a
      let b ← value b
      if c = pad ∧ d = pad ∧ rest = [] then if b % 16 = 0 then some ((join a b 0 0).take 1) else none
      else
        let c ← value c
        if d = pad ∧ rest = [] then if c % 4 = 0 then some ((join a b c 0).take 2) else none
        else
          let d ← value d
          let later ← decode rest
          return join a b c d ++ later
  | _ => none

theorem value_pad : value pad = none := by
  decide

theorem ne_pad {c : UInt8} {n : Nat} (h : value c = some n) : c ≠ pad := by
  rintro rfl
  rw [value_pad] at h
  cases h

theorem join_sextets (first second third : UInt8) :
    join (first.toNat / 4) (first.toNat % 4 * 16 + second.toNat / 16) (second.toNat % 16 * 4 + third.toNat / 64)
      (third.toNat % 64) = [first, second, third] := by
  have hfirst := first.toNat_lt
  have hsecond := second.toNat_lt
  have hthird := third.toNat_lt
  have hone : first.toNat / 4 * 4 + (first.toNat % 4 * 16 + second.toNat / 16) / 16 = first.toNat := by omega
  have htwo : (first.toNat % 4 * 16 + second.toNat / 16) % 16 * 16 + (second.toNat % 16 * 4 + third.toNat / 64) / 4 =
      second.toNat := by omega
  have hthree : (second.toNat % 16 * 4 + third.toNat / 64) % 4 * 64 + third.toNat % 64 = third.toNat := by omega
  rw [join, hone, htwo, hthree, UInt8.ofNat_toNat, UInt8.ofNat_toNat, UInt8.ofNat_toNat]

/-- A last group for one byte. -/
theorem decode_one {a b first : UInt8} (ha : value a = some (first.toNat / 4)) (hb : value b = some (first.toNat % 4 * 16)) :
    decode [a, b, pad, pad] = some [first] := by
  have hjoin := join_sextets first 0 0
  have hzero : first.toNat % 4 * 16 % 16 = 0 := by omega
  simp only [UInt8.toNat_zero, Nat.zero_div, Nat.zero_mod, Nat.zero_mul, Nat.add_zero] at hjoin
  simp [decode, ha, hb, hzero, hjoin]

/-- A last group for two bytes. -/
theorem decode_two {a b c first second : UInt8} (ha : value a = some (first.toNat / 4))
    (hb : value b = some (first.toNat % 4 * 16 + second.toNat / 16)) (hc : value c = some (second.toNat % 16 * 4)) :
    decode [a, b, c, pad] = some [first, second] := by
  have hjoin := join_sextets first second 0
  have hzero : second.toNat % 16 * 4 % 4 = 0 := by omega
  simp only [UInt8.toNat_zero, Nat.zero_div, Nat.zero_mod, Nat.add_zero] at hjoin
  simp [decode, ha, hb, hc, ne_pad hc, hzero, hjoin]

/-- A group for three bytes. -/
theorem decode_three {a b c d first second third : UInt8} (ha : value a = some (first.toNat / 4))
    (hb : value b = some (first.toNat % 4 * 16 + second.toNat / 16))
    (hc : value c = some (second.toNat % 16 * 4 + third.toNat / 64)) (hd : value d = some (third.toNat % 64))
    (rest : List UInt8) :
    decode (a :: b :: c :: d :: rest) = (decode rest).map ([first, second, third] ++ ·) := by
  rw [decode]
  simp only [ha, hb, hc, hd, ne_pad hc, ne_pad hd, false_and, if_false, Option.bind_eq_bind, Option.bind_some,
    join_sextets first second third]
  cases decode rest <;> rfl

end RequestsNative.Lib.Base64
