import RequestsNative.Ascii
import Mathlib.Data.List.TakeWhile

/-!
# IP addresses

`std::net::IpAddr`, and the parser of the standard library that reads one from a text. An IPv6 address always
has a colon in it, and a text without one is an address exactly if it is four octets in decimal with dots
between them.
-/

namespace RequestsNative

structure Ipv4Addr where
  a : UInt8
  b : UInt8
  c : UInt8
  d : UInt8
  deriving DecidableEq, Repr

inductive IpAddr
  | v4 (address : Ipv4Addr)
  | v6 (groups : Vector UInt16 8)
  deriving DecidableEq, Repr

def Ipv4Addr.octets (address : Ipv4Addr) : Bytes := [address.a, address.b, address.c, address.d]

def IpAddr.octets : IpAddr → Bytes
  | .v4 address => address.octets
  | .v6 groups => groups.toList.flatMap fun group => [.ofNat (group.toNat / 256), .ofNat (group.toNat % 256)]

/-- `Display` of an IPv4 address. -/
def Ipv4Addr.dotted (address : Ipv4Addr) : Bytes :=
  decimal address.a.toNat ++ 46 :: (decimal address.b.toNat ++ 46 :: (decimal address.c.toNat ++
    46 :: decimal address.d.toNat))

/-! ### The parser -/

/-- `char::to_digit`. -/
def toDigit (radix : Nat) (b : UInt8) : Option Nat :=
  let value :=
    if isAsciiDigit b then some (b.toNat - 48)
    else if 97 ≤ b && b ≤ 122 then some (b.toNat - 87)
    else if 65 ≤ b && b ≤ 90 then some (b.toNat - 55)
    else none
  value.filter (· < radix)

/-- `read_number`: all the digits that follow, but not too many and not too great a number. -/
def readNumber (radix maxDigits limit : Nat) (allowZeroPrefix : Bool) (s : Bytes) : Option (Nat × Bytes) :=
  let digits := s.takeWhile fun b => (toDigit radix b).isSome
  let value := digits.foldl (fun n b => n * radix + (toDigit radix b).getD 0) 0
  if digits = [] ∨ maxDigits < digits.length then none
  else if allowZeroPrefix = false ∧ s.head? = some 48 ∧ 1 < digits.length then none
  else if value < limit then some (value, s.drop digits.length)
  else none

def readChar (c : UInt8) : Bytes → Option Bytes
  | [] => none
  | b :: rest => if b = c then some rest else none

def readOctet (s : Bytes) : Option (Nat × Bytes) := readNumber 10 3 256 false s

def readIpv4 (s : Bytes) : Option (Ipv4Addr × Bytes) := do
  let (a, s) ← readOctet s
  let s ← readChar 46 s
  let (b, s) ← readOctet s
  let s ← readChar 46 s
  let (c, s) ← readOctet s
  let s ← readChar 46 s
  let (d, s) ← readOctet s
  return (⟨.ofNat a, .ofNat b, .ofNat c, .ofNat d⟩, s)

/-- `read_separator`: before all but the first. -/
def readSeparator {α : Type} (first : Bool) (inner : Bytes → Option (α × Bytes)) (s : Bytes) : Option (α × Bytes) :=
  if first then inner s else (readChar 58 s).bind inner

/-- `read_groups` with room for `left` groups; an IPv4 address stands for the last two. -/
def readGroups (first : Bool) : Nat → Bytes → List Nat × Bool × Bytes
  | 0, s => ([], false, s)
  | left + 1, s =>
      match if left = 0 then none else readSeparator first readIpv4 s with
      | some (⟨a, b, c, d⟩, rest) => ([a.toNat * 256 + b.toNat, c.toNat * 256 + d.toNat], true, rest)
      | none =>
          match readSeparator first (readNumber 16 4 65536 true) s with
          | none => ([], false, s)
          | some (group, rest) =>
              let (groups, ipv4, rest) := readGroups false left rest
              (group :: groups, ipv4, rest)

def readIpv6 (s : Bytes) : Option (List Nat × Bytes) :=
  let (head, headIpv4, s) := readGroups true 8 s
  if head.length = 8 then some (head, s)
  else if headIpv4 then none
  else do
    let s ← readChar 58 s
    let s ← readChar 58 s
    let (tail, _, s) := readGroups true (8 - (head.length + 1)) s
    return (head ++ List.replicate (8 - head.length - tail.length) 0 ++ tail, s)

/-- The parser has to reach the end. -/
def atEnd {α : Type} : Option (α × Bytes) → Option α
  | some (value, []) => some value
  | _ => none

/-- `str::parse::<Ipv6Addr>`. -/
def parseIpv6 (s : Bytes) : Option (Vector UInt16 8) :=
  (atEnd (readIpv6 s)).map fun groups => Vector.ofFn fun i => .ofNat (groups.getD i 0)

/-- `str::parse::<IpAddr>`; IPv6 is only tried where no IPv4 address begins. -/
def parseIpAddr (s : Bytes) : Option IpAddr :=
  match readIpv4 s with
  | some found => (atEnd (some found)).map .v4
  | none => (parseIpv6 s).map .v6

example : parseIpAddr (text "192.168.0.1") = some (.v4 ⟨192, 168, 0, 1⟩) := by decide
example : parseIpAddr (text "::ffff:1.2.3.4") = some (.v6 #v[0, 0, 0, 0, 0, 65535, 258, 772]) := by decide
example : parseIpAddr (text "[::1]") = none := by decide

/-! ### Octets in decimal -/

theorem toDigit_ten (b : UInt8) : (toDigit 10 b).isSome = isAsciiDigit b := by
  unfold toDigit
  by_cases hdigit : isAsciiDigit b = true
  · obtain ⟨hlow, hhigh⟩ := digit_toNat hdigit
    simp [hdigit, Option.filter, show b.toNat - 48 < 10 by omega]
  · rw [Bool.not_eq_true] at hdigit
    simp only [hdigit, Bool.false_eq_true, if_false]
    split
    · rename_i hlower
      have hbound : 97 ≤ b.toNat := by
        simp only [Bool.and_eq_true, decide_eq_true_eq, UInt8.le_iff_toNat_le] at hlower
        exact hlower.1
      simp [Option.filter, show ¬b.toNat - 87 < 10 by omega]
    · split
      · rename_i hupper
        have hbound : 65 ≤ b.toNat := by
          simp only [Bool.and_eq_true, decide_eq_true_eq, UInt8.le_iff_toNat_le] at hupper
          exact hupper.1
        simp [Option.filter, show ¬b.toNat - 55 < 10 by omega]
      · rfl

theorem toDigit_ten_value {b : UInt8} (h : isAsciiDigit b = true) : toDigit 10 b = some (b.toNat - 48) := by
  obtain ⟨hlow, hhigh⟩ := digit_toNat h
  simp [toDigit, h, Option.filter, show b.toNat - 48 < 10 by omega]

theorem foldl_toDigit {digits : Bytes} (h : digits.all isAsciiDigit = true) :
    digits.foldl (fun n b => n * 10 + (toDigit 10 b).getD 0) 0 = digitsValue digits := by
  apply List.foldl_ext
  intro n b hb
  rw [toDigit_ten_value (List.all_eq_true.mp h b hb)]
  rfl

theorem takeWhile_digits {digits rest : Bytes} (hall : digits.all isAsciiDigit = true)
    (hrest : rest.head?.all (!isAsciiDigit ·) = true) :
    (digits ++ rest).takeWhile (fun b => (toDigit 10 b).isSome) = digits := by
  simp only [toDigit_ten]
  rw [List.takeWhile_append_of_pos fun b hb => List.all_eq_true.mp hall b hb]
  cases rest with
  | nil => simp
  | cons b rest =>
      have hstop : isAsciiDigit b = false := by simpa using hrest
      simp [hstop]

theorem decimal_octet : ∀ n < 256,
    (decimal n).length ≤ 3 ∧ ((decimal n).head? = some 48 → (decimal n).length ≤ 1) := by
  decide +kernel

theorem readOctet_decimal {n : Nat} (hn : n < 256) {rest : Bytes} (hrest : rest.head?.all (!isAsciiDigit ·) = true) :
    readOctet (decimal n ++ rest) = some (n, rest) := by
  have hall := decimal_digits n
  have hne := decimal_ne_nil n
  obtain ⟨hshort, hzero⟩ := decimal_octet n hn
  have hhead : (decimal n ++ rest).head? = (decimal n).head? := List.head?_append_of_ne_nil _ hne
  unfold readOctet readNumber
  simp only [takeWhile_digits hall hrest, foldl_toDigit hall, digitsValue_decimal, hhead, List.drop_left]
  rw [if_neg, if_neg, if_pos hn]
  · rintro ⟨-, hfirst, hlong⟩
    have := hzero hfirst
    omega
  · rintro (hnil | hlong)
    · exact hne hnil
    · omega

theorem readOctet_split {s rest : Bytes} {n : Nat} (h : readOctet s = some (n, rest)) :
    n < 256 ∧ s = decimal n ++ rest := by
  unfold readOctet readNumber at h
  simp only [toDigit_ten] at h
  have hall : (s.takeWhile isAsciiDigit).all isAsciiDigit = true := by
    rw [List.all_eq_true]
    exact fun b hb => List.mem_takeWhile_imp hb
  rw [foldl_toDigit hall] at h
  have hsplit : s.takeWhile isAsciiDigit ++ s.drop (s.takeWhile isAsciiDigit).length = s :=
    List.prefix_iff_eq_append.mp (List.takeWhile_prefix _)
  split at h
  · cases h
  · rename_i hdigits
    have hne : s.takeWhile isAsciiDigit ≠ [] := fun hnil => hdigits (.inl hnil)
    split at h
    · cases h
    · rename_i hzero
      split at h
      · rename_i hn
        cases h
        refine ⟨hn, ?_⟩
        rw [decimal_digitsValue hne hall, hsplit]
        intro hfirst
        have hhead : s.head? = some 48 := by
          rw [← hsplit, List.head?_append_of_ne_nil _ hne, hfirst]
        have hlength := List.length_pos_iff.mpr hne
        by_contra hlong
        exact hzero ⟨trivial, hhead, lt_of_le_of_ne hlength (Ne.symm hlong)⟩
      · cases h

theorem readChar_split {c : UInt8} {s rest : Bytes} (h : readChar c s = some rest) : s = c :: rest := by
  cases s with
  | nil => cases h
  | cons b tail =>
      simp only [readChar] at h
      split at h
      · rename_i hb
        cases h
        rw [hb]
      · cases h

theorem readIpv4_dotted (address : Ipv4Addr) : readIpv4 address.dotted = some (address, []) := by
  have hdot : ∀ (n : UInt8) (rest : Bytes), readOctet (decimal n.toNat ++ 46 :: rest) = some (n.toNat, 46 :: rest) :=
    fun n rest => readOctet_decimal n.toNat_lt rfl
  have hlast : ∀ n : UInt8, readOctet (decimal n.toNat) = some (n.toNat, []) := by
    intro n
    have hread : readOctet (decimal n.toNat ++ []) = some (n.toNat, []) := readOctet_decimal n.toNat_lt rfl
    rwa [List.append_nil] at hread
  simp [readIpv4, Ipv4Addr.dotted, hdot, hlast, readChar]

theorem readIpv4_split {s rest : Bytes} {address : Ipv4Addr} (h : readIpv4 s = some (address, rest)) :
    s = address.dotted ++ rest := by
  unfold readIpv4 at h
  obtain ⟨⟨a, s₁⟩, ha, h⟩ := Option.bind_eq_some_iff.mp h
  obtain ⟨s₂, hdot₁, h⟩ := Option.bind_eq_some_iff.mp h
  obtain ⟨⟨b, s₃⟩, hb, h⟩ := Option.bind_eq_some_iff.mp h
  obtain ⟨s₄, hdot₂, h⟩ := Option.bind_eq_some_iff.mp h
  obtain ⟨⟨c, s₅⟩, hc, h⟩ := Option.bind_eq_some_iff.mp h
  obtain ⟨s₆, hdot₃, h⟩ := Option.bind_eq_some_iff.mp h
  obtain ⟨⟨d, s₇⟩, hd, h⟩ := Option.bind_eq_some_iff.mp h
  cases h
  obtain ⟨hlta, rfl⟩ := readOctet_split ha
  obtain rfl := readChar_split hdot₁
  obtain ⟨hltb, rfl⟩ := readOctet_split hb
  obtain rfl := readChar_split hdot₂
  obtain ⟨hltc, rfl⟩ := readOctet_split hc
  obtain rfl := readChar_split hdot₃
  obtain ⟨hltd, rfl⟩ := readOctet_split hd
  have hoctet : ∀ n < 256, (UInt8.ofNat n).toNat = n := fun n hn => by
    rw [UInt8.toNat_ofNat', Nat.mod_eq_of_lt hn]
  simp only [Ipv4Addr.dotted, hoctet a hlta, hoctet b hltb, hoctet c hltc, hoctet d hltd, List.append_assoc,
    List.cons_append]

/-! ### Texts without a colon -/

section Plain

variable {s : Bytes}

theorem readChar_plain (h : 58 ∉ s) : readChar 58 s = none := by
  cases s with
  | nil => rfl
  | cons b rest =>
      have hb : b ≠ 58 := fun hb => h (by rw [hb]; exact List.mem_cons_self)
      exact if_neg hb

theorem readGroups_plain (h : 58 ∉ s) (left : Nat) : readGroups false left s = ([], false, s) := by
  cases left with
  | zero => rfl
  | succ left => simp [readGroups, readSeparator, readChar_plain h]

theorem readNumber_suffix {radix maxDigits limit n : Nat} {allowZeroPrefix : Bool} {rest : Bytes}
    (h : readNumber radix maxDigits limit allowZeroPrefix s = some (n, rest)) : rest <:+ s := by
  unfold readNumber at h
  simp only at h
  split at h
  · cases h
  · split at h
    · cases h
    · split at h
      · cases h
        exact List.drop_suffix _ _
      · cases h

theorem readGroups_first_plain (h : 58 ∉ s) (left : Nat) :
    (readGroups true left s).1.length ≤ 2 ∧ 58 ∉ (readGroups true left s).2.2 := by
  cases left with
  | zero => exact ⟨Nat.zero_le 2, h⟩
  | succ left =>
      simp only [readGroups, readSeparator, if_true]
      split
      · rename_i a b c d rest hread
        split at hread
        · cases hread
        · rw [readIpv4_split hread] at h
          exact ⟨Nat.le_refl 2, fun hmem => h (List.mem_append_right _ hmem)⟩
      · split
        · exact ⟨Nat.zero_le 2, h⟩
        · rename_i group rest hread
          have hrest : 58 ∉ rest := fun hmem => h ((readNumber_suffix hread).subset hmem)
          rw [readGroups_plain hrest]
          exact ⟨by simp, hrest⟩

/-- An IPv6 address has a colon in it. -/
theorem readIpv6_plain (h : 58 ∉ s) : readIpv6 s = none := by
  obtain ⟨hlength, hrest⟩ := readGroups_first_plain h 8
  unfold readIpv6
  simp only
  rw [if_neg (by omega), readChar_plain hrest]
  simp

/-- A text without a colon is an address exactly if it is an IPv4 address written with dots. -/
theorem parseIpAddr_plain (h : 58 ∉ s) {address : IpAddr} :
    parseIpAddr s = some address ↔ ∃ octets, address = .v4 octets ∧ s = octets.dotted := by
  unfold parseIpAddr
  constructor
  · intro hparse
    split at hparse
    · rename_i found hread
      obtain ⟨octets, rest⟩ := found
      have hsplit := readIpv4_split hread
      cases rest with
      | nil =>
          cases hparse
          exact ⟨octets, rfl, by rwa [List.append_nil] at hsplit⟩
      | cons b rest => cases hparse
    · rw [parseIpv6, readIpv6_plain h] at hparse
      cases hparse
  · rintro ⟨octets, rfl, rfl⟩
    rw [readIpv4_dotted]
    rfl

end Plain

end RequestsNative
