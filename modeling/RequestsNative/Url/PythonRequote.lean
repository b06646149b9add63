import RequestsNative.Url.PrepareTwice

/-!
# Requoting in Python and here

`utils.py`, `requote_uri` and `unquote_unreserved`. They work on characters: an escape is a percent sign and two characters
that `str.isalnum` accepts, in any script, and `int` reads the decimal digits of any script. `utils.rs` works on the bytes
of the same text and writes each byte as a character, so what lies outside ASCII is encoded twice. The two agree on
ASCII, and where a broken escape makes both of them quote the text as it is.
-/

namespace RequestsNative.Url

/-- What Python knows about characters. -/
structure Unicode where
  isalnum : Char → Bool
  /-- `unicodedata.decimal`. -/
  decimal : Char → Option (Fin 10)

def isAsciiChar (c : Char) : Bool := c.toNat < 128

/-- On ASCII the letters and digits are the usual ones. -/
structure Unicode.ExtendsAscii (unicode : Unicode) : Prop where
  isalnum : ∀ {c}, isAsciiChar c = true → unicode.isalnum c = c.isAlphanum
  decimal : ∀ {c}, isAsciiChar c = true → (unicode.decimal c).map Fin.val = if c.isDigit then some (c.toNat - 48) else none

namespace Python

def unreservedSet : List Char := "ABCDEFGHIJKLMNOPQRSTUVWXYZabcdefghijklmnopqrstuvwxyz0123456789-._~".toList

/-- One digit of `int(h, 16)`. -/
def digit16 (unicode : Unicode) (c : Char) : Option Nat :=
  match unicode.decimal c with
  | some digit => some digit
  | none =>
      if 97 ≤ c.toNat ∧ c.toNat ≤ 102 then some (c.toNat - 87)
      else if 65 ≤ c.toNat ∧ c.toNat ≤ 70 then some (c.toNat - 55)
      else none

/-- `chr(int(h, 16))`; `none` is the `ValueError`. -/
def chr16 (unicode : Unicode) (high low : Char) : Option Char := do
  let high ← digit16 unicode high
  let low ← digit16 unicode low
  return Char.ofNat (high * 16 + low)

/-- What becomes of a part behind a percent sign; `none` is the `InvalidURL`. -/
def unquotePart (unicode : Unicode) (part : List Char) : Option (List Char) :=
  match part with
  | high :: low :: rest =>
      if unicode.isalnum high && unicode.isalnum low then
        match chr16 unicode high low with
        | none => none
        | some c => if unreservedSet.contains c then some (c :: rest) else some ('%' :: part)
      else some ('%' :: part)
  | _ => some ('%' :: part)

def unquoteUnreserved (unicode : Unicode) (uri : List Char) : Option (List Char) :=
  match uri.splitOn '%' with
  | [] => some []
  | first :: parts => (parts.mapM (unquotePart unicode)).map fun parts => first ++ parts.flatten

/-- `"%{:02X}"` of a byte. -/
def percentEncode (b : UInt8) : List Char := ['%', (b.toNat / 16).digitChar.toUpper, (b.toNat % 16).digitChar.toUpper]

/-- `urllib.parse.quote`. -/
def quote (value safe : List Char) : List Char :=
  value.flatMap fun c =>
    if c.isAlphanum || "_.-~".toList.contains c || safe.contains c then [c] else (String.utf8EncodeChar c).flatMap percentEncode

def requoteUri (unicode : Unicode) (uri : List Char) : List Char :=
  match unquoteUnreserved unicode uri with
  | some unquoted => quote unquoted "!#$%&'()*+,/:;=?@[]~".toList
  | none => quote uri "!#$&'()*+,/:;=?@[]~".toList

end Python

/-- The bytes of a text. -/
def utf8 (value : List Char) : Bytes := value.flatMap String.utf8EncodeChar

/-! ### Characters and their bytes -/

@[simp] theorem utf8_nil : utf8 [] = [] := rfl

@[simp] theorem utf8_cons (c : Char) (value : List Char) : utf8 (c :: value) = String.utf8EncodeChar c ++ utf8 value := rfl

@[simp] theorem utf8_append (first second : List Char) : utf8 (first ++ second) = utf8 first ++ utf8 second :=
  List.flatMap_append

theorem utf8EncodeChar_ascii {c : Char} (h : isAsciiChar c = true) : String.utf8EncodeChar c = [UInt8.ofNat c.toNat] := by
  have hlow : c.val.toNat ≤ 127 := by
    have hlt : c.toNat < 128 := of_decide_eq_true h
    exact Nat.le_of_lt_succ hlt
  exact if_pos hlow

theorem utf8EncodeChar_high {c : Char} (h : isAsciiChar c = false) : ∀ b ∈ String.utf8EncodeChar c, ¬b < 128 := by
  have hhigh : ¬c.val.toNat ≤ 127 := by
    have hge : ¬c.toNat < 128 := of_decide_eq_false h
    exact fun hle => hge (Nat.lt_succ_of_le hle)
  intro b hb
  rw [String.utf8EncodeChar, if_neg hhigh] at hb
  have hbyte (n : Nat) (hlow : 128 ≤ n) (hlt : n < 256) : ¬UInt8.ofNat n < 128 := by
    rw [UInt8.lt_iff_toNat_lt, UInt8.toNat_ofNat_of_lt' hlt, Nat.not_lt]
    exact hlow
  split_ifs at hb
  all_goals
    simp only [List.mem_cons, List.not_mem_nil, or_false] at hb
  · rcases hb with rfl | rfl <;> apply hbyte <;> omega
  · rcases hb with rfl | rfl | rfl <;> apply hbyte <;> omega
  · rcases hb with rfl | rfl | rfl | rfl <;> apply hbyte <;> omega

/-- One hexadecimal digit of ASCII. -/
def asciiDigit16 (c : Char) : Option Nat :=
  (if c.isDigit then some (c.toNat - 48) else none).or
    (if 97 ≤ c.toNat ∧ c.toNat ≤ 102 then some (c.toNat - 87)
      else if 65 ≤ c.toNat ∧ c.toNat ≤ 70 then some (c.toNat - 55) else none)

theorem ascii_byte {c : Char} (h : isAsciiChar c = true) : (UInt8.ofNat c.toNat).toNat = c.toNat := by
  have hlow : c.toNat < 128 := of_decide_eq_true h
  exact UInt8.toNat_ofNat_of_lt' (hlow.trans (by decide))

theorem ascii_injective {c d : Char} (hc : isAsciiChar c = true) (hd : isAsciiChar d = true) :
    UInt8.ofNat c.toNat = UInt8.ofNat d.toNat ↔ c = d := by
  rw [← UInt8.toNat_inj, ascii_byte hc, ascii_byte hd, Char.toNat_inj]

theorem utf8_of_ascii {chars : List Char} (h : chars.all isAsciiChar = true) :
    utf8 chars = chars.map fun c => UInt8.ofNat c.toNat := by
  induction chars with
  | nil => rfl
  | cons c rest ih =>
      rw [List.all_cons, Bool.and_eq_true] at h
      rw [utf8_cons, utf8EncodeChar_ascii h.1, ih h.2, List.map_cons, List.singleton_append]

theorem isAlphanum_iff {c : Char} : c.isAlphanum = true ↔
    (65 ≤ c.toNat ∧ c.toNat ≤ 90) ∨ (97 ≤ c.toNat ∧ c.toNat ≤ 122) ∨ (48 ≤ c.toNat ∧ c.toNat ≤ 57) := by
  have hranges : c.isAlphanum = ((decide (65 ≤ c.val ∧ c.val ≤ 90) || (decide (97 ≤ c.val) && decide (c.val ≤ 122))) ||
      decide (48 ≤ c.val) && decide (c.val ≤ 57)) := rfl
  simp only [hranges, Bool.or_eq_true, Bool.and_eq_true, decide_eq_true_eq, UInt32.le_iff_toNat_le, UInt32.reduceToNat, or_assoc]
  rfl

theorem ascii_alphanumeric {c : Char} (h : isAsciiChar c = true) : isAsciiAlphanumeric (UInt8.ofNat c.toNat) = c.isAlphanum := by
  rw [Bool.eq_iff_iff, isAlphanum_iff]
  simp only [isAsciiAlphanumeric, isAsciiDigit, Bool.or_eq_true, Bool.and_eq_true, decide_eq_true_eq, UInt8.le_iff_toNat_le,
    ascii_byte h, UInt8.reduceToNat]
  omega

theorem ascii_hexValue {c : Char} (h : isAsciiChar c = true) :
    (hexValue (UInt8.ofNat c.toNat)).map UInt8.toNat = asciiDigit16 c := by
  have hdigit : c.isDigit = true ↔ 48 ≤ c.toNat ∧ c.toNat ≤ 57 := Char.isDigit_iff_toNat
  have hbyte := ascii_byte h
  simp only [asciiDigit16, hexValue, Bool.and_eq_true, decide_eq_true_eq, UInt8.le_iff_toNat_le, hbyte, UInt8.reduceToNat, hdigit]
  split_ifs <;> simp [hbyte, UInt8.toNat_add, UInt8.toNat_sub] <;> omega

theorem percent_not_mem {c : Char} (h : c ≠ '%') : 37 ∉ String.utf8EncodeChar c := by
  cases hc : isAsciiChar c with
  | true =>
      rw [utf8EncodeChar_ascii hc, List.mem_singleton]
      exact fun heq => h ((ascii_injective hc rfl).mp heq.symm)
  | false => exact fun hmem => utf8EncodeChar_high hc 37 hmem (by decide)

/-! ### Python's unquoting, character by character -/

namespace Python

variable {unicode : Unicode}

/-- Whether a percent sign before this text starts an escape. -/
def opensEscape (unicode : Unicode) : List Char → Bool
  | high :: low :: _ => unicode.isalnum high && unicode.isalnum low
  | _ => false

theorem splitOn_cons_ne {c : Char} (h : c ≠ '%') (value : List Char) :
    ∃ first parts, value.splitOn '%' = first :: parts ∧ (c :: value).splitOn '%' = (c :: first) :: parts := by
  obtain ⟨first, parts, hsplit⟩ := List.exists_cons_of_ne_nil (List.splitOn_ne_nil '%' value)
  refine ⟨first, parts, hsplit, ?_⟩
  rw [List.splitOn_cons_eq_if_modifyHead, if_neg (by simpa using h), hsplit]
  rfl

theorem unquoteUnreserved_char {c : Char} (h : c ≠ '%') (value : List Char) :
    unquoteUnreserved unicode (c :: value) = (unquoteUnreserved unicode value).map (c :: ·) := by
  obtain ⟨first, parts, hsplit, hcons⟩ := splitOn_cons_ne h value
  rw [unquoteUnreserved, unquoteUnreserved, hsplit, hcons, Option.map_map]
  rfl

theorem unquoteUnreserved_part {value first : List Char} {parts : List (List Char)}
    (hsplit : value.splitOn '%' = first :: parts) : unquoteUnreserved unicode ('%' :: value) =
      (unquotePart unicode first).bind fun written => (parts.mapM (unquotePart unicode)).map (written ++ ·.flatten) := by
  rw [unquoteUnreserved, List.splitOn_cons_eq_if_modifyHead, if_pos (by rfl), hsplit]
  simp only [List.mapM_cons]
  cases unquotePart unicode first with
  | none => rfl
  | some written => cases parts.mapM (unquotePart unicode) <;> simp

theorem unquoteUnreserved_percent {value : List Char} (hlone : opensEscape unicode value = false) :
    unquoteUnreserved unicode ('%' :: value) = (unquoteUnreserved unicode value).map ('%' :: ·) := by
  obtain ⟨first, parts, hsplit⟩ := List.exists_cons_of_ne_nil (List.splitOn_ne_nil '%' value)
  have hpart : unquotePart unicode first = some ('%' :: first) := by
    match first, hsplit with
    | [], _ | [_], _ => rfl
    | high :: low :: rest, hsplit =>
        -- The part starts as the text does.
        have hvalue : ['%'].intercalate (value.splitOn '%') = value := List.intercalate_splitOn '%'
        rw [hsplit] at hvalue
        have hopens : (unicode.isalnum high && unicode.isalnum low) = false := by
          rw [← hvalue] at hlone
          cases parts <;> simpa [opensEscape, List.intercalate, List.intersperse] using hlone
        simp only [unquotePart, hopens, Bool.false_eq_true, if_false]
  rw [unquoteUnreserved_part hsplit, hpart, unquoteUnreserved, hsplit, Option.map_map]
  rfl

/-- What unquoting makes of an escape. -/
def unquoteEscape (unicode : Unicode) (high low : Char) : Option (List Char) :=
  (chr16 unicode high low).map fun c => if unreservedSet.contains c then [c] else ['%', high, low]

theorem unquoteUnreserved_escape {high low : Char} (hhigh : high ≠ '%') (hlow : low ≠ '%')
    (hopens : unicode.isalnum high = true ∧ unicode.isalnum low = true) (value : List Char) :
    unquoteUnreserved unicode ('%' :: high :: low :: value) =
      (unquoteEscape unicode high low).bind fun written => (unquoteUnreserved unicode value).map (written ++ ·) := by
  obtain ⟨_, _, hsplit, hcons⟩ := splitOn_cons_ne hhigh (low :: value)
  obtain ⟨first, parts, hvalue, hlow⟩ := splitOn_cons_ne hlow value
  obtain ⟨rfl, rfl⟩ := List.cons.inj (hsplit.symm.trans hlow)
  rw [unquoteUnreserved_part hcons, unquotePart, unquoteEscape, unquoteUnreserved, hvalue]
  simp only [hopens, Bool.and_self, if_true]
  cases hchr : chr16 unicode high low with
  | none => rfl
  | some c =>
      by_cases hc : unreservedSet.contains c = true
      · simp only [hc, if_true, Option.bind_some, Option.map_some, Option.map_map]
        rfl
      · simp only [hc, Bool.false_eq_true, if_false, Option.bind_some, Option.map_some, Option.map_map]
        rfl

@[elab_as_elim]
theorem byEscapes (unicode : Unicode) {motive : List Char → Prop} (nil : motive [])
    (char : ∀ c rest, c ≠ '%' → motive rest → motive (c :: rest))
    (escape : ∀ high low rest, unicode.isalnum high = true ∧ unicode.isalnum low = true →
      motive rest → motive ('%' :: high :: low :: rest))
    (percent : ∀ rest, opensEscape unicode rest = false → motive rest → motive ('%' :: rest))
    (value : List Char) : motive value := by
  match value with
  | [] => exact nil
  | c :: rest =>
      by_cases hne : c ≠ '%'
      · exact char c rest hne (byEscapes unicode nil char escape percent rest)
      · obtain rfl : c = '%' := not_not.mp hne
        by_cases hlone : opensEscape unicode rest = false
        · exact percent rest hlone (byEscapes unicode nil char escape percent rest)
        · match rest, hlone with
          | [], hlone | [_], hlone => exact absurd rfl hlone
          | high :: low :: tail, hlone =>
              have hopens : unicode.isalnum high = true ∧ unicode.isalnum low = true := by
                simpa [opensEscape] using hlone
              exact escape high low tail hopens (byEscapes unicode nil char escape percent tail)
termination_by value.length

end Python

/-! ### The same on ASCII -/

theorem hexValue_lt {b value : UInt8} (h : hexValue b = some value) : value.toNat < 16 := by
  have hlt : value < 16 := by
    grind [hexValue]
  exact UInt8.lt_iff_toNat_lt.mp hlt

theorem toNat_ofNat_byte (value : UInt8) : (Char.ofNat value.toNat).toNat = value.toNat := by
  have hvalid : value.toNat.isValidChar := .inl (value.toNat_lt.trans (by decide))
  rw [Char.ofNat, dif_pos hvalid]
  rfl

theorem mem_unreservedSet (c : Char) : c ∈ Python.unreservedSet ↔ (65 ≤ c.toNat ∧ c.toNat < 91) ∨
    (97 ≤ c.toNat ∧ c.toNat < 123) ∨ (48 ≤ c.toNat ∧ c.toNat < 58) ∨ c.toNat ∈ [45, 46, 95, 126] := by
  have hchars : Python.unreservedSet =
      (List.range' 65 26 ++ (List.range' 97 26 ++ (List.range' 48 10 ++ [45, 46, 95, 126]))).map Char.ofNat :=
    String.toList_ofList
  have hcodes : Python.unreservedSet.map Char.toNat =
      List.range' 65 26 ++ (List.range' 97 26 ++ (List.range' 48 10 ++ [45, 46, 95, 126])) := by
    rw [hchars]
    decide
  have hinjective : Function.Injective Char.toNat := fun _ _ => Char.toNat_inj.mp
  rw [← List.mem_map_of_injective hinjective, hcodes, List.mem_append, List.mem_append, List.mem_append,
    List.mem_range'_1, List.mem_range'_1, List.mem_range'_1]

theorem unreserved_char (value : UInt8) : Python.unreservedSet.contains (Char.ofNat value.toNat) = isUnreserved value ∧
    (isUnreserved value = true → String.utf8EncodeChar (Char.ofNat value.toNat) = [value]) := by
  have hcode := toNat_ofNat_byte value
  constructor
  · rw [Bool.eq_iff_iff, List.contains_iff_mem, mem_unreservedSet, hcode]
    simp only [isUnreserved, isAsciiAlphanumeric, isAsciiDigit, Bool.or_eq_true, Bool.and_eq_true, decide_eq_true_eq,
      beq_iff_eq, UInt8.le_iff_toNat_le, ← UInt8.toNat_inj, UInt8.reduceToNat, List.mem_cons, List.not_mem_nil, or_false]
    omega
  · intro hunreserved
    have hascii : isAsciiChar (Char.ofNat value.toNat) = true := by
      rw [isAsciiChar, hcode, decide_eq_true_eq]
      exact UInt8.lt_iff_toNat_lt.mp (isKept_ascii (unreserved_kept hunreserved))
    rw [utf8EncodeChar_ascii hascii, hcode, UInt8.ofNat_toNat]

theorem alphanum_ascii {c : Char} (h : c.isAlphanum = true) : isAsciiChar c = true := by
  rw [isAlphanum_iff] at h
  rw [isAsciiChar, decide_eq_true_eq]
  omega

@[simp] theorem utf8_percent (value : List Char) : utf8 ('%' :: value) = 37 :: utf8 value := rfl

theorem utf8_escape {high low : Char} (hhigh : isAsciiChar high = true) (hlow : isAsciiChar low = true)
    (value : List Char) : utf8 ('%' :: high :: low :: value) =
      37 :: UInt8.ofNat high.toNat :: UInt8.ofNat low.toNat :: utf8 value := by
  rw [utf8_percent, utf8_cons, utf8_cons, utf8EncodeChar_ascii hhigh, utf8EncodeChar_ascii hlow]
  rfl

theorem utf8_alphanumeric {b : UInt8} {bytes : Bytes} {value : List Char} (hbytes : utf8 value = b :: bytes)
    (hb : isAsciiAlphanumeric b = true) : ∃ c rest, value = c :: rest ∧ c.isAlphanum = true ∧ utf8 rest = bytes := by
  cases value with
  | nil => cases hbytes
  | cons c rest =>
      cases hc : isAsciiChar c with
      | true =>
          rw [utf8_cons, utf8EncodeChar_ascii hc] at hbytes
          obtain ⟨rfl, hrest⟩ := List.cons.inj hbytes
          exact ⟨c, rest, rfl, ascii_alphanumeric hc ▸ hb, hrest⟩
      | false =>
          obtain ⟨first, others, hfirst⟩ := List.exists_cons_of_ne_nil (String.utf8EncodeChar_ne_nil (c := c))
          rw [utf8_cons, hfirst] at hbytes
          obtain ⟨rfl, -⟩ := List.cons.inj hbytes
          have hhigh : ¬first < 128 := utf8EncodeChar_high hc first (hfirst ▸ List.mem_cons_self)
          rw [(high_plain hhigh).2] at hb
          cases hb

theorem opensEscape_utf8 {value : List Char} : opensEscape (utf8 value) = true ↔
    ∃ high low rest, value = high :: low :: rest ∧ high.isAlphanum = true ∧ low.isAlphanum = true := by
  rw [opensEscape_eq_true]
  constructor
  · rintro ⟨high, low, bytes, hbytes, hhigh, hlow⟩
    obtain ⟨c, rest, rfl, hc, hrest⟩ := utf8_alphanumeric hbytes hhigh
    obtain ⟨c', rest', rfl, hc', -⟩ := utf8_alphanumeric hrest hlow
    exact ⟨c, c', rest', rfl, hc, hc'⟩
  · rintro ⟨high, low, rest, rfl, hhigh, hlow⟩
    have hhigh' := alphanum_ascii hhigh
    have hlow' := alphanum_ascii hlow
    refine ⟨_, _, utf8 rest, ?_, ascii_alphanumeric hhigh' ▸ hhigh, ascii_alphanumeric hlow' ▸ hlow⟩
    rw [utf8_cons, utf8_cons, utf8EncodeChar_ascii hhigh', utf8EncodeChar_ascii hlow']
    rfl

theorem unquoteUnreserved_char {c : Char} (h : c ≠ '%') (value : List Char) : unquoteUnreserved (utf8 (c :: value)) =
    (unquoteUnreserved (utf8 value)).map ((String.utf8EncodeChar c).flatMap pushByte ++ ·) :=
  unquoteUnreserved_append (percent_not_mem h) (utf8 value)

section Agreement

variable {unicode : Unicode} (hunicode : unicode.ExtendsAscii)
include hunicode

theorem percent_not_alnum : unicode.isalnum '%' = false := by
  rw [hunicode.isalnum (by decide)]
  decide

theorem ne_percent {c : Char} (h : unicode.isalnum c = true) : c ≠ '%' := by
  rintro rfl
  rw [percent_not_alnum hunicode] at h
  cases h

theorem ascii_digit16 {c : Char} (h : isAsciiChar c = true) :
    Python.digit16 unicode c = (hexValue (UInt8.ofNat c.toNat)).map UInt8.toNat := by
  rw [ascii_hexValue h, asciiDigit16, ← hunicode.decimal h, Python.digit16]
  cases unicode.decimal c <;> rfl

theorem ascii_chr16 {high low : Char} (hhigh : isAsciiChar high = true) (hlow : isAsciiChar low = true) :
    Python.chr16 unicode high low =
      (hexPair (UInt8.ofNat high.toNat) (UInt8.ofNat low.toNat)).map fun value => Char.ofNat value.toNat := by
  rw [Python.chr16, hexPair, ascii_digit16 hunicode hhigh, ascii_digit16 hunicode hlow]
  cases hh : hexValue (UInt8.ofNat high.toNat) with
  | none => rfl
  | some h =>
      cases hl : hexValue (UInt8.ofNat low.toNat) with
      | none => rfl
      | some l =>
          have hvalue : (h * 16 + l).toNat = h.toNat * 16 + l.toNat := by
            have hhlt := hexValue_lt hh
            have hllt := hexValue_lt hl
            rw [UInt8.toNat_add, UInt8.toNat_mul, show (16 : UInt8).toNat = 16 from rfl]
            omega
          simp [hvalue]

theorem ascii_unquoteEscape {high low : Char} (hhigh : isAsciiChar high = true) (hlow : isAsciiChar low = true) :
    unquoteEscape (UInt8.ofNat high.toNat) (UInt8.ofNat low.toNat) =
      (Python.unquoteEscape unicode high low).map utf8 := by
  rw [unquoteEscape, Python.unquoteEscape, ascii_chr16 hunicode hhigh hlow, Option.map_map, Option.map_map]
  refine congrArg (Option.map · _) (funext fun value => ?_)
  obtain ⟨hset, hbytes⟩ := unreserved_char value
  rw [Function.comp_apply, Function.comp_apply, hset, apply_ite utf8, utf8_escape hhigh hlow, utf8_nil]
  split
  next hvalue => rw [utf8_cons, utf8_nil, hbytes hvalue, List.append_nil]
  next => rfl

theorem opens_of_ascii {value : List Char} (h : opensEscape (utf8 value) = true) :
    Python.opensEscape unicode value = true := by
  obtain ⟨high, low, rest, rfl, hhigh, hlow⟩ := opensEscape_utf8.mp h
  rw [Python.opensEscape, hunicode.isalnum (alphanum_ascii hhigh), hunicode.isalnum (alphanum_ascii hlow), hhigh, hlow]
  rfl

theorem lone_of_python {value : List Char} (h : Python.opensEscape unicode value = false) :
    opensEscape (utf8 value) = false := by
  refine eq_false_of_ne_true fun hopens => ?_
  rw [opens_of_ascii hunicode hopens] at h
  cases h

theorem ascii_unquoteUnreserved {uri : List Char} (hascii : ∀ c ∈ uri, isAsciiChar c = true) :
    unquoteUnreserved (utf8 uri) = (Python.unquoteUnreserved unicode uri).map utf8 := by
  induction uri using Python.byEscapes unicode with
  | nil => rfl
  | char c rest hne ih =>
      obtain ⟨hc, hrest⟩ := List.forall_mem_cons.mp hascii
      rw [unquoteUnreserved_char hne, Python.unquoteUnreserved_char hne, ih hrest, Option.map_map, Option.map_map,
        utf8EncodeChar_ascii hc]
      congr 1
      funext written
      have hlt : UInt8.ofNat c.toNat < 128 := UInt8.lt_iff_toNat_lt.mpr ((ascii_byte hc).trans_lt (of_decide_eq_true hc))
      simp [pushByte, hlt, utf8EncodeChar_ascii hc]
  | escape high low rest hopens ih =>
      obtain ⟨hhigh, hlow, hrest⟩ : isAsciiChar high = true ∧ isAsciiChar low = true ∧ ∀ c ∈ rest, isAsciiChar c = true := by
        simpa using (List.forall_mem_cons.mp hascii).2
      have hletters := hopens
      rw [hunicode.isalnum hhigh, hunicode.isalnum hlow, ← ascii_alphanumeric hhigh, ← ascii_alphanumeric hlow] at hletters
      rw [utf8_escape hhigh hlow, unquoteUnreserved_escape hletters, ascii_unquoteEscape hunicode hhigh hlow, ih hrest,
        Python.unquoteUnreserved_escape (ne_percent hunicode hopens.1) (ne_percent hunicode hopens.2) hopens]
      cases Python.unquoteEscape unicode high low with
      | none => rfl
      | some written => simp [Function.comp_def]
  | percent rest hlone ih =>
      have hnot := lone_of_python hunicode hlone
      rw [Python.unquoteUnreserved_percent hlone, utf8_percent, unquoteUnreserved_percent hnot,
        ih (List.forall_mem_cons.mp hascii).2, Option.map_map, Option.map_map]
      rfl

end Agreement

/-! ### Broken escapes -/

def isHexdigitChar (c : Char) : Bool := (asciiDigit16 c).isSome

/-- A percent sign and two letters or digits of ASCII that are not both hexadecimal. -/
def startsBroken : List Char → Bool
  | '%' :: high :: low :: _ => high.isAlphanum && low.isAlphanum && !(isHexdigitChar high && isHexdigitChar low)
  | _ => false

def hasBrokenEscape (uri : List Char) : Bool := uri.tails.any startsBroken

theorem hasBrokenEscape_cons (c : Char) (value : List Char) :
    hasBrokenEscape (c :: value) = (startsBroken (c :: value) || hasBrokenEscape value) := rfl

theorem hasBrokenEscape_char {c : Char} (h : c ≠ '%') (value : List Char) :
    hasBrokenEscape (c :: value) = hasBrokenEscape value := by
  have hstart : startsBroken (c :: value) = false := by
    unfold startsBroken
    split
    · next heq => exact absurd (List.cons.inj heq).1 h
    · rfl
  rw [hasBrokenEscape_cons, hstart, Bool.false_or]

theorem hasBrokenEscape_percent {value : List Char} (hlone : opensEscape (utf8 value) = false) :
    hasBrokenEscape ('%' :: value) = hasBrokenEscape value := by
  have hstart : startsBroken ('%' :: value) = false := by
    unfold startsBroken
    split
    · next high low rest heq =>
        obtain rfl := (List.cons.inj heq).2
        by_cases hboth : high.isAlphanum = true ∧ low.isAlphanum = true
        · rw [opensEscape_utf8.mpr ⟨high, low, rest, rfl, hboth⟩] at hlone
          cases hlone
        · simp only [Bool.and_eq_false_iff]
          simp only [not_and_or, Bool.not_eq_true] at hboth
          exact .inl hboth
    · rfl
  rw [hasBrokenEscape_cons, hstart, Bool.false_or]

theorem hasBrokenEscape_escape {high low : Char} (hhigh : high.isAlphanum = true) (hlow : low.isAlphanum = true)
    (value : List Char) : hasBrokenEscape ('%' :: high :: low :: value) =
      (!(isHexdigitChar high && isHexdigitChar low) || hasBrokenEscape value) := by
  have hne {c : Char} (h : c.isAlphanum = true) : c ≠ '%' := by
    rintro rfl
    cases h
  have hrest : hasBrokenEscape (high :: low :: value) = hasBrokenEscape value := by
    rw [hasBrokenEscape_char (hne hhigh), hasBrokenEscape_char (hne hlow)]
  rw [hasBrokenEscape_cons, hrest, startsBroken, hhigh, hlow]
  rfl

theorem hexPair_ascii {high low : Char} (hhigh : isAsciiChar high = true) (hlow : isAsciiChar low = true) :
    (hexPair (UInt8.ofNat high.toNat) (UInt8.ofNat low.toNat)).isNone = !(isHexdigitChar high && isHexdigitChar low) := by
  have hdigit {c : Char} (h : isAsciiChar c = true) : (hexValue (UInt8.ofNat c.toNat)).isSome = isHexdigitChar c := by
    rw [← Option.isSome_map, ascii_hexValue h]
    rfl
  rw [← hdigit hhigh, ← hdigit hlow, hexPair]
  cases hexValue (UInt8.ofNat high.toNat) with
  | none => rfl
  | some value => cases hexValue (UInt8.ofNat low.toNat) <;> rfl

theorem opensEscape_cases (value : List Char) : opensEscape (utf8 value) = false ∨
    ∃ high low rest, value = high :: low :: rest ∧ high.isAlphanum = true ∧ low.isAlphanum = true := by
  rw [← opensEscape_utf8]
  exact (Bool.eq_false_or_eq_true _).symm

theorem unquoteUnreserved_utf8_eq_none (uri : List Char) :
    unquoteUnreserved (utf8 uri) = none ↔ hasBrokenEscape uri = true := by
  match uri with
  | [] => exact ⟨nofun, nofun⟩
  | c :: rest =>
      by_cases hne : c ≠ '%'
      · rw [unquoteUnreserved_char hne, hasBrokenEscape_char hne, Option.map_eq_none_iff]
        exact unquoteUnreserved_utf8_eq_none rest
      · obtain rfl : c = '%' := not_not.mp hne
        obtain hlone | ⟨high, low, tail, rfl, hhigh, hlow⟩ := opensEscape_cases rest
        · rw [utf8_percent, unquoteUnreserved_percent hlone, hasBrokenEscape_percent hlone, Option.map_eq_none_iff]
          exact unquoteUnreserved_utf8_eq_none rest
        · have ih := unquoteUnreserved_utf8_eq_none tail
          have hhigh' := alphanum_ascii hhigh
          have hlow' := alphanum_ascii hlow
          have hpair := hexPair_ascii hhigh' hlow'
          rw [hasBrokenEscape_escape hhigh hlow, ← hpair, utf8_escape hhigh' hlow', unquoteUnreserved_escape
            ⟨ascii_alphanumeric hhigh' ▸ hhigh, ascii_alphanumeric hlow' ▸ hlow⟩, Bool.or_eq_true, ← ih, unquoteEscape]
          cases hexPair (UInt8.ofNat high.toNat) (UInt8.ofNat low.toNat) with
          | none => simp
          | some value => simp
termination_by uri.length

theorem python_eq_none {unicode : Unicode} (hunicode : unicode.ExtendsAscii) {uri : List Char}
    (h : hasBrokenEscape uri = true) : Python.unquoteUnreserved unicode uri = none := by
  induction uri using Python.byEscapes unicode with
  | nil => cases h
  | char c rest hne ih =>
      rw [hasBrokenEscape_char hne] at h
      rw [Python.unquoteUnreserved_char hne, ih h]
      rfl
  | escape high low rest hopens ih =>
      have hhigh := ne_percent hunicode hopens.1
      have hlow := ne_percent hunicode hopens.2
      rw [Python.unquoteUnreserved_escape hhigh hlow hopens]
      rw [hasBrokenEscape_cons, hasBrokenEscape_char hhigh, hasBrokenEscape_char hlow, Bool.or_eq_true] at h
      obtain hhere | hlater := h
      · simp only [startsBroken, Bool.and_eq_true] at hhere
        have hhigh' := alphanum_ascii hhere.1.1
        have hlow' := alphanum_ascii hhere.1.2
        have hnone := hexPair_ascii hhigh' hlow'
        rw [hhere.2, Option.isNone_iff_eq_none] at hnone
        rw [Python.unquoteEscape, ascii_chr16 hunicode hhigh' hlow', hnone]
        rfl
      · rw [ih hlater]
        cases Python.unquoteEscape unicode high low <;> rfl
  | percent rest hlone ih =>
      have hnot := lone_of_python hunicode hlone
      rw [hasBrokenEscape_percent hnot] at h
      rw [Python.unquoteUnreserved_percent hlone, ih h]
      rfl

/-! ### Quoting -/

theorem contains_utf8 {chars : List Char} (hchars : chars.all isAsciiChar = true) {c : Char} (hc : isAsciiChar c = true) :
    (utf8 chars).contains (UInt8.ofNat c.toNat) = chars.contains c := by
  rw [utf8_of_ascii hchars, Bool.eq_iff_iff, List.contains_iff_mem, List.contains_iff_mem, List.mem_map]
  constructor
  · rintro ⟨d, hd, heq⟩
    exact (ascii_injective (List.all_eq_true.mp hchars d hd) hc).mp heq ▸ hd
  · exact fun hmem => ⟨c, hmem, rfl⟩

theorem utf8_small {chars : List Char} (h : chars.all isAsciiChar = true) {b : UInt8} (hb : b ∈ utf8 chars) : b < 128 := by
  rw [utf8_of_ascii h, List.mem_map] at hb
  obtain ⟨c, hc, rfl⟩ := hb
  have hascii := List.all_eq_true.mp h c hc
  rw [UInt8.lt_iff_toNat_lt, ascii_byte hascii]
  exact of_decide_eq_true hascii

theorem unreserved_contains {c : Char} (h : isAsciiChar c = true) :
    (c.isAlphanum || "_.-~".toList.contains c) = isUnreserved (UInt8.ofNat c.toNat) := by
  rw [← contains_utf8 (by decide) h, ← ascii_alphanumeric h]
  have hpunctuation : utf8 "_.-~".toList = [95, 46, 45, 126] := by decide
  rw [hpunctuation, isUnreserved]
  grind

theorem hexDigit_digitChar {n : Nat} (h : n < 16) : String.utf8EncodeChar n.digitChar.toUpper = [hexDigit (UInt8.ofNat n)] := by
  revert n
  decide

theorem utf8_percentEncode (b : UInt8) : utf8 (Python.percentEncode b) = [37, hexDigit (b >>> 4), hexDigit (b &&& 0x0F)] := by
  have hupper : b.toNat / 16 < 16 := Nat.div_lt_of_lt_mul b.toNat_lt
  have hlower : b.toNat % 16 < 16 := Nat.mod_lt _ (by decide)
  have hhigh : b >>> 4 = UInt8.ofNat (b.toNat / 16) := by
    rw [← UInt8.toNat_inj, UInt8.toNat_shiftRight, Nat.shiftRight_eq_div_pow, UInt8.toNat_ofNat_of_lt' (hupper.trans (by decide))]
    rfl
  have hlow : b &&& 0x0F = UInt8.ofNat (b.toNat % 16) := by
    rw [← UInt8.toNat_inj, UInt8.toNat_and, UInt8.toNat_ofNat_of_lt' (hlower.trans (by decide))]
    exact Nat.and_two_pow_sub_one_eq_mod _ 4
  rw [Python.percentEncode, utf8_cons, utf8_cons, utf8_cons, utf8_nil, hexDigit_digitChar hupper, hexDigit_digitChar hlower, hhigh,
    hlow]
  rfl
theorem utf8_flatMap (bytes : Bytes) : utf8 (bytes.flatMap Python.percentEncode) =
    bytes.flatMap fun b : UInt8 => [37, hexDigit (b >>> 4), hexDigit (b &&& 0x0F)] := by
  induction bytes with
  | nil => rfl
  | cons b rest ih => rw [List.flatMap_cons, utf8_append, utf8_percentEncode, ih, List.flatMap_cons]

/-- Quoting characters is quoting their bytes. -/
theorem utf8_quote {safe : List Char} (hsafe : safe.all isAsciiChar = true) (value : List Char) :
    utf8 (Python.quote value safe) = quoteBytes (utf8 value) (utf8 safe) false := by
  induction value with
  | nil => rfl
  | cons c rest ih =>
      have hfirst : utf8 (if c.isAlphanum || "_.-~".toList.contains c || safe.contains c then [c]
          else (String.utf8EncodeChar c).flatMap Python.percentEncode) =
          (String.utf8EncodeChar c).flatMap (quoteByte (utf8 safe) false) := by
        cases hc : isAsciiChar c with
        | true =>
            rw [unreserved_contains hc, ← contains_utf8 hsafe hc, utf8EncodeChar_ascii hc, List.flatMap_cons, List.flatMap_cons,
              List.flatMap_nil, List.flatMap_nil, List.append_nil, List.append_nil, quoteByte]
            split
            · rw [utf8_cons, utf8EncodeChar_ascii hc]
              rfl
            · exact utf8_percentEncode _
        | false =>
            have hhigh := utf8EncodeChar_high hc
            have hplain : (c.isAlphanum || "_.-~".toList.contains c || safe.contains c) = false := by
              refine eq_false_of_ne_true fun hkept => ?_
              have hpunctuation : "_.-~".toList.all isAsciiChar = true := by decide
              simp only [Bool.or_eq_true, List.contains_iff_mem] at hkept
              obtain (h | h) | h := hkept
              · exact absurd (hc.symm.trans (alphanum_ascii h)) (by decide)
              · exact absurd (hc.symm.trans (List.all_eq_true.mp hpunctuation c h)) (by decide)
              · exact absurd (hc.symm.trans (List.all_eq_true.mp hsafe c h)) (by decide)
            rw [hplain, if_neg (by decide), utf8_flatMap]
            apply List.flatMap_congr
            intro b hb
            have hnot : (isUnreserved b || (utf8 safe).contains b) = false := by
              refine eq_false_of_ne_true fun hkept => hhigh b hb ?_
              simp only [Bool.or_eq_true, List.contains_iff_mem] at hkept
              obtain h | h := hkept
              · exact isKept_ascii (unreserved_kept h)
              · exact utf8_small hsafe h
            rw [quoteByte, hnot]
            rfl
      rw [Python.quote, List.flatMap_cons, ← Python.quote, utf8_append, ih, hfirst, utf8_cons, quoteBytes, quoteBytes,
        List.flatMap_append]

theorem utf8_quote_withPercent (value : List Char) :
    utf8 (Python.quote value "!#$%&'()*+,/:;=?@[]~".toList) = quoted (utf8 value) := by
  rw [utf8_quote (by decide), quoted]
  rfl

theorem utf8_quote_withoutPercent (value : List Char) :
    utf8 (Python.quote value "!#$&'()*+,/:;=?@[]~".toList) = percentQuoted (utf8 value) := by
  rw [utf8_quote (by decide), percentQuoted]
  rfl

/-! ### Counting percent signs -/

/-- The bytes outside ASCII. -/
def highBytes (value : Bytes) : Nat := value.countP (128 ≤ ·)

theorem highBytes_cons (b : UInt8) (rest : Bytes) :
    highBytes (b :: rest) = highBytes rest + if b < 128 then 0 else 1 := by
  rw [highBytes, List.countP_cons, ← highBytes]
  by_cases h : b < 128
  · simp [h]
  · simp [h, UInt8.not_lt.mp h]

/-- The escapes that unquoting decodes. -/
def decodedEscapes (value : Bytes) : Nat :=
  (pieces value).countP fun
    | .escape high low => (hexPair high low).any isUnreserved
    | _ => false

theorem decodedEscapes_append {plain : Bytes} (hplain : 37 ∉ plain) (rest : Bytes) :
    decodedEscapes (plain ++ rest) = decodedEscapes rest := by
  induction plain with
  | nil => rfl
  | cons b plain ih =>
      rw [List.mem_cons, not_or] at hplain
      rw [List.cons_append, decodedEscapes, pieces_byte (Ne.symm hplain.1), List.countP_cons, ← decodedEscapes, ih hplain.2]
      rfl

theorem decodedEscapes_percent {rest : Bytes} (hlone : opensEscape rest = false) :
    decodedEscapes (37 :: rest) = decodedEscapes rest := by
  rw [decodedEscapes, pieces_percent hlone, List.countP_cons, ← decodedEscapes]
  rfl

theorem decodedEscapes_escape {high low : UInt8}
    (hopens : isAsciiAlphanumeric high = true ∧ isAsciiAlphanumeric low = true) (rest : Bytes) :
    decodedEscapes (37 :: high :: low :: rest) =
      decodedEscapes rest + if (hexPair high low).any isUnreserved = true then 1 else 0 := by
  rw [decodedEscapes, pieces_escape hopens, List.countP_cons, ← decodedEscapes]

theorem quoteByte_high {b : UInt8} (h : ¬b < 128) : (quoteByte safeWithPercent false b).count 37 = 1 ∧
    (quoteByte safeWithPercent false b).length = 3 := by
  have hkept : isKept b = false := eq_false_of_ne_true fun hkept => h (isKept_ascii hkept)
  obtain ⟨hquoted, ⟨hhigh, hlow⟩, -⟩ := quoteByte_escape true hkept
  have hhigh' := (alphanumeric_plain hhigh).1
  have hlow' := (alphanumeric_plain hlow).1
  rw [hquoted]
  simp [hhigh', hlow']

theorem highBytes_escape {high low : UInt8} (hopens : isAsciiAlphanumeric high = true ∧ isAsciiAlphanumeric low = true)
    (rest : Bytes) : highBytes (37 :: high :: low :: rest) = highBytes rest := by
  have hlow {b : UInt8} (h : isAsciiAlphanumeric b = true) : b < 128 := by
    by_contra hhigh
    rw [(high_plain hhigh).2] at h
    cases h
  rw [highBytes_cons, highBytes_cons, highBytes_cons, if_pos (hlow hopens.1), if_pos (hlow hopens.2), if_pos (by decide),
    Nat.add_zero]

/-- What unquoting does to the escapes of a text once it is quoted. -/
theorem quoted_unquoted {value written : Bytes} (h : unquoteUnreserved value = some written) :
    (quoted written).count 37 + decodedEscapes value = (quoted value).count 37 + highBytes value ∧
    (quoted written).length + 2 * decodedEscapes value = (quoted value).length + 3 * highBytes value ∧
    decodedEscapes value ≤ value.count 37 := by
  have hpieces := unquotes_of_some h
  clear h
  induction hpieces with
  | nil => exact ⟨rfl, rfl, Nat.le_refl 0⟩
  | @byte b rest later hne _ ih =>
      obtain ⟨hcount, hlength, hle⟩ := ih
      have hdecoded : decodedEscapes (b :: rest) = decodedEscapes rest :=
        decodedEscapes_append (fun hmem => hne (List.mem_singleton.mp hmem).symm) rest
      rw [hdecoded, List.count_cons_of_ne hne, quoted_append, quoted_cons, highBytes_cons]
      by_cases hascii : b < 128
      · rw [pushByte, if_pos hascii, quoted_cons, if_pos hascii, show quoted [] = [] from rfl]
        simp only [List.append_nil, List.count_append, List.length_append]
        omega
      · obtain ⟨lead, trail, hpush, hlead, htrail⟩ := pushByte_high hascii
        rw [hpush, quoted_cons, quoted_cons, if_neg hascii, show quoted [] = [] from rfl]
        simp only [List.append_nil, List.count_append, List.length_append, quoteByte_high hlead, quoteByte_high htrail,
          quoteByte_high hascii]
        omega
  | decoded hopens hpair hvalue _ ih =>
      obtain ⟨hcount, hlength, hle⟩ := ih
      have hhigh := (alphanumeric_plain hopens.1).1
      have hlow := (alphanumeric_plain hopens.2).1
      rw [decodedEscapes_escape hopens, hpair, Option.any_some, if_pos hvalue, highBytes_escape hopens, quoted_escape hopens,
        quoted_cons, quoteByte_kept (unreserved_kept hvalue)]
      simp only [List.singleton_append, List.count_cons_self, List.count_cons_of_ne hhigh, List.count_cons_of_ne hlow,
        List.count_cons_of_ne (unreserved_plain hvalue).1, List.length_cons]
      omega
  | kept hopens hpair hvalue _ ih =>
      obtain ⟨hcount, hlength, hle⟩ := ih
      have hhigh := (alphanumeric_plain hopens.1).1
      have hlow := (alphanumeric_plain hopens.2).1
      rw [decodedEscapes_escape hopens, hpair, Option.any_some, hvalue, if_neg Bool.false_ne_true, highBytes_escape hopens,
        quoted_escape hopens, quoted_escape hopens]
      simp only [List.count_cons_self, List.count_cons_of_ne hhigh, List.count_cons_of_ne hlow, List.length_cons]
      omega
  | percent hlone _ ih =>
      obtain ⟨hcount, hlength, hle⟩ := ih
      rw [decodedEscapes_percent hlone, highBytes_cons, if_pos (by decide), quoted_cons, quoted_cons, quoteByte_kept percent_kept]
      simp only [List.singleton_append, List.count_cons_self, List.length_cons]
      omega

theorem percentQuoted_count (value : Bytes) : (percentQuoted value).count 37 = (quoted value).count 37 ∧
    (percentQuoted value).length = (quoted value).length + 2 * value.count 37 := by
  induction value with
  | nil => exact ⟨rfl, rfl⟩
  | cons b rest ih =>
      rw [percentQuoted_cons, quoted_cons, List.count_append, List.count_append, List.length_append, List.length_append,
        ih.1, ih.2]
      obtain ⟨hne, hsame⟩ | ⟨rfl, hescape, -⟩ := quoteByte_percent true b
      · rw [hsame, List.count_cons_of_ne hne]
        omega
      · rw [hescape, quoteByte_kept percent_kept, List.count_cons_self]
        simp
        omega

/-- What Python writes for an escape has no more percent signs, and fewer where the escape is decoded here. -/
theorem python_escape_count {unicode : Unicode} (hunicode : unicode.ExtendsAscii) {high low : Char} {decoded : List Char}
    (hne : high ≠ '%' ∧ low ≠ '%') (h : Python.unquoteEscape unicode high low = some decoded) (rest : List Char) :
    (quoted (utf8 decoded)).count 37 + decodedEscapes (utf8 ('%' :: high :: low :: rest)) ≤
      (quoted (utf8 ['%', high, low])).count 37 + decodedEscapes (utf8 rest) := by
  by_cases hboth : high.isAlphanum = true ∧ low.isAlphanum = true
  · have hhigh := alphanum_ascii hboth.1
    have hlow := alphanum_ascii hboth.2
    have hopens : isAsciiAlphanumeric (UInt8.ofNat high.toNat) = true ∧ isAsciiAlphanumeric (UInt8.ofNat low.toNat) = true :=
      ⟨ascii_alphanumeric hhigh ▸ hboth.1, ascii_alphanumeric hlow ▸ hboth.2⟩
    have hbytes := ascii_unquoteEscape hunicode hhigh hlow
    rw [h, unquoteEscape, Option.map_some, Option.map_eq_some_iff] at hbytes
    obtain ⟨value, hpair, hvalue⟩ := hbytes
    rw [utf8_escape hhigh hlow, utf8_escape hhigh hlow, utf8_nil, decodedEscapes_escape hopens, hpair, Option.any_some,
      ← hvalue, quoted_escape hopens]
    by_cases hunreserved : isUnreserved value = true
    · rw [if_pos hunreserved, if_pos hunreserved, quoted_cons, quoteByte_kept (unreserved_kept hunreserved)]
      have hpercent := (unreserved_plain hunreserved).1
      rw [show quoted [] = [] from rfl, List.append_nil, List.count_cons_of_ne hpercent, List.count_nil,
        List.count_cons_self]
      omega
    · rw [if_neg hunreserved, if_neg hunreserved, quoted_escape hopens]
      omega
  · -- The bytes open no escape here, so none is decoded.
    have hlone : opensEscape (utf8 (high :: low :: rest)) = false := by
      obtain hlone | ⟨high', low', rest', heq, hopens⟩ := opensEscape_cases (high :: low :: rest)
      · exact hlone
      · cases heq
        exact absurd hopens hboth
    rw [utf8_percent, decodedEscapes_percent hlone, utf8_cons, utf8_cons, decodedEscapes_append (percent_not_mem hne.1),
      decodedEscapes_append (percent_not_mem hne.2)]
    have hle : (quoted (utf8 decoded)).count 37 ≤ (quoted (utf8 ['%', high, low])).count 37 := by
      rw [Python.unquoteEscape, Option.map_eq_some_iff] at h
      obtain ⟨c, -, rfl⟩ := h
      split
      · next hset =>
          have hascii : isAsciiChar c = true := by
            have hrange := (mem_unreservedSet c).mp (List.contains_iff_mem.mp hset)
            rw [isAsciiChar, decide_eq_true_eq]
            simp only [List.mem_cons, List.not_mem_nil, or_false] at hrange
            omega
          have hunreserved : isUnreserved (UInt8.ofNat c.toNat) = true := by
            rw [← (unreserved_char _).1, ascii_byte hascii, Char.ofNat_toNat]
            exact hset
          rw [utf8_cons, utf8EncodeChar_ascii hascii, utf8_nil, List.append_nil, quoted_cons,
            quoteByte_kept (unreserved_kept hunreserved), show quoted [] = [] from rfl, List.append_nil,
            List.count_cons_of_ne (unreserved_plain hunreserved).1, List.count_nil]
          exact Nat.zero_le _
      · exact Nat.le_refl _
    omega

/-- Python decodes at least the escapes that are decoded here. -/
theorem python_count {unicode : Unicode} (hunicode : unicode.ExtendsAscii) {uri written : List Char}
    (h : Python.unquoteUnreserved unicode uri = some written) :
    (quoted (utf8 written)).count 37 + decodedEscapes (utf8 uri) ≤ (quoted (utf8 uri)).count 37 := by
  induction uri using Python.byEscapes unicode generalizing written with
  | nil =>
      obtain rfl := Option.some.inj h
      exact Nat.le_refl 0
  | char c rest hne ih =>
      rw [Python.unquoteUnreserved_char hne, Option.map_eq_some_iff] at h
      obtain ⟨later, hlater, rfl⟩ := h
      have hle := ih hlater
      rw [utf8_cons, utf8_cons, quoted_append, quoted_append, decodedEscapes_append (percent_not_mem hne), List.count_append,
        List.count_append]
      omega
  | escape high low rest hopens ih =>
      have hne := And.intro (ne_percent hunicode hopens.1) (ne_percent hunicode hopens.2)
      rw [Python.unquoteUnreserved_escape hne.1 hne.2 hopens, Option.bind_eq_some_iff] at h
      obtain ⟨decoded, hdecoded, h⟩ := h
      obtain ⟨later, hlater, rfl⟩ := Option.map_eq_some_iff.mp h
      have hle := ih hlater
      have hescape := python_escape_count hunicode hne hdecoded rest
      have hsplit : utf8 ('%' :: high :: low :: rest) = utf8 ['%', high, low] ++ utf8 rest := utf8_append ['%', high, low] rest
      rw [utf8_append, quoted_append, List.count_append]
      conv_rhs => rw [hsplit, quoted_append, List.count_append]
      omega
  | percent rest hlone ih =>
      rw [Python.unquoteUnreserved_percent hlone, Option.map_eq_some_iff] at h
      obtain ⟨later, hlater, rfl⟩ := h
      have hle := ih hlater
      rw [utf8_percent, utf8_percent, quoted_cons, quoted_cons, quoteByte_kept percent_kept,
        decodedEscapes_percent (lone_of_python hunicode hlone)]
      simp only [List.singleton_append, List.count_cons_self]
      omega

theorem highBytes_pos {uri : List Char} {c : Char} (hmem : c ∈ uri) (hc : isAsciiChar c = false) :
    0 < highBytes (utf8 uri) := by
  obtain ⟨b, hb⟩ := List.exists_mem_of_ne_nil _ (String.utf8EncodeChar_ne_nil (c := c))
  have hhigh := utf8EncodeChar_high hc b hb
  rw [highBytes, List.countP_pos_iff]
  exact ⟨b, List.mem_flatMap.mpr ⟨c, hmem, hb⟩, decide_eq_true (UInt8.not_lt.mp hhigh)⟩

/-- `requote_uri` agrees with Python's on ASCII and where a broken escape makes both quote the text as it is. -/
theorem requoteUri_agrees_iff {unicode : Unicode} (hunicode : unicode.ExtendsAscii) (uri : List Char) :
    requoteUri (utf8 uri) = utf8 (Python.requoteUri unicode uri) ↔
      (∀ c ∈ uri, isAsciiChar c = true) ∨ hasBrokenEscape uri = true := by
  constructor
  · intro hagree
    by_contra hnot
    simp only [not_or, not_forall, Bool.not_eq_true] at hnot
    obtain ⟨⟨c, hmem, hc⟩, hbroken⟩ := hnot
    have hhigh := highBytes_pos hmem hc
    cases hunquoted : unquoteUnreserved (utf8 uri) with
    | none =>
        rw [(unquoteUnreserved_utf8_eq_none uri).mp hunquoted] at hbroken
        cases hbroken
    | some unquoted =>
        obtain ⟨hcount, hlength, hle⟩ := quoted_unquoted hunquoted
        have hhere : requoteUri (utf8 uri) = quoted unquoted := by
          rw [requoteUri, hunquoted]
          rfl
        rw [hhere] at hagree
        cases hpython : Python.unquoteUnreserved unicode uri with
        | none =>
            obtain ⟨hcount', hlength'⟩ := percentQuoted_count (utf8 uri)
            rw [Python.requoteUri, hpython, utf8_quote_withoutPercent] at hagree
            rw [hagree] at hcount hlength
            omega
        | some written =>
            have hle' := python_count hunicode hpython
            rw [Python.requoteUri, hpython, utf8_quote_withPercent] at hagree
            rw [hagree] at hcount
            omega
  · rintro (hascii | hbroken)
    · rw [requoteUri, Python.requoteUri, ascii_unquoteUnreserved hunicode hascii]
      cases Python.unquoteUnreserved unicode uri with
      | none => exact (utf8_quote_withoutPercent uri).symm
      | some written => exact (utf8_quote_withPercent written).symm
    · rw [requoteUri, Python.requoteUri, (unquoteUnreserved_utf8_eq_none uri).mpr hbroken, python_eq_none hunicode hbroken]
      exact (utf8_quote_withoutPercent uri).symm

/-- Python's characters on texts whose letters and digits are those of ASCII. -/
def Unicode.ascii : Unicode where
  isalnum := Char.isAlphanum
  decimal c := if c.isDigit then some (Fin.ofNat 10 (c.toNat - 48)) else none

theorem Unicode.ascii_extends : Unicode.ascii.ExtendsAscii where
  isalnum _ := rfl
  decimal {c} _ := by
    by_cases hdigit : c.isDigit = true
    · have hrange : 48 ≤ c.toNat ∧ c.toNat ≤ 57 := Char.isDigit_iff_toNat.mp hdigit
      have hlt : (c.toNat - 48) % 10 = c.toNat - 48 := Nat.mod_eq_of_lt (by omega)
      simp [Unicode.ascii, hdigit, hlt]
    · simp [Unicode.ascii, hdigit]

theorem requoteUri_agrees_broken : Unicode.ascii.ExtendsAscii ∧
    (requoteUri (utf8 "/é%zz".toList) = utf8 (Python.requoteUri .ascii "/é%zz".toList) ↔
      (∀ c ∈ "/é%zz".toList, isAsciiChar c = true) ∨ hasBrokenEscape "/é%zz".toList = true) :=
  ⟨Unicode.ascii_extends, requoteUri_agrees_iff Unicode.ascii_extends "/é%zz".toList⟩

/-- A letter outside ASCII is encoded twice. -/
theorem requoteUri_accent : requoteUri (utf8 "/é".toList) = text "/%C3%83%C2%A9" ∧
    utf8 (Python.requoteUri .ascii "/é".toList) = text "/%C3%A9" ∧
    requoteUri (utf8 "/é".toList) ≠ utf8 (Python.requoteUri .ascii "/é".toList) := by
  decide

end RequestsNative.Url
