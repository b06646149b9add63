import RequestsNative.Lib.Base64
import RequestsNative.Lib.Percent
import RequestsNative.Transport.Proxy
import RequestsNative.Utf8

/-!
# Credentials for a proxy

The username and the password stand in the URL of the proxy with percent escapes, and in the request to it in base 64. Both
functions of `proxy.rs` are written by hand. What the second makes of some bytes is decoded to these bytes by the rules of the
alphabet, and what the first makes of a text are the bytes it spells.
-/

namespace RequestsNative.Transport.Proxy

open RequestsNative.Lib

/-! ### Base 64 -/

theorem base64Char_value {index : UInt8} (h : index.toNat < 64) : Base64.value (base64Char index) = some index.toNat := by
  have hlength : base64Alphabet.length = 64 := by decide
  have hvalues : base64Alphabet.map Base64.value = (List.range 64).map some := by decide
  have hindex := congrArg (·[index.toNat]?) hvalues
  rw [base64Char, List.getD_eq_getElem?_getD, List.getElem?_eq_getElem (hlength ▸ h), Option.getD_some]
  simpa [h, hlength] using hindex

theorem joinedSextet {a b mask up down : UInt8} (kept shift : Nat) (hmask : mask.toNat = 2 ^ kept - 1) (hup : up.toNat = shift)
    (hdown : down.toNat = 8 - shift) (hpos : 0 < shift) (hfits : kept + shift < 8) :
    ((a &&& mask) <<< up ||| b >>> down).toNat = a.toNat % 2 ^ kept * 2 ^ shift + b.toNat / 2 ^ (8 - shift) := by
  have hlow : b.toNat / 2 ^ (8 - shift) < 2 ^ shift := by
    rw [Nat.div_lt_iff_lt_mul (Nat.two_pow_pos _), ← Nat.pow_add, show shift + (8 - shift) = 8 by omega]
    exact b.toNat_lt
  have hsmall : (a.toNat % 2 ^ kept) <<< shift < 2 ^ 8 := by
    rw [Nat.shiftLeft_eq]
    calc
      _ < 2 ^ kept * 2 ^ shift := Nat.mul_lt_mul_of_pos_right (Nat.mod_lt _ (Nat.two_pow_pos _)) (Nat.two_pow_pos _)
      _ = 2 ^ (kept + shift) := (Nat.pow_add 2 kept shift).symm
      _ ≤ 2 ^ 8 := Nat.pow_le_pow_right (by decide) (by omega)
  rw [UInt8.toNat_or, UInt8.toNat_shiftLeft, UInt8.toNat_shiftRight, UInt8.toNat_and, hmask, hup, hdown,
    Nat.mod_eq_of_lt (show shift < 8 by omega), Nat.mod_eq_of_lt (show 8 - shift < 8 by omega), Nat.and_two_pow_sub_one_eq_mod,
    Nat.mod_eq_of_lt hsmall, Nat.shiftRight_eq_div_pow, ← Nat.shiftLeft_add_eq_or_of_lt hlow, Nat.shiftLeft_eq]

theorem firstSextet (first : UInt8) : (first >>> 2).toNat = first.toNat / 4 := by
  rw [UInt8.toNat_shiftRight, Nat.shiftRight_eq_div_pow]
  rfl

theorem secondSextet (first second : UInt8) :
    ((first &&& 0x03) <<< 4 ||| second >>> 4).toNat = first.toNat % 4 * 16 + second.toNat / 16 :=
  joinedSextet 2 4 rfl rfl rfl (by decide) (by decide)

theorem thirdSextet (second third : UInt8) :
    ((second &&& 0x0f) <<< 2 ||| third >>> 6).toNat = second.toNat % 16 * 4 + third.toNat / 64 :=
  joinedSextet 4 2 rfl rfl rfl (by decide) (by decide)

theorem fourthSextet (third : UInt8) : (third &&& 0x3f).toNat = third.toNat % 64 := by
  rw [UInt8.toNat_and]
  exact Nat.and_two_pow_sub_one_eq_mod third.toNat 6

theorem decode_base64 (bytes : Bytes) : Base64.decode (base64 bytes) = some bytes := by
  have hvalue : ∀ {index : UInt8} {n : Nat}, index.toNat = n → n < 64 → Base64.value (base64Char index) = some n := by
    rintro index n rfl hlt
    exact base64Char_value hlt
  fun_induction base64 bytes with
  | case1 => rfl
  | case2 first =>
      have hfirst := first.toNat_lt
      have hsecond := secondSextet first 0
      rw [show (first &&& 0x03) <<< 4 ||| (0 : UInt8) >>> 4 = (first &&& 0x03) <<< 4 by simp] at hsecond
      exact Base64.decode_one (hvalue (firstSextet first) (by omega)) (hvalue hsecond (by omega))
  | case3 first second =>
      have hfirst := first.toNat_lt
      have hsecond := second.toNat_lt
      have hthird := thirdSextet second 0
      rw [show (second &&& 0x0f) <<< 2 ||| (0 : UInt8) >>> 6 = (second &&& 0x0f) <<< 2 by simp] at hthird
      exact Base64.decode_two (hvalue (firstSextet first) (by omega)) (hvalue (secondSextet first second) (by omega))
        (hvalue hthird (by omega))
  | case4 first second third rest ih =>
      have hfirst := first.toNat_lt
      have hsecond := second.toNat_lt
      have hthird := third.toNat_lt
      rw [Base64.decode_three (hvalue (firstSextet first) (by omega)) (hvalue (secondSextet first second) (by omega))
        (hvalue (thirdSextet second third) (by omega)) (hvalue (fourthSextet third) (by omega)), ih]
      rfl

theorem length_base64 (bytes : Bytes) : (base64 bytes).length = 4 * ((bytes.length + 2) / 3) := by
  fun_induction base64 bytes with
  | case1 => rfl
  | case2 first => simp
  | case3 first second => simp
  | case4 first second third rest ih =>
      simp only [List.length_cons, ih]
      omega

/-! ### Percent escapes -/

theorem hex_eq_digit (b : UInt8) : hex b = Percent.digit b :=
  (Percent.digit_eq b).symm

theorem escape_byte {h l : UInt8} (hh : h < 16) (hl : l < 16) : h <<< 4 ||| l = h * 16 + l := by
  have hh' : h.toNat < 16 := UInt8.lt_iff_toNat_lt.mp hh
  have hl' : l.toNat < 2 ^ 4 := UInt8.lt_iff_toNat_lt.mp hl
  have hshift : (h <<< 4).toNat = h.toNat <<< 4 := by
    rw [UInt8.toNat_shiftLeft, show (4 : UInt8).toNat % 8 = 4 from rfl]
    apply Nat.mod_eq_of_lt
    rw [Nat.shiftLeft_eq]
    omega
  rw [← UInt8.toNat_inj, UInt8.toNat_or, hshift, ← Nat.shiftLeft_add_eq_or_of_lt hl', Nat.shiftLeft_eq, UInt8.toNat_add,
    UInt8.toNat_mul, show (16 : UInt8).toNat = 16 from rfl]
  omega

theorem percentDecodeBytes_plain {b : UInt8} (hne : b ≠ 37) (rest : Bytes) :
    percentDecodeBytes (b :: rest) = (percentDecodeBytes rest).map (b :: ·) := by
  rw [percentDecodeBytes.eq_def]
  split
  · rename_i heq
    cases heq
  · rename_i heq
    exact absurd (List.cons.inj heq).1 hne
  · rename_i heq
    exact absurd (List.cons.inj heq).1 hne
  · rename_i heq
    obtain ⟨rfl, rfl⟩ := List.cons.inj heq
    cases percentDecodeBytes rest <;> rfl

theorem percentDecodeBytes_escape {high low h l : UInt8} (hhigh : Percent.digit high = some h)
    (hlow : Percent.digit low = some l) (rest : Bytes) :
    percentDecodeBytes (37 :: high :: low :: rest) = (percentDecodeBytes rest).map ((h * 16 + l) :: ·) := by
  rw [percentDecodeBytes, hex_eq_digit, hex_eq_digit, hhigh, hlow,
    ← escape_byte (Percent.digit_range hhigh).2.2 (Percent.digit_range hlow).2.2]
  cases percentDecodeBytes rest <;> rfl

theorem percentDecodeBytes_spells {value : Bytes} {later : List Percent.Character} (h : Percent.Spells value later) :
    percentDecodeBytes value = some (later.map Percent.Character.byte) := by
  induction h with
  | nil => rfl
  | plain hne _ ih => rw [percentDecodeBytes_plain hne, ih, Option.map_some, List.map_cons]
  | escape hhigh hlow _ ih => rw [percentDecodeBytes_escape hhigh hlow, ih, Option.map_some, List.map_cons]

theorem spells_of_percentDecodeBytes {value decoded : Bytes} (h : percentDecodeBytes value = some decoded) :
    ∃ later, Percent.Spells value later := by
  fun_induction percentDecodeBytes value generalizing decoded with
  | case1 => exact ⟨[], .nil⟩
  | case2 high low rest ih =>
      obtain ⟨hvalue, hhigh, h⟩ := Option.bind_eq_some_iff.mp h
      obtain ⟨lvalue, hlow, h⟩ := Option.bind_eq_some_iff.mp h
      obtain ⟨tail, htail, -⟩ := Option.bind_eq_some_iff.mp h
      obtain ⟨later, hlater⟩ := ih htail
      rw [hex_eq_digit] at hhigh hlow
      exact ⟨_, .escape hhigh hlow hlater⟩
  | case3 => cases h
  | case4 b rest hnone hne ih =>
      obtain ⟨tail, htail, -⟩ := Option.bind_eq_some_iff.mp h
      obtain ⟨later, hlater⟩ := ih htail
      exact ⟨_, .plain (fun heq => hne heq) hlater⟩

/-- The loop reads a text exactly if its escapes are complete, and reads what it spells. -/
theorem percentDecodeBytes_eq_some {value decoded : Bytes} :
    percentDecodeBytes value = some decoded ↔ Percent.Complete value ∧ decoded = Percent.decode value := by
  constructor
  · intro h
    obtain ⟨later, hspells⟩ := spells_of_percentDecodeBytes h
    rw [percentDecodeBytes_spells hspells] at h
    exact ⟨hspells.complete, (Option.some.inj h).symm.trans hspells.decode_eq.symm⟩
  · rintro ⟨hcomplete, rfl⟩
    exact percentDecodeBytes_spells (Percent.Complete.spells value hcomplete)

theorem percentDecode_eq_ok {value decoded : Bytes} :
    percentDecode value = .ok decoded ↔ Percent.Complete value ∧ isUtf8 decoded = true ∧ decoded = Percent.decode value := by
  rw [percentDecode]
  constructor
  · intro h
    split at h
    · cases h
    · rename_i bytes hbytes
      split at h
      · rename_i hutf8
        obtain rfl := Except.ok.inj h
        obtain ⟨hcomplete, heq⟩ := percentDecodeBytes_eq_some.mp hbytes
        exact ⟨hcomplete, hutf8, heq⟩
      · cases h
  · rintro ⟨hcomplete, hutf8, heq⟩
    rw [percentDecodeBytes_eq_some.mpr ⟨hcomplete, heq⟩]
    exact if_pos hutf8

/-! ### Both together -/

theorem credentials_lossless :
    (∀ bytes, Base64.decode (base64 bytes) = some bytes ∧ (base64 bytes).length = 4 * ((bytes.length + 2) / 3)) ∧
    (∀ value, (∃ decoded, percentDecode value = .ok decoded) ↔
      Percent.Complete value ∧ isUtf8 (Percent.decode value) = true) ∧
    (∀ value decoded, percentDecode value = .ok decoded → decoded = Percent.decode value) ∧
    ∀ value bytes, Percent.Encodes value bytes ∧ isUtf8 bytes = true → percentDecode value = .ok bytes := by
  refine ⟨fun bytes => ⟨decode_base64 bytes, length_base64 bytes⟩, fun value => ⟨?_, ?_⟩, ?_, ?_⟩
  · rintro ⟨decoded, h⟩
    obtain ⟨hcomplete, hutf8, rfl⟩ := percentDecode_eq_ok.mp h
    exact ⟨hcomplete, hutf8⟩
  · rintro ⟨hcomplete, hutf8⟩
    exact ⟨_, percentDecode_eq_ok.mpr ⟨hcomplete, hutf8, rfl⟩⟩
  · intro value decoded h
    exact (percentDecode_eq_ok.mp h).2.2
  · rintro value bytes ⟨hencodes, hutf8⟩
    have hdecode := hencodes.decode_eq
    obtain ⟨later, hspells, -⟩ := hencodes
    exact percentDecode_eq_ok.mpr ⟨hspells.complete, hutf8, hdecode.symm⟩

theorem credentials_lossless_escaped : Base64.decode (base64 (text "user:pa ss")) = some (text "user:pa ss") ∧
    percentDecode (text "a%2f") = .ok (text "a/") := by
  have hencodes : Percent.Encodes (text "a%2f") (text "a/") :=
    ⟨[⟨97, false⟩, ⟨47, true⟩], .plain (by decide) (.escape (h := 2) (l := 15) rfl rfl .nil), rfl⟩
  exact ⟨(credentials_lossless.1 _).1, credentials_lossless.2.2.2 _ _ ⟨hencodes, by decide⟩⟩

/-- The header is the username and the password of the proxy, and can be read back to them. -/
theorem authorization_decode {reader : AuthorityReader} {parseUrl : ProxyUrlParser} {proxy : Proxy reader} {value : Bytes}
    (h : authorization parseUrl proxy = .ok (some value)) :
    ∃ parsed, parse parseUrl proxy = .ok parsed ∧ ∃ credentials, value = text "Basic " ++ credentials ∧
      Base64.decode credentials =
        some (Percent.decode parsed.username ++ 58 :: Percent.decode (parsed.password.getD [])) := by
  unfold authorization at h
  split at h
  · cases h
  · cases h
  all_goals
    obtain ⟨parsed, hparsed, h⟩ := bind_eq_ok.mp h
    refine ⟨parsed, hparsed, ?_⟩
    split at h
    · cases h
    obtain ⟨username, husername, h⟩ := bind_eq_ok.mp h
    obtain ⟨password, hpassword, h⟩ := bind_eq_ok.mp h
    rw [← (percentDecode_eq_ok.mp husername).2.2, ← (percentDecode_eq_ok.mp hpassword).2.2]
    refine ⟨base64 (username ++ 58 :: password), ?_, decode_base64 _⟩
    unfold headerValue at h
    split at h
    · cases h
    · rename_i header hheader
      obtain rfl := Option.some.inj (Except.ok.inj h)
      split at hheader
      · exact (Option.some.inj hheader).symm
      · cases hheader

end RequestsNative.Transport.Proxy
