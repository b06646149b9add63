import RequestsNative.Url.QueryPairs
import RequestsNative.Url.TwoStages

/-!
# What requoting keeps

`requote_uri` unquotes and quotes in two passes over the text, each with its own set of bytes. On an ASCII text with complete
escapes the two are one step for each character: an unreserved one is written as itself, any other one stays as it was written,
and what may not stand in a URL becomes an escape. So the text spells the same bytes, and what is reserved keeps its part.
-/

namespace RequestsNative.Url

open RequestsNative.Lib

/-- The reserved characters of RFC 3986. -/
def reserved : Bytes := text ":/?#[]@!$&'()*+,;="

/-- What requoting makes of a character. -/
def requoteCharacter (c : Percent.Character) : Percent.Character :=
  ⟨c.byte, !isUnreserved c.byte && (c.escaped || !isKept c.byte)⟩

theorem requoteCharacter_plain (b : UInt8) : requoteCharacter ⟨b, false⟩ = ⟨b, !isKept b⟩ := by
  cases hplain : isUnreserved b with
  | true => rw [requoteCharacter, hplain, unreserved_kept hplain]; rfl
  | false => rw [requoteCharacter, hplain]; rfl

theorem reserved_kept {b : UInt8} (h : b ∈ reserved) : isUnreserved b = false ∧ isKept b = true := by
  have hall : reserved.all (fun c => !isUnreserved c && isKept c) = true := by decide
  simpa using List.all_eq_true.mp hall b h

theorem kept_safe {b : UInt8} (hkept : isKept b = true) (hne : b ≠ 37) : isUnreserved b = true ∨ b ∈ safeWithoutPercent := by
  have hall : safeWithPercent.all (fun c => c == 37 || safeWithoutPercent.contains c) = true := by decide
  rw [isKept, Bool.or_eq_true, List.contains_iff_mem] at hkept
  refine hkept.imp_right fun hsafe => ?_
  simpa [hne] using List.all_eq_true.mp hall b hsafe

/-! ### The code's test of the escapes -/

theorem isSome_digit (b : UInt8) : (Percent.digit b).isSome = isAsciiHexdigit b := by
  rw [← hexValue_eq_digit, (hexValue_upper b).2.1]

/-- The loop finds no incomplete escape exactly if every percent sign is followed by two digits. -/
theorem hasIncompletePercentEscape_eq_false {value : Bytes} :
    hasIncompletePercentEscape value = false ↔ Percent.Complete value := by
  constructor
  · intro h
    suffices hspells : ∃ characters, Percent.Spells value characters by
      obtain ⟨characters, hspells⟩ := hspells
      exact hspells.complete
    fun_induction hasIncompletePercentEscape value with
    | case1 => exact ⟨[], .nil⟩
    | case2 high low tail hhex ih =>
        obtain ⟨characters, hspells⟩ := ih h
        rw [Bool.and_eq_true, ← isSome_digit, ← isSome_digit] at hhex
        obtain ⟨first, hfirst⟩ := Option.isSome_iff_exists.mp hhex.1
        obtain ⟨second, hsecond⟩ := Option.isSome_iff_exists.mp hhex.2
        exact ⟨_, .escape hfirst hsecond hspells⟩
    | case3 | case4 => cases h
    | case5 b rest hne ih =>
        obtain ⟨characters, hspells⟩ := ih h
        exact ⟨_, .plain hne hspells⟩
  · intro h
    have hspells := Percent.Complete.spells value h
    clear h
    generalize Percent.characters value = characters at hspells
    induction hspells with
    | nil => rfl
    | plain hne _ ih =>
        rw [hasIncompletePercentEscape.eq_def]
        simp only [if_neg hne, ih]
    | escape hhigh hlow _ ih =>
        rw [hasIncompletePercentEscape, if_pos rfl, ← isSome_digit, ← isSome_digit, hhigh, hlow]
        exact ih

/-! ### Requoting, character by character -/

theorem requotes_spells {uri : Bytes} {characters : List Percent.Character} (h : Percent.Spells uri characters)
    (hascii : ∀ b ∈ uri, b < 128) :
    ∃ written, unquoteUnreserved uri = some written ∧ Percent.Spells (quoted written) (characters.map requoteCharacter) ∧
      stable false (quoted written) = true := by
  induction h with
  | nil => exact ⟨[], rfl, .nil, rfl⟩
  | @plain b rest later hne _ ih =>
      obtain ⟨hb, hrest⟩ := List.forall_mem_cons.mp hascii
      obtain ⟨written, hunquoted, hspells, hstable⟩ := ih hrest
      refine ⟨b :: written, ?_, ?_, ?_⟩
      · rw [unquoteUnreserved_byte hne, hunquoted, pushByte, if_pos hb]
        rfl
      · rw [quoted_cons, List.map_cons, requoteCharacter_plain]
        by_cases hkept : isKept b = true
        · rw [quoteByte_kept hkept, hkept]
          exact .plain hne hspells
        · rw [(quoteByte_escape true (eq_false_of_ne_true hkept)).1, eq_false_of_ne_true hkept]
          exact (escape_spells b).append hspells
      · rw [quoted_cons, stable_quoteByte false hne]
        exact hstable
  | @escape high low h l rest later hhigh hlow _ ih =>
      obtain ⟨written, hunquoted, hspells, hstable⟩ := ih fun b hb => hascii b (by simp [hb])
      have hopens : isAsciiAlphanumeric high = true ∧ isAsciiAlphanumeric low = true := by
        refine ⟨(hexValue_upper high).2.2.2 ?_, (hexValue_upper low).2.2.2 ?_⟩
        · rw [← isSome_digit, hhigh, Option.isSome_some]
        · rw [← isSome_digit, hlow, Option.isSome_some]
      have hpair : hexPair high low = some (h * 16 + l) := by
        rw [hexPair, hexValue_eq_digit, hexValue_eq_digit, hhigh, hlow]
        rfl
      rw [unquoteUnreserved_escape hopens, unquoteEscape, hpair, hunquoted, List.map_cons]
      cases hplain : isUnreserved (h * 16 + l) with
      | true =>
          have hne := (unreserved_plain hplain).1
          refine ⟨(h * 16 + l) :: written, by simp [hplain], ?_, ?_⟩
          · rw [quoted_cons, quoteByte_kept (unreserved_kept hplain), requoteCharacter, hplain]
            exact .plain hne hspells
          · rw [quoted_cons, stable_quoteByte false hne]
            exact hstable
      | false =>
          refine ⟨37 :: high :: low :: written, by simp [hplain], ?_, ?_⟩
          · rw [quoted_escape hopens, requoteCharacter, hplain]
            exact .escape hhigh hlow hspells
          · rw [quoted_escape hopens, stable_escape false hopens, hstable]
            simp [escapeStays, hpair, hplain]

theorem requoteUri_stable {uri : Bytes} (hkept : ∀ b ∈ uri, isKept b = true) (hstable : stable false uri = true) :
    requoteUri uri = uri := by
  have hunquoted : unquoteUnreserved uri = some uri := (unquoted_eq_self_iff false hkept).mpr hstable
  rw [requoteUri, hunquoted]
  exact quoted_eq_self hkept

/-- Requoting keeps the meaning of a text: what it spells, and which characters are reserved. -/
theorem requoteUri_meaning {uri : Bytes} (hascii : ∀ b ∈ uri, b < 128) (hcomplete : Percent.Complete uri) :
    Percent.decode (requoteUri uri) = Percent.decode uri ∧
    (Percent.Complete (requoteUri uri) ∧ ∀ c ∈ Percent.characters (requoteUri uri), c.escaped = false →
      isUnreserved c.byte = true ∨ c.byte ∈ safeWithoutPercent) ∧
    List.Forall₂ (fun before after => after.byte = before.byte ∧ (before.byte ∈ reserved → after.escaped = before.escaped))
      (Percent.characters uri) (Percent.characters (requoteUri uri)) ∧
    requoteUri (requoteUri uri) = requoteUri uri := by
  obtain ⟨written, hunquoted, hspells, hstable⟩ := requotes_spells (Percent.Complete.spells uri hcomplete) hascii
  have hrequoted : requoteUri uri = quoted written := by
    rw [requoteUri, hunquoted]
    rfl
  rw [hrequoted]
  refine ⟨?_, ⟨hspells.complete, ?_⟩, ?_, requoteUri_stable (quoted_kept written) hstable⟩
  · rw [hspells.decode_eq, List.map_map]
    rfl
  · rw [hspells.characters_eq]
    intro c hc hplain
    obtain ⟨hne, hmem⟩ := hspells.plain_mem hc hplain
    exact kept_safe (quoted_kept written c.byte hmem) hne
  · rw [hspells.characters_eq, List.forall₂_map_right_iff, List.forall₂_same]
    refine fun c _ => ⟨rfl, fun hreserved => ?_⟩
    obtain ⟨hplain, hkept⟩ := reserved_kept hreserved
    simp [requoteCharacter, hplain, hkept]

theorem requoteUri_meaning_mixed : requoteUri (text "/%7e%2f b?q=%41") = text "/~%2f%20b?q=A" ∧
    Percent.decode (requoteUri (text "/%7e%2f b?q=%41")) = text "/~/ b?q=A" ∧
    requoteUri (requoteUri (text "/%7e%2f b?q=%41")) = requoteUri (text "/%7e%2f b?q=%41") := by
  have hall : (text "/%7e%2f b?q=%41").all (· < 128) = true := by decide
  have hascii : ∀ b ∈ text "/%7e%2f b?q=%41", b < 128 := fun b hb => of_decide_eq_true (List.all_eq_true.mp hall b hb)
  have hcomplete : Percent.Complete (text "/%7e%2f b?q=%41") := hasIncompletePercentEscape_eq_false.mp (by decide)
  obtain ⟨hdecode, -, -, htwice⟩ := requoteUri_meaning hascii hcomplete
  exact ⟨by decide, hdecode.trans (by decide), htwice⟩

end RequestsNative.Url
