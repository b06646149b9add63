import RequestsNative.Url.Destination

/-!
# Preparing a URL in two stages

`_prepare_url_trial` prepares a URL without parameters first and appends them to the result, which is requoted once more.
`prepare_url` requotes once, with the parameters in their place. What the first pass wrote is requoted to itself, so both
agree as long as the parameters have no broken escape. A broken escape makes the last pass quote every percent sign: then
the two agree only on URLs that the first pass does not change at all.
-/

namespace RequestsNative.Url

/-! ### URLs that are safe -/

def hasIncompletePercentEscape : Bytes → Bool
  | [] => false
  | b :: rest =>
      if b = 37 then
        match rest with
        | high :: low :: tail => if isAsciiHexdigit high && isAsciiHexdigit low then hasIncompletePercentEscape tail else true
        | _ => true
      else hasIncompletePercentEscape rest

/-- `str::contains` of a text. -/
def containsText (value pattern : Bytes) : Bool := (splitOnce pattern value).isSome

def urlIsNativeSafe (rawUrl : Bytes) : Bool :=
  let rawUrl := trimPythonWhitespaceStart rawUrl
  if isNonHttpUrl rawUrl then true
  else if !rawUrl.all (· < 128) || rawUrl.any (fun b => b == 92 || b == 13 || b == 10 || b == 9) ||
      rawUrl.getLast?.any (fun b => isWhitespace b.toNat) || rawUrl.getLast?.any (fun b => b == 63 || b == 35) ||
      containsText rawUrl (text "?#") || rawUrl.any (fun b => b == 91 || b == 93 || b == 39) || 1 < rawUrl.count 35 then false
  else
    let lower := toAsciiLowercase rawUrl
    if containsText lower (text "%2e") || containsText lower (text "/../") || containsText lower (text "/./") ||
        (text "/..").isSuffixOf lower || (text "/.").isSuffixOf lower || hasIncompletePercentEscape rawUrl then false
    else
      match splitOnce (text "://") rawUrl with
      | none => !startsWithHttp rawUrl && !rawUrl.contains 37 && !rawUrl.any (fun b => b ≤ 32 || b == 0x7F)
      | some (scheme, remainder) =>
          let scheme := toAsciiLowercase scheme
          if scheme ≠ text "http" ∧ scheme ≠ text "https" ∧ scheme ≠ text "http+unix" then false
          else
            let authority := rawAuthority remainder
            let suffix := remainder.drop authority.length
            if authority = [] ∨ authority.contains 64 = true ∨ authority.head? = some 91 ∨
                authority.any (fun b => isWhitespace b.toNat) = true then false
            else if scheme = text "http+unix" ∧ (authority.all (fun b => isUnreserved b || b == 37) = false ∨
                suffix.head? ≠ some 47 ∨ suffix.length = 1) then false
            else if scheme ≠ text "http+unix" ∧ (authority.contains 37 = true ∨
                authority.all (fun b => isAsciiAlphanumeric b || b == 45 || b == 46 || b == 95 || b == 42) = false) then false
            else if authority.contains 58 then false
            else
              let path := suffix.takeWhile fun b => b != 63 && b != 35
              if (path.splitOn 47).any (fun component => component == [46] || component == [46, 46]) then false
              else
                let label := (authority.rdropWhile (· == 46)).rtakeWhile (· != 46)
                let numericFinalLabel := scheme != text "http+unix" && label.head?.any isAsciiDigit
                !numericFinalLabel && authority.all (· < 128)

example : urlIsNativeSafe (text "http://example.com/a%7e?b=c#d") = true ∧
    urlIsNativeSafe (text "http://example.com:8080/") = false ∧ urlIsNativeSafe (text "http://example.com/%zz") = false := by
  decide

/-- What is requoted of a URL. -/
def urlSuffix (rawUrl : Bytes) : Bytes :=
  match splitOnce (text "://") (trimPythonWhitespaceStart rawUrl) with
  | some (_, remainder) => rawSuffix remainder
  | none => []

/-- A text that requoting does not change but for the case of its escapes: no escape stands for an unreserved character,
and no byte has to be quoted. -/
def untouched (value : Bytes) : Bool :=
  (pieces value).all fun
    | .byte b => isKept b
    | .escape high low => !(hexPair high low).any isUnreserved
    | .percent => true

theorem passed_guard {c : Prop} [Decidable c] {answer : Bool} (h : (if c then false else answer) = true) :
    ¬c ∧ answer = true := by
  by_cases hc : c
  · rw [if_pos hc] at h
    cases h
  · rw [if_neg hc] at h
    exact ⟨hc, h⟩

theorem authority_kept {b : UInt8} : (isAsciiAlphanumeric b || b == 45 || b == 46 || b == 95 || b == 42) = true →
    isKept b = true := by
  rw [isKept_iff]
  grind [isAsciiAlphanumeric, isAsciiDigit]

theorem urlIsNativeSafe_http {rawUrl scheme remainder : Bytes} (hsafe : urlIsNativeSafe rawUrl = true)
    (hhttp : isNonHttpUrl (trimPythonWhitespaceStart rawUrl) = false)
    (hsplit : splitOnce (text "://") (trimPythonWhitespaceStart rawUrl) = some (scheme, remainder))
    (hscheme : toAsciiLowercase scheme ≠ text "http+unix") :
    hasIncompletePercentEscape (trimPythonWhitespaceStart rawUrl) = false ∧
      ∀ b ∈ rawAuthority remainder, b ≠ 37 ∧ isKept b = true := by
  unfold urlIsNativeSafe at hsafe
  simp only [hhttp, hsplit, hscheme, Bool.false_eq_true, if_false, false_and] at hsafe
  obtain ⟨-, hsafe⟩ := passed_guard hsafe
  obtain ⟨hescapes, hsafe⟩ := passed_guard hsafe
  obtain ⟨-, hsafe⟩ := passed_guard hsafe
  obtain ⟨-, hsafe⟩ := passed_guard hsafe
  obtain ⟨hauthority, -⟩ := passed_guard hsafe
  simp only [Bool.or_eq_true, not_or, Bool.not_eq_true] at hescapes
  simp only [hscheme, ne_eq, not_false_eq_true, true_and, not_or, Bool.not_eq_false, List.contains_iff_mem] at hauthority
  refine ⟨hescapes.2, fun b hb => ?_⟩
  exact ⟨fun heq => hauthority.1 (heq ▸ hb), authority_kept (List.all_eq_true.mp hauthority.2 b hb)⟩

/-! ### Escapes that are complete -/

/-- Every percent sign starts an escape of two hexadecimal digits. -/
def complete (value : Bytes) : Bool :=
  (pieces value).all fun
    | .byte _ => true
    | .escape high low => (hexPair high low).isSome
    | .percent => false

theorem hasIncompletePercentEscape_plain {front : Bytes} (hplain : 37 ∉ front) (rest : Bytes) :
    hasIncompletePercentEscape (front ++ rest) = hasIncompletePercentEscape rest := by
  induction front with
  | nil => rfl
  | cons b front ih =>
      rw [List.mem_cons, not_or] at hplain
      rw [List.cons_append, hasIncompletePercentEscape.eq_def]
      simp only [if_neg (Ne.symm hplain.1), ih hplain.2]

theorem complete_of_safe {value : Bytes} (h : hasIncompletePercentEscape value = false) : complete value = true := by
  induction value using byPieces with
  | nil => rfl
  | byte b rest hne ih =>
      rw [complete, pieces_byte hne, List.all_cons, ← complete]
      rw [hasIncompletePercentEscape.eq_def] at h
      simp only [if_neg hne] at h
      exact ih h
  | escape high low rest hopens ih =>
      rw [complete, pieces_escape hopens, List.all_cons, ← complete]
      rw [hasIncompletePercentEscape.eq_def] at h
      simp only [if_true] at h
      split at h
      · next hhex =>
          have hpair : (hexPair high low).isSome = true := by
            rw [Bool.and_eq_true, ← (hexValue_upper high).2.1, ← (hexValue_upper low).2.1] at hhex
            obtain ⟨a, ha⟩ := Option.isSome_iff_exists.mp hhex.1
            obtain ⟨b, hb⟩ := Option.isSome_iff_exists.mp hhex.2
            simp [hexPair, ha, hb]
          simp only [hpair, ih h, Bool.and_self]
      · cases h
  | percent rest hlone _ =>
      cases rest with
      | nil => cases h
      | cons high rest =>
          cases rest with
          | nil => cases h
          | cons low tail =>
              rw [hasIncompletePercentEscape, if_pos rfl] at h
              split at h
              · next hhex =>
                  rw [Bool.and_eq_true] at hhex
                  rw [opensEscape, (hexValue_upper high).2.2.2 hhex.1, (hexValue_upper low).2.2.2 hhex.2] at hlone
                  cases hlone
              · cases h

theorem complete_sound {value : Bytes} (h : complete value = true) : brokenEscape (pieces value) = false := by
  rw [brokenEscape, List.any_eq_false]
  intro piece hpiece
  have hcomplete := List.all_eq_true.mp h piece hpiece
  cases piece with
  | byte b => simp
  | escape high low => simpa using Option.ne_none_iff_isSome.mpr hcomplete
  | percent => simp

theorem complete_unspliced {value : Bytes} (h : complete value = true) : unspliced true (pieces value) = true := by
  rw [complete] at h
  generalize pieces value = parts at h
  induction parts with
  | nil => rfl
  | cons piece rest ih =>
      rw [List.all_cons, Bool.and_eq_true] at h
      cases piece with
      | byte b => exact ih h.2
      | escape high low => exact ih h.2
      | percent => cases h.1

theorem stable_unquoting {value : Bytes} (h : stable true value = true) : stable false value = true := by
  rw [stable, List.all_eq_true] at h ⊢
  intro piece hpiece
  have hstays := h piece hpiece
  cases piece with
  | byte b => rfl
  | escape high low =>
      simp only [escapeStays] at hstays ⊢
      cases hpair : hexPair high low with
      | none =>
          rw [hpair] at hstays
          cases hstays
      | some byte =>
          simp only [hpair, Bool.and_eq_true] at hstays
          simp [hstays.1]
  | percent => rfl

theorem complete_unquoted {value : Bytes} (h : complete value = true) :
    ∃ written, unquoted true value = some written ∧ unquoteUnreserved (quoted written) = some (quoted written) := by
  obtain ⟨written, hwritten⟩ : ∃ written, unquoted true value = some written := by
    rw [← Option.ne_none_iff_exists', Ne, unquoted_eq_none_iff, complete_sound h]
    decide
  have hstable : stable true (quoted written) = true := by rw [stable_requoted true hwritten, complete_unspliced h]
  exact ⟨written, hwritten, (unquoted_eq_self_iff false (quoted_kept written)).mpr (stable_unquoting hstable)⟩

/-! ### Texts cut where no escape reaches over -/

section Stops

variable {front rest : Bytes} (hstop : rest.head?.any isAsciiAlphanumeric = false)
include hstop

theorem pieces_stop : pieces (front ++ rest) = pieces front ++ pieces rest := by
  induction front using byPieces with
  | nil => rfl
  | byte b front hne ih => rw [List.cons_append, pieces_byte hne, pieces_byte hne, ih, List.cons_append]
  | escape high low front hopens ih =>
      rw [List.cons_append, List.cons_append, List.cons_append, pieces_escape hopens, pieces_escape hopens, ih,
        List.cons_append]
  | percent front hlone ih =>
      have hlone' : opensEscape (front ++ rest) = false := (opensEscape_stop hstop).trans hlone
      rw [List.cons_append, pieces_percent hlone, pieces_percent hlone', ih, List.cons_append]

theorem untouched_stop : untouched (front ++ rest) = (untouched front && untouched rest) := by
  rw [untouched, pieces_stop hstop, List.all_append]
  rfl

theorem unquoteUnreserved_parts (hkept : ∀ b ∈ front ++ rest, isKept b = true)
    (h : unquoteUnreserved (front ++ rest) = some (front ++ rest)) :
    unquoteUnreserved front = some front ∧ unquoteUnreserved rest = some rest := by
  have hstable : stable false (front ++ rest) = true := (unquoted_eq_self_iff false hkept).mp h
  rw [stable, pieces_stop hstop, List.all_append, Bool.and_eq_true] at hstable
  exact ⟨(unquoted_eq_self_iff false fun b hb => hkept b (List.mem_append_left _ hb)).mpr hstable.1,
    (unquoted_eq_self_iff false fun b hb => hkept b (List.mem_append_right _ hb)).mpr hstable.2⟩

end Stops

/-! ### Texts that are not touched -/

theorem untouched_byte {b : UInt8} (hne : b ≠ 37) (rest : Bytes) :
    untouched (b :: rest) = (isKept b && untouched rest) := by
  rw [untouched, pieces_byte hne, List.all_cons]
  rfl

theorem untouched_escape {high low : UInt8} (hopens : isAsciiAlphanumeric high = true ∧ isAsciiAlphanumeric low = true)
    (rest : Bytes) : untouched (37 :: high :: low :: rest) = (!(hexPair high low).any isUnreserved && untouched rest) := by
  rw [untouched, pieces_escape hopens, List.all_cons]
  rfl

theorem untouched_percent {rest : Bytes} (hlone : opensEscape rest = false) : untouched (37 :: rest) = untouched rest := by
  rw [untouched, pieces_percent hlone, List.all_cons]
  rfl

theorem quoted_pushByte {b : UInt8} (hkept : isKept b = false) (later : Bytes) :
    (quoted (pushByte b ++ later)).head? = some 37 := by
  by_cases hascii : b < 128
  · rw [pushByte, if_pos hascii, List.singleton_append, quoted_cons, (quoteByte_escape true hkept).1]
    rfl
  · obtain ⟨lead, trail, hpush, hlead, -⟩ := pushByte_high hascii
    have hlead' : isKept lead = false := eq_false_of_ne_true fun hkept => hlead (isKept_ascii hkept)
    rw [hpush, List.cons_append, quoted_cons, (quoteByte_escape true hlead').1]
    rfl

theorem quoted_pushByte_kept {b : UInt8} (hkept : isKept b = true) (later : Bytes) :
    quoted (pushByte b ++ later) = b :: quoted later := by
  rw [pushByte, if_pos (isKept_ascii hkept), List.singleton_append, quoted_cons, quoteByte_kept hkept]
  rfl

theorem quoted_percent (later : Bytes) : quoted (37 :: later) = 37 :: quoted later := by
  rw [quoted_cons, quoteByte_kept percent_kept]
  rfl

theorem untouched_of_append {value written more more' : Bytes} (h : unquoteUnreserved value = some written)
    (heq : value ++ more = quoted written ++ more') : untouched value = true := by
  have hpieces := unquotes_of_some h
  clear h
  induction hpieces with
  | nil => rfl
  | @byte b rest later hne _ ih =>
      rw [untouched_byte hne]
      cases hkept : isKept b with
      | true =>
          rw [quoted_pushByte_kept hkept] at heq
          exact ih (List.cons.inj heq).2
      | false =>
          obtain ⟨others, hothers⟩ := List.head?_eq_some_iff.mp (quoted_pushByte hkept later)
          rw [hothers] at heq
          exact absurd (List.cons.inj heq).1 hne
  | decoded _ _ hvalue _ _ =>
      rw [quoted_cons, quoteByte_kept (unreserved_kept hvalue)] at heq
      exact absurd (List.cons.inj heq).1.symm (unreserved_plain hvalue).1
  | kept hopens hpair hvalue _ ih =>
      rw [quoted_escape hopens] at heq
      rw [untouched_escape hopens, hpair, Option.any_some, hvalue]
      exact ih (List.cons.inj (List.cons.inj (List.cons.inj heq).2).2).2
  | percent hlone _ ih =>
      rw [quoted_percent] at heq
      rw [untouched_percent hlone]
      exact ih (List.cons.inj heq).2

theorem quoted_of_untouched {value written : Bytes} (h : unquoteUnreserved value = some written)
    (huntouched : untouched value = true) : quoted written = value := by
  have hpieces := unquotes_of_some h
  clear h
  induction hpieces with
  | nil => rfl
  | byte hne _ ih =>
      rw [untouched_byte hne, Bool.and_eq_true] at huntouched
      rw [quoted_pushByte_kept huntouched.1, ih huntouched.2]
  | decoded hopens hpair hvalue _ _ =>
      rw [untouched_escape hopens, hpair, Option.any_some, hvalue] at huntouched
      cases huntouched
  | kept hopens hpair hvalue _ ih =>
      rw [untouched_escape hopens, hpair, Option.any_some, hvalue] at huntouched
      rw [quoted_escape hopens, ih huntouched]
  | percent hlone _ ih =>
      rw [untouched_percent hlone] at huntouched
      rw [quoted_percent, ih huntouched]

theorem untouched_normalize (value : Bytes) : untouched (normalizePercentEscapeHex value) = untouched value := by
  induction value using byPieces with
  | nil => rfl
  | byte b rest hne ih =>
      rw [normalize_byte hne, untouched_byte hne]
      by_cases hascii : b < 128
      · rw [pushByte, if_pos hascii, List.singleton_append, untouched_byte hne, ih]
      · have hnot {c : UInt8} (hc : ¬c < 128) : isKept c = false := eq_false_of_ne_true fun hkept => hc (isKept_ascii hkept)
        obtain ⟨lead, trail, hpush, hlead, -⟩ := pushByte_high hascii
        have hne' : lead ≠ 37 := by
          rintro rfl
          exact hlead (by decide)
        rw [hpush, List.cons_append, untouched_byte hne', hnot hlead, hnot hascii]
        rfl
  | escape high low rest hopens ih =>
      rw [normalize_escape hopens, untouched_escape hopens, ← ih]
      unfold upperEscape
      split
      · next hhex =>
          rw [Bool.and_eq_true] at hhex
          have hupper {b : UInt8} (hb : isAsciiHexdigit b = true) : isAsciiAlphanumeric (asciiUpper b) = true := by
            obtain ⟨hsame, hsome, -⟩ := hexValue_upper b
            obtain ⟨-, hsome', -, hletter⟩ := hexValue_upper (asciiUpper b)
            exact hletter (by rw [← hsome', hsame, hsome, hb])
          have hpair : hexPair (asciiUpper high) (asciiUpper low) = hexPair high low := by
            rw [hexPair, (hexValue_upper high).1, (hexValue_upper low).1, ← hexPair]
          rw [untouched_escape ⟨hupper hhex.1, hupper hhex.2⟩, hpair]
      · rw [untouched_escape hopens]
  | percent rest hlone ih =>
      rw [normalize_percent hlone, untouched_percent ((opensEscape_normalize rest).trans hlone), untouched_percent hlone, ih]

/-! ### Texts with a broken escape -/

theorem quoteByte_read (b : UInt8) : (b ≠ 37 ∧ quoteByte safeWithoutPercent false b = [b]) ∨
    ∃ high low, quoteByte safeWithoutPercent false b = [37, high, low] ∧ hexPair high low = some b := by
  have hpair : hexPair (hexDigit (b >>> 4)) (hexDigit (b &&& 0x0F)) = some b := by
    obtain ⟨hhigh, hlow⟩ := nibbles_lt b
    simp [hexPair, (hexDigit_plain hhigh).2.1, (hexDigit_plain hlow).2.1, nibbles_eq]
  obtain ⟨hne, hsame⟩ | ⟨rfl, hquoted, -⟩ := quoteByte_percent true b
  · cases hkept : isKept b with
    | true => exact .inl ⟨hne, hsame.trans (quoteByte_kept hkept)⟩
    | false => exact .inr ⟨_, _, hsame.trans (quoteByte_escape true hkept).1, hpair⟩
  · exact .inr ⟨50, 53, hquoted, rfl⟩

theorem percentQuoted_injective : Function.Injective percentQuoted := by
  intro value value' heq
  induction value generalizing value' with
  | nil =>
      have hlength := length_le_percentQuoted value'
      rw [← heq] at hlength
      exact (List.eq_nil_of_length_eq_zero (Nat.le_zero.mp hlength)).symm
  | cons b rest ih =>
      cases value' with
      | nil =>
          have hlength := length_le_percentQuoted (b :: rest)
          rw [heq] at hlength
          cases hlength
      | cons c rest' =>
          rw [percentQuoted_cons, percentQuoted_cons] at heq
          obtain ⟨hb, hbyte⟩ | ⟨high, low, hbyte, hpair⟩ := quoteByte_read b <;>
            obtain ⟨hc, hbyte'⟩ | ⟨high', low', hbyte', hpair'⟩ := quoteByte_read c <;>
            rw [hbyte, hbyte'] at heq
          · obtain ⟨rfl, hrest⟩ := List.cons.inj heq
            rw [ih hrest]
          · exact absurd (List.cons.inj heq).1 hb
          · exact absurd (List.cons.inj heq).1.symm hc
          · obtain ⟨-, rest₁⟩ := List.cons.inj heq
            obtain ⟨rfl, rest₂⟩ := List.cons.inj rest₁
            obtain ⟨rfl, hrest⟩ := List.cons.inj rest₂
            obtain rfl := Option.some.inj (hpair.symm.trans hpair')
            rw [ih hrest]

/-! ### Parameters put into a text -/

section Around

variable {front rest params : Bytes} {separator : UInt8} (hseparator : separator = 38 ∨ separator = 63)
  (hstop : rest.head?.any isAsciiAlphanumeric = false)
include hseparator hstop

theorem unquoteUnreserved_around : unquoteUnreserved (front ++ separator :: params ++ rest) =
    (unquoteUnreserved front).bind fun first => (unquoteUnreserved params).bind fun middle =>
      (unquoteUnreserved rest).map fun last => first ++ separator :: middle ++ last := by
  have hplain : separator ≠ 37 ∧ isAsciiAlphanumeric separator = false ∧ pushByte separator = [separator] := by
    obtain rfl | rfl := hseparator <;> decide
  have hstop' : (separator :: params ++ rest).head?.any isAsciiAlphanumeric = false := hplain.2.1
  rw [List.append_assoc, unquoteUnreserved_stop hstop', List.cons_append, unquoteUnreserved_byte hplain.1,
    unquoteUnreserved_stop hstop, hplain.2.2]
  cases unquoteUnreserved front <;> cases unquoteUnreserved params <;> cases unquoteUnreserved rest <;> simp

theorem requoteUri_around {first middle last : Bytes} (hfront : unquoteUnreserved front = some first)
    (hparams : unquoteUnreserved params = some middle) (hrest : unquoteUnreserved rest = some last) :
    requoteUri (front ++ separator :: params ++ rest) = quoted first ++ separator :: quoted middle ++ quoted last := by
  have hkept : isKept separator = true := by
    obtain rfl | rfl := hseparator <;> decide
  rw [requoteUri, unquoteUnreserved_around hseparator hstop, hfront, hparams, hrest]
  change quoted (first ++ separator :: middle ++ last) = _
  rw [quoted_append, quoted_append, quoted_cons, quoteByte_kept hkept]
  rfl

theorem requoteUri_around_broken (hparams : unquoteUnreserved params = none) :
    requoteUri (front ++ separator :: params ++ rest) = percentQuoted (front ++ separator :: params ++ rest) := by
  rw [requoteUri, unquoteUnreserved_around hseparator hstop, hparams]
  cases unquoteUnreserved front <;> rfl

end Around

theorem mem_requoted {value written : Bytes} {c : UInt8} (hc : c = 35 ∨ c = 63) (h : unquoteUnreserved value = some written) :
    c ∈ quoted written ↔ c ∈ value := by
  have hdelimiter : isDelimiter c = true ∧ (c ≠ 37 ∧ isAsciiAlphanumeric c = false) ∧ isKept c = true := by
    obtain rfl | rfl := hc <;> decide
  rw [← mem_unquoteUnreserved hdelimiter.1 h]
  constructor
  · exact mem_quoteBytes hdelimiter.2.1
  · intro hmem
    refine List.mem_flatMap.mpr ⟨c, hmem, ?_⟩
    rw [quoteByte_kept hdelimiter.2.2]
    exact List.mem_singleton_self c

theorem exists_fragment (value : Bytes) :
    ∃ front rest, value = front ++ rest ∧ 35 ∉ front ∧ (rest = [] ∨ rest.head? = some 35) := by
  refine ⟨value.takeWhile (· != 35), value.dropWhile (· != 35), List.takeWhile_append_dropWhile.symm, ?_, ?_⟩
  · intro hmem
    have hother := List.mem_takeWhile_imp hmem
    exact absurd hother (by decide)
  · have hhead := List.head?_dropWhile_not (· != (35 : UInt8)) value
    cases hdrop : (value.dropWhile (· != 35)).head? with
    | none => exact .inl (List.head?_eq_none_iff.mp hdrop)
    | some b =>
        rw [hdrop] at hhead
        have hb : b = 35 := by simpa using hhead
        exact .inr (by rw [hb])

theorem fragment_stop {rest : Bytes} (h : rest = [] ∨ rest.head? = some 35) :
    rest.head?.any isAsciiAlphanumeric = false := by
  obtain rfl | hhead := h
  · rfl
  · rw [hhead]
    decide

theorem fragment_quoted {rest last : Bytes} (h : rest = [] ∨ rest.head? = some 35) (hlast : unquoteUnreserved rest = some last) :
    quoted last = [] ∨ (quoted last).head? = some 35 := by
  obtain rfl | hhead := h
  · obtain rfl := Option.some.inj hlast
    exact .inl rfl
  · obtain ⟨tail, rfl⟩ := List.head?_eq_some_iff.mp hhead
    rw [unquoteUnreserved_byte (by decide), Option.map_eq_some_iff] at hlast
    obtain ⟨later, -, rfl⟩ := hlast
    exact .inr rfl

theorem insertParams_cut {front rest params : Bytes} (hne : params ≠ []) (hfront : 35 ∉ front)
    (hrest : rest = [] ∨ rest.head? = some 35) :
    insertParams (front ++ rest) params =
      front ++ (if front.contains 63 then (38 : UInt8) else 63) :: params ++ rest := by
  have hall : ∀ b ∈ front, (b != 35) = true := fun b hb => bne_iff_ne.mpr fun heq => hfront (heq ▸ hb)
  have htake : (front ++ rest).takeWhile (· != 35) = front := by
    rw [List.takeWhile_append_of_pos hall]
    obtain rfl | hhead := hrest
    · simp
    · obtain ⟨tail, rfl⟩ := List.head?_eq_some_iff.mp hhead
      simp
  rw [insertParams, if_neg hne]
  simp only [htake, List.drop_left]

theorem insertParams_split {value written params : Bytes} (h : unquoteUnreserved value = some written) (hne : params ≠ []) :
    ∃ front rest first last separator, (separator = 38 ∨ separator = 63) ∧
      rest.head?.any isAsciiAlphanumeric = false ∧ (quoted last).head?.any isAsciiAlphanumeric = false ∧
      unquoteUnreserved front = some first ∧ unquoteUnreserved rest = some last ∧ value = front ++ rest ∧
      quoted written = quoted first ++ quoted last ∧
      insertParams value params = front ++ separator :: params ++ rest ∧
      insertParams (quoted written) params = quoted first ++ separator :: params ++ quoted last := by
  obtain ⟨front, rest, rfl, hfront, hrest⟩ := exists_fragment value
  rw [unquoteUnreserved_stop (fragment_stop hrest), Option.bind_eq_some_iff] at h
  obtain ⟨first, hfirst, h⟩ := h
  obtain ⟨last, hlast, rfl⟩ := Option.map_eq_some_iff.mp h
  have hlast' := fragment_quoted hrest hlast
  have hquery : (quoted first).contains 63 = front.contains 63 := by
    rw [Bool.eq_iff_iff, List.contains_iff_mem, List.contains_iff_mem, mem_requoted (.inr rfl) hfirst]
  refine ⟨front, rest, first, last, if front.contains 63 then 38 else 63, ?_, fragment_stop hrest, fragment_stop hlast',
    hfirst, hlast, rfl, quoted_append first last, insertParams_cut hne hfront hrest, ?_⟩
  · split
    · exact .inl rfl
    · exact .inr rfl
  · have hfront' : 35 ∉ quoted first := fun hmem => hfront ((mem_requoted (.inl rfl) hfirst).mp hmem)
    rw [quoted_append, insertParams_cut hne hfront' hlast', hquery]

theorem requoteUri_insertParams_iff {value written : Bytes} (params : Bytes) (h : unquoteUnreserved value = some written)
    (hfixed : unquoteUnreserved (quoted written) = some (quoted written)) :
    requoteUri (insertParams value params) = requoteUri (insertParams (quoted written) params) ↔
      brokenEscape (pieces params) = false ∨ untouched value = true := by
  have hbroken : unquoteUnreserved params = none ↔ brokenEscape (pieces params) = true := unquoted_eq_none_iff false params
  by_cases hne : params = []
  · subst hne
    refine iff_of_true ?_ (.inl rfl)
    have hnil (text : Bytes) : insertParams text [] = text := rfl
    rw [hnil, hnil, requoteUri, requoteUri, h, hfixed]
    exact (quoted_eq_self (quoted_kept written)).symm
  · obtain ⟨front, rest, first, last, separator, hseparator, hstop, hstop', hfirst, hlast, hvalue, hquoted, hinsert, hinsert'⟩ :=
      insertParams_split h hne
    rw [hinsert, hinsert']
    cases hparams : unquoteUnreserved params with
    | some middle =>
        have hsound : brokenEscape (pieces params) = false := by
          rw [← Bool.not_eq_true, ← hbroken, hparams]
          exact Option.some_ne_none middle
        refine iff_of_true ?_ (.inl hsound)
        rw [hquoted] at hfixed
        obtain ⟨hfirst', hlast'⟩ := unquoteUnreserved_parts hstop' (hquoted ▸ quoted_kept written) hfixed
        rw [requoteUri_around hseparator hstop hfirst hparams hlast,
          requoteUri_around hseparator hstop' hfirst' hparams hlast', quoted_eq_self (quoted_kept first),
          quoted_eq_self (quoted_kept last)]
    | none =>
        rw [hbroken.mp hparams, requoteUri_around_broken hseparator hstop hparams,
          requoteUri_around_broken hseparator hstop' hparams, percentQuoted_injective.eq_iff, hvalue, untouched_stop hstop]
        simp only [Bool.true_eq_false, false_or, Bool.and_eq_true]
        constructor
        · intro heq
          rw [List.append_assoc, List.append_assoc] at heq
          have hfront := untouched_of_append hfirst heq
          rw [quoted_of_untouched hfirst hfront] at heq
          have hrest := List.append_cancel_left (List.cons.inj (List.append_cancel_left heq)).2
          have hall : rest ++ [] = quoted last ++ [] := by rw [hrest]
          exact ⟨hfront, untouched_of_append hlast hall⟩
        · intro huntouched
          rw [quoted_of_untouched hfirst huntouched.1, quoted_of_untouched hlast huntouched.2]

/-! ### Prepared in two stages -/

theorem requoteUri_kept {front : Bytes} (hfront : ∀ b ∈ front, b ≠ 37 ∧ isKept b = true) (rest : Bytes) :
    requoteUri (front ++ rest) = front ++ requoteUri rest := by
  have hplain : 37 ∉ front := fun hmem => (hfront 37 hmem).1 rfl
  have hquoted : quoted front = front := quoted_eq_self fun b hb => (hfront b hb).2
  rw [requoteUri, requoteUri, unquoteUnreserved_append hplain, flatMap_pushByte fun b hb => isKept_ascii (hfront b hb).2]
  cases unquoteUnreserved rest with
  | none =>
      change percentQuoted (front ++ rest) = front ++ percentQuoted rest
      rw [percentQuoted_append, ← quoted_eq_percentQuoted hplain, hquoted]
  | some written =>
      change quoted (front ++ written) = front ++ quoted written
      rw [quoted_append, hquoted]

section Stages

variable {url : UrlParser} {alphanumeric : Nat → Bool} {raw base : Bytes} {d : Destination}

theorem isHttp_plain (hhttp : d.isHttp = true) : 37 ∉ d.scheme ∧ toAsciiLowercase d.scheme ≠ text "http+unix" := by
  rw [Destination.isHttp, Bool.or_eq_true] at hhttp
  have hlower : toAsciiLowercase d.scheme = text "http" ∨ toAsciiLowercase d.scheme = text "https" :=
    hhttp.imp (fun h => (beq_iff_eq.mp h).trans (by decide)) fun h => (beq_iff_eq.mp h).trans (by decide)
  constructor
  · intro hmem
    have hmem' : (37 : UInt8) ∈ toAsciiLowercase d.scheme := List.mem_map.mpr ⟨37, hmem, rfl⟩
    obtain h | h := hlower <;> exact absurd (h ▸ hmem') (by decide)
  · obtain h | h := hlower <;> (rw [h]; decide)

theorem urlIsNativeSafe_parts {remainder : Bytes} (hsafe : urlIsNativeSafe raw = true)
    (hnon : isNonHttpUrl (trimPythonWhitespaceStart raw) = false) (hhttp : d.isHttp = true)
    (hsplit : splitOnce (text "://") (trimPythonWhitespaceStart raw) = some (d.scheme, remainder)) :
    complete (rawSuffix remainder) = true ∧ ∀ b ∈ rawAuthority remainder, b ≠ 37 ∧ isKept b = true := by
  obtain ⟨hpercent, hunix⟩ := isHttp_plain hhttp
  obtain ⟨hincomplete, hauthority⟩ := urlIsNativeSafe_http hsafe hnon hsplit hunix
  refine ⟨complete_of_safe ?_, hauthority⟩
  have hremainder : remainder = rawAuthority remainder ++ remainder.drop (rawAuthority remainder).length := by
    conv_lhs => rw [← List.take_append_drop (rawAuthority remainder).length remainder]
    rw [rawAuthority, ← List.prefix_iff_eq_take.mp (List.takeWhile_prefix _)]
  have hslashes : 37 ∉ text "://" := by decide
  have hplain : 37 ∉ rawAuthority remainder := fun hmem => (hauthority 37 hmem).1 rfl
  rw [splitOnce_eq hsplit, List.append_assoc, hasIncompletePercentEscape_plain hpercent,
    hasIncompletePercentEscape_plain hslashes, hremainder, hasIncompletePercentEscape_plain hplain] at hincomplete
  unfold rawSuffix
  simp only
  split
  · exact hincomplete
  · have hslash : (37 : UInt8) ∉ [47] := by decide
    exact (hasIncompletePercentEscape_plain hslash _).trans hincomplete

/-- Preparing a safe HTTP URL and then appending the parameters is preparing it with them exactly if they have no broken
escape or there is nothing behind the authority to requote. -/
theorem prepareUrl_stages_iff (hsafe : urlIsNativeSafe raw = true)
    (hd : destination (trimPythonWhitespaceStart raw) = some d) (hhttp : d.isHttp = true)
    (hreports : url.Reports (trimPythonWhitespaceStart raw)) (hbase : prepareUrl url alphanumeric raw [] = .ok base)
    (params : Bytes) :
    prepareUrl url alphanumeric raw params = .ok (appendUrlParams base params) ↔
      brokenEscape (pieces params) = false ∨ untouched (urlSuffix raw) = true := by
  obtain ⟨hnon, scheme, host, remainder, hsplit, -, hsame, hplain, -, hpercent, hdelimiters, htext⟩ :=
    prepareUrl_text hbase hd hhttp hreports
  obtain ⟨hcomplete, hauthority⟩ := urlIsNativeSafe_parts hsafe hnon hhttp hsplit
  obtain ⟨written, hwritten, hfixed⟩ := complete_unquoted hcomplete
  have hhost : d.host.all isKept = true := by
    rw [destination, hsplit, Option.map_some, Option.some_inj] at hd
    rw [← hd, List.all_eq_true]
    intro b hb
    exact (hauthority b ((List.rtakeWhile_suffix _ _).mem (List.mem_of_mem_take hb))).2
  rw [kept_congr hsame, List.all_eq_true] at hhost
  have hfront : ∀ b ∈ scheme ++ text "://" ++ host, b ≠ 37 ∧ isKept b = true := by
    intro b hb
    obtain hb | hb := List.mem_append.mp hb
    · exact (scheme_kept hplain b hb).symm
    · exact ⟨fun heq => hpercent (heq ▸ hb), hhost b hb⟩
  have hsuffix : untouched (urlSuffix raw) = untouched (normalized true (rawSuffix remainder)) := by
    rw [urlSuffix, hsplit]
    exact (untouched_normalize _).symm
  have hnil := htext []
  rw [hbase, requoteUri_kept hfront, Except.ok.injEq] at hnil
  have hquoted : requoteUri (insertParams (normalized true (rawSuffix remainder)) []) = quoted written := by
    change requoteUri (normalized true (rawSuffix remainder)) = _
    rw [requoteUri, show unquoteUnreserved (normalized true (rawSuffix remainder)) = some written from hwritten]
    rfl
  rw [htext, requoteUri_kept hfront, hnil, hquoted, appendUrlParams_eq, insertParams_append hdelimiters,
    requoteUri_kept hfront, Except.ok.injEq, List.append_cancel_left_eq, hsuffix]
  exact requoteUri_insertParams_iff params hwritten hfixed

end Stages

/-- An escape that stays next to a broken one. -/
theorem prepareUrl_stages_escape :
    prepareUrl authorityHttp (fun _ => false) (text "http://example.com/%2F") (text "x=%zz") =
      .ok (appendUrlParams (text "http://example.com/%2F") (text "x=%zz")) := by
  have hbase : prepareUrl authorityHttp (fun _ => false) (text "http://example.com/%2F") [] =
      .ok (text "http://example.com/%2F") := by decide
  have hd : destination (trimPythonWhitespaceStart (text "http://example.com/%2F")) =
      some ⟨text "http", none, text "example.com", none⟩ := by decide
  have hparse : authorityHttp.parse (trimPythonWhitespaceStart (text "http://example.com/%2F")) =
      .ok ⟨text "http", some (text "example.com")⟩ := by decide
  have hreports := authorityHttp_reports hparse hd (by decide)
  exact (prepareUrl_stages_iff (by decide) hd (by decide) hreports hbase (text "x=%zz")).mpr
    (.inr (by decide))

/-- An escape that the first stage decodes is quoted where there is one stage only. -/
theorem prepareUrl_stages_differ :
    urlIsNativeSafe (text "http://example.com/%41") = true ∧
    prepareUrl authorityHttp (fun _ => false) (text "http://example.com/%41") [] = .ok (text "http://example.com/A") ∧
    appendUrlParams (text "http://example.com/A") (text "x=%zz") = text "http://example.com/A?x=%25zz" ∧
    prepareUrl authorityHttp (fun _ => false) (text "http://example.com/%41") (text "x=%zz") =
      .ok (text "http://example.com/%2541?x=%25zz") ∧
    text "http://example.com/A?x=%25zz" ≠ text "http://example.com/%2541?x=%25zz" := by
  decide

end RequestsNative.Url
