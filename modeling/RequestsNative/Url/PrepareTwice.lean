import RequestsNative.Url.Prepare

/-!
# Preparing a URL twice

A prepared URL is in ASCII and its authority and suffix can be told apart again, so that preparing it once more requotes
the same two parts. The host is the one `url::Url` read, and the suffix is stable unless the first pass spliced an escape
together.
-/

namespace RequestsNative.Url

/-! ### Trimming and splitting -/

theorem utf8Chunk_pos (first : UInt8) (rest : Bytes) : 0 < (utf8Chunk (first :: rest)).2 := by
  unfold utf8Chunk
  simp only
  repeat' split
  all_goals exact Nat.succ_pos _

theorem nextChar_shorter {value : Bytes} (hne : value ≠ []) : (nextChar value).2.length < value.length := by
  obtain ⟨first, rest, rfl⟩ := List.exists_cons_of_ne_nil hne
  have hpos := utf8Chunk_pos first rest
  simp only [nextChar, List.length_drop, List.length_cons]
  omega

theorem nextChar_ascii {b : UInt8} (hascii : b < 128) (rest : Bytes) : nextChar (b :: rest) = (b.toNat, rest) := by
  have hwidth : utf8Width b = 1 := by
    rw [utf8Width, if_pos hascii]
  have hchunk : utf8Chunk (b :: rest) = (true, 1) := by
    rw [utf8Chunk]
    simp [hwidth]
  simp [nextChar, hchunk, codePoint]

/-- A text that starts with no white space. -/
def Trimmed (value : Bytes) : Prop := value ≠ [] → isPythonWhitespace (nextChar value).1 = false

theorem Trimmed.trimStartWith {value : Bytes} (h : Trimmed value) (fuel : Nat) : trimStartWith fuel value = value := by
  cases fuel with
  | zero => rfl
  | succ fuel =>
      rw [Url.trimStartWith, if_neg]
      rintro ⟨hne, hspace⟩
      rw [h hne] at hspace
      cases hspace

theorem trimmed_trimStartWith {fuel : Nat} {value : Bytes} (hlength : value.length ≤ fuel) :
    Trimmed (trimStartWith fuel value) := by
  induction fuel generalizing value with
  | zero =>
      intro hne
      exact absurd (List.length_eq_zero_iff.mp (Nat.le_zero.mp hlength)) hne
  | succ fuel ih =>
      rw [trimStartWith]
      by_cases hspace : value ≠ [] ∧ isPythonWhitespace (nextChar value).1 = true
      · rw [if_pos hspace]
        have hshorter := nextChar_shorter hspace.1
        exact ih (by omega)
      · rw [if_neg hspace]
        intro hne
        exact eq_false_of_ne_true fun h => hspace ⟨hne, h⟩

theorem trimPythonWhitespaceStart_trim (value : Bytes) :
    trimPythonWhitespaceStart (trimPythonWhitespaceStart value) = trimPythonWhitespaceStart value :=
  (trimmed_trimStartWith (Nat.le_refl _)).trimStartWith _

theorem startsWithHttp_trimmed {value : Bytes} (h : startsWithHttp value = true) :
    trimPythonWhitespaceStart value = value := by
  have htrimmed : Trimmed value := by
    intro hne
    obtain ⟨b, rest, rfl⟩ := List.exists_cons_of_ne_nil hne
    have hb : asciiLower b = 104 := by
      have heq : toAsciiLowercase (b :: rest.take 3) = 104 :: [116, 116, 112] := beq_iff_eq.mp h
      exact (List.cons.inj heq).1
    have hletter : b = 72 ∨ b = 104 := by grind [asciiLower]
    have hplain : b < 128 ∧ isPythonWhitespace b.toNat = false := by
      obtain rfl | rfl := hletter <;> decide
    rw [nextChar_ascii hplain.1]
    exact hplain.2
  exact htrimmed.trimStartWith _

theorem splitOnce_eq {pattern value before after : Bytes} (h : splitOnce pattern value = some (before, after)) :
    value = before ++ pattern ++ after := by
  induction value generalizing before with
  | nil =>
      rw [splitOnce] at h
      split at h
      · next hpattern => simp_all
      · cases h
  | cons b rest ih =>
      rw [splitOnce] at h
      split at h
      · next hprefix =>
          obtain ⟨tail, htail⟩ := List.isPrefixOf_iff_prefix.mp hprefix
          simp only [Option.some.injEq, Prod.mk.injEq] at h
          obtain ⟨rfl, rfl⟩ := h
          rw [← htail]
          simp
      · obtain ⟨parts, hparts, heq⟩ := Option.map_eq_some_iff.mp h
        simp only [Prod.mk.injEq] at heq
        obtain ⟨rfl, rfl⟩ := heq
        conv_lhs => rw [ih hparts]
        simp

/-- A scheme has no colon, so a URL is split behind it. -/
theorem splitOnce_colon {scheme : Bytes} (hplain : 58 ∉ scheme) (rest : Bytes) :
    splitOnce (text "://") (scheme ++ text "://" ++ rest) = some (scheme, rest) := by
  induction scheme with
  | nil =>
      rw [show text "://" = [58, 47, 47] by decide]
      simp [splitOnce]
  | cons b scheme ih =>
      rw [List.mem_cons, not_or] at hplain
      rw [List.cons_append, List.cons_append, splitOnce, ih hplain.2, if_neg]
      · rfl
      · rw [show text "://" = [58, 47, 47] by decide]
        simp [List.isPrefixOf, hplain.1]

theorem splitOnce_scheme {scheme : Bytes} (hplain : ∀ b ∈ scheme, isSchemeByte b = true) (rest : Bytes) :
    splitOnce (text "://") (scheme ++ text "://" ++ rest) = some (scheme, rest) := by
  refine splitOnce_colon (fun hmem => ?_) rest
  cases hplain 58 hmem

/-! ### ASCII texts -/

theorem charsWith_ascii {fuel : Nat} {value : Bytes} (hascii : ∀ b ∈ value, b < 128) :
    ∀ c ∈ charsWith fuel value, c < 128 := by
  induction fuel generalizing value with
  | zero => exact nofun
  | succ fuel ih =>
      match value with
      | [] => exact nofun
      | b :: rest =>
          rw [charsWith, if_neg (by simp), nextChar_ascii (hascii b List.mem_cons_self)]
          intro c hc
          obtain rfl | hc := List.mem_cons.mp hc
          · exact UInt8.lt_iff_toNat_lt.mp (hascii b List.mem_cons_self)
          · exact ih (fun d hd => hascii d (List.mem_cons_of_mem _ hd)) c hc

theorem mem_rawHost {authority : Bytes} {b : UInt8} (h : b ∈ rawHost authority) : b ∈ authority := by
  have hsuffix : ∀ {c}, c ∈ Transport.afterUserinfo authority → c ∈ authority := fun hc =>
    (List.rtakeWhile_suffix _ _).mem hc
  unfold rawHost at h
  simp only at h
  split at h
  · exact hsuffix h
  · split at h
    · exact hsuffix (List.mem_of_mem_take h)
    · exact hsuffix h

theorem rawHostHasDisallowedUnicode_ascii (alphanumeric : Nat → Bool) {value : Bytes} (hascii : ∀ b ∈ value, b < 128) :
    rawHostHasDisallowedUnicode alphanumeric value = false := by
  rw [rawHostHasDisallowedUnicode]
  cases hsplit : splitOnce (text "://") value with
  | none => rfl
  | some parts =>
      obtain ⟨before, remainder⟩ := parts
      have hhost : ∀ b ∈ rawHost (rawAuthority remainder), b < 128 := by
        intro b hb
        apply hascii
        rw [splitOnce_eq hsplit]
        exact List.mem_append_right _ ((List.takeWhile_prefix _).subset (mem_rawHost hb))
      simp only [List.any_eq_false]
      intro c hc
      have hlt := charsWith_ascii hhost c hc
      simp [Nat.not_le.mpr hlt]

/-! ### Authority and suffix -/

theorem rawAuthority_append {authority suffix : Bytes} (hauthority : ∀ b ∈ authority, isDelimiter b = false)
    (hsuffix : suffix.head? = some 47) : rawAuthority (authority ++ suffix) = authority := by
  obtain ⟨rest, rfl⟩ : ∃ rest, suffix = 47 :: rest := by
    cases suffix with
    | nil => cases hsuffix
    | cons b rest => exact ⟨rest, by simpa using hsuffix⟩
  rw [rawAuthority, List.takeWhile_append_of_pos (by simpa using hauthority)]
  simp [isDelimiter]

theorem rawSuffix_append {authority suffix : Bytes} (hauthority : ∀ b ∈ authority, isDelimiter b = false)
    (hsuffix : suffix.head? = some 47) : rawSuffix (authority ++ suffix) = suffix := by
  rw [rawSuffix, rawAuthority_append hauthority hsuffix]
  simp [hsuffix]

theorem rawAuthority_plain (remainder : Bytes) : ∀ b ∈ rawAuthority remainder, isDelimiter b = false := by
  intro b hb
  simpa using List.mem_takeWhile_imp hb

theorem rawSuffix_head (remainder : Bytes) : (rawSuffix remainder).head? = some 47 := by
  unfold rawSuffix
  simp only
  split
  · assumption
  · rfl

/-! ### The two ways a text is requoted -/

/-- How a text with a broken escape is quoted: every percent sign is. -/
def percentQuoted (value : Bytes) : Bytes := quoteBytes value safeWithoutPercent false

theorem percentQuoted_append (front rest : Bytes) :
    percentQuoted (front ++ rest) = percentQuoted front ++ percentQuoted rest := by
  simp [percentQuoted, quoteBytes]

theorem percentQuoted_cons (b : UInt8) (rest : Bytes) :
    percentQuoted (b :: rest) = quoteByte safeWithoutPercent false b ++ percentQuoted rest := by
  simp [percentQuoted, quoteBytes]

/-- A byte is quoted as before or, a percent sign, as an escape that stays. -/
theorem quoteByte_percent (normalizes : Bool) (b : UInt8) :
    (b ≠ 37 ∧ quoteByte safeWithoutPercent false b = quoteByte safeWithPercent false b) ∨
    (b = 37 ∧ quoteByte safeWithoutPercent false b = [37, 50, 53] ∧ escapeStays normalizes 50 53 = true) := by
  by_cases hpercent : b = 37
  · subst hpercent
    exact .inr ⟨rfl, by decide, by cases normalizes <;> decide⟩
  · refine .inl ⟨hpercent, ?_⟩
    have hsame : safeWithoutPercent.contains b = safeWithPercent.contains b := by
      rw [show safeWithPercent = [33, 35, 36] ++ 37 :: safeWithoutPercent.drop 3 by decide,
        show safeWithoutPercent = [33, 35, 36] ++ safeWithoutPercent.drop 3 by decide]
      simp [hpercent]
    rw [quoteByte, hsame, ← quoteByte]

theorem quoteByte_pos (b : UInt8) : 1 ≤ (quoteByte safeWithoutPercent false b).length := by
  unfold quoteByte
  split
  · exact Nat.le_refl 1
  · exact Nat.succ_le_succ (Nat.zero_le _)

theorem percentQuoted_kept (value : Bytes) : ∀ b ∈ percentQuoted value, isKept b = true := by
  intro b hb
  obtain ⟨c, -, hc⟩ := List.mem_flatMap.mp hb
  obtain ⟨-, hsame⟩ | ⟨-, hescape, -⟩ := quoteByte_percent true c
  · exact (quoteByte_plain c).1 b (hsame ▸ hc)
  · have hall : [37, 50, 53].all isKept = true := by decide
    exact List.all_eq_true.mp hall b (hescape ▸ hc)

theorem stable_percentQuoted (normalizes : Bool) (value : Bytes) : stable normalizes (percentQuoted value) = true := by
  induction value with
  | nil => rfl
  | cons b rest ih =>
      rw [percentQuoted_cons]
      obtain ⟨hne, hsame⟩ | ⟨-, hescape, hstays⟩ := quoteByte_percent normalizes b
      · rw [hsame, stable_quoteByte normalizes hne, ih]
      · rw [hescape, List.cons_append, List.cons_append, List.singleton_append,
          stable_escape normalizes (by decide), hstays, ih]
        rfl

theorem unquoted_percentQuoted (normalizes : Bool) (value : Bytes) :
    unquoted normalizes (percentQuoted value) = some (percentQuoted value) :=
  (unquoted_eq_self_iff normalizes (percentQuoted_kept value)).mpr (stable_percentQuoted normalizes value)

theorem length_le_percentQuoted (value : Bytes) : value.length ≤ (percentQuoted value).length := by
  induction value with
  | nil => exact Nat.le_refl 0
  | cons b rest ih =>
      have hone := quoteByte_pos b
      rw [percentQuoted_cons, List.length_append, List.length_cons]
      omega

theorem percentQuoted_eq_self {value : Bytes} (h : percentQuoted value = value) : 37 ∉ value := by
  induction value with
  | nil => exact List.not_mem_nil
  | cons b rest ih =>
      have hlength := length_le_percentQuoted rest
      have htotal := congrArg List.length h
      rw [percentQuoted_cons, List.length_append, List.length_cons] at htotal
      rw [percentQuoted_cons] at h
      obtain ⟨hne, -⟩ | ⟨-, hescape, -⟩ := quoteByte_percent true b
      · rw [List.mem_cons, not_or]
        refine ⟨Ne.symm hne, ih ?_⟩
        have hone := quoteByte_pos b
        have hsplit : quoteByte safeWithoutPercent false b ++ percentQuoted rest = [b] ++ rest := h
        exact (List.append_inj' hsplit (by omega)).2
      · rw [hescape] at htotal
        simp only [List.length_cons, List.length_nil] at htotal
        omega

/-- A text without percent signs is quoted alike both ways. -/
theorem quoted_eq_percentQuoted {value : Bytes} (hplain : 37 ∉ value) : quoted value = percentQuoted value := by
  apply List.flatMap_congr
  intro b hb
  obtain ⟨-, hsame⟩ | ⟨rfl, -⟩ := quoteByte_percent true b
  · exact hsame.symm
  · exact absurd hb hplain

/-- An ASCII text is pushed byte by byte as it is. -/
theorem flatMap_pushByte {value : Bytes} (hascii : ∀ b ∈ value, b < 128) : value.flatMap pushByte = value := by
  have hpush : ∀ b ∈ value, pushByte b = [b] := fun b hb => if_pos (hascii b hb)
  rw [List.flatMap_congr hpush, List.flatMap_singleton']

theorem unquoteUnreserved_plain {value : Bytes} (hascii : ∀ b ∈ value, b < 128) (hplain : 37 ∉ value) :
    unquoteUnreserved value = some value := by
  have happend := unquoteUnreserved_append hplain []
  rw [flatMap_pushByte hascii] at happend
  simpa [unquoteUnreserved] using happend

/-! ### Requoting part by part -/

/-- No escape reaches over a byte that is neither a letter nor a digit. -/
theorem opensEscape_stop {front rest : Bytes} (hstop : rest.head?.any isAsciiAlphanumeric = false) :
    opensEscape (front ++ rest) = opensEscape front := by
  match front with
  | _ :: _ :: _ => rfl
  | [b] =>
      rw [List.singleton_append, opensEscape_cons, hstop]
      exact Bool.and_false _
  | [] =>
      cases rest with
      | nil => rfl
      | cons b tail =>
          have hb : isAsciiAlphanumeric b = false := hstop
          rw [List.nil_append, opensEscape_cons, hb]
          rfl

theorem unquoteUnreserved_stop {front rest : Bytes} (hstop : rest.head?.any isAsciiAlphanumeric = false) :
    unquoteUnreserved (front ++ rest) =
      (unquoteUnreserved front).bind fun first => (unquoteUnreserved rest).map (first ++ ·) := by
  induction front using byPieces with
  | nil => simp [unquoteUnreserved]
  | byte b front hne ih =>
      rw [List.cons_append, unquoteUnreserved_byte hne, unquoteUnreserved_byte hne, ih]
      cases unquoteUnreserved front <;> simp [Option.map_map, Function.comp_def]
  | escape high low front hopens ih =>
      rw [List.cons_append, List.cons_append, List.cons_append, unquoteUnreserved_escape hopens,
        unquoteUnreserved_escape hopens, ih]
      cases unquoteEscape high low <;> cases unquoteUnreserved front <;> simp [Option.map_map, Function.comp_def]
  | percent front hlone ih =>
      have hlone' : opensEscape (front ++ rest) = false := (opensEscape_stop hstop).trans hlone
      rw [List.cons_append, unquoteUnreserved_percent hlone, unquoteUnreserved_percent hlone', ih]
      cases unquoteUnreserved front <;> simp [Option.map_map, Function.comp_def]

theorem unquoteUnreserved_split {front rest : Bytes} (hslash : front = [] ∨ rest.head? = some 47) :
    unquoteUnreserved (front ++ rest) =
      (unquoteUnreserved front).bind fun first => (unquoteUnreserved rest).map (first ++ ·) := by
  obtain rfl | hslash := hslash
  · simp [unquoteUnreserved]
  · apply unquoteUnreserved_stop
    rw [hslash]
    rfl

section Requoting

variable {scheme front rest : Bytes} (hscheme : ∀ b ∈ scheme, isSchemeByte b = true)

include hscheme

theorem scheme_kept : ∀ b ∈ scheme ++ text "://", isKept b = true ∧ b ≠ 37 := by
  intro b hb
  obtain hb | hb := List.mem_append.mp hb
  · have hkept : isSchemeByte b = true → isKept b = true ∧ b ≠ 37 := by
      grind [isKept_iff, isSchemeByte, isAsciiDigit]
    exact hkept (hscheme b hb)
  · have hall : (text "://").all (fun c => isKept c && c != 37) = true := by decide
    simpa using List.all_eq_true.mp hall b hb

theorem unquoteUnreserved_scheme (value : Bytes) :
    unquoteUnreserved (scheme ++ text "://" ++ value) = (unquoteUnreserved value).map (scheme ++ text "://" ++ ·) := by
  have hkept := scheme_kept hscheme
  rw [unquoteUnreserved_append (fun h => (hkept 37 h).2 rfl),
    flatMap_pushByte fun b hb => isKept_ascii (hkept b hb).1]

theorem percentQuoted_scheme (value : Bytes) :
    percentQuoted (scheme ++ text "://" ++ value) = scheme ++ text "://" ++ percentQuoted value := by
  have hkept := scheme_kept hscheme
  rw [percentQuoted_append, ← quoted_eq_percentQuoted (fun h => (hkept 37 h).2 rfl),
    quoted_eq_self fun b hb => (hkept b hb).1]

theorem requoteUri_ok {first second : Bytes} (hslash : front = [] ∨ rest.head? = some 47)
    (hfront : unquoteUnreserved front = some first) (hrest : unquoteUnreserved rest = some second) :
    requoteUri (scheme ++ text "://" ++ (front ++ rest)) = scheme ++ text "://" ++ (quoted first ++ quoted second) := by
  rw [requoteUri, unquoteUnreserved_scheme hscheme, unquoteUnreserved_split hslash, hfront, hrest]
  change quoted (scheme ++ text "://" ++ (first ++ second)) = _
  rw [quoted_append, quoted_append first, quoted_eq_self fun b hb => (scheme_kept hscheme b hb).1]

theorem requoteUri_broken (hslash : front = [] ∨ rest.head? = some 47)
    (h : unquoteUnreserved front = none ∨ unquoteUnreserved rest = none) :
    requoteUri (scheme ++ text "://" ++ (front ++ rest)) =
      scheme ++ text "://" ++ (percentQuoted front ++ percentQuoted rest) := by
  have hnone : unquoteUnreserved (scheme ++ text "://" ++ (front ++ rest)) = none := by
    rw [unquoteUnreserved_scheme hscheme, unquoteUnreserved_split hslash]
    obtain h | h := h
    · simp [h]
    · cases unquoteUnreserved front <;> simp [h]
  rw [requoteUri, hnone]
  change percentQuoted (scheme ++ text "://" ++ (front ++ rest)) = _
  rw [percentQuoted_scheme hscheme, percentQuoted_append]

end Requoting

/-! ### Delimiters -/

theorem alphanumeric_delimiter {b : UInt8} : isAsciiAlphanumeric b = true → isDelimiter b = false := by
  grind [isAsciiAlphanumeric, isAsciiDigit, isDelimiter]

/-- Unquoting neither makes nor removes a delimiter. -/
theorem mem_unquoteUnreserved {value written : Bytes} {c : UInt8} (hc : isDelimiter c = true)
    (h : unquoteUnreserved value = some written) : c ∈ written ↔ c ∈ value := by
  have hother {b : UInt8} (hb : isDelimiter b = false) : c ≠ b := by
    rintro rfl
    exact absurd (hc.symm.trans hb) (by decide)
  have hescape {high low : UInt8} (hopens : isAsciiAlphanumeric high = true ∧ isAsciiAlphanumeric low = true) (rest : Bytes) :
      c ∈ 37 :: high :: low :: rest ↔ c ∈ rest := by
    rw [List.mem_cons, List.mem_cons, List.mem_cons, or_iff_right (hother rfl),
      or_iff_right (hother (alphanumeric_delimiter hopens.1)), or_iff_right (hother (alphanumeric_delimiter hopens.2))]
  have hpieces := unquotes_of_some h
  clear h
  induction hpieces with
  | nil => rfl
  | @byte b rest later hne _ ih =>
      have hmem : c ∈ later ↔ c ∈ rest := ih
      rw [List.mem_append, hmem, List.mem_cons]
      by_cases hascii : b < 128
      · rw [pushByte, if_pos hascii, List.mem_singleton]
      · obtain ⟨lead, trail, hwritten, hlead, htrail⟩ := pushByte_high hascii
        have hnone : c ∉ pushByte b ∧ c ≠ b := by grind [isDelimiter]
        rw [or_iff_right hnone.1, or_iff_right hnone.2]
  | @decoded high low value rest later hopens _ hvalue _ ih =>
      have hplain : isUnreserved value = true → isDelimiter value = false := by
        grind [isUnreserved, isAsciiAlphanumeric, isAsciiDigit, isDelimiter]
      rw [hescape hopens, List.mem_cons, or_iff_right (hother (hplain hvalue))]
      exact ih
  | kept hopens _ _ _ ih =>
      rw [hescape hopens, hescape hopens]
      exact ih
  | percent _ _ ih =>
      rw [List.mem_cons, List.mem_cons]
      exact or_congr_right ih

theorem unquoteUnreserved_delimiters {value written : Bytes} (h : unquoteUnreserved value = some written)
    (hplain : ∀ b ∈ value, isDelimiter b = false) : ∀ b ∈ written, isDelimiter b = false := by
  intro b hb
  by_contra hdelimiter
  rw [Bool.not_eq_false] at hdelimiter
  exact absurd (hplain b ((mem_unquoteUnreserved hdelimiter h).mp hb)) (by rw [hdelimiter]; decide)

theorem mem_quoteByte {safe : Bytes} {b c : UInt8} (h : c ∈ quoteByte safe false b) :
    c = b ∨ c = 37 ∨ isAsciiAlphanumeric c = true := by
  obtain ⟨hhigh, hlow⟩ := nibbles_lt b
  rw [quoteByte] at h
  split at h
  · exact .inl (List.mem_singleton.mp h)
  · rw [Bool.false_and, if_neg Bool.false_ne_true, List.mem_cons, List.mem_cons, List.mem_singleton] at h
    obtain h | rfl | rfl := h
    · exact .inr (.inl h)
    · exact .inr (.inr (hexDigit_plain hhigh).1)
    · exact .inr (.inr (hexDigit_plain hlow).1)

/-- Quoting makes only percent signs, letters and digits. -/
theorem mem_quoteBytes {safe value : Bytes} {b : UInt8} (hb : b ≠ 37 ∧ isAsciiAlphanumeric b = false)
    (h : b ∈ quoteBytes value safe false) : b ∈ value := by
  obtain ⟨c, hc, hquoted⟩ := List.mem_flatMap.mp h
  obtain rfl | rfl | hletter := mem_quoteByte hquoted
  · exact hc
  · exact absurd rfl hb.1
  · exact absurd (hletter.symm.trans hb.2) (by decide)

theorem quoteBytes_delimiters {safe value : Bytes} (hplain : ∀ b ∈ value, isDelimiter b = false) :
    ∀ b ∈ quoteBytes value safe false, isDelimiter b = false := by
  intro b hb
  by_contra hdelimiter
  have hother : isDelimiter b = true → b ≠ 37 ∧ isAsciiAlphanumeric b = false := by
    grind [isAsciiAlphanumeric, isAsciiDigit, isDelimiter]
  exact hdelimiter (hplain b (mem_quoteBytes (hother (eq_true_of_ne_false hdelimiter)) hb))

theorem normalized_slash (normalizes : Bool) {value : Bytes} (h : value.head? = some 47) :
    (normalized normalizes value).head? = some 47 := by
  cases value with
  | nil => cases h
  | cons b rest =>
      obtain rfl : b = 47 := by simpa using h
      cases normalizes with
      | false => rfl
      | true =>
          rw [normalized, if_pos rfl, normalize_byte (by decide)]
          rfl

theorem unquoted_slash {value written : Bytes} (h : unquoteUnreserved value = some written)
    (hslash : value.head? = some 47) : (quoted written).head? = some 47 := by
  cases value with
  | nil => cases hslash
  | cons b rest =>
      obtain rfl : b = 47 := by simpa using hslash
      rw [unquoteUnreserved_byte (by decide), Option.map_eq_some_iff] at h
      obtain ⟨remaining, -, rfl⟩ := h
      rfl

theorem percentQuoted_slash {value : Bytes} (hslash : value.head? = some 47) :
    (percentQuoted value).head? = some 47 := by
  cases value with
  | nil => cases hslash
  | cons b rest =>
      obtain rfl : b = 47 := by simpa using hslash
      rfl

/-! ### The parts that are requoted -/

/-- Whether the escapes of a URL with this scheme are put in upper case. -/
def normalizes (scheme : Bytes) : Bool := scheme != text "http+unix"

/-- The part of the text that is requoted as it stands: the suffix, and behind `http+unix` the authority too. -/
def escapedPart (scheme remainder : Bytes) : Bytes :=
  if normalizes scheme then rawSuffix remainder else rawAuthority remainder ++ rawSuffix remainder

/-- The part that is read by `url::Url`. -/
def hostPart (scheme host : Bytes) : Bytes := if normalizes scheme then host else []

/-- What is requoted. -/
def preparedText (scheme host remainder : Bytes) : Bytes :=
  scheme ++ text "://" ++ (hostPart scheme host ++ normalized (normalizes scheme) (escapedPart scheme remainder))

variable {url : UrlParser} {alphanumeric : Nat → Bool}

theorem prepareUrl_ok {raw host before remainder : Bytes} {parsed : ParsedUrl} (params : Bytes)
    (hhttp : isNonHttpUrl (trimPythonWhitespaceStart raw) = false)
    (hparse : url.parse (trimPythonWhitespaceStart raw) = .ok parsed) (hhost : parsed.hostStr = some host)
    (hlabel : ¬(host.head? = some 42 ∨ host.head? = some 46))
    (hunicode : rawHostHasDisallowedUnicode alphanumeric (trimPythonWhitespaceStart raw) = false)
    (hsplit : splitOnce (text "://") (trimPythonWhitespaceStart raw) = some (before, remainder)) :
    prepareUrl url alphanumeric raw params =
      .ok (appendUrlParams (preparedText parsed.scheme host remainder) params) := by
  simp only [prepareUrl, hhttp, hparse, hhost, hunicode, hsplit, if_neg hlabel, Bool.false_eq_true, if_false]
  by_cases hunix : parsed.scheme = text "http+unix"
  · simp [hunix, preparedText, escapedPart, hostPart, normalized, normalizes]
  · simp [hunix, preparedText, escapedPart, hostPart, normalized, normalizes]

/-- A URL that was prepared is not for HTTP, or has a scheme, a host and a remainder. -/
theorem prepareUrl_cases {raw params prepared : Bytes} (h : prepareUrl url alphanumeric raw params = .ok prepared) :
    (isNonHttpUrl (trimPythonWhitespaceStart raw) = true ∧ prepared = trimPythonWhitespaceStart raw) ∨
    (isNonHttpUrl (trimPythonWhitespaceStart raw) = false ∧ ∃ parsed host before remainder,
      url.parse (trimPythonWhitespaceStart raw) = .ok parsed ∧ parsed.hostStr = some host ∧
      ¬(host.head? = some 42 ∨ host.head? = some 46) ∧
      rawHostHasDisallowedUnicode alphanumeric (trimPythonWhitespaceStart raw) = false ∧
      splitOnce (text "://") (trimPythonWhitespaceStart raw) = some (before, remainder) ∧
      prepared = appendUrlParams (preparedText parsed.scheme host remainder) params) := by
  by_cases hhttp : isNonHttpUrl (trimPythonWhitespaceStart raw) = true
  · refine .inl ⟨hhttp, ?_⟩
    simpa [prepareUrl, hhttp] using h.symm
  · have hhttp := eq_false_of_ne_true hhttp
    refine .inr ⟨hhttp, ?_⟩
    cases hparse : url.parse (trimPythonWhitespaceStart raw) with
    | error error => cases error <;> simp [prepareUrl, hhttp, hparse] at h
    | ok parsed =>
        cases hhost : parsed.hostStr with
        | none => simp [prepareUrl, hhttp, hparse, hhost] at h
        | some host =>
            by_cases hlabel : host.head? = some 42 ∨ host.head? = some 46
            · simp only [prepareUrl, hhttp, hparse, hhost, if_pos hlabel] at h
              cases h
            by_cases hunicode : rawHostHasDisallowedUnicode alphanumeric (trimPythonWhitespaceStart raw) = true
            · simp only [prepareUrl, hhttp, hparse, hhost, if_neg hlabel, if_pos hunicode] at h
              cases h
            have hunicode := eq_false_of_ne_true hunicode
            cases hsplit : splitOnce (text "://") (trimPythonWhitespaceStart raw) with
            | none =>
                simp only [prepareUrl, hhttp, hparse, hhost, if_neg hlabel, hunicode, hsplit] at h
                cases h
            | some parts =>
                have hok := prepareUrl_ok params hhttp hparse hhost hlabel hunicode hsplit
                rw [hok] at h
                exact ⟨parsed, host, parts.1, parts.2, rfl, hhost, hlabel, hunicode, rfl, (Except.ok.inj h).symm⟩

/-! ### The second pass -/

theorem hostPart_or_slash (scheme host remainder : Bytes) : hostPart scheme host = [] ∨
    (normalized (normalizes scheme) (escapedPart scheme remainder)).head? = some 47 := by
  by_cases hscheme : normalizes scheme = true
  · refine .inr (normalized_slash _ ?_)
    rw [escapedPart, if_pos hscheme]
    exact rawSuffix_head remainder
  · exact .inl (if_neg hscheme)

theorem escapedPart_host {scheme front rest : Bytes} (hscheme : normalizes scheme = true)
    (hfront : ∀ b ∈ front, isDelimiter b = false) (hslash : rest.head? = some 47) :
    escapedPart scheme (front ++ rest) = rest := by
  rw [escapedPart, if_pos hscheme, rawSuffix_append hfront hslash]

theorem escapedPart_socket {scheme authority suffix : Bytes} (hscheme : normalizes scheme = false)
    (hauthority : ∀ b ∈ authority, isDelimiter b = false) (hslash : suffix.head? = some 47) :
    escapedPart scheme (authority ++ suffix) = authority ++ suffix := by
  rw [escapedPart, if_neg (by simp [hscheme]), rawAuthority_append hauthority hslash, rawSuffix_append hauthority hslash]

theorem startsWithHttp_append {value : Bytes} (h : startsWithHttp value = true) (rest : Bytes) :
    startsWithHttp (value ++ rest) = true := by
  have hlength : (value.take 4).length = 4 := by
    have heq : toAsciiLowercase (value.take 4) = [104, 116, 116, 112] := beq_iff_eq.mp h
    simpa [toAsciiLowercase] using congrArg List.length heq
  have hle : 4 ≤ value.length := by
    rw [List.length_take] at hlength
    omega
  rwa [startsWithHttp, List.take_append_of_le_length hle]

theorem prepareUrl_again {host rest : Bytes} {parsed : ParsedUrl}
    (hscheme : ∀ b ∈ parsed.scheme, isSchemeByte b = true) (hhttp : startsWithHttp parsed.scheme = true)
    (hparse : url.parse (parsed.scheme ++ text "://" ++ rest) = .ok parsed) (hhost : parsed.hostStr = some host)
    (hlabel : ¬(host.head? = some 42 ∨ host.head? = some 46)) (hkept : ∀ b ∈ rest, isKept b = true) :
    prepareUrl url alphanumeric (parsed.scheme ++ text "://" ++ rest) [] =
      .ok (requoteUri (preparedText parsed.scheme host rest)) := by
  have hstarts : startsWithHttp (parsed.scheme ++ text "://" ++ rest) = true := by
    rw [List.append_assoc]
    exact startsWithHttp_append hhttp _
  have htrim := startsWithHttp_trimmed hstarts
  have hascii : ∀ b ∈ parsed.scheme ++ text "://" ++ rest, b < 128 := by
    intro b hb
    obtain hb | hb := List.mem_append.mp hb
    · exact isKept_ascii (scheme_kept hscheme b hb).1
    · exact isKept_ascii (hkept b hb)
  have hsplit := splitOnce_scheme hscheme rest
  rw [← htrim] at hsplit
  refine prepareUrl_ok [] ?_ ?_ hhost hlabel ?_ hsplit
  · rw [htrim, isNonHttpUrl, htrim, hstarts]
    exact Bool.and_false _
  · rw [htrim, hparse]
  · rw [htrim, rawHostHasDisallowedUnicode_ascii alphanumeric hascii]

/-- Unquoting writes only bytes that are kept if there were no others. -/
theorem unquoted_kept (normalizes : Bool) {value written : Bytes} (h : unquoted normalizes value = some written)
    (hkept : ∀ b ∈ value, isKept b = true) : ∀ b ∈ written, isKept b = true := by
  induction value using byPieces generalizing written with
  | nil =>
      obtain rfl : [] = written := by simpa using h
      exact nofun
  | byte b rest hne ih =>
      rw [unquoted_byte normalizes hne, Option.map_eq_some_iff] at h
      obtain ⟨remaining, hrest, rfl⟩ := h
      have hb := hkept b List.mem_cons_self
      rw [(spell_plain normalizes hne).2.1 (isKept_ascii hb)]
      exact List.forall_mem_cons.mpr ⟨hb, ih hrest fun c hc => hkept c (List.mem_cons_of_mem _ hc)⟩
  | escape high low rest hopens ih =>
      rw [unquoted_escape normalizes hopens, Option.bind_eq_some_iff] at h
      obtain ⟨decoded, hdecoded, h⟩ := h
      obtain ⟨remaining, hrest, rfl⟩ := Option.map_eq_some_iff.mp h
      have hremaining := ih hrest fun c hc => hkept c (by simp [hc])
      refine List.forall_mem_append.mpr ⟨?_, hremaining⟩
      obtain ⟨-, hnone⟩ | ⟨value, -, hvalue, hsome⟩ | ⟨value, high', low', -, -, hsome, hopens', -⟩ :=
        requoteEscape_cases normalizes high low hopens
      · rw [hnone] at hdecoded
        cases hdecoded
      · obtain rfl : [value] = decoded := Option.some.inj (hsome.symm.trans hdecoded)
        simp [isKept, hvalue]
      · obtain rfl : [37, high', low'] = decoded := Option.some.inj (hsome.symm.trans hdecoded)
        simp [isKept, (alphanumeric_plain hopens'.1).2.1, (alphanumeric_plain hopens'.2).2.1]
        decide
  | percent rest hlone ih =>
      rw [unquoted_percent normalizes hlone, Option.map_eq_some_iff] at h
      obtain ⟨remaining, hrest, rfl⟩ := h
      exact List.forall_mem_cons.mpr ⟨rfl, ih hrest fun c hc => hkept c (List.mem_cons_of_mem _ hc)⟩

/-- Two letters or digits behind a percent sign that spell no byte. -/
def brokenEscape (parts : List Piece) : Bool :=
  parts.any fun
    | .escape high low => (hexPair high low).isNone
    | _ => false

theorem unquoted_eq_none_iff (normalizes : Bool) (value : Bytes) :
    unquoted normalizes value = none ↔ brokenEscape (pieces value) = true := by
  induction value using byPieces with
  | nil => simp [brokenEscape, pieces]
  | byte b rest hne ih =>
      rw [unquoted_byte normalizes hne, Option.map_eq_none_iff, ih, pieces_byte hne]
      simp [brokenEscape]
  | escape high low rest hopens ih =>
      rw [unquoted_escape normalizes hopens, pieces_escape hopens]
      obtain ⟨hpair, hnone⟩ | ⟨value, hpair, -, hsome⟩ | ⟨value, _, _, hpair, -, hsome, -⟩ :=
        requoteEscape_cases normalizes high low hopens
      · simp [hnone, brokenEscape, hpair]
      · rw [hsome, Option.bind_some, Option.map_eq_none_iff, ih]
        simp [brokenEscape, hpair]
      · rw [hsome, Option.bind_some, Option.map_eq_none_iff, ih]
        simp [brokenEscape, hpair]
  | percent rest hlone ih =>
      rw [unquoted_percent normalizes hlone, Option.map_eq_none_iff, ih, pieces_percent hlone]
      simp [brokenEscape]

/-! ### When a prepared URL is prepared to itself -/

theorem escapedPart_quoted {scheme host remainder first second : Bytes} (hhost : ∀ b ∈ host, isDelimiter b = false)
    (hfirst : unquoteUnreserved (hostPart scheme host) = some first)
    (hsecond : unquoted (normalizes scheme) (escapedPart scheme remainder) = some second) :
    escapedPart scheme (quoted first ++ quoted second) = quoted second := by
  cases hscheme : normalizes scheme with
  | true =>
      rw [hostPart, if_pos hscheme] at hfirst
      rw [hscheme, escapedPart, if_pos hscheme, unquoted] at hsecond
      refine escapedPart_host hscheme ?_ ?_
      · exact quoteBytes_delimiters (unquoteUnreserved_delimiters hfirst hhost)
      · exact unquoted_slash hsecond (normalized_slash true (rawSuffix_head remainder))
  | false =>
      obtain rfl : [] = first := by simpa [hostPart, hscheme, unquoteUnreserved] using hfirst
      have hsplit : unquoteUnreserved (rawAuthority remainder ++ rawSuffix remainder) = some second := by
        simpa [hscheme, escapedPart, unquoted, normalized] using hsecond
      rw [unquoteUnreserved_split (.inr (rawSuffix_head remainder)), Option.bind_eq_some_iff] at hsplit
      obtain ⟨authority, hauthority, hsplit⟩ := hsplit
      obtain ⟨suffix, hsuffix, rfl⟩ := Option.map_eq_some_iff.mp hsplit
      rw [show quoted [] = [] from rfl, List.nil_append, quoted_append]
      refine escapedPart_socket hscheme ?_ ?_
      · exact quoteBytes_delimiters (unquoteUnreserved_delimiters hauthority (rawAuthority_plain remainder))
      · exact unquoted_slash hsuffix (rawSuffix_head remainder)

theorem escapedPart_percentQuoted (scheme remainder : Bytes) {host : Bytes}
    (hhost : ∀ b ∈ host, isDelimiter b = false) :
    escapedPart scheme (percentQuoted (hostPart scheme host) ++
      percentQuoted (normalized (normalizes scheme) (escapedPart scheme remainder))) =
    percentQuoted (normalized (normalizes scheme) (escapedPart scheme remainder)) := by
  cases hscheme : normalizes scheme with
  | true =>
      refine escapedPart_host hscheme ?_ (percentQuoted_slash (normalized_slash true ?_))
      · exact quoteBytes_delimiters (by simpa [hostPart, hscheme] using hhost)
      · rw [escapedPart, if_pos hscheme]
        exact rawSuffix_head remainder
  | false =>
      have hpart : escapedPart scheme remainder = rawAuthority remainder ++ rawSuffix remainder := by
        simp [escapedPart, hscheme]
      have hempty : percentQuoted (hostPart scheme host) = [] := by
        simp [hostPart, hscheme, percentQuoted, quoteBytes]
      rw [hempty, List.nil_append, hpart, normalized, if_neg Bool.false_ne_true, percentQuoted_append]
      exact escapedPart_socket hscheme (quoteBytes_delimiters (rawAuthority_plain remainder))
        (percentQuoted_slash (rawSuffix_head remainder))

theorem hostPart_unquoted {scheme host : Bytes} (hplain : ∀ b ∈ host, b < 128 ∧ isDelimiter b = false)
    (hpercent : 37 ∉ hostPart scheme host) : unquoteUnreserved (hostPart scheme host) = some (hostPart scheme host) := by
  refine unquoteUnreserved_plain ?_ hpercent
  intro b hb
  unfold hostPart at hb
  split at hb
  · exact (hplain b hb).1
  · cases hb

section Twice

variable {host remainder : Bytes} {parsed : ParsedUrl}
  (hscheme : ∀ b ∈ parsed.scheme, isSchemeByte b = true) (hhttp : startsWithHttp parsed.scheme = true)
  (hhost : parsed.hostStr = some host) (hlabel : ¬(host.head? = some 42 ∨ host.head? = some 46))
  (hplain : ∀ b ∈ host, b < 128 ∧ isDelimiter b = false)

include hscheme hhttp hhost hlabel hplain

theorem prepareUrl_broken {prepared : Bytes}
    (hbroken : unquoted (normalizes parsed.scheme) (escapedPart parsed.scheme remainder) = none)
    (hpercent : 37 ∉ hostPart parsed.scheme host)
    (hprepared : prepared = requoteUri (preparedText parsed.scheme host remainder))
    (hparse : url.parse prepared = .ok parsed) : prepareUrl url alphanumeric prepared [] = .ok prepared := by
  have hpart := escapedPart_percentQuoted parsed.scheme remainder fun b hb => (hplain b hb).2
  have hfirst := hprepared.trans
    (requoteUri_broken hscheme (hostPart_or_slash parsed.scheme host remainder) (.inr hbroken))
  generalize hescaped : percentQuoted (normalized (normalizes parsed.scheme) (escapedPart parsed.scheme remainder)) =
    escaped at hpart hfirst
  have hstays : unquoted (normalizes parsed.scheme) escaped = some escaped := hescaped ▸ unquoted_percentQuoted _ _
  have hkept : ∀ b ∈ percentQuoted (hostPart parsed.scheme host) ++ escaped, isKept b = true :=
    List.forall_mem_append.mpr ⟨percentQuoted_kept _, hescaped ▸ percentQuoted_kept _⟩
  have hslash := hostPart_or_slash parsed.scheme host (percentQuoted (hostPart parsed.scheme host) ++ escaped)
  rw [hpart] at hslash
  rw [hfirst] at hparse ⊢
  rw [prepareUrl_again hscheme hhttp hparse hhost hlabel hkept, preparedText, hpart,
    requoteUri_ok hscheme hslash (hostPart_unquoted hplain hpercent) hstays, quoted_eq_percentQuoted hpercent,
    quoted_eq_self (hescaped ▸ percentQuoted_kept _)]

/-- If the text was unquoted, the second pass unquotes what came of the escaped part. -/
theorem prepareUrl_unquoted {prepared first second : Bytes}
    (hfirst : unquoteUnreserved (hostPart parsed.scheme host) = some first)
    (hsecond : unquoted (normalizes parsed.scheme) (escapedPart parsed.scheme remainder) = some second)
    (hprepared : prepared = requoteUri (preparedText parsed.scheme host remainder))
    (hparse : url.parse prepared = .ok parsed) : prepareUrl url alphanumeric prepared [] = .ok prepared ↔
      unspliced (normalizes parsed.scheme) (pieces (escapedPart parsed.scheme remainder)) = true := by
  have hdelimiters : ∀ b ∈ host, isDelimiter b = false := fun b hb => (hplain b hb).2
  have hprep := hprepared.trans
    (requoteUri_ok hscheme (hostPart_or_slash parsed.scheme host remainder) hfirst hsecond)
  have hpart := escapedPart_quoted hdelimiters hfirst hsecond
  have hbroken := escapedPart_percentQuoted parsed.scheme (quoted first ++ quoted second) hdelimiters
  have hslash := hostPart_or_slash parsed.scheme host (quoted first ++ quoted second)
  have hkept : ∀ b ∈ quoted first ++ quoted second, isKept b = true :=
    List.forall_mem_append.mpr ⟨quoted_kept first, quoted_kept second⟩
  rw [hpart] at hslash hbroken
  rw [hprep] at hparse ⊢
  rw [prepareUrl_again hscheme hhttp hparse hhost hlabel hkept, preparedText, hpart, ← requoted_stable_iff _ hsecond,
    Except.ok.injEq]
  constructor
  · intro hsame
    cases hagain : unquoted (normalizes parsed.scheme) (quoted second) with
    | some third =>
        rw [requoteUri_ok hscheme hslash hfirst hagain] at hsame
        have hthird := List.append_cancel_left (List.append_cancel_left hsame)
        rw [quoted_eq_self (unquoted_kept _ hagain (quoted_kept second))] at hthird
        rw [hthird]
    | none =>
        -- All percent signs would be quoted, and then the escapes would all stay.
        rw [requoteUri_broken hscheme hslash (.inr hagain)] at hsame
        have hescaped := congrArg (escapedPart parsed.scheme) (List.append_cancel_left hsame)
        rw [hbroken, hpart] at hescaped
        rw [← hescaped, unquoted_percentQuoted] at hagain
        cases hagain
  · intro hsame
    rw [requoteUri_ok hscheme hslash hfirst hsame, quoted_eq_self (quoted_kept second)]

end Twice

/-- Whether preparing a URL leaves a text that preparing again does not change: the URL is not for HTTP, or one of its
escapes is broken and every percent sign is quoted, or no percent sign that starts no escape comes to start one. -/
def preparesOnce (url : UrlParser) (raw : Bytes) : Bool :=
  let rawUrl := trimPythonWhitespaceStart raw
  isNonHttpUrl rawUrl ||
    match url.parse rawUrl, splitOnce (text "://") rawUrl with
    | .ok parsed, some (_, remainder) =>
        let parts := pieces (escapedPart parsed.scheme remainder)
        brokenEscape parts || unspliced (normalizes parsed.scheme) parts
    | _, _ => true

/-- A host with escapes is in the text as it is, so a prepared URL with the same host had no broken escape. -/
theorem hostPart_plain {host remainder prepared : Bytes} {parsed : ParsedUrl}
    (hscheme : ∀ b ∈ parsed.scheme, isSchemeByte b = true) (hhost : parsed.hostStr = some host)
    (hplain : ∀ b ∈ host, b < 128 ∧ isDelimiter b = false)
    (hbroken : unquoteUnreserved (hostPart parsed.scheme host) = none ∨
      unquoted (normalizes parsed.scheme) (escapedPart parsed.scheme remainder) = none)
    (hprepared : prepared = requoteUri (preparedText parsed.scheme host remainder))
    (hparse : url.parse prepared = .ok parsed) : 37 ∉ hostPart parsed.scheme host := by
  by_cases hnormalizes : normalizes parsed.scheme = true
  · have hfirst := hprepared.trans
      (requoteUri_broken hscheme (hostPart_or_slash parsed.scheme host remainder) hbroken)
    have hpart : hostPart parsed.scheme host = host := if_pos hnormalizes
    have hslash : (percentQuoted (normalized (normalizes parsed.scheme)
        (escapedPart parsed.scheme remainder))).head? = some 47 := by
      refine percentQuoted_slash (normalized_slash _ ?_)
      rw [escapedPart, if_pos hnormalizes]
      exact rawSuffix_head remainder
    rw [hpart] at hfirst ⊢
    intro hpercent
    obtain ⟨hat, hcolon, hverbatim⟩ := url.host_opaque hparse hhost hpercent
    have hdelimiters : ∀ b ∈ percentQuoted host, isDelimiter b = false := quoteBytes_delimiters fun b hb => (hplain b hb).2
    have hauthority := rawAuthority_append hdelimiters hslash
    have hgraphic : ∀ b ∈ prepared, 33 ≤ b ∧ b ≤ 126 := by
      intro b hb
      have hkept : isKept b = true := by
        rw [hfirst, List.mem_append] at hb
        obtain hb | hb := hb
        · exact (scheme_kept hscheme b hb).1
        · rw [← percentQuoted_append] at hb
          exact percentQuoted_kept _ b hb
      exact isKept_graphic hkept
    have hquoted := hverbatim hgraphic (hfirst ▸ splitOnce_scheme hscheme _)
    rw [hauthority] at hquoted
    have hsame := hquoted (fun h => hat (mem_quoteBytes (by decide) h))
      (fun h => hcolon (mem_quoteBytes (by decide) h))
    exact percentQuoted_eq_self hsame.symm hpercent
  · rw [hostPart, if_neg hnormalizes]
    exact List.not_mem_nil

theorem prepareUrl_idempotent_iff {raw prepared : Bytes} (h : prepareUrl url alphanumeric raw [] = .ok prepared)
    (hsame : url.parse prepared = url.parse (trimPythonWhitespaceStart raw)) :
    prepareUrl url alphanumeric prepared [] = .ok prepared ↔ preparesOnce url raw = true := by
  obtain ⟨hnon, rfl⟩ | ⟨hnon, parsed, host, before, remainder, hparse, hhost, hlabel, -, hsplit, hprepared⟩ :=
    prepareUrl_cases h
  · have htwice : prepareUrl url alphanumeric (trimPythonWhitespaceStart raw) [] = .ok (trimPythonWhitespaceStart raw) := by
      simp [prepareUrl, trimPythonWhitespaceStart_trim, hnon]
    simp [htwice, preparesOnce, hnon]
  · have hstarts : startsWithHttp (trimPythonWhitespaceStart raw) = true := by
      have hcolon : 58 ∈ trimPythonWhitespaceStart raw := by
        rw [splitOnce_eq hsplit]
        exact List.mem_append_left _ (List.mem_append_right _ (by decide))
      simpa [isNonHttpUrl, trimPythonWhitespaceStart_trim, hcolon] using hnon
    have hscheme := url.scheme_plain hparse
    have hhttp := url.scheme_http hparse hstarts
    have hplain := url.host_plain hparse hhost
    have hagain := hsame.trans hparse
    have honce : preparesOnce url raw = (brokenEscape (pieces (escapedPart parsed.scheme remainder)) ||
        unspliced (normalizes parsed.scheme) (pieces (escapedPart parsed.scheme remainder))) := by
      simp [preparesOnce, hnon, hparse, hsplit]
    by_cases hbroken : unquoteUnreserved (hostPart parsed.scheme host) = none ∨
        unquoted (normalizes parsed.scheme) (escapedPart parsed.scheme remainder) = none
    · have hpercent := hostPart_plain hscheme hhost hplain hbroken hprepared hagain
      have hnone := hbroken.resolve_left (by simp [hostPart_unquoted hplain hpercent])
      have hescape := (unquoted_eq_none_iff _ _).mp hnone
      simp [prepareUrl_broken hscheme hhttp hhost hlabel hplain hnone hpercent hprepared hagain, honce, hescape]
    · rw [not_or] at hbroken
      obtain ⟨first, hfirst⟩ := Option.ne_none_iff_exists'.mp hbroken.1
      obtain ⟨second, hsecond⟩ := Option.ne_none_iff_exists'.mp hbroken.2
      have hescape : brokenEscape (pieces (escapedPart parsed.scheme remainder)) = false :=
        eq_false_of_ne_true fun h => hbroken.2 ((unquoted_eq_none_iff _ _).mpr h)
      rw [prepareUrl_unquoted hscheme hhttp hhost hlabel hplain hfirst hsecond hprepared hagain, honce, hescape,
        Bool.false_or]

/-- A parser that reads URLs of scheme `http` with a plain lower-case host. -/
def parsePlainHttp (value : Bytes) : Except ParseError ParsedUrl :=
  match splitOnce (text "://") value with
  | some (scheme, remainder) =>
      if scheme = text "http" ∧ (rawAuthority remainder).all isSchemeByte then
        .ok ⟨text "http", some (rawAuthority remainder)⟩
      else .error .other
  | none => .error .relativeUrlWithoutBase

theorem parsePlainHttp_ok {value : Bytes} {parsed : ParsedUrl} (h : parsePlainHttp value = .ok parsed) :
    parsed.scheme = text "http" ∧ ∃ host, parsed.hostStr = some host ∧ host.all isSchemeByte = true := by
  unfold parsePlainHttp at h
  split at h
  · split at h
    · next hplain =>
        obtain rfl := Except.ok.inj h
        exact ⟨rfl, _, rfl, hplain.2⟩
    · cases h
  · cases h

theorem parsePlainHttp_host {value host : Bytes} {parsed : ParsedUrl} (h : parsePlainHttp value = .ok parsed)
    (hhost : parsed.hostStr = some host) : ∀ b ∈ host, b ≠ 37 ∧ b < 128 ∧ isDelimiter b = false := by
  obtain ⟨-, host', hhost', hplain⟩ := parsePlainHttp_ok h
  obtain rfl : host = host' := Option.some.inj (hhost.symm.trans hhost')
  intro b hb
  have hbyte : isSchemeByte b = true → b ≠ 37 ∧ b < 128 ∧ isDelimiter b = false := by
    grind [isSchemeByte, isAsciiDigit, isDelimiter]
  exact hbyte (List.all_eq_true.mp hplain b hb)

theorem parsePlainHttp_scheme {value : Bytes} {parsed : ParsedUrl} (h : parsePlainHttp value = .ok parsed) :
    (∀ b ∈ parsed.scheme, isSchemeByte b = true) ∧ startsWithHttp parsed.scheme = true := by
  have hall : (text "http").all isSchemeByte = true := by decide
  rw [(parsePlainHttp_ok h).1]
  exact ⟨List.all_eq_true.mp hall, by decide⟩

def plainHttp : UrlParser where
  parse := parsePlainHttp
  scheme_plain h := (parsePlainHttp_scheme h).1
  scheme_http h _ := (parsePlainHttp_scheme h).2
  host_plain h hhost b hb := (parsePlainHttp_host h hhost b hb).2
  host_opaque h hhost hpercent := absurd rfl (parsePlainHttp_host h hhost 37 hpercent).1

theorem prepareUrl_idempotent_escape :
    prepareUrl plainHttp (fun _ => false) (text "http://example.com/a%7e%2f") [] =
      .ok (text "http://example.com/a~%2F") ∧
    prepareUrl plainHttp (fun _ => false) (text "http://example.com/a~%2F") [] =
      .ok (text "http://example.com/a~%2F") := by
  have hfirst : prepareUrl plainHttp (fun _ => false) (text "http://example.com/a%7e%2f") [] =
      .ok (text "http://example.com/a~%2F") := by decide
  exact ⟨hfirst, (prepareUrl_idempotent_iff hfirst (by decide)).mpr (by decide)⟩

/-- A percent sign and two escaped digits are unquoted to an escape, which the second pass decodes. -/
theorem prepareUrl_splices_escape :
    prepareUrl plainHttp (fun _ => false) (text "http://example.com/%%34%31") [] = .ok (text "http://example.com/%41") ∧
    plainHttp.parse (text "http://example.com/%41") = plainHttp.parse (text "http://example.com/%%34%31") ∧
    prepareUrl plainHttp (fun _ => false) (text "http://example.com/%41") [] = .ok (text "http://example.com/A") ∧
    ¬∀ (url : UrlParser) (alphanumeric : Nat → Bool) (raw prepared : Bytes),
      prepareUrl url alphanumeric raw [] = .ok prepared →
      url.parse prepared = url.parse (trimPythonWhitespaceStart raw) →
      prepareUrl url alphanumeric prepared [] = .ok prepared := by
  have hfirst : prepareUrl plainHttp (fun _ => false) (text "http://example.com/%%34%31") [] =
      .ok (text "http://example.com/%41") := by decide
  have hsecond : prepareUrl plainHttp (fun _ => false) (text "http://example.com/%41") [] =
      .ok (text "http://example.com/A") := by decide
  refine ⟨hfirst, by decide, hsecond, fun hall => ?_⟩
  have hsame := hall plainHttp (fun _ => false) _ _ hfirst (by decide)
  rw [hsecond] at hsame
  exact absurd (Except.ok.inj hsame) (by decide)

end RequestsNative.Url
