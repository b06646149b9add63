import RequestsNative.Transport.Httparse

/-!
# Lengths that are too large

`adapters.rs`, `overflowing_content_length`. The transport reads the `Content-Length` headers to choose what the wire
library is told, and the adapter reads them once more to choose what the user is told. The two scanners trim, strip zeroes
and compare in ways of their own. On the headers of a response they agree, and both decide by the numbers alone.
-/

namespace RequestsNative.Python

open RequestsNative.Lib Transport

/-! ### The adapter's scanner -/

def isHttpOws (b : UInt8) : Bool := b == 32 || b == 9

def trimHttpOws (bytes : Bytes) : Bytes := ((bytes.dropWhile isHttpOws).reverse.dropWhile isHttpOws).reverse

/-- The digits of a token without its leading zeroes. -/
def canonicalToken (token : Bytes) : Bytes :=
  match token.findIdx? (· != 48) with
  | none => token.drop (token.length - 1)
  | some start => token.drop start

/-- The loop over the tokens. It stops at the first that is no number or not the number before it. -/
def declaredLength : Option Bytes → List Bytes → Option (Option Bytes)
  | declared, [] => some declared
  | declared, token :: rest =>
      let token := trimHttpOws token
      if token = [] ∨ token.all isAsciiDigit = false then none
      else
        let canonical := canonicalToken token
        if declared.any (· != canonical) then none else declaredLength (some canonical) rest

def overflowingContentLength (headers : List RawHeader) : Option Bytes :=
  if headers.any fun header => isTransferEncoding header.1 &&
      (header.2.splitOn 44).any fun coding => eqIgnoreAsciiCase (trimHttpOws coding) (text "chunked") then none
  else
    match declaredLength none ((headers.filter (isContentLength ·.1)).flatMap (·.2.splitOn 44)) with
    | some (some declared) => if (parseU64 declared).isNone then some declared else none
    | _ => none

example : overflowingContentLength [(text "Content-Length", text "018446744073709551616, 18446744073709551616")] =
    some (text "18446744073709551616") := by decide

/-! ### Tokens and the numbers they spell -/

/-- The tokens of the `Content-Length` headers. -/
def lengthTokens (headers : List RawHeader) : List Bytes :=
  (headers.filter (isContentLength ·.1)).flatMap fun header => (header.2.splitOn 44).map trimAscii

def isLength (token : Bytes) : Bool := token != [] && token.all isAsciiDigit

/-- Every token spells this number, and there is one. -/
def SpellsAll (tokens : List Bytes) (n : Nat) : Prop :=
  tokens ≠ [] ∧ ∀ token ∈ tokens, isLength token = true ∧ digitsValue token = n

/-- `parsed_response_head`, `invalid_content_length`. -/
def invalidContentLength (headers : List RawHeader) : Bool := (contentLengthTokens headers).any (·.isNone)

theorem isLength_iff (token : Bytes) : isLength token = true ↔ ¬(token = [] ∨ token.all isAsciiDigit = false) := by
  simp [isLength]

theorem trimLeadingAsciiZeroes_cons (b : UInt8) (rest : Bytes) : trimLeadingAsciiZeroes (b :: rest) =
    if b = 48 ∧ rest ≠ [] then trimLeadingAsciiZeroes rest else b :: rest := by
  by_cases hzero : b = 48
  · subst hzero
    cases rest with
    | nil => rfl
    | cons c tail =>
        rw [if_pos ⟨rfl, List.cons_ne_nil c tail⟩, trimLeadingAsciiZeroes, trimLeadingAsciiZeroes, List.findIdx?_cons]
        cases (c :: tail).findIdx? (· != 48) with
        | none => simp
        | some start => simp
  · rw [if_neg fun h => hzero h.1, trimLeadingAsciiZeroes, List.findIdx?_cons, if_pos (bne_iff_ne.mpr hzero)]
    rfl

theorem trimLeadingAsciiZeroes_decimal {token : Bytes} (h : isLength token = true) :
    trimLeadingAsciiZeroes token = decimal (digitsValue token) := by
  rw [isLength, Bool.and_eq_true, bne_iff_ne] at h
  obtain ⟨hne, hall⟩ := h
  induction token with
  | nil => exact absurd rfl hne
  | cons b rest ih =>
      rw [trimLeadingAsciiZeroes_cons]
      split
      · next hzero =>
          obtain ⟨rfl, hrest⟩ := hzero
          rw [List.all_cons, Bool.and_eq_true] at hall
          exact ih hrest hall.2
      · next hfirst =>
          refine (decimal_digitsValue hne hall fun hhead => ?_).symm
          have hb : b = 48 := Option.some.inj hhead
          have hrest : rest = [] := by_contra fun hrest => hfirst ⟨hb, hrest⟩
          rw [hrest]
          rfl

theorem canonicalToken_eq (token : Bytes) : canonicalToken token = trimLeadingAsciiZeroes token := by
  unfold canonicalToken trimLeadingAsciiZeroes
  cases token.findIdx? (· != 48) <;> rfl

theorem decimal_injective : Function.Injective decimal := by
  intro m n heq
  rw [← digitsValue_decimal m, heq, digitsValue_decimal]

theorem parseU64_decimal (n : Nat) : (parseU64 (decimal n)).isNone = true ↔ 2 ^ 64 ≤ n := by
  rw [parseU64, digitsValue_decimal]
  split
  · next hfits =>
      have hmax : n ≤ 2 ^ 64 - 1 := hfits.2.2
      refine iff_of_false (by simp) ?_
      omega
  · next hlong =>
      refine iff_of_true rfl (Nat.le_of_not_lt fun hlt => hlong ⟨decimal_ne_nil n, decimal_digits n, ?_⟩)
      have hmax : u64Max = 2 ^ 64 - 1 := rfl
      omega

/-! ### The transport's decision -/

section Decision

variable {headers : List RawHeader}

theorem contentLengthTokens_eq (headers : List RawHeader) : contentLengthTokens headers =
    (lengthTokens headers).map fun token => if isLength token then some (decimal (digitsValue token)) else none := by
  rw [contentLengthTokens, lengthTokens, List.map_flatMap]
  apply List.flatMap_congr
  intro header _
  rw [List.map_map]
  apply List.map_congr_left
  intro token _
  unfold contentLengthToken
  by_cases hlength : isLength (trimAscii token) = true
  · simp only [Function.comp, if_neg ((isLength_iff _).mp hlength), if_pos hlength, trimLeadingAsciiZeroes_decimal hlength]
  · have hinvalid := not_not.mp (mt (isLength_iff _).mpr hlength)
    simp only [Function.comp, if_pos hinvalid, if_neg hlength]

theorem invalidContentLength_iff (headers : List RawHeader) :
    invalidContentLength headers = true ↔ ∃ token ∈ lengthTokens headers, token = [] ∨ token.all isAsciiDigit = false := by
  rw [invalidContentLength, contentLengthTokens_eq, List.any_map, List.any_eq_true]
  refine exists_congr fun token => and_congr_right fun _ => ?_
  rw [← not_iff_not, ← isLength_iff]
  cases hlength : isLength token <;> simp [hlength]

theorem valid_of_not_invalid (h : invalidContentLength headers = false) :
    ∀ token ∈ lengthTokens headers, isLength token = true := by
  intro token htoken
  rw [isLength_iff]
  intro hinvalid
  exact absurd ((invalidContentLength_iff headers).mpr ⟨token, htoken, hinvalid⟩) (by rw [h]; decide)

/-- Two tokens spell different numbers. -/
def Differ (tokens : List Bytes) : Prop := ∃ a ∈ tokens, ∃ b ∈ tokens, digitsValue a ≠ digitsValue b

theorem spellsAll_of_same {tokens : List Bytes} (hne : tokens ≠ []) (hvalid : ∀ token ∈ tokens, isLength token = true)
    (hsame : ¬Differ tokens) : ∃ n, SpellsAll tokens n := by
  obtain ⟨first, rest, rfl⟩ := List.exists_cons_of_ne_nil hne
  refine ⟨digitsValue first, hne, fun token htoken => ⟨hvalid token htoken, ?_⟩⟩
  by_contra hother
  exact hsame ⟨token, htoken, first, List.mem_cons_self, hother⟩

theorem SpellsAll.same {tokens : List Bytes} {n : Nat} (h : SpellsAll tokens n) : ¬Differ tokens := by
  rintro ⟨a, ha, b, hb, hother⟩
  exact hother ((h.2 a ha).2.trans (h.2 b hb).2.symm)

theorem contentLengths_valid (hvalid : ∀ token ∈ lengthTokens headers, isLength token = true) :
    (contentLengthTokens headers).filterMap id = (lengthTokens headers).map fun token => decimal (digitsValue token) := by
  rw [contentLengthTokens_eq, List.filterMap_map, ← List.filterMap_eq_map]
  apply List.filterMap_congr
  intro token htoken
  simp only [Function.comp, if_pos (hvalid token htoken), id]

theorem conflicting_iff (tokens : List Bytes) :
    (tokens.map fun token => decimal (digitsValue token)).head?.any (fun first =>
      (tokens.map fun token => decimal (digitsValue token)).any (· != first)) = true ↔ Differ tokens := by
  have hne (a b : Bytes) : (decimal (digitsValue a) != decimal (digitsValue b)) = true ↔ digitsValue a ≠ digitsValue b := by
    rw [bne_iff_ne, decimal_injective.ne_iff]
  cases tokens with
  | nil => simp [Differ]
  | cons first rest =>
      rw [List.map_cons, List.head?_cons, Option.any_some, ← List.map_cons (f := fun token => decimal (digitsValue token)),
        List.any_map, List.any_eq_true]
      constructor
      · rintro ⟨token, htoken, hother⟩
        exact ⟨token, htoken, first, List.mem_cons_self, (hne token first).mp hother⟩
      · rintro ⟨a, ha, b, hb, hother⟩
        by_cases hfirst : digitsValue a = digitsValue first
        · exact ⟨b, hb, (hne b first).mpr fun hsame => hother (hfirst.trans hsame.symm)⟩
        · exact ⟨a, ha, (hne a first).mpr hfirst⟩

theorem overflowing_iff (tokens : List Bytes) :
    (tokens.map fun token => decimal (digitsValue token)).any (fun canonical => (parseU64 canonical).isNone) = true ↔
      ∃ token ∈ tokens, 2 ^ 64 ≤ digitsValue token := by
  rw [List.any_map, List.any_eq_true]
  exact exists_congr fun token => and_congr_right fun _ => parseU64_decimal _

theorem contentLengthDecision_invalid (h : invalidContentLength headers = true) :
    contentLengthDecision headers = (.ignore, none) := by
  rw [invalidContentLength] at h
  simp [contentLengthDecision, h]

theorem contentLengthDecision_valid (h : invalidContentLength headers = false) :
    ((contentLengthDecision headers).1 = .ignore ↔
      isChunked headers = true ∧ ∃ token ∈ lengthTokens headers, 2 ^ 64 ≤ digitsValue token) ∧
    ((contentLengthDecision headers).2.isSome = true ↔ isChunked headers = false ∧ Differ (lengthTokens headers)) ∧
    ((contentLengthDecision headers).1 = .overflow ↔ isChunked headers = false ∧ ¬Differ (lengthTokens headers) ∧
      ∃ token ∈ lengthTokens headers, 2 ^ 64 ≤ digitsValue token) := by
  have hvalid := valid_of_not_invalid h
  have hconflict := conflicting_iff (lengthTokens headers)
  have hoverflow := overflowing_iff (lengthTokens headers)
  rw [← contentLengths_valid hvalid] at hconflict hoverflow
  rw [← hconflict, ← hoverflow]
  rw [invalidContentLength] at h
  unfold contentLengthDecision
  simp only [h, Bool.not_false, Bool.true_and, Bool.false_eq_true, if_false]
  generalize ((contentLengthTokens headers).filterMap id).any (fun canonical => (parseU64 canonical).isNone) = overflowing
  generalize (((contentLengthTokens headers).filterMap id).head?.any fun first =>
    ((contentLengthTokens headers).filterMap id).any (· != first)) = conflicting
  cases isChunked headers <;> cases overflowing <;> cases conflicting <;> simp

theorem SpellsAll.valid {n : Nat} (h : SpellsAll (lengthTokens headers) n) : invalidContentLength headers = false := by
  refine eq_false_of_ne_true fun hinvalid => ?_
  obtain ⟨token, htoken, hnone⟩ := (invalidContentLength_iff headers).mp hinvalid
  exact (isLength_iff token).mp (h.2 token htoken).1 hnone

theorem contentLengthDecision_ignore_iff : (contentLengthDecision headers).1 = .ignore ↔
    invalidContentLength headers = true ∨
      (isChunked headers = true ∧ ∃ token ∈ lengthTokens headers, 2 ^ 64 ≤ digitsValue token) := by
  cases hinvalid : invalidContentLength headers with
  | true => simp [contentLengthDecision_invalid hinvalid]
  | false => rw [(contentLengthDecision_valid hinvalid).1, or_iff_right Bool.false_ne_true]

theorem contentLengthDecision_conflicting_iff : (contentLengthDecision headers).2.isSome = true ↔
    invalidContentLength headers = false ∧ isChunked headers = false ∧ Differ (lengthTokens headers) := by
  cases hinvalid : invalidContentLength headers with
  | true => simp [contentLengthDecision_invalid hinvalid]
  | false => rw [(contentLengthDecision_valid hinvalid).2.1, eq_self, true_and]

theorem contentLengthDecision_overflow_iff : (contentLengthDecision headers).1 = .overflow ↔
    isChunked headers = false ∧ ∃ n, 2 ^ 64 ≤ n ∧ SpellsAll (lengthTokens headers) n := by
  cases hinvalid : invalidContentLength headers with
  | true =>
      rw [contentLengthDecision_invalid hinvalid]
      refine iff_of_false (by simp) ?_
      rintro ⟨-, n, -, hn⟩
      exact absurd (hinvalid.symm.trans hn.valid) (by decide)
  | false =>
      rw [(contentLengthDecision_valid hinvalid).2.2]
      refine and_congr_right fun _ => ?_
      constructor
      · rintro ⟨hsame, token, htoken, hlarge⟩
        obtain ⟨n, hn⟩ := spellsAll_of_same (List.ne_nil_of_mem htoken) (valid_of_not_invalid hinvalid) hsame
        exact ⟨n, (hn.2 token htoken).2 ▸ hlarge, hn⟩
      · rintro ⟨n, hlarge, hn⟩
        obtain ⟨token, htoken⟩ := List.exists_mem_of_ne_nil _ hn.1
        exact ⟨hn.same, token, htoken, (hn.2 token htoken).2.symm ▸ hlarge⟩

end Decision

/-! ### The adapter's decision -/

theorem declaredLength_some {raws : List Bytes} {canonical : Bytes} {declared : Option Bytes} :
    declaredLength (some canonical) raws = some declared ↔ declared = some canonical ∧
      ∀ raw ∈ raws, isLength (trimHttpOws raw) = true ∧ decimal (digitsValue (trimHttpOws raw)) = canonical := by
  induction raws with
  | nil =>
      rw [declaredLength, Option.some.injEq]
      exact ⟨fun h => ⟨h.symm, by simp⟩, fun h => h.1.symm⟩
  | cons raw rest ih =>
      rw [declaredLength, List.forall_mem_cons]
      by_cases hlength : isLength (trimHttpOws raw) = true
      · simp only [if_neg ((isLength_iff _).mp hlength), canonicalToken_eq, trimLeadingAsciiZeroes_decimal hlength,
          Option.any_some, bne_iff_ne]
        by_cases hsame : decimal (digitsValue (trimHttpOws raw)) = canonical
        · rw [if_neg (not_not.mpr hsame.symm), hsame, ih]
          simp [hlength]
        · rw [if_pos (Ne.symm hsame)]
          simp [hsame]
      · have hinvalid := not_not.mp (mt (isLength_iff _).mpr hlength)
        simp only [if_pos hinvalid]
        simp [hlength]

theorem declaredLength_none {raws : List Bytes} {canonical : Bytes} :
    declaredLength none raws = some (some canonical) ↔ raws ≠ [] ∧
      ∀ raw ∈ raws, isLength (trimHttpOws raw) = true ∧ decimal (digitsValue (trimHttpOws raw)) = canonical := by
  cases raws with
  | nil => simp [declaredLength]
  | cons raw rest =>
      rw [declaredLength, List.forall_mem_cons]
      by_cases hlength : isLength (trimHttpOws raw) = true
      · simp only [if_neg ((isLength_iff _).mp hlength), canonicalToken_eq, trimLeadingAsciiZeroes_decimal hlength,
          Option.any_none, Bool.false_eq_true, if_false, declaredLength_some, Option.some.injEq]
        constructor
        · rintro ⟨rfl, hrest⟩
          exact ⟨List.cons_ne_nil raw rest, ⟨hlength, rfl⟩, hrest⟩
        · rintro ⟨-, ⟨-, rfl⟩, hrest⟩
          exact ⟨rfl, hrest⟩
      · have hinvalid := not_not.mp (mt (isLength_iff _).mpr hlength)
        simp only [if_pos hinvalid]
        simp [hlength]

/-! ### Both scanners on the headers of a response -/

theorem mem_of_mem_splitOn {c b : UInt8} {value part : Bytes} (hpart : part ∈ value.splitOn c) (hb : b ∈ part) : b ∈ value := by
  induction value generalizing part with
  | nil =>
      rw [List.splitOn_nil, List.mem_singleton] at hpart
      exact hpart ▸ hb
  | cons first rest ih =>
      rw [List.splitOn_cons_eq_if_modifyHead] at hpart
      split at hpart
      · obtain rfl | hpart := List.mem_cons.mp hpart
        · cases hb
        · exact List.mem_cons_of_mem first (ih hpart hb)
      · obtain ⟨front, others, hsplit⟩ := List.exists_cons_of_ne_nil (List.splitOn_ne_nil c rest)
        rw [hsplit, List.modifyHead_cons, List.mem_cons] at hpart
        obtain rfl | hpart := hpart
        · obtain rfl | hb := List.mem_cons.mp hb
          · exact List.mem_cons_self
          · exact List.mem_cons_of_mem first (ih (hsplit ▸ List.mem_cons_self) hb)
        · exact List.mem_cons_of_mem first (ih (hsplit ▸ List.mem_cons_of_mem front hpart) hb)

theorem trimHttpOws_eq {bytes : Bytes} (hplain : ∀ b ∈ bytes, isFieldByte b = true) : trimHttpOws bytes = trimAscii bytes := by
  have hblank {b : UInt8} : isFieldByte b = true → isHttpOws b = isAsciiWhitespace b := by
    grind [isFieldByte, isHttpOws, isAsciiWhitespace]
  have hdrop (value : Bytes) (hvalue : ∀ b ∈ value, isFieldByte b = true) :
      value.dropWhile isHttpOws = value.dropWhile isAsciiWhitespace := by
    induction value with
    | nil => rfl
    | cons b rest ih =>
        rw [List.forall_mem_cons] at hvalue
        rw [List.dropWhile_cons, List.dropWhile_cons, hblank hvalue.1, ih hvalue.2]
  rw [trimHttpOws, trimAscii, hdrop bytes hplain, hdrop]
  intro b hb
  exact hplain b ((List.dropWhile_sublist _).mem (List.mem_reverse.mp hb))

section Plain

variable {headers : List RawHeader} (hplain : ∀ header ∈ headers, ∀ b ∈ header.2, isFieldByte b = true)
include hplain

theorem isChunked_eq : (headers.any fun header => isTransferEncoding header.1 &&
    (header.2.splitOn 44).any fun coding => eqIgnoreAsciiCase (trimHttpOws coding) (text "chunked")) = isChunked headers := by
  rw [isChunked, List.any_filter, Bool.eq_iff_iff, List.any_eq_true, List.any_eq_true]
  refine exists_congr fun header => and_congr_right fun hheader => ?_
  have hname : isTransferEncoding header.1 = true → isContentLength header.1 = false := by
    intro htransfer
    refine eq_false_of_ne_true fun hlength => ?_
    have hsame := (beq_iff_eq.mp htransfer).symm.trans (beq_iff_eq.mp hlength)
    exact absurd hsame (by decide)
  have htrim : ∀ coding ∈ header.2.splitOn 44, trimHttpOws coding = trimAscii coding := fun coding hcoding =>
    trimHttpOws_eq fun b hb => hplain header hheader b (mem_of_mem_splitOn hcoding hb)
  have hany : ((header.2.splitOn 44).any fun coding => eqIgnoreAsciiCase (trimHttpOws coding) (text "chunked")) =
      (header.2.splitOn 44).any fun coding => eqIgnoreAsciiCase (trimAscii coding) (text "chunked") := by
    rw [Bool.eq_iff_iff, List.any_eq_true, List.any_eq_true]
    refine exists_congr fun coding => and_congr_right fun hcoding => ?_
    rw [htrim coding hcoding]
  rw [hany, Bool.and_eq_true, Bool.and_eq_true, Bool.and_eq_true, Bool.not_eq_true']
  exact ⟨fun h => ⟨⟨hname h.1, h.1⟩, h.2⟩, fun h => ⟨h.1.2, h.2⟩⟩

theorem lengthTokens_eq : ((headers.filter (isContentLength ·.1)).flatMap (·.2.splitOn 44)).map trimHttpOws =
    lengthTokens headers := by
  rw [lengthTokens, List.map_flatMap]
  apply List.flatMap_congr
  intro header hheader
  apply List.map_congr_left
  intro token htoken
  exact trimHttpOws_eq fun b hb => hplain header (List.mem_of_mem_filter hheader) b (mem_of_mem_splitOn htoken hb)

theorem declaredLength_spellsAll {canonical : Bytes} :
    declaredLength none ((headers.filter (isContentLength ·.1)).flatMap (·.2.splitOn 44)) = some (some canonical) ↔
      ∃ n, SpellsAll (lengthTokens headers) n ∧ canonical = decimal n := by
  rw [declaredLength_none, ← lengthTokens_eq hplain]
  generalize (headers.filter (isContentLength ·.1)).flatMap (·.2.splitOn 44) = raws
  constructor
  · rintro ⟨hne, hall⟩
    obtain ⟨raw, rest, rfl⟩ := List.exists_cons_of_ne_nil hne
    refine ⟨digitsValue (trimHttpOws raw), ⟨by simp, ?_⟩, (hall raw List.mem_cons_self).2.symm⟩
    intro token htoken
    obtain ⟨other, hother, rfl⟩ := List.mem_map.mp htoken
    refine ⟨(hall other hother).1, decimal_injective ?_⟩
    rw [(hall other hother).2, (hall raw List.mem_cons_self).2]
  · rintro ⟨n, ⟨hne, hall⟩, rfl⟩
    refine ⟨fun hnil => hne (by rw [hnil]; rfl), fun raw hraw => ?_⟩
    obtain ⟨hlength, hvalue⟩ := hall _ (List.mem_map_of_mem hraw)
    exact ⟨hlength, by rw [hvalue]⟩

theorem overflowingContentLength_iff {written : Bytes} : overflowingContentLength headers = some written ↔
    isChunked headers = false ∧ ∃ n, 2 ^ 64 ≤ n ∧ SpellsAll (lengthTokens headers) n ∧ written = decimal n := by
  rw [overflowingContentLength, isChunked_eq hplain]
  cases isChunked headers with
  | true => simp
  | false =>
      simp only [Bool.false_eq_true, if_false, true_and]
      constructor
      · intro h
        split at h
        · next declared hdeclared =>
            obtain ⟨n, hn, rfl⟩ := (declaredLength_spellsAll hplain).mp hdeclared
            split at h
            · next hlong => exact ⟨n, (parseU64_decimal n).mp hlong, hn, (Option.some.inj h).symm⟩
            · cases h
        · cases h
      · rintro ⟨n, hlarge, hn, rfl⟩
        rw [(declaredLength_spellsAll hplain).mpr ⟨n, hn, rfl⟩]
        exact if_pos ((parseU64_decimal n).mpr hlarge)

end Plain

/-- The values a parser reports have no control characters but tabs. -/
def PlainValues (parser : HeadParser) : Prop := ∀ {s consumed head}, parser.parse s = some (consumed, head) →
  ∀ header ∈ head.headers, ∀ b ∈ header.2, isFieldByte b = true

/-- How the lengths of a response are classified, and that the adapter finds one too large exactly if the transport does. -/
theorem parsedResponseHead_lengths {parser : HeadParser} (hplain : PlainValues parser) {bytes : Bytes}
    {parsed : ParsedResponseHead} (h : parsedResponseHead parser bytes = some parsed) :
    (invalidContentLength parsed.rawHeaders = true ↔
      ∃ token ∈ lengthTokens parsed.rawHeaders, token = [] ∨ token.all isAsciiDigit = false) ∧
    (parsed.contentLengthNormalization = .ignore ↔ invalidContentLength parsed.rawHeaders = true ∨
      (isChunked parsed.rawHeaders = true ∧ ∃ token ∈ lengthTokens parsed.rawHeaders, 2 ^ 64 ≤ digitsValue token)) ∧
    (parsed.conflictingContentLength.isSome = true ↔ invalidContentLength parsed.rawHeaders = false ∧
      isChunked parsed.rawHeaders = false ∧ ∃ a ∈ lengthTokens parsed.rawHeaders, ∃ b ∈ lengthTokens parsed.rawHeaders,
        digitsValue a ≠ digitsValue b) ∧
    (parsed.contentLengthNormalization = .overflow ↔ isChunked parsed.rawHeaders = false ∧
      ∃ n, 2 ^ 64 ≤ n ∧ SpellsAll (lengthTokens parsed.rawHeaders) n) ∧
    ∀ written, overflowingContentLength parsed.rawHeaders = some written ↔
      parsed.contentLengthNormalization = .overflow ∧
        ∃ n, SpellsAll (lengthTokens parsed.rawHeaders) n ∧ written = decimal n := by
  obtain ⟨⟨consumed, head⟩, hparse, rfl⟩ := Option.map_eq_some_iff.mp h
  refine ⟨invalidContentLength_iff _, contentLengthDecision_ignore_iff, contentLengthDecision_conflicting_iff,
    contentLengthDecision_overflow_iff, fun written => ?_⟩
  rw [overflowingContentLength_iff (hplain hparse)]
  constructor
  · rintro ⟨hchunked, n, hlarge, hn, rfl⟩
    exact ⟨contentLengthDecision_overflow_iff.mpr ⟨hchunked, n, hlarge, hn⟩, n, hn, rfl⟩
  · rintro ⟨hoverflow, n, hn, rfl⟩
    obtain ⟨hchunked, m, hlarge, hm⟩ := contentLengthDecision_overflow_iff.mp hoverflow
    obtain ⟨token, htoken⟩ := List.exists_mem_of_ne_nil _ hn.1
    have hsame : m = n := (hm.2 token htoken).2.symm.trans (hn.2 token htoken).2
    exact ⟨hchunked, n, hsame ▸ hlarge, hn, rfl⟩

theorem referenceParser_plainValues : PlainValues referenceParser := by
  intro s consumed head hparse header hheader b hb
  obtain ⟨layout, rest, -, -, hmeans⟩ := readResponseHead_layout hparse
  obtain ⟨line, -, hline⟩ := line_of_header hmeans.headerTexts hheader
  obtain ⟨value, -, -, -, hvalue, htrim⟩ := readHeaderLine_split hline
  rw [htrim] at hb
  exact hvalue b ((List.dropWhile_sublist _).mem ((List.rdropWhile_prefix _ _).mem hb))

private def twiceTooLong : ParsedResponseHead :=
  ⟨95, 200, .overflow, none,
    [(text "Content-Length", text "018446744073709551616"), (text "content-length", text "18446744073709551616")]⟩

/-- The same number twice, once with a leading zero. -/
theorem parsedResponseHead_lengths_twice :
    overflowingContentLength twiceTooLong.rawHeaders = some (text "18446744073709551616") := by
  have hparsed : parsedResponseHead referenceParser (text ("HTTP/1.1 200 OK\r\nContent-Length: 018446744073709551616\r\n" ++
      "content-length:18446744073709551616\r\n\r\n")) = some twiceTooLong := by decide
  refine ((parsedResponseHead_lengths referenceParser_plainValues hparsed).2.2.2.2 _).mpr
    ⟨rfl, 18446744073709551616, ?_, by decide⟩
  have hall : (lengthTokens twiceTooLong.rawHeaders).all (fun token => isLength token &&
      digitsValue token == 18446744073709551616) = true := by decide
  refine ⟨by decide, fun token htoken => ?_⟩
  simpa using List.all_eq_true.mp hall token htoken

end RequestsNative.Python
