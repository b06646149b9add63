import RequestsNative.Transport.Uri
import RequestsNative.Url.PrepareTwice
import RequestsNative.Utf8

/-!
# The URL a proxy is asked for

An HTTP proxy gets the whole URL of a request. `proxy_request_url` puts it together from two views of one text: host and port come
from the authority `http::Uri` found in it, path and query from the text itself. What it returns has no userinfo and no fragment,
and is otherwise the same URL in the spelling of `urllib3`.

`UrlParts` are the parts of a URL text; the crate is a `UriReader`, which finds the authority where the parts have it.
-/

namespace RequestsNative.Python

open Transport (afterUserinfo httpHost httpAuthority)
open Url (splitOnce isDelimiter)

/-! ### The code -/

/-- `str::strip_prefix`. -/
def stripPrefix (value pattern : Bytes) : Option Bytes :=
  if pattern.isPrefixOf value then some (value.drop pattern.length) else none

/-- Whether a port is refused: a suffix that is more than a colon has to be a colon and the digits of the port. -/
def portRefused (port : Option Nat) (portSuffix : Bytes) : Bool :=
  portSuffix != [] && portSuffix != [58] && (port.isNone || !(stripPrefix portSuffix [58]).any (·.all isAsciiDigit))

/-- The path without the semicolon of empty parameters. -/
def proxyPath (path : Bytes) : Bytes :=
  let lastSegment := path.rtakeWhile (· != 47)
  if lastSegment.findIdx? (· == 59) = some (lastSegment.length - 1) then
    if path.getLast? = some 59 then path.dropLast else path
  else path

/-- `proxy_request_url` of a text and of the authority of its `http::Uri`. -/
def proxyRequestUrl (url : Bytes) (requestAuthority : Option Bytes) : Option Bytes := do
  let authority ← requestAuthority
  let host := httpHost authority
  if host.contains 37 then none
  else
    let port := httpAuthority.portU16 authority
    let portSuffix ← stripPrefix (afterUserinfo authority) host
    if portRefused port portSuffix then none
    else
      let authority := match port with
        | some port => toAsciiLowercase host ++ 58 :: decimal port
        | none => toAsciiLowercase host
      let url := (splitOnce (text "#") url).elim url Prod.fst
      let (scheme, rest) ← splitOnce (text "://") url
      let tail := rest.dropWhile fun b => b != 47 && b != 63
      let (path, query) := (splitOnce (text "?") tail).getD (tail, [])
      let result := toAsciiLowercase scheme ++ text "://" ++ authority ++ proxyPath path
      return if query ≠ [] then result ++ 63 :: query else result

/-! ### The parts of a URL -/

@[ext]
structure UrlParts where
  scheme : Bytes
  authority : Bytes
  path : Bytes
  query : Option Bytes
  fragment : Option Bytes
  scheme_plain : ∀ b ∈ scheme, b ≠ 58 ∧ isDelimiter b = false
  authority_plain : ∀ b ∈ authority, isDelimiter b = false
  path_plain : 63 ∉ path ∧ 35 ∉ path
  path_head : path = [] ∨ path.head? = some 47
  query_plain : ∀ value, query = some value → 35 ∉ value

namespace UrlParts

/-- What follows the authority, but for the fragment. -/
def target (parts : UrlParts) : Bytes := parts.path ++ parts.query.elim [] (63 :: ·)

/-- The URL without its fragment. -/
def withoutFragment (parts : UrlParts) : Bytes := parts.scheme ++ text "://" ++ (parts.authority ++ parts.target)

def url (parts : UrlParts) : Bytes := parts.withoutFragment ++ parts.fragment.elim [] (35 :: ·)

end UrlParts

/-- `http::Uri::from_str`, by the authority of a URL it accepts with a scheme and an authority. -/
structure UriReader where
  authority : Bytes → Option Bytes
  /-- The authority ends at the first slash, question mark or number sign. -/
  parts : ∀ {url found}, authority url = some found → ∃ parts : UrlParts, parts.url = url ∧ parts.authority = found
  /-- A bracket that opens a host is closed. -/
  brackets : ∀ {url found}, authority url = some found → (afterUserinfo found).head? = some 91 → 93 ∈ afterUserinfo found

/-! ### Reading the parts back -/

theorem splitOnce_optional {b : UInt8} {before : Bytes} (hplain : b ∉ before) (after : Option Bytes) :
    splitOnce [b] (before ++ after.elim [] (b :: ·)) = after.map (before, ·) := by
  induction before with
  | nil =>
      cases after with
      | none => rfl
      | some after => simp [splitOnce]
  | cons c before ih =>
      rw [List.mem_cons, not_or] at hplain
      rw [List.cons_append, splitOnce, if_neg (by simpa [List.isPrefixOf] using hplain.1), ih hplain.2, Option.map_map]
      rfl

theorem optional_injective {b : UInt8} {before before' : Bytes} (hplain : b ∉ before) (hplain' : b ∉ before')
    {after after' : Option Bytes} (h : before ++ after.elim [] (b :: ·) = before' ++ after'.elim [] (b :: ·)) :
    before = before' ∧ after = after' := by
  have hsplit := splitOnce_optional hplain after
  rw [h, splitOnce_optional hplain'] at hsplit
  cases after with
  | none =>
      cases after' with
      | none => exact ⟨by simpa using h, rfl⟩
      | some after' => cases hsplit
  | some after =>
      cases after' with
      | none => cases hsplit
      | some after' =>
          simp only [Option.map_some, Option.some.injEq, Prod.mk.injEq] at hsplit
          exact ⟨hsplit.1.symm, congrArg some hsplit.2.symm⟩

namespace UrlParts

theorem target_head (parts : UrlParts) : parts.target = [] ∨ ∃ b rest, parts.target = b :: rest ∧ (b = 47 ∨ b = 63) := by
  unfold target
  cases hpath : parts.path with
  | nil =>
      cases parts.query with
      | none => exact .inl rfl
      | some query => exact .inr ⟨63, query, rfl, .inr rfl⟩
  | cons b path =>
      refine .inr ⟨b, path ++ parts.query.elim [] (63 :: ·), rfl, .inl ?_⟩
      obtain hempty | hhead := parts.path_head
      · rw [hpath] at hempty
        cases hempty
      · rw [hpath] at hhead
        exact Option.some.inj hhead

theorem target_plain (parts : UrlParts) : 35 ∉ parts.target := by
  rw [target, List.mem_append, not_or]
  refine ⟨parts.path_plain.2, ?_⟩
  cases hquery : parts.query with
  | none => exact List.not_mem_nil
  | some query => exact fun hmem => (List.mem_cons.mp hmem).elim (by decide) (parts.query_plain query hquery)

theorem withoutFragment_plain (parts : UrlParts) : 35 ∉ parts.withoutFragment := by
  have hscheme : 35 ∉ parts.scheme := fun hmem => absurd (parts.scheme_plain 35 hmem).2 (by decide)
  have hauthority : 35 ∉ parts.authority := fun hmem => absurd (parts.authority_plain 35 hmem) (by decide)
  have hcolon : (35 : UInt8) ∉ text "://" := by decide
  simp only [withoutFragment, List.mem_append, hscheme, hauthority, hcolon, parts.target_plain, or_self, not_false_eq_true]

theorem split_fragment (parts : UrlParts) : splitOnce [35] parts.url = parts.fragment.map (parts.withoutFragment, ·) :=
  splitOnce_optional parts.withoutFragment_plain parts.fragment

theorem split_scheme (parts : UrlParts) :
    splitOnce (text "://") parts.withoutFragment = some (parts.scheme, parts.authority ++ parts.target) :=
  Url.splitOnce_colon (fun hmem => (parts.scheme_plain 58 hmem).1 rfl) _

theorem split_query (parts : UrlParts) : splitOnce [63] parts.target = parts.query.map (parts.path, ·) :=
  splitOnce_optional parts.path_plain.1 parts.query

theorem drop_authority (parts : UrlParts) :
    (parts.authority ++ parts.target).dropWhile (fun b => b != 47 && b != 63) = parts.target := by
  have hauthority : ∀ b ∈ parts.authority, (b != 47 && b != 63) = true := by
    intro b hb
    have hplain := parts.authority_plain b hb
    simp only [isDelimiter, Bool.or_eq_false_iff] at hplain
    simp only [bne, hplain.1, Bool.not_false, Bool.and_self]
  rw [List.dropWhile_append_of_pos hauthority]
  obtain hempty | ⟨b, rest, htarget, rfl | rfl⟩ := parts.target_head
  · rw [hempty]
    rfl
  · rw [htarget]
    rfl
  · rw [htarget]
    rfl

theorem url_injective {parts other : UrlParts} (h : parts.url = other.url) : parts = other := by
  obtain ⟨hbefore, hfragment⟩ := optional_injective parts.withoutFragment_plain other.withoutFragment_plain h
  have hscheme := parts.split_scheme
  rw [hbefore, other.split_scheme, Option.some.injEq, Prod.mk.injEq] at hscheme
  have htarget := parts.drop_authority
  rw [← hscheme.2, other.drop_authority] at htarget
  have hauthority := hscheme.2
  rw [htarget] at hauthority
  obtain ⟨hpath, hquery⟩ := optional_injective parts.path_plain.1 other.path_plain.1 htarget.symm
  exact UrlParts.ext hscheme.1.symm (List.append_cancel_right hauthority).symm hpath hquery hfragment

end UrlParts

/-! ### The port -/

/-- What stands behind a host, and the port it is: nothing, a colon, or a colon and a number that fits. -/
inductive PortSuffix : Bytes → Option Nat → Prop
  | absent : PortSuffix [] none
  | empty : PortSuffix [58] none
  | number {digits : Bytes} (hne : digits ≠ []) (hdigits : digits.all isAsciiDigit = true) (hvalue : digitsValue digits < 2 ^ 16) :
      PortSuffix (58 :: digits) (some (digitsValue digits))

theorem stripPrefix_append (pattern rest : Bytes) : stripPrefix (pattern ++ rest) pattern = some rest := by
  rw [stripPrefix, if_pos (List.isPrefixOf_iff_prefix.mpr (List.prefix_append _ _)), List.drop_left]

theorem takeWhile_snoc_isPrefix {b : UInt8} {value : Bytes} (hmem : b ∈ value) : value.takeWhile (· != b) ++ [b] <+: value := by
  induction value with
  | nil => cases hmem
  | cons c value ih =>
      by_cases heq : c = b
      · subst heq
        simp
      · obtain rfl | hmem := List.mem_cons.mp hmem
        · exact absurd rfl heq
        · simp only [List.takeWhile_cons, bne_iff_ne.mpr heq, if_true, List.cons_append]
          exact List.cons_prefix_cons.mpr ⟨rfl, ih hmem⟩

theorem httpHost_isPrefix {authority : Bytes}
    (hbrackets : (afterUserinfo authority).head? = some 91 → 93 ∈ afterUserinfo authority) :
    httpHost authority <+: afterUserinfo authority := by
  rw [httpHost]
  split
  · rename_i hopen
    exact takeWhile_snoc_isPrefix (hbrackets hopen)
  · exact List.takeWhile_prefix _

theorem rtakeWhile_colon {back : Bytes} (hplain : 58 ∉ back) (front : Bytes) :
    (front ++ 58 :: back).rtakeWhile (· != 58) = back := by
  have hback : ∀ b ∈ back.reverse, (b != 58) = true :=
    fun b hb => bne_iff_ne.mpr fun heq => hplain (heq ▸ List.mem_reverse.mp hb)
  rw [List.rtakeWhile, List.reverse_append, List.reverse_cons, List.append_assoc, List.takeWhile_append_of_pos hback]
  simp

theorem digits_plain {digits : Bytes} (hdigits : digits.all isAsciiDigit = true) {b : UInt8} (hb : isAsciiDigit b = false) :
    b ∉ digits := by
  intro hmem
  rw [List.all_eq_true.mp hdigits b hmem] at hb
  cases hb

theorem parseU16_digits {digits : Bytes} (hne : digits ≠ []) (hdigits : digits.all isAsciiDigit = true) :
    parseU16 digits = if digitsValue digits < 2 ^ 16 then some (digitsValue digits) else none := by
  have hplus : digits.head? ≠ some 43 := by
    intro hhead
    exact digits_plain hdigits (b := 43) rfl (List.mem_of_mem_head? hhead)
  rw [parseU16]
  simp [hplus, hne, hdigits]

theorem parseU16_none {value : Bytes} {b : UInt8} (hb : b ∈ value) (hdigit : isAsciiDigit b = false) (hplus : b ≠ 43) :
    parseU16 value = none := by
  have hmem : b ∈ if value.head? = some 43 then value.tail else value := by
    split
    · rename_i hhead
      cases value with
      | nil => cases hb
      | cons c value => exact (List.mem_cons.mp hb).resolve_left fun heq => hplus (heq.trans (Option.some.inj hhead))
    · exact hb
  rw [parseU16]
  exact if_neg fun h => digits_plain h.2.1 hdigit hmem

theorem mem_rtakeWhile {value back : Bytes} (hback : back <:+ value) (hplain : 58 ∉ back) {b : UInt8} (hb : b ∈ back) :
    b ∈ value.rtakeWhile (· != 58) := by
  obtain ⟨front, rfl⟩ := hback
  have hreverse : ∀ c ∈ back.reverse, (c != 58) = true :=
    fun c hc => bne_iff_ne.mpr fun heq => hplain (heq ▸ List.mem_reverse.mp hc)
  rw [List.rtakeWhile, List.mem_reverse, List.reverse_append, List.takeWhile_append_of_pos hreverse, List.mem_append,
    List.mem_reverse]
  exact .inl hb

theorem portU16_digits {authority digits : Bytes} (hsuffix : afterUserinfo authority = httpHost authority ++ 58 :: digits)
    (hdigits : digits.all isAsciiDigit = true) : httpAuthority.portU16 authority = parseU16 digits := by
  obtain ⟨front, hfront⟩ : ∃ front, authority = front ++ 58 :: digits := by
    obtain ⟨userinfo, huserinfo⟩ : afterUserinfo authority <:+ authority := List.rtakeWhile_suffix _ _
    rw [hsuffix, ← List.append_assoc] at huserinfo
    exact ⟨_, huserinfo.symm⟩
  have hcontains : authority.contains 58 = true := by
    rw [hfront]
    simp
  change (if authority.contains 58 then parseU16 (authority.rtakeWhile (· != 58)) else none) = parseU16 digits
  rw [if_pos hcontains, hfront, rtakeWhile_colon (digits_plain hdigits rfl)]

theorem portU16_host {authority : Bytes} (hsuffix : afterUserinfo authority = httpHost authority) :
    httpAuthority.portU16 authority = none := by
  have htail : afterUserinfo authority <:+ authority := List.rtakeWhile_suffix _ _
  change (if authority.contains 58 then parseU16 (authority.rtakeWhile (· != 58)) else none) = none
  rw [httpHost] at hsuffix
  split at hsuffix
  · -- The closing bracket is the last byte.
    have hbracket : [93] <:+ authority := by
      refine List.IsSuffix.trans ?_ htail
      rw [hsuffix]
      exact List.suffix_append _ _
    rw [parseU16_none (mem_rtakeWhile hbracket (by decide) List.mem_cons_self) rfl (by decide), ite_self]
  · have hplain : 58 ∉ afterUserinfo authority := by
      rw [hsuffix]
      intro hmem
      cases List.mem_takeWhile_imp hmem
    by_cases hat : 64 ∈ authority
    · have huserinfo : 64 :: afterUserinfo authority <:+ authority := by
        have hfront := takeWhile_snoc_isPrefix (List.mem_reverse.mpr hat)
        rwa [← List.reverse_suffix, List.reverse_append, List.reverse_reverse] at hfront
      have hcolon : 58 ∉ 64 :: afterUserinfo authority := fun hmem => (List.mem_cons.mp hmem).elim (by decide) hplain
      rw [parseU16_none (mem_rtakeWhile huserinfo hcolon List.mem_cons_self) rfl (by decide), ite_self]
    · have hwhole : afterUserinfo authority = authority :=
        List.rtakeWhile_eq_self_iff.mpr fun b hb => bne_iff_ne.mpr fun heq => hat (heq ▸ hb)
      rw [hwhole] at hplain
      rw [if_neg (by simpa using hplain)]

theorem stripPrefix_colon {suffix digits : Bytes} (h : stripPrefix suffix [58] = some digits) : suffix = 58 :: digits := by
  rw [stripPrefix] at h
  split at h
  · rename_i hcolon
    obtain ⟨rest, rfl⟩ := List.isPrefixOf_iff_prefix.mp hcolon
    rw [List.drop_left, Option.some.injEq] at h
    rw [h, List.singleton_append]
  · cases h

/-- What the guard lets through is a port, and the one that was read. -/
theorem portSuffix_iff {authority suffix : Bytes} (hsuffix : afterUserinfo authority = httpHost authority ++ suffix)
    {port : Option Nat} :
    PortSuffix suffix port ↔
      portRefused (httpAuthority.portU16 authority) suffix = false ∧ httpAuthority.portU16 authority = port := by
  have habsent : suffix = [] → httpAuthority.portU16 authority = none := by
    rintro rfl
    rw [List.append_nil] at hsuffix
    exact portU16_host hsuffix
  have hempty : suffix = [58] → httpAuthority.portU16 authority = none := by
    rintro rfl
    exact portU16_digits hsuffix rfl
  constructor
  · rintro (_ | _ | @⟨digits, hne, hdigits, hvalue⟩)
    · exact ⟨rfl, habsent rfl⟩
    · exact ⟨rfl, hempty rfl⟩
    · have hport := (portU16_digits hsuffix hdigits).trans ((parseU16_digits hne hdigits).trans (if_pos hvalue))
      have hstrip : stripPrefix (58 :: digits) [58] = some digits := stripPrefix_append [58] digits
      refine ⟨?_, hport⟩
      rw [portRefused, hport, hstrip]
      simp [hdigits]
  · rintro ⟨hguard, rfl⟩
    by_cases hnothing : suffix = []
    · rw [habsent hnothing, hnothing]
      exact .absent
    by_cases hcolon : suffix = [58]
    · rw [hempty hcolon, hcolon]
      exact .empty
    simp only [portRefused, Bool.and_eq_false_iff, bne_eq_false_iff_eq, hnothing, hcolon, Bool.or_eq_false_iff, false_or,
      Bool.not_eq_false'] at hguard
    obtain ⟨digits, hdigits, hall⟩ := (Option.any_eq_true _ _).mp hguard.2
    obtain rfl := stripPrefix_colon hdigits
    have hne : digits ≠ [] := by
      rintro rfl
      exact hcolon rfl
    rw [portU16_digits hsuffix hall, parseU16_digits hne hall] at hguard ⊢
    by_cases hvalue : digitsValue digits < 2 ^ 16
    · rw [if_pos hvalue]
      exact .number hne hall hvalue
    · rw [if_neg hvalue] at hguard
      cases hguard.1

/-! ### The path -/

/-- The path ends in a semicolon, the only one of its last segment; `kept` is what stands before it. -/
def EndsInSemicolon (path kept : Bytes) : Prop := path = kept ++ [59] ∧ 59 ∉ kept.rtakeWhile (· != 47)

theorem findIdx?_snoc {front : Bytes} {b : UInt8} :
    (front ++ [b]).findIdx? (· == 59) = some front.length ↔ 59 ∉ front ∧ b = 59 := by
  rw [List.findIdx?_append]
  by_cases hmem : 59 ∈ front
  · have hfound : ∃ c ∈ front, (c == 59) = true := ⟨59, hmem, rfl⟩
    have hlt := List.findIdx_lt_length_of_exists hfound
    simp [List.findIdx?_eq_some_of_exists hfound, hmem, Nat.ne_of_lt hlt]
  · have hnone : front.findIdx? (· == 59) = none := by
      refine List.findIdx?_eq_none_iff.mpr fun c hc => beq_eq_false_iff_ne.mpr ?_
      rintro rfl
      exact hmem hc
    by_cases hb : b = 59
    · simp [hnone, hmem, hb]
    · simp [hnone, hmem, hb]

theorem proxyPath_cases (path : Bytes) : (∃ kept, EndsInSemicolon path kept ∧ proxyPath path = kept) ∨
    ((∀ kept, ¬EndsInSemicolon path kept) ∧ proxyPath path = path) := by
  obtain rfl | ⟨front, b, rfl⟩ := List.eq_nil_or_concat path
  · refine .inr ⟨fun kept h => ?_, rfl⟩
    cases (List.append_eq_nil_iff.mp h.1.symm).2
  rw [List.concat_eq_append]
  by_cases hslash : b = 47
  · subst hslash
    refine .inr ⟨fun kept h => ?_, ?_⟩
    · cases (List.append_inj' h.1 rfl).2
    · rw [proxyPath, List.rtakeWhile_concat_neg _ _ _ (by decide)]
      rfl
  · have hsegment : (front ++ [b]).rtakeWhile (· != 47) = front.rtakeWhile (· != 47) ++ [b] :=
      List.rtakeWhile_concat_pos _ _ _ (bne_iff_ne.mpr hslash)
    have hlength : (front.rtakeWhile (· != 47) ++ [b]).length - 1 = (front.rtakeWhile (· != 47)).length := by simp
    rw [proxyPath, hsegment]
    simp only [hlength, findIdx?_snoc]
    by_cases hends : 59 ∉ front.rtakeWhile (· != 47) ∧ b = 59
    · obtain ⟨hsole, rfl⟩ := hends
      exact .inl ⟨front, ⟨rfl, hsole⟩, by simp [hsole]⟩
    · refine .inr ⟨fun kept h => hends ?_, if_neg hends⟩
      obtain ⟨rfl, hlast⟩ := List.append_inj' h.1 rfl
      exact ⟨h.2, (List.cons.inj hlast).1⟩

theorem proxyPath_isPrefix (path : Bytes) : proxyPath path <+: path := by
  obtain ⟨kept, ⟨hpath, -⟩, heq⟩ | ⟨-, heq⟩ := proxyPath_cases path
  · rw [heq, hpath]
    exact List.prefix_append _ _
  · exact ⟨[], by rw [heq, List.append_nil]⟩

theorem proxyPath_head {path : Bytes} (h : path = [] ∨ path.head? = some 47) :
    proxyPath path = [] ∨ (proxyPath path).head? = some 47 := by
  cases hpath : proxyPath path with
  | nil => exact .inl rfl
  | cons b rest =>
      obtain ⟨more, hmore⟩ := proxyPath_isPrefix path
      rw [hpath] at hmore
      refine .inr ?_
      obtain rfl | hhead := h
      · cases hmore
      · rw [← hmore] at hhead
        exact hhead

theorem proxyPath_idem (path : Bytes) : proxyPath (proxyPath path) = proxyPath path := by
  obtain ⟨kept, ⟨-, hsole⟩, heq⟩ | ⟨-, heq⟩ := proxyPath_cases path
  · rw [heq]
    obtain ⟨front, ⟨rfl, -⟩, -⟩ | ⟨-, hsame⟩ := proxyPath_cases kept
    · rw [List.rtakeWhile_concat_pos _ _ _ (by decide)] at hsole
      exact absurd (List.mem_append_right _ List.mem_cons_self) hsole
    · exact hsame
  · rw [heq, heq]

/-! ### The parts of what is sent -/

theorem isDelimiter_asciiLower (b : UInt8) : isDelimiter (asciiLower b) = isDelimiter b := by
  rw [Bool.eq_iff_iff]
  simp only [isDelimiter, Bool.or_eq_true, beq_iff_eq]
  rw [asciiLower_eq_iff rfl rfl, asciiLower_eq_iff rfl rfl, asciiLower_eq_iff rfl rfl]

theorem mem_httpHost {authority : Bytes} {b : UInt8} (h : b ∈ httpHost authority) : b ∈ authority ∨ b = 93 := by
  have hbefore : ∀ p, b ∈ (afterUserinfo authority).takeWhile p → b ∈ authority :=
    fun p hmem => (List.rtakeWhile_suffix _ _).mem ((List.takeWhile_prefix p).mem hmem)
  rw [httpHost] at h
  split at h
  · obtain hmem | hmem := List.mem_append.mp h
    · exact .inl (hbefore _ hmem)
    · exact .inr (List.mem_singleton.mp hmem)
  · exact .inl (hbefore _ h)

theorem isDelimiter_digit {b : UInt8} : isAsciiDigit b = true → isDelimiter b = false := by
  grind [isAsciiDigit, isDelimiter]

/-- A port, with its colon. -/
def portText (port : Option Nat) : Bytes := port.elim [] (58 :: decimal ·)

theorem mem_portText {port : Option Nat} {b : UInt8} (h : b ∈ portText port) : b = 58 ∨ isAsciiDigit b = true := by
  cases port with
  | none => cases h
  | some port => exact (List.mem_cons.mp h).imp_right fun hmem => List.all_eq_true.mp (decimal_digits port) b hmem

/-- The parts of a URL in the spelling of `urllib3`. -/
def UrlParts.proxied (parts : UrlParts) (port : Option Nat) : UrlParts where
  scheme := toAsciiLowercase parts.scheme
  authority := toAsciiLowercase (httpHost parts.authority) ++ portText port
  path := proxyPath parts.path
  query := parts.query.filter (· ≠ [])
  fragment := none
  scheme_plain := by
    intro b hb
    obtain ⟨c, hc, rfl⟩ := List.mem_map.mp hb
    rw [ne_eq, asciiLower_eq_iff rfl rfl, isDelimiter_asciiLower]
    exact parts.scheme_plain c hc
  authority_plain := by
    intro b hb
    obtain hb | hb := List.mem_append.mp hb
    · obtain ⟨c, hc, rfl⟩ := List.mem_map.mp hb
      rw [isDelimiter_asciiLower]
      obtain hmem | rfl := mem_httpHost hc
      · exact parts.authority_plain c hmem
      · rfl
    · obtain rfl | hdigit := mem_portText hb
      · rfl
      · exact isDelimiter_digit hdigit
  path_plain :=
    ⟨fun hmem => parts.path_plain.1 ((proxyPath_isPrefix _).mem hmem),
      fun hmem => parts.path_plain.2 ((proxyPath_isPrefix _).mem hmem)⟩
  path_head := proxyPath_head parts.path_head
  query_plain := by
    intro value hvalue
    exact parts.query_plain value (Option.filter_eq_some_iff.mp hvalue).1

theorem proxied_url (parts : UrlParts) (port : Option Nat) : (parts.proxied port).url =
    toAsciiLowercase parts.scheme ++ text "://" ++ (toAsciiLowercase (httpHost parts.authority) ++ portText port) ++
      proxyPath parts.path ++ if parts.query.getD [] ≠ [] then 63 :: parts.query.getD [] else [] := by
  have hquery : (parts.query.filter (· ≠ [])).elim [] (63 :: ·) =
      if parts.query.getD [] ≠ [] then 63 :: parts.query.getD [] else [] := by
    cases parts.query with
    | none => rfl
    | some query =>
        by_cases hempty : query = []
        · simp [Option.filter_some, hempty]
        · simp [Option.filter_some, hempty]
  simp only [UrlParts.url, UrlParts.withoutFragment, UrlParts.target, UrlParts.proxied, hquery, Option.elim_none, List.append_nil,
    List.append_assoc]

/-- What is sent, where nothing is refused. -/
theorem proxyRequestUrl_url (parts : UrlParts) {suffix : Bytes}
    (hsuffix : afterUserinfo parts.authority = httpHost parts.authority ++ suffix) :
    proxyRequestUrl parts.url (some parts.authority) =
      if (httpHost parts.authority).contains 37 || portRefused (httpAuthority.portU16 parts.authority) suffix then none
      else some (parts.proxied (httpAuthority.portU16 parts.authority)).url := by
  have hcut : (splitOnce (text "#") parts.url).elim parts.url Prod.fst = parts.withoutFragment := by
    rw [show text "#" = [35] by decide, parts.split_fragment]
    cases hfragment : parts.fragment with
    | none => simp [UrlParts.url, hfragment]
    | some fragment => rfl
  have htarget : (splitOnce (text "?") parts.target).getD (parts.target, []) = (parts.path, parts.query.getD []) := by
    rw [show text "?" = [63] by decide, parts.split_query]
    cases hquery : parts.query with
    | none => simp [UrlParts.target, hquery]
    | some query => rfl
  rw [proxyRequestUrl]
  simp only [Option.bind_eq_bind, Option.bind_some, hsuffix, stripPrefix_append, hcut, parts.split_scheme, parts.drop_authority,
    htarget, Bool.or_eq_true]
  have hauthority : (match httpAuthority.portU16 parts.authority with
      | some port => toAsciiLowercase (httpHost parts.authority) ++ 58 :: decimal port
      | none => toAsciiLowercase (httpHost parts.authority)) =
      toAsciiLowercase (httpHost parts.authority) ++ portText (httpAuthority.portU16 parts.authority) := by
    cases httpAuthority.portU16 parts.authority with
    | none => exact (List.append_nil _).symm
    | some port => rfl
  rw [hauthority, proxied_url]
  by_cases hpercent : (httpHost parts.authority).contains 37 = true
  · rw [if_pos hpercent, if_pos (.inl hpercent)]
  by_cases hport : portRefused (httpAuthority.portU16 parts.authority) suffix = true
  · rw [if_neg hpercent, if_pos hport, if_pos (.inr hport)]
  · have hpass : ¬((httpHost parts.authority).contains 37 = true ∨
        portRefused (httpAuthority.portU16 parts.authority) suffix = true) := fun h => h.elim hpercent hport
    rw [if_neg hpercent, if_neg hport, if_neg hpass]
    by_cases hquery : parts.query.getD [] ≠ []
    · rw [if_pos hquery, if_pos hquery]
      rfl
    · rw [if_neg hquery, if_neg hquery, List.append_nil]
      rfl

/-! ### The same again -/

theorem sent_plain (authority : Bytes) (port : Option Nat) : 64 ∉ toAsciiLowercase (httpHost authority) ++ portText port := by
  intro hmem
  obtain hhost | hport := List.mem_append.mp hmem
  · exact not_mem_toAsciiLowercase rfl rfl (Transport.httpHost_plain authority) hhost
  · obtain heq | hdigit := mem_portText hport
    · cases heq
    · cases hdigit

theorem afterUserinfo_sent (authority : Bytes) (port : Option Nat) :
    afterUserinfo (toAsciiLowercase (httpHost authority) ++ portText port) =
      toAsciiLowercase (httpHost authority) ++ portText port :=
  List.rtakeWhile_eq_self_iff.mpr fun _ hb => bne_iff_ne.mpr fun heq => sent_plain authority port (heq ▸ hb)

theorem httpHost_cases (authority : Bytes) :
    (∃ inner, httpHost authority = 91 :: inner ++ [93] ∧ 93 ∉ inner) ∨
      (58 ∉ httpHost authority ∧ (httpHost authority).head? ≠ some 91) := by
  rw [httpHost]
  split
  · rename_i hopen
    cases hhost : afterUserinfo authority with
    | nil =>
        rw [hhost] at hopen
        cases hopen
    | cons b rest =>
        rw [hhost, List.head?_cons, Option.some.injEq] at hopen
        subst hopen
        refine .inl ⟨rest.takeWhile (· != 93), rfl, fun hmem => ?_⟩
        cases List.mem_takeWhile_imp hmem
  · rename_i hopen
    refine .inr ⟨fun hmem => ?_, fun hhead => hopen ?_⟩
    · cases List.mem_takeWhile_imp hmem
    · obtain ⟨more, hmore⟩ := List.takeWhile_prefix (l := afterUserinfo authority) (· != 58)
      rw [← hmore, List.head?_append, hhead]
      rfl

theorem httpHost_whole {authority : Bytes} (h : afterUserinfo authority = authority) : httpHost authority =
    if authority.head? = some 91 then authority.takeWhile (· != 93) ++ [93] else authority.takeWhile (· != 58) := by
  rw [httpHost, h]

theorem httpHost_sent (authority : Bytes) (port : Option Nat) :
    httpHost (toAsciiLowercase (httpHost authority) ++ portText port) = toAsciiLowercase (httpHost authority) := by
  rw [httpHost_whole (afterUserinfo_sent authority port)]
  obtain ⟨inner, hhost, hplain⟩ | ⟨hcolon, hopen⟩ := httpHost_cases authority
  · have hinner : ∀ b ∈ toAsciiLowercase (91 :: inner), (b != 93) = true := by
      have hmem : 93 ∉ 91 :: inner := fun hmem => (List.mem_cons.mp hmem).elim (by decide) hplain
      exact fun b hb => bne_iff_ne.mpr fun heq => not_mem_toAsciiLowercase rfl rfl hmem (heq ▸ hb)
    have hlower : toAsciiLowercase (httpHost authority) = toAsciiLowercase (91 :: inner) ++ [93] := by
      rw [hhost, toAsciiLowercase_append]
      rfl
    have hfirst : (toAsciiLowercase (91 :: inner) ++ [93] ++ portText port).head? = some 91 := rfl
    rw [hlower, if_pos hfirst, List.append_assoc, List.takeWhile_append_of_pos hinner]
    simp
  · have hhost : ∀ b ∈ toAsciiLowercase (httpHost authority), (b != 58) = true :=
      fun b hb => bne_iff_ne.mpr fun heq => not_mem_toAsciiLowercase rfl rfl hcolon (heq ▸ hb)
    have hfirst : (toAsciiLowercase (httpHost authority) ++ portText port).head? ≠ some 91 := by
      cases hempty : httpHost authority with
      | nil => cases port <;> simp [toAsciiLowercase, portText]
      | cons b rest =>
          rw [hempty, List.head?_cons] at hopen
          simp only [toAsciiLowercase, List.map_cons, List.cons_append, List.head?_cons, ne_eq, Option.some.injEq]
          exact fun heq => hopen (congrArg some ((asciiLower_eq_iff rfl rfl).mp heq))
    have hstop : (portText port).takeWhile (· != 58) = [] := by cases port <;> rfl
    rw [if_neg hfirst, List.takeWhile_append_of_pos hhost, hstop, List.append_nil]

theorem proxied_idem (parts : UrlParts) (port : Option Nat) : (parts.proxied port).proxied port = parts.proxied port := by
  refine UrlParts.ext (toAsciiLowercase_idem _) ?_ (proxyPath_idem _) ?_ rfl
  · change toAsciiLowercase (httpHost (toAsciiLowercase (httpHost parts.authority) ++ portText port)) ++ portText port = _
    rw [httpHost_sent, toAsciiLowercase_idem]
    rfl
  · change (parts.query.filter (· ≠ [])).filter (· ≠ []) = parts.query.filter (· ≠ [])
    rw [Option.filter_filter]
    simp

theorem portSuffix_sent {suffix : Bytes} {port : Option Nat} (h : PortSuffix suffix port) : PortSuffix (portText port) port := by
  cases h with
  | absent | empty => exact .absent
  | @number digits _ _ hvalue =>
      have hnumber := PortSuffix.number (decimal_ne_nil (digitsValue digits)) (decimal_digits _) (by rwa [digitsValue_decimal])
      rwa [digitsValue_decimal] at hnumber

theorem proxyRequestUrl_sent (parts : UrlParts) {suffix : Bytes} {port : Option Nat} (hport : PortSuffix suffix port)
    (hpercent : 37 ∉ httpHost parts.authority) :
    proxyRequestUrl (parts.proxied port).url (some (parts.proxied port).authority) = some (parts.proxied port).url := by
  have hhost : httpHost (parts.proxied port).authority = toAsciiLowercase (httpHost parts.authority) :=
    httpHost_sent parts.authority port
  have hsuffix : afterUserinfo (parts.proxied port).authority = httpHost (parts.proxied port).authority ++ portText port := by
    rw [hhost]
    exact afterUserinfo_sent parts.authority port
  obtain ⟨hguard, hread⟩ := (portSuffix_iff hsuffix).mp (portSuffix_sent hport)
  have hplain : 37 ∉ httpHost (parts.proxied port).authority := by
    rw [hhost]
    exact not_mem_toAsciiLowercase rfl rfl hpercent
  rw [proxyRequestUrl_url _ hsuffix, hguard, hread, proxied_idem]
  simp [hplain]

/-! ### The crate -/

open Transport (AuthorityScan httpAccepts)

theorem step_open {before scan : AuthorityScan} (h : before.step 91 = some scan) :
    before.startBracket = false ∧ scan.startBracket = true ∧ scan.endBracket = before.endBracket := by
  unfold AuthorityScan.step at h
  grind

theorem step_keeps {before scan : AuthorityScan} {b : UInt8} (h : before.step b = some scan) (hne : b ≠ 93) :
    scan.endBracket = before.endBracket ∧ (before.startBracket = true → scan.startBracket = true) := by
  obtain ⟨colons, startBracket, endBracket, percent, lastAt⟩ := before
  unfold AuthorityScan.step at h
  simp only [hne, if_false] at h
  grind

theorem step_close {before scan : AuthorityScan} {b : UInt8} (h : before.step b = some scan)
    (hinv : before.endBracket = true → before.startBracket = true) : scan.endBracket = true → scan.startBracket = true := by
  by_cases hclose : b = 93
  · subst hclose
    unfold AuthorityScan.step at h
    grind
  · obtain ⟨hend, hstart⟩ := step_keeps h hclose
    rw [hend]
    exact fun hbefore => hstart (hinv hbefore)

theorem run_close {authority : Bytes} {scan : AuthorityScan} (h : AuthorityScan.run authority = some scan) :
    scan.endBracket = true → scan.startBracket = true := by
  induction authority using List.reverseRecOn generalizing scan with
  | nil =>
      obtain rfl := Option.some.inj h
      exact fun hend => hend
  | append_singleton authority b ih =>
      obtain ⟨before, hbefore, hone⟩ := AuthorityScan.run_snoc h
      exact step_close hone (ih hbefore)

theorem run_open {back : Bytes} {before scan : AuthorityScan} (h : back.foldlM AuthorityScan.step before = some scan)
    (hplain : 93 ∉ back) (hopen : before.startBracket = true ∧ before.endBracket = false) :
    scan.startBracket = true ∧ scan.endBracket = false := by
  induction back generalizing before with
  | nil =>
      obtain rfl := Option.some.inj h
      exact hopen
  | cons b back ih =>
      rw [List.mem_cons, not_or] at hplain
      rw [List.foldlM_cons] at h
      obtain ⟨next, hnext, hrest⟩ := Option.bind_eq_some_iff.mp h
      obtain ⟨hend, hstart⟩ := step_keeps hnext (Ne.symm hplain.1)
      exact ih hrest hplain.2 ⟨hstart hopen.1, hend.trans hopen.2⟩

theorem httpAccepts_brackets {authority : Bytes} (h : httpAccepts authority = true)
    (hopen : (afterUserinfo authority).head? = some 91) : 93 ∈ afterUserinfo authority := by
  by_contra hplain
  obtain ⟨scan, hrun, hcomplete⟩ := Transport.httpAccepts_scan h
  obtain ⟨front, hfront⟩ : afterUserinfo authority <:+ authority := List.rtakeWhile_suffix _ _
  cases hback : afterUserinfo authority with
  | nil =>
      rw [hback] at hopen
      cases hopen
  | cons b back =>
      rw [hback, List.head?_cons, Option.some.injEq] at hopen
      subst hopen
      rw [hback, List.mem_cons, not_or] at hplain
      rw [← hfront, hback, AuthorityScan.run, List.foldlM_append] at hrun
      obtain ⟨before, hbefore, hrun⟩ := Option.bind_eq_some_iff.mp hrun
      rw [List.foldlM_cons] at hrun
      obtain ⟨next, hnext, hrun⟩ := Option.bind_eq_some_iff.mp hrun
      obtain ⟨hclosed, hstart, hend⟩ := step_open hnext
      have hnone : before.endBracket = false := by
        refine eq_false_of_ne_true fun htrue => ?_
        rw [run_close hbefore htrue] at hclosed
        cases hclosed
      obtain ⟨hstart, hend⟩ := run_open hrun hplain.2 ⟨hstart, hend.trans hnone⟩
      simp [AuthorityScan.complete, hstart, hend] at hcomplete

theorem exists_optional (b : UInt8) (value : Bytes) :
    ∃ before after, b ∉ before ∧ value = before ++ Option.elim after [] (b :: ·) := by
  by_cases hmem : b ∈ value
  · obtain ⟨before, after, hvalue, hplain⟩ := List.eq_append_cons_of_mem hmem
    exact ⟨before, some after, hplain, hvalue⟩
  · exact ⟨value, none, hmem, (List.append_nil _).symm⟩

theorem exists_parts {scheme rest : Bytes} (hscheme : ∀ b ∈ scheme, b ≠ 58 ∧ isDelimiter b = false) :
    ∃ parts : UrlParts, parts.url = scheme ++ text "://" ++ rest ∧ parts.authority = Url.rawAuthority rest := by
  obtain ⟨beforeFragment, fragment, hfragment, htail⟩ := exists_optional 35 (rest.dropWhile (!isDelimiter ·))
  obtain ⟨path, query, hpath, hbefore⟩ := exists_optional 63 beforeFragment
  have hrest : Url.rawAuthority rest ++ rest.dropWhile (!isDelimiter ·) = rest := List.takeWhile_append_dropWhile
  rw [hbefore, List.mem_append, not_or] at hfragment
  have hhead : path = [] ∨ path.head? = some 47 := by
    cases path with
    | nil => exact .inl rfl
    | cons b path =>
        have hdelimiter := List.head?_dropWhile_not (!isDelimiter ·) rest
        rw [htail, hbefore] at hdelimiter
        simp only [List.cons_append, List.head?_cons, Bool.not_eq_false'] at hdelimiter
        simp only [isDelimiter, Bool.or_eq_true, beq_iff_eq] at hdelimiter
        simp only [List.mem_cons, not_or] at hpath hfragment
        obtain (rfl | rfl) | rfl := hdelimiter
        · exact .inr rfl
        · exact absurd rfl hpath.1
        · exact absurd rfl hfragment.1.1
  refine ⟨⟨scheme, Url.rawAuthority rest, path, query, fragment, hscheme, Url.rawAuthority_plain rest, ⟨hpath, hfragment.1⟩,
    hhead, ?_⟩, ?_, rfl⟩
  · rintro value rfl
    exact fun hmem => hfragment.2 (List.mem_cons_of_mem _ hmem)
  · simp only [UrlParts.url, UrlParts.withoutFragment, UrlParts.target, ← hbefore, List.append_assoc, ← htail, hrest]

def isUriSchemeByte (b : UInt8) : Bool := Url.isAsciiAlphanumeric b || b == 43 || b == 45 || b == 46

theorem isUriSchemeByte_plain {b : UInt8} : isUriSchemeByte b = true → b ≠ 58 ∧ isDelimiter b = false := by
  grind [isUriSchemeByte, Url.isAsciiAlphanumeric, isAsciiDigit, isDelimiter]

/-- The authority `Uri::from_str` finds; what the path and the query are made of is not looked at. -/
def uriAuthority (url : Bytes) : Option Bytes :=
  (splitOnce (text "://") url).bind fun parts =>
    if parts.1.all isUriSchemeByte && httpAccepts (Url.rawAuthority parts.2) then some (Url.rawAuthority parts.2) else none

theorem uriAuthority_eq_some {url found : Bytes} (h : uriAuthority url = some found) : ∃ scheme rest,
    url = scheme ++ text "://" ++ rest ∧ scheme.all isUriSchemeByte = true ∧ httpAccepts found = true ∧
      Url.rawAuthority rest = found := by
  obtain ⟨⟨scheme, rest⟩, hsplit, h⟩ := Option.bind_eq_some_iff.mp h
  split at h
  · rename_i haccepted
    obtain rfl := Option.some.inj h
    rw [Bool.and_eq_true] at haccepted
    exact ⟨scheme, rest, Url.splitOnce_eq hsplit, haccepted.1, haccepted.2, rfl⟩
  · cases h

def httpUri : UriReader where
  authority := uriAuthority
  parts := by
    intro url found h
    obtain ⟨scheme, rest, rfl, hscheme, -, rfl⟩ := uriAuthority_eq_some h
    exact exists_parts fun b hb => isUriSchemeByte_plain (List.all_eq_true.mp hscheme b hb)
  brackets := by
    intro url found h hopen
    obtain ⟨_, _, _, _, haccepted, _⟩ := uriAuthority_eq_some h
    exact httpAccepts_brackets haccepted hopen

/-! ### What a proxy is asked for -/

/-- A URL with the parts is sent as one with the others. -/
structure SentAs (parts : UrlParts) (port : Option Nat) (sent : UrlParts) : Prop where
  scheme : sent.scheme = toAsciiLowercase parts.scheme
  authority : sent.authority = toAsciiLowercase (httpHost parts.authority) ++ portText port
  noUserinfo : 64 ∉ sent.authority
  path : EndsInSemicolon parts.path sent.path ∨ (∀ kept, ¬EndsInSemicolon parts.path kept) ∧ sent.path = parts.path
  query : sent.query = parts.query.filter (· ≠ [])
  noFragment : sent.fragment = none

theorem sentAs_proxied (parts : UrlParts) (port : Option Nat) : SentAs parts port (parts.proxied port) where
  scheme := rfl
  authority := rfl
  noUserinfo := sent_plain parts.authority port
  path := by
    change EndsInSemicolon parts.path (proxyPath parts.path) ∨ _ ∧ proxyPath parts.path = parts.path
    obtain ⟨kept, hends, heq⟩ | ⟨hnone, heq⟩ := proxyPath_cases parts.path
    · exact .inl (heq ▸ hends)
    · exact .inr ⟨hnone, heq⟩
  query := rfl
  noFragment := rfl

/-- A URL is refused for its host or for what stands behind the host, and is otherwise sent without its credentials and with the
same meaning. -/
theorem proxyRequestUrl_spec (reader : UriReader) {url authority : Bytes} (h : reader.authority url = some authority) :
    ∃ (parts : UrlParts) (suffix : Bytes), parts.url = url ∧ parts.authority = authority ∧
      afterUserinfo authority = httpHost authority ++ suffix ∧
      (proxyRequestUrl url (reader.authority url) = none ↔ 37 ∈ httpHost authority ∨ ∀ port, ¬PortSuffix suffix port) ∧
      ∀ target, proxyRequestUrl url (reader.authority url) = some target →
        (∃ port sent, PortSuffix suffix port ∧ SentAs parts port sent ∧ sent.url = target) ∧
        ∀ again, reader.authority target = some again → proxyRequestUrl target (reader.authority target) = some target := by
  obtain ⟨parts, rfl, rfl⟩ := reader.parts h
  obtain ⟨suffix, hsuffix⟩ := httpHost_isPrefix (reader.brackets h)
  have hurl := proxyRequestUrl_url parts hsuffix.symm
  refine ⟨parts, suffix, rfl, rfl, hsuffix.symm, ?_⟩
  rw [h, hurl]
  by_cases hpercent : 37 ∈ httpHost parts.authority
  · rw [if_pos (by simp [hpercent])]
    exact ⟨iff_of_true rfl (.inl hpercent), nofun⟩
  cases hguard : portRefused (httpAuthority.portU16 parts.authority) suffix with
  | true =>
      rw [if_pos (by simp)]
      refine ⟨iff_of_true rfl (.inr fun port hport => ?_), nofun⟩
      have hpassed := ((portSuffix_iff hsuffix.symm).mp hport).1
      rw [hguard] at hpassed
      cases hpassed
  | false =>
      have hport := (portSuffix_iff hsuffix.symm).mpr ⟨hguard, rfl⟩
      rw [if_neg (by simp [hpercent])]
      refine ⟨iff_of_false (Option.some_ne_none _) fun hrefused => hrefused.elim hpercent fun hnone => hnone _ hport, ?_⟩
      rintro target htarget
      obtain rfl := Option.some.inj htarget
      refine ⟨⟨_, _, hport, sentAs_proxied parts _, rfl⟩, fun again hagain => ?_⟩
      -- The parts of the text that is sent are those it was made of.
      obtain ⟨found, hfound, rfl⟩ := reader.parts hagain
      rw [hagain, UrlParts.url_injective hfound]
      exact proxyRequestUrl_sent parts hport hpercent

/-- A URL with all its parts. -/
theorem proxyRequestUrl_spec_full :
    proxyRequestUrl (text "HTTP://user:pw@MiXeD.Example:0080/a;b/c;?q=1#top")
      (httpUri.authority (text "HTTP://user:pw@MiXeD.Example:0080/a;b/c;?q=1#top")) =
      some (text "http://mixed.example:80/a;b/c?q=1") ∧
    proxyRequestUrl (text "http://mixed.example:80/a;b/c?q=1") (httpUri.authority (text "http://mixed.example:80/a;b/c?q=1")) =
      some (text "http://mixed.example:80/a;b/c?q=1") := by
  have haccepted : httpUri.authority (text "HTTP://user:pw@MiXeD.Example:0080/a;b/c;?q=1#top") =
      some (text "user:pw@MiXeD.Example:0080") := by decide
  have hsent : proxyRequestUrl (text "HTTP://user:pw@MiXeD.Example:0080/a;b/c;?q=1#top")
      (httpUri.authority (text "HTTP://user:pw@MiXeD.Example:0080/a;b/c;?q=1#top")) =
      some (text "http://mixed.example:80/a;b/c?q=1") := by decide
  obtain ⟨_, _, -, -, -, -, hspec⟩ := proxyRequestUrl_spec httpUri haccepted
  exact ⟨hsent, (hspec _ hsent).2 (text "mixed.example:80") (by decide)⟩

/-- What stands behind brackets is no port, and a URL whose userinfo opens a bracket is sent as a text that is no URL. -/
theorem proxyRequestUrl_brackets :
    httpUri.authority (text "http://[::1]x:80/") = some (text "[::1]x:80") ∧ 37 ∉ httpHost (text "[::1]x:80") ∧
    httpAuthority.portU16 (text "[::1]x:80") = some 80 ∧
    proxyRequestUrl (text "http://[::1]x:80/") (httpUri.authority (text "http://[::1]x:80/")) = none ∧
    proxyRequestUrl (text "http://[x@y]/") (httpUri.authority (text "http://[x@y]/")) = some (text "http://y]/") ∧
    httpUri.authority (text "http://y]/") = none := by
  decide

end RequestsNative.Python
