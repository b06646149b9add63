import RequestsNative.Url.PrepareTwice

/-!
# Where a prepared URL leads

`prepare_url` puts a URL together from the scheme and the host that `url::Url` reads. The userinfo and the port stand in
neither of them, so a URL that has one is prepared without it. `Destination` is what a text says about where it leads, by
the grammar of RFC 3986 alone.
-/

namespace RequestsNative.Url

open Transport (afterUserinfo)

/-! ### The destination of a text -/

structure Destination where
  scheme : Bytes
  userinfo : Option Bytes
  host : Bytes
  port : Option Bytes
  deriving DecidableEq, Repr

/-- A host in brackets ends with the bracket, any other before the first colon. -/
def hostLength (hostPort : Bytes) : Nat :=
  if hostPort.head? = some 91 then (hostPort.takeWhile (· != 93)).length + 1
  else (hostPort.takeWhile (· != 58)).length

def destination (value : Bytes) : Option Destination :=
  (splitOnce (text "://") value).map fun (scheme, remainder) =>
    let authority := rawAuthority remainder
    let hostPort := afterUserinfo authority
    { scheme
      userinfo := if authority.contains 64 then some (authority.take (authority.length - hostPort.length - 1)) else none
      host := hostPort.take (hostLength hostPort)
      port := if hostPort.length ≤ hostLength hostPort then none else some (hostPort.drop (hostLength hostPort + 1)) }

example : destination (text "http://user:pw@[::1]:8080/a") =
    some ⟨text "http", some (text "user:pw"), text "[::1]", some (text "8080")⟩ := by decide

/-- The same destination; schemes and hosts are compared without case. -/
def Destination.same (d d' : Destination) : Bool :=
  eqIgnoreAsciiCase d.scheme d'.scheme && d.userinfo == d'.userinfo && eqIgnoreAsciiCase d.host d'.host && d.port == d'.port

/-- A text and its prepared form lead to the same place. -/
def keepsDestination (value prepared : Bytes) : Bool :=
  match destination value, destination prepared with
  | some d, some d' => d.same d'
  | _, _ => false

/-- `url::Url::parse` reports the scheme and the host of the text. -/
structure UrlParser.Reports (url : UrlParser) (value : Bytes) : Prop where
  scheme : ∀ {parsed d}, url.parse value = .ok parsed → destination value = some d →
    eqIgnoreAsciiCase d.scheme parsed.scheme = true
  host : ∀ {parsed d host}, url.parse value = .ok parsed → destination value = some d → parsed.hostStr = some host →
    eqIgnoreAsciiCase d.host host = true ∧ 37 ∉ host

/-! ### Hosts without their case -/

theorem isKept_asciiLower (b : UInt8) : isKept (asciiLower b) = isKept b := by
  obtain hsame | ⟨hupper, hlower⟩ := asciiLower_cases b
  · rw [hsame]
  · have hkept : isKept b = true := (isKept_iff b).mpr (by grind)
    have hkept' : isKept (asciiLower b) = true := (isKept_iff (asciiLower b)).mpr (by grind)
    rw [hkept, hkept']

theorem hostLength_lower (value : Bytes) : hostLength (toAsciiLowercase value) = hostLength value := by
  have hhead : (value.map asciiLower).head? = some 91 ↔ value.head? = some 91 := by
    rw [List.head?_map, Option.map_eq_some_iff]
    constructor
    · rintro ⟨b, hb, hlower⟩
      rw [hb, (asciiLower_eq_iff rfl rfl).mp hlower]
    · intro h
      exact ⟨91, h, rfl⟩
  have hends (c : UInt8) (hlower : asciiLower c = c) (hupper : asciiUpper c = c) :
      ((· != c) ∘ asciiLower : UInt8 → Bool) = (· != c) := by
    funext b
    rw [Function.comp_apply, Bool.eq_iff_iff, bne_iff_ne, bne_iff_ne, ne_eq, asciiLower_eq_iff hlower hupper]
  simp only [hostLength, hhead, toAsciiLowercase, List.takeWhile_map, List.length_map, hends 93 rfl rfl, hends 58 rfl rfl]

theorem hostLength_congr {a b : Bytes} (h : eqIgnoreAsciiCase a b = true) : a.length = b.length ∧ hostLength a = hostLength b := by
  have hlower : toAsciiLowercase a = toAsciiLowercase b := beq_iff_eq.mp h
  constructor
  · have hlength := congrArg List.length hlower
    rwa [toAsciiLowercase, toAsciiLowercase, List.length_map, List.length_map] at hlength
  · rw [← hostLength_lower a, hlower, hostLength_lower]

theorem at_congr {a b : Bytes} (h : eqIgnoreAsciiCase a b = true) (hmem : 64 ∉ a) : 64 ∉ b := by
  have hlower : toAsciiLowercase a = toAsciiLowercase b := beq_iff_eq.mp h
  intro hb
  have hmem' : asciiLower 64 ∈ toAsciiLowercase a := hlower ▸ List.mem_map_of_mem hb
  exact not_mem_toAsciiLowercase rfl rfl hmem hmem'

theorem kept_congr {a b : Bytes} (h : eqIgnoreAsciiCase a b = true) : a.all isKept = b.all isKept := by
  have hlower : toAsciiLowercase a = toAsciiLowercase b := beq_iff_eq.mp h
  have hall (value : Bytes) : (toAsciiLowercase value).all isKept = value.all isKept := by
    rw [toAsciiLowercase, List.all_map]
    congr 1
    funext b
    exact isKept_asciiLower b
  rw [← hall a, hlower, hall]

/-! ### Hosts that were quoted -/

theorem length_quoteByte (b : UInt8) : (isKept b = true ∧ quoteByte safeWithPercent false b = [b]) ∨
    (isKept b = false ∧ ∃ high low, quoteByte safeWithPercent false b = [37, high, low] ∧
      isAsciiAlphanumeric high = true) := by
  cases hkept : isKept b with
  | true => exact .inl ⟨rfl, quoteByte_kept hkept⟩
  | false =>
      obtain ⟨hquoted, hopens, -⟩ := quoteByte_escape true hkept
      exact .inr ⟨rfl, _, _, hquoted, hopens.1⟩

theorem length_quoted (value : Bytes) :
    value.length ≤ (quoted value).length ∧ ((quoted value).length = value.length → value.all isKept = true) := by
  induction value with
  | nil => exact ⟨Nat.le_refl 0, fun _ => rfl⟩
  | cons b rest ih =>
      rw [quoted_cons, List.length_append, List.length_cons, List.all_cons]
      obtain ⟨hkept, hquoted⟩ | ⟨-, high, low, hquoted, -⟩ := length_quoteByte b
      · rw [hquoted, hkept, Bool.true_and, List.length_singleton]
        exact ⟨by omega, fun h => ih.2 (by omega)⟩
      · rw [hquoted, List.length_cons, List.length_cons, List.length_singleton]
        exact ⟨by omega, fun h => by omega⟩

theorem whole_iff (value : Bytes) : value.length ≤ hostLength value ↔
    if value.head? = some 91 then 93 ∉ value.dropLast else 58 ∉ value := by
  have hall (c : UInt8) (bytes : Bytes) : c ∉ bytes ↔ bytes.takeWhile (· != c) = bytes := by
    rw [List.takeWhile_eq_self_iff]
    constructor
    · intro hc b hb
      exact bne_iff_ne.mpr fun heq => hc (heq ▸ hb)
    · intro h hc
      exact absurd rfl (bne_iff_ne.mp (h c hc))
  have hshort (p : UInt8 → Bool) (bytes : Bytes) : bytes.length ≤ (bytes.takeWhile p).length ↔ bytes.takeWhile p = bytes :=
    ⟨fun h => (List.takeWhile_prefix p).eq_of_length_le h, fun h => by rw [h]⟩
  unfold hostLength
  split
  · rw [hall, ← hshort, List.length_dropLast, List.dropLast_eq_take, ← List.take_takeWhile, List.length_take]
    omega
  · rw [hshort, ← hall]

/-- Quoting keeps the brackets and the colons of a host, and makes no others. -/
theorem whole_quoted {host : Bytes} (h : host.length ≤ hostLength host) :
    (quoted host).length ≤ hostLength (quoted host) := by
  rw [whole_iff] at h ⊢
  cases host with
  | nil => exact h
  | cons first rest =>
      have hhead : (quoted (first :: rest)).head? = some 91 ↔ (first :: rest).head? = some 91 := by
        rw [quoted_cons]
        obtain ⟨-, hquoted⟩ | ⟨hkept, high, low, hquoted, -⟩ := length_quoteByte first
        · rw [hquoted]
          rfl
        · rw [hquoted, List.cons_append, List.head?_cons, List.head?_cons]
          refine iff_of_false (by simp) fun heq => ?_
          obtain rfl := Option.some.inj heq
          cases hkept
      simp only [hhead]
      split
      · next hbracket =>
          rw [if_pos hbracket] at h
          obtain ⟨init, last, hsplit⟩ : ∃ init last, first :: rest = init ++ [last] :=
            ⟨_, _, (List.dropLast_append_getLast (List.cons_ne_nil first rest)).symm⟩
          rw [hsplit, List.dropLast_concat] at h
          rw [hsplit, quoted_append, quoted_cons, show quoted [] = [] from rfl, List.append_nil]
          obtain ⟨-, hquoted⟩ | ⟨-, high, low, hquoted, hhigh⟩ := length_quoteByte last
          · rw [hquoted, List.dropLast_concat]
            exact fun hmem => h (mem_quoteBytes (by decide) hmem)
          · rw [hquoted, List.dropLast_append_of_ne_nil (List.cons_ne_nil _ _), List.mem_append]
            rintro (hmem | hmem)
            · exact h (mem_quoteBytes (by decide) hmem)
            · have hne : high ≠ 93 := by
                rintro rfl
                cases hhigh
              simp [Ne.symm hne] at hmem
      · next hbracket =>
          rw [if_neg hbracket] at h
          exact fun hmem => h (mem_quoteBytes (by decide) hmem)

theorem whole_take (hostPort : Bytes) :
    (hostPort.take (hostLength hostPort)).length ≤ hostLength (hostPort.take (hostLength hostPort)) := by
  rw [List.length_take]
  unfold hostLength
  split
  · next hbracket =>
      have hhead : (hostPort.take ((hostPort.takeWhile (· != 93)).length + 1)).head? = some 91 := by
        rw [List.head?_take, if_neg (Nat.succ_ne_zero _), hbracket]
      rw [if_pos hhead, ← List.take_takeWhile, List.length_take]
      omega
  · next hcolon =>
      rw [← List.take_takeWhile, ← List.take_takeWhile, List.take_length]
      split
      · next hhead =>
          rw [List.head?_take] at hhead
          split at hhead
          · cases hhead
          · exact absurd hhead hcolon
      · omega

/-! ### Prepared URLs -/

def Destination.isHttp (d : Destination) : Bool :=
  eqIgnoreAsciiCase d.scheme (text "http") || eqIgnoreAsciiCase d.scheme (text "https")

/-- The parameters are put behind the query, before the fragment. -/
def insertParams (value params : Bytes) : Bytes :=
  if params = [] then value
  else
    let front := value.takeWhile (· != 35)
    front ++ (if front.contains 63 then 38 else 63) :: params ++ value.drop front.length

theorem appendUrlParams_eq (value params : Bytes) : appendUrlParams value params = requoteUri (insertParams value params) := by
  unfold appendUrlParams insertParams
  split <;> rfl

/-- What stands before the path has neither a query nor a fragment. -/
theorem insertParams_append {front rest : Bytes} (hfront : 35 ∉ front ∧ 63 ∉ front) (params : Bytes) :
    insertParams (front ++ rest) params = front ++ insertParams rest params := by
  unfold insertParams
  split
  · rfl
  · have hall : ∀ b ∈ front, (b != 35) = true := fun b hb => bne_iff_ne.mpr fun heq => hfront.1 (heq ▸ hb)
    have hquery : (front ++ rest.takeWhile (· != 35)).contains 63 = (rest.takeWhile (· != 35)).contains 63 := by
      rw [Bool.eq_iff_iff, List.contains_iff_mem, List.contains_iff_mem, List.mem_append]
      exact ⟨fun h => h.resolve_left hfront.2, .inr⟩
    simp only [List.takeWhile_append_of_pos hall, hquery, List.append_assoc, List.length_append, List.drop_append]
    simp

theorem insertParams_slash {value : Bytes} (hslash : value.head? = some 47) (params : Bytes) :
    (insertParams value params).head? = some 47 := by
  cases value with
  | nil => cases hslash
  | cons b rest =>
      obtain rfl : b = 47 := by simpa using hslash
      unfold insertParams
      split
      · rfl
      · rfl

section Prepared

variable {url : UrlParser} {alphanumeric : Nat → Bool} {raw params prepared : Bytes} {d : Destination}

theorem requoteUri_host {scheme host rest : Bytes} (hscheme : ∀ b ∈ scheme, isSchemeByte b = true)
    (hhost : ∀ b ∈ host, b < 128) (hplain : 37 ∉ host) (hslash : rest.head? = some 47) :
    ∃ tail, tail.head? = some 47 ∧
      requoteUri (scheme ++ text "://" ++ (host ++ rest)) = scheme ++ text "://" ++ (quoted host ++ tail) := by
  cases hrest : unquoteUnreserved rest with
  | none =>
      refine ⟨percentQuoted rest, percentQuoted_slash hslash, ?_⟩
      rw [requoteUri_broken hscheme (.inr hslash) (.inr hrest), quoted_eq_percentQuoted hplain]
  | some second =>
      refine ⟨quoted second, unquoted_slash hrest hslash, ?_⟩
      exact requoteUri_ok hscheme (.inr hslash) (unquoteUnreserved_plain hhost hplain) hrest

theorem destination_host {scheme host tail : Bytes} (hscheme : ∀ b ∈ scheme, isSchemeByte b = true)
    (hhost : ∀ b ∈ host, isDelimiter b = false) (hslash : tail.head? = some 47) (hat : 64 ∉ host)
    (hwhole : host.length ≤ hostLength host) :
    destination (scheme ++ text "://" ++ (host ++ tail)) = some ⟨scheme, none, host, none⟩ := by
  have hafter : afterUserinfo host = host := by
    rw [afterUserinfo, List.rtakeWhile_eq_self_iff]
    exact fun b hb => bne_iff_ne.mpr fun heq => hat (heq ▸ hb)
  have hnone : host.contains 64 = false := by
    rw [← Bool.not_eq_true, List.contains_iff_mem]
    exact hat
  rw [destination, splitOnce_scheme hscheme]
  simp only [Option.map_some, rawAuthority_append hhost hslash, hafter, hnone, Bool.false_eq_true, if_false, if_pos hwhole,
    List.take_of_length_le hwhole]

theorem isHttp_normalizes {scheme : Bytes} (hhttp : d.isHttp = true) (hsame : eqIgnoreAsciiCase d.scheme scheme = true) :
    startsWithHttp d.scheme = true ∧ normalizes scheme = true := by
  have hlower : toAsciiLowercase d.scheme = toAsciiLowercase scheme := beq_iff_eq.mp hsame
  have htake : toAsciiLowercase (d.scheme.take 4) = (toAsciiLowercase d.scheme).take 4 := List.map_take
  rw [Destination.isHttp, Bool.or_eq_true] at hhttp
  constructor
  · rw [startsWithHttp, eqIgnoreAsciiCase, htake]
    obtain h | h := hhttp <;> (rw [beq_iff_eq.mp h]; decide)
  · rw [normalizes, bne_iff_ne]
    rintro rfl
    obtain h | h := hhttp <;> exact absurd ((beq_iff_eq.mp h).symm.trans hlower) (by decide)

/-- How `prepare_url` puts an HTTP URL together, with any parameters. -/
theorem prepareUrl_text (hok : prepareUrl url alphanumeric raw params = .ok prepared)
    (hd : destination (trimPythonWhitespaceStart raw) = some d) (hhttp : d.isHttp = true)
    (hreports : url.Reports (trimPythonWhitespaceStart raw)) :
    isNonHttpUrl (trimPythonWhitespaceStart raw) = false ∧ ∃ scheme host remainder,
      splitOnce (text "://") (trimPythonWhitespaceStart raw) = some (d.scheme, remainder) ∧
      eqIgnoreAsciiCase d.scheme scheme = true ∧ eqIgnoreAsciiCase d.host host = true ∧
      (∀ b ∈ scheme, isSchemeByte b = true) ∧ (∀ b ∈ host, b < 128 ∧ isDelimiter b = false) ∧ 37 ∉ host ∧
      (35 ∉ scheme ++ text "://" ++ host ∧ 63 ∉ scheme ++ text "://" ++ host) ∧
      ∀ params, prepareUrl url alphanumeric raw params =
        .ok (requoteUri (scheme ++ text "://" ++ host ++ insertParams (normalized true (rawSuffix remainder)) params)) := by
  obtain ⟨⟨before, remainder⟩, hsplit, hdest⟩ := Option.map_eq_some_iff.mp hd
  have hbefore : d.scheme = before := by rw [← hdest]
  have hstarts : startsWithHttp (trimPythonWhitespaceStart raw) = true := by
    rw [splitOnce_eq hsplit, ← hbefore, List.append_assoc]
    exact startsWithHttp_append (isHttp_normalizes hhttp (beq_self_eq_true _)).1 _
  obtain ⟨hnon, -⟩ | ⟨hnon, parsed, host, -, -, hparse, hhost, hlabel, hunicode, -, -⟩ := prepareUrl_cases hok
  · rw [isNonHttpUrl, trimPythonWhitespaceStart_trim, hstarts] at hnon
    simp at hnon
  · have hscheme := hreports.scheme hparse hd
    obtain ⟨hsame, hpercent⟩ := hreports.host hparse hd hhost
    have hplain := url.scheme_plain hparse
    have hbytes := url.host_plain hparse hhost
    have hnormalizes := (isHttp_normalizes hhttp hscheme).2
    have hfront : 35 ∉ parsed.scheme ++ text "://" ++ host ∧ 63 ∉ parsed.scheme ++ text "://" ++ host := by
      have hnot {c : UInt8} (hdelimiter : isDelimiter c = true) (hother : isSchemeByte c = false)
          (htext : c ∉ text "://") : c ∉ parsed.scheme ++ text "://" ++ host := by
        intro hmem
        obtain hmem | hmem := List.mem_append.mp hmem
        · obtain hmem | hmem := List.mem_append.mp hmem
          · exact absurd ((hplain c hmem).symm.trans hother) (by decide)
          · exact htext hmem
        · exact absurd (hdelimiter.symm.trans (hbytes c hmem).2) (by decide)
      exact ⟨hnot rfl rfl (by decide), hnot rfl rfl (by decide)⟩
    have htext : preparedText parsed.scheme host remainder =
        parsed.scheme ++ text "://" ++ host ++ normalized true (rawSuffix remainder) := by
      rw [preparedText, hostPart, if_pos hnormalizes, escapedPart, if_pos hnormalizes, hnormalizes,
        List.append_assoc (parsed.scheme ++ text "://")]
    refine ⟨hnon, parsed.scheme, host, remainder, hbefore ▸ hsplit, hscheme, hsame, hplain, hbytes, hpercent, hfront,
      fun params => ?_⟩
    rw [prepareUrl_ok params hnon hparse hhost hlabel hunicode hsplit, htext, appendUrlParams_eq, insertParams_append hfront]

theorem prepareUrl_http (hok : prepareUrl url alphanumeric raw params = .ok prepared)
    (hd : destination (trimPythonWhitespaceStart raw) = some d) (hhttp : d.isHttp = true)
    (hreports : url.Reports (trimPythonWhitespaceStart raw)) :
    ∃ scheme host tail, eqIgnoreAsciiCase d.scheme scheme = true ∧ eqIgnoreAsciiCase d.host host = true ∧
      (∀ b ∈ scheme, isSchemeByte b = true) ∧ (∀ b ∈ host, isDelimiter b = false) ∧ tail.head? = some 47 ∧
      prepared = scheme ++ text "://" ++ (quoted host ++ tail) := by
  obtain ⟨-, scheme, host, remainder, -, hscheme, hsame, hplain, hbytes, hpercent, -, htext⟩ :=
    prepareUrl_text hok hd hhttp hreports
  have hslash : (normalized true (rawSuffix remainder)).head? = some 47 := normalized_slash true (rawSuffix_head remainder)
  obtain ⟨tail, htail, heq⟩ := requoteUri_host hplain (fun b hb => (hbytes b hb).1) hpercent (insertParams_slash hslash params)
  have hprepared := Except.ok.inj (hok.symm.trans (htext params))
  rw [List.append_assoc (scheme ++ text "://"), heq] at hprepared
  exact ⟨scheme, host, tail, hscheme, hsame, hplain, fun b hb => (hbytes b hb).2, htail, hprepared⟩

/-- The destination of an HTTP URL is kept exactly if it has neither userinfo nor port and nothing in its host is
quoted. -/
theorem prepareUrl_keepsDestination_iff (hok : prepareUrl url alphanumeric raw params = .ok prepared)
    (hd : destination (trimPythonWhitespaceStart raw) = some d) (hhttp : d.isHttp = true)
    (hreports : url.Reports (trimPythonWhitespaceStart raw)) :
    keepsDestination (trimPythonWhitespaceStart raw) prepared = true ↔
      d.userinfo = none ∧ d.port = none ∧ d.host.all isKept = true := by
  obtain ⟨scheme, host, tail, hscheme, hsame, hplain, hbytes, htail, rfl⟩ := prepareUrl_http hok hd hhttp hreports
  obtain ⟨hlength, hhostLength⟩ := hostLength_congr hsame
  obtain ⟨⟨before, remainder⟩, -, hdest⟩ := Option.map_eq_some_iff.mp hd
  have hhost : d.host = (afterUserinfo (rawAuthority remainder)).take (hostLength (afterUserinfo (rawAuthority remainder))) := by
    rw [← hdest]
  have hwhole : host.length ≤ hostLength host := by
    rw [← hlength, ← hhostLength, hhost]
    exact whole_take _
  have hat : 64 ∉ host := by
    refine at_congr hsame ?_
    rw [hhost]
    exact fun hmem => Transport.afterUserinfo_plain _ ((List.take_subset _ _) hmem)
  have hdestination : destination (scheme ++ text "://" ++ (quoted host ++ tail)) = some ⟨scheme, none, quoted host, none⟩ :=
    destination_host hplain (quoteBytes_delimiters hbytes) htail (fun hmem => hat (mem_quoteBytes (by decide) hmem))
      (whole_quoted hwhole)
  have hkept : eqIgnoreAsciiCase d.host (quoted host) = true ↔ d.host.all isKept = true := by
    rw [kept_congr hsame]
    constructor
    · intro hquoted
      exact (length_quoted host).2 ((hostLength_congr hquoted).1.symm.trans hlength)
    · intro hall
      rwa [quoted_eq_self (List.all_eq_true.mp hall)]
  rw [keepsDestination, hd, hdestination]
  simp only [Destination.same, hscheme, Bool.true_and, Bool.and_eq_true, beq_iff_eq, hkept]
  tauto

end Prepared

/-- A parser that reads URLs of scheme `http` with a plain host, whatever else stands in the authority. -/
def authorityHttp : UrlParser where
  parse value :=
    match splitOnce (text "://") value with
    | some (scheme, remainder) => parsePlainHttp (scheme ++ text "://" ++ Transport.httpHost (rawAuthority remainder))
    | none => .error .relativeUrlWithoutBase
  scheme_plain {value parsed} h := by
    split at h
    · exact (parsePlainHttp_scheme h).1
    · cases h
  scheme_http {value parsed} h _ := by
    split at h
    · exact (parsePlainHttp_scheme h).2
    · cases h
  host_plain {value parsed host} h hhost b hb := by
    split at h
    · exact (parsePlainHttp_host h hhost b hb).2
    · cases h
  host_opaque {value parsed host before remainder} h hhost hpercent := by
    split at h
    · exact absurd rfl (parsePlainHttp_host h hhost 37 hpercent).1
    · cases h

theorem authorityHttp_reports {value scheme host : Bytes} {d : Destination}
    (hparse : authorityHttp.parse value = .ok ⟨scheme, some host⟩) (hd : destination value = some d)
    (hsame : eqIgnoreAsciiCase d.scheme scheme = true ∧ eqIgnoreAsciiCase d.host host = true ∧ 37 ∉ host) :
    authorityHttp.Reports value where
  scheme {parsed d'} hparse' hd' := by
    obtain rfl := Option.some.inj (hd.symm.trans hd')
    obtain rfl := Except.ok.inj (hparse.symm.trans hparse')
    exact hsame.1
  host {parsed d' host'} hparse' hd' hhost := by
    obtain rfl := Option.some.inj (hd.symm.trans hd')
    obtain rfl := Except.ok.inj (hparse.symm.trans hparse')
    obtain rfl := Option.some.inj hhost
    exact hsame.2

theorem prepareUrl_keepsDestination_plain :
    keepsDestination (trimPythonWhitespaceStart (text " http://example.com/a%7e")) (text "http://example.com/a~?b=1") = true := by
  have hok : prepareUrl authorityHttp (fun _ => false) (text " http://example.com/a%7e") (text "b=1") =
      .ok (text "http://example.com/a~?b=1") := by decide
  have hd : destination (trimPythonWhitespaceStart (text " http://example.com/a%7e")) =
      some ⟨text "http", none, text "example.com", none⟩ := by decide
  have hparse : authorityHttp.parse (trimPythonWhitespaceStart (text " http://example.com/a%7e")) =
      .ok ⟨text "http", some (text "example.com")⟩ := by decide
  have hreports := authorityHttp_reports hparse hd (by decide)
  exact (prepareUrl_keepsDestination_iff hok hd (by decide) hreports).mpr ⟨rfl, rfl, by decide⟩

/-- The userinfo and the port of a URL are lost. -/
theorem prepareUrl_drops_port :
    prepareUrl authorityHttp (fun _ => false) (text "http://user:pw@example.com:8080/x") [] =
      .ok (text "http://example.com/x") ∧
    destination (text "http://user:pw@example.com:8080/x") =
      some ⟨text "http", some (text "user:pw"), text "example.com", some (text "8080")⟩ ∧
    destination (text "http://example.com/x") = some ⟨text "http", none, text "example.com", none⟩ ∧
    keepsDestination (text "http://user:pw@example.com:8080/x") (text "http://example.com/x") = false := by
  decide

end RequestsNative.Url
