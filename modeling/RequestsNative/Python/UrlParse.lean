import RequestsNative.Request.Digest

/-!
# The target of a digest

`build_digest_header` of `auth.py` takes the target from `urlparse`. The trial takes it from the text, and only where
`url::Url` reads the same path and query in it: then `urlparse` gives the same target.
-/

namespace RequestsNative.Python

open RequestsNative.Request (digestRequestTarget stripPrefix withoutParams DigestEnv DigestUrl)
open RequestsNative.Url (isAsciiAlphanumeric isDelimiter rawAuthority splitOnce)

/-! ### `urllib.parse` -/

/-- The bytes that `urlsplit` removes wherever they stand. -/
def isUnsafeUrlByte (b : UInt8) : Bool := b == 9 || b == 13 || b == 10

/-- `scheme_chars`. -/
def isSchemeChar (b : UInt8) : Bool := isAsciiAlphanumeric b || b == 43 || b == 45 || b == 46

/-- What stands before the first of these bytes, and what stands behind it. -/
def cut (mark : UInt8) (value : Bytes) : Bytes × Bytes :=
  let before := value.takeWhile (· != mark)
  (before, value.drop (before.length + 1))

def splitScheme (url : Bytes) : Bytes × Bytes :=
  let (scheme, rest) := cut 58 url
  let leads := scheme.head?.any fun b => isAsciiAlphanumeric b && !isAsciiDigit b
  if 58 ∈ url ∧ leads = true ∧ scheme.all isSchemeChar = true then (toAsciiLowercase scheme, rest) else ([], url)

structure UrlParseResult where
  scheme : Bytes
  netloc : Bytes
  path : Bytes
  params : Bytes
  query : Bytes
  fragment : Bytes
  deriving DecidableEq, Repr

def usesParams : List Bytes :=
  [text "", text "ftp", text "hdl", text "prospero", text "http", text "https", text "shttp", text "rtsp", text "rtsps",
    text "rtspu", text "sip", text "sips", text "mms", text "sftp", text "tel"]

/-- `_splitparams`: at the first semicolon of the last segment. -/
def splitParams (url : Bytes) : Bytes × Bytes :=
  let finalSegment := url.rtakeWhile (· != 47)
  match finalSegment.findIdx? (· == 59) with
  | none => (url, [])
  | some params =>
      let index := url.length - finalSegment.length + params
      (url.take index, url.drop (index + 1))

/-- `urlparse`, without a result for a `ValueError`. Which netlocs are refused, for their brackets or for what they are
normalised to, is a parameter. -/
def urlparse (refusesNetloc : Bytes → Bool) (url : Bytes) : Option UrlParseResult :=
  let url := (url.dropWhile (· ≤ 32)).filter (!isUnsafeUrlByte ·)
  let (scheme, url) := splitScheme url
  let netloc := if (text "//").isPrefixOf url then rawAuthority (url.drop 2) else []
  let url := if (text "//").isPrefixOf url then (url.drop 2).drop netloc.length else url
  let (url, fragment) := cut 35 url
  let (url, query) := cut 63 url
  let (path, params) := if scheme ∈ usesParams ∧ 59 ∈ url then splitParams url else (url, [])
  if refusesNetloc netloc then none else some ⟨scheme, netloc, path, params, query, fragment⟩

/-- The path of `build_digest_header`, with the query. -/
def UrlParseResult.target (parsed : UrlParseResult) : Bytes :=
  let path := if parsed.path = [] then text "/" else parsed.path
  if parsed.query = [] then path else path ++ text "?" ++ parsed.query

/-! ### Cutting -/

theorem cut_of_notMem {mark : UInt8} {value : Bytes} (h : mark ∉ value) : cut mark value = (value, []) := by
  have hall : value.takeWhile (· != mark) = value := by
    rw [List.takeWhile_eq_self_iff]
    intro b hb
    exact bne_iff_ne.mpr fun heq => h (heq ▸ hb)
  rw [cut, hall, List.drop_eq_nil_of_le (Nat.le_succ _)]

theorem cut_append {mark : UInt8} {before : Bytes} (h : mark ∉ before) (rest : Bytes) :
    cut mark (before ++ mark :: rest) = (before, rest) := by
  have htake : (before ++ mark :: rest).takeWhile (· != mark) = before := by
    rw [List.takeWhile_append_of_pos, List.takeWhile_cons_of_neg, List.append_nil]
    · simp
    · exact fun b hb => bne_iff_ne.mpr fun heq => h (heq ▸ hb)
  rw [cut, htake, List.drop_append, List.drop_eq_nil_of_le (Nat.le_succ _), Nat.add_sub_cancel_left, List.nil_append,
    List.drop_one, List.tail_cons]

theorem cut_cases (mark : UInt8) (value : Bytes) :
    mark ∉ value ∨ ∃ before rest, value = before ++ mark :: rest ∧ mark ∉ before := by
  by_cases hmem : mark ∈ value
  · obtain ⟨before, rest, hvalue, hbefore⟩ := List.eq_append_cons_of_mem hmem
    exact .inr ⟨before, rest, hvalue, hbefore⟩
  · exact .inl hmem

theorem splitOnce_of_notMem {mark : UInt8} {value : Bytes} (h : mark ∉ value) : splitOnce [mark] value = none := by
  induction value with
  | nil => rfl
  | cons b value ih =>
      rw [List.mem_cons, not_or] at h
      rw [splitOnce, if_neg (by simpa [List.isPrefixOf] using h.1), ih h.2, Option.map_none]

theorem splitOnce_append {mark : UInt8} {before : Bytes} (h : mark ∉ before) (rest : Bytes) :
    splitOnce [mark] (before ++ mark :: rest) = some (before, rest) := by
  induction before with
  | nil =>
      rw [List.nil_append, splitOnce, if_pos (by simp [List.isPrefixOf])]
      rfl
  | cons b before ih =>
      rw [List.mem_cons, not_or] at h
      rw [List.cons_append, splitOnce, if_neg (by simpa [List.isPrefixOf] using h.1), ih h.2, Option.map_some]

/-! ### Paths -/

theorem splitParams_fst_of_notMem {url : Bytes} (h : 59 ∉ url) : (splitParams url).1 = url := by
  have hnone : (url.rtakeWhile (· != 47)).findIdx? (· == 59) = none := by
    rw [List.findIdx?_eq_none_iff]
    intro b hb
    exact beq_eq_false_iff_ne.mpr fun heq => h (heq ▸ (List.rtakeWhile_suffix _ _).subset hb)
  rw [splitParams, hnone]

theorem splitParams_fst_ne_nil {url : Bytes} (h : url.head? = some 47) : (splitParams url).1 ≠ [] := by
  have hne : url ≠ [] := by
    rintro rfl
    cases h
  have hshorter : (url.rtakeWhile (· != 47)).length < url.length := by
    refine lt_of_le_of_ne (List.rtakeWhile_suffix _ _).length_le fun hlength => ?_
    have hall := List.rtakeWhile_eq_self_iff.mp ((List.rtakeWhile_suffix _ _).eq_of_length hlength)
    exact absurd (hall 47 (List.mem_of_mem_head? h)) (by decide)
  cases hparams : (url.rtakeWhile (· != 47)).findIdx? (· == 59) with
  | none =>
      rw [splitParams, hparams]
      exact hne
  | some params =>
      rw [splitParams, hparams]
      refine fun hnil => (List.take_eq_nil_iff.mp hnil).elim (fun hzero => ?_) hne
      omega

theorem withoutParams_plain {path : Bytes} (hne : path ≠ []) (h : 63 ∉ path) :
    withoutParams path = (splitParams path).1 := by
  have hsplit : splitOnce (text "?") path = none := splitOnce_of_notMem h
  simp only [withoutParams, hsplit, if_neg hne, splitParams]
  cases (path.rtakeWhile (· != 47)).findIdx? (· == 59) <;> rfl

theorem withoutParams_query {path : Bytes} (hne : path ≠ []) (h : 63 ∉ path) (query : Bytes) :
    withoutParams (path ++ 63 :: query) =
      if query = [] then (splitParams path).1 else (splitParams path).1 ++ text "?" ++ query := by
  have hsplit : splitOnce (text "?") (path ++ 63 :: query) = some (path, query) := splitOnce_append h query
  cases hparams : (path.rtakeWhile (· != 47)).findIdx? (· == 59) with
  | none =>
      simp only [withoutParams, hsplit, if_neg hne, hparams, splitParams]
      cases query <;> rfl
  | some params =>
      simp only [withoutParams, hsplit, if_neg hne, hparams, splitParams]
      cases query <;> rfl

/-- What the trial compares with the path and the query of `url::Url`. -/
def lexicalTarget (lexicalSuffix : Bytes) : Bytes :=
  if lexicalSuffix = [] then text "/"
  else if lexicalSuffix.head? = some 63 then 47 :: lexicalSuffix else lexicalSuffix

theorem lexicalTarget_target {path : Bytes} (hpath : path = [] ∨ path.head? = some 47) (hmark : 63 ∉ path) (query : Bytes)
    (parsed : UrlParseResult) (hparsed : parsed.path = (splitParams path).1) :
    (parsed.query = [] → withoutParams (lexicalTarget path) = parsed.target) ∧
      (parsed.query = query → withoutParams (lexicalTarget (path ++ 63 :: query)) = parsed.target) := by
  obtain rfl | hslash := hpath
  · have hnil : parsed.path = [] := hparsed
    have hroot : withoutParams (text "/") = text "/" := by decide
    refine ⟨fun hquery => ?_, fun hquery => ?_⟩
    · rw [lexicalTarget, if_pos rfl, UrlParseResult.target, hnil, if_pos rfl, if_pos hquery, hroot]
    · have hlexical : lexicalTarget ([] ++ 63 :: query) = [47] ++ 63 :: query := rfl
      rw [hlexical, withoutParams_query (List.cons_ne_nil _ _) (by decide), UrlParseResult.target, hnil, if_pos rfl, hquery]
      rfl
  · have hne : path ≠ [] := by
      rintro rfl
      cases hslash
    have hkept : parsed.path ≠ [] := hparsed ▸ splitParams_fst_ne_nil hslash
    refine ⟨fun hquery => ?_, fun hquery => ?_⟩
    · rw [lexicalTarget, if_neg hne, if_neg (by rw [hslash]; decide), withoutParams_plain hne hmark, UrlParseResult.target,
        if_neg hkept, if_pos hquery, hparsed]
    · have hhead : (path ++ 63 :: query).head? = some 47 := by rw [List.head?_append_of_ne_nil _ hne, hslash]
      have hlonger : path ++ 63 :: query ≠ [] := by simp
      rw [lexicalTarget, if_neg hlonger, if_neg (by rw [hhead]; decide), withoutParams_query hne hmark,
        UrlParseResult.target, if_neg hkept, hquery, hparsed]

/-! ### The parts of a URL that the trial takes -/

/-- `url::Url::parse` leaves none of the bytes in a path or a query that `urlsplit` removes. -/
def ParsesPlainly (env : DigestEnv) : Prop :=
  ∀ url parsed, env.parse url = some parsed → ∀ b ∈ parsed.path ++ parsed.query.getD [], isUnsafeUrlByte b = false

variable {env : DigestEnv} {url target : Bytes}

/-- The path and the query as `url::Url` reads them. -/
def readTarget (parsed : DigestUrl) : Bytes :=
  let path := if parsed.path = [] then text "/" else parsed.path
  match parsed.query with
  | none => path
  | some query => path ++ text "?" ++ query

/-- A URL with a target, cut where the authority begins and where it ends. -/
structure Targeted (env : DigestEnv) (url target scheme authority suffix : Bytes) : Prop where
  whole : url = scheme ++ text "://" ++ (authority ++ suffix)
  http : scheme = text "http" ∨ scheme = text "https"
  plain : ∀ b ∈ authority, isDelimiter b = false
  ends : ∀ b ∈ suffix.head?, isDelimiter b = true
  target_eq : target = withoutParams (lexicalTarget (suffix.takeWhile (· != 35)))
  read : ∃ parsed, env.parse url = some parsed ∧ readTarget parsed = lexicalTarget (suffix.takeWhile (· != 35))

theorem stripPrefix_eq_some {front value rest : Bytes} (h : stripPrefix front value = some rest) :
    value = front ++ rest := by
  unfold stripPrefix at h
  split at h
  · rename_i hprefix
    obtain ⟨tail, rfl⟩ := List.isPrefixOf_iff_prefix.mp hprefix
    rw [List.drop_left, Option.some.injEq] at h
    rw [h]
  · cases h

theorem targeted (h : digestRequestTarget env url = some target) :
    ∃ scheme authority suffix, Targeted env url target scheme authority suffix := by
  unfold digestRequestTarget at h
  obtain ⟨remainder, hremainder, h⟩ := Option.bind_eq_some_iff.mp h
  have hscheme : ∃ scheme, (scheme = text "http" ∨ scheme = text "https") ∧ url = scheme ++ text "://" ++ remainder := by
    obtain hhttp | ⟨-, hhttps⟩ := Option.or_eq_some_iff.mp hremainder
    · exact ⟨text "http", .inl rfl, stripPrefix_eq_some hhttp⟩
    · exact ⟨text "https", .inr rfl, stripPrefix_eq_some hhttps⟩
  obtain ⟨scheme, hscheme, hurl⟩ := hscheme
  have hdrop : remainder.drop (rawAuthority remainder).length = remainder.dropWhile (!isDelimiter ·) :=
    calc remainder.drop (rawAuthority remainder).length
        = (rawAuthority remainder ++ remainder.dropWhile (!isDelimiter ·)).drop (rawAuthority remainder).length := by
          rw [rawAuthority, List.takeWhile_append_dropWhile]
      _ = remainder.dropWhile (!isDelimiter ·) := List.drop_left
  have hcut : remainder = rawAuthority remainder ++ remainder.dropWhile (!isDelimiter ·) :=
    List.takeWhile_append_dropWhile.symm
  have hplain : ∀ b ∈ rawAuthority remainder, isDelimiter b = false := by
    intro b hb
    simpa using List.mem_takeWhile_imp hb
  have hends : ∀ b ∈ (remainder.dropWhile (!isDelimiter ·)).head?, isDelimiter b = true := by
    intro b hb
    have hstop := List.head?_dropWhile_not (!isDelimiter ·) remainder
    rw [Option.mem_def.mp hb] at hstop
    simpa using hstop
  simp only [hdrop] at h
  split at h
  · cases h
  · obtain ⟨parsed, hparse, h⟩ := Option.bind_eq_some_iff.mp h
    split at h
    · cases h
    · change (if readTarget parsed ≠ lexicalTarget ((remainder.dropWhile (!isDelimiter ·)).takeWhile (· != 35)) then
          none
        else some (withoutParams (lexicalTarget ((remainder.dropWhile (!isDelimiter ·)).takeWhile (· != 35))))) =
          some target at h
      by_cases hsame : readTarget parsed = lexicalTarget ((remainder.dropWhile (!isDelimiter ·)).takeWhile (· != 35))
      · rw [if_neg (not_not.mpr hsame), Option.some.injEq] at h
        exact ⟨scheme, _, _, hurl.trans (congrArg _ hcut), hscheme, hplain, hends, h.symm, parsed, hparse, hsame⟩
      · rw [if_pos hsame] at h
        cases h

/-- Nothing that `urlsplit` removes stands between the authority and the fragment. -/
theorem Targeted.safe {scheme authority suffix : Bytes} (h : Targeted env url target scheme authority suffix)
    (hplain : ParsesPlainly env) : ∀ b ∈ suffix.takeWhile (· != 35), isUnsafeUrlByte b = false := by
  obtain ⟨parsed, hparse, hread⟩ := h.read
  have hbytes := hplain _ _ hparse
  have hpath : ∀ b ∈ (if parsed.path = [] then text "/" else parsed.path), isUnsafeUrlByte b = false := by
    intro b hb
    split at hb
    · obtain rfl := List.mem_singleton.mp (show b ∈ [47] from hb)
      decide
    · exact hbytes b (List.mem_append_left _ hb)
  have htarget : ∀ b ∈ readTarget parsed, isUnsafeUrlByte b = false := by
    unfold readTarget
    intro b hb
    cases hquery : parsed.query with
    | none =>
        rw [hquery] at hb
        exact hpath b hb
    | some query =>
        rw [hquery] at hb hbytes
        obtain hb | hb := List.mem_append.mp hb
        · obtain hb | hb := List.mem_append.mp hb
          · exact hpath b hb
          · obtain rfl := List.mem_singleton.mp (show b ∈ [63] from hb)
            decide
        · exact hbytes b (List.mem_append_right _ hb)
  intro b hb
  refine htarget b (hread ▸ ?_)
  unfold lexicalTarget
  split
  · rename_i hnil
    rw [hnil] at hb
    cases hb
  · split
    · exact List.mem_cons_of_mem _ hb
    · exact hb

/-! ### What `urlparse` reads -/

theorem takeWhile_filter {p q : UInt8 → Bool} (hstop : ∀ b, p b = false → q b = true) (value : Bytes) :
    (value.filter q).takeWhile p = (value.takeWhile p).filter q := by
  induction value with
  | nil => rfl
  | cons b value ih =>
      cases hp : p b with
      | true =>
          rw [List.takeWhile_cons_of_pos hp]
          cases hq : q b with
          | true => rw [List.filter_cons_of_pos hq, List.filter_cons_of_pos hq, List.takeWhile_cons_of_pos hp, ih]
          | false =>
              have hskip : ¬q b = true := by rw [hq]; decide
              rw [List.filter_cons_of_neg hskip, List.filter_cons_of_neg hskip, ih]
      | false =>
          have hends : ¬p b = true := by rw [hp]; decide
          rw [List.filter_cons_of_pos (hstop b hp), List.takeWhile_cons_of_neg hends, List.takeWhile_cons_of_neg hends]
          rfl

theorem splitScheme_http {scheme : Bytes} (h : scheme = text "http" ∨ scheme = text "https") (rest : Bytes) :
    splitScheme (scheme ++ text "://" ++ rest) = (scheme, text "//" ++ rest) := by
  have hmark : scheme ++ text "://" ++ rest = scheme ++ 58 :: (text "//" ++ rest) := by
    rw [List.append_assoc]
    rfl
  have hcut : cut 58 (scheme ++ text "://" ++ rest) = (scheme, text "//" ++ rest) := by
    rw [hmark]
    refine cut_append ?_ _
    obtain rfl | rfl := h <;> decide
  have hmem : 58 ∈ scheme ++ text "://" ++ rest := by
    rw [hmark]
    exact List.mem_append_right _ List.mem_cons_self
  simp only [splitScheme, hcut]
  obtain rfl | rfl := h
  · exact if_pos ⟨hmem, by decide, by decide⟩
  · exact if_pos ⟨hmem, by decide, by decide⟩

theorem rawAuthority_delimited {authority suffix : Bytes} (hplain : ∀ b ∈ authority, isDelimiter b = false)
    (hends : ∀ b ∈ suffix.head?, isDelimiter b = true) : rawAuthority (authority ++ suffix) = authority := by
  rw [rawAuthority, List.takeWhile_append_of_pos (fun b hb => by rw [hplain b hb]; rfl)]
  cases suffix with
  | nil => rw [List.takeWhile_nil, List.append_nil]
  | cons b suffix =>
      have hneg : ¬(!isDelimiter b) = true := by rw [hends b rfl]; decide
      rw [List.takeWhile_cons_of_neg (p := (!isDelimiter ·)) hneg, List.append_nil]

theorem ends_filter {suffix : Bytes} (hends : ∀ b ∈ suffix.head?, isDelimiter b = true) :
    ∀ b ∈ (suffix.filter (!isUnsafeUrlByte ·)).head?, isDelimiter b = true := by
  cases suffix with
  | nil => exact hends
  | cons b suffix =>
      have hdelimiter := hends b rfl
      have hkept : (!isUnsafeUrlByte b) = true := by
        grind [isDelimiter, isUnsafeUrlByte]
      rw [List.filter_cons_of_pos (p := (!isUnsafeUrlByte ·)) hkept]
      exact hends

variable {scheme authority suffix : Bytes}

theorem Targeted.urlparse_eq (h : Targeted env url target scheme authority suffix) (refusesNetloc : Bytes → Bool) :
    urlparse refusesNetloc url =
      let (url, fragment) := cut 35 (suffix.filter (!isUnsafeUrlByte ·))
      let (url, query) := cut 63 url
      let (path, params) := if scheme ∈ usesParams ∧ 59 ∈ url then splitParams url else (url, [])
      if refusesNetloc (authority.filter (!isUnsafeUrlByte ·)) then none
      else some ⟨scheme, authority.filter (!isUnsafeUrlByte ·), path, params, query, fragment⟩ := by
  have hstart : url.dropWhile (· ≤ 32) = url := by
    rw [h.whole]
    obtain rfl | rfl := h.http <;> rfl
  have hscheme : (scheme ++ text "://").filter (!isUnsafeUrlByte ·) = scheme ++ text "://" := by
    obtain rfl | rfl := h.http <;> decide
  have hclean : (url.dropWhile (· ≤ 32)).filter (!isUnsafeUrlByte ·) = scheme ++ text "://" ++
      (authority.filter (!isUnsafeUrlByte ·) ++ suffix.filter (!isUnsafeUrlByte ·)) := by
    rw [hstart, h.whole, List.filter_append, hscheme, List.filter_append]
  have hprefix (rest : Bytes) : (text "//").isPrefixOf (text "//" ++ rest) = true :=
    List.isPrefixOf_iff_prefix.mpr (List.prefix_append _ _)
  have hbehind (rest : Bytes) : (text "//" ++ rest).drop 2 = rest := rfl
  have hnetloc : rawAuthority (authority.filter (!isUnsafeUrlByte ·) ++ suffix.filter (!isUnsafeUrlByte ·)) =
      authority.filter (!isUnsafeUrlByte ·) :=
    rawAuthority_delimited (fun b hb => h.plain b (List.mem_filter.mp hb).1) (ends_filter h.ends)
  simp only [urlparse, hclean, splitScheme_http h.http, hprefix, if_true, hbehind, hnetloc, List.drop_left]

/-- The suffix up to the fragment starts with a slash or a question mark, if it is not empty. -/
theorem Targeted.starts (h : Targeted env url target scheme authority suffix) :
    ∀ b ∈ (suffix.takeWhile (· != 35)).head?, b = 47 ∨ b = 63 := by
  intro b hb
  cases suffix with
  | nil => cases hb
  | cons c suffix =>
      have hdelimiter := h.ends c rfl
      by_cases hhash : c = 35
      · rw [List.takeWhile_cons_of_neg (by simp [hhash])] at hb
        cases hb
      · rw [List.takeWhile_cons_of_pos (by simpa using hhash)] at hb
        cases hb
        simp only [isDelimiter, Bool.or_eq_true, beq_iff_eq] at hdelimiter
        obtain (rfl | rfl) | rfl := hdelimiter
        · exact .inl rfl
        · exact .inr rfl
        · exact absurd rfl hhash

theorem path_starts {path rest : Bytes} (h : ∀ b ∈ (path ++ rest).head?, b = 47 ∨ b = 63) (hmark : 63 ∉ path) :
    path = [] ∨ path.head? = some 47 := by
  cases path with
  | nil => exact .inl rfl
  | cons b path =>
      obtain rfl | rfl := h b rfl
      · exact .inr rfl
      · exact absurd List.mem_cons_self hmark

theorem Targeted.cut_fragment (h : Targeted env url target scheme authority suffix) (hplain : ParsesPlainly env) :
    (cut 35 (suffix.filter (!isUnsafeUrlByte ·))).1 = suffix.takeWhile (· != 35) := by
  rw [cut, takeWhile_filter]
  · exact List.filter_eq_self.mpr fun b hb => by rw [h.safe hplain b hb]; rfl
  · intro b hb
    obtain rfl : b = 35 := by simpa using hb
    decide

/-- Where the trial has a target, `urlparse` has the same. -/
theorem urlparse_target (hplain : ParsesPlainly env) (htarget : digestRequestTarget env url = some target)
    {refusesNetloc : Bytes → Bool} {parsed : UrlParseResult} (hparsed : urlparse refusesNetloc url = some parsed) :
    parsed.target = target := by
  obtain ⟨scheme, authority, suffix, h⟩ := targeted htarget
  have huses : scheme ∈ usesParams := by
    obtain rfl | rfl := h.http <;> decide
  rw [h.urlparse_eq] at hparsed
  simp only [h.cut_fragment hplain, huses, true_and] at hparsed
  split at hparsed
  · cases hparsed
  · have hpath : parsed.path = (splitParams (cut 63 (suffix.takeWhile (· != 35))).1).1 := by
      rw [← Option.some.inj hparsed]
      simp only
      split
      · rfl
      · rename_i hmark
        exact (splitParams_fst_of_notMem hmark).symm
    have hquery : parsed.query = (cut 63 (suffix.takeWhile (· != 35))).2 := by rw [← Option.some.inj hparsed]
    have hstarts := h.starts
    rw [h.target_eq]
    generalize suffix.takeWhile (· != 35) = lexicalSuffix at hpath hquery hstarts
    obtain hmark | ⟨path, query, rfl, hmark⟩ := cut_cases 63 lexicalSuffix
    · rw [cut_of_notMem hmark] at hpath hquery
      rw [← List.append_nil lexicalSuffix] at hstarts
      exact ((lexicalTarget_target (path_starts hstarts hmark) hmark [] parsed hpath).1 hquery).symm
    · rw [cut_append hmark] at hpath hquery
      exact ((lexicalTarget_target (path_starts hstarts hmark) hmark query parsed hpath).2 hquery).symm

end RequestsNative.Python
