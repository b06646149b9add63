import RequestsNative.Python.RedirectRuns

/-!
# Credentials and redirects

Whether a request that follows redirects still carries the `Authorization` header it started with. One turn of the loop
touches the header only where it strips it, so along a chain the header is kept as long as no hop strips it. The generator
strips it where `should_strip_auth` says so; the cursor only where the host changes, and the two agree on a chain exactly
if the first hop that should strip the header changes the host.
-/

namespace RequestsNative.Python

open Lib (Reactive)

/-! ### Headers -/

namespace Headers

theorem get?_pop_ne {name other : Bytes} (hne : toAsciiLowercase name ≠ toAsciiLowercase other) (headers : Headers) :
    (headers.pop name).get? other = headers.get? other := by
  rw [get?, get?, pop, List.find?_filter]
  congr 2
  funext header
  by_cases hsame : toAsciiLowercase header.1 = toAsciiLowercase other
  · simp [eqIgnoreAsciiCase, hsame, Ne.symm hne]
  · simp [eqIgnoreAsciiCase, hsame]

theorem get?_pop_self (headers : Headers) (name : Bytes) : (headers.pop name).get? name = none := by
  rw [get?, pop, List.find?_filter, Option.map_eq_none_iff, List.find?_eq_none]
  intro header _
  simp

theorem get?_set_ne {name other : Bytes} (hne : toAsciiLowercase name ≠ toAsciiLowercase other) (headers : Headers)
    (value : Bytes) : (headers.set name value).get? other = headers.get? other := by
  have hother : eqIgnoreAsciiCase name other = false := by simpa [eqIgnoreAsciiCase] using hne
  have hskip : ∀ header : Bytes × Bytes, eqIgnoreAsciiCase header.1 name = true → eqIgnoreAsciiCase header.1 other = false := by
    intro header hname
    simp only [eqIgnoreAsciiCase, beq_iff_eq, beq_eq_false_iff_ne] at hname ⊢
    exact fun h => hne (hname.symm.trans h)
  unfold set
  split
  · have hsame : (fun header : Bytes × Bytes => eqIgnoreAsciiCase header.1 other) ∘
        (fun header => if eqIgnoreAsciiCase header.1 name then (name, value) else header) =
        fun header => eqIgnoreAsciiCase header.1 other := by
      funext header
      by_cases hname : eqIgnoreAsciiCase header.1 name = true
      · simp [hname, hother, hskip header hname]
      · simp [hname]
    rw [get?, get?, List.find?_map, hsame, Option.map_map]
    apply Option.map_congr
    intro header hfound
    have hname : ¬eqIgnoreAsciiCase header.1 name = true := fun h => by
      simpa [hskip header h] using List.find?_some hfound
    simp [hname]
  · simp [get?, List.find?_append, hother]

theorem contains_eq_isSome (headers : Headers) (name : Bytes) : headers.contains name = (headers.get? name).isSome := by
  rw [contains, get?, Option.isSome_map, List.isSome_find?]

end Headers

/-! ### One hop -/

variable {T : Objects} (lib : Library T) (session : Session) (strips : Bytes → Bytes → Bool)

/-- The `Authorization` header of a request. -/
def PreparedRequest.authorization (request : PreparedRequest T) : Option Bytes :=
  request.headers.get? (text "Authorization")

theorem authorization_purge (request : PreparedRequest T) : (purge request).authorization = request.authorization := by
  simp only [PreparedRequest.authorization, purge, purgedHeaders, List.foldl_cons, List.foldl_nil]
  rw [Headers.get?_pop_ne (by decide), Headers.get?_pop_ne (by decide), Headers.get?_pop_ne (by decide)]

theorem authorization_rebuildCookies (jar : T.Jar) (prepared request : PreparedRequest T) (response : Response T) :
    (rebuildCookies lib jar prepared request response).authorization = prepared.authorization := by
  unfold rebuildCookies prepareCookies
  simp only
  split
  · exact Headers.get?_pop_ne (by decide) _
  · exact (Headers.get?_set_ne (by decide) _ _).trans (Headers.get?_pop_ne (by decide) _)

theorem authorization_rebuildProxies (prepared : PreparedRequest T) (proxies : Option Proxies) :
    (rebuildProxies lib session prepared proxies).1.authorization = prepared.authorization := by
  have hpop : (prepared.headers.pop (text "Proxy-Authorization")).get? (text "Authorization") =
      prepared.headers.get? (text "Authorization") := Headers.get?_pop_ne (by decide) _
  have hset (value : Bytes) :
      ((prepared.headers.pop (text "Proxy-Authorization")).set (text "Proxy-Authorization") value).get?
        (text "Authorization") = prepared.headers.get? (text "Authorization") :=
    (Headers.get?_set_ne (by decide) _ value).trans hpop
  unfold rebuildProxies PreparedRequest.authorization
  simp only
  -- Whether a proxy is known for the scheme, and whether its credentials are sent.
  split
  · split
    · exact hset _
    · exact hpop
  · split
    · exact hset _
    · exact hpop

/-- The request of a hop before its credentials are looked at. -/
def unauthenticatedHop (frame : Frame T) (url : Bytes) (jar : T.Jar) : PreparedRequest T :=
  let prepared := rebuildMethod { frame.req.copy with url := (redirectUrl lib frame.resp url frame.previousFragment).1 }
    frame.resp
  let prepared := if frame.resp.statusCode ∉ [307, 308] then purge prepared else prepared
  (rebuildProxies lib session (rebuildCookies lib jar prepared frame.req frame.resp) frame.proxies).1

theorem hopRequest_eq (frame : Frame T) (url : Bytes) (jar : T.Jar) :
    (hopRequest lib session strips frame url jar).1 =
      rebuildAuth lib session strips (unauthenticatedHop lib session frame url jar) frame.resp := rfl

theorem unauthenticatedHop_authorization (frame : Frame T) (url : Bytes) (jar : T.Jar) :
    (unauthenticatedHop lib session frame url jar).authorization = frame.req.authorization := by
  unfold unauthenticatedHop
  simp only
  rw [authorization_rebuildProxies, authorization_rebuildCookies]
  split
  · rw [authorization_purge]
    rfl
  · rfl

theorem unauthenticatedHop_url (frame : Frame T) (url : Bytes) (jar : T.Jar) :
    (unauthenticatedHop lib session frame url jar).url = (redirectUrl lib frame.resp url frame.previousFragment).1 := by
  unfold unauthenticatedHop rebuildProxies rebuildCookies prepareCookies
  simp only
  split <;> split <;> rfl

theorem hopRequest_authorization (htrust : session.trustEnv = false) (frame : Frame T) (url : Bytes) (jar : T.Jar) :
    (hopRequest lib session strips frame url jar).1.authorization =
      if strips frame.resp.requestUrl (hopRequest lib session strips frame url jar).1.url then none
      else frame.req.authorization := by
  rw [hopRequest_eq, ← unauthenticatedHop_authorization lib session frame url jar]
  generalize unauthenticatedHop lib session frame url jar = prepared
  have hcontains := Headers.contains_eq_isSome prepared.headers (text "Authorization")
  simp only [rebuildAuth, netrcAuth, htrust, Bool.false_eq_true, if_false]
  by_cases hstrips : strips frame.resp.requestUrl prepared.url = true
  · cases hauth : prepared.headers.contains (text "Authorization") with
    | true =>
        simp only [hstrips, and_self, if_true]
        exact Headers.get?_pop_self _ _
    | false =>
        rw [hauth] at hcontains
        have hnone : prepared.authorization = none := 
          Option.isNone_iff_eq_none.mp (Option.isSome_eq_false_iff.mp hcontains.symm)
        simp [hstrips, hnone]
  · simp [hstrips]

/-! ### Chains of hops -/

/-- The request of a hop, with the URL it was redirected from. -/
abbrev Hop (T : Objects) := Bytes × PreparedRequest T

def hops (log : List (Event T)) : List (Hop T) :=
  log.filterMap fun
    | .prepared previous request _ => some (previous, request)
    | _ => none

/-- Whether a hop leaves the header alone. -/
def keeps (hop : Hop T) : Bool := !strips hop.1 hop.2.url

/-- The URL of the last hop, or the one the chain starts at. -/
def lastUrl (first : Bytes) (chain : List (Hop T)) : Bytes := (chain.getLast?.map fun hop => hop.2.url).getD first

/-- Every hop is redirected from the one before it, and carries the header if no hop so far has stripped it. -/
structure Chain (first : Bytes) (original : Option Bytes) (chain : List (Hop T)) : Prop where
  linked : ∀ before hop after, chain = before ++ hop :: after → hop.1 = lastUrl first before
  carried : ∀ before hop after, chain = before ++ hop :: after →
    hop.2.authorization = if (before ++ [hop]).all (keeps strips) then original else none

variable {strips} {first : Bytes} {original : Option Bytes}

theorem Chain.nil : Chain strips first original ([] : List (Hop T)) := by
  constructor <;> simp

theorem Chain.snoc {chain : List (Hop T)} {hop : Hop T} (h : Chain strips first original chain)
    (hlinked : hop.1 = lastUrl first chain)
    (hcarried : hop.2.authorization = if (chain ++ [hop]).all (keeps strips) then original else none) :
    Chain strips first original (chain ++ [hop]) := by
  have hsplit : ∀ before other after, chain ++ [hop] = before ++ other :: after →
      (chain = before ∧ hop = other) ∨ ∃ after', chain = before ++ other :: after' := by
    intro before other after heq
    obtain rfl | ⟨after', last, rfl⟩ := List.eq_nil_or_concat after
    · exact .inl ⟨(List.append_inj' heq rfl).1, List.singleton_inj.mp (List.append_inj' heq rfl).2⟩
    · rw [List.concat_eq_append, ← List.cons_append, ← List.append_assoc] at heq
      exact .inr ⟨after', (List.append_inj' heq rfl).1⟩
  constructor
  · intro before other after heq
    obtain ⟨rfl, rfl⟩ | ⟨after', hchain⟩ := hsplit before other after heq
    · exact hlinked
    · exact h.linked before other after' hchain
  · intro before other after heq
    obtain ⟨rfl, rfl⟩ | ⟨after', hchain⟩ := hsplit before other after heq
    · exact hcarried
    · exact h.carried before other after' hchain

/-- Where the loop stands: at the last URL of the chain, with the header if the chain has kept it. -/
structure Standing (strips : Bytes → Bytes → Bool) (first : Bytes) (original : Option Bytes) (generator : Generator T)
    (env : Env T) : Prop where
  chain : Chain strips first original (hops env.log)
  frame : ∀ frame, frameOf lib generator = .ok (some frame) → frame.resp.requestUrl = lastUrl first (hops env.log) ∧
    frame.req.authorization = if (hops env.log).all (keeps strips) then original else none

variable {lib session}

theorem Standing.finished {generator : Generator T} {env env' : Env T}
    (h : Standing lib strips first original generator env) (hlog : hops env'.log = hops env.log) :
    Standing lib strips first original .finished env' :=
  ⟨hlog ▸ h.chain, nofun⟩

/-- A hop that was prepared prolongs the chain. -/
theorem Standing.hop {generator : Generator T} {env : Env T} (h : Standing lib strips first original generator env)
    (htrust : session.trustEnv = false) {frame : Frame T} (hframe : frameOf lib generator = .ok (some frame)) (url : Bytes)
    (jar : T.Jar) :
    Chain strips first original
      (hops env.log ++ [(frame.resp.requestUrl, (hopRequest lib session strips frame url jar).1)]) ∧
    (hopRequest lib session strips frame url jar).1.authorization =
      if (hops env.log ++ [(frame.resp.requestUrl, (hopRequest lib session strips frame url jar).1)]).all (keeps strips)
      then original else none := by
  obtain ⟨hurl, hauth⟩ := h.frame frame hframe
  have hcarried : (hopRequest lib session strips frame url jar).1.authorization =
      if (hops env.log ++ [(frame.resp.requestUrl, (hopRequest lib session strips frame url jar).1)]).all (keeps strips)
      then original else none := by
    rw [hopRequest_authorization lib session strips htrust, hauth]
    by_cases hstrips :
        strips frame.resp.requestUrl (hopRequest lib session strips frame url jar).1.url = true
    · simp [keeps, hstrips]
    · have hkeeps : keeps strips (frame.resp.requestUrl, (hopRequest lib session strips frame url jar).1) = true := by
        simp [keeps, hstrips]
      rw [if_neg hstrips, List.all_append, List.all_cons, hkeeps, List.all_nil, Bool.and_self, Bool.and_true]
  exact ⟨h.chain.snoc hurl hcarried, hcarried⟩

theorem hops_append (log events : List (Event T)) : hops (log ++ events) = hops log ++ hops events :=
  List.filterMap_append

/-- The responses come back with the URL of the request that was sent. -/
def AnswersSent (lib : Library T) : Prop :=
  ∀ request proxies world resp world', lib.send request proxies world = (.ok resp, world') → resp.requestUrl = request.url

theorem Standing.step (hsent : AnswersSent lib) (htrust : session.trustEnv = false) {generator : Generator T} {env : Env T}
    (h : Standing lib strips first original generator env) :
    Standing lib strips first original (generator.resume lib session strips false env).2.1
      (generator.resume lib session strips false env).2.2 := by
  obtain ⟨events, hlog, hstepped⟩ := resume_stepped lib session strips false generator env
  generalize (generator.resume lib session strips false env).2.2 = env' at hlog
  generalize (generator.resume lib session strips false env).2.1 = generator' at hstepped
  generalize (generator.resume lib session strips false env).1 = answer at hstepped
  have hhops : hops env'.log = hops env.log ++ hops events := by rw [hlog, hops_append]
  cases hstepped with
  | returned | untargeted => exact h.finished (by simpa [hops] using hhops)
  | turned frame url result _ hframe _ _ hturned =>
      cases hturned with
      | failed | exceeded => exact h.finished (by simpa [hops] using hhops)
      | unrewound jar | unanswered jar =>
          have hsnoc : hops env'.log = hops env.log ++ [(_, (hopRequest lib session strips frame url jar).1)] := hhops
          obtain ⟨hchain, -⟩ := h.hop htrust hframe url jar
          exact ⟨hsnoc ▸ hchain, nofun⟩
      | yielded _ hyield => cases hyield
      | answered jar resp target _ _ hsend =>
          have hsnoc : hops env'.log = hops env.log ++ [(_, (hopRequest lib session strips frame url jar).1)] := hhops
          obtain ⟨hchain, hauth⟩ := h.hop htrust hframe url jar
          obtain ⟨world, world', hworld⟩ := hsend
          refine ⟨hsnoc ▸ hchain, fun frame' hframe' => ?_⟩
          obtain rfl := Option.some.inj (Except.ok.inj hframe')
          rw [hsnoc, lastUrl, List.getLast?_concat]
          exact ⟨hsent _ _ _ _ _ hworld, hauth⟩

theorem body_chain (hsent : AnswersSent lib) (htrust : session.trustEnv = false) (response : Response T)
    (request : PreparedRequest T) (proxies : Option Proxies) (world : T.World) (calls : List Unit) :
    Chain strips response.requestUrl request.authorization
      (hops ((bodyObject lib session strips false).after (.created response request proxies, ⟨world, []⟩) calls).2.log) := by
  have hstart : Standing lib strips response.requestUrl request.authorization (.created response request proxies)
      (⟨world, []⟩ : Env T) := by
    refine ⟨Chain.nil, fun frame hframe => ?_⟩
    obtain ⟨url, -, rfl⟩ := frameOf_created lib hframe
    exact ⟨rfl, rfl⟩
  have hend : Standing lib strips response.requestUrl request.authorization
      ((bodyObject lib session strips false).after (.created response request proxies, ⟨world, []⟩) calls).1
      ((bodyObject lib session strips false).after (.created response request proxies, ⟨world, []⟩) calls).2 :=
    Reactive.trace_induction _ (fun _ (s : Generator T × Env T) => Standing lib strips response.requestUrl request.authorization s.1 s.2) hstart
      (fun _ _ _ hs => hs.step hsent htrust) calls
  exact hend.chain

/-! ### Where a kept header goes -/

/-- The port a URL is served at. -/
def effectivePort (parsed : ParseResult) : Option Nat := parsed.port <|> defaultPorts parsed.scheme

/-- A redirect within one origin, or its upgrade from `http` at port 80 to `https` at port 443. -/
def SameOrigin (old new : ParseResult) : Prop :=
  old.hostname = new.hostname ∧
    ((old.scheme = new.scheme ∧ effectivePort old = effectivePort new) ∨
      (old.scheme = text "http" ∧ effectivePort old = some 80 ∧ new.scheme = text "https" ∧ effectivePort new = some 443))

theorem SameOrigin.refl (parsed : ParseResult) : SameOrigin parsed parsed := ⟨rfl, .inl ⟨rfl, rfl⟩⟩

theorem SameOrigin.https {old new : ParseResult} (h : SameOrigin old new) (hold : old.scheme = text "https") :
    new.scheme = text "https" := by
  obtain ⟨-, ⟨hscheme, -⟩ | ⟨-, -, hscheme, -⟩⟩ := h
  · exact hscheme ▸ hold
  · exact hscheme

theorem SameOrigin.trans {a b c : ParseResult} (hab : SameOrigin a b) (hbc : SameOrigin b c) : SameOrigin a c := by
  refine ⟨hab.1.trans hbc.1, ?_⟩
  obtain ⟨-, ⟨hscheme, hport⟩ | ⟨hhttp, h80, hhttps, h443⟩⟩ := hab
  · obtain ⟨-, ⟨hscheme', hport'⟩ | ⟨hhttp', h80', hrest⟩⟩ := hbc
    · exact .inl ⟨hscheme.trans hscheme', hport.trans hport'⟩
    · exact .inr ⟨hscheme.trans hhttp', hport.trans h80', hrest⟩
  · obtain ⟨-, ⟨hscheme', hport'⟩ | ⟨hhttp', -⟩⟩ := hbc
    · exact .inr ⟨hhttp, h80, hscheme' ▸ hhttps, hport' ▸ h443⟩
    · exact absurd (hhttps.symm.trans hhttp') (by decide)

theorem sameOrigin_of_not_strip {old new : Bytes} (h : shouldStripAuth lib old new = false) :
    SameOrigin (lib.urlparse old) (lib.urlparse new) := by
  unfold shouldStripAuth at h
  simp only at h
  generalize lib.urlparse old = old at h ⊢
  generalize lib.urlparse new = new at h ⊢
  split at h
  · cases h
  · next hhost =>
      refine ⟨not_not.mp hhost, ?_⟩
      split at h
      · next hupgrade =>
          obtain ⟨holdScheme, holdPort, hnewScheme, hnewPort⟩ := hupgrade
          refine .inr ⟨holdScheme, ?_, hnewScheme, ?_⟩
          · simp only [List.mem_cons, List.not_mem_nil, or_false] at holdPort
            obtain hport | hport := holdPort <;> simp [effectivePort, hport, holdScheme, defaultPorts]
          · simp only [List.mem_cons, List.not_mem_nil, or_false] at hnewPort
            obtain hport | hport := hnewPort
            · simp [effectivePort, hport]
            · simp only [effectivePort, hport, hnewScheme]
              decide
      · split at h
        · next hdefault =>
            obtain ⟨hscheme, holdPort, hnewPort⟩ := hdefault
            have hscheme : old.scheme = new.scheme := by simpa using hscheme
            simp only [List.mem_cons, List.not_mem_nil, or_false] at holdPort hnewPort
            refine .inl ⟨hscheme, ?_⟩
            obtain hold | hold := holdPort <;> obtain hnew | hnew := hnewPort <;>
              cases hports : defaultPorts old.scheme <;> simp [effectivePort, hold, hnew, ← hscheme, hports]
        · have hsame : old.port = new.port ∧ old.scheme = new.scheme := by simpa using h
          exact .inl ⟨hsame.2, by rw [effectivePort, effectivePort, hsame.1, hsame.2]⟩

theorem sameOrigin_of_kept {first : Bytes} {chain : List (Hop T)} (hlinked : ∀ before hop after,
      chain = before ++ hop :: after → hop.1 = lastUrl first before)
    (hkept : ∀ hop ∈ chain, shouldStripAuth lib hop.1 hop.2.url = false) :
    SameOrigin (lib.urlparse first) (lib.urlparse (lastUrl first chain)) ∧
    ∀ url ∈ first :: chain.map fun hop => hop.2.url, (lib.urlparse url).scheme = text "https" →
      (lib.urlparse (lastUrl first chain)).scheme = text "https" := by
  induction chain using List.reverseRecOn with
  | nil =>
      refine ⟨SameOrigin.refl _, fun url hurl hscheme => ?_⟩
      obtain rfl : url = first := by simpa using hurl
      exact hscheme
  | append_singleton chain hop ih =>
      have hfrom : hop.1 = lastUrl first chain := hlinked chain hop [] rfl
      have hto : lastUrl first (chain ++ [hop]) = hop.2.url := by rw [lastUrl, List.getLast?_concat]; rfl
      obtain ⟨horigin, hhttps⟩ := ih
        (fun before other after heq => hlinked before other (after ++ [hop]) (by rw [heq]; simp))
        (fun other hother => hkept other (List.mem_append_left _ hother))
      have hlast := sameOrigin_of_not_strip (hkept hop (by simp))
      rw [hfrom] at hlast
      rw [hto]
      refine ⟨horigin.trans hlast, fun url hurl hscheme => ?_⟩
      rw [List.map_append, ← List.cons_append, List.mem_append] at hurl
      obtain hurl | hurl := hurl
      · exact hlast.https (hhttps url hurl hscheme)
      · obtain rfl : url = hop.2.url := by simpa using hurl
        exact hscheme

/-! ### The two loops -/

/-- Every hop carries the header exactly if no hop up to it should be stripped of it. -/
def AuthFollows (lib : Library T) (value : Bytes) (chain : List (Hop T)) : Prop :=
  ∀ before hop after, chain = before ++ hop :: after →
    (hop.2.authorization = some value ↔ ∀ earlier ∈ before ++ [hop], shouldStripAuth lib earlier.1 earlier.2.url = false)

/-- The header goes to the host it was meant for, not over `http` behind `https`, and to no other port but by the upgrade. -/
def AuthConfined (lib : Library T) (first value : Bytes) (chain : List (Hop T)) : Prop :=
  ∀ before hop after, chain = before ++ hop :: after → hop.2.authorization = some value →
    SameOrigin (lib.urlparse first) (lib.urlparse hop.2.url) ∧
    ((∃ url ∈ first :: before.map fun earlier => earlier.2.url, (lib.urlparse url).scheme = text "https") →
      (lib.urlparse hop.2.url).scheme ≠ text "http")

/-- The first hop that should be stripped of the header changes the host. -/
def StripsByHost (lib : Library T) (chain : List (Hop T)) : Prop :=
  ∀ before hop after, chain = before ++ hop :: after →
    (∀ earlier ∈ before, shouldStripAuth lib earlier.1 earlier.2.url = false) →
    shouldStripAuth lib hop.1 hop.2.url = true → (lib.urlparse hop.1).hostname ≠ (lib.urlparse hop.2.url).hostname

theorem Chain.authorization_iff {value : Bytes} {chain before after : List (Hop T)} {hop : Hop T}
    (h : Chain strips first (some value) chain) (hchain : chain = before ++ hop :: after) :
    hop.2.authorization = some value ↔ ∀ earlier ∈ before ++ [hop], strips earlier.1 earlier.2.url = false := by
  have hall : (before ++ [hop]).all (keeps strips) = true ↔
      ∀ earlier ∈ before ++ [hop], strips earlier.1 earlier.2.url = false := by
    simp only [List.all_eq_true, keeps, Bool.not_eq_true']
  rw [h.carried before hop after hchain, ← hall]
  by_cases hkept : (before ++ [hop]).all (keeps strips) = true
  · simp [hkept]
  · simp [hkept]

theorem AuthFollows.confined {value : Bytes} {chain : List (Hop T)} (h : AuthFollows lib value chain)
    (hlinked : ∀ before hop after, chain = before ++ hop :: after → hop.1 = lastUrl first before) :
    AuthConfined lib first value chain := by
  intro before hop after hchain hvalue
  have hkept := (h before hop after hchain).mp hvalue
  have hto : lastUrl first (before ++ [hop]) = hop.2.url := by rw [lastUrl, List.getLast?_concat]; rfl
  obtain ⟨horigin, hhttps⟩ := sameOrigin_of_kept
    (fun before' other after' heq => hlinked before' other (after' ++ after) (by
      rw [hchain, List.append_cons, heq, List.append_assoc, List.cons_append])) hkept
  rw [hto] at horigin hhttps
  refine ⟨horigin, fun ⟨url, hurl, hscheme⟩ hhttp => ?_⟩
  have hsecure := hhttps url (by
    rw [List.map_append, ← List.cons_append]
    exact List.mem_append_left _ hurl) hscheme
  exact absurd (hhttp.symm.trans hsecure) (by decide)

theorem shouldStripAuth_of_host {old new : Bytes} (h : stripsAuthValue lib old new = true) :
    shouldStripAuth lib old new = true := by
  have hhost : (lib.urlparse old).hostname ≠ (lib.urlparse new).hostname := by simpa [stripsAuthValue] using h
  simp [shouldStripAuth, hhost]

theorem StripsByHost.not_strip {chain : List (Hop T)} (h : StripsByHost lib chain) {kept rest : List (Hop T)}
    (hchain : chain = kept ++ rest) (hkept : ∀ hop ∈ kept, stripsAuthValue lib hop.1 hop.2.url = false) :
    ∀ hop ∈ kept, shouldStripAuth lib hop.1 hop.2.url = false := by
  induction kept using List.reverseRecOn generalizing rest with
  | nil => exact nofun
  | append_singleton kept hop ih =>
      have hearlier := ih (hchain.trans (List.append_assoc _ _ _)) fun other hother => hkept other (List.mem_append_left _ hother)
      intro other hother
      obtain hother | hother := List.mem_append.mp hother
      · exact hearlier other hother
      · obtain rfl := List.mem_singleton.mp hother
        refine eq_false_of_ne_true fun hstrip => ?_
        have hhost := h kept other rest (hchain.trans (by simp)) hearlier hstrip
        have hsame := hkept other (by simp)
        simp [stripsAuthValue, hhost] at hsame

theorem Chain.authFollows_iff {value : Bytes} {chain : List (Hop T)}
    (h : Chain (stripsAuthValue lib) first (some value) chain) : AuthFollows lib value chain ↔ StripsByHost lib chain := by
  constructor
  · intro hfollows before hop after hchain hbefore hstrip hhost
    have hkept : ∀ earlier ∈ before ++ [hop], stripsAuthValue lib earlier.1 earlier.2.url = false := by
      intro earlier hearlier
      obtain hearlier | hearlier := List.mem_append.mp hearlier
      · refine eq_false_of_ne_true fun hstrips => ?_
        have hshould := shouldStripAuth_of_host hstrips
        rw [hbefore earlier hearlier] at hshould
        cases hshould
      · obtain rfl := List.mem_singleton.mp hearlier
        simp [stripsAuthValue, hhost]
    have hvalue := (h.authorization_iff hchain).mpr hkept
    have hall := (hfollows before hop after hchain).mp hvalue hop (by simp)
    rw [hstrip] at hall
    cases hall
  · intro hhosts before hop after hchain
    rw [h.authorization_iff hchain]
    constructor
    · exact hhosts.not_strip (hchain.trans (List.append_cons _ _ _))
    · intro hkept earlier hearlier
      refine eq_false_of_ne_true fun hstrips => ?_
      have hshould := shouldStripAuth_of_host hstrips
      rw [hkept earlier hearlier] at hshould
      cases hshould

/-- The hops of a run. -/
def generatorHops (lib : Library T) (session : Session) (response : Response T) (request : PreparedRequest T)
    (proxies : Option Proxies) (world : T.World) (calls : List Unit) : List (Hop T) :=
  hops ((generatorObject lib session (shouldStripAuth lib) false).after
    (.created response request proxies, ⟨world, []⟩) calls).2.log

def cursorHops (lib : Library T) (session : Session) (response : Response T) (request : PreparedRequest T)
    (proxies : Option Proxies) (world : T.World) (calls : List Unit) : List (Hop T) :=
  hops ((cursorObject lib session).after (fromInvocation response request proxies false, ⟨world, []⟩) calls).2.log

theorem authorization_follows_iff (lib : Library T) (session : Session) (hsent : AnswersSent lib)
    (htrust : session.trustEnv = false) (response : Response T) (request : PreparedRequest T) (proxies : Option Proxies)
    (world : T.World) {value : Bytes} (hvalue : request.authorization = some value) (calls : List Unit) :
    (AuthFollows lib value (generatorHops lib session response request proxies world calls) ∧
      AuthConfined lib response.requestUrl value (generatorHops lib session response request proxies world calls)) ∧
    ((AuthFollows lib value (cursorHops lib session response request proxies world calls) ∧
      AuthConfined lib response.requestUrl value (cursorHops lib session response request proxies world calls)) ↔
      StripsByHost lib (cursorHops lib session response request proxies world calls)) := by
  have hgenerator : Chain (shouldStripAuth lib) response.requestUrl (some value)
      (generatorHops lib session response request proxies world calls) := by
    rw [generatorHops, (generator_guards lib session (shouldStripAuth lib) false _ calls).2, ← hvalue]
    exact body_chain hsent htrust response request proxies world calls
  have hcursor : Chain (stripsAuthValue lib) response.requestUrl (some value)
      (cursorHops lib session response request proxies world calls) := by
    rw [cursorHops, (cursor_eq_body lib session false response request proxies ⟨world, []⟩ calls).2, ← hvalue]
    exact body_chain hsent htrust response request proxies world calls
  have hfollows : AuthFollows lib value (generatorHops lib session response request proxies world calls) :=
    fun before hop after hchain => hgenerator.authorization_iff hchain
  refine ⟨⟨hfollows, hfollows.confined hgenerator.linked⟩, ?_⟩
  rw [← hcursor.authFollows_iff]
  exact ⟨And.left, fun h => ⟨h, h.confined hcursor.linked⟩⟩

/-! ### A site that redirects once -/

def siteObjects : Objects := ⟨Unit, Unit, Unit, Unit, Unit⟩

/-- URLs with a scheme, a host and a path. -/
def siteParse (url : Bytes) : ParseResult :=
  let scheme := url.takeWhile (· != 58)
  let rest := url.drop (scheme.length + 3)
  let netloc := rest.takeWhile (· != 47)
  { scheme, netloc, hostname := some netloc, port := none, rest := rest.drop netloc.length, fragment := [] }

def siteLibrary : Library siteObjects where
  urlparse := siteParse
  geturl parsed := parsed.scheme ++ text "://" ++ parsed.netloc ++ parsed.rest
  urljoin _ url := url
  requoteUri url := url
  locationText location := .ok location
  content _ world := (.ok (), world)
  rawRead _ world := (.ok (), world)
  close _ world := (.ok (), world)
  send request _ world := (.ok ⟨200, request.url, none, request.url, ()⟩, world)
  rewindBody _ world := (.ok (), world)
  sessionCookies _ := ()
  extractCookiesToSession _ _ world := world
  extractCookiesToJar jar _ _ := jar
  mergeCookies jar _ := jar
  getCookieHeader _ _ := none
  resolveProxies _ proxies _ := proxies.getD []
  getAuthFromUrl _ := ([], [])
  basicAuthStr username password := username ++ text ":" ++ password
  getNetrcAuth _ := none
  prepareAuth request _ := request

def siteRequest : PreparedRequest siteObjects :=
  ⟨text "GET", text "https://example.com/a", [(text "Authorization", text "secret")], (), none, none⟩

/-- A redirect from `https://example.com/a`. -/
def siteRedirect (location : String) : Response siteObjects :=
  ⟨302, text "https://example.com/a", some (text location), text "https://example.com/a", ()⟩

theorem siteLibrary_answersSent : AnswersSent siteLibrary := by
  intro request proxies world resp world' hsend
  obtain rfl := Except.ok.inj (Prod.mk.inj hsend).1
  rfl

theorem authorization_follows_path :
    AuthFollows siteLibrary (text "secret")
      (cursorHops siteLibrary ⟨30, false⟩ (siteRedirect "https://example.com/b") siteRequest none () [(), ()]) := by
  refine ((authorization_follows_iff siteLibrary ⟨30, false⟩ siteLibrary_answersSent rfl
    (siteRedirect "https://example.com/b") siteRequest none () (by decide) [(), ()]).2.mpr ?_).1
  intro before hop after hchain _ hstrip
  have hall : ∀ other ∈ cursorHops siteLibrary ⟨30, false⟩ (siteRedirect "https://example.com/b") siteRequest none ()
      [(), ()], shouldStripAuth siteLibrary other.1 other.2.url = false := by decide
  have hkept := hall hop (hchain ▸ List.mem_append_right _ List.mem_cons_self)
  rw [hstrip] at hkept
  cases hkept

/-- The cursor follows a redirect from `https` to `http` on the same host with the credentials. -/
theorem cursor_downgrade_keeps_authorization :
    (cursorHops siteLibrary ⟨30, false⟩ (siteRedirect "http://example.com/b") siteRequest none () [()]).map
      (fun hop => (hop.1, hop.2.url, hop.2.authorization)) =
        [(text "https://example.com/a", text "http://example.com/b", some (text "secret"))] ∧
    shouldStripAuth siteLibrary (text "https://example.com/a") (text "http://example.com/b") = true ∧
    ¬AuthFollows siteLibrary (text "secret")
      (cursorHops siteLibrary ⟨30, false⟩ (siteRedirect "http://example.com/b") siteRequest none () [()]) := by
  have hhops : (cursorHops siteLibrary ⟨30, false⟩ (siteRedirect "http://example.com/b") siteRequest none () [()]).map
      (fun hop => (hop.1, hop.2.url, hop.2.authorization)) =
        [(text "https://example.com/a", text "http://example.com/b", some (text "secret"))] := by decide
  have hstrip : shouldStripAuth siteLibrary (text "https://example.com/a") (text "http://example.com/b") = true := by
    decide
  refine ⟨hhops, hstrip, fun hfollows => ?_⟩
  obtain ⟨hop, hchain, hhop⟩ := List.map_eq_singleton_iff.mp hhops
  obtain ⟨hfrom, hto, hvalue⟩ : hop.1 = _ ∧ hop.2.url = _ ∧ hop.2.authorization = _ := by simpa using hhop
  have hkept := (hfollows [] hop [] hchain).mp hvalue hop (by simp)
  rw [hfrom, hto, hstrip] at hkept
  cases hkept

end RequestsNative.Python
