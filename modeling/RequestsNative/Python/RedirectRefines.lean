import RequestsNative.Python.RedirectLimits

/-!
# The cursor refines the generator

The cursor is the body of the generator that strips the `Authorization` header by the host alone. So the two agree on a run
in which no call raises `StopIteration` and no request that carries the header should be stripped of it without a change of
host, and they agree but for that header where nothing that is called looks at it.
-/

namespace RequestsNative.Python

open Lib (Effect Reactive)

variable {T : Objects} {lib : Library T} {session : Session} {strips strips' : Bytes → Bytes → Bool} {yieldRequests : Bool}

/-! ### Requests that differ in their credentials -/

namespace Headers

theorem pop_comm (headers : Headers) (name other : Bytes) : (headers.pop name).pop other = (headers.pop other).pop name := by
  rw [pop, pop, pop, pop, List.filter_filter, List.filter_filter]
  congr 1
  funext header
  exact Bool.and_comm _ _

theorem pop_pop (headers : Headers) (name : Bytes) : (headers.pop name).pop name = headers.pop name := by
  rw [pop, pop, List.filter_filter]
  congr 1
  funext header
  exact Bool.and_self _

theorem contains_pop_ne {name other : Bytes} (hne : toAsciiLowercase name ≠ toAsciiLowercase other) (headers : Headers) :
    (headers.pop name).contains other = headers.contains other := by
  rw [contains_eq_isSome, contains_eq_isSome, get?_pop_ne hne]

theorem pop_set_ne {name other : Bytes} (hne : toAsciiLowercase name ≠ toAsciiLowercase other) (headers : Headers)
    (value : Bytes) : (headers.set name value).pop other = (headers.pop other).set name value := by
  have hname : eqIgnoreAsciiCase name other = false := by simpa [eqIgnoreAsciiCase] using hne
  unfold set
  rw [contains_pop_ne (Ne.symm hne)]
  split
  · rw [pop, pop, List.filter_map]
    congr 2
    funext header
    by_cases hheader : eqIgnoreAsciiCase header.1 name = true
    · have hother : eqIgnoreAsciiCase header.1 other = false := by
        simp only [eqIgnoreAsciiCase, beq_iff_eq, beq_eq_false_iff_ne] at hheader ⊢
        exact fun h => hne (hheader.symm.trans h)
      simp [hheader, hname, hother]
    · simp [hheader]
  · simp [pop, hname]

theorem pop_setIf_ne {name other : Bytes} (hne : toAsciiLowercase name ≠ toAsciiLowercase other) (condition : Prop)
    [Decidable condition] (headers : Headers) (value : Bytes) :
    (if condition then headers.set name value else headers).pop other =
      if condition then (headers.pop other).set name value else headers.pop other := by
  split
  · exact pop_set_ne hne headers value
  · rfl

end Headers

/-- A request without its `Authorization` header. -/
def PreparedRequest.plain (request : PreparedRequest T) : PreparedRequest T :=
  { request with headers := request.headers.pop (text "Authorization") }

theorem plain_plain (request : PreparedRequest T) : request.plain.plain = request.plain := by
  simp [PreparedRequest.plain, Headers.pop_pop]

/-- Nothing that is called looks at the `Authorization` header. -/
structure AuthBlind (lib : Library T) : Prop where
  send : ∀ request, lib.send request = lib.send request.plain
  rewindBody : ∀ request, lib.rewindBody request = lib.rewindBody request.plain
  extractCookiesToSession : ∀ request, lib.extractCookiesToSession request = lib.extractCookiesToSession request.plain
  extractCookiesToJar : ∀ jar request, lib.extractCookiesToJar jar request = lib.extractCookiesToJar jar request.plain
  getCookieHeader : ∀ jar request, lib.getCookieHeader jar request = lib.getCookieHeader jar request.plain
  resolveProxies : ∀ request, lib.resolveProxies request = lib.resolveProxies request.plain
  prepareAuth : ∀ request auth, (lib.prepareAuth request auth).plain = (lib.prepareAuth request.plain auth).plain

theorem plain_purge (request : PreparedRequest T) : (purge request).plain = purge request.plain := by
  simp only [PreparedRequest.plain, purge, purgedHeaders, List.foldl_cons, List.foldl_nil, PreparedRequest.mk.injEq,
    true_and, and_true]
  rw [Headers.pop_comm, Headers.pop_comm _ (text "Content-Type"), Headers.pop_comm _ (text "Content-Length")]

theorem plain_prepareCookies (hblind : AuthBlind lib) (request : PreparedRequest T) (jar : T.Jar) :
    (prepareCookies lib request jar).plain = prepareCookies lib request.plain jar := by
  unfold prepareCookies
  simp only
  rw [hblind.getCookieHeader jar { request with cookies := jar }]
  have hplain : { request.plain with cookies := jar } = PreparedRequest.plain { request with cookies := jar } := rfl
  rw [hplain]
  cases lib.getCookieHeader jar (PreparedRequest.plain { request with cookies := jar }) with
  | none => rfl
  | some header =>
      simp only [PreparedRequest.plain, PreparedRequest.mk.injEq, true_and, and_true]
      exact Headers.pop_set_ne (by decide) _ _

theorem plain_rebuildCookies (hblind : AuthBlind lib) (jar : T.Jar) (prepared request : PreparedRequest T)
    (response : Response T) :
    (rebuildCookies lib jar prepared request response).plain =
      rebuildCookies lib jar prepared.plain request.plain response := by
  unfold rebuildCookies
  simp only
  rw [plain_prepareCookies hblind, hblind.extractCookiesToJar _ request]
  congr 1
  simp only [PreparedRequest.plain, PreparedRequest.mk.injEq, true_and, and_true]
  exact Headers.pop_comm _ _ _

theorem plain_rebuildProxies (hblind : AuthBlind lib) (prepared : PreparedRequest T) (proxies : Option Proxies) :
    (rebuildProxies lib session prepared proxies).1.plain = (rebuildProxies lib session prepared.plain proxies).1 ∧
    (rebuildProxies lib session prepared proxies).2 = (rebuildProxies lib session prepared.plain proxies).2 := by
  refine ⟨?_, by simp only [rebuildProxies, hblind.resolveProxies prepared]⟩
  unfold rebuildProxies
  rw [hblind.resolveProxies prepared]
  simp only [PreparedRequest.plain, PreparedRequest.mk.injEq, true_and, and_true]
  rw [Headers.pop_comm _ (text "Authorization")]
  exact Headers.pop_setIf_ne (by decide) _ _ _

theorem plain_netrcAuth (hblind : AuthBlind lib) (prepared : PreparedRequest T) :
    (netrcAuth lib session prepared).plain = (netrcAuth lib session prepared.plain).plain := by
  unfold netrcAuth
  rw [show prepared.plain.url = prepared.url from rfl]
  cases (if session.trustEnv then lib.getNetrcAuth prepared.url else none) with
  | none => exact (plain_plain prepared).symm
  | some auth => exact hblind.prepareAuth prepared auth

theorem plain_rebuildAuth (hblind : AuthBlind lib) (prepared : PreparedRequest T) (response : Response T) :
    (rebuildAuth lib session strips prepared response).plain = (netrcAuth lib session prepared.plain).plain := by
  unfold rebuildAuth
  simp only
  split
  · rfl
  · exact plain_netrcAuth hblind prepared

theorem plain_purgeUnless (preserve : Prop) [Decidable preserve] (request : PreparedRequest T) :
    (if preserve then purge request else request).plain = if preserve then purge request.plain else request.plain := by
  split
  · exact plain_purge request
  · rfl

/-- A frame without the `Authorization` header of its request. -/
def Frame.plain (frame : Frame T) : Frame T := { frame with req := frame.req.plain }

theorem Frame.eq_of_plain {frame other : Frame T} (h : frame.plain = other.plain) :
    frame.resp = other.resp ∧ frame.url = other.url ∧ frame.previousFragment = other.previousFragment ∧
      frame.hist = other.hist := by
  obtain ⟨hresp, -, hurl, hfragment, hhist, -⟩ := Frame.mk.inj h
  exact ⟨hresp, hurl, hfragment, hhist⟩

theorem plain_unauthenticatedHop (hblind : AuthBlind lib) (frame : Frame T) (url : Bytes) (jar : T.Jar) :
    (unauthenticatedHop lib session frame url jar).plain = unauthenticatedHop lib session frame.plain url jar := by
  unfold unauthenticatedHop
  simp only
  rw [(plain_rebuildProxies hblind _ _).1, plain_rebuildCookies hblind, plain_purgeUnless]
  rfl

theorem hopRequest_plain (hblind : AuthBlind lib) (frame : Frame T) (url : Bytes) (jar : T.Jar) :
    (hopRequest lib session strips frame url jar).1.plain =
      (netrcAuth lib session (unauthenticatedHop lib session frame.plain url jar)).plain := by
  rw [hopRequest_eq, plain_rebuildAuth hblind, plain_unauthenticatedHop hblind]

theorem hopProxies_plain (hblind : AuthBlind lib) (strips strips' : Bytes → Bytes → Bool) (frame : Frame T) (url : Bytes)
    (jar : T.Jar) :
    (hopRequest lib session strips frame url jar).2 = (hopRequest lib session strips' frame.plain url jar).2 := by
  unfold hopRequest
  simp only
  rw [(plain_rebuildProxies hblind _ _).2, plain_rebuildCookies hblind, plain_purgeUnless]
  rfl

/-! ### Runs that agree but for the credentials -/

def Event.plain : Event T → Event T
  | .processed response history => .processed response history
  | .prepared previous request proxies => .prepared previous request.plain proxies
  | .sent request proxies => .sent request.plain proxies

def Yielded.plain : Yielded T → Yielded T
  | .request prepared => .request prepared.plain
  | .response answer => .response answer

/-- An answer without the `Authorization` header of the request it yields. -/
def Next.plain : Next T → Next T
  | .value yielded => .value yielded.plain
  | .stopIteration => .stopIteration
  | .raised error => .raised error

/-- A log without the `Authorization` headers of its requests. -/
def plainLog (log : List (Event T)) : List (Event T) := log.map Event.plain

/-- The same world, and the same log but for the credentials. -/
def SameEnv (env other : Env T) : Prop := env.world = other.world ∧ plainLog env.log = plainLog other.log

theorem record_twin {event other : Event T} (h : event.plain = other.plain) :
    Effect.Twin SameEnv Eq (record event) (record other) := by
  refine .modify fun env env' henv => ⟨henv.1, ?_⟩
  simp only [plainLog, List.map_append, List.map_cons, List.map_nil, h]
  exact congrArg (· ++ [other.plain]) henv.2

theorem call_twin {α : Type} (f : T.World → Except Exception α × T.World) :
    Effect.Twin SameEnv Eq (call f) (call f) := by
  intro env env' henv
  rw [call, call, henv.1]
  cases f env'.world with
  | mk result world =>
      cases result with
      | ok => exact ⟨rfl, rfl, henv.2⟩
      | error => exact ⟨rfl, rfl, henv.2⟩

theorem contentOrFallback_twin (lib : Library T) (response : Response T) :
    Effect.Twin SameEnv Eq (contentOrFallback lib response) (contentOrFallback lib response) := by
  intro env env' henv
  rw [contentOrFallback, contentOrFallback, henv.1]
  cases lib.content response env'.world with
  | mk result world =>
      cases result with
      | ok => exact ⟨rfl, rfl, henv.2⟩
      | error exception =>
          simp only
          split
          · exact call_twin _ _ _ ⟨rfl, henv.2⟩
          · exact ⟨rfl, rfl, henv.2⟩

theorem liftPy_twin {α : Type} (result : Except Exception α) : Effect.Twin SameEnv Eq (liftPy (T := T) result) (liftPy result) := by
  cases result with
  | ok value => exact .pure rfl
  | error exception => exact .fail _

theorem isRewindable_plain (prepared : PreparedRequest T) : isRewindable prepared.plain = isRewindable prepared := by
  simp only [isRewindable, PreparedRequest.plain]
  rw [Headers.contains_pop_ne (by decide), Headers.contains_pop_ne (by decide)]

theorem rewindIfNeeded_plain (hblind : AuthBlind lib) (prepared : PreparedRequest T) :
    rewindIfNeeded lib prepared = rewindIfNeeded lib prepared.plain := by
  rw [rewindIfNeeded, rewindIfNeeded, isRewindable_plain, hblind.rewindBody]

theorem rewindIfNeeded_twin (lib : Library T) (prepared : PreparedRequest T) :
    Effect.Twin SameEnv Eq (rewindIfNeeded lib prepared) (rewindIfNeeded lib prepared) := by
  unfold rewindIfNeeded
  split
  · exact call_twin _
  · exact .pure rfl

/-- What a turn returns, the credentials aside. -/
def SameTurn (result other : Yielded T × Frame T) : Prop :=
  result.1.plain = other.1.plain ∧ result.2.plain = other.2.plain

theorem finishTurn_twin (hblind : AuthBlind lib) {frame other : Frame T} (hframe : frame.plain = other.plain)
    (target : Bytes × Bytes) {hop hop' : PreparedRequest T × Proxies} (hrequest : hop.1.plain = hop'.1.plain)
    (hproxies : hop.2 = hop'.2) :
    Effect.Twin SameEnv SameTurn (finishTurn lib yieldRequests frame target hop)
      (finishTurn lib yieldRequests other target hop') := by
  obtain ⟨hresp, -, -, hhist⟩ := Frame.eq_of_plain hframe
  unfold finishTurn
  rw [hresp, hhist, hproxies, rewindIfNeeded_plain hblind hop.1, hrequest, ← rewindIfNeeded_plain hblind]
  refine .bind (record_twin (congrArg (Event.prepared _ · _) hrequest)) fun _ _ _ => ?_
  refine .bind (rewindIfNeeded_twin lib _) fun _ _ _ => ?_
  split
  · refine .pure ⟨congrArg Yielded.request hrequest, ?_⟩
    simp only [Frame.plain, hrequest]
  · refine .bind (record_twin (congrArg (Event.sent · _) hrequest)) fun _ _ _ => ?_
    rw [hblind.send hop.1, hrequest, ← hblind.send]
    refine .bind (call_twin _) fun resp _ hresp => ?_
    subst hresp
    rw [hblind.extractCookiesToSession hop.1, hrequest, ← hblind.extractCookiesToSession]
    refine .bind (.modify fun env env' henv => ⟨congrArg (lib.extractCookiesToSession _ _) henv.1, henv.2⟩) fun _ _ _ => ?_
    refine .bind (liftPy_twin _) fun url _ hurl => ?_
    subst hurl
    refine .pure ⟨rfl, ?_⟩
    simp only [Frame.plain, hrequest]

theorem resolveRedirectsTurn_twin (hblind : AuthBlind lib) {frame other : Frame T} (hframe : frame.plain = other.plain)
    (url : Bytes) :
    Effect.Twin SameEnv SameTurn (resolveRedirectsTurn lib session strips yieldRequests frame url)
      (resolveRedirectsTurn lib session strips' yieldRequests other url) := by
  obtain ⟨hresp, -, hfragment, hhist⟩ := Frame.eq_of_plain hframe
  rw [resolveRedirectsTurn_eq, resolveRedirectsTurn_eq, hresp, hhist, hfragment]
  refine .bind (record_twin rfl) fun _ _ _ => ?_
  refine .bind (contentOrFallback_twin lib _) fun _ _ _ => ?_
  split
  · exact .fail _
  · refine .bind (call_twin _) fun _ _ _ => ?_
    refine .bind .read fun env env' henv => ?_
    rw [henv.1]
    refine finishTurn_twin hblind hframe _ ?_ ?_
    · rw [hopRequest_plain hblind, hopRequest_plain hblind, hframe]
    · rw [hopProxies_plain hblind strips strips' frame, hopProxies_plain hblind strips' strips' other, hframe]

/-- Generators that stand at the same place, the credentials aside. -/
def SameGenerator (lib : Library T) (generator other : Generator T) : Prop :=
  (frameOf lib generator).map (Option.map Frame.plain) = (frameOf lib other).map (Option.map Frame.plain)

theorem turned_same {result other : Except (Raised T) (Yielded T × Frame T)} (h : Effect.Alike SameTurn result other) :
    (nextOf result).plain = (nextOf other).plain ∧ SameGenerator lib (generatorOf result) (generatorOf other) := by
  cases result with
  | error error =>
      cases other with
      | error error' =>
          obtain rfl : error = error' := h
          exact ⟨rfl, rfl⟩
      | ok => exact h.elim
  | ok result =>
      cases other with
      | error => exact h.elim
      | ok other =>
          obtain ⟨hvalue, hframe⟩ : SameTurn result other := h
          exact ⟨congrArg Next.value hvalue, congrArg (Except.ok ∘ some) hframe⟩

theorem resume_same (hblind : AuthBlind lib) {generator other : Generator T} (h : SameGenerator lib generator other)
    {env env' : Env T} (henv : SameEnv env env') :
    (generator.resume lib session strips yieldRequests env).1.plain =
      (other.resume lib session strips' yieldRequests env').1.plain ∧
    SameGenerator lib (generator.resume lib session strips yieldRequests env).2.1
      (other.resume lib session strips' yieldRequests env').2.1 ∧
    SameEnv (generator.resume lib session strips yieldRequests env).2.2
      (other.resume lib session strips' yieldRequests env').2.2 := by
  rw [resume_eq, resume_eq]
  unfold SameGenerator at h
  cases hframe : frameOf lib generator with
  | error exception =>
      cases hother : frameOf lib other with
      | error exception' =>
          rw [hframe, hother] at h
          obtain rfl := Except.error.inj h
          exact ⟨rfl, rfl, henv⟩
      | ok => simp [hframe, hother, Except.map] at h
  | ok frame =>
      cases hother : frameOf lib other with
      | error => simp [hframe, hother, Except.map] at h
      | ok frame' =>
          rw [hframe, hother] at h
          have h : frame.map Frame.plain = frame'.map Frame.plain := Except.ok.inj h
          cases frame with
          | none =>
              obtain rfl : frame' = none := by simpa using h.symm
              exact ⟨rfl, rfl, henv⟩
          | some frame =>
              cases frame' with
              | none => cases h
              | some frame' =>
                  have h : frame.plain = frame'.plain := Option.some.inj h
                  have hurl : frame.url = frame'.url := (Frame.eq_of_plain h).2.1
                  simp only [hurl]
                  cases frame'.url with
                  | none => exact ⟨by trivial, rfl, henv⟩
                  | some url =>
                      by_cases hempty : url = []
                      · simp only [if_pos hempty]
                        exact ⟨by trivial, rfl, henv⟩
                      · simp only [if_neg hempty]
                        have htwin : Effect.Twin SameEnv SameTurn
                            (resolveRedirectsTurn lib session strips yieldRequests frame url)
                            (resolveRedirectsTurn lib session strips' yieldRequests frame' url) :=
                          resolveRedirectsTurn_twin hblind h url
                        obtain ⟨hresult, hend⟩ := htwin env env' henv
                        obtain ⟨hanswer, hgenerator⟩ := turned_same hresult
                        exact ⟨hanswer, hgenerator, hend⟩

theorem body_same (hblind : AuthBlind lib) (generator : Generator T) (env : Env T) (calls : List Unit) :
    ((bodyObject lib session strips yieldRequests).observe (generator, env) calls).map Next.plain =
      ((bodyObject lib session strips' yieldRequests).observe (generator, env) calls).map Next.plain ∧
    SameEnv ((bodyObject lib session strips yieldRequests).after (generator, env) calls).2
      ((bodyObject lib session strips' yieldRequests).after (generator, env) calls).2 := by
  have hcall : ∀ (s t : Generator T × Env T) (input : Unit), SameGenerator lib s.1 t.1 ∧ SameEnv s.2 t.2 →
      ((bodyObject lib session strips yieldRequests).call s input).1.plain =
        ((bodyObject lib session strips' yieldRequests).call t input).1.plain ∧
      SameGenerator lib ((bodyObject lib session strips yieldRequests).call s input).2.1
        ((bodyObject lib session strips' yieldRequests).call t input).2.1 ∧
      SameEnv ((bodyObject lib session strips yieldRequests).call s input).2.2
        ((bodyObject lib session strips' yieldRequests).call t input).2.2 :=
    fun s t _ hst => resume_same hblind hst.1 hst.2
  obtain ⟨hanswers, hend⟩ := Reactive.forall₂_of_related _ (fun answer answer' : Next T => answer.plain = answer'.plain)
    hcall (s := (generator, env)) (t := (generator, env)) ⟨rfl, rfl, rfl⟩ calls
  refine ⟨?_, hend.2⟩
  rw [← List.forall₂_eq_eq_eq, List.forall₂_map_left_iff, List.forall₂_map_right_iff]
  exact hanswers

/-! ### Runs that strip alike -/

/-- The part of a turn before the next request is prepared. -/
def leaveResponse (lib : Library T) (session : Session) (frame : Frame T) : Py T Unit := do
  record (.processed frame.resp frame.hist)
  contentOrFallback lib frame.resp
  if session.maxRedirects ≤ frame.hist.length then Effect.fail (tooManyRedirects session frame.resp)
  else call (lib.close frame.resp)

theorem resolveRedirectsTurn_leave (frame : Frame T) (url : Bytes) :
    resolveRedirectsTurn lib session strips yieldRequests frame url = (do
      leaveResponse lib session frame
      let env ← Effect.read
      finishTurn lib yieldRequests frame (redirectUrl lib frame.resp url frame.previousFragment)
        (hopRequest lib session strips frame url (lib.sessionCookies env.world))) := by
  rw [resolveRedirectsTurn_eq, leaveResponse, Effect.bind_assoc]
  congr 1
  funext _
  rw [Effect.bind_assoc]
  congr 1
  funext _
  split
  · rfl
  · rfl

/-- Where a request is prepared that should be stripped of its `Authorization` header, the host changes. -/
def StripsByHostAt (lib : Library T) (session : Session) (s : Generator T × Env T) : Prop :=
  ∀ frame url, frameOf lib s.1 = .ok (some frame) → frame.url = some url → url ≠ [] →
    (leaveResponse lib session frame s.2).1 = .ok () → frame.req.headers.contains (text "Authorization") = true →
    shouldStripAuth lib frame.resp.requestUrl (redirectUrl lib frame.resp url frame.previousFragment).1 = true →
    (lib.urlparse frame.resp.requestUrl).hostname ≠
      (lib.urlparse (redirectUrl lib frame.resp url frame.previousFragment).1).hostname

theorem hopRequest_agree {frame : Frame T} {url : Bytes}
    (hhost : frame.req.headers.contains (text "Authorization") = true →
      shouldStripAuth lib frame.resp.requestUrl (redirectUrl lib frame.resp url frame.previousFragment).1 = true →
      (lib.urlparse frame.resp.requestUrl).hostname ≠
        (lib.urlparse (redirectUrl lib frame.resp url frame.previousFragment).1).hostname) (jar : T.Jar) :
    hopRequest lib session (shouldStripAuth lib) frame url jar = hopRequest lib session (stripsAuthValue lib) frame url jar := by
  refine Prod.ext ?_ rfl
  rw [hopRequest_eq, hopRequest_eq]
  have hauth := unauthenticatedHop_authorization lib session frame url jar
  have hurl := unauthenticatedHop_url lib session frame url jar
  generalize unauthenticatedHop lib session frame url jar = prepared at hauth hurl
  have hcontains : prepared.headers.contains (text "Authorization") = frame.req.headers.contains (text "Authorization") := by
    rw [Headers.contains_eq_isSome, Headers.contains_eq_isSome]
    exact congrArg Option.isSome hauth
  rw [← hcontains, ← hurl] at hhost
  unfold rebuildAuth
  cases hheader : prepared.headers.contains (text "Authorization") with
  | false => simp
  | true =>
      have hstrips : shouldStripAuth lib frame.resp.requestUrl prepared.url =
          stripsAuthValue lib frame.resp.requestUrl prepared.url := by
        apply Bool.eq_iff_iff.mpr
        constructor
        · intro hshould
          simpa [stripsAuthValue] using hhost hheader hshould
        · exact shouldStripAuth_of_host
      rw [hstrips]

theorem resolveRedirectsTurn_agree {frame : Frame T} {url : Bytes} {env : Env T}
    (hhops : (leaveResponse lib session frame env).1 = .ok () → ∀ jar,
      hopRequest lib session strips frame url jar = hopRequest lib session strips' frame url jar) :
    resolveRedirectsTurn lib session strips yieldRequests frame url env =
      resolveRedirectsTurn lib session strips' yieldRequests frame url env := by
  rw [resolveRedirectsTurn_leave, resolveRedirectsTurn_leave]
  cases hleave : leaveResponse lib session frame env with
  | mk result env' =>
      cases result with
      | error error => rw [Effect.bind_error hleave, Effect.bind_error hleave]
      | ok =>
          have hread : (Effect.read : Py T (Env T)) env' = (.ok env', env') := rfl
          rw [Effect.bind_ok hleave, Effect.bind_ok hleave, Effect.bind_ok hread, Effect.bind_ok hread,
            hhops (congrArg Prod.fst hleave)]

theorem resume_agree {s : Generator T × Env T} (h : StripsByHostAt lib session s) :
    s.1.resume lib session (shouldStripAuth lib) yieldRequests s.2 =
      s.1.resume lib session (stripsAuthValue lib) yieldRequests s.2 := by
  rw [resume_eq, resume_eq]
  cases hframe : frameOf lib s.1 with
  | error exception => rfl
  | ok frame =>
      cases frame with
      | none => rfl
      | some frame =>
          cases hurl : frame.url with
          | none => simp only [hurl]
          | some url =>
              by_cases hempty : url = []
              · simp only [hurl, if_pos hempty]
              · simp only [hurl, if_neg hempty]
                rw [resolveRedirectsTurn_agree fun hleave =>
                  hopRequest_agree (h frame url hframe hurl hempty hleave)]

/-! ### The two loops side by side -/

/-- The answers to some calls of the generator, and what they leave. -/
def generatorRun (lib : Library T) (session : Session) (strips : Bytes → Bytes → Bool) (yieldRequests : Bool)
    (response : Response T) (request : PreparedRequest T) (proxies : Option Proxies) (world : T.World)
    (calls : List Unit) : List (Next T) × Env T :=
  ((generatorObject lib session strips yieldRequests).observe (.created response request proxies, ⟨world, []⟩) calls,
    ((generatorObject lib session strips yieldRequests).after (.created response request proxies, ⟨world, []⟩) calls).2)

def cursorRun (lib : Library T) (session : Session) (yieldRequests : Bool) (response : Response T)
    (request : PreparedRequest T) (proxies : Option Proxies) (world : T.World) (calls : List Unit) :
    List (Next T) × Env T :=
  ((cursorObject lib session).observe (fromInvocation response request proxies yieldRequests, ⟨world, []⟩) calls,
    ((cursorObject lib session).after (fromInvocation response request proxies yieldRequests, ⟨world, []⟩) calls).2)

/-- The same for the body of the generator. -/
def bodyRun (lib : Library T) (session : Session) (strips : Bytes → Bytes → Bool) (yieldRequests : Bool)
    (response : Response T) (request : PreparedRequest T) (proxies : Option Proxies) (world : T.World)
    (calls : List Unit) : List (Next T) × Env T :=
  ((bodyObject lib session strips yieldRequests).observe (.created response request proxies, ⟨world, []⟩) calls,
    ((bodyObject lib session strips yieldRequests).after (.created response request proxies, ⟨world, []⟩) calls).2)

theorem cursorRun_eq (lib : Library T) (session : Session) (yieldRequests : Bool) (response : Response T)
    (request : PreparedRequest T) (proxies : Option Proxies) (world : T.World) :
    cursorRun lib session yieldRequests response request proxies world =
      bodyRun lib session (stripsAuthValue lib) yieldRequests response request proxies world := by
  funext calls
  obtain ⟨hanswers, hend⟩ := cursor_eq_body lib session yieldRequests response request proxies ⟨world, []⟩ calls
  exact Prod.ext hanswers hend

theorem generatorRun_eq (lib : Library T) (session : Session) (strips : Bytes → Bytes → Bool) (yieldRequests : Bool)
    (response : Response T) (request : PreparedRequest T) (proxies : Option Proxies) (world : T.World) (calls : List Unit) :
    generatorRun lib session strips yieldRequests response request proxies world calls =
      ((bodyRun lib session strips yieldRequests response request proxies world calls).1.map Next.guarded,
        (bodyRun lib session strips yieldRequests response request proxies world calls).2) := by
  obtain ⟨hanswers, hend⟩ := generator_guards lib session strips yieldRequests
    (.created response request proxies, ⟨world, []⟩) calls
  exact Prod.ext hanswers (congrArg (fun s : Generator T × Env T => s.2) hend)

/-- A run sends at most `max_redirects` requests, and raises `TooManyRedirects` exactly at the limit. -/
structure WithinLimit (lib : Library T) (session : Session) (response : Response T) (request : PreparedRequest T)
    (run : List Unit → List (Next T) × Env T) : Prop where
  bounded : ∀ calls, Bounded session (run calls).2.log
  exceeds : ∀ calls, ∃ answer, (run (calls ++ [()])).1 = (run calls).1 ++ [answer] ∧
    ExceedsAtLimit lib session (pendingAfter lib response request (run calls).1) (run calls).1 (run calls).2.world answer

section Limits

variable (lib : Library T) (session : Session) (strips : Bytes → Bytes → Bool) (yieldRequests : Bool) (response : Response T)
  (request : PreparedRequest T) (proxies : Option Proxies) (world : T.World)

theorem bodyRun_withinLimit : WithinLimit lib session response request
    (bodyRun lib session strips yieldRequests response request proxies world) := by
  refine ⟨body_bounded response request proxies world, fun calls => ⟨_, Reactive.observe_append _ _ _ _, ?_⟩⟩
  exact body_exceedsAtLimit response request proxies world calls

theorem generatorRun_withinLimit : WithinLimit lib session response request
    (generatorRun lib session strips yieldRequests response request proxies world) := by
  obtain ⟨hbounded, hexceeds⟩ := bodyRun_withinLimit lib session strips yieldRequests response request proxies world
  constructor
  · intro calls
    rw [generatorRun_eq]
    exact hbounded calls
  · intro calls
    obtain ⟨answer, hanswers, hlimit⟩ := hexceeds calls
    refine ⟨answer.guarded, ?_, ?_⟩
    · rw [generatorRun_eq, generatorRun_eq, hanswers, List.map_append, List.map_singleton]
    · rw [generatorRun_eq]
      simp only [pendingAfter_guarded]
      exact exceedsAtLimit_guarded.mpr hlimit

theorem generatorRun_calm {calls : List Unit}
    (hcalm : ∀ i < calls.length, CalmAt lib session strips yieldRequests
      ((generatorObject lib session strips yieldRequests).after (.created response request proxies, ⟨world, []⟩) (calls.take i))) :
    generatorRun lib session strips yieldRequests response request proxies world calls =
      bodyRun lib session strips yieldRequests response request proxies world calls := by
  have hcall : ∀ (s : Generator T × Env T) (input : Unit), CalmAt lib session strips yieldRequests s →
      (generatorObject lib session strips yieldRequests).call s input =
        (bodyObject lib session strips yieldRequests).call s input :=
    fun s _ hs => next_calm lib session strips yieldRequests hs
  obtain ⟨hanswers, hend⟩ := Reactive.run_eq_of_agree _ hcall hcalm
  rw [generatorRun, bodyRun, hanswers, hend]

end Limits

/-- Two runs with the same answers, log and world, the `Authorization` header of the requests aside. -/
def SameRun (run other : List (Next T) × Env T) : Prop :=
  run.1.map Next.plain = other.1.map Next.plain ∧ SameEnv run.2 other.2

theorem cursor_refines_generator (lib : Library T) (session : Session) (yieldRequests : Bool) (response : Response T)
    (request : PreparedRequest T) (proxies : Option Proxies) (world : T.World) :
    (∀ calls : List Unit,
      (∀ i < calls.length, CalmAt lib session (shouldStripAuth lib) yieldRequests
        ((generatorObject lib session (shouldStripAuth lib) yieldRequests).after
          (.created response request proxies, ⟨world, []⟩) (calls.take i))) →
      (AuthBlind lib ∨ ∀ i < calls.length, StripsByHostAt lib session
        ((generatorObject lib session (shouldStripAuth lib) yieldRequests).after
          (.created response request proxies, ⟨world, []⟩) (calls.take i))) →
      SameRun (cursorRun lib session yieldRequests response request proxies world calls)
        (generatorRun lib session (shouldStripAuth lib) yieldRequests response request proxies world calls)) ∧
    WithinLimit lib session response request (cursorRun lib session yieldRequests response request proxies world) ∧
    WithinLimit lib session response request
      (generatorRun lib session (shouldStripAuth lib) yieldRequests response request proxies world) := by
  rw [cursorRun_eq]
  refine ⟨fun calls hcalm hcondition => ?_, bodyRun_withinLimit lib session _ yieldRequests response request proxies world,
    generatorRun_withinLimit lib session _ yieldRequests response request proxies world⟩
  rw [generatorRun_calm lib session _ yieldRequests response request proxies world hcalm]
  obtain hblind | hhosts := hcondition
  · exact body_same hblind (.created response request proxies) ⟨world, []⟩ calls
  · have hcall : ∀ (s : Generator T × Env T) (input : Unit), StripsByHostAt lib session s →
        (bodyObject lib session (shouldStripAuth lib) yieldRequests).call s input =
          (bodyObject lib session (stripsAuthValue lib) yieldRequests).call s input :=
      fun s _ hs => resume_agree hs
    have hbody (i : Nat) (hi : i < calls.length) : StripsByHostAt lib session
        ((bodyObject lib session (shouldStripAuth lib) yieldRequests).after
          (.created response request proxies, ⟨world, []⟩) (calls.take i)) := by
      rw [← (generator_guards lib session (shouldStripAuth lib) yieldRequests _ (calls.take i)).2]
      exact hhosts i hi
    obtain ⟨hanswers, hend⟩ := Reactive.run_eq_of_agree _ hcall hbody
    rw [bodyRun, bodyRun, hanswers, hend]
    exact ⟨rfl, rfl, rfl⟩

theorem siteLibrary_authBlind : AuthBlind siteLibrary :=
  ⟨fun _ => rfl, fun _ => rfl, fun _ => rfl, fun _ _ => rfl, fun _ _ => rfl, fun _ => rfl,
    fun request _ => (plain_plain request).symm⟩

theorem siteLibrary_neverStops : NeverStops siteLibrary :=
  ⟨(fun _ heq => by cases heq), (fun _ _ heq => by cases heq), (fun _ _ heq => by cases heq), (fun _ _ heq => by cases heq),
    (fun _ _ _ heq => by cases heq), fun _ _ heq => by cases heq⟩

theorem cursor_refines_downgrade :
    SameRun (cursorRun siteLibrary ⟨30, false⟩ false (siteRedirect "http://example.com/b") siteRequest none () [(), ()])
      (generatorRun siteLibrary ⟨30, false⟩ (shouldStripAuth siteLibrary) false (siteRedirect "http://example.com/b")
        siteRequest none () [(), ()]) :=
  (cursor_refines_generator siteLibrary ⟨30, false⟩ false (siteRedirect "http://example.com/b") siteRequest none ()).1
    [(), ()] (fun _ _ => siteLibrary_neverStops.calmAt _) (.inl siteLibrary_authBlind)

/-- A site that answers 401 to requests without credentials. -/
def guardedLibrary : Library siteObjects :=
  { siteLibrary with
    send := fun request _ world =>
      (.ok ⟨if request.headers.contains (text "Authorization") then 200 else 401, request.url, none, request.url, ()⟩,
        world) }

def answerStatus (answer : Next T) : Option Nat :=
  match answer with
  | .value (.response response) => some response.statusCode
  | _ => none

/-- Behind a redirect from `https` to `http` on the same host, the cursor gets another response than the generator. -/
theorem cursor_downgrade_yields_other :
    (cursorRun guardedLibrary ⟨30, false⟩ false (siteRedirect "http://example.com/b") siteRequest none () [()]).1.map
      answerStatus = [some 200] ∧
    (generatorRun guardedLibrary ⟨30, false⟩ (shouldStripAuth guardedLibrary) false (siteRedirect "http://example.com/b")
      siteRequest none () [()]).1.map answerStatus = [some 401] ∧
    ¬SameRun (cursorRun guardedLibrary ⟨30, false⟩ false (siteRedirect "http://example.com/b") siteRequest none () [()])
      (generatorRun guardedLibrary ⟨30, false⟩ (shouldStripAuth guardedLibrary) false
        (siteRedirect "http://example.com/b") siteRequest none () [()]) := by
  have hcursor : (cursorRun guardedLibrary ⟨30, false⟩ false (siteRedirect "http://example.com/b") siteRequest none ()
      [()]).1.map answerStatus = [some 200] := by decide
  have hgenerator : (generatorRun guardedLibrary ⟨30, false⟩ (shouldStripAuth guardedLibrary) false
      (siteRedirect "http://example.com/b") siteRequest none () [()]).1.map answerStatus = [some 401] := by decide
  refine ⟨hcursor, hgenerator, fun hsame => ?_⟩
  have hplain : (answerStatus ∘ Next.plain : Next siteObjects → Option Nat) = answerStatus := by
    funext answer
    cases answer with
    | value value => cases value <;> rfl
    | stopIteration | raised => rfl
  have hstatus := congrArg (List.map answerStatus) hsame.1
  rw [List.map_map, List.map_map, hplain, hcursor, hgenerator] at hstatus
  exact absurd hstatus (by decide)

end RequestsNative.Python
