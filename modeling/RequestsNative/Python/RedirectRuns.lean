import RequestsNative.Lib.Reactive
import RequestsNative.Python.Redirects

/-!
# Runs of the redirect loop

The cursor makes the calls of the generator in the same order, with two differences: whether a redirect strips the
`Authorization` header, and what becomes of a `StopIteration` that a call raises. So it is compared with the body of the
generator that strips as the cursor does, and agrees with it exactly; what else is said about the loop is said about that
body, whatever it strips.
-/

namespace RequestsNative.Python

open Lib (Effect Reactive)

variable {T : Objects} (lib : Library T) (session : Session) (strips : Bytes → Bytes → Bool) (yieldRequests : Bool)

/-- The body of the generator as an object that answers `next`. -/
def bodyObject : Reactive (Generator T × Env T) Unit (Next T) where
  call s _ := s.1.resume lib session strips yieldRequests s.2

/-- The generator as an object that answers `next`. -/
def generatorObject : Reactive (Generator T × Env T) Unit (Next T) where
  call s _ :=
    let (next, generator, env) := s.1.next lib session strips yieldRequests s.2
    (next, generator, env)

def cursorObject : Reactive (SessionRedirectCursor T × Env T) Unit (Next T) where
  call s _ :=
    let (next, cursor, env) := s.1.advance lib session s.2
    (next, cursor, env)

/-! ### The cursor is the body that compares hosts -/

theorem rebuildMethodValue_eq (prepared : PreparedRequest T) (response : Response T) :
    rebuildMethodValue prepared response = rebuildMethod prepared response := by
  unfold rebuildMethodValue rebuildMethod
  by_cases h303 : response.statusCode = 303
  · simp [h303]
  · by_cases h302 : response.statusCode = 302
    · simp [h302]
    · by_cases h301 : response.statusCode = 301 <;> simp [h303, h302, h301]

theorem advanceUrl_eq (response : Response T) (url previousFragment : Bytes) :
    advanceUrl lib response url previousFragment = redirectUrl lib response url previousFragment := by
  unfold advanceUrl redirectUrl
  simp only
  generalize lib.urlparse _ = parsed
  by_cases hfragment : parsed.fragment = []
  · by_cases hprevious : previousFragment = [] <;> simp [hfragment, hprevious]
  · simp [hfragment]

theorem rebuildAuthValue_eq (prepared : PreparedRequest T) (response : Response T) :
    rebuildAuthValue lib session prepared response = rebuildAuth lib session (stripsAuthValue lib) prepared response := by
  unfold rebuildAuthValue rebuildAuth
  by_cases hauth : prepared.headers.contains (text "Authorization") = true
  · simp [hauth]
  · simp [hauth]

/-- The cursor's state at a `yield` of the generator. -/
def stateOf (frame : Frame T) : RedirectCursorState T :=
  { response := frame.resp, request := frame.req, proxies := frame.proxies, history := frame.hist,
    url := some frame.url, previousFragment := some frame.previousFragment, yieldRequests, created := false }

theorem advanceHop_twin (frame : Frame T) (url : Bytes) :
    Effect.Twin Eq (fun result expected => result = (.yield expected.1, stateOf yieldRequests expected.2))
      (advanceHop lib session (stateOf yieldRequests frame) url)
      (resolveRedirectsTurn lib session (stripsAuthValue lib) yieldRequests frame url) := by
  unfold advanceHop resolveRedirectsTurn
  simp only [stateOf, advanceUrl_eq, rebuildMethodValue_eq, rebuildAuthValue_eq]
  refine .bind (.refl _) fun _ _ _ => ?_
  refine .bind (.refl _) fun _ _ _ => ?_
  by_cases hmax : session.maxRedirects ≤ frame.hist.length
  · rw [if_pos hmax, if_pos hmax]
    exact .fail _
  rw [if_neg hmax, if_neg hmax]
  refine .bind (.refl _) fun _ _ _ => ?_
  refine .bind (.refl _) fun env _ henv => ?_
  subst henv
  have hpreserve : (!(frame.resp.statusCode == 307 || frame.resp.statusCode == 308)) =
      decide (frame.resp.statusCode ∉ [307, 308]) := by
    by_cases h307 : frame.resp.statusCode = 307
    · simp [h307]
    · by_cases h308 : frame.resp.statusCode = 308 <;> simp [h307, h308]
  simp only [hpreserve, decide_eq_true_eq]
  refine .bind (.refl _) fun _ _ _ => ?_
  refine .bind (.refl _) fun _ _ _ => ?_
  by_cases hyield : yieldRequests = true
  · rw [if_pos hyield, if_pos hyield]
    exact .pure rfl
  rw [if_neg hyield, if_neg hyield]
  refine .bind (.refl _) fun _ _ _ => ?_
  refine .bind (.refl _) fun resp _ hresp => ?_
  subst hresp
  refine .bind (.refl _) fun _ _ _ => ?_
  refine .bind (.refl _) fun target _ htarget => ?_
  subst htarget
  exact .pure rfl

/-- What `advance_state` returns beside what the generator does: it is done, or it yields and keeps the frame. -/
def Advances (result : RedirectAdvance T × RedirectCursorState T) : Option (Yielded T × Frame T) → Prop
  | none => result.1 = .done
  | some (value, frame) => result = (.yield value, stateOf yieldRequests frame)

theorem advanceState_twin (frame : Frame T) :
    Effect.Twin Eq (Advances yieldRequests) (advanceState lib session (stateOf yieldRequests frame))
      (resolveRedirectsLoop lib session (stripsAuthValue lib) yieldRequests frame) := by
  have hstart : advanceState lib session (stateOf yieldRequests frame) =
      frame.url.elim (pure (.done, { stateOf yieldRequests frame with url := none })) fun target =>
        if target = [] then pure (.done, { stateOf yieldRequests frame with url := none })
        else advanceHop lib session (stateOf yieldRequests frame) target := by
    obtain ⟨resp, req, url, previousFragment, hist, proxies⟩ := frame
    cases url <;> rfl
  rw [hstart, resolveRedirectsLoop]
  cases frame.url with
  | none => exact .pure rfl
  | some target =>
      by_cases hempty : target = []
      · simp only [Option.elim_some, if_pos hempty]
        exact .pure rfl
      · simp only [Option.elim_some, if_neg hempty]
        rw [← Effect.bind_pure (advanceHop lib session (stateOf yieldRequests frame) target)]
        refine .bind (advanceHop_twin lib session yieldRequests frame target) fun result expected hresult => ?_
        exact .pure hresult

theorem advanceState_created_twin (resp : Response T) (req : PreparedRequest T) (proxies : Option Proxies)
    (state : RedirectCursorState T) (hstate : (fromInvocation resp req proxies yieldRequests).state = some state) :
    Effect.Twin Eq (Advances yieldRequests) (advanceState lib session state)
      (resolveRedirects lib session (stripsAuthValue lib) yieldRequests (.created resp req proxies)) := by
  obtain rfl := Option.some.inj hstate
  have hstart : advanceState lib session
      { response := resp, request := req, proxies, history := [], url := none, previousFragment := none, yieldRequests,
        created := true } =
      liftPy (getRedirectTarget lib resp) >>= fun url => advanceState lib session (stateOf yieldRequests
        { resp, req, url, previousFragment := (lib.urlparse req.url).fragment, hist := [], proxies }) := by
    funext env
    cases htarget : getRedirectTarget lib resp with
    | ok url => simp only [advanceState, startState, htarget, if_true]; rfl
    | error exception => simp only [advanceState, startState, htarget, if_true]; rfl
  rw [hstart, resolveRedirects]
  refine .bind (.refl _) fun url _ hurl => ?_
  subst hurl
  exact advanceState_twin lib session yieldRequests _

/-- The cursor that stands where the generator stands. -/
def Corresponds (cursor : SessionRedirectCursor T) : Generator T → Prop
  | .created resp req proxies => cursor = fromInvocation resp req proxies yieldRequests
  | .suspended frame => cursor = ⟨false, some (stateOf yieldRequests frame), .live⟩
  | .finished => cursor.running = false ∧ cursor.state = none

theorem advance_of_twin {cursor : SessionRedirectCursor T} {state : RedirectCursorState T} {generator : Generator T}
    (hrunning : cursor.running = false) (hstate : cursor.state = some state)
    (htwin : Effect.Twin Eq (Advances yieldRequests) (advanceState lib session state)
      (resolveRedirects lib session (stripsAuthValue lib) yieldRequests generator)) (env : Env T) :
    (cursor.advance lib session env).1 = (generator.resume lib session (stripsAuthValue lib) yieldRequests env).1 ∧
    Corresponds yieldRequests (cursor.advance lib session env).2.1
      (generator.resume lib session (stripsAuthValue lib) yieldRequests env).2.1 ∧
    (cursor.advance lib session env).2.2 = (generator.resume lib session (stripsAuthValue lib) yieldRequests env).2.2 := by
  obtain ⟨hresult, henv⟩ := htwin env env rfl
  rw [SessionRedirectCursor.advance, if_neg (by simp [hrunning]), hstate, Generator.resume]
  simp only
  cases hadvance : advanceState lib session state env with
  | mk result env' =>
      cases hnext : resolveRedirects lib session (stripsAuthValue lib) yieldRequests generator env with
      | mk expected env'' =>
          rw [hadvance, hnext] at hresult henv
          obtain rfl : env' = env'' := henv
          cases result with
          | error error =>
              cases expected with
              | error error' =>
                  obtain rfl : error = error' := hresult
                  exact ⟨rfl, ⟨rfl, rfl⟩, rfl⟩
              | ok => exact hresult.elim
          | ok result =>
              cases expected with
              | error => exact hresult.elim
              | ok expected =>
                  cases expected with
                  | none =>
                      obtain ⟨advance, state'⟩ := result
                      obtain rfl : advance = .done := hresult
                      exact ⟨rfl, ⟨rfl, rfl⟩, rfl⟩
                  | some expected =>
                      obtain rfl : result = (.yield expected.1, stateOf yieldRequests expected.2) := hresult
                      exact ⟨rfl, rfl, rfl⟩

theorem advance_corresponds {cursor : SessionRedirectCursor T} {generator : Generator T}
    (h : Corresponds yieldRequests cursor generator) (env : Env T) :
    (cursor.advance lib session env).1 = (generator.resume lib session (stripsAuthValue lib) yieldRequests env).1 ∧
    Corresponds yieldRequests (cursor.advance lib session env).2.1
      (generator.resume lib session (stripsAuthValue lib) yieldRequests env).2.1 ∧
    (cursor.advance lib session env).2.2 = (generator.resume lib session (stripsAuthValue lib) yieldRequests env).2.2 := by
  cases generator with
  | created resp req proxies =>
      obtain rfl : cursor = fromInvocation resp req proxies yieldRequests := h
      exact advance_of_twin lib session yieldRequests rfl rfl
        (advanceState_created_twin lib session yieldRequests resp req proxies _ rfl) env
  | suspended frame =>
      obtain rfl : cursor = ⟨false, some (stateOf yieldRequests frame), .live⟩ := h
      exact advance_of_twin lib session yieldRequests rfl rfl (advanceState_twin lib session yieldRequests frame) env
  | finished =>
      rw [SessionRedirectCursor.advance, if_neg (by simp [h.1]), h.2]
      exact ⟨rfl, ⟨rfl, rfl⟩, rfl⟩

/-- The cursor answers every list of calls as the body that compares hosts, with the same log and world. -/
theorem cursor_eq_body (response : Response T) (request : PreparedRequest T) (proxies : Option Proxies) (env : Env T)
    (calls : List Unit) :
    (cursorObject lib session).observe (fromInvocation response request proxies yieldRequests, env) calls =
      (bodyObject lib session (stripsAuthValue lib) yieldRequests).observe (.created response request proxies, env)
        calls ∧
    ((cursorObject lib session).after (fromInvocation response request proxies yieldRequests, env) calls).2 =
      ((bodyObject lib session (stripsAuthValue lib) yieldRequests).after (.created response request proxies, env)
        calls).2 := by
  have hcall : ∀ (s : SessionRedirectCursor T × Env T) (t : Generator T × Env T) (input : Unit),
      Corresponds yieldRequests s.1 t.1 ∧ s.2 = t.2 →
      ((cursorObject lib session).call s input).1 =
        ((bodyObject lib session (stripsAuthValue lib) yieldRequests).call t input).1 ∧
      Corresponds yieldRequests ((cursorObject lib session).call s input).2.1
        ((bodyObject lib session (stripsAuthValue lib) yieldRequests).call t input).2.1 ∧
      ((cursorObject lib session).call s input).2.2 =
        ((bodyObject lib session (stripsAuthValue lib) yieldRequests).call t input).2.2 := by
    intro s t input hst
    have hsame := advance_corresponds lib session yieldRequests hst.1 s.2
    rw [show t = (t.1, s.2) from Prod.ext rfl hst.2.symm]
    exact hsame
  have hrelated := Reactive.forall₂_of_related _ Eq hcall (s := (fromInvocation response request proxies yieldRequests, env))
    (t := (.created response request proxies, env)) ⟨rfl, rfl⟩ calls
  exact ⟨List.forall₂_eq_eq_eq ▸ hrelated.1, hrelated.2.2⟩

/-! ### What one turn of the loop can do -/

/-- The request and the proxies of the next hop. `jar` is the session's. -/
def hopRequest (frame : Frame T) (url : Bytes) (jar : T.Jar) : PreparedRequest T × Proxies :=
  let prepared := rebuildMethod { frame.req.copy with url := (redirectUrl lib frame.resp url frame.previousFragment).1 }
    frame.resp
  let prepared := if frame.resp.statusCode ∉ [307, 308] then purge prepared else prepared
  let prepared := rebuildCookies lib jar prepared frame.req frame.resp
  let (prepared, proxies) := rebuildProxies lib session prepared frame.proxies
  (rebuildAuth lib session strips prepared frame.resp, proxies)

/-- The frame at the `yield` behind a request that was prepared. -/
def preparedFrame (frame : Frame T) (url : Bytes) (jar : T.Jar) : Frame T :=
  { frame with
    req := (hopRequest lib session strips frame url jar).1
    url := some (redirectUrl lib frame.resp url frame.previousFragment).1
    previousFragment := (redirectUrl lib frame.resp url frame.previousFragment).2
    hist := frame.hist ++ [frame.resp]
    proxies := some (hopRequest lib session strips frame url jar).2 }

/-- How a turn ends, and the events it adds to the log. -/
inductive Turned (frame : Frame T) (url : Bytes) : Except (Raised T) (Yielded T × Frame T) → List (Event T) → Prop
  | failed (exception : Exception) : Turned frame url (.error (.exception exception)) [.processed frame.resp frame.hist]
  | exceeded (hmax : session.maxRedirects ≤ frame.hist.length) :
      Turned frame url (.error (tooManyRedirects session frame.resp)) [.processed frame.resp frame.hist]
  | unrewound (jar : T.Jar) (exception : Exception) (hmax : frame.hist.length < session.maxRedirects) :
      Turned frame url (.error (.exception exception)) [.processed frame.resp frame.hist,
        .prepared frame.resp.requestUrl (hopRequest lib session strips frame url jar).1
          (hopRequest lib session strips frame url jar).2]
  | yielded (jar : T.Jar) (hyield : yieldRequests = true) (hmax : frame.hist.length < session.maxRedirects) :
      Turned frame url
        (.ok (.request (hopRequest lib session strips frame url jar).1, preparedFrame lib session strips frame url jar))
        [.processed frame.resp frame.hist,
          .prepared frame.resp.requestUrl (hopRequest lib session strips frame url jar).1
            (hopRequest lib session strips frame url jar).2]
  | unanswered (jar : T.Jar) (exception : Exception) (hyield : yieldRequests = false)
      (hmax : frame.hist.length < session.maxRedirects) :
      Turned frame url (.error (.exception exception)) [.processed frame.resp frame.hist,
        .prepared frame.resp.requestUrl (hopRequest lib session strips frame url jar).1
          (hopRequest lib session strips frame url jar).2,
        .sent (hopRequest lib session strips frame url jar).1 (hopRequest lib session strips frame url jar).2]
  | answered (jar : T.Jar) (resp : Response T) (target : Option Bytes) (hyield : yieldRequests = false)
      (hmax : frame.hist.length < session.maxRedirects)
      (hsend : ∃ world world', lib.send (hopRequest lib session strips frame url jar).1
        (hopRequest lib session strips frame url jar).2 world = (.ok resp, world'))
      (htarget : getRedirectTarget lib resp = .ok target) :
      Turned frame url
        (.ok (.response resp, { preparedFrame lib session strips frame url jar with resp, url := target }))
        [.processed frame.resp frame.hist,
          .prepared frame.resp.requestUrl (hopRequest lib session strips frame url jar).1
            (hopRequest lib session strips frame url jar).2,
          .sent (hopRequest lib session strips frame url jar).1 (hopRequest lib session strips frame url jar).2]

theorem call_run {α : Type} {f : T.World → Except Exception α × T.World} {env env' : Env T}
    {result : Except (Raised T) α} (h : call f env = (result, env')) : env'.log = env.log ∧
      ((∃ exception, result = .error (.exception exception)) ∨
        ∃ value world, result = .ok value ∧ f env.world = (.ok value, world)) := by
  unfold call at h
  split at h
  · next value world hf =>
      obtain ⟨rfl, rfl⟩ := Prod.mk.inj h
      exact ⟨rfl, .inr ⟨value, world, rfl, hf⟩⟩
  · next exception world hf =>
      obtain ⟨rfl, rfl⟩ := Prod.mk.inj h
      exact ⟨rfl, .inl ⟨exception, rfl⟩⟩

theorem contentOrFallback_run {response : Response T} {env env' : Env T} {result : Except (Raised T) Unit}
    (h : contentOrFallback lib response env = (result, env')) : env'.log = env.log ∧
      ∀ error, result = .error error → ∃ exception, error = .exception exception := by
  unfold contentOrFallback at h
  split at h
  · obtain ⟨rfl, rfl⟩ := Prod.mk.inj h
    exact ⟨rfl, nofun⟩
  · split at h
    · obtain ⟨hlog, hresult⟩ := call_run h
      refine ⟨hlog, fun error herror => ?_⟩
      obtain ⟨exception, rfl⟩ | ⟨_, _, rfl, -⟩ := hresult
      · exact ⟨exception, (Except.error.inj herror).symm⟩
      · cases herror
    · obtain ⟨rfl, rfl⟩ := Prod.mk.inj h
      exact ⟨rfl, fun error herror => ⟨_, (Except.error.inj herror).symm⟩⟩

theorem rewindIfNeeded_run {prepared : PreparedRequest T} {env env' : Env T} {result : Except (Raised T) Unit}
    (h : rewindIfNeeded lib prepared env = (result, env')) : env'.log = env.log ∧
      ∀ error, result = .error error → ∃ exception, error = .exception exception := by
  unfold rewindIfNeeded at h
  split at h
  · obtain ⟨hlog, hresult⟩ := call_run h
    refine ⟨hlog, fun error herror => ?_⟩
    obtain ⟨exception, rfl⟩ | ⟨_, _, rfl, -⟩ := hresult
    · exact ⟨exception, (Except.error.inj herror).symm⟩
    · cases herror
  · obtain ⟨rfl, rfl⟩ := Prod.mk.inj h
    exact ⟨rfl, nofun⟩

/-- The part of a turn behind the request that was prepared. -/
def finishTurn (frame : Frame T) (target : Bytes × Bytes) (hop : PreparedRequest T × Proxies) :
    Py T (Yielded T × Frame T) := do
  record (.prepared frame.resp.requestUrl hop.1 hop.2)
  rewindIfNeeded lib hop.1
  if yieldRequests then
    return (.request hop.1,
      { frame with
        req := hop.1, url := some target.1, previousFragment := target.2, hist := frame.hist ++ [frame.resp]
        proxies := some hop.2 })
  else do
    record (.sent hop.1 hop.2)
    let resp ← call (lib.send hop.1 hop.2)
    Effect.modify fun env => { env with world := lib.extractCookiesToSession hop.1 resp.raw env.world }
    let url ← liftPy (getRedirectTarget lib resp)
    return (.response resp,
      { resp, req := hop.1, url, previousFragment := target.2, hist := frame.hist ++ [frame.resp], proxies := some hop.2 })

theorem resolveRedirectsTurn_eq (frame : Frame T) (url : Bytes) :
    resolveRedirectsTurn lib session strips yieldRequests frame url = (do
      record (.processed frame.resp frame.hist)
      contentOrFallback lib frame.resp
      if session.maxRedirects ≤ frame.hist.length then Effect.fail (tooManyRedirects session frame.resp)
      else do
        call (lib.close frame.resp)
        let env ← Effect.read
        finishTurn lib yieldRequests frame (redirectUrl lib frame.resp url frame.previousFragment)
          (hopRequest lib session strips frame url (lib.sessionCookies env.world))) := rfl

theorem finishTurn_turned {frame : Frame T} {url : Bytes} {log : List (Event T)} {env env' : Env T}
    {result : Except (Raised T) (Yielded T × Frame T)} (hmax : frame.hist.length < session.maxRedirects)
    (hlog : env.log = log ++ [.processed frame.resp frame.hist]) (jar : T.Jar)
    (h : finishTurn lib yieldRequests frame (redirectUrl lib frame.resp url frame.previousFragment)
      (hopRequest lib session strips frame url jar) env = (result, env')) :
    ∃ events, env'.log = log ++ events ∧ Turned lib session strips yieldRequests frame url result events := by
  unfold finishTurn at h
  obtain ⟨_, hrecord, -⟩ | ⟨_, env₁, hrecord, h⟩ := Effect.bind_run h
  · cases hrecord
  obtain ⟨-, rfl⟩ := Prod.mk.inj hrecord
  have hprepared (event : Event T) : env.log ++ [event] = log ++ [.processed frame.resp frame.hist, event] := by
    rw [hlog, List.append_assoc]
    rfl
  obtain ⟨error, hrewind, rfl⟩ | ⟨_, env₂, hrewind, h⟩ := Effect.bind_run h
  · obtain ⟨hlog₂, hexception⟩ := rewindIfNeeded_run lib hrewind
    obtain ⟨exception, rfl⟩ := hexception error rfl
    exact ⟨_, hlog₂.trans (hprepared _), .unrewound jar exception hmax⟩
  have hlog₂ := (rewindIfNeeded_run lib hrewind).1.trans (hprepared _)
  cases hyield : yieldRequests with
  | true =>
      rw [if_pos hyield] at h
      obtain ⟨rfl, rfl⟩ := Prod.mk.inj h
      exact ⟨_, hlog₂, .yielded jar rfl hmax⟩
  | false =>
      rw [if_neg (by simp [hyield])] at h
      obtain ⟨_, hrecord, -⟩ | ⟨_, env₃, hrecord, h⟩ := Effect.bind_run h
      · cases hrecord
      obtain ⟨-, rfl⟩ := Prod.mk.inj hrecord
      have hsent (event : Event T) := congrArg (· ++ [event]) hlog₂
      simp only [List.append_assoc, List.cons_append, List.nil_append] at hsent
      obtain ⟨error, hcall, rfl⟩ | ⟨resp, env₄, hcall, h⟩ := Effect.bind_run h
      · obtain ⟨hlog₄, ⟨exception, hexception⟩ | ⟨_, _, hok, -⟩⟩ := call_run hcall
        · obtain rfl := Except.error.inj hexception
          exact ⟨_, hlog₄.trans (hsent _), .unanswered jar exception rfl hmax⟩
        · cases hok
      obtain ⟨hlog₄, ⟨_, herror⟩ | ⟨resp', world, hok, hworld⟩⟩ := call_run hcall
      · cases herror
      obtain rfl := Except.ok.inj hok
      obtain ⟨_, hmodify, -⟩ | ⟨_, env₅, hmodify, h⟩ := Effect.bind_run h
      · cases hmodify
      obtain ⟨-, rfl⟩ := Prod.mk.inj hmodify
      cases htarget : getRedirectTarget lib resp with
      | error exception =>
          rw [htarget] at h
          obtain ⟨rfl, rfl⟩ := Prod.mk.inj h
          exact ⟨_, hlog₄.trans (hsent _), .unanswered jar exception rfl hmax⟩
      | ok target =>
          rw [htarget] at h
          obtain ⟨rfl, rfl⟩ := Prod.mk.inj h
          exact ⟨_, hlog₄.trans (hsent _), .answered jar resp target rfl hmax ⟨_, _, hworld⟩ htarget⟩

theorem resolveRedirectsTurn_turned {frame : Frame T} {url : Bytes} {env env' : Env T}
    {result : Except (Raised T) (Yielded T × Frame T)}
    (h : resolveRedirectsTurn lib session strips yieldRequests frame url env = (result, env')) :
    ∃ events, env'.log = env.log ++ events ∧ Turned lib session strips yieldRequests frame url result events := by
  rw [resolveRedirectsTurn_eq] at h
  obtain ⟨_, hrecord, -⟩ | ⟨_, env₁, hrecord, h⟩ := Effect.bind_run h
  · cases hrecord
  obtain ⟨-, rfl⟩ := Prod.mk.inj hrecord
  obtain ⟨error, hcontent, rfl⟩ | ⟨_, env₂, hcontent, h⟩ := Effect.bind_run h
  · obtain ⟨hlog, hexception⟩ := contentOrFallback_run lib hcontent
    obtain ⟨exception, rfl⟩ := hexception error rfl
    exact ⟨_, hlog, .failed exception⟩
  have hlog₂ := (contentOrFallback_run lib hcontent).1
  by_cases hmax : session.maxRedirects ≤ frame.hist.length
  · rw [if_pos hmax] at h
    obtain ⟨rfl, rfl⟩ := Prod.mk.inj h
    exact ⟨_, hlog₂, .exceeded hmax⟩
  rw [if_neg hmax] at h
  have hmax : frame.hist.length < session.maxRedirects := Nat.lt_of_not_le hmax
  obtain ⟨error, hclose, rfl⟩ | ⟨_, env₃, hclose, h⟩ := Effect.bind_run h
  · obtain ⟨hlog, ⟨exception, hexception⟩ | ⟨_, _, hok, -⟩⟩ := call_run hclose
    · obtain rfl := Except.error.inj hexception
      exact ⟨_, hlog.trans hlog₂, .failed exception⟩
    · cases hok
  have hlog₃ := (call_run hclose).1.trans hlog₂
  obtain ⟨_, hread, -⟩ | ⟨env₃', _, hread, h⟩ := Effect.bind_run h
  · cases hread
  obtain ⟨hjar, rfl⟩ := Prod.mk.inj hread
  obtain rfl := Except.ok.inj hjar
  exact finishTurn_turned lib session strips yieldRequests hmax hlog₃ (lib.sessionCookies env₃.world) h

/-! ### What the body can do -/

/-- The frame a generator goes on from. -/
def frameOf : Generator T → Except Exception (Option (Frame T))
  | .created resp req proxies => (getRedirectTarget lib resp).map fun url =>
      some { resp, req, url, previousFragment := (lib.urlparse req.url).fragment, hist := [], proxies }
  | .suspended frame => .ok (some frame)
  | .finished => .ok none

theorem frameOf_created {resp : Response T} {req : PreparedRequest T} {proxies : Option Proxies} {frame : Frame T}
    (h : frameOf lib (.created resp req proxies) = .ok (some frame)) : ∃ url, getRedirectTarget lib resp = .ok url ∧
      frame = { resp, req, url, previousFragment := (lib.urlparse req.url).fragment, hist := [], proxies } := by
  rw [frameOf] at h
  cases htarget : getRedirectTarget lib resp with
  | error => simp [htarget, Except.map] at h
  | ok url =>
      rw [htarget] at h
      exact ⟨url, rfl, (Option.some.inj (Except.ok.inj h)).symm⟩

def nextOf : Except (Raised T) (Yielded T × Frame T) → Next T
  | .ok (value, _) => .value value
  | .error error => .raised error

def generatorOf : Except (Raised T) (Yielded T × Frame T) → Generator T
  | .ok (_, frame) => .suspended frame
  | .error _ => .finished

/-- How the body ends: the loop is over, the target is no text, or a turn was made. -/
inductive Stepped (generator : Generator T) : Next T → Generator T → List (Event T) → Prop
  | returned : Stepped generator .stopIteration .finished []
  | untargeted (exception : Exception) : Stepped generator (.raised (.exception exception)) .finished []
  | turned (frame : Frame T) (url : Bytes) (result : Except (Raised T) (Yielded T × Frame T)) (events : List (Event T))
      (hframe : frameOf lib generator = .ok (some frame)) (hurl : frame.url = some url) (hne : url ≠ [])
      (hturned : Turned lib session strips yieldRequests frame url result events) :
      Stepped generator (nextOf result) (generatorOf result) events

theorem resolveRedirects_eq (generator : Generator T) :
    resolveRedirects lib session strips yieldRequests generator =
      liftPy (frameOf lib generator) >>= fun
        | none => pure none
        | some frame => resolveRedirectsLoop lib session strips yieldRequests frame := by
  cases generator with
  | created resp req proxies =>
      rw [resolveRedirects, frameOf]
      cases getRedirectTarget lib resp <;> rfl
  | suspended | finished => rfl

theorem resume_eq (generator : Generator T) (env : Env T) : generator.resume lib session strips yieldRequests env =
    match frameOf lib generator with
    | .error exception => (.raised (.exception exception), .finished, env)
    | .ok none => (.stopIteration, .finished, env)
    | .ok (some frame) =>
        match frame.url with
        | none => (.stopIteration, .finished, env)
        | some url =>
            if url = [] then (.stopIteration, .finished, env)
            else
              let turn := resolveRedirectsTurn lib session strips yieldRequests frame url env
              (nextOf turn.1, generatorOf turn.1, turn.2) := by
  rw [Generator.resume, resolveRedirects_eq]
  cases frameOf lib generator with
  | error exception => rfl
  | ok frame =>
      rw [show (liftPy (.ok frame) : Py T _) = pure frame from rfl, Effect.bind_ok (Effect.pure_apply frame env)]
      cases frame with
      | none => rfl
      | some frame =>
          simp only [resolveRedirectsLoop]
          cases frame.url with
          | none => rfl
          | some url =>
              by_cases hempty : url = []
              · simp only [if_pos hempty]
                rfl
              · simp only [if_neg hempty]
                cases hturn : resolveRedirectsTurn lib session strips yieldRequests frame url env with
                | mk result env' =>
                    cases result with
                    | error error =>
                        rw [Effect.bind_error hturn]
                        rfl
                    | ok value =>
                        rw [Effect.bind_ok hturn]
                        rfl

theorem resume_stepped (generator : Generator T) (env : Env T) :
    ∃ events, (generator.resume lib session strips yieldRequests env).2.2.log = env.log ++ events ∧
      Stepped lib session strips yieldRequests generator (generator.resume lib session strips yieldRequests env).1
        (generator.resume lib session strips yieldRequests env).2.1 events := by
  have hnil : env.log = env.log ++ [] := (List.append_nil _).symm
  rw [resume_eq]
  cases hframe : frameOf lib generator with
  | error exception => exact ⟨[], hnil, .untargeted exception⟩
  | ok frame =>
      cases frame with
      | none => exact ⟨[], hnil, .returned⟩
      | some frame =>
          cases hurl : frame.url with
          | none =>
              simp only [hurl]
              exact ⟨[], hnil, .returned⟩
          | some url =>
              by_cases hempty : url = []
              · simp only [hurl, if_pos hempty]
                exact ⟨[], hnil, .returned⟩
              · simp only [hurl, if_neg hempty]
                obtain ⟨events, hlog, hturned⟩ := resolveRedirectsTurn_turned lib session strips yieldRequests
                  (Prod.eta (resolveRedirectsTurn lib session strips yieldRequests frame url env)).symm
                exact ⟨events, hlog, .turned frame url _ events hframe hurl hempty hturned⟩

/-! ### What the generator adds -/

/-- The generator goes where its body goes, and answers the same but for a `StopIteration`. -/
theorem generator_guards (s : Generator T × Env T) (calls : List Unit) :
    (generatorObject lib session strips yieldRequests).observe s calls =
      ((bodyObject lib session strips yieldRequests).observe s calls).map Next.guarded ∧
    (generatorObject lib session strips yieldRequests).after s calls =
      (bodyObject lib session strips yieldRequests).after s calls := by
  induction calls generalizing s with
  | nil => exact ⟨rfl, rfl⟩
  | cons input rest ih =>
      obtain ⟨hanswers, hend⟩ := ih ((bodyObject lib session strips yieldRequests).call s input).2
      exact ⟨congrArg _ hanswers, hend⟩

/-! ### Steps in which nothing raises `StopIteration` -/

def Quietly {α : Type} (result : Except Exception α) : Prop := result ≠ .error (.other (text "StopIteration"))

/-- Neither the call raises `StopIteration` nor, where it returns, what is called behind it. -/
def QuietCall {α : Type} (answer : Except Exception α × T.World) (rest : α → T.World → Prop) : Prop :=
  Quietly answer.1 ∧ ∀ value, answer.1 = .ok value → rest value answer.2

def QuietContent (response : Response T) (world : T.World) (rest : T.World → Prop) : Prop :=
  match lib.content response world with
  | (.ok (), world) => rest world
  | (.error exception, world) =>
      if isCaught exception then QuietCall (lib.rawRead response world) fun _ => rest
      else exception ≠ .other (text "StopIteration")

def QuietRewind (prepared : PreparedRequest T) (world : T.World) (rest : T.World → Prop) : Prop :=
  if isRewindable prepared then QuietCall (lib.rewindBody prepared world) fun _ => rest else rest world

/-- Nothing that a turn calls raises `StopIteration`. -/
def QuietTurn (frame : Frame T) (url : Bytes) (world : T.World) : Prop :=
  QuietContent lib frame.resp world fun world => frame.hist.length < session.maxRedirects →
    QuietCall (lib.close frame.resp world) fun _ world =>
      let hop := hopRequest lib session strips frame url (lib.sessionCookies world)
      QuietRewind lib hop.1 world fun world => yieldRequests = false →
        QuietCall (lib.send hop.1 hop.2 world) fun resp _ => Quietly (getRedirectTarget lib resp)

/-- Nothing that the step calls raises `StopIteration`. -/
def CalmAt (s : Generator T × Env T) : Prop :=
  match frameOf lib s.1 with
  | .error exception => exception ≠ .other (text "StopIteration")
  | .ok none => True
  | .ok (some frame) => ∀ url, frame.url = some url → url ≠ [] →
      QuietTurn lib session strips yieldRequests frame url s.2.world

abbrev CalmRaises {α : Type} (x : Py T α) (env : Env T) : Prop := Effect.Raises (fun error => isStopIteration error = false) x env

theorem isStopIteration_exception {raised : Exception} :
    isStopIteration (.exception raised : Raised T) = false ↔ raised ≠ .other (text "StopIteration") := by
  cases raised with
  | other name => simp [isStopIteration]
  | _ => simp [isStopIteration]

theorem calmRaises_call {α : Type} {f : T.World → Except Exception α × T.World} {env : Env T} :
    CalmRaises (call f) env ↔ Quietly (f env.world).1 := by
  unfold CalmRaises Effect.Raises call Quietly
  cases f env.world with
  | mk result world =>
      cases result with
      | ok value => simp
      | error exception => simp [isStopIteration_exception]

theorem call_ok {α : Type} {f : T.World → Except Exception α × T.World} {env : Env T} {value : α} :
    (call f env).1 = .ok value ↔ (f env.world).1 = .ok value := by
  unfold call
  cases f env.world with
  | mk result world => cases result <;> simp

theorem call_world {α : Type} (f : T.World → Except Exception α × T.World) (env : Env T) :
    (call f env).2.world = (f env.world).2 := by
  unfold call
  cases f env.world with
  | mk result world => cases result <;> rfl

theorem calmRaises_call_bind {α β : Type} {f : T.World → Except Exception α × T.World} {x : α → Py T β} {env : Env T}
    {rest : α → T.World → Prop} (h : ∀ value env, CalmRaises (x value) env ↔ rest value env.world) :
    CalmRaises (call f >>= x) env ↔ QuietCall (f env.world) rest := by
  refine Effect.raises_bind.trans (and_congr calmRaises_call (forall_congr' fun value => ?_))
  rw [call_ok, ← call_world]
  exact imp_congr_right fun _ => h value _

theorem calmRaises_record_bind {β : Type} {event : Event T} {x : Unit → Py T β} {env : Env T} (rest : T.World → Prop)
    (h : ∀ env, CalmRaises (x ()) env ↔ rest env.world) : CalmRaises (record event >>= x) env ↔ rest env.world :=
  h { env with log := env.log ++ [event] }

theorem calmRaises_content_bind {β : Type} {response : Response T} {x : Unit → Py T β} {env : Env T}
    {rest : T.World → Prop} (h : ∀ env, CalmRaises (x ()) env ↔ rest env.world) :
    CalmRaises (contentOrFallback lib response >>= x) env ↔ QuietContent lib response env.world rest := by
  rw [CalmRaises, Effect.raises_bind, QuietContent, Effect.Raises]
  unfold contentOrFallback
  cases lib.content response env.world with
  | mk result world =>
      cases result with
      | ok =>
          exact ⟨fun hraises => (h { env with world }).mp (hraises.2 () rfl),
            fun hrest => ⟨(fun _ heq => by cases heq), fun _ _ => (h { env with world }).mpr hrest⟩⟩
      | error exception =>
          cases hcaught : isCaught exception with
          | true =>
              have hread : CalmRaises (call (lib.rawRead response) >>= x) { env with world } ↔
                  QuietCall (lib.rawRead response world) fun _ => rest := calmRaises_call_bind fun _ => h
              simp only [hcaught, if_true]
              exact Effect.raises_bind.symm.trans hread
          | false => simp [hcaught, isStopIteration_exception]

theorem calmRaises_rewind_bind {β : Type} {prepared : PreparedRequest T} {x : Unit → Py T β} {env : Env T}
    {rest : T.World → Prop} (h : ∀ env, CalmRaises (x ()) env ↔ rest env.world) :
    CalmRaises (rewindIfNeeded lib prepared >>= x) env ↔ QuietRewind lib prepared env.world rest := by
  unfold rewindIfNeeded QuietRewind
  split
  · exact calmRaises_call_bind fun _ => h
  · exact h env

theorem calmRaises_finish (frame : Frame T) (target : Bytes × Bytes) (hop : PreparedRequest T × Proxies) (env : Env T) :
    CalmRaises (finishTurn lib yieldRequests frame target hop) env ↔
      QuietRewind lib hop.1 env.world fun world => yieldRequests = false →
        QuietCall (lib.send hop.1 hop.2 world) fun resp _ => Quietly (getRedirectTarget lib resp) := by
  unfold finishTurn
  refine calmRaises_record_bind (fun world => QuietRewind lib hop.1 world _) fun env =>
    calmRaises_rewind_bind lib fun env => ?_
  cases yieldRequests with
  | true => exact iff_of_true (Effect.raises_pure _ _ env) nofun
  | false =>
      rw [if_neg Bool.false_ne_true, forall_prop_of_true rfl]
      refine calmRaises_record_bind (fun world => QuietCall (lib.send hop.1 hop.2 world) _) fun env =>
        calmRaises_call_bind fun resp env => ?_
      cases htarget : getRedirectTarget lib resp with
      | ok target => exact iff_of_true (fun _ heq => by cases heq) nofun
      | error exception =>
          have hraises : Quietly (.error exception : Except Exception (Option Bytes)) ↔
              isStopIteration (.exception exception : Raised T) = false := by
            simp [Quietly, isStopIteration_exception]
          rw [hraises]
          exact ⟨fun hcalm => hcalm _ rfl, fun hstop error heq => Except.error.inj heq ▸ hstop⟩

theorem calmRaises_turn (frame : Frame T) (url : Bytes) (env : Env T) :
    CalmRaises (resolveRedirectsTurn lib session strips yieldRequests frame url) env ↔
      QuietTurn lib session strips yieldRequests frame url env.world := by
  rw [resolveRedirectsTurn_eq]
  unfold QuietTurn
  refine calmRaises_record_bind (fun world => QuietContent lib frame.resp world _) fun env =>
    calmRaises_content_bind lib fun env => ?_
  by_cases hmax : session.maxRedirects ≤ frame.hist.length
  · rw [if_pos hmax]
    refine iff_of_true (fun error heq => ?_) fun hlt => absurd hmax (Nat.not_le.mpr hlt)
    rw [← Except.error.inj heq]
    rfl
  · rw [if_neg hmax, forall_prop_of_true (Nat.lt_of_not_le hmax)]
    exact calmRaises_call_bind fun _ env => calmRaises_finish lib yieldRequests frame _ _ env

theorem calmAt_iff (s : Generator T × Env T) : CalmAt lib session strips yieldRequests s ↔
    ∀ error, (s.1.resume lib session strips yieldRequests s.2).1 = .raised error → isStopIteration error = false := by
  rw [resume_eq]
  unfold CalmAt
  cases frameOf lib s.1 with
  | error exception => simp [isStopIteration_exception]
  | ok frame =>
      cases frame with
      | none => simp
      | some frame =>
          cases hurl : frame.url with
          | none => simp [hurl]
          | some url =>
              by_cases hempty : url = []
              · simp [hurl, hempty]
              · simp only [hurl, Option.some.injEq, forall_eq', ne_eq, hempty, not_false_eq_true, forall_const, if_false]
                rw [← calmRaises_turn]
                refine forall_congr' fun error => imp_congr_left ?_
                cases (resolveRedirectsTurn lib session strips yieldRequests frame url s.2).1 <;> simp [nextOf]

theorem guardStop_calm {error : Raised T} (h : isStopIteration error = false) : guardStop error = error := by
  rw [guardStop, h]
  rfl

theorem next_calm {s : Generator T × Env T} (h : CalmAt lib session strips yieldRequests s) :
    s.1.next lib session strips yieldRequests s.2 = s.1.resume lib session strips yieldRequests s.2 := by
  have hcalm := (calmAt_iff lib session strips yieldRequests s).mp h
  refine Prod.ext ?_ rfl
  change Next.guarded _ = _
  cases hanswer : (s.1.resume lib session strips yieldRequests s.2).1 with
  | value | stopIteration => rfl
  | raised error => exact congrArg Next.raised (guardStop_calm (hcalm error hanswer))

/-- Where some call raises `StopIteration`, the cursor lets it through and the generator does not. -/
theorem advance_not_calm {cursor : SessionRedirectCursor T} {generator : Generator T} {env : Env T}
    (h : Corresponds yieldRequests cursor generator)
    (hstops : ¬CalmAt lib session (stripsAuthValue lib) yieldRequests (generator, env)) :
    (cursor.advance lib session env).1 ≠ (generator.next lib session (stripsAuthValue lib) yieldRequests env).1 := by
  simp only [calmAt_iff, not_forall] at hstops
  obtain ⟨error, hraised, hstop⟩ := hstops
  rw [(advance_corresponds lib session yieldRequests h env).1]
  intro heq
  have hguarded : Next.guarded (.raised error) = .raised error := by rw [← hraised]; exact heq.symm
  have hsame : guardStop error = error := Next.raised.inj hguarded
  rw [Bool.not_eq_false] at hstop
  rw [guardStop, if_pos hstop] at hsame
  rw [← hsame] at hstop
  cases hstop

section NeverStops

variable {lib : Library T} {session : Session} {strips : Bytes → Bytes → Bool} {yieldRequests : Bool}

/-- The library raises no `StopIteration`. -/
structure NeverStops (lib : Library T) : Prop where
  locationText : ∀ location, Quietly (lib.locationText location)
  content : ∀ response world, Quietly (lib.content response world).1
  rawRead : ∀ response world, Quietly (lib.rawRead response world).1
  close : ∀ response world, Quietly (lib.close response world).1
  send : ∀ request proxies world, Quietly (lib.send request proxies world).1
  rewindBody : ∀ request world, Quietly (lib.rewindBody request world).1

theorem NeverStops.target (h : NeverStops lib) (response : Response T) : Quietly (getRedirectTarget lib response) := by
  unfold getRedirectTarget
  split
  · rename_i location _ _
    have hlocation := h.locationText location
    cases htext : lib.locationText location with
    | ok value => exact fun heq => by cases heq
    | error raised =>
        rw [htext] at hlocation
        exact fun heq => hlocation (congrArg Except.error (Except.error.inj heq))
  · exact fun heq => by cases heq

theorem NeverStops.quietContent (h : NeverStops lib) (response : Response T) (world : T.World) {rest : T.World → Prop}
    (hrest : ∀ world, rest world) : QuietContent lib response world rest := by
  have hcontent := h.content response world
  unfold QuietContent
  split
  · exact hrest _
  · next exception world' hread =>
      split
      · exact ⟨h.rawRead response world', fun _ _ => hrest _⟩
      · rintro rfl
        exact hcontent (congrArg Prod.fst hread)

theorem NeverStops.quietRewind (h : NeverStops lib) (prepared : PreparedRequest T) (world : T.World) {rest : T.World → Prop}
    (hrest : ∀ world, rest world) : QuietRewind lib prepared world rest := by
  unfold QuietRewind
  split
  · exact ⟨h.rewindBody _ _, fun _ _ => hrest _⟩
  · exact hrest _

theorem NeverStops.quietTurn (h : NeverStops lib) (frame : Frame T) (url : Bytes) (world : T.World) :
    QuietTurn lib session strips yieldRequests frame url world := by
  refine h.quietContent _ _ fun world _ => ⟨h.close _ _, fun _ _ => h.quietRewind _ _ fun world _ => ?_⟩
  exact ⟨h.send _ _ _, fun resp _ => h.target resp⟩

/-- A library that raises no `StopIteration` raises none in any step. -/
theorem NeverStops.calmAt (h : NeverStops lib) (s : Generator T × Env T) : CalmAt lib session strips yieldRequests s := by
  unfold CalmAt
  cases hframe : frameOf lib s.1 with
  | error exception =>
      cases hgenerator : s.1 with
      | created resp req proxies =>
          rw [hgenerator, frameOf] at hframe
          have htarget := h.target resp
          cases hresult : getRedirectTarget lib resp with
          | ok url =>
              rw [hresult] at hframe
              cases hframe
          | error raised =>
              rw [hresult] at hframe htarget
              exact fun heq => htarget (congrArg Except.error ((Except.error.inj hframe).trans heq))
      | suspended | finished =>
          rw [hgenerator] at hframe
          cases hframe
  | ok frame =>
      cases frame with
      | none => trivial
      | some frame => exact fun url _ _ => h.quietTurn frame url _

/-! ### Programs that raise no `StopIteration` -/

def NoStop {α : Type} (x : Py T α) : Prop := ∀ env, CalmRaises x env

namespace NoStop

theorem pure {α : Type} (value : α) : NoStop (Pure.pure value : Py T α) := Effect.raises_pure _ value

theorem bind {α β : Type} {x : Py T α} {f : α → Py T β} (hx : NoStop x) (hf : ∀ a, NoStop (f a)) :
    NoStop (x >>= f) := fun env => Effect.raises_bind.mpr ⟨hx env, fun a _ => hf a _⟩

theorem record (event : Event T) : NoStop (Python.record event) := fun _ _ heq => by cases heq

theorem modify (f : Env T → Env T) : NoStop (Effect.modify f : Py T Unit) := fun _ _ heq => by cases heq

theorem call {α : Type} {f : T.World → Except Exception α × T.World} (h : ∀ world, Quietly (f world).1) :
    NoStop (Python.call f) := fun env => calmRaises_call.mpr (h env.world)

end NoStop

end NeverStops

end RequestsNative.Python
