import RequestsNative.Python.SessionSendRuns

/-!
# Sending without Python

`session_send_with_builtins` does what `Session.send` does, with the cursor in the place of the generator, wherever no call
raises `StopIteration`.
-/

namespace RequestsNative.Python

open Lib (Effect Reactive)

variable {T : Objects} {lib : Library T} {transmission : Transmission T} {session : SendSession}
  {strips : Bytes → Bytes → Bool} {yieldRequests : Bool}

structure TransmissionNeverStops (transmission : Transmission T) : Prop where
  adapterSend : ∀ request proxies world, Quietly (transmission.adapterSend request proxies world).1
  dispatchHook : ∀ request response world, Quietly (transmission.dispatchHook request response world).1

/-! ### The cursor in the place of the generator -/

theorem cursorHistory_eq (h : NeverStops lib) (fuel : Nat) {cursor : SessionRedirectCursor T} {generator : Generator T}
    (hcorresponds : Corresponds false cursor generator) (env : Env T) :
    cursorHistory lib session fuel cursor env = listOfGenerator lib session (stripsAuthValue lib) fuel generator env := by
  induction fuel generalizing cursor generator env with
  | zero => rfl
  | succ fuel ih =>
      obtain ⟨hanswer, hnext, henv⟩ := advance_corresponds lib session.toSession false hcorresponds env
      have hcalm : CalmAt lib session.toSession (stripsAuthValue lib) false (generator, env) := h.calmAt _
      unfold cursorHistory listOfGenerator
      rw [next_calm lib session.toSession _ _ hcalm]
      rw [calmAt_iff] at hcalm
      generalize cursor.advance lib session.toSession env = advanced at hanswer hnext henv
      simp only at hcalm ⊢
      generalize generator.resume lib session.toSession (stripsAuthValue lib) false env = expected at hanswer hnext henv hcalm ⊢
      obtain ⟨answer, cursor', env'⟩ := advanced
      obtain ⟨_, generator', _⟩ := expected
      obtain rfl := hanswer
      obtain rfl := henv
      cases answer with
      | stopIteration => rfl
      | raised error =>
          have hstop := hcalm error rfl
          simp only [hstop, Bool.false_eq_true, if_false]
      | value value =>
          cases value with
          | request => exact ih hnext env'
          | response response =>
              have hrest := ih hnext env'
              simp only
              cases hcollect : listOfGenerator lib session (stripsAuthValue lib) fuel generator' env' with
              | mk result env'' =>
                  rw [hcollect] at hrest
                  cases result with
                  | error error => rw [Effect.bind_error hrest, Effect.bind_error hcollect]
                  | ok rest => rw [Effect.bind_ok hrest, Effect.bind_ok hcollect]

theorem cursorNextRequest_eq (h : NeverStops lib) (response : Response T) (request : PreparedRequest T) (proxies : Proxies) :
    cursorNextRequest lib session response request proxies =
      nextRequest lib session (stripsAuthValue lib) response request proxies := by
  funext env
  have hcorresponds : Corresponds true (fromInvocation response request (some proxies) true)
      (.created response request (some proxies)) := rfl
  obtain ⟨hanswer, -, henv⟩ := advance_corresponds lib session.toSession true hcorresponds env
  refine Prod.ext ?_ henv
  have hcalm : CalmAt lib session.toSession (stripsAuthValue lib) true (.created response request (some proxies), env) :=
    h.calmAt _
  change cursorRequestOf _ = requestOf (Generator.next _ _ _ _ _ env).1
  rw [hanswer, next_calm lib session.toSession _ _ hcalm]
  rw [calmAt_iff] at hcalm
  simp only at hcalm ⊢
  cases hnext : ((Generator.created response request (some proxies)).resume lib session.toSession (stripsAuthValue lib) true
      env).1 with
  | stopIteration => rfl
  | raised error =>
      have hstop := hcalm error hnext
      simp only [cursorRequestOf, requestOf, hstop, Bool.false_eq_true, if_false]
  | value value => cases value <;> rfl

theorem sessionSend_eq (h : NeverStops lib) (args : SendArguments) (request : PreparedRequest T) :
    sessionSend lib transmission session args request = send lib transmission session (stripsAuthValue lib) args request := by
  have hhistory (hooked : HookedResponse T) : cursorHistory lib session (session.maxRedirects + 1)
      (fromInvocation hooked.response request (some (sendProxies lib session args request)) false) =
      listOfGenerator lib session (stripsAuthValue lib) (session.maxRedirects + 1)
        (.created hooked.response request (some (sendProxies lib session args request))) := by
    funext env
    have hcorresponds : Corresponds false
        (fromInvocation hooked.response request (some (sendProxies lib session args request)) false)
        (.created hooked.response request (some (sendProxies lib session args request))) := rfl
    exact cursorHistory_eq h _ hcorresponds env
  unfold sessionSend send
  simp only [hhistory, cursorNextRequest_eq h]
  cases args.allowRedirects <;> rfl

/-! ### Hops -/

theorem guardStop_stops (error : Raised T) : isStopIteration (guardStop error) = false := by
  unfold guardStop
  split
  · rfl
  · exact eq_false_of_ne_true ‹_›

theorem Next.guarded_stops {answer : Next T} {error : Raised T} (h : answer.guarded = .raised error) :
    isStopIteration error = false := by
  cases answer with
  | stopIteration => cases h
  | value _ => cases h
  | raised raised =>
      rw [← Next.raised.inj h]
      exact guardStop_stops raised

theorem noStop_listOfGenerator (fuel : Nat) (generator : Generator T) :
    NoStop (listOfGenerator lib session strips fuel generator) := by
  induction fuel generalizing generator with
  | zero => exact fun _ _ heq => by rw [← Except.error.inj heq]; rfl
  | succ fuel ih =>
      intro env error heq
      unfold listOfGenerator at heq
      cases hnext : generator.next lib session.toSession strips false env with
      | mk answer next =>
          simp only [hnext] at heq
          cases answer with
          | stopIteration => cases heq
          | raised raised =>
              rw [← Except.error.inj heq]
              exact Next.guarded_stops (congrArg Prod.fst hnext)
          | value value =>
              cases value with
              | request => exact ih _ _ _ heq
              | response response => exact NoStop.bind (ih _) (fun _ => .pure _) _ _ heq

theorem noStop_nextRequest (response : Response T) (request : PreparedRequest T) (proxies : Proxies) :
    NoStop (nextRequest lib session strips response request proxies) := by
  intro env error heq
  change requestOf _ = _ at heq
  cases hnext : ((Generator.created response request (some proxies)).next lib session.toSession strips true env).1 with
  | stopIteration =>
      rw [hnext] at heq
      cases heq
  | raised raised =>
      rw [hnext] at heq
      rw [← Except.error.inj heq]
      exact Next.guarded_stops hnext
  | value value =>
      rw [hnext] at heq
      cases value <;> cases heq

theorem noStop_send (h : NeverStops lib) (hquiet : TransmissionNeverStops transmission) (args : SendArguments)
    (request : PreparedRequest T) :
    NoStop (send lib transmission session strips args request) := by
  have hread (stream : Bool) (response : Response T) : NoStop (readUnlessStream lib stream response) := by
    cases stream with
    | true => exact .pure ()
    | false => exact .call (h.content response)
  have hfirst (proxies : Proxies) : NoStop (sendFirst lib transmission proxies request) :=
    .bind (.record _) fun _ => .bind (.call (hquiet.adapterSend _ _)) fun _ =>
      .bind (.call (hquiet.dispatchHook _ _)) fun _ => .bind (.modify _) fun _ => .pure _
  unfold send
  refine .bind (hfirst _) fun hooked => ?_
  split
  · exact .bind (noStop_listOfGenerator _ _) fun _ => .bind (.pure _) fun _ => .bind (hread _ _) fun _ => .pure _
  · exact .bind (.pure _) fun _ => .bind (noStop_nextRequest _ _ _) fun _ => .bind (hread _ _) fun _ => .pure _

theorem Raised.toException_quiet {error : Raised T} (h : isStopIteration error = false) :
    error.toException ≠ .other (text "StopIteration") := by
  cases error with
  | exception raised =>
      rintro rfl
      have hstop : isStopIteration (.exception (.other (text "StopIteration")) : Raised T) = true := by
        unfold isStopIteration
        exact decide_eq_true rfl
      rw [hstop] at h
      cases h
  | tooManyRedirects | valueError | panic => exact fun heq => absurd (Exception.other.inj heq) (by decide)

theorem neverStops_withHops (h : NeverStops lib) (hquiet : TransmissionNeverStops transmission) (stream : Bool) :
    NeverStops (withHops lib transmission session strips stream) where
  locationText := h.locationText
  content := h.content
  rawRead := h.rawRead
  close := h.close
  rewindBody := h.rewindBody
  send request proxies world := by
    let args : SendArguments := { allowRedirects := false, stream := some stream, proxies := some proxies }
    have hcalm : NoStop (send lib transmission session strips args request) := noStop_send h hquiet args request
    have hquietly : Quietly (hopSend (send lib transmission session strips) stream request proxies world).1 := by
      unfold hopSend
      cases hresult : send lib transmission session strips args request ⟨world, []⟩ with
      | mk result env =>
          cases result with
          | ok sent => exact fun heq => by cases heq
          | error error =>
              have hstop := hcalm ⟨world, []⟩ error (congrArg Prod.fst hresult)
              exact fun heq => Raised.toException_quiet hstop (Except.error.inj heq)
    exact hquietly

/-! ### Requests without credentials -/

section Bare

variable (lib) {other : PreparedRequest T → Proxies → T.World → Except Exception (Response T) × T.World} (strips)
  (stripsOther : Bytes → Bytes → Bool) (yieldRequests) {request : PreparedRequest T} {frame : Frame T}

/-- Requests without credentials are answered alike. -/
def AnswersBare (other : PreparedRequest T → Proxies → T.World → Except Exception (Response T) × T.World) : Prop :=
  ∀ request proxies world, request.authorization = none → lib.send request proxies world = other request proxies world

theorem rebuildAuth_bare {session : Session} (htrust : session.trustEnv = false) (h : request.authorization = none)
    (response : Response T) : rebuildAuth lib session strips request response = request := by
  have hcontains : request.headers.contains (text "Authorization") = false := by
    rw [Headers.contains_eq_isSome]
    exact congrArg Option.isSome h
  simp [rebuildAuth, netrcAuth, htrust, hcontains]

theorem hopRequest_bare (other : PreparedRequest T → Proxies → T.World → Except Exception (Response T) × T.World)
    {session : Session} (htrust : session.trustEnv = false) (h : frame.req.authorization = none) (url : Bytes) (jar : T.Jar) :
    hopRequest lib session strips frame url jar = hopRequest { lib with send := other } session stripsOther frame url jar ∧
      (hopRequest lib session strips frame url jar).1.authorization = none := by
  have hbare := (unauthenticatedHop_authorization lib session frame url jar).trans h
  have hhop := rebuildAuth_bare lib strips htrust hbare frame.resp
  have hother := rebuildAuth_bare { lib with send := other } stripsOther htrust hbare frame.resp
  refine ⟨Prod.ext (hhop.trans hother.symm) rfl, ?_⟩
  rw [hopRequest_eq, hhop]
  exact hbare

/-- The same is yielded, and the frame still has no credentials. -/
def SameBare (yielded other : Yielded T × Frame T) : Prop := yielded = other ∧ yielded.2.req.authorization = none

theorem turn_bare {session : Session} (htrust : session.trustEnv = false) (hsend : AnswersBare lib other)
    (h : frame.req.authorization = none) (url : Bytes) :
    Effect.Twin Eq SameBare (resolveRedirectsTurn lib session strips yieldRequests frame url)
      (resolveRedirectsTurn { lib with send := other } session stripsOther yieldRequests frame url) := by
  rw [resolveRedirectsTurn_eq, resolveRedirectsTurn_eq]
  refine .bind (.refl _) fun _ _ _ => .bind (.refl _) fun _ _ _ => ?_
  by_cases hmax : session.maxRedirects ≤ frame.hist.length
  · rw [if_pos hmax, if_pos hmax]
    exact .fail _
  rw [if_neg hmax, if_neg hmax]
  refine .bind (.refl _) fun _ _ _ => .bind (.refl _) fun env _ henv => ?_
  subst henv
  obtain ⟨hhop, hbare⟩ := hopRequest_bare lib strips stripsOther other htrust h url (lib.sessionCookies env.world)
  change Effect.Twin Eq SameBare _ (finishTurn _ yieldRequests frame _
    (hopRequest { lib with send := other } session stripsOther frame url (lib.sessionCookies env.world)))
  rw [← hhop]
  generalize hopRequest lib session strips frame url (lib.sessionCookies env.world) = hop at hbare
  refine .bind (.refl _) fun _ _ _ => .bind (.refl _) fun _ _ _ => ?_
  cases yieldRequests with
  | true => exact .pure ⟨rfl, hbare⟩
  | false =>
      have hcall : call (lib.send hop.1 hop.2) = call (other hop.1 hop.2) :=
        congrArg call (funext fun world => hsend hop.1 hop.2 world hbare)
      simp only [Bool.false_eq_true, if_false, hcall]
      refine .bind (.refl _) fun _ _ _ => .bind (.refl _) fun resp _ hresp => ?_
      subst hresp
      refine .bind (.refl _) fun _ _ _ => .bind (.refl _) fun target _ htarget => ?_
      subst htarget
      exact .pure ⟨rfl, hbare⟩

theorem loop_bare {session : Session} (htrust : session.trustEnv = false) (hsend : AnswersBare lib other)
    (h : frame.req.authorization = none) :
    Effect.Twin Eq (Option.Rel SameBare) (resolveRedirectsLoop lib session strips yieldRequests frame)
      (resolveRedirectsLoop { lib with send := other } session stripsOther yieldRequests frame) := by
  unfold resolveRedirectsLoop
  cases frame.url with
  | none => exact .pure .none
  | some url =>
      by_cases hempty : url = []
      · simp only [if_pos hempty]
        exact .pure .none
      · simp only [if_neg hempty]
        exact .bind (turn_bare lib strips yieldRequests stripsOther htrust hsend h url) fun _ _ hsame => .pure (.some hsame)

/-- The generator follows a request without credentials. -/
def Generator.Bare : Generator T → Prop
  | .created _ req _ => req.authorization = none
  | .suspended frame => frame.req.authorization = none
  | .finished => True

theorem resolveRedirects_bare {session : Session} (htrust : session.trustEnv = false) (hsend : AnswersBare lib other)
    {generator : Generator T} (h : generator.Bare) :
    Effect.Twin Eq (Option.Rel SameBare) (resolveRedirects lib session strips yieldRequests generator)
      (resolveRedirects { lib with send := other } session stripsOther yieldRequests generator) := by
  cases generator with
  | created resp req proxies =>
      refine .bind (.refl _) fun url _ hurl => ?_
      subst hurl
      exact loop_bare lib strips yieldRequests stripsOther htrust hsend h
  | suspended frame => exact loop_bare lib strips yieldRequests stripsOther htrust hsend h
  | finished => exact .pure .none

theorem next_bare {session : Session} (htrust : session.trustEnv = false) (hsend : AnswersBare lib other)
    {generator : Generator T} (h : generator.Bare) (env : Env T) :
    generator.next lib session strips yieldRequests env =
        generator.next { lib with send := other } session stripsOther yieldRequests env ∧
      (generator.next lib session strips yieldRequests env).2.1.Bare := by
  obtain ⟨hresult, henv⟩ := resolveRedirects_bare lib strips yieldRequests stripsOther htrust hsend h env env rfl
  unfold Generator.next Generator.resume
  cases hfirst : resolveRedirects lib session strips yieldRequests generator env with
  | mk result env' =>
      cases hother : resolveRedirects { lib with send := other } session stripsOther yieldRequests generator env with
      | mk otherResult env'' =>
          rw [hfirst, hother] at hresult henv
          obtain rfl : env' = env'' := henv
          cases result with
          | error error =>
              cases otherResult with
              | ok => exact hresult.elim
              | error error' =>
                  obtain rfl : error = error' := hresult
                  exact ⟨rfl, trivial⟩
          | ok result =>
              cases otherResult with
              | error => exact hresult.elim
              | ok otherResult =>
                  have hrel : Option.Rel SameBare result otherResult := hresult
                  cases hrel with
                  | none => exact ⟨rfl, trivial⟩
                  | some hsame =>
                      obtain ⟨rfl, hbare⟩ := hsame
                      exact ⟨rfl, hbare⟩

theorem listOfGenerator_bare (htrust : session.trustEnv = false) (hsend : AnswersBare lib other) (fuel : Nat)
    {generator : Generator T} (h : generator.Bare) :
    listOfGenerator lib session strips fuel generator =
      listOfGenerator { lib with send := other } session stripsOther fuel generator := by
  induction fuel generalizing generator with
  | zero => rfl
  | succ fuel ih =>
      funext env
      have htrust' : session.toSession.trustEnv = false := htrust
      obtain ⟨hnext, hbare⟩ := next_bare lib strips false stripsOther htrust' hsend h env
      unfold listOfGenerator
      rw [← hnext]
      generalize generator.next lib session.toSession strips false env = next at hbare
      obtain ⟨answer, generator', env'⟩ := next
      cases answer with
      | stopIteration | raised => rfl
      | value value => cases value <;> simp only [ih hbare]

theorem send_bare (htrust : session.trustEnv = false) (hsend : AnswersBare lib other) (args : SendArguments)
    (h : request.authorization = none) :
    send lib transmission session strips args request =
      send { lib with send := other } transmission session stripsOther args request := by
  have hlist (hooked : HookedResponse T) (proxies : Proxies) :
      listOfGenerator lib session strips (session.maxRedirects + 1) (.created hooked.response request (some proxies)) =
        listOfGenerator { lib with send := other } session stripsOther (session.maxRedirects + 1)
          (.created hooked.response request (some proxies)) :=
    listOfGenerator_bare lib strips stripsOther htrust hsend _ h
  have hnext (response : Response T) (proxies : Proxies) : nextRequest lib session strips response request proxies =
      nextRequest { lib with send := other } session stripsOther response request proxies := by
    funext env
    have hbare : (Generator.created response request (some proxies)).Bare := h
    have htrust' : session.toSession.trustEnv = false := htrust
    have hsame := (next_bare lib strips true stripsOther htrust' hsend hbare env).1
    unfold nextRequest
    rw [hsame]
  unfold send
  simp only [hlist, hnext]
  rfl

theorem sendThrough_bare (htrust : session.trustEnv = false) (args : SendArguments) (h : request.authorization = none) :
    sendThrough lib transmission session strips args request =
      sendThrough lib transmission session stripsOther args request := by
  have hsend : AnswersBare (withHops lib transmission session strips (args.stream.getD session.stream))
      (hopSend (send lib transmission session stripsOther) (args.stream.getD session.stream)) := by
    intro hop proxies world hbare
    have hsame (args : SendArguments) : send lib transmission session strips args hop =
        send lib transmission session stripsOther args hop := send_bare lib strips stripsOther htrust (fun _ _ _ _ => rfl) args hbare
    unfold withHops hopSend
    simp only [hsame]
  exact send_bare _ strips stripsOther htrust hsend args h

end Bare

/-- A whole `send` of the native session is one of the session in Python that strips headers as the cursor does. Where there
are no credentials to strip, it is the one of the session in Python. -/
theorem native_send_eq (h : NeverStops lib) (hquiet : TransmissionNeverStops transmission) (args : SendArguments)
    (request : PreparedRequest T) :
    sessionSendThrough lib transmission session args request =
        sendThrough lib transmission session (stripsAuthValue lib) args request ∧
      (session.trustEnv = false → request.authorization = none →
        sessionSendThrough lib transmission session args request =
          sendThrough lib transmission session (shouldStripAuth lib) args request) := by
  have hhops (stream : Bool) : withNativeHops lib transmission session stream =
      withHops lib transmission session (stripsAuthValue lib) stream := by
    unfold withNativeHops withHops
    congr 1
    unfold hopSend
    funext request proxies world
    rw [sessionSend_eq h]
  have hsame : sessionSendThrough lib transmission session args request =
      sendThrough lib transmission session (stripsAuthValue lib) args request := by
    unfold sessionSendThrough sendThrough
    rw [hhops]
    exact sessionSend_eq (neverStops_withHops h hquiet _) args request
  exact ⟨hsame, fun htrust hbare => hsame.trans (sendThrough_bare lib _ _ htrust args hbare)⟩

theorem native_send_site :
    sessionSendThrough siteLibrary siteTransmission siteSession {} siteRequest =
        sendThrough siteLibrary siteTransmission siteSession (stripsAuthValue siteLibrary) {} siteRequest ∧
      sessionSendThrough siteLibrary siteTransmission siteSession {} { siteRequest with headers := [] } =
        sendThrough siteLibrary siteTransmission siteSession (shouldStripAuth siteLibrary) {}
          { siteRequest with headers := [] } := by
  have htransmission : TransmissionNeverStops siteTransmission :=
    ⟨(fun _ _ _ heq => by cases heq), fun _ _ _ heq => by cases heq⟩
  exact ⟨(native_send_eq siteLibrary_neverStops htransmission {} siteRequest).1,
    (native_send_eq siteLibrary_neverStops htransmission {} { siteRequest with headers := [] }).2 rfl rfl⟩

end RequestsNative.Python
