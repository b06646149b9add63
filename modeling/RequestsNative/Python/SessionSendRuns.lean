import RequestsNative.Lib.Machine
import RequestsNative.Python.RedirectRefines
import RequestsNative.Python.SessionSend

/-!
# What a session returns

The history that `send` puts on a response is the chain of the responses before it, and the chain ends at a response that
redirects nowhere. All of this holds whatever is stripped from a request, and so of both loops.
-/

namespace RequestsNative.Python

open Lib (Effect Reactive Throughout)

variable {T : Objects} {lib : Library T} {transmission : Transmission T} {session : SendSession}
  {strips : Bytes → Bytes → Bool}

/-! ### Chains -/

/-- The responses that were processed, with the history that each was given. -/
def histories (log : List (Event T)) : List (Response T × List (Response T)) :=
  log.filterMap fun
    | .processed response history => some (response, history)
    | _ => none

/-- The response redirects to a place that can be requested. -/
def Redirects (lib : Library T) (response : Response T) : Prop :=
  ∃ url, getRedirectTarget lib response = .ok (some url) ∧ url ≠ []

/-- The loop ends at this response. -/
def Final (lib : Library T) (response : Response T) : Prop :=
  ∃ target, getRedirectTarget lib response = .ok target ∧ (target = none ∨ target = some [])

/-- Some library call has sent the request and has got this response. -/
def Answers (lib : Library T) (request : PreparedRequest T) (response : Response T) : Prop :=
  ∃ proxies world world', lib.send request proxies world = (.ok response, world')

/-- The events in which the responses came, each behind the one before it. -/
structure HistoryChain (lib : Library T) (responses : List (Response T)) (events : List (Event T)) : Prop where
  /-- Each but the last was processed, once and in order, with all those before it as its history. -/
  processed : (histories events).map Prod.fst = responses.dropLast
  given : Throughout (fun before step => step.2 = before.map Prod.fst) (histories events)
  redirects : ∀ response ∈ responses.dropLast, Redirects lib response
  /-- Each but the first answers a request that was sent for it. -/
  answers : List.Forall₂ (Answers lib) (sentRequests events) responses.tail

theorem histories_append (log rest : List (Event T)) : histories (log ++ rest) = histories log ++ histories rest :=
  List.filterMap_append

theorem sentRequests_append (log rest : List (Event T)) :
    sentRequests (log ++ rest) = sentRequests log ++ sentRequests rest :=
  List.filterMap_append

theorem HistoryChain.start (response : Response T) : HistoryChain lib [response] [] :=
  ⟨rfl, .nil, fun _ hmem => (by cases hmem), .nil⟩

/-- One more redirect is followed. -/
theorem HistoryChain.snoc {responses : List (Response T)} {events : List (Event T)} (h : HistoryChain lib responses events)
    {current : Response T} (hlast : responses.getLast? = some current) {request : PreparedRequest T} {response : Response T}
    (hredirects : Redirects lib current) (hanswers : Answers lib request response) {turn : List (Event T)}
    (hprocessed : histories turn = [(current, responses.dropLast)]) (hsent : sentRequests turn = [request]) :
    HistoryChain lib (responses ++ [response]) (events ++ turn) := by
  have hresponses : responses.dropLast ++ [current] = responses :=
    List.dropLast_append_getLast? current hlast
  have hne : responses ≠ [] := by
    rintro rfl
    cases hlast
  refine ⟨?_, ?_, ?_, ?_⟩
  · rw [histories_append, hprocessed, List.map_append, h.processed, List.dropLast_concat]
    exact hresponses
  · rw [histories_append, hprocessed]
    exact Throughout.snoc_iff.mpr ⟨h.given, h.processed.symm⟩
  · rw [List.dropLast_concat, ← hresponses]
    intro other hother
    obtain hold | hnew := List.mem_append.mp hother
    · exact h.redirects other hold
    · rw [List.mem_singleton.mp hnew]
      exact hredirects
  · rw [sentRequests_append, hsent, List.tail_append_of_ne_nil hne]
    exact List.rel_append h.answers (.cons hanswers .nil)

/-! ### The loop -/

/-- A generator that goes on behind these responses. -/
structure GoesOn (lib : Library T) (session : Session) (responses : List (Response T)) (events : List (Event T))
    (generator : Generator T) : Prop where
  chain : HistoryChain lib responses events
  live : frameOf lib generator ≠ .ok none
  frame : ∀ frame, frameOf lib generator = .ok (some frame) → responses.getLast? = some frame.resp ∧
    frame.hist = responses.dropLast ∧ getRedirectTarget lib frame.resp = .ok frame.url
  bounded : responses.length ≤ session.maxRedirects + 1

theorem GoesOn.created (response : Response T) (request : PreparedRequest T) (proxies : Option Proxies) :
    GoesOn lib session.toSession [response] [] (.created response request proxies) := by
  refine ⟨.start response, ?_, fun frame hframe => ?_, Nat.le_add_left 1 _⟩
  · rw [frameOf]
    cases getRedirectTarget lib response <;> simp [Except.map]
  · obtain ⟨url, htarget, rfl⟩ := frameOf_created lib hframe
    exact ⟨rfl, rfl, htarget⟩

/-- How a call of `next` ends for a generator that goes on. -/
inductive Continued (lib : Library T) (session : Session) (responses : List (Response T)) (events : List (Event T)) :
    Next T → Generator T → List (Event T) → Prop
  | stopped (last : Response T) (hlast : responses.getLast? = some last) (hfinal : Final lib last) :
      Continued lib session responses events .stopIteration .finished []
  | raised (error : Raised T) (generator : Generator T) (more : List (Event T)) (herror : ∀ message, error ≠ .panic message) :
      Continued lib session responses events (.raised error) generator more
  | answered (response : Response T) (generator : Generator T) (more : List (Event T))
      (hgoes : GoesOn lib session (responses ++ [response]) (events ++ more) generator) :
      Continued lib session responses events (.value (.response response)) generator more

theorem GoesOn.resume {responses : List (Response T)} {events : List (Event T)} {generator : Generator T}
    (h : GoesOn lib session.toSession responses events generator) (strips : Bytes → Bytes → Bool) (env : Env T) :
    ∃ more, (generator.resume lib session.toSession strips false env).2.2.log = env.log ++ more ∧
      Continued lib session.toSession responses events (generator.resume lib session.toSession strips false env).1
        (generator.resume lib session.toSession strips false env).2.1 more := by
  have hnil : env.log = env.log ++ [] := (List.append_nil _).symm
  rw [resume_eq]
  cases hframe : frameOf lib generator with
  | error exception => exact ⟨[], hnil, .raised _ _ _ fun _ heq => by cases heq⟩
  | ok frame =>
      cases frame with
      | none => exact absurd hframe h.live
      | some frame =>
          obtain ⟨hlast, hhist, htarget⟩ := h.frame frame hframe
          cases hurl : frame.url with
          | none =>
              simp only [hurl]
              exact ⟨[], hnil, .stopped frame.resp hlast ⟨none, hurl ▸ htarget, .inl rfl⟩⟩
          | some url =>
              by_cases hempty : url = []
              · simp only [hurl, if_pos hempty]
                subst hempty
                exact ⟨[], hnil, .stopped frame.resp hlast ⟨some [], hurl ▸ htarget, .inr rfl⟩⟩
              · simp only [hurl, if_neg hempty]
                have hredirects : Redirects lib frame.resp := ⟨url, hurl ▸ htarget, hempty⟩
                obtain ⟨more, hlog, hturned⟩ := resolveRedirectsTurn_turned lib session.toSession strips false
                  (Prod.eta (resolveRedirectsTurn lib session.toSession strips false frame url env)).symm
                refine ⟨more, hlog, ?_⟩
                generalize (resolveRedirectsTurn lib session.toSession strips false frame url env).1 = result at hturned
                cases hturned with
                | failed | exceeded | unrewound | unanswered => exact .raised _ _ _ fun _ heq => by cases heq
                | yielded _ hyield => cases hyield
                | answered jar resp target _ hmax hsend hnext =>
                    refine .answered _ _ _ ⟨h.chain.snoc hlast hredirects ⟨_, hsend⟩ (by rw [← hhist]; rfl) rfl,
                      (fun heq => by cases heq), fun frame' hframe' => ?_, ?_⟩
                    · obtain rfl := Option.some.inj (Except.ok.inj hframe')
                      refine ⟨List.getLast?_concat .., ?_, hnext⟩
                      rw [List.dropLast_concat]
                      change frame.hist ++ [frame.resp] = _
                      rw [hhist]
                      exact List.dropLast_append_getLast? _ hlast
                    · have hlength := congrArg List.length (List.dropLast_append_getLast? _ hlast)
                      rw [List.length_append, ← hhist, List.length_singleton] at hlength
                      rw [List.length_append, ← hlength, List.length_singleton]
                      exact Nat.succ_le_succ hmax

theorem guardStop_ne_panic {error : Raised T} (h : ∀ message, error ≠ .panic message) (message : Bytes) :
    guardStop error ≠ .panic message := by
  unfold guardStop
  split
  · exact fun heq => by cases heq
  · exact h message

theorem Continued.guarded {responses : List (Response T)} {events more : List (Event T)} {answer : Next T}
    {generator : Generator T} (h : Continued lib session.toSession responses events answer generator more) :
    Continued lib session.toSession responses events answer.guarded generator more := by
  cases h with
  | stopped last hlast hfinal => exact .stopped last hlast hfinal
  | raised error _ _ herror => exact .raised _ _ _ (guardStop_ne_panic herror)
  | answered response _ _ hgoes => exact .answered response _ _ hgoes

theorem GoesOn.next {responses : List (Response T)} {events : List (Event T)} {generator : Generator T}
    (h : GoesOn lib session.toSession responses events generator) (strips : Bytes → Bytes → Bool) (env : Env T) :
    ∃ more, (generator.next lib session.toSession strips false env).2.2.log = env.log ++ more ∧
      Continued lib session.toSession responses events (generator.next lib session.toSession strips false env).1
        (generator.next lib session.toSession strips false env).2.1 more := by
  obtain ⟨more, hlog, hcontinued⟩ := h.resume strips env
  exact ⟨more, hlog, hcontinued.guarded⟩

/-- How the loop over a generator ends: not for want of fuel, and behind the last of the responses. -/
structure Collected (lib : Library T) (session : Session) (responses : List (Response T)) (events log : List (Event T))
    (result : Except (Raised T) (List (Response T)) × Env T) : Prop where
  sound : ∀ message, result.1 ≠ .error (.panic message)
  ends : ∀ rest, result.1 = .ok rest → ∃ more last, result.2.log = log ++ more ∧
    HistoryChain lib (responses ++ rest) (events ++ more) ∧ (responses ++ rest).length ≤ session.maxRedirects + 1 ∧
    (responses ++ rest).getLast? = some last ∧ Final lib last

theorem listOfGenerator_collected (fuel : Nat) {responses : List (Response T)} {events : List (Event T)}
    {generator : Generator T} (h : GoesOn lib session.toSession responses events generator)
    (hfuel : session.maxRedirects + 1 < fuel + responses.length) (env : Env T) :
    Collected lib session.toSession responses events env.log (listOfGenerator lib session strips fuel generator env) := by
  induction fuel generalizing responses events generator env with
  | zero =>
      have hbounded := h.bounded
      omega
  | succ fuel ih =>
      obtain ⟨more, hlog, hcontinued⟩ := h.next strips env
      unfold listOfGenerator
      cases hnext : generator.next lib session.toSession strips false env with
      | mk answer next =>
          obtain ⟨generator', env'⟩ := next
          rw [hnext] at hlog hcontinued
          cases hcontinued with
          | stopped last hlast hfinal =>
              refine ⟨(fun _ heq => by cases heq), fun rest heq => ?_⟩
              obtain rfl := Except.ok.inj heq
              refine ⟨[], last, hlog, ?_⟩
              rw [List.append_nil, List.append_nil]
              exact ⟨h.chain, h.bounded, hlast, hfinal⟩
          | raised error _ _ herror =>
              exact ⟨fun message heq => herror message (Except.error.inj heq), fun _ heq => by cases heq⟩
          | answered response _ _ hgoes =>
              have hrest := ih hgoes (by rw [List.length_append, List.length_singleton]; omega) env'
              simp only
              cases hcollect : listOfGenerator lib session strips fuel generator' env' with
              | mk result env'' =>
                  rw [hcollect] at hrest
                  cases result with
                  | error error =>
                      rw [Effect.bind_error hcollect]
                      exact ⟨fun message heq => hrest.sound message (congrArg Except.error (Except.error.inj heq)),
                        fun _ heq => by cases heq⟩
                  | ok rest =>
                      rw [Effect.bind_ok hcollect]
                      refine ⟨(fun _ heq => by cases heq), fun all heq => ?_⟩
                      obtain rfl := Except.ok.inj heq
                      obtain ⟨later, last, hlater, hends⟩ := hrest.ends rest rfl
                      rw [List.append_assoc, List.append_assoc] at hends
                      have hwhole : env''.log = env.log ++ (more ++ later) := by
                        rw [← List.append_assoc, ← hlog]
                        exact hlater
                      exact ⟨more ++ later, last, hwhole, hends⟩

/-! ### A whole `send` -/

theorem sendFirst_run {proxies : Proxies} {request : PreparedRequest T} {env env' : Env T}
    {result : Except (Raised T) (HookedResponse T)}
    (h : sendFirst lib transmission proxies request env = (result, env')) :
    env'.log = env.log ++ [.sent request proxies] ∧ ∀ error, result = .error error → ∀ message, error ≠ .panic message := by
  have hrecord : record (.sent request proxies) env =
      (.ok (), ({ env with log := env.log ++ [.sent request proxies] } : Env T)) := rfl
  rw [sendFirst, Effect.bind_ok hrecord] at h
  obtain ⟨error, hsend, rfl⟩ | ⟨response, env₁, hsend, h⟩ := Effect.bind_run h
  · obtain ⟨hlog, ⟨exception, hexception⟩ | ⟨_, _, hok, -⟩⟩ := call_run hsend
    · refine ⟨hlog, fun other heq message hpanic => ?_⟩
      rw [← Except.error.inj heq, Except.error.inj hexception] at hpanic
      cases hpanic
    · cases hok
  have hlog₁ := (call_run hsend).1
  obtain ⟨error, hhook, rfl⟩ | ⟨hooked, env₂, hhook, h⟩ := Effect.bind_run h
  · obtain ⟨hlog, ⟨exception, hexception⟩ | ⟨_, _, hok, -⟩⟩ := call_run hhook
    · refine ⟨hlog.trans hlog₁, fun other heq message hpanic => ?_⟩
      rw [← Except.error.inj heq, Except.error.inj hexception] at hpanic
      cases hpanic
    · cases hok
  have hlog₂ := (call_run hhook).1.trans hlog₁
  have hpersist : Effect.modify (persistCookies lib request hooked) env₂ =
      ((.ok () : Except (Raised T) Unit), persistCookies lib request hooked env₂) := rfl
  rw [Effect.bind_ok hpersist] at h
  obtain ⟨rfl, rfl⟩ := Prod.mk.inj h
  exact ⟨hlog₂, fun _ heq => by cases heq⟩

theorem readUnlessStream_run {stream : Bool} {response : Response T} {env env' : Env T} {result : Except (Raised T) Unit}
    (h : readUnlessStream lib stream response env = (result, env')) :
    env'.log = env.log ∧ ∀ error, result = .error error → ∀ message, error ≠ .panic message := by
  cases stream with
  | true =>
      obtain ⟨rfl, rfl⟩ := Prod.mk.inj h
      exact ⟨rfl, fun _ heq => by cases heq⟩
  | false =>
      obtain ⟨hlog, ⟨exception, rfl⟩ | ⟨_, _, rfl, -⟩⟩ := call_run h
      · refine ⟨hlog, fun error heq message hpanic => ?_⟩
        rw [← Except.error.inj heq] at hpanic
        cases hpanic
      · exact ⟨hlog, fun _ heq => by cases heq⟩

theorem shuffle_chain (hooked : HookedResponse T) (rest : List (Response T)) {last : Response T}
    (hlast : (hooked.response :: rest).getLast? = some last) : (shuffle hooked rest).response = last ∧
      (rest ≠ [] → (shuffle hooked rest).history = (hooked.response :: rest).dropLast) := by
  unfold shuffle
  obtain rfl | ⟨front, final, rfl⟩ := List.eq_nil_or_concat rest
  · exact ⟨Option.some.inj hlast, fun hne => absurd rfl hne⟩
  · rw [List.concat_eq_append, ← List.cons_append, List.getLast?_concat] at hlast
    rw [List.concat_eq_append, List.getLast?_concat, ← List.cons_append, List.dropLast_concat, List.dropLast_concat]
    exact ⟨Option.some.inj hlast, fun _ => rfl⟩

/-- The responses that a `send` went through, with what it logged behind its first request. -/
structure SentThrough (lib : Library T) (session : Session) (sent : SentResponse T) (responses : List (Response T))
    (events : List (Event T)) : Prop where
  chain : HistoryChain lib responses events
  bounded : responses.length ≤ session.maxRedirects + 1
  last : responses.getLast? = some sent.response
  final : Final lib sent.response
  history : 2 ≤ responses.length → sent.history = responses.dropLast

theorem send_sentThrough (stream : Option Bool) (proxies : Option Proxies) (request : PreparedRequest T) (env : Env T) :
    (∀ message, (send lib transmission session strips ⟨true, stream, proxies⟩ request env).1 ≠ .error (.panic message)) ∧
    ∀ sent, (send lib transmission session strips ⟨true, stream, proxies⟩ request env).1 = .ok sent →
      ∃ firstProxies responses events, (send lib transmission session strips ⟨true, stream, proxies⟩ request env).2.log =
        env.log ++ .sent request firstProxies :: events ∧ SentThrough lib session.toSession sent responses events := by
  cases hsend : send lib transmission session strips ⟨true, stream, proxies⟩ request env with
  | mk result env' =>
      unfold send at hsend
      simp only [if_true] at hsend
      obtain ⟨error, hfirst, rfl⟩ | ⟨hooked, env₁, hfirst, hsend⟩ := Effect.bind_run hsend
      · refine ⟨fun message heq => ?_, fun _ heq => by cases heq⟩
        exact (sendFirst_run hfirst).2 error rfl message (Except.error.inj heq)
      have hlog₁ := (sendFirst_run hfirst).1
      let generator := Generator.created hooked.response request (some (sendProxies lib session ⟨true, stream, proxies⟩ request))
      have hcollected : Collected lib session.toSession [hooked.response] [] env₁.log
          (listOfGenerator lib session strips (session.maxRedirects + 1) generator env₁) :=
        listOfGenerator_collected _ (.created _ _ _) (Nat.lt_succ_self _) env₁
      obtain ⟨error, hcollect, rfl⟩ | ⟨rest, env₂, hcollect, hsend⟩ := Effect.bind_run hsend
      · change listOfGenerator lib session strips (session.maxRedirects + 1) generator env₁ = _ at hcollect
        rw [hcollect] at hcollected
        exact ⟨fun message heq => hcollected.sound message (congrArg Except.error (Except.error.inj heq)),
          fun _ heq => by cases heq⟩
      change listOfGenerator lib session strips (session.maxRedirects + 1) generator env₁ = _ at hcollect
      rw [hcollect] at hcollected
      obtain ⟨more, last, hlog₂, hchain, hbounded, hlast, hfinal⟩ := hcollected.ends rest rfl
      obtain ⟨error, hnext, -⟩ | ⟨next, env₃, hnext, hsend⟩ := Effect.bind_run hsend
      · cases hnext
      obtain ⟨hnone, rfl⟩ := Prod.mk.inj hnext
      obtain rfl := Except.ok.inj hnone
      obtain ⟨error, hread, rfl⟩ | ⟨_, env₄, hread, hsend⟩ := Effect.bind_run hsend
      · exact ⟨fun message heq => (readUnlessStream_run hread).2 error rfl message (Except.error.inj heq),
          fun _ heq => by cases heq⟩
      have hlog₃ : env₄.log = env₂.log := (readUnlessStream_run hread).1
      obtain ⟨rfl, rfl⟩ := Prod.mk.inj hsend
      refine ⟨(fun _ heq => by cases heq), fun sent heq => ?_⟩
      obtain rfl := Except.ok.inj heq
      obtain ⟨hresponse, hhistory⟩ := shuffle_chain hooked rest hlast
      refine ⟨sendProxies lib session ⟨true, stream, proxies⟩ request, hooked.response :: rest, more, ?_, hchain, hbounded, ?_,
        ?_, fun hlength => ?_⟩
      · rw [hlog₃]
        refine hlog₂.trans ?_
        rw [hlog₁, List.append_assoc]
        rfl
      · exact hlast.trans (congrArg some hresponse.symm)
      · exact hresponse.symm ▸ hfinal
      · exact hhistory (by rintro rfl; simp at hlength)

/-! ### The next request -/

theorem leaveResponse_log {frame : Frame T} {env env' : Env T} {result : Except (Raised T) Unit}
    (h : leaveResponse lib session.toSession frame env = (result, env')) :
    env'.log = env.log ++ [.processed frame.resp frame.hist] := by
  have hrecord : record (.processed frame.resp frame.hist) env =
      (.ok (), ({ env with log := env.log ++ [.processed frame.resp frame.hist] } : Env T)) := rfl
  rw [leaveResponse, Effect.bind_ok hrecord] at h
  obtain ⟨_, hcontent, -⟩ | ⟨_, env₁, hcontent, h⟩ := Effect.bind_run h
  · exact (contentOrFallback_run lib hcontent).1
  · have hlog := (contentOrFallback_run lib hcontent).1
    split at h
    · obtain ⟨-, rfl⟩ := Prod.mk.inj h
      exact hlog
    · exact (call_run h).1.trans hlog

/-- The request that a turn yields is the one it sends when it is to send it. -/
theorem turn_sends_next {frame frame' : Frame T} {url : Bytes} {env env' : Env T} {next : PreparedRequest T}
    (h : resolveRedirectsTurn lib session.toSession strips true frame url env = (.ok (.request next, frame'), env')) :
    ∃ rest, sentRequests (resolveRedirectsTurn lib session.toSession strips false frame url env).2.log =
      sentRequests env.log ++ next :: rest := by
  rw [resolveRedirectsTurn_leave] at h ⊢
  obtain ⟨_, -, hcases⟩ | ⟨_, env₁, hleave, h⟩ := Effect.bind_run h
  · cases hcases
  obtain ⟨_, hread, -⟩ | ⟨_, _, hread, h⟩ := Effect.bind_run h
  · cases hread
  rw [Effect.bind_ok hleave, Effect.bind_ok hread]
  obtain ⟨hjar, rfl⟩ := Prod.mk.inj hread
  obtain rfl := Except.ok.inj hjar
  generalize hopRequest lib session.toSession strips frame url (lib.sessionCookies env₁.world) = hop at h ⊢
  have hrecord : record (.prepared frame.resp.requestUrl hop.1 hop.2) env₁ =
      (.ok (), ({ env₁ with log := env₁.log ++ [.prepared frame.resp.requestUrl hop.1 hop.2] } : Env T)) := rfl
  unfold finishTurn at h ⊢
  rw [Effect.bind_ok hrecord] at h ⊢
  obtain ⟨_, -, hcases⟩ | ⟨_, env₂, hrewind, h⟩ := Effect.bind_run h
  · cases hcases
  rw [Effect.bind_ok hrewind]
  have hlog₂ : env₂.log = env.log ++ [.processed frame.resp frame.hist, .prepared frame.resp.requestUrl hop.1 hop.2] := by
    rw [(rewindIfNeeded_run lib hrewind).1, leaveResponse_log hleave, List.append_assoc]
    rfl
  obtain ⟨hyielded, -⟩ := Prod.mk.inj h
  obtain ⟨hrequest, -⟩ := Prod.mk.inj (Except.ok.inj hyielded)
  obtain rfl := Yielded.request.inj hrequest
  have hsent : record (.sent hop.1 hop.2) env₂ =
      (.ok (), ({ env₂ with log := env₂.log ++ [.sent hop.1 hop.2] } : Env T)) := rfl
  simp only [Bool.false_eq_true, if_false]
  rw [Effect.bind_ok hsent]
  refine ⟨[], ?_⟩
  have hlog : sentRequests (env₂.log ++ [.sent hop.1 hop.2]) = sentRequests env.log ++ [hop.1] := by
    rw [hlog₂, List.append_assoc, sentRequests_append]
    rfl
  rw [← hlog]
  cases hcall : call (lib.send hop.1 hop.2) ({ env₂ with log := env₂.log ++ [.sent hop.1 hop.2] } : Env T) with
  | mk result env₃ =>
      have hlog₃ : env₃.log = env₂.log ++ [.sent hop.1 hop.2] := (call_run hcall).1
      cases result with
      | error error =>
          rw [Effect.bind_error hcall]
          exact congrArg sentRequests hlog₃
      | ok resp =>
          have hextract : Effect.modify (fun env => { env with world := lib.extractCookiesToSession hop.1 resp.raw env.world })
              env₃ = ((.ok () : Except (Raised T) Unit),
                ({ env₃ with world := lib.extractCookiesToSession hop.1 resp.raw env₃.world } : Env T)) := rfl
          rw [Effect.bind_ok hcall, Effect.bind_ok hextract]
          cases getRedirectTarget lib resp with
          | error exception => exact congrArg sentRequests hlog₃
          | ok target => exact congrArg sentRequests hlog₃

theorem listOfGenerator_succ_log {fuel : Nat}
    (h : ∀ (generator : Generator T) (env : Env T), ∃ more,
      (listOfGenerator lib session strips fuel generator env).2.log = env.log ++ more) (generator : Generator T) (env : Env T) :
    ∃ more, (listOfGenerator lib session strips (fuel + 1) generator env).2.log =
      (generator.next lib session.toSession strips false env).2.2.log ++ more := by
  unfold listOfGenerator
  cases hnext : generator.next lib session.toSession strips false env with
  | mk answer next =>
      obtain ⟨generator', env'⟩ := next
      obtain ⟨more, hmore⟩ := h generator' env'
      cases answer with
      | stopIteration | raised => exact ⟨[], (List.append_nil _).symm⟩
      | value value =>
          cases value with
          | request => exact ⟨more, hmore⟩
          | response response =>
              refine ⟨more, ?_⟩
              simp only
              rw [← hmore]
              cases hcollect : listOfGenerator lib session strips fuel generator' env' with
              | mk result env'' =>
                  cases result with
                  | error error => rw [Effect.bind_error hcollect]
                  | ok rest =>
                      rw [Effect.bind_ok hcollect]
                      rfl

theorem listOfGenerator_log (fuel : Nat) (generator : Generator T) (env : Env T) :
    ∃ more, (listOfGenerator lib session strips fuel generator env).2.log = env.log ++ more := by
  induction fuel generalizing generator env with
  | zero => exact ⟨[], (List.append_nil _).symm⟩
  | succ fuel ih =>
      obtain ⟨events, hlog, -⟩ := resume_stepped lib session.toSession strips false generator env
      obtain ⟨more, hmore⟩ := listOfGenerator_succ_log ih generator env
      exact ⟨events ++ more, by rw [hmore, ← List.append_assoc, ← hlog]; rfl⟩

theorem turn_yields_request {frame frame' : Frame T} {url : Bytes} {env env' : Env T} {value : Yielded T}
    (h : resolveRedirectsTurn lib session.toSession strips true frame url env = (.ok (value, frame'), env')) :
    ∃ next, value = .request next := by
  obtain ⟨events, -, hturned⟩ := resolveRedirectsTurn_turned lib session.toSession strips true h
  cases hturned with
  | yielded => exact ⟨_, rfl⟩
  | answered _ _ _ hyield => cases hyield

/-- The loop that yields requests beside the one that sends them. -/
inductive NextBeside (env : Env T) : Next T × Generator T × Env T → Next T × Generator T × Env T → Prop
  | stopped : NextBeside env (.stopIteration, .finished, env) (.stopIteration, .finished, env)
  | yielded (next : PreparedRequest T) (generator : Generator T) (env' : Env T) (sending : Next T × Generator T × Env T)
      (hsent : ∃ rest, sentRequests sending.2.2.log = sentRequests env.log ++ next :: rest) :
      NextBeside env (.value (.request next), generator, env') sending
  | raised (error : Raised T) (generator : Generator T) (env' : Env T) (sending : Next T × Generator T × Env T) :
      NextBeside env (.raised error, generator, env') sending

theorem resume_beside (generator : Generator T) (env : Env T) :
    NextBeside env (generator.resume lib session.toSession strips true env)
      (generator.resume lib session.toSession strips false env) := by
  rw [resume_eq, resume_eq]
  cases hframe : frameOf lib generator with
  | error exception => exact .raised _ _ _ _
  | ok frame =>
      cases frame with
      | none => exact .stopped
      | some frame =>
          cases hurl : frame.url with
          | none =>
              simp only [hurl]
              exact .stopped
          | some url =>
              by_cases hempty : url = []
              · simp only [hurl, if_pos hempty]
                exact .stopped
              · simp only [hurl, if_neg hempty]
                cases hturn : resolveRedirectsTurn lib session.toSession strips true frame url env with
                | mk result env₁ =>
                    cases result with
                    | error error => exact .raised _ _ _ _
                    | ok value =>
                        obtain ⟨value, frame'⟩ := value
                        obtain ⟨next, rfl⟩ := turn_yields_request hturn
                        exact .yielded _ _ _ _ (turn_sends_next hturn)

theorem next_beside (generator : Generator T) (env : Env T) :
    NextBeside env (generator.next lib session.toSession strips true env)
      (generator.next lib session.toSession strips false env) := by
  have hbeside : NextBeside env (generator.resume lib session.toSession strips true env)
      (generator.resume lib session.toSession strips false env) := resume_beside generator env
  unfold Generator.next
  generalize generator.resume lib session.toSession strips true env = yielding at hbeside ⊢
  generalize generator.resume lib session.toSession strips false env = sending at hbeside ⊢
  cases hbeside with
  | stopped => exact .stopped
  | yielded next _ _ _ hsent => exact .yielded next _ _ _ hsent
  | raised error => exact .raised _ _ _ _

/-- Where a request is prepared for later, the loop that follows sends it first; where none is, it follows nothing. -/
theorem nextRequest_followed {response : Response T} {request : PreparedRequest T} {proxies : Proxies} {env env' : Env T}
    {next : Option (PreparedRequest T)} (fuel : Nat)
    (h : nextRequest lib session strips response request proxies env = (.ok next, env')) :
    (∀ later, next = some later → ∃ rest,
      sentRequests (listOfGenerator lib session strips (fuel + 1) (.created response request (some proxies)) env).2.log =
        sentRequests env.log ++ later :: rest) ∧
    (next = none → env' = env ∧
      listOfGenerator lib session strips (fuel + 1) (.created response request (some proxies)) env = (.ok [], env)) := by
  let generator : Generator T := .created response request (some proxies)
  have hlog : ∃ more, (listOfGenerator lib session strips (fuel + 1) generator env).2.log =
      (generator.next lib session.toSession strips false env).2.2.log ++ more :=
    listOfGenerator_succ_log (listOfGenerator_log fuel) generator env
  have hbeside : NextBeside env (generator.next lib session.toSession strips true env)
      (generator.next lib session.toSession strips false env) := next_beside generator env
  change (requestOf (generator.next lib session.toSession strips true env).1,
    (generator.next lib session.toSession strips true env).2.2) = _ at h
  have hstop (hstopped : generator.next lib session.toSession strips false env = (.stopIteration, .finished, env)) :
      listOfGenerator lib session strips (fuel + 1) generator env = (.ok [], env) := by
    unfold listOfGenerator
    simp only [hstopped]
  generalize generator.next lib session.toSession strips true env = yielding at h hbeside
  generalize generator.next lib session.toSession strips false env = sending at hlog hbeside hstop
  cases hbeside with
  | stopped =>
      obtain ⟨hnone, rfl⟩ := Prod.mk.inj h
      obtain rfl := Except.ok.inj hnone
      exact ⟨(fun _ heq => by cases heq), fun _ => ⟨rfl, hstop rfl⟩⟩
  | yielded later _ _ _ hsent =>
      obtain ⟨hsome, rfl⟩ := Prod.mk.inj h
      obtain rfl := Except.ok.inj hsome
      refine ⟨fun other heq => ?_, fun heq => by cases heq⟩
      obtain rfl := Option.some.inj heq
      obtain ⟨more, hmore⟩ := hlog
      obtain ⟨rest, hrest⟩ := hsent
      refine ⟨rest ++ sentRequests more, ?_⟩
      change sentRequests (listOfGenerator lib session strips (fuel + 1) generator env).2.log = _
      rw [hmore, sentRequests_append, hrest, List.append_assoc, List.cons_append]
  | raised => cases h

/-- What a `send` does after its first request, without following. -/
theorem send_next_followed {stream : Option Bool} {proxies : Option Proxies} {request : PreparedRequest T} {env env' : Env T}
    {sent : SentResponse T}
    (h : send lib transmission session strips ⟨false, stream, proxies⟩ request env = (.ok sent, env')) :
    (∀ later, sent.next = some later → ∃ rest,
      sentRequests (send lib transmission session strips ⟨true, stream, proxies⟩ request env).2.log =
        sentRequests env.log ++ request :: later :: rest) ∧
    (sent.next = none → send lib transmission session strips ⟨true, stream, proxies⟩ request env = (.ok sent, env')) := by
  unfold send at h ⊢
  simp only [Bool.false_eq_true, if_false, if_true] at h ⊢
  obtain ⟨_, -, hcases⟩ | ⟨hooked, env₁, hfirst, h⟩ := Effect.bind_run h
  · cases hcases
  have hfirst' : sendFirst lib transmission (sendProxies lib session ⟨true, stream, proxies⟩ request) request env =
      (.ok hooked, env₁) := hfirst
  rw [Effect.bind_ok hfirst']
  have hlog := (sendFirst_run hfirst).1
  obtain ⟨_, hnil, -⟩ | ⟨history, _, hnil, h⟩ := Effect.bind_run h
  · cases hnil
  obtain ⟨hhistory, rfl⟩ := Prod.mk.inj hnil
  obtain rfl := Except.ok.inj hhistory
  obtain ⟨_, -, hcases⟩ | ⟨next, env₂, hnext, h⟩ := Effect.bind_run h
  · cases hcases
  obtain ⟨_, -, hcases⟩ | ⟨_, env₃, hread, h⟩ := Effect.bind_run h
  · cases hcases
  obtain ⟨hsent, rfl⟩ := Prod.mk.inj h
  obtain rfl := Except.ok.inj hsent
  obtain ⟨hsome, hnone⟩ := nextRequest_followed session.maxRedirects hnext
  let generator := Generator.created hooked.response request (some (sendProxies lib session ⟨true, stream, proxies⟩ request))
  refine ⟨fun later hlater => ?_, fun hend => ?_⟩
  · obtain ⟨rest, hrest⟩ := hsome later hlater
    refine ⟨rest, ?_⟩
    have hwhole : sentRequests (listOfGenerator lib session strips (session.maxRedirects + 1) generator env₁).2.log =
        sentRequests env.log ++ request :: later :: rest := by
      refine hrest.trans ?_
      rw [hlog, sentRequests_append, List.append_assoc]
      rfl
    rw [← hwhole]
    cases hcollect : listOfGenerator lib session strips (session.maxRedirects + 1) generator env₁ with
    | mk result env₄ =>
        cases result with
        | error error => rw [Effect.bind_error hcollect]
        | ok rest =>
            rw [Effect.bind_ok hcollect]
            change sentRequests ((readUnlessStream lib (stream.getD session.stream) (shuffle hooked rest).response >>= fun _ =>
              pure ((shuffle hooked rest).withNext none)) env₄).2.log = _
            cases hread' : readUnlessStream lib (stream.getD session.stream) (shuffle hooked rest).response env₄ with
            | mk result env₅ =>
                have hlog₅ := (readUnlessStream_run hread').1
                cases result with
                | error error =>
                    rw [Effect.bind_error hread']
                    exact congrArg sentRequests hlog₅
                | ok =>
                    rw [Effect.bind_ok hread']
                    exact congrArg sentRequests hlog₅
  · obtain ⟨rfl, hcollect⟩ := hnone hend
    obtain rfl : next = none := hend
    have hcollect' : listOfGenerator lib session strips (session.maxRedirects + 1) generator env₂ = (.ok [], env₂) := hcollect
    exact (Effect.bind_ok hcollect').trans (Effect.bind_ok hread)

/-! ### With the hops -/

/-- `https://example.com/a` redirects to `https://example.com/b`. -/
def siteTransmission : Transmission siteObjects where
  adapterSend request _ world :=
    (.ok (if request.url = text "https://example.com/a" then siteRedirect "https://example.com/b"
      else ⟨200, request.url, none, request.url, ()⟩), world)
  dispatchHook _ response world := (.ok ⟨response, []⟩, world)

def siteSession : SendSession := { maxRedirects := 30, trustEnv := false, stream := false, proxies := [] }

/-- A `send` that follows redirects ends, and the history on its response is the chain of the responses before it: each was
processed once, with those before it as its history, each but the first answers a request that was sent for it, and the last
redirects nowhere. -/
theorem send_follows (lib : Library T) (transmission : Transmission T) (session : SendSession) (strips : Bytes → Bytes → Bool)
    (stream : Option Bool) (proxies : Option Proxies) (request : PreparedRequest T) (env : Env T) :
    (∀ message, (sendThrough lib transmission session strips ⟨true, stream, proxies⟩ request env).1 ≠
      .error (.panic message)) ∧
    ∀ sent, (sendThrough lib transmission session strips ⟨true, stream, proxies⟩ request env).1 = .ok sent →
      ∃ firstProxies responses events,
        (sendThrough lib transmission session strips ⟨true, stream, proxies⟩ request env).2.log =
          env.log ++ .sent request firstProxies :: events ∧
        SentThrough (withHops lib transmission session strips (stream.getD session.stream)) session.toSession sent responses
          events :=
  send_sentThrough stream proxies request env

theorem site_send_follows : ∃ sent responses events, sent.response.url = text "https://example.com/b" ∧
    sent.history.map Response.statusCode = [302] ∧
    SentThrough (withHops siteLibrary siteTransmission siteSession (shouldStripAuth siteLibrary) false) siteSession.toSession
      sent responses events := by
  have hsent : ∃ sent, (sendThrough siteLibrary siteTransmission siteSession (shouldStripAuth siteLibrary) {} siteRequest
      ⟨(), []⟩).1 = .ok sent ∧ sent.response.url = text "https://example.com/b" ∧
      sent.history.map Response.statusCode = [302] := ⟨_, rfl, rfl, rfl⟩
  obtain ⟨sent, hresult, hurl, hhistory⟩ := hsent
  obtain ⟨-, hall⟩ := send_follows siteLibrary siteTransmission siteSession (shouldStripAuth siteLibrary) none none siteRequest
    ⟨(), []⟩
  obtain ⟨-, responses, events, -, hthrough⟩ := hall sent hresult
  exact ⟨sent, responses, events, hurl, hhistory, hthrough⟩

/-- The request that a `send` without redirects keeps for later is the one that a `send` with them sends next; where it keeps
none, the two do the same. -/
theorem next_is_followed {stream : Option Bool} {proxies : Option Proxies} {request : PreparedRequest T} {env env' : Env T}
    {sent : SentResponse T}
    (h : sendThrough lib transmission session strips ⟨false, stream, proxies⟩ request env = (.ok sent, env')) :
    (∀ later, sent.next = some later → ∃ rest,
      sentRequests (sendThrough lib transmission session strips ⟨true, stream, proxies⟩ request env).2.log =
        sentRequests env.log ++ request :: later :: rest) ∧
    (sent.next = none →
      sendThrough lib transmission session strips ⟨true, stream, proxies⟩ request env = (.ok sent, env')) :=
  send_next_followed h

theorem site_next_is_followed : ∃ later rest, later.url = text "https://example.com/b" ∧
    sentRequests (sendThrough siteLibrary siteTransmission siteSession (shouldStripAuth siteLibrary) {} siteRequest
      ⟨(), []⟩).2.log = siteRequest :: later :: rest := by
  have hsent : ∃ sent env later, sendThrough siteLibrary siteTransmission siteSession (shouldStripAuth siteLibrary)
      { allowRedirects := false } siteRequest ⟨(), []⟩ = (.ok sent, env) ∧ sent.next = some later ∧
      later.url = text "https://example.com/b" := ⟨_, _, _, rfl, rfl, rfl⟩
  obtain ⟨sent, env, later, hresult, hnext, hurl⟩ := hsent
  obtain ⟨rest, hrest⟩ := (next_is_followed hresult).1 later hnext
  exact ⟨later, rest, hurl, hrest⟩

end RequestsNative.Python
