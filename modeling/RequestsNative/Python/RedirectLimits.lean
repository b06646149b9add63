import RequestsNative.Python.RedirectAuth

/-!
# How far redirects are followed

How often the loop sends, with which history a response is processed and when the limit is reached does not depend on
what is stripped from a request, nor on what becomes of a `StopIteration`: the results are for the body of every generator,
and so for the generator and for the cursor.
-/

namespace RequestsNative.Python

open Lib (Effect Reactive)

variable {T : Objects} {lib : Library T} {session : Session} {strips : Bytes → Bytes → Bool} {yieldRequests : Bool}

/-! ### How far a run goes -/

def processedResponses (log : List (Event T)) : List (Response T) :=
  log.filterMap fun
    | .processed response _ => some response
    | _ => none

def sentRequests (log : List (Event T)) : List (PreparedRequest T) :=
  log.filterMap fun
    | .sent request _ => some request
    | _ => none

/-- At most `max_redirects` requests are sent, and a response is processed with the responses before it as its history. -/
structure Bounded (session : Session) (log : List (Event T)) : Prop where
  sent : (sentRequests log).length ≤ session.maxRedirects
  history : ∀ i response history, log[i]? = some (.processed response history) →
    history = processedResponses (log.take i)

theorem Turned.events_eq {frame : Frame T} {url : Bytes} {result : Except (Raised T) (Yielded T × Frame T)}
    {events : List (Event T)} (h : Turned lib session strips yieldRequests frame url result events) :
    ∃ rest, events = .processed frame.resp frame.hist :: rest ∧ processedResponses rest = [] := by
  cases h <;> exact ⟨_, rfl, rfl⟩

theorem Bounded.append {log rest : List (Event T)} (h : Bounded session log) (response : Response T)
    (hrest : processedResponses rest = [])
    (hsent : (sentRequests (log ++ .processed response (processedResponses log) :: rest)).length ≤ session.maxRedirects) :
    Bounded session (log ++ .processed response (processedResponses log) :: rest) := by
  refine ⟨hsent, fun i other history hi => ?_⟩
  obtain hlt | heq | hgt := Nat.lt_trichotomy i log.length
  · rw [List.getElem?_append_left hlt] at hi
    rw [List.take_append_of_le_length (Nat.le_of_lt hlt)]
    exact h.history i other history hi
  · subst heq
    rw [List.getElem?_append_right (Nat.le_refl _), Nat.sub_self, List.getElem?_cons_zero] at hi
    obtain ⟨rfl, rfl⟩ := Event.processed.inj (Option.some.inj hi)
    rw [List.take_append_of_le_length (Nat.le_refl _), List.take_length]
  · have hmem : Event.processed other history ∈ rest := by
      rw [List.getElem?_append_right (Nat.le_of_lt hgt), List.getElem?_cons] at hi
      split at hi
      · omega
      · exact List.mem_of_getElem? hi
    have hprocessed : other ∈ processedResponses rest := List.mem_filterMap.mpr ⟨_, hmem, rfl⟩
    rw [hrest] at hprocessed
    cases hprocessed

/-- A run, with the history it goes on with. -/
structure Counted (lib : Library T) (session : Session) (generator : Generator T) (env : Env T) : Prop where
  bounded : Bounded session env.log
  frame : ∀ frame, frameOf lib generator = .ok (some frame) → frame.hist = processedResponses env.log ∧
    (sentRequests env.log).length ≤ frame.hist.length

theorem Counted.step {generator : Generator T} {env : Env T} (h : Counted lib session generator env) :
    Counted lib session (generator.resume lib session strips yieldRequests env).2.1
      (generator.resume lib session strips yieldRequests env).2.2 := by
  obtain ⟨events, hlog, hstepped⟩ := resume_stepped lib session strips yieldRequests generator env
  generalize (generator.resume lib session strips yieldRequests env).2.2 = env' at hlog
  generalize (generator.resume lib session strips yieldRequests env).2.1 = generator' at hstepped
  generalize (generator.resume lib session strips yieldRequests env).1 = answer at hstepped
  cases hstepped with
  | returned | untargeted => exact ⟨by simpa [hlog] using h.bounded, nofun⟩
  | turned frame url result _ hframe _ _ hturned =>
      obtain ⟨hhist, hcount⟩ := h.frame frame hframe
      have hsent : (sentRequests env'.log).length = (sentRequests env.log).length + (sentRequests events).length := by
        rw [hlog, sentRequests, List.filterMap_append, List.length_append]
        rfl
      have hresponses : processedResponses env'.log = processedResponses env.log ++ [frame.resp] := by
        obtain ⟨rest, rfl, hrest⟩ := hturned.events_eq
        rw [hlog, processedResponses, List.filterMap_append, List.filterMap_cons]
        exact congrArg (processedResponses env.log ++ frame.resp :: ·) hrest
      have hbounded : (sentRequests env'.log).length ≤ session.maxRedirects → Bounded session env'.log := by
        intro hmax
        obtain ⟨rest, rfl, hrest⟩ := hturned.events_eq
        rw [hlog, hhist] at hmax ⊢
        exact h.bounded.append frame.resp hrest hmax
      have hold := h.bounded.sent
      cases hturned with
      | failed | exceeded | unrewound =>
          exact ⟨hbounded (hsent ▸ hold), nofun⟩
      | unanswered jar exception hyield hmax =>
          refine ⟨hbounded ?_, nofun⟩
          rw [hsent]
          exact Nat.lt_of_le_of_lt hcount hmax
      | yielded jar hyield hmax =>
          refine ⟨hbounded (hsent ▸ hold), fun frame' hframe' => ?_⟩
          obtain rfl := Option.some.inj (Except.ok.inj hframe')
          refine ⟨by rw [hresponses, ← hhist]; rfl, ?_⟩
          rw [hsent]
          change (sentRequests env.log).length + 0 ≤ (frame.hist ++ [frame.resp]).length
          rw [List.length_append]
          exact Nat.le_succ_of_le hcount
      | answered jar resp target hyield hmax =>
          refine ⟨hbounded ?_, fun frame' hframe' => ?_⟩
          · rw [hsent]
            exact Nat.lt_of_le_of_lt hcount hmax
          · obtain rfl := Option.some.inj (Except.ok.inj hframe')
            refine ⟨by rw [hresponses, ← hhist]; rfl, ?_⟩
            rw [hsent]
            change (sentRequests env.log).length + 1 ≤ (frame.hist ++ [frame.resp]).length
            rw [List.length_append]
            exact Nat.succ_le_succ hcount

theorem body_bounded (response : Response T) (request : PreparedRequest T) (proxies : Option Proxies)
    (world : T.World) (calls : List Unit) :
    Bounded session ((bodyObject lib session strips yieldRequests).after
      (.created response request proxies, ⟨world, []⟩) calls).2.log := by
  have hstart : Counted lib session (.created response request proxies) (⟨world, []⟩ : Env T) := by
    refine ⟨⟨Nat.zero_le _, by simp⟩, fun frame hframe => ?_⟩
    obtain ⟨url, -, rfl⟩ := frameOf_created lib hframe
    exact ⟨rfl, Nat.le_refl _⟩
  have hend : Counted lib session
      ((bodyObject lib session strips yieldRequests).after (.created response request proxies, ⟨world, []⟩) calls).1
      ((bodyObject lib session strips yieldRequests).after (.created response request proxies, ⟨world, []⟩) calls).2 :=
    Reactive.trace_induction _ (fun _ (s : Generator T × Env T) => Counted lib session s.1 s.2) hstart
      (fun _ _ _ hs => hs.step) calls
  exact hend.bounded

/-! ### When the limit is reached -/

/-- Whether the content of a response can be read, with or without decoding it. -/
def contentConsumed (lib : Library T) (response : Response T) (world : T.World) : Prop :=
  (contentOrFallback lib response ⟨world, []⟩).1 = .ok ()

theorem contentOrFallback_ok_iff (lib : Library T) (response : Response T) (env : Env T) :
    (contentOrFallback lib response env).1 = .ok () ↔ contentConsumed lib response env.world := by
  unfold contentConsumed contentOrFallback call
  simp only
  split
  · simp
  · split
    · split <;> simp
    · simp

theorem exceeded_iff (lib : Library T) (session : Session) (strips : Bytes → Bytes → Bool) (yieldRequests : Bool)
    (frame : Frame T) (url : Bytes) (env : Env T) :
    (∃ response, (resolveRedirectsTurn lib session strips yieldRequests frame url env).1 =
      .error (tooManyRedirects session response)) ↔
      session.maxRedirects ≤ frame.hist.length ∧ contentConsumed lib frame.resp env.world := by
  have hlogged : record (.processed frame.resp frame.hist) env =
      (.ok (), ({ env with log := env.log ++ [.processed frame.resp frame.hist] } : Env T)) := rfl
  have hworld := contentOrFallback_ok_iff lib frame.resp
    ({ env with log := env.log ++ [.processed frame.resp frame.hist] } : Env T)
  rw [← hworld]
  cases hcontent : contentOrFallback lib frame.resp
      ({ env with log := env.log ++ [.processed frame.resp frame.hist] } : Env T) with
  | mk result env' =>
      cases result with
      | error error =>
          obtain ⟨exception, rfl⟩ := (contentOrFallback_run lib hcontent).2 error rfl
          rw [resolveRedirectsTurn_eq, Effect.bind_ok hlogged, Effect.bind_error hcontent]
          simp [tooManyRedirects]
      | ok =>
          by_cases hmax : session.maxRedirects ≤ frame.hist.length
          · rw [resolveRedirectsTurn_eq, Effect.bind_ok hlogged, Effect.bind_ok hcontent, if_pos hmax]
            exact iff_of_true ⟨frame.resp, rfl⟩ ⟨hmax, rfl⟩
          · refine iff_of_false ?_ fun h => hmax h.1
            intro ⟨response, hresult⟩
            obtain ⟨events, -, hturned⟩ := resolveRedirectsTurn_turned lib session strips yieldRequests
              (Prod.eta (resolveRedirectsTurn lib session strips yieldRequests frame url env)).symm
            rw [hresult] at hturned
            cases hturned
            exact hmax ‹_›

/-- A value, rather than the end of the loop. -/
def Next.isValue : Next T → Bool
  | .value _ => true
  | _ => false

/-- What the loop goes on with: a response, where it redirects to and the fragment to inherit. -/
structure Pending (T : Objects) where
  resp : Response T
  target : Except Exception (Option Bytes)
  fragment : Bytes

/-- A response that was received is the next to be followed; behind a request that was yielded it is the same again. -/
def Pending.next (lib : Library T) (pending : Pending T) (answer : Next T) : Pending T :=
  match pending.target, answer with
  | .ok (some url), .value (.response resp) =>
      ⟨resp, getRedirectTarget lib resp, (redirectUrl lib pending.resp url pending.fragment).2⟩
  | .ok (some url), .value (.request _) =>
      ⟨pending.resp, .ok (some (redirectUrl lib pending.resp url pending.fragment).1),
        (redirectUrl lib pending.resp url pending.fragment).2⟩
  | _, _ => pending

theorem Pending.next_response {pending : Pending T} {url : Bytes} (h : pending.target = .ok (some url))
    (resp : Response T) : pending.next lib (.value (.response resp)) =
      ⟨resp, getRedirectTarget lib resp, (redirectUrl lib pending.resp url pending.fragment).2⟩ := by
  simp only [Pending.next, h]

theorem Pending.next_request {pending : Pending T} {url : Bytes} (h : pending.target = .ok (some url))
    (request : PreparedRequest T) : pending.next lib (.value (.request request)) =
      ⟨pending.resp, .ok (some (redirectUrl lib pending.resp url pending.fragment).1),
        (redirectUrl lib pending.resp url pending.fragment).2⟩ := by
  simp only [Pending.next, h]

/-- What the loop goes on with after some answers. -/
def pendingAfter (lib : Library T) (response : Response T) (request : PreparedRequest T) (answers : List (Next T)) :
    Pending T :=
  answers.foldl (Pending.next lib) ⟨response, getRedirectTarget lib response, (lib.urlparse request.url).fragment⟩

/-- A frame that goes on with what is pending. -/
structure Pends (frame : Frame T) (pending : Pending T) : Prop where
  resp : frame.resp = pending.resp
  target : pending.target = .ok frame.url
  fragment : frame.previousFragment = pending.fragment

/-- Where the loop stands after some answers. -/
def Follows (lib : Library T) (session : Session) (response : Response T) (request : PreparedRequest T)
    (answers : List (Next T)) : Generator T → Prop
  | .created resp req _ => answers = [] ∧ resp = response ∧ req = request
  | .suspended frame => answers.all Next.isValue = true ∧ frame.hist.length = answers.length ∧
      frame.hist.length ≤ session.maxRedirects ∧ Pends frame (pendingAfter lib response request answers)
  | .finished => answers.all Next.isValue = false

theorem Follows.frame {response : Response T} {request : PreparedRequest T} {answers : List (Next T)}
    {generator : Generator T} (h : Follows lib session response request answers generator) {frame : Frame T}
    (hframe : frameOf lib generator = .ok (some frame)) :
    answers.all Next.isValue = true ∧ frame.hist.length = answers.length ∧ frame.hist.length ≤ session.maxRedirects ∧
      Pends frame (pendingAfter lib response request answers) := by
  cases generator with
  | created resp req proxies =>
      obtain ⟨rfl, rfl, rfl⟩ := h
      obtain ⟨url, htarget, rfl⟩ := frameOf_created lib hframe
      exact ⟨rfl, rfl, Nat.zero_le _, rfl, htarget, rfl⟩
  | suspended =>
      obtain rfl := Option.some.inj (Except.ok.inj hframe)
      exact h
  | finished => cases hframe

theorem Follows.step {response : Response T} {request : PreparedRequest T} {answers : List (Next T)}
    {generator : Generator T} {env : Env T} (h : Follows lib session response request answers generator) :
    Follows lib session response request (answers ++ [(generator.resume lib session strips yieldRequests env).1])
      (generator.resume lib session strips yieldRequests env).2.1 := by
  obtain ⟨events, -, hstepped⟩ := resume_stepped lib session strips yieldRequests generator env
  generalize (generator.resume lib session strips yieldRequests env).2.1 = generator' at hstepped
  generalize (generator.resume lib session strips yieldRequests env).1 = answer at hstepped
  cases hstepped with
  | returned | untargeted => simp [Follows, Next.isValue]
  | turned frame url result _ hframe hurl _ hturned =>
      obtain ⟨hvalues, hlength, -, hpends⟩ := h.frame hframe
      have htarget : (pendingAfter lib response request answers).target = .ok (some url) := hurl ▸ hpends.target
      have hnext (answer : Next T) : pendingAfter lib response request (answers ++ [answer]) =
          (pendingAfter lib response request answers).next lib answer := by
        rw [pendingAfter, List.foldl_append]
        rfl
      cases hturned with
      | failed | exceeded | unrewound | unanswered => simp [Follows, generatorOf, nextOf, Next.isValue]
      | yielded jar _ hmax =>
          refine ⟨by simpa [nextOf, Next.isValue] using hvalues, ?_, ?_, ?_⟩
          · simp [preparedFrame, hlength]
          · simpa [preparedFrame] using Nat.succ_le_of_lt hmax
          · rw [hnext, nextOf, Pending.next_request htarget, ← hpends.resp, ← hpends.fragment]
            exact ⟨rfl, rfl, rfl⟩
      | answered jar resp target _ hmax _ hresp =>
          refine ⟨by simpa [nextOf, Next.isValue] using hvalues, ?_, ?_, ?_⟩
          · simp [preparedFrame, hlength]
          · simpa [preparedFrame] using Nat.succ_le_of_lt hmax
          · rw [hnext, nextOf, Pending.next_response htarget, ← hpends.resp, ← hpends.fragment]
            exact ⟨rfl, hresp, rfl⟩

theorem nextOf_eq_raised {result : Except (Raised T) (Yielded T × Frame T)} {error : Raised T} :
    nextOf result = .raised error ↔ result = .error error := by
  cases result <;> simp [nextOf]

/-- The answer to the next call is that the limit is reached. -/
def Exceeds (session : Session) (answer : Next T) : Prop :=
  ∃ response, answer = .raised (tooManyRedirects session response)

/-- After `max_redirects` values, and never else, a redirect whose content is read raises `TooManyRedirects`. -/
def ExceedsAtLimit (lib : Library T) (session : Session) (pending : Pending T) (answers : List (Next T))
    (world : T.World) (answer : Next T) : Prop :=
  Exceeds session answer ↔ answers.all Next.isValue = true ∧ answers.length = session.maxRedirects ∧
    (∃ target, pending.target = .ok (some target) ∧ target ≠ []) ∧ contentConsumed lib pending.resp world

theorem Follows.exceedsAtLimit {response : Response T} {request : PreparedRequest T} {answers : List (Next T)}
    {generator : Generator T} (h : Follows lib session response request answers generator) (env : Env T) :
    ExceedsAtLimit lib session (pendingAfter lib response request answers) answers env.world
      (generator.resume lib session strips yieldRequests env).1 := by
  unfold ExceedsAtLimit
  rw [resume_eq]
  cases hframe : frameOf lib generator with
  | error exception =>
      refine iff_of_false (by simp [Exceeds, tooManyRedirects]) ?_
      rintro ⟨-, -, ⟨target, htarget, -⟩, -⟩
      cases generator with
      | created resp req proxies =>
          obtain ⟨rfl, rfl, rfl⟩ := h
          rw [show (pendingAfter lib resp req []).target = getRedirectTarget lib resp from rfl] at htarget
          rw [frameOf, htarget] at hframe
          cases hframe
      | suspended | finished => cases hframe
  | ok frame =>
      cases frame with
      | none =>
          refine iff_of_false (by simp [Exceeds]) ?_
          rintro ⟨hvalues, -⟩
          cases generator with
          | created resp req proxies =>
              rw [frameOf] at hframe
              cases htarget : getRedirectTarget lib resp <;> rw [htarget] at hframe <;> cases hframe
          | suspended => cases hframe
          | finished =>
              rw [show answers.all Next.isValue = false from h] at hvalues
              cases hvalues
      | some frame =>
          obtain ⟨hvalues, hlength, hmax, hpends⟩ := h.frame hframe
          rw [← hpends.resp, hpends.target, ← hlength]
          cases hurl : frame.url with
          | none =>
              simp only [hurl]
              exact iff_of_false (by simp [Exceeds]) (by simp)
          | some url =>
              by_cases hempty : url = []
              · simp only [hurl, if_pos hempty]
                exact iff_of_false (by simp [Exceeds]) (by simp [hempty])
              · simp only [hurl, if_neg hempty]
                have hexceeds : Exceeds session
                    (nextOf (resolveRedirectsTurn lib session strips yieldRequests frame url env).1) ↔ _ :=
                  (exists_congr fun response => nextOf_eq_raised).trans
                    (exceeded_iff lib session strips yieldRequests frame url env)
                rw [hexceeds]
                constructor
                · rintro ⟨hle, hconsumed⟩
                  exact ⟨hvalues, Nat.le_antisymm hmax hle, ⟨url, rfl, hempty⟩, hconsumed⟩
                · rintro ⟨-, heq, -, hconsumed⟩
                  exact ⟨Nat.le_of_eq heq.symm, hconsumed⟩

theorem body_exceedsAtLimit (response : Response T) (request : PreparedRequest T) (proxies : Option Proxies)
    (world : T.World) (calls : List Unit) :
    ExceedsAtLimit lib session
      (pendingAfter lib response request ((bodyObject lib session strips yieldRequests).observe
        (.created response request proxies, ⟨world, []⟩) calls))
      ((bodyObject lib session strips yieldRequests).observe (.created response request proxies, ⟨world, []⟩) calls)
      ((bodyObject lib session strips yieldRequests).after (.created response request proxies, ⟨world, []⟩)
        calls).2.world
      ((bodyObject lib session strips yieldRequests).call
        ((bodyObject lib session strips yieldRequests).after (.created response request proxies, ⟨world, []⟩) calls)
        ()).1 := by
  have hstart : Follows lib session response request [] (.created response request proxies) := ⟨rfl, rfl, rfl⟩
  have hfollows : Follows lib session response request
      ((bodyObject lib session strips yieldRequests).observe (.created response request proxies, ⟨world, []⟩) calls)
      ((bodyObject lib session strips yieldRequests).after (.created response request proxies, ⟨world, []⟩)
        calls).1 :=
    Reactive.trace_induction _
      (fun answers (s : Generator T × Env T) => Follows lib session response request answers s.1) hstart
      (fun _ _ _ hs => hs.step) calls
  exact hfollows.exceedsAtLimit _

/-! ### The generator -/

theorem isValue_guarded (answer : Next T) : answer.guarded.isValue = answer.isValue := by cases answer <;> rfl

theorem Pending.next_guarded (pending : Pending T) (answer : Next T) :
    pending.next lib answer.guarded = pending.next lib answer := by
  cases answer with
  | value | stopIteration => rfl
  | raised error => cases htarget : pending.target <;> simp only [Pending.next, htarget, Next.guarded]

theorem pendingAfter_guarded (response : Response T) (request : PreparedRequest T) (answers : List (Next T)) :
    pendingAfter lib response request (answers.map Next.guarded) = pendingAfter lib response request answers := by
  rw [pendingAfter, List.foldl_map]
  simp only [Pending.next_guarded]
  rfl

theorem exceeds_guarded (answer : Next T) : Exceeds session answer.guarded ↔ Exceeds session answer := by
  cases answer with
  | value | stopIteration => exact Iff.rfl
  | raised error =>
      constructor
      · rintro ⟨response, heq⟩
        refine ⟨response, ?_⟩
        have hsame : guardStop error = tooManyRedirects session response := Next.raised.inj heq
        unfold guardStop at hsame
        split at hsame
        · cases hsame
        · rw [hsame]
      · rintro ⟨response, heq⟩
        exact ⟨response, by rw [heq]; rfl⟩

theorem exceedsAtLimit_guarded {pending : Pending T} {answers : List (Next T)} {world : T.World} {answer : Next T} :
    ExceedsAtLimit lib session pending (answers.map Next.guarded) world answer.guarded ↔
      ExceedsAtLimit lib session pending answers world answer := by
  unfold ExceedsAtLimit
  rw [exceeds_guarded, List.length_map, List.all_map, show Next.isValue ∘ Next.guarded = Next.isValue (T := T) from
    funext isValue_guarded]

end RequestsNative.Python
