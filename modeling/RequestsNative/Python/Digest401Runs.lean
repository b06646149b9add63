import RequestsNative.Python.Digest401

/-!
# The worker answers as Python does

The origin executes the actions of the worker one after the other, and they are the statements of `handle_401` in their
order. The worker reads the count of the attempts before the first of them, so the two agree where rewinding the body
leaves the count alone.
-/

namespace RequestsNative.Python

open RequestsNative.Lib

variable {D : DigestObjects} {library : DigestLibrary D} {owner owner' final : OriginDigest401Owner D}
  {response : D.Response} {world world' : D.World}

/-! ### Actions beside statements -/

/-- The actions of the worker, up to the first that fails. -/
def runActions (library : DigestLibrary D) : List Digest401Action → OriginEffect D Unit
  | [] => pure ()
  | action :: actions => do
      plainAction library action
      runActions library actions

/-- The owner after some actions has what the statements return, or the error that they raise. -/
structure Mirrors (actions : Except D.Error Unit × OriginDigest401Owner D)
    (statements : Except D.Error D.Response × D.World) : Prop where
  world : actions.2.world = statements.2
  handlerError : actions.2.handlerError = none
  failed : ∀ error, statements.1 = .error error → actions.1 = .error error
  sent : ∀ sent, statements.1 = .ok sent → actions.1 = .ok () ∧ actions.2.sent = some sent

/-- The action does this to the world, and `keep` to the owner. -/
def Does (library : DigestLibrary D) (action : Digest401Action) (owner : OriginDigest401Owner D) {α : Type}
    (x : Effect D.World D.Error α) (keep : α → OriginDigest401Owner D → OriginDigest401Owner D) : Prop :=
  (∀ error world, x owner.world = (.error error, world) →
    plainAction library action owner = (.error error, { owner with world })) ∧
  ∀ a world, x owner.world = (.ok a, world) → plainAction library action owner = (.ok (), keep a { owner with world })

theorem mirrors_cons {action : Digest401Action} {actions : List Digest401Action} {α : Type} {x : Effect D.World D.Error α}
    {keep : α → OriginDigest401Owner D → OriginDigest401Owner D} {rest : α → Effect D.World D.Error D.Response}
    (hdoes : Does library action owner x keep) (herror : owner.handlerError = none)
    (hrest : ∀ a world, Mirrors (runActions library actions (keep a { owner with world })) (rest a world)) :
    Mirrors (runActions library (action :: actions) owner) ((x >>= rest) owner.world) := by
  unfold runActions
  cases hx : x owner.world with
  | mk result world =>
      cases result with
      | error error =>
          rw [Effect.bind_error (hdoes.1 error world hx), Effect.bind_error hx]
          exact ⟨rfl, herror, (fun other heq => congrArg Except.error (Except.error.inj heq)), fun _ heq => by cases heq⟩
      | ok a =>
          rw [Effect.bind_ok (hdoes.2 a world hx), Effect.bind_ok hx]
          exact hrest a world

theorem does_inWorld {action : Digest401Action} {x : Effect D.World D.Error Unit}
    (h : plainAction library action owner = inWorld x owner) : Does library action owner x fun _ owner => owner := by
  refine ⟨fun error world hx => ?_, fun a world hx => ?_⟩
  · rw [h, inWorld, hx]
  · rw [h, inWorld, hx]

theorem preparedRequest_some {prepared : D.Request} (h : owner.prepared = some prepared) :
    preparedRequest library owner = (.ok prepared, owner) := by
  unfold preparedRequest
  have hread : (Effect.read : OriginEffect D _) owner = (.ok owner, owner) := rfl
  rw [Effect.bind_ok hread, h]
  rfl

theorem sentResponse_some {sent : D.Response} (h : owner.sent = some sent) :
    sentResponse library owner = (.ok sent, owner) := by
  unfold sentResponse
  have hread : (Effect.read : OriginEffect D _) owner = (.ok owner, owner) := rfl
  rw [Effect.bind_ok hread, h]
  rfl

theorem read_bind {α : Type} (f : OriginDigest401Owner D → OriginEffect D α) :
    (Effect.read >>= f) owner = f owner owner := rfl

theorem inWorld_bind {α β : Type} (x : Effect D.World D.Error α) (f : α → Effect D.World D.Error β) :
    inWorld (x >>= f) owner = (inWorld x >>= fun a => inWorld (f a)) owner := by
  cases hx : x owner.world with
  | mk result world =>
      cases result with
      | error error =>
          have hin : inWorld x owner = (.error error, { owner with world }) := by rw [inWorld, hx]
          rw [Effect.bind_error hin, inWorld, Effect.bind_error hx]
      | ok a =>
          have hin : inWorld x owner = (.ok a, { owner with world }) := by rw [inWorld, hx]
          rw [Effect.bind_ok hin, inWorld, Effect.bind_ok hx]
          rfl

theorem does_increment (value : Nat) : Does library (.increment401 value) owner
    (Effect.modify (library.setNum401Calls value)) fun _ owner => owner := does_inWorld rfl

theorem does_parse (sAuth : Bytes) : Does library (.parse sAuth) owner
    (library.parseChallenge sAuth >>= fun chal => Effect.modify (library.setChal chal)) fun _ owner => owner :=
  does_inWorld (inWorld_bind _ _).symm

theorem does_consume (h : owner.response = response) :
    Does library .consume owner (library.content response) fun _ owner => owner := by
  subst h
  exact does_inWorld (read_bind _)

theorem does_close (h : owner.response = response) :
    Does library .close owner (library.close response) fun _ owner => owner := by
  subst h
  exact does_inWorld (read_bind _)

theorem does_keeping {action : Digest401Action} {α : Type} {x : Effect D.World D.Error α}
    {keep : α → OriginDigest401Owner D → OriginDigest401Owner D}
    (h : plainAction library action owner = (inWorld x >>= fun a => Effect.modify (keep a)) owner) :
    Does library action owner x keep := by
  refine ⟨fun error world hx => ?_, fun a world hx => ?_⟩
  · have hin : inWorld x owner = (.error error, { owner with world }) := by rw [inWorld, hx]
    exact h.trans (Effect.bind_error hin)
  · have hin : inWorld x owner = (.ok a, { owner with world }) := by rw [inWorld, hx]
    exact h.trans (Effect.bind_ok hin)

theorem does_copy (h : owner.response = response) : Does library .copy owner (library.copy response)
    fun prepared owner => { owner with prepared := some prepared } := by
  subst h
  exact does_keeping (read_bind _)

theorem does_send {prepared : D.Request} (h : owner.response = response) (hprepared : owner.prepared = some prepared) :
    Does library .send owner (library.send response prepared) fun sent owner => { owner with sent := some sent } := by
  subst h
  exact does_keeping ((read_bind _).trans (Effect.bind_ok (preparedRequest_some hprepared)))

theorem does_extractCookies {prepared : D.Request} (h : owner.response = response)
    (hprepared : owner.prepared = some prepared) :
    Does library .extractCookies owner (library.extractCookies prepared response) fun _ owner => owner := by
  subst h
  exact does_inWorld ((read_bind _).trans (Effect.bind_ok (preparedRequest_some hprepared)))

theorem does_prepareCookies {prepared : D.Request} (hprepared : owner.prepared = some prepared) :
    Does library .prepareCookies owner (library.prepareCookies prepared) fun _ owner => owner :=
  does_inWorld (Effect.bind_ok (preparedRequest_some hprepared))

theorem does_buildDigestHeader {prepared : D.Request} (hprepared : owner.prepared = some prepared) :
    Does library .buildDigestHeader owner (attachDigest library prepared) fun _ owner => owner := by
  refine does_inWorld ((Effect.bind_ok (preparedRequest_some hprepared)).trans ?_)
  rw [attachDigest, inWorld_bind]
  cases hheader : inWorld (library.buildDigestHeader prepared) owner with
  | mk result owner' =>
      cases result with
      | error error => rw [Effect.bind_error hheader, Effect.bind_error hheader]
      | ok header =>
          rw [Effect.bind_ok hheader, Effect.bind_ok hheader]
          cases header <;> rfl

theorem does_appendHistory {sent : D.Response} (h : owner.response = response) (hsent : owner.sent = some sent) :
    Does library .appendHistory owner (library.appendHistory sent response) fun _ owner => owner := by
  subst h
  exact does_inWorld ((read_bind _).trans (Effect.bind_ok (sentResponse_some hsent)))

theorem does_replaceRequest {prepared : D.Request} {sent : D.Response} (hprepared : owner.prepared = some prepared)
    (hsent : owner.sent = some sent) :
    Does library .replaceRequest owner (library.setRequest sent prepared) fun _ owner => owner :=
  does_inWorld ((Effect.bind_ok (preparedRequest_some hprepared)).trans (Effect.bind_ok (sentResponse_some hsent)))

/-! ### The request is sent again -/

theorem mirrors_sent {sent : D.Response} (herror : owner.handlerError = none) (hsent : owner.sent = some sent) :
    Mirrors (runActions library [] owner) ((pure sent : Effect D.World D.Error D.Response) owner.world) := by
  refine ⟨rfl, herror, (fun _ heq => by cases heq), fun other heq => ⟨rfl, ?_⟩⟩
  obtain rfl := Except.ok.inj heq
  exact hsent

theorem mirrors_send {prepared : D.Request} (herror : owner.handlerError = none) (hresponse : owner.response = response)
    (hprepared : owner.prepared = some prepared) :
    Mirrors (runActions library [.send, .appendHistory, .replaceRequest] owner)
      ((do
        let sent ← library.send response prepared
        library.appendHistory sent response
        library.setRequest sent prepared
        return sent : Effect D.World D.Error D.Response) owner.world) := by
  refine mirrors_cons (does_send hresponse hprepared) herror fun sent world => ?_
  refine mirrors_cons (does_appendHistory hresponse rfl) herror fun _ world => ?_
  refine mirrors_cons (does_replaceRequest hprepared rfl) herror fun _ world => ?_
  exact mirrors_sent herror rfl

/-- The actions that send the request again. -/
def resendActions (num401Calls : Nat) (sAuth : Bytes) : List Digest401Action :=
  [.increment401 (num401Calls + 1), .parse sAuth, .consume, .close, .copy, .extractCookies, .prepareCookies,
    .buildDigestHeader, .send, .appendHistory, .replaceRequest]

theorem mirrors_resend (num401Calls : Nat) (sAuth : Bytes) (herror : owner.handlerError = none)
    (hresponse : owner.response = response) :
    Mirrors (runActions library (resendActions num401Calls sAuth) owner)
      (resend library response num401Calls sAuth owner.world) := by
  unfold resend resendActions
  refine mirrors_cons (does_increment _) herror fun _ world => ?_
  rw [← Effect.bind_assoc]
  refine mirrors_cons (does_parse sAuth) herror fun _ world => ?_
  refine mirrors_cons (does_consume hresponse) herror fun _ world => ?_
  refine mirrors_cons (does_close hresponse) herror fun _ world => ?_
  refine mirrors_cons (does_copy hresponse) herror fun prepared world => ?_
  refine mirrors_cons (does_extractCookies hresponse rfl) herror fun _ world => ?_
  refine mirrors_cons (does_prepareCookies rfl) herror fun _ world => ?_
  refine mirrors_cons (does_buildDigestHeader rfl) herror fun _ world => ?_
  exact mirrors_send herror hresponse rfl

/-! ### The worker -/

/-- The worker and its origin, in one thread. -/
abbrev WorkerReturns (library : DigestLibrary D) (num401Calls : Nat) (w : Digest401Point) (owner : OriginDigest401Owner D)
    (outcome : Digest401Outcome) (final : OriginDigest401Owner D) : Prop :=
  Coroutine.Returns (digest401Worker library num401Calls)
    (serveAction fun action owner => OriginDigest401Owner.executeAction library owner action) w owner outcome final

/-- The worker asks for the actions, as long as they are acknowledged, and completes. -/
def AsksFor (library : DigestLibrary D) (num401Calls : Nat) (outcome : Digest401Outcome) :
    List Digest401Action → Digest401Point → Prop
  | [], w => digest401Worker library num401Calls w = .complete outcome
  | action :: actions, w => action ≠ .challenge ∧ ∃ next, digest401Worker library num401Calls w = .ask action (acked next) ∧
      AsksFor library num401Calls outcome actions next

theorem digest401Action_plain {action : Digest401Action} (h : action ≠ .challenge) :
    digest401Action library action = (plainAction library action >>= fun _ => pure .ack) := by
  cases action <;> first | rfl | exact absurd rfl h

theorem serve_ok {action : Digest401Action} (h : action ≠ .challenge)
    (hok : plainAction library action owner = (.ok (), owner')) :
    serveAction (fun action owner => OriginDigest401Owner.executeAction library owner action) action owner =
      some (.ok .ack, owner') := by
  have haction : digest401Action library action owner = (.ok .ack, owner') := by
    rw [digest401Action_plain h, Effect.bind_ok hok, Effect.pure_apply]
  simp only [serveAction, OriginDigest401Owner.executeAction, haction]

theorem serve_error {action : Digest401Action} (h : action ≠ .challenge) {error : D.Error}
    (herror : plainAction library action owner = (.error error, owner')) :
    serveAction (fun action owner => OriginDigest401Owner.executeAction library owner action) action owner =
      some (.ok .failed, { owner' with handlerError := owner'.handlerError.or (some error) }) := by
  have haction : digest401Action library action owner = (.error error, owner') := by
    rw [digest401Action_plain h, Effect.bind_error herror]
  simp only [serveAction, OriginDigest401Owner.executeAction, haction]

theorem workerReturns_ok {num401Calls : Nat} {outcome : Digest401Outcome} {actions : List Digest401Action} {w : Digest401Point}
    (hasks : AsksFor library num401Calls outcome actions w) (hrun : runActions library actions owner = (.ok (), final)) :
    WorkerReturns library num401Calls w owner outcome final := by
  induction actions generalizing w owner with
  | nil =>
      obtain ⟨-, rfl⟩ := Prod.mk.inj hrun
      exact Coroutine.returns_complete hasks
  | cons action actions ih =>
      obtain ⟨hplain, next, hturn, hrest⟩ := hasks
      rw [runActions] at hrun
      obtain ⟨_, _, heq⟩ | ⟨_, owner', hok, hrun⟩ := Effect.bind_run hrun
      · cases heq
      · exact Coroutine.returns_ask hturn (serve_ok hplain hok) (ih hrest hrun)

theorem workerReturns_error {num401Calls : Nat} {outcome : Digest401Outcome} {actions : List Digest401Action}
    {w : Digest401Point} {error : D.Error} (hasks : AsksFor library num401Calls outcome actions w)
    (hrun : runActions library actions owner = (.error error, final)) :
    WorkerReturns library num401Calls w owner .handlerFailed
      { final with handlerError := final.handlerError.or (some error) } := by
  induction actions generalizing w owner with
  | nil => cases congrArg Prod.fst hrun
  | cons action actions ih =>
      obtain ⟨hplain, next, hturn, hrest⟩ := hasks
      rw [runActions] at hrun
      obtain ⟨_, hfail, heq⟩ | ⟨_, owner', hok, hrun⟩ := Effect.bind_run hrun
      · obtain rfl := Except.error.inj heq
        exact Coroutine.returns_ask hturn (serve_error hplain hfail) (Coroutine.returns_complete rfl)
      · exact Coroutine.returns_ask hturn (serve_ok hplain hok) (ih hrest hrun)

/-- The worker comes to the result, with the world. -/
def ComesTo (library : DigestLibrary D) (num401Calls : Nat) (w : Digest401Point) (owner : OriginDigest401Owner D)
    (result : Except D.Error D.Response × D.World) : Prop :=
  ∃ outcome final, WorkerReturns library num401Calls w owner outcome final ∧ final.conclude library outcome = result.1 ∧
    final.world = result.2

theorem Mirrors.comesTo {num401Calls : Nat} {actions : List Digest401Action} {w : Digest401Point}
    {statements : Except D.Error D.Response × D.World} (h : Mirrors (runActions library actions owner) statements)
    (hasks : AsksFor library num401Calls .sent actions w) : ComesTo library num401Calls w owner statements := by
  cases hrun : runActions library actions owner with
  | mk result final =>
      rw [hrun] at h
      have hnone : final.handlerError = none := h.handlerError
      cases hstatements : statements.1 with
      | error error =>
          obtain rfl : result = .error error := h.failed error hstatements
          refine ⟨_, _, workerReturns_error hasks hrun, ?_, h.world⟩
          simp only [OriginDigest401Owner.conclude, hnone, Option.none_or, hstatements]
      | ok sent =>
          have hsent : result = .ok () ∧ final.sent = some sent := h.sent sent hstatements
          obtain ⟨rfl, hsent⟩ := hsent
          refine ⟨_, _, workerReturns_ok hasks hrun, ?_, h.world⟩
          simp only [OriginDigest401Owner.conclude, hnone, hsent, hstatements]

theorem asksFor_resend {num401Calls : Nat} {sAuth : Bytes} (hdigest : library.mentionsDigest sAuth = true)
    (hcalls : num401Calls < 2) :
    AsksFor library num401Calls .sent (resendActions num401Calls sAuth)
      (.stepping (digest401Steps.drop 2) (some sAuth)) := by
  have hnot : ¬2 ≤ num401Calls := Nat.not_le.mpr hcalls
  have hturn : digest401Worker library num401Calls (.stepping (digest401Steps.drop 2) (some sAuth)) =
      .ask (.increment401 (num401Calls + 1)) (acked (.stepping (digest401Steps.drop 3) (some sAuth))) := by
    simp [digest401Worker, digest401Walk, digest401Steps, hdigest, hnot]
  have hne : ∀ action, action ∈ resendActions num401Calls sAuth → action ≠ .challenge := by
    rintro action haction rfl
    simp [resendActions] at haction
  simp only [resendActions, List.forall_mem_cons] at hne
  obtain ⟨hincrement, hparse, hconsume, hclose, hcopy, hextract, hprepare, hbuild, hsend, happend, hreplace, -⟩ := hne
  exact ⟨hincrement, _, hturn, hparse, _, rfl, hconsume, _, rfl, hclose, _, rfl, hcopy, _, rfl, hextract, _, rfl, hprepare,
    _, rfl, hbuild, _, rfl, hsend, _, rfl, happend, _, rfl, hreplace, _, rfl, rfl⟩

theorem comesTo_reset {num401Calls : Nat} {sAuth : Bytes} (herror : owner.handlerError = none)
    (hnot : (!library.mentionsDigest sAuth || decide (2 ≤ num401Calls)) = true) :
    ComesTo library num401Calls (.stepping (digest401Steps.drop 2) (some sAuth)) owner
      (keepResponse library owner.response owner.world) := by
  have hturn : digest401Worker library num401Calls (.stepping (digest401Steps.drop 2) (some sAuth)) =
      .ask .reset401 (acked (.returning .original)) := by
    simp only [digest401Worker, digest401Walk, digest401Steps, List.drop_succ_cons, List.drop_zero, hnot, if_true]
  have hasks : AsksFor library num401Calls .original [.reset401]
      (.stepping (digest401Steps.drop 2) (some sAuth)) := ⟨Digest401Action.noConfusion, _, hturn, rfl⟩
  refine ⟨_, _, workerReturns_ok hasks rfl, ?_, rfl⟩
  simp only [OriginDigest401Owner.conclude, herror]
  rfl

/-! ### From the start -/

/-- Looking for `seek` raises nothing but `AttributeError` and does not find `None`, and rewinding leaves the count of the
attempts alone. -/
structure RewindSpares (library : DigestLibrary D) (response : D.Response) (world : D.World) : Prop where
  lookup : library.pos world ≠ none → ∃ seek, (library.getSeek (library.body response world) world).1 = .ok seek ∧
    seek.any library.isNone = false
  count : ∀ world', rewindTo library response world = (.ok (), world') → library.num401Calls world' = library.num401Calls world

theorem plainAction_seek (h : RewindSpares library owner.response owner.world) :
    plainAction library .seek owner = inWorld (rewindTo library owner.response) owner := by
  have hread : (Effect.read : Effect D.World D.Error _) owner.world = (.ok owner.world, owner.world) := rfl
  change seekAction library owner = _
  unfold seekAction rewindTo
  rw [read_bind, inWorld, Effect.bind_ok hread]
  cases hpos : library.pos owner.world with
  | none => rfl
  | some position =>
      have hsome : library.pos owner.world ≠ none := by
        rw [hpos]
        exact Option.some_ne_none position
      obtain ⟨seek, hlookup, hnone⟩ := h.lookup hsome
      cases hget : library.getSeek (library.body owner.response owner.world) owner.world with
      | mk result world =>
          rw [hget] at hlookup
          obtain rfl : result = .ok seek := hlookup
          have hfound : inWorld (okOrNone (library.getSeek (library.body owner.response owner.world))) owner =
              (.ok seek, { owner with world }) := by
            rw [inWorld, okOrNone, hget]
            rfl
          dsimp only
          rw [Effect.bind_ok hfound, Effect.bind_ok hget]
          cases seek with
          | none => rfl
          | some seek =>
              have hcallable : library.isNone seek = false := hnone
              dsimp only
              rw [hcallable]
              rfl

theorem comesTo_ask {num401Calls : Nat} {action : Digest401Action} {w next : Digest401Point}
    {result : Except D.Error D.Response × D.World} (h : action ≠ .challenge)
    (hturn : digest401Worker library num401Calls w = .ask action (acked next))
    (hok : plainAction library action owner = (.ok (), owner')) (hrest : ComesTo library num401Calls next owner' result) :
    ComesTo library num401Calls w owner result := by
  obtain ⟨outcome, final, hreturns, hresult⟩ := hrest
  exact ⟨outcome, final, Coroutine.returns_ask hturn (serve_ok h hok) hreturns, hresult⟩

theorem comesTo_tryDigest {num401Calls : Nat} (hcalls : library.num401Calls owner.world = some num401Calls)
    (herror : owner.handlerError = none) :
    ComesTo library num401Calls (.stepping (digest401Steps.drop 1) none) owner
      (tryDigest library owner.response owner.world) := by
  have hread : (Effect.read : Effect D.World D.Error _) owner.world = (.ok owner.world, owner.world) := rfl
  have hchallenge : ∀ result, ComesTo library num401Calls
      (.stepping (digest401Steps.drop 2) (some (library.authenticate owner.response owner.world))) owner result →
      ComesTo library num401Calls (.stepping (digest401Steps.drop 1) none) owner result := by
    rintro result ⟨outcome, final, hreturns, hresult⟩
    exact ⟨outcome, final, Coroutine.returns_ask rfl rfl hreturns, hresult⟩
  refine hchallenge _ ?_
  unfold tryDigest
  rw [Effect.bind_ok hread, hcalls]
  by_cases hdigest : library.mentionsDigest (library.authenticate owner.response owner.world) = true
  · by_cases hlt : num401Calls < 2
    · simp only [hdigest, hlt, if_true]
      exact (mirrors_resend num401Calls _ herror rfl).comesTo (asksFor_resend hdigest hlt)
    · simp only [hdigest, hlt, if_true, if_false]
      exact comesTo_reset herror (by simp [Nat.not_lt.mp hlt])
  · simp only [hdigest]
    exact comesTo_reset herror (by simp [hdigest])

theorem comesTo_handle401 {num401Calls : Nat} (hstatus : library.statusCode response world = 401)
    (hcalls : library.num401Calls world = some num401Calls) (h : RewindSpares library response world) :
    ComesTo library num401Calls (.stepping digest401Steps none) { response, world } (handle401 library response world) := by
  have hread : (Effect.read : Effect D.World D.Error _) world = (.ok world, world) := rfl
  have hinside : ¬((401 : Int) < 400 ∨ (500 : Int) ≤ 401) := by decide
  have hseek : plainAction library .seek { response, world } = inWorld (rewindTo library response) { response, world } :=
    plainAction_seek h
  unfold handle401
  rw [Effect.bind_ok hread, hstatus, if_neg hinside]
  cases hrewind : rewindTo library response world with
  | mk result rewound =>
      rw [inWorld, hrewind] at hseek
      cases result with
      | error error =>
          rw [Effect.bind_error hrewind]
          exact ⟨_, _, Coroutine.returns_ask rfl (serve_error Digest401Action.noConfusion hseek)
            (Coroutine.returns_complete rfl), rfl, rfl⟩
      | ok done =>
          rw [Effect.bind_ok hrewind]
          exact comesTo_ask Digest401Action.noConfusion rfl hseek
            (comesTo_tryDigest ((h.count rewound hrewind).trans hcalls) rfl)

/-- What the trial answers, in whatever order the steps of its bridge happen, is what `handle_401` does. -/
theorem handles401_iff (library : DigestLibrary D) (processId : Nat) (response : D.Response) (world : D.World)
    (h : RewindSpares library response world) (result : Except D.Error D.Response) (world' : D.World) :
    Handles401 library processId response world result world' ↔ handle401 library response world = (result, world') := by
  unfold Handles401
  cases htaken : taken library response world with
  | none => exact Iff.rfl
  | some num401Calls =>
      have hworker : library.statusCode response world = 401 ∧ library.num401Calls world = some num401Calls := by
        unfold taken at htaken
        split at htaken
        · rename_i hpristine
          simp only [Bool.and_eq_true, decide_eq_true_eq] at hpristine
          exact ⟨hpristine.2, (Option.filter_eq_some_iff.mp htaken).1⟩
        · cases htaken
      obtain ⟨outcome, final, hreturns, hresult, hworld⟩ := comesTo_handle401 hworker.1 hworker.2 h
      constructor
      · rintro ⟨trace, b, done, owner, hrun, hreturned, rfl, rfl⟩
        obtain ⟨rfl, rfl⟩ := hreturns.unique (bridge_returned hrun hreturned)
        exact Prod.ext hresult.symm hworld.symm
      · intro heq
        rw [heq] at hresult hworld
        obtain ⟨trace, b, hrun, hreturned⟩ := Bridge.run_of_returns hreturns
        exact ⟨trace, b, outcome, final, hrun, hreturned, hresult, hworld⟩

/-- A first response and the one after it, with the count of the attempts for the world. -/
abbrev siteDigest : DigestObjects where
  World := Nat
  Response := Bool
  Request := Unit
  Body := Unit
  Seek := Unit
  Position := Nat
  Challenge := Unit
  Error := String

def siteDigestLibrary : DigestLibrary siteDigest where
  pristine _ _ := true
  pos _ := some (3 : Nat)
  num401Calls calls := some calls
  setNum401Calls calls _ := calls
  setChal _ calls := calls
  statusCode resent _ := bif resent then 200 else 401
  body _ _ := ()
  getSeek _ := return some ()
  isNone _ := false
  seek _ _ := return ()
  authenticate _ _ := text "Digest realm=\"site\""
  lower := List.map fun byte => if 65 ≤ byte ∧ byte ≤ 90 then byte + 32 else byte
  parseChallenge _ := return ()
  content _ := return ()
  close _ := return ()
  copy _ := return ()
  extractCookies _ _ := return ()
  prepareCookies _ := return ()
  buildDigestHeader _ := return some (text "Digest")
  setAuthorization _ _ := return ()
  send _ _ := return true
  appendHistory _ _ := return ()
  setRequest _ _ := return ()
  typeError := id
  runtimeError := id

theorem site_rewindSpares : RewindSpares siteDigestLibrary false (1 : Nat) := by
  refine ⟨fun _ => ⟨some (), rfl, rfl⟩, fun world' h => ?_⟩
  have hworld : (1 : Nat) = world' := congrArg Prod.snd h
  exact congrArg some hworld.symm

theorem site_handles401 : Handles401 siteDigestLibrary 7 false (1 : Nat) (.ok true) (2 : Nat) :=
  (handles401_iff siteDigestLibrary 7 false (1 : Nat) site_rewindSpares (.ok true) (2 : Nat)).mpr rfl

end RequestsNative.Python
