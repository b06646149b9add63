import RequestsNative.Lib.Machine
import RequestsNative.Python.DigestHeader

/-!
# Runs of the digest header

The trial answers a challenge as `build_digest_header` does, with the same changes to the state of the thread and the same
calls, unless the challenge has no value for its realm or its nonce, `urlparse` refuses the URL, or the counter is full. A
counter that starts at zero is not full before 2³² answers.
-/

namespace RequestsNative.Python

open RequestsNative.Lib
open RequestsNative.Request (DigestChallenge DigestEnv DigestOutput DigestPlan DigestPreparation DigestRequest DigestState
  digestAlgorithm digestHex digestRequestTarget hexDigest increment lowerHex prepareDigest upperCase)
open RequestsNative.Url (chars)

variable {Outer Error : Type} {env : DigestEnv} {callbacks : DigestCallbacks Outer Error} {call : DigestCall}
  {world world' : DigestWorld Outer} {result : Except Error (Option Bytes)} {realm nonce : Bytes}

/-! ### The same texts -/

theorem ncValue_small {nonceCount : Nat} (h : nonceCount < 2 ^ 32) : ncValue nonceCount = lowerHex 8 nonceCount := by
  have hlog : Nat.log 16 nonceCount < 8 := by
    by_cases hzero : nonceCount = 0
    · rw [hzero, Nat.log_zero_right]
      decide
    · exact Nat.log_lt_of_lt_pow hzero (lt_of_lt_of_eq h (by decide))
  rw [ncValue, max_eq_left (by omega)]

theorem algorithmName_eq (algorithm : Option Bytes) :
    algorithmName algorithm = (chars (algorithm.getD (text "MD5"))).flatMap upperCase := by
  cases algorithm with
  | none => decide
  | some algorithm => rfl

theorem hashUtf8_eq (env : DigestEnv) (algorithm : Option Bytes) :
    hashUtf8 env (algorithmName algorithm) = (digestAlgorithm (algorithm.getD (text "MD5"))).map (digestHex env) := by
  rw [algorithmName_eq, hashUtf8, digestAlgorithm]
  generalize (chars (algorithm.getD (text "MD5"))).flatMap upperCase = upper
  change (if upper = codes "MD5" ∨ upper = codes "MD5-SESS" then _ else _) = Option.map _ (if upper = codes "MD5" then _
    else if upper = codes "MD5-SESS" then _ else if upper = codes "SHA" then _ else if upper = codes "SHA-256" then _
    else if upper = codes "SHA-512" then _ else _)
  by_cases hmd5 : upper = codes "MD5"
  · rw [if_pos (.inl hmd5), if_pos hmd5]
    rfl
  · by_cases hsess : upper = codes "MD5-SESS"
    · rw [if_pos (.inr hsess), if_neg hmd5, if_pos hsess]
      rfl
    · rw [if_neg (not_or.mpr ⟨hmd5, hsess⟩), if_neg hmd5, if_neg hsess]
      split
      · rfl
      · split
        · rfl
        · split <;> rfl

theorem md5Sess_iff {algorithm : Option Bytes} {known : Request.DigestAlgorithm}
    (h : digestAlgorithm (algorithm.getD (text "MD5")) = some known) :
    algorithmName algorithm = codes "MD5-SESS" ↔ known = .md5Sess := by
  rw [algorithmName_eq]
  rw [digestAlgorithm] at h
  generalize (chars (algorithm.getD (text "MD5"))).flatMap upperCase = upper at h
  change (if upper = codes "MD5" then _ else if upper = codes "MD5-SESS" then _ else if upper = codes "SHA" then _
    else if upper = codes "SHA-256" then _ else if upper = codes "SHA-512" then _ else _) = some known at h
  by_cases hsess : upper = codes "MD5-SESS"
  · have hmd5 : upper ≠ codes "MD5" := by
      rw [hsess]
      decide
    rw [if_neg hmd5, if_pos hsess] at h
    exact iff_of_true hsess (Option.some.inj h).symm
  · refine iff_of_false hsess ?_
    rintro rfl
    rw [if_neg hsess] at h
    split at h
    · cases h
    · split at h
      · cases h
      · split at h
        · cases h
        · split at h <;> cases h

theorem response_eq (env : DigestEnv) (plan : DigestPlan) (ncvalue cnonce : Bytes) :
    plan.response env ncvalue cnonce =
      respdig (digestHex env plan.algorithm)
        (if plan.algorithm = .md5Sess then digestHex env plan.algorithm (digestHex env plan.algorithm
            (plan.request.username ++ text ":" ++ plan.request.challenge.realm ++ text ":" ++ plan.request.password) ++
              text ":" ++ plan.request.challenge.nonce ++ text ":" ++ cnonce)
          else digestHex env plan.algorithm
            (plan.request.username ++ text ":" ++ plan.request.challenge.realm ++ text ":" ++ plan.request.password))
        (digestHex env plan.algorithm (plan.request.method ++ text ":" ++ plan.path))
        plan.request.challenge.nonce ncvalue cnonce plan.request.challenge.qop := by
  simp only [DigestPlan.response, respdig, keyedDigest]
  generalize (if plan.algorithm = .md5Sess then _ else _ : Bytes) = ha1
  cases plan.request.challenge.qop with
  | none => simp only [List.append_assoc]
  | some qop =>
      cases qop with
      | nil => simp only [List.append_assoc]
      | cons b qop => rfl

theorem text_cases (value : Option Bytes) : value = none ∨ value = some [] ∨ ∃ b rest, value = some (b :: rest) := by
  cases value with
  | none => exact .inl rfl
  | some value =>
      cases value with
      | nil => exact .inr (.inl rfl)
      | cons b rest => exact .inr (.inr ⟨b, rest, rfl⟩)

theorem finish_eq (env : DigestEnv) (plan : DigestPlan) (ctime random : Bytes) :
    let challenge := plan.request.challenge
    let ncvalue := lowerHex 8 plan.state.nonceCount.toNat
    let cnonce := plan.cnonce env ctime random
    plan.finish env ctime random =
      match plan.response env ncvalue cnonce with
      | none => ⟨none, plan.state⟩
      | some response => ⟨some (digestFields plan.request.username challenge.realm challenge.nonce plan.path response
          challenge.opaqueText challenge.algorithm challenge.qop ncvalue cnonce),
          { plan.state with lastNonce := challenge.nonce }⟩ := by
  simp only [DigestPlan.finish, digestFields]
  cases plan.response env (lowerHex 8 plan.state.nonceCount.toNat) (plan.cnonce env ctime random) with
  | none => rfl
  | some response =>
      -- each of the three fields stands in the header if its text is not empty
      obtain hopaqueText | hopaqueText | ⟨b, opaqueText, hopaqueText⟩ := text_cases plan.request.challenge.opaqueText <;>
        obtain halgorithm | halgorithm | ⟨c, algorithm, halgorithm⟩ := text_cases plan.request.challenge.algorithm <;>
          obtain hqop | hqop | ⟨d, qop, hqop⟩ := text_cases plan.request.challenge.qop <;>
            (simp only [hopaqueText, halgorithm, hqop]; rfl)

/-! ### The same calls -/

section Answers

variable {plan : DigestPlan} {outcome : DigestOutcome} {owner : OriginDigestOwner Outer Error}

/-- What worker and origin come to, one request after the other. -/
def servedDigest (env : DigestEnv) (plan : DigestPlan) (callbacks : DigestCallbacks Outer Error) (world : DigestWorld Outer) :
    DigestOutcome × OriginDigestOwner Outer Error :=
  match outside callbacks.ctime world with
  | (.error error, world) => (.handlerFailed, { handlerError := some error, world })
  | (.ok ctime, world) =>
      match outside (callbacks.urandom 8) world with
      | (.error error, world) => (.handlerFailed, { handlerError := some error, world })
      | (.ok random, world) => (.complete (plan.finish env ctime random), { world })

theorem serve_bytes (action : DigestAction) {value : Bytes} (h : digestAction callbacks action world = (.ok value, world')) :
    serveAction (digestDisposition callbacks) action ({ world } : OriginDigestOwner Outer Error) =
      some (.ok (.bytes value), { world := world' }) := by
  simp only [serveAction, digestDisposition, h]

theorem serve_raised (action : DigestAction) {error : Error} (h : digestAction callbacks action world = (.error error, world')) :
    serveAction (digestDisposition callbacks) action ({ world } : OriginDigestOwner Outer Error) =
      some (.ok .failed, { handlerError := some error, world := world' }) := by
  simp only [serveAction, digestDisposition, h, Option.none_or]

theorem returns_served : Coroutine.Returns (digestWorker env plan) (serveAction (digestDisposition callbacks)) .askTime
    { world } (servedDigest env plan callbacks world).1 (servedDigest env plan callbacks world).2 := by
  have htime : digestWorker env plan .askTime = .ask .ctime (DigestPoint.resume .askRandom) := rfl
  have hrandom (ctime : Bytes) : digestWorker env plan (.askRandom ctime) =
      .ask (.random 8) (DigestPoint.resume fun random => .returning (.complete (plan.finish env ctime random))) := rfl
  cases hctime : outside callbacks.ctime world with
  | mk answer world₁ =>
      cases answer with
      | error error =>
          simp only [servedDigest, hctime]
          exact Coroutine.returns_ask htime (serve_raised .ctime hctime) (Coroutine.returns_complete rfl)
      | ok ctime =>
          refine Coroutine.returns_ask htime (serve_bytes .ctime hctime) ?_
          cases hurandom : outside (callbacks.urandom 8) world₁ with
          | mk answer world₂ =>
              cases answer with
              | error error =>
                  simp only [servedDigest, hctime, hurandom]
                  exact Coroutine.returns_ask (hrandom ctime) (serve_raised (.random 8) hurandom)
                    (Coroutine.returns_complete rfl)
              | ok random =>
                  simp only [servedDigest, hctime, hurandom]
                  exact Coroutine.returns_ask (hrandom ctime) (serve_bytes (.random 8) hurandom)
                    (Coroutine.returns_complete rfl)

theorem bridge_served (processId : Nat) : (∃ trace b, (Bridge.machine processId (digestWorker env plan)
      (digestDisposition callbacks)).Run (Bridge.start processId .askTime { world }) trace b ∧
      (outcome, owner) ∈ returnedIn (bridgeLog trace)) ↔ servedDigest env plan callbacks world = (outcome, owner) := by
  constructor
  · rintro ⟨trace, b, hrun, hreturned⟩
    obtain ⟨houtcome, howner⟩ := returns_served.unique (bridge_returned hrun hreturned)
    rw [houtcome, howner]
  · intro hserved
    have hreturns : Coroutine.Returns (digestWorker env plan) (serveAction (digestDisposition callbacks)) .askTime { world }
        (servedDigest env plan callbacks world).1 (servedDigest env plan callbacks world).2 := returns_served
    rw [hserved] at hreturns
    exact Bridge.run_of_returns hreturns

theorem bridge_concluded (processId : Nat) : (∃ trace b outcome owner, (Bridge.machine processId (digestWorker env plan)
      (digestDisposition callbacks)).Run (Bridge.start processId .askTime { world }) trace b ∧
      (outcome, owner) ∈ returnedIn (bridgeLog trace) ∧ owner.conclude callbacks outcome = (result, world')) ↔
      (servedDigest env plan callbacks world).2.conclude callbacks (servedDigest env plan callbacks world).1 =
        (result, world') := by
  constructor
  · rintro ⟨trace, b, outcome, owner, hrun, hreturned, hconclude⟩
    have hserved := (bridge_served processId).mp ⟨trace, b, hrun, hreturned⟩
    simp only [hserved]
    exact hconclude
  · intro hconclude
    obtain ⟨trace, b, hrun, hreturned⟩ := (bridge_served processId).mpr rfl
    exact ⟨trace, b, _, _, hrun, hreturned, hconclude⟩

theorem challengeItem_some {threadLocal : DigestLocal} {key : String} {value : Option Bytes}
    (h : threadLocal.item key = some value) (world : DigestWorld Outer) :
    challengeItem callbacks threadLocal key world = (.ok value, world) := by
  rw [challengeItem, h]
  rfl

theorem challengeItem_none {threadLocal : DigestLocal} {key : String} (h : threadLocal.item key = none)
    (world : DigestWorld Outer) : challengeItem callbacks threadLocal key world = (.error (callbacks.keyError key), world) := by
  rw [challengeItem, h]
  rfl

theorem build_no_realm (h : world.threadLocal.item "realm" = none) :
    buildDigestHeader env callbacks call world = (.error (callbacks.keyError "realm"), world) := by
  rw [buildDigestHeader, Effect.bind_ok (show Effect.read world = (.ok world, world) from rfl),
    Effect.bind_error (challengeItem_none h world)]

theorem build_no_nonce {realm : Option Bytes} (hrealm : world.threadLocal.item "realm" = some realm)
    (h : world.threadLocal.item "nonce" = none) :
    buildDigestHeader env callbacks call world = (.error (callbacks.keyError "nonce"), world) := by
  rw [buildDigestHeader, Effect.bind_ok (show Effect.read world = (.ok world, world) from rfl),
    Effect.bind_ok (challengeItem_some hrealm world), Effect.bind_error (challengeItem_none h world)]

theorem build_unsupported {realm nonce : Option Bytes} (hrealm : world.threadLocal.item "realm" = some realm)
    (hnonce : world.threadLocal.item "nonce" = some nonce)
    (h : digestAlgorithm ((world.threadLocal.item "algorithm").join.getD (text "MD5")) = none) :
    buildDigestHeader env callbacks call world = (.ok none, world) := by
  rw [buildDigestHeader, Effect.bind_ok (show Effect.read world = (.ok world, world) from rfl),
    Effect.bind_ok (challengeItem_some hrealm world), Effect.bind_ok (challengeItem_some hnonce world)]
  simp only [hashUtf8_eq, h, Option.map_none]
  rfl

theorem stored_answer (response : Option Bytes) (fields : Bytes → Bytes) (nonce : Bytes) (state : DigestState)
    (world : DigestWorld Outer) :
    (match response with
      | none => pure none
      | some response => do
          Effect.modify (DigestWorld.setLastNonce nonce)
          pure (some (fields response)) : Effect (DigestWorld Outer) Error (Option Bytes)) world =
      let output : DigestOutput := match response with
        | none => ⟨none, state⟩
        | some response => ⟨some (fields response), { state with lastNonce := nonce }⟩
      (.ok output.header, if output.header.isSome then world.setLastNonce output.state.lastNonce else world) := by
  cases response with
  | none => rfl
  | some response => rfl

/-- The plan of a challenge whose algorithm and whose target are known. -/
theorem build_planned (hrealm : world.threadLocal.item "realm" = some (some realm))
    (hnonce : world.threadLocal.item "nonce" = some (some nonce)) {known : Request.DigestAlgorithm}
    (hknown : digestAlgorithm ((world.threadLocal.item "algorithm").join.getD (text "MD5")) = some known)
    {parsed : UrlParseResult} (hparsed : urlparse callbacks.refusesNetloc call.url = some parsed) {count : UInt32}
    (hcount : count.toNat = if nonce = world.threadLocal.lastNonce then world.threadLocal.nonceCount + 1 else 1)
    (hplan : plan = ⟨call.request world.threadLocal realm nonce, known, parsed.target, ⟨world.threadLocal.lastNonce, count⟩⟩) :
    buildDigestHeader env callbacks call world =
      let served := servedDigest env plan callbacks (world.setNonceCount count.toNat)
      served.2.conclude callbacks served.1 := by
  have hnext : (if some nonce = some world.threadLocal.lastNonce then world.threadLocal.nonceCount + 1 else 1) = count.toNat := by
    rw [hcount]
    simp only [Option.some.injEq]
  rw [buildDigestHeader, Effect.bind_ok (show Effect.read world = (.ok world, world) from rfl),
    Effect.bind_ok (challengeItem_some hrealm world), Effect.bind_ok (challengeItem_some hnonce world)]
  simp only [hashUtf8_eq, hknown, Option.map_some, hparsed, hnext]
  rw [Effect.bind_ok (show Effect.modify (DigestWorld.setNonceCount count.toNat) world =
    (.ok (), world.setNonceCount count.toNat) from rfl)]
  cases hctime : outside callbacks.ctime (world.setNonceCount count.toNat) with
  | mk answer world₁ =>
      cases answer with
      | error error =>
          rw [Effect.bind_error hctime]
          simp only [servedDigest, hctime, OriginDigestOwner.conclude]
      | ok ctime =>
          rw [Effect.bind_ok hctime]
          cases hurandom : outside (callbacks.urandom 8) world₁ with
          | mk answer world₂ =>
              cases answer with
              | error error =>
                  rw [Effect.bind_error hurandom]
                  simp only [servedDigest, hctime, hurandom, OriginDigestOwner.conclude]
              | ok random =>
                  rw [Effect.bind_ok hurandom]
                  have hfinish := finish_eq env plan ctime random
                  have hresponse := response_eq env plan (lowerHex 8 count.toNat) (plan.cnonce env ctime random)
                  subst hplan
                  simp only [servedDigest, hctime, hurandom, OriginDigestOwner.conclude, hfinish, hresponse]
                  simp only [if_congr (md5Sess_iff hknown) rfl rfl, ncValue_small count.toNat_lt, DigestPlan.cnonce,
                    DigestCall.request, shown, Option.getD_some]
                  exact stored_answer _ _ _ _ _

end Answers

/-! ### One answer -/

/-- What the trial takes: both required parameters have values if they are there, `urlparse` reads the URL, and counting the
nonce once more does not leave the range of the counter. -/
structure DigestReady (callbacks : DigestCallbacks Outer Error) (call : DigestCall) (threadLocal : DigestLocal) : Prop where
  url : urlparse callbacks.refusesNetloc call.url ≠ none
  realm : threadLocal.item "realm" ≠ some none
  nonce : threadLocal.item "nonce" ≠ some none
  room : threadLocal.item "nonce" = some (some threadLocal.lastNonce) → threadLocal.nonceCount ≠ 2 ^ 32 - 1

theorem prepareDigest_ready {request : DigestRequest} {known : Request.DigestAlgorithm} {target lastNonce : Bytes}
    {nonceCount : Nat} (hknown : digestAlgorithm (request.challenge.algorithm.getD (text "MD5")) = some known)
    (htarget : digestRequestTarget env request.url = some target) (hfits : nonceCount < 2 ^ 32)
    (hroom : request.challenge.nonce = lastNonce → nonceCount ≠ 2 ^ 32 - 1) :
    ∃ count : UInt32, count.toNat = (if request.challenge.nonce = lastNonce then nonceCount + 1 else 1) ∧
      prepareDigest env request ⟨lastNonce, UInt32.ofNat nonceCount⟩ =
        .ok (.ready ⟨request, known, target, ⟨lastNonce, count⟩⟩) := by
  have hofNat : (UInt32.ofNat nonceCount).toNat = nonceCount := UInt32.toNat_ofNat_of_lt' hfits
  by_cases hsame : request.challenge.nonce = lastNonce
  · have hmax := hroom hsame
    have hnotMax : ¬(env.overflowChecks = true ∧ (UInt32.ofNat nonceCount).toNat = 2 ^ 32 - 1) := by
      rw [hofNat]
      exact fun h => hmax h.2
    refine ⟨UInt32.ofNat nonceCount + 1, ?_, ?_⟩
    · rw [if_pos hsame, UInt32.toNat_add, hofNat, UInt32.toNat_one, Nat.mod_eq_of_lt (by omega)]
    · simp only [prepareDigest, hknown, htarget, if_pos hsame, increment, if_neg hnotMax]
      rfl
  · refine ⟨1, by rw [if_neg hsame]; rfl, ?_⟩
    simp only [prepareDigest, hknown, htarget, if_neg hsame]
    rfl

/-- The trial returns and raises what `build_digest_header` does, and leaves the same world. -/
theorem digestTrial_iff (hplain : ParsesPlainly env) (hready : DigestReady callbacks call world.threadLocal)
    (processId : Nat) (pristine : Bool) :
    DigestTrial env callbacks processId pristine call world result world' ↔
      buildDigestHeader env callbacks call world = (result, world') := by
  have hraised (error : Error) : (result = .error error ∧ world' = world) ↔ (Except.error error, world) = (result, world') := by
    rw [Prod.mk.injEq]
    exact and_congr eq_comm eq_comm
  unfold DigestTrial selectDigest
  by_cases hcompat : pristine = false ∨ digestRequestTarget env call.url = none
  · simp only [if_pos hcompat]
  simp only [if_neg hcompat]
  obtain ⟨target, htarget⟩ := Option.ne_none_iff_exists'.mp (not_or.mp hcompat).2
  obtain ⟨parsed, hparsed⟩ := Option.ne_none_iff_exists'.mp hready.url
  have hsame := urlparse_target hplain htarget hparsed
  cases hrealm : world.threadLocal.item "realm" with
  | none =>
      simp only [requiredChallengeString, hrealm, build_no_realm hrealm]
      exact hraised _
  | some realm =>
      cases realm with
      | none => exact absurd hrealm hready.realm
      | some realm =>
          cases hnonce : world.threadLocal.item "nonce" with
          | none =>
              simp only [requiredChallengeString, hrealm, hnonce, build_no_nonce hrealm hnonce]
              exact hraised _
          | some nonce =>
              cases nonce with
              | none => exact absurd hnonce hready.nonce
              | some nonce =>
                  simp only [requiredChallengeString, hrealm, hnonce]
                  by_cases hlarge : 2 ^ 32 ≤ world.threadLocal.nonceCount
                  · simp only [if_pos hlarge]
                  simp only [if_neg hlarge]
                  cases hknown : digestAlgorithm ((world.threadLocal.item "algorithm").join.getD (text "MD5")) with
                  | none =>
                      simp only [prepareDigest, DigestCall.request, hknown, build_unsupported hrealm hnonce hknown]
                      rw [Prod.mk.injEq]
                      exact and_congr eq_comm eq_comm
                  | some known =>
                      obtain ⟨count, hcount, hprepare⟩ := prepareDigest_ready
                        (show digestAlgorithm ((call.request world.threadLocal realm nonce).challenge.algorithm.getD _) = _
                          from hknown) htarget (not_le.mp hlarge)
                        fun hagain => hready.room (hnonce.trans (congrArg (fun nonce => some (some nonce)) hagain))
                      simp only [hprepare]
                      rw [← hsame, build_planned hrealm hnonce hknown hparsed hcount rfl]
                      exact bridge_concluded processId

/-! ### Runs -/

/-- A challenge that is stored, and the call that answers it. -/
structure DigestInput where
  chal : IndexMap Bytes (Option Bytes)
  call : DigestCall

/-- `_thread_local.chal = …`, in `handle_401`. -/
def DigestWorld.setChal (chal : IndexMap Bytes (Option Bytes)) (world : DigestWorld Outer) : DigestWorld Outer :=
  { world with threadLocal := { world.threadLocal with chal } }

/-- What does not depend on the counter. -/
structure DigestInput.Valued (callbacks : DigestCallbacks Outer Error) (input : DigestInput) : Prop where
  url : urlparse callbacks.refusesNetloc input.call.url ≠ none
  realm : input.chal.entries.lookup (text "realm") ≠ some none
  nonce : input.chal.entries.lookup (text "nonce") ≠ some none

/-- `build_digest_header` answers one challenge after the other. -/
def headerMachine (env : DigestEnv) (callbacks : DigestCallbacks Outer Error) :
    Machine (DigestWorld Outer) DigestInput (Except Error (Option Bytes)) :=
  ⟨fun world input => some (buildDigestHeader env callbacks input.call (world.setChal input.chal))⟩

/-- The trial answers one challenge after the other, each with some order of the steps of its bridge. -/
inductive TrialRun (env : DigestEnv) (callbacks : DigestCallbacks Outer Error) (processId : Nat) (start : DigestWorld Outer) :
    List (DigestInput × Except Error (Option Bytes)) → DigestWorld Outer → Prop
  | nil : TrialRun env callbacks processId start [] start
  | snoc {trace : List (DigestInput × Except Error (Option Bytes))} {world world' : DigestWorld Outer} {input : DigestInput}
      {pristine : Bool} {result : Except Error (Option Bytes)} : TrialRun env callbacks processId start trace world →
      DigestTrial env callbacks processId pristine input.call (world.setChal input.chal) result world' →
        TrialRun env callbacks processId start (trace ++ [(input, result)]) world'

/-- The count is at most this. -/
def CountAtMost (bound : Nat) (world : DigestWorld Outer) : Prop := world.threadLocal.nonceCount ≤ bound

theorem keeps_outside {α : Type} (bound : Nat) (effect : Effect Outer Error α) :
    Effect.Keeps (CountAtMost bound) (outside effect : Effect (DigestWorld Outer) Error α) := fun _ h => h

theorem keeps_challengeItem (bound : Nat) (threadLocal : DigestLocal) (key : String) :
    Effect.Keeps (CountAtMost bound) (challengeItem callbacks threadLocal key) := by
  unfold challengeItem
  split
  · exact Effect.Keeps.fail _
  · exact Effect.Keeps.pure _

theorem build_count (env : DigestEnv) (callbacks : DigestCallbacks Outer Error) (call : DigestCall) (world : DigestWorld Outer) :
    CountAtMost (world.threadLocal.nonceCount + 1) (buildDigestHeader env callbacks call world).2 := by
  have hcounts (nonce : Option Bytes) : Effect.Keeps (CountAtMost (world.threadLocal.nonceCount + 1))
      (Effect.modify (DigestWorld.setNonceCount
        (if nonce = some world.threadLocal.lastNonce then world.threadLocal.nonceCount + 1 else 1)) :
          Effect (DigestWorld Outer) Error Unit) := by
    refine Effect.Keeps.modify fun _ _ => ?_
    change (if nonce = some world.threadLocal.lastNonce then world.threadLocal.nonceCount + 1 else 1) ≤ _
    split
    · exact Nat.le_refl _
    · exact Nat.le_add_left _ _
  have hstores (nonce : Bytes) : Effect.Keeps (CountAtMost (world.threadLocal.nonceCount + 1))
      (Effect.modify (DigestWorld.setLastNonce nonce) : Effect (DigestWorld Outer) Error Unit) :=
    Effect.Keeps.modify fun _ h => h
  rw [buildDigestHeader, Effect.bind_ok (show Effect.read world = (.ok world, world) from rfl)]
  refine Effect.Keeps.bind (keeps_challengeItem _ _ _) (fun realm => ?_) world (Nat.le_succ _)
  refine Effect.Keeps.bind (keeps_challengeItem _ _ _) fun nonce => ?_
  simp only
  split
  · exact Effect.Keeps.pure _
  · split
    · exact Effect.Keeps.fail _
    · refine Effect.Keeps.bind (hcounts nonce) fun _ => ?_
      split
      · exact Effect.Keeps.fail _
      · refine Effect.Keeps.bind (keeps_outside _ _) fun ctime => Effect.Keeps.bind (keeps_outside _ _) fun random => ?_
        split
        · exact Effect.Keeps.pure _
        · exact Effect.Keeps.bind (hstores _) fun _ => Effect.Keeps.pure _

section Runs

variable {start : DigestWorld Outer} {trace : List (DigestInput × Except Error (Option Bytes))}

theorem headerRun_count (hrun : (headerMachine env callbacks).Run start trace world) :
    CountAtMost (start.threadLocal.nonceCount + trace.length) world := by
  refine hrun.induction (fun trace world => CountAtMost (start.threadLocal.nonceCount + trace.length) world) (Nat.le_refl _) ?_
  intro trace world input result world' _ hcount hstep
  have hone := build_count env callbacks input.call (world.setChal input.chal)
  rw [Option.some.inj hstep] at hone
  rw [List.length_append, List.length_singleton, ← Nat.add_assoc]
  exact Nat.le_trans hone (Nat.succ_le_succ hcount)

theorem ready_behind (hrun : (headerMachine env callbacks).Run start trace world)
    (hroom : start.threadLocal.nonceCount + trace.length + 1 < 2 ^ 32) {input : DigestInput} (hvalued : input.Valued callbacks) :
    DigestReady callbacks input.call (world.setChal input.chal).threadLocal := by
  have hcount : world.threadLocal.nonceCount ≤ start.threadLocal.nonceCount + trace.length := headerRun_count hrun
  refine ⟨hvalued.url, hvalued.realm, hvalued.nonce, fun _ hmax => ?_⟩
  have hsame : (world.setChal input.chal).threadLocal.nonceCount = world.threadLocal.nonceCount := rfl
  omega

/-- In any run, whatever the challenges and whatever the orders of the steps of the bridges, the trial gives the headers and
the errors of `build_digest_header`, and leaves the same world, as long as the counter cannot be full. -/
theorem trialRun_iff (hplain : ParsesPlainly env) (processId : Nat) (hvalued : ∀ entry ∈ trace, entry.1.Valued callbacks)
    (hroom : start.threadLocal.nonceCount + trace.length < 2 ^ 32) :
    TrialRun env callbacks processId start trace world ↔ (headerMachine env callbacks).Run start trace world := by
  constructor
  · intro htrial
    induction htrial with
    | nil => exact .nil
    | @snoc trace world world' input pristine result _ hlast ih =>
        rw [List.length_append, List.length_singleton, ← Nat.add_assoc] at hroom
        have hrun := ih (fun entry hentry => hvalued entry (List.mem_append_left _ hentry)) (Nat.lt_of_succ_lt hroom)
        have hready := ready_behind hrun hroom (hvalued _ (List.mem_append_right _ (List.mem_singleton_self _)))
        exact hrun.snoc (congrArg some ((digestTrial_iff hplain hready processId pristine).mp hlast))
  · intro hrun
    induction hrun with
    | nil => exact .nil
    | @snoc trace world world' input result hrun hlast ih =>
        rw [List.length_append, List.length_singleton, ← Nat.add_assoc] at hroom
        have htrial := ih (fun entry hentry => hvalued entry (List.mem_append_left _ hentry)) (Nat.lt_of_succ_lt hroom)
        have hready := ready_behind hrun hroom (hvalued _ (List.mem_append_right _ (List.mem_singleton_self _)))
        exact htrial.snoc ((digestTrial_iff hplain hready processId true).mpr (Option.some.inj hlast))

end Runs

/-! ### A run -/

theorem siteHash_length (value : Bytes) : ((fun _ => List.replicate 20 0 : Bytes → Bytes) value).length = 20 :=
  List.length_replicate

def siteDigestEnv : DigestEnv where
  md5 _ := List.replicate 16 0
  sha1 _ := List.replicate 20 0
  sha256 _ := List.replicate 32 0
  sha512 _ := List.replicate 64 0
  sha1_length := siteHash_length
  parse url := if url = text "http://h/p" then some ⟨text "http", true, text "/p", none⟩ else none
  overflowChecks := true

def siteCallbacks : DigestCallbacks Unit String where
  ctime := pure (text "t")
  urandom size := pure (List.replicate size 0)
  refusesNetloc _ := false
  valueError := "ValueError"
  keyError key := key
  attributeError message := message
  runtimeError message := message
  panicException panic := panic.message

/-- A challenge with all it needs. -/
def siteInput : DigestInput where
  chal := IndexMap.empty.insertAll
    [(text "realm", some (text "r")), (text "nonce", some (text "n")), (text "qop", some (text "auth"))]
  call := ⟨text "u", text "p", text "GET", text "http://h/p"⟩

theorem siteDigestEnv_plain : ParsesPlainly siteDigestEnv := by
  intro url parsed hparse
  change (if url = text "http://h/p" then _ else _) = some parsed at hparse
  split at hparse
  · obtain rfl := Option.some.inj hparse
    intro b hb
    have hbytes : b = 47 ∨ b = 112 := by simpa using (show b ∈ [47, 112] from hb)
    obtain rfl | rfl := hbytes <;> decide
  · cases hparse

theorem siteInput_valued : siteInput.Valued siteCallbacks := ⟨by decide, by decide, by decide⟩

/-- The challenge is answered twice, and its nonce is counted twice. -/
theorem site_trialRun : ∃ trace world, TrialRun siteDigestEnv siteCallbacks 7 { outer := () } trace world ∧
    trace.map Prod.fst = [siteInput, siteInput] ∧ world.threadLocal.nonceCount = 2 := by
  have hcomputed : ((headerMachine siteDigestEnv siteCallbacks).exec { outer := () } [siteInput, siteInput]).map
      (fun final => final.2.threadLocal.nonceCount) = some 2 := by decide
  obtain ⟨⟨trace, world⟩, hexec, hcount⟩ := Option.map_eq_some_iff.mp hcomputed
  have hinputs := Machine.exec_inputs hexec
  have hlength : trace.length = 2 := by rw [← List.length_map (f := Prod.fst), hinputs]; rfl
  refine ⟨trace, world, (trialRun_iff siteDigestEnv_plain 7 ?_ ?_).mpr (Machine.run_of_exec hexec), hinputs, hcount⟩
  · intro entry hentry
    have hmem := List.mem_map_of_mem (f := Prod.fst) hentry
    rw [hinputs] at hmem
    simp only [List.mem_cons, List.not_mem_nil, or_false, or_self] at hmem
    rw [hmem]
    exact siteInput_valued
  · rw [hlength]
    decide

end RequestsNative.Python
