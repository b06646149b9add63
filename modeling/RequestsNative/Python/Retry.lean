import RequestsNative.Ascii

/-!
# Retries

`retry.rs`, the budget of a request, and the loop of `native_adapter_leaf` that spends it. One turn of the loop is an
attempt and what is made of its outcome: an error or a response ends the send, or the budget lets it try again. Each
counter of the budget is `None`, a boolean or a number, as `urllib3` has them.

How long the loop sleeps between two attempts is left out; the sleep may raise, which ends the send.
-/

namespace RequestsNative.Python

/-! ### The budget -/

inductive RetryCount
  | unlimited
  | boolean (value : Bool)
  | limited (remaining : Nat)
  deriving DecidableEq, Repr

namespace RetryCount

def decrement : RetryCount → Option RetryCount
  | .unlimited => some .unlimited
  | .boolean true => some (.limited 0)
  | .boolean false | .limited 0 => none
  | .limited (remaining + 1) => some (.limited remaining)

def isTruthy : RetryCount → Bool
  | .boolean true | .limited (_ + 1) => true
  | _ => false

/-- The retries a counter is good for. -/
def retries : RetryCount → Option Nat
  | .unlimited => none
  | .boolean value => some value.toNat
  | .limited remaining => some remaining

end RetryCount

/-- `str::to_ascii_uppercase`. -/
def toAsciiUppercase (method : Bytes) : Bytes := method.map asciiUpper

/-- `MethodSet::allows`. -/
def methodSetAllows (methods : List Bytes) (method : Bytes) : Bool :=
  methods.isEmpty || methods.contains (toAsciiUppercase method)

structure RetryPolicy where
  total : RetryCount
  connect : RetryCount
  read : RetryCount
  status : RetryCount
  redirect : RetryCount
  other : RetryCount
  allowedMethods : Option (List Bytes)
  statusForcelist : List Nat
  respectRetryAfter : Bool
  raiseOnStatus : Bool
  deriving DecidableEq, Repr

inductive RetryReason
  | connect
  | read
  | status (status : Nat)
  | redirect (status : Nat)
  | other
  deriving DecidableEq, Repr

structure RetryHistory where
  reason : RetryReason
  method : Bytes
  url : Bytes
  redirectLocation : Option Bytes
  deriving DecidableEq, Repr

/-- `RetryFailure::Exhausted`. -/
structure RetryFailure where
  reason : RetryReason
  deriving DecidableEq, Repr

namespace RetryPolicy

/-- The counter of a reason. -/
def counter (policy : RetryPolicy) : RetryReason → RetryCount
  | .connect => policy.connect
  | .read => policy.read
  | .status _ => policy.status
  | .redirect _ => policy.redirect
  | .other => policy.other

def setCounter (policy : RetryPolicy) (count : RetryCount) : RetryReason → RetryPolicy
  | .connect => { policy with connect := count }
  | .read => { policy with read := count }
  | .status _ => { policy with status := count }
  | .redirect _ => { policy with redirect := count }
  | .other => { policy with other := count }

end RetryPolicy

structure RetryState where
  remaining : RetryPolicy
  history : List RetryHistory
  deriving DecidableEq, Repr

def isRedirectStatus (status : Nat) : Bool := [301, 302, 303, 307, 308].contains status

namespace RetryState

def withHistory (policy : RetryPolicy) (history : List RetryHistory) : RetryState := ⟨policy, history⟩

def allowsMethod (state : RetryState) (method : Bytes) : Bool :=
  state.remaining.allowedMethods.all fun methods => methodSetAllows methods method

def isRetry (state : RetryState) (method : Bytes) (status : Nat) (hasRetryAfter : Bool) : Bool :=
  state.allowsMethod method &&
    (state.remaining.statusForcelist.contains status ||
      (state.remaining.respectRetryAfter && state.remaining.total.isTruthy && hasRetryAfter &&
        [413, 429, 503].contains status))

/-- A redirect is counted as one. -/
def consumedReason (reason : RetryReason) (redirectLocation : Option Bytes) : RetryReason :=
  match reason, redirectLocation with
  | .status status, some location =>
      if location ≠ [] ∧ isRedirectStatus status = true then .redirect status else reason
  | _, _ => reason

def increment (state : RetryState) (reason : RetryReason) (method url : Bytes) (redirectLocation : Option Bytes) :
    Except RetryFailure RetryState :=
  let consumed := consumedReason reason redirectLocation
  match state.remaining.total.decrement with
  | none => .error ⟨consumed⟩
  | some total =>
      match (state.remaining.counter consumed).decrement with
      | none => .error ⟨consumed⟩
      | some count =>
          .ok ⟨{ state.remaining with total }.setCounter count consumed,
            state.history ++ [⟨consumed, method, url, redirectLocation⟩]⟩

end RetryState

/-! ### The loop -/

def retryReason (error : Error) : RetryReason :=
  match error.kind with
  | .connect | .connectTimeout | .dns => .connect
  | .readTimeout | .responseBody | .chunkedEncoding | .connection | .send => .read
  | _ => .other

/-- What is read of a response. A `Location` that is not text is none. -/
structure AdapterResponse where
  status : Nat
  location : Option Bytes
  retryAfter : Option Bytes
  deriving DecidableEq, Repr

def redirectLocation (response : AdapterResponse) : Option Bytes :=
  if isRedirectStatus response.status then response.location.filter (· ≠ []) else none

/-- The outcome of one attempt, and which of the calls after it return: draining the response, reading `Retry-After`
and sleeping can raise. -/
inductive Attempt
  | interrupted
  | failed (error : Error) (sleeps : Bool)
  | answered (response : AdapterResponse) (drains retryAfterRead sleeps : Bool)
  deriving DecidableEq, Repr

/-- What a send comes to. -/
inductive LeafResult
  /-- An error of Python: a signal, or one of the calls between two attempts. -/
  | interrupted
  | transportError (error : Error)
  | retryError (message : Bytes)
  | response (response : AdapterResponse)
  deriving DecidableEq, Repr

structure LeafInput where
  policy : RetryPolicy
  history : List RetryHistory
  methodName : Bytes
  url : Bytes
  deriving DecidableEq, Repr

/-- What an attempt comes to: the end of the send, or the state for another attempt. -/
def leafTurn (input : LeafInput) (state : RetryState) : Attempt → LeafResult ⊕ RetryState
  | .interrupted => .inl .interrupted
  | .failed error sleeps =>
      let reason := retryReason error
      if error.kind = .invalidHeader then .inl (.transportError error)
      else if reason = .read ∧ ¬state.allowsMethod input.methodName = true then .inl (.transportError error)
      else
        match state.increment reason input.methodName input.url none with
        | .ok next => if sleeps then .inr next else .inl .interrupted
        | .error _ => .inl (.transportError error)
  | .answered response drains retryAfterRead sleeps =>
      let hasRetryAfter := response.retryAfter.any (· ≠ [])
      if !state.isRetry input.methodName response.status hasRetryAfter then .inl (.response response)
      else
        match state.increment (.status response.status) input.methodName input.url (redirectLocation response) with
        | .error _ =>
            if input.policy.raiseOnStatus then
              if drains then .inl (.retryError (text "too many " ++ decimal response.status ++ text " responses"))
              else .inl .interrupted
            else .inl (.response response)
        | .ok next =>
            if !drains then .inl .interrupted
            else if input.policy.respectRetryAfter && hasRetryAfter && !retryAfterRead then .inl .interrupted
            else if sleeps then .inr next
            else .inl .interrupted

/-- The loop, on the outcomes of the attempts: how many attempts it makes, and the result if it ends. -/
def leafLoop (input : LeafInput) : RetryState → List Attempt → Nat × Option LeafResult
  | _, [] => (0, none)
  | state, attempt :: rest =>
      match leafTurn input state attempt with
      | .inl result => (1, some result)
      | .inr next => ((leafLoop input next rest).1 + 1, (leafLoop input next rest).2)

/-- `native_adapter_leaf`, from the first attempt on. -/
def nativeAdapterLeaf (input : LeafInput) (attempts : List Attempt) : Nat × Option LeafResult :=
  leafLoop input (.withHistory input.policy input.history) attempts

/-! ### What one retry costs -/

theorem decrement_retries {count next : RetryCount} (h : count.decrement = some next) {n : Nat} (hn : count.retries = some n) :
    ∃ m, next.retries = some m ∧ n = m + 1 := by
  match count, h, hn with
  | .boolean true, rfl, rfl => exact ⟨0, rfl, rfl⟩
  | .limited (remaining + 1), rfl, rfl => exact ⟨remaining, rfl, rfl⟩

namespace RetryPolicy

/-- The retries all counters together are good for, if each has a limit. -/
def categoryRetries (policy : RetryPolicy) : Option Nat := do
  return (← policy.connect.retries) + (← policy.read.retries) + (← policy.status.retries) + (← policy.redirect.retries) +
    (← policy.other.retries)

theorem setCounter_total (policy : RetryPolicy) (count : RetryCount) (reason : RetryReason) :
    (policy.setCounter count reason).total = policy.total := by
  cases reason <;> rfl

theorem setCounter_allowedMethods (policy : RetryPolicy) (count : RetryCount) (reason : RetryReason) :
    (policy.setCounter count reason).allowedMethods = policy.allowedMethods := by
  cases reason <;> rfl

theorem setCounter_categoryRetries {policy : RetryPolicy} {reason : RetryReason} {count : RetryCount}
    (hcount : (policy.counter reason).decrement = some count) {n : Nat} (hn : policy.categoryRetries = some n) :
    ∃ m, (policy.setCounter count reason).categoryRetries = some m ∧ n = m + 1 := by
  simp only [categoryRetries, bind, Option.bind_eq_some_iff, pure, Option.some.injEq] at hn
  obtain ⟨connect, hconnect, read, hread, status, hstatus, redirect, hredirect, other, hother, rfl⟩ := hn
  cases reason with
  | connect =>
      obtain ⟨m, hm, rfl⟩ := decrement_retries hcount hconnect
      exact ⟨m + read + status + redirect + other, by simp [categoryRetries, setCounter, *], by omega⟩
  | read =>
      obtain ⟨m, hm, rfl⟩ := decrement_retries hcount hread
      exact ⟨connect + m + status + redirect + other, by simp [categoryRetries, setCounter, *], by omega⟩
  | status code =>
      obtain ⟨m, hm, rfl⟩ := decrement_retries hcount hstatus
      exact ⟨connect + read + m + redirect + other, by simp [categoryRetries, setCounter, *], by omega⟩
  | redirect code =>
      obtain ⟨m, hm, rfl⟩ := decrement_retries hcount hredirect
      exact ⟨connect + read + status + m + other, by simp [categoryRetries, setCounter, *], by omega⟩
  | other =>
      obtain ⟨m, hm, rfl⟩ := decrement_retries hcount hother
      exact ⟨connect + read + status + redirect + m, by simp [categoryRetries, setCounter, *], by omega⟩

end RetryPolicy

/-- What a retry does to the budget. -/
structure Spends (state next : RetryState) : Prop where
  total : ∀ n, state.remaining.total.retries = some n → ∃ m, next.remaining.total.retries = some m ∧ n = m + 1
  category : ∀ n, state.remaining.categoryRetries = some n → ∃ m, next.remaining.categoryRetries = some m ∧ n = m + 1
  methods : next.remaining.allowedMethods = state.remaining.allowedMethods

theorem increment_spends {state next : RetryState} {reason : RetryReason} {method url : Bytes} {location : Option Bytes}
    (h : state.increment reason method url location = .ok next) : Spends state next := by
  unfold RetryState.increment at h
  simp only at h
  split at h
  · cases h
  rename_i total htotal
  split at h
  · cases h
  rename_i count hcount
  cases h
  refine ⟨fun n hn => ?_, fun n hn => ?_, ?_⟩
  · rw [RetryPolicy.setCounter_total]
    exact decrement_retries htotal hn
  · have hcounter : ({ state.remaining with total }.counter (RetryState.consumedReason reason location)).decrement =
        some count := hcount
    exact RetryPolicy.setCounter_categoryRetries hcounter hn
  · exact RetryPolicy.setCounter_allowedMethods _ _ _

/-- What an attempt must have come to for there to be another. -/
inductive Retried (input : LeafInput) (state : RetryState) : Attempt → Prop
  | failed {error : Error} {sleeps : Bool} : (retryReason error = .read → state.allowsMethod input.methodName = true) →
      Retried input state (.failed error sleeps)
  | answered {response : AdapterResponse} {drains retryAfterRead sleeps : Bool} : state.allowsMethod input.methodName = true →
      Retried input state (.answered response drains retryAfterRead sleeps)

theorem leafTurn_again {input : LeafInput} {state next : RetryState} {attempt : Attempt}
    (h : leafTurn input state attempt = .inr next) : Spends state next ∧ Retried input state attempt := by
  cases attempt with
  | interrupted => cases h
  | failed error sleeps =>
      unfold leafTurn at h
      simp only at h
      split at h
      · cases h
      split at h
      · cases h
      rename_i hread
      split at h
      · rename_i increased hincrement
        split at h
        · cases h
          refine ⟨increment_spends hincrement, .failed fun hreason => ?_⟩
          by_contra hnot
          exact hread ⟨hreason, hnot⟩
        · cases h
      · cases h
  | answered response drains retryAfterRead sleeps =>
      unfold leafTurn at h
      simp only at h
      split at h
      · cases h
      rename_i hretry
      simp only [RetryState.isRetry, Bool.not_eq_true', Bool.not_eq_false, Bool.and_eq_true] at hretry
      split at h
      · split at h
        · split at h <;> cases h
        · cases h
      · rename_i increased hincrement
        split at h
        · cases h
        split at h
        · cases h
        split at h
        · cases h
          exact ⟨increment_spends hincrement, .answered hretry.1⟩
        · cases h

/-! ### Runs of the loop -/

theorem leafLoop_bounded {input : LeafInput} (budget : RetryState → Option Nat)
    (hspends : ∀ state next, Spends state next → ∀ n, budget state = some n → ∃ m, budget next = some m ∧ n = m + 1)
    (attempts : List Attempt) {state : RetryState} {n : Nat} (hn : budget state = some n) :
    (leafLoop input state attempts).1 ≤ n + 1 ∧ (n < attempts.length → (leafLoop input state attempts).2 ≠ none) := by
  induction attempts generalizing state n with
  | nil => exact ⟨Nat.zero_le _, nofun⟩
  | cons attempt rest ih =>
      unfold leafLoop
      split
      · exact ⟨by omega, nofun⟩
      · rename_i next hturn
        obtain ⟨m, hm, rfl⟩ := hspends state next (leafTurn_again hturn).1 n hn
        obtain ⟨hcount, hends⟩ := ih hm
        exact ⟨by omega, fun hlength => hends (by simpa using hlength)⟩

/-- The errors after which the request may be on the wire. -/
def mayHaveBeenSent (kind : ErrorKind) : Bool :=
  [ErrorKind.send, .connection, .readTimeout, .responseBody, .chunkedEncoding].contains kind

theorem retryReason_read {error : Error} (h : mayHaveBeenSent error.kind = true) : retryReason error = .read := by
  unfold retryReason
  cases hkind : error.kind <;> first | rfl | (rw [hkind] at h; cases h)

theorem retryReason_cases (error : Error) :
    retryReason error = .connect ∨ retryReason error = .read ∨ retryReason error = .other := by
  unfold retryReason
  split <;> simp

/-- The attempt failed before the request could have been sent. -/
inductive FailedEarly : Attempt → Prop
  | failed {error : Error} {sleeps : Bool} : retryReason error = .connect ∨ retryReason error = .other →
      mayHaveBeenSent error.kind = false → FailedEarly (.failed error sleeps)

theorem failedEarly_of_not_read {error : Error} (h : retryReason error ≠ .read) (sleeps : Bool) :
    FailedEarly (.failed error sleeps) := by
  refine .failed ?_ ?_
  · rcases retryReason_cases error with hconnect | hread | hother
    · exact .inl hconnect
    · exact absurd hread h
    · exact .inr hother
  · cases hsent : mayHaveBeenSent error.kind with
    | false => rfl
    | true => exact absurd (retryReason_read hsent) h

theorem leafLoop_safe {input : LeafInput} (attempts : List Attempt) {state : RetryState}
    (hmethod : state.allowsMethod input.methodName = false) :
    ∀ i, i + 1 < (leafLoop input state attempts).1 → ∃ attempt, attempts[i]? = some attempt ∧ FailedEarly attempt := by
  induction attempts generalizing state with
  | nil => nofun
  | cons attempt rest ih =>
      intro i hi
      unfold leafLoop at hi
      split at hi
      · omega
      rename_i next hturn
      obtain ⟨hspends, hretried⟩ := leafTurn_again hturn
      have hstill : next.allowsMethod input.methodName = false := by
        rw [RetryState.allowsMethod, hspends.methods]
        exact hmethod
      cases i with
      | zero =>
          refine ⟨attempt, rfl, ?_⟩
          cases hretried with
          | failed hread =>
              refine failedEarly_of_not_read (fun hreason => ?_) _
              rw [hread hreason] at hmethod
              cases hmethod
          | answered hallowed =>
              rw [hallowed] at hmethod
              cases hmethod
      | succ i => exact ih hstill i (by simpa using hi)

/-- However the attempts turn out: a limit on `total`, or on each category, bounds their number by one more than the
limit, and the loop ends within it; and a request whose method may not be retried is only sent again after an error
that comes before anything was written. -/
theorem retry_loop_bounded_and_safe (input : LeafInput) (attempts : List Attempt) :
    (∀ n, input.policy.total = .limited n → (nativeAdapterLeaf input attempts).1 ≤ n + 1 ∧
      (n < attempts.length → (nativeAdapterLeaf input attempts).2 ≠ none)) ∧
    (∀ connect read status redirect other, input.policy.connect = .limited connect → input.policy.read = .limited read →
      input.policy.status = .limited status → input.policy.redirect = .limited redirect →
        input.policy.other = .limited other →
          (nativeAdapterLeaf input attempts).1 ≤ connect + read + status + redirect + other + 1 ∧
            (connect + read + status + redirect + other < attempts.length → (nativeAdapterLeaf input attempts).2 ≠ none)) ∧
    ((RetryState.withHistory input.policy input.history).allowsMethod input.methodName = false →
      ∀ i, i + 1 < (nativeAdapterLeaf input attempts).1 → ∃ attempt, attempts[i]? = some attempt ∧ FailedEarly attempt) := by
  refine ⟨fun n htotal => ?_, fun connect read status redirect other hconnect hread hstatus hredirect hother => ?_, ?_⟩
  · refine leafLoop_bounded (fun state => state.remaining.total.retries) (fun _ _ hspends => hspends.total) attempts ?_
    simp only [RetryState.withHistory, htotal, RetryCount.retries]
  · refine leafLoop_bounded (fun state => state.remaining.categoryRetries) (fun _ _ hspends => hspends.category) attempts ?_
    simp [RetryState.withHistory, RetryPolicy.categoryRetries, hconnect, hread, hstatus, hredirect, hother, RetryCount.retries]
  · exact leafLoop_safe attempts

private def postPolicy : RetryPolicy :=
  ⟨.limited 2, .unlimited, .unlimited, .unlimited, .unlimited, .boolean true, some [text "GET"], [503], true, true⟩

private def postInput : LeafInput := ⟨postPolicy, [], text "post", text "http://a/"⟩

private def refused : Attempt := .failed ⟨.connect, text "refused", none⟩ true

/-- A `POST` is tried again after a refused connection and not after an error of sending. -/
theorem retry_loop_post :
    nativeAdapterLeaf postInput [refused, .failed ⟨.send, text "reset", none⟩ true, refused] =
      (2, some (.transportError ⟨.send, text "reset", none⟩)) ∧
    (nativeAdapterLeaf postInput [refused, .failed ⟨.send, text "reset", none⟩ true, refused]).1 ≤ 2 + 1 ∧
    ∀ i, i + 1 < (nativeAdapterLeaf postInput [refused, .failed ⟨.send, text "reset", none⟩ true, refused]).1 →
      ∃ attempt, [refused, .failed ⟨.send, text "reset", none⟩ true, refused][i]? = some attempt ∧ FailedEarly attempt := by
  obtain ⟨htotal, -, hsafe⟩ :=
    retry_loop_bounded_and_safe postInput [refused, .failed ⟨.send, text "reset", none⟩ true, refused]
  exact ⟨by decide, (htotal 2 rfl).1, hsafe (by decide)⟩

end RequestsNative.Python
